/-!
# Log records

What the parts of the program report while they work. A `Logged` value carries the records that
were written on the way to it, oldest first.
-/

set_option autoImplicit false

namespace Minifier

/-- How important a record is. -/
inductive Severity where
  | debug
  | info
  | warning
  | error
  deriving DecidableEq, Repr

/-- The name of a severity. -/
def Severity.name : Severity → String
  | .debug => "DEBUG"
  | .info => "INFO"
  | .warning => "WARNING"
  | .error => "ERROR"

/-- The rank of a severity; a more important one ranks higher. -/
def Severity.rank : Severity → Nat
  | .debug => 10
  | .info => 20
  | .warning => 30
  | .error => 40

/-- One line of a log: how important it is, the full name of the logger that wrote it, and its
text. -/
structure LogRecord where
  severity : Severity
  logger : String
  message : String
  deriving DecidableEq, Repr

/-- The name of the logger that all others descend from. -/
def mainLogger : String :=
  "fileminifier"

/-- The full name of a logger. Without a name of its own it is the main one. -/
def loggerName (name : String) : String :=
  if name.isEmpty then mainLogger else mainLogger ++ "." ++ name

/-- A value together with the records written on the way to it, oldest first. -/
structure Logged (α : Type) where
  records : List LogRecord
  value : α
  deriving Repr

namespace Logged

instance : Monad Logged where
  pure value := ⟨[], value⟩
  bind first next := ⟨first.records ++ (next first.value).records, (next first.value).value⟩

/-- Writes one record. -/
def write (record : LogRecord) : Logged Unit :=
  ⟨[record], ()⟩

/-- Writes one record of the logger with a given name below the main one. -/
def tell (severity : Severity) (logger message : String) : Logged Unit :=
  write ⟨severity, loggerName logger, message⟩

@[simp]
theorem value_pure {α : Type} (value : α) : (pure value : Logged α).value = value :=
  rfl

@[simp]
theorem records_pure {α : Type} (value : α) : (pure value : Logged α).records = [] :=
  rfl

@[simp]
theorem value_bind {α β : Type} (first : Logged α) (next : α → Logged β) :
    (first >>= next).value = (next first.value).value :=
  rfl

@[simp]
theorem records_bind {α β : Type} (first : Logged α) (next : α → Logged β) :
    (first >>= next).records = first.records ++ (next first.value).records :=
  rfl

end Logged

end Minifier
