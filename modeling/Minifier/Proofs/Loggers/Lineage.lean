import Mathlib.Data.List.Basic
import Minifier.Loggers

/-!
# Which loggers stand below the main one

A dot of a name is passed over only if the letter behind it is a dot too, at which the name was cut
to no avail. So the cuts of a name can be followed through any letter that is no dot
(`Loggers.exists_elders_append`). A logger whose own name does not begin with a dot stands below the
main logger (`Loggers.mainLogger_mem_lineage`), whatever loggers are known besides. One whose own
name begins with one dot, and not with two, never does
(`Loggers.Regular.mainLogger_notMem_lineage`): its name leads there only through a name that ends in
a dot, and no logger has that.

As no logger but the main one has a rank or a sink (`Loggers.Regular`), all that counts of a lineage
is whether the main logger is in it (`Loggers.Regular.sinksAlong_of_mem`,
`Loggers.Regular.rankAlong_of_mem`).
-/

set_option autoImplicit false

namespace Minifier

/-- A logger without a rank and without sinks, which passes its records on. -/
structure Logger.IsPlain (logger : Logger) : Prop where
  rank : logger.rank = 0
  passesOn : logger.passesOn = true
  sinks : logger.sinks = []

namespace Loggers

variable {loggers : Loggers} {name other : String} {logger : Logger}

/-! ## One logger -/

theorem known_set (loggers : Loggers) (name other : String) (logger : Logger) :
    (loggers.set name logger).known other =
      if other = name then some logger else loggers.known other :=
  rfl

theorem logger_set (loggers : Loggers) (name other : String) (logger : Logger) :
    (loggers.set name logger).logger other =
      if other = name then logger else loggers.logger other := by
  rw [Loggers.logger, known_set]
  split
  · rfl
  · rfl

@[simp]
theorem logger_set_self (loggers : Loggers) (name : String) (logger : Logger) :
    (loggers.set name logger).logger name = logger := by
  rw [logger_set, if_pos rfl]

theorem logger_set_of_ne (h : other ≠ name) :
    (loggers.set name logger).logger other = loggers.logger other := by
  rw [logger_set, if_neg h]

/-- A logger that is asked for is as it was. -/
@[simp]
theorem logger_ask (loggers : Loggers) (name other : String) :
    (loggers.ask name).logger other = loggers.logger other := by
  rw [ask, logger_set]
  split
  · next h => rw [h]
  · rfl

theorem known_forget (loggers : Loggers) (name : String) :
    loggers.forget.known name =
      (loggers.known name).map fun logger => { logger with said := fun _ => none } :=
  rfl

@[simp]
theorem logger_forget (loggers : Loggers) (name : String) :
    loggers.forget.logger name = { loggers.logger name with said := fun _ => none } := by
  rw [Loggers.logger, known_forget, Loggers.logger]
  cases loggers.known name with
  | none => rfl
  | some logger => rfl

/-- A logger that remembers what it says of a rank is otherwise as it was. -/
theorem remember_keeps (loggers : Loggers) (name : String) (rank : Int) (other : String) :
    ((loggers.remember name rank).logger other).rank = (loggers.logger other).rank ∧
      ((loggers.remember name rank).logger other).passesOn = (loggers.logger other).passesOn ∧
      ((loggers.remember name rank).logger other).sinks = (loggers.logger other).sinks := by
  rw [remember, logger_set]
  split
  · next h =>
    rw [h]
    exact ⟨rfl, rfl, rfl⟩
  · exact ⟨rfl, rfl, rfl⟩

theorem said_remember (loggers : Loggers) (name : String) (rank : Int) (other : String)
    (rank' : Int) :
    ((loggers.remember name rank).logger other).said rank' =
      if other = name ∧ rank' = rank then some (loggers.accepts name rank)
      else (loggers.logger other).said rank' := by
  rw [remember, logger_set]
  by_cases hname : other = name
  · simp [hname]
  · simp [hname]

theorem isSome_known_set (loggers : Loggers) (name other : String) (logger : Logger) :
    ((loggers.set name logger).known other).isSome = true ↔
      other = name ∨ (loggers.known other).isSome = true := by
  rw [known_set]
  split
  · next h => simp [h]
  · next h => simp [h]

theorem isSome_known_forget (loggers : Loggers) (name : String) :
    (loggers.forget.known name).isSome = (loggers.known name).isSome := by
  rw [known_forget, Option.isSome_map]

/-! ## Cuts of a name -/

theorem elders_cons_of_ne {c : Char} (hc : c ≠ '.') (rest : List Char) :
    loggers.elders (c :: rest) = loggers.elders rest := by
  rw [elders]
  intro _ _ hdot
  exact absurd hdot hc

theorem elders_dot_of_known {letters : List Char} (hletters : letters ≠ [])
    (h : (loggers.known (String.ofList letters.reverse)).isSome = true) :
    loggers.elders ('.' :: letters) = String.ofList letters.reverse :: loggers.elders letters := by
  cases letters with
  | nil => exact absurd rfl hletters
  | cons c rest =>
    rw [elders]
    exact if_pos h

theorem elders_dot_of_unknown {c : Char} {rest : List Char}
    (h : ¬ (loggers.known (String.ofList (c :: rest).reverse)).isSome = true) :
    loggers.elders ('.' :: c :: rest) = loggers.elders rest := by
  rw [elders]
  exact if_neg h

/-- Where the same names are known, the same loggers are above one. -/
theorem elders_congr {loggers' : Loggers}
    (h : ∀ name, (loggers'.known name).isSome = (loggers.known name).isSome) :
    ∀ letters, loggers'.elders letters = loggers.elders letters
  | [] => rfl
  | [c] => by
    by_cases hc : c = '.'
    · subst hc
      rfl
    · rw [elders_cons_of_ne hc, elders_cons_of_ne hc]
      exact elders_congr h []
  | c :: d :: rest => by
    by_cases hc : c = '.'
    · subst hc
      rw [elders, elders, h, elders_congr h (d :: rest), elders_congr h rest]
    · rw [elders_cons_of_ne hc, elders_cons_of_ne hc]
      exact elders_congr h (d :: rest)

/-- The cuts go on before letters of which the first one of the name is no dot. The names that they
give until then are longer than what stands before. -/
theorem exists_elders_append (loggers : Loggers) (rest : List Char) :
    ∀ letters : List Char, letters.getLast? ≠ some '.' →
      ∃ nearer, loggers.elders (letters ++ rest) = nearer ++ loggers.elders rest ∧
        ∀ name ∈ nearer, rest.length < name.toList.length
  | [], _ => ⟨[], rfl, fun _ h => absurd h List.not_mem_nil⟩
  | [c], hlast => by
    have hc : c ≠ '.' := fun h => hlast (h ▸ rfl)
    exact ⟨[], elders_cons_of_ne hc rest, fun _ h => absurd h List.not_mem_nil⟩
  | c :: d :: letters, hlast => by
    rw [List.getLast?_cons_cons] at hlast
    by_cases hc : c = '.'
    · subst hc
      by_cases hknown :
          (loggers.known (String.ofList (d :: (letters ++ rest)).reverse)).isSome = true
      · -- Below a known logger the letter before the dot is looked at again.
        obtain ⟨nearer, hnearer, hlong⟩ := exists_elders_append loggers rest (d :: letters) hlast
        refine ⟨String.ofList (d :: (letters ++ rest)).reverse :: nearer, ?_, ?_⟩
        · rw [List.cons_append, List.cons_append, elders_dot_of_known (List.cons_ne_nil _ _) hknown,
            List.cons_append, ← hnearer, List.cons_append]
        · refine List.forall_mem_cons.2 ⟨?_, hlong⟩
          rw [String.toList_ofList, List.length_reverse, List.length_cons, List.length_append]
          omega
      · -- Else it is passed over, whatever it is.
        have hrest : letters.getLast? ≠ some '.' := by
          cases letters with
          | nil => simp
          | cons e letters => rwa [List.getLast?_cons_cons] at hlast
        obtain ⟨nearer, hnearer, hlong⟩ := exists_elders_append loggers rest letters hrest
        refine ⟨nearer, ?_, hlong⟩
        rw [List.cons_append, List.cons_append, elders_dot_of_unknown hknown, hnearer]
    · obtain ⟨nearer, hnearer, hlong⟩ := exists_elders_append loggers rest (d :: letters) hlast
      refine ⟨nearer, ?_, hlong⟩
      rw [List.cons_append, elders_cons_of_ne hc, hnearer]

theorem elders_of_dotless {letters : List Char} (h : '.' ∉ letters) :
    loggers.elders letters = [] := by
  induction letters with
  | nil => rfl
  | cons c rest ih =>
    rw [List.mem_cons, not_or] at h
    rw [elders_cons_of_ne (Ne.symm h.1), ih h.2]

/-! ## Names below the main one -/

theorem toList_mainLogger :
    mainLogger.toList = ['f', 'i', 'l', 'e', 'm', 'i', 'n', 'i', 'f', 'i', 'e', 'r'] := by
  rfl

theorem toList_loggerName (h : name ≠ "") :
    (loggerName name).toList = mainLogger.toList ++ '.' :: name.toList := by
  rw [loggerName, if_neg (by simpa using h), String.toList_append, String.toList_append,
    List.append_assoc]
  rfl

theorem loggerName_empty : loggerName "" = mainLogger := by
  rfl

/-- The letters of a full name before those of the main one, from the last one on. -/
theorem reverse_loggerName (h : name ≠ "") :
    (loggerName name).toList.reverse =
      name.toList.reverse ++ '.' :: mainLogger.toList.reverse := by
  rw [toList_loggerName h, List.reverse_append, List.reverse_cons, List.append_assoc]
  rfl

theorem elders_mainLogger : loggers.elders mainLogger.toList.reverse = [] := by
  apply elders_of_dotless
  rw [toList_mainLogger]
  decide

theorem elders_dot_mainLogger (h : (loggers.known mainLogger).isSome = true) :
    loggers.elders ('.' :: mainLogger.toList.reverse) = [mainLogger] := by
  have hname : String.ofList mainLogger.toList.reverse.reverse = mainLogger := by
    rw [List.reverse_reverse, String.ofList_toList]
  rw [elders_dot_of_known (by rw [toList_mainLogger]; decide) (by rwa [hname]), hname,
    elders_mainLogger]

/-- A name that does not begin with a dot stands below the main logger. -/
theorem mainLogger_mem_lineage (hknown : (loggers.known mainLogger).isSome = true)
    (hname : name.toList.head? ≠ some '.') :
    mainLogger ∈ loggers.lineage (loggerName name) := by
  by_cases hempty : name = ""
  · rw [hempty, loggerName_empty]
    exact List.mem_cons_self
  · rw [lineage, reverse_loggerName hempty]
    obtain ⟨nearer, hnearer, -⟩ := exists_elders_append loggers
      ('.' :: mainLogger.toList.reverse) name.toList.reverse (by rwa [List.getLast?_reverse])
    rw [hnearer, elders_dot_mainLogger hknown]
    simp

/-! ## The loggers that there can be -/

/-- Loggers with names that can be asked for, of which all but the main one are plain. -/
structure Regular (loggers : Loggers) : Prop where
  plain : ∀ name, name ≠ mainLogger → (loggers.logger name).IsPlain
  named : ∀ full, (loggers.known full).isSome = true → ∃ name, full = loggerName name

theorem regular_fresh (lastResort : Bool) : Regular { lastResort } :=
  ⟨fun _ _ => ⟨rfl, rfl, rfl⟩, fun _ h => absurd h Bool.false_ne_true⟩

theorem Regular.set (h : Regular loggers)
    (hlogger : loggerName name ≠ mainLogger → logger.IsPlain) :
    Regular (loggers.set (loggerName name) logger) where
  plain other hother := by
    rw [logger_set]
    split
    · next heq => exact hlogger (heq ▸ hother)
    · exact h.plain other hother
  named full hfull := by
    rcases (isSome_known_set loggers _ full logger).1 hfull with heq | hfull
    · exact ⟨name, heq⟩
    · exact h.named full hfull

theorem Regular.ask (h : Regular loggers) (name : String) :
    Regular (loggers.ask (loggerName name)) :=
  h.set (h.plain _)

theorem Regular.remember (h : Regular loggers) (name : String) (rank : Int) :
    Regular (loggers.remember (loggerName name) rank) := by
  apply h.set
  intro hname
  obtain ⟨hrank, hpasses, hsinks⟩ := h.plain _ hname
  exact ⟨hrank, hpasses, hsinks⟩

theorem Regular.forget (h : Regular loggers) : Regular loggers.forget where
  plain name hname := by
    obtain ⟨hrank, hpasses, hsinks⟩ := h.plain name hname
    rw [logger_forget]
    exact ⟨hrank, hpasses, hsinks⟩
  named full hfull := by
    rw [isSome_known_forget] at hfull
    exact h.named full hfull

/-- No logger has the name of the main one with a dot behind it. -/
theorem Regular.known_dot (h : Regular loggers) :
    ¬ (loggers.known (String.ofList ('.' :: mainLogger.toList.reverse).reverse)).isSome = true := by
  intro hknown
  obtain ⟨name, hname⟩ := h.named _ hknown
  have hletters := congrArg String.toList hname
  rw [String.toList_ofList, List.reverse_cons, List.reverse_reverse] at hletters
  by_cases hempty : name = ""
  · rw [hempty, loggerName_empty, List.append_right_eq_self] at hletters
    cases hletters
  · rw [toList_loggerName hempty, List.append_cancel_left_eq] at hletters
    exact hempty (String.toList_eq_nil_iff.1 (List.cons.inj hletters).2.symm)

/-- A name that begins with one dot does not stand below the main logger. -/
theorem Regular.mainLogger_notMem_lineage (h : Regular loggers) {rest : List Char}
    (hname : name.toList = '.' :: rest) (hrest : rest.head? ≠ some '.') :
    mainLogger ∉ loggers.lineage (loggerName name) := by
  have hempty : name ≠ "" := by
    rintro rfl
    cases hname
  have hletters : (loggerName name).toList.reverse =
      rest.reverse ++ '.' :: '.' :: mainLogger.toList.reverse := by
    rw [reverse_loggerName hempty, hname, List.reverse_cons, List.append_assoc]
    rfl
  obtain ⟨nearer, hnearer, hlong⟩ := exists_elders_append loggers
    ('.' :: '.' :: mainLogger.toList.reverse) rest.reverse (by rwa [List.getLast?_reverse])
  rw [lineage, hletters, hnearer, elders_dot_of_unknown h.known_dot, elders_mainLogger,
    List.append_nil, List.mem_cons, not_or]
  refine ⟨?_, ?_⟩
  · intro hmain
    have hlength := congrArg (fun name => name.toList.length) hmain
    simp [toList_loggerName hempty] at hlength
  · intro hmain
    have hlength := hlong mainLogger hmain
    simp at hlength
    omega

/-! ## What counts of a lineage -/

theorem Regular.sinksAlong_of_mem (h : Regular loggers)
    (hkeeps : (loggers.logger mainLogger).passesOn = false) {names : List String}
    (hmain : mainLogger ∈ names) :
    loggers.sinksAlong names = (loggers.logger mainLogger).sinks := by
  induction names with
  | nil => exact absurd hmain List.not_mem_nil
  | cons name above ih =>
    rw [sinksAlong]
    by_cases hname : name = mainLogger
    · simp [hname, hkeeps]
    · obtain ⟨-, hpasses, hsinks⟩ := h.plain name hname
      simp only [hpasses, hsinks, if_true, List.nil_append]
      exact ih ((List.mem_cons.1 hmain).resolve_left (Ne.symm hname))

theorem Regular.sinksAlong_of_notMem (h : Regular loggers) {names : List String}
    (hmain : mainLogger ∉ names) : loggers.sinksAlong names = [] := by
  induction names with
  | nil => rfl
  | cons name above ih =>
    rw [List.mem_cons, not_or] at hmain
    obtain ⟨-, hpasses, hsinks⟩ := h.plain name (Ne.symm hmain.1)
    rw [sinksAlong]
    simp only [hpasses, hsinks, if_true, List.nil_append]
    exact ih hmain.2

theorem Regular.rankAlong_of_mem (h : Regular loggers)
    (hset : (loggers.logger mainLogger).rank ≠ 0) {names : List String}
    (hmain : mainLogger ∈ names) :
    loggers.rankAlong names = (loggers.logger mainLogger).rank := by
  induction names with
  | nil => exact absurd hmain List.not_mem_nil
  | cons name above ih =>
    rw [rankAlong]
    by_cases hname : name = mainLogger
    · simp [hname, hset]
    · simp only [(h.plain name hname).rank, if_true]
      exact ih ((List.mem_cons.1 hmain).resolve_left (Ne.symm hname))

end Loggers

end Minifier
