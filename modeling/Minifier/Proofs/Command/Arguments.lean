import Minifier.Arguments.Invocation
import Minifier.Proofs.Answers

/-!
# Arguments that are read as options

A text without a dash in front is an operand or the value of a switch, and never a switch itself. So
the arguments that ask for a run are read as the options of that run, whatever its source and output
are (`Invocation.ofArguments_argumentsFor`).
-/

set_option autoImplicit false

namespace Minifier

namespace Argument

variable {α : Type} {switches : List (Switch α)} {text : String}

/-- A text that does not start with a dash. -/
def IsPlain (text : String) : Prop :=
  text.toList.head? ≠ some '-'

instance (text : String) : Decidable (IsPlain text) :=
  inferInstanceAs (Decidable (_ ≠ _))

/-- No text without a dash in front is taken for a switch. -/
theorem roleOf_of_isPlain (h : IsPlain text) : roleOf switches text = .ok .operand := by
  rw [roleOf]
  split
  · next hdashes => exact absurd (by rw [hdashes]; rfl) h
  · next hdash => exact absurd (by rw [hdash]; rfl) h
  · rfl

theorem IsPlain.ne_separator (h : IsPlain text) : text ≠ "--" := by
  rintro rfl
  exact h rfl

theorem ofTexts_cons {role : Role α} (hne : text ≠ "--") (hrole : roleOf switches text = .ok role)
    {rest : List String} {arguments : List (Argument α)}
    (hrest : ofTexts switches rest = .ok arguments) :
    ofTexts switches (text :: rest) = .ok (⟨text, role⟩ :: arguments) := by
  rw [ofTexts, if_neg hne, hrole, hrest]
  rfl

theorem ofTexts_cons_of_isPlain (h : IsPlain text) {rest : List String}
    {arguments : List (Argument α)} (hrest : ofTexts switches rest = .ok arguments) :
    ofTexts switches (text :: rest) = .ok (⟨text, .operand⟩ :: arguments) :=
  ofTexts_cons h.ne_separator (roleOf_of_isPlain h) hrest

/-- Without a double dash, each part of the arguments is read by itself. -/
theorem ofTexts_append (first : List String) {rest : List String}
    {arguments others : List (Argument α)}
    (hseparator : "--" ∉ first) (hfirst : ofTexts switches first = .ok arguments)
    (hrest : ofTexts switches rest = .ok others) :
    ofTexts switches (first ++ rest) = .ok (arguments ++ others) := by
  induction first generalizing arguments with
  | nil =>
    cases hfirst
    exact hrest
  | cons text first ih =>
    rw [List.mem_cons, not_or] at hseparator
    -- the first text is no separator, so it is read by its role and the rest behind it
    have hne : text ≠ "--" := Ne.symm hseparator.1
    rw [ofTexts, if_neg hne] at hfirst
    cases hrole : roleOf switches text with
    | error fault =>
      rw [hrole] at hfirst
      cases hfirst
    | ok role =>
      rw [hrole] at hfirst
      cases hread : ofTexts switches first with
      | error fault =>
        rw [hread] at hfirst
        cases hfirst
      | ok read =>
        rw [hread] at hfirst
        cases hfirst
        exact ofTexts_cons hne hrole (ih hseparator.2 hread)

end Argument

namespace Invocation

open Argument

/-! ## The arguments of a run -/

/-- The switches of a run. -/
def switchesFor (output : Option String) (combine laravel : Bool) : List String :=
  (if combine then ["-c"] else []) ++ ((if laravel then ["-l"] else []) ++
    (output.map fun output => ["-o", output]).getD [])

/-- The arguments that ask for a run. -/
def argumentsFor (source : String) (output : Option String) (combine laravel : Bool) :
    List String :=
  "minify" :: source :: switchesFor output combine laravel

variable {source : String} {output : Option String} {combine laravel : Bool}

/-- What the switches are taken for by the command that minifies. -/
def rolesFor (output : Option String) (combine laravel : Bool) : List (Argument MinifySwitch) :=
  (if combine then
      [⟨"-c", .letter { spellings := ["-c", "--combine"], meaning := .combine } []⟩] else []) ++
    ((if laravel then [⟨"-l", .letter laravelSwitch []⟩] else []) ++
      (output.map fun output =>
        [⟨"-o", .letter {
          spellings := ["-o", "--output"], takesValue := true, meaning := .output } []⟩,
        ⟨output, .operand⟩]).getD [])

/-- The switches of a run are known to the command that minifies. -/
theorem ofTexts_switchesFor (houtput : ∀ text, output = some text → IsPlain text) :
    ofTexts minifySwitches (switchesFor output combine laravel) =
      .ok (rolesFor output combine laravel) := by
  refine ofTexts_append _ ?_ ?_ (ofTexts_append _ ?_ ?_ ?_)
  · cases combine <;> decide
  · cases combine <;> rfl
  · cases laravel <;> decide
  · cases laravel <;> rfl
  · cases output with
    | none => rfl
    | some output =>
      exact ofTexts_cons (by decide) rfl (ofTexts_cons_of_isPlain (houtput output rfl) rfl)

/-- The program itself takes the switches behind a command for nothing that it knows. -/
theorem exists_ofTexts_mainSwitches (combine laravel : Bool)
    (houtput : ∀ text, output = some text → IsPlain text) :
    ∃ arguments, ofTexts mainSwitches (switchesFor output combine laravel) = .ok arguments ∧
      arguments.map Argument.text = switchesFor output combine laravel := by
  cases output with
  | none =>
    cases combine <;> cases laravel <;> exact ⟨_, rfl, rfl⟩
  | some output =>
    have hread : ofTexts mainSwitches ["-o", output] =
        .ok [⟨"-o", .strange⟩, ⟨output, .operand⟩] :=
      ofTexts_cons (by decide) rfl (ofTexts_cons_of_isPlain (houtput output rfl) rfl)
    cases combine <;> cases laravel
    · exact ⟨_, hread, rfl⟩
    · exact ⟨_, ofTexts_append ["-l"] (by decide) rfl hread, rfl⟩
    · exact ⟨_, ofTexts_append ["-c"] (by decide) rfl hread, rfl⟩
    · exact ⟨_, ofTexts_append ["-c", "-l"] (by decide) rfl hread, rfl⟩

/-- The options that the arguments of a run are read as. -/
theorem ofArguments_argumentsFor (hsource : IsPlain source)
    (houtput : ∀ text, output = some text → IsPlain text) :
    ofArguments (argumentsFor source output combine laravel) = .ok (.minify {
      source, output, combine
      framework := if laravel then some "laravel" else none }) := by
  have hoptions : minifyOptions (source :: switchesFor output combine laravel) =
      .ok ({
        source, output, combine
        framework := if laravel then some "laravel" else none }, []) := by
    rw [minifyOptions, ofTexts_cons_of_isPlain hsource (ofTexts_switchesFor houtput)]
    cases output <;> cases combine <;> cases laravel <;> rfl
  -- the program itself hands all that stands behind the command on to it
  obtain ⟨arguments, hread, htexts⟩ := exists_ofTexts_mainSwitches combine laravel houtput
  have hcommand : ofTexts mainSwitches (argumentsFor source output combine laravel) =
      .ok (⟨"minify", .operand⟩ :: ⟨source, .operand⟩ :: arguments) :=
    ofTexts_cons_of_isPlain (by decide) (ofTexts_cons_of_isPlain hsource hread)
  have htake :
      Draft.take {} (.operands ("minify" :: source :: switchesFor output combine laravel)) =
      .ok {
        invocation := some (.minify {
          source, output, combine
          framework := if laravel then some "laravel" else none }) } := by
    exact bind_eq_ok_iff.2 ⟨_, map_eq_ok_iff.2 ⟨_, hoptions, rfl⟩, rfl⟩
  rw [← htexts] at htake
  have hdraft : ([.operands ("minify" :: source :: arguments.map Argument.text)] :
        List (Step MainSwitch)).foldlM Draft.take {} = .ok _ :=
    bind_eq_ok_iff.2 ⟨_, htake, rfl⟩
  exact bind_eq_ok_iff.2 ⟨_, mapError_eq_ok_iff.2 hcommand, bind_eq_ok_iff.2 ⟨_, hdraft, rfl⟩⟩

end Invocation

end Minifier
