import Minifier.Failure
import Minifier.Proofs.Yaml.Values

/-!
# What can be wrong with the text of settings

Settings are asked for texts, and the text of an integer is not written out when it has too many
digits. `Asked` says where settings ask for an integer, and `Asks` what a computation that asks for
some does: it gives a value only if all of them can be written out, and fails for a reason of its
own or because one of them cannot. One lemma a function leads to `asks_ofValues`.

With the faults of reading values this makes up all the causes for which a text gives something else
than settings or an error of settings (`Cause`, `meets_ofText`).
-/

set_option autoImplicit false

namespace Minifier

namespace Settings

open Yaml (Scalar Value Values)

/-! ## Integers that are asked for -/

/-- An integer of more digits than are written out. -/
def IsLong (n : Int) : Prop :=
  Nat.pow 10 Integer.digitLimit ≤ n.natAbs

/-- An integer is an item of a list. -/
def IsItem (values : Values) (value : Value) (n : Int) : Prop :=
  ∃ items, value = .list items ∧ ∃ number ∈ items, values.at number = .scalar (.int n)

/-- The mapping of a group has an integer for its name or its pattern. -/
def IsPart (values : Values) (group : Value) (n : Int) : Prop :=
  member values "name" (entriesOf group) = .scalar (.int n) ∨
    member values "pattern" (entriesOf group) = .scalar (.int n)

/-- Where the mapping of a rule set asks for the text of an integer. -/
inductive AskedOfRule (values : Values) (entries : List (Scalar × Nat)) (n : Int) : Prop where
  | including (item : IsItem values (member values "include" entries) n)
  | excluding (item : IsItem values (member values "exclude" entries) n)
  | cleanup (item : IsItem values (member values "content_cleanup" entries) n)
  | group (items : List Nat) (listed : member values "groups" entries = .list items)
      (part : ∃ number ∈ items, IsPart values (values.at number) n)

/-- Where an entry of the rules asks for the text of an integer: in its mapping, and in its key
unless the mapping is empty. -/
def AskedOfEntry (values : Values) (entry : Scalar × Nat) (n : Int) : Prop :=
  AskedOfRule values (entriesOf (values.at entry.2)) n ∨
    entriesOf (values.at entry.2) ≠ [] ∧ entry.1 = .int n

/-- Where the mapping of settings asks for the text of an integer. -/
inductive Asked (values : Values) (entries : List (Scalar × Nat)) (n : Int) : Prop where
  | output (written : member values "output" entries = .scalar (.int n))
  | logFile (written : member values "log_file" entries = .scalar (.int n))
  | rule (entry : Scalar × Nat) (listed : entry ∈ entriesOf (member values "rules" entries))
      (asked : AskedOfEntry values entry n)
  | excludePath (item : IsItem values (member values "exclude_paths" entries) n)

variable {ε α β : Type} {tooLong : ε} {others : ε → Prop} {asked asked' : Int → Prop}

/-- A computation that asks for the texts of integers: it gives a value only if none of them is too
long, and fails for another reason or because one of them is. -/
def Asks (tooLong : ε) (others : ε → Prop) (asked : Int → Prop) (answer : Except ε α) : Prop :=
  Meets (fun _ => ∀ n, asked n → ¬ IsLong n)
    (fun e => others e ∨ e = tooLong ∧ ∃ n, asked n ∧ IsLong n) answer

-- no proof may compute the power that integers are compared with
attribute [local irreducible] Integer.digitLimit

namespace Asks

/-- A value that needs no integer. -/
theorem ok {a : α} (h : ∀ n, ¬ asked n) : Asks tooLong others asked (.ok a : Except ε α) :=
  fun n hn => absurd hn (h n)

theorem error {e : ε} (h : others e) : Asks tooLong others asked (.error e : Except ε α) :=
  .inl h

theorem congr {answer : Except ε α} (h : Asks tooLong others asked answer)
    (hasked : ∀ n, asked n ↔ asked' n) : Asks tooLong others asked' answer := by
  rwa [← funext fun n => propext (hasked n)]

theorem bind {answer : Except ε α} {next : α → Except ε β} (h : Asks tooLong others asked answer)
    (hnext : ∀ a, Asks tooLong others asked' (next a)) :
    Asks tooLong others (fun n => asked n ∨ asked' n) (answer >>= next) := by
  cases answer with
  | error e =>
    rcases h with hother | ⟨he, n, hn, hlong⟩
    · exact .inl hother
    · exact .inr ⟨he, n, .inl hn, hlong⟩
  | ok a =>
    apply (hnext a).mono
    · intro b hb n hn
      rcases hn with hn | hn
      · exact h n hn
      · exact hb n hn
    · rintro e (hother | ⟨he, n, hn, hlong⟩)
      · exact .inl hother
      · exact .inr ⟨he, n, .inr hn, hlong⟩

/-- What follows asks for nothing. -/
theorem bind_last {answer : Except ε α} {next : α → Except ε β} (h : Asks tooLong others asked answer)
    (hnext : ∀ a, Asks tooLong others (fun _ => False) (next a)) :
    Asks tooLong others asked (answer >>= next) :=
  (h.bind hnext).congr fun _ => iff_of_eq (or_false _)

/-- What follows gives a value. -/
theorem bind_ok {f : α → β} {answer : Except ε α} (h : Asks tooLong others asked answer) :
    Asks tooLong others asked (answer >>= fun a => .ok (f a)) :=
  h.bind_last fun _ => ok fun _ => id

theorem map {f : α → β} {answer : Except ε α} (h : Asks tooLong others asked answer) :
    Asks tooLong others asked (answer.map f) :=
  Meets.map h fun _ ha => ha

theorem foldlM {asked : α → Int → Prop} {f : β → α → Except ε β} {list : List α}
    (h : ∀ b, ∀ a ∈ list, Asks tooLong others (asked a) (f b a)) (start : β) :
    Asks tooLong others (fun n => ∃ a ∈ list, asked a n) (list.foldlM f start) := by
  induction list generalizing start with
  | nil => exact ok (by simp)
  | cons a list ih =>
    rw [List.foldlM_cons]
    have hrest := fun b => ih (fun b a ha => h b a (List.mem_cons_of_mem _ ha)) b
    exact ((h start a List.mem_cons_self).bind hrest).congr (by simp)

theorem mapM {asked : α → Int → Prop} {f : α → Except ε β} {list : List α}
    (h : ∀ a, Asks tooLong others (asked a) (f a)) :
    Asks tooLong others (fun n => ∃ a ∈ list, asked a n) (list.mapM f) := by
  induction list with
  | nil => exact ok (by simp)
  | cons a list ih =>
    rw [List.mapM_cons]
    exact ((h a).bind fun b => ih.bind_ok).congr (by simp)

end Asks

/-! ## Texts of values -/

variable {values : Values} {entries : List (Scalar × Nat)} {key : String} {root : Path}
  {file : String} {text : List Char}

/-- A value that is asked for texts. Nothing else can go wrong with it. -/
def AsksValue (asked : Int → Prop) (answer : Except Yaml.Fault α) : Prop :=
  Asks .numberTooLong (fun _ => False) asked answer

theorem asksValue_intText (n : Int) : AsksValue (· = n) (intText n) := by
  rw [intText]
  refine Meets.ite (fun hlong => .inr ⟨rfl, n, rfl, hlong⟩) fun hshort => ?_
  rintro _ rfl
  exact hshort

theorem asksValue_scalarText (scalar : Scalar) : AsksValue (scalar = .int ·) (scalarText scalar) := by
  cases scalar with
  | int n =>
    rw [scalarText]
    exact (asksValue_intText n).congr fun m => by simp [eq_comm]
  | _ => exact Asks.ok (by simp)

theorem asksValue_textOf? (value : Value) :
    AsksValue (fun n => value = .scalar (.int n)) (textOf? value) := by
  rw [textOf?.eq_def]
  split
  · exact Asks.ok (by simp)
  · next n => exact (asksValue_intText n).map.congr fun m => by simp [eq_comm]
  · exact Asks.ok (by simp)
  · next hint _ => exact Asks.ok hint

theorem asksValue_itemText? (value : Value) :
    AsksValue (fun n => value = .scalar (.int n)) (itemText? value) := by
  rw [itemText?.eq_def]
  split
  · exact Asks.ok (by simp)
  · exact asksValue_textOf? value

theorem asksValue_textsOf (value : Value) :
    AsksValue (IsItem values value) (textsOf values value) := by
  have hnone : (∀ items, value ≠ .list items) → ∀ n, ¬ IsItem values value n :=
    fun hlist n ⟨items, hitems, _⟩ => hlist items hitems
  rw [textsOf.eq_def]
  split
  · exact Asks.ok (hnone (by simp))
  · exact Asks.ok (hnone (by simp))
  · next items =>
    exact (Asks.mapM fun number => asksValue_itemText? (values.at number)).bind_ok.congr
      (by simp [IsItem])
  · next hlist => exact Asks.ok (hnone hlist)

theorem asksValue_memberTexts? :
    AsksValue (IsItem values (member values key entries)) (memberTexts? values key entries) := by
  rw [memberTexts?]
  split
  · exact (asksValue_textsOf _).map
  · next habsent =>
    -- a member that is not there counts as null, which is no list
    have hmember : member values key entries = .scalar .null := by
      rw [member, List.find?_eq_none.2 fun entry hentry => ?_]
      intro hname
      exact habsent (List.any_eq_true.2 ⟨entry, hentry, hname⟩)
    refine Asks.ok ?_
    rintro n ⟨items, hitems, -⟩
    rw [hmember] at hitems
    cases hitems

/-! ## Settings of values -/

/-- A part of settings that is asked for texts. It may also end in an error of settings. -/
def AsksSettings (asked : Int → Prop) (answer : Except SettingsError α) : Prop :=
  Asks (.value .numberTooLong) (fun error => error.nature = .settings) asked answer

theorem asksSettings_ofValue {answer : Except Yaml.Fault α} (h : AsksValue asked answer) :
    AsksSettings asked (ofValue answer) := by
  cases answer with
  | ok a => exact h
  | error fault =>
    rcases h with hfalse | ⟨rfl, hlong⟩
    · exact hfalse.elim
    · exact .inr ⟨rfl, hlong⟩

theorem asksSettings_groupOf (value : Value) :
    AsksSettings (IsPart values value) (groupOf values value) := by
  rw [groupOf]
  refine (asksSettings_ofValue (asksValue_textOf? _)).bind fun name =>
    (asksSettings_ofValue (asksValue_textOf? _)).bind_last fun pattern => ?_
  split
  · split
    · exact Asks.error rfl
    · exact Asks.ok fun _ => id
  · exact Asks.error rfl

theorem asksSettings_groupsOf? (value : Value) :
    AsksSettings (fun n => ∃ items, value = .list items ∧
      ∃ number ∈ items, IsPart values (values.at number) n) (groupsOf? values value) := by
  rw [groupsOf?.eq_def]
  split
  · exact Asks.ok (by simp)
  · next items =>
    refine (Asks.mapM fun number => asksSettings_groupOf (values.at number)).map.congr fun n => ?_
    simp
  · exact Meets.ite (fun _ => Asks.ok (by simp)) fun _ => Asks.error rfl
  · exact Meets.ite (fun _ => Asks.ok (by simp)) fun _ => Asks.error rfl
  · exact Asks.error rfl

theorem asksSettings_overridesOf (entries : List (Scalar × Nat)) :
    AsksSettings (AskedOfRule values entries) (overridesOf values entries) := by
  rw [overridesOf]
  refine ((asksSettings_ofValue asksValue_memberTexts?).bind fun including =>
    (asksSettings_ofValue asksValue_memberTexts?).bind fun excluding =>
      (asksSettings_ofValue asksValue_memberTexts?).bind fun cleanup =>
        (asksSettings_groupsOf? _).bind_ok).congr fun n => ?_
  constructor
  · rintro (hitem | hitem | hitem | ⟨items, hlisted, hpart⟩)
    · exact .including hitem
    · exact .excluding hitem
    · exact .cleanup hitem
    · exact .group items hlisted hpart
  · rintro (hitem | hitem | hitem | ⟨items, hlisted, hpart⟩)
    · exact .inl hitem
    · exact .inr (.inl hitem)
    · exact .inr (.inr (.inl hitem))
    · exact .inr (.inr (.inr ⟨items, hlisted, hpart⟩))

/-- An empty mapping asks for nothing. -/
theorem not_askedOfRule_nil (n : Int) : ¬ AskedOfRule values [] n := by
  rintro (⟨items, hitems, -⟩ | ⟨items, hitems, -⟩ | ⟨items, hitems, -⟩ | ⟨items, hlisted, -⟩)
  · cases hitems
  · cases hitems
  · cases hitems
  · cases hlisted

theorem asksSettings_rulesOf (entries : List (Scalar × Nat)) :
    AsksSettings (fun n => ∃ entry ∈ entries, AskedOfEntry values entry n)
      (rulesOf values entries) := by
  refine Asks.foldlM (fun rules entry _ => ?_) []
  dsimp only
  -- an empty mapping is passed over, and its key is not read then
  split
  · next hempty =>
    rw [List.isEmpty_iff] at hempty
    refine Asks.ok fun n => ?_
    simp [AskedOfEntry, hempty, not_askedOfRule_nil]
  · next hfilled =>
    rw [List.isEmpty_iff] at hfilled
    refine ((asksSettings_overridesOf _).bind fun changes =>
      (asksSettings_ofValue (asksValue_scalarText _)).bind_ok).congr fun n => ?_
    simp [AskedOfEntry, hfilled]

theorem asksSettings_ofEntries (entries : List (Scalar × Nat))
    (settings : Option String → Option String → List (String × Overrides) → List String → Settings) :
    AsksSettings (Asked values entries) (do
      let output ← ofValue (textOf? (member values "output" entries))
      let logFile ← ofValue (textOf? (member values "log_file" entries))
      let rules ← rulesOf values (entriesOf (member values "rules" entries))
      let excludePaths ← ofValue (textsOf values (member values "exclude_paths" entries))
      return settings output logFile rules excludePaths) := by
  refine ((asksSettings_ofValue (asksValue_textOf? _)).bind fun output =>
    (asksSettings_ofValue (asksValue_textOf? _)).bind fun logFile =>
      (asksSettings_rulesOf _).bind fun rules =>
        (asksSettings_ofValue (asksValue_textsOf _)).bind_ok).congr fun n => ?_
  constructor
  · rintro (hwritten | hwritten | ⟨entry, hlisted, hasked⟩ | hitem)
    · exact .output hwritten
    · exact .logFile hwritten
    · exact .rule entry hlisted hasked
    · exact .excludePath hitem
  · rintro (hwritten | hwritten | ⟨entry, hlisted, hasked⟩ | hitem)
    · exact .inl hwritten
    · exact .inr (.inl hwritten)
    · exact .inr (.inr (.inl ⟨entry, hlisted, hasked⟩))
    · exact .inr (.inr (.inr hitem))

/-- Settings are asked for an integer of too many digits. -/
def AsksTooMuch (values : Values) : Prop :=
  ∃ entries n, values.outermost = .mapping entries ∧ Asked values entries n ∧ IsLong n

/-- Values give settings only if they are not asked for too much. Otherwise they give an error of
settings or the fault of an integer that is too long. -/
theorem meets_ofValues (root : Path) (file : String) (values : Values) :
    Meets (fun _ => ¬ AsksTooMuch values)
      (fun error => error.nature = .settings ∨
        error = .value .numberTooLong ∧ AsksTooMuch values) (ofValues root file values) := by
  rw [ofValues]
  split
  · next entries houtermost =>
    refine (asksSettings_ofEntries entries _).mono ?_ fun error => Or.imp_right ?_
    · rintro settings hshort ⟨other, n, hother, hasked, hlong⟩
      cases houtermost.symm.trans hother
      exact hshort n hasked hlong
    · rintro ⟨herror, n, hasked, hlong⟩
      exact ⟨herror, entries, n, houtermost, hasked, hlong⟩
  · next hmapping =>
    refine Meets.ite (fun _ => ?_) fun _ => .inl rfl
    rintro ⟨entries, n, houtermost, -⟩
    exact hmapping entries houtermost

/-- A mapping alone gives settings that say anything. -/
theorem ofValues_of_ne_mapping (h : ∀ entries, values.outermost ≠ .mapping entries) :
    ofValues root file values =
      if isNothing values.outermost then .ok { root } else .error (.notAMapping file) := by
  rw [ofValues]
  split
  · next entries houtermost => exact absurd houtermost (h entries)
  · rfl

/-! ## Settings of texts -/

/-- Why a text gives neither settings nor an error of settings. -/
inductive Cause (text : List Char) : Yaml.Fault → Prop where
  | token {fault : Yaml.Fault} (found : Yaml.TokenFault text fault) : Cause text fault
  | spelling {fault : Yaml.Fault} (document : Yaml.Document)
      (built : Yaml.Document.ofTokens (Yaml.TokenList.ofText text) = .ok (some document))
      (misspells : document.Misspells fault) : Cause text fault
  | integer (values : Values) (made : Yaml.read (String.ofList text) = .ok values)
      (asked : AsksTooMuch values) : Cause text .numberTooLong

/-- A text gives settings only if its values are not asked for too much. Otherwise it gives an error
of settings, or a fault that has a cause in the text. -/
theorem meets_ofText (root : Path) (file : String) (text : List Char) :
    Meets (fun _ => (Chars.trim text).isEmpty = false →
        ∀ values, Yaml.read (String.ofList text) = .ok values → ¬ AsksTooMuch values)
      (fun error => error.nature = .settings ∨ ∃ fault, error = .value fault ∧ Cause text fault)
      (ofText root file text) := by
  rw [ofText]
  refine Meets.ite (fun hblank hfilled => ?_) fun _ => ?_
  · rw [hblank] at hfilled
    cases hfilled
  split
  · next values hvalues =>
    refine (meets_ofValues root file values).mono ?_ fun error => Or.imp_right ?_
    · intro settings hasked _ other hother
      cases hvalues.symm.trans hother
      exact hasked
    · rintro ⟨herror, hasked⟩
      exact ⟨.numberTooLong, herror, .integer values hvalues hasked⟩
  · exact .inl rfl
  · next fault _ hfault =>
    rcases Yaml.fault_of_read hfault with htoken | ⟨document, hbuilt, hmisspells⟩
    · exact .inr ⟨fault, rfl, .token htoken⟩
    · exact .inr ⟨fault, rfl, .spelling document hbuilt hmisspells⟩

end Settings

end Minifier
