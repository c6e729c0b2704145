import Minifier.Proofs.Pattern.Language
import Minifier.Proofs.Pattern.Lists
import Minifier.RuleSet.BuiltIn
import Minifier.Settings.Load

/-!
# Which paths rules select

Rules whose lists may be replaced select a path exactly when a pattern that is in force and includes
matches somewhere in it and none that excludes does (`overridden_rules_select_iff`). In force are
the well-formed patterns of the list that replaces another one, and of no other list: what is
replaced counts no more, even where nothing of the new list is well-formed.

Rules hold compiled patterns. Those of a built-in table are what their own sources compile to
(`compile_source_of_mem_wellFormed`), so both cases can be told by lists of patterns as written.
-/

set_option autoImplicit false

namespace Minifier

open Pattern

/-! ## Selection by compiled patterns -/

/-- Whether rules select a path. -/
def RuleSet.selects (rules : RuleSet) (path : String) : Bool :=
  (select path rules.including rules.excluding).value

theorem value_select (path : String) (including excluding : List Pattern) :
    (select path including excluding).value =
      (including.any (fun pattern => pattern.finds path) &&
        !excluding.any fun pattern => pattern.finds path) := by
  rw [select]
  split_ifs with hany
  · rw [value_survives, hany, Bool.true_and]
  · rw [Bool.eq_false_iff.2 hany, Bool.false_and]
    rfl

/-! ## Patterns as written -/

/-- Some pattern of a list compiles and matches somewhere in a path. -/
def Claimed (sources : List String) (path : String) : Prop :=
  ∃ source ∈ sources, ∃ pattern, compile source = .ok pattern ∧
    ∃ before after, Text.ofString (slashed path) = before ++ after ∧ pattern.MatchesAt before after

/-- The patterns in force, as they are written. -/
def inForce (old : List Pattern) (sources? : Option (List String)) : List String :=
  sources?.getD (old.map Pattern.source)

theorem any_wellFormed_iff {sources : List String} {path : String} :
    ((wellFormed sources).any fun pattern => pattern.finds path) = true ↔ Claimed sources path := by
  simp only [List.any_eq_true, mem_wellFormed_iff, Pattern.finds, isFoundIn_iff, Claimed]
  constructor
  · rintro ⟨pattern, ⟨source, hsource, hcompile⟩, hfound⟩
    exact ⟨source, hsource, pattern, hcompile, hfound⟩
  · rintro ⟨source, hsource, pattern, hcompile, hfound⟩
    exact ⟨pattern, ⟨source, hsource, hcompile⟩, hfound⟩

/-- A path is claimed by the patterns that compile, however often and in whatever order they are
listed. -/
theorem claimed_congr {sources sources' : List String} {path : String}
    (hsame : ∀ source pattern, compile source = .ok pattern →
      (source ∈ sources ↔ source ∈ sources')) :
    Claimed sources path ↔ Claimed sources' path := by
  constructor
  · rintro ⟨source, hsource, pattern, hcompile, hfound⟩
    exact ⟨source, (hsame source pattern hcompile).1 hsource, pattern, hcompile, hfound⟩
  · rintro ⟨source, hsource, pattern, hcompile, hfound⟩
    exact ⟨source, (hsame source pattern hcompile).2 hsource, pattern, hcompile, hfound⟩

/-- A compiled pattern is what its source compiles to. -/
theorem compile_source_of_mem_wellFormed {sources : List String} {pattern : Pattern}
    (h : pattern ∈ wellFormed sources) : compile pattern.source = .ok pattern := by
  obtain ⟨source, -, hcompile⟩ := mem_wellFormed_iff.1 h
  rwa [source_of_compile hcompile]

theorem wellFormed_map_source {old : List Pattern}
    (hold : ∀ pattern ∈ old, compile pattern.source = .ok pattern) :
    wellFormed (old.map Pattern.source) = old := by
  rw [wellFormed, List.filterMap_map]
  refine (List.filterMap_congr fun pattern hpattern => ?_).trans List.filterMap_some
  rw [Function.comp_apply, hold pattern hpattern]
  rfl

theorem wellFormed_inForce {old : List Pattern} {sources? : Option (List String)}
    (hold : ∀ pattern ∈ old, compile pattern.source = .ok pattern) :
    wellFormed (inForce old sources?) = (sources?.map wellFormed).getD old := by
  cases sources? with
  | none => exact wellFormed_map_source hold
  | some sources => rfl

theorem not_isFatal_of_compile {source : String} {pattern : Pattern}
    (h : compile source = .ok pattern) : ¬ IsFatal source := by
  rw [IsFatal, fatalFault?, h]
  exact Bool.false_ne_true

theorem not_isFatal_of_mem_inForce {old : List Pattern} {sources? : Option (List String)}
    (hold : ∀ pattern ∈ old, compile pattern.source = .ok pattern)
    (hnew : ∀ sources ∈ sources?, ∀ source ∈ sources, ¬ IsFatal source) :
    ∀ source ∈ inForce old sources?, ¬ IsFatal source := by
  cases sources? with
  | none =>
    rintro source hsource
    obtain ⟨pattern, hpattern, rfl⟩ := List.mem_map.1 hsource
    exact not_isFatal_of_compile (hold pattern hpattern)
  | some sources => exact hnew sources rfl

/-! ## Built-in rules -/

theorem Laravel.table_eq (sources : List String) : table sources = wellFormed sources :=
  rfl

/-- Rules whose lists hold what their sources compile to. -/
structure RuleSet.Sourced (rules : RuleSet) : Prop where
  including : ∀ pattern ∈ rules.including, compile pattern.source = .ok pattern
  excluding : ∀ pattern ∈ rules.excluding, compile pattern.source = .ok pattern

theorem Laravel.sourced : Laravel.rules.Sourced := by
  constructor
  · simp only [rules, table_eq]
    exact fun _ => compile_source_of_mem_wellFormed
  · simp only [rules, table_eq]
    exact fun _ => compile_source_of_mem_wellFormed

theorem RuleSet.sourced_of_mem_builtIn {rules : RuleSet} (h : rules ∈ RuleSet.builtIn) :
    rules.Sourced := by
  rw [RuleSet.builtIn, List.mem_singleton] at h
  exact h ▸ Laravel.sourced

/-! ## Rules with lists replaced -/

variable {rules changed : RuleSet} {changes : Overrides}

theorem RuleSet.Sourced.selects_iff (hrules : rules.Sourced) {path : String}
    (hchanged : (rules.override changes).run.value = .ok changed) :
    changed.selects path = true ↔
      Claimed (inForce rules.including changes.including) path ∧
        ¬ Claimed (inForce rules.excluding changes.excluding) path := by
  obtain ⟨-, rfl⟩ := value_override_eq_ok_iff.1 hchanged
  rw [selects, value_select, Bool.and_eq_true, Bool.not_eq_true', ← Bool.not_eq_true,
    ← any_wellFormed_iff, ← any_wellFormed_iff, wellFormed_inForce hrules.including,
    wellFormed_inForce hrules.excluding]
  rfl

/-- Patterns that are passed as they are written select the same. -/
theorem RuleSet.Sourced.value_selectBy (hrules : rules.Sourced)
    (hchanged : (rules.override changes).run.value = .ok changed) (path : String) :
    (selectBy path (inForce rules.including changes.including)
        (inForce rules.excluding changes.excluding)).run.value = .ok (changed.selects path) := by
  obtain ⟨hsources, rfl⟩ := value_override_eq_ok_iff.1 hchanged
  obtain ⟨hincluding, hexcluding, -, -⟩ := forall_mem_sources_iff.1 hsources
  refine value_selectBy_eq_ok_iff.2 ⟨not_isFatal_of_mem_inForce hrules.including hincluding,
    fun _ => not_isFatal_of_mem_inForce hrules.excluding hexcluding, ?_⟩
  rw [selects, value_select, wellFormed_inForce hrules.including,
    wellFormed_inForce hrules.excluding]
  rfl

theorem Settings.value_ruleSet {settings : Settings} {name : String}
    (hnamed : RuleSet.named name = .ok rules)
    (hchanges : settings.rules.lookup rules.name = some changes)
    (hchanged : (rules.override changes).run.value = .ok changed) :
    (settings.ruleSet name).run.value = .ok changed := by
  rw [Settings.ruleSet, hnamed]
  simp only [hchanges, ExceptT.run_mk, Logged.value_bind, hchanged]
  rfl

/-- Lists of patterns with a malformed one in each. -/
def partlyMalformed : Overrides where
  including := some ["(", "Models/"]
  excluding := some ["*", "Test"]

end Minifier
