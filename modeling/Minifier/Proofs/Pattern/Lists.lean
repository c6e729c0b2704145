import Minifier.Proofs.Pattern.Mild
import Minifier.RuleSet.Filter

/-!
# Lists of patterns that go through

A malformed pattern costs a list only itself, a fatal one costs it everything. Each of the functions
that take patterns as written gives a result exactly when no pattern that it compiles is fatal, and
then works with the patterns that are well-formed, in their order.
-/

set_option autoImplicit false

namespace Minifier

namespace Pattern

/-- The patterns of a list that compile, in order. -/
def wellFormed (sources : List String) : List Pattern :=
  sources.filterMap fun source => (compile source).toOption

/-- A pattern keeps its source. -/
theorem source_of_compile {source : String} {pattern : Pattern}
    (h : compile source = .ok pattern) : pattern.source = source := by
  obtain ⟨⟨form, modes⟩, -, h⟩ := bind_eq_ok_iff.1 h
  obtain ⟨node, -, h⟩ := bind_eq_ok_iff.1 h
  cases h
  rfl

theorem toOption_compile_eq_some_iff {source : String} {pattern : Pattern} :
    (compile source).toOption = some pattern ↔ compile source = .ok pattern := by
  cases compile source <;> simp [Except.toOption]

theorem mem_wellFormed_iff {sources : List String} {pattern : Pattern} :
    pattern ∈ wellFormed sources ↔ ∃ source ∈ sources, compile source = .ok pattern := by
  simp only [wellFormed, List.mem_filterMap, toOption_compile_eq_some_iff]

theorem value_pure_eq_ok_iff {ε α : Type} {a b : α} :
    (pure a : ExceptT ε Logged α).run.value = .ok b ↔ b = a := by
  show Except.ok a = Except.ok b ↔ b = a
  rw [Except.ok.injEq, eq_comm]

theorem value_compileListed_eq_ok_iff {source : String} {found : Option Pattern} :
    (compileListed source).run.value = .ok found ↔
      ¬ IsFatal source ∧ found = (compile source).toOption := by
  unfold IsFatal fatalFault? compileListed
  cases hcompile : compile source with
  | ok pattern =>
    rw [value_pure_eq_ok_iff]
    simp [Except.toOption]
  | error fault =>
    cases fault with
    | malformed =>
      show Except.ok none = Except.ok found ↔ _
      simp [Except.toOption, eq_comm]
    | _ =>
      constructor
      · intro h
        cases h
      · rintro ⟨h, -⟩
        cases h rfl

theorem value_compileAll_eq_ok_iff {sources : List String} {patterns : List Pattern} :
    (compileAll sources).run.value = .ok patterns ↔
      (∀ source ∈ sources, ¬ IsFatal source) ∧ patterns = wellFormed sources := by
  induction sources generalizing patterns with
  | nil => simp [compileAll, wellFormed]
  | cons source rest ih =>
    have hcons : wellFormed (source :: rest) =
        (compile source).toOption.toList ++ wellFormed rest := by
      unfold wellFormed
      cases h : (compile source).toOption <;> simp [h]
    simp only [compileAll, value_run_bind_eq_ok_iff, value_compileListed_eq_ok_iff, ih,
      value_pure_eq_ok_iff, List.forall_mem_cons, hcons]
    constructor
    · rintro ⟨_, ⟨hfirst, rfl⟩, _, ⟨hrest, rfl⟩, rfl⟩
      exact ⟨⟨hfirst, hrest⟩, rfl⟩
    · rintro ⟨⟨hfirst, hrest⟩, rfl⟩
      exact ⟨_, ⟨hfirst, rfl⟩, _, ⟨hrest, rfl⟩, rfl⟩

end Pattern

/-- The groups of a list whose patterns compile, in order. -/
def Group.wellFormed (definitions : List (String × String)) : List Group :=
  definitions.filterMap fun (name, source) => (Pattern.compile source).toOption.map (Group.mk name)

open Pattern

theorem Group.value_compileAll_eq_ok_iff {definitions : List (String × String)}
    {groups : List Group} :
    (Group.compileAll definitions).run.value = .ok groups ↔
      (∀ definition ∈ definitions, ¬ IsFatal definition.2) ∧
        groups = Group.wellFormed definitions := by
  induction definitions generalizing groups with
  | nil => simp [Group.compileAll, Group.wellFormed]
  | cons definition rest ih =>
    obtain ⟨name, source⟩ := definition
    have hcons : Group.wellFormed ((name, source) :: rest) =
        ((compile source).toOption.map (Group.mk name)).toList ++ Group.wellFormed rest := by
      unfold Group.wellFormed
      cases h : (compile source).toOption <;> simp [h]
    simp only [Group.compileAll, value_run_bind_eq_ok_iff, value_compileListed_eq_ok_iff, ih,
      value_pure_eq_ok_iff, List.forall_mem_cons, hcons]
    constructor
    · rintro ⟨_, ⟨hfirst, rfl⟩, _, ⟨hrest, rfl⟩, rfl⟩
      exact ⟨⟨hfirst, hrest⟩, rfl⟩
    · rintro ⟨⟨hfirst, hrest⟩, rfl⟩
      exact ⟨_, ⟨hfirst, rfl⟩, _, ⟨hrest, rfl⟩, rfl⟩

/-! ## What works with lists of patterns -/

theorem value_cleanedBy_eq_ok_iff {patterns : List String} {text rest : Text} :
    (cleanedBy patterns text).run.value = .ok rest ↔
      (∀ source ∈ patterns, ¬ IsFatal source) ∧ rest = cleaned (wellFormed patterns) text := by
  simp only [cleanedBy, value_run_bind_eq_ok_iff, value_compileAll_eq_ok_iff,
    value_pure_eq_ok_iff]
  constructor
  · rintro ⟨_, ⟨h, rfl⟩, rfl⟩
    exact ⟨h, rfl⟩
  · rintro ⟨h, rfl⟩
    exact ⟨_, ⟨h, rfl⟩, rfl⟩

theorem value_survives (path : String) (excluding : List Pattern) :
    (survives path excluding).value = !excluding.any fun pattern => pattern.finds path := by
  unfold survives
  split
  · next hnone => simp_all
  · next pattern hsome =>
    have hfinds := List.find?_some hsome
    have hany : excluding.any (fun pattern => pattern.finds path) = true :=
      List.any_eq_true.2 ⟨pattern, List.mem_of_find?_eq_some hsome, hfinds⟩
    simp [hany]

theorem value_selectBy_eq_ok_iff {path : String} {including excluding : List String}
    {kept : Bool} :
    (selectBy path including excluding).run.value = .ok kept ↔
      (∀ source ∈ including, ¬ IsFatal source) ∧
        ((wellFormed including).any (fun pattern => pattern.finds path) →
          ∀ source ∈ excluding, ¬ IsFatal source) ∧
        kept = ((wellFormed including).any (fun pattern => pattern.finds path) &&
          !(wellFormed excluding).any fun pattern => pattern.finds path) := by
  simp only [selectBy, value_run_bind_eq_ok_iff, value_compileAll_eq_ok_iff]
  -- the excluding patterns are compiled only when an including one finds the path
  cases hany : (wellFormed including).any fun pattern => pattern.finds path with
  | false =>
    constructor
    · rintro ⟨_, ⟨h, rfl⟩, hkept⟩
      rw [hany] at hkept
      exact ⟨h, nofun, value_pure_eq_ok_iff.1 hkept⟩
    · rintro ⟨h, -, rfl⟩
      refine ⟨_, ⟨h, rfl⟩, ?_⟩
      rw [hany]
      rfl
  | true =>
    have hsurvives (excluding : List Pattern) :
        (survives path excluding : ExceptT Fault Logged Bool).run.value =
          .ok (survives path excluding).value := rfl
    constructor
    · rintro ⟨_, ⟨h, rfl⟩, hkept⟩
      rw [hany, if_pos rfl] at hkept
      obtain ⟨_, hexcluded, hkept⟩ := value_run_bind_eq_ok_iff.1 hkept
      obtain ⟨hexcluding, rfl⟩ := value_compileAll_eq_ok_iff.1 hexcluded
      rw [hsurvives, Except.ok.injEq, value_survives] at hkept
      exact ⟨h, fun _ => hexcluding, hkept.symm⟩
    · rintro ⟨h, hexcluding, rfl⟩
      refine ⟨_, ⟨h, rfl⟩, ?_⟩
      rw [hany, if_pos rfl]
      refine value_run_bind_eq_ok_iff.2
        ⟨_, value_compileAll_eq_ok_iff.2 ⟨hexcluding rfl, rfl⟩, ?_⟩
      rw [hsurvives, value_survives]
      rfl

/-- All the patterns among the lists that replace those of a rule set. -/
def Overrides.sources (changes : Overrides) : List String :=
  changes.including.getD [] ++ changes.excluding.getD [] ++ changes.cleanup.getD [] ++
    (changes.groups.getD []).map Prod.snd

/-- A rule set whose lists are replaced by the well-formed patterns of other lists. -/
def RuleSet.replacing (rules : RuleSet) (changes : Overrides) : RuleSet :=
  { rules with
    including := (changes.including.map wellFormed).getD rules.including
    excluding := (changes.excluding.map wellFormed).getD rules.excluding
    cleanup := (changes.cleanup.map wellFormed).getD rules.cleanup
    groups := (changes.groups.map Group.wellFormed).getD rules.groups }

theorem value_replaced_eq_ok_iff {α β : Type} {compile : α → ExceptT Fault Logged β}
    {made : α → β} {sound : α → Prop}
    (h : ∀ {sources found}, (compile sources).run.value = .ok found ↔
      sound sources ∧ found = made sources)
    {old found : β} {sources? : Option α} :
    (RuleSet.replaced compile old sources?).run.value = .ok found ↔
      (∀ sources ∈ sources?, sound sources) ∧ found = (sources?.map made).getD old := by
  cases sources? with
  | none => simp [RuleSet.replaced, eq_comm]
  | some sources => simp [RuleSet.replaced, h]

/-- The patterns of the lists that replace others are not fatal, list by list. -/
theorem forall_mem_sources_iff {changes : Overrides} {p : String → Prop} :
    (∀ source ∈ changes.sources, p source) ↔
      (∀ sources ∈ changes.including, ∀ source ∈ sources, p source) ∧
      (∀ sources ∈ changes.excluding, ∀ source ∈ sources, p source) ∧
      (∀ sources ∈ changes.cleanup, ∀ source ∈ sources, p source) ∧
      ∀ definitions ∈ changes.groups, ∀ definition ∈ definitions, p definition.2 := by
  have hgetD {α : Type} (list? : Option (List α)) (q : α → Prop) :
      (∀ a ∈ list?.getD [], q a) ↔ ∀ list ∈ list?, ∀ a ∈ list, q a := by
    cases list? <;> simp
  simp only [Overrides.sources, List.forall_mem_append, List.forall_mem_map, hgetD, and_assoc]

theorem value_override_eq_ok_iff {rules changed : RuleSet} {changes : Overrides} :
    (rules.override changes).run.value = .ok changed ↔
      (∀ source ∈ changes.sources, ¬ IsFatal source) ∧ changed = rules.replacing changes := by
  simp only [RuleSet.override, value_run_bind_eq_ok_iff, value_pure_eq_ok_iff,
    value_replaced_eq_ok_iff value_compileAll_eq_ok_iff,
    value_replaced_eq_ok_iff Group.value_compileAll_eq_ok_iff, forall_mem_sources_iff]
  constructor
  · rintro ⟨_, ⟨hincluding, rfl⟩, _, ⟨hexcluding, rfl⟩, _, ⟨hcleanup, rfl⟩, _, ⟨hgroups, rfl⟩, rfl⟩
    exact ⟨⟨hincluding, hexcluding, hcleanup, hgroups⟩, rfl⟩
  · rintro ⟨⟨hincluding, hexcluding, hcleanup, hgroups⟩, rfl⟩
    exact ⟨_, ⟨hincluding, rfl⟩, _, ⟨hexcluding, rfl⟩, _, ⟨hcleanup, rfl⟩, _, ⟨hgroups, rfl⟩, rfl⟩

/-! ## The functions that take patterns as written -/

end Minifier
