import Mathlib
import Minifier.Proofs.Bundle.Buckets

/-!
# The files of a bundle

A bundle counts its files group by group. A file belongs to one group only, be it that of its kind
or the first one of a rule set that claims its path, so the counts add up to the number of files
(`Bundle.fileCount_ofKinds`, `Bundle.fileCount_ofGroups`). Its text holds the text of every file,
less the prefix that is stripped (`Bundle.infix_ofKinds`, `Bundle.infix_ofGroups`).
-/

set_option autoImplicit false

namespace Minifier

universe u v

variable {α : Type u} {ν : Type v} [DecidableEq ν]

/-- If every file has its name among the given ones, the files of each name add up to all files. -/
theorem sum_length_filter {names : List ν} (hnodup : names.Nodup) (name : α → ν) {files : List α}
    (h : ∀ file ∈ files, name file ∈ names) :
    (names.map fun n => (files.filter fun file => name file = n).length).sum = files.length := by
  induction files with
  | nil => simp
  | cons file files ih =>
    rw [List.forall_mem_cons] at h
    -- one more file adds one to the count of its own name, and to no other
    have hcons : ∀ n, ((file :: files).filter fun file => name file = n).length =
        (if name file = n then 1 else 0) + (files.filter fun file => name file = n).length := by
      intro n
      rw [List.filter_cons]
      by_cases hn : name file = n <;> simp [hn, Nat.add_comm]
    have hfile : (names.map fun n => if name file = n then 1 else 0).sum = 1 := by
      rw [List.sum_map_eq_nsmul_single (name file) _ fun n hn _ => if_neg (Ne.symm hn),
        List.count_eq_one_of_mem hnodup h.1, if_pos rfl, one_nsmul]
    simp only [hcons]
    rw [List.sum_map_add, hfile, ih h.2, List.length_cons, Nat.add_comm]

/-- Every path is classified by one of the names. -/
theorem Group.classify_mem_groupNames (groups : List Group) (path : String) :
    Group.classify groups path ∈ groupNames groups := by
  rw [groupNames, List.mem_eraseDups, List.mem_append, Group.classify]
  cases hfind : groups.find? fun group => group.pattern.finds path with
  | none => exact Or.inr List.mem_cons_self
  | some group => exact Or.inl (List.mem_map_of_mem (List.mem_of_find?_eq_some hfind))

namespace Bundle

theorem fileCount_eq_sum (bundle : Bundle) :
    bundle.fileCount = (bundle.counts.map Prod.snd).sum := by
  rw [fileCount]
  induction bundle.counts with
  | nil => rfl
  | cons first rest ih => rw [List.foldr_cons, ih, List.map_cons, List.sum_cons]

/-- The counts of a bundle by groups add up to the number of its files. -/
theorem fileCount_ofGroups (groups : List Group) (header : Text) (stripPrefix : Option Pattern)
    (files : List (String × Text)) :
    (ofGroups groups header stripPrefix files).fileCount = files.length := by
  have hcounts : (ofGroups groups header stripPrefix files).counts.map Prod.snd =
      (groupNames groups).map fun name =>
        (files.filter fun file => Group.classify groups file.1 = name).length := by
    rw [ofGroups, groupFiles_eq, List.map_map, List.map_map]
    rfl
  rw [fileCount_eq_sum, hcounts, groupNames]
  exact sum_length_filter (nodup_eraseDups _) (fun file : String × Text => _) fun file _ =>
    Group.classify_mem_groupNames groups file.1

/-- The counts of a bundle by kinds add up to the number of its files. -/
theorem fileCount_ofKinds (files : List (String × Kind × Text)) :
    (ofKinds files).fileCount = files.length := by
  have hcounts : (ofKinds files).counts.map Prod.snd =
      (kindsOf files).map fun kind => (files.filter fun file => file.2.1 = kind).length := by
    rw [ofKinds, List.map_map]
    rfl
  rw [fileCount_eq_sum, hcounts, kindsOf]
  refine sum_length_filter (nodup_eraseDups _) (fun file : String × Kind × Text => file.2.1)
    fun file hfile => ?_
  rw [List.mem_eraseDups]
  exact List.mem_map_of_mem hfile

end Bundle

/-! ## Texts -/

theorem mem_intersperse {a separator : α} {list : List α} (h : a ∈ list) :
    a ∈ list.intersperse separator := by
  induction list with
  | nil => cases h
  | cons first rest ih =>
    cases rest with
    | nil => exact h
    | cons second rest =>
      rw [List.intersperse_cons_cons]
      rcases List.mem_cons.1 h with rfl | h
      · exact List.mem_cons_self
      · exact List.mem_cons_of_mem _ (List.mem_cons_of_mem _ (ih h))

theorem infix_joinLines {chunk : Text} {chunks : List Text} (h : chunk ∈ chunks) :
    chunk <:+: joinLines chunks :=
  List.infix_of_mem_flatten (mem_intersperse h)

/-- What is left of a text without what a pattern strips. -/
def strippedBy (stripPrefix : Option Pattern) (text : Text) : Text :=
  match stripPrefix with
  | some pattern => pattern.deleteFirst text
  | none => text

namespace Bundle

/-- A bundle by kinds holds the text of every file. -/
theorem infix_ofKinds {files : List (String × Kind × Text)} {path : String} {kind : Kind}
    {text : Text} (h : (path, kind, text) ∈ files) : text <:+: (ofKinds files).text := by
  have hkind : kind ∈ kindsOf files := by
    rw [kindsOf, List.mem_eraseDups]
    exact List.mem_map_of_mem h
  have hfile : (path, kind, text) ∈ ofKind kind files := List.mem_filter.2 ⟨h, by simp⟩
  have hlisted : (path, kind, text) ∈ (kindsOf files).flatMap fun kind => ofKind kind files :=
    List.mem_flatMap.2 ⟨kind, hkind, hfile⟩
  have hchunk : Text.ofString (fileLabel path) ++ text <:+: (ofKinds files).text :=
    infix_joinLines (List.mem_map.2 ⟨_, hlisted, rfl⟩)
  exact (List.suffix_append _ text).isInfix.trans hchunk

/-- A bundle by groups holds the text of every file, less what is stripped. -/
theorem infix_ofGroups {groups : List Group} {header : Text} {stripPrefix : Option Pattern}
    {files : List (String × Text)} {path : String} {text : Text} (h : (path, text) ∈ files) :
    strippedBy stripPrefix text <:+: (ofGroups groups header stripPrefix files).text := by
  have hgroup : (Group.classify groups path,
      files.filter fun file => Group.classify groups file.1 = Group.classify groups path) ∈
        groupFiles groups files := by
    rw [groupFiles_eq]
    exact List.mem_map_of_mem (Group.classify_mem_groupNames groups path)
  have hfile : (path, text) ∈
      files.filter fun file => Group.classify groups file.1 = Group.classify groups path :=
    List.mem_filter.2 ⟨h, by simp⟩
  have hcontent : strippedBy stripPrefix text ∈ fileChunks stripPrefix (path, text) :=
    List.mem_cons_of_mem _ List.mem_cons_self
  refine infix_joinLines (List.mem_append_right _ (List.mem_flatMap.2 ⟨_, hgroup, ?_⟩))
  rw [groupChunks, if_neg (by simpa using List.ne_nil_of_mem hfile)]
  exact List.mem_cons_of_mem _ (List.mem_flatMap.2 ⟨_, hfile, hcontent⟩)

end Bundle

end Minifier
