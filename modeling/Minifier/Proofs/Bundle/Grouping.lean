import Minifier.Proofs.Bundle
import Minifier.RuleSet.Laravel

/-!
# Every file has one group

Grouping always gives buckets: one to every name of a group, in the order in which the names first
occur, and one for all other files behind them unless a group has taken its name. A bucket holds the
files that its name claims (`Group.Claims`), in their order, so that all buckets together hold every
file once (`groupFiles_partitions`).
-/

set_option autoImplicit false

namespace Minifier

namespace Group

variable {groups : List Group} {name path : String}

/-- A name claims a path if the first group whose pattern is found in it has this name; the name of
all other files claims those in which no pattern is found. -/
inductive Claims (groups : List Group) (name path : String) : Prop where
  | first (before : List Group) (group : Group) (after : List Group)
      (split : groups = before ++ group :: after)
      (earlier : ∀ other ∈ before, other.pattern.finds path = false)
      (found : group.pattern.finds path = true) (named : group.name = name)
  | other (none : ∀ group ∈ groups, group.pattern.finds path = false) (named : name = otherGroup)

theorem classify_eq_iff : classify groups path = name ↔ Claims groups name path := by
  rw [classify]
  constructor
  · intro h
    cases hfind : groups.find? fun group => group.pattern.finds path with
    | none =>
      rw [hfind] at h
      refine .other (fun group hgroup => ?_) h.symm
      simpa using List.find?_eq_none.1 hfind group hgroup
    | some group =>
      rw [hfind] at h
      obtain ⟨hfound, before, after, hsplit, hearlier⟩ := List.find?_eq_some_iff_append.1 hfind
      exact .first before group after hsplit (by simpa using hearlier) hfound h
  · intro h
    cases h with
    | first before group after split earlier found named =>
      have hfind : groups.find? (fun group => group.pattern.finds path) = some group :=
        List.find?_eq_some_iff_append.2 ⟨found, before, after, split, by simpa using earlier⟩
      rw [hfind]
      exact named
    | other none named =>
      have hfind : groups.find? (fun group => group.pattern.finds path) = .none :=
        List.find?_eq_none.2 fun group hgroup => by simp [none group hgroup]
      rw [hfind, named]

instance (groups : List Group) (name path : String) : Decidable (Claims groups name path) :=
  decidable_of_iff _ classify_eq_iff

end Group

variable {α ν : Type} [DecidableEq ν]

/-- The files of every name, put one after another, are all files in another order. -/
theorem flatMap_filter_perm {names : List ν} (hnodup : names.Nodup) (name : α → ν)
    {files : List α} (h : ∀ file ∈ files, name file ∈ names) :
    (names.flatMap fun n => files.filter fun file => name file = n).Perm files := by
  induction files with
  | nil => simp
  | cons file files ih =>
    rw [List.forall_mem_cons] at h
    obtain ⟨before, after, rfl⟩ := List.append_of_mem h.1
    -- the first file is new to the part of its own name, and to no other part
    have hrest : ∀ {part : List ν}, name file ∉ part →
        (part.flatMap fun n => (file :: files).filter fun file => name file = n) =
          part.flatMap fun n => files.filter fun file => name file = n := by
      intro part hpart
      refine List.flatMap_congr fun n hn => List.filter_cons_of_neg ?_
      simpa using fun hname : name file = n => hpart (hname ▸ hn)
    have hapart : name file ∉ before ∧ name file ∉ after := by
      rw [List.nodup_middle, List.nodup_cons, List.mem_append, not_or] at hnodup
      exact hnodup.1
    have hperm := ih h.2
    rw [List.flatMap_append, List.flatMap_cons] at hperm ⊢
    rw [hrest hapart.1, hrest hapart.2, List.filter_cons_of_pos (by simp), List.cons_append]
    exact List.perm_middle.trans (hperm.cons file)

/-- Grouping succeeds. The buckets have the names of the groups, each once and in the order in which
they first occur, and that of all other files unless it is among them; every bucket holds the files
that its name claims, in their order. So the buckets hold every file once, and the counts of the
files put together add up to their number. -/
theorem groupFiles_partitions (groups : List Group) (files : List (String × Text)) :
    ∃ buckets, groupFiles? groups files = some buckets ∧
      buckets.names = (groups.map Group.name).eraseDups ++
        (if otherGroup ∈ groups.map Group.name then [] else [otherGroup]) ∧
      buckets.names.Nodup ∧
      (∀ bucket ∈ buckets,
        bucket.2 = files.filter fun file => Group.Claims groups bucket.1 file.1) ∧
      (buckets.flatMap Prod.snd).Perm files ∧
      ∀ (header : Text) (stripPrefix : Option Pattern),
        (Bundle.ofGroups groups header stripPrefix files).counts =
            buckets.map (fun bucket => (bucket.1, bucket.2.length)) ∧
          (Bundle.ofGroups groups header stripPrefix files).fileCount = files.length := by
  have hnames : (groupFiles groups files).names = groupNames groups := by
    rw [Buckets.names, groupFiles_eq, List.map_map]
    exact List.map_id _
  refine ⟨groupFiles groups files, ?_, ?_, ?_, ?_, ?_, fun header stripPrefix => ⟨rfl, ?_⟩⟩
  · rw [groupFiles_eq]
    exact groupFiles?_eq_some groups files
  · rw [hnames, groupNames, eraseDups_concat]
  · rw [hnames]
    exact nodup_eraseDups _
  · intro bucket hbucket
    rw [groupFiles_eq] at hbucket
    obtain ⟨name, -, rfl⟩ := List.mem_map.1 hbucket
    simp only [Group.classify_eq_iff]
  · have hmem : ∀ file ∈ files, Group.classify groups file.1 ∈ groupNames groups :=
      fun file _ => Group.classify_mem_groupNames groups file.1
    have hperm := flatMap_filter_perm (nodup_eraseDups _)
      (fun file : String × Text => Group.classify groups file.1) hmem
    rw [groupFiles_eq, List.flatMap_map]
    exact hperm
  · exact Bundle.fileCount_ofGroups groups header stripPrefix files

/-- Two groups of one name share a bucket, and a group may take the name of all other files. -/
example :
    groupFiles? (Laravel.groupTable [("b", "x"), ("other", "y"), ("b", "z")])
        [("z", 1), ("q", 2), ("x", 3), ("y", 4)] =
      some [("b", [("z", 1), ("x", 3)]), ("other", [("q", 2), ("y", 4)])] := by
  decide +kernel

end Minifier
