import Mathlib.Data.List.Induction
import Mathlib.Data.List.Nodup
import Minifier.Bundle

/-!
# Buckets of files

Files are put into buckets one after another. A step puts one file behind those of its bucket and
leaves all other buckets (`Buckets.put?_eq_some`), so a whole run leaves in every bucket the files
of its name in their order (`Buckets.fill?_eq_some`). Grouping therefore never fails, and its answer
is known without its steps (`groupFiles_eq`).
-/

set_option autoImplicit false

namespace Minifier

universe v

variable {α : Type} {ν : Type v} [DecidableEq ν]

theorem nodup_eraseDups (names : List ν) : names.eraseDups.Nodup := by
  induction hlength : names.length using Nat.strongRecOn generalizing names with
  | _ length ih =>
    cases names with
    | nil => exact List.nodup_nil
    | cons name rest =>
      have hle := List.length_filter_le (fun other => !other == name) rest
      rw [List.length_cons] at hlength
      rw [List.eraseDups_cons, List.nodup_cons]
      refine ⟨?_, ih _ (by omega) _ rfl⟩
      rw [List.mem_eraseDups]
      simp

/-- A name behind others is kept unless it is one of them. -/
theorem eraseDups_concat (names : List ν) (name : ν) :
    (names ++ [name]).eraseDups =
      names.eraseDups ++ if name ∈ names then [] else [name] := by
  rw [List.eraseDups_append]
  by_cases h : name ∈ names <;> simp [List.removeAll, h, List.eraseDups_cons]

namespace Buckets

variable {name : String} {file : String × α} {files : List (String × α)} {buckets : Buckets α}
  {groups : List Group}

/-! ## Opening buckets -/

/-- Opening a bucket adds its name behind the others, unless it is one of them. -/
theorem names_opened (name : String) (buckets : Buckets α) :
    (buckets.opened name).names = buckets.names ++ if name ∈ buckets.names then [] else [name] := by
  induction buckets with
  | nil => rfl
  | cons bucket rest ih =>
    obtain ⟨other, members⟩ := bucket
    rw [opened]
    by_cases h : other = name
    · simp [h, names]
    · have hmem : name ∈ names ((other, members) :: rest) ↔ name ∈ names rest := by
        simp [names, Ne.symm h]
      rw [if_neg h, names, List.map_cons, ← names, ih]
      simp only [hmem]
      rfl

/-- Buckets are opened in the order in which their names first occur, that of all other files last
unless a group has its name. -/
theorem names_ofGroups (groups : List Group) :
    (ofGroups groups : Buckets α).names = groupNames groups := by
  have hopened : ∀ all : List String,
      names (all.foldl (fun buckets name => buckets.opened name) ([] : Buckets α)) =
        all.eraseDups := by
    intro all
    -- the bucket of the last name is opened last
    induction all using List.reverseRecOn with
    | nil => rfl
    | append_singleton all name ih =>
      rw [List.foldl_append, List.foldl_cons, List.foldl_nil, names_opened, ih, eraseDups_concat]
      simp only [List.mem_eraseDups]
  exact hopened _

theorem members_ofGroups {bucket : String × List (String × α)} (h : bucket ∈ ofGroups groups) :
    bucket.2 = [] := by
  have hopened : ∀ (name : String) {buckets : Buckets α},
      (∀ bucket ∈ buckets, bucket.2 = []) → ∀ bucket ∈ buckets.opened name, bucket.2 = [] := by
    intro name buckets
    induction buckets with
    | nil => simp [opened]
    | cons first rest ih =>
      intro hempty
      rw [List.forall_mem_cons] at hempty
      rw [opened]
      split
      · exact List.forall_mem_cons.2 hempty
      · exact List.forall_mem_cons.2 ⟨hempty.1, ih hempty.2⟩
  have hall : ∀ (all : List String) {buckets : Buckets α}, (∀ bucket ∈ buckets, bucket.2 = []) →
      ∀ bucket ∈ all.foldl (fun buckets name => buckets.opened name) buckets, bucket.2 = [] := by
    intro all
    induction all with
    | nil => exact fun hempty => hempty
    | cons first rest ih => exact fun hempty => ih (hopened first hempty)
  exact hall _ (by simp) bucket h

/-! ## Putting files into buckets -/

/-- A bucket with the files behind its own that belong into it. -/
def withFiles (groups : List Group) (files : List (String × α))
    (bucket : String × List (String × α)) : String × List (String × α) :=
  (bucket.1, bucket.2 ++ files.filter fun file => Group.classify groups file.1 = bucket.1)

theorem put?_eq_some (file : String × α) (hnodup : buckets.names.Nodup)
    (hmem : name ∈ buckets.names) :
    put? name file buckets =
      some (buckets.map fun bucket =>
        if bucket.1 = name then (bucket.1, bucket.2 ++ [file]) else bucket) := by
  induction buckets with
  | nil => simp [names] at hmem
  | cons bucket rest ih =>
    obtain ⟨other, members⟩ := bucket
    rw [names, List.map_cons, List.nodup_cons] at hnodup
    rw [put?, List.map_cons]
    by_cases h : other = name
    · -- no later bucket has this name, so they all stay
      have hrest : rest.map (fun bucket =>
          if bucket.1 = name then (bucket.1, bucket.2 ++ [file]) else bucket) = rest := by
        refine (List.map_congr_left fun bucket hbucket => if_neg fun hname => ?_).trans
          (List.map_id rest)
        exact hnodup.1 (List.mem_map.2 ⟨bucket, hbucket, hname.trans h.symm⟩)
      rw [if_pos h, if_pos h, hrest]
    · have hmem' : name ∈ names rest := (List.mem_cons.1 hmem).resolve_left (Ne.symm h)
      rw [if_neg h, if_neg h, ih hnodup.2 hmem']
      rfl

/-- A run puts every file behind the others of its bucket. -/
theorem fill?_eq_some (hnodup : buckets.names.Nodup)
    (hmem : ∀ file ∈ files, Group.classify groups file.1 ∈ buckets.names) :
    fill? groups files buckets = some (buckets.map (withFiles groups files)) := by
  induction files generalizing buckets with
  | nil =>
    have hsame : withFiles groups ([] : List (String × α)) = id := by
      funext bucket
      simp [withFiles]
    rw [fill?, hsame, List.map_id]
  | cons file files ih =>
    rw [List.forall_mem_cons] at hmem
    obtain ⟨after, hafter, hnames⟩ := exists_put? file hmem.1
    have hput := put?_eq_some file hnodup hmem.1
    rw [fill?, hafter]
    refine (ih (hnames ▸ hnodup) (hnames ▸ hmem.2)).trans ?_
    cases hafter.symm.trans hput
    rw [List.map_map]
    refine congrArg some (List.map_congr_left fun bucket _ => ?_)
    -- the first file goes to the bucket of its name, before the files that follow it
    by_cases h : bucket.1 = Group.classify groups file.1
    · simp [withFiles, h]
    · simp [withFiles, h, Ne.symm h]

end Buckets

/-- Grouping gives every group its files in their order. -/
theorem groupFiles?_eq_some (groups : List Group) (files : List (String × α)) :
    groupFiles? groups files = some ((groupNames groups).map fun name =>
      (name, files.filter fun file => Group.classify groups file.1 = name)) := by
  have hnodup : (Buckets.ofGroups groups : Buckets α).names.Nodup := by
    rw [Buckets.names_ofGroups]
    exact nodup_eraseDups _
  rw [groupFiles?, Buckets.fill?_eq_some hnodup fun file _ => Buckets.classify_mem_names groups _,
    ← Buckets.names_ofGroups (α := α), Buckets.names, List.map_map]
  refine congrArg some (List.map_congr_left fun bucket hbucket => ?_)
  rw [Buckets.withFiles, Buckets.members_ofGroups hbucket]
  rfl

theorem groupFiles_eq (groups : List Group) (files : List (String × α)) :
    groupFiles groups files = (groupNames groups).map fun name =>
      (name, files.filter fun file => Group.classify groups file.1 = name) :=
  Option.get_of_eq_some _ (groupFiles?_eq_some groups files)

end Minifier
