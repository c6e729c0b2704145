import Minifier.Kind
import Minifier.RuleSet.Group
import Minifier.Text.Gap

/-!
# Bundles

Files that are put together into one text. `groupFiles` sorts them into buckets, one to a group in
order of priority; `Bundle.ofGroups` writes bucket after bucket, and `Bundle.ofKinds` writes the
files kind after kind.
-/

set_option autoImplicit false

namespace Minifier

/-- Files put together: the text, and the number of files of every group. -/
structure Bundle where
  text : Text
  counts : List (String × Nat)
  deriving DecidableEq, Repr

/-- The number of files in a bundle. -/
def Bundle.fileCount (bundle : Bundle) : Nat :=
  bundle.counts.foldr (fun (_, count) files => count + files) 0

/-- The comment that names the file which follows. -/
def fileLabel (path : String) : String :=
  "/* File: " ++ path ++ " */"

/-- The names of the groups, each once, and the group of all other files. -/
def groupNames (groups : List Group) : List String :=
  (groups.map Group.name ++ [otherGroup]).eraseDups

/-! ## Buckets -/

/-- Files by the names of groups, in the order in which the buckets were opened. -/
abbrev Buckets (α : Type) := List (String × List (String × α))

namespace Buckets

variable {α : Type}

/-- The names of buckets. -/
def names (buckets : Buckets α) : List String :=
  buckets.map Prod.fst

/-- Opens a bucket without files, unless there is one of that name. -/
def opened (name : String) : Buckets α → Buckets α
  | [] => [(name, [])]
  | (other, members) :: rest =>
    if other = name then (other, members) :: rest else (other, members) :: opened name rest

/-- The buckets of groups before any file is put in: one of every name, and one of all other
files. -/
def ofGroups (groups : List Group) : Buckets α :=
  (groups.map Group.name ++ [otherGroup]).foldl (fun buckets name => buckets.opened name) []

/-- Puts a file behind the others of the bucket of a name, if there is that bucket. -/
def put? (name : String) (file : String × α) : Buckets α → Option (Buckets α)
  | [] => none
  | (other, members) :: rest =>
    if other = name then some ((other, members ++ [file]) :: rest)
    else (put? name file rest).map ((other, members) :: ·)

/-- Puts files one after another into the buckets of their groups; there is no answer when a file
finds no bucket. -/
def fill? (groups : List Group) : List (String × α) → Buckets α → Option (Buckets α)
  | [], buckets => some buckets
  | file :: rest, buckets => do
    let after ← put? (Group.classify groups file.1) file buckets
    fill? groups rest after

theorem mem_names_opened_iff {name other : String} {buckets : Buckets α} :
    other ∈ (buckets.opened name).names ↔ other = name ∨ other ∈ buckets.names := by
  induction buckets with
  | nil => simp [opened, names]
  | cons bucket rest ih =>
    rw [opened]
    split
    · next h =>
      subst h
      simp [names]
    · simp only [names, List.map_cons, List.mem_cons] at ih ⊢
      rw [ih, ← or_assoc, or_comm (a := other = bucket.1), or_assoc]

/-- Every path is classified by the name of a bucket. -/
theorem classify_mem_names (groups : List Group) (path : String) :
    Group.classify groups path ∈ (ofGroups groups : Buckets α).names := by
  have hopened : ∀ (all : List String) (buckets : Buckets α) (name : String),
      name ∈ all ∨ name ∈ buckets.names →
        name ∈ (all.foldl (fun buckets name => buckets.opened name) buckets).names := by
    intro all
    induction all with
    | nil => simp
    | cons first rest ih =>
      intro buckets name h
      refine ih _ _ ?_
      rw [mem_names_opened_iff, ← or_assoc, or_comm (a := name ∈ rest), ← List.mem_cons]
      exact h
  refine hopened _ _ _ (.inl (List.mem_append.2 ?_))
  rw [Group.classify]
  split
  · next group hfind => exact .inl (List.mem_map_of_mem (List.mem_of_find?_eq_some hfind))
  · exact .inr List.mem_cons_self

/-- A file finds the bucket of its name, and the names of the buckets stay. -/
theorem exists_put? {name : String} (file : String × α) {buckets : Buckets α}
    (h : name ∈ buckets.names) :
    ∃ after, put? name file buckets = some after ∧ after.names = buckets.names := by
  induction buckets with
  | nil => cases h
  | cons bucket rest ih =>
    rw [put?]
    split
    · exact ⟨_, rfl, rfl⟩
    · next hne =>
      obtain ⟨after, hafter, hnames⟩ := ih ((List.mem_cons.1 h).resolve_left (Ne.symm hne))
      refine ⟨bucket :: after, by rw [hafter]; rfl, ?_⟩
      rw [names, List.map_cons, ← names, hnames]
      rfl

/-- Every file finds its bucket. -/
theorem isSome_fill? (groups : List Group) (files : List (String × α)) {buckets : Buckets α}
    (h : buckets.names = (ofGroups groups : Buckets α).names) :
    (fill? groups files buckets).isSome := by
  induction files generalizing buckets with
  | nil => rfl
  | cons file rest ih =>
    obtain ⟨after, hafter, hnames⟩ := exists_put? file (h ▸ classify_mem_names groups file.1)
    rw [fill?, hafter]
    exact ih (hnames.trans h)

end Buckets

/-- The files in the buckets of their groups. -/
def groupFiles? {α : Type} (groups : List Group) (files : List (String × α)) :
    Option (Buckets α) :=
  Buckets.fill? groups files (Buckets.ofGroups groups)

/-- The files of every group, in the order of the groups and then in their own. -/
def groupFiles {α : Type} (groups : List Group) (files : List (String × α)) : Buckets α :=
  (groupFiles? groups files).get (Buckets.isSome_fill? groups files rfl)

/-! ## Chunks -/

/-- The texts of a list with line feeds between them. -/
def joinLines (chunks : List Text) : Text :=
  (chunks.intersperse [.char '\n']).flatten

/-- The two chunks of a file: its label and its content without what a pattern strips. -/
def fileChunks (stripPrefix : Option Pattern) (file : String × Text) : List Text :=
  let content := match stripPrefix with
    | some pattern => pattern.deleteFirst file.2
    | none => file.2
  [Text.ofString (fileLabel file.1), content]

/-- The chunks of a group: a heading, then its files. A group without files has none. -/
def groupChunks (stripPrefix : Option Pattern) (group : String × List (String × Text)) :
    List Text :=
  if group.2.isEmpty then []
  else Text.ofString ("\n// " ++ group.1) :: group.2.flatMap (fileChunks stripPrefix)

/-- A header without the line feeds at its end; an empty one gives no chunk. -/
def headerChunks (header : Text) : List Text :=
  if header.isEmpty then []
  else [(header.reverse.dropWhile (· == .char '\n')).reverse]

namespace Bundle

/-- The chunks of files after a header, group by group. -/
def chunks (groups : List Group) (header : Text) (stripPrefix : Option Pattern)
    (files : List (String × Text)) : List Text :=
  headerChunks header ++ (groupFiles groups files).flatMap (groupChunks stripPrefix)

/-- The files written group by group after a header. -/
def ofGroups (groups : List Group) (header : Text) (stripPrefix : Option Pattern)
    (files : List (String × Text)) : Bundle where
  text := joinLines (chunks groups header stripPrefix files)
  counts := (groupFiles groups files).map fun group => (group.1, group.2.length)

/-- The kinds of files, each once, in the order in which they first occur. -/
def kindsOf (files : List (String × Kind × Text)) : List Kind :=
  (files.map fun file => file.2.1).eraseDups

/-- The files of a kind. -/
def ofKind (kind : Kind) (files : List (String × Kind × Text)) : List (String × Kind × Text) :=
  files.filter fun file => file.2.1 = kind

/-- The files written kind by kind, each one directly after its label. -/
def ofKinds (files : List (String × Kind × Text)) : Bundle where
  text :=
    joinLines (((kindsOf files).flatMap fun kind => ofKind kind files).map fun file =>
      Text.ofString (fileLabel file.1) ++ file.2.2)
  counts := (kindsOf files).map fun kind => (kind.name, (ofKind kind files).length)

end Bundle

end Minifier
