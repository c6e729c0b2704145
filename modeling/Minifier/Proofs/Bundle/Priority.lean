import Minifier.Proofs.Bundle
import Minifier.RuleSet.Laravel

/-!
# The order of a combined text

A text that is put together from groups depends on the files of every group and their order alone,
not on how the groups take turns. Its chunks are those of the header and then, name by name in order
of priority, a heading with the two chunks of every file of the name (`Bundle.chunks_eq`). So every
file has a place in the chunks, and files of earlier groups have earlier places
(`Bundle.ofGroups_in_order_of_priority`).
-/

set_option autoImplicit false

namespace Minifier

namespace Bundle

variable {groups : List Group} {header : Text} {stripPrefix : Option Pattern}
  {files before after : List (String × Text)} {file : String × Text} {name : String} {i j : Nat}

/-- The files that a name has. -/
def membersOf (groups : List Group) (files : List (String × Text)) (name : String) :
    List (String × Text) :=
  files.filter fun file => Group.classify groups file.1 = name

/-- The chunks of the group with a name. -/
def blockOf (groups : List Group) (stripPrefix : Option Pattern) (files : List (String × Text))
    (name : String) : List Text :=
  groupChunks stripPrefix (name, membersOf groups files name)

/-- The chunks of a text are those of the header, and then a block for every name. -/
theorem chunks_eq (groups : List Group) (header : Text) (stripPrefix : Option Pattern)
    (files : List (String × Text)) :
    chunks groups header stripPrefix files =
      headerChunks header ++ (groupNames groups).flatMap (blockOf groups stripPrefix files) := by
  rw [chunks, groupFiles_eq, List.flatMap_map]
  rfl

/-! ## Blocks -/

theorem length_flatMap_fileChunks (stripPrefix : Option Pattern) (files : List (String × Text)) :
    (files.flatMap (fileChunks stripPrefix)).length = 2 * files.length := by
  induction files with
  | nil => rfl
  | cons file files ih =>
    rw [List.flatMap_cons, List.length_append, ih, List.length_cons]
    show 2 + 2 * files.length = 2 * (files.length + 1)
    omega

theorem length_blockOf (groups : List Group) (stripPrefix : Option Pattern)
    (files : List (String × Text)) (name : String) :
    (blockOf groups stripPrefix files name).length =
      (if membersOf groups files name = [] then 0 else 1) +
        2 * (membersOf groups files name).length := by
  rw [blockOf, groupChunks]
  by_cases h : membersOf groups files name = []
  · simp [h]
  · have hfalse : (membersOf groups files name).isEmpty = false := by simpa using h
    simp only [hfalse, if_neg h, Bool.false_eq_true, if_false, List.length_cons,
      length_flatMap_fileChunks]
    omega

/-- The block of the name of a file holds a heading, the chunks of the files of the name before it,
its own, and those of the files after it. -/
theorem blockOf_split (hsplit : files = before ++ file :: after)
    (hname : Group.classify groups file.1 = name) :
    blockOf groups stripPrefix files name =
      (Text.ofString ("\n// " ++ name) ::
        (membersOf groups before name).flatMap (fileChunks stripPrefix)) ++
      (fileChunks stripPrefix file ++
        (membersOf groups after name).flatMap (fileChunks stripPrefix)) := by
  have hmembers : membersOf groups files name =
      membersOf groups before name ++ file :: membersOf groups after name := by
    simp [membersOf, hsplit, hname]
  rw [blockOf, groupChunks, hmembers]
  simp

/-! ## Places -/

theorem drop_eq_cons (h : files[i]? = some file) :
    files.drop i = file :: files.drop (i + 1) := by
  obtain ⟨hlt, rfl⟩ := List.getElem?_eq_some_iff.1 h
  exact List.drop_eq_getElem_cons hlt

theorem eq_take_append_cons_drop (h : files[i]? = some file) :
    files = files.take i ++ file :: files.drop (i + 1) := by
  rw [← drop_eq_cons h, List.take_append_drop]

/-- The names of higher priority than a name. -/
def namesBefore (groups : List Group) (name : String) : List String :=
  (groupNames groups).take ((groupNames groups).idxOf name)

theorem groupNames_split (h : name ∈ groupNames groups) :
    ∃ later, groupNames groups = namesBefore groups name ++ name :: later := by
  have hlt := List.idxOf_lt_length_of_mem h
  refine ⟨(groupNames groups).drop ((groupNames groups).idxOf name + 1), ?_⟩
  conv_lhs => rw [← List.take_append_drop ((groupNames groups).idxOf name) (groupNames groups)]
  rw [List.drop_eq_getElem_cons hlt, List.getElem_idxOf hlt, namesBefore]

/-- A name comes before all names of lower priority. -/
theorem namesBefore_split {first second : String} (h : first ∈ groupNames groups)
    (hlt : (groupNames groups).idxOf first < (groupNames groups).idxOf second) :
    ∃ between, namesBefore groups second = namesBefore groups first ++ first :: between := by
  obtain ⟨later, hlater⟩ := groupNames_split h
  have hlength : (namesBefore groups first).length = (groupNames groups).idxOf first := by
    rw [namesBefore, List.length_take]
    exact min_eq_left List.idxOf_le_length
  obtain ⟨k, hk⟩ := Nat.exists_eq_add_of_lt hlt
  refine ⟨later.take k, ?_⟩
  rw [namesBefore, hk, ← hlength, Nat.add_assoc]
  conv_lhs => rw [hlater]
  rw [List.take_length_add_append, List.take_succ_cons]

/-- The number of chunks before the block of a name. -/
def blockOffset (groups : List Group) (header : Text) (stripPrefix : Option Pattern)
    (files : List (String × Text)) (name : String) : Nat :=
  (headerChunks header).length +
    ((namesBefore groups name).flatMap (blockOf groups stripPrefix files)).length

/-- The place of a file of a name among the chunks: behind the heading of the name and the files of
the name before it. -/
def placeAt (groups : List Group) (header : Text) (stripPrefix : Option Pattern)
    (files before : List (String × Text)) (name : String) : Nat :=
  blockOffset groups header stripPrefix files name + 1 + 2 * (membersOf groups before name).length

/-- The chunks of a file stand at its place. -/
theorem chunks_split (groups : List Group) (header : Text) (stripPrefix : Option Pattern)
    (hsplit : files = before ++ file :: after) :
    ∃ front back, chunks groups header stripPrefix files =
        front ++ (fileChunks stripPrefix file ++ back) ∧
      front.length =
        placeAt groups header stripPrefix files before (Group.classify groups file.1) := by
  obtain ⟨later, hlater⟩ := groupNames_split (Group.classify_mem_groupNames groups file.1)
  refine ⟨headerChunks header ++ ((namesBefore groups (Group.classify groups file.1)).flatMap
      (blockOf groups stripPrefix files) ++ (Text.ofString
        ("\n// " ++ Group.classify groups file.1) ::
          (membersOf groups before (Group.classify groups file.1)).flatMap
            (fileChunks stripPrefix))), ?_, ?_, ?_⟩
  · exact (membersOf groups after (Group.classify groups file.1)).flatMap (fileChunks stripPrefix) ++
      later.flatMap (blockOf groups stripPrefix files)
  · rw [chunks_eq, hlater, List.flatMap_append, List.flatMap_cons, blockOf_split hsplit rfl]
    simp only [List.append_assoc, List.cons_append]
  · simp only [placeAt, blockOffset, List.length_append, List.length_cons,
      length_flatMap_fileChunks]
    omega

/-- A block ends before the blocks of all names of lower priority. -/
theorem blockOffset_add_length_le (header : Text) (stripPrefix : Option Pattern)
    (files : List (String × Text)) {first second : String} (h : first ∈ groupNames groups)
    (hlt : (groupNames groups).idxOf first < (groupNames groups).idxOf second) :
    blockOffset groups header stripPrefix files first +
        (blockOf groups stripPrefix files first).length ≤
      blockOffset groups header stripPrefix files second := by
  obtain ⟨between, hbetween⟩ := namesBefore_split h hlt
  rw [blockOffset, blockOffset, hbetween, List.flatMap_append, List.flatMap_cons]
  simp only [List.length_append]
  omega

/-- A file stands inside the block of its name. -/
theorem placeAt_add_one_lt (header : Text) (stripPrefix : Option Pattern)
    (hsplit : files = before ++ file :: after)
    (hname : Group.classify groups file.1 = name) :
    placeAt groups header stripPrefix files before name + 1 <
      blockOffset groups header stripPrefix files name +
        (blockOf groups stripPrefix files name).length := by
  rw [blockOf_split hsplit hname, placeAt]
  have hchunks : (fileChunks stripPrefix file).length = 2 := rfl
  simp only [List.length_append, List.length_cons, length_flatMap_fileChunks, hchunks]
  omega

/-- Of two files of one name the later one has the later place. -/
theorem placeAt_lt_placeAt (hi : files[i]? = some file)
    (hname : Group.classify groups file.1 = name) (hlt : i < j) :
    placeAt groups header stripPrefix files (files.take i) name + 1 <
      placeAt groups header stripPrefix files (files.take j) name := by
  obtain ⟨k, rfl⟩ := Nat.exists_eq_add_of_lt hlt
  have htake : files.take (i + k + 1) = files.take i ++ file :: (files.drop (i + 1)).take k := by
    rw [Nat.add_assoc, List.take_add, drop_eq_cons hi, List.take_succ_cons]
  have hmembers : (membersOf groups (files.take i) name).length + 1 ≤
      (membersOf groups (files.take (i + k + 1)) name).length := by
    simp only [htake, membersOf, List.filter_append, List.filter_cons, hname, decide_true, if_true,
      List.length_append, List.length_cons]
    omega
  rw [placeAt, placeAt]
  omega

/-! ## The text as a whole -/

/-- There are two chunks to every file, a heading to every name that has files, and those of the
header. -/
theorem length_chunks (groups : List Group) (header : Text) (stripPrefix : Option Pattern)
    (files : List (String × Text)) :
    (chunks groups header stripPrefix files).length = (headerChunks header).length +
      (groupNames groups).countP (fun name => membersOf groups files name ≠ []) +
        2 * files.length := by
  have hblocks : ∀ names : List String,
      (names.flatMap (blockOf groups stripPrefix files)).length =
        names.countP (fun name => membersOf groups files name ≠ []) +
          2 * (names.map fun name => (membersOf groups files name).length).sum := by
    intro names
    induction names with
    | nil => rfl
    | cons name names ih =>
      rw [List.flatMap_cons, List.length_append, ih, length_blockOf, List.countP_cons,
        List.map_cons, List.sum_cons]
      by_cases h : membersOf groups files name = []
      · simp [h]
      · simp only [h, if_false, decide_true, ne_eq, not_false_eq_true, if_true]
        omega
  have hfiles : ((groupNames groups).map fun name =>
      (membersOf groups files name).length).sum = files.length :=
    sum_length_filter (nodup_eraseDups _) (fun file : String × Text => _) fun file _ =>
      Group.classify_mem_groupNames groups file.1
  rw [chunks_eq, List.length_append, hblocks, hfiles, Nat.add_assoc]

/-- Lists of files that agree group by group are put together into the same text, with the same
counts. The text is made of the chunks of the header, a heading for every group that has files, and
two chunks for every file, each of which has a place of its own among them: behind those of all
files of groups of higher priority, and of the files of its group that were there before it. -/
theorem ofGroups_in_order_of_priority {groups : List Group} {header : Text}
    {stripPrefix : Option Pattern} {files files' : List (String × Text)}
    (h : ∀ name ∈ groupNames groups,
      membersOf groups files name = membersOf groups files' name) :
    ofGroups groups header stripPrefix files = ofGroups groups header stripPrefix files' ∧
      (ofGroups groups header stripPrefix files).text =
        joinLines (chunks groups header stripPrefix files) ∧
      (chunks groups header stripPrefix files).length = (headerChunks header).length +
        (groupNames groups).countP (fun name => membersOf groups files name ≠ []) +
          2 * files.length ∧
      ∃ place : Nat → Nat,
        (∀ i file, files[i]? = some file →
          ((chunks groups header stripPrefix files).drop (place i)).take 2 =
            fileChunks stripPrefix file) ∧
        ∀ i j first second, files[i]? = some first → files[j]? = some second →
          ((groupNames groups).idxOf (Group.classify groups first.1) <
              (groupNames groups).idxOf (Group.classify groups second.1) ∨
            Group.classify groups first.1 = Group.classify groups second.1 ∧ i < j) →
          place i + 1 < place j := by
  have hgroups : groupFiles groups files = groupFiles groups files' := by
    rw [groupFiles_eq, groupFiles_eq]
    exact List.map_congr_left fun name hname => by
      rw [← membersOf, h name hname, membersOf]
  refine ⟨?_, rfl, length_chunks groups header stripPrefix files,
    fun i => ((files[i]?).map fun file => placeAt groups header stripPrefix files (files.take i)
      (Group.classify groups file.1)).getD 0, ?_, ?_⟩
  · rw [ofGroups, ofGroups, chunks, chunks, hgroups]
  · -- the text of a file stands where the chunks before it end
    intro i file hi
    obtain ⟨front, back, hchunks, hfront⟩ :=
      chunks_split groups header stripPrefix (eq_take_append_cons_drop hi)
    simp only [hi, Option.map_some, Option.getD_some]
    rw [hchunks, ← hfront, List.drop_left]
    rfl
  · -- a file of an earlier group ends before the chunks of the later one begin
    intro i j first second hi hj hlater
    simp only [hi, hj, Option.map_some, Option.getD_some]
    rcases hlater with hpriority | ⟨hname, hlt⟩
    · have hname : Group.classify groups first.1 = Group.classify groups first.1 := rfl
      have hinside := placeAt_add_one_lt header stripPrefix (eq_take_append_cons_drop hi) hname
      have hbefore := blockOffset_add_length_le header stripPrefix files
        (Group.classify_mem_groupNames groups first.1) hpriority
      rw [placeAt.eq_def _ _ _ _ (files.take j)]
      omega
    · rw [hname]
      exact placeAt_lt_placeAt hi hname hlt

/-- An event before a model and one behind it come to the same text as both behind it, in which the
model has the first place. -/
theorem events_around_a_model_are_put_together :
    let groups := Laravel.groupTable [("models", "Models/"), ("events", "Events/")]
    let around := [("Events/A.php", [Glyph.char 'a']), ("Models/B.php", [Glyph.char 'b']),
      ("Events/C.php", [Glyph.char 'c'])]
    let behind := [("Models/B.php", [Glyph.char 'b']), ("Events/A.php", [Glyph.char 'a']),
      ("Events/C.php", [Glyph.char 'c'])]
    (∀ name ∈ groupNames groups,
        membersOf groups around name = membersOf groups behind name) ∧
      ofGroups groups [] none around = ofGroups groups [] none behind ∧
      ∃ place : Nat → Nat,
        (∀ i file, around[i]? = some file →
          ((chunks groups [] none around).drop (place i)).take 2 = fileChunks none file) ∧
        place 1 + 1 < place 0 ∧ place 0 + 1 < place 2 := by
  intro groups around behind
  have hsame : ∀ name ∈ groupNames groups,
      membersOf groups around name = membersOf groups behind name := by decide +kernel
  obtain ⟨heq, -, -, place, hchunks, hplace⟩ :=
    @ofGroups_in_order_of_priority groups [] none around behind hsame
  refine ⟨hsame, heq, place, hchunks, ?_, ?_⟩
  · exact hplace 1 0 _ _ rfl rfl (.inl (by decide +kernel))
  · exact hplace 0 2 _ _ rfl rfl (.inr (by decide +kernel))

end Bundle

end Minifier
