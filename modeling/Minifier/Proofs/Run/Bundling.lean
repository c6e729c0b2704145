import Minifier.Proofs.Php.Opening
import Minifier.Proofs.Run.Settling

/-!
# The bytes of a bundle

What a run puts together is known from the bytes that its files would be written as one by one
(`Run.encode_text_of_bundled`). Under a rule set the opening tag is then looked for among these
bytes, since reading them as a text need not give back the text that was minified.
-/

set_option autoImplicit false

namespace Minifier

namespace Run

variable {rules : Option RuleSet} {clock : Stamp} {outcomes : List (SourceFile × Outcome)}

/-! ## Outputs put together -/

/-- A minified file with the bytes that it is written as. -/
abbrev Output := SourceFile × Bytes

/-- The bytes of the comment that names a file. -/
def labelBytes (file : SourceFile) : Bytes :=
  Utf8.encode (Text.ofString (fileLabel file.relative))

/-- Bytes with line feeds between them. -/
def joinBytes (chunks : List Bytes) : Bytes :=
  [10].intercalate chunks

/-- Outputs put together by kind: in the order in which the kinds first occur and then in their own,
each directly behind its label. -/
def bytesByKind (outputs : List Output) : Bytes :=
  joinBytes <| ((outputs.map fun output => output.1.kind).eraseDups.flatMap fun kind =>
    outputs.filter fun output => output.1.kind = kind).map fun output =>
      labelBytes output.1 ++ output.2

/-- The chunks of an output in a group: its label, and its content without the first match of what
is stripped, as `read` reads it. -/
def outputChunks (read : Bytes → Text) (stripPrefix : Option Pattern) (output : Output) :
    List Bytes :=
  [labelBytes output.1, Utf8.encode (match stripPrefix with
    | some pattern => pattern.deleteFirst (read output.2)
    | none => read output.2)]

/-- Outputs put together by group behind a header, which loses the line feeds at its end: each group
that has any opens with its name, and its outputs follow in their order. -/
def bytesByGroup (read : Bytes → Text) (groups : List Group) (header : String)
    (stripPrefix : Option Pattern) (outputs : List Output) : Bytes :=
  joinBytes <| (headerChunks (Text.ofString header)).map Utf8.encode ++
    (groupNames groups).flatMap fun name =>
      let members := outputs.filter fun output => Group.classify groups output.1.relative = name
      if members.isEmpty then []
      else Utf8.encode (Text.ofString ("\n// " ++ name)) ::
        members.flatMap (outputChunks read stripPrefix)

/-- Outputs put together as rules say, at a time. -/
def combinedBytes (read : Bytes → Text) (rules : Option RuleSet) (clock : Stamp)
    (outputs : List Output) : Bytes :=
  match rules with
  | none => bytesByKind outputs
  | some set => bytesByGroup read set.groups ((header [] set clock).toOption.getD "")
      set.stripPrefix outputs

/-! ## Minified files put together -/

/-- The files that were minified, with their texts. -/
def minifiedOf (outcomes : List (SourceFile × Outcome)) : List (SourceFile × Text) :=
  outcomes.filterMap fun (file, outcome) => outcome.minified?.map fun text => (file, text)

/-- The files that were minified, with the bytes that they are written as. -/
def writtenAs (made : List (SourceFile × Text)) : List Output :=
  made.map fun (file, text) => (file, Utf8.encode text)

theorem filterMap_minified {α : Type} (f : SourceFile → Text → α)
    (outcomes : List (SourceFile × Outcome)) :
    (outcomes.filterMap fun (file, outcome) => outcome.minified?.map (f file)) =
      (minifiedOf outcomes).map fun (file, text) => f file text := by
  rw [minifiedOf, List.map_filterMap]
  refine List.filterMap_congr fun ⟨file, outcome⟩ _ => ?_
  rw [Option.map_map]
  rfl

theorem encode_joinLines (chunks : List Text) :
    Utf8.encode (joinLines chunks) = joinBytes (chunks.map Utf8.encode) :=
  Utf8.encode_intersperse chunks

theorem encode_text_ofKinds (made : List (SourceFile × Text)) :
    Utf8.encode (Bundle.ofKinds
        (made.map fun (file, text) => (file.relative, file.kind, text))).text =
      bytesByKind (writtenAs made) := by
  have hkinds : Bundle.kindsOf (made.map fun (file, text) => (file.relative, file.kind, text)) =
      ((writtenAs made).map fun output => output.1.kind).eraseDups := by
    rw [Bundle.kindsOf, writtenAs, List.map_map, List.map_map]
    rfl
  rw [Bundle.ofKinds, encode_joinLines, bytesByKind, hkinds, List.map_map]
  simp only [List.map_flatMap]
  congr 2
  refine funext fun kind => ?_
  rw [Bundle.ofKind, writtenAs, List.filter_map, List.filter_map, List.map_map, List.map_map]
  exact List.map_congr_left fun file _ => Utf8.encode_append ..

theorem encode_text_ofGroups {read : Bytes → Text} {groups : List Group} {header : String}
    {stripPrefix : Option Pattern} {made : List (SourceFile × Text)}
    (h : ∀ file text, (file, text) ∈ made →
      (fileChunks stripPrefix (file.relative, text)).map Utf8.encode =
        outputChunks read stripPrefix (file, Utf8.encode text)) :
    Utf8.encode (Bundle.ofGroups groups (Text.ofString header) stripPrefix
      (made.map fun (file, text) => (file.relative, text))).text =
        bytesByGroup read groups header stripPrefix (writtenAs made) := by
  rw [Bundle.ofGroups, Bundle.chunks, encode_joinLines, bytesByGroup, List.map_append,
    groupFiles_eq, List.flatMap_map, List.map_flatMap]
  congr 3
  refine funext fun name => ?_
  -- a group has the same members, whether their texts or their bytes are at hand
  have hmembers : ((writtenAs made).filter fun output =>
      Group.classify groups output.1.relative = name) =
        (made.filter fun m => Group.classify groups m.1.relative = name).map
          fun (file, text) => (file, Utf8.encode text) := by
    rw [writtenAs, List.filter_map]
    rfl
  have hfiles : ((made.map fun (file, text) => (file.relative, text)).filter fun file =>
      Group.classify groups file.1 = name) =
        (made.filter fun m => Group.classify groups m.1.relative = name).map
          fun (file, text) => (file.relative, text) := by
    rw [List.filter_map]
    rfl
  rw [groupChunks, hmembers, hfiles]
  simp only [List.isEmpty_map]
  split
  · rfl
  · rw [List.map_cons, List.map_flatMap, List.flatMap_map, List.flatMap_map]
    congr 1
    refine List.flatMap_congr fun m hm => ?_
    exact h m.1 m.2 (List.mem_of_mem_filter hm)

/-- What a run puts together is made of the bytes that its files would be written as. Under a rule
set that strips the opening tag the files are PHP, and the tag is found among their bytes. -/
theorem encode_text_of_bundled {bundle : Bundle}
    (hrules : ∀ set, rules = some set → set.stripPrefix = Laravel.rules.stripPrefix ∧
      ∀ file text, (file, text) ∈ minifiedOf outcomes → ∀ g ∈ text, g.IsTidy)
    (h : bundled rules clock outcomes = .ok bundle) :
    Utf8.encode bundle.text =
      combinedBytes Utf8.readBytewise rules clock (writtenAs (minifiedOf outcomes)) := by
  cases rules with
  | none =>
    cases h
    have hfiles := filterMap_minified (fun file text => (file.relative, file.kind, text)) outcomes
    exact (congrArg (fun files => Utf8.encode (Bundle.ofKinds files).text) hfiles).trans
      (encode_text_ofKinds (minifiedOf outcomes))
  | some set =>
    obtain ⟨hstrip, htidy⟩ := hrules set rfl
    obtain ⟨text, hheader, rfl⟩ := map_eq_ok_iff.1 h
    have hfiles := filterMap_minified (fun file text => (file.relative, text)) outcomes
    refine (congrArg (fun files => Utf8.encode
      (Bundle.ofGroups set.groups (Text.ofString text) set.stripPrefix files).text) hfiles).trans ?_
    rw [combinedBytes, hheader]
    -- all that is left is one file: what is stripped from its text goes from its bytes as well
    refine encode_text_ofGroups fun file text hmem => ?_
    obtain ⟨pattern, hpattern⟩ : ∃ pattern, Laravel.rules.stripPrefix = some pattern :=
      ⟨_, Laravel.stripPrefix_eq⟩
    rw [hstrip, hpattern, fileChunks, outputChunks]
    simp only [Laravel.deleteFirst_eq_dropOpening hpattern,
      encode_dropOpening (htidy file text hmem)]
    rfl

end Run

end Minifier
