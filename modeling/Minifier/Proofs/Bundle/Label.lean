import Mathlib.Data.List.Chain
import Minifier.Bundle
import Minifier.Discovery
import Minifier.Proofs.Comment.Markers
import Minifier.Proofs.Path

/-!
# Labels of files

The label of a file is meant to be one comment, which names the path of the file. A path is names
with slashes between them, so a folder whose name ends with a star makes, with the slash behind it,
the marker that ends a block comment, and all of the path behind it becomes code. No other path does
so (`blockEnd_infix_relativeText_iff`). Main result: `label_is_inert_iff`.
-/

set_option autoImplicit false

namespace Minifier

open Comment Discovery

variable {front behind text : Text} {names : List String}

/-! ## The marker in a path -/

/-- Some folder on the way to a file has a name that ends with a star. -/
def HasStarredFolder (names : List String) : Prop :=
  ∃ folder ∈ names.dropLast, folder.toList.getLast? = some '*'

instance (names : List String) : Decidable (HasStarredFolder names) :=
  inferInstanceAs (Decidable (∃ folder ∈ names.dropLast, folder.toList.getLast? = some '*'))

theorem hasStarredFolder_cons_cons (name next : String) (rest : List String) :
    HasStarredFolder (name :: next :: rest) ↔
      name.toList.getLast? = some '*' ∨ HasStarredFolder (next :: rest) := by
  rw [HasStarredFolder, List.dropLast_cons_cons, List.exists_mem_cons_iff, HasStarredFolder]

theorem Text.ofString_append (s t : String) :
    Text.ofString (s ++ t) = Text.ofString s ++ Text.ofString t := by
  rw [Text.ofString, String.toList_append, List.map_append, Text.ofString, Text.ofString]

theorem Text.ofString_relativeText_cons_cons (name next : String) (rest : List String) :
    Text.ofString (relativeText (name :: next :: rest)) =
      Text.ofString name ++ .char '/' :: Text.ofString (relativeText (next :: rest)) := by
  rw [relativeText, String.intercalate_cons_cons, Text.ofString_append, Text.ofString_append,
    List.append_assoc, relativeText]
  rfl

theorem Text.char_mem_ofString_iff {c : Char} {s : String} :
    Glyph.char c ∈ Text.ofString s ↔ c ∈ s.toList := by
  rw [Text.ofString, List.mem_map]
  constructor
  · rintro ⟨d, hd, hsame⟩
    rwa [← Glyph.char.inj hsame]
  · exact fun hc => ⟨c, hc, rfl⟩

theorem Text.getLast?_ofString_iff {c : Char} {s : String} :
    (Text.ofString s).getLast? = some (.char c) ↔ s.toList.getLast? = some c := by
  rw [Text.ofString, List.getLast?_map, Option.map_eq_some_iff]
  constructor
  · rintro ⟨d, hd, hsame⟩
    rwa [← Glyph.char.inj hsame]
  · exact fun hc => ⟨c, hc, rfl⟩

/-- Texts one behind the other hold the marker only within one of them or where they meet. -/
theorem blockEnd_infix_append_iff :
    Text.ofString "*/" <:+: front ++ behind ↔
      Text.ofString "*/" <:+: front ∨ Text.ofString "*/" <:+: behind ∨
        front.getLast? = some (.char '*') ∧ behind.head? = some (.char '/') := by
  rw [ofString_blockEnd, ← not_iff_not, not_or, not_or, Text.not_pair_infix_iff,
    Text.not_pair_infix_iff, Text.not_pair_infix_iff, List.isChain_append]
  refine and_congr_right fun _ => and_congr_right fun _ => ?_
  constructor
  · rintro hmeet ⟨hstar, hslash⟩
    exact hmeet _ hstar _ hslash ⟨rfl, rfl⟩
  · rintro hmeet a ha b hb ⟨rfl, rfl⟩
    exact hmeet ⟨ha, hb⟩

theorem not_blockEnd_infix_of_not_mem (h : .char '/' ∉ text) : ¬ Text.ofString "*/" <:+: text := by
  intro hend
  exact h (hend.subset (by decide))

/-- Behind a name, a slash makes the marker with a star at the end of the name only. -/
theorem blockEnd_infix_append_slash_iff (hfront : .char '/' ∉ front) :
    Text.ofString "*/" <:+: front ++ .char '/' :: behind ↔
      front.getLast? = some (.char '*') ∨ Text.ofString "*/" <:+: behind := by
  have hslash : Text.ofString "*/" <:+: .char '/' :: behind ↔ Text.ofString "*/" <:+: behind := by
    rw [← List.singleton_append, blockEnd_infix_append_iff]
    simp [ofString_blockEnd, List.infix_cons_iff]
  rw [blockEnd_infix_append_iff, hslash]
  have hnone := not_blockEnd_infix_of_not_mem hfront
  constructor
  · rintro (hend | hend | ⟨hstar, -⟩)
    · exact absurd hend hnone
    · exact Or.inr hend
    · exact Or.inl hstar
  · rintro (hstar | hend)
    · exact Or.inr (Or.inr ⟨hstar, rfl⟩)
    · exact Or.inr (Or.inl hend)

/-- A path holds the marker iff a folder on it ends with a star. -/
theorem blockEnd_infix_relativeText_iff (hnames : ∀ name ∈ names, '/' ∉ name.toList) :
    Text.ofString "*/" <:+: Text.ofString (relativeText names) ↔ HasStarredFolder names := by
  induction names with
  | nil =>
    refine iff_of_false ?_ (by simp [HasStarredFolder])
    exact not_blockEnd_infix_of_not_mem (by decide)
  | cons name rest ih =>
    rw [List.forall_mem_cons] at hnames
    have hname : Glyph.char '/' ∉ Text.ofString name :=
      fun h => hnames.1 (Text.char_mem_ofString_iff.1 h)
    cases rest with
    | nil =>
      refine iff_of_false ?_ (by simp [HasStarredFolder])
      rw [relativeText, String.intercalate_singleton]
      exact not_blockEnd_infix_of_not_mem hname
    | cons next rest =>
      rw [Text.ofString_relativeText_cons_cons, blockEnd_infix_append_slash_iff hname,
        Text.getLast?_ofString_iff, ih hnames.2, hasStarredFolder_cons_cons]

/-- The text of proper names starts with a glyph that is no slash. -/
theorem exists_cons_relativeText (hne : names ≠ []) (hnames : ∀ name ∈ names, IsPathName name) :
    ∃ g rest, Text.ofString (relativeText names) = g :: rest ∧ g ≠ .char '/' := by
  obtain ⟨name, rest, rfl⟩ := List.exists_cons_of_ne_nil hne
  have hname := hnames name List.mem_cons_self
  have hchars : name.toList ≠ [] := fun h => hname.ne_empty (String.toList_eq_nil_iff.1 h)
  obtain ⟨c, chars, hcons⟩ := List.exists_cons_of_ne_nil hchars
  have hslash : Glyph.char c ≠ .char '/' := by
    intro h
    apply hname.no_slash
    rw [hcons, Glyph.char.inj h]
    exact List.mem_cons_self
  have hstart : Text.ofString name = .char c :: chars.map .char := by
    rw [Text.ofString, hcons, List.map_cons]
  cases rest with
  | nil =>
    rw [relativeText, String.intercalate_singleton]
    exact ⟨_, _, hstart, hslash⟩
  | cons next rest =>
    rw [Text.ofString_relativeText_cons_cons, hstart, List.cons_append]
    exact ⟨_, _, rfl, hslash⟩

/-- Behind the first marker in a path the next name starts. -/
theorem exists_first_blockEnd (hnames : ∀ name ∈ names, IsPathName name)
    (h : HasStarredFolder names) :
    ∃ front g behind, Text.ofString (relativeText names) =
        front ++ .char '*' :: .char '/' :: g :: behind ∧
      ¬ Text.ofString "*/" <:+: front ∧ g ≠ .char '/' := by
  induction names with
  | nil => simp [HasStarredFolder] at h
  | cons name rest ih =>
    rw [List.forall_mem_cons] at hnames
    have hname : Glyph.char '/' ∉ Text.ofString name :=
      fun h => hnames.1.no_slash (Text.char_mem_ofString_iff.1 h)
    cases rest with
    | nil => simp [HasStarredFolder] at h
    | cons next rest =>
      rw [Text.ofString_relativeText_cons_cons]
      by_cases hstar : name.toList.getLast? = some '*'
      · -- the star at the end of this name and the slash behind it are the first end of a block
        obtain ⟨front, hfront⟩ := List.getLast?_eq_some_iff.1 (Text.getLast?_ofString_iff.2 hstar)
        obtain ⟨g, behind, hbehind, hg⟩ := exists_cons_relativeText (List.cons_ne_nil _ _) hnames.2
        refine ⟨front, g, behind, ?_, not_blockEnd_infix_of_not_mem ?_, hg⟩
        · rw [hfront, hbehind, List.append_assoc, List.singleton_append]
        · exact fun hmem => hname (hfront ▸ List.mem_append_left _ hmem)
      · -- the name and its slash hold no such end, so the first one is that of the rest
        have hrest := ((hasStarredFolder_cons_cons name next rest).1 h).resolve_left hstar
        obtain ⟨front, g, behind, htext, hfront, hg⟩ := ih hnames.2 hrest
        refine ⟨Text.ofString name ++ .char '/' :: front, g, behind, ?_, ?_, hg⟩
        · rw [htext, List.append_assoc, List.cons_append]
        · rw [blockEnd_infix_append_slash_iff hname, Text.getLast?_ofString_iff, not_or]
          exact ⟨hstar, hfront⟩

/-! ## Reading a label -/

/-- A label is read as a block comment that holds the path between other glyphs. -/
theorem stripBlocks_label_append (path : String) (content : Text) :
    stripBlocks (Text.ofString (fileLabel path) ++ content) =
      stripBlocksFrom true (Text.ofString " File: " ++ (Text.ofString path ++
        (Text.ofString " */" ++ content))) := by
  rw [fileLabel, Text.ofString_append, Text.ofString_append, List.append_assoc, List.append_assoc]
  rfl

/-- Without the marker in the path a label is one comment. -/
theorem stripBlocks_label_of_not_infix {path : String}
    (h : ¬ Text.ofString "*/" <:+: Text.ofString path) (content : Text) :
    stripBlocks (Text.ofString (fileLabel path) ++ content) = stripBlocks content := by
  have hbody : ¬ Text.ofString "*/" <:+:
      Text.ofString " File: " ++ (Text.ofString path ++ [.char ' ']) := by
    rw [blockEnd_infix_append_iff, blockEnd_infix_append_iff]
    rintro (hend | (hend | hend | ⟨-, hslash⟩) | ⟨hstar, -⟩)
    · exact not_blockEnd_infix_of_not_mem (by decide) hend
    · exact h hend
    · exact not_blockEnd_infix_of_not_mem (by decide) hend
    · exact absurd hslash (by decide)
    · exact absurd hstar (by decide)
  have hread := readsBlock_stripBlocksFrom.append hbody content
  rw [List.append_assoc, List.append_assoc] at hread
  rw [stripBlocks_label_append, stripBlocks, ← hread]
  rfl

/-- Behind the first marker in the path a label is code. -/
theorem stripBlocks_label_of_eq_append {path : String}
    (hpath : Text.ofString path = front ++ .char '*' :: .char '/' :: behind)
    (hfront : ¬ Text.ofString "*/" <:+: front) (content : Text) :
    stripBlocks (Text.ofString (fileLabel path) ++ content) =
      stripBlocks (behind ++ (Text.ofString " */" ++ content)) := by
  have hbody : ¬ Text.ofString "*/" <:+: Text.ofString " File: " ++ front := by
    rw [blockEnd_infix_append_iff]
    rintro (hend | hend | ⟨hstar, -⟩)
    · exact not_blockEnd_infix_of_not_mem (by decide) hend
    · exact hfront hend
    · exact absurd hstar (by decide)
  have hread := readsBlock_stripBlocksFrom.append hbody (behind ++ (Text.ofString " */" ++ content))
  rw [stripBlocks_label_append, stripBlocks, ← hread, hpath]
  simp only [List.append_assoc, List.cons_append]

/-- What stands behind the end of a label is read from outside of comments, unless it makes a new
marker with the slash that ends the label. -/
theorem stripBlocksFrom_append_labelEnd {content : Text}
    (hcontent : content.head? ≠ some (.char '*')) (inside : Bool) (text : Text) :
    stripBlocksFrom inside (text ++ (Text.ofString " */" ++ content)) =
      stripBlocksFrom inside (text ++ Text.ofString " */") ++ stripBlocks content := by
  -- a space stands behind the text, so that its last glyph makes no marker with the label
  have hspace : ∀ (rest tail : Text) (c : Char), c ≠ ' ' → rest.head? ≠ some (.char c) →
      (rest ++ (Text.ofString " */" ++ tail)).head? ≠ some (.char c) := by
    intro rest tail c hc hrest
    cases rest with
    | nil =>
      intro hhead
      exact hc (Glyph.char.inj (Option.some.inj hhead)).symm
    | cons g rest => exact hrest
  fun_induction stripBlocksFrom inside text with
  | case1 inside =>
    cases inside with
    | false =>
      have hslash : ¬ (Glyph.char '/' = .char '/' ∧ content.head? = some (.char '*')) :=
        fun hopens => hcontent hopens.2
      show Glyph.char ' ' :: .char '*' :: stripBlocksFrom false (.char '/' :: content) = _
      rw [stripBlocksFrom_false_copy hslash]
      rfl
    | true => rfl
  | case2 rest ih => exact ih
  | case3 g rest hopens ih =>
    have hcopy : ∀ tail : Text,
        ¬ (g = .char '/' ∧ (rest ++ (Text.ofString " */" ++ tail)).head? = some (.char '*')) := by
      rintro tail ⟨rfl, hstar⟩
      refine hspace rest tail '*' (by decide) (fun hhead => ?_) hstar
      obtain ⟨rest', rfl⟩ := List.head?_eq_some_iff.1 hhead
      exact hopens rest' rfl rfl
    have hend := stripBlocksFrom_false_copy (hcopy [])
    rw [List.append_nil] at hend
    rw [List.cons_append, stripBlocksFrom_false_copy (hcopy content), ih, List.cons_append, hend,
      List.cons_append]
  | case4 rest ih => exact ih
  | case5 g rest hends ih =>
    have hstay : ∀ tail : Text,
        ¬ (g = .char '*' ∧ (rest ++ (Text.ofString " */" ++ tail)).head? = some (.char '/')) := by
      rintro tail ⟨rfl, hslash⟩
      refine hspace rest tail '/' (by decide) (fun hhead => ?_) hslash
      obtain ⟨rest', rfl⟩ := List.head?_eq_some_iff.1 hhead
      exact hends rest' rfl rfl
    have hend := hstay []
    rw [List.append_nil] at hend
    rw [List.cons_append, readsBlock_stripBlocksFrom.cons, if_neg (hstay content), ih,
      List.cons_append, readsBlock_stripBlocksFrom.cons, if_neg hend]

/-! ## Labels -/

/-- A label is inert for every content exactly when no folder of the path ends with a star, and
before a content that does not begin with a star itself it is inert in no other case: its comment
ends with the first such folder, and what the path goes on with is code. -/
theorem label_is_inert_iff (names : List String) (hnames : ∀ name ∈ names, IsPathName name) :
    ((∀ content, stripBlocks (Text.ofString (fileLabel (relativeText names)) ++ content) =
        stripBlocks content) ↔ ¬ HasStarredFolder names) ∧
    (∀ content : Text, content.head? ≠ some (.char '*') →
      (stripBlocks (Text.ofString (fileLabel (relativeText names)) ++ content) =
        stripBlocks content ↔ ¬ HasStarredFolder names)) ∧
    (HasStarredFolder names → ∃ front behind, Text.ofString (relativeText names) =
        front ++ (Text.ofString "*/" ++ behind) ∧ ¬ Text.ofString "*/" <:+: front ∧
      ∀ content, stripBlocks (Text.ofString (fileLabel (relativeText names)) ++ content) =
        stripBlocks (behind ++ (Text.ofString " */" ++ content))) := by
  have hinert : ¬ HasStarredFolder names → ∀ content,
      stripBlocks (Text.ofString (fileLabel (relativeText names)) ++ content) =
        stripBlocks content := by
    intro hstar content
    apply stripBlocks_label_of_not_infix
    rwa [blockEnd_infix_relativeText_iff fun name hname => (hnames name hname).no_slash]
  have hspills : HasStarredFolder names → ∀ content : Text, content.head? ≠ some (.char '*') →
      stripBlocks (Text.ofString (fileLabel (relativeText names)) ++ content) ≠
        stripBlocks content := by
    intro hstar content hcontent hsame
    obtain ⟨front, g, behind, hpath, hfront, hg⟩ := exists_first_blockEnd hnames hstar
    rw [stripBlocks_label_of_eq_append hpath hfront, stripBlocks,
      stripBlocksFrom_append_labelEnd hcontent, List.cons_append,
      stripBlocksFrom_false_copy fun hopens => hg hopens.1] at hsame
    -- the first glyph behind the marker is code that the content does not have
    have hlength := congrArg List.length hsame
    rw [List.length_append, List.length_cons] at hlength
    omega
  refine ⟨⟨fun h hstar => hspills hstar [] (by simp) (h []), hinert⟩, ?_, ?_⟩
  · intro content hcontent
    exact ⟨fun h hstar => hspills hstar content hcontent h, fun hstar => hinert hstar content⟩
  · intro hstar
    obtain ⟨front, g, behind, hpath, hfront, -⟩ := exists_first_blockEnd hnames hstar
    exact ⟨front, g :: behind, hpath, hfront, stripBlocks_label_of_eq_append hpath hfront⟩

/-- Stars leave a label inert as long as no folder's name ends with one. -/
theorem label_with_comment_characters_is_inert :
    (∀ name ∈ ["*a", "b*c", "*"], IsPathName name) ∧ ¬ HasStarredFolder ["*a", "b*c", "*"] ∧
      ∀ content, stripBlocks (Text.ofString (fileLabel (relativeText ["*a", "b*c", "*"])) ++
        content) = stripBlocks content :=
  have hnames : ∀ name ∈ ["*a", "b*c", "*"], IsPathName name := by decide
  have hstar : ¬ HasStarredFolder ["*a", "b*c", "*"] := by decide
  ⟨hnames, hstar, (label_is_inert_iff _ hnames).1.2 hstar⟩

/-- A directory `s` with a file in a folder whose name ends with a star. -/
def starred : Disk where
  entries := [(["s"], .directory), (["s", "a*"], .directory), (["s", "a*", "b.js"], .file [])]
  workingDirectory := []
  home := ⟨.root, ["home"]⟩

/-- The name of a file that a scan finds becomes code. -/
theorem label_of_starred_folder_spills :
    ((sourceFiles starred [] "s" Kind.suffixes []).run.value.map
        fun files => files.map SourceFile.relative) = .ok ["a*/b.js"] ∧
      stripBlocks (Text.ofString (fileLabel "a*/b.js") ++ Text.ofString "x") =
        Text.ofString "b.js */x" ∧
      stripBlocks (Text.ofString (fileLabel "a*/b.js") ++ Text.ofString "x") ≠
        stripBlocks (Text.ofString "x") := by
  decide +kernel

end Minifier
