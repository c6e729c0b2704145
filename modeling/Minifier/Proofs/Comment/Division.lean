import Minifier.Proofs.Comment.Patterns

/-!
# Texts divided into code and comments

A text with slash and block comments is a row of pieces, code and comments by turns: `Division`
names them all, the comments as well as the code between them, and `Division.Divides` says what each
of them has to look like. Every text has exactly one division (`Division.Divides.unique`,
`exists_divides`), and deleting its comments is leaving out every other piece of it
(`stripSlashComments_of_divides`).

Where code ends is decided by the first marker alone (`code_unique`). A slash at the end of a piece
would make a marker with the comment behind it, one glyph earlier, so code before a comment never
ends with a slash.
-/

set_option autoImplicit false

namespace Minifier

namespace Comment

/-- A comment, in front of the text behind it. A line comment goes up to the next line feed or the
end of the text; a block comment goes up to the first marker that ends it, and that one begins
behind the two glyphs that open the comment; without such a marker it goes up to the end of the
text. -/
inductive IsComment : Text → Text → Prop
  | line {body behind : Text} :
      .char '\n' ∉ body → (∀ g ∈ behind.head?, g = .char '\n') →
        IsComment (Text.ofString "//" ++ body) behind
  | block {body : Text} (behind : Text) :
      ¬ Text.ofString "*/" <:+: body →
        IsComment (Text.ofString "/*" ++ body ++ Text.ofString "*/") behind
  | openBlock {body : Text} :
      ¬ Text.ofString "*/" <:+: body → IsComment (Text.ofString "/*" ++ body) []

/-- The pieces of a text: its first piece of code, and every comment with the code behind it. -/
structure Division where
  first : Text
  others : List (Text × Text)

namespace Division

/-- The text of pieces that begin with a comment. -/
def joined (others : List (Text × Text)) : Text :=
  (others.map fun (comment, code) => comment ++ code).flatten

/-- The text that the pieces make together. -/
def text (division : Division) : Text :=
  division.first ++ joined division.others

/-- The pieces of code. -/
def codes (division : Division) : List Text :=
  division.first :: division.others.map Prod.snd

/-- The text without its comments. -/
def code (division : Division) : Text :=
  division.codes.flatten

/-- Whether the pieces are those of a text: every comment is one in front of what follows it, no
marker opens in a piece of code, and none ends with a slash but the last one. -/
structure Divides (division : Division) (text : Text) : Prop where
  text_eq : division.text = text
  isComment : ∀ front comment code back,
    division.others = front ++ (comment, code) :: back → IsComment comment (code ++ joined back)
  noMarker : ∀ code ∈ division.codes,
    ¬ Text.ofString "//" <:+: code ∧ ¬ Text.ofString "/*" <:+: code
  noSlash : ∀ code ∈ division.codes.dropLast, code.getLast? ≠ some (.char '/')

theorem joined_cons (comment code : Text) (others : List (Text × Text)) :
    joined ((comment, code) :: others) = comment ++ (code ++ joined others) := by
  simp [joined]

theorem code_mk (first : Text) (others : List (Text × Text)) :
    code ⟨first, others⟩ = first ++ (others.map Prod.snd).flatten :=
  rfl

end Division

open Division

variable {text code code' comment comment' behind behind' rest rest' : Text} {a b : Glyph}
  {others : List (Text × Text)}

/-! ## Comments -/

/-- A comment opens with a marker. -/
theorem IsComment.exists_opens (h : IsComment comment behind) :
    ∃ a b inside, comment = a :: b :: inside ∧ Opens a b := by
  cases h with
  | line => exact ⟨_, _, _, rfl, rfl, Or.inl rfl⟩
  | block => exact ⟨_, _, _, rfl, rfl, Or.inr rfl⟩
  | openBlock => exact ⟨_, _, _, rfl, rfl, Or.inr rfl⟩

/-- How far a comment goes is no choice. -/
theorem IsComment.unique (h : IsComment comment behind) (h' : IsComment comment' behind')
    (htext : comment ++ behind = comment' ++ behind') : comment = comment' ∧ behind = behind' := by
  cases h with
  | @line body _ hbody hbehind =>
    cases h' with
    | @line body' _ hbody' hbehind' =>
      rw [List.append_assoc, List.append_assoc, List.append_right_inj] at htext
      obtain ⟨rfl, rfl⟩ := line_unique htext hbody hbehind hbody' hbehind'
      exact ⟨rfl, rfl⟩
    | block => cases htext
    | openBlock => cases htext
  | @block body _ hbody =>
    cases h' with
    | line => cases htext
    | @block body' _ hbody' =>
      simp only [List.append_assoc, List.append_right_inj] at htext
      obtain ⟨rfl, rfl⟩ := block_unique htext hbody hbody'
      exact ⟨rfl, rfl⟩
    | openBlock hnone =>
      simp only [List.append_assoc, List.append_nil, List.append_right_inj] at htext
      exact absurd ⟨body, behind, by simpa using htext⟩ hnone
  | @openBlock body hnone =>
    cases h' with
    | line => cases htext
    | @block body' _ hbody' =>
      simp only [List.append_assoc, List.append_nil, List.append_right_inj] at htext
      exact absurd ⟨body', behind', by simpa using htext.symm⟩ hnone
    | openBlock =>
      rw [List.append_nil, List.append_nil] at htext
      exact ⟨htext, rfl⟩

/-- Where a marker opens, a comment begins. -/
theorem exists_isComment (hopens : Opens a b) (rest : Text) :
    ∃ comment behind, a :: b :: rest = comment ++ behind ∧ IsComment comment behind := by
  obtain ⟨rfl, rfl | rfl⟩ := hopens
  · refine ⟨Text.ofString "//" ++ rest.takeWhile inLine, rest.dropWhile inLine, ?_, ?_⟩
    · rw [List.append_assoc, List.takeWhile_append_dropWhile]
      rfl
    · exact .line (not_mem_takeWhile_inLine rest) (head_dropWhile_inLine rest)
  · cases hend : splitAt? (Text.ofString "*/") rest with
    | none =>
      refine ⟨Text.ofString "/*" ++ rest, [], ?_, .openBlock (splitAt?_eq_none_iff.1 hend)⟩
      rw [List.append_nil]
      rfl
    | some parts =>
      obtain ⟨body, behind⟩ := parts
      obtain ⟨rfl, hbody⟩ := (splitAt?_eq_some_iff startsOnce_blockEnd).1 hend
      exact ⟨Text.ofString "/*" ++ body ++ Text.ofString "*/", behind, by simp [Text.ofString],
        .block behind hbody⟩

/-- Deleting comments leaves out a comment and goes on behind it. -/
theorem IsComment.stripSlashFrom_append (h : IsComment comment behind) :
    stripSlashFrom .code (comment ++ behind) = stripSlashFrom .code behind := by
  cases h with
  | line hbody hbehind => exact stripSlashFrom_line_append hbody hbehind
  | @block body _ hbody =>
    have hblock := readsBlock_stripSlashFrom.append hbody behind
    rw [List.append_assoc, List.append_assoc]
    exact hblock
  | @openBlock body hbody =>
    rw [List.append_nil]
    exact readsBlock_stripSlashFrom.of_not_infix hbody

/-! ## Code -/

/-- Code that a comment may follow: no marker opens in it, and none could open with its last
glyph. -/
structure EndsCode (code : Text) : Prop where
  markerFree : MarkerFree code
  noSlash : code.getLast? ≠ some (.char '/')

theorem endsCode_nil : EndsCode [] :=
  ⟨List.IsChain.nil, by simp⟩

/-- Code with one more glyph in front may be followed by a comment iff the code may and the glyph
opens no comment, neither with the code nor with what follows it. -/
theorem endsCode_cons_iff :
    EndsCode (a :: code) ↔
      EndsCode code ∧ (∀ b ∈ code.head?, ¬ Opens a b) ∧ (code = [] → a ≠ .char '/') := by
  cases code with
  | nil =>
    refine ⟨fun h => ⟨endsCode_nil, by simp, fun _ ha => h.noSlash (by rw [ha]; rfl)⟩, ?_⟩
    rintro ⟨-, -, ha⟩
    exact ⟨List.isChain_singleton a, by simpa using ha⟩
  | cons c code =>
    constructor
    · rintro ⟨hfree, hslash⟩
      obtain ⟨hopens, hrest⟩ := List.isChain_cons.1 hfree
      exact ⟨⟨hrest, by simpa using hslash⟩, hopens, by simp⟩
    · rintro ⟨⟨hfree, hslash⟩, hopens, -⟩
      exact ⟨List.isChain_cons.2 ⟨hopens, hfree⟩, by simpa using hslash⟩

/-- No code comes before a marker that the text begins with. -/
theorem EndsCode.eq_nil (hcode : EndsCode code) (hopens : Opens a b)
    (h : a :: b :: rest = code ++ rest') : code = [] := by
  cases code with
  | nil => rfl
  | cons c code =>
    -- the marker would open in the code, or with its last glyph
    obtain ⟨-, hnone, hlast⟩ := endsCode_cons_iff.1 hcode
    rw [List.cons_append, List.cons.injEq] at h
    obtain ⟨rfl, h⟩ := h
    cases code with
    | nil => exact absurd hopens.1 (hlast rfl)
    | cons d code =>
      rw [List.cons_append, List.cons.injEq] at h
      obtain ⟨rfl, -⟩ := h
      exact absurd hopens (hnone b rfl)

/-- Code ends at the first marker. -/
theorem code_unique (hcode : EndsCode code) (hcode' : EndsCode code') (hopens : Opens a b)
    {a' b' : Glyph} (hopens' : Opens a' b')
    (h : code ++ a :: b :: rest = code' ++ a' :: b' :: rest') : code = code' := by
  induction code generalizing code' with
  | nil => exact (hcode'.eq_nil hopens h).symm
  | cons c code ih =>
    cases code' with
    | nil => exact hcode.eq_nil hopens' h.symm
    | cons d code' =>
      rw [List.cons_append, List.cons_append, List.cons.injEq] at h
      obtain ⟨rfl, h⟩ := h
      rw [ih (endsCode_cons_iff.1 hcode).1 (endsCode_cons_iff.1 hcode').1 h]

/-- A text has no marker, or code up to its first one. -/
theorem markerFree_or_exists (text : Text) :
    MarkerFree text ∨
      ∃ code a b rest, text = code ++ a :: b :: rest ∧ EndsCode code ∧ Opens a b := by
  induction text with
  | nil => exact Or.inl List.IsChain.nil
  | cons g text ih =>
    by_cases hopens : ∃ b ∈ text.head?, Opens g b
    · obtain ⟨b, hb, hopens⟩ := hopens
      obtain ⟨rest, rfl⟩ := List.head?_eq_some_iff.1 hb
      exact Or.inr ⟨[], g, b, rest, rfl, endsCode_nil, hopens⟩
    · have hnone : ∀ b ∈ text.head?, ¬ Opens g b := fun b hb hb' => hopens ⟨b, hb, hb'⟩
      rcases ih with hfree | ⟨code, a, b, rest, rfl, hcode, hmarker⟩
      · exact Or.inl (List.isChain_cons.2 ⟨hnone, hfree⟩)
      · refine Or.inr ⟨g :: code, a, b, rest, rfl, endsCode_cons_iff.2 ⟨hcode, ?_, ?_⟩, hmarker⟩
        · intro c hc
          obtain ⟨code, rfl⟩ := List.head?_eq_some_iff.1 hc
          exact hnone c rfl
        · rintro rfl rfl
          exact hnone a rfl ⟨rfl, Or.inl hmarker.1⟩

/-- Deleting comments keeps the code in front of a comment. -/
theorem EndsCode.stripSlashFrom_append (h : EndsCode code) (rest : Text) :
    stripSlashFrom .code (code ++ rest) = code ++ stripSlashFrom .code rest := by
  induction code with
  | nil => rfl
  | cons g code ih =>
    obtain ⟨hcode, hnone, hlast⟩ := endsCode_cons_iff.1 h
    rw [List.cons_append, stripSlashFrom_code_of_not_opens, ih hcode]
    · rfl
    · intro b hb
      cases code with
      | nil => exact not_opens_of_ne_slash (hlast rfl) b
      | cons c code => exact hnone b hb

/-! ## Divisions piece by piece -/

theorem divides_nil_iff : (Division.mk code []).Divides text ↔ code = text ∧ MarkerFree code := by
  constructor
  · intro h
    refine ⟨?_, markerFree_iff.2 (h.noMarker code List.mem_cons_self)⟩
    rw [← h.text_eq]
    exact (List.append_nil code).symm
  · rintro ⟨rfl, hfree⟩
    refine ⟨List.append_nil code, by simp, ?_, by simp [codes]⟩
    intro piece hpiece
    obtain rfl : piece = code := by simpa [codes] using hpiece
    exact markerFree_iff.1 hfree

theorem divides_cons_iff :
    (Division.mk code ((comment, behind) :: others)).Divides text ↔
      EndsCode code ∧ IsComment comment (behind ++ joined others) ∧
        ∃ rest, text = code ++ comment ++ rest ∧ (Division.mk behind others).Divides rest := by
  have hcodes : codes ⟨code, (comment, behind) :: others⟩ = code :: codes ⟨behind, others⟩ := rfl
  have hdrop : (code :: codes ⟨behind, others⟩).dropLast =
      code :: (codes ⟨behind, others⟩).dropLast := rfl
  constructor
  · intro h
    have hmarker := h.noMarker
    have hslash := h.noSlash
    rw [hcodes, List.forall_mem_cons] at hmarker
    rw [hcodes, hdrop, List.forall_mem_cons] at hslash
    refine ⟨⟨markerFree_iff.2 hmarker.1, hslash.1⟩, h.isComment [] comment behind others rfl,
      behind ++ joined others, ?_, rfl, ?_, hmarker.2, hslash.2⟩
    · rw [← h.text_eq, Division.text, joined_cons, List.append_assoc]
    · intro front comment' code' back hothers
      exact h.isComment ((comment, behind) :: front) comment' code' back (congrArg _ hothers)
  · rintro ⟨hcode, hcomment, rest, rfl, h⟩
    refine ⟨?_, ?_, ?_, ?_⟩
    · rw [← h.text_eq, Division.text, joined_cons, List.append_assoc]
      rfl
    · -- the comment in question is the first one, or it is one of the rest
      intro front comment' code' back hothers
      cases front with
      | nil =>
        obtain ⟨hpiece, rfl⟩ := List.cons.inj hothers
        obtain ⟨rfl, rfl⟩ := Prod.mk.inj hpiece
        exact hcomment
      | cons piece front =>
        obtain ⟨-, hothers⟩ := List.cons.inj hothers
        exact h.isComment front comment' code' back hothers
    · rw [hcodes, List.forall_mem_cons]
      exact ⟨markerFree_iff.1 hcode.markerFree, h.noMarker⟩
    · rw [hcodes, hdrop, List.forall_mem_cons]
      exact ⟨hcode.noSlash, h.noSlash⟩

/-- In a text with a comment a marker opens. -/
theorem not_markerFree_of_isComment (h : IsComment comment behind) (code rest : Text) :
    ¬ MarkerFree (code ++ comment ++ rest) := by
  obtain ⟨a, b, inside, rfl, hopens⟩ := h.exists_opens
  intro hfree
  rw [MarkerFree, List.append_assoc, List.cons_append, List.cons_append,
    List.isChain_append_cons_cons] at hfree
  exact hfree.2.1 hopens

/-- A text is divided in one way only. -/
theorem Division.Divides.unique {division division' : Division} (h : division.Divides text)
    (h' : division'.Divides text) : division = division' := by
  obtain ⟨code, others⟩ := division
  obtain ⟨code', others'⟩ := division'
  induction others generalizing code text code' others' with
  | nil =>
    obtain ⟨rfl, hfree⟩ := divides_nil_iff.1 h
    cases others' with
    | nil =>
      obtain ⟨rfl, -⟩ := divides_nil_iff.1 h'
      rfl
    | cons piece others' =>
      obtain ⟨-, hcomment, rest, rfl, -⟩ := divides_cons_iff.1 h'
      exact absurd hfree (not_markerFree_of_isComment hcomment code' rest)
  | cons piece others ih =>
    obtain ⟨comment, behind⟩ := piece
    obtain ⟨hcode, hcomment, rest, rfl, hrest⟩ := divides_cons_iff.1 h
    cases others' with
    | nil =>
      obtain ⟨rfl, hfree⟩ := divides_nil_iff.1 h'
      exact absurd hfree (not_markerFree_of_isComment hcomment code rest)
    | cons piece' others' =>
      obtain ⟨comment', behind'⟩ := piece'
      obtain ⟨hcode', hcomment', rest', htext, hrest'⟩ := divides_cons_iff.1 h'
      -- the codes end at the same marker, so the comments behind them begin at one place
      have hsame : code = code' := by
        obtain ⟨a, b, inside, rfl, hopens⟩ := hcomment.exists_opens
        obtain ⟨a', b', inside', rfl, hopens'⟩ := hcomment'.exists_opens
        simp only [List.append_assoc, List.cons_append] at htext
        exact code_unique hcode hcode' hopens hopens' htext
      subst hsame
      rw [List.append_assoc, List.append_assoc, List.append_right_inj] at htext
      rw [show behind ++ joined others = rest from hrest.text_eq] at hcomment
      rw [show behind' ++ joined others' = rest' from hrest'.text_eq] at hcomment'
      obtain ⟨rfl, rfl⟩ := hcomment.unique hcomment' htext
      obtain ⟨rfl, rfl⟩ := Division.mk.inj (ih behind hrest behind' others' hrest')
      rfl

/-- Every text can be divided. -/
theorem exists_divides (text : Text) : ∃ division : Division, division.Divides text := by
  induction hlength : text.length using Nat.strong_induction_on generalizing text with
  | _ n ih =>
    rcases markerFree_or_exists text with hfree | ⟨code, a, b, inside, rfl, hcode, hopens⟩
    · exact ⟨⟨text, []⟩, divides_nil_iff.2 ⟨rfl, hfree⟩⟩
    · obtain ⟨comment, rest, htext, hcomment⟩ := exists_isComment hopens inside
      have hshorter : rest.length < n := by
        obtain ⟨c, d, body, rfl, -⟩ := hcomment.exists_opens
        rw [← hlength, htext]
        simp only [List.length_append, List.length_cons]
        omega
      obtain ⟨⟨behind, others⟩, hrest⟩ := ih _ hshorter rest rfl
      refine ⟨⟨code, (comment, behind) :: others⟩,
        divides_cons_iff.2 ⟨hcode, ?_, rest, ?_, hrest⟩⟩
      · rw [show behind ++ joined others = rest from hrest.text_eq]
        exact hcomment
      · rw [htext, List.append_assoc]

/-- Deleting comments leaves the code of a division. -/
theorem stripSlashComments_of_divides {division : Division} (h : division.Divides text) :
    stripSlashComments text = division.code := by
  obtain ⟨code, others⟩ := division
  rw [stripSlashComments]
  induction others generalizing code text with
  | nil =>
    obtain ⟨rfl, hfree⟩ := divides_nil_iff.1 h
    rw [code_mk, List.map_nil, List.flatten_nil, List.append_nil]
    exact stripSlashComments_of_markerFree hfree
  | cons piece others ih =>
    obtain ⟨comment, behind⟩ := piece
    obtain ⟨hcode, hcomment, rest, rfl, hrest⟩ := divides_cons_iff.1 h
    rw [show behind ++ joined others = rest from hrest.text_eq] at hcomment
    rw [List.append_assoc, hcode.stripSlashFrom_append, hcomment.stripSlashFrom_append,
      ih behind hrest, code_mk, code_mk, List.map_cons, List.flatten_cons]

/-! ## The division of a text -/

/-- Every text is divided into code and comments in exactly one way. Deleting its comments, by their
reader or by their pattern, leaves the code; no marker opens in that, so deleting comments again
changes nothing. -/
theorem comments_divide_text :
    ∃ pattern, Pattern.compile slashPattern = .ok pattern ∧ ∀ text,
      (∃ division : Division,
        (∀ other : Division, other.Divides text ↔ other = division) ∧
          stripSlashComments text = division.code) ∧
        pattern.deleteAll text = stripSlashComments text ∧
        (¬ Text.ofString "//" <:+: stripSlashComments text ∧
          ¬ Text.ofString "/*" <:+: stripSlashComments text) ∧
        stripSlashComments (stripSlashComments text) = stripSlashComments text := by
  obtain ⟨pattern, hcompile, hdelete⟩ := slashPattern_deletes
  refine ⟨pattern, hcompile, ?_⟩
  intro text
  have hfree := markerFree_stripSlashComments text
  refine ⟨?_, hdelete text, markerFree_iff.1 hfree, stripSlashComments_of_markerFree hfree⟩
  obtain ⟨division, hdivides⟩ := exists_divides text
  refine ⟨division, ?_, stripSlashComments_of_divides hdivides⟩
  intro other
  constructor
  · intro hother
    exact hother.unique hdivides
  · rintro rfl
    exact hdivides

/-- A marker inside a comment of the other kind opens nothing, and the slash behind two others
belongs to their comment. -/
example : stripSlashComments (.ofString "a/*/ // */b///* c\nd/*/") = .ofString "ab\nd" := by
  decide +kernel

end Comment

end Minifier
