import Minifier.Comment
import Minifier.Proofs.Text.Neighbours

/-!
# Comment markers

`//` and `/*` open comments. A slash that is kept has the same glyph behind it as before
(`isChain_stripSlashFrom`), so that deleting comments never joins two glyphs to a new marker, and
none is left (`markerFree_stripSlashComments`). A text without markers is kept as it is
(`stripSlashComments_of_markerFree`, `stripBlocks_of_not_infix`).

All readers go through a block comment in one way, up to the first marker that ends it
(`ReadsBlock.append`).
-/

set_option autoImplicit false

namespace Minifier

namespace Comment

/-- Two neighbours that open a slash or a block comment. -/
def Opens (a b : Glyph) : Prop :=
  a = .char '/' ∧ (b = .char '/' ∨ b = .char '*')

/-- A text in which no slash or block comment opens. -/
def MarkerFree (text : Text) : Prop :=
  text.IsChain fun a b => ¬ Opens a b

theorem not_opens_of_ne_slash {a : Glyph} (h : a ≠ .char '/') (b : Glyph) : ¬ Opens a b :=
  fun hab => h hab.1

theorem ofString_slashMarker : Text.ofString "//" = [.char '/', .char '/'] :=
  rfl

theorem ofString_blockMarker : Text.ofString "/*" = [.char '/', .char '*'] :=
  rfl

/-- A text is free of markers iff it contains neither of the two. -/
theorem markerFree_iff {text : Text} :
    MarkerFree text ↔
      ¬ Text.ofString "//" <:+: text ∧ ¬ Text.ofString "/*" <:+: text := by
  rw [ofString_slashMarker, ofString_blockMarker, Text.not_pair_infix_iff, Text.not_pair_infix_iff,
    ← Text.isChain_and_iff, MarkerFree]
  refine List.IsChain.iff fun a b => ?_
  rw [Opens, and_or_left, not_or]

theorem ofString_blockEnd : Text.ofString "*/" = [.char '*', .char '/'] :=
  rfl

/-! ## Readers of block comments -/

/-- `inside` reads a block comment glyph by glyph; behind the first marker that ends the comment
`outside` goes on. -/
structure ReadsBlock (inside outside : Text → Text) : Prop where
  nil : inside [] = []
  cons : ∀ g rest, inside (g :: rest) =
    if g = .char '*' ∧ rest.head? = some (.char '/') then outside rest.tail else inside rest

variable {inside outside : Text → Text}

/-- A block comment goes up to the first marker that ends it. -/
theorem ReadsBlock.append (h : ReadsBlock inside outside) {body : Text}
    (hbody : ¬ Text.ofString "*/" <:+: body) (rest : Text) :
    inside (body ++ .char '*' :: .char '/' :: rest) = outside rest := by
  rw [ofString_blockEnd, Text.not_pair_infix_iff] at hbody
  induction body with
  | nil => rw [List.nil_append, h.cons, if_pos ⟨rfl, rfl⟩, List.tail_cons]
  | cons g body ih =>
    rw [List.isChain_cons] at hbody
    have hend : ¬ (g = .char '*' ∧
        (body ++ .char '*' :: .char '/' :: rest).head? = some (.char '/')) := by
      rintro ⟨rfl, hslash⟩
      cases body with
      | nil => simp at hslash
      | cons c body => exact hbody.1 c rfl ⟨rfl, by simpa using hslash⟩
    rw [List.cons_append, h.cons, if_neg hend, ih hbody.2]

/-- A block comment that nothing ends goes up to the end of the text. -/
theorem ReadsBlock.of_not_infix (h : ReadsBlock inside outside) {body : Text}
    (hbody : ¬ Text.ofString "*/" <:+: body) : inside body = [] := by
  rw [ofString_blockEnd, Text.not_pair_infix_iff] at hbody
  induction body with
  | nil => exact h.nil
  | cons g body ih =>
    rw [List.isChain_cons] at hbody
    have hend : ¬ (g = .char '*' ∧ body.head? = some (.char '/')) :=
      fun hend => hbody.1 (.char '/') hend.2 ⟨hend.1, rfl⟩
    rw [h.cons, if_neg hend, ih hbody.2]

/-! ## Slash comments -/

/-- A glyph that opens no comment with the one behind it is kept. -/
theorem stripSlashFrom_code_of_not_opens {g : Glyph} {rest : Text}
    (h : ∀ b ∈ rest.head?, ¬ Opens g b) :
    stripSlashFrom .code (g :: rest) = g :: stripSlashFrom .code rest := by
  rw [stripSlashFrom]
  · rintro rest' rfl rfl
    exact h _ rfl ⟨rfl, Or.inl rfl⟩
  · rintro rest' rfl rfl
    exact h _ rfl ⟨rfl, Or.inr rfl⟩

theorem stripSlashFrom_code_of_ne_slash {g : Glyph} (h : g ≠ .char '/') (rest : Text) :
    stripSlashFrom .code (g :: rest) = g :: stripSlashFrom .code rest :=
  stripSlashFrom_code_of_not_opens fun b _ => not_opens_of_ne_slash h b

/-- What a condition on neighbours says of the glyphs behind slashes stays true when slash comments
are deleted, and no marker is left. -/
theorem isChain_stripSlashFrom {R : Glyph → Glyph → Prop}
    (hR : ∀ a b, a ≠ .char '/' → R a b) (mode : Mode) (text : Text) (h : text.IsChain R) :
    (stripSlashFrom mode text).IsChain fun a b => R a b ∧ ¬ Opens a b := by
  fun_induction stripSlashFrom mode text with
  | case1 => exact List.IsChain.nil
  | case2 rest ih => exact ih h.tail.tail
  | case3 rest ih => exact ih h.tail.tail
  | case4 g rest hslash hblock ih =>
    rw [List.isChain_cons] at h ⊢
    refine ⟨?_, ih h.2⟩
    intro b hb
    by_cases hg : g = .char '/'
    · -- behind a slash that stays, the next glyph opens nothing and stays too
      cases rest with
      | nil => simp [stripSlashFrom] at hb
      | cons c rest =>
        have hc : c ≠ .char '/' := fun hc => hslash rest hg (by rw [hc])
        have hc' : c ≠ .char '*' := fun hc => hblock rest hg (by rw [hc])
        rw [stripSlashFrom_code_of_ne_slash hc, List.head?_cons, Option.mem_some_iff] at hb
        subst hb
        exact ⟨h.1 c rfl, fun hopens => hopens.2.elim hc hc'⟩
    · exact ⟨hR g b hg, not_opens_of_ne_slash hg b⟩
  | case5 rest ih =>
    rw [List.isChain_cons]
    refine ⟨fun b _ => ?_, ih h.tail⟩
    exact ⟨hR _ b (by decide), not_opens_of_ne_slash (by decide) b⟩
  | case6 g rest hg ih => exact ih h.tail
  | case7 rest ih => exact ih h.tail.tail
  | case8 g rest hend ih => exact ih h.tail

/-- Deleting slash comments keeps what a condition says of the glyphs behind slashes. -/
theorem isChain_stripSlashComments {R : Glyph → Glyph → Prop}
    (hR : ∀ a b, a ≠ .char '/' → R a b) {text : Text} (h : text.IsChain R) :
    (stripSlashComments text).IsChain R :=
  (isChain_stripSlashFrom hR .code text h).imp fun _ _ hab => hab.1

/-- No marker is left when slash comments are deleted. -/
theorem markerFree_stripSlashComments (text : Text) : MarkerFree (stripSlashComments text) := by
  have h := isChain_stripSlashFrom (R := fun _ _ => True) (fun _ _ _ => trivial) .code text
    ((List.isChain_isInfix text).imp fun _ _ _ => trivial)
  exact h.imp fun _ _ hab => hab.2

theorem stripSlashFrom_sublist (mode : Mode) (text : Text) :
    (stripSlashFrom mode text).Sublist text := by
  fun_induction stripSlashFrom mode text with
  | case1 => exact List.Sublist.refl _
  | case2 rest ih => exact (ih.cons _).cons _
  | case3 rest ih => exact (ih.cons _).cons _
  | case4 g rest _ _ ih => exact ih.cons_cons g
  | case5 rest ih => exact ih.cons_cons _
  | case6 g rest hg ih => exact ih.cons g
  | case7 rest ih => exact (ih.cons _).cons _
  | case8 g rest _ ih => exact ih.cons g

theorem readsBlock_stripSlashFrom : ReadsBlock (stripSlashFrom .block) (stripSlashFrom .code) := by
  refine ⟨rfl, fun g rest => ?_⟩
  by_cases hend : g = .char '*' ∧ rest.head? = some (.char '/')
  · obtain ⟨rfl, hslash⟩ := hend
    obtain ⟨rest, rfl⟩ := List.head?_eq_some_iff.1 hslash
    rfl
  · rw [stripSlashFrom, if_neg hend]
    rintro rest' rfl rfl
    exact hend ⟨rfl, rfl⟩

/-- A text without markers has no slash comments to delete. -/
theorem stripSlashComments_of_markerFree {text : Text} (h : MarkerFree text) :
    stripSlashComments text = text := by
  rw [stripSlashComments]
  induction text with
  | nil => rfl
  | cons g rest ih =>
    rw [MarkerFree, List.isChain_cons] at h
    rw [stripSlashFrom_code_of_not_opens h.1, ih h.2]

/-! ## Block comments -/

theorem readsBlock_stripBlocksFrom : ReadsBlock (stripBlocksFrom true) (stripBlocksFrom false) := by
  refine ⟨rfl, fun g rest => ?_⟩
  by_cases hend : g = .char '*' ∧ rest.head? = some (.char '/')
  · obtain ⟨rfl, hslash⟩ := hend
    obtain ⟨rest, rfl⟩ := List.head?_eq_some_iff.1 hslash
    rfl
  · rw [stripBlocksFrom, if_neg hend]
    rintro rest' rfl rfl
    exact hend ⟨rfl, rfl⟩

/-- A glyph that opens no block comment with the one behind it is kept. -/
theorem stripBlocksFrom_false_copy {g : Glyph} {rest : Text}
    (h : ¬ (g = .char '/' ∧ rest.head? = some (.char '*'))) :
    stripBlocksFrom false (g :: rest) = g :: stripBlocksFrom false rest := by
  rw [stripBlocksFrom]
  rintro rest' rfl rfl
  exact h ⟨rfl, rfl⟩

/-- A text without the marker `/*` has no block comments to delete. -/
theorem stripBlocks_of_not_infix {text : Text} (h : ¬ Text.ofString "/*" <:+: text) :
    stripBlocks text = text := by
  rw [ofString_blockMarker, Text.not_pair_infix_iff] at h
  rw [stripBlocks]
  induction text with
  | nil => rfl
  | cons g rest ih =>
    rw [List.isChain_cons] at h
    have hcopy : ¬ (g = .char '/' ∧ rest.head? = some (.char '*')) :=
      fun hopens => h.1 _ hopens.2 ⟨hopens.1, rfl⟩
    rw [stripBlocksFrom_false_copy hcopy, ih h.2]

theorem stripBlocksFrom_sublist (inside : Bool) (text : Text) :
    (stripBlocksFrom inside text).Sublist text := by
  fun_induction stripBlocksFrom inside text with
  | case1 => exact List.Sublist.refl _
  | case2 rest ih => exact (ih.cons _).cons _
  | case3 g rest _ ih => exact ih.cons_cons g
  | case4 rest ih => exact (ih.cons _).cons _
  | case5 g rest _ ih => exact ih.cons g

theorem length_stripBlocksFrom_le (inside : Bool) (text : Text) :
    (stripBlocksFrom inside text).length ≤ text.length :=
  (stripBlocksFrom_sublist inside text).length_le

/-- A text is kept iff no block comment opens in it. -/
theorem stripBlocks_eq_self_iff (text : Text) :
    stripBlocks text = text ↔ ¬ Text.ofString "/*" <:+: text := by
  refine ⟨?_, stripBlocks_of_not_infix⟩
  rw [ofString_blockMarker, Text.not_pair_infix_iff, stripBlocks]
  induction text with
  | nil => exact fun _ => List.IsChain.nil
  | cons g rest ih =>
    intro hkept
    by_cases hopens : g = .char '/' ∧ rest.head? = some (.char '*')
    · -- the marker is gone, so the text is shorter
      obtain ⟨rfl, hstar⟩ := hopens
      obtain ⟨rest, rfl⟩ := List.head?_eq_some_iff.1 hstar
      have hle := length_stripBlocksFrom_le true rest
      have hlength : (stripBlocksFrom true rest).length = rest.length + 2 :=
        congrArg List.length hkept
      omega
    · rw [stripBlocksFrom_false_copy hopens, List.cons.injEq] at hkept
      rw [List.isChain_cons]
      refine ⟨?_, ih hkept.2⟩
      rintro b hb ⟨rfl, rfl⟩
      exact hopens ⟨rfl, hb⟩

end Comment

end Minifier
