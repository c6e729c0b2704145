import Minifier.Proofs.Text.Occurrence
import Minifier.Proofs.Text.Respacing
import Minifier.Text.Word

/-!
# Glyphs in disguise

Rules look at a glyph in three ways: whether it is blank, whether it is a word character, and which
character of ASCII it is, if any. A replacement of glyphs that leaves all three answers as they are
is a `Disguise`: no rule can tell the new glyph from the old one. What rules look for in a text is
then found in the disguised text at the same places (`splitAt?_map`), and gaps are filled there with
the same blanks (`Text.respace_map`).
-/

set_option autoImplicit false

namespace Minifier

universe u

/-! ## Elements that a map pins down -/

section Pins

variable {α : Type u} {f : α → α} {word list : List α} {a : α}

/-- A map takes the elements of a word to themselves, and no other elements to them. -/
def Pins (f : α → α) (word : List α) : Prop :=
  ∀ a ∈ word, ∀ b, f b = a ↔ b = a

theorem pins_cons : Pins f (a :: word) ↔ (∀ b, f b = a ↔ b = a) ∧ Pins f word :=
  List.forall_mem_cons

theorem Pins.map_eq (h : Pins f word) : word.map f = word := by
  have hfixed : ∀ a ∈ word, f a = id a := fun a ha => (h a ha a).2 rfl
  rw [List.map_congr_left hfixed, List.map_id]

theorem Pins.map_eq_iff (h : Pins f word) : list.map f = word ↔ list = word := by
  induction word generalizing list with
  | nil => exact List.map_eq_nil_iff
  | cons a word ih =>
    obtain ⟨ha, hword⟩ := pins_cons.1 h
    cases list with
    | nil => simp
    | cons b list => rw [List.map_cons, List.cons.injEq, List.cons.injEq, ha, ih hword]

theorem Pins.mem_map_iff (h : Pins f [a]) : a ∈ list.map f ↔ a ∈ list := by
  simp only [List.mem_map, h a List.mem_cons_self, exists_eq_right]

theorem Pins.head?_map_eq_some_iff (h : Pins f [a]) :
    (list.map f).head? = some a ↔ list.head? = some a := by
  cases list with
  | nil => simp
  | cons b list => simp [h a List.mem_cons_self]

theorem Pins.prefix_map_iff (h : Pins f word) : word <+: list.map f ↔ word <+: list := by
  rw [List.prefix_iff_eq_take, List.prefix_iff_eq_take, ← List.map_take, eq_comm, h.map_eq_iff,
    eq_comm]

theorem Pins.infix_map_iff (h : Pins f word) : word <:+: list.map f ↔ word <:+: list := by
  induction list with
  | nil => rfl
  | cons b list ih =>
    rw [List.map_cons, List.infix_cons_iff, List.infix_cons_iff, ih, ← List.map_cons,
      h.prefix_map_iff]

variable [DecidableEq α]

theorem dropStart?_map (h : Pins f word) :
    dropStart? word (list.map f) = (dropStart? word list).map (List.map f) := by
  fun_induction dropStart? word list with
  | case1 => rfl
  | case2 => rfl
  | case3 word a list ih =>
    obtain ⟨ha, hword⟩ := pins_cons.1 h
    rw [List.map_cons, dropStart?, if_pos ((ha a).2 rfl).symm, ih hword]
  | case4 a word b list hne =>
    obtain ⟨ha, -⟩ := pins_cons.1 h
    rw [List.map_cons, dropStart?, if_neg fun hsame => hne ((ha b).1 hsame.symm).symm]
    rfl

/-- The first occurrence of a word that is pinned down is found at the same place. -/
theorem splitAt?_map (h : Pins f word) :
    splitAt? word (list.map f) =
      (splitAt? word list).map fun parts => (parts.1.map f, parts.2.map f) := by
  induction list with
  | nil =>
    rw [List.map_nil, splitAt?]
    split_ifs <;> rfl
  | cons b list ih =>
    rw [splitAt?, List.map_cons, splitAt?, ← List.map_cons, dropStart?_map h, ih]
    cases dropStart? word (b :: list) with
    | some after => rfl
    | none => cases splitAt? word list <;> rfl

end Pins

/-! ## Disguises -/

/-- A replacement of glyphs that no rule can tell. -/
structure Disguise (f : Glyph → Glyph) : Prop where
  isBlank : ∀ g, (f g).isBlank = g.isBlank
  isWord : ∀ g, (f g).isWord = g.isWord
  eq_char_iff : ∀ (g : Glyph) (c : Char), c.toNat < 128 → (f g = .char c ↔ g = .char c)

variable {f : Glyph → Glyph}

/-- A tag is written in ASCII. -/
def IsAscii (tag : String) : Prop :=
  ∀ c ∈ tag.toList, c.toNat < 128

-- There are finitely many characters, but it is those of the tag that are to be gone through.
instance (tag : String) : Decidable (IsAscii tag) :=
  List.decidableBAll (fun c : Char => c.toNat < 128) tag.toList

/-- A disguise pins down what is written in ASCII. -/
theorem Disguise.pins (hf : Disguise f) {tag : String} (htag : IsAscii tag) :
    Pins f (Text.ofString tag) := by
  intro g hg b
  obtain ⟨c, hc, rfl⟩ := List.mem_map.1 hg
  exact hf.eq_char_iff b c (htag c hc)

theorem Disguise.char_eq (hf : Disguise f) {c : Char} (hc : c.toNat < 128) :
    f (.char c) = .char c :=
  (hf.eq_char_iff (.char c) c hc).2 rfl

theorem Disguise.pins_char (hf : Disguise f) {c : Char} (hc : c.toNat < 128) :
    Pins f [.char c] :=
  List.forall_mem_singleton.2 fun g => hf.eq_char_iff g c hc

theorem Disguise.oneOf (hf : Disguise f) {marks : String} (hmarks : IsAscii marks) (g : Glyph) :
    Text.oneOf marks (f g) = Text.oneOf marks g := by
  have hpins := hf.pins hmarks
  rw [Bool.eq_iff_iff, Text.oneOf, Text.oneOf, List.contains_iff_mem, List.contains_iff_mem]
  constructor
  · intro hmem
    rwa [(hpins _ hmem g).1 rfl]
  · intro hmem
    rwa [(hpins g hmem g).2 rfl]

/-! ## Gaps -/

/-- A gap among disguised glyphs. -/
def Gap.map (f : Glyph → Glyph) (gap : Gap) : Gap :=
  ⟨gap.before.map f, gap.run.map f, gap.after.map f⟩

namespace Text

/-- A rule fills disguised gaps with disguised blanks. -/
def Overlooks (f : Glyph → Glyph) (rule : Gap → Text) : Prop :=
  ∀ gap : Gap, rule (gap.map f) = (rule gap).map f

theorem isRun_map (hf : Disguise f) {run : Text} (hrun : IsRun run) : IsRun (run.map f) := by
  intro g hg
  obtain ⟨b, hb, rfl⟩ := List.mem_map.1 hg
  rw [hf.isBlank]
  exact hrun b hb

theorem fill_map {rule : Gap → Text} (hrule : Overlooks f rule) (before run after : Text) :
    fill rule (before.map f) (run.map f) (after.map f) = (fill rule before run after).map f := by
  cases run with
  | nil => rfl
  | cons g run => exact hrule ⟨before, g :: run, after⟩

theorem respaceFrom_map (hf : Disguise f) {rule : Gap → Text} (hrule : Overlooks f rule)
    (before text : Text) :
    respaceFrom rule (before.map f) [] (text.map f) = (respaceFrom rule before [] text).map f := by
  induction text using gap_induction generalizing before with
  | run run hrun =>
    have hfill := fill_map hrule before run []
    rwa [respaceFrom_run rule _ (isRun_map hf hrun), respaceFrom_run rule _ hrun]
  | glyph run g rest hrun hg ih =>
    have hfill := fill_map hrule before run (g :: rest)
    have hrest := ih (g :: (run.reverse ++ before))
    have hg' : (f g).isBlank = false := (hf.isBlank g).trans hg
    rw [List.map_append, List.map_cons, respaceFrom_ink rule _ (isRun_map hf hrun) hg',
      respaceFrom_ink rule _ hrun hg, List.map_append, List.map_cons, ← hfill, ← hrest,
      List.map_cons, List.map_cons, List.map_append, List.map_reverse]

/-- A rule that overlooks a disguise fills the gaps of a text alike in disguise. -/
theorem respace_map (hf : Disguise f) {rule : Gap → Text} (hrule : Overlooks f rule) (text : Text) :
    respace rule (text.map f) = (respace rule text).map f :=
  respaceFrom_map hf hrule [] text

theorem Overlooks.ite {test : Gap → Bool} {rule rule' : Gap → Text}
    (htest : ∀ gap : Gap, test (gap.map f) = test gap) (hrule : Overlooks f rule)
    (hrule' : Overlooks f rule') :
    Overlooks f fun gap => if test gap then rule gap else rule' gap := by
  intro gap
  show (if test (gap.map f) then rule (gap.map f) else rule' (gap.map f)) =
    (if test gap then rule gap else rule' gap).map f
  rw [htest]
  split_ifs
  · exact hrule gap
  · exact hrule' gap

theorem overlooks_nil : Overlooks f fun _ => [] :=
  fun _ => rfl

theorem overlooks_run : Overlooks f Gap.run :=
  fun _ => rfl

theorem overlooks_space (hf : Disguise f) : Overlooks f fun _ => [.char ' '] := by
  intro gap
  rw [List.map_singleton, hf.char_eq (by decide)]

theorem atEdge_map (gap : Gap) : (gap.map f).atEdge = gap.atEdge := by
  rw [Gap.atEdge, Gap.atEdge, Gap.map, List.isEmpty_map, List.isEmpty_map]

theorem touches_map {marks : Glyph → Bool} (hmarks : ∀ g, marks (f g) = marks g) (gap : Gap) :
    (gap.map f).touches marks = gap.touches marks := by
  simp only [Gap.touches, Gap.map, List.head?_map, Option.any_map, hmarks]

theorem overlooks_remainder {marks : Glyph → Bool} (hmarks : ∀ g, marks (f g) = marks g) :
    Overlooks f fun gap => remainder marks gap.run := by
  intro gap
  have hfind : (gap.run.map f).reverse.find? marks = (gap.run.reverse.find? marks).map f := by
    rw [← List.map_reverse, List.find?_map]
    simp only [Function.comp_def, hmarks]
  show remainder marks (gap.run.map f) = (remainder marks gap.run).map f
  unfold remainder
  rw [hfind]
  cases gap.run.reverse.find? marks <;> rfl

theorem strip_map (hf : Disguise f) (text : Text) : strip (text.map f) = (strip text).map f :=
  respace_map hf (overlooks_nil.ite atEdge_map overlooks_run) text

theorem collapse_map (hf : Disguise f) (text : Text) :
    collapse (text.map f) = (collapse text).map f :=
  respace_map hf (overlooks_nil.ite atEdge_map (overlooks_space hf)) text

theorem squeeze_map (hf : Disguise f) (text : Text) : squeeze (text.map f) = (squeeze text).map f :=
  respace_map hf (overlooks_space hf) text

theorem compact_map (hf : Disguise f) {marks : String} (hmarks : IsAscii marks) (text : Text) :
    compact (oneOf marks) (text.map f) = (compact (oneOf marks) text).map f :=
  respace_map hf (overlooks_nil.ite (touches_map (hf.oneOf hmarks))
    (overlooks_remainder (hf.oneOf hmarks))) text

end Text

end Minifier
