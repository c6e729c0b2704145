import Mathlib.Data.List.Basic
import Minifier.Text.Gap

/-!
# Laws of respacing

`Text.respace` replaces the gaps of a text and copies its ink, the glyphs that are no blanks
(`ink_respace`). Every text is a run of blanks, or a run of blanks before one glyph of ink and a
shorter text (`gap_induction`), and respacing works through this shape one gap at a time
(`respaceFrom_ink`). Two rules applied one after the other are one rule (`respace_respace`), as soon
as the second rule looks no further than the two glyphs next to a gap.

The minifiers that write every remaining gap as one space are respacings by a `spaceUnless` rule;
such a rule is idempotent when it looks at nothing but the neighbours of a gap
(`respace_spaceUnless_idem`).
-/

set_option autoImplicit false

namespace Minifier

/-- A text of blanks only. -/
def Text.IsRun (text : Text) : Prop :=
  ∀ g ∈ text, g.isBlank = true

namespace Gap

/-- A gap as a text has it: a run of at least one blank between glyphs that are no blanks. -/
structure Proper (gap : Gap) : Prop where
  run_ne_nil : gap.run ≠ []
  isRun : Text.IsRun gap.run
  before_ink : ∀ a ∈ gap.before.head?, a.isBlank = false
  after_ink : ∀ b ∈ gap.after.head?, b.isBlank = false

/-- A function of gaps that looks no further than the two glyphs next to a gap. -/
def IsLocal {α : Type} (f : Gap → α) : Prop :=
  ∀ gap gap' : Gap, gap.before.head? = gap'.before.head? → gap.run = gap'.run →
    gap.after.head? = gap'.after.head? → f gap = f gap'

/-- A rule that writes nothing but blanks. -/
def WritesBlanks (rule : Gap → Text) : Prop :=
  ∀ gap : Gap, Text.IsRun gap.run → Text.IsRun (rule gap)

theorem isLocal_const {α : Type} (a : α) : IsLocal fun _ => a :=
  fun _ _ _ _ _ => rfl

theorem isLocal_of_run {α : Type} (f : Text → α) : IsLocal fun gap => f gap.run :=
  fun _ _ _ hrun _ => congrArg f hrun

theorem isLocal_atEdge : IsLocal Gap.atEdge := by
  intro gap gap' hbefore _ hafter
  have hempty : ∀ {text text' : Text}, text.head? = text'.head? → text.isEmpty = text'.isEmpty := by
    intro text text' h
    cases text <;> cases text' <;> simp_all
  rw [atEdge, atEdge, hempty hbefore, hempty hafter]

theorem isLocal_touches (marks : Glyph → Bool) : IsLocal fun gap => gap.touches marks := by
  intro gap gap' hbefore _ hafter
  show gap.touches marks = gap'.touches marks
  rw [touches, touches, hbefore, hafter]

/-- A gap between two glyphs is at no end of the text. -/
theorem atEdge_eq_false {gap : Gap} {a b : Glyph} (ha : a ∈ gap.before.head?)
    (hb : b ∈ gap.after.head?) : gap.atEdge = false := by
  have hne : ∀ {text : Text} {g : Glyph}, g ∈ text.head? → text.isEmpty = false := by
    intro text g hg
    cases text with
    | nil => exact absurd hg (Option.not_mem_none g)
    | cons c rest => rfl
  rw [atEdge, hne ha, hne hb, Bool.or_false]

theorem touches_of_before {gap : Gap} {a : Glyph} {marks : Glyph → Bool}
    (h : a ∈ gap.before.head?) (ha : marks a = true) : gap.touches marks = true := by
  rw [touches, Option.mem_def.1 h, Option.any_some, ha, Bool.true_or]

theorem touches_of_after {gap : Gap} {b : Glyph} {marks : Glyph → Bool}
    (h : b ∈ gap.after.head?) (hb : marks b = true) : gap.touches marks = true := by
  rw [touches, Option.mem_def.1 h, Option.any_some, hb, Bool.or_true]

/-- A gap between two glyphs that are no marks touches none. -/
theorem touches_eq_false {gap : Gap} {a b : Glyph} {marks : Glyph → Bool}
    (ha : a ∈ gap.before.head?) (hb : b ∈ gap.after.head?) (hmark : marks a = false)
    (hmark' : marks b = false) : gap.touches marks = false := by
  rw [touches, Option.mem_def.1 ha, Option.mem_def.1 hb, Option.any_some, Option.any_some, hmark,
    hmark', Bool.or_false]

/-- A gap touches marks of two kinds iff it touches some of either kind. -/
theorem touches_or (marks marks' : Glyph → Bool) (gap : Gap) :
    (gap.touches marks || gap.touches marks') = gap.touches fun g => marks g || marks' g := by
  rw [touches, touches, touches]
  cases gap.before.head? <;> cases gap.after.head? <;> simp [Bool.or_assoc, Bool.or_left_comm]

theorem IsLocal.or {f f' : Gap → Bool} (hf : IsLocal f) (hf' : IsLocal f') :
    IsLocal fun gap => f gap || f' gap := by
  intro gap gap' hbefore hrun hafter
  show (f gap || f' gap) = (f gap' || f' gap')
  rw [hf gap gap' hbefore hrun hafter, hf' gap gap' hbefore hrun hafter]

theorem IsLocal.ite {α : Type} {test : Gap → Bool} {f f' : Gap → α} (htest : IsLocal test)
    (hf : IsLocal f) (hf' : IsLocal f') :
    IsLocal fun gap => if test gap then f gap else f' gap := by
  intro gap gap' hbefore hrun hafter
  show (if test gap then f gap else f' gap) = if test gap' then f gap' else f' gap'
  rw [htest gap gap' hbefore hrun hafter, hf gap gap' hbefore hrun hafter,
    hf' gap gap' hbefore hrun hafter]

end Gap

namespace Text

/-! ## Ink and runs -/

/-- The glyphs of a text that are no blanks, in their order. -/
def ink (text : Text) : Text :=
  text.filter fun g => !g.isBlank

theorem isRun_nil : IsRun [] :=
  fun _ h => absurd h List.not_mem_nil

theorem isRun_cons {g : Glyph} {run : Text} :
    IsRun (g :: run) ↔ g.isBlank = true ∧ IsRun run :=
  List.forall_mem_cons

theorem isRun_append {run run' : Text} : IsRun (run ++ run') ↔ IsRun run ∧ IsRun run' :=
  List.forall_mem_append

theorem isRun_space : IsRun [.char ' '] :=
  isRun_cons.2 ⟨by decide, isRun_nil⟩

theorem isRun_ite_nil {run : Text} (h : IsRun run) (p : Prop) [Decidable p] :
    IsRun (if p then [] else run) := by
  split
  · exact isRun_nil
  · exact h

/-- A blank is none of the characters that are ink. -/
theorem ne_of_isBlank {g : Glyph} (hg : g.isBlank = true) {c : Char}
    (hc : (Glyph.char c).isBlank = false) : g ≠ .char c := by
  rintro rfl
  rw [hc] at hg
  exact Bool.false_ne_true hg

@[simp]
theorem ink_append (text text' : Text) : ink (text ++ text') = ink text ++ ink text' :=
  List.filter_append ..

theorem ink_cons_of_ink {g : Glyph} (hg : g.isBlank = false) (rest : Text) :
    ink (g :: rest) = g :: ink rest := by
  simp [ink, hg]

theorem ink_cons_of_blank {g : Glyph} (hg : g.isBlank = true) (rest : Text) :
    ink (g :: rest) = ink rest := by
  simp [ink, hg]

theorem IsRun.ink_eq_nil {run : Text} (h : IsRun run) : ink run = [] := by
  rw [ink, List.filter_eq_nil_iff]
  intro g hg
  simp [h g hg]

theorem ink_ink (text : Text) : ink (ink text) = ink text := by
  rw [ink, ink, List.filter_filter]
  simp

theorem isBlank_of_mem_ink {text : Text} {g : Glyph} (h : g ∈ ink text) : g.isBlank = false := by
  simpa using (List.mem_filter.1 h).2

/-- Induction over the gaps of a text: a text is a run of blanks, or a run of blanks before one
glyph of ink and a text that the claim already holds of. -/
@[elab_as_elim]
theorem gap_induction {motive : Text → Prop} (run : ∀ run, IsRun run → motive run)
    (glyph : ∀ run g rest, IsRun run → g.isBlank = false → motive rest →
      motive (run ++ g :: rest)) (text : Text) : motive text := by
  -- `before` holds the blanks that are read and stand in front of the next glyph of ink
  have key : ∀ (text before : Text), IsRun before → motive (before ++ text) := by
    intro text
    induction text with
    | nil =>
      intro before hbefore
      rw [List.append_nil]
      exact run before hbefore
    | cons g rest ih =>
      intro before hbefore
      cases hg : g.isBlank with
      | true =>
        have hrun : IsRun (before ++ [g]) := isRun_append.2 ⟨hbefore, isRun_cons.2 ⟨hg, isRun_nil⟩⟩
        have h := ih (before ++ [g]) hrun
        rwa [List.append_assoc] at h
      | false => exact glyph before g rest hbefore hg (ih [] isRun_nil)
  exact key text [] isRun_nil

/-! ## Respacing, one gap at a time -/

/-- What a rule makes of a run of blanks that may be empty. -/
def fill (rule : Gap → Text) (before run after : Text) : Text :=
  if run.isEmpty then [] else rule ⟨before, run, after⟩

@[simp]
theorem fill_nil (rule : Gap → Text) (before after : Text) : fill rule before [] after = [] :=
  rfl

theorem fill_of_ne_nil (rule : Gap → Text) (before after : Text) {run : Text} (h : run ≠ []) :
    fill rule before run after = rule ⟨before, run, after⟩ := by
  cases run with
  | nil => exact absurd rfl h
  | cons g run => rfl

/-- A rule that deletes the gaps at the ends of a text leaves nothing of them. -/
theorem fill_eq_nil_of_edge {rule : Gap → Text}
    (hedge : ∀ gap : Gap, gap.atEdge = true → rule gap = []) {before after : Text}
    (hend : before = [] ∨ after = []) (run : Text) : fill rule before run after = [] := by
  cases run with
  | nil => rfl
  | cons g run =>
    apply hedge
    rcases hend with rfl | rfl
    · rfl
    · exact Bool.or_true _

theorem isRun_fill {rule : Gap → Text} (hrule : Gap.WritesBlanks rule) (before after : Text)
    {run : Text} (hrun : IsRun run) : IsRun (fill rule before run after) := by
  cases run with
  | nil => exact isRun_nil
  | cons g run => exact hrule ⟨before, g :: run, after⟩ hrun

theorem fill_congr_of_isLocal {rule : Gap → Text} (hrule : Gap.IsLocal rule)
    {before before' after after' : Text} (hbefore : before.head? = before'.head?)
    (hafter : after.head? = after'.head?) (run : Text) :
    fill rule before run after = fill rule before' run after' := by
  cases run with
  | nil => rfl
  | cons g run => exact hrule _ _ hbefore rfl hafter

/-- Blanks are read into the pending run. -/
theorem respaceFrom_run_append (rule : Gap → Text) (before : Text) {run : Text} (h : IsRun run)
    (pending rest : Text) :
    respaceFrom rule before pending (run ++ rest) =
      respaceFrom rule before (run.reverse ++ pending) rest := by
  induction run generalizing pending with
  | nil => rfl
  | cons g run ih =>
    obtain ⟨hg, hrun⟩ := isRun_cons.1 h
    rw [List.cons_append, respaceFrom, if_pos hg, ih hrun, List.reverse_cons, List.append_assoc,
      List.singleton_append]

/-- Respacing a text of blanks only fills its one gap. -/
theorem respaceFrom_run (rule : Gap → Text) (before : Text) {run : Text} (h : IsRun run) :
    respaceFrom rule before [] run = fill rule before run [] := by
  have hread := respaceFrom_run_append rule before h [] []
  rw [List.append_nil, List.append_nil] at hread
  rw [hread, respaceFrom, List.reverse_reverse, fill, List.isEmpty_reverse]

/-- Respacing fills the gap before the first glyph of ink, copies the glyph and goes on behind
it. -/
theorem respaceFrom_ink (rule : Gap → Text) (before : Text) {run : Text} (h : IsRun run)
    {g : Glyph} (hg : g.isBlank = false) (rest : Text) :
    respaceFrom rule before [] (run ++ g :: rest) =
      fill rule before run (g :: rest) ++
        g :: respaceFrom rule (g :: (run.reverse ++ before)) [] rest := by
  rw [respaceFrom_run_append rule before h, List.append_nil, respaceFrom, if_neg (by simp [hg]),
    List.reverse_reverse, fill, List.isEmpty_reverse]

/-- Respacing keeps the ink. -/
theorem ink_respaceFrom {rule : Gap → Text} (hrule : Gap.WritesBlanks rule) (text before : Text) :
    ink (respaceFrom rule before [] text) = ink text := by
  induction text using gap_induction generalizing before with
  | run run hrun =>
    rw [respaceFrom_run rule before hrun, (isRun_fill hrule _ _ hrun).ink_eq_nil, hrun.ink_eq_nil]
  | glyph run g rest hrun hg ih =>
    rw [respaceFrom_ink rule before hrun hg, ink_append, ink_append,
      (isRun_fill hrule _ _ hrun).ink_eq_nil, hrun.ink_eq_nil, ink_cons_of_ink hg,
      ink_cons_of_ink hg, ih]

theorem ink_respace {rule : Gap → Text} (hrule : Gap.WritesBlanks rule) (text : Text) :
    ink (respace rule text) = ink text :=
  ink_respaceFrom hrule text []

/-- What respacing writes comes from the rule or is ink of the text. -/
theorem mem_respaceFrom {rule : Gap → Text} {before run rest : Text} {g : Glyph}
    (h : g ∈ respaceFrom rule before run rest) :
    (∃ gap, g ∈ rule gap) ∨ g ∈ rest ∧ g.isBlank = false := by
  induction rest generalizing before run with
  | nil =>
    rw [respaceFrom] at h
    split at h
    · cases h
    · exact .inl ⟨_, h⟩
  | cons first rest ih =>
    rw [respaceFrom] at h
    split at h
    · exact (ih h).imp_right fun h => ⟨List.mem_cons_of_mem _ h.1, h.2⟩
    · next hfirst =>
      rcases List.mem_append.1 h with h | h
      · split at h
        · cases h
        · exact .inl ⟨_, h⟩
      · rcases List.mem_cons.1 h with rfl | h
        · exact .inr ⟨List.mem_cons_self, by simpa using hfirst⟩
        · exact (ih h).imp_right fun h => ⟨List.mem_cons_of_mem _ h.1, h.2⟩

/-- Where the gaps at the ends of a text go, the text begins with ink. -/
theorem isBlank_of_head_respace {rule : Gap → Text}
    (hedge : ∀ gap : Gap, gap.atEdge = true → rule gap = []) (text : Text) :
    ∀ g ∈ (respace rule text).head?, g.isBlank = false := by
  rw [respace]
  induction text using gap_induction with
  | run run hrun =>
    rw [respaceFrom_run rule [] hrun, fill_eq_nil_of_edge hedge (.inl rfl)]
    simp
  | glyph run g rest hrun hg _ =>
    rw [respaceFrom_ink rule [] hrun hg, fill_eq_nil_of_edge hedge (.inl rfl)]
    simpa using hg

/-- A rule that writes no more than a gap has makes no text larger, in a measure of texts that adds
up. -/
theorem measure_respaceFrom_le {size : Text → Nat} (hadd : ∀ a b, size (a ++ b) = size a + size b)
    {rule : Gap → Text} (hrule : ∀ gap : Gap, gap.run ≠ [] → size (rule gap) ≤ size gap.run)
    (text before : Text) : size (respaceFrom rule before [] text) ≤ size text := by
  have hfill : ∀ before run after : Text, size (fill rule before run after) ≤ size run := by
    intro before run after
    cases run with
    | nil => exact Nat.le_refl _
    | cons g run => exact hrule ⟨before, g :: run, after⟩ (List.cons_ne_nil g run)
  induction text using gap_induction generalizing before with
  | run run hrun =>
    rw [respaceFrom_run rule before hrun]
    exact hfill before run []
  | glyph run g rest hrun hg ih =>
    have hgap := hfill before run (g :: rest)
    have hrest := ih (g :: (run.reverse ++ before))
    have hcons : ∀ text, size (g :: text) = size [g] + size text := hadd [g]
    rw [respaceFrom_ink rule before hrun hg, hadd, hadd run, hcons, hcons rest]
    omega

/-- A local rule sees no more of what stands before a text than the last glyph of it. -/
theorem respaceFrom_congr_before {rule : Gap → Text} (hrule : Gap.IsLocal rule)
    (text : Text) {before before' : Text} (hbefore : before.head? = before'.head?) :
    respaceFrom rule before [] text = respaceFrom rule before' [] text := by
  induction text using gap_induction generalizing before before' with
  | run run hrun =>
    rw [respaceFrom_run rule before hrun, respaceFrom_run rule before' hrun,
      fill_congr_of_isLocal hrule hbefore rfl]
  | glyph run g rest hrun hg ih =>
    rw [respaceFrom_ink rule before hrun hg, respaceFrom_ink rule before' hrun hg,
      fill_congr_of_isLocal hrule hbefore rfl]
    exact congrArg _ (congrArg (g :: ·) (ih rfl))

/-- Rules that agree on the gaps a text can have respace alike. -/
theorem respaceFrom_congr {rule rule' : Gap → Text}
    (h : ∀ gap : Gap, gap.Proper → rule gap = rule' gap) (text before : Text)
    (hbefore : ∀ a ∈ before.head?, a.isBlank = false) :
    respaceFrom rule before [] text = respaceFrom rule' before [] text := by
  have hfill : ∀ {run : Text} (after : Text), IsRun run → (∀ b ∈ after.head?, b.isBlank = false) →
      ∀ before : Text, (∀ a ∈ before.head?, a.isBlank = false) →
        fill rule before run after = fill rule' before run after := by
    intro run after hrun hafter before hbefore
    cases run with
    | nil => rfl
    | cons g run => exact h _ ⟨List.cons_ne_nil g run, hrun, hbefore, hafter⟩
  induction text using gap_induction generalizing before with
  | run run hrun =>
    rw [respaceFrom_run rule before hrun, respaceFrom_run rule' before hrun,
      hfill [] hrun (by simp) before hbefore]
  | glyph run g rest hrun hg ih =>
    rw [respaceFrom_ink rule before hrun hg, respaceFrom_ink rule' before hrun hg,
      hfill (g :: rest) hrun (by simpa using hg) before hbefore, ih _ (by simpa using hg)]

theorem respace_congr {rule rule' : Gap → Text}
    (h : ∀ gap : Gap, gap.Proper → rule gap = rule' gap) (text : Text) :
    respace rule text = respace rule' text :=
  respaceFrom_congr h text [] (by simp)

/-! ## Two rules in a row -/

/-- The rule `first`, and then the rule `second` on the blanks that it leaves. -/
def thenRule (first second : Gap → Text) (gap : Gap) : Text :=
  fill second gap.before (first gap) gap.after

/-- What the second rule makes of a gap that the first one has filled. -/
theorem fill_fill {first second : Gap → Text} (before run after : Text) :
    fill second before (fill first before run after) after =
      fill (thenRule first second) before run after := by
  cases run <;> rfl

/-- Two respacings in a row are one, when the second rule is local: it finds the same neighbours
at a gap as the first one did. -/
theorem respaceFrom_respaceFrom {first second : Gap → Text} (hfirst : Gap.WritesBlanks first)
    (hsecond : Gap.IsLocal second) (text before before' : Text)
    (hbefore : before.head? = before'.head?) :
    respaceFrom second before' [] (respaceFrom first before [] text) =
      respaceFrom (thenRule first second) before [] text := by
  induction text using gap_induction generalizing before before' with
  | run run hrun =>
    have hfilled : IsRun (fill first before run []) := isRun_fill hfirst before [] hrun
    rw [respaceFrom_run first before hrun, respaceFrom_run second before' hfilled,
      respaceFrom_run _ before hrun, fill_congr_of_isLocal hsecond hbefore.symm rfl, fill_fill]
  | glyph run g rest hrun hg ih =>
    have hfilled : IsRun (fill first before run (g :: rest)) :=
      isRun_fill hfirst before (g :: rest) hrun
    -- the two passes have read different blanks, and behind `g` both see `g`
    have hbehind := ih (g :: (run.reverse ++ before))
      (g :: ((fill first before run (g :: rest)).reverse ++ before')) rfl
    have hgap : fill second before' (fill first before run (g :: rest))
        (g :: respaceFrom first (g :: (run.reverse ++ before)) [] rest) =
          fill second before (fill first before run (g :: rest)) (g :: rest) :=
      fill_congr_of_isLocal hsecond hbefore.symm (by rfl) _
    rw [respaceFrom_ink first before hrun hg, respaceFrom_ink second before' hfilled hg,
      respaceFrom_ink _ before hrun hg, hbehind, hgap, fill_fill]

theorem respace_respace {first second : Gap → Text} (hfirst : Gap.WritesBlanks first)
    (hsecond : Gap.IsLocal second) (text : Text) :
    respace second (respace first text) = respace (thenRule first second) text :=
  respaceFrom_respaceFrom hfirst hsecond text [] [] rfl

/-! ## Rules that write single spaces -/

/-- The rule that writes a gap as one space, unless the gap vanishes. -/
def spaceUnless (vanishes : Gap → Bool) (gap : Gap) : Text :=
  if vanishes gap then [] else [.char ' ']

theorem writesBlanks_spaceUnless (vanishes : Gap → Bool) :
    Gap.WritesBlanks (spaceUnless vanishes) := by
  intro gap _
  rw [spaceUnless]
  exact isRun_ite_nil isRun_space _

theorem spaceUnless_of_atEdge (gap : Gap) (hedge : gap.atEdge = true) :
    spaceUnless Gap.atEdge gap = [] :=
  if_pos hedge

/-- Writing the gaps that remain as spaces makes no text larger, where no glyph is smaller than a
space. -/
theorem measure_respace_spaceUnless_le {size : Text → Nat}
    (hadd : ∀ a b, size (a ++ b) = size a + size b) (hspace : ∀ g, size [.char ' '] ≤ size [g])
    (vanishes : Gap → Bool) (text : Text) :
    size (respace (spaceUnless vanishes) text) ≤ size text := by
  refine measure_respaceFrom_le hadd (fun gap hrun => ?_) text []
  have hnil : size [] = 0 := by
    have htwice := hadd [] []
    rw [List.append_nil] at htwice
    omega
  rw [spaceUnless]
  split
  · rw [hnil]
    exact Nat.zero_le _
  · obtain ⟨g, run, hcons⟩ := List.exists_cons_of_ne_nil hrun
    calc size [.char ' '] ≤ size [g] := hspace g
      _ ≤ size [g] + size run := Nat.le_add_right _ _
      _ = size gap.run := by rw [hcons, ← hadd, List.singleton_append]

theorem length_respace_spaceUnless_le (vanishes : Gap → Bool) (text : Text) :
    (respace (spaceUnless vanishes) text).length ≤ text.length :=
  measure_respace_spaceUnless_le (fun _ _ => List.length_append) (fun _ => Nat.le_refl 1) vanishes
    text

theorem isLocal_spaceUnless {vanishes : Gap → Bool} (h : Gap.IsLocal vanishes) :
    Gap.IsLocal (spaceUnless vanishes) :=
  h.ite (Gap.isLocal_const []) (Gap.isLocal_const [Glyph.char ' '])

/-- A gap that the first rule leaves as a space vanishes if the second rule deletes that space. -/
theorem respace_spaceUnless {vanishes vanishes' : Gap → Bool} {rule : Gap → Text}
    (hlocal : Gap.IsLocal rule)
    (hrule : ∀ gap : Gap, rule { gap with run := [.char ' '] } = spaceUnless vanishes' gap)
    (text : Text) :
    respace rule (respace (spaceUnless vanishes) text) =
      respace (spaceUnless fun gap => vanishes gap || vanishes' gap) text := by
  rw [respace_respace (writesBlanks_spaceUnless vanishes) hlocal]
  refine respace_congr (fun gap _ => ?_) text
  rw [thenRule, spaceUnless, spaceUnless]
  cases hv : vanishes gap with
  | true => rfl
  | false => exact hrule gap

/-- Writing the gaps that remain as spaces settles them: doing so again changes nothing. -/
theorem respace_spaceUnless_idem {vanishes : Gap → Bool} (hlocal : Gap.IsLocal vanishes)
    (hspace : ∀ gap : Gap, vanishes gap = false →
      vanishes { gap with run := [.char ' '] } = false) (text : Text) :
    respace (spaceUnless vanishes) (respace (spaceUnless vanishes) text) =
      respace (spaceUnless vanishes) text := by
  rw [respace_respace (writesBlanks_spaceUnless vanishes) (isLocal_spaceUnless hlocal)]
  refine respace_congr (fun gap _ => ?_) text
  rw [thenRule, spaceUnless]
  cases hv : vanishes gap with
  | true => rfl
  | false =>
    -- the second pass finds the space that the first one wrote
    simp [fill, spaceUnless, hspace gap hv]

theorem collapse_eq_respace (text : Text) :
    collapse text = respace (spaceUnless Gap.atEdge) text :=
  rfl

theorem squeeze_eq_respace (text : Text) :
    squeeze text = respace (spaceUnless fun _ => false) text :=
  rfl

/-! ## Compaction and stripping as rules -/

/-- What compaction leaves of a gap that touches no mark is blank, and something of it is left. -/
theorem remainder_isRun (marks : Glyph → Bool) {run : Text} (h : IsRun run) :
    IsRun (remainder marks run) := by
  rw [remainder]
  split
  · next mark hmark =>
    intro g hg
    rw [List.mem_singleton] at hg
    rw [hg]
    exact h mark (List.mem_reverse.1 (List.mem_of_find?_eq_some hmark))
  · exact h

theorem remainder_ne_nil (marks : Glyph → Bool) {run : Text} (h : run ≠ []) :
    remainder marks run ≠ [] := by
  rw [remainder]
  split
  · exact List.cons_ne_nil _ _
  · exact h

theorem remainder_space (marks : Glyph → Bool) : remainder marks [.char ' '] = [.char ' '] := by
  simp only [remainder, List.reverse_singleton, List.find?_singleton]
  cases marks (.char ' ') <;> rfl

/-- The rule of `Text.compact`. -/
def compactRule (marks : Glyph → Bool) (gap : Gap) : Text :=
  if gap.touches marks then [] else remainder marks gap.run

theorem compact_eq_respace (marks : Glyph → Bool) (text : Text) :
    compact marks text = respace (compactRule marks) text :=
  rfl

theorem isLocal_compactRule (marks : Glyph → Bool) : Gap.IsLocal (compactRule marks) := by
  intro gap gap' hbefore hrun hafter
  rw [compactRule, compactRule, Gap.touches, Gap.touches, hbefore, hrun, hafter]

theorem writesBlanks_compactRule (marks : Glyph → Bool) :
    Gap.WritesBlanks (compactRule marks) := by
  intro gap hrun
  rw [compactRule]
  exact isRun_ite_nil (remainder_isRun marks hrun) _

/-- Compaction behind a rule that writes single spaces. -/
theorem compact_respace_spaceUnless (marks : Glyph → Bool) (vanishes : Gap → Bool) (text : Text) :
    compact marks (respace (spaceUnless vanishes) text) =
      respace (spaceUnless fun gap => vanishes gap || gap.touches marks) text := by
  refine respace_spaceUnless (isLocal_compactRule marks) (fun gap => ?_) text
  rw [compactRule, remainder_space, spaceUnless]
  rfl

/-- The rule of `Text.strip`. -/
def stripRule (gap : Gap) : Text :=
  if gap.atEdge then [] else gap.run

theorem strip_eq_respace (text : Text) : strip text = respace stripRule text :=
  rfl

theorem isLocal_stripRule : Gap.IsLocal stripRule :=
  Gap.isLocal_atEdge.ite (Gap.isLocal_const []) (Gap.isLocal_of_run id)

/-- Stripping leaves nothing of the gap at the end of a text. -/
theorem fill_stripRule_end (before run : Text) : fill stripRule before run [] = [] :=
  fill_eq_nil_of_edge (fun _ hedge => if_pos hedge) (.inr rfl) run

/-- Stripping keeps the gaps behind which the text goes on, unless they open it. -/
theorem fill_stripRule_cons (before run : Text) (g : Glyph) (rest : Text) :
    fill stripRule before run (g :: rest) = if before.isEmpty then [] else run := by
  cases run with
  | nil => simp
  | cons b run => simp [fill, stripRule, Gap.atEdge]

/-- Behind the start of a text, stripping only takes the gap at its end. -/
theorem exists_respaceFrom_stripRule {before : Text} (hbefore : before ≠ []) (text : Text) :
    ∃ back, IsRun back ∧ text = respaceFrom stripRule before [] text ++ back := by
  induction text using gap_induction generalizing before with
  | run run hrun =>
    refine ⟨run, hrun, ?_⟩
    rw [respaceFrom_run stripRule before hrun, fill_stripRule_end, List.nil_append]
  | glyph run g rest hrun hg ih =>
    obtain ⟨back, hback, hrest⟩ := ih (List.cons_ne_nil g (run.reverse ++ before))
    refine ⟨back, hback, ?_⟩
    rw [respaceFrom_ink stripRule before hrun hg, fill_stripRule_cons, List.isEmpty_eq_false_iff.2
      hbefore, if_neg Bool.false_ne_true, List.append_assoc, List.cons_append, ← hrest]

/-- Stripping takes a run of blanks from either end of a text. -/
theorem exists_strip (text : Text) :
    ∃ front back, IsRun front ∧ IsRun back ∧ text = front ++ (strip text ++ back) := by
  rw [strip_eq_respace, respace]
  induction text using gap_induction with
  | run run hrun =>
    refine ⟨[], run, isRun_nil, hrun, ?_⟩
    rw [respaceFrom_run stripRule [] hrun, fill_stripRule_end, List.nil_append, List.nil_append]
  | glyph run g rest hrun hg _ =>
    obtain ⟨back, hback, hrest⟩ :=
      exists_respaceFrom_stripRule (List.cons_ne_nil g (run.reverse ++ [])) rest
    refine ⟨run, back, hrun, hback, ?_⟩
    rw [respaceFrom_ink stripRule [] hrun hg, fill_stripRule_cons, List.isEmpty_nil, if_pos rfl,
      List.nil_append, List.cons_append, ← hrest]

/-- A run at the start of a text is over where the first glyph of ink comes. -/
theorem IsRun.prefix_of_ink {run before rest : Text} {g : Glyph} (hrun : IsRun run)
    (hg : g.isBlank = false) (h : run <+: before ++ g :: rest) : run <+: before := by
  induction before generalizing run with
  | nil =>
    cases run with
    | nil => exact List.prefix_rfl
    | cons c run =>
      obtain ⟨rfl, -⟩ := List.cons_prefix_cons.1 h
      exact absurd (isRun_cons.1 hrun).1 (by simp [hg])
  | cons b before ih =>
    cases run with
    | nil => exact List.nil_prefix
    | cons c run =>
      obtain ⟨rfl, hrest⟩ := List.cons_prefix_cons.1 h
      exact List.cons_prefix_cons.2 ⟨rfl, ih (isRun_cons.1 hrun).2 hrest⟩

/-- Stripping keeps what stands between two glyphs of ink. -/
theorem exists_strip_between {a b : Glyph} (ha : a.isBlank = false) (hb : b.isBlank = false)
    (before inside after : Text) :
    ∃ before' after', before' <:+ before ∧
      strip (before ++ a :: (inside ++ b :: after)) = before' ++ a :: (inside ++ b :: after') := by
  obtain ⟨front, back, hfront, hback, h⟩ := exists_strip (before ++ a :: (inside ++ b :: after))
  generalize strip (before ++ a :: (inside ++ b :: after)) = stripped at h ⊢
  obtain ⟨before', rfl⟩ : front <+: before :=
    hfront.prefix_of_ink ha (h ▸ List.prefix_append front _)
  rw [List.append_assoc, List.append_cancel_left_eq] at h
  -- the end of the text, read from its last glyph on
  have hend : back.reverse <+: after.reverse ++ b :: (inside.reverse ++ a :: before'.reverse) := by
    have hreverse := congrArg List.reverse h
    simp only [List.reverse_append, List.reverse_cons, List.append_assoc, List.cons_append,
      List.nil_append] at hreverse
    exact hreverse ▸ List.prefix_append back.reverse _
  have hrun : IsRun back.reverse := fun g hg => hback g (List.mem_reverse.1 hg)
  obtain ⟨after', rfl⟩ : back <:+ after := List.reverse_prefix.1 (hrun.prefix_of_ink hb hend)
  refine ⟨before', after', List.suffix_append front before', ?_⟩
  have hwhole : before' ++ a :: (inside ++ b :: after') ++ back = stripped ++ back := by
    rw [← h]
    simp only [List.append_assoc, List.cons_append]
  exact (List.append_cancel_right hwhole).symm

/-- Stripping behind a rule that writes single spaces. -/
theorem strip_respace_spaceUnless (vanishes : Gap → Bool) (text : Text) :
    strip (respace (spaceUnless vanishes) text) =
      respace (spaceUnless fun gap => vanishes gap || gap.atEdge) text := by
  rw [strip_eq_respace]
  exact respace_spaceUnless isLocal_stripRule (fun _ => rfl) text

/-- A rule that writes single spaces behind compaction. -/
theorem respace_spaceUnless_compact (marks : Glyph → Bool) {vanishes : Gap → Bool}
    (hlocal : Gap.IsLocal vanishes)
    (hrun : ∀ (gap : Gap) (run : Text), vanishes { gap with run := run } = vanishes gap)
    (text : Text) :
    respace (spaceUnless vanishes) (compact marks text) =
      respace (spaceUnless fun gap => gap.touches marks || vanishes gap) text := by
  rw [compact_eq_respace,
    respace_respace (writesBlanks_compactRule marks) (isLocal_spaceUnless hlocal)]
  refine respace_congr (fun gap hgap => ?_) text
  rw [thenRule, compactRule]
  cases ht : gap.touches marks with
  | true => simp [spaceUnless, ht]
  | false =>
    -- compaction leaves blanks here, which the rule takes as it would have taken the whole run
    rw [if_neg Bool.false_ne_true, fill_of_ne_nil _ _ _ (remainder_ne_nil marks hgap.run_ne_nil)]
    simp [spaceUnless, ht, hrun gap]

end Text

end Minifier
