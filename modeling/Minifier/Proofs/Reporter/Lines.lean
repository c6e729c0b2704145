import Minifier.Proofs.Answers
import Minifier.Proofs.Meter.Filling

/-!
# One line for each run

Over a run, a reporter with a width draws one bar after the other over the same line (`Bars`), and
ends the line once: with the last file if the run gets that far, else when the run is over
(`Reporter.IsLine`). Each bar has as many cells as the reporter is wide, and no fewer of them are
full than in the bar before. A reporter can be told of any number of runs, and draws a line for each
(`Reporter.runs_draw_lines`).

Widths from `Meter.widthLimit` on and totals of more than 4300 digits are left out: there bars can
get too many cells, or cannot be drawn at all.
-/

set_option autoImplicit false

namespace Minifier

namespace Meter

open Binary64
open Integer (numeralLimit)

variable {width total done full : ℕ}

/-! ## Bars -/

/-- The text of a bar with given numbers of full and empty cells. -/
def frame (meter : Meter) (full empty : ℕ) (label : String) : String :=
  "\rProgress: [" ++ String.ofList (List.replicate full '█') ++
    String.ofList (List.replicate empty '░') ++ "] " ++
    String.ofList (meter.percentage.fixed 1) ++ "% (" ++ toString meter.processed ++ "/" ++
    toString meter.total ++ ") " ++ label

theorem cells?_eq_ok {c : Char} {count : Int} {text : String} (h : cells? c count = .ok text) :
    text = cells c count := by
  rw [cells?] at h
  split at h
  · exact (Except.ok.inj h).symm
  · cases h

theorem cells?_of_lt (c : Char) {count : ℕ} (h : count < cellLimit) :
    cells? c (count : Int) = .ok (String.ofList (List.replicate count c)) := by
  rw [cells?, if_pos ⟨by omega, by exact_mod_cast h⟩]
  rfl

theorem numeral?_eq_ok {n : Int} {text : String} (h : numeral? n = .ok text) :
    text = toString n := by
  rw [numeral?] at h
  split at h
  · exact (Except.ok.inj h).symm
  · cases h

theorem numeral?_of_lt {n : ℕ} (h : n < numeralLimit) : numeral? (n : Int) = .ok (toString n) := by
  rw [numeral?, Int.natAbs_natCast, if_pos h]
  rfl

theorem fullCells?_eq_ok {meter : Meter} {width full : Int}
    (h : meter.fullCells? width = .ok full) : full = meter.filledCells width := by
  simp only [fullCells?] at h
  split_ifs at h
  exact (Except.ok.inj h).symm

/-- What can be drawn is the bar of the meter. -/
theorem draw?_eq_ok {meter : Meter} {width : Int} {label text : String}
    (h : meter.draw? width label = .ok text) : text = meter.bar width label := by
  rw [draw?] at h
  rw [bar]
  split at h
  · next hzero =>
    rw [if_pos hzero]
    exact (Except.ok.inj h).symm
  · next hzero =>
    obtain ⟨full, hfull, h⟩ := bind_eq_ok_iff.1 h
    obtain ⟨front, hfront, h⟩ := bind_eq_ok_iff.1 h
    obtain ⟨back, hback, h⟩ := bind_eq_ok_iff.1 h
    obtain ⟨processed, hprocessed, h⟩ := bind_eq_ok_iff.1 h
    obtain ⟨total, htotal, h⟩ := bind_eq_ok_iff.1 h
    rw [if_neg hzero, ← Except.ok.inj h, cells?_eq_ok hfront, cells?_eq_ok hback,
      numeral?_eq_ok hprocessed, numeral?_eq_ok htotal, fullCells?_eq_ok hfull]
    rfl

/-- A bar whose full cells are among its cells is drawn. -/
theorem draw?_of_fullCells (htotal : 0 < total) (hdigits : total < numeralLimit)
    (hdone : done ≤ total) (hcount : (Meter.mk total done).fullCells? width = .ok (full : Int))
    (hfull : full ≤ width) (hwidth : width < cellLimit) (label : String) :
    (Meter.mk total done).draw? width label =
      .ok ((Meter.mk total done).frame full (width - full) label ++
        (if total ≤ done then "\n" else "")) := by
  have hback : cells? '░' ((width : Int) - full) =
      .ok (String.ofList (List.replicate (width - full) '░')) := by
    rw [← Nat.cast_sub hfull]
    exact cells?_of_lt '░' (Nat.lt_of_le_of_lt (Nat.sub_le width full) hwidth)
  have hfront := cells?_of_lt '█' (Nat.lt_of_le_of_lt hfull hwidth)
  have hprocessed := numeral?_of_lt (Nat.lt_of_le_of_lt hdone hdigits)
  have hshown := numeral?_of_lt hdigits
  have hzero : ¬ (total : Int) = 0 := Int.natCast_ne_zero.2 (Nat.ne_of_gt htotal)
  rw [draw?, if_neg hzero]
  refine bind_eq_ok_iff.2 ⟨_, hcount, bind_eq_ok_iff.2 ⟨_, hfront, bind_eq_ok_iff.2 ⟨_, hback,
    bind_eq_ok_iff.2 ⟨_, hprocessed, bind_eq_ok_iff.2 ⟨_, hshown, ?_⟩⟩⟩⟩⟩
  simp only [Nat.cast_le]
  rfl

/-- A bar with a number that has too many digits is not drawn. -/
theorem draw?_of_numeralLimit_le (hdigits : numeralLimit ≤ total) (hdone : done ≤ total)
    (hshown : done < numeralLimit) (hwidth : width < widthLimit) (label : String) :
    (Meter.mk total done).draw? width label = .error .numeralTooLong := by
  have htotal : 0 < total :=
    Nat.lt_of_le_of_lt (Nat.zero_le done) (Nat.lt_of_lt_of_le hshown hdigits)
  have hlimit : width < cellLimit := Nat.lt_trans hwidth (by decide)
  obtain ⟨full, hcount, -, hfull⟩ := exists_fullCells_le hwidth htotal hdone
  have hback : cells? '░' ((width : Int) - full) =
      .ok (String.ofList (List.replicate (width - full) '░')) := by
    rw [← Nat.cast_sub hfull]
    exact cells?_of_lt '░' (Nat.lt_of_le_of_lt (Nat.sub_le width full) hlimit)
  have hfront := cells?_of_lt '█' (Nat.lt_of_le_of_lt hfull hlimit)
  have hprocessed := numeral?_of_lt hshown
  have hlong : numeral? (total : Int) = .error .numeralTooLong := by
    rw [numeral?, Int.natAbs_natCast, if_neg (Nat.not_lt.2 hdigits)]
  have hzero : ¬ (total : Int) = 0 := Int.natCast_ne_zero.2 (Nat.ne_of_gt htotal)
  rw [draw?, if_neg hzero]
  exact bind_eq_error_iff.2 (.inr ⟨_, hcount, bind_eq_error_iff.2 (.inr ⟨_, hfront,
    bind_eq_error_iff.2 (.inr ⟨_, hback, bind_eq_error_iff.2 (.inr ⟨_, hprocessed,
      bind_eq_error_iff.2 (.inl hlong)⟩)⟩)⟩)⟩)

/-! ## Newlines -/

theorem newline_not_mem_toDigits (n : ℕ) : '\n' ∉ Nat.toDigits 10 n := by
  intro h
  have hdigit := Nat.isDigit_of_mem_toDigits (by decide) le_rfl h
  exact absurd hdigit (by decide)

theorem newline_not_mem_toString (n : ℕ) : '\n' ∉ (toString n).toList := by
  rw [show toString n = n.repr from rfl, Nat.toList_repr]
  exact newline_not_mem_toDigits n

theorem newline_not_mem_withPlaces (places units : ℕ) : '\n' ∉ withPlaces places units := by
  have hpadded : ∀ width n, '\n' ∉ paddedDigits width n := by
    intro width n
    rw [paddedDigits, List.mem_append, not_or]
    exact ⟨fun h => absurd (List.eq_of_mem_replicate h) (by decide), newline_not_mem_toDigits n⟩
  rw [withPlaces, List.mem_append, List.mem_cons, not_or, not_or]
  exact ⟨hpadded _ _, by decide, hpadded _ _⟩

/-- A number with a fixed number of places is written on one line. -/
theorem newline_not_mem_fixed (places : ℕ) (x : Binary64) : '\n' ∉ x.fixed places := by
  cases x with
  | finite negative significand exponent =>
    rw [Binary64.fixed, List.mem_append, not_or]
    exact ⟨by cases negative <;> decide, newline_not_mem_withPlaces _ _⟩
  | infinite negative =>
    cases negative with
    | false => exact (by decide : '\n' ∉ ['i', 'n', 'f'])
    | true => exact (by decide : '\n' ∉ ['-', 'i', 'n', 'f'])
  | notANumber => exact (by decide : '\n' ∉ ['n', 'a', 'n'])

theorem newline_not_mem_append {s t : String} (hs : '\n' ∉ s.toList) (ht : '\n' ∉ t.toList) :
    '\n' ∉ (s ++ t).toList := by
  rw [String.toList_append, List.mem_append, not_or]
  exact ⟨hs, ht⟩

theorem newline_not_mem_replicate (count : ℕ) {c : Char} (hc : c ≠ '\n') :
    '\n' ∉ (String.ofList (List.replicate count c)).toList := by
  rw [String.toList_ofList]
  intro h
  exact hc (List.eq_of_mem_replicate h).symm

/-- A bar stands on one line if its label does. -/
theorem newline_not_mem_frame (full empty : ℕ) {label : String} (hlabel : '\n' ∉ label.toList) :
    '\n' ∉ ((Meter.mk total done).frame full empty label).toList := by
  have hfull := newline_not_mem_append (by decide : '\n' ∉ "\rProgress: [".toList)
    (newline_not_mem_replicate full (by decide : '█' ≠ '\n'))
  have hcells := newline_not_mem_append
    (newline_not_mem_append hfull (newline_not_mem_replicate empty (by decide : '░' ≠ '\n')))
    (by decide : '\n' ∉ "] ".toList)
  have hfixed : '\n' ∉ (String.ofList ((Meter.mk total done).percentage.fixed 1)).toList := by
    rw [String.toList_ofList]
    exact newline_not_mem_fixed 1 _
  have hpercentage := newline_not_mem_append (newline_not_mem_append hcells hfixed)
    (by decide : '\n' ∉ "% (".toList)
  have hdone := newline_not_mem_append
    (newline_not_mem_append hpercentage (newline_not_mem_toString done))
    (by decide : '\n' ∉ "/".toList)
  have htotal := newline_not_mem_append
    (newline_not_mem_append hdone (newline_not_mem_toString total))
    (by decide : '\n' ∉ ") ".toList)
  exact newline_not_mem_append htotal hlabel

end Meter

namespace Reporter

open Meter
open Integer (numeralLimit)

variable {width total done full : ℕ} {labels : List String} {text : String}

/-! ## Runs -/

/-- A run over a number of files, with the labels of those that are done before it is over. -/
structure Run where
  total : ℕ
  labels : List String

/-- What a reporter is told of a run. -/
def Run.events (run : Run) : List Event :=
  .start run.total :: (run.labels.map .advance ++ [.finish])

/-- A run has files, and a number of them that can be written down. No more of them are done than
there are, and their labels stand on one line. -/
structure Run.Proper (run : Run) : Prop where
  total_pos : 1 ≤ run.total
  total_lt : run.total < numeralLimit
  labels_le : run.labels.length ≤ run.total
  oneLine : ∀ label ∈ run.labels, '\n' ∉ label.toList

/-- Bars that are drawn one after the other, behind a number of files and a bar with a number of
full cells: each has all its cells, and no fewer of them are full than before. -/
inductive Bars (width total : ℕ) : (done full : ℕ) → List String → String → Prop where
  | nil (done full : ℕ) : Bars width total done full [] ""
  | cons {done full full' : ℕ} {labels : List String} {text : String} (label : String)
      (grows : full ≤ full') (fits : full' ≤ width)
      (rest : Bars width total (done + 1) full' labels text) :
      Bars width total done full (label :: labels)
        ((Meter.mk total (done + 1 : ℕ)).frame full' (width - full') label ++ text)

/-- The line that is drawn over a run: its bars, and one newline, at the end. -/
structure IsLine (width : ℕ) (run : Run) (line : String) : Prop where
  drawn : ∃ text, Bars width run.total 0 0 run.labels text ∧ line = text ++ "\n"
  newline_once : line.toList.count '\n' = 1

theorem Bars.newline_not_mem (h : Bars width total done full labels text)
    (hlabels : ∀ label ∈ labels, '\n' ∉ label.toList) : '\n' ∉ text.toList := by
  induction h with
  | nil => exact List.not_mem_nil
  | cons label _ _ _ ih =>
    rw [List.forall_mem_cons] at hlabels
    exact newline_not_mem_append (newline_not_mem_frame _ _ hlabels.1) (ih hlabels.2)

/-- Bars under labels without newlines make a line. -/
theorem isLine_of_bars {run : Run} (hrun : run.Proper)
    (h : Bars width run.total 0 0 run.labels text) : IsLine width run (text ++ "\n") := by
  refine ⟨⟨text, h, rfl⟩, ?_⟩
  rw [String.toList_append, List.count_append,
    List.count_eq_zero.2 (h.newline_not_mem hrun.oneLine)]
  rfl

/-! ## Events -/

/-- What is done about events after others that succeed. -/
theorem handleAll_append {reporter after : Reporter} {events : List Event}
    (h : reporter.handleAll events = (after, .ok ())) (others : List Event) :
    reporter.handleAll (events ++ others) = after.handleAll others := by
  induction events generalizing reporter with
  | nil =>
    cases h
    rfl
  | cons event events ih =>
    rw [handleAll] at h
    rw [List.cons_append, handleAll]
    cases hstep : reporter.handle event with
    | mk next answer =>
      rw [hstep] at h
      cases answer with
      | ok _ => exact ih h
      | error fault => cases h

/-- A file is counted, and its bar is drawn. -/
theorem handle_advance {reporter : Reporter} (hwidth : width < widthLimit)
    (hconsole : reporter.width = some (width : Int)) (hmeter : reporter.meter = ⟨total, done⟩)
    (hdigits : total < numeralLimit) (hdone : done < total)
    (hfull : Fills width (done / total) full) (label : String) :
    ∃ full', full ≤ full' ∧ full' ≤ width ∧ Fills width ((done + 1 : ℕ) / total) full' ∧
      reporter.handle (.advance label) =
        ({ reporter with
            meter := ⟨total, done + 1⟩
            written := reporter.written ++
              ((Meter.mk total (done + 1 : ℕ)).frame full' (width - full') label ++
                (if total ≤ done + 1 then "\n" else "")) }, .ok ()) := by
  have htotal : 0 < total := Nat.zero_lt_of_lt hdone
  have hlimit : width < cellLimit := Nat.lt_trans hwidth (by decide)
  obtain ⟨full', hcount, hfills, hfits⟩ := exists_fullCells_le hwidth htotal hdone
  have hshare : (done : ℚ) / total ≤ (done + 1 : ℕ) / total :=
    div_le_div_of_nonneg_right (by exact_mod_cast Nat.le_succ done) (Nat.cast_nonneg total)
  refine ⟨full', hfull.mono hfills hshare, hfits, hfills, ?_⟩
  have hdraw := draw?_of_fullCells htotal hdigits hdone hcount hfits hlimit label
  have hcounted : reporter.meter.advance = ⟨total, done + 1⟩ := by
    rw [hmeter]
    rfl
  rw [handle]
  simp only [hcounted, hconsole, hdraw]

/-- A run is over for a reporter that cannot draw its first bar. -/
theorem handleAll_events_of_error {reporter : Reporter} {width : Int} {run : Run} {label : String}
    {fault : Fault} (hconsole : reporter.width = some width)
    (hlabels : run.labels = label :: labels)
    (hdraw : (Meter.mk run.total 1).draw? width label = .error fault) :
    reporter.handleAll run.events =
      ({ reporter with meter := ⟨run.total, 1⟩ }, .error fault) := by
  have hadvance : ({ reporter with meter := .start run.total } : Reporter).handle (.advance label) =
      ({ reporter with meter := ⟨run.total, 1⟩ }, .error fault) := by
    have hcounted : (Meter.start run.total).advance = ⟨run.total, 1⟩ := rfl
    rw [handle]
    simp only [hconsole, hcounted, hdraw]
  rw [Run.events, hlabels, List.map_cons, List.cons_append, handleAll]
  show handleAll _ (.advance label :: _) = _
  rw [handleAll, hadvance]

/-- A total with too many digits ends a run with its first file. -/
theorem handleAll_events_of_numeralLimit_le (hdigits : numeralLimit ≤ total)
    (hwidth : width < widthLimit) (label : String) :
    (Reporter.mk (some (width : Int)) {} "").handleAll (Run.mk total [label]).events =
      (Reporter.mk (some (width : Int)) ⟨total, 1⟩ "", .error .numeralTooLong) := by
  have hone : 1 < numeralLimit := by decide +kernel
  apply handleAll_events_of_error rfl rfl
  have hdone := Nat.le_of_lt (Nat.lt_of_lt_of_le hone hdigits)
  exact draw?_of_numeralLimit_le hdigits hdone hone hwidth label

/-- Over the rest of a run the rest of its bars are drawn, and the line is ended once. -/
theorem exists_handleAll_advance {reporter : Reporter} (hwidth : width < widthLimit)
    (hconsole : reporter.width = some (width : Int)) (hmeter : reporter.meter = ⟨total, done⟩)
    (hdigits : total < numeralLimit) (hdone : done < total)
    (hlabels : done + labels.length ≤ total) (hfull : Fills width (done / total) full) :
    ∃ text after, Bars width total done full labels text ∧
      reporter.handleAll (labels.map .advance ++ [.finish]) = (after, .ok ()) ∧
        after.width = reporter.width ∧
          after.written = reporter.written ++ (text ++ "\n") := by
  induction labels generalizing reporter done full with
  | nil =>
    refine ⟨"", _, .nil done full, rfl, rfl, ?_⟩
    have hending : reporter.meter.ending = "\n" := by
      rw [hmeter, ending]
      exact if_pos (by simp; omega)
    show reporter.written ++ (if reporter.width.isSome then reporter.meter.ending else "") = _
    rw [hconsole, hending]
    rfl
  | cons label labels ih =>
    obtain ⟨full', hgrows, hfits, hfull', hhandle⟩ :=
      handle_advance hwidth hconsole hmeter hdigits hdone hfull label
    rw [List.length_cons] at hlabels
    rw [List.map_cons, List.cons_append, handleAll, hhandle]
    rcases Nat.lt_or_ge (done + 1) total with hmore | hlast
    · -- the line goes on
      rw [if_neg (Nat.not_le_of_lt hmore), String.append_empty]
      obtain ⟨next, hnext⟩ : ∃ next : Reporter, next = { reporter with
          meter := ⟨total, done + 1⟩
          written := reporter.written ++
            (Meter.mk total (done + 1 : ℕ)).frame full' (width - full') label } := ⟨_, rfl⟩
      have hconsole' : next.width = some (width : Int) := hnext ▸ hconsole
      have hmeter' : next.meter = ⟨total, done + 1⟩ := hnext ▸ rfl
      obtain ⟨text, after, hbars, hrest, hwidth', hwritten⟩ :=
        ih hconsole' hmeter' hmore (by omega) hfull'
      rw [hnext] at hrest hwidth' hwritten
      refine ⟨_, after, .cons label hgrows hfits hbars, hrest, hwidth', ?_⟩
      rw [hwritten, String.append_assoc, String.append_assoc]
    · -- the last file has ended the line
      obtain rfl : labels = [] := List.length_eq_zero_iff.1 (by omega)
      have hending : (Meter.mk total (done + 1 : ℕ)).ending = "" := by
        rw [ending]
        exact if_neg (by simp; omega)
      rw [if_pos hlast]
      refine ⟨_, _, .cons label hgrows hfits (.nil _ _), rfl, rfl, ?_⟩
      show reporter.written ++ (_ ++ "\n") ++
        (if reporter.width.isSome then (Meter.mk total (done + 1 : ℕ)).ending else "") = _
      rw [hconsole, hending, Option.isSome_some, if_pos rfl, String.append_empty,
        String.append_empty]

/-- No cells are full while no file is done. -/
theorem fills_zero (width : ℕ) : Fills width 0 0 := by
  have hzero : IsNearest 0 0 := by
    have hnear := isNearest_natCast 0
    rwa [Nat.cast_zero] at hnear
  refine ⟨0, 0, 0, 0, Binary64.rounds_zero, ?_, ?_, ?_, hzero⟩
  · rw [zero_mul]
    exact Binary64.rounds_zero
  · rw [zero_mul]
    exact Binary64.rounds_zero
  · rw [zero_div]
    exact Binary64.rounds_zero

/-- Over a run one line is drawn, whatever the reporter was told before. -/
theorem exists_handleAll_run {reporter : Reporter} {run : Run} (hwidth : width < widthLimit)
    (hconsole : reporter.width = some (width : Int)) (hrun : run.Proper) :
    ∃ line after, IsLine width run line ∧
      reporter.handleAll run.events = (after, .ok ()) ∧ after.width = some (width : Int) ∧
        after.written = reporter.written ++ line := by
  have hnone : Fills width ((0 : ℕ) / run.total) 0 := by
    rw [Nat.cast_zero, zero_div]
    exact fills_zero width
  obtain ⟨started, hstarted⟩ : ∃ started : Reporter,
      started = { reporter with meter := .start run.total } := ⟨_, rfl⟩
  have hconsole' : started.width = some (width : Int) := hstarted ▸ hconsole
  have hmeter : started.meter = ⟨run.total, 0⟩ := hstarted ▸ rfl
  have hlabels : 0 + run.labels.length ≤ run.total := by
    rw [Nat.zero_add]
    exact hrun.labels_le
  obtain ⟨text, after, hbars, hhandle, hwidth', hwritten⟩ :=
    exists_handleAll_advance hwidth hconsole' hmeter hrun.total_lt hrun.total_pos hlabels hnone
  rw [hstarted] at hhandle hwidth' hwritten
  exact ⟨_, after, isLine_of_bars hrun hbars, hhandle, hwidth'.trans hconsole, hwritten⟩

/-- Over runs one after the other a line is drawn for each of them. -/
theorem runs_draw_lines {runs : List Run} (hwidth : width < widthLimit)
    (hruns : ∀ run ∈ runs, run.Proper) {reporter : Reporter}
    (hconsole : reporter.width = some (width : Int)) :
    ∃ lines after, List.Forall₂ (IsLine width) runs lines ∧
      reporter.handleAll (runs.flatMap Run.events) = (after, .ok ()) ∧
        after.written = reporter.written ++ String.join lines := by
  induction runs generalizing reporter with
  | nil => exact ⟨[], reporter, .nil, rfl, (String.append_empty).symm⟩
  | cons run runs ih =>
    rw [List.forall_mem_cons] at hruns
    obtain ⟨line, next, hline, hhandle, hconsole', hwritten⟩ :=
      exists_handleAll_run hwidth hconsole hruns.1
    obtain ⟨lines, after, hlines, hrest, hwritten'⟩ := ih hruns.2 hconsole'
    refine ⟨line :: lines, after, .cons hline hlines, ?_, ?_⟩
    · rw [List.flatMap_cons, handleAll_append hhandle, hrest]
    · rw [hwritten', hwritten, String.join_cons, String.append_assoc]

/-- A reporter that was left in the middle of a run draws a line for each of two more runs, one of
which ends early. -/
theorem two_runs_draw_two_lines :
    10 < widthLimit ∧
    (∀ run ∈ [Run.mk 2 ["a.js", "b.js"], Run.mk 3 ["c.js"]], run.Proper) ∧
    ∃ lines after, List.Forall₂ (IsLine 10) [Run.mk 2 ["a.js", "b.js"], Run.mk 3 ["c.js"]] lines ∧
      (Reporter.mk (some 10) ⟨7, 3⟩ "").handleAll
        ([Run.mk 2 ["a.js", "b.js"], Run.mk 3 ["c.js"]].flatMap Run.events) = (after, .ok ()) ∧
      after.written = String.join lines := by
  have hruns : ∀ run ∈ [Run.mk 2 ["a.js", "b.js"], Run.mk 3 ["c.js"]], run.Proper := by
    rw [List.forall_mem_cons, List.forall_mem_cons]
    exact ⟨⟨by decide, by decide +kernel, by decide, by decide⟩,
      ⟨by decide, by decide +kernel, by decide, by decide⟩, List.forall_mem_nil _⟩
  obtain ⟨lines, after, hlines, hhandle, hwritten⟩ :=
    runs_draw_lines (by decide) hruns (show (Reporter.mk (some 10) ⟨7, 3⟩ "").width = _ from rfl)
  refine ⟨by decide, hruns, lines, after, hlines, hhandle, ?_⟩
  rw [hwritten, String.empty_append]

/-- A bar as wide as the limit gets one full cell more than it has cells. With more cells than an
index counts, or with a total of too many digits, a bar is not drawn and the line is not ended. -/
theorem wide_bars_and_long_totals_fail :
    (Meter.mk 1 1).draw? widthLimit "" = .ok ((Meter.mk 1 1).frame (widthLimit + 1) 0 "" ++ "\n") ∧
    (Reporter.mk (some 9223372036854775808) {} "").handleAll (Run.mk 1 ["x"]).events =
      (Reporter.mk (some 9223372036854775808) ⟨1, 1⟩ "", .error .tooManyCells) ∧
    (Reporter.mk (some 10) {} "").handleAll (Run.mk numeralLimit ["x"]).events =
      (Reporter.mk (some 10) ⟨numeralLimit, 1⟩ "", .error .numeralTooLong) := by
  refine ⟨?_, rfl, ?_⟩
  · have hcount : (Meter.mk 1 1).fullCells? widthLimit = .ok ((widthLimit + 1 : ℕ) : Int) := rfl
    have hfront := cells?_of_lt '█' (by decide : widthLimit + 1 < cellLimit)
    have hback : cells? '░' ((widthLimit : Int) - (widthLimit + 1 : ℕ)) = .ok "" := rfl
    have hone := numeral?_of_lt (by decide +kernel : 1 < numeralLimit)
    rw [draw?, if_neg (by decide)]
    exact bind_eq_ok_iff.2 ⟨_, hcount, bind_eq_ok_iff.2 ⟨_, hfront, bind_eq_ok_iff.2 ⟨_, hback,
      bind_eq_ok_iff.2 ⟨_, hone, bind_eq_ok_iff.2 ⟨_, hone, rfl⟩⟩⟩⟩⟩
  · exact handleAll_events_of_numeralLimit_le (Nat.le_refl _) (by decide) "x"

end Reporter

end Minifier
