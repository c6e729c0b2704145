import Mathlib.Data.List.Basic
import Minifier.Discovery

/-!
# Paths and their texts

A path whose names are names that a text can hold is read back from its text
(`Path.ofString_toString`), and every path that is read from a text is such a path
(`Path.isClean_ofString`).
-/

set_option autoImplicit false

namespace Minifier

/-! ## Parts of a text -/

variable {separator : Char} {part text : List Char}

theorem partsBetween_ne_nil (separator : Char) (text : List Char) :
    partsBetween separator text ≠ [] := by
  cases text with
  | nil => simp [partsBetween]
  | cons c rest =>
    rw [partsBetween]
    split
    · simp
    · split <;> simp

theorem partsBetween_cons_self (separator : Char) (text : List Char) :
    partsBetween separator (separator :: text) = [] :: partsBetween separator text := by
  rw [partsBetween]
  cases hparts : partsBetween separator text with
  | nil => exact absurd hparts (partsBetween_ne_nil separator text)
  | cons first others => simp

theorem partsBetween_cons_of_ne {c : Char} (h : c ≠ separator) {first : List Char}
    {others : List (List Char)} (hparts : partsBetween separator text = first :: others) :
    partsBetween separator (c :: text) = (c :: first) :: others := by
  rw [partsBetween, hparts]
  simp [h]

/-- No part holds the separator. -/
theorem not_mem_of_mem_partsBetween (h : part ∈ partsBetween separator text) :
    separator ∉ part := by
  induction text generalizing part with
  | nil =>
    rw [partsBetween, List.mem_singleton] at h
    simp [h]
  | cons c rest ih =>
    by_cases hc : c = separator
    · rw [hc, partsBetween_cons_self] at h
      rcases List.mem_cons.1 h with rfl | h
      · simp
      · exact ih h
    · cases hparts : partsBetween separator rest with
      | nil => exact absurd hparts (partsBetween_ne_nil separator rest)
      | cons first others =>
        rw [partsBetween_cons_of_ne hc hparts] at h
        rw [hparts] at ih
        rcases List.mem_cons.1 h with rfl | h
        · rw [List.mem_cons, not_or]
          exact ⟨Ne.symm hc, ih List.mem_cons_self⟩
        · exact ih (List.mem_cons_of_mem _ h)

theorem partsBetween_of_not_mem (h : separator ∉ part) : partsBetween separator part = [part] := by
  induction part with
  | nil => rfl
  | cons c rest ih =>
    rw [List.mem_cons, not_or] at h
    exact partsBetween_cons_of_ne (Ne.symm h.1) (ih h.2)

theorem partsBetween_append_cons (h : separator ∉ part) (text : List Char) :
    partsBetween separator (part ++ separator :: text) = part :: partsBetween separator text := by
  induction part with
  | nil => exact partsBetween_cons_self separator text
  | cons c rest ih =>
    rw [List.mem_cons, not_or] at h
    exact partsBetween_cons_of_ne (Ne.symm h.1) (ih h.2)

/-- Names without slashes are read back from their text. -/
theorem slashParts_intercalate {names : List String} (hne : names ≠ [])
    (h : ∀ name ∈ names, '/' ∉ name.toList) : slashParts ("/".intercalate names) = names := by
  rw [slashParts]
  induction names with
  | nil => exact absurd rfl hne
  | cons name rest ih =>
    rw [List.forall_mem_cons] at h
    cases rest with
    | nil =>
      rw [String.intercalate_singleton, partsBetween_of_not_mem h.1]
      simp
    | cons next rest =>
      have hslash : ("/" : String).toList = ['/'] := rfl
      rw [String.intercalate_cons_cons, String.toList_append, String.toList_append, hslash,
        List.append_assoc, List.singleton_append, partsBetween_append_cons h.1, List.map_cons,
        ih (by simp) h.2, String.ofList_toList]

/-! ## Clean paths -/

/-- A name that the text of a path can hold: it is not empty, no single dot, and has no slash. -/
structure IsPathName (name : String) : Prop where
  ne_empty : name ≠ ""
  ne_dot : name ≠ "."
  no_slash : '/' ∉ name.toList

instance (name : String) : Decidable (IsPathName name) :=
  decidable_of_iff (name ≠ "" ∧ name ≠ "." ∧ '/' ∉ name.toList)
    ⟨fun ⟨hempty, hdot, hslash⟩ => ⟨hempty, hdot, hslash⟩,
      fun h => ⟨h.ne_empty, h.ne_dot, h.no_slash⟩⟩

namespace Path

variable {path base : Path} {names : List String}

/-- A path whose names the text of a path can hold. -/
def IsClean (path : Path) : Prop :=
  ∀ name ∈ path.names, IsPathName name

instance (path : Path) : Decidable path.IsClean :=
  inferInstanceAs (Decidable (∀ name ∈ path.names, IsPathName name))

theorem filter_eq_of_isPathName (h : ∀ name ∈ names, IsPathName name) :
    (names.filter fun name => name != "" && name != ".") = names := by
  rw [List.filter_eq_self]
  intro name hname
  simp [(h name hname).ne_empty, (h name hname).ne_dot]

/-- The names of a clean path are those of their text. -/
theorem filter_slashParts_intercalate (h : ∀ name ∈ names, IsPathName name) :
    ((slashParts ("/".intercalate names)).filter fun name => name != "" && name != ".") =
      names := by
  cases names with
  | nil => rfl
  | cons name rest =>
    rw [slashParts_intercalate (by simp) fun name hname => (h name hname).no_slash,
      filter_eq_of_isPathName h]

/-- The text of clean names does not begin with a slash. -/
theorem head?_intercalate_ne (h : ∀ name ∈ names, IsPathName name) :
    ("/".intercalate names).toList.head? ≠ some '/' := by
  cases names with
  | nil => simp
  | cons name rest =>
    have hname := h name List.mem_cons_self
    have hne : name.toList ≠ [] := fun hnil => hname.ne_empty (String.toList_eq_nil_iff.1 hnil)
    obtain ⟨c, chars, hchars⟩ := List.exists_cons_of_ne_nil hne
    have hc : c ≠ '/' := by
      rintro rfl
      exact hname.no_slash (by rw [hchars]; exact List.mem_cons_self)
    cases rest with
    | nil => simp [hchars, hc]
    | cons next rest => simp [hchars, hc]

theorem length_takeWhile_slash {text : List Char} (h : text.head? ≠ some '/') (n : Nat) :
    ((List.replicate n '/' ++ text).takeWhile (· == '/')).length = n := by
  induction n with
  | zero =>
    cases text with
    | nil => rfl
    | cons c rest =>
      have hc : (c == '/') = false := by
        rw [beq_eq_false_iff_ne]
        rintro rfl
        exact h rfl
      simp [hc]
  | succ n ih =>
    rw [List.replicate_succ, List.cons_append, List.takeWhile_cons, if_pos (by rfl),
      List.length_cons, ih]

theorem partsBetween_replicate_append (n : Nat) (text : List Char) :
    partsBetween '/' (List.replicate n '/' ++ text) =
      List.replicate n [] ++ partsBetween '/' text := by
  induction n with
  | zero => rfl
  | succ n ih =>
    rw [List.replicate_succ, List.cons_append, partsBetween_cons_self, ih, List.replicate_succ,
      List.cons_append]

/-- A path is read back from the slashes of its anchor and the text of its names. -/
theorem ofString_eq {text : String} {anchor : Anchor} (h : ∀ name ∈ names, IsPathName name)
    (htext : text.toList = (anchorText anchor).toList ++ ("/".intercalate names).toList) :
    ofString text = ⟨anchor, names⟩ := by
  obtain ⟨n, hslashes⟩ : ∃ n, (anchorText anchor).toList = List.replicate n '/' := by
    cases anchor with
    | working => exact ⟨0, rfl⟩
    | root => exact ⟨1, rfl⟩
    | doubleRoot => exact ⟨2, rfl⟩
  have hlength := length_takeWhile_slash (head?_intercalate_ne h) n
  rw [hslashes] at htext
  have hnames : ((slashParts text).filter fun name => name != "" && name != ".") = names := by
    have hempty : ((List.replicate n ([] : List Char)).map String.ofList).filter
        (fun name => name != "" && name != ".") = [] := by
      rw [List.filter_eq_nil_iff]
      intro name hname
      obtain ⟨chars, hchars, rfl⟩ := List.mem_map.1 hname
      rw [List.eq_of_mem_replicate hchars]
      decide
    rw [slashParts, htext, partsBetween_replicate_append, List.map_append, List.filter_append,
      hempty, List.nil_append]
    exact filter_slashParts_intercalate h
  rw [ofString, hnames, anchorOf, htext, hlength, ← List.length_replicate (n := n), ← hslashes]
  cases anchor <;> rfl

/-- A clean path is read back from its text. -/
theorem ofString_toString (h : path.IsClean) : ofString path.toString = path := by
  obtain ⟨anchor, names⟩ := path
  rw [toString]
  split
  · next hhere =>
    rw [Bool.and_eq_true, decide_eq_true_iff, List.isEmpty_iff] at hhere
    obtain ⟨rfl, rfl⟩ : anchor = .working ∧ names = [] := hhere
    rfl
  · exact ofString_eq h String.toList_append

/-- Names that lead from one place to another are read back from their text. -/
theorem ofString_relativeText (h : ∀ name ∈ names, IsPathName name) :
    ofString (Discovery.relativeText names) = ⟨.working, names⟩ :=
  ofString_eq h rfl

/-- What is read from a text is a clean path. -/
theorem isClean_ofString (text : String) : (ofString text).IsClean := by
  intro name hname
  obtain ⟨hname, hproper⟩ := List.mem_filter.1 hname
  obtain ⟨part, hpart, rfl⟩ := List.mem_map.1 hname
  rw [Bool.and_eq_true, bne_iff_ne, bne_iff_ne] at hproper
  refine ⟨hproper.1, hproper.2, ?_⟩
  rw [String.toList_ofList]
  exact not_mem_of_mem_partsBetween hpart

theorem IsClean.join (hbase : base.IsClean) (hpath : path.IsClean) : (base.join path).IsClean := by
  rw [Path.join]
  split
  · exact hpath
  · intro name hname
    exact (List.mem_append.1 hname).elim (hbase name) (hpath name)

theorem IsClean.child (hpath : path.IsClean) {name : String} (hname : IsPathName name) :
    (path.child name).IsClean := by
  intro other hother
  rcases List.mem_append.1 hother with hother | hother
  · exact hpath other hother
  · rw [List.mem_singleton.1 hother]
    exact hname

theorem IsClean.parent (hpath : path.IsClean) : path.parent.IsClean :=
  fun name hname => hpath name (List.dropLast_subset _ hname)

end Path

end Minifier
