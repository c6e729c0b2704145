import Minifier.Minify.ByName

/-!
# Keeping what cannot be minified

`Transforms.minifyOrKeep` gives the minified text, or the text as it is where a transform fails or a
name is no kind, and reports the failure. It gives a text for every kind, whatever the transforms do
(`exists_minifyOrKeep_known`), and for every label. Only where a kind is given by a name and there
is nothing else to call the text by, the failure cannot be reported and becomes one of its own
(`minifyOrKeep_gives_text_unless_uncaptioned`).
-/

set_option autoImplicit false

namespace Minifier

/-- Nothing to call a text by: its kind is given by a name, and its label is missing or empty. -/
def Uncaptioned (given : GivenKind) (label : Option String) : Prop :=
  (∃ name, given = .named name) ∧ label.getD "" = ""

theorem caption?_eq_none_iff (given : GivenKind) (label : Option String) :
    caption? given label = none ↔ Uncaptioned given label := by
  -- an empty label is as good as none
  have hlabel : (label.filter fun label => !label.isEmpty) = none ↔ label.getD "" = "" := by
    cases label with
    | none => simp
    | some label => simp
  have hname : given.name? = none ↔ ∃ name, given = .named name := by
    cases given with
    | known kind => simp [GivenKind.name?]
    | named name => simp [GivenKind.name?]
  rw [caption?, Option.or_eq_none_iff, hlabel, hname, Uncaptioned, and_comm]

theorem not_uncaptioned_known (kind : Kind) (label : Option String) :
    ¬ Uncaptioned (.known kind) label := by
  rintro ⟨⟨name, hname⟩, -⟩
  exact GivenKind.noConfusion hname

/-! ## The three ways to end -/

section Ends

variable {transforms : Transforms} {given : GivenKind} {label : Option String} {text : Text}

/-- A minified text is given without a report. -/
theorem minifyOrKeep_of_ok {minified : Text} (h : transforms.minify given text = .ok minified) :
    (transforms.minifyOrKeep given label text).run = pure (.ok minified) := by
  rw [Transforms.minifyOrKeep, h]
  rfl

/-- A text that cannot be minified is given as it is, behind a warning that says what it is and
why. -/
theorem minifyOrKeep_of_caption {reason caption : String}
    (h : transforms.minify given text = .error reason)
    (hcaption : caption? given label = some caption) :
    (transforms.minifyOrKeep given label text).run =
      ⟨[⟨.warning, loggerName failureLogger,
            "Minification failed for " ++ caption ++ " (" ++ reason ++
              "); keeping original content"⟩,
          ⟨.debug, loggerName failureLogger, "Transform failure details"⟩],
        .ok text⟩ := by
  rw [Transforms.minifyOrKeep, h]
  simp only [reportFailure, hcaption]
  rfl

/-- Without a caption, nothing is reported and no text is given. -/
theorem minifyOrKeep_of_uncaptioned {reason : String}
    (h : transforms.minify given text = .error reason) (hcaption : caption? given label = none) :
    (transforms.minifyOrKeep given label text).run = pure (.error ⟨⟩) := by
  rw [Transforms.minifyOrKeep, h]
  simp only [reportFailure, hcaption]
  rfl

end Ends

/-- For a kind there is a text, whatever the transforms do and whether or not there is a label. -/
theorem exists_minifyOrKeep_known (transforms : Transforms) (kind : Kind) (label : Option String)
    (text : Text) :
    ∃ given, (transforms.minifyOrKeep (.known kind) label text).run.value = .ok given := by
  cases h : transforms.minify (.known kind) text with
  | ok minified => exact ⟨minified, by rw [minifyOrKeep_of_ok h]; rfl⟩
  | error reason =>
    have hcaption : caption? (.known kind) label ≠ none := by
      intro hnone
      exact not_uncaptioned_known kind label ((caption?_eq_none_iff _ _).1 hnone)
    obtain ⟨caption, hsome⟩ := Option.ne_none_iff_exists'.1 hcaption
    exact ⟨text, by rw [minifyOrKeep_of_caption h hsome]⟩

/-! ## The rules of the kinds -/

theorem minify_of_resolve_ok {given : GivenKind} {kind : Kind} (h : given.resolve = .ok kind)
    (transforms : Transforms) (text : Text) :
    transforms.minify given text = transforms kind text := by
  rw [Transforms.minify, h]
  rfl

theorem minify_of_resolve_error {given : GivenKind} {unknown : UnknownKind}
    (h : given.resolve = .error unknown) (transforms : Transforms) (text : Text) :
    transforms.minify given text = .error unknown.message := by
  rw [Transforms.minify, h]
  rfl

/-- With the rules of the kinds, a text whose kind is given as such is minified without a report.
Runs over files minify in this way, so that they have no use for the reports. -/
theorem minifyOrKeep_rules_known (kind : Kind) (label : Option String) (text : Text) :
    (Transforms.rules.minifyOrKeep (.known kind) label text).run =
      pure (.ok (minify kind text)) := by
  have hresolve : (GivenKind.known kind).resolve = .ok kind := rfl
  apply minifyOrKeep_of_ok
  rw [minify_of_resolve_ok hresolve]
  rfl

theorem resolve_eq_error_iff (given : GivenKind) (unknown : UnknownKind) :
    given.resolve = .error unknown ↔
      given = .named unknown.name ∧ Kind.ofName? unknown.name = none := by
  cases given with
  | known kind => simp [GivenKind.resolve]
  | named name =>
    rw [GivenKind.resolve, Kind.resolve, GivenKind.named.injEq]
    cases hname : Kind.ofName? name with
    | none =>
      constructor
      · intro h
        cases h
        exact ⟨rfl, hname⟩
      · rintro ⟨rfl, -⟩
        rfl
    | some kind =>
      apply iff_of_false
      · exact fun h => by cases h
      · rintro ⟨rfl, hnone⟩
        cases hname.symm.trans hnone

/-- The rules of the kinds minify all texts, unless the kind is given by a name that is none. -/
theorem rules_minify_eq_error_iff (given : GivenKind) (text : Text) (reason : String) :
    Transforms.rules.minify given text = .error reason ↔
      ∃ unknown : UnknownKind, given = .named unknown.name ∧ Kind.ofName? unknown.name = none ∧
        reason = unknown.message := by
  cases h : given.resolve with
  | ok kind =>
    have hok : Transforms.rules kind text = .ok (minify kind text) := rfl
    rw [minify_of_resolve_ok h, hok]
    apply iff_of_false
    · exact fun herror => by cases herror
    · rintro ⟨unknown, hgiven, hname, -⟩
      cases h.symm.trans ((resolve_eq_error_iff given unknown).2 ⟨hgiven, hname⟩)
  | error unknown =>
    rw [minify_of_resolve_error h, Except.error.injEq]
    obtain ⟨rfl, hname⟩ := (resolve_eq_error_iff given unknown).1 h
    constructor
    · intro hreason
      exact ⟨unknown, rfl, hname, hreason.symm⟩
    · intro hunknown
      obtain ⟨unknown', hgiven, -, hreason⟩ := hunknown
      have hsame : unknown = unknown' := by
        cases unknown
        cases unknown'
        exact congrArg UnknownKind.mk (GivenKind.named.inj hgiven)
      rw [hreason, hsame]

/-- A text of a kind is minified or kept, whatever its transform does and whatever label it has. So
is a text whose kind is given by a name, unless its minification fails and there is nothing to call
it by. The rules of the kinds only fail where a name is no kind. -/
theorem minifyOrKeep_gives_text_unless_uncaptioned (transforms : Transforms) (label : Option String)
    (text : Text) :
    (∀ kind, ∃ given, (transforms.minifyOrKeep (.known kind) label text).run.value = .ok given) ∧
      (∀ given minified, transforms.minify given text = .ok minified →
        (transforms.minifyOrKeep given label text).run.value = .ok minified) ∧
      (∀ given reason, transforms.minify given text = .error reason →
        (¬ Uncaptioned given label →
          (transforms.minifyOrKeep given label text).run.value = .ok text) ∧
        (Uncaptioned given label →
          (transforms.minifyOrKeep given label text).run.value = .error ⟨⟩)) ∧
      ∀ given reason, Transforms.rules.minify given text = .error reason ↔
        ∃ unknown : UnknownKind, given = .named unknown.name ∧
          Kind.ofName? unknown.name = none ∧ reason = unknown.message := by
  refine ⟨fun kind => exists_minifyOrKeep_known transforms kind label text, ?_, ?_,
    fun given reason => rules_minify_eq_error_iff given text reason⟩
  · intro given minified h
    rw [minifyOrKeep_of_ok h]
    rfl
  · intro given reason h
    constructor
    · intro hcaptioned
      rw [← caption?_eq_none_iff] at hcaptioned
      obtain ⟨caption, hcaption⟩ := Option.ne_none_iff_exists'.1 hcaptioned
      rw [minifyOrKeep_of_caption h hcaption]
    · intro huncaptioned
      rw [minifyOrKeep_of_uncaptioned h ((caption?_eq_none_iff given label).2 huncaptioned)]
      rfl

/-- A name that is no kind, of a text with an empty label or none, makes the report fail. -/
theorem unlabelled_name_is_not_kept :
    ¬ (∃ given, (Transforms.rules.minifyOrKeep (.named "python") none (.ofString "x")).run.value =
        .ok given) ∧
      ¬ ∃ given, (Transforms.rules.minifyOrKeep (.named "python") (some "")
        (.ofString "x")).run.value = .ok given := by
  have hnone : (Transforms.rules.minifyOrKeep (.named "python") none (.ofString "x")).run.value =
      .error ⟨⟩ := by
    rfl
  have hempty : (Transforms.rules.minifyOrKeep (.named "python") (some "")
      (.ofString "x")).run.value = .error ⟨⟩ := by
    rfl
  rw [hnone, hempty]
  simp

end Minifier
