import Minifier.Proofs.Run.Survey

/-!
# What a file becomes, and what that does to the disk

A file is read, minified, and, unless all files go into one, written. What it becomes depends on the
disk that its turn finds and on nothing else: `attempt` says what minifying makes of it, and
`delivery` what writing it makes of the outcome and of the disk. A turn gives just that
(`Run.eq_of_gives_handling`). A run over one file by itself does the same with it
(`Run.single_cases`).
-/

set_option autoImplicit false

namespace Minifier

namespace Run

open Job

variable {combine : Bool} {rules : Option RuleSet} {source target : Path} {output : Option Path}
  {file : SourceFile} {outcome result : Outcome} {s t : Session}

/-! ## One file -/

/-- The path that a file is written to below a directory. -/
def outputOf (target : Path) (file : SourceFile) : Path :=
  target.join (Path.ofString file.relative)

/-- What becomes of the text of a file: its minified text, or nothing when a rule set rejects it. -/
def madeOf (rules : Option RuleSet) (file : SourceFile) (content : Text) : Option Text :=
  match rules with
  | none => some (minify file.kind content)
  | some rules => (evaluate rules (minify rules.kind) file.relative content).value

/-- What a file becomes before it is written. -/
def attempt (rules : Option RuleSet) (file : SourceFile) (disk : Disk) : Outcome :=
  match disk.readProtected file.path with
  | .error _ => if rules.isSome then .skipped else .failed
  | .ok bytes =>
    match madeOf rules file (Utf8.decode bytes) with
    | some minified => .done (Utf8.decode bytes) minified
    | none => .skipped

/-- What writing a minified file makes of its outcome and of the disk. -/
def delivery (target : Path) (file : SourceFile) (outcome : Outcome) (disk : Disk) :
    Outcome × Disk :=
  match outcome with
  | .done _ minified =>
    let saved := disk.save (outputOf target file) (Utf8.encode minified)
    (if saved.1.isOk then outcome else .failed, saved.2)
  | _ => (outcome, disk)

/-- What a file becomes in its turn, and the disk that it leaves. -/
def settled (combine : Bool) (rules : Option RuleSet) (target : Path) (file : SourceFile)
    (disk : Disk) : Outcome × Disk :=
  if combine then (attempt rules file disk, disk)
  else delivery target file (attempt rules file disk) disk

theorem steady_minifyFile (rules : Option RuleSet) (hlog : s.log.file = none)
    (h : ∀ error, s.disk.readProtected file.path = .error error → error.isFromDisk = true) :
    Steady (minifyFile rules file) s (attempt rules file s.disk) := by
  have hread := steady_read hlog h
  rw [attempt]
  cases rules with
  | none =>
    refine hread.bind fun t hstill => ?_
    cases s.disk.readProtected file.path with
    | error error => exact steady_pure hstill.log _
    | ok bytes => exact steady_pure hstill.log _
  | some rules =>
    refine hread.bind fun t hstill => ?_
    cases s.disk.readProtected file.path with
    | error error => exact steady_pure hstill.log _
    | ok bytes =>
      refine (steady_logged hstill.log _).bind fun u hstill' => ?_
      simp only [madeOf]
      cases (evaluate rules (minify rules.kind) file.relative (Utf8.decode bytes)).value with
      | some minified => exact steady_pure hstill'.log _
      | none =>
        exact (steady_note hstill'.log _ _).bind fun v hstill'' => steady_pure hstill''.log _

theorem eq_of_gives_minifyFile (hlog : s.log.file = none)
    (h : Gives (minifyFile rules file) s outcome t) :
    outcome = attempt rules file s.disk ∧ s.Still t := by
  have hread : ∃ content u, Gives (read file.path) s content u := by
    cases rules with
    | none =>
      obtain ⟨content, u, hread, -⟩ := gives_bind_iff.1 h
      exact ⟨content, u, hread⟩
    | some rules =>
      obtain ⟨content, u, hread, -⟩ := gives_bind_iff.1 h
      exact ⟨content, u, hread⟩
  obtain ⟨content, u, hread⟩ := hread
  exact (steady_minifyFile rules hlog (isFromDisk_of_gives_read hread)).unique h

theorem exists_gives_deliver (target : Path) (file : SourceFile) (outcome : Outcome)
    (hlog : s.log.file = none)
    (h : ∀ content minified, outcome = .done content minified → ∀ error,
      (s.disk.save (outputOf target file) (Utf8.encode minified)).1 = .error error →
        error.isFromDisk = true) :
    ∃ t, Gives (deliver target file outcome) s (delivery target file outcome s.disk).1 t ∧
      s.Abides t ∧ t.disk = (delivery target file outcome s.disk).2 := by
  cases outcome with
  | skipped => exact ⟨s, gives_pure_iff.2 ⟨rfl, rfl⟩, ⟨rfl, rfl, rfl, hlog⟩, rfl⟩
  | failed => exact ⟨s, gives_pure_iff.2 ⟨rfl, rfl⟩, ⟨rfl, rfl, rfl, hlog⟩, rfl⟩
  | done content minified =>
    obtain ⟨t, hwrite, habides, hdisk⟩ := exists_gives_write hlog (h content minified rfl)
    refine ⟨t, gives_bind_iff.2 ⟨_, t, hwrite, ?_⟩, habides, hdisk⟩
    simp only [delivery]
    cases (s.disk.save (outputOf target file) (Utf8.encode minified)).1.isOk with
    | true => exact gives_pure_iff.2 ⟨rfl, rfl⟩
    | false => exact gives_pure_iff.2 ⟨rfl, rfl⟩

theorem eq_of_gives_deliver (hlog : s.log.file = none)
    (h : Gives (deliver target file outcome) s result t) :
    result = (delivery target file outcome s.disk).1 ∧ s.Abides t ∧
      t.disk = (delivery target file outcome s.disk).2 := by
  have hsave : ∀ content minified, outcome = .done content minified → ∀ error,
      (s.disk.save (outputOf target file) (Utf8.encode minified)).1 = .error error →
        error.isFromDisk = true := by
    rintro content minified rfl
    obtain ⟨written, u, hwrite, -⟩ := gives_bind_iff.1 h
    exact isFromDisk_of_gives_write hwrite
  obtain ⟨u, hgives, habides, hdisk⟩ := exists_gives_deliver target file outcome hlog hsave
  obtain ⟨rfl, rfl⟩ := h.unique hgives
  exact ⟨rfl, habides, hdisk⟩

/-- A turn gives what the disk makes of the file, and leaves what writing makes of the disk. -/
theorem eq_of_gives_handling (hlog : s.log.file = none)
    (h : Gives (handling combine rules target file) s outcome t) :
    outcome = (settled combine rules target file s.disk).1 ∧ s.Abides t ∧
      t.disk = (settled combine rules target file s.disk).2 := by
  cases combine with
  | true =>
    obtain ⟨rfl, hstill⟩ := eq_of_gives_minifyFile hlog h
    exact ⟨rfl, hstill.toAbides, hstill.disk⟩
  | false =>
    obtain ⟨attempted, u, hminify, hdeliver⟩ := gives_bind_iff.1 h
    obtain ⟨rfl, hstill⟩ := eq_of_gives_minifyFile hlog hminify
    obtain ⟨rfl, habides, hdisk⟩ := eq_of_gives_deliver hstill.log hdeliver
    rw [hstill.disk] at hdisk ⊢
    exact ⟨rfl, hstill.toAbides.trans habides, hdisk⟩

/-! ## A run over one file -/

/-- The path that one file by itself is written to. -/
def targetOf (source : Path) (output : Option Path) : Path :=
  (output.getD (source.parent.child outputName)).child source.name

/-- What is reported of one file that was read, and then written or not. -/
def reportOfOne (target : Path) (content minified : Text) (written : Bool) : Summary :=
  if written then {
    total := 1, succeeded := 1
    bytesSaved := bytesSaved content.byteSize minified.byteSize
    outputPath := some target, outputSize := some minified.byteSize }
  else { total := 1, error := some ("Failed to write minified file: " ++ target.toString) }

/-- What one file became is saved, and the report says whether it was. -/
theorem eq_of_gives_saving {content minified : Text} {message : String} {summary : Summary}
    (hlog : s.log.file = none)
    (h : Gives (do
      if ← write target minified then
        note .info message
        return reportOfOne target content minified true
      else return reportOfOne target content minified false) s summary t) :
    s.Abides t ∧
      summary = reportOfOne target content minified
        (s.disk.save target (Utf8.encode minified)).1.isOk ∧
      t.disk = (s.disk.save target (Utf8.encode minified)).2 := by
  obtain ⟨written, u, hwrite, h⟩ := gives_bind_iff.1 h
  obtain ⟨hwritten, habides, hdisk⟩ := eq_of_gives_write hlog hwrite
  rw [← hwritten, ← hdisk]
  cases written with
  | true =>
    obtain ⟨_, v, hnote, h⟩ := gives_bind_iff.1 h
    obtain ⟨rfl, rfl⟩ := gives_pure_iff.1 h
    have hstill := (reads_note _ _).still habides.log hnote
    exact ⟨habides.trans hstill.toAbides, rfl, hstill.disk⟩
  | false =>
    obtain ⟨rfl, rfl⟩ := gives_pure_iff.1 h
    exact ⟨habides, rfl, rfl⟩

/-- A run over one file refuses it, fails to read it, or saves what it becomes. -/
theorem single_cases (hlog : s.log.file = none) {summary : Summary}
    (h : Gives (single source output) s summary t) :
    (∃ message, summary = { error := some message } ∧ s.Still t ∧
        ∀ place, s.disk.expandHome source = .ok place → s.disk.isFile? place = .ok true →
          Kind.ofPath? place = none) ∨
      (∃ message place error, summary = { total := 1, error := some message } ∧ s.Still t ∧
        s.disk.expandHome source = .ok place ∧ s.disk.readProtected place = .error error) ∨
      ∃ place kind bytes, s.disk.expandHome source = .ok place ∧ Kind.ofPath? place = some kind ∧
        s.disk.readProtected place = .ok bytes ∧ s.Abides t ∧
        summary = reportOfOne (targetOf place output) (Utf8.decode bytes)
          (minify kind (Utf8.decode bytes)) (s.disk.save (targetOf place output)
            (Utf8.encode (minify kind (Utf8.decode bytes)))).1.isOk ∧
        t.disk = (s.disk.save (targetOf place output)
          (Utf8.encode (minify kind (Utf8.decode bytes)))).2 := by
  obtain ⟨place, u, hexpand, h⟩ := gives_bind_iff.1 h
  have hplace := hexpand.expandHome hlog
  have hstill := (reads_ask _).still hlog hexpand
  obtain ⟨isFile, v, hask, h⟩ := gives_bind_iff.1 h
  have hanswer := (reads_ask _).answer_eq hstill.log hask
  rw [hstill.view_eq] at hanswer
  have hisFile : s.disk.isFile? place = .ok isFile := mapError_eq_ok_iff.1 hanswer
  have hstill := hstill.trans ((reads_ask _).still hstill.log hask)
  cases isFile with
  | false =>
    -- there is no such file, so the first alternative says nothing of its kind
    obtain ⟨rfl, hrefused⟩ := ((reads_refuse _).steady hstill.log rfl).unique h
    refine Or.inl ⟨_, rfl, hstill.trans hrefused, fun other hother hfile => ?_⟩
    cases hother.symm.trans hplace
    cases hisFile.symm.trans hfile
  | true =>
    simp only [Bool.not_true, Bool.false_eq_true, if_false] at h
    cases hkind : Kind.ofPath? place with
    | none =>
      simp only [hkind] at h
      obtain ⟨rfl, hrefused⟩ := ((reads_refuse _).steady hstill.log rfl).unique h
      refine Or.inl ⟨_, rfl, hstill.trans hrefused, fun other hother _ => ?_⟩
      cases hother.symm.trans hplace
      exact hkind
    | some kind =>
      simp only [hkind] at h
      obtain ⟨content, w, hread, h⟩ := gives_bind_iff.1 h
      obtain ⟨rfl, hkept⟩ :=
        (steady_read hstill.log (isFromDisk_of_gives_read hread)).unique hread
      rw [hstill.disk] at h
      have hstill := hstill.trans hkept
      cases hbytes : s.disk.readProtected place with
      | error error =>
        rw [hbytes] at h
        obtain ⟨rfl, rfl⟩ := gives_pure_iff.1 h
        exact Or.inr (Or.inl ⟨_, place, error, rfl, hstill, hplace, hbytes⟩)
      | ok bytes =>
        rw [hbytes] at h
        obtain ⟨habides, hsummary, hdisk⟩ := eq_of_gives_saving hstill.log h
        rw [hstill.disk] at hsummary hdisk
        exact Or.inr (Or.inr ⟨place, kind, bytes, hplace, hkind, hbytes,
          hstill.toAbides.trans habides, hsummary, hdisk⟩)

end Run

end Minifier
