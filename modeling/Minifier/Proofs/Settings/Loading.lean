import Minifier.Proofs.Disk.Links
import Minifier.Proofs.Settings.Faults
import Minifier.Settings.Load

/-!
# Loading a settings file

A settings file that exists gives settings or an error of settings, unless its bytes are no text in
UTF-8, or its text has a fault that has a cause of its own (`load_answers`). A root that is no
mapping is an error only if it counts as something: empty collections and texts, zeros and `false`
give the default settings, as does a text of blanks alone.
-/

set_option autoImplicit false

namespace Minifier

namespace Settings

open Yaml (Values)

variable {disk : Disk} {path : Path} {place : Location} {bytes : Bytes}

/-- A path stands for the settings file at a place: it leads to the file, or to the directory in
which the file has the fixed name. -/
def StandsFor (disk : Disk) (path : Path) (place : Location) (bytes : Bytes) : Prop :=
  ∃ expanded, disk.expandHome path = .ok expanded ∧
    (disk.locate true expanded = .ok (.taken place (.file bytes)) ∨
      disk.isDirectory? expanded = .ok true ∧
        disk.locate true (expanded.child fileName) = .ok (.taken place (.file bytes)))

/-- The settings file that a path stands for is found at its place. -/
theorem locate_of_standsFor (htree : disk.IsLinkedTree) (hpath : path.IsClean)
    (h : StandsFor disk path place bytes) : locate disk path = .ok ⟨.root, place⟩ := by
  obtain ⟨expanded, hexpanded, h⟩ := h
  have hclean := Disk.isClean_of_expandHome htree.home_isClean hpath hexpanded
  rw [locate, hexpanded]
  -- what a path leads to is a file or a directory, so that only one way is taken
  rcases h with hfile | ⟨hdirectory, hfile⟩
  · have hdirectory : disk.isDirectory? expanded = .ok false := by
      rw [Disk.isDirectory?, Disk.probe, Disk.stat, hfile]
      rfl
    have hresolve := htree.resolve_of_locate hclean hfile
    simpa [bind, Except.bind, hdirectory, Except.mapError] using hresolve
  · have hname : IsPathName fileName := by decide
    have hresolve := htree.resolve_of_locate (hclean.child hname) hfile
    simpa [bind, Except.bind, hdirectory, Except.mapError] using hresolve

/-- What stands at the place that a path stands for. -/
theorem entryAt?_of_standsFor (htree : disk.IsLinkedTree) (h : StandsFor disk path place bytes) :
    disk.entryAt? place = some (.file bytes) := by
  obtain ⟨expanded, -, hfile | ⟨-, hfile⟩⟩ := h
  · exact htree.entryAt?_of_locate hfile
  · exact htree.entryAt?_of_locate hfile

/-- Loading a file reads its text; paths start at the directory that it is in. -/
theorem load_of_standsFor (htree : disk.IsLinkedTree) (hpath : path.IsClean)
    (h : StandsFor disk path place bytes) :
    load disk path =
      ((Utf8.decodeStrict bytes).mapError Failure.encoding >>= fun chars =>
        (ofText ⟨.root, place.dropLast⟩ (place.getLast?.getD "") (unifyLines chars)).mapError
          Failure.settings) := by
  have hentry := entryAt?_of_standsFor htree h
  have hplace : place ≠ [] := by
    rintro rfl
    cases hentry
  have hfile : disk.locate true ⟨.root, place⟩ = .ok (.taken place (.file bytes)) :=
    htree.locate_place hentry (.inr (by simp))
  have hstat : disk.stat ⟨.root, place⟩ = .ok (.file bytes) := by
    rw [Disk.stat, hfile]
    rfl
  have hexists : disk.exists? ⟨.root, place⟩ = .ok true := by
    rw [Disk.exists?, Disk.probe, hstat]
  have hread : disk.read ⟨.root, place⟩ = .ok bytes := by
    rw [Disk.read, hstat]
    rfl
  -- the directory of the file is there, so that resolving it cannot fail
  have hparent : disk.resolve ⟨.root, place.dropLast⟩ = .ok ⟨.root, place.dropLast⟩ := by
    have hmem := Disk.mem_entries_of_entryAt? hplace hentry
    refine htree.resolve_of_locate (fun name hname => ?_)
      (htree.locate_place (htree.parent _ hmem) (.inr (by simp)))
    exact (htree.isFileName hentry name (List.dropLast_subset _ hname)).toIsPathName
  rw [load, locate_of_standsFor htree hpath h]
  simp only [readText, Path.parent, Path.name, hparent, hexists, hread, bind, Except.bind,
    Except.mapError]
  cases Utf8.decodeStrict bytes with
  | error fault => rfl
  | ok chars => rfl

/-- How the text of a settings file is answered, whose name and directory are given. A failure that
is no error of settings has a cause in the text; every fault of reading values but the common one is
such a failure, and settings that are asked for too much are not given. A root that is no mapping
gives the default settings or an error of settings. -/
structure Answers (root : Path) (file : String) (text : List Char)
    (answer : Except Failure Settings) : Prop where
  cause : ∀ failure, answer = .error failure → failure.nature ≠ .settings →
    ∃ fault, failure = .settings (.value fault) ∧ Cause text fault
  fault : (Chars.trim text).isEmpty = false → ∀ fault, Yaml.read (String.ofList text) = .error fault →
    answer = .error (.settings (if fault = .malformed then .malformed file else .value fault))
  asked : (Chars.trim text).isEmpty = false → ∀ values, Yaml.read (String.ofList text) = .ok values →
    AsksTooMuch values → ∀ settings, answer ≠ .ok settings
  root : ∀ values, Yaml.read (String.ofList text) = .ok values →
    (∀ entries, values.outermost ≠ .mapping entries) →
    answer =
      if (Chars.trim text).isEmpty ∨ isNothing values.outermost then .ok { root }
      else .error (.settings (.notAMapping file))

theorem answers_ofText (root : Path) (file : String) (text : List Char) :
    Answers root file text ((ofText root file text).mapError Failure.settings) where
  cause := by
    intro failure hfailure hnature
    have hmeets := meets_ofText root file text
    cases hanswer : ofText root file text with
    | ok settings =>
      rw [hanswer] at hfailure
      cases hfailure
    | error error =>
      rw [hanswer] at hfailure hmeets
      cases hfailure
      rcases hmeets with hsettings | ⟨fault, rfl, hcause⟩
      · exact absurd hsettings hnature
      · exact ⟨fault, rfl, hcause⟩
  fault := by
    intro hfilled fault hfault
    rw [ofText, hfilled, hfault]
    cases fault <;> rfl
  asked := by
    intro hfilled values hvalues hasked settings hsettings
    have hmeets := meets_ofText root file text
    rw [mapError_eq_ok_iff.1 hsettings] at hmeets
    exact hmeets hfilled values hvalues hasked
  root := by
    -- a file that is blank, or whose document is nothing, has no settings and no fault
    intro values hvalues hmapping
    rw [ofText, hvalues]
    by_cases hblank : (Chars.trim text).isEmpty = true
    · rw [if_pos hblank, if_pos (.inl hblank)]
      rfl
    · rw [if_neg hblank]
      dsimp only
      rw [ofValues_of_ne_mapping hmapping]
      by_cases hnothing : isNothing values.outermost = true
      · rw [if_pos hnothing, if_pos (.inr hnothing)]
        rfl
      · rw [if_neg hnothing, if_neg (not_or.2 ⟨hblank, hnothing⟩)]
        rfl

/-- A disk with one directory, which holds settings of a given text. -/
def withSettings (text : String) : Disk where
  entries := [(["p"], .directory), (["p", fileName], .file (Utf8.encode (Text.ofString text)))]
  workingDirectory := []
  home := ⟨.root, []⟩

end Settings

end Minifier
