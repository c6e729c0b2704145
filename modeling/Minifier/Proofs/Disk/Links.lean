import Mathlib.Data.List.Perm.Subperm
import Mathlib.Data.Nat.Find
import Minifier.Proofs.Disk.Tree

/-!
# Paths through links

Following a path and resolving it go through the same links in different ways: the one counts them,
the other remembers them. They agree all the same. Where a path leads to an entry, resolving it ends
at the path without links of that entry (`Disk.realPath_of_locate`): no link on the way can lead
back to itself, since a link that is being followed needs more links than are left for the rest.
-/

set_option autoImplicit false

namespace Minifier

/-- Whether an entry is a link whose text is no path at all. -/
def Entry.isBroken : Entry → Bool
  | .link target => Disk.hasNull (.ofString target)
  | _ => false

namespace Disk

variable {disk : Disk} {here mid place place' : Location} {entry entry' : Entry} {path : Path}
  {names rest : List String} {name target : String} {links links' : Nat} {last : Bool}
  {spot spot' : Spot}

/-! ## Ways and their parts -/

/-- One more link may be followed. -/
theorem Leads.succ (h : Leads disk last links here names spot) :
    Leads disk last (links + 1) here names spot := by
  induction h with
  | here links here => exact .here _ here
  | up _ ih => exact .up ih
  | free links hup hshort hentry => exact .free _ hup hshort hentry
  | directory hup hshort hentry _ ih => exact .directory hup hshort hentry ih
  | file links hup hshort hentry => exact .file _ hup hshort hentry
  | link links hup hshort hentry hlast => exact .link _ hup hshort hentry hlast
  | follow hup hshort hentry hlast _ ih => exact .follow hup hshort hentry hlast ih

theorem Leads.mono (h : Leads disk last links here names spot) (hle : links ≤ links') :
    Leads disk last links' here names spot := by
  induction hle with
  | refl => exact h
  | step _ ih => exact ih.succ

/-- A way leads to one spot, however many links may be followed. -/
theorem Leads.unique (h : Leads disk last links here names spot)
    (h' : Leads disk last links' here names spot') : spot = spot' := by
  have hmax := locateFrom_of_leads (h.mono (Nat.le_max_left links links'))
  rw [locateFrom_of_leads (h'.mono (Nat.le_max_right links links'))] at hmax
  exact (Except.ok.inj hmax).symm

/-- There is a least number of links that a way needs. -/
theorem Leads.exists_least (h : Leads disk last links here names spot) :
    ∃ least ≤ links, Leads disk last least here names spot ∧
      ∀ fewer < least, ¬ Leads disk last fewer here names spot := by
  classical
  have hsome : ∃ links, Leads disk last links here names spot := ⟨links, h⟩
  exact ⟨Nat.find hsome, Nat.find_le h, Nat.find_spec hsome, fun _ => Nat.find_min hsome⟩

/-- A way that is followed to its end does not end at a link. -/
theorem Leads.ne_link (h : Leads disk true links here names (.taken place entry))
    (target : String) : entry ≠ .link target := by
  rintro rfl
  generalize hspot : Spot.taken place (.link target) = spot at h
  induction h with
  | here => cases hspot
  | up _ ih => exact ih hspot
  | free => cases hspot
  | directory _ _ _ _ ih => exact ih hspot
  | file => cases hspot
  | link _ _ _ _ hlast => cases hlast
  | follow _ _ _ _ _ ih => exact ih hspot

/-- A way to an entry is a way along its first names, and from there along the others. -/
theorem Leads.split (h : Leads disk true links here (names ++ rest) (.taken place entry)) :
    ∃ mid between, Leads disk true links here names (.taken mid between) ∧
      (rest = [] ∧ mid = place ∧ between = entry ∨
        between = .directory ∧ Leads disk true links mid rest (.taken place entry)) := by
  -- a way knows the two lists only by the one that they make up; where it reads a name, either
  -- the first list has ended and the rest of the way is the second part, or it loses that name
  generalize hall : names ++ rest = all at h
  generalize hspot : Spot.taken place entry = spot at h
  induction h generalizing names with
  | here links here =>
    obtain ⟨rfl, rfl⟩ := List.append_eq_nil_iff.1 hall
    obtain ⟨rfl, rfl⟩ := Spot.taken.inj hspot
    exact ⟨_, .directory, .here _ _, Or.inl ⟨rfl, rfl, rfl⟩⟩
  | @up links here all spot hleads ih =>
    rcases List.append_eq_cons_iff.1 hall with ⟨rfl, rfl⟩ | ⟨names', rfl, rfl⟩
    · exact ⟨here, .directory, .here _ _, Or.inr ⟨rfl, .up (hspot ▸ hleads)⟩⟩
    · obtain ⟨mid, between, hfirst, hsecond⟩ := ih rfl hspot
      exact ⟨mid, between, .up hfirst, hsecond⟩
  | free links hup hshort hentry => cases hspot
  | @directory links here name all spot hup hshort hentry hleads ih =>
    rcases List.append_eq_cons_iff.1 hall with ⟨rfl, rfl⟩ | ⟨names', rfl, rfl⟩
    · exact ⟨here, .directory, .here _ _,
        Or.inr ⟨rfl, .directory hup hshort hentry (hspot ▸ hleads)⟩⟩
    · obtain ⟨mid, between, hfirst, hsecond⟩ := ih rfl hspot
      exact ⟨mid, between, .directory hup hshort hentry hfirst, hsecond⟩
  | @file here name content links hup hshort hentry =>
    cases hspot
    rcases List.append_eq_cons_iff.1 hall with ⟨rfl, rfl⟩ | ⟨names', rfl, hnil⟩
    · exact ⟨here, .directory, .here _ _, Or.inr ⟨rfl, .file _ hup hshort hentry⟩⟩
    · obtain ⟨rfl, rfl⟩ := List.append_eq_nil_iff.1 hnil.symm
      exact ⟨_, _, .file _ hup hshort hentry, Or.inl ⟨rfl, rfl, rfl⟩⟩
  | link links hup hshort hentry hlast => cases hlast
  | @follow links here name target all spot hup hshort hentry hlast hleads ih =>
    rcases List.append_eq_cons_iff.1 hall with ⟨rfl, rfl⟩ | ⟨names', rfl, rfl⟩
    · exact ⟨here, .directory, .here _ _,
        Or.inr ⟨rfl, .follow hup hshort hentry hlast (hspot ▸ hleads)⟩⟩
    · obtain ⟨mid, between, hfirst, hsecond⟩ := ih (List.append_assoc _ _ _) hspot
      exact ⟨mid, between, .follow hup hshort hentry (by simp) hfirst,
        hsecond.imp_right (And.imp_right Leads.succ)⟩

/-- What comes behind a way to a directory, through no more links, goes on behind it. -/
theorem Leads.append (h : Leads disk last links here names (.taken mid .directory))
    (hrest : Leads disk last 1 mid rest spot) (hne : rest ≠ []) :
    Leads disk last links here (names ++ rest) spot := by
  generalize hspot : Spot.taken mid .directory = middle at h
  induction h with
  | here links here =>
    cases hspot
    exact hrest.mono (Nat.le_add_left 1 links)
  | up _ ih => exact .up (ih hspot)
  | free => cases hspot
  | directory hup hshort hentry _ ih => exact .directory hup hshort hentry (ih hspot)
  | file => cases hspot
  | link => cases hspot
  | follow hup hshort hentry _ _ ih =>
    have hbehind := ih hspot
    rw [List.append_assoc] at hbehind
    exact .follow hup hshort hentry (by simp [hne]) hbehind

/-- A way that ends at a link goes on behind it. -/
theorem Leads.behind_link (hup : name ≠ "..")
    (hentry : disk.entryAt? (here ++ [name]) = some (.link target))
    (h : Leads disk true links here [name] spot) :
    ∃ fewer, links = fewer + 1 ∧ Leads disk true fewer
      (if (Path.ofString target).isAbsolute then [] else here) (Path.ofString target).names
        spot := by
  cases h with
  | up => exact absurd rfl hup
  | free _ _ _ hnone =>
    rw [hentry] at hnone
    cases hnone
  | directory _ _ hdirectory =>
    rw [hentry] at hdirectory
    cases hdirectory
  | file _ _ _ hfile =>
    rw [hentry] at hfile
    cases hfile
  | link _ _ _ _ hlast => cases hlast
  | follow _ _ hlink _ hleads =>
    rw [hentry] at hlink
    cases hlink
    rw [List.append_nil] at hleads
    exact ⟨_, rfl, hleads⟩

/-- A way along the text of a link is a way through the link. -/
theorem Leads.through_link (hup : name ≠ "..") (hshort : ¬ nameLimit < name.utf8ByteSize)
    (hentry : disk.entryAt? (here ++ [name]) = some (.link target))
    (h : Leads disk true links
      (if (Path.ofString target).isAbsolute then [] else here) (Path.ofString target).names spot) :
    Leads disk true (links + 1) here [name] spot :=
  .follow hup hshort hentry (by simp) (by rwa [List.append_nil])

/-- The least number of links behind a link that leads anywhere is too small for the link
itself. -/
theorem Leads.exists_least_behind (hup : name ≠ "..") (hshort : ¬ nameLimit < name.utf8ByteSize)
    (hentry : disk.entryAt? (here ++ [name]) = some (.link target))
    (h : Leads disk true links
      (if (Path.ofString target).isAbsolute then [] else here) (Path.ofString target).names spot) :
    ∃ least ≤ links, Leads disk true least
        (if (Path.ofString target).isAbsolute then [] else here) (Path.ofString target).names spot ∧
      ∀ spot', ¬ Leads disk true least here [name] spot' := by
  obtain ⟨least, hle, hleast, hmin⟩ := h.exists_least
  refine ⟨least, hle, hleast, ?_⟩
  intro spot' hspot
  obtain rfl := hspot.unique (hleast.through_link hup hshort hentry)
  obtain ⟨fewer, rfl, hfewer⟩ := hspot.behind_link hup hentry
  exact hmin fewer (Nat.lt_succ_self fewer) hfewer

/-! ## Ways without links -/

/-- A path leads to an entry, and there is no link on the way. -/
structure Straight (disk : Disk) (path : Path) (place : Location) (entry : Entry) : Prop where
  no_null : hasNull path = false
  anchor : path.anchor ≠ .doubleRoot
  leads : Leads disk true 1 (disk.startOf path) path.names (.taken place entry)

/-- What comes behind a way without links can be followed from its end. -/
theorem locateFrom_append (h : Leads disk true 1 here names (.taken mid .directory))
    (last : Bool) (links : Nat) (rest : List String) :
    locateFrom disk last (links + 1) here (names ++ rest) =
      locateFrom disk last (links + 1) mid rest := by
  have haux : ∀ {many here names spot}, Leads disk true many here names spot → many = 1 →
      spot = .taken mid .directory → locateFrom disk last (links + 1) here (names ++ rest) =
        locateFrom disk last (links + 1) mid rest := by
    intro many here names spot h hmany hspot
    induction h with
    | here _ here =>
      cases hspot
      rfl
    | up _ ih =>
      rw [← ih hmany hspot]
      rfl
    | free => cases hspot
    | directory hup hshort hentry _ ih =>
      rw [List.cons_append, locateFrom_cons_of_directory hup hshort hentry, ih hmany hspot]
    | file => cases hspot
    | link _ _ _ _ hlast => cases hlast
    | follow _ _ _ _ hleads _ =>
      obtain rfl := Nat.succ.inj hmany
      cases hleads
  exact haux h rfl rfl

/-- What comes behind a path without links leads where it leads from the end of the path. -/
theorem Straight.leads_child_iff (h : disk.Straight path here .directory) :
    Leads disk last links (disk.startOf (path.child name)) (path.child name).names spot ↔
      Leads disk last links here [name] spot := by
  cases links with
  | zero => exact ⟨nofun, nofun⟩
  | succ links =>
    rw [← locateFrom_eq_ok_iff, ← locateFrom_eq_ok_iff, ← locateFrom_append h.leads]
    rfl

/-- A path without links leads where its names lead. -/
theorem Straight.landing_eq (h : disk.Straight path place entry)
    (hcwd : ∀ name ∈ disk.workingDirectory, name ≠ "..") : disk.landing path = place := by
  have hplace : ∀ {here names spot}, Leads disk true 1 here names spot →
      spot.place = walk here names := by
    intro here names spot h
    generalize hmany : 1 = many at h
    induction h with
    | here links here => rfl
    | up _ ih => rw [walk_cons_up, ih hmany]
    | free links hup _ _ =>
      rw [walk_cons_of_ne hup]
      rfl
    | directory hup _ _ _ ih => rw [walk_cons_of_ne hup, ih hmany]
    | file links hup _ _ =>
      rw [walk_cons_of_ne hup]
      rfl
    | link links _ _ _ hlast => cases hlast
    | follow _ _ _ _ hleads _ =>
      obtain rfl := Nat.succ.inj hmany
      cases hleads
  rw [landing_eq_walk hcwd, ← hplace h.leads]
  rfl

theorem Straight.unique (h : disk.Straight path place entry)
    (h' : disk.Straight path place' entry') : place = place' ∧ entry = entry' :=
  Spot.taken.inj (h.leads.unique h'.leads)

theorem hasNull_child (hpath : hasNull path = false) (hname : '\x00' ∉ name.toList) :
    hasNull (path.child name) = false := by
  refine hasNull_eq_false fun other hother => ?_
  rcases List.mem_append.1 hother with hother | hother
  · exact not_mem_of_hasNull hpath hother
  · rwa [List.mem_singleton.1 hother]

theorem Straight.child (h : disk.Straight path here .directory) (hname : '\x00' ∉ name.toList)
    (hleads : Leads disk true 1 here [name] (.taken place entry)) :
    disk.Straight (path.child name) place entry :=
  ⟨hasNull_child h.no_null hname, h.anchor, h.leads_child_iff.2 hleads⟩

/-- One level up from a directory. -/
theorem Straight.above (h : disk.Straight path here .directory) :
    disk.Straight (above path) here.dropLast .directory := by
  have hup : disk.Straight (path.child "..") here.dropLast .directory :=
    h.child (by decide) (.up (.here 0 _))
  -- `above` drops the last name only where it is a proper one, and adds `..` elsewhere, except at
  -- a root, which is its own parent
  obtain ⟨anchor, names⟩ := path
  rcases List.eq_nil_or_concat names with rfl | ⟨init, name, rfl⟩
  · cases habsolute : Path.isAbsolute ⟨anchor, []⟩ with
    | true =>
      have hhere : here = [] := by
        have hleads := h.leads
        rw [startOf, habsolute, if_pos rfl] at hleads
        cases hleads
        rfl
      have habove : Disk.above ⟨anchor, []⟩ = ⟨anchor, []⟩ := by simp [Disk.above, habsolute]
      subst hhere
      rwa [habove]
    | false =>
      have habove : Disk.above ⟨anchor, []⟩ = Path.child ⟨anchor, []⟩ ".." := by
        simp [Disk.above, habsolute]
      rwa [habove]
  · rw [List.concat_eq_append] at h hup ⊢
    by_cases hname : name = ".."
    · have habove : Disk.above ⟨anchor, init ++ [name]⟩ =
          Path.child ⟨anchor, init ++ [name]⟩ ".." := by
        simp [Disk.above, hname]
      rwa [habove]
    · have habove : Disk.above ⟨anchor, init ++ [name]⟩ = ⟨anchor, init⟩ := by
        simp [Disk.above, hname, Path.parent]
      have hleads : Leads disk true 1 (disk.startOf ⟨anchor, init⟩) (init ++ [name])
          (.taken here .directory) := h.leads
      obtain ⟨mid, between, hinit, ⟨hnil, -⟩ | ⟨rfl, hlast⟩⟩ := hleads.split
      · cases hnil
      · have hhere : here = mid ++ [name] := by
          cases hlast with
          | up => exact absurd rfl hname
          | directory _ _ _ hend =>
            cases hend
            rfl
          | follow _ _ _ _ hleads => cases hleads
        rw [habove, hhere, List.dropLast_concat]
        refine ⟨hasNull_eq_false fun other hother => ?_, h.anchor, hinit⟩
        exact not_mem_of_hasNull h.no_null (List.mem_append_left _ hother)

/-! ## What a resolution remembers -/

/-- The names of a text that carry anything. -/
abbrev carries (name : String) : Bool :=
  name != "" && name != "."

variable {seen : SeenLinks} {pending : List Location}

/-- Links that have been followed are remembered by paths without links, of the same entries. -/
def Followed (disk : Disk) (seen : SeenLinks) : Prop :=
  ∀ next known, seen.lookup next = some (some known) → ∃ links place entry,
    Leads disk true links (disk.startOf next) next.names (.taken place entry) ∧
      disk.Straight known place entry

theorem followed_nil (disk : Disk) : disk.Followed [] := by
  intro next known hseen
  cases hseen

theorem Followed.cons_none (h : disk.Followed seen) (next : Path) :
    disk.Followed ((next, none) :: seen) := by
  intro other known hseen
  rw [List.lookup_cons] at hseen
  split at hseen
  · cases hseen
  · exact h other known hseen

theorem Followed.cons_some (h : disk.Followed seen) {next known : Path}
    (hleads : Leads disk true links (disk.startOf next) next.names (.taken place entry))
    (hknown : disk.Straight known place entry) :
    disk.Followed ((next, some known) :: seen) := by
  intro other found hseen
  rw [List.lookup_cons] at hseen
  split at hseen
  · next hother =>
    cases hseen
    obtain rfl := eq_of_beq hother
    exact ⟨links, place, entry, hleads, hknown⟩
  · exact h other found hseen

/-- Links that are being followed stand at pending places, and none of them leads anywhere through
as few links as are left. -/
structure Pending (disk : Disk) (links : Nat) (pending : List Location) (seen : SeenLinks) :
    Prop where
  nodup : pending.Nodup
  link : ∀ place ∈ pending, ∃ target, disk.entryAt? place = some (.link target)
  beyond : ∀ here name, here ++ [name] ∈ pending → ∀ spot, ¬ Leads disk true links here [name] spot
  there : ∀ next, seen.lookup next = some none → ∃ path here name,
    disk.Straight path here .directory ∧ next = path.child name ∧ here ++ [name] ∈ pending

theorem pending_nil (disk : Disk) (links : Nat) : disk.Pending links [] [] where
  nodup := List.nodup_nil
  link place hplace := by cases hplace
  beyond here name hname := by cases hname
  there next hseen := by cases hseen

theorem Pending.of_le (h : disk.Pending links pending seen) (hle : links' ≤ links) :
    disk.Pending links' pending seen :=
  ⟨h.nodup, h.link,
    fun here name hmem spot hleads => h.beyond here name hmem spot (hleads.mono hle),
    h.there⟩

theorem Pending.of_there (h : disk.Pending links pending seen) {seen' : SeenLinks}
    (hthere : ∀ next, seen'.lookup next = some none → seen.lookup next = some none) :
    disk.Pending links pending seen' :=
  ⟨h.nodup, h.link, h.beyond, fun next hseen => h.there next (hthere next hseen)⟩

/-- The depth of a resolution leaves room for a link that is not pending. -/
theorem Pending.length_lt (h : disk.Pending links pending seen) (hplace : place ∉ pending)
    (hentry : disk.entryAt? place = some (.link target)) :
    pending.length < disk.entries.length := by
  have hnodup : (place :: pending).Nodup := List.nodup_cons.2 ⟨hplace, h.nodup⟩
  have hkey : ∀ {place target}, disk.entryAt? place = some (.link target) →
      place ∈ disk.entries.map Prod.fst := by
    intro place target hentry
    have hplace : place ≠ [] := by
      rintro rfl
      cases hentry
    exact List.mem_map_of_mem (mem_entries_of_entryAt? hplace hentry)
  have hsubset : place :: pending ⊆ disk.entries.map Prod.fst := by
    rintro other hother
    rcases List.mem_cons.1 hother with rfl | hother
    · exact hkey hentry
    · obtain ⟨target, hentry⟩ := h.link other hother
      exact hkey hentry
  have hle := (hnodup.subperm hsubset).length_le
  rwa [List.length_cons, List.length_map] at hle

/-- What resolving a path that leads to an entry has to give. -/
structure Resolved (disk : Disk) (seen : SeenLinks) (place : Location) (entry : Entry)
    (found : RealPath) : Prop where
  complete : found.complete = true
  straight : disk.Straight found.path place entry
  followed : disk.Followed found.seen
  there : ∀ next, found.seen.lookup next = some none → seen.lookup next = some none

/-- A link that has been followed is no longer being followed. -/
theorem Resolved.there_of_cons {next : Path} {found : RealPath}
    (h : disk.Resolved ((next, none) :: seen) place entry found) (other : Path)
    (hseen : List.lookup other ((next, some found.path) :: found.seen) = some none) :
    seen.lookup other = some none := by
  rw [List.lookup_cons] at hseen
  split at hseen
  · cases hseen
  · next hother =>
    have hthere := h.there other hseen
    rwa [List.lookup_cons, hother] at hthere

/-- What is resolved behind a link that has just been followed is resolved from before it. -/
theorem Resolved.after {next : Path} {found result : RealPath} {between : Entry}
    (hfound : disk.Resolved ((next, none) :: seen) mid between found)
    (hresult : disk.Resolved ((next, some found.path) :: found.seen) place entry result) :
    disk.Resolved seen place entry result :=
  ⟨hresult.complete, hresult.straight, hresult.followed,
    fun other hseen => hfound.there_of_cons other (hresult.there other hseen)⟩

theorem resolveNames_of_filter_eq_nil (follow : SeenLinks → Path → String → RealPath)
    (seen : SeenLinks) (path : Path) (h : names.filter carries = []) :
    resolveNames disk follow seen path names = ⟨path, true, seen⟩ := by
  induction names with
  | nil => rfl
  | cons name rest ih =>
    rw [List.filter_eq_nil_iff, List.forall_mem_cons] at h
    have hname : (name = "" || name = ".") = true := by
      have := h.1
      grind
    rw [resolveNames, if_pos hname]
    exact ih (List.filter_eq_nil_iff.2 h.2)

theorem statLink_child (h : disk.Straight path here .directory) (hup : name ≠ "..")
    (hshort : ¬ nameLimit < name.utf8ByteSize) (hnull : '\x00' ∉ name.toList)
    (hentry : disk.entryAt? (here ++ [name]) = some entry) :
    disk.statLink (path.child name) = .ok entry := by
  have hlocate : disk.locate false (path.child name) = .ok (.taken (here ++ [name]) entry) := by
    refine locate_eq_ok_iff.2 ⟨hasNull_child h.no_null hnull, h.leads_child_iff.2 ?_⟩
    cases entry with
    | file content => exact .file _ hup hshort hentry
    | directory => exact .directory hup hshort hentry (.here _ _)
    | link target => exact .link _ hup hshort hentry rfl
  rw [statLink, hlocate]
  rfl

/-- A link that leads somewhere through no more links than are left is not pending. -/
theorem Pending.ne_some_none (h : disk.Pending links pending seen)
    (hpath : disk.Straight path here .directory) (hleads : Leads disk true links here [name] spot) :
    seen.lookup (path.child name) ≠ some none := by
  intro hseen
  obtain ⟨path', here', name', hpath', hnext, hmem⟩ := h.there _ hseen
  obtain ⟨hanchor, hnames⟩ := Path.mk.inj hnext
  obtain ⟨hnames, hname⟩ := List.append_inj' hnames rfl
  obtain rfl : path = path' := by
    cases path
    cases path'
    exact congrArg₂ Path.mk hanchor hnames
  obtain rfl : name = name' := List.singleton_inj.1 hname
  obtain ⟨rfl, -⟩ := hpath.unique hpath'
  exact h.beyond here name hmem spot hleads

/-- A link to be followed, where fewer links lead it nowhere, becomes pending. -/
theorem Pending.cons (h : disk.Pending links pending seen)
    (hpath : disk.Straight path here .directory)
    (hentry : disk.entryAt? (here ++ [name]) = some (.link target))
    (hleads : Leads disk true links here [name] spot) (hle : links' ≤ links)
    (hleast : ∀ spot, ¬ Leads disk true links' here [name] spot) :
    disk.Pending links' ((here ++ [name]) :: pending) ((path.child name, none) :: seen) where
  nodup := List.nodup_cons.2 ⟨fun hmem => h.beyond here name hmem spot hleads, h.nodup⟩
  link := List.forall_mem_cons.2 ⟨⟨target, hentry⟩, h.link⟩
  beyond here' name' hmem := by
    rcases List.mem_cons.1 hmem with hsame | hmem
    · obtain ⟨rfl, hname⟩ := List.append_inj' hsame rfl
      obtain rfl := List.singleton_inj.1 hname
      exact hleast
    · exact (h.of_le hle).beyond here' name' hmem
  there next hseen := by
    by_cases hnext : next = path.child name
    · exact ⟨path, here, name, hpath, hnext, List.mem_cons_self⟩
    · rw [List.lookup_cons, beq_eq_false_iff_ne.2 hnext] at hseen
      obtain ⟨path', here', name', hpath', hnext', hmem⟩ := h.there next hseen
      exact ⟨path', here', name', hpath', hnext', List.mem_cons_of_mem _ hmem⟩

/-- Resolving names that lead to an entry ends at the path without links of that entry. -/
theorem resolved_resolveNames
    (htext : ∀ place target, disk.entryAt? place = some (.link target) →
      hasNull (.ofString target) = false) {depth : Nat}
    (hpath : disk.Straight path here .directory)
    (hleads : Leads disk true links here (names.filter carries) (.taken place entry))
    (hnull : ∀ name ∈ names.filter carries, '\x00' ∉ name.toList)
    (hfollowed : disk.Followed seen) (hpending : disk.Pending links pending seen)
    (hdepth : disk.entries.length ≤ depth + pending.length) :
    disk.Resolved seen place entry
      (resolveNames disk (resolveText disk depth) seen path names) := by
  -- A link that is met for the first time is followed with fewer links, from another place and
  -- with other names: hence the outer induction on the number of links, for everything else.
  induction links using Nat.strongRecOn generalizing
    depth seen pending path here names place entry with
  | _ links ih =>
  induction names generalizing seen path here with
  | nil =>
    cases hleads
    exact ⟨rfl, hpath, hfollowed, fun _ => id⟩
  | cons name rest ihnames =>
    rw [resolveNames]
    by_cases hcarries : carries name = false
    · rw [List.filter_cons_of_neg (by simp [hcarries])] at hleads hnull
      rw [if_pos (by simpa [carries, imp_iff_not_or] using hcarries)]
      exact ihnames hpath hleads hnull hfollowed hpending
    rw [Bool.not_eq_false] at hcarries
    rw [List.filter_cons_of_pos hcarries] at hleads hnull
    rw [List.forall_mem_cons] at hnull
    rw [if_neg (by simpa [carries] using hcarries)]
    generalize hmore : rest.filter carries = more at hleads hnull
    cases hleads with
    | up hleads =>
      subst hmore
      rw [if_pos rfl]
      exact ihnames hpath.above hleads hnull.2 hfollowed hpending
    | directory hup hshort hentry hleads =>
      subst hmore
      rw [if_neg hup]
      simp only [statLink_child hpath hup hshort hnull.1 hentry]
      have hnext := hpath.child hnull.1 (.directory hup hshort hentry (.here 0 _))
      exact ihnames hnext hleads hnull.2 hfollowed hpending
    | file links hup hshort hentry =>
      rw [if_neg hup]
      simp only [statLink_child hpath hup hshort hnull.1 hentry]
      rw [resolveNames_of_filter_eq_nil _ _ _ hmore]
      exact ⟨rfl, hpath.child hnull.1 (.file 0 hup hshort hentry), hfollowed, fun _ => id⟩
    | link _ _ _ _ hlast => cases hlast
    | @follow links _ _ target _ _ hup hshort hentry hlast hleads =>
      subst hmore
      rw [if_neg hup]
      simp only [statLink_child hpath hup hshort hnull.1 hentry]
      obtain ⟨mid, between, haim, hrest⟩ := hleads.split
      have hthrough := haim.through_link hup hshort hentry
      -- Behind the link the rest of the way goes on from the path that is known of it.
      have hbehind : ∀ {seen known}, disk.Straight known mid between → disk.Followed seen →
          disk.Pending links pending seen → disk.Resolved seen place entry
            (resolveNames disk (resolveText disk depth) seen known rest) := by
        intro seen known hknown hfollowed hpending
        rcases hrest with ⟨hnil, rfl, rfl⟩ | ⟨rfl, hrest⟩
        · rw [resolveNames_of_filter_eq_nil _ _ _ hnil]
          exact ⟨rfl, hknown, hfollowed, fun _ => id⟩
        · exact ih links (Nat.lt_succ_self links) hknown hrest hnull.2 hfollowed hpending hdepth
      cases hseen : seen.lookup (path.child name) with
      | some memory =>
        cases memory with
        | some known =>
          obtain ⟨many, place', entry', hled, hknown⟩ := hfollowed _ known hseen
          obtain ⟨rfl, rfl⟩ := Spot.taken.inj ((hpath.leads_child_iff.1 hled).unique hthrough)
          exact hbehind hknown hfollowed (hpending.of_le (Nat.le_succ links))
        | none => exact absurd hseen (hpending.ne_some_none hpath hthrough)
      | none =>
        -- With the least number of links that leads anywhere behind it, the link itself leads
        -- nowhere, so it may become pending; and there is depth left for one more pending link.
        obtain ⟨least, hle, hleast, hnone⟩ := haim.exists_least_behind hup hshort hentry
        have hroom := hpending.length_lt (fun hmem => hpending.beyond _ _ hmem _ hthrough) hentry
        obtain ⟨depth, rfl⟩ : ∃ less, depth = less + 1 := Nat.exists_eq_add_of_le' (by omega)
        have hfound : disk.Resolved ((path.child name, none) :: seen) mid between
            (resolveText disk (depth + 1) ((path.child name, none) :: seen) path target) := by
          rw [resolveText]
          refine ih least (Nat.lt_succ_of_le hle) ?_ hleast (fun name hname => ?_)
            (hfollowed.cons_none _)
            (hpending.cons hpath hentry hthrough (Nat.le_succ_of_le hle) hnone) ?_
          · split
            · exact ⟨rfl, by decide, .here 0 _⟩
            · exact hpath
          · exact not_mem_of_hasNull (htext _ target hentry) hname
          · rw [List.length_cons]
            omega
        simp only [hfound.complete, if_true]
        exact hfound.after (hbehind hfound.straight
          (hfound.followed.cons_some (hpath.leads_child_iff.2 hthrough) hfound.straight)
          ((hpending.of_le (Nat.le_succ links)).of_there hfound.there_of_cons))

/-! ## Clean paths -/

/-- The paths that are remembered of links are clean. -/
def IsCleanMemory (seen : SeenLinks) : Prop :=
  ∀ next known, seen.lookup next = some (some known) → known.IsClean

theorem IsCleanMemory.cons (h : IsCleanMemory seen) {next : Path} {known? : Option Path}
    (hknown : ∀ known ∈ known?, known.IsClean) : IsCleanMemory ((next, known?) :: seen) := by
  intro other known hseen
  rw [List.lookup_cons] at hseen
  split at hseen
  · exact hknown known (Option.some.inj hseen)
  · exact h other known hseen

theorem isClean_above (hpath : path.IsClean) : (above path).IsClean := by
  have hup : (path.child "..").IsClean := hpath.child (by decide)
  rw [above]
  split
  · split
    · exact hpath
    · exact hup
  · split
    · exact hup
    · exact hpath.parent

theorem isClean_joinRest (hpath : path.IsClean) (rest : List String) :
    (joinRest path rest).IsClean :=
  hpath.join (Path.isClean_ofString _)

theorem isClean_resolveNames {follow : SeenLinks → Path → String → RealPath}
    (hfollow : ∀ seen path text, IsCleanMemory seen → path.IsClean →
      (follow seen path text).path.IsClean ∧ IsCleanMemory (follow seen path text).seen)
    (hseen : IsCleanMemory seen) (hpath : path.IsClean)
    (hnames : ∀ name ∈ names, '/' ∉ name.toList) :
    (resolveNames disk follow seen path names).path.IsClean ∧
      IsCleanMemory (resolveNames disk follow seen path names).seen := by
  induction names generalizing seen path with
  | nil => exact ⟨hpath, hseen⟩
  | cons name rest ih =>
    rw [List.forall_mem_cons] at hnames
    rw [resolveNames]
    split
    · exact ih hseen hpath hnames.2
    next hcarries =>
    split
    · exact ih hseen (isClean_above hpath) hnames.2
    have hnext : (path.child name).IsClean := by
      refine hpath.child ⟨?_, ?_, hnames.1⟩ <;> rintro rfl <;> exact hcarries (by decide)
    dsimp only
    split
    · -- what is remembered of a link is clean, and so is what following it gives
      next target hlink =>
      split
      · next known hknown => exact ih hseen (hseen _ known hknown) hnames.2
      · exact ⟨isClean_joinRest hnext rest, hseen⟩
      · obtain ⟨hfound, hmemory⟩ := hfollow ((path.child name, none) :: seen) path target
          (hseen.cons (by simp)) hpath
        split
        · exact ih (hmemory.cons (by simpa using hfound)) hfound hnames.2
        · exact ⟨isClean_joinRest hfound rest, hmemory⟩
    · exact ih hseen hnext hnames.2

theorem isClean_resolveText (depth : Nat) (hseen : IsCleanMemory seen) (hpath : path.IsClean)
    (text : String) :
    (resolveText disk depth seen path text).path.IsClean ∧
      IsCleanMemory (resolveText disk depth seen path text).seen := by
  induction depth generalizing seen path text with
  | zero => exact ⟨hpath, hseen⟩
  | succ depth ih =>
    rw [resolveText]
    refine isClean_resolveNames (fun seen path text hseen hpath => ih hseen hpath text) hseen ?_ ?_
    · split
      · decide
      · exact hpath
    · intro name hname
      obtain ⟨part, hpart, rfl⟩ := List.mem_map.1 hname
      rw [String.toList_ofList]
      exact not_mem_of_mem_partsBetween hpart

/-- Resolved paths are clean. -/
theorem isClean_realPath (hcwd : ∀ name ∈ disk.workingDirectory, IsPathName name) (path : Path) :
    (disk.realPath path).IsClean := by
  have hmemory : IsCleanMemory [] := by
    intro next known hseen
    cases hseen
  have hhere : Path.here.IsClean := by decide
  have hclean : (resolveText disk (2 * disk.entries.length + 2) [] Path.here
      path.toString).path.IsClean := (isClean_resolveText _ hmemory hhere _).1
  rw [realPath, absolutePath_eq]
  intro name hname
  refine forall_walk_of_forall (by simp) (fun other hother _ => ?_) name hname
  split at hother
  · exact hclean other hother
  · exact (List.mem_append.1 hother).elim (hcwd other) (hclean other)

theorem isClean_of_resolve (hcwd : ∀ name ∈ disk.workingDirectory, IsPathName name) {real : Path}
    (h : disk.resolve path = .ok real) : real.IsClean := by
  have hreal : real = disk.realPath path := by
    unfold resolve at h
    split at h
    · cases h
    · dsimp only at h
      split at h
      · cases h
      · exact (Except.ok.inj h).symm
  rw [hreal]
  exact isClean_realPath hcwd path

/-! ## Trees with links -/

/-- A disk whose entries form a tree: every entry stands once, in a directory and under a proper
name, and the texts of links are paths. The working directory is one of the directories, and the
home of the user is an absolute path. -/
structure IsLinkedTree (disk : Disk) : Prop where
  nodup : (disk.entries.map Prod.fst).Nodup
  ne_nil : ∀ item ∈ disk.entries, item.1 ≠ []
  proper : ∀ item ∈ disk.entries, ∀ name ∈ item.1, IsFileName name
  parent : ∀ item ∈ disk.entries, disk.entryAt? item.1.dropLast = some .directory
  text : ∀ item ∈ disk.entries, item.2.isBroken = false
  workingDirectory : disk.entryAt? disk.workingDirectory = some .directory
  home_isAbsolute : disk.home.isAbsolute = true
  home_isClean : disk.home.IsClean

instance (disk : Disk) : Decidable disk.IsLinkedTree :=
  decidable_of_iff
    ((disk.entries.map Prod.fst).Nodup ∧ (∀ item ∈ disk.entries, item.1 ≠ []) ∧
      (∀ item ∈ disk.entries, ∀ name ∈ item.1, IsFileName name) ∧
      (∀ item ∈ disk.entries, disk.entryAt? item.1.dropLast = some .directory) ∧
      (∀ item ∈ disk.entries, item.2.isBroken = false) ∧
      disk.entryAt? disk.workingDirectory = some .directory ∧
      disk.home.isAbsolute = true ∧ disk.home.IsClean)
    ⟨fun ⟨hnodup, hnil, hproper, hparent, htext, hcwd, habsolute, hclean⟩ =>
      ⟨hnodup, hnil, hproper, hparent, htext, hcwd, habsolute, hclean⟩,
      fun h => ⟨h.nodup, h.ne_nil, h.proper, h.parent, h.text, h.workingDirectory,
        h.home_isAbsolute, h.home_isClean⟩⟩

theorem IsTree.isLinkedTree (htree : disk.IsTree) : disk.IsLinkedTree where
  nodup := htree.nodup
  ne_nil := htree.ne_nil
  proper := htree.proper
  parent := htree.parent
  text item hitem := by
    obtain ⟨place, entry⟩ := item
    cases entry with
    | link target => exact absurd rfl (htree.noLink _ hitem target)
    | file content => rfl
    | directory => rfl
  workingDirectory := htree.workingDirectory
  home_isAbsolute := htree.home_isAbsolute
  home_isClean := htree.home_isClean

namespace IsLinkedTree

variable (htree : disk.IsLinkedTree)

include htree

theorem isFileName (h : disk.entryAt? place = some entry) : ∀ name ∈ place, IsFileName name := by
  by_cases hplace : place = []
  · simp [hplace]
  · exact htree.proper _ (mem_entries_of_entryAt? hplace h)

theorem workingDirectory_ne_up : ∀ name ∈ disk.workingDirectory, name ≠ ".." :=
  fun name hname => (htree.isFileName htree.workingDirectory name hname).ne_up

theorem dropLast_directory (h : disk.entryAt? place = some .directory) :
    disk.entryAt? place.dropLast = some .directory := by
  by_cases hplace : place = []
  · rwa [hplace] at h ⊢
  · exact htree.parent _ (mem_entries_of_entryAt? hplace h)

/-- What stands above an entry is a directory. -/
theorem directory_of_append {below : Location} (hbelow : below ≠ [])
    (h : disk.entryAt? (place ++ below) = some entry) : disk.entryAt? place = some .directory := by
  induction below using List.reverseRecOn generalizing entry with
  | nil => exact absurd rfl hbelow
  | append_singleton below name ih =>
    have hparent := htree.parent _ (mem_entries_of_entryAt? (by simp) h)
    rw [← List.append_assoc, List.dropLast_concat] at hparent
    by_cases hnil : below = []
    · rwa [hnil, List.append_nil] at hparent
    · exact ih hnil hparent

theorem startOf (path : Path) : disk.entryAt? (disk.startOf path) = some .directory := by
  rw [Disk.startOf]
  split
  · rfl
  · exact htree.workingDirectory

/-- At the end of a way from a directory stands what it leads to. -/
theorem entryAt?_of_leads (hhere : disk.entryAt? here = some .directory)
    (h : Leads disk last links here names (.taken place entry)) :
    disk.entryAt? place = some entry := by
  generalize hspot : Spot.taken place entry = spot at h
  induction h with
  | here links here =>
    cases hspot
    exact hhere
  | up _ ih => exact ih (htree.dropLast_directory hhere) hspot
  | free => cases hspot
  | directory _ _ hdirectory _ ih => exact ih hdirectory hspot
  | file links _ _ hentry =>
    cases hspot
    exact hentry
  | link links _ _ hentry _ =>
    cases hspot
    exact hentry
  | follow _ _ _ _ _ ih =>
    refine ih ?_ hspot
    split
    · rfl
    · exact hhere

theorem entryAt?_of_locate (h : disk.locate last path = .ok (.taken place entry)) :
    disk.entryAt? place = some entry :=
  htree.entryAt?_of_leads (htree.startOf path) (locate_eq_ok_iff.1 h).2

/-- Names lead down to an entry, through directories and through no link. -/
theorem leads_down (links : Nat) (hentry : disk.entryAt? (here ++ names) = some entry)
    (hend : last = false ∨ ∀ target, entry ≠ .link target)
    (hhere : names = [] → entry = .directory) :
    Leads disk last (links + 1) here names (.taken (here ++ names) entry) := by
  induction names generalizing here with
  | nil =>
    rw [hhere rfl, List.append_nil]
    exact .here _ _
  | cons name rest ih =>
    have hname := htree.isFileName hentry name (by simp)
    have hshort := Nat.not_lt.2 hname.short
    by_cases hrest : rest = []
    · subst hrest
      cases entry with
      | file content => exact .file _ hname.ne_up hshort hentry
      | directory => exact .directory hname.ne_up hshort hentry (.here _ _)
      | link target =>
        exact .link _ hname.ne_up hshort hentry (hend.resolve_right fun h => h target rfl)
    · rw [← List.singleton_append, ← List.append_assoc] at hentry
      rw [← List.singleton_append (x := name), ← List.append_assoc]
      exact .directory hname.ne_up hshort (htree.directory_of_append hrest hentry)
        (ih hentry fun hnil => absurd hnil hrest)

/-- The path of an entry leads to it. -/
theorem locate_place (h : disk.entryAt? place = some entry)
    (hend : last = false ∨ ∀ target, entry ≠ .link target) :
    disk.locate last ⟨.root, place⟩ = .ok (.taken place entry) := by
  refine locate_eq_ok_iff.2
    ⟨hasNull_eq_false fun name hname => (htree.isFileName h name hname).no_null, ?_⟩
  have hleads : Leads disk last (linkLimit + 1) [] place (.taken ([] ++ place) entry) := by
    refine htree.leads_down linkLimit h hend ?_
    rintro rfl
    cases h
    rfl
  exact hleads

theorem hasNull_target {target : String} (h : disk.entryAt? place = some (.link target)) :
    hasNull (.ofString target) = false := by
  have hplace : place ≠ [] := by
    rintro rfl
    cases h
  exact htree.text _ (mem_entries_of_entryAt? hplace h)

/-- A path that leads to an entry stands for its place. -/
theorem realPath_of_locate (hpath : path.IsClean)
    (h : disk.locate true path = .ok (.taken place entry)) :
    disk.realPath path = ⟨.root, place⟩ := by
  obtain ⟨hnull, hleads⟩ := locate_eq_ok_iff.1 h
  have htoString := Path.ofString_toString hpath
  have hnames : (slashParts path.toString).filter carries = path.names :=
    congrArg Path.names htoString
  -- a path begins at the root or at the working directory, and there is no link so far
  have hbase : disk.Straight (if path.isAbsolute then ⟨.root, []⟩ else Path.here)
      (disk.startOf path) .directory := by
    rw [Disk.startOf]
    split
    · exact ⟨rfl, by decide, .here 0 _⟩
    · exact ⟨rfl, by decide, .here 0 _⟩
  have hresolved : disk.Resolved [] place entry
      (disk.resolveText (2 * disk.entries.length + 2) [] Path.here path.toString) := by
    rw [resolveText, htoString]
    refine resolved_resolveNames (fun _ _ => htree.hasNull_target) hbase (hnames ▸ hleads)
      (fun name hname => ?_) disk.followed_nil (disk.pending_nil (linkLimit + 1)) ?_
    · rw [hnames] at hname
      exact not_mem_of_hasNull hnull hname
    · rw [List.length_nil]
      omega
  rw [realPath, absolutePath_eq, hresolved.straight.landing_eq htree.workingDirectory_ne_up]
  congr 1
  have hanchor := hresolved.straight.anchor
  cases hfound : (resolveText disk (2 * disk.entries.length + 2) [] Path.here path.toString).path
    with
  | mk anchor names =>
    rw [hfound] at hanchor
    cases anchor with
    | working => rfl
    | root => rfl
    | doubleRoot => exact absurd rfl hanchor

/-- A path that leads to an entry can be resolved. -/
theorem resolve_of_locate (hpath : path.IsClean)
    (h : disk.locate true path = .ok (.taken place entry)) :
    disk.resolve path = .ok ⟨.root, place⟩ := by
  obtain ⟨hnull, hleads⟩ := locate_eq_ok_iff.1 h
  have hplace : disk.locate true ⟨.root, place⟩ = .ok (.taken place entry) :=
    htree.locate_place (htree.entryAt?_of_locate h) (.inr hleads.ne_link)
  have hstat : disk.stat ⟨.root, place⟩ = .ok entry := by
    rw [stat, hplace]
    rfl
  rw [resolve, if_neg (by simp [hnull])]
  simp only [htree.realPath_of_locate hpath h, hstat]

end IsLinkedTree

end Disk

end Minifier
