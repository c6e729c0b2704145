import Mathlib.Data.List.Nodup
import Minifier.Proofs.Comment.Patterns
import Minifier.Proofs.Pattern.Language
import Minifier.Proofs.RuleSet.Selection

/-!
# The tables for Laravel

The rules for Laravel have one table of the paths that are kept and one of the groups that they are
put into. Both name folders, and they agree: a kept path in the folder of a group is claimed by that
group, or by one that has priority over it (`Laravel.kept_files_find_their_group`).

What a group claims is larger than what is kept. The folders and the ending that a kept path must
have are glyphs of one line like any others for the group, which asks for the extension only
(`reads_of_reads_under`). The extension may stand before a line feed that ends the path; both tables
allow for that.
-/

set_option autoImplicit false

namespace Minifier

/-! ## Groups in order of priority -/

/-- A path that a group claims goes to that group or to one before it. -/
theorem Group.classify_mem_take {groups : List Group} {k : Nat} {group : Group} {path : String}
    (hgroup : groups[k]? = some group) (hfinds : group.pattern.finds path = true) :
    Group.classify groups path ∈ (groups.map Group.name).take (k + 1) := by
  induction groups generalizing k with
  | nil => cases hgroup
  | cons first rest ih =>
    rw [List.map_cons, List.take_succ_cons, Group.classify, List.find?_cons]
    cases hfirst : first.pattern.finds path with
    | true => exact List.mem_cons_self
    | false =>
      cases k with
      | zero =>
        obtain rfl := Option.some.inj hgroup
        rw [hfinds] at hfirst
        cases hfirst
      | succ k =>
        exact List.mem_cons_of_mem _ (ih hgroup)

namespace Pattern

variable {before body after : Text}

/-! ## Paths as the tables describe them -/

/-- The glyphs of a folder's name. -/
def nameClass : GlyphClass :=
  ⟨false, [.range 65 90, .range 97 122, .range 48 57, .range 95 95, .range 45 45], .exact, false⟩

/-- Any number of folders, each with the slash behind it. -/
def foldersNode : Node :=
  .repeated 0 none .greedy (.seq (.several nameClass 1 none .greedy) (.one (.only 47)))

/-- What follows in a line up to an ending, with which the text or its last line ends. -/
def endNode (ending : String) : Node :=
  .seq Comment.lineNode (.spelled ending.toList (.place .lastLineEnd))

/-- A path in a folder, with any number of folders in it where they are asked for. -/
def underNode (folder : String) (deep : Bool) (ending : String) : Node :=
  .spelled (folder.toList ++ ['/']) (if deep then .seq foldersNode (endNode ending)
    else endNode ending)

theorem isPlain_underNode (folder : String) (deep : Bool) (ending : String) :
    (underNode folder deep ending).isPlain = true := by
  have hend : (endNode ending).isPlain = true := by
    show (true && (Node.spelled ending.toList (.place .lastLineEnd)).isPlain) = true
    rw [Node.isPlain_spelled]
    rfl
  rw [underNode, Node.isPlain_spelled]
  cases deep with
  | true =>
    show (foldersNode.isPlain && (endNode ending).isPlain) = true
    rw [hend]
    rfl
  | false => exact hend

/-- Folders stand in one line. -/
theorem ne_lineFeed_of_reads_folders (h : foldersNode.Reads before body after) :
    ∀ g ∈ body, g ≠ .char '\n' := by
  obtain ⟨n, -, -, htimes⟩ := h
  refine htimes.forall_mem ?_
  rintro before _ after ⟨name, slash, rfl, ⟨hname, -, -⟩, ⟨g, rfl, hg⟩⟩
  refine List.forall_mem_append.2 ⟨?_, ?_⟩
  · rintro g hmem rfl
    exact absurd (hname _ hmem) (by decide)
  · rintro g' hmem rfl
    obtain rfl := List.mem_singleton.1 hmem
    exact absurd hg (by decide)

theorem reads_endNode_iff {ending : String} :
    (endNode ending).Reads before body after ↔
      ∃ line, body = line ++ ending.toList.map Glyph.char ∧ (∀ g ∈ line, g ≠ .char '\n') ∧
        (after = [] ∨ after = [.char '\n']) := by
  have hline : ∀ g : Glyph, (GlyphClass.allBut [.range 10 10]).contains g.code = true ↔
      g ≠ .char '\n' := by
    intro g
    have hcontains := GlyphClass.contains_allBut '\n' g
    exact hcontains ▸ decide_eq_true_iff
  have hplace : ∀ before : Text, (Cursor.between before after).isAt .lastLineEnd = true ↔
      after = [] ∨ after = [.char '\n'] := by
    intro before
    simp [Cursor.isAt, Cursor.between]
  constructor
  · rintro ⟨line, back, rfl, ⟨hall, -, -⟩, hback⟩
    obtain ⟨rest, rfl, rfl, hat⟩ := reads_spelled_iff.1 hback
    refine ⟨line, ?_, fun g hg => (hline g).1 (hall g hg), (hplace _).1 hat⟩
    rw [List.append_nil]
  · rintro ⟨line, rfl, hall, hafter⟩
    have hmost : ∀ most : Nat, none = some most → line.length ≤ most := by
      rintro most ⟨⟩
    refine ⟨line, _, rfl, ⟨fun g hg => (hline g).2 (hall g hg), Nat.zero_le _, hmost⟩, ?_⟩
    exact reads_spelled_iff.2 ⟨[], (List.append_nil _).symm, rfl, (hplace _).2 hafter⟩

/-- An ending that ends with another one is an ending with the other one, later in the line. -/
theorem reads_endNode_of_suffix {ending tail : String} {front : List Char}
    (hending : ending.toList = front ++ tail.toList) (hfront : '\n' ∉ front) {skipped : Text}
    (hskipped : ∀ g ∈ skipped, g ≠ .char '\n') (h : (endNode ending).Reads before body after)
    (before' : Text) : (endNode tail).Reads before' (skipped ++ body) after := by
  obtain ⟨line, rfl, hline, hafter⟩ := reads_endNode_iff.1 h
  -- what stood before the shorter ending is glyphs of the line like those before it
  refine reads_endNode_iff.2 ⟨skipped ++ (line ++ front.map Glyph.char), ?_, ?_, hafter⟩
  · rw [hending, List.map_append]
    simp only [List.append_assoc]
  · rw [List.forall_mem_append, List.forall_mem_append]
    refine ⟨hskipped, hline, ?_⟩
    rintro g hg rfl
    obtain ⟨c, hc, hchar⟩ := List.mem_map.1 hg
    obtain rfl := Glyph.char.inj hchar
    exact hfront hc

/-- Folders and an ending may be asked for or not: the path ends with the end of the ending all the
same. -/
theorem reads_of_reads_under {folder ending tail : String} {deep : Bool} {front : List Char}
    (hending : ending.toList = front ++ tail.toList) (hfront : '\n' ∉ front)
    (h : (underNode folder deep ending).Reads before body after) :
    (underNode folder false tail).Reads before body after := by
  obtain ⟨rest, rfl, hrest⟩ := reads_spelled_iff.1 h
  refine reads_spelled_iff.2 ⟨rest, rfl, ?_⟩
  cases deep with
  | true =>
    obtain ⟨folders, back, rfl, hfolders, hback⟩ := hrest
    exact reads_endNode_of_suffix hending hfront (ne_lineFeed_of_reads_folders hfolders) hback _
  | false => exact reads_endNode_of_suffix hending hfront (List.forall_mem_nil _) hrest _

/-- The folder that a pattern starts with. -/
def folder (pattern : Pattern) : String :=
  String.ofList (pattern.source.toList.takeWhile (· != '/'))

end Pattern

namespace Laravel

open Pattern

/-! ## The two tables -/

/-- The groups in order of priority, each with the folder that it is for. -/
def groupFolders : List (String × String) :=
  [("models", "Models"), ("services", "Services"), ("events", "Events"),
    ("listeners", "Listeners"), ("controllers", "Controllers")]

theorem groups_eq :
    rules.groups = groupFolders.map fun (name, folder) =>
      ⟨name, ⟨folder ++ "/.*\\.php$", underNode folder false ".php"⟩⟩ := by
  decide +kernel

theorem folders_of_groups :
    (rules.groups.map fun group => (group.name, group.pattern.folder)) = groupFolders := by
  rw [groups_eq]
  decide +kernel

/-- The pattern for what is kept in a folder: whether other folders may follow, and which ending
stands before the extension. -/
def keptPattern (folder : String) (deep : Bool) (ending : String) : Pattern :=
  ⟨folder ++ "/" ++ (if deep then folders else "") ++ ".*" ++ ending ++ "\\.php$",
    underNode folder deep (ending ++ ".php")⟩

/-- What is kept in the folders of groups. -/
def keptForms : List (String × Bool × String) :=
  [("Controllers", true, "Controller"), ("Services", false, "Service"), ("Events", false, "Event"),
    ("Listeners", false, "Listener"), ("Models", true, "")]

theorem including_eq : rules.including = wellFormed included := by
  rw [← table_eq]
  simp only [rules]

theorem folder_of_mem_keptForms :
    ∀ form ∈ keptForms, (keptPattern form.1 form.2.1 form.2.2).folder = form.1 := by
  decide +kernel

/-- In the folders of groups nothing else is kept than what the forms say. -/
theorem mem_including_iff {pattern : Pattern} :
    pattern ∈ rules.including ∧ pattern.folder ∈ groupFolders.map Prod.snd ↔
      ∃ form ∈ keptForms, pattern = keptPattern form.1 form.2.1 form.2.2 := by
  have hcompile : ∀ form ∈ keptForms,
      compile (keptPattern form.1 form.2.1 form.2.2).source =
        .ok (keptPattern form.1 form.2.1 form.2.2) := by decide +kernel
  rw [including_eq]
  constructor
  · rintro ⟨hpattern, hfolder⟩
    obtain ⟨source, hsource, hpattern⟩ := mem_wellFormed_iff.1 hpattern
    obtain rfl := source_of_compile hpattern
    -- sources tell patterns apart, so the two tables need to be compared as they are written only
    have hsources : ∀ source ∈ included,
        String.ofList (source.toList.takeWhile (· != '/')) ∈ groupFolders.map Prod.snd →
        ∃ form ∈ keptForms, (keptPattern form.1 form.2.1 form.2.2).source = source := by
      decide +kernel
    obtain ⟨form, hform, hsame⟩ := hsources _ hsource hfolder
    have hcompiled := hcompile form hform
    rw [hsame, hpattern, Except.ok.injEq] at hcompiled
    exact ⟨form, hform, hcompiled⟩
  · rintro ⟨form, hform, rfl⟩
    have hlisted : ∀ form ∈ keptForms,
        (keptPattern form.1 form.2.1 form.2.2).source ∈ included ∧
          form.1 ∈ groupFolders.map Prod.snd := by decide +kernel
    obtain ⟨hsource, hfolder⟩ := hlisted form hform
    rw [folder_of_mem_keptForms form hform]
    exact ⟨mem_wellFormed_iff.2 ⟨_, hsource, hcompile form hform⟩, hfolder⟩

/-- A group claims what is kept in its folder. -/
theorem isFoundIn_of_isFoundIn {group : Group} {pattern : Pattern} {text : Text}
    (hgroup : group ∈ rules.groups) (hpattern : pattern ∈ rules.including)
    (hfolder : pattern.folder = group.pattern.folder) (hfound : pattern.isFoundIn text = true) :
    group.pattern.isFoundIn text = true := by
  have hgroups : ∀ group ∈ rules.groups, group.pattern.folder ∈ groupFolders.map Prod.snd ∧
      group.pattern.node = underNode group.pattern.folder false ".php" := by
    rw [groups_eq]
    decide +kernel
  obtain ⟨hmem, hclaims⟩ := hgroups group hgroup
  obtain ⟨⟨folder, deep, ending⟩, hform, rfl⟩ :=
    mem_including_iff.1 ⟨hpattern, hfolder ▸ hmem⟩
  have hfront : '\n' ∉ ending.toList :=
    (by decide : ∀ form ∈ keptForms, '\n' ∉ form.2.2.toList) _ hform
  rw [folder_of_mem_keptForms _ hform] at hfolder
  rw [isFoundIn_iff_reads (isPlain_underNode _ _ _)] at hfound
  rw [isFoundIn_iff_reads (hclaims ▸ isPlain_underNode _ _ _), hclaims, ← hfolder]
  obtain ⟨before, body, after, htext, hbody⟩ := hfound
  exact ⟨before, body, after, htext, reads_of_reads_under String.toList_append hfront hbody⟩

/-! ## Kept files and their groups -/

/-- There are five groups, each for a folder in which files are kept. All that is kept in the folder
of a group is claimed by it, so such a file goes to that group or to one that has priority over it:
never to a later one, and never to the group of all other files. -/
theorem kept_files_find_their_group :
    (rules.groups.map fun group => (group.name, group.pattern.folder)) =
        [("models", "Models"), ("services", "Services"), ("events", "Events"),
          ("listeners", "Listeners"), ("controllers", "Controllers")] ∧
      (∀ group ∈ rules.groups, ∃ pattern ∈ rules.including,
        pattern.folder = group.pattern.folder) ∧
      ∀ (k : Nat) (group : Group) (pattern : Pattern), rules.groups[k]? = some group →
        pattern ∈ rules.including → pattern.folder = group.pattern.folder →
        (∀ text : Text, pattern.isFoundIn text = true → group.pattern.isFoundIn text = true) ∧
          ∀ path : String, pattern.finds path = true →
            Group.classify rules.groups path ∈ (rules.groups.map Group.name).take (k + 1) ∧
              Group.classify rules.groups path ∉ (rules.groups.map Group.name).drop (k + 1) ∧
              Group.classify rules.groups path ≠ otherGroup := by
  have hnames : rules.groups.map Group.name = groupFolders.map Prod.fst := by
    rw [groups_eq]
    rfl
  refine ⟨folders_of_groups, ?_, ?_⟩
  · have hkept : ∀ folder ∈ groupFolders.map Prod.snd, ∃ form ∈ keptForms, form.1 = folder := by
      decide
    intro group hgroup
    have hmem : group.pattern.folder ∈ groupFolders.map Prod.snd := by
      rw [← folders_of_groups, List.map_map]
      exact List.mem_map_of_mem hgroup
    obtain ⟨form, hform, hfolder⟩ := hkept _ hmem
    rw [← folder_of_mem_keptForms form hform] at hfolder
    exact ⟨_, (mem_including_iff.2 ⟨form, hform, rfl⟩).1, hfolder⟩
  · intro k group pattern hgroup hpattern hfolder
    have hclaims : ∀ text : Text, pattern.isFoundIn text = true →
        group.pattern.isFoundIn text = true :=
      fun _ => isFoundIn_of_isFoundIn (List.mem_of_getElem? hgroup) hpattern hfolder
    refine ⟨hclaims, fun path hfinds => ?_⟩
    have hmem := Group.classify_mem_take hgroup (hclaims _ hfinds)
    rw [hnames] at hmem ⊢
    refine ⟨hmem, fun hlater => ?_, fun hsame => ?_⟩
    · exact List.disjoint_take_drop (by decide) (Nat.le_refl _) hmem hlater
    · rw [hsame] at hmem
      exact absurd (List.mem_of_mem_take hmem) (by decide)

/-- A controller in a folder of models is kept as a controller, and it goes to the models. -/
theorem kept_controller_goes_to_models :
    ∃ group pattern, rules.groups[4]? = some group ∧ pattern ∈ rules.including ∧
      pattern.folder = group.pattern.folder ∧
      pattern.finds "Models\\Controllers\\v1\\UserController.php" = true ∧
      Group.classify rules.groups "Models\\Controllers\\v1\\UserController.php" ∈
        (rules.groups.map Group.name).take 5 ∧
      Group.classify rules.groups "Models\\Controllers\\v1\\UserController.php" = "models" := by
  have hgroup : rules.groups[4]? = some
      ⟨"controllers", ⟨"Controllers/.*\\.php$", underNode "Controllers" false ".php"⟩⟩ := by
    rw [groups_eq]
    rfl
  have hpattern : keptPattern "Controllers" true "Controller" ∈ rules.including :=
    (mem_including_iff.2 ⟨_, List.mem_cons_self, rfl⟩).1
  have hfolder : (keptPattern "Controllers" true "Controller").folder =
      (⟨"Controllers/.*\\.php$", underNode "Controllers" false ".php"⟩ : Pattern).folder := by
    decide +kernel
  have hfinds : (keptPattern "Controllers" true "Controller").finds
      "Models\\Controllers\\v1\\UserController.php" = true := by
    decide +kernel
  have hkept := kept_files_find_their_group.2.2 4 _ _ hgroup hpattern hfolder
  refine ⟨_, _, hgroup, hpattern, hfolder, hfinds, (hkept.2 _ hfinds).1, ?_⟩
  rw [groups_eq]
  decide +kernel

end Laravel

end Minifier
