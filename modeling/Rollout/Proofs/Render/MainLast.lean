import Rollout.Proofs.Render.Exposure
import Rollout.Proofs.Render.Templates

/-!
# Proofs/Render/MainLast — the files of a generation, the main file last

Files whose paths do not meet (`Separate`) are replaced one after the other, and none of them changes what
another one holds.  So the main file, which is the last one, is what it was after any error; and after
success each file has its text, and writing once more changes nothing (`write_main_last`).
-/

namespace Rollout

open FileTree Runs

variable {disk : Disk} {t t' g : FileTree} {path content x y : String} {maxOld : Nat}
  {xs ys : List String} {as : List Artifact} {τ : Type} [TemplateEngine τ]

/-! ## Paths that do not meet -/

/-- **Neither of two paths leads to where the other one leads or passes**, nor above. -/
def Avoids (t : FileTree) (x y : String) : Prop :=
  (∀ q ∈ t.wayInto y, ¬ t.goal x <+: q) ∧ ∀ q ∈ t.wayInto x, ¬ t.goal y <+: q

instance : Decidable (Avoids t x y) := inferInstanceAs (Decidable (_ ∧ _))

/-- **Paths that do not meet**, and go up by `..` only from directories that are there. -/
structure Separate (t : FileTree) (xs : List String) : Prop where
  avoids : xs.Pairwise (Avoids t)
  turns : ∀ x ∈ xs, ∀ q ∈ t.turnsOf x, t.lookup q = some .directory

theorem Avoids.symm (h : Avoids t x y) : Avoids t y x := And.symm h

theorem Avoids.congr (h : Avoids t x y) (hx : g.startOf x = t.startOf x)
    (hy : g.startOf y = t.startOf y) : Avoids g x y := by
  rw [Avoids, wayInto_congr hx, wayInto_congr hy, goal_congr hx, goal_congr hy]
  exact h

namespace Separate

theorem of_append (h : Separate t (ys ++ xs)) : Separate t xs :=
  ⟨(List.pairwise_append.mp h.avoids).2.1, fun x hx => h.turns x (List.mem_append_right _ hx)⟩

theorem perm (h : Separate t xs) (hperm : xs.Perm ys) : Separate t ys :=
  ⟨(hperm.pairwise_iff Avoids.symm).mp h.avoids, fun x hx => h.turns x (hperm.mem_iff.mpr hx)⟩

/-- **Relative paths without `..` do not meet if none continues another one.** -/
theorem of_downward (hdown : ∀ x ∈ xs, Path.isAbsolute x = false ∧ ".." ∉ Path.steps x)
    (hapart : xs.Pairwise fun x y => ¬ Path.steps x <+: Path.steps y ∧ ¬ Path.steps y <+: Path.steps x) :
    Separate t xs := by
  have hstart {x : String} (hx : x ∈ xs) : t.startOf x = t.home :=
    if_neg (by rw [(hdown x hx).1]; exact Bool.false_ne_true)
  have hturns {x : String} (hx : x ∈ xs) : t.turnsOf x = [] := turns_of_downward (hdown x hx).2 _
  have hgoal {x : String} (hx : x ∈ xs) : t.goal x = t.home ++ Path.steps x := by
    rw [goal, reach_of_downward (hdown x hx).2, hstart hx]
  have hmeet {x y : String} {q : Place} (hx : x ∈ xs) (hy : y ∈ xs) (hq : q ∈ t.wayInto y)
      (hxq : t.goal x <+: q) : Path.steps x <+: Path.steps y := by
    have hqy : q <+: t.goal y := by
      rcases List.mem_append.mp hq with hway | hgoal
      · rcases passed_cases hway with ⟨p, hp, -⟩ | ⟨hbelow, -⟩
        · rw [← turnsOf, hturns hy] at hp
          exact absurd hp List.not_mem_nil
        · exact hbelow
      · rw [List.mem_singleton.mp hgoal]
    have hxy := hxq.trans hqy
    rwa [hgoal hx, hgoal hy, List.prefix_append_right_inj] at hxy
  refine ⟨hapart.imp_of_mem fun hx hy h => ⟨?_, ?_⟩, fun x hx q hq => ?_⟩
  · exact fun q hq hxq => h.1 (hmeet hx hy hq hxq)
  · exact fun q hq hyq => h.2 (hmeet hy hx hq hyq)
  · rw [hturns hx] at hq
    exact absurd hq List.not_mem_nil

/-- The paths of a file avoid the other ones. -/
theorem avoids_of_mem (h : Separate t (ys ++ xs)) (hx : x ∈ xs) : ∀ y ∈ ys, Avoids t y x :=
  fun y hy => (List.pairwise_append.mp h.avoids).2.2 y hy x hx

/-- A path that avoids its own versions stays while they are moved. -/
theorem straight (h : Separate t (pathsOf path maxOld ++ xs)) : Straight t path maxOld := by
  intro q hq
  refine ⟨h.turns path (List.mem_append_left _ List.mem_cons_self) q hq, fun k hpos hlt => ?_⟩
  have hversion : Path.numbered path k ∈ draftOf path :: versionsOf path maxOld ++ xs :=
    List.mem_append_left _ (List.mem_cons_of_mem _ (mem_versionsOf hpos hlt.le))
  exact ((List.pairwise_cons.mp h.avoids).1 _ hversion).2 q (turnsOf_subset_wayInto t path hq)

end Separate

/-! ## Replacing one of the files -/

namespace Reworked

variable (h : Reworked path maxOld t g) (hx : ∀ y ∈ pathsOf path maxOld, Avoids t y x)
include h hx

/-- A path that avoids those of the file starts where it started. -/
theorem startOf_eq : g.startOf x = t.startOf x := by
  rw [startOf, startOf]
  split_ifs with habsolute
  · rfl
  · refine h.home fun p hp => ?_
    obtain ⟨y, hy, rfl⟩ := List.mem_map.mp hp
    have haway := (hx y hy).1 _ (startOf_mem_wayInto t x)
    rwa [startOf, if_neg habsolute] at haway

/-- What lies on its way is what it was, or a directory that is new. -/
theorem same_of_mem {q : Place} (hq : q ∈ t.wayInto x) : g.lookup q = t.lookup q ∨
    t.lookup q = none ∧ g.lookup q = some .directory ∧ q <+: t.goal path ∧ q ≠ t.goal path := by
  refine h.same q fun p hp => ?_
  obtain ⟨y, hy, rfl⟩ := List.mem_map.mp hp
  exact (hx y hy).1 q hq

variable (hturns : ∀ q ∈ t.turnsOf x, t.lookup q = some .directory)
include hturns

theorem turns : ∀ q ∈ t.turnsOf x, g.lookup q = some .directory := by
  intro q hq
  rcases h.same_of_mem hx (turnsOf_subset_wayInto t x hq) with heq | ⟨hnone, -⟩
  · rw [heq, hturns q hq]
  · rw [hturns q hq] at hnone
    exact nomatch hnone

/-- **It leads to what it led to.** -/
theorem held_eq (hregular : t.Regular) : g.held x = t.held x := by
  refine hregular.held_congr h.regular (h.startOf_eq hx) (fun q hq => ?_) ?_
  · exact iff_of_true (h.turns hx hturns q hq) (hturns q hq)
  · refine (h.same_of_mem hx (goal_mem_wayInto t x)).resolve_right fun ⟨_, _, habove, _⟩ => ?_
    exact (hx path List.mem_cons_self).2 _ (goal_mem_wayInto t path) habove

end Reworked

/-- **Some paths lead to what they led to**, and do not meet still. -/
structure Untouched (xs : List String) (t g : FileTree) : Prop where
  regular : g.Regular
  separate : Separate g xs
  held : ∀ x ∈ xs, g.held x = t.held x

theorem Untouched.trans (h : Untouched xs t g) (h' : Untouched xs g t') : Untouched xs t t' :=
  ⟨h'.regular, h'.separate, fun x hx => (h'.held x hx).trans (h.held x hx)⟩

theorem Untouched.of_append (ys : List String) (h : Untouched (ys ++ xs) t g) : Untouched xs t g :=
  ⟨h.regular, h.separate.of_append, fun x hx => h.held x (List.mem_append_right _ hx)⟩

/-- **Replacing a file leaves the paths alone that avoid its own.** -/
theorem Reworked.untouched (h : Reworked path maxOld t g) (hregular : t.Regular)
    (hs : Separate t (pathsOf path maxOld ++ xs)) : Untouched xs t g := by
  have hstart {x : String} (hx : x ∈ xs) := h.startOf_eq (hs.avoids_of_mem hx)
  have hturns {x : String} (hx : x ∈ xs) := hs.turns x (List.mem_append_right _ hx)
  refine ⟨h.regular, ⟨hs.of_append.avoids.imp_of_mem fun hx hy hxy => ?_, fun x hx => ?_⟩,
    fun x hx => ?_⟩
  · exact hxy.congr (hstart hx) (hstart hy)
  · rw [turnsOf_congr (hstart hx)]
    exact h.turns (hs.avoids_of_mem hx) (hturns hx)
  · exact h.held_eq (hs.avoids_of_mem hx) (hturns hx) hregular

/-- A file with the new text does not meet the other paths either. -/
theorem Renewed.separate (h : Renewed path content maxOld t g) (hregular : t.Regular)
    (hs : Separate t (pathsOf path maxOld ++ xs)) : Separate g (path :: xs) := by
  have hothers := h.reworked.untouched hregular hs
  obtain ⟨isPrivate, hfile⟩ := h.file
  refine ⟨List.pairwise_cons.mpr ⟨fun x hx => ?_, hothers.separate.avoids⟩,
    List.forall_mem_cons.mpr ⟨?_, hothers.separate.turns⟩⟩
  · have havoids := hs.avoids_of_mem hx
    exact (havoids path List.mem_cons_self).congr h.start (h.reworked.startOf_eq havoids)
  · exact (h.reworked.regular.status_eq_ok_iff.mp (held_eq_some_iff.mp hfile)).2.1

/-- **Replacing one of the files.** -/
theorem replaceFile_runs_apart (content : String) (hregular : disk.now.Regular)
    (hs : Separate disk.now (pathsOf path maxOld ++ xs)) :
    Runs (fun _ => True) (replaceFile path content maxOld) disk
      (EndsIn (fun disk' => Undone path maxOld disk.now disk' ∧ Untouched xs disk.now disk'.now)
        fun _ disk' => Renewed path content maxOld disk.now disk'.now ∧
          Untouched xs disk.now disk'.now) :=
  (replaceFile_runs content hregular hs.straight).monoEnds (fun _ _ => trivial)
    (fun _ _ h => ⟨h, h.reworked.untouched hregular hs⟩)
    fun _ _ _ h => ⟨h, h.reworked.untouched hregular hs⟩

/-! ## Writing one file after the other -/

theorem pathsOfAll_cons (a : Artifact) (as : List Artifact) :
    pathsOfAll (a :: as) = pathsOf a.path a.maxOldFiles ++ pathsOfAll as := rfl

/-- **The text of a file is in its place.** -/
def Artifact.IsIn (a : Artifact) (t : FileTree) : Prop :=
  t.read a.path = .ok (normalised a.content).toUTF8

/-- **After success each file has its text**, and what is not written is left alone in any case. -/
theorem writeArtifacts_runs (hregular : disk.now.Regular)
    (hs : Separate disk.now (pathsOfAll as ++ xs)) :
    Runs (fun _ => True) (writeArtifacts as) disk
      (EndsIn (fun disk' => Untouched xs disk.now disk'.now) fun _ disk' =>
        Untouched xs disk.now disk'.now ∧ ∀ a ∈ as, a.IsIn disk'.now) := by
  induction as generalizing disk xs with
  | nil => exact .pure ⟨⟨hregular, hs, fun _ _ => rfl⟩, nofun⟩
  | cons a as ih =>
    rw [pathsOfAll_cons, List.append_assoc] at hs
    rw [writeArtifacts]
    refine .andThen (replaceFile_runs_apart a.content hregular hs) (fun _ _ h => h.2.of_append _)
      fun _ disk₁ _ hfirst => ?_
    obtain ⟨hrenewed, hrest⟩ := hfirst
    -- From now on its path is one of those that are left alone.
    have hsep : Separate disk₁.now (pathsOfAll as ++ (a.path :: xs)) :=
      (hrenewed.separate hregular hs).perm List.perm_middle.symm
    have huntouched {g : FileTree} (hg : Untouched (a.path :: xs) disk₁.now g) :
        Untouched xs disk.now g := (hrest.of_append _).trans (hg.of_append [a.path])
    refine .andThen (ih hrest.regular hsep) (fun _ _ => huntouched) fun _ disk₂ _ hothers => ?_
    obtain ⟨hg, hall⟩ := hothers
    refine .pure ⟨huntouched hg, List.forall_mem_cons.mpr ⟨?_, hall⟩⟩
    obtain ⟨isPrivate, hfile⟩ := hrenewed.file
    exact read_eq_ok_iff_held.mpr ⟨isPrivate, (hg.held _ List.mem_cons_self).trans hfile⟩

/-- **The last file is what it was after any error.** -/
theorem writeArtifacts_last {last : Artifact} (hregular : disk.now.Regular)
    (hs : Separate disk.now (pathsOfAll (as ++ [last]))) :
    Runs (fun _ => True) (writeArtifacts (as ++ [last])) disk
      (EndsIn (fun disk' => disk'.now.held last.path = disk.now.held last.path)
        fun _ _ => True) := by
  induction as generalizing disk with
  | nil =>
    have hs' : Separate disk.now (pathsOf last.path last.maxOldFiles ++ []) := hs
    rw [List.nil_append, writeArtifacts]
    exact .andThen (replaceFile_runs_apart last.content hregular hs') (fun _ _ h => h.1.file)
      fun _ _ _ _ => .pure trivial
  | cons a as ih =>
    rw [List.cons_append, pathsOfAll_cons] at hs
    have hmem : last.path ∈ pathsOfAll (as ++ [last]) :=
      List.mem_flatMap.mpr ⟨last, List.mem_append_right _ List.mem_cons_self, List.mem_cons_self⟩
    rw [List.cons_append, writeArtifacts]
    refine .andThen (replaceFile_runs_apart a.content hregular hs)
      (fun _ _ h => h.2.held _ hmem) fun _ disk₁ _ hfirst => ?_
    obtain ⟨-, hrest⟩ := hfirst
    refine .andThen ((ih hrest.regular hrest.separate).monoEnds (fun _ => id)
      (fun _ _ h => h.trans (hrest.held _ hmem)) fun _ _ _ => id) (fun _ _ => id)
      fun _ _ _ _ => .pure trivial

/-! ### Writing them once more -/

/-- **A file that has its text is left alone**, even if its reading is struck. -/
theorem replaceFile_runs_of_same (h : disk.now.read path = .ok (normalised content).toUTF8) :
    Runs (· = disk.now) (replaceFile path content maxOld) disk
      (EndsIn (·.now = disk.now) fun _ disk' => disk'.now = disk.now) := by
  unfold replaceFile
  refine .andThen currentContent_runs (fun _ _ => id) fun current disk' _ ⟨hsame, hcurrent⟩ => ?_
  rw [h] at hcurrent
  obtain ⟨hnone, -⟩ | ⟨bytes, hread, rfl⟩ := hcurrent
  · exact nomatch hnone
  rw [if_pos (beq_iff_eq.mpr (congrArg some (Except.ok.inj hread).symm))]
  exact .pure hsame

/-- **Files that have their texts are left alone**, whatever is struck. -/
theorem writeArtifacts_runs_of_isIn (h : ∀ a ∈ as, a.IsIn disk.now) :
    Runs (· = disk.now) (writeArtifacts as) disk
      (EndsIn (·.now = disk.now) fun _ disk' => disk'.now = disk.now) := by
  induction as generalizing disk with
  | nil => exact .pure rfl
  | cons a as ih =>
    obtain ⟨ha, has⟩ := List.forall_mem_cons.mp h
    rw [writeArtifacts]
    refine .andThen (replaceFile_runs_of_same ha) (fun _ _ => id) fun _ disk₁ _ hsame => ?_
    rw [← hsame] at has ⊢
    exact .andThen (ih has) (fun _ _ => id) fun _ disk₂ _ hsame₂ => .pure hsame₂

/-- Without mishaps such a file is said to be unchanged. -/
theorem replaceFile_eq_of_same (hnone : disk.mishaps = [])
    (h : disk.now.read path = .ok (normalised content).toUTF8) :
    (replaceFile path content maxOld : StateM Disk _) disk
      = (.ok (.unchanged path), { disk with past := disk.frames }) := by
  obtain ⟨t, past, mishaps, struck⟩ := disk
  obtain rfl : mishaps = [] := hnone
  have hread : (currentContent path : StateM Disk _) { now := t, past, struck }
      = (.ok (some (normalised content).toUTF8), { now := t, past := t :: past, struck }) := by
    have hread' : (FileSystem.read path : StateM Disk _) { now := t, past, struck }
        = (t.read path, { now := t, past := t :: past, struck }) := rfl
    simp only [currentContent, bind, StateT.bind, hread']
    rw [show t.read path = _ from h]
    rfl
  rw [replaceFile, andThen_of_ok hread, if_pos (beq_self_eq_true _)]
  rfl

/-- **Without mishaps all of them are said to be unchanged.** -/
theorem writeArtifacts_eq_of_isIn (hnone : disk.mishaps = []) (h : ∀ a ∈ as, a.IsIn disk.now) :
    ((writeArtifacts as : StateM Disk _) disk).1 = .ok (as.map fun a => .unchanged a.path) := by
  induction as generalizing disk with
  | nil => rfl
  | cons a as ih =>
    obtain ⟨ha, has⟩ := List.forall_mem_cons.mp h
    rw [writeArtifacts, andThen_of_ok (replaceFile_eq_of_same hnone ha)]
    rcases hrun : (writeArtifacts as : StateM Disk _) { disk with past := disk.frames } with ⟨r, disk'⟩
    obtain rfl : r = _ := (congrArg Prod.fst hrun).symm.trans (ih hnone has)
    rw [andThen_of_ok hrun]
    rfl

/-! ## The files of a generation -/

/-- **The paths that writing a generation is about**: those of its map files, of the file for the request
filter and of the main file. -/
def Layout.pathsFor (l : Layout) (g : Generation) : List String :=
  (g.maps.flatMap fun m => pathsOf (mapPath l.mapsDir m.name) 0) ++
    (pathsOf l.filterFile 0 ++ pathsOf l.configFile l.maxOldFiles)

/-- **The main file is the last one.** -/
theorem Layout.Fills.exists_last {l : Layout} {filter proxy map : τ} {g : Generation}
    {files : List Artifact} (h : l.Fills filter proxy map g files) :
    ∃ others text, files = others ++ [⟨l.configFile, text, l.maxOldFiles⟩] ∧
      pathsOfAll files = l.pathsFor g := by
  obtain ⟨maps, filterText, proxyText, hmaps, -, -, rfl⟩ := h
  have hpaths : pathsOfAll maps = g.maps.flatMap fun m => pathsOf (mapPath l.mapsDir m.name) 0 := by
    generalize g.maps = ms at hmaps
    induction hmaps with
    | nil => rfl
    | cons hfirst _ ih =>
      obtain ⟨text, -, rfl⟩ := hfirst
      rw [pathsOfAll_cons, ih, List.flatMap_cons]
  refine ⟨maps ++ [⟨l.filterFile, filterText, 0⟩], proxyText, by simp, ?_⟩
  rw [pathsOfAll, List.flatMap_append, ← pathsOfAll, hpaths, Layout.pathsFor]
  simp

/-- However often the templates were registered, all three are, or too few. -/
theorem Renderer.parseAll_cases (l : Layout) (ws : List FileTree) :
    (Renderer.parseAll ({ layout := l } : Renderer τ) ws).2.Unready ∨ ∃ filter proxy map : τ,
      (Renderer.parseAll ({ layout := l } : Renderer τ) ws).2 = ofTemplates l filter proxy map := by
  rcases List.eq_nil_or_concat ws with rfl | ⟨before, w, rfl⟩
  · exact .inl (.inl rfl)
  rw [List.concat_eq_append, parseAll_concat]
  have hlayout := layout_parseAll before ({ layout := l } : Renderer τ)
  rcases (parseAll ({ layout := l } : Renderer τ) before).2.parse_cases w with
    ⟨filter, proxy, map, -, hparse⟩ | ⟨e, r, hparse, -, hunready⟩
  · rw [hparse, hlayout]
    exact .inr ⟨filter, proxy, map, rfl⟩
  · rw [hparse]
    exact .inl hunready

/-! ### Writing a generation -/

/-- **Everything is rendered before anything is written, the main file last, and once is enough**, with any
engine and whatever is struck.  The templates of a layout were registered any number of times, and the paths
of a built generation do not meet.  If it cannot be rendered, nothing is changed.  After any error the main
file is what it was.  After success each file has its text.  Writing the generation again changes nothing if
the same texts are rendered, and says so if it is not struck itself; they are the same unless the engine has
others at another time. -/
theorem write_main_last (disk : Disk) {l : Layout} {g : Generation} {ws : List FileTree} {r : Renderer τ}
    {results : List (Except RenderError Unit)} (hg : g.IsBuilt)
    (hparse : Renderer.parseAll { layout := l } ws = (results, r)) (hregular : disk.now.Regular)
    (hs : Separate disk.now (l.pathsFor g)) :
    let run := (r.write g : StateM Disk _) disk
    (∀ e, run.1 = .error e → (∀ path fault, e ≠ .io path fault) → run.2 = disk) ∧
    (∀ e, run.1 = .error e → run.2.now.held l.configFile = disk.now.held l.configFile) ∧
    ∀ rs, run.1 = .ok rs → ∃ as, r.render g = .ok as ∧ (∀ a ∈ as, a.IsIn run.2.now) ∧
      ∀ {τ' : Type} [TemplateEngine τ'] (later : Renderer τ') (mishaps : List (Option Mishap)),
        later.render g = .ok as →
        let again := (later.write g : StateM Disk _) { now := run.2.now, mishaps }
        (∀ f ∈ again.2.frames, f = run.2.now) ∧
          (mishaps = [] → again.1 = .ok (as.map fun a => .unchanged a.path)) := by
  intro run
  cases hrender : r.render g with
  | error e =>
    have hrun : run = (.error e, disk) := by
      simp only [run, Renderer.write, hrender]
      rfl
    rw [hrun]
    exact ⟨fun _ _ _ => rfl, fun _ _ => rfl, by simp⟩
  | ok as =>
    have hwrite {τ' : Type} [TemplateEngine τ'] {later : Renderer τ'} (hlater : later.render g = .ok as) :
        (later.write g : StateM Disk _) = writeArtifacts as := by
      rw [Renderer.write, hlater]
    obtain ⟨others, text, rfl, hpaths⟩ : ∃ others text,
        as = others ++ [⟨l.configFile, text, l.maxOldFiles⟩] ∧ pathsOfAll as = l.pathsFor g := by
      rcases Renderer.parseAll_cases (τ := τ) l ws with hunready | ⟨filter, proxy, map, htemplates⟩
      · rw [hparse] at hunready
        obtain ⟨name, -, herror⟩ := Renderer.render_of_unready hg hunready
        exact absurd (herror.symm.trans hrender) (by simp)
      · rw [hparse] at htemplates
        obtain rfl : r = .ofTemplates l filter proxy map := htemplates
        exact (Renderer.render_ofTemplates_iff.mp hrender).exists_last
    rw [← hpaths] at hs
    have hlast := (writeArtifacts_last hregular hs).ends
    rw [← List.append_nil (pathsOfAll _)] at hs
    have hall := (writeArtifacts_runs hregular hs).ends
    have hio := FailsAtPath.writeArtifacts (others ++ [⟨l.configFile, text, l.maxOldFiles⟩]) disk
    rw [← hwrite hrender] at hlast hall hio
    refine ⟨fun e he hrendering => ?_, fun e he => ?_, fun rs hrs => ?_⟩
    · obtain ⟨path, fault, rfl⟩ := hio e he
      exact absurd rfl (hrendering path fault)
    · change EndsIn _ _ run.1 run.2 at hlast
      rw [he] at hlast
      exact hlast
    · change EndsIn _ _ run.1 run.2 at hall
      rw [hrs] at hall
      refine ⟨_, rfl, hall.2, fun later mishaps hlater => ?_⟩
      rw [hwrite hlater]
      refine ⟨fun f hf => ?_, fun hnone => writeArtifacts_eq_of_isIn hnone hall.2⟩
      have hpasses : Runs _ (writeArtifacts _) { now := run.2.now, mishaps } _ :=
        writeArtifacts_runs_of_isIn hall.2
      exact (hpasses.passes f hf).elim id List.mem_singleton.mp

theorem names_maps_market :
    market.maps.map (·.name) = frontendMapNames ++ ["api_paths", "mail_paths", "web_paths"] := by
  have hmem (id : String) : id ∈ marketState.routedBackends ↔ id ∈ ["api", "mail", "web"] := by
    rw [DesiredState.mem_routedBackends]
    simp [marketState, eq_comm]
    tauto
  have hrouted : marketState.routedBackends = ["api", "mail", "web"] := by
    refine ((List.perm_ext_iff_of_nodup marketState.nodup_routedBackends (by decide)).mpr
      hmem).eq_of_pairwise (fun _ _ _ _ => le_antisymm) ?_ (by decide)
    exact (pairwise_mergeSort_of_key (f := id) (fun _ _ => decide_eq_true_iff) _).imp of_decide_eq_true
  rw [isBuilt_market.names_maps]
  change _ ++ marketState.routedBackends.map _ = _
  rw [hrouted]
  rfl

/-- Three template files, an old main file with a version of its own, and a refused move at the very end. -/
theorem write_main_last_market :
    let l : Layout := { configFile := "haproxy.cfg", configDir := ".", mapsDir := "maps", maxOldFiles := 2
                        proxyTemplate := .file "main.tera", filterTemplate := .file "filter.tera"
                        mapTemplate := .file "map.tera" }
    let sources : FileTree := { entries := [
      (["main.tera"], .file "{{ backends | length }} backends\n".toUTF8 false),
      (["filter.tera"], .file "filter\n".toUTF8 false), (["map.tera"], .file "{{ name }}\n".toUTF8 false)] }
    let t : FileTree := { entries := [(["haproxy.cfg"], .file "old".toUTF8 false),
                                      (["haproxy.cfg.1"], .file "older".toUTF8 false)] }
    let mishaps : List (Option Mishap) := List.replicate 40 none ++ [some { fault := .permission }]
    let r := (Renderer.parseAll ({ layout := l } : Renderer) [({} : FileTree), sources]).2
    market.IsBuilt ∧ t.Regular ∧ Separate t (l.pathsFor market) ∧
    (∃ disk as, (r.write market : StateM Disk _) { now := t }
        = (.ok (as.map fun a => .written a.path), disk) ∧ as.length = 9 ∧
      r.render market = .ok as ∧ (∀ a ∈ as, a.IsIn disk.now) ∧
      disk.now.held "haproxy.cfg.1" = some (.file "old".toUTF8 false) ∧
      disk.now.held "haproxy.cfg.2" = some (.file "older".toUTF8 false) ∧
      ((r.write market : StateM Disk _) { now := disk.now }).1
        = .ok (as.map fun a => .unchanged a.path)) ∧
    ∃ disk, (r.write market : StateM Disk _) { now := t, mishaps }
        = (.error (.io "haproxy.cfg" .permission), disk) ∧
      disk.struck = [.rename "haproxy.cfg.haconf.tmp" "haproxy.cfg"] ∧
      disk.now.held "haproxy.cfg" = some (.file "old".toUTF8 false) := by
  intro l sources t mishaps r
  let names := frontendMapNames ++ ["api_paths", "mail_paths", "web_paths"]
  let files : List Artifact := names.map (fun name => ⟨mapPath "maps" name, name ++ "\n", 0⟩)
    ++ [⟨l.filterFile, "filter\n", 0⟩, ⟨"haproxy.cfg", "3 backends\n", 2⟩]
  have hnames : market.maps.map (·.name) = names := names_maps_market
  have hregular : t.Regular := .of_entries rfl (by decide) (by simp [t])
  have hs : Separate t (l.pathsFor market) := by
    have hpaths : l.pathsFor market = names.flatMap (fun name => pathsOf (mapPath "maps" name) 0)
        ++ (pathsOf l.filterFile 0 ++ pathsOf "haproxy.cfg" 2) := by
      rw [← hnames, List.flatMap_map]
      rfl
    rw [hpaths]
    exact .of_downward (by decide +kernel) (by decide +kernel)
  have hrender : r.render market = .ok files := by
    have htemplates : r = .ofTemplates l [.text "filter\n"]
        [.value (.filtered (.path "backends" []) "length"), .text " backends\n"]
        [.value (.path "name" []), .text "\n"] := rfl
    rw [htemplates, Renderer.render_ofTemplates_iff]
    refine ⟨market.maps.map fun m => ⟨mapPath "maps" m.name, m.name ++ "\n", 0⟩, "filter\n",
      "3 backends\n", ?_, rfl, ?_, ?_⟩
    · rw [List.forall₂_map_right_iff, List.forall₂_same]
      exact fun m _ => ⟨_, rfl, rfl⟩
    · decide +kernel
    · simp only [files, ← hnames, List.map_map]
      rfl
  have hwrite : (r.write market : StateM Disk _) = writeArtifacts files := by
    rw [Renderer.write, hrender]
  have hwritten : let run := (writeArtifacts files : StateM Disk _) { now := t }
      run.1 = .ok (files.map fun a => .written a.path) ∧
        run.2.now.held "haproxy.cfg.1" = some (.file "old".toUTF8 false) ∧
        run.2.now.held "haproxy.cfg.2" = some (.file "older".toUTF8 false) := by decide +kernel
  have hrefused : let run := (writeArtifacts files : StateM Disk _) { now := t, mishaps }
      run.1 = .error (.io "haproxy.cfg" .permission) ∧
        run.2.struck = [.rename "haproxy.cfg.haconf.tmp" "haproxy.cfg"] := by decide +kernel
  refine ⟨isBuilt_market, hregular, hs, ?_, ?_⟩
  · have hlast := write_main_last { now := t } (r := r) isBuilt_market rfl hregular hs
    rw [← hwrite] at hwritten
    generalize (r.write market : StateM Disk _) { now := t } = run at hwritten hlast ⊢
    obtain ⟨as, hrender', hall, hagain⟩ := hlast.2.2 _ hwritten.1
    obtain rfl : files = as := Except.ok.inj (hrender.symm.trans hrender')
    exact ⟨run.2, files, Prod.ext hwritten.1 rfl, rfl, hrender, hall, hwritten.2.1, hwritten.2.2,
      (hagain r [] hrender).2 rfl⟩
  · have hlast := write_main_last { now := t, mishaps } (r := r) isBuilt_market rfl hregular hs
    have hold : t.held "haproxy.cfg" = some (.file "old".toUTF8 false) := by decide +kernel
    rw [← hwrite] at hrefused
    generalize (r.write market : StateM Disk _) { now := t, mishaps } = run
      at hrefused hlast ⊢
    exact ⟨run.2, Prod.ext hrefused.1 rfl, hrefused.2, (hlast.2.1 _ hrefused.1).trans hold⟩

/-- An engine that fills in the time, whatever the template. -/
abbrev clock (now : String) : TemplateEngine Unit where
  parse? _ _ := some ()
  ofParts _ := ()
  evaluate _ _ _ := .ok now

/-- **Paths with different texts meet.**  The main file lies where the file for the request filter does, and
takes its place, though no path is another one, or lies below it.  A main file behind a directory that is not
there leads to another file after an error.  And what an engine fills in with the time is written again. -/
theorem paths_meet_by_walking :
    let g := ({} : DesiredState).described
    let sources : FileTree := { entries := [(["main.tera"], .file "main\n".toUTF8 false),
                                            (["filter.tera"], .file "filter\n".toUTF8 false)] }
    let l : Layout := { configFile := "spoe-modsecurity.conf", configDir := "maps/..", mapsDir := "maps"
                        proxyTemplate := .file "main.tera", filterTemplate := .file "filter.tera" }
    let t : FileTree := { entries := [(["maps"], .directory)] }
    let r := (Renderer.parseAll ({ layout := l } : Renderer) [sources]).2
    let run := (r.write g : StateM Disk _) { now := t }
    let l' : Layout := { configFile := "new/../haproxy.cfg", configDir := ".", mapsDir := "maps"
                         proxyTemplate := .file "main.tera", filterTemplate := .file "filter.tera"
                         maxOldFiles := 1 }
    let t' : FileTree := { entries := [(["haproxy.cfg"], .file "old".toUTF8 false),
                                       (["haproxy.cfg.1"], .directory)] }
    let r' := (Renderer.parseAll ({ layout := l' } : Renderer) [sources]).2
    let run' := (r'.write g : StateM Disk _) { now := t' }
    let timed : Renderer Unit :=
      .ofTemplates { configFile := "haproxy.cfg", configDir := ".", mapsDir := "maps" } () () ()
    let writeAt (time : String) : StateM Disk _ :=
      letI := clock time
      timed.write g
    let noon := writeAt "12:00" { now := t }
    let later := writeAt "12:01" { now := noon.2.now }
    g.IsBuilt ∧ t.Regular ∧ t'.Regular ∧
      ((l.pathsFor g).Nodup ∧
        (∀ x ∈ l.pathsFor g, ∀ y ∈ l.pathsFor g, ¬ (x ++ "/").toList <+: y.toList) ∧
        run.1.isOk = true ∧
        (r.render g).toOption.map (·.contains ⟨l.filterFile, "filter\n", 0⟩) = some true ∧
        run.2.now.read l.filterFile = .ok "main\n".toUTF8) ∧
      (run'.1 = .error (.io "new/../haproxy.cfg" .isDirectory) ∧ t'.held "new/../haproxy.cfg" = none ∧
        run'.2.now.held "new/../haproxy.cfg" = some (.file "old".toUTF8 false)) ∧
      noon.1.isOk = true ∧ noon.2.now.read "haproxy.cfg" = .ok "12:00".toUTF8 ∧
        later.1.isOk = true ∧ later.2.now.read "haproxy.cfg" = .ok "12:01".toUTF8 := by
  refine ⟨DesiredState.Sound.isBuilt (by decide +kernel), .of_entries rfl (by decide) (by simp),
    .of_entries rfl (by decide) (by simp), ?_⟩
  -- The paths and the runs are computed at once, which is faster than part by part.
  decide +kernel

end Rollout
