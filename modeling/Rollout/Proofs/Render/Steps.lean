import Mathlib.Tactic.SplitIfs
import Rollout.Render.Replace
import Rollout.System.Tree

/-!
# Proofs/Render/Steps — what the steps of replacing a file do

`replaceFile` goes from step to step as long as they succeed.  Each of them is said once, as an equivalence:
it succeeds and leaves a file tree exactly if the operations that it is made of succeed one after the other
and the last one leaves that tree (`keepVersion_eq_ok_iff`, `commitDraft_eq_ok_iff`,
`replaceFile_eq_ok_iff`).
-/

namespace Rollout

open FileTree

variable {t t' : FileTree} {path : String} {u : Unit} {maxOld : Nat}

/-! ## Going on after success -/

/-- A step that does nothing succeeds. -/
theorem done_eq_ok_iff {σ ε : Type} {w w' : σ} :
    ((.ok (), w) : Except ε Unit × σ) = (.ok u, w') ↔ w = w' :=
  ⟨congrArg Prod.snd, fun h => by rw [h]⟩

/-- A step that failed did not succeed. -/
theorem failed_ne_ok {σ ε α : Type} {w w' : σ} {e : ε} {a : α} :
    ((.error e, w) : Except ε α × σ) ≠ (.ok a, w') := fun h => nomatch congrArg Prod.fst h

theorem andThen_eq_ok_iff {σ ε α β : Type} {step : StateM σ (Except ε α)}
    {next : α → StateM σ (Except ε β)} {w w' : σ} {b : β} :
    andThen step next w = (.ok b, w') ↔ ∃ a v, step w = (.ok a, v) ∧ next a v = (.ok b, w') := by
  simp only [andThen, bind, StateT.bind]
  rcases step w with ⟨r, v⟩
  cases r with
  | error e => exact ⟨fun h => absurd h failed_ne_ok, fun ⟨_, _, h, _⟩ => absurd h failed_ne_ok⟩
  | ok a =>
    constructor
    · exact fun h => ⟨a, v, rfl, h⟩
    · rintro ⟨a', v', hstep, hnext⟩
      obtain rfl : a = a' := Except.ok.inj (congrArg Prod.fst hstep)
      obtain rfl : v = v' := congrArg Prod.snd hstep
      exact hnext

theorem andThen_of_ok {σ ε α β : Type} {step : StateM σ (Except ε α)}
    {next : α → StateM σ (Except ε β)} {w w' : σ} {a : α} (h : step w = (.ok a, w')) :
    andThen step next w = next a w' := by
  simp only [andThen, bind, StateT.bind, h]

theorem onTree_eq_ok_iff {op : FileTree → Except SystemFault FileTree} :
    (onTree op : StateM FileTree _) t = (.ok u, t') ↔ op t = .ok t' := by
  simp only [onTree, HasFileTree.tree, HasFileTree.setTree, id_eq]
  cases op t with
  | error e => exact ⟨fun h => absurd h failed_ne_ok, nofun⟩
  | ok t₁ => exact done_eq_ok_iff.trans (by rw [Except.ok.injEq])

theorem createDirectories_eq_ok_iff :
    (FileSystem.createDirectories path : StateM FileTree _) t = (.ok u, t') ↔
      t.createDirectories path = .ok t' := by
  simp only [FileSystem.createDirectories, HasFileTree.tree, HasFileTree.setTree, id_eq]
  cases t.createDirectories path with
  | error e => exact ⟨fun h => absurd h failed_ne_ok, nofun⟩
  | ok t₁ => exact done_eq_ok_iff.trans (by rw [Except.ok.injEq])

theorem atPath_eq_ok_iff {α : Type} {step : StateM FileTree (Except SystemFault α)} {a : α} :
    (atPath path step : StateM FileTree _) t = (.ok a, t') ↔ step t = (.ok a, t') := by
  simp only [atPath, Functor.map, StateT.map]
  rcases step t with ⟨r, v⟩
  cases r with
  | error e => exact ⟨fun h => absurd h failed_ne_ok, fun h => absurd h failed_ne_ok⟩
  | ok a' =>
    constructor <;>
    · intro h
      obtain rfl : a' = a := Except.ok.inj (congrArg Prod.fst h)
      obtain rfl : v = t' := congrArg Prod.snd h
      rfl

theorem writeText_eq_ok_iff {text : String} :
    (FileSystem.writeText path text : StateM FileTree _) t = (.ok u, t') ↔
      t.write path text.toUTF8 = .ok t' := by
  rw [FileSystem.writeText]
  exact onTree_eq_ok_iff

/-! ## Earlier versions -/

/-- An operation for the case that there is something at a path. -/
def FileTree.ifThere (t : FileTree) (path : String) (op : FileTree → Except SystemFault FileTree) :
    Except SystemFault FileTree := if t.exists? path then op t else .ok t

theorem ifThere_eq_ok_iff {op : FileTree → Except SystemFault FileTree} :
    (do if ← FileSystem.exists? path then onTree op else pure (.ok ()) : StateM FileTree _) t
      = (.ok u, t') ↔ t.ifThere path op = .ok t' := by
  have hexists : (FileSystem.exists? path : StateM FileTree _) t = (t.exists? path, t) := rfl
  simp only [bind, StateT.bind, hexists, ifThere]
  split_ifs
  · exact onTree_eq_ok_iff
  · exact done_eq_ok_iff.trans (by rw [Except.ok.injEq])

/-- **Moving the versions up** starts with the oldest one. -/
theorem shiftVersions_succ_eq_ok_iff {n : Nat} :
    (shiftVersions path (n + 1) : StateM FileTree _) t = (.ok u, t') ↔
      ∃ t₁, t.ifThere (Path.numbered path (n + 1))
          (·.rename (Path.numbered path (n + 1)) (Path.numbered path (n + 2))) = .ok t₁ ∧
        (shiftVersions path n : StateM FileTree _) t₁ = (.ok u, t') := by
  have hexists : (FileSystem.exists? (Path.numbered path (n + 1)) : StateM FileTree _) t
      = (t.exists? (Path.numbered path (n + 1)), t) := rfl
  simp only [shiftVersions, bind, StateT.bind, hexists, ifThere]
  split_ifs
  · rw [andThen_eq_ok_iff]
    exact ⟨fun ⟨_, t₁, hrename, hrest⟩ => ⟨t₁, onTree_eq_ok_iff.mp hrename, hrest⟩,
      fun ⟨t₁, hrename, hrest⟩ => ⟨(), t₁, onTree_eq_ok_iff.mpr hrename, hrest⟩⟩
  · simp

/-- **A version is kept** by removing the oldest one, moving the others up and copying the file. -/
theorem keepVersion_eq_ok_iff :
    (keepVersion path maxOld : StateM FileTree _) t = (.ok u, t') ↔
      ∃ t₁ t₂, t.ifThere (Path.numbered path maxOld) (·.remove (Path.numbered path maxOld))
          = .ok t₁ ∧
        (shiftVersions path (maxOld - 1) : StateM FileTree _) t₁ = (.ok (), t₂) ∧
        t₂.copy path (Path.numbered path 1) = .ok t' := by
  have hexists : (FileSystem.exists? (Path.numbered path maxOld) : StateM FileTree _) t
      = (t.exists? (Path.numbered path maxOld), t) := rfl
  have hsteps : (keepVersion path maxOld : StateM FileTree _) t
      = andThen (do
          if ← FileSystem.exists? (Path.numbered path maxOld) then
            onTree (·.remove (Path.numbered path maxOld))
          else pure (.ok ()))
        (fun _ => andThen (shiftVersions path (maxOld - 1)) fun _ =>
          onTree (·.copy path (Path.numbered path 1))) t := by
    simp only [keepVersion, andThen, bind, StateT.bind, hexists]
    split_ifs <;> rfl
  rw [hsteps, andThen_eq_ok_iff]
  constructor
  · rintro ⟨_, t₁, hremove, hrest⟩
    obtain ⟨_, t₂, hshift, hcopy⟩ := andThen_eq_ok_iff.mp hrest
    exact ⟨t₁, t₂, ifThere_eq_ok_iff.mp hremove, hshift, onTree_eq_ok_iff.mp hcopy⟩
  · rintro ⟨t₁, t₂, hremove, hshift, hcopy⟩
    exact ⟨(), t₁, ifThere_eq_ok_iff.mpr hremove,
      andThen_eq_ok_iff.mpr ⟨(), t₂, hshift, onTree_eq_ok_iff.mpr hcopy⟩⟩

/-- A version is kept if versions are, and if there is a file. -/
theorem keepIfAny_eq_ok_iff :
    (keepIfAny path maxOld : StateM FileTree _) t = (.ok u, t') ↔
      if 0 < maxOld ∧ t.exists? path = true then
        (keepVersion path maxOld : StateM FileTree _) t = (.ok u, t')
      else t = t' := by
  have hexists : (FileSystem.exists? path : StateM FileTree _) t = (t.exists? path, t) := rfl
  rw [keepIfAny]
  by_cases hpos : 0 < maxOld
  · rw [if_pos hpos]
    simp only [bind, StateT.bind, hexists]
    split_ifs with hthere hboth hboth
    · rfl
    · exact absurd ⟨hpos, hthere⟩ hboth
    · exact absurd hboth.2 hthere
    · exact done_eq_ok_iff
  · rw [if_neg hpos, if_neg fun hboth => hpos hboth.1]
    exact done_eq_ok_iff

/-- **A draft is moved into its place** after a version is kept. -/
theorem commitDraft_eq_ok_iff {draft : String} :
    (commitDraft path draft maxOld : StateM FileTree _) t = (.ok u, t') ↔
      ∃ t₁, (keepIfAny path maxOld : StateM FileTree _) t = (.ok (), t₁) ∧
        t₁.rename draft path = .ok t' := by
  have hboth : (commitDraft path draft maxOld : StateM FileTree _) t = (.ok u, t') ↔
      (andThen (keepIfAny path maxOld) fun _ => onTree (·.rename draft path) :
        StateM FileTree _) t = (.ok u, t') := by
    simp only [commitDraft, bind, StateT.bind, FileSystem.rename]
    rcases (andThen (keepIfAny path maxOld) fun _ => onTree (·.rename draft path) :
      StateM FileTree _) t with ⟨r, v⟩
    cases r with
    | error e => exact ⟨fun h => absurd h failed_ne_ok, fun h => absurd h failed_ne_ok⟩
    | ok _ => rfl
  rw [hboth, andThen_eq_ok_iff]
  exact ⟨fun ⟨_, t₁, hkeep, hrename⟩ => ⟨t₁, hkeep, onTree_eq_ok_iff.mp hrename⟩,
    fun ⟨t₁, hkeep, hrename⟩ => ⟨(), t₁, hkeep, onTree_eq_ok_iff.mpr hrename⟩⟩

/-! ## Replacing a file -/

/-- The tree with the directory of a path made. -/
def FileTree.withDirectoryOf (t : FileTree) (path : String) : Except SystemFault FileTree :=
  match Path.parent? path with
  | some parent => t.createDirectories parent
  | none => .ok t

theorem createDirectoryOf_eq_ok_iff :
    (createDirectoryOf path : StateM FileTree _) t = (.ok u, t') ↔
      t.withDirectoryOf path = .ok t' := by
  rw [createDirectoryOf, FileTree.withDirectoryOf]
  cases Path.parent? path with
  | none => exact done_eq_ok_iff.trans (by rw [Except.ok.injEq])
  | some parent => exact atPath_eq_ok_iff.trans createDirectories_eq_ok_iff

/-- The content of a file is what can be read; that there is nothing is fine, too. -/
theorem currentContent_eq_ok_iff {current : Option ByteArray} :
    (currentContent path : StateM FileTree _) t = (.ok current, t') ↔
      (t.read path = .error .noEntry ∧ current = none ∨
        ∃ bytes, t.read path = .ok bytes ∧ current = some bytes) ∧ t = t' := by
  have hread : (FileSystem.read path : StateM FileTree _) t = (t.read path, t) := rfl
  have hpair {r : Option ByteArray} : ((.ok r, t) : Except RenderError (Option ByteArray) × _)
      = (.ok current, t') ↔ current = r ∧ t = t' := by
    rw [Prod.mk.injEq, Except.ok.injEq, eq_comm]
  simp only [currentContent, bind, StateT.bind, hread]
  cases t.read path with
  | ok bytes => exact hpair.trans (by simp)
  | error fault =>
    cases fault with
    | noEntry => exact hpair.trans (by simp)
    | _ => exact ⟨fun h => absurd h failed_ne_ok, by simp⟩

/-- Contents that are found equal are equal. -/
instance instLawfulBEqContent : LawfulBEq ByteArray where
  eq_of_beq h := ByteArray.ext (eq_of_beq h)
  rfl {a} := beq_self_eq_true a.data

/-- **A file that holds the text already is left alone.** -/
theorem replaceFile_of_same {content : String}
    (h : t.read path = .ok (normalised content).toUTF8) :
    (replaceFile path content maxOld : StateM FileTree _) t = (.ok (.unchanged path), t) := by
  rw [replaceFile, andThen_of_ok (currentContent_eq_ok_iff.mpr ⟨.inr ⟨_, h, rfl⟩, rfl⟩),
    if_pos (beq_self_eq_true _)]
  rfl

/-- **A file with another text, or none, is replaced** by making its directory, writing the draft there and
moving it into its place. -/
theorem replaceFile_eq_ok_iff {content : String} {r : Replaced}
    (hdiffers : t.read path ≠ .ok (normalised content).toUTF8) :
    (replaceFile path content maxOld : StateM FileTree _) t = (.ok r, t') ↔
      (t.read path = .error .noEntry ∨ ∃ bytes, t.read path = .ok bytes) ∧ r = .written path ∧
      ∃ t₁ t₂, t.withDirectoryOf path = .ok t₁ ∧
        t₁.write (draftOf path) (normalised content).toUTF8 = .ok t₂ ∧
        (commitDraft path (draftOf path) maxOld : StateM FileTree _) t₂ = (.ok (), t') := by
  have hother {current : Option ByteArray}
      (hcurrent : t.read path = .error .noEntry ∧ current = none ∨
        ∃ bytes, t.read path = .ok bytes ∧ current = some bytes) :
      ¬ (current == some (normalised content).toUTF8) = true := by
    rcases hcurrent with ⟨-, rfl⟩ | ⟨bytes, hread, rfl⟩
    · exact Bool.false_ne_true
    · exact fun heq => hdiffers (by rw [hread, Option.some.inj (eq_of_beq heq)])
  rw [replaceFile, andThen_eq_ok_iff]
  constructor
  · rintro ⟨current, t₀, hcurrent, hrest⟩
    obtain ⟨hread, rfl⟩ := currentContent_eq_ok_iff.mp hcurrent
    rw [if_neg (hother hread)] at hrest
    obtain ⟨_, t₁, hmade, hrest⟩ := andThen_eq_ok_iff.mp hrest
    obtain ⟨_, t₂, hwrite, hrest⟩ := andThen_eq_ok_iff.mp hrest
    obtain ⟨_, t₃, hcommit, hdone⟩ := andThen_eq_ok_iff.mp hrest
    obtain rfl : .written path = r := Except.ok.inj (congrArg Prod.fst hdone)
    obtain rfl : t₃ = t' := congrArg Prod.snd hdone
    exact ⟨hread.imp And.left fun ⟨bytes, h, _⟩ => ⟨bytes, h⟩, rfl, t₁, t₂,
      createDirectoryOf_eq_ok_iff.mp hmade, writeText_eq_ok_iff.mp (atPath_eq_ok_iff.mp hwrite),
      atPath_eq_ok_iff.mp hcommit⟩
  · rintro ⟨hread, rfl, t₁, t₂, hmade, hwrite, hcommit⟩
    obtain ⟨current, hcurrent⟩ : ∃ current, t.read path = .error .noEntry ∧ current = none ∨
        ∃ bytes, t.read path = .ok bytes ∧ current = some bytes :=
      hread.elim (fun h => ⟨none, .inl ⟨h, rfl⟩⟩)
        fun ⟨bytes, h⟩ => ⟨_, .inr ⟨bytes, h, rfl⟩⟩
    refine ⟨current, t, currentContent_eq_ok_iff.mpr ⟨hcurrent, rfl⟩, ?_⟩
    rw [if_neg (hother hcurrent), andThen_of_ok (createDirectoryOf_eq_ok_iff (u := ()).mpr hmade),
      andThen_of_ok (atPath_eq_ok_iff.mpr (writeText_eq_ok_iff (u := ()).mpr hwrite)),
      andThen_of_ok (atPath_eq_ok_iff.mpr hcommit)]
    rfl

/-- **Files are replaced one after the other.** -/
theorem writeArtifacts_cons_eq_ok_iff {content : String} {rest : List Artifact}
    {rs : List Replaced} :
    (writeArtifacts (⟨path, content, maxOld⟩ :: rest) : StateM FileTree _) t = (.ok rs, t') ↔
      ∃ r t₁ rs', (replaceFile path content maxOld : StateM FileTree _) t = (.ok r, t₁) ∧
        (writeArtifacts rest : StateM FileTree _) t₁ = (.ok rs', t') ∧ r :: rs' = rs := by
  rw [writeArtifacts, andThen_eq_ok_iff]
  constructor
  · rintro ⟨r, t₁, hreplace, hrest⟩
    obtain ⟨rs', t₂, hwrite, hdone⟩ := andThen_eq_ok_iff.mp hrest
    obtain rfl : t₂ = t' := congrArg Prod.snd hdone
    exact ⟨r, t₁, rs', hreplace, hwrite, Except.ok.inj (congrArg Prod.fst hdone)⟩
  · rintro ⟨r, t₁, rs', hreplace, hwrite, rfl⟩
    exact ⟨r, t₁, hreplace, andThen_eq_ok_iff.mpr ⟨rs', t', hwrite, rfl⟩⟩

/-! ## Which errors there are -/

/-- **A step that fails at a path only.** -/
def FailsAtPath {σ α : Type} (step : StateM σ (Except RenderError α)) : Prop :=
  ∀ s e, (step s).1 = .error e → ∃ path fault, e = .io path fault

namespace FailsAtPath

variable {σ α β : Type}

theorem andThen {step : StateM σ (Except RenderError α)}
    {next : α → StateM σ (Except RenderError β)} (hstep : FailsAtPath step)
    (hnext : ∀ a, FailsAtPath (next a)) : FailsAtPath (Rollout.andThen step next) := by
  intro s e he
  simp only [Rollout.andThen, bind, StateT.bind] at he
  rcases hs : step s with ⟨r, v⟩
  rw [hs] at he
  cases r with
  | error e' =>
    obtain rfl : e' = e := Except.error.inj he
    exact hstep s e' (by rw [hs])
  | ok a => exact hnext a v e he

theorem ok (a : α) : FailsAtPath (pure (.ok a) : StateM σ (Except RenderError α)) :=
  fun _ _ he => nomatch he

theorem atPath (path : String) (step : StateM σ (Except SystemFault α)) :
    FailsAtPath (Rollout.atPath path step) := by
  intro s e he
  have hreport : (Rollout.atPath path step s).1 = (step s).1.mapError (.io path) := rfl
  rw [hreport] at he
  cases hs : (step s).1 with
  | error fault =>
    rw [hs] at he
    exact ⟨path, fault, (Except.error.inj he).symm⟩
  | ok a =>
    rw [hs] at he
    exact nomatch he

variable [FileSystem (StateM σ)]

theorem currentContent (path : String) : FailsAtPath (currentContent path : StateM σ _) := by
  intro s e he
  simp only [Rollout.currentContent, bind, StateT.bind] at he
  rcases hread : (FileSystem.read path : StateM σ _) s with ⟨_ | bytes, v⟩
  · rename_i fault
    rw [hread] at he
    cases fault with
    | noEntry => exact nomatch he
    | _ => exact ⟨path, _, (Except.error.inj he).symm⟩
  · rw [hread] at he
    exact nomatch he

theorem createDirectoryOf (path : String) :
    FailsAtPath (createDirectoryOf path : StateM σ _) := by
  rw [Rollout.createDirectoryOf]
  cases Path.parent? path with
  | none => exact .ok ()
  | some parent => exact .atPath parent _

theorem replaceFile (path content : String) (maxOld : Nat) :
    FailsAtPath (replaceFile path content maxOld : StateM σ _) := by
  refine .andThen (.currentContent path) fun current => ?_
  split_ifs
  · exact .ok _
  · exact .andThen (.createDirectoryOf path) fun _ => .andThen (.atPath _ _) fun _ =>
      .andThen (.atPath _ _) fun _ => .ok _

theorem writeArtifacts (as : List Artifact) : FailsAtPath (writeArtifacts as : StateM σ _) := by
  induction as with
  | nil => exact .ok []
  | cons a as ih =>
    rw [Rollout.writeArtifacts]
    exact .andThen (.replaceFile _ _ _) fun _ => .andThen ih fun _ => .ok _

end FailsAtPath

end Rollout
