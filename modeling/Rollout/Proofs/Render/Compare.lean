import Mathlib.Data.List.Nodup
import Rollout.Proofs.Render.Replace
import Rollout.Proofs.System.Reading
import Rollout.Proofs.Text.Bytes
import Rollout.Render.Compare

/-!
# Proofs/Render/Compare — what a comparison lists is what writing changes

A comparison takes a file for its text with the lines ended by line feeds, and nothing for the empty text;
writing takes a file for its octets.  So the comparison lists a file exactly if it would be written, unless
the text there differs in nothing but the ends of its lines, or nothing is there and the text is empty
(`listed_iff_written`).  This needs a text that no carriage return is left over in front of a line feed of:
one that is not, `normalised` changes a second time.
-/

namespace Rollout

variable {t t' : FileTree} {path : String}

/-! ## Line ends -/

theorem unixLines_cons {c : Char} {cs : List Char}
    (h : ∀ rest, c = '\r' → cs = '\n' :: rest → False) : unixLines (c :: cs) = c :: unixLines cs := by
  rw [unixLines]
  exact h

theorem unixLines_cons_of_ne {c : Char} {cs : List Char} (h : c ≠ '\r') :
    unixLines (c :: cs) = c :: unixLines cs := unixLines_cons fun _ hc => absurd hc h

/-- **A text has its lines ended once and for all**, unless two carriage returns stand before a line
feed. -/
theorem unixLines_unixLines {cs : List Char} (h : ¬ ['\r', '\r', '\n'] <:+: cs) :
    unixLines (unixLines cs) = unixLines cs := by
  have htail {c : Char} {cs : List Char} (h : ¬ ['\r', '\r', '\n'] <:+: c :: cs) :
      ¬ ['\r', '\r', '\n'] <:+: cs := fun hin => h (hin.trans (List.suffix_cons c cs).isInfix)
  induction cs using unixLines.induct with
  | case1 cs ih =>
    rw [unixLines, unixLines_cons_of_ne (by decide), ih (htail (htail h))]
  | case2 c cs hc ih =>
    rw [unixLines_cons hc]
    -- A line feed comes first behind `c` only if it or a line end stood there.
    have hfirst : ∀ rest, c = '\r' → unixLines cs = '\n' :: rest → False := by
      rintro rest rfl hrest
      cases cs with
      | nil => exact nomatch hrest
      | cons x xs =>
        by_cases hend : ∃ ys, x = '\r' ∧ xs = '\n' :: ys
        · obtain ⟨ys, rfl, rfl⟩ := hend
          exact h ⟨[], ys, rfl⟩
        · rw [unixLines_cons fun ys hx hxs => hend ⟨ys, hx, hxs⟩, List.cons.injEq] at hrest
          exact hc xs rfl (by rw [hrest.1])
    rw [unixLines_cons hfirst, ih (htail h)]
  | case3 => rfl

theorem normalised_normalised {s : String} (h : ¬ ['\r', '\r', '\n'] <:+: s.toList) :
    normalised (normalised s) = normalised s := by
  rw [normalised, normalised, String.toList_ofList, unixLines_unixLines h]

/-! ## Texts that are there -/

/-- **What text a path leads to**, if it leads to one or to nothing. -/
def FileTree.Holds (t : FileTree) (path : String) : Option String → Prop
  | none => t.read path = .error .noEntry
  | some text => t.read path = .ok text.toUTF8

instance : ∀ {current : Option String}, Decidable (t.Holds path current)
  | none => inferInstanceAs (Decidable (t.read path = .error .noEntry))
  | some text => inferInstanceAs (Decidable (t.read path = .ok text.toUTF8))

theorem FileTree.Holds.unique {a b : Option String} (ha : t.Holds path a) (hb : t.Holds path b) :
    a = b := by
  cases a with
  | none =>
    cases b with
    | none => rfl
    | some s => exact nomatch ha.symm.trans hb
  | some r =>
    cases b with
    | none => exact nomatch ha.symm.trans hb
    | some s =>
      have hbytes : r.toUTF8 = s.toUTF8 := Except.ok.inj (ha.symm.trans hb)
      rw [← Text.fromUTF8?_toUTF8 r, ← Text.fromUTF8?_toUTF8 s, hbytes]

/-- The text that a comparison finds. -/
theorem currentText_of_holds {current : Option String} (h : t.Holds path current) :
    (currentText path : StateM FileTree _) t = (.ok (normalised (current.getD "")), t) := by
  have hread : (FileSystem.readText path : StateM FileTree _) t = (t.readText path, t) :=
    readText_looks path t
  simp only [currentText, bind, StateT.bind, hread]
  cases current with
  | none =>
    rw [FileTree.readText, show t.read path = _ from h]
    rfl
  | some text =>
    rw [FileTree.readText, show t.read path = _ from h, textOf, Text.fromUTF8?_toUTF8]
    rfl

/-- **The text at the path of an artifact is its text**, but for the ends of the lines; nothing is taken
for the empty text. -/
def FileTree.ReadsAs (t : FileTree) (a : Artifact) : Prop :=
  ∃ current, t.Holds a.path current ∧ normalised (current.getD "") = normalised a.content

/-! ## Comparing -/

/-- **A comparison lists what does not read as it should.** -/
theorem compareArtifacts_spec : ∀ {as : List Artifact},
    (∀ a ∈ as, ∃ current, t.Holds a.path current) →
      ∃ changes, (compareArtifacts as : StateM FileTree _) t = (.ok changes, t) ∧
        ∀ path, path ∈ changes.map (·.path) ↔ ∃ a ∈ as, a.path = path ∧ ¬ t.ReadsAs a
  | [], _ => ⟨[], rfl, by simp⟩
  | a :: rest, h => by
      obtain ⟨current, hcurrent⟩ := h a List.mem_cons_self
      obtain ⟨changes, hchanges, hlisted⟩ :=
        compareArtifacts_spec fun b hb => h b (List.mem_cons_of_mem _ hb)
      have hreads : t.ReadsAs a ↔ normalised (current.getD "") = normalised a.content :=
        ⟨fun ⟨_, hother, heq⟩ => hcurrent.unique hother ▸ heq, fun heq => ⟨current, hcurrent, heq⟩⟩
      rw [compareArtifacts, andThen_of_ok (currentText_of_holds hcurrent), andThen_of_ok hchanges]
      by_cases hsame : normalised (current.getD "") = normalised a.content
      · refine ⟨changes, by rw [if_pos (beq_iff_eq.mpr hsame)]; rfl, fun path => ?_⟩
        simp only [hlisted, List.exists_mem_cons_iff, hreads, hsame, not_true, and_false, false_or]
      · refine ⟨⟨a.path, _⟩ :: changes, by rw [if_neg (by simpa using hsame)]; rfl, fun path => ?_⟩
        rw [List.map_cons, List.mem_cons, hlisted, List.exists_mem_cons_iff,
          and_iff_left (hreads.not.mpr hsame), @eq_comm _ path]

/-- Nothing is listed where all reads as it should. -/
theorem compareArtifacts_of_readsAs {as : List Artifact} (h : ∀ a ∈ as, t.ReadsAs a) :
    (compareArtifacts as : StateM FileTree _) t = (.ok [], t) := by
  obtain ⟨changes, hrun, hlisted⟩ := compareArtifacts_spec fun a ha =>
    (h a ha).imp fun _ hcurrent => hcurrent.1
  have hnone : changes.map (·.path) = [] := List.eq_nil_iff_forall_not_mem.mpr fun path hpath => by
    obtain ⟨a, ha, -, hdiffers⟩ := (hlisted path).mp hpath
    exact hdiffers (h a ha)
  rw [hrun, List.map_eq_nil_iff.mp hnone]

/-- A text that was written reads as it should. -/
theorem readsAs_of_read {a : Artifact} (hends : ¬ ['\r', '\r', '\n'] <:+: a.content.toList)
    (h : t.read a.path = .ok (normalised a.content).toUTF8) : t.ReadsAs a :=
  ⟨some (normalised a.content), h, normalised_normalised hends⟩

/-- **What does not read as it should is written.** -/
theorem written_of_not_readsAs {a : Artifact} (hsound : t.Sound)
    (hroom : HasRoom t a.path a.maxOldFiles)
    (hends : ¬ ['\r', '\r', '\n'] <:+: a.content.toList) (h : ¬ t.ReadsAs a) :
    ∃ t', (replaceFile a.path a.content a.maxOldFiles : StateM FileTree _) t
      = (.ok (.written a.path), t') := by
  obtain ⟨-, -, -, -, t', -, -, -, -, -, -, hrun⟩ :=
    replaceFile_of_room hsound hroom fun hread => h (readsAs_of_read hends hread)
  exact ⟨t', hrun⟩

/-- **A file is listed exactly if it would be written and does not read as it should**, and once all files
are written, none is listed. -/
theorem listed_iff_written (hsound : t.Sound) :
    (∀ as : List Artifact,
      (∀ a ∈ as, HasRoom t a.path a.maxOldFiles ∧ (∃ current, t.Holds a.path current) ∧
        ¬ ['\r', '\r', '\n'] <:+: a.content.toList) →
      (as.map (·.path)).Nodup →
        ∃ changes, (compareArtifacts as : StateM FileTree _) t = (.ok changes, t) ∧
          ∀ a ∈ as, a.path ∈ changes.map (·.path) ↔
            (∃ t', (replaceFile a.path a.content a.maxOldFiles : StateM FileTree _) t
              = (.ok (.written a.path), t')) ∧ ¬ t.ReadsAs a) ∧
    (∀ as : List Artifact, RoomForAll as t →
      (∀ a ∈ as, ¬ ['\r', '\r', '\n'] <:+: a.content.toList) →
        ∃ rs t', (writeArtifacts as : StateM FileTree _) t = (.ok rs, t') ∧
          (Apart t' as → (compareArtifacts as : StateM FileTree _) t' = (.ok [], t'))) := by
  refine ⟨fun as h hpaths => ?_, fun as hroom hends => ?_⟩
  · obtain ⟨changes, hrun, hlisted⟩ := compareArtifacts_spec fun a ha => (h a ha).2.1
    refine ⟨changes, hrun, fun a ha => (hlisted a.path).trans ⟨?_, fun hboth => ⟨a, ha, rfl, hboth.2⟩⟩⟩
    rintro ⟨b, hb, hpath, hdiffers⟩
    obtain rfl := List.inj_on_of_nodup_map hpaths hb ha hpath
    exact ⟨written_of_not_readsAs hsound (h b hb).1 (h b hb).2.2 hdiffers, hdiffers⟩
  · obtain ⟨rs, t', hwrite, -⟩ := writeArtifacts_spec hsound hroom
    exact ⟨rs, t', hwrite, fun hapart => compareArtifacts_of_readsAs fun a ha =>
      readsAs_of_read (hends a ha) (read_of_writeArtifacts hsound hroom hwrite hapart a ha)⟩

/-- One file that is to be changed, and one that is to be made in a directory of its own. -/
theorem listed_iff_written_edited :
    let t : FileTree := ⟨[([], .directory), (["h.cfg"], .file "global\n".toUTF8 false)], []⟩
    let as : List Artifact := [⟨"maps/x.map", "a b\n", 0⟩, ⟨"h.cfg", "global\n    daemon\n", 2⟩]
    (∃ changes, (compareArtifacts as : StateM FileTree _) t = (.ok changes, t) ∧
      ∀ a ∈ as, a.path ∈ changes.map (·.path) ↔
        (∃ t', (replaceFile a.path a.content a.maxOldFiles : StateM FileTree _) t
          = (.ok (.written a.path), t')) ∧ ¬ t.ReadsAs a) ∧
    ∃ rs t', (writeArtifacts as : StateM FileTree _) t = (.ok rs, t') ∧
      (compareArtifacts as : StateM FileTree _) t' = (.ok [], t') := by
  intro t as
  have hsound : t.Sound := .of_entries rfl (by decide +kernel)
  have hmap : HasRoom t "maps/x.map" 0 :=
    .of_places "maps" "x.map" (t.insert ["maps"] .directory)
      [["maps", "x.map"], ["maps", "x.map.haconf.tmp"]]
      ⟨by decide, by decide, by decide, by decide⟩ rfl
      (.inl (by decide +kernel)) (by decide +kernel) (by decide +kernel)
  have hconfig (t₁ : FileTree) (hread : t₁.read "h.cfg" = .ok "global\n".toUTF8)
      (hmade : t₁.withDirectoryOf "h.cfg" = .ok t₁)
      (hplaces : ∀ x ∈ pathsOf "h.cfg" 2,
        ∃ p ∈ [["h.cfg"], ["h.cfg.haconf.tmp"], ["h.cfg.1"], ["h.cfg.2"]],
          t₁.walk false x = .ok (t₁.arrive p) ∧ t₁.IsPlain p) : HasRoom t₁ "h.cfg" 2 :=
    .of_places "" "h.cfg" t₁ _ ⟨by decide, by decide, by decide, by decide⟩ rfl
      (.inr ⟨_, hread⟩) hmade hplaces
  have hroom : ∀ a ∈ as, HasRoom t a.path a.maxOldFiles :=
    List.forall_mem_cons.mpr ⟨hmap, List.forall_mem_singleton.mpr
      (hconfig t (by decide +kernel) (by decide +kernel) (by decide +kernel))⟩
  have hnext : HasRoom ((replaceFile "maps/x.map" "a b\n" 0 : StateM FileTree _) t).2 "h.cfg" 2 :=
    hconfig _ (by decide +kernel) (by decide +kernel) (by decide +kernel)
  have hholds : ∀ a ∈ as, ∃ current, t.Holds a.path current :=
    List.forall_mem_cons.mpr ⟨⟨none, by decide +kernel⟩,
      List.forall_mem_singleton.mpr ⟨some "global\n", by decide +kernel⟩⟩
  have hends : ∀ a ∈ as, ¬ ['\r', '\r', '\n'] <:+: a.content.toList := by decide +kernel
  obtain ⟨hlisted, hwritten⟩ := listed_iff_written hsound
  refine ⟨hlisted as (fun a ha => ⟨hroom a ha, hholds a ha, hends a ha⟩) (by decide), ?_⟩
  obtain ⟨rs, t', hwrite, hnone⟩ := hwritten as ⟨hmap, hnext, trivial⟩ hends
  refine ⟨rs, t', hwrite, hnone ?_⟩
  rw [show t' = ((writeArtifacts as : StateM FileTree _) t).2 from congrArg Prod.snd hwrite.symm,
    Apart]
  decide +kernel

/-- **Where the two differ.**  A text that differs in the ends of its lines, and the empty text of a file
that is not there, are written and not listed.  A file whose path ends in a slash, or whose draft or earlier
version finds a directory in its place, is listed and not written.  And after everything is written, a file
is still listed if its text has two carriage returns before a line feed, if it was written under another
path too, or if an earlier version of another file came to lie there. -/
theorem comparison_differs_from_writing :
    let tree (p : Place) (e : Entry) : FileTree := ⟨[([], .directory), (p, e)], []⟩
    let listed (t : FileTree) (as : List Artifact) :=
      ((compareArtifacts as : StateM FileTree _) t).1.map (·.map (·.path))
    let replaced (t : FileTree) (a : Artifact) :=
      ((replaceFile a.path a.content a.maxOldFiles : StateM FileTree _) t).1
    let leftOver (t : FileTree) (as : List Artifact) :=
      listed ((writeArtifacts as : StateM FileTree _) t).2 as
    let a : Artifact := ⟨"h.cfg", "a\n", 1⟩
    let dos := tree ["h.cfg"] (.file "a\r\n".toUTF8 false)
    let draftless := tree ["h.cfg.haconf.tmp"] .directory
    let old := tree ["h.cfg"] (.file "old\n".toUTF8 false)
    (listed dos [a] = .ok [] ∧ replaced dos a = .ok (.written "h.cfg")) ∧
    (listed {} [⟨"h.cfg", "", 0⟩] = .ok [] ∧
      replaced {} ⟨"h.cfg", "", 0⟩ = .ok (.written "h.cfg")) ∧
    (listed {} [⟨"h.cfg/", "a\n", 0⟩] = .ok ["h.cfg/"] ∧
      replaced {} ⟨"h.cfg/", "a\n", 0⟩ = .error (.io "h.cfg/.haconf.tmp" .noEntry)) ∧
    (listed draftless [a] = .ok ["h.cfg"] ∧
      replaced draftless a = .error (.io "h.cfg.haconf.tmp" .isDirectory)) ∧
    (listed (old.insert ["h.cfg.1"] .directory) [a] = .ok ["h.cfg"] ∧
      replaced (old.insert ["h.cfg.1"] .directory) a = .error (.io "h.cfg" .isDirectory)) ∧
    leftOver {} [⟨"h.cfg", "a\r\r\n", 0⟩] = .ok ["h.cfg"] ∧
    leftOver {} [a, ⟨"./h.cfg", "b\n", 0⟩] = .ok ["h.cfg"] ∧
    leftOver old [⟨"h.cfg.1", "b\n", 0⟩, a] = .ok ["h.cfg.1"] := by
  decide +kernel

end Rollout
