import Rollout.Proofs.Generation.Phases
import Rollout.Proofs.Generation.Routes
import Rollout.Proofs.Render.Read

/-!
# Proofs/Render/Map — a map file and what is read from it

The built-in template of map files can always be filled in (`evaluate_map`): a comment on the first
line, then a line for every entry.  `readMap` reads a file as the proxy does.  It skips empty lines and
lines that begin with a hash, and takes every other line apart at its first space.  The keys of a built
generation are words, so an entry is read from its line as it is, unless its key begins with a hash,
which no check refuses: then its line is a comment, and the entry is lost (`readMap_text`).
-/

namespace Rollout

/-! ## What is written -/

/-- The line of an entry. -/
def MapEntry.line (e : MapEntry) : String := e.key ++ " " ++ e.value

namespace MapFile

/-- The line at the top of a map file. -/
def heading (m : MapFile) : String := "# " ++ m.name ++ ": generated by haconf " ++ version

/-- **A map file.** -/
def text (m : MapFile) : String :=
  m.heading ++ "\n" ++ String.join (m.entries.map fun e => e.line ++ "\n")

/-- The variables that a map file is filled in from. -/
def scope (m : MapFile) : Scope :=
  match m.templateValue with
  | .record fields => fields
  | _ => []

/-- **A map file can be filled in**, for every map. -/
theorem evaluate_map (m : MapFile) : Builtin.map.evaluate m.templateValue = .ok m.text := by
  have hfills : Fills m.scope Builtin.map _ :=
    .text <| .of rfl <| .text <| .of rfl <| .text <|
    .forEach (f := MapEntry.toValue) rfl
      (fun _ _ => .of rfl <| .text <| .of rfl <| .text .nil) .nil
  refine hfills.congr ?_
  unfold text heading MapEntry.line
  simp only [Value.fill_text, String.append_assoc, String.append_empty]

/-- **The built-in template renders a map file**, whatever else is registered. -/
theorem render_map (m : MapFile) (s : TemplateSet) :
    (s.insert ⟨Renderer.mapInfo, Builtin.map⟩).render Renderer.mapName m.templateValue
      = .ok m.text := by
  have hfind : (s.insert ⟨Renderer.mapInfo, Builtin.map⟩).find Renderer.mapName
      = some ⟨Renderer.mapInfo, Builtin.map⟩ := TemplateSet.find_insert _ s
  rw [TemplateSet.render, hfind]
  exact congrArg (Except.mapError (RenderError.evaluation Renderer.mapName)) m.evaluate_map

end MapFile

/-! ## The reader -/

/-- **The entry of a line**: what stands before its first space, and what behind.  An empty line has
none, nor has one that begins with a hash. -/
def MapEntry.ofLine? : List Char → Option MapEntry
  | [] => none
  | '#' :: _ => none
  | line => some ⟨String.ofList (line.takeWhile (· != ' ')),
      String.ofList ((line.dropWhile (· != ' ')).drop 1)⟩

/-- **The entries of a text**, line by line. -/
def readMap (text : String) : List MapEntry :=
  (text.toList.splitOn '\n').filterMap MapEntry.ofLine?

/-- The entries on either side of the end of a line. -/
theorem readMap_append (s t : String) : readMap (s ++ "\n" ++ t) = readMap s ++ readMap t := by
  rw [readMap, toList_append_char (c := '\n') rfl, List.splitOn_append_cons_self,
    List.filterMap_append, readMap, readMap]

theorem readMap_of_unbroken {s : String} (h : Unbroken s) :
    readMap s = (MapEntry.ofLine? s.toList).toList := by
  rw [readMap, List.splitOn_eq_singleton h]
  cases hline : MapEntry.ofLine? s.toList with
  | none => exact List.filterMap_cons_none hline
  | some e => exact List.filterMap_cons_some hline

namespace MapEntry

variable {e : MapEntry}

/-- Would the line of the entry be a comment? -/
def isRemark (e : MapEntry) : Bool := e.key.toList.head? == some '#'

theorem isRemark_iff : e.isRemark = true ↔ e.key.toList.head? = some '#' := beq_iff_eq

/-- An entry whose line cannot be taken for several, nor its key for its value. -/
structure IsPlain (e : MapEntry) : Prop where
  key : IsWord e.key
  value : Unbroken e.value

theorem IsPlain.unbroken_line (h : e.IsPlain) : Unbroken e.line :=
  (h.key.unbroken.append (by decide)).append h.value

/-- **A plain entry is read from its line**, unless the line is a comment. -/
theorem IsPlain.ofLine?_line (h : e.IsPlain) :
    ofLine? e.line.toList = if e.isRemark then none else some e := by
  have hspace : ∀ c ∈ e.key.toList, (c != ' ') = true := fun c hc =>
    bne_iff_ne.mpr fun heq => h.key.no_space (heq ▸ hc)
  have hkey : e.line.toList.takeWhile (· != ' ') = e.key.toList := by
    rw [line, toList_append_char (c := ' ') rfl, List.takeWhile_append_of_pos hspace,
      List.takeWhile_cons_of_neg (by decide), List.append_nil]
  have hvalue : (e.line.toList.dropWhile (· != ' ')).drop 1 = e.value.toList := by
    rw [line, toList_append_char (c := ' ') rfl, List.dropWhile_append_of_pos hspace,
      List.dropWhile_cons_of_neg (by decide), List.drop_one, List.tail_cons]
  obtain ⟨c, cs, hcs⟩ : ∃ c cs, e.key.toList = c :: cs :=
    List.exists_cons_of_ne_nil fun heq => h.key.ne_empty (String.toList_eq_nil_iff.mp heq)
  have hline : e.line.toList = c :: (cs ++ ' ' :: e.value.toList) := by
    rw [line, toList_append_char (c := ' ') rfl, hcs, List.cons_append]
  have hremark : e.isRemark = (c == '#') := by rw [isRemark, hcs, List.head?_cons]; rfl
  by_cases hc : c = '#'
  · subst hc
    rw [hline, hremark]
    rfl
  · rw [hremark, if_neg (by simpa using hc), ofLine?.eq_3 _ (by simp [hline]) (by simp [hline, hc]),
      hkey, hvalue, String.ofList_toList, String.ofList_toList]

/-- **Lines in a row are read one by one**, without the comments. -/
theorem readMap_lines : ∀ {es : List MapEntry}, (∀ e ∈ es, e.IsPlain) →
    readMap (String.join (es.map fun e => e.line ++ "\n")) = es.filter fun e => !e.isRemark
  | [], _ => rfl
  | e :: es, h => by
      obtain ⟨he, hes⟩ := List.forall_mem_cons.mp h
      rw [List.map_cons, String.join_cons, readMap_append, readMap_lines hes,
        readMap_of_unbroken he.unbroken_line, he.ofLine?_line]
      cases hremark : e.isRemark <;> simp [hremark]

end MapEntry

/-- **What is read from a map file**: its entries in order, without those whose line is a comment. -/
theorem MapFile.readMap_text {m : MapFile} (hname : Unbroken m.name)
    (hentries : ∀ e ∈ m.entries, e.IsPlain) :
    readMap m.text = m.entries.filter fun e => !e.isRemark := by
  have hheading : readMap m.heading = [] := by
    have hunbroken : Unbroken m.heading :=
      (((Unbroken.append (by decide) hname).append (by decide)).append (by decide))
    rw [readMap_of_unbroken hunbroken, heading, String.toList_append, String.toList_append,
      String.toList_append]
    rfl
  rw [text, readMap_append, hheading, List.nil_append, MapEntry.readMap_lines hentries]

/-! ## Map files of a built generation -/

/-- **The key of a route of a sound host is one word.** -/
theorem Host.Sound.isWord_key {h : Host} (hs : h.Sound) {r : Route} (hr : r ∈ h.routes) :
    IsWord (h.key r) := by
  have hname := hs.name.isWord
  have hblank := (tokenFault_eq_none_iff.mp (hs.tokens r hr)).1
  refine ⟨fun heq => hname.ne_empty ?_, ?_, hname.unbroken.append fun hm =>
    absurd (hblank _ hm) (by decide)⟩
  · exact (String.append_eq_empty_iff.mp heq).1
  · rw [Host.key, String.toList_append, List.mem_append, not_or]
    exact ⟨hname.no_space, fun hm => absurd (hblank _ hm) (by decide)⟩

theorem DesiredState.unbroken_pathId (n : Nat) : Unbroken (pathId n) :=
  .append (by decide) fun h => absurd (Text.isDigit_of_mem_padded h) (by decide)

namespace Generation.IsBuilt

variable {g : Generation} {m : MapFile}

theorem unbroken_name (hg : g.IsBuilt) (hm : m ∈ g.maps) : Unbroken m.name := by
  rcases hg.name_of_mem_maps hm with hname | ⟨b, hb, hname⟩
  · have hfixed : ∀ name ∈ frontendMapNames, Unbroken name := by decide
    exact hfixed _ hname
  · exact hname ▸ (hg.sound b hb).id.isWord.unbroken.append (by decide)

/-- **Every entry of a map of a built generation is plain.** -/
theorem isPlain (hg : g.IsBuilt) (hm : m ∈ g.maps) : ∀ e ∈ m.entries, e.IsPlain := by
  intro e he
  constructor
  · obtain ⟨h, hh, hkey | ⟨r, hr, hkey⟩⟩ := hg.key_of_mem_maps hm he
    · exact hkey ▸ (hg.sound_state.hosts h hh).name.isWord
    · exact hkey ▸ (hg.sound_state.hosts h hh).isWord_key hr
  · rcases hg.value_of_mem_maps hm he with hid | hhttps | ⟨n, hn⟩
    · obtain ⟨b, hb, hid⟩ := List.mem_map.mp hid
      exact hid ▸ (hg.sound b hb).id.isWord.unbroken
    · rw [hhttps]
      decide
    · exact hn ▸ DesiredState.unbroken_pathId n

/-- **No entry is a comment if no host's name begins with a hash.** -/
theorem isRemark_eq_false (hg : g.IsBuilt)
    (hhosts : ∀ h ∈ g.state.hosts, h.hostname.toList.head? ≠ some '#') (hm : m ∈ g.maps) :
    ∀ e ∈ m.entries, e.isRemark = false := by
  intro e he
  obtain ⟨h, hh, hkey⟩ := hg.key_of_mem_maps hm he
  obtain ⟨rest, hrest⟩ : ∃ rest, h.hostname.toList ++ rest = e.key.toList := by
    rcases hkey with hkey | ⟨r, -, hkey⟩
    · exact ⟨[], by rw [List.append_nil, hkey]⟩
    · exact ⟨r.path.toList, by rw [← hkey, Host.key, String.toList_append]⟩
  have hne : h.hostname.toList ≠ [] := fun heq =>
    (hg.sound_state.hosts h hh).name.ne_empty (String.toList_eq_nil_iff.mp heq)
  rw [MapEntry.isRemark, ← hrest, List.head?_append_of_ne_nil _ hne]
  exact beq_eq_false_iff_ne.mpr (hhosts h hh)

end Generation.IsBuilt

/-- **A map file reads back, except for comments.**  For every map of a built generation the built-in
template renders a file.  What is read from it are the entries of the map in order, without those whose
key begins with a hash; so it is the map itself exactly if there is no such key, and there is none if
no host's name begins with a hash. -/
theorem rendered_map_reads_back {g : Generation} (hg : g.IsBuilt) {m : MapFile} (hm : m ∈ g.maps) :
    (∀ s : TemplateSet, (s.insert ⟨Renderer.mapInfo, Builtin.map⟩).render Renderer.mapName
      m.templateValue = .ok m.text) ∧
    readMap m.text = m.entries.filter (fun e => !e.isRemark) ∧
    (readMap m.text = m.entries ↔ ∀ e ∈ m.entries, e.key.toList.head? ≠ some '#') ∧
    ((∀ h ∈ g.state.hosts, h.hostname.toList.head? ≠ some '#') → readMap m.text = m.entries) := by
  have hread := MapFile.readMap_text (hg.unbroken_name hm) (hg.isPlain hm)
  refine ⟨m.render_map, hread, ?_, fun hhosts => ?_⟩
  · rw [hread, List.filter_eq_self]
    simp only [Bool.not_eq_true', ← Bool.not_eq_true, MapEntry.isRemark_iff]
  · rw [hread, List.filter_eq_self]
    intro e he
    rw [hg.isRemark_eq_false hhosts hm e he]
    rfl

/-- The map of a backend that two hosts route to. -/
theorem rendered_map_reads_back_market :
    market.IsBuilt ∧ marketState.pathsMap "web" ∈ market.maps ∧
      (∀ h ∈ market.state.hosts, h.hostname.toList.head? ≠ some '#') ∧
      readMap (marketState.pathsMap "web").text = (marketState.pathsMap "web").entries := by
  have hhosts : ∀ h ∈ market.state.hosts, h.hostname.toList.head? ≠ some '#' := by decide +kernel
  exact ⟨isBuilt_market, mem_maps_market, hhosts,
    (rendered_map_reads_back isBuilt_market mem_maps_market).2.2.2 hhosts⟩

/-- A host whose name begins with a hash. -/
def remarkState : DesiredState where
  hosts := [{ hostname := "#web.local", routes := [⟨"/", "web"⟩] }]
  backends := [{ id := "web" }]

/-- **A route is lost in a comment.**  Building succeeds, and nothing is read from the map of plain
requests, which holds the route of the host. -/
theorem remarked_route_lost : ∃ g m text, (Generation.ofState remarkState).build = (.ok (), g) ∧
    m ∈ g.maps ∧ m.entries = [⟨"#web.local/", "web"⟩] ∧
    TemplateSet.render [⟨Renderer.mapInfo, Builtin.map⟩] Renderer.mapName m.templateValue = .ok text ∧
    readMap text = [] := by
  have hsound : remarkState.Sound := by decide +kernel
  have hmem : remarkState.describedFrontends.http.hostMap ∈ remarkState.described.maps :=
    List.mem_cons_self
  exact ⟨remarkState.described, remarkState.describedFrontends.http.hostMap, _,
    Generation.build_eq_ok_iff.mpr ⟨hsound.isBuilt, rfl⟩, hmem, by decide +kernel,
    MapFile.render_map _ [], by decide +kernel⟩

end Rollout
