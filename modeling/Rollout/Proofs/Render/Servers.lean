import Rollout.Proofs.Generation.Phases
import Rollout.Proofs.Patch.Live
import Rollout.Proofs.Render.Read
import Mathlib.Tactic.SplitIfs

/-!
# Proofs/Render/Servers — the servers that the main file lists

`readBackends` reads the servers of each backend off a text, by the lines whose first word is
`server`.  The names and ids of a built generation are words, and so is the address of an enabled
server, but the address of a disabled server and the name of a balancing method are never looked at.
Where those are harmless (`Backend.Legible`), a backend is read back as it is
(`readBackends_written`); where they are not, they can end a line and begin another one, and so make
servers up.
-/

namespace Rollout

/-! ## The reader -/

/-- What stands before the last colon of a text, and what behind it. -/
def splitAtColon (s : String) : Option (String × String) :=
  match s.toList.reverse.dropWhile (· != ':') with
  | _ :: before =>
    some (String.ofList before.reverse,
      String.ofList (s.toList.reverse.takeWhile (· != ':')).reverse)
  | [] => none

/-- **The server of a line**: `server NAME ADDRESS:PORT weight WEIGHT`, and perhaps `disabled`. -/
def Server.ofWords? : List String → Option Server
  | "server" :: name :: target :: "weight" :: weight :: flags => do
    let (ip, port) ← splitAtColon target
    let port ← readBelow UInt16.size port
    let weight ← readBelow UInt32.size weight
    let enabled ← match flags with
      | [] => some true
      | ["disabled"] => some false
      | _ => none
    return { name, ip, port := .ofNat port, weight := .ofNat weight, enabled }
  | _ => none

/-- **A backend that was read**: its id, and its servers if all their lines can be read. -/
structure ReadBackend where
  id : String
  servers : Option (List Server)
  deriving DecidableEq, Repr

/-- The backend of a section, if it is one. -/
def ReadSection.backend? (s : ReadSection) : Option ReadBackend :=
  match s.opening with
  | ["backend", id] =>
    some ⟨id, (s.body.filter fun l => l.head? == some "server").mapM Server.ofWords?⟩
  | _ => none

/-- **The backends of a text.** -/
def readBackends (text : String) : List ReadBackend :=
  (readSections text).filterMap ReadSection.backend?

/-! ## Words of a built generation -/

theorem isWord_decimal (n : Nat) : IsWord (Text.decimal n) := by
  refine ⟨fun h => Text.digits_ne_nil n ?_, ?_, ?_⟩
  · rw [← Text.toList_decimal, h]
    rfl
  · rw [Text.toList_decimal]
    exact no_space_digits n
  · rw [Unbroken, Text.toList_decimal]
    exact fun h => absurd (Text.isDigit_of_mem_digits h) (by decide)

/-- A server that is enabled, or whose address has no space in it and does not end a line. -/
def Server.Legible (s : Server) : Prop :=
  s.enabled = false → ' ' ∉ s.ip.toList ∧ Unbroken s.ip

instance (s : Server) : Decidable s.Legible :=
  inferInstanceAs (Decidable (s.enabled = false → ' ' ∉ s.ip.toList ∧ Unbroken s.ip))

/-- **A backend whose unchecked texts cannot be misread.** -/
structure Backend.Legible (b : Backend) : Prop where
  balance : Unbroken b.balance
  servers : ∀ s ∈ b.servers, s.Legible

namespace Server

variable {s : Server}

/-- The address of an enabled server is no more than digits, points and colons. -/
theorem legible_of_enabled (hs : s.Sound) (he : s.enabled = true) :
    ' ' ∉ s.ip.toList ∧ Unbroken s.ip := by
  have hchars := Address.isAddressChar_of_parse (hs.address he)
  exact ⟨fun h => absurd (hchars _ h) (by decide), fun h => absurd (hchars _ h) (by decide)⟩

/-- So the address of a legible server cannot be misread. -/
theorem Legible.address (hl : s.Legible) (hs : s.Sound) : ' ' ∉ s.ip.toList ∧ Unbroken s.ip := by
  cases he : s.enabled with
  | false => exact hl he
  | true => exact legible_of_enabled hs he

/-- **Where a legible server listens is one word.** -/
theorem isWord_target (hs : s.Sound) (hl : s.Legible) : IsWord s.target := by
  have hip := hl.address hs
  have hport := isWord_decimal s.port.toNat
  refine ⟨fun h => ?_, ?_, (hip.2.append (by decide)).append hport.unbroken⟩
  · have := congrArg String.toList h
    simp [target] at this
  · rw [target, String.toList_append, String.toList_append, List.mem_append, List.mem_append, not_or,
      not_or]
    exact ⟨⟨hip.1, by decide⟩, hport.no_space⟩

end Server

/-! ## Server lines -/

/-- **A text splits at its last colon.** -/
theorem splitAtColon_append (s : String) {t : String} (h : ':' ∉ t.toList) :
    splitAtColon (s ++ ":" ++ t) = some (s, t) := by
  have hall : ∀ c ∈ t.toList.reverse, (c != ':') = true := fun c hc =>
    bne_iff_ne.mpr fun heq => h (heq ▸ List.mem_reverse.mp hc)
  have hlist : (s ++ ":" ++ t).toList.reverse = t.toList.reverse ++ ':' :: s.toList.reverse := by
    simp
  rw [splitAtColon, hlist, List.dropWhile_append_of_pos hall, List.takeWhile_append_of_pos hall]
  simp

namespace Server

/-- The words of the line of a server. -/
def words (s : Server) : List String :=
  "server" :: s.name :: s.target :: "weight" :: Text.decimal s.weight.toNat ::
    (if s.enabled then [] else ["disabled"])

/-- **A server is read back off the words of its line.** -/
theorem ofWords?_words (s : Server) : ofWords? s.words = some s := by
  have hcolon : ':' ∉ (Text.decimal s.port.toNat).toList := by
    rw [Text.toList_decimal]
    exact fun h => absurd (Text.isDigit_of_mem_digits h) (by decide)
  have htarget : splitAtColon s.target = some (s.ip, Text.decimal s.port.toNat) :=
    splitAtColon_append s.ip hcolon
  obtain ⟨name, ip, port, weight, enabled⟩ := s
  cases enabled <;>
    simp [words, ofWords?, htarget, readBelow_decimal port.toNat_lt_size,
      readBelow_decimal weight.toNat_lt_size]

/-- The line of a server, cut at its spaces. -/
theorem line_eq (s : Server) : s.line = "server" ++ " " ++ (s.name ++ " " ++ (s.target ++ " " ++
    ("weight" ++ " " ++ (Text.decimal s.weight.toNat ++ if s.enabled then "" else " disabled")))) := by
  unfold line
  simp only [String.append_assoc]
  rfl

/-- **The words of the line of a sound and legible server.** -/
theorem tokens_line {s : Server} (hs : s.Sound) (hl : s.Legible) : tokens s.line = s.words := by
  have hweight := (isWord_decimal s.weight.toNat).tokens_eq
  have hend : tokens (Text.decimal s.weight.toNat ++ if s.enabled then "" else " disabled")
      = Text.decimal s.weight.toNat :: (if s.enabled then [] else ["disabled"]) := by
    cases s.enabled with
    | true => exact (congrArg tokens String.append_empty).trans hweight
    | false =>
      have hcut : Text.decimal s.weight.toNat ++ " disabled"
          = Text.decimal s.weight.toNat ++ " " ++ "disabled" := by
        rw [String.append_assoc]
        rfl
      have hdisabled : tokens "disabled" = ["disabled"] := by decide
      exact (congrArg tokens hcut).trans (by rw [tokens_append, hweight, hdisabled]; rfl)
  rw [line_eq, tokens_append, tokens_append, tokens_append, tokens_append, hs.name.isWord.tokens_eq,
    (isWord_target hs hl).tokens_eq, hend]
  rfl

/-- The line of a sound server is below the one that opened its section, unless its address ends it. -/
theorem staysBelow_line {s : Server} (hs : s.Sound) (hip : Unbroken s.ip) : StaysBelow s.line := by
  have hstart : Anchored "server " := by decide
  have htarget : Unbroken s.target := (hip.append (by decide)).append (isWord_decimal _).unbroken
  refine (Anchored.append ?_ ?_).staysBelow
  · exact ((((hstart.append hs.name.isWord.unbroken).append (by decide)).append htarget).append
      (by decide)).append (isWord_decimal _).unbroken
  · cases s.enabled <;> decide

end Server

/-! ## Sections of backends -/

/-- A path has no line feed if neither the directory nor what is below it has one. -/
theorem unbroken_path {dir path : String} (hdir : Unbroken dir) (hpath : Unbroken path) :
    Unbroken (Path.join dir path) := by
  rw [Path.join]
  split_ifs
  · exact hpath
  · exact hdir.append hpath
  · exact (hdir.append (by decide)).append hpath

/-- So the path of a map has none if the name of the map has none. -/
theorem unbroken_mapPath {dir name : String} (hdir : Unbroken dir) (hname : Unbroken name) :
    Unbroken (mapPath dir name) :=
  unbroken_path hdir (hname.append (by decide))

/-- The map that a backend consults has an unbroken path. -/
theorem unbroken_of_pathsMap {g : Generation} {dir path : String} {b : Backend} (hb : b.Sound)
    (hdir : Unbroken dir) (hpath : (g.backendContext dir b).pathsMap = some path) :
    Unbroken path := by
  cases hmode : b.mode with
  | tcp => simp [Generation.backendContext, hmode] at hpath
  | http =>
    obtain ⟨m, hm, href⟩ : ∃ m, g.pathsOf? b.id = some m ∧ m.reference dir = some path := by
      simpa [Generation.backendContext, hmode, Option.bind_eq_some_iff] using hpath
    have hname : m.name = pathsMapName b.id := beq_iff_eq.mp (List.find?_some hm :)
    rw [MapFile.reference] at href
    split_ifs at href
    obtain rfl := Option.some.inj href
    rw [hname]
    exact unbroken_mapPath hdir (hb.id.isWord.unbroken.append (by decide))

section Written

variable {g : Generation} {dir : String} {b : Backend}

/-- A line of a backend that is not about a server begins with one of three words. -/
theorem exists_of_mem_settings (hb : b.Sound) (hbalance : Unbroken b.balance) (hdir : Unbroken dir) :
    ∀ l ∈ (g.backendContext dir b).settings, ∃ w ∈ ["mode", "balance", "http-request"],
      ∃ s, l = w ++ " " ++ s ∧ Unbroken s := by
  have hmode : Unbroken b.mode.word := by cases b.mode <;> decide
  intro l hmem
  rcases List.mem_append.mp hmem with hmem | hmem
  · rcases List.mem_pair.mp hmem with rfl | rfl
    · exact ⟨"mode", by decide, b.mode.word, rfl, hmode⟩
    · exact ⟨"balance", by decide, b.balance, rfl, hbalance⟩
  · obtain ⟨path, hpath, rfl⟩ := List.mem_map.mp hmem
    have hunbroken := unbroken_of_pathsMap hb hdir (eq_some_of_mem_shown hpath)
    refine ⟨"http-request", by decide,
      "set-var(txn.pathID) base,lower,map_beg(" ++ path ++ ",_nomatch)", ?_,
      (Unbroken.append (by decide) hunbroken).append (by decide)⟩
    simp only [String.append_assoc]
    rfl

/-- Every line of the section of a sound backend stays below the first, if none of its texts ends it. -/
theorem staysBelow_written (hb : b.Sound) (hbalance : Unbroken b.balance)
    (hips : ∀ s ∈ b.servers, Unbroken s.ip) (hdir : Unbroken dir) :
    ∀ l ∈ (g.backendContext dir b).written.body, StaysBelow l := by
  have hwords : ∀ w ∈ ["mode", "balance", "http-request"], Anchored (w ++ " ") := by decide
  intro l hmem
  rcases List.mem_append.mp hmem with hmem | hmem
  · obtain ⟨w, hw, s, rfl, hs⟩ := exists_of_mem_settings hb hbalance hdir l hmem
    exact ((hwords w hw).append hs).staysBelow
  · obtain ⟨s, hs, rfl⟩ := List.mem_map.mp hmem
    exact Server.staysBelow_line (hb.servers s hs) (hips s hs)

/-- The addresses of a legible backend end no line. -/
theorem unbroken_addresses (hb : b.Sound) (hl : b.Legible) : ∀ s ∈ b.servers, Unbroken s.ip :=
  fun s hs => ((hl.servers s hs).address (hb.servers s hs)).2

/-- **The lines whose first word is `server` are those of the servers.** -/
theorem filter_written (hb : b.Sound) (hl : b.Legible) (hdir : Unbroken dir) :
    ((g.backendContext dir b).written.body.map tokens).filter (·.head? == some "server")
      = b.servers.map Server.words := by
  have hwords : ∀ w ∈ ["mode", "balance", "http-request"], IsWord w ∧ w ≠ "server" := by decide
  have hsettings : ∀ l ∈ (g.backendContext dir b).settings.map tokens,
      ¬ (l.head? == some "server") = true := by
    rw [List.forall_mem_map]
    intro l hmem
    obtain ⟨w, hw, s, rfl, -⟩ := exists_of_mem_settings hb hl.balance hdir l hmem
    rw [(hwords w hw).1.tokens_append]
    simpa using (hwords w hw).2
  have hlines : (b.servers.map Server.line).map tokens = b.servers.map Server.words := by
    rw [List.map_map]
    refine List.map_congr_left fun s hs => ?_
    rw [Function.comp_apply]
    exact Server.tokens_line (hb.servers s hs) (hl.servers s hs)
  have hservers : ∀ l ∈ b.servers.map Server.words, (l.head? == some "server") = true := by
    rw [List.forall_mem_map]
    exact fun s _ => rfl
  have hbody : (g.backendContext dir b).written.body.map tokens
      = (g.backendContext dir b).settings.map tokens ++ (b.servers.map Server.line).map tokens :=
    List.map_append
  rw [hbody, hlines, List.filter_append, List.filter_eq_nil_iff.mpr hsettings, List.nil_append,
    List.filter_eq_self.mpr hservers]

/-- **A sound and legible backend is read back as it is.** -/
theorem readBackends_written (hb : b.Sound) (hl : b.Legible) (hdir : Unbroken dir) :
    readBackends (g.backendContext dir b).written.text = [⟨b.id, some b.servers⟩] := by
  have hservers : (b.servers.map Server.words).mapM Server.ofWords? = some b.servers := by
    rw [mapM_eq_some_iff, List.forall₂_map_left_iff, List.forall₂_same]
    exact fun s _ => s.ofWords?_words
  have hread : ReadSection.backend? ⟨["backend", b.id],
      (g.backendContext dir b).written.body.map tokens⟩ = some ⟨b.id, some b.servers⟩ := by
    refine congrArg (fun r => some (ReadBackend.mk b.id r)) ?_
    rw [filter_written hb hl hdir, hservers]
  rw [readBackends, ProxySection.readSections_text _ rfl hb.id.isWord.unbroken
    (staysBelow_written hb hl.balance (unbroken_addresses hb hl) hdir), hb.id.isWord.tokens_eq]
  exact List.filterMap_cons_some hread

end Written

/-- **The main file lists the servers of a built generation.**  With the built-in template it can
always be rendered, and it is read section by section: those of the process, then those of the
backends, then the others.  Unless the directory of the maps ends a line, the section of a legible
backend is read as that backend and nothing else: its id, and its servers in order, each with its
name, address, port and weight, and whether it is enabled. -/
theorem rendered_servers_read_back {g : Generation} (hg : g.IsBuilt) (l : Layout)
    (hdir : Unbroken l.mapsDir) :
    (∀ s : TemplateSet, (s.insert ⟨Renderer.proxyInfo l, Builtin.proxy⟩).render
      Renderer.proxyName (g.context l).toValue = .ok (g.context l).text) ∧
    readBackends (g.context l).text
      = [(g.context l).globalWritten, (g.context l).defaultsWritten].flatMap (readBackends ·.text)
        ++ g.backends.flatMap (fun b => readBackends (g.backendContext l.mapsDir b).written.text)
        ++ (g.context l).ownSections.flatMap (readBackends ·.text) ∧
    ∀ b ∈ g.backends, b.Legible →
      readBackends (g.backendContext l.mapsDir b).written.text = [⟨b.id, some b.servers⟩] := by
  refine ⟨(g.context l).render_proxy l, ?_, fun b hb hl =>
    readBackends_written (hg.sound b hb) hl hdir⟩
  have hcontext : (g.context l).backends = g.backends.map (g.backendContext l.mapsDir) := rfl
  rw [readBackends, RenderContext.readSections_text, List.filterMap_flatMap, RenderContext.sections,
    List.flatMap_append, List.flatMap_append, hcontext, List.flatMap_map, List.flatMap_map]
  rfl

/-- Two servers and an empty slot, which is disabled. -/
theorem rendered_servers_read_back_rollout :
    let l : Layout := { configFile := "haproxy.cfg", configDir := ".", mapsDir := "maps" }
    let c := beforeRollout.context l
    (∀ s : TemplateSet, (s.insert ⟨Renderer.proxyInfo l, Builtin.proxy⟩).render
      Renderer.proxyName c.toValue = .ok c.text) ∧
    readBackends c.text
      = [c.globalWritten, c.defaultsWritten].flatMap (readBackends ·.text)
        ++ beforeRollout.backends.flatMap
          (fun b => readBackends (beforeRollout.backendContext l.mapsDir b).written.text)
        ++ c.ownSections.flatMap (readBackends ·.text) ∧
    (∀ b ∈ beforeRollout.backends, b.Legible) ∧
    ∀ b ∈ beforeRollout.backends,
      readBackends (beforeRollout.backendContext l.mapsDir b).written.text
        = [⟨b.id, some b.servers⟩] := by
  intro l c
  have hbuilt : beforeRollout.IsBuilt := ⟨by decide +kernel, by decide +kernel⟩
  have hlegible : ∀ b ∈ beforeRollout.backends, b.Legible := by
    have h : ∀ b ∈ beforeRollout.backends, Unbroken b.balance ∧ ∀ s ∈ b.servers, s.Legible := by
      decide +kernel
    exact fun b hb => ⟨(h b hb).1, (h b hb).2⟩
  obtain ⟨hrender, hread, hback⟩ := rendered_servers_read_back hbuilt l (by decide)
  exact ⟨hrender, hread, hlegible, fun b hb => hback b hb (hlegible b hb)⟩

/-- Four backends with a text that nothing checks: a balancing method and a disabled address that
end the line, a disabled address of two words, and a map in a directory whose name ends the line. -/
def misreadState : DesiredState where
  hosts := [{ hostname := "web.local", routes := [⟨"/", "mapped"⟩] }]
  backends := [
    { id := "balanced", balance := "roundrobin\nserver evil 10.0.0.9:80 weight 1" },
    { id := "broken", servers := [
      { ip := "10.0.0.1:80 weight 1\nserver evil 10.0.0.9", port := 80, enabled := false }] },
    { id := "spaced", servers := [{ ip := "10.0.0.1 check", port := 80, enabled := false }] },
    { id := "mapped" }]

/-- **Texts that nothing checks are misread.**  Building succeeds, and the rendered section of none of
the four backends is read as that backend: three list a server that the backend does not have, and
one has a line that is no line of a server. -/
theorem unchecked_texts_misread :
    let l : Layout := { configFile := "haproxy.cfg", configDir := "."
                        mapsDir := "maps\nserver evil 10.0.0.9:80 weight 1\n" }
    ∃ g text, (Generation.ofState misreadState).build = (.ok (), g) ∧
      TemplateSet.render [⟨Renderer.proxyInfo l, Builtin.proxy⟩] Renderer.proxyName
        (g.context l).toValue = .ok text ∧
      readBackends text = [
        ⟨"balanced", some [{ name := "evil", ip := "10.0.0.9", port := 80 }]⟩,
        ⟨"broken", some [
          { name := "srv001", ip := "10.0.0.1", port := 80 },
          { name := "evil", ip := "10.0.0.9", port := 80, enabled := false }]⟩,
        ⟨"spaced", none⟩,
        ⟨"mapped", some [{ name := "evil", ip := "10.0.0.9", port := 80 }]⟩] ∧
      ∀ b ∈ g.backends, ⟨b.id, some b.servers⟩ ∉ readBackends text := by
  intro l
  have hbuild : (Generation.ofState misreadState).build.1 = .ok () := by decide +kernel
  refine ⟨(Generation.ofState misreadState).build.2, _, Prod.ext hbuild rfl,
    RenderContext.render_proxy _ l [], ?_⟩
  refine (and_iff_left_of_imp fun hread => ?_).mpr ?_
  · rw [hread]
    decide +kernel
  · -- Line by line, no text longer than a line is ever cut.
    rw [readBackends, RenderContext.readSections_lines]
    decide +kernel

end Rollout
