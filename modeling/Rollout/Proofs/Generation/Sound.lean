import Mathlib.Data.List.Perm.Basic
import Rollout.Proofs.Generation.Name
import Rollout.Proofs.State.Slots
import Rollout.Proofs.Traversal

/-!
# Proofs/Generation/Sound — what a built generation is made of

`Server.Sound` and `Backend.Sound` say what the backend phase asks for, and `checkBackends` accepts
exactly the lists of sound backends under distinct ids (`checkBackends_eq_ok_iff`).

A generation `IsBuilt` when both phases succeed on it and reproduce the artifacts it carries.
Padding, sorting and every other exchange of server lists by sound ones keep it built
(`IsBuilt.withBackends`): the artifacts depend on the ids of the backends only.
-/

namespace Rollout

@[simp] theorem ensure_eq_ok_iff {ε : Type} {holds : Bool} {e : ε} :
    ensure holds e = .ok () ↔ holds = true := by
  rw [ensure]
  cases holds <;> simp

/-- **What a server needs**: a name, and if it takes traffic a port and an address. -/
structure Server.Sound (s : Server) : Prop where
  name : SoundName s.name
  port : s.enabled = true → s.port ≠ 0
  address : s.enabled = true → (Address.parse s.ip).isSome = true

/-- **A backend that passes its checks.** -/
structure Backend.Sound (b : Backend) : Prop where
  id : SoundName b.id
  servers : ∀ s ∈ b.servers, s.Sound
  names : (b.servers.map (·.name)).Nodup

/-- An empty slot needs a sound name only. -/
theorem Server.Sound.emptySlot {name : String} (h : SoundName name) :
    (Server.emptySlot name).Sound := ⟨h, nofun, nofun⟩

theorem Server.sound_iff {s : Server} : s.Sound ↔ SoundName s.name ∧
    (s.enabled = true → s.port ≠ 0 ∧ (Address.parse s.ip).isSome = true) :=
  ⟨fun h => ⟨h.name, fun he => ⟨h.port he, h.address he⟩⟩,
    fun h => ⟨h.1, fun he => (h.2 he).1, fun he => (h.2 he).2⟩⟩

instance (s : Server) : Decidable s.Sound := decidable_of_iff' _ Server.sound_iff

/-- **The server check passes exactly the sound servers under distinct names.** -/
theorem checkServers_eq_ok_iff {backend : String} : ∀ {servers : List Server} {seen : List String},
    checkServers backend seen servers = .ok () ↔
      (∀ s ∈ servers, s.Sound) ∧ (servers.map (·.name)).Nodup ∧ ∀ s ∈ servers, s.name ∉ seen
  | [], seen => by simp [checkServers]
  | s :: rest, seen => by
      have hs : s.Sound ∧ s.name ∉ seen ∧ checkServers backend (s.name :: seen) rest = .ok () ↔
          checkServers backend seen (s :: rest) = .ok () := by
        rw [checkServers, check_bind_eq_ok_iff, check_bind_eq_ok_iff, checkName_eq_ok_iff,
          ensure_eq_ok_iff, Server.sound_iff]
        cases he : s.enabled <;> simp [check_bind_eq_ok_iff, and_assoc, and_left_comm]
      rw [← hs, checkServers_eq_ok_iff]
      simp only [List.mem_cons, forall_eq_or_imp, List.map_cons, List.nodup_cons, List.mem_map,
        not_or, not_exists, not_and]
      constructor
      · rintro ⟨hsound, hseen, hrest, hnodup, hnew⟩
        exact ⟨⟨hsound, hrest⟩, ⟨fun t ht => (hnew t ht).1, hnodup⟩, hseen,
          fun t ht => (hnew t ht).2⟩
      · rintro ⟨⟨hsound, hrest⟩, ⟨hne, hnodup⟩, hseen, hnew⟩
        exact ⟨hsound, hseen, hrest, hnodup, fun t ht => ⟨hne t ht, hnew t ht⟩⟩

theorem Backend.sound_iff {b : Backend} :
    b.Sound ↔ SoundName b.id ∧ (∀ s ∈ b.servers, s.Sound) ∧ (b.servers.map (·.name)).Nodup :=
  ⟨fun h => ⟨h.id, h.servers, h.names⟩, fun h => ⟨h.1, h.2.1, h.2.2⟩⟩

instance (b : Backend) : Decidable b.Sound := decidable_of_iff' _ Backend.sound_iff

/-- **The backend check passes exactly the sound backends under distinct ids.** -/
theorem checkBackends_eq_ok_iff : ∀ {backends : List Backend} {seen : List String},
    checkBackends seen backends = .ok () ↔
      (∀ b ∈ backends, b.Sound) ∧ (backends.map (·.id)).Nodup ∧ ∀ b ∈ backends, b.id ∉ seen
  | [], seen => by simp [checkBackends]
  | b :: rest, seen => by
      have hb : b.Sound ∧ b.id ∉ seen ∧ checkBackends (b.id :: seen) rest = .ok () ↔
          checkBackends seen (b :: rest) = .ok () := by
        rw [checkBackends, check_bind_eq_ok_iff, check_bind_eq_ok_iff, check_bind_eq_ok_iff,
          checkName_eq_ok_iff, ensure_eq_ok_iff, checkServers_eq_ok_iff]
        constructor
        · rintro ⟨h, hseen, hrest⟩
          exact ⟨h.id, by simpa using hseen,
            ⟨h.servers, h.names, fun _ _ => List.not_mem_nil⟩, hrest⟩
        · rintro ⟨hid, hseen, ⟨hservers, hnames, -⟩, hrest⟩
          exact ⟨⟨hid, hservers, hnames⟩, by simpa using hseen, hrest⟩
      rw [← hb, checkBackends_eq_ok_iff]
      simp only [List.mem_cons, forall_eq_or_imp, List.map_cons, List.nodup_cons, List.mem_map,
        not_or, not_exists, not_and]
      constructor
      · rintro ⟨hsound, hseen, hrest, hnodup, hnew⟩
        exact ⟨⟨hsound, hrest⟩, ⟨fun c hc => (hnew c hc).1, hnodup⟩, hseen,
          fun c hc => (hnew c hc).2⟩
      · rintro ⟨⟨hsound, hrest⟩, ⟨hne, hnodup⟩, hseen, hnew⟩
        exact ⟨hsound, hseen, hrest, hnodup, fun c hc => ⟨hne c hc, hnew c hc⟩⟩

namespace DesiredState

/-- **When the backend phase succeeds, and with what.** -/
theorem backendMaps_eq_ok_iff {d : DesiredState} {ms : List MapFile} :
    d.backendMaps = .ok ms ↔
      (∀ b ∈ d.backends, b.Sound) ∧ (d.backends.map (·.id)).Nodup ∧
        (∀ id ∈ d.defaultBackend, d.declares id = true) ∧ d.checkRoutes = .ok () ∧
          d.routedBackends.map d.pathsMap = ms := by
  rw [backendMaps, check_bind_eq_ok_iff, checkBackends_eq_ok_iff]
  cases hd : d.defaultBackend with
  | none => simp [check_bind_eq_ok_iff, pure, Except.pure, and_assoc]
  | some id => simp [check_bind_eq_ok_iff, pure, Except.pure, and_assoc]

theorem declares_iff {d : DesiredState} {id : String} :
    d.declares id = true ↔ id ∈ d.backends.map (·.id) := by
  simp [declares]

/-- Only the ids of the backends decide which ids are declared. -/
theorem declares_eq_of_perm {d : DesiredState} {bs : List Backend}
    (h : (bs.map (·.id)).Perm (d.backends.map (·.id))) (id : String) :
    ({ d with backends := bs } : DesiredState).declares id = d.declares id := by
  rw [Bool.eq_iff_iff, declares_iff, declares_iff]
  exact h.mem_iff

/-- **The frontend phase does not look at the backends.** -/
theorem frontendGroup_withBackends (d : DesiredState) (bs : List Backend) :
    ({ d with backends := bs } : DesiredState).frontendGroup = d.frontendGroup := rfl

/-- **The backend phase accepts other sound backends under the same ids, with the same result.** -/
theorem backendMaps_withBackends {d : DesiredState} {bs : List Backend} {ms : List MapFile}
    (h : d.backendMaps = .ok ms) (hsound : ∀ b ∈ bs, b.Sound)
    (hids : (bs.map (·.id)).Perm (d.backends.map (·.id))) :
    ({ d with backends := bs } : DesiredState).backendMaps = .ok ms := by
  obtain ⟨-, hnodup, hdefault, hroutes, hms⟩ := backendMaps_eq_ok_iff.mp h
  have hdeclares := declares_eq_of_perm hids
  refine backendMaps_eq_ok_iff.mpr ⟨hsound, hids.nodup_iff.mpr hnodup, fun id hid => ?_, ?_, hms⟩
  · rw [hdeclares]
    exact hdefault id hid
  · rw [← hroutes]
    simp only [checkRoutes, hdeclares]

end DesiredState

namespace Generation

theorem mem_of_backend?_eq_some {g : Generation} {id : String} {b : Backend}
    (h : g.backend? id = some b) : b ∈ g.backends ∧ b.id = id := by
  have hid := List.find?_some (p := fun b : Backend => b.id == id) h
  exact ⟨List.mem_of_find?_eq_some h, beq_iff_eq.mp hid⟩

/-- **A backend is the one of its id**, if no id is listed twice. -/
theorem backend?_eq_some_iff_of_nodup {g : Generation} (h : (g.backends.map (·.id)).Nodup)
    {id : String} {b : Backend} : g.backend? id = some b ↔ b ∈ g.backends ∧ b.id = id := by
  refine ⟨mem_of_backend?_eq_some, ?_⟩
  rintro ⟨hb, rfl⟩
  cases hc : g.backend? b.id with
  | none => exact absurd (List.find?_eq_none.mp hc b hb) (by simp)
  | some c =>
    obtain ⟨hmem, hid⟩ := mem_of_backend?_eq_some hc
    rw [List.inj_on_of_nodup_map h hmem hb hid]

/-! ## Built generations -/

/-- The generation with other backends, its artifacts as they are. -/
def withBackends (g : Generation) (bs : List Backend) : Generation :=
  { g with state := { g.state with backends := bs } }

@[simp] theorem backends_withBackends (g : Generation) (bs : List Backend) :
    (g.withBackends bs).backends = bs := rfl

/-- **Both phases succeed on the generation, and find the artifacts it carries.** -/
structure IsBuilt (g : Generation) : Prop where
  frontends : g.buildFrontends = (.ok (), g)
  backends : g.buildBackends = (.ok (), g)

/-- The frontend phase sets or clears its artifact. -/
theorem buildFrontends_cases (g : Generation) :
    (∃ f, g.state.frontendGroup = .ok f ∧
      g.buildFrontends = (.ok (), { g with frontends := some f })) ∨
    ∃ e, g.state.frontendGroup = .error e ∧
      g.buildFrontends = (.error e, { g with frontends := none }) := by
  rw [buildFrontends]
  cases h : g.state.frontendGroup with
  | ok f => exact Or.inl ⟨f, rfl, rfl⟩
  | error e => exact Or.inr ⟨e, rfl, rfl⟩

/-- The backend phase sets or clears its artifact. -/
theorem buildBackends_cases (g : Generation) :
    (∃ ms, g.state.backendMaps = .ok ms ∧
      g.buildBackends = (.ok (), { g with pathMaps := some ms })) ∨
    ∃ e, g.state.backendMaps = .error e ∧
      g.buildBackends = (.error e, { g with pathMaps := none }) := by
  rw [buildBackends]
  cases h : g.state.backendMaps with
  | ok ms => exact Or.inl ⟨ms, rfl, rfl⟩
  | error e => exact Or.inr ⟨e, rfl, rfl⟩

theorem isBuilt_iff {g : Generation} : g.IsBuilt ↔
    (∃ f, g.state.frontendGroup = .ok f ∧ g.frontends = some f) ∧
      ∃ ms, g.state.backendMaps = .ok ms ∧ g.pathMaps = some ms := by
  constructor
  · rintro ⟨hf, hb⟩
    refine ⟨?_, ?_⟩
    · rcases g.buildFrontends_cases with ⟨f, hok, h⟩ | ⟨e, -, h⟩ <;> rw [h, Prod.mk.injEq] at hf
      · exact ⟨f, hok, (congrArg Generation.frontends hf.2).symm⟩
      · exact nomatch hf.1
    · rcases g.buildBackends_cases with ⟨ms, hok, h⟩ | ⟨e, -, h⟩ <;> rw [h, Prod.mk.injEq] at hb
      · exact ⟨ms, hok, (congrArg Generation.pathMaps hb.2).symm⟩
      · exact nomatch hb.1
  · rintro ⟨⟨f, hf, hf'⟩, ms, hb, hb'⟩
    obtain ⟨state, frontends, pathMaps⟩ := g
    obtain rfl := hf'
    obtain rfl := hb'
    exact ⟨by rw [buildFrontends, hf], by rw [buildBackends, hb]⟩

namespace IsBuilt

variable {g : Generation}

/-- A built generation carries both artifacts. -/
theorem artifacts (h : g.IsBuilt) : g.frontends.isSome = true ∧ g.pathMaps.isSome = true := by
  obtain ⟨⟨f, -, hf⟩, ms, -, hms⟩ := isBuilt_iff.mp h
  rw [hf, hms]
  exact ⟨rfl, rfl⟩

/-- **The backends of a built generation are sound.** -/
theorem sound (h : g.IsBuilt) : ∀ b ∈ g.backends, b.Sound := by
  obtain ⟨-, ms, hms, -⟩ := isBuilt_iff.mp h
  exact (DesiredState.backendMaps_eq_ok_iff.mp hms).1

/-- **The ids of a built generation are distinct.** -/
theorem nodup_ids (h : g.IsBuilt) : (g.backends.map (·.id)).Nodup := by
  obtain ⟨-, ms, hms, -⟩ := isBuilt_iff.mp h
  exact (DesiredState.backendMaps_eq_ok_iff.mp hms).2.1

/-- In a built generation, a backend is the one of its id. -/
theorem backend?_eq_some_iff (h : g.IsBuilt) {id : String} {b : Backend} :
    g.backend? id = some b ↔ b ∈ g.backends ∧ b.id = id :=
  backend?_eq_some_iff_of_nodup h.nodup_ids

/-- **Other sound backends under the same ids keep a generation built.** -/
theorem withBackends (h : g.IsBuilt) {bs : List Backend} (hsound : ∀ b ∈ bs, b.Sound)
    (hids : (bs.map (·.id)).Perm (g.backends.map (·.id))) :
    (g.withBackends bs).IsBuilt := by
  obtain ⟨⟨f, hf, hf'⟩, ms, hms, hms'⟩ := isBuilt_iff.mp h
  exact isBuilt_iff.mpr ⟨⟨f, (g.state.frontendGroup_withBackends bs).trans hf, hf'⟩,
    ms, DesiredState.backendMaps_withBackends hms hsound hids, hms'⟩

/-- A change of every backend that keeps ids and soundness keeps a generation built. -/
theorem mapBackends (h : g.IsBuilt) {f : Backend → Backend} (hid : ∀ b, (f b).id = b.id)
    (hsound : ∀ b : Backend, b.Sound → (f b).Sound) : (g.mapBackends f).IsBuilt := by
  refine h.withBackends (fun b hb => ?_) (List.Perm.of_eq ?_)
  · obtain ⟨c, hc, rfl⟩ := List.mem_map.mp hb
    exact hsound c (h.sound c hc)
  · rw [List.map_map]
    exact List.map_congr_left fun b _ => hid b

end IsBuilt

end Generation

/-! ## Padding and sorting keep a backend sound -/

namespace Backend.Sound

variable {b : Backend}

theorem pad (h : b.Sound) (k : Nat) : (b.pad k).Sound where
  id := by rw [id_pad]; exact h.id
  servers s hs := by
    rw [servers_pad] at hs
    rcases List.mem_append.mp hs with hs | hs
    · exact h.servers s hs
    · obtain ⟨name, hname, rfl⟩ := List.mem_map.mp hs
      obtain ⟨n, rfl⟩ := exists_of_mem_slotNames hname
      exact .emptySlot (soundName_serverName n)
  names := by
    rw [names_pad]
    exact nodup_append_slotNames _ h.names

theorem sortServers (h : b.Sound) : b.sortServers.Sound where
  id := h.id
  servers s hs := h.servers s (b.servers_sortServers_perm.mem_iff.mp hs)
  names := (b.servers_sortServers_perm.map _).nodup_iff.mpr h.names

end Backend.Sound

end Rollout
