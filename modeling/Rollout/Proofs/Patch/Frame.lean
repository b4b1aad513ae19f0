import Rollout.Proofs.Patch.Live

/-!
# Proofs/Patch/Frame — what a plan leaves alone

Releasing goes through the running servers with a list of wanted ones that gets shorter from match to
match.  Still, what becomes of a server does not depend on the loop: it is matched if it is the first
enabled one at its place and a server is wanted there (`partner`).  `release_eq` says so, and with it
the commands are those of each server taken by itself.  The changes of a plan are known already, so
what is left is to tell which server undergoes which (`maintain_mem_actionsAt_iff`).
-/

namespace Rollout

/-! ## Matches -/

section Match

variable (running wanted : List Server)

/-- **Is this the first enabled server of a list at its place?** -/
abbrev Leads (s : Server) : Prop := running.find? (fun r => r.enabled && r.sameTarget s) = some s

/-- **The wanted server that a running one is matched with.** -/
def partner (s : Server) : Option Server :=
  if Leads running s then wanted.find? s.sameTarget else none

/-- The running servers that are wanted with another weight. -/
def reweighedServers : List Server :=
  running.filter fun s => Leads running s ∧ ∃ w ∈ wanted, s.sameTarget w = true ∧ w.weight ≠ s.weight

/-- The enabled servers that are not wanted any more, or that listen where one before them does. -/
def droppedServers : List Server :=
  running.filter fun s =>
    s.enabled = true ∧ ¬(Leads running s ∧ ∃ w ∈ wanted, s.sameTarget w = true)

/-- The wanted servers at whose place no enabled server runs. -/
def unmatchedServers : List Server :=
  wanted.filter fun w => !running.any fun s => s.enabled && s.sameTarget w

variable {running wanted} {s w : Server}

theorem Leads.enabled (h : Leads running s) : s.enabled = true := by
  have hs : (s.enabled && s.sameTarget s) = true :=
    List.find?_some (p := fun r : Server => r.enabled && r.sameTarget s) h
  exact (Bool.and_eq_true_iff.mp hs).1

/-- At most one server is wanted at a place. -/
theorem eq_of_sameTarget (hplaces : (wanted.map Server.place).Nodup) {v : Server} (hv : v ∈ wanted)
    (hw : w ∈ wanted) (hsv : s.sameTarget v = true) (hsw : s.sameTarget w = true) : v = w :=
  List.inj_on_of_nodup_map hplaces hv hw
    ((Server.sameTarget_iff_place.mp hsv).symm.trans (Server.sameTarget_iff_place.mp hsw))

theorem partner_eq_some_iff (hplaces : (wanted.map Server.place).Nodup) :
    partner running wanted s = some w ↔ Leads running s ∧ w ∈ wanted ∧ s.sameTarget w = true := by
  rw [partner]
  split_ifs with hleads
  · refine ⟨fun h => ⟨hleads, List.mem_of_find?_eq_some h, List.find?_some h⟩, ?_⟩
    rintro ⟨-, hw, hsw⟩
    obtain ⟨v, hv⟩ := Option.isSome_iff_exists.mp (List.find?_isSome.mpr ⟨w, hw, hsw⟩)
    rw [hv, eq_of_sameTarget hplaces (List.mem_of_find?_eq_some hv) hw (List.find?_some hv) hsw]
  · exact ⟨nofun, fun h => absurd h.1 hleads⟩

theorem partner_eq_none_iff :
    partner running wanted s = none ↔ ¬(Leads running s ∧ ∃ w ∈ wanted, s.sameTarget w = true) := by
  rw [partner]
  split_ifs with hleads
  · rw [List.find?_eq_none]
    exact ⟨fun h ⟨_, w, hw, hsw⟩ => h w hw hsw, fun h w hw hsw => h ⟨hleads, w, hw, hsw⟩⟩
  · exact iff_of_true rfl fun h => hleads h.1

end Match

/-! ## Releasing, one server at a time -/

section Release

variable {backend : String} {before rest wanted : List Server} {s : Server}

/-- Erasing drops what it looks for, if that occurs once at most. -/
theorem eraseP_eq_filter {α : Type} {p : α → Bool} : ∀ {l : List α},
    l.Pairwise (fun a b => p a = true → p b = false) → l.eraseP p = l.filter fun a => !p a
  | [], _ => rfl
  | a :: l, h => by
      obtain ⟨ha, hl⟩ := List.pairwise_cons.mp h
      cases hp : p a with
      | true =>
        rw [List.eraseP_cons_of_pos hp, List.filter_cons_of_neg (by simp [hp]), eq_comm,
          List.filter_eq_self]
        exact fun b hb => by rw [ha b hb hp]; rfl
      | false =>
        rw [List.eraseP_cons_of_neg (by simp [hp]), List.filter_cons_of_pos (by simp [hp]),
          eraseP_eq_filter hl]

/-- One more running server is one more reason not to be left over. -/
theorem unmatchedServers_append_singleton :
    unmatchedServers (before ++ [s]) wanted
      = (unmatchedServers before wanted).filter fun w => !(s.enabled && s.sameTarget w) := by
  rw [unmatchedServers, unmatchedServers, List.filter_filter]
  refine List.filter_congr fun w _ => ?_
  rw [List.any_append, Bool.not_or, List.any_cons, List.any_nil, Bool.or_false, Bool.and_comm]

/-- A disabled server has no match. -/
theorem unmatchedServers_of_disabled (he : s.enabled = false) :
    unmatchedServers (before ++ [s]) wanted = unmatchedServers before wanted := by
  rw [unmatchedServers_append_singleton, List.filter_eq_self]
  exact fun w _ => by rw [he]; rfl

/-- Nothing is taken where nothing is found. -/
theorem unmatchedServers_of_not_found
    (hfound : (unmatchedServers before wanted).find? s.sameTarget = none) :
    unmatchedServers (before ++ [s]) wanted = unmatchedServers before wanted := by
  rw [unmatchedServers_append_singleton, List.filter_eq_self]
  intro w hw
  rw [Bool.eq_false_iff.mpr (List.find?_eq_none.mp hfound w hw), Bool.and_false]
  rfl

/-- An enabled server takes its match. -/
theorem unmatchedServers_of_enabled (hplaces : (wanted.map Server.place).Nodup)
    (he : s.enabled = true) : unmatchedServers (before ++ [s]) wanted
      = (unmatchedServers before wanted).eraseP s.sameTarget := by
  have honce : (unmatchedServers before wanted).Pairwise fun v w =>
      s.sameTarget v = true → s.sameTarget w = false := by
    refine ((List.pairwise_map.mp hplaces).sublist List.filter_sublist).imp fun {v w} hvw hsv => ?_
    rw [← Bool.not_eq_true, Server.sameTarget_iff_place]
    exact fun hsw => hvw ((Server.sameTarget_iff_place.mp hsv).symm.trans hsw)
  rw [unmatchedServers_append_singleton, eraseP_eq_filter honce]
  exact List.filter_congr fun w _ => by rw [he, Bool.true_and]

/-- Servers at one place are at the same places as any other. -/
theorem sameTarget_congr {w : Server} (h : s.sameTarget w = true) (r : Server) :
    r.sameTarget w = r.sameTarget s := by
  rw [Bool.eq_iff_iff, Server.sameTarget_iff_place, Server.sameTarget_iff_place,
    Server.sameTarget_iff_place.mp h]

/-- **An earlier server at the place takes the match.** -/
theorem find?_unmatchedServers : (unmatchedServers before wanted).find? s.sameTarget
    = if before.any fun r => r.enabled && r.sameTarget s then none
      else wanted.find? s.sameTarget := by
  have hfree : ∀ w, s.sameTarget w = true →
      (before.any fun r => r.enabled && r.sameTarget w)
        = before.any fun r => r.enabled && r.sameTarget s := fun w hsw =>
    congrArg before.any (funext fun r => congrArg (r.enabled && ·) (sameTarget_congr hsw r))
  rw [unmatchedServers, List.find?_filter]
  split_ifs with htaken
  · refine List.find?_eq_none.mpr fun w _ h => ?_
    obtain ⟨hnone, hsw⟩ := of_decide_eq_true h
    rw [hfree w hsw, htaken] at hnone
    exact nomatch hnone
  · refine congrArg (List.find? · wanted) (funext fun w => ?_)
    cases hsw : s.sameTarget w with
    | false => simp
    | true => simp [hfree w hsw, htaken]

/-- Without one, a server leads its place. -/
theorem leads_append_cons (hnames : ((before ++ s :: rest).map (·.name)).Nodup)
    (he : s.enabled = true) : Leads (before ++ s :: rest) s ↔
      (before.any fun r => r.enabled && r.sameTarget s) = false := by
  have hself : (s.enabled && s.sameTarget s) = true := by
    rw [he, Server.sameTarget_iff_place.mpr rfl]
    rfl
  rw [Leads, List.find?_append, List.any_eq_false]
  constructor
  · intro hfound r hr htaken
    have hsome : (before.find? fun r => r.enabled && r.sameTarget s).isSome = true :=
      List.find?_isSome.mpr ⟨r, hr, htaken⟩
    obtain ⟨t, ht⟩ := Option.isSome_iff_exists.mp hsome
    rw [ht] at hfound
    obtain rfl := Option.some.inj hfound
    rw [List.map_append] at hnames
    exact List.disjoint_of_nodup_append hnames
      (List.mem_map_of_mem (List.mem_of_find?_eq_some ht)) (List.mem_map_of_mem List.mem_cons_self)
  · intro hfree
    rw [List.find?_eq_none.mpr hfree,
      List.find?_cons_of_pos (p := fun r : Server => r.enabled && r.sameTarget s) hself]
    rfl

/-- **A server is matched with what those before it left over.** -/
theorem partner_append_cons (hnames : ((before ++ s :: rest).map (·.name)).Nodup)
    (he : s.enabled = true) : partner (before ++ s :: rest) wanted s
      = (unmatchedServers before wanted).find? s.sameTarget := by
  simp only [partner, leads_append_cons hnames he, find?_unmatchedServers]
  split_ifs <;> simp_all

/-- The command that releasing sends to a server. -/
def releaseCommand (backend : String) (running wanted : List Server) (s : Server) :
    Option ServerCommand :=
  match s.enabled, partner running wanted s with
  | false, _ => none
  | true, none => some ⟨backend, s.name, .maintain⟩
  | true, some w =>
    if w.weight = s.weight then none else some ⟨backend, s.name, .setWeight w.weight⟩

section

variable {running : List Server} {w : Server}

theorem releaseCommand_of_disabled (he : s.enabled = false) :
    releaseCommand backend running wanted s = none := by
  rw [releaseCommand, he]

theorem releaseCommand_of_no_partner (he : s.enabled = true)
    (hpartner : partner running wanted s = none) :
    releaseCommand backend running wanted s = some ⟨backend, s.name, .maintain⟩ := by
  rw [releaseCommand, he, hpartner]

theorem releaseCommand_of_partner (he : s.enabled = true)
    (hpartner : partner running wanted s = some w) :
    releaseCommand backend running wanted s
      = if w.weight = s.weight then none else some ⟨backend, s.name, .setWeight w.weight⟩ := by
  rw [releaseCommand, he, hpartner]

/-- Releasing only takes a server down that has no match. -/
theorem partner_of_releaseCommand {c : ServerCommand}
    (h : releaseCommand backend running wanted s = some c) (hmaintain : c.action = .maintain) :
    s.enabled = true ∧ partner running wanted s = none := by
  cases he : s.enabled with
  | false => exact nomatch h.symm.trans (releaseCommand_of_disabled he)
  | true =>
    cases hpartner : partner running wanted s with
    | none => exact ⟨rfl, rfl⟩
    | some w =>
      rw [releaseCommand_of_partner he hpartner] at h
      split_ifs at h
      obtain rfl := Option.some.inj h
      exact nomatch hmaintain

/-- A command of releasing goes to the server it is for. -/
theorem server_of_releaseCommand {c : ServerCommand}
    (h : releaseCommand backend running wanted s = some c) : c.server = s.name := by
  rw [releaseCommand] at h
  split at h
  · exact nomatch h
  · rw [← Option.some.inj h]
  · split_ifs at h
    rw [← Option.some.inj h]

end

/-- **Releasing treats each server by itself**, behind any others. -/
theorem release_append_eq (hplaces : (wanted.map Server.place).Nodup) :
    ∀ (running before : List Server), ((before ++ running).map (·.name)).Nodup →
      (release backend running (unmatchedServers before wanted)).commands
          = running.filterMap (releaseCommand backend (before ++ running) wanted) ∧
        (release backend running (unmatchedServers before wanted)).wanted
          = unmatchedServers (before ++ running) wanted
  | [], before, _ => by
      rw [List.append_nil]
      exact ⟨rfl, rfl⟩
  | s :: rest, before, hnames => by
      have ih := release_append_eq hplaces rest (before ++ [s]) (by simpa using hnames)
      rw [List.append_assoc, List.singleton_append] at ih
      cases he : s.enabled with
      | false =>
        rw [unmatchedServers_of_disabled he] at ih
        rw [List.filterMap_cons_none (releaseCommand_of_disabled he), release,
          if_neg (by rw [he]; decide)]
        exact ih
      | true =>
        have hpartner : partner (before ++ s :: rest) wanted s = _ := partner_append_cons hnames he
        cases hfound : (unmatchedServers before wanted).find? s.sameTarget with
        | none =>
          rw [unmatchedServers_of_not_found hfound] at ih
          rw [List.filterMap_cons_some (releaseCommand_of_no_partner he (hpartner.trans hfound))]
          simp only [release, he, if_true, hfound]
          exact ⟨congrArg _ ih.1, ih.2⟩
        | some w =>
          have hcommand : releaseCommand backend (before ++ s :: rest) wanted s = _ :=
            releaseCommand_of_partner he (hpartner.trans hfound)
          rw [unmatchedServers_of_enabled hplaces he] at ih
          simp only [release, he, if_true, hfound]
          split_ifs at hcommand ⊢
          · rw [List.filterMap_cons_none hcommand]
            exact ih
          · rw [List.filterMap_cons_some hcommand]
            exact ⟨congrArg _ ih.1, ih.2⟩

/-- **Releasing, server by server.** -/
theorem release_eq {running : List Server} (hplaces : (wanted.map Server.place).Nodup)
    (hnames : (running.map (·.name)).Nodup) :
    (release backend running wanted).commands
        = running.filterMap (releaseCommand backend running wanted) ∧
      (release backend running wanted).wanted = unmatchedServers running wanted := by
  have hall : unmatchedServers [] wanted = wanted := List.filter_eq_self.mpr fun _ _ => rfl
  have h : (release backend running (unmatchedServers [] wanted)).commands = _ ∧ _ :=
    release_append_eq hplaces running [] hnames
  rwa [hall] at h

section

variable {running : List Server}

/-- A server with a match gets a command if it is wanted with another weight. -/
theorem releaseCommand_isSome_iff_reweighed (hplaces : (wanted.map Server.place).Nodup) :
    (releaseCommand backend running wanted s).isSome = true ∧ (partner running wanted s).isSome = true ↔
      Leads running s ∧ ∃ w ∈ wanted, s.sameTarget w = true ∧ w.weight ≠ s.weight := by
  cases hpartner : partner running wanted s with
  | none =>
    refine iff_of_false (fun h => nomatch h.2) fun ⟨hleads, w, hw, hsw, _⟩ => ?_
    exact partner_eq_none_iff.mp hpartner ⟨hleads, w, hw, hsw⟩
  | some w =>
    obtain ⟨hleads, hw, hsw⟩ := (partner_eq_some_iff hplaces).mp hpartner
    rw [releaseCommand_of_partner hleads.enabled hpartner]
    constructor
    · rintro ⟨hsome, -⟩
      refine ⟨hleads, w, hw, hsw, fun hweight => ?_⟩
      rw [if_pos hweight] at hsome
      exact nomatch hsome
    · rintro ⟨-, v, hv, hsv, hweight⟩
      rw [eq_of_sameTarget hplaces hv hw hsv hsw] at hweight
      rw [if_neg hweight]
      exact ⟨rfl, rfl⟩

/-- A server without a match gets a command if it is enabled. -/
theorem releaseCommand_isSome_iff_dropped :
    (releaseCommand backend running wanted s).isSome = true ∧
        (!(partner running wanted s).isSome) = true ↔
      s.enabled = true ∧ ¬(Leads running s ∧ ∃ w ∈ wanted, s.sameTarget w = true) := by
  rw [← partner_eq_none_iff]
  cases hpartner : partner running wanted s with
  | some w => exact iff_of_false (fun h => nomatch h.2) fun h => nomatch h.2
  | none =>
    refine and_congr ?_ (iff_of_true rfl rfl)
    cases he : s.enabled with
    | false => exact iff_of_false (by rw [releaseCommand_of_disabled he]; exact nofun) nofun
    | true => exact iff_of_true (by rw [releaseCommand_of_no_partner he hpartner]; rfl) rfl

/-- **A command for each server that gets another weight, and one for each that is dropped.** -/
theorem length_commands_release (hplaces : (wanted.map Server.place).Nodup)
    (hnames : (running.map (·.name)).Nodup) :
    (release backend running wanted).commands.length
      = (reweighedServers running wanted).length + (droppedServers running wanted).length := by
  -- The servers with a match and those without one are counted apart.
  rw [(release_eq hplaces hnames).1, List.length_filterMap_eq_countP,
    List.countP_eq_countP_filter_add _ _ fun s => (partner running wanted s).isSome,
    List.countP_filter, List.countP_filter, reweighedServers, droppedServers,
    ← List.countP_eq_length_filter, ← List.countP_eq_length_filter]
  congr 1 <;> refine List.countP_congr fun s _ => ?_ <;> rw [Bool.and_eq_true, decide_eq_true_iff]
  · exact releaseCommand_isSome_iff_reweighed hplaces
  · exact releaseCommand_isSome_iff_dropped

end

end Release

/-! ## Filling -/

/-- Three commands fill a slot. -/
theorem length_commands_occupySlots {backend : String} {wanted running servers : List Server}
    {commands : List ServerCommand}
    (h : occupySlots backend wanted running = some (servers, commands)) :
    commands.length = 3 * wanted.length := by
  obtain ⟨slots, hlength, -, rfl⟩ := occupySlots_commands h
  have hthree : ((slots.zip wanted).map fun p => (occupyCommands backend p.1 p.2).length)
      = List.replicate wanted.length 3 := by
    rw [List.eq_replicate_iff, List.length_map, List.length_zip, hlength, min_self]
    refine ⟨rfl, fun n hn => ?_⟩
    obtain ⟨p, -, rfl⟩ := List.mem_map.mp hn
    rfl
  rw [List.length_flatMap, hthree, List.sum_replicate_nat, Nat.mul_comm]

/-! ## Telling changes apart -/

namespace Change

variable {wanted added : List Server} {s t : Server} {as : List ServerAction}

/-- An enabled server that is not taken down keeps running, with the weight it is wanted with. -/
theorem of_not_maintain (h : Change wanted added s as t) (he : s.enabled = true)
    (hdown : .maintain ∉ as) : ∃ w ∈ wanted, s.sameTarget w = true ∧
      (w.weight = s.weight ∧ as = [] ∧ t = s ∨
        w.weight ≠ s.weight ∧ as = [.setWeight w.weight] ∧ t = { s with weight := w.weight }) := by
  cases h with
  | kept w _ mem target weight => exact ⟨w, mem, target, .inl ⟨weight, rfl, rfl⟩⟩
  | reweighed w _ mem target weight => exact ⟨w, mem, target, .inr ⟨weight, rfl, rfl⟩⟩
  | emptied | replaced => exact absurd List.mem_cons_self hdown
  | idle disabled | filled _ disabled => exact nomatch he.symm.trans disabled

/-- A server that is taken down leaves its slot empty or to an added server. -/
theorem of_maintain (h : Change wanted added s as t) (hdown : .maintain ∈ as) :
    ∃ behind, as = .maintain :: behind ∧
      (behind = [] ∧ t = .emptySlot s.name ∨ ∃ w ∈ added, behind = occupyActions w ∧
        t = { w with name := s.name, enabled := true }) := by
  cases h with
  | kept | reweighed | idle | filled => simp [occupyActions] at hdown
  | emptied => exact ⟨[], rfl, .inl ⟨rfl, rfl⟩⟩
  | replaced w _ mem => exact ⟨_, rfl, .inr ⟨w, mem, rfl, rfl⟩⟩

/-- A disabled server stays, or leaves its slot to an added server. -/
theorem of_disabled (h : Change wanted added s as t) (he : s.enabled = false) :
    as = [] ∧ t = s ∨
      ∃ w ∈ added, as = occupyActions w ∧ t = { w with name := s.name, enabled := true } := by
  cases h with
  | kept _ enabled | reweighed _ enabled | emptied enabled | replaced _ enabled =>
    exact nomatch he.symm.trans enabled
  | idle => exact .inl ⟨rfl, rfl⟩
  | filled w _ mem => exact .inr ⟨w, mem, rfl, rfl⟩

end Change

/-! ## The plan of a backend -/

/-- The commands of a plan to one server. -/
def BackendPlan.commandsTo (p : BackendPlan) (name : String) : List ServerCommand :=
  p.commands.filter (·.server == name)

/-- **A plan touches only what changed**: which servers it leaves alone, which it changes and how, and
how many commands that takes. -/
structure BackendPlan.Frame (old current : Backend) (p : BackendPlan) : Prop where
  /-- There are as many servers as before. -/
  length : p.servers.length = old.servers.length
  /-- The first enabled server at its place is left alone if it is wanted there as it is. -/
  kept : ∀ (i : Nat) s w, old.servers[i]? = some s → Leads old.servers s → w ∈ current.enabledServers →
    s.sameTarget w = true → w.weight = s.weight →
      p.commandsTo s.name = [] ∧ p.servers[i]? = some s
  /-- If it is wanted with another weight, one command sets that, and nothing else changes. -/
  reweighed : ∀ (i : Nat) s w, old.servers[i]? = some s → Leads old.servers s →
    w ∈ current.enabledServers → s.sameTarget w = true → w.weight ≠ s.weight →
      p.commandsTo s.name = [⟨current.id, s.name, .setWeight w.weight⟩] ∧
        p.servers[i]? = some { s with weight := w.weight }
  /-- Every other enabled server is taken down first.  Then its slot is empty, or an added server takes
  it. -/
  dropped : ∀ (i : Nat) s, old.servers[i]? = some s → s.enabled = true →
    ¬(Leads old.servers s ∧ ∃ w ∈ current.enabledServers, s.sameTarget w = true) →
      ∃ behind, p.commandsTo s.name = ⟨current.id, s.name, .maintain⟩ :: behind ∧
        (behind = [] ∧ p.servers[i]? = some (.emptySlot s.name) ∨
          ∃ w ∈ unmatchedServers old.servers current.enabledServers,
            behind = occupyCommands current.id s.name w ∧
              p.servers[i]? = some { w with name := s.name, enabled := true })
  /-- A disabled server is left alone, or an added server takes its slot. -/
  idle : ∀ (i : Nat) s, old.servers[i]? = some s → s.enabled = false →
    p.commandsTo s.name = [] ∧ p.servers[i]? = some s ∨
      ∃ w ∈ unmatchedServers old.servers current.enabledServers,
        p.commandsTo s.name = occupyCommands current.id s.name w ∧
          p.servers[i]? = some { w with name := s.name, enabled := true }
  /-- One command for a weight, one for a server that is dropped, three for one that is added. -/
  commands : p.commands.length
    = (reweighedServers old.servers current.enabledServers).length
      + (droppedServers old.servers current.enabledServers).length
      + 3 * (unmatchedServers old.servers current.enabledServers).length

section Plan

variable {old current : Backend} {p : BackendPlan} {s : Server}

/-- The commands to a server are the actions on it. -/
theorem BackendPlan.Spec.commandsTo_eq (h : p.Spec old current) (name : String) :
    p.commandsTo name = (actionsAt current.id name p.commands).map (⟨current.id, name, ·⟩) := by
  have hfilter : p.commandsTo name
      = p.commands.filter fun c => c.backend == current.id && c.server == name :=
    List.filter_congr fun c hc => by rw [(h.targets c hc).1, beq_self_eq_true, Bool.true_and]
  rw [hfilter, actionsAt, List.map_map]
  refine ((List.map_congr_left fun c hc => ?_).trans (List.map_id _)).symm
  obtain ⟨hbackend, hserver⟩ := Bool.and_eq_true_iff.mp (List.mem_filter.mp hc).2
  rw [Function.comp_apply, ← beq_iff_eq.mp hbackend, ← beq_iff_eq.mp hserver]
  rfl

/-- **The servers that are taken down are those without a match.** -/
theorem maintain_mem_actionsAt_iff (hnames : (old.servers.map (·.name)).Nodup)
    (h : planBackend old current = some p) (hs : s ∈ old.servers) :
    .maintain ∈ actionsAt current.id s.name p.commands ↔
      s.enabled = true ∧ partner old.servers current.enabledServers s = none := by
  obtain ⟨hplaces, servers, commands, hslots, rfl⟩ := planBackend_eq_some_iff.mp h
  rw [(release_eq hplaces hnames).1]
  constructor
  · intro hdown
    obtain ⟨c, hc, hmaintain⟩ := List.mem_map.mp hdown
    obtain ⟨hc, hkey⟩ := List.mem_filter.mp hc
    rcases List.mem_append.mp hc with hc | hc
    · obtain ⟨r, hr, hcommand⟩ := List.mem_filterMap.mp hc
      have hname : r.name = s.name := (server_of_releaseCommand hcommand).symm.trans
        (beq_iff_eq.mp (Bool.and_eq_true_iff.mp hkey).2)
      obtain rfl := List.inj_on_of_nodup_map hnames hr hs hname
      exact partner_of_releaseCommand hcommand hmaintain
    · exact absurd hmaintain (mem_commands_occupySlots hslots c hc).2.2
  · rintro ⟨he, hpartner⟩
    have hcommand : releaseCommand current.id old.servers current.enabledServers s = _ :=
      releaseCommand_of_no_partner he hpartner
    exact action_mem_actionsAt
      (List.mem_append_left commands (List.mem_filterMap.mpr ⟨s, hs, hcommand⟩))

/-- **What becomes of the server at a position**, and whether it is taken down. -/
theorem exists_change (hnames : (old.servers.map (·.name)).Nodup)
    (h : planBackend old current = some p) {i : Nat} (hi : old.servers[i]? = some s) :
    ∃ as t, p.commandsTo s.name = as.map (⟨current.id, s.name, ·⟩) ∧ p.servers[i]? = some t ∧
      Change current.enabledServers (unmatchedServers old.servers current.enabledServers) s as t ∧
      (.maintain ∈ as ↔
        s.enabled = true ∧ partner old.servers current.enabledServers s = none) := by
  have hspec := planBackend_spec hnames h
  have hadded : addedServers old current = unmatchedServers old.servers current.enabledServers :=
    (release_eq hspec.places hnames).2
  obtain ⟨t, ht, hchange⟩ := forall₂_getElem? hspec.changes hi
  exact ⟨_, t, hspec.commandsTo_eq s.name, ht, hadded ▸ hchange,
    maintain_mem_actionsAt_iff hnames h (List.mem_of_getElem? hi)⟩

/-- **A server that is matched keeps running**, with the weight that is wanted. -/
theorem exists_change_of_match (hnames : (old.servers.map (·.name)).Nodup)
    (h : planBackend old current = some p) {i : Nat} {w : Server}
    (hi : old.servers[i]? = some s) (hleads : Leads old.servers s)
    (hw : w ∈ current.enabledServers) (hsw : s.sameTarget w = true) :
    w.weight = s.weight ∧ p.commandsTo s.name = [] ∧ p.servers[i]? = some s ∨
      w.weight ≠ s.weight ∧ p.commandsTo s.name = [⟨current.id, s.name, .setWeight w.weight⟩] ∧
        p.servers[i]? = some { s with weight := w.weight } := by
  have hplaces := (planBackend_spec hnames h).places
  obtain ⟨as, t, hcommands, ht, hchange, hdown⟩ := exists_change hnames h hi
  have hpartner := (partner_eq_some_iff hplaces).mpr ⟨hleads, hw, hsw⟩
  obtain ⟨v, hv, hsv, hcases⟩ := hchange.of_not_maintain hleads.enabled fun hmem =>
    nomatch (hdown.mp hmem).2.symm.trans hpartner
  obtain rfl := eq_of_sameTarget hplaces hv hw hsv hsw
  rw [hcommands, ht]
  rcases hcases with ⟨hweight, rfl, rfl⟩ | ⟨hweight, rfl, rfl⟩
  · exact .inl ⟨hweight, rfl, rfl⟩
  · exact .inr ⟨hweight, rfl, rfl⟩

/-- **A plan touches only what changed**, if no two running servers share a name. -/
theorem plan_touches_only_changes (hnames : (old.servers.map (·.name)).Nodup)
    (h : planBackend old current = some p) : p.Frame old current where
  length := (planBackend_spec hnames h).changes.length_eq.symm
  kept _ _ _ hi hleads hw hsw hweight :=
    ((exists_change_of_match hnames h hi hleads hw hsw).resolve_right fun h => h.1 hweight).2
  reweighed _ _ _ hi hleads hw hsw hweight :=
    ((exists_change_of_match hnames h hi hleads hw hsw).resolve_left fun h => hweight h.1).2
  dropped i s hi he hother := by
    obtain ⟨as, t, hcommands, ht, hchange, hdown⟩ := exists_change hnames h hi
    obtain ⟨behind, rfl, hslot⟩ :=
      hchange.of_maintain (hdown.mpr ⟨he, partner_eq_none_iff.mpr hother⟩)
    rw [hcommands, ht]
    refine ⟨_, rfl, ?_⟩
    rcases hslot with ⟨rfl, rfl⟩ | ⟨w, hw, rfl, rfl⟩
    · exact .inl ⟨rfl, rfl⟩
    · exact .inr ⟨w, hw, rfl, rfl⟩
  idle i s hi he := by
    obtain ⟨as, t, hcommands, ht, hchange, -⟩ := exists_change hnames h hi
    rw [hcommands, ht]
    rcases hchange.of_disabled he with ⟨rfl, rfl⟩ | ⟨w, hw, rfl, rfl⟩
    · exact .inl ⟨rfl, rfl⟩
    · exact .inr ⟨w, hw, rfl, rfl⟩
  commands := by
    obtain ⟨hplaces, servers, commands, hslots, rfl⟩ := planBackend_eq_some_iff.mp h
    have hadded : addedServers old current
        = unmatchedServers old.servers current.enabledServers := (release_eq hplaces hnames).2
    rw [List.length_append, length_commands_release hplaces hnames,
      length_commands_occupySlots hslots, hadded]

end Plan

/-- Two servers at one place, one more, and two slots. -/
def crowdedBackend : Backend where
  id := "app"
  servers := [
    { name := "srv001", ip := "10.0.0.1", port := 80 },
    { name := "srv002", ip := "10.0.0.1", port := 80 },
    { name := "srv003", ip := "10.0.0.2", port := 80 },
    .emptySlot "srv004", .emptySlot "srv005"]

/-- One server stays, one gets another weight, and one is new. -/
def spreadBackend : Backend where
  id := "app"
  servers := [
    { name := "a", ip := "10.0.0.1", port := 80 },
    { name := "b", ip := "10.0.0.2", port := 80, weight := 7 },
    { name := "c", ip := "10.0.0.3", port := 80 }]

/-- The first of the two stays.  The second one is taken down, and the new server takes its slot. -/
theorem plan_touches_only_changes_crowded :
    ∃ p, planBackend crowdedBackend spreadBackend = some p ∧ p.Frame crowdedBackend spreadBackend ∧
      p.commandsTo "srv001" = [] ∧ p.commandsTo "srv003" = [⟨"app", "srv003", .setWeight 7⟩] ∧
      p.commands.length = 1 + 1 + 3 * 1 := by
  obtain ⟨p, hp⟩ := Option.isSome_iff_exists.mp
    (show (planBackend crowdedBackend spreadBackend).isSome = true by decide)
  have hframe := plan_touches_only_changes (by decide) hp
  refine ⟨p, hp, hframe, ?_, ?_, hframe.commands.trans (by decide)⟩
  · exact (hframe.kept 0 _ { name := "a", ip := "10.0.0.1", port := 80 } rfl (by decide)
      (by decide) (by decide +kernel) rfl).1
  · exact (hframe.reweighed 2 _ { name := "b", ip := "10.0.0.2", port := 80, weight := 7 } rfl
      (by decide) (by decide +kernel) (by decide +kernel) (by decide +kernel)).1

end Rollout
