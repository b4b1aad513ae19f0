import Mathlib.Data.List.Forall2
import Mathlib.Data.List.Perm.Basic
import Rollout.Patch.Plan
import Rollout.Proofs.Generation.Sound

/-!
# Proofs/Patch/Change — what a plan does to each running server

A plan interleaves commands to many servers.  `actionsAt` projects the stream to one of them, and
`Change` lists the six things that can happen to a server: it keeps running, it is given another
weight, it is emptied, an idle slot stays idle, and a slot — idle before or just emptied — is
filled.  `planBackend_spec` says that every server of the running list undergoes one of them, and
everything else about a plan is read off that pairing.

The servers a plan adds are those that `release` leaves unmatched; none of them listens where an
enabled server runs (`not_sameTarget_of_mem_wanted`), so a server that is still wanted is never
taken down.
-/

namespace Rollout

/-! ## The actions on one server -/

/-- **What a stream of commands does to one server**, in order. -/
def actionsAt (backend server : String) (cs : List ServerCommand) : List ServerAction :=
  (cs.filter fun c => c.backend == backend && c.server == server).map (·.action)

section ActionsAt

variable {backend server : String}

@[simp] theorem actionsAt_nil : actionsAt backend server [] = [] := rfl

@[simp] theorem actionsAt_append (cs ds : List ServerCommand) :
    actionsAt backend server (cs ++ ds)
      = actionsAt backend server cs ++ actionsAt backend server ds := by
  rw [actionsAt, List.filter_append, List.map_append]
  rfl

/-- A command to the server comes first. -/
theorem actionsAt_cons_self (a : ServerAction) (cs : List ServerCommand) :
    actionsAt backend server (⟨backend, server, a⟩ :: cs) = a :: actionsAt backend server cs := by
  simp [actionsAt]

/-- A command to another backend or to another server does not count. -/
theorem actionsAt_cons_of_key_ne {b s : String} (h : (backend, server) ≠ (b, s)) (a : ServerAction)
    (cs : List ServerCommand) :
    actionsAt backend server (⟨b, s, a⟩ :: cs) = actionsAt backend server cs := by
  rw [actionsAt, List.filter_cons_of_neg]
  · rfl
  · rw [Bool.and_eq_true, beq_iff_eq, beq_iff_eq]
    exact fun heq => h (Prod.ext heq.1.symm heq.2.symm)

/-- A command to another server does not count. -/
theorem actionsAt_cons_of_ne {other : String} (h : other ≠ server) (a : ServerAction)
    (cs : List ServerCommand) :
    actionsAt backend server (⟨backend, other, a⟩ :: cs) = actionsAt backend server cs :=
  actionsAt_cons_of_key_ne (fun heq => h (Prod.mk.inj heq).2.symm) a cs

/-- Nothing happens to a server that no command names. -/
theorem actionsAt_eq_nil {cs : List ServerCommand} (h : ∀ c ∈ cs, c.server ≠ server) :
    actionsAt backend server cs = [] := by
  rw [actionsAt, List.filter_eq_nil_iff.mpr fun c hc => by simp [h c hc]]
  rfl

/-- Nothing happens in a backend that no command names. -/
theorem actionsAt_eq_nil_of_backend {cs : List ServerCommand} (h : ∀ c ∈ cs, c.backend ≠ backend) :
    actionsAt backend server cs = [] := by
  rw [actionsAt, List.filter_eq_nil_iff.mpr fun c hc => by simp [h c hc]]
  rfl

end ActionsAt

/-- The actions that bring a server up in a slot. -/
def occupyActions (s : Server) : List ServerAction :=
  [.setAddress s.ip s.port, .setWeight s.weight, .makeReady]

/-! ## The six changes -/

/-- **What can happen to one running server**: the actions it receives, and the server that the list
holds in its place.  `wanted` are the servers to be served, `added` those of them that do not run
yet. -/
inductive Change (wanted added : List Server) (s : Server) : List ServerAction → Server → Prop where
  | kept (w : Server) (enabled : s.enabled = true) (mem : w ∈ wanted)
      (target : s.sameTarget w = true) (weight : w.weight = s.weight) : Change wanted added s [] s
  | reweighed (w : Server) (enabled : s.enabled = true) (mem : w ∈ wanted)
      (target : s.sameTarget w = true) (weight : w.weight ≠ s.weight) :
      Change wanted added s [.setWeight w.weight] { s with weight := w.weight }
  | emptied (enabled : s.enabled = true) :
      Change wanted added s [.maintain] (Server.emptySlot s.name)
  | idle (disabled : s.enabled = false) : Change wanted added s [] s
  | filled (w : Server) (disabled : s.enabled = false) (mem : w ∈ added) :
      Change wanted added s (occupyActions w) { w with name := s.name, enabled := true }
  | replaced (w : Server) (enabled : s.enabled = true) (mem : w ∈ added) :
      Change wanted added s (.maintain :: occupyActions w)
        { w with name := s.name, enabled := true }

theorem Server.sameTarget_iff {s t : Server} :
    s.sameTarget t = true ↔ s.ip = t.ip ∧ s.port = t.port := by
  simp [sameTarget]

/-- Servers at the same place and of the same weight look the same to traffic. -/
theorem Server.live_eq_of_sameTarget {s t : Server} (h : s.sameTarget t = true)
    (hw : t.weight = s.weight) : s.live = t.live := by
  obtain ⟨hip, hport⟩ := sameTarget_iff.mp h
  rw [live, live, hip, hport, hw]

namespace Change

variable {wanted added : List Server} {s t : Server} {as : List ServerAction}

/-- **A slot keeps its name**, whatever runs in it. -/
theorem name_eq (h : Change wanted added s as t) : t.name = s.name := by
  cases h <;> rfl

/-- A change without actions is none. -/
theorem eq_of_nil (h : Change wanted added s [] t) : t = s := by
  cases h <;> rfl

/-- A change of a sound server, made for sound servers, leaves a sound one. -/
theorem sound (h : Change wanted added s as t) (hs : s.Sound)
    (hadded : ∀ w ∈ added, w.Sound ∧ w.enabled = true) : t.Sound := by
  cases h with
  | kept | idle => exact hs
  | reweighed => exact ⟨hs.name, hs.port, hs.address⟩
  | emptied => exact .emptySlot hs.name
  | filled w _ mem | replaced w _ mem =>
    obtain ⟨hw, he⟩ := hadded w mem
    exact ⟨hs.name, fun _ => hw.port he, fun _ => hw.address he⟩

/-- **A slot that was left idle or emptied can be filled.** -/
theorem fill (h : Change wanted added s as t) (ht : t.enabled = false) {w : Server}
    (hw : w ∈ added) : Change wanted added s (as ++ occupyActions w)
      { w with name := t.name, enabled := true } := by
  cases h with
  | kept _ enabled | reweighed _ enabled => exact nomatch enabled.symm.trans ht
  | emptied enabled => exact .replaced w enabled hw
  | idle disabled => exact .filled w disabled hw
  | filled | replaced => exact nomatch ht

end Change

end Rollout
