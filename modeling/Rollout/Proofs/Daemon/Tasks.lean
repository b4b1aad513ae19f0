import Mathlib.Logic.Function.Basic
import Rollout.Daemon.Tasks
import Rollout.Proofs.Daemon.Unloadable

/-!
# Proofs/Daemon/Tasks — cycles are serial, and answered once

Every job has a `Story`: what was told of it so far, and how it stands.  A step of the daemon adds to the
story of one job at most, and `Standings` says where the jobs of each standing are found, so a run leaves
every job with a story (`Run.accounted`).  The processor is at one stage, hence at most one job has a cycle
in progress, and the story of an answered job is that of a cycle of its own.  Next to it the history tallies
the ends of the cycles (`Run.tallies`).
-/

namespace Rollout

/-! ## The story of a job -/

/-- The job that an event is about. -/
def Event.job? : Event → Option Job
  | .accepted j | .queued j | .began j | .loaded j _ | .updated j _ | .recorded j _ | .answered j _
  | .refused j => some j
  | .ready => some .startup
  | .told _ | .stopAsked | .stopped | .changed => none

/-- **The events about a job**, in order. -/
def about (j : Job) (es : List Event) : List Event := es.filter fun e => e.job? = some j

variable {j k : Job} {es : List Event} {e : Event}

theorem about_snoc_of_eq (h : e.job? = some j) : about j (es ++ [e]) = about j es ++ [e] := by
  rw [about, List.filter_append, List.filter_cons_of_pos (by simpa using h), List.filter_nil]
  rfl

theorem about_snoc_of_ne (h : e.job? ≠ some j) : about j (es ++ [e]) = about j es := by
  rw [about, List.filter_append, List.filter_cons_of_neg (by simpa using h), List.filter_nil,
    List.append_nil]
  rfl

theorem mem_of_mem_about (h : e ∈ about j es) : e ∈ es := List.mem_of_mem_filter h

theorem mem_about (h : e ∈ es) (hjob : e.job? = some j) : e ∈ about j es :=
  List.mem_filter.mpr ⟨h, by simpa using hjob⟩

/-- The first event about a job is somewhere, and the others come after it. -/
theorem split_of_about_eq_cons {rest : List Event} (h : about j es = e :: rest) :
    ∃ before after, es = before ++ e :: after ∧ about j after = rest := by
  obtain ⟨before, after, heq, -, -, hrest⟩ := List.filter_eq_cons_iff.mp h
  exact ⟨before, after, heq, hrest⟩

/-- Is the event an answer to the job? -/
def Event.answers (j : Job) : Event → Bool
  | .answered k _ => k = j
  | _ => false

/-- Who answers a job is about it. -/
theorem countP_answers_about (j : Job) (es : List Event) :
    (about j es).countP (Event.answers j) = es.countP (Event.answers j) := by
  rw [about, List.countP_filter]
  refine List.countP_congr fun e _ => ?_
  cases e <;> simp [Event.answers, Event.job?]

/-- The job that the processor has a cycle of. -/
def Stage.job? : Stage → Option Job
  | .starting => some .startup
  | .begun j _ | .loaded j _ _ | .ended j _ _ | .recorded j _ => some j
  | .idle | .stopped => none

/-- **How a job stands.** -/
inductive Standing where
  | unknown
  | offered
  | queued
  | running (stage : Stage)
  | over

namespace Standing

/-- Does the job wait for room in the queue? -/
def isOffered : Standing → Bool
  | .offered => true
  | _ => false

/-- Is the job in the queue? -/
def isQueued : Standing → Bool
  | .queued => true
  | _ => false

/-- Does the job wait, is it unknown or is it over? -/
def isAtRest : Standing → Bool
  | .running _ => false
  | _ => true

end Standing

/-- **What was told of a job that stands somehow.** -/
inductive Story (j : Job) : List Event → Standing → Prop where
  | unknown : Story j [] .unknown
  | starting (startup : j = .startup) : Story j [] (.running .starting)
  | accepted {es : List Event} : Story j es .unknown → Story j (es ++ [.accepted j]) .offered
  | queued {es : List Event} : Story j es .offered → Story j (es ++ [.queued j]) .queued
  | started {es : List Event} (started : Nat) :
      Story j es (.running .starting) → Story j (es ++ [.began j]) (.running (.begun j started))
  | taken {es : List Event} (started : Nat) :
      Story j es .queued → Story j (es ++ [.began j]) (.running (.begun j started))
  | unloaded {es : List Event} {started : Nat} (error : StateError) :
      Story j es (.running (.begun j started)) →
      Story j (es ++ [.loaded j (.error error)]) (.running (.ended j started (.error error)))
  | loaded {es : List Event} {started : Nat} (state : DesiredState) :
      Story j es (.running (.begun j started)) →
      Story j (es ++ [.loaded j (.ok state)]) (.running (.loaded j started state))
  | updated {es : List Event} {started : Nat} {state : DesiredState} (report : Report) :
      Story j es (.running (.loaded j started state)) →
      Story j (es ++ [.updated j report]) (.running (.ended j started (.ok report)))
  | recorded {es : List Event} {started : Nat} {r : Except StateError Report}
      (ended finishedAt : Nat) : Story j es (.running (.ended j started r)) →
      Story j (es ++ [.recorded j (j.result started ended finishedAt r)])
        (.running (.recorded j (j.result started ended finishedAt r)))
  | answered {es : List Event} {result : Except DaemonError CycleSummary} (asked : j ≠ .startup) :
      Story j es (.running (.recorded j result)) → Story j (es ++ [.answered j result]) .over
  | settled {es : List Event} {result : Except DaemonError CycleSummary} (startup : j = .startup) :
      Story j es (.running (.recorded j result)) → Story j (es ++ [.ready]) .over
  | refused {es : List Event} : Story j es .offered → Story j (es ++ [.refused j]) .over
  | dropped {es : List Event} : Story j es .queued → Story j (es ++ [.refused j]) .over

/-- **What was told of a job that was answered**: it was accepted and queued, a cycle of its own loaded
the state file and, if that held a state, updated; and its end was entered before it was told. -/
inductive Served (j : Job) : List Event → Except DaemonError CycleSummary → Prop where
  | unloaded (error : StateError) :
      Served j [.accepted j, .queued j, .began j, .loaded j (.error error),
        .recorded j (.error (.state error)), .answered j (.error (.state error))]
        (.error (.state error))
  | updated (state : DesiredState) (summary : CycleSummary) (source : summary.source = j.source) :
      Served j [.accepted j, .queued j, .began j, .loaded j (.ok state), .updated j summary.report,
        .recorded j (.ok summary), .answered j (.ok summary)] (.ok summary)

namespace Served

variable {told : List Event} {result : Except DaemonError CycleSummary}

theorem countP_answers (h : Served j told result) : told.countP (Event.answers j) = 1 := by
  cases h <;> simp [Event.answers]

theorem recorded_mem (h : Served j told result) : .recorded j result ∈ told := by
  cases h <;> simp

/-- What was told of a job with a good answer. -/
theorem eq_of_ok {summary : CycleSummary} (h : Served j told (.ok summary)) :
    ∃ state, told = [.accepted j, .queued j, .began j, .loaded j (.ok state),
      .updated j summary.report, .recorded j (.ok summary), .answered j (.ok summary)] := by
  cases h with
  | updated state => exact ⟨state, rfl⟩

end Served

namespace Story

theorem eq_of_unknown (h : Story j es .unknown) : es = [] := by
  cases h
  rfl

theorem eq_of_starting (h : Story j es (.running .starting)) : es = [] ∧ j = .startup := by
  cases h with
  | starting startup => exact ⟨rfl, startup⟩

theorem eq_of_offered (h : Story j es .offered) : es = [.accepted j] := by
  cases h with
  | accepted h => rw [h.eq_of_unknown, List.nil_append]

theorem eq_of_queued (h : Story j es .queued) : es = [.accepted j, .queued j] := by
  cases h with
  | queued h => rw [h.eq_of_offered, List.singleton_append]

variable {started : Nat} {result : Except DaemonError CycleSummary}

theorem eq_of_begun (h : Story j es (.running (.begun k started))) (hasked : j ≠ .startup) :
    es = [.accepted j, .queued j, .began j] := by
  cases h with
  | started _ h => exact absurd h.eq_of_starting.2 hasked
  | taken _ h => rw [h.eq_of_queued]; rfl

theorem recorded_mem (h : Story j es (.running (.recorded k result))) :
    .recorded j result ∈ es := by
  cases h
  exact List.mem_append_right _ (List.mem_singleton_self _)

theorem loaded_mem {state : DesiredState} (h : Story j es (.running (.loaded k started state))) :
    .loaded j (.ok state) ∈ es := by
  cases h
  exact List.mem_append_right _ (List.mem_singleton_self _)

/-- **The story of a job whose cycle is over.** -/
theorem served (h : Story j es (.running (.recorded k result))) (hasked : j ≠ .startup) :
    Served j (es ++ [.answered j result]) result := by
  cases h with
  | @recorded _ started _ ended finishedAt h =>
    cases h with
    | unloaded error h =>
      rw [h.eq_of_begun hasked]
      exact .unloaded error
    | @updated _ _ state report h =>
      cases h with
      | loaded _ h =>
        rw [h.eq_of_begun hasked]
        exact .updated state { source := j.source, report, started, ended, finishedAt } rfl

/-- A job that is not over was not answered. -/
theorem answered_notMem {st : Standing} (h : Story j es st) (hst : st ≠ .over) :
    Event.answered k result ∉ es := by
  induction h <;> simp_all

/-- **An answered job was served.** -/
theorem served_of_answered {st : Standing} (h : Story j es st) (hmem : .answered j result ∈ es) :
    Served j es result := by
  rcases eq_or_ne st .over with rfl | hst
  · have hlast (e : Event) {es : List Event} (hmem : .answered j result ∈ es ++ [e])
        (hbefore : Event.answered j result ∉ es) : Event.answered j result = e :=
      (List.mem_append.mp hmem).elim (absurd · hbefore) List.mem_singleton.mp
    cases h with
    | answered hasked h =>
      obtain rfl := (Event.answered.inj (hlast _ hmem (h.answered_notMem nofun))).2
      exact h.served hasked
    | settled _ h => exact nomatch hlast _ hmem (h.answered_notMem nofun)
    | refused h => exact nomatch hlast _ hmem (h.answered_notMem nofun)
    | dropped h => exact nomatch hlast _ hmem (h.answered_notMem nofun)
  · exact absurd hmem (h.answered_notMem hst)

end Story

/-- **The cycle of a job is in progress**: it began, and its end is not entered yet. -/
def InProgress (es : List Event) (j : Job) : Prop :=
  .began j ∈ es ∧ ∀ result, .recorded j result ∉ es

/-- **A job with a cycle in progress** is the one that the processor is at. -/
theorem Story.running_of_inProgress {st : Standing} (h : Story j es st) (hin : InProgress es j) :
    ∃ stage : Stage, st = .running stage ∧ stage.job? = some j := by
  obtain ⟨hbegan, hrecorded⟩ := hin
  cases h with
  | unknown => exact absurd hbegan List.not_mem_nil
  | starting => exact absurd hbegan List.not_mem_nil
  | accepted h => simp [h.eq_of_unknown] at hbegan
  | queued h => simp [h.eq_of_offered] at hbegan
  | refused h => simp [h.eq_of_offered] at hbegan
  | dropped h => simp [h.eq_of_queued] at hbegan
  | answered _ h => exact absurd (List.mem_append_left _ h.recorded_mem) (hrecorded _)
  | settled _ h => exact absurd (List.mem_append_left _ h.recorded_mem) (hrecorded _)
  | _ => exact ⟨_, rfl, rfl⟩

/-! ## Where the jobs are -/

section Count

variable {l : List Job}

theorem count_of_absent (h : l.count j = 0) (k : Job) :
    l.count k = if k = j then 0 else l.count k := by
  split
  case isTrue heq => rw [heq, h]
  case isFalse => rfl

/-- A job joins a list that it is not in. -/
theorem count_snoc (h : l.count j = 0) (k : Job) :
    (l ++ [j]).count k = if k = j then 1 else l.count k := by
  rw [List.count_append]
  split
  case isTrue heq => rw [heq, h, List.count_singleton_self]
  case isFalse hne =>
    have hother : [j].count k = 0 := List.count_eq_zero_of_not_mem (by simpa using hne)
    rw [hother, Nat.add_zero]

/-- A job leaves a list that it is in once. -/
theorem count_erase (h : l.count j = 1) (k : Job) :
    (l.erase j).count k = if k = j then 0 else l.count k := by
  split
  case isTrue heq => rw [heq, List.count_erase_self, h]
  case isFalse hne => rw [List.count_erase_of_ne hne]

end Count

variable {σ : Type}

/-- **Where the jobs of each standing are found.** -/
structure Standings (s : Tasks σ) (stands : Job → Standing) : Prop where
  unknown : ∀ j, s.next ≤ j.number → stands j = .unknown
  offered : ∀ j, s.offered.count j = (stands j).isOffered.toNat
  queued : ∀ j, s.queue.count j = (stands j).isQueued.toNat
  running : ∀ j stage, stands j = .running stage ↔ s.stage = stage ∧ stage.job? = some j

namespace Standings

variable {s : Tasks σ} {stands : Job → Standing} (h : Standings s stands)
include h

theorem offered_of_mem (hmem : j ∈ s.offered) : stands j = .offered := by
  have hcount := h.offered j
  have hpos := List.count_pos_iff.mpr hmem
  cases hst : stands j <;> simp_all [Standing.isOffered]

theorem queued_of_mem (hmem : j ∈ s.queue) : stands j = .queued := by
  have hcount := h.queued j
  have hpos := List.count_pos_iff.mpr hmem
  cases hst : stands j <;> simp_all [Standing.isQueued]

/-- A job that was asked for has a number. -/
theorem number_lt {a : Standing} (hj : stands j = a) (ha : a ≠ .unknown) : j.number < s.next :=
  Nat.lt_of_not_le fun hle => ha (hj.symm.trans (h.unknown j hle))

/-- How often a job waits. -/
theorem counts {a : Standing} (hj : stands j = a) :
    s.offered.count j = a.isOffered.toNat ∧ s.queue.count j = a.isQueued.toNat :=
  ⟨hj ▸ h.offered j, hj ▸ h.queued j⟩

/-- **One job comes to stand differently**, and nothing changes for the others. -/
theorem move {t : Tasks σ} {b : Standing} (hnext : s.next ≤ t.next) (hnumber : j.number < t.next)
    (hoffered : ∀ k, t.offered.count k = if k = j then b.isOffered.toNat else s.offered.count k)
    (hqueued : ∀ k, t.queue.count k = if k = j then b.isQueued.toNat else s.queue.count k)
    (hrunning : ∀ k stage, t.stage = stage ∧ stage.job? = some k ↔
      if k = j then b = .running stage else s.stage = stage ∧ stage.job? = some k) :
    Standings t (Function.update stands j b) := by
  refine ⟨fun k hk => ?_, fun k => ?_, fun k => ?_, fun k stage => ?_⟩ <;>
    rcases eq_or_ne k j with rfl | hne
  · omega
  · rw [Function.update_of_ne hne, h.unknown k (by omega)]
  · rw [Function.update_self, hoffered, if_pos rfl]
  · rw [Function.update_of_ne hne, hoffered, if_neg hne, h.offered]
  · rw [Function.update_self, hqueued, if_pos rfl]
  · rw [Function.update_of_ne hne, hqueued, if_neg hne, h.queued]
  · rw [Function.update_self, hrunning, if_pos rfl]
  · rw [Function.update_of_ne hne, hrunning, if_neg hne, h.running]

end Standings

/-- **Every job has a story**, and is where it says. -/
def Accounted (s : Tasks σ) (es : List Event) : Prop :=
  ∃ stands, Standings s stands ∧ 0 < s.next ∧ ∀ j, Story j (about j es) (stands j)

/-- **An event adds to the story of its job**, which comes to stand differently, and nothing changes for
the other jobs. -/
theorem Standings.accounted {s t : Tasks σ} {stands : Job → Standing} {a b : Standing}
    (h : Standings s stands) (hpos : 0 < s.next) (hstory : ∀ k, Story k (about k es) (stands k))
    (hstands : stands j = a) (hjob : e.job? = some j)
    (hnew : Story j (about j es) a → Story j (about j es ++ [e]) b)
    (hnext : s.next ≤ t.next) (hnumber : j.number < t.next)
    (hoffered : ∀ k, t.offered.count k = if k = j then b.isOffered.toNat else s.offered.count k)
    (hqueued : ∀ k, t.queue.count k = if k = j then b.isQueued.toNat else s.queue.count k)
    (hrunning : ∀ k stage, t.stage = stage ∧ stage.job? = some k ↔
      if k = j then b = .running stage else s.stage = stage ∧ stage.job? = some k) :
    Accounted t (es ++ [e]) := by
  refine ⟨_, h.move hnext hnumber hoffered hqueued hrunning, hpos.trans_le hnext, fun k => ?_⟩
  rcases eq_or_ne k j with rfl | hne
  · rw [Function.update_self, about_snoc_of_eq hjob]
    exact hnew (hstands ▸ hstory k)
  · rw [Function.update_of_ne hne, about_snoc_of_ne (by simpa [hjob] using hne.symm)]
    exact hstory k

/-- **The processor changes over**, and no other job is at it before or after. -/
theorem Stage.at_iff {before after : Stage} {b : Standing} (hbefore : ∀ k, before.job? = some k → k = j)
    (hafter : ∀ k, after.job? = some k → k = j)
    (hb : ∀ stage, after = stage ∧ stage.job? = some j ↔ b = .running stage) (k : Job)
    (stage : Stage) : after = stage ∧ stage.job? = some k ↔
      if k = j then b = .running stage else before = stage ∧ stage.job? = some k := by
  split
  case isTrue heq => rw [heq, hb]
  case isFalse hne =>
    refine iff_of_false ?_ ?_
    · rintro ⟨rfl, hk⟩
      exact hne (hafter k hk)
    · rintro ⟨rfl, hk⟩
      exact hne (hbefore k hk)

/-- The processor comes to a stage of a cycle. -/
theorem Stage.eq_running_iff {after : Stage} (h : after.job? = some j) (stage : Stage) :
    after = stage ∧ stage.job? = some j ↔ Standing.running after = .running stage := by
  rw [Standing.running.injEq, and_iff_left_of_imp]
  rintro rfl
  exact h

/-- **A job comes to wait somewhere else**, or no longer. -/
theorem Standings.relisted {s t : Tasks σ} {stands : Job → Standing} {a b : Standing}
    (h : Standings s stands) (hpos : 0 < s.next) (hstory : ∀ k, Story k (about k es) (stands k))
    (hstands : stands j = a) (hjob : e.job? = some j)
    (hnew : Story j (about j es) a → Story j (about j es ++ [e]) b)
    (ha : a.isAtRest = true) (hb : b.isAtRest = true)
    (hnext : s.next ≤ t.next) (hnumber : j.number < t.next) (hstage : t.stage = s.stage)
    (hoffered : ∀ k, t.offered.count k = if k = j then b.isOffered.toNat else s.offered.count k)
    (hqueued : ∀ k, t.queue.count k = if k = j then b.isQueued.toNat else s.queue.count k) :
    Accounted t (es ++ [e]) := by
  refine h.accounted hpos hstory hstands hjob hnew hnext hnumber hoffered hqueued fun k stage => ?_
  rw [hstage]
  split
  case isTrue heq =>
    subst heq
    rw [← h.running, hstands]
    refine iff_of_false ?_ ?_
    · rintro rfl
      exact Bool.false_ne_true ha
    · rintro rfl
      exact Bool.false_ne_true hb
  case isFalse => exact Iff.rfl

namespace Accounted

variable {s t : Tasks σ}

/-- An event that is about no job changes no story. -/
theorem other (h : Accounted s es) (hjob : e.job? = none) (hnext : t.next = s.next)
    (hoffered : t.offered = s.offered) (hqueue : t.queue = s.queue)
    (hrunning : ∀ k stage, t.stage = stage ∧ stage.job? = some k ↔
      s.stage = stage ∧ stage.job? = some k) : Accounted t (es ++ [e]) := by
  obtain ⟨stands, hstands, hpos, hstory⟩ := h
  refine ⟨stands, ⟨?_, ?_, ?_, ?_⟩, hnext ▸ hpos, fun k => ?_⟩
  · rw [hnext]
    exact hstands.unknown
  · rw [hoffered]
    exact hstands.offered
  · rw [hqueue]
    exact hstands.queued
  · exact fun k stage => (hstands.running k stage).trans (hrunning k stage).symm
  · rw [about_snoc_of_ne (by rw [hjob]; exact nofun)]
    exact hstory k

/-- **The processor leaves a stage of a cycle**, and its job, which waits nowhere, comes to stand
differently. -/
theorem leave (h : Accounted s es) {before : Stage} {b : Standing} (hbefore : s.stage = before)
    (hof : before.job? = some j) (hjob : e.job? = some j)
    (hnew : Story j (about j es) (.running before) → Story j (about j es ++ [e]) b)
    (hunoffered : b.isOffered = false) (hunqueued : b.isQueued = false)
    (hnext : t.next = s.next) (hoffered : t.offered = s.offered) (hqueue : t.queue = s.queue)
    (hafter : ∀ k, t.stage.job? = some k → k = j)
    (hb : ∀ stage, t.stage = stage ∧ stage.job? = some j ↔ b = .running stage) :
    Accounted t (es ++ [e]) := by
  obtain ⟨stands, hstands, hpos, hstory⟩ := h
  have hj : stands j = .running before := (hstands.running ..).mpr ⟨hbefore, hof⟩
  obtain ⟨hwaits, hqueued⟩ := hstands.counts hj
  subst hbefore
  refine hstands.accounted hpos hstory hj hjob hnew hnext.ge ?_ ?_ ?_ ?_
  · exact (hstands.number_lt hj nofun).trans_eq hnext.symm
  · rw [hoffered, hunoffered]
    exact count_of_absent hwaits
  · rw [hqueue, hunqueued]
    exact count_of_absent hqueued
  · exact Stage.at_iff (fun k hk => Option.some.inj (hk.symm.trans hof)) hafter hb

/-- **The processor goes on with a cycle.** -/
theorem proceed (h : Accounted s es) {before after : Stage} (hbefore : s.stage = before)
    (hafter : t.stage = after) (hof : before.job? = some j) (hof' : after.job? = some j)
    (hjob : e.job? = some j) (hnew : Story j (about j es) (.running before) →
      Story j (about j es ++ [e]) (.running after)) (hnext : t.next = s.next)
    (hoffered : t.offered = s.offered) (hqueue : t.queue = s.queue) : Accounted t (es ++ [e]) := by
  subst hafter
  exact h.leave hbefore hof hjob hnew rfl rfl hnext hoffered hqueue
    (fun k hk => Option.some.inj (hk.symm.trans hof')) (Stage.eq_running_iff hof')

/-- **The processor is through with a cycle.** -/
theorem settle (h : Accounted s es) {before : Stage} (hbefore : s.stage = before)
    (hafter : t.stage = .idle) (hof : before.job? = some j) (hjob : e.job? = some j)
    (hnew : Story j (about j es) (.running before) → Story j (about j es ++ [e]) .over)
    (hnext : t.next = s.next) (hoffered : t.offered = s.offered) (hqueue : t.queue = s.queue) :
    Accounted t (es ++ [e]) := by
  have hidle {k : Job} : t.stage.job? ≠ some k := by
    rw [hafter]
    exact nofun
  refine h.leave hbefore hof hjob hnew rfl rfl hnext hoffered hqueue (fun k hk => absurd hk hidle)
    fun stage => iff_of_false ?_ nofun
  rintro ⟨rfl, hk⟩
  exact hidle hk

theorem start (d : Deployment) (startedAt : Nat) (w : σ) :
    Accounted (Tasks.start d startedAt w) [] := by
  let stands (j : Job) : Standing := if j = .startup then .running .starting else .unknown
  refine ⟨stands, ⟨fun j hj => if_neg ?_, ?_, ?_, ?_⟩, Nat.one_pos, fun j => ?_⟩
  · rintro rfl
    exact absurd hj (Nat.not_succ_le_zero 0)
  · grind [Tasks.start, Standing.isOffered]
  · grind [Tasks.start, Standing.isQueued]
  · grind [Tasks.start, Stage.job?]
  · by_cases hj : j = .startup
    · simp only [stands, if_pos hj]
      exact .starting hj
    · simp only [stands, if_neg hj]
      exact .unknown

variable [FileSystem (StateM σ)] [LocalSockets (StateM σ)] [Launcher (StateM σ)]
  [Journal (StateM σ)] [Clock (StateM σ)]

/-- **A step leaves every job with a story.** -/
theorem step (h : Accounted s es) (hstep : s.Step e t) : Accounted t (es ++ [e]) := by
  obtain ⟨stands, hstands, hpos, hstory⟩ := id h
  cases hstep with
  | accept source asked =>
    have hj : stands ⟨s.next, source⟩ = .unknown := hstands.unknown _ le_rfl
    obtain ⟨hoffered, hqueued⟩ := hstands.counts hj
    exact hstands.relisted hpos hstory hj rfl .accepted rfl rfl (Nat.le_succ _)
      (Nat.lt_succ_self _) rfl (count_snoc hoffered) (count_of_absent hqueued)
  | enqueue offered =>
    have hj := hstands.offered_of_mem offered
    obtain ⟨hoffered, hqueued⟩ := hstands.counts hj
    exact hstands.relisted hpos hstory hj rfl .queued rfl rfl le_rfl (hstands.number_lt hj nofun)
      rfl (count_erase hoffered) (count_snoc hqueued)
  | refuse _ offered =>
    have hj := hstands.offered_of_mem offered
    obtain ⟨hoffered, hqueued⟩ := hstands.counts hj
    exact hstands.relisted hpos hstory hj rfl .refused rfl rfl le_rfl (hstands.number_lt hj nofun)
      rfl (count_erase hoffered) (count_of_absent hqueued)
  | drop _ queued =>
    have hj := hstands.queued_of_mem queued
    obtain ⟨hoffered, hqueued⟩ := hstands.counts hj
    exact hstands.relisted hpos hstory hj rfl .dropped rfl rfl le_rfl (hstands.number_lt hj nofun)
      rfl (count_of_absent hoffered) (count_erase hqueued)
  | @take j rest started w stage queue clock =>
    have hj : stands j = .queued := hstands.queued_of_mem (queue ▸ List.mem_cons_self)
    obtain ⟨hoffered, hqueued⟩ := hstands.counts hj
    have hrest : s.queue.erase j = rest := by rw [queue, List.erase_cons_head]
    refine hstands.accounted hpos hstory hj rfl (.taken started) le_rfl
      (hstands.number_lt hj nofun) (count_of_absent hoffered) (hrest ▸ count_erase hqueued) ?_
    rw [stage]
    exact Stage.at_iff nofun (fun k hk => (Option.some.inj hk).symm) (Stage.eq_running_iff rfl)
  | start stage => exact h.proceed stage rfl rfl rfl rfl (.started _) rfl rfl rfl
  | @load _ _ r _ stage =>
    cases r with
    | ok state => exact h.proceed stage rfl rfl rfl rfl (.loaded state) rfl rfl rfl
    | error error => exact h.proceed stage rfl rfl rfl rfl (.unloaded error) rfl rfl rfl
  | update stage => exact h.proceed stage rfl rfl rfl rfl (.updated _) rfl rfl rfl
  | record stage => exact h.proceed stage rfl rfl rfl rfl (.recorded _ _) rfl rfl rfl
  | answer stage asked => exact h.settle stage rfl rfl rfl (.answered asked) rfl rfl rfl
  | settle stage => exact h.settle stage rfl rfl rfl (.settled rfl) rfl rfl rfl
  | stop stage => exact h.other rfl rfl rfl rfl (by grind [Stage.job?])
  | tell | askStop | change => exact h.other rfl rfl rfl rfl fun _ _ => Iff.rfl

end Accounted

/-! ## The tally -/

/-- The summary of a cycle whose end is entered. -/
def Event.summary? : Event → Option CycleSummary
  | .recorded _ (.ok summary) => some summary
  | _ => none

/-- Why a cycle whose end is entered could not load its state. -/
def Event.loadError? : Event → Option DaemonError
  | .recorded _ (.error error) => some error
  | _ => none

/-- **The history tallies the ends of the cycles**: how many gave a summary, how many failed, the last
summary and the last error. -/
structure History.Tallies (h : History) (es : List Event) : Prop where
  cycles : h.cycles = (es.filterMap Event.summary?).length
  failures : h.failures = (es.filterMap Event.loadError?).length
    + (es.filterMap Event.summary?).countP fun s => !s.report.outcome.isSuccess
  lastCycle : h.lastCycle = (es.filterMap Event.summary?).getLast?
  lastError : h.lastError = (es.filterMap Event.loadError?).getLast?

namespace History.Tallies

variable {h : History}

theorem record (ht : h.Tallies es) (result : Except DaemonError CycleSummary) :
    (h.record result).Tallies (es ++ [.recorded j result]) := by
  obtain ⟨hcycles, hfailures, hlastCycle, hlastError⟩ := ht
  have hsnoc {α : Type} (f : Event → Option α) :
      (es ++ [Event.recorded j result]).filterMap f
        = es.filterMap f ++ [Event.recorded j result].filterMap f := List.filterMap_append
  cases result with
  | error error =>
    have herrors : [Event.recorded j (.error error)].filterMap Event.loadError? = [error] := rfl
    have hsummaries : [Event.recorded j (.error error)].filterMap Event.summary? = [] := rfl
    refine ⟨?_, ?_, ?_, ?_⟩
    · rw [hsnoc, hsummaries, List.append_nil, ← hcycles, History.record]
    · rw [hsnoc, hsnoc, herrors, hsummaries, List.append_nil, List.length_append, History.record,
        hfailures, List.length_singleton, Nat.add_right_comm]
    · rw [hsnoc, hsummaries, List.append_nil, ← hlastCycle, History.record]
    · rw [hsnoc, herrors, List.getLast?_concat, History.record]
  | ok summary =>
    have herrors : [Event.recorded j (.ok summary)].filterMap Event.loadError? = [] := rfl
    have hsummaries : [Event.recorded j (.ok summary)].filterMap Event.summary? = [summary] := rfl
    refine ⟨?_, ?_, ?_, ?_⟩
    · rw [hsnoc, hsummaries, List.length_append, ← hcycles, History.record, List.length_singleton]
    · rw [hsnoc, hsnoc, herrors, hsummaries, List.append_nil, List.countP_append,
        List.countP_singleton, History.record, hfailures]
      cases summary.report.outcome.isSuccess <;> rfl
    · rw [hsnoc, hsummaries, List.getLast?_concat, History.record]
    · rw [hsnoc, herrors, List.append_nil, ← hlastError, History.record]

theorem other (ht : h.Tallies es) (hsummary : e.summary? = none) (herror : e.loadError? = none) :
    h.Tallies (es ++ [e]) := by
  obtain ⟨hcycles, hfailures, hlastCycle, hlastError⟩ := ht
  constructor <;> simp [*]

end History.Tallies

/-- **A status shows the tally.** -/
structure History.ShownBy (h : History) (status : Value) : Prop where
  cycles : status.field? "cycles" = some (.nat h.cycles)
  failures : status.field? "failures" = some (.nat h.failures)
  lastCycle : status.field? "last_cycle"
    = some (Value.ofOption (h.lastCycle.map CycleSummary.toValue))
  lastError : status.field? "last_error"
    = some (Value.ofOption (h.lastError.map fun e => .text e.message))

/-! ## Runs -/

theorem Daemon.status_shows [Launcher (StateM σ)] {d : Daemon} {w w' : σ} {status : Value}
    (h : (d.status : StateM σ Value) w = (status, w')) : d.history.ShownBy status := by
  obtain rfl : _ = status := congrArg Prod.fst h
  exact ⟨rfl, rfl, rfl, rfl⟩

variable [FileSystem (StateM σ)] [LocalSockets (StateM σ)] [Launcher (StateM σ)]
  [Journal (StateM σ)] [Clock (StateM σ)]

theorem Deployment.cycle_of_error {d : Deployment} {e : StateError} {w w' : σ}
    (h : (StateFormat.yaml.load d.settings.stateFile : StateM σ _) w = (.error e, w')) :
    (d.cycle : StateM σ _) w = ((.error e, d), w') := by
  simp only [Deployment.cycle, bind, StateT.bind, h]
  rfl

theorem Deployment.cycle_of_ok {d d' : Deployment} {state : DesiredState} {report : Report}
    {w w' w'' : σ} (h : (StateFormat.yaml.load d.settings.stateFile : StateM σ _) w = (.ok state, w'))
    (hupdate : ((d.replace (.ofState state)).update : StateM σ _) w' = ((report, d'), w'')) :
    (d.cycle : StateM σ _) w = ((.ok report, d'), w'') := by
  simp only [Deployment.cycle, bind, StateT.bind, h]
  exact congrArg (fun r : (Report × Deployment) × σ => ((Except.ok r.1.1, r.1.2), r.2)) hupdate

namespace Tasks

variable {s t : Tasks σ}

theorem Step.tallies (hstep : s.Step e t) (h : s.daemon.history.Tallies es) :
    t.daemon.history.Tallies (es ++ [e]) := by
  cases hstep with
  | record => exact h.record _
  | _ => exact h.other rfl rfl

/-- **No step changes the settings.** -/
theorem Step.settings (hstep : s.Step e t) : t.daemon.settings = s.daemon.settings := by
  cases hstep with
  | update _ run => exact congrArg (·.1.2.settings) run.symm
  | _ => rfl

namespace Run

variable {d : Deployment} {startedAt : Nat} {w : σ}

/-- **After a run every job has a story.** -/
theorem accounted (h : (Tasks.start d startedAt w).Run es s) : Accounted s es := by
  induction h with
  | nil => exact .start d startedAt w
  | snoc _ step ih => exact ih.step step

/-- **After a run the history tallies.** -/
theorem tallies (h : (Tasks.start d startedAt w).Run es s) : s.daemon.history.Tallies es := by
  induction h with
  | nil => exact ⟨rfl, rfl, rfl, rfl⟩
  | snoc _ step ih => exact step.tallies ih

theorem settings (h : s.Run es t) : t.daemon.settings = s.daemon.settings := by
  induction h with
  | nil => rfl
  | snoc _ step ih => exact step.settings.trans ih

/-- **Every event of a run is a step** out of the state that the events before it led to. -/
theorem step_of_eq (h : s.Run es t) : ∀ {before after : List Event}, es = before ++ e :: after →
    ∃ u v, s.Run before u ∧ u.Step e v := by
  induction h with
  | nil => exact fun heq => absurd heq (by simp)
  | @snoc es' e' u v hrun step ih =>
    intro before after heq
    rcases List.eq_nil_or_concat after with rfl | ⟨after, last, rfl⟩
    · obtain ⟨rfl, hlast⟩ := List.append_inj' heq rfl
      exact ⟨u, v, hrun, List.singleton_inj.mp hlast ▸ step⟩
    · rw [List.concat_eq_append, ← List.cons_append, ← List.append_assoc] at heq
      exact ih (List.append_inj' heq rfl).1

end Run

/-- **The steps of a cycle in a row are a cycle of the daemon.** -/
theorem Run.of_runCycle {rest : List Job} (stage : s.stage = .idle) (queue : s.queue = j :: rest) :
    let r := (s.daemon.runCycle j.source : StateM σ _) s.world
    ∃ es, s.Run es
      { s with world := r.2, daemon := r.1.2, queue := rest, stage := .recorded j r.1.1 } := by
  intro r
  rcases hstart : (Clock.micros : StateM σ Nat) s.world with ⟨started, w₁⟩
  rcases hload : (StateFormat.yaml.load s.daemon.settings.stateFile : StateM σ _) w₁ with ⟨read, w₂⟩
  have hloaded := (Run.nil.snoc (.take stage queue hstart)).snoc (.load rfl hload)
  cases read with
  | error e =>
    rcases hend : (Clock.micros : StateM σ Nat) w₂ with ⟨ended, w₃⟩
    rcases hdate : (Clock.unixSeconds : StateM σ Nat) w₃ with ⟨finishedAt, w₄⟩
    have hrecorded := hloaded.snoc (.record rfl hend hdate)
    have hcycle := Deployment.cycle_of_error hload
    have hrun : r = ((j.result started ended finishedAt (.error e), { s.daemon with
        history := s.daemon.history.record (j.result started ended finishedAt (.error e)) }),
          w₄) := by
      simp only [r, Daemon.runCycle, bind, StateT.bind, hstart, hcycle, hend, hdate]
      rfl
    rw [hrun]
    exact ⟨_, hrecorded⟩
  | ok state =>
    rcases hupdate : ((s.daemon.deployment.replace (.ofState state)).update : StateM σ _) w₂
      with ⟨⟨report, deployment⟩, w₃⟩
    rcases hend : (Clock.micros : StateM σ Nat) w₃ with ⟨ended, w₄⟩
    rcases hdate : (Clock.unixSeconds : StateM σ Nat) w₄ with ⟨finishedAt, w₅⟩
    have hrecorded := (hloaded.snoc (.update rfl hupdate)).snoc (.record rfl hend hdate)
    have hcycle := Deployment.cycle_of_ok hload hupdate
    have hrun : r = ((j.result started ended finishedAt (.ok report), { s.daemon with
        deployment
        history := s.daemon.history.record (j.result started ended finishedAt (.ok report)) }),
          w₅) := by
      simp only [r, Daemon.runCycle, bind, StateT.bind, hstart, hcycle, hend, hdate]
      rfl
    rw [hrun]
    exact ⟨_, hrecorded⟩

/-- **The order of a daemon**, after some events.  They led from the start to a state `s`. -/
structure Orderly (start : Tasks σ) (es : List Event) (s : Tasks σ) : Prop where
  /-- At most one cycle is in progress. -/
  serial : ∀ j k, InProgress es j → InProgress es k → j = k
  /-- A job is answered once at most. -/
  once : ∀ j, es.countP (Event.answers j) ≤ 1
  /-- Its answer is what came of a cycle that was run for it. -/
  served : ∀ j result, .answered j result ∈ es → Served j (about j es) result
  /-- A report is what the deployment makes of the state that was loaded for the job. -/
  updated : ∀ before j report after, es = before ++ .updated j report :: after →
    ∃ t state, start.Run before t ∧ .loaded j (.ok state) ∈ before ∧
      (((t.daemon.deployment.replace (.ofState state)).update : StateM σ _) t.world).1.1 = report
  /-- A good answer comes from a cycle that loaded the state file after the job was accepted. -/
  current : ∀ j summary, .answered j (.ok summary) ∈ es → ∃ before between after state t,
    es = before ++ .accepted j :: (between ++ .loaded j (.ok state) :: after) ∧
      start.Run (before ++ .accepted j :: between) t ∧
      ((StateFormat.yaml.load start.daemon.settings.stateFile : StateM σ _) t.world).1 = .ok state ∧
      .updated j summary.report ∈ after
  /-- A status shows the tally of the cycles before it, and the answered ones are among them. -/
  told : ∀ before status after, es = before ++ .told status :: after →
    (∃ h : History, h.Tallies before ∧ h.ShownBy status) ∧
      ∀ j result, .answered j result ∈ before → .recorded j result ∈ before
  /-- The history tallies the cycles at any time. -/
  tallied : s.daemon.history.Tallies es

section

variable {d : Deployment} {startedAt : Nat} {w : σ}
  (h : (Tasks.start d startedAt w).Run es s)
include h

/-- What was told of an answered job. -/
theorem Run.served {result : Except DaemonError CycleSummary} (hmem : .answered j result ∈ es) :
    Served j (about j es) result := by
  obtain ⟨stands, -, -, hstory⟩ := h.accounted
  exact (hstory j).served_of_answered (mem_about hmem rfl)

theorem Run.serial (hj : InProgress es j) (hk : InProgress es k) : j = k := by
  obtain ⟨stands, hstands, -, hstory⟩ := h.accounted
  have hat {j : Job} (hin : InProgress es j) : s.stage.job? = some j := by
    have habout : InProgress (about j es) j :=
      ⟨mem_about hin.1 rfl, fun result hmem => hin.2 result (mem_of_mem_about hmem)⟩
    obtain ⟨stage, hst, hjob⟩ := (hstory j).running_of_inProgress habout
    rw [((hstands.running j stage).mp hst).1, hjob]
  exact Option.some.inj ((hat hj).symm.trans (hat hk))

theorem Run.once (j : Job) : es.countP (Event.answers j) ≤ 1 := by
  by_cases hanswered : ∃ result, .answered j result ∈ es
  · obtain ⟨result, hmem⟩ := hanswered
    rw [← countP_answers_about, (h.served hmem).countP_answers]
  · refine (List.countP_eq_zero.mpr fun e hmem hanswers => hanswered ?_).trans_le (Nat.zero_le 1)
    cases e with
    | answered k result =>
      obtain rfl : k = j := by simpa [Event.answers] using hanswers
      exact ⟨result, hmem⟩
    | _ => exact nomatch hanswers

theorem Run.updated {before after : List Event} {report : Report}
    (heq : es = before ++ .updated j report :: after) :
    ∃ t state, (Tasks.start d startedAt w).Run before t ∧ .loaded j (.ok state) ∈ before ∧
      (((t.daemon.deployment.replace (.ofState state)).update : StateM σ _) t.world).1.1
        = report := by
  obtain ⟨t, u, hrun, hstep⟩ := h.step_of_eq heq
  cases hstep with
  | @update _ started state _ _ _ stage run =>
    obtain ⟨stands, hstands, -, hstory⟩ := hrun.accounted
    have hst : stands j = .running (.loaded j started state) :=
      (hstands.running ..).mpr ⟨stage, rfl⟩
    have hloaded := (hst ▸ hstory j).loaded_mem
    exact ⟨t, state, hrun, mem_of_mem_about hloaded, congrArg (·.1.1) run⟩

theorem Run.current {summary : CycleSummary} (hmem : .answered j (.ok summary) ∈ es) :
    ∃ before between after state t,
      es = before ++ .accepted j :: (between ++ .loaded j (.ok state) :: after) ∧
        (Tasks.start d startedAt w).Run (before ++ .accepted j :: between) t ∧
        ((StateFormat.yaml.load d.settings.stateFile : StateM σ _) t.world).1 = .ok state ∧
        .updated j summary.report ∈ after := by
  obtain ⟨state, htold⟩ := (h.served hmem).eq_of_ok
  obtain ⟨before, es₁, haccepted, htold₁⟩ := split_of_about_eq_cons htold
  obtain ⟨between₁, es₂, hqueued, htold₂⟩ := split_of_about_eq_cons htold₁
  obtain ⟨between₂, es₃, hbegan, htold₃⟩ := split_of_about_eq_cons htold₂
  obtain ⟨between₃, after, hloaded, htold₄⟩ := split_of_about_eq_cons htold₃
  have heq : es = (before ++ .accepted j :: (between₁ ++ .queued j :: (between₂ ++ .began j ::
      between₃))) ++ .loaded j (.ok state) :: after := by
    rw [haccepted, hqueued, hbegan, hloaded]
    simp only [List.append_assoc, List.cons_append]
  obtain ⟨t, u, hrun, hstep⟩ := h.step_of_eq heq
  refine ⟨before, _, after, state, t, heq.trans (List.append_assoc ..), hrun, ?_,
    mem_of_mem_about (htold₄ ▸ List.mem_cons_self)⟩
  cases hstep with
  | load _ run =>
    rw [hrun.settings] at run
    exact congrArg Prod.fst run

theorem Run.told {before after : List Event} {status : Value}
    (heq : es = before ++ .told status :: after) :
    (∃ h : History, h.Tallies before ∧ h.ShownBy status) ∧
      ∀ j result, .answered j result ∈ before → .recorded j result ∈ before := by
  obtain ⟨t, u, hrun, hstep⟩ := h.step_of_eq heq
  refine ⟨?_, fun j result hmem => mem_of_mem_about (hrun.served hmem).recorded_mem⟩
  cases hstep with
  | tell run => exact ⟨t.daemon.history, hrun.tallies, Daemon.status_shows run⟩

/-- **Headline: cycles are serial, and jobs are answered once.**  Whatever the parts of a daemon do, and in
any order, at most one cycle is in progress; a job is answered once at most, with what came of a cycle
of its own; a good answer comes from a state file that was loaded after the job was accepted; a status
counts every cycle that was answered before; and the history tallies the cycles at any time. -/
theorem orderly_of_run : Orderly (Tasks.start d startedAt w) es s where
  serial _ _ := h.serial
  once := h.once
  served _ _ := h.served
  updated _ _ _ _ := h.updated
  current _ _ := h.current
  told _ _ _ := h.told
  tallied := h.tallies

end

/-- The first cycle finds no state file, and the one that a client asks for then finds one. -/
theorem orderly_of_run_asked :
    let first := Tasks.start localDaemon.deployment 0 ({} : Machine)
    ∃ es s summary status, first.Run es s ∧ .answered ⟨1, .socket⟩ (.ok summary) ∈ es ∧
      .told status ∈ es ∧ s.daemon.history.cycles = 1 ∧ Orderly first es s := by
  intro first
  let state : DesiredState := { backends := [{ id := "web" }] }
  let machine : Machine :=
    { tree := ({} : FileTree).placeFile "state.yaml" "backends:\n- id: web\n".toUTF8 }
  have hmissing : (StateFormat.yaml.load "state.yaml" : StateM Machine _) {}
      = (.error (.notFound "state.yaml"), {}) :=
    (StateFormat.load_looks _ _ _).trans (congrArg (·, _) (by decide +kernel))
  have hload : (StateFormat.yaml.load "state.yaml" : StateM Machine _) machine
      = (.ok state, machine) :=
    (StateFormat.load_looks _ _ _).trans (congrArg (·, _) (by decide +kernel))
  have hfirst := (((Run.nil (s := first)).snoc (.start rfl rfl)).snoc (.load rfl hmissing)).snoc
    (.record rfl rfl rfl)
  have hasked := ((hfirst.snoc (.settle rfl)).snoc (.accept .socket nofun)).snoc (.change machine)
  have hqueued := hasked.snoc (.enqueue (j := ⟨1, .socket⟩) List.mem_cons_self (by decide) nofun)
  have hloaded := (hqueued.snoc (.take rfl rfl rfl)).snoc (.load rfl hload)
  have hdone := ((hloaded.snoc (.update rfl rfl)).snoc (.record rfl rfl rfl)).snoc
    (.answer rfl (by decide))
  have hrun := hdone.snoc (.tell rfl)
  exact ⟨_, _, _, _, hrun,
    List.mem_append_left _ (List.mem_append_right _ (List.mem_singleton_self _)),
    List.mem_append_right _ (List.mem_singleton_self _), (orderly_of_run hrun).tallied.cycles,
    orderly_of_run hrun⟩

end Tasks

end Rollout
