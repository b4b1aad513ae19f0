import Rollout.Daemon.Client
import Rollout.Daemon.Run
import Rollout.Proofs.Text.Bytes
import Rollout.Proofs.Text.Fraction
import Rollout.Proofs.Value.Canonical

/-!
# Proofs/Daemon/Session — one response a line

`Framed` says what a session does for its lines: the ones it answers (`addressed`) are met one after the
other, each with one response, and `Meets` lists what is done for a line before its response is written.
A session is followed at any desk, with a record of what is done at it (`Minuted`), by induction on the
lines (`serve_spec`).

On the way back a response is one line, since it is printable JSON, and the client cuts off that line and
reads the same data from it (`Response.readReply_line`).  For this the numbers that are told must fit 64
bits (`Act.Fits`), as those of a daemon do (`Daemon.fits_status`).
-/

namespace Rollout

open Json (Carried)

/-! ## The line of a response -/

/-- A line is taken up to its end. -/
theorem Client.firstLine_append {bs : List UInt8} (h : 10 ∉ bs) (more : List UInt8) :
    firstLine (bs ++ 10 :: more) = bs ++ [10] := by
  induction bs with
  | nil => rfl
  | cons b bs ih =>
    rw [List.mem_cons, not_or] at h
    rw [List.cons_append, firstLine, if_neg (Ne.symm h.1), ih h.2, List.cons_append]

/-- The end of a line is cut off, and nothing else. -/
theorem Text.trimEnd_newline {s : String} {cs : List Char} {c : Char} (hs : s.toList = cs ++ [c])
    (hc : isBlank c = false) : trimEnd (s ++ "\n") = s := by
  have hreverse : (s ++ "\n").toList.reverse = '\n' :: c :: cs.reverse := by
    rw [String.toList_append, List.reverse_append, hs, List.reverse_append]
    rfl
  rw [trimEnd, trimEndList, hreverse, List.dropWhile_cons_of_pos (by decide),
    List.dropWhile_cons_of_neg (Bool.eq_false_iff.mp hc), List.reverse_cons, List.reverse_reverse, ← hs,
    String.ofList_toList]

namespace Response

/-- **A client takes the line of a response for that response**: it is one line, and whatever comes
behind it, the client finds the same data, with sorted fields, or the same reason. -/
structure Received (r : Response) : Prop where
  oneLine : '\n' ∉ r.text.toList
  decoded : ∀ socket more, ∃ s, Client.readReply socket (r.line.toUTF8 ++ more) = .ok s ∧
    Client.Response.payload s = (Client.Response.payload r).map Value.canonical

/-- A response is carried if its data are. -/
theorem carried_toValue {r : Response} (h : ∀ v, r.data = some v → Carried 126 v) :
    Carried Json.maxDepth r.toValue := by
  refine .record fun f hf => ?_
  rcases List.mem_append.mp hf with hf | hf
  · rcases List.mem_append.mp hf with hf | hf
    · rw [List.mem_singleton.mp hf]
      exact .bool _
    · cases hdata : r.data with
      | none =>
        rw [hdata] at hf
        exact nomatch hf
      | some v =>
        rw [hdata] at hf
        rw [List.mem_singleton.mp hf]
        exact (h v hdata).canonical
  · cases herror : r.error with
    | none =>
      rw [herror] at hf
      exact nomatch hf
    | some reason =>
      rw [herror] at hf
      rw [List.mem_singleton.mp hf]
      exact .text reason

/-- The text of a response ends with the brace of its record. -/
theorem exists_text_eq (r : Response) : ∃ cs, r.text.toList = cs ++ ['\x7d'] :=
  ⟨'\x7b' :: _, Json.chars_record _⟩

theorem newline_notMem_text {r : Response} (h : Carried Json.maxDepth r.toValue) :
    '\n' ∉ r.text.toList := fun hmem => absurd (h.printable _ hmem) (by decide)

/-- **The line of a response is read as what its record is read as.** -/
theorem readReply_line {r s : Response} (h : Carried Json.maxDepth r.toValue)
    (hread : (read r.toValue).result? = some s) (socket : String) (more : ByteArray) :
    Client.readReply socket (r.line.toUTF8 ++ more) = .ok s := by
  have hline : Text.bytes r.line = Text.bytes r.text ++ [10] := by
    rw [line, Text.bytes_eq, Text.bytes_eq, String.toList_append, List.flatMap_append]
    rfl
  have hfirst : Client.firstLine (r.line.toUTF8 ++ more).data.toList = Text.bytes r.line := by
    have hbytes : (r.line.toUTF8 ++ more).data.toList
        = Text.bytes r.text ++ 10 :: more.data.toList := by
      rw [ByteArray.toList_data_append, ← Text.bytes, hline, List.append_assoc]
      rfl
    rw [hbytes, Client.firstLine_append (Text.newline_notMem_bytes (newline_notMem_text h)), hline]
  obtain ⟨cs, hcs⟩ := r.exists_text_eq
  have hne : r.line.isEmpty = false := by
    rw [line, String.isEmpty_eq_false_iff, Ne, String.append_eq_empty_iff]
    exact fun hnil => absurd hnil.2 (by decide)
  have htext : ofText? (Text.trimEnd r.line) = some s := by
    rw [line, Text.trimEnd_newline hcs (by decide), ofText?, text, Json.parse_compact h,
      Option.bind_some, hread]
  rw [Client.readReply, hfirst, Text.bytes, Array.toArray_toList, Text.fromUTF8?_toUTF8]
  simp only [hne, Bool.false_eq_true, if_false, htext]

/-- Data are received. -/
theorem received_success {v : Value} (h : Carried 126 v) : (success v).Received := by
  have hcarried : Carried Json.maxDepth (success v).toValue :=
    carried_toValue fun _ hv => Option.some.inj hv ▸ h
  refine ⟨newline_notMem_text hcarried, fun socket more => ?_⟩
  have hread : ∃ s, (read (success v).toValue).result? = some s ∧
      Client.Response.payload s = .ok v.canonical.canonical := by
    rw [success, toValue, Option.map_some]
    generalize v.canonical = u
    cases u with
    | null | bool | int | real | text | list | record => exact ⟨_, rfl, rfl⟩
  obtain ⟨s, hs, hpayload⟩ := hread
  refine ⟨s, readReply_line hcarried hs socket more, ?_⟩
  rw [hpayload, Value.canonical_canonical]
  rfl

/-- A reason is received. -/
theorem received_refusal (reason : String) : (refusal reason).Received := by
  have hcarried : Carried Json.maxDepth (refusal reason).toValue := carried_toValue nofun
  exact ⟨newline_notMem_text hcarried, fun socket more =>
    ⟨refusal reason, readReply_line hcarried rfl socket more, rfl⟩⟩

end Response

/-! ## What a session does -/

/-- **What is done at a desk.** -/
inductive Act where
  | told (status : Value)
  | submitted (source : CycleSource) (taken : Bool)
  | awaited (outcome : Option (Except String CycleSummary))
  | stopAsked
  /-- The line of a response is written. -/
  | wrote (r : Response)
  /-- The line of a response does not reach the client. -/
  | lost (r : Response) (fault : SystemFault)

/-- What became of a response. -/
def Act.ofResponse (r : Response) : Except SystemFault Unit → Act
  | .ok () => .wrote r
  | .error fault => .lost r fault

/-- A world, and what was done in it at a desk. -/
structure Minuted (σ : Type) where
  world : σ
  acts : List Act := []

variable {σ : Type} {α : Type}

/-- Do something, and record it. -/
def minuted (act : α → Act) (x : StateM σ α) : StateM (Minuted σ) α := fun s =>
  ((x s.world).1, ⟨(x s.world).2, s.acts ++ [act (x s.world).1]⟩)

/-- **A desk with a record of what is done at it.** -/
instance [Desk (StateM σ)] : Desk (StateM (Minuted σ)) where
  status := minuted .told Desk.status
  submit source := minuted (.submitted source) (Desk.submit source)
  outcome := minuted .awaited Desk.outcome
  stop := minuted (fun _ => .stopAsked) Desk.stop
  complaint line s :=
    (((Desk.complaint line : StateM σ String) s.world).1,
      ⟨((Desk.complaint line : StateM σ String) s.world).2, s.acts⟩)
  respond r := minuted (.ofResponse r) (Desk.respond r)

/-- **How a cycle is had**: one job is submitted, and its outcome awaited. -/
inductive Enqueues : List Act → Except DaemonError CycleSummary → Prop where
  | closed : Enqueues [.submitted .socket false] (.error (.channelClosed "cycle queue"))
  | dropped :
      Enqueues [.submitted .socket true, .awaited none] (.error (.channelClosed "cycle response"))
  | failed (reason : String) :
      Enqueues [.submitted .socket true, .awaited (some (.error reason))]
        (.error (.refused (some reason)))
  | ran (summary : CycleSummary) :
      Enqueues [.submitted .socket true, .awaited (some (.ok summary))] (.ok summary)

/-- **How a line is met**: what is done for it, and the response.  Only a request for a cycle submits a
job, and only a request to stop asks the daemon to. -/
inductive Meets : Option Request → List Act → Response → Prop where
  | invalid (complaint : String) : Meets none [] (.refusal ("invalid request JSON: " ++ complaint))
  | status (payload : Value) : Meets (some .status) [.told payload] (.success payload)
  | sync {acts : List Act} {outcome : Except DaemonError CycleSummary}
      (enqueues : Enqueues acts outcome) : Meets (some .sync) acts (Session.cycleResponse outcome)
  | stop : Meets (some .stop) [.stopAsked] (.success (.record [("stopping", .bool true)]))
  | other (name : String) :
      Meets (some (.other name)) [] (.refusal ("unknown command '" ++ name ++ "'"))

/-- **The lines that a session answers**: those that are not blank, up to the first request to stop. -/
def addressed : List String → List String
  | [] => []
  | line :: rest =>
    if Text.isBlankText line then addressed rest
    else if Request.ofText? line = some .stop then [line]
    else line :: addressed rest

/-- **A line was answered**: it was met, and one response was written. -/
def Answered (line : String) (acts : List Act) : Prop :=
  ∃ before r, Meets (Request.ofText? line) before r ∧ before ++ [.wrote r] = acts

/-- **How a session ends**: every line was answered, or the response to one did not reach the client. -/
inductive Ends : List String → List Act → Except DaemonError Unit → Prop where
  | answered : Ends [] [] (.ok ())
  | hungUp {line : String} {rest : List String} {acts : List Act} {r : Response}
      (meets : Meets (Request.ofText? line) acts r) (fault : SystemFault) :
      Ends (line :: rest) (acts ++ [.lost r fault]) (.error (.io "daemon socket write" fault))

/-- **A session answers its lines one by one.** -/
def Framed (lines : List String) (acts : List Act) (result : Except DaemonError Unit) : Prop :=
  ∃ heard rest chunks last, heard ++ rest = addressed lines ∧
    List.Forall₂ Answered heard chunks ∧ Ends rest last result ∧ chunks.flatten ++ last = acts

namespace Framed

variable {line : String} {rest : List String} {acts more : List Act} {result : Except DaemonError Unit}

theorem nil : Framed [] [] (.ok ()) := ⟨[], [], [], [], rfl, .nil, .answered, rfl⟩

/-- A blank line is passed over. -/
theorem blank (hblank : Text.isBlankText line) (h : Framed rest acts result) :
    Framed (line :: rest) acts result := by
  rwa [Framed, addressed, if_pos hblank]

variable (hblank : ¬ Text.isBlankText line)
include hblank

/-- A response that does not reach the client is the last one, -/
theorem hungUp {r : Response} (hmeets : Meets (Request.ofText? line) acts r) (fault : SystemFault) :
    Framed (line :: rest) (acts ++ [.lost r fault]) (.error (.io "daemon socket write" fault)) := by
  obtain ⟨others, hothers⟩ : ∃ others, addressed (line :: rest) = line :: others := by
    rw [addressed, if_neg hblank]
    split_ifs
    · exact ⟨[], rfl⟩
    · exact ⟨addressed rest, rfl⟩
  exact ⟨[], line :: others, [], _, hothers.symm, .nil, .hungUp hmeets fault, rfl⟩

/-- and so is the response to a request to stop. -/
theorem stop (hstop : Request.ofText? line = some .stop) (hline : Answered line acts) :
    Framed (line :: rest) acts (.ok ()) := by
  refine ⟨[line], [], [acts], [], ?_, .cons hline .nil, .answered, ?_⟩
  · rw [addressed, if_neg hblank, if_pos hstop, List.append_nil]
  · rw [List.flatten_singleton, List.append_nil]

/-- After any other response the session goes on. -/
theorem cons (hstop : Request.ofText? line ≠ some .stop) (hline : Answered line acts)
    (h : Framed rest more result) : Framed (line :: rest) (acts ++ more) result := by
  obtain ⟨heard, others, chunks, last, hsplit, hheard, hends, hmore⟩ := h
  refine ⟨line :: heard, others, acts :: chunks, last, ?_, .cons hline hheard, hends, ?_⟩
  · rw [addressed, if_neg hblank, if_neg hstop, List.cons_append, hsplit]
  · rw [List.flatten_cons, List.append_assoc, hmore]

end Framed

theorem minuted_eq {act : α → Act} {x : StateM σ α} {s : Minuted σ} {a : α} {w : σ}
    (h : x s.world = (a, w)) : minuted act x s = (a, ⟨w, s.acts ++ [act a]⟩) := by
  rw [minuted, h]

section

variable [Desk (StateM σ)]

/-- A cycle is had in one of the four ways. -/
theorem enqueue_spec (s : Minuted σ) : ∃ outcome w acts,
    (Session.enqueue .socket : StateM (Minuted σ) _) s = (outcome, ⟨w, s.acts ++ acts⟩) ∧
      Enqueues acts outcome := by
  rcases hsubmit : (Desk.submit .socket : StateM σ Bool) s.world with ⟨taken, w⟩
  have hsubmitted : (Desk.submit .socket : StateM (Minuted σ) Bool) s
      = (taken, ⟨w, s.acts ++ [.submitted .socket taken]⟩) := minuted_eq hsubmit
  cases taken with
  | false =>
    refine ⟨_, w, _, ?_, .closed⟩
    simp only [Session.enqueue, bind, StateT.bind, hsubmitted]
    rfl
  | true =>
    rcases houtcome : (Desk.outcome : StateM σ _) w with ⟨outcome, w'⟩
    have hawaited : (Desk.outcome : StateM (Minuted σ) _) ⟨w, s.acts ++ [.submitted .socket true]⟩
        = (outcome, ⟨w', s.acts ++ [.submitted .socket true, .awaited outcome]⟩) :=
      (minuted_eq (s := ⟨w, _⟩) houtcome).trans (by rw [List.append_assoc]; rfl)
    have hrun : (Session.enqueue .socket : StateM (Minuted σ) _) s
        = (match outcome with
          | none => .error (.channelClosed "cycle response")
          | some (.error reason) => .error (.refused (some reason))
          | some (.ok summary) => .ok summary,
          ⟨w', s.acts ++ [.submitted .socket true, .awaited outcome]⟩) := by
      simp only [Session.enqueue, bind, StateT.bind, hsubmitted, hawaited, if_true]
      rcases outcome with _ | _ | _ <;> rfl
    refine ⟨_, w', _, hrun, ?_⟩
    rcases outcome with _ | reason | summary
    · exact .dropped
    · exact .failed reason
    · exact .ran summary

/-- **A line is met.** -/
theorem answer_spec (line : String) (request : Option Request) (s : Minuted σ) : ∃ r w acts,
    (Session.answer line request : StateM (Minuted σ) _) s = (r, ⟨w, s.acts ++ acts⟩) ∧
      Meets request acts r := by
  cases request with
  | none =>
    refine ⟨_, ((Desk.complaint line : StateM σ String) s.world).2, [], ?_,
      .invalid ((Desk.complaint line : StateM σ String) s.world).1⟩
    rw [List.append_nil]
    rfl
  | some request =>
    cases request with
    | status => exact ⟨_, _, _, rfl, .status _⟩
    | stop => exact ⟨_, _, _, rfl, .stop⟩
    | other name =>
      refine ⟨_, s.world, [], ?_, .other name⟩
      rw [List.append_nil]
      rfl
    | sync =>
      obtain ⟨outcome, w, acts, hrun, henqueues⟩ := enqueue_spec s
      refine ⟨_, w, acts, ?_, .sync henqueues⟩
      simp only [Session.answer, Session.meet, Functor.map, StateT.map, bind, hrun]
      rfl

/-- **A session is framed**, whatever was done before. -/
theorem serve_spec : ∀ (lines : List String) (s : Minuted σ), ∃ result w acts,
    (Session.serve lines : StateM (Minuted σ) _) s = (result, ⟨w, s.acts ++ acts⟩) ∧
      Framed lines acts result
  | [], s => ⟨.ok (), s.world, [], by rw [List.append_nil]; rfl, .nil⟩
  | line :: rest, s => by
      by_cases hblank : Text.isBlankText line
      · obtain ⟨result, w, acts, hrun, hframed⟩ := serve_spec rest s
        refine ⟨result, w, acts, ?_, .blank hblank hframed⟩
        rw [Session.serve, if_pos hblank, hrun]
      obtain ⟨r, w, before, hanswer, hmeets⟩ := answer_spec line (Request.ofText? line) s
      rcases hrespond : (Desk.respond r : StateM σ (Except SystemFault Unit)) w with ⟨outcome, w'⟩
      have hsent : (Desk.respond r : StateM (Minuted σ) _) ⟨w, s.acts ++ before⟩
          = (outcome, ⟨w', s.acts ++ (before ++ [.ofResponse r outcome])⟩) :=
        (minuted_eq (s := ⟨w, _⟩) hrespond).trans (by rw [List.append_assoc])
      cases outcome with
      | error fault =>
        refine ⟨_, w', before ++ [.lost r fault], ?_, .hungUp hblank hmeets fault⟩
        rw [Session.serve, if_neg hblank]
        simp only [bind, StateT.bind, hanswer, hsent]
        rfl
      | ok =>
        have hserve : (Session.serve (line :: rest) : StateM (Minuted σ) _) s
            = (if Request.ofText? line = some .stop then pure (.ok ()) else Session.serve rest :
              StateM (Minuted σ) _) ⟨w', s.acts ++ (before ++ [.wrote r])⟩ := by
          rw [Session.serve, if_neg hblank]
          simp only [bind, StateT.bind, hanswer, hsent, Act.ofResponse]
        have hline : Answered line (before ++ [.wrote r]) := ⟨before, r, hmeets, rfl⟩
        by_cases hstop : Request.ofText? line = some .stop
        · refine ⟨.ok (), w', _, hserve.trans ?_, .stop hblank hstop hline⟩
          rw [if_pos hstop]
          rfl
        · obtain ⟨result, w'', acts, hrun, hframed⟩ :=
            serve_spec rest ⟨w', s.acts ++ (before ++ [.wrote r])⟩
          refine ⟨result, w'', before ++ [.wrote r] ++ acts, hserve.trans ?_,
            .cons hblank hstop hline hframed⟩
          rw [if_neg hstop, ← List.append_assoc s.acts _ acts]
          exact hrun

end

/-! ## What reaches the client -/

/-- The numbers of a summary fit 64 bits. -/
structure CycleSummary.Fits (s : CycleSummary) : Prop where
  finishedAt : s.finishedAt < 2 ^ 64
  duration : s.ended - s.started < 2 ^ 64
  laps : ∀ lap ∈ lapTimes s.started s.report.ticks, lap.2 < 2 ^ 64

/-- **What is told can be carried.** -/
def Act.Fits : Act → Prop
  | .told status => Carried 126 status
  | .awaited (some (.ok summary)) => summary.Fits
  | _ => True

theorem carried_nat {depth n : Nat} (h : n < 2 ^ 64) : Carried depth (.nat n) := by
  refine .int ?_ (by exact_mod_cast h)
  exact (by decide : (-2 ^ 63 : Int) ≤ 0).trans (Int.natCast_nonneg n)

/-- A lap time is carried. -/
theorem carried_shortMilliseconds {depth n : Nat} (h : n < 2 ^ 64) :
    Carried depth (.real (Text.shortMilliseconds n)) := by
  have hplaces : ∀ c ∈ Text.shortPlaces (Text.padded 3 (n % 1000)).toList, Text.isDigit c = true :=
    Text.isDigit_of_mem_shortPlaces fun _ => Text.isDigit_of_mem_padded
  have hwhole : n / 1000 < 10 ^ 100 := (Nat.div_le_self n 1000).trans_lt (h.trans (by decide))
  exact .real (Text.shortPlaces_ne_nil _) hplaces
    (Text.isFinite_of_lt (Text.shortPlaces_ne_nil _) hplaces hwhole)

/-- **A summary is carried** if its numbers fit. -/
theorem CycleSummary.Fits.carried {s : CycleSummary} (h : s.Fits) (depth : Nat) :
    Carried (depth + 3) s.toValue := by
  refine .record fun f hf => ?_
  simp only [List.mem_cons, List.not_mem_nil, or_false] at hf
  rcases hf with rfl | rfl | rfl | rfl | rfl | rfl | rfl
  · exact .text _
  · exact .text _
  · exact .text _
  · exact .bool _
  · refine .list fun v hv => ?_
    obtain ⟨lap, hlap, rfl⟩ := List.mem_map.mp hv
    refine .record fun f hf => ?_
    simp only [List.mem_cons, List.not_mem_nil, or_false] at hf
    rcases hf with rfl | rfl
    · exact .text _
    · exact carried_shortMilliseconds (h.laps lap hlap)
  · exact carried_nat ((Nat.div_le_self _ _).trans_lt h.duration)
  · exact carried_nat h.finishedAt

/-- The numbers of a history fit 64 bits. -/
structure History.Fits (h : History) : Prop where
  cycles : h.cycles < 2 ^ 64
  failures : h.failures < 2 ^ 64
  lastCycle : ∀ s, h.lastCycle = some s → s.Fits

/-- **The status of a daemon fits** if its numbers do. -/
theorem Daemon.fits_status [Launcher (StateM σ)] {d : Daemon} {w w' : σ} {status : Value}
    (hrun : (d.status : StateM σ Value) w = (status, w'))
    (hprocess : ((Launcher.processId : StateM σ Nat) w).1 < 2 ^ 64) (hstart : d.startedAt < 2 ^ 64)
    (hhistory : d.history.Fits) : (Act.told status).Fits := by
  obtain rfl : _ = status := congrArg Prod.fst hrun
  refine .record fun f hf => ?_
  simp only [List.mem_cons, List.not_mem_nil, or_false] at hf
  rcases hf with rfl | rfl | rfl | rfl | rfl | rfl | rfl | rfl | rfl | rfl
  · exact .bool true
  · exact carried_nat hprocess
  · exact carried_nat hstart
  · exact carried_nat hhistory.cycles
  · exact carried_nat hhistory.failures
  · cases hlast : d.history.lastCycle with
    | none => exact .null
    | some s => exact (hhistory.lastCycle s hlast).carried 122
  · cases d.history.lastError with
    | none => exact .null
    | some e => exact .text e.message
  · exact .text _
  · exact .text _
  · exact .text _

/-- **What a line is met with is received** if what was told fits. -/
theorem Meets.received {request : Option Request} {acts : List Act} {r : Response}
    (h : Meets request acts r) (hfits : ∀ a ∈ acts, a.Fits) : r.Received := by
  cases h with
  | invalid | other => exact Response.received_refusal _
  | status => exact Response.received_success (hfits _ (List.mem_singleton_self _))
  | stop =>
    refine Response.received_success (.record fun f hf => ?_)
    rw [List.mem_singleton.mp hf]
    exact .bool true
  | sync enqueues =>
    cases enqueues with
    | closed | dropped | failed => exact Response.received_refusal _
    | ran summary =>
      have hsummary : summary.Fits := hfits _ (List.mem_cons_of_mem _ (List.mem_singleton_self _))
      exact Response.received_success (hsummary.carried 123)

/-- What a line is met with writes nothing on the way. -/
theorem Meets.wrote_notMem {request : Option Request} {acts : List Act} {r s : Response}
    (h : Meets request acts r) : .wrote s ∉ acts := by
  cases h with
  | invalid | other | status | stop => simp
  | sync enqueues => cases enqueues <;> simp

theorem exists_answered {heard : List String} {chunks : List (List Act)} {chunk : List Act}
    (h : List.Forall₂ Answered heard chunks) (hchunk : chunk ∈ chunks) :
    ∃ line, Answered line chunk := by
  induction h with
  | nil => exact nomatch hchunk
  | cons hline _ ih =>
    rcases List.mem_cons.mp hchunk with rfl | hchunk
    · exact ⟨_, hline⟩
    · exact ih hchunk

/-- **Every written response is received** if what was told fits. -/
theorem Framed.received {lines : List String} {acts : List Act} {result : Except DaemonError Unit}
    (h : Framed lines acts result) (hfits : ∀ a ∈ acts, a.Fits) {r : Response}
    (hwrote : .wrote r ∈ acts) : r.Received := by
  obtain ⟨heard, rest, chunks, last, -, hheard, hends, rfl⟩ := h
  rcases List.mem_append.mp hwrote with hwrote | hwrote
  · obtain ⟨chunk, hchunk, hwrote⟩ := List.mem_flatten.mp hwrote
    obtain ⟨line, before, s, hmeets, rfl⟩ := exists_answered hheard hchunk
    have heq : Act.wrote r = .wrote s := List.mem_singleton.mp
      ((List.mem_append.mp hwrote).resolve_left hmeets.wrote_notMem)
    obtain rfl := Act.wrote.inj heq
    exact hmeets.received fun a ha => hfits a (List.mem_append_left _
      (List.mem_flatten_of_mem hchunk (List.mem_append_left _ ha)))
  · cases hends with
    | answered => exact nomatch hwrote
    | hungUp meets fault =>
      rcases List.mem_append.mp hwrote with hwrote | hwrote
      · exact absurd hwrote meets.wrote_notMem
      · exact nomatch List.mem_singleton.mp hwrote

/-- **Headline: sessions are framed one to one.**  Whatever a client sends, and whatever becomes of its
requests, each line that is not blank is met with one response, in order, up to the first request to stop,
unless a response does not reach the client.  Only requests for a cycle submit a job, one each, and only
the request to stop asks the daemon to.  A client takes each response for what it is. -/
theorem session_framed [Desk (StateM σ)] (lines : List String) (w : σ) :
    ∃ result w' acts, (Session.serve lines : StateM (Minuted σ) _) { world := w }
        = (result, ⟨w', acts⟩) ∧
      Framed lines acts result ∧
      ((∀ a ∈ acts, a.Fits) → ∀ r, .wrote r ∈ acts → r.Received) := by
  obtain ⟨result, w', acts, hrun, hframed⟩ := serve_spec lines { world := w }
  exact ⟨result, w', acts, hrun, hframed, fun hfits r => hframed.received hfits⟩

/-- **A request reads back** from its line. -/
theorem Request.ofText?_text (name : String) :
    ofText? (ofName name).text = some (ofName name) := by
  have hname : (ofName name).name = name := by
    unfold ofName
    split_ifs with h h h
    · exact h.symm
    · exact h.symm
    · exact h.symm
    · rfl
  have hcarried : Carried Json.maxDepth (ofName name).toValue := .record fun f hf => by
    rw [List.mem_singleton.mp hf]
    exact .text _
  rw [ofText?, text, Json.parse_compact hcarried, Option.bind_some, toValue, hname]
  rfl

/-- A client asks for the status, then something else, then for a cycle that fails, and then to stop. -/
theorem session_framed_mixed :
    let _desk : Desk (StateM Unit) := {
      status := pure (.record [("running", .bool true)])
      submit := fun _ => pure true
      outcome := pure (some (.error "no such file\nor directory"))
      stop := pure ()
      complaint := fun _ => pure "expected value"
      respond := fun _ => pure (.ok ()) }
    let lines := ["", Request.status.text, "oops", Request.sync.text, Request.stop.text, "more"]
    ∃ acts, (Session.serve lines : StateM (Minuted Unit) _) { world := () } = (.ok (), ⟨(), acts⟩) ∧
      Framed lines acts (.ok ()) ∧ acts.length = 8 ∧ (∀ a ∈ acts, a.Fits) ∧
      ∀ r, .wrote r ∈ acts → r.Received := by
  intro _desk lines
  have hstatus : Request.ofText? Request.status.text = some .status := Request.ofText?_text "status"
  have hsync : Request.ofText? Request.sync.text = some .sync := Request.ofText?_text "sync"
  have hstop : Request.ofText? Request.stop.text = some .stop := Request.ofText?_text "stop"
  have hother : Request.ofText? "oops" = none := by decide +kernel
  have hblank : lines.map Text.isBlankText = [true, false, false, false, false, false] := by
    decide +kernel
  simp only [lines, List.map_cons, List.map_nil, List.cons.injEq, and_true] at hblank
  obtain ⟨hnothing, hstatus', hother', hsync', hstop', -⟩ := hblank
  let acts : List Act := [
    .told (.record [("running", .bool true)]), .wrote (.success (.record [("running", .bool true)])),
    .wrote (.refusal ("invalid request JSON: " ++ "expected value")),
    .submitted .socket true, .awaited (some (.error "no such file\nor directory")),
    .wrote (.refusal (DaemonError.refused (some "no such file\nor directory")).message),
    .stopAsked, .wrote (.success (.record [("stopping", .bool true)]))]
  have hrun : (Session.serve lines : StateM (Minuted Unit) _) { world := () }
      = (.ok (), ⟨(), acts⟩) := by
    simp only [lines, Session.serve, hnothing, hstatus', hother', hsync', hstop', hstatus, hother, hsync,
      hstop, if_true, Bool.false_eq_true, if_false]
    rfl
  have hcarried (name : String) : Carried 126 (.record [(name, .bool true)]) := .record fun f hf => by
    rw [List.mem_singleton.mp hf]
    exact .bool true
  have hfits : ∀ a ∈ acts, a.Fits := by simp [acts, Act.Fits, hcarried]
  obtain ⟨result, w, acts', hrun', hframed, hreceived⟩ := session_framed lines ()
  obtain ⟨rfl, hstate⟩ := Prod.mk.inj (hrun.symm.trans hrun')
  obtain rfl : acts = acts' := congrArg Minuted.acts hstate
  exact ⟨acts, hrun, hframed, rfl, hfits, hreceived hfits⟩

end Rollout
