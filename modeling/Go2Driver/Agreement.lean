import Go2Driver.Lib.Matching
import Go2Driver.Transitions
import Go2Driver.Truthful

/-!
# With and without `wait_for_response`

Without it, `sendRequest` publishes and runs the callback at once, from within the
handler or the timer's lambda; with it, the callback runs when the reply comes.
Where the robot answers every request with status code 0 before the next event, the
two bridges do the same for the services.

`acceptedStep` is one event of the waiting bridge with those replies, and `Accepted`
says what it comes to (`acceptedStep_accepted`, `Accepted.step`).  Against it stand
the transitions of the other bridge: each event of one is matched by the same event
of the other, and they keep `Agree` (`Agree.follow`, `Agree.lead`).
-/

namespace Go2

open Tables Runs SportBridge

/-! ## A robot that accepts everything -/

def SportConfig.waiting (cfg : SportConfig) (wait : Bool) : SportConfig :=
  { cfg with waitForResponse := wait }

/-- An event, and the replies that come before the next. -/
structure AcceptedEvent where
  event : SportEvent
  clock : Clock
  replies : List (Response × Clock)

/-- One reply with status code 0 to each call of `out`, in order. -/
def AcceptedEvent.accepts (e : AcceptedEvent) (out : List SportEmission) : Prop :=
  e.replies.map (·.1.id) = (calls out).map (·.1) ∧ ∀ r ∈ e.replies, r.1.code = statusOk

instance (e : AcceptedEvent) (out : List SportEmission) : Decidable (e.accepts out) :=
  inferInstanceAs (Decidable (_ ∧ _))

/-- The events the executor runs. -/
def AcceptedEvent.events (e : AcceptedEvent) : List (SportEvent × Clock) :=
  (e.event, e.clock) :: e.replies.map fun r => (.response r.1, r.2)

section
variable (nl : Nlohmann) (cfg : SportConfig)

/-- Replies, one after the other. -/
def answerAll : List (Response × Clock) → SportState → Option (SportState × List SportEmission)
  | [], s => some (s, [])
  | r :: rest, s =>
    match sportBridgeStep nl cfg s (.response r.1, r.2) with
    | none => none
    | some (s₁, out) => (answerAll rest s₁).map fun x => (x.1, out ++ x.2)

def acceptedStep (s : SportState) (e : AcceptedEvent) : Option (SportState × List SportEmission) :=
  match sportBridgeStep nl cfg s (e.event, e.clock) with
  | none => none
  | some (s₁, out) =>
    if e.accepts out then (answerAll nl cfg e.replies s₁).map fun x => (x.1, out ++ x.2) else none

abbrev AcceptedTrace := List (Step SportState AcceptedEvent SportEmission)

def AcceptedRun (timeoutMs : Int) (tr : AcceptedTrace) (s : SportState) : Prop :=
  Run (acceptedStep nl cfg) (SportState.start timeoutMs) tr s

variable {nl cfg} {s s' : SportState} {out : List SportEmission}

theorem answerAll_run {replies : List (Response × Clock)}
    (h : answerAll nl cfg replies s = some (s', out)) :
    ∃ tr, Run (sportBridgeStep nl cfg) s tr s' ∧ history tr = out ∧
      tr.map (·.event) = replies.map fun r => (.response r.1, r.2) := by
  induction replies generalizing s out with
  | nil =>
    simp only [answerAll, Option.some.injEq, Prod.mk.injEq] at h
    obtain ⟨rfl, rfl⟩ := h
    exact ⟨[], .nil, rfl, rfl⟩
  | cons r rest ih =>
    simp only [answerAll] at h
    cases hst : sportBridgeStep nl cfg s (.response r.1, r.2) with
    | none => rw [hst] at h; cases h
    | some x =>
      rw [hst] at h
      obtain ⟨y, hy, heq⟩ := Option.map_eq_some_iff.mp h
      rw [Prod.mk.injEq] at heq
      obtain ⟨rfl, rfl⟩ := heq
      obtain ⟨tr, hrun, hhist, hevents⟩ := ih hy
      exact ⟨_, .cons hst hrun, by simp [hhist], by simp [hevents]⟩

theorem acceptedStep_run {e : AcceptedEvent} (h : acceptedStep nl cfg s e = some (s', out)) :
    ∃ tr, Run (sportBridgeStep nl cfg) s tr s' ∧ history tr = out ∧ tr.map (·.event) = e.events := by
  unfold acceptedStep at h
  cases hst : sportBridgeStep nl cfg s (e.event, e.clock) with
  | none => rw [hst] at h; cases h
  | some x =>
    rw [hst] at h
    simp only at h
    split at h
    · obtain ⟨y, hy, heq⟩ := Option.map_eq_some_iff.mp h
      rw [Prod.mk.injEq] at heq
      obtain ⟨rfl, rfl⟩ := heq
      obtain ⟨tr, hrun, hhist, hevents⟩ := answerAll_run hy
      exact ⟨_, .cons hst hrun, by simp [hhist], by simp [hevents, AcceptedEvent.events]⟩
    · cases h

/-- A run with its replies is a run of the bridge. -/
theorem AcceptedRun.sportRun {timeoutMs : Int} {tr : AcceptedTrace}
    (h : AcceptedRun nl cfg timeoutMs tr s) :
    ∃ tr', SportRun nl cfg timeoutMs tr' s ∧ history tr' = history tr ∧
      tr'.map (·.event) = tr.flatMap (·.event.events) := by
  refine Run.traceInvariant (fun (tr : AcceptedTrace) s => ∃ tr', SportRun nl cfg timeoutMs tr' s ∧
    history tr' = history tr ∧ tr'.map (·.event) = tr.flatMap (·.event.events))
    ⟨[], .nil, rfl, rfl⟩ ?_ h
  rintro tr s e s' out - ⟨tr', hrun, hhist, hevents⟩ he
  obtain ⟨tr₁, hrun₁, hhist₁, hevents₁⟩ := acceptedStep_run he
  refine ⟨tr' ++ tr₁, Run.append_iff.mpr ⟨s, hrun, hrun₁⟩, ?_, ?_⟩
  · simp [hhist, hhist₁]
  · simp [hevents, hevents₁]

end

/-! ## What an accepted event comes to -/

/-- The events of the comparison: no reply and no sweep, and not the service that
is refused without `wait_for_response_`. -/
def SportEvent.compared : SportEvent → Bool
  | .getAutoRecovery _ | .response _ | .sweep _ => false
  | _ => true

/-- The event calls `advanceSequence` with the active sequence `run`. -/
def Starts (cfg : SportConfig) (s : SportState) (e : SportEvent) (run : SequenceRun) : Prop :=
  e.accepted? cfg s.host = some run ∨
    e = .timer ∧ s.host.armed = true ∧ s.host.activeSequence = some run

/-- The client after a call and the reply to it. -/
def UnitreeApiClient.settled (c : UnitreeApiClient Callback) (r : Reading) (apiId : Int)
    (cb : Callback) (id : Int) : UnitreeApiClient Callback :=
  { c.afterCall r apiId cb with pending := (c.afterCall r apiId cb).pending.erase id }

section
variable (nl : Nlohmann) (cfg : SportConfig)

/-- What a request and the reply to it let out. -/
def exchange (c : UnitreeApiClient Callback) (r : Reading) (apiId : Int) (cb : Callback) (text : String)
    (msg : Response) (report : List SportEmission) : List SportEmission :=
  .published ⟨c.freshId r, apiId, false, text⟩ (some (c.newEntry r apiId cb)) ::
    (mismatchLog msg (c.newEntry r apiId cb) ++
      .invoked msg.id (c.newEntry r apiId cb) msg.result :: report)

/-- The events of the waiting bridge, replies included. -/
inductive Accepted (s : SportState) : AcceptedEvent → SportState → List SportEmission → Prop
  | refused {e : SportEvent} {clk : Clock} {r : RequestId} {resp : SportResponse} :
      e.refusal? cfg s.host = some (r, resp) → Accepted s ⟨e, clk, []⟩ s [answered r resp]
  | cmdVel {msg : Twist} {clk : Clock} {text : String} :
      nl.dump (xyzJson msg.linearX msg.linearY msg.angularZ) = some text →
      Accepted s ⟨.cmdVel msg, clk, []⟩ ⟨s.client.afterSend (clk 0), s.host⟩
        [.published ⟨s.client.freshId (clk 0), SportApiId.move.code, true, text⟩ none]
  | served {e : SportEvent} {clk clk' : Clock} {q : SportCall} {text : String} {msg : Response} :
      e.serviceCall? nl cfg = some q → nl.dump q.parameter = some text →
      msg.id = s.client.freshId (clk 0) → msg.code = statusOk →
      Accepted s ⟨e, clk, [(msg, clk')]⟩
        ⟨s.client.settled (clk 0) q.apiId q.callback msg.id, s.host⟩
        (exchange s.client (clk 0) q.apiId q.callback text msg (q.callback.report nl cfg msg.result))
  | finished {e : SportEvent} {clk : Clock} {run : SequenceRun} : Starts cfg s e run →
      run.steps.length ≤ run.index → Accepted s ⟨e, clk, []⟩ ⟨s.client, .idle⟩ [run.answer]
  | stepped {e : SportEvent} {clk clk' : Clock} {run : SequenceRun} {st : SportCommandStep}
      {text : String} {msg : Response} : Starts cfg s e run →
      run.steps[run.index]? = some st → nl.dump st.parameter = some text →
      msg.id = s.client.freshId (clk 0) → msg.code = statusOk → 0 ≤ st.waitMsAfter →
      Accepted s ⟨e, clk, [(msg, clk')]⟩
        ⟨s.client.settled (clk 0) st.apiId .step msg.id,
          .waiting (run.advanced cfg st msg.result) st.waitMsAfter⟩
        (exchange s.client (clk 0) st.apiId .step text msg [.host (.timerCreated st.waitMsAfter)])

end

section
variable {nl : Nlohmann} {cfg : SportConfig} {s s' : SportState} {out : List SportEmission}

theorem accepts_nil {e : AcceptedEvent} (h : e.accepts out) (hc : calls out = []) : e.replies = [] := by
  have hids := h.1
  rw [hc] at hids
  exact List.map_eq_nil_iff.mp hids

theorem accepts_one {e : AcceptedEvent} (h : e.accepts out) {x : PendingEntry Callback}
    (hc : calls out = [x]) :
    ∃ msg clk, e.replies = [(msg, clk)] ∧ msg.id = x.1 ∧ msg.code = statusOk := by
  obtain ⟨hids, hcodes⟩ := h
  rw [hc, List.map_singleton, List.map_eq_singleton_iff] at hids
  obtain ⟨⟨msg, clk⟩, hr, hid⟩ := hids
  exact ⟨msg, clk, hr, hid, hcodes _ (hr ▸ List.mem_singleton.mpr rfl)⟩

theorem notFull_of_empty {c : UnitreeApiClient Callback} (h : c.pending.entries = []) : ¬ c.full := by
  unfold UnitreeApiClient.full
  rw [h]
  decide

theorem notMem_of_empty {c : UnitreeApiClient Callback} (h : c.pending.entries = []) (id : Int) :
    id ∉ c.pending := by
  intro hm
  obtain ⟨v, hv⟩ := mem_iff_lookup.mp hm
  have := lookup_eq_some_iff.mp hv
  rw [h] at this
  cases this

/-- The entry a call registered in an empty table. -/
theorem lookup_afterCall {c : UnitreeApiClient Callback} (h : c.pending.entries = []) (r : Reading)
    (apiId : Int) (cb : Callback) :
    (c.afterCall r apiId cb).pending.lookup (c.freshId r) = some (c.newEntry r apiId cb) :=
  lookup_emplace_self (notMem_of_empty h _)

/-- Call and reply leave an empty table empty. -/
theorem settled_empty {c : UnitreeApiClient Callback} (h : c.pending.entries = []) (r : Reading)
    (apiId : Int) (cb : Callback) : (c.settled r apiId cb (c.freshId r)).pending.entries = [] := by
  have hentries := entries_afterCall (notMem_of_empty h (c.freshId r)) (r := r) apiId cb
  simp only [UnitreeApiClient.settled, entries_erase, hentries, h]
  simp

theorem answerAll_one (msg : Response) (clk : Clock) :
    answerAll nl cfg [(msg, clk)] s = sportBridgeStep nl cfg s (.response msg, clk) := by
  unfold answerAll
  cases sportBridgeStep nl cfg s (.response msg, clk) with
  | none => rfl
  | some x => simp [answerAll]

/-- The event has somewhere to advance from: the host with the run active. -/
theorem Starts.step {e : SportEvent} {run : SequenceRun} (h : Starts cfg s e run) :
    ∃ host : SportHost, host.activeSequence = some run ∧ ∀ (clk : Clock) {s₁ : SportState}
      {out : List SportEmission}, Advance nl cfg ⟨s.client, host⟩ run (clk 0) s₁ out →
        sportBridgeStep nl cfg s (e, clk) = some (s₁, out) := by
  rcases h with hacc | ⟨rfl, harm, hrun⟩
  · exact ⟨{ s.host with activeSequence := some run }, rfl, fun _ => accepted_step hacc⟩
  · exact ⟨s.host.cancelTimer, hrun, fun _ => fired_step harm hrun⟩

theorem acceptedStep_eq {e : AcceptedEvent} {s₁ : SportState}
    (h : sportBridgeStep nl cfg s (e.event, e.clock) = some (s₁, out)) (hacc : e.accepts out) :
    acceptedStep nl cfg s e = (answerAll nl cfg e.replies s₁).map fun x => (x.1, out ++ x.2) := by
  unfold acceptedStep
  rw [h]
  exact if_pos hacc

/-- What `Accepted` says is what the bridge and the replies do. -/
theorem Accepted.step {e : AcceptedEvent} (hw : cfg.waitForResponse = true)
    (hempty : s.client.pending.entries = []) (h : Accepted nl cfg s e s' out) :
    acceptedStep nl cfg s e = some (s', out) := by
  cases h with
  | refused hr =>
    rw [acceptedStep_eq (refused_step hr _) ⟨rfl, by simp⟩]
    rfl
  | @cmdVel msg clk text hd =>
    have hst : sportBridgeStep nl cfg s (.cmdVel msg, clk) = _ := cmdVel_step hd clk
    rw [acceptedStep_eq hst ⟨rfl, by simp⟩]
    rfl
  | @served e clk clk' q text msg hq hd hid hcode =>
    have hst := sent_step hq hw (notFull_of_empty hempty) hd clk
    rw [acceptedStep_eq hst ⟨by simp [calls, hid], by simp [hcode]⟩]
    simp only [answerAll_one]
    rw [replied_step (s.client.newEntry (clk 0) q.apiId q.callback)
      (by rw [hid]; exact lookup_afterCall hempty _ _ _) (SportEvent.serviceCall?_callback hq).1]
    rfl
  | finished hs hi =>
    obtain ⟨host, -, hst⟩ := hs.step
    rw [acceptedStep_eq (hst _ (.finished hi)) ⟨rfl, by simp⟩]
    rfl
  | @stepped e clk clk' run st text msg hs hst hd hid hcode hwait =>
    obtain ⟨host, hrun, hstep⟩ := hs.step
    have hfirst := hstep clk (.sent hst hw (notFull_of_empty hempty) hd)
    rw [acceptedStep_eq hfirst ⟨by simp [calls, hid], by simp [hcode]⟩]
    simp only [answerAll_one]
    rw [stepAccepted_step (s.client.newEntry (clk 0) st.apiId .step)
      (by rw [hid]; exact lookup_afterCall hempty _ _ _) rfl hrun hst (decide_eq_true hcode),
      if_neg (by omega)]
    rfl

/-- The part of an accepted event that is one call of `advanceSequence`. -/
theorem Advance.accepted {e : SportEvent} {clk : Clock} {replies : List (Response × Clock)}
    {run : SequenceRun} {host : SportHost} {s₁ : SportState} {out₁ : List SportEmission}
    (hadv : Advance nl cfg ⟨s.client, host⟩ run (clk 0) s₁ out₁)
    (hhost : host.activeSequence = some run) (hs : Starts cfg s e run)
    (hw : cfg.waitForResponse = true) (hempty : s.client.pending.entries = [])
    (hacc : (⟨e, clk, replies⟩ : AcceptedEvent).accepts out₁)
    (h : answerAll nl cfg replies s₁ = some (s', out)) :
    Accepted nl cfg s ⟨e, clk, replies⟩ s' (out₁ ++ out) := by
  cases hadv with
  | finished hi =>
    obtain rfl : replies = [] := accepts_nil hacc rfl
    simp only [answerAll, Option.some.injEq, Prod.mk.injEq] at h
    obtain ⟨rfl, rfl⟩ := h
    rw [List.append_nil]
    exact .finished hs hi
  | notSent _ _ hf => exact absurd hf (notFull_of_empty hempty)
  | @sent st text hst _ hf hd =>
    obtain ⟨msg, clk', hr, hid, hcode⟩ := accepts_one hacc rfl
    simp only at hr hid
    subst hr
    rw [answerAll_one, stepAccepted_step (s.client.newEntry (clk 0) st.apiId .step)
      (by rw [hid]; exact lookup_afterCall hempty _ _ _) rfl hhost hst (decide_eq_true hcode)] at h
    split at h
    · cases h
    · next hwait =>
      simp only [Option.some.injEq, Prod.mk.injEq] at h
      obtain ⟨rfl, rfl⟩ := h
      exact .stepped hs hst hd hid hcode (by omega)
  | atOnce _ hw' _ _ => rw [hw] at hw'; cases hw'

/-- Inversion: the accepted events are what `Accepted` lists. -/
theorem acceptedStep_accepted {e : AcceptedEvent} (hw : cfg.waitForResponse = true) (hp : Phase s)
    (hempty : s.client.pending.entries = []) (hc : e.event.compared = true)
    (h : acceptedStep nl cfg s e = some (s', out)) : Accepted nl cfg s e s' out := by
  obtain ⟨e, clk, replies⟩ := e
  unfold acceptedStep at h
  cases hst : sportBridgeStep nl cfg s (e, clk) with
  | none => simp [hst] at h
  | some x =>
    obtain ⟨s₁, out₁⟩ := x
    simp only [hst] at h
    split at h
    · next hacc =>
      obtain ⟨y, hy, heq⟩ := Option.map_eq_some_iff.mp h
      rw [Prod.mk.injEq] at heq
      obtain ⟨rfl, rfl⟩ := heq
      have ht := sportBridgeStep_transition nl cfg hp hst
      have hnil : calls out₁ = [] → replies = [] ∧ y = (s₁, []) := by
        intro hcalls
        obtain rfl : replies = [] := accepts_nil hacc hcalls
        simp only [answerAll, Option.some.injEq] at hy
        exact ⟨rfl, hy.symm⟩
      cases ht with
      | refused hr =>
        obtain ⟨rfl, rfl⟩ := hnil rfl
        exact .refused hr
      | cmdVel hd =>
        obtain ⟨rfl, rfl⟩ := hnil rfl
        exact .cmdVel hd
      | accepted hacc' hadv => exact hadv.accepted rfl (.inl hacc') hw hempty hacc hy
      | fired harm hrun hadv => exact hadv.accepted hrun (.inr ⟨rfl, harm, hrun⟩) hw hempty hacc hy
      | notSent _ _ hf => exact absurd hf (notFull_of_empty hempty)
      | @sent e clk q text hq _ hf hd =>
        obtain ⟨msg, clk', hr, hid, hcode⟩ := accepts_one hacc rfl
        simp only at hr hid
        subst hr
        rw [answerAll_one, replied_step (s.client.newEntry (clk 0) q.apiId q.callback)
          (by rw [hid]; exact lookup_afterCall hempty _ _ _) (SportEvent.serviceCall?_callback hq).1,
          Option.some.injEq] at hy
        subst hy
        exact .served hq hd hid hcode
      | atOnce _ hw' _ => rw [hw] at hw'; cases hw'
      | _ => cases hc
    · cases h

end

/-! ## The two bridges side by side -/

/-- A run but for its last message. -/
def SequenceRun.progress (run : SequenceRun) : SequenceRun := { run with lastMessage := "" }

/-- The two bridges between events: the same sequence as far, the same timer, nothing pending. -/
structure Agree (s t : SportState) : Prop where
  sequence : s.host.activeSequence.map SequenceRun.progress =
    t.host.activeSequence.map SequenceRun.progress
  timer : s.host.sequenceTimer = t.host.sequenceTimer
  empty : s.client.pending.entries = []
  empty' : t.client.pending.entries = []

/-- Request, service and success of each answer. -/
def successesIn (L : List SportEmission) : List (RequestId × SportService × Bool) :=
  (answersOf SportOut.answer? L).map fun a => (a.1, a.2.service, a.2.success)

theorem successesIn_append (L L' : List SportEmission) :
    successesIn (L ++ L') = successesIn L ++ successesIn L' := by
  unfold successesIn answersOf
  rw [List.filterMap_append, List.map_append]

/-- The same requests published, the same answers but for their texts. -/
structure SameForServices (L L' : List SportEmission) : Prop where
  requests : requestsIn L = requestsIn L'
  successes : successesIn L = successesIn L'

theorem SequenceRun.eq_of_progress {run run' : SequenceRun} (h : run.progress = run'.progress) :
    run'.name = run.name ∧ run'.steps = run.steps ∧ run'.index = run.index ∧
      run'.requestId = run.requestId ∧ run'.ok = run.ok := by
  obtain ⟨name, steps, index, requestId, lastMessage, ok⟩ := run
  obtain ⟨name', steps', index', requestId', lastMessage', ok'⟩ := run'
  simp only [progress, SequenceRun.mk.injEq] at h ⊢
  obtain ⟨rfl, rfl, rfl, rfl, -, rfl⟩ := h
  exact ⟨rfl, rfl, rfl, rfl, rfl⟩

section
variable {nl : Nlohmann} {cfg : SportConfig} {s t : SportState} {e : SportEvent} {w : Bool}

theorem Agree.symm (h : Agree s t) : Agree t s := ⟨h.sequence.symm, h.timer.symm, h.empty', h.empty⟩

theorem Agree.active (h : Agree s t) {run : SequenceRun} (ha : s.host.activeSequence = some run) :
    ∃ run', t.host.activeSequence = some run' ∧ run.progress = run'.progress := by
  have hseq := h.sequence
  rw [ha, Option.map_some] at hseq
  obtain ⟨run', hrun', heq⟩ := Option.map_eq_some_iff.mp hseq.symm
  exact ⟨run', hrun', heq.symm⟩

theorem Agree.inactive (h : Agree s t) (ha : s.host.activeSequence = none) :
    t.host.activeSequence = none := by
  have hseq := h.sequence
  rw [ha, Option.map_none] at hseq
  exact Option.map_eq_none_iff.mp hseq.symm

theorem Agree.armed (h : Agree s t) : s.host.armed = t.host.armed := by
  unfold SportHost.armed
  rw [h.timer]

/-- Both bridges refuse the same requests, in the same words. -/
theorem Agree.refusal (h : Agree s t) (hc : e.compared = true) :
    e.refusal? (cfg.waiting w) s.host = e.refusal? (cfg.waiting w') t.host := by
  cases e with
  | mode r name =>
    simp only [SportEvent.refusal?, SportConfig.waiting]
    cases ha : s.host.activeSequence with
    | none =>
      rw [h.inactive ha]
      rfl
    | some run =>
      obtain ⟨run', hrun', hprog⟩ := h.active ha
      simp only [hrun', (SequenceRun.eq_of_progress hprog).1]
      rfl
  | getAutoRecovery r => cases hc
  | _ => rfl

/-- Both advance, in the same place. -/
theorem Agree.starts (h : Agree s t) {run : SequenceRun} (hs : Starts (cfg.waiting w) s e run)
    (w' : Bool) :
    ∃ run', Starts (cfg.waiting w') t e run' ∧ run.progress = run'.progress := by
  rcases hs with hacc | ⟨rfl, harm, hrun⟩
  · obtain ⟨rfl, hnone, hl, hb, hs, hindex, hmsg, hok⟩ := SportEvent.accepted?_spec hacc
    refine ⟨⟨run.name, run.steps, 0, run.requestId, "", true⟩, .inl ?_, ?_⟩
    · have hl' : (cfg.waiting w').presets.lookup run.name = some run.steps := hl
      have hb' : run.name ∉ (cfg.waiting w').blockedModes := hb
      simp only [SportEvent.accepted?, hl', if_neg hb', h.inactive hnone, if_neg hs]
    · unfold SequenceRun.progress
      rw [hindex, hok]
  · obtain ⟨run', hrun', hprog⟩ := h.active hrun
    exact ⟨run', .inr ⟨rfl, h.armed ▸ harm, hrun'⟩, hprog⟩

/-- Both send the same request for a service. -/
theorem serviceCall?_waiting (hc : e.compared = true) {q : SportCall}
    (hq : e.serviceCall? nl (cfg.waiting w) = some q) (w' : Bool) :
    ∃ q', e.serviceCall? nl (cfg.waiting w') = some q' ∧ q'.apiId = q.apiId ∧
      q'.parameter = q.parameter ∧ q'.callback = q.callback := by
  cases e with
  | speedLevel r level =>
    simp only [SportEvent.serviceCall?] at hq ⊢
    split at hq
    · cases hq
    · next hlevel =>
      cases hq
      rw [if_neg hlevel]
      exact ⟨_, rfl, rfl, rfl, rfl⟩
  | switchJoystick r flag | pose r flag | euler r roll pitch yaw =>
    cases hq
    exact ⟨_, rfl, rfl, rfl, rfl⟩
  | getAutoRecovery r => cases hc
  | _ => cases hq

/-- A report on a result that is ok says so, whatever the configuration. -/
theorem successesIn_report (hc : e.compared = true) {q : SportCall}
    (hq : e.serviceCall? nl cfg = some q) (cfg' : SportConfig) {res res' : ApiResult}
    (h : res.ok = true) (h' : res'.ok = true) :
    successesIn (q.callback.report nl cfg res) = successesIn (q.callback.report nl cfg' res') := by
  cases e with
  | speedLevel r level =>
    simp only [SportEvent.serviceCall?] at hq
    split at hq
    · cases hq
    · cases hq
      simp [Callback.report, successesIn, answersOf, answered, SportOut.answer?, h, h',
        SportResponse.service, SportResponse.success]
  | switchJoystick r flag | pose r flag =>
    cases hq
    simp [Callback.report, failureLog, successesIn, answersOf, answered, SportOut.answer?, h, h',
      SportResponse.service, SportResponse.success]
  | euler r roll pitch yaw =>
    cases hq
    simp [Callback.report, successesIn, answersOf, answered, SportOut.answer?, h, h',
      SportResponse.service, SportResponse.success]
  | getAutoRecovery r => cases hc
  | _ => cases hq

theorem sameForServices_exchange {c c' : UnitreeApiClient Callback} {r r' : Reading} {apiId : Int}
    {cb : Callback} {text : String} {msg : Response} {report report' : List SportEmission}
    (hreq : requestsIn report = requestsIn report') (hsucc : successesIn report = successesIn report')
    (atOnce : ApiResult) :
    SameForServices (exchange c r apiId cb text msg report)
      (.published ⟨c'.freshId r', apiId, false, text⟩ none ::
        .host (.resultAtOnce apiId atOnce) :: report') := by
  have hwarn := warnings_mismatchLog (ω := SportOut) msg (c.newEntry r apiId cb)
  have hlog : requestsIn (mismatchLog msg (c.newEntry r apiId cb)) = [] ∧
      successesIn (mismatchLog msg (c.newEntry r apiId cb)) = [] :=
    ⟨hwarn.filterMap_eq_nil fun _ => rfl,
      List.map_eq_nil_iff.mpr (hwarn.filterMap_eq_nil fun _ => rfl)⟩
  constructor
  · have hleft : requestsIn (exchange c r apiId cb text msg report) =
        (apiId, text, false) :: (requestsIn (mismatchLog msg (c.newEntry r apiId cb)) ++
          requestsIn report) := by
      show requestsIn ([_] ++ (_ ++ ([_] ++ report))) = _
      rw [requestsIn_append, requestsIn_append, requestsIn_append]
      rfl
    rw [hleft, hlog.1, hreq]
    rfl
  · have hleft : successesIn (exchange c r apiId cb text msg report) =
        successesIn (mismatchLog msg (c.newEntry r apiId cb)) ++ successesIn report := by
      show successesIn ([_] ++ (_ ++ ([_] ++ report))) = _
      rw [successesIn_append, successesIn_append, successesIn_append]
      rfl
    rw [hleft, hlog.2, hsucc]
    rfl

/-- An accepted event of the waiting bridge is matched by the other. -/
theorem Agree.follow (h : Agree s t) {e : AcceptedEvent} {s' : SportState} {out : List SportEmission}
    (hc : e.event.compared = true) (ha : Accepted nl (cfg.waiting true) s e s' out) (clk : Clock) :
    ∃ t' out', sportBridgeStep nl (cfg.waiting false) t (e.event, clk) = some (t', out') ∧
      Agree s' t' ∧ SameForServices out out' := by
  cases ha with
  | refused hr =>
    rw [h.refusal hc] at hr
    exact ⟨_, _, refused_step hr clk, h, rfl, rfl⟩
  | cmdVel hd => exact ⟨_, _, cmdVel_step hd clk, ⟨h.sequence, h.timer, h.empty, h.empty'⟩, rfl, rfl⟩
  | @served e clk' _ q text msg hq hd hid hcode =>
    obtain ⟨q', hq', hapi, hparam, hcb⟩ := serviceCall?_waiting hc hq false
    have hst := atOnce_step (s := t) hq' rfl (hparam ▸ hd) clk
    rw [hapi, hcb] at hst
    refine ⟨_, _, hst, ⟨h.sequence, h.timer, ?_, h.empty'⟩, ?_⟩
    · rw [hid]
      exact settled_empty h.empty _ _ _
    · refine sameForServices_exchange ?_ ?_ _
      · rw [requestsIn_report, requestsIn_report]
      · exact successesIn_report hc hq _ (decide_eq_true hcode) rfl
  | @finished e clk' run hs hi =>
    obtain ⟨run', hs', hprog⟩ := h.starts hs false
    obtain ⟨-, hsteps, hindex, hreq, hok⟩ := SequenceRun.eq_of_progress hprog
    obtain ⟨host, -, hst⟩ := hs'.step
    refine ⟨_, _, hst clk (.finished (by rw [hsteps, hindex]; exact hi)), ⟨rfl, rfl, h.empty, h.empty'⟩,
      rfl, ?_⟩
    show [(run.requestId, SportService.mode, run.ok)] = [(run'.requestId, SportService.mode, run'.ok)]
    rw [hreq, hok]
  | @stepped e clk' _ run st text msg hs hst hd hid hcode hwait =>
    obtain ⟨run', hs', hprog⟩ := h.starts hs false
    obtain ⟨hname, hsteps, hindex, hreq, hok⟩ := SequenceRun.eq_of_progress hprog
    obtain ⟨host, -, hstep⟩ := hs'.step
    have hresult : msg.result.ok = true := decide_eq_true hcode
    refine ⟨_, _, hstep clk (.atOnce (by rw [hsteps, hindex]; exact hst) rfl hd hwait),
      ⟨?_, rfl, ?_, h.empty'⟩, ?_⟩
    · simp only [SportHost.waiting, Option.map_some, SequenceRun.advanced, SequenceRun.progress, hname,
        hsteps, hindex, hreq, hok, hresult]
    · rw [hid]
      exact settled_empty h.empty _ _ _
    · exact sameForServices_exchange rfl rfl _

/-- An event of the bridge that does not wait is one that the waiting bridge can make, with
replies of any kind. -/
theorem Agree.lead (h : Agree s t) (hp : Phase t) (hc : e.compared = true) {clk' : Clock}
    {t' : SportState} {out' : List SportEmission}
    (hst : sportBridgeStep nl (cfg.waiting false) t (e, clk') = some (t', out')) (clk : Clock)
    (apiId : Int) (data : String) (clkReply : Clock) :
    ∃ replies s' out, Accepted nl (cfg.waiting true) s ⟨e, clk, replies⟩ s' out ∧
      ∀ r ∈ replies, r.1.apiId = apiId ∧ r.1.data = data ∧ r.2 = clkReply := by
  have hadvance : ∀ {t₁ : SportState} {run : SequenceRun} {rd : Reading},
      Starts (cfg.waiting false) t e run → Advance nl (cfg.waiting false) t₁ run rd t' out' →
      ∃ replies s' out, Accepted nl (cfg.waiting true) s ⟨e, clk, replies⟩ s' out ∧
        ∀ r ∈ replies, r.1.apiId = apiId ∧ r.1.data = data ∧ r.2 = clkReply := by
    intro t₁ run rd hs hadv
    obtain ⟨run', hs', hprog⟩ := h.symm.starts hs true
    obtain ⟨-, hsteps, hindex, -, -⟩ := SequenceRun.eq_of_progress hprog
    cases hadv with
    | finished hi => exact ⟨[], _, _, .finished hs' (by rw [hsteps, hindex]; exact hi), by simp⟩
    | notSent _ hw _ => cases hw
    | sent _ hw _ _ => cases hw
    | atOnce hstep _ hd hwait =>
      refine ⟨[(⟨s.client.freshId (clk 0), apiId, statusOk, data⟩, clkReply)], _, _,
        .stepped hs' (by rw [hsteps, hindex]; exact hstep) hd rfl rfl hwait, by simp⟩
  cases sportBridgeStep_transition nl (cfg.waiting false) hp hst with
  | refused hr =>
    rw [h.symm.refusal hc] at hr
    exact ⟨[], _, _, .refused hr, by simp⟩
  | cmdVel hd => exact ⟨[], _, _, .cmdVel hd, by simp⟩
  | accepted hacc hadv => exact hadvance (.inl hacc) hadv
  | fired harm hrun hadv => exact hadvance (.inr ⟨rfl, harm, hrun⟩) hadv
  | notSent _ hw _ => cases hw
  | sent _ hw _ _ => cases hw
  | atOnce hq _ hd =>
    obtain ⟨q', hq', -, hparam, -⟩ := serviceCall?_waiting hc hq true
    exact ⟨[(⟨s.client.freshId (clk 0), apiId, statusOk, data⟩, clkReply)], _, _,
      .served hq' (hparam ▸ hd) rfl rfl, by simp⟩
  | _ => cases hc

end

/-! ## Every run -/

section
variable {nl : Nlohmann} {cfg : SportConfig} {timeoutMs : Int} {s t : SportState}

theorem AcceptedRun.phase {tr : AcceptedTrace} (h : AcceptedRun nl cfg timeoutMs tr s) : Phase s := by
  obtain ⟨tr', hrun, -, -⟩ := h.sportRun
  exact hrun.phase

/-- What the two runs keep. -/
structure InStep (tr : AcceptedTrace) (tr' : SportTrace) (s t : SportState) : Prop where
  agree : Agree s t
  same : SameForServices (history tr) (history tr')

/-- After both steps, the same requests, answers and sequence. -/
structure AgreeAfter (st : Step SportState AcceptedEvent SportEmission)
    (st' : Step SportState (SportEvent × Clock) SportEmission) : Prop where
  same : SameForServices st.out st'.out
  sequence : st.post.host.activeSequence.map (fun run => (run.name, run.index, run.requestId, run.ok)) =
    st'.post.host.activeSequence.map fun run => (run.name, run.index, run.requestId, run.ok)
  armed : st.post.host.armed = st'.post.host.armed

theorem InStep.start (timeoutMs : Int) :
    InStep [] [] (SportState.start timeoutMs) (SportState.start timeoutMs) :=
  ⟨⟨rfl, rfl, rfl, rfl⟩, rfl, rfl⟩

theorem InStep.pair {tr : AcceptedTrace} {tr' : SportTrace}
    {st : Step SportState AcceptedEvent SportEmission}
    {st' : Step SportState (SportEvent × Clock) SportEmission} (h : InStep tr tr' st.pre st'.pre)
    (ha : Agree st.post st'.post) (hs : SameForServices st.out st'.out) :
    InStep (tr ++ [st]) (tr' ++ [st']) st.post st'.post := by
  refine ⟨ha, ?_, ?_⟩
  · rw [history_snoc, history_snoc, requestsIn_append, requestsIn_append, h.same.requests, hs.requests]
  · rw [history_snoc, history_snoc, successesIn_append, successesIn_append, h.same.successes,
      hs.successes]

theorem Agree.after {st : Step SportState AcceptedEvent SportEmission}
    {st' : Step SportState (SportEvent × Clock) SportEmission} (h : Agree st.post st'.post)
    (hs : SameForServices st.out st'.out) : AgreeAfter st st' := by
  refine ⟨hs, ?_, h.armed⟩
  have hseq := congrArg (Option.map fun run : SequenceRun => (run.name, run.index, run.requestId, run.ok))
    h.sequence
  rw [Option.map_map, Option.map_map] at hseq
  exact hseq

/-- One event of the waiting bridge, and the same event of the other. -/
theorem InStep.follow {tr : AcceptedTrace} {tr' : SportTrace}
    {st : Step SportState AcceptedEvent SportEmission} {t : SportState}
    (hr : AcceptedRun nl (cfg.waiting true) timeoutMs tr st.pre) (hI : InStep tr tr' st.pre t)
    (hst : acceptedStep nl (cfg.waiting true) st.pre st.event = some (st.post, st.out))
    (hc : st.event.event.compared = true) (clk : Clock) :
    ∃ t' out', sportBridgeStep nl (cfg.waiting false) t (st.event.event, clk) = some (t', out') ∧
      Agree st.post t' ∧ SameForServices st.out out' :=
  hI.agree.follow hc (acceptedStep_accepted rfl hr.phase hI.agree.empty hc hst) clk

/-- The events of the waiting bridge are a run of the other. -/
theorem AcceptedRun.exists_atOnce {tr : AcceptedTrace}
    (h : AcceptedRun nl (cfg.waiting true) timeoutMs tr s)
    (hc : ∀ st ∈ tr, st.event.event.compared = true) (clock : Nat → Clock) :
    ∃ tr' t, SportRun nl (cfg.waiting false) timeoutMs tr' t ∧
      tr'.map (·.event.1) = tr.map (·.event.event) ∧
      ∀ k st', tr'[k]? = some st' → st'.event.2 = clock k := by
  have hguard : Run (guard (fun e => e.event.compared) (acceptedStep nl (cfg.waiting true)))
      (SportState.start timeoutMs) tr s := Run.guard_iff.mpr ⟨h, hc⟩
  obtain ⟨tr', t, h', hm, -, hch⟩ := Matched.exists_run (fun _ => false)
    (fun _ _ e e' => e'.1 = e.event) InStep
    (fun k e => e.2 = clock k) (InStep.start timeoutMs) (fun _ _ _ _ _ _ _ hi => by cases hi)
    (fun tr tr' st t hr _ hI hst _ => by
      obtain ⟨hc, hst⟩ := guard_eq_some.mp hst
      obtain ⟨t', out', hst', ha, hs⟩ := hI.follow (Run.guard_iff.mp hr).1 hst hc (clock tr'.length)
      have hI' : InStep (tr ++ [st]) (tr' ++ [⟨t, (st.event.event, clock tr'.length), out', t'⟩])
          st.post t' := hI.pair ha hs
      exact ⟨⟨t, (st.event.event, clock tr'.length), out', t'⟩, rfl, rfl, rfl, hst', hI'⟩)
    hguard
  refine ⟨tr', t, h', ?_, hch⟩
  rw [← List.forall₂_eq_eq_eq, List.forall₂_map_left_iff, List.forall₂_map_right_iff]
  exact List.Forall₂.flip (matched_iff_forall₂.mp hm)

/-- The events of the bridge that does not wait are a run of the other, with replies. -/
theorem SportRun.exists_accepted {tr' : SportTrace}
    (h : SportRun nl (cfg.waiting false) timeoutMs tr' t)
    (hc : ∀ st ∈ tr', st.event.1.compared = true) (clock clockReply : Nat → Clock)
    (apiId : Nat → Int) (data : Nat → String) :
    ∃ tr s, AcceptedRun nl (cfg.waiting true) timeoutMs tr s ∧
      tr.map (·.event.event) = tr'.map (·.event.1) ∧
      ∀ k st, tr[k]? = some st → st.event.clock = clock k ∧
        ∀ r ∈ st.event.replies, r.1.apiId = apiId k ∧ r.1.data = data k ∧ r.2 = clockReply k := by
  have hguard : Run (guard (fun e => e.1.compared) (sportBridgeStep nl (cfg.waiting false)))
      (SportState.start timeoutMs) tr' t := Run.guard_iff.mpr ⟨h, hc⟩
  obtain ⟨tr, s, h, hm, -, hch⟩ := Matched.exists_run (fun _ => false)
    (fun _ _ e e' => e'.event = e.1) (fun tr' tr t s => InStep tr tr' s t)
    (fun k e => e.clock = clock k ∧
      ∀ r ∈ e.replies, r.1.apiId = apiId k ∧ r.1.data = data k ∧ r.2 = clockReply k)
    (InStep.start timeoutMs) (fun _ _ _ _ _ _ _ hi => by cases hi)
    (fun tr' tr st s hr' hr hI hst _ => by
      obtain ⟨hr', -⟩ := Run.guard_iff.mp hr'
      obtain ⟨hc, hst⟩ := guard_eq_some.mp hst
      obtain ⟨replies, s', out, hacc, hreplies⟩ := hI.agree.lead (SportRun.phase hr') hc hst
        (clock tr.length) (apiId tr.length) (data tr.length) (clockReply tr.length)
      obtain ⟨t', out', hst', ha, hs⟩ := hI.agree.follow hc hacc st.event.2
      -- the step function leaves no choice
      rw [hst, Option.some.injEq, Prod.mk.injEq] at hst'
      obtain ⟨hpost, hout⟩ := hst'
      rw [← hpost] at ha
      rw [← hout] at hs
      have hI' : InStep (tr ++ [⟨s, ⟨st.event.1, clock tr.length, replies⟩, out, s'⟩]) (tr' ++ [st])
          s' st.post := hI.pair ha hs
      exact ⟨⟨s, ⟨st.event.1, clock tr.length, replies⟩, out, s'⟩, rfl, rfl, ⟨rfl, hreplies⟩,
        hacc.step rfl hI.agree.empty, hI'⟩)
    hguard
  refine ⟨tr, s, h, ?_, hch⟩
  rw [← List.forall₂_eq_eq_eq, List.forall₂_map_left_iff, List.forall₂_map_right_iff]
  exact List.Forall₂.flip (matched_iff_forall₂.mp hm)

/-- Two runs of the same events are in step. -/
theorem AcceptedRun.inStep {tr : AcceptedTrace} {tr' : SportTrace}
    (h : AcceptedRun nl (cfg.waiting true) timeoutMs tr s)
    (h' : SportRun nl (cfg.waiting false) timeoutMs tr' t)
    (hc : ∀ st ∈ tr, st.event.event.compared = true)
    (hevents : tr.map (·.event.event) = tr'.map (·.event.1)) :
    InStep tr tr' s t ∧ List.Forall₂ AgreeAfter tr tr' := by
  rw [← List.forall₂_eq_eq_eq, List.forall₂_map_left_iff, List.forall₂_map_right_iff] at hevents
  have hm : Matched (fun _ => false)
      (fun _ _ (e : AcceptedEvent) (e' : SportEvent × Clock) => e.event = e'.1) tr tr' :=
    matched_iff_forall₂.mpr hevents
  have hguard : Run (guard (fun e => e.event.compared) (acceptedStep nl (cfg.waiting true)))
      (SportState.start timeoutMs) tr s := Run.guard_iff.mpr ⟨h, hc⟩
  obtain ⟨hI, hag⟩ := Matched.invariant InStep AgreeAfter (InStep.start timeoutMs)
    (fun _ _ _ _ _ _ _ hi => by cases hi)
    (fun tr tr' st st' hr hr' hI hst hst' _ hsame => by
      obtain ⟨hc, hst⟩ := guard_eq_some.mp hst
      obtain ⟨t', out', hstep, ha, hs⟩ := hI.follow (Run.guard_iff.mp hr).1 hst hc st'.event.2
      rw [show (st.event.event, st'.event.2) = st'.event from Prod.ext hsame rfl, hst',
        Option.some.injEq, Prod.mk.injEq] at hstep
      obtain ⟨rfl, rfl⟩ := hstep
      exact ⟨hI.pair ha hs, ha.after hs⟩)
    hm hguard h'
  rw [List.filter_eq_self.mpr (by simp)] at hag
  exact ⟨hI, hag⟩

/-- **The waiting and the non-waiting bridge agree when the robot accepts everything.**
Take any events but replies, sweeps and `get_auto_recovery`, any clocks in either run,
and any api id and data in the replies with status code 0.  The events are a run of the
waiting bridge, with the replies, if and only if they are a run of the other; both
publish the same requests and answer the same requests with the same success, in the
same order; and after every event they agree on the active sequence and the timer. -/
theorem waiting_agrees (nl : Nlohmann) (cfg : SportConfig) (timeoutMs : Int) :
    (∀ tr s, AcceptedRun nl (cfg.waiting true) timeoutMs tr s →
      (∀ st ∈ tr, st.event.event.compared = true) → ∀ clock : Nat → Clock,
      ∃ tr' t, SportRun nl (cfg.waiting false) timeoutMs tr' t ∧
        tr'.map (·.event.1) = tr.map (·.event.event) ∧
        ∀ k st', tr'[k]? = some st' → st'.event.2 = clock k) ∧
    (∀ tr' t, SportRun nl (cfg.waiting false) timeoutMs tr' t →
      (∀ st ∈ tr', st.event.1.compared = true) →
      ∀ (clock clockReply : Nat → Clock) (apiId : Nat → Int) (data : Nat → String),
      ∃ tr s, AcceptedRun nl (cfg.waiting true) timeoutMs tr s ∧
        tr.map (·.event.event) = tr'.map (·.event.1) ∧
        ∀ k st, tr[k]? = some st → st.event.clock = clock k ∧
          ∀ r ∈ st.event.replies, r.1.apiId = apiId k ∧ r.1.data = data k ∧ r.2 = clockReply k) ∧
    (∀ tr s tr' t, AcceptedRun nl (cfg.waiting true) timeoutMs tr s →
      SportRun nl (cfg.waiting false) timeoutMs tr' t →
      (∀ st ∈ tr, st.event.event.compared = true) →
      tr.map (·.event.event) = tr'.map (·.event.1) →
      requestsIn (history tr) = requestsIn (history tr') ∧
        successesIn (history tr) = successesIn (history tr') ∧ List.Forall₂ AgreeAfter tr tr') := by
  refine ⟨fun tr s h hc clock => h.exists_atOnce hc clock,
    fun tr' t h hc clock clockReply apiId data => h.exists_accepted hc clock clockReply apiId data, ?_⟩
  intro tr s tr' t h h' hc hevents
  obtain ⟨hI, hag⟩ := h.inStep h' hc hevents
  exact ⟨hI.same.requests, hI.same.successes, hag⟩

end

/-- The two-step preset to its end, with a velocity message in the middle. -/
def standDownAccepted : AcceptedTrace × SportState :=
  execute (acceptedStep .small ((SportConfig.ofParameters initPresets true []).waiting true)) (.start 2000)
    [⟨.mode ⟨[], 1⟩ "stand_down_damp", .at 5 0, [(⟨5, 1005, 0, ""⟩, .at 0 0)]⟩,
      ⟨.cmdVel ⟨.nan, .nan, .nan⟩, .at 5 0, []⟩, ⟨.timer, .at 5 0, [(⟨7, 1001, 0, ""⟩, .at 0 0)]⟩,
      ⟨.timer, .at 5 0, []⟩]

def standDownAtOnce : SportTrace × SportState :=
  execute (sportBridgeStep .small ((SportConfig.ofParameters initPresets true []).waiting false))
    (.start 2000)
    [(.mode ⟨[], 1⟩ "stand_down_damp", .at 9 0), (.cmdVel ⟨.nan, .nan, .nan⟩, .at 9 0),
      (.timer, .at 9 0), (.timer, .at 9 0)]

example : successesIn (history standDownAtOnce.1) = [(⟨[], 1⟩, .mode, true)] := by decide

theorem waiting_agrees_standDown :
    standDownAccepted.1.length = 4 ∧ standDownAtOnce.1.length = 4 ∧
      List.Forall₂ AgreeAfter standDownAccepted.1 standDownAtOnce.1 := by
  have hevents : standDownAccepted.1.map (·.event.event) = standDownAtOnce.1.map (·.event.1) := rfl
  exact ⟨rfl, rfl, ((waiting_agrees .small (.ofParameters initPresets true []) 2000).2.2
    standDownAccepted.1 standDownAccepted.2 standDownAtOnce.1 standDownAtOnce.2 (Run.execute _ _ _)
    (Run.execute _ _ _) (by decide) hevents).2.2⟩

end Go2
