import Go2Driver.Sequencer

/-!
# A transition is a step

The converse of `sportBridgeStep_transition`: what a `Transition` says is what the
bridge does, so the two are one (`sportBridgeStep_iff`).  A proof that has to make a
step, not only to take one apart, builds the transition.
-/

namespace Go2

open Tables Runs SportBridge

section
variable {nl : Nlohmann} {cfg : SportConfig} {s s' : SportState} {e : SportEvent} {clk : Clock}
  {out : List SportEmission}

/-- The step of an event that runs a handler. -/
theorem handler_step {p : SportProg Unit} (hp : e.toNode nl cfg = .handler p)
    (hen : e.enabled s.host = true)
    (h : ∃ clk', exec nl p ⟨s, clk, []⟩ = (⟨s', clk', out⟩, .ok ())) :
    sportBridgeStep nl cfg s (e, clk) = some (s', out) := by
  obtain ⟨clk', hexec⟩ := h
  unfold sportBridgeStep
  rw [if_pos hen]
  refine (nodeStep_eq_some nl _).mpr ⟨⟨s', clk', out⟩, ?_, rfl, rfl⟩
  rw [hp]
  exact hexec

/-- A refused request is answered, and that is all. -/
theorem refused_step {r : RequestId} {resp : SportResponse}
    (h : e.refusal? cfg s.host = some (r, resp)) (clk : Clock) :
    sportBridgeStep nl cfg s (e, clk) = some (s, [answered r resp]) := by
  cases e with
  | mode request name => exact handler_step rfl rfl ⟨clk, exec_refused nl cfg rfl h⟩
  | speedLevel request level => exact handler_step rfl rfl ⟨clk, exec_refused nl cfg rfl h⟩
  | getAutoRecovery request => exact handler_step rfl rfl ⟨clk, exec_refused nl cfg rfl h⟩
  | _ => cases h

/-! ## The sequencer -/

theorem advanceSequence_returns {run : SequenceRun} (ha : s.host.activeSequence = some run)
    (h : Advance nl cfg s run (clk 0) s' out) :
    ∃ clk', exec nl (advanceSequence nl cfg) ⟨s, clk, []⟩ = (⟨s', clk', out⟩, .ok ()) := by
  cases h with
  | finished hi => exact ⟨clk, exec_advanceSequence_finished nl cfg (n := ⟨s, clk, []⟩) ha hi⟩
  | notSent hst hw hf =>
    rw [exec_advanceSequence_waiting nl cfg (n := ⟨s, clk, []⟩) ha hst hw, if_pos hf]
    exact ⟨clk, rfl⟩
  | sent hst hw hf hd =>
    rw [exec_advanceSequence_waiting nl cfg (n := ⟨s, clk, []⟩) ha hst hw, if_neg hf, hd]
    exact ⟨clk.tail, rfl⟩
  | @atOnce st text hst hw hd hwait =>
    rw [exec_advanceSequence_atOnce nl cfg (n := ⟨s, clk, []⟩) ha hst hw, hd]
    simp only
    rw [exec_onStepResult_ok nl cfg run st ha hst rfl, if_neg (by omega)]
    exact ⟨clk.tail, rfl⟩

theorem accepted_step {run : SequenceRun} (hacc : e.accepted? cfg s.host = some run)
    (h : Advance nl cfg ⟨s.client, { s.host with activeSequence := some run }⟩ run (clk 0) s' out) :
    sportBridgeStep nl cfg s (e, clk) = some (s', out) := by
  obtain ⟨rfl, -⟩ := SportEvent.accepted?_spec hacc
  refine handler_step rfl rfl ?_
  rw [exec_handleMode nl cfg (n := ⟨s, clk, []⟩) hacc]
  exact advanceSequence_returns rfl h

theorem fired_step {run : SequenceRun} (harm : s.host.armed = true)
    (hrun : s.host.activeSequence = some run)
    (h : Advance nl cfg ⟨s.client, s.host.cancelTimer⟩ run (clk 0) s' out) :
    sportBridgeStep nl cfg s (.timer, clk) = some (s', out) := by
  refine handler_step rfl harm ?_
  rw [exec_onSequenceTimer nl cfg (n := ⟨s, clk, []⟩) harm]
  exact advanceSequence_returns hrun h

/-! ## The services -/

/-- The handler of a service that sends a request. -/
theorem SportEvent.serviceCall?_toNode {q : SportCall} (hq : e.serviceCall? nl cfg = some q) :
    e.toNode nl cfg =
      .handler (deferred nl cfg q.apiId q.parameter q.callback q.request q.refused) := by
  cases e with
  | speedLevel r level =>
    simp only [SportEvent.serviceCall?] at hq
    split at hq
    · cases hq
    · next h =>
      cases hq
      simp only [SportEvent.toNode, handleSpeedLevel, if_neg h]
  | getAutoRecovery r =>
    simp only [SportEvent.serviceCall?] at hq
    split at hq
    · cases hq
    · next h =>
      cases hq
      simp only [SportEvent.toNode, handleGetAutoRecovery, if_neg h]
  | switchJoystick r flag | pose r flag | euler r roll pitch yaw =>
    cases hq
    rfl
  | _ => cases hq

theorem SportEvent.serviceCall?_enabled {q : SportCall} (hq : e.serviceCall? nl cfg = some q)
    (h : SportHost) : e.enabled h = true := by
  cases e <;> first | rfl | cases hq

section
variable {q : SportCall} (hq : e.serviceCall? nl cfg = some q)
include hq

theorem notSent_step (hw : cfg.waitForResponse = true) (hf : s.client.full) (clk : Clock) :
    sportBridgeStep nl cfg s (e, clk) =
      some (s, [dropped s.client q.apiId, answered q.request q.refused]) := by
  refine handler_step (SportEvent.serviceCall?_toNode hq) (SportEvent.serviceCall?_enabled hq _) ?_
  rw [exec_deferred_waiting nl cfg hw, if_pos hf]
  exact ⟨clk, rfl⟩

theorem sent_step (hw : cfg.waitForResponse = true) (hf : ¬ s.client.full) {text : String}
    (hd : nl.dump q.parameter = some text) (clk : Clock) :
    sportBridgeStep nl cfg s (e, clk) =
      some (⟨s.client.afterCall (clk 0) q.apiId q.callback, s.host⟩,
        [.published ⟨s.client.freshId (clk 0), q.apiId, false, text⟩
          (some (s.client.newEntry (clk 0) q.apiId q.callback))]) := by
  refine handler_step (SportEvent.serviceCall?_toNode hq) (SportEvent.serviceCall?_enabled hq _) ?_
  rw [exec_deferred_waiting nl cfg hw, if_neg hf, hd]
  exact ⟨clk.tail, rfl⟩

theorem atOnce_step (hw : cfg.waitForResponse = false) {text : String}
    (hd : nl.dump q.parameter = some text) (clk : Clock) :
    sportBridgeStep nl cfg s (e, clk) =
      some (⟨s.client.afterSend (clk 0), s.host⟩,
        .published ⟨s.client.freshId (clk 0), q.apiId, false, text⟩ none ::
          .host (.resultAtOnce q.apiId ⟨true, 0, ""⟩) :: q.callback.report nl cfg ⟨true, 0, ""⟩) := by
  refine handler_step (SportEvent.serviceCall?_toNode hq) (SportEvent.serviceCall?_enabled hq _) ?_
  rw [exec_deferred_atOnce nl cfg hw (SportEvent.serviceCall?_callback hq).1, hd]
  exact ⟨clk.tail, rfl⟩

end

theorem cmdVel_step {msg : Twist} {text : String}
    (hd : nl.dump (xyzJson msg.linearX msg.linearY msg.angularZ) = some text) (clk : Clock) :
    sportBridgeStep nl cfg s (.cmdVel msg, clk) =
      some (⟨s.client.afterSend (clk 0), s.host⟩,
        [.published ⟨s.client.freshId (clk 0), SportApiId.move.code, true, text⟩ none]) := by
  refine handler_step rfl rfl ?_
  simp only [cmdVelCallback, exec_send, Node.send_eq, hd]
  exact ⟨clk.tail, rfl⟩

/-! ## Replies -/

theorem response_returns {msg : Response} {n : SportNode}
    (h : Node.responseCallback nl (Callback.body nl cfg) msg ⟨s, clk, []⟩ = (n, .ok ())) :
    sportBridgeStep nl cfg s (.response msg, clk) = some (n.toState, n.out) :=
  (nodeStep_eq_some nl _).mpr ⟨n, h, rfl, rfl⟩

theorem response_throws {msg : Response} {n : SportNode} {f : Fault}
    (h : Node.responseCallback nl (Callback.body nl cfg) msg ⟨s, clk, []⟩ = (n, .error f)) :
    sportBridgeStep nl cfg s (.response msg, clk) = none := by
  unfold sportBridgeStep nodeStep State.perform
  simp only [SportEvent.enabled, if_true, SportEvent.toNode, Node.perform, h]

/-- The reply to a service's request. -/
theorem replied_step {msg : Response} (entry : PendingRequest Callback)
    (hl : s.client.pending.lookup msg.id = some entry) (hcb : entry.callback ≠ .step) :
    sportBridgeStep nl cfg s (.response msg, clk) =
      some (⟨{ s.client with pending := s.client.pending.erase msg.id }, s.host⟩,
        mismatchLog msg entry ++ .invoked msg.id entry msg.result ::
          entry.callback.report nl cfg msg.result) := by
  have hret := Node.responseCallback_some nl (Callback.body nl cfg) (n := ⟨s, clk, []⟩) hl
  rw [exec_body nl cfg hcb] at hret
  rw [response_returns hret]
  simp

/-- The reply that a step is accepted with: the timer is created, unless its period is negative. -/
theorem stepAccepted_step {msg : Response} (entry : PendingRequest Callback) {run : SequenceRun}
    {st : SportCommandStep} (hl : s.client.pending.lookup msg.id = some entry)
    (hcb : entry.callback = .step) (hrun : s.host.activeSequence = some run)
    (hst : run.steps[run.index]? = some st) (hr : msg.result.ok = true) :
    sportBridgeStep nl cfg s (.response msg, clk) =
      if st.waitMsAfter < 0 then none
      else some (⟨{ s.client with pending := s.client.pending.erase msg.id },
          .waiting (run.advanced cfg st msg.result) st.waitMsAfter⟩,
        mismatchLog msg entry ++ [.invoked msg.id entry msg.result,
          .host (.timerCreated st.waitMsAfter)]) := by
  have hret := Node.responseCallback_some nl (Callback.body nl cfg) (n := ⟨s, clk, []⟩) hl
  rw [hcb, Callback.body, exec_onStepResult_ok nl cfg run st hrun hst hr] at hret
  by_cases hneg : st.waitMsAfter < 0
  · rw [if_pos hneg] at hret ⊢
    exact response_throws hret
  · rw [if_neg hneg] at hret ⊢
    rw [response_returns hret]
    simp

theorem stepFailed_step {msg : Response} {entry : PendingRequest Callback} {run : SequenceRun}
    {st : SportCommandStep} (hl : s.client.pending.lookup msg.id = some entry)
    (hcb : entry.callback = .step) (hrun : s.host.activeSequence = some run)
    (hst : run.steps[run.index]? = some st) (hr : msg.result.ok = false) :
    sportBridgeStep nl cfg s (.response msg, clk) =
      some (⟨{ s.client with pending := s.client.pending.erase msg.id }, .idle⟩,
        mismatchLog msg entry ++ [.invoked msg.id entry msg.result,
          (run.advanced cfg st msg.result).answer]) := by
  have hret := Node.responseCallback_some nl (Callback.body nl cfg) (n := ⟨s, clk, []⟩) hl
  rw [hcb, Callback.body, exec_onStepResult_failed nl cfg run st hrun hst hr] at hret
  rw [response_returns hret]
  simp

/-- What a transition says is what the bridge does. -/
theorem Transition.step {e : SportEvent × Clock} (hp : Phase s) (ht : Transition nl cfg s e s' out) :
    sportBridgeStep nl cfg s e = some (s', out) := by
  cases ht with
  | refused hr => exact refused_step hr _
  | accepted hacc hadv => exact accepted_step hacc hadv
  | fired harm hrun hadv => exact fired_step harm hrun hadv
  | foreign hl => exact foreign_step hl _
  | swept => exact sweep_step nl cfg hp _ _
  | notSent hq hw hf => exact notSent_step hq hw hf _
  | sent hq hw hf hd => exact sent_step hq hw hf hd _
  | atOnce hq hw hd => exact atOnce_step hq hw hd _
  | cmdVel hd => exact cmdVel_step hd _
  | replied hl hcb => exact replied_step _ hl hcb
  | stepAccepted hl hcb hrun hst hr hwait =>
    rw [stepAccepted_step _ hl hcb hrun hst hr, if_neg (by omega)]
  | stepFailed hl hcb hrun hst hr => exact stepFailed_step hl hcb hrun hst hr

/-- In a phase of the sequencer the steps of the bridge are the transitions. -/
theorem sportBridgeStep_iff {e : SportEvent × Clock} (hp : Phase s) :
    sportBridgeStep nl cfg s e = some (s', out) ↔ Transition nl cfg s e s' out :=
  ⟨sportBridgeStep_transition nl cfg hp, Transition.step hp⟩

/-! ## The active sequence across a transition -/

/-- The periods of the timers created, in order. -/
def timersIn (L : List SportEmission) : List Int :=
  L.filterMap fun
    | .host (.timerCreated w) => some w
    | _ => none

theorem timersIn_append (L L' : List SportEmission) : timersIn (L ++ L') = timersIn L ++ timersIn L' :=
  List.filterMap_append

theorem timersIn_mismatchLog (msg : Response) (entry : PendingRequest Callback) :
    timersIn (mismatchLog msg entry) = [] :=
  (warnings_mismatchLog msg entry).filterMap_eq_nil fun _ => rfl

variable (nl cfg s s' e clk out) in
/-- How a sequence comes to be active after an event: it was and is left alone; one call of
`advanceSequence` began or advanced it, with no step pending; or its pending step was accepted. -/
inductive Continues : SequenceRun → Prop
  | kept {run : SequenceRun} : s.host.activeSequence = some run → s'.host = s.host →
      (∀ x ∈ s'.client.pending.entries, x.2.callback = .step → x ∈ s.client.pending.entries) →
      timersIn out = [] → Continues run
  | advanced {run run₀ : SequenceRun} {s₁ : SportState} : Advance nl cfg s₁ run₀ (clk 0) s' out →
      s₁.client = s.client → s₁.host.activeSequence = some run₀ → noStepPending s.client →
      s'.host.activeSequence = some run →
      (s.host.armed = true ∧ s.host.activeSequence = some run₀) ∨ e.accepted? cfg s.host = some run₀ →
      Continues run
  | accepted {msg : Response} {entry : PendingRequest Callback} {run : SequenceRun}
      {st : SportCommandStep} : e = .response msg → s.client.pending.lookup msg.id = some entry →
      entry.callback = .step → s.host.activeSequence = some run → run.steps[run.index]? = some st →
      msg.result.ok = true → s'.client.pending = s.client.pending.erase msg.id →
      s'.host = .waiting (run.advanced cfg st msg.result) st.waitMsAfter →
      timersIn out = [st.waitMsAfter] → Continues (run.advanced cfg st msg.result)

theorem timersIn_report (cb : Callback) (result : ApiResult) : timersIn (cb.report nl cfg result) = [] := by
  cases cb with
  | switchJoystick r | pose r =>
    simp only [Callback.report, failureLog]
    split <;> rfl
  | _ => rfl

theorem timersIn_expiry (h : SportHost) (l : List (PendingEntry Callback)) :
    timersIn (l.flatMap (expiry nl cfg h)) = [] := by
  induction l with
  | nil => rfl
  | cons x l ih =>
    have hone : timersIn (timeoutReport nl cfg h x.2.callback) = [] := by
      by_cases hcb : x.2.callback = .step
      · rw [hcb]
        simp only [timeoutReport]
        repeat' split
        all_goals rfl
      · rw [timeoutReport_eq nl cfg hcb]
        exact timersIn_report _ _
    rw [List.flatMap_cons, timersIn_append, ih, List.append_nil]
    exact hone

theorem Transition.continues (ht : Transition nl cfg s (e, clk) s' out) (hp : Phase s)
    (hf : ∀ r, s.client.freshId r ∉ s.client.pending) {run : SequenceRun}
    (hrun : s'.host.activeSequence = some run) : Continues nl cfg s s' e clk out run := by
  cases ht with
  | refused _ => exact .kept hrun rfl (fun _ hx _ => hx) rfl
  | notSent _ _ _ => exact .kept hrun rfl (fun _ hx _ => hx) rfl
  | foreign _ => exact .kept hrun rfl (fun _ hx _ => hx) rfl
  | cmdVel _ => exact .kept hrun rfl (fun _ hx _ => hx) rfl
  | @atOnce _ _ q _ _ _ _ => exact .kept hrun rfl (fun _ hx _ => hx) (timersIn_report q.callback _)
  | @sent _ _ q _ hq _ _ _ =>
    refine .kept hrun rfl (fun x hx hcb => ?_) rfl
    rw [entries_afterCall (hf (clk 0))] at hx
    rcases List.mem_cons.mp hx with rfl | hx
    · exact absurd hcb (SportEvent.serviceCall?_callback hq).1
    · exact hx
  | @replied msg _ entry _ _ =>
    refine .kept hrun rfl (fun _ hx _ => (mem_entries_erase.mp hx).1) ?_
    rw [timersIn_append, timersIn_mismatchLog]
    exact timersIn_report entry.callback msg.result
  | accepted hacc hadv =>
    have hnone := (SportEvent.accepted?_spec hacc).2.1
    have hno : noStepPending s.client := by
      cases hp with
      | idle _ _ hno => exact hno
      | awaiting run _ _ _ hact => rw [hnone] at hact; cases hact
      | delaying run hact => rw [hnone] at hact; cases hact
    exact .advanced hadv rfl rfl hno hrun (.inr hacc)
  | fired harm hact hadv =>
    obtain ⟨-, -, -, -, -, hno⟩ := hp.active_of_armed harm
    exact .advanced hadv rfl hact hno hrun (.inl ⟨harm, hact⟩)
  | @stepAccepted msg _ entry _ st hl hcb hact hst hr _ =>
    cases hrun
    refine .accepted rfl hl hcb hact hst hr rfl rfl ?_
    rw [timersIn_append, timersIn_mismatchLog]
    rfl
  | stepFailed _ _ _ _ _ => cases hrun
  | @swept order clk =>
    simp only [SportHost.swept] at hrun
    split at hrun
    · cases hrun
    · next hany =>
      refine .kept hrun ?_ (fun _ hx _ => (mem_entries_kept.mp hx).1) ?_
      · simp only [SportHost.swept, hany]
        rfl
      · rw [timersIn_append, timersIn_expiry, List.append_nil]
        exact (warnings_timeoutLog _).filterMap_eq_nil fun _ => rfl

end

end Go2
