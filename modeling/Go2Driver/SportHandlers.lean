import Go2Driver.Deferred
import Go2Driver.SportBridge

/-!
# The functions of the sport bridge, one lemma each

What `exec` makes of each function of the node, in terms of the node before: the
sequencer's functions, the callbacks of the services (`Callback.report`), the
handlers.  `refusal?`, `accepted?` and `serviceCall?` say which of its exits a
handler takes; every request has one of the three.
-/

namespace Go2

open Tables Runs SportBridge

abbrev SportNode := Node Callback SportHost SportOut
abbrev SportEmission := Out Callback SportOut
abbrev SportTrace := List (Step SportState (SportEvent × Clock) SportEmission)

/-- An answer sent on a service. -/
def answered (request : RequestId) (response : SportResponse) : SportEmission :=
  .host (.answer request response)

def dropped (c : UnitreeApiClient Callback) (apiId : Int) : SportEmission :=
  .log .error (c.dropText apiId)

/-! ## The sequencer's functions -/

/-- The run after the result of its current step. -/
def SequenceRun.advanced (cfg : SportConfig) (run : SequenceRun) (st : SportCommandStep)
    (result : ApiResult) : SequenceRun :=
  { run with
    ok := run.ok && result.ok
    lastMessage := describe st.apiId result cfg.waitForResponse
    index := run.index + 1 }

/-- The run after its current step could not be sent. -/
def SequenceRun.notSent (run : SequenceRun) (st : SportCommandStep) : SequenceRun :=
  { run with ok := false, lastMessage := couldNotBeSent st.apiId }

/-- What `finishSequence` answers. -/
def SequenceRun.answer (run : SequenceRun) : SportEmission :=
  answered run.requestId (.mode run.ok ("mode " ++ run.name ++ ": " ++ run.lastMessage))

def SportHost.idle : SportHost := ⟨none, none⟩

/-- The host while the timer of a step is armed. -/
def SportHost.waiting (run : SequenceRun) (waitMs : Int) : SportHost := ⟨some run, some ⟨waitMs, false⟩⟩

def SportHost.cancelTimer (h : SportHost) : SportHost :=
  { h with sequenceTimer := h.sequenceTimer.map fun t => { t with canceled := true } }

section
variable (nl : Nlohmann) (cfg : SportConfig) {n : SportNode} {run : SequenceRun}
  {st : SportCommandStep}

theorem exec_activeSequence (h : n.host.activeSequence = some run) :
    exec nl activeSequence n = (n, .ok run) := by
  simp only [activeSequence, exec_bind, exec_read, h]
  rfl

theorem exec_currentStep (h : run.steps[run.index]? = some st) :
    exec nl (currentStep run) n = (n, .ok st) := by
  simp only [currentStep, h]
  rfl

theorem exec_setActiveSequence (run : Option SequenceRun) :
    exec nl (setActiveSequence run) n =
      ({ n with host := { n.host with activeSequence := run } }, .ok ()) := by
  simp only [setActiveSequence, exec_bind, exec_read, exec_write]

theorem exec_setSequenceTimer (timer : Option WallTimer) :
    exec nl (setSequenceTimer timer) n =
      ({ n with host := { n.host with sequenceTimer := timer } }, .ok ()) := by
  simp only [setSequenceTimer, exec_bind, exec_read, exec_write]

theorem exec_answer (request : RequestId) (response : SportResponse) :
    exec nl (answer request response) n = (n.emit (answered request response), .ok ()) :=
  exec_emit nl _ n

theorem exec_finishSequence (run : SequenceRun) (h : n.host.activeSequence = some run) :
    exec nl finishSequence n =
      ({ n with host := .idle, out := n.out ++ [run.answer] }, .ok ()) := by
  simp only [finishSequence, exec_bind, exec_activeSequence nl h, exec_setActiveSequence,
    exec_setSequenceTimer, exec_answer]
  rfl

/-- A result that is not ok ends the sequence. -/
theorem exec_onStepResult_failed (run : SequenceRun) (st : SportCommandStep)
    (h : n.host.activeSequence = some run)
    (hst : run.steps[run.index]? = some st) {result : ApiResult} (hr : result.ok = false) :
    exec nl (onStepResult cfg result) n =
      ({ n with host := .idle, out := n.out ++ [(run.advanced cfg st result).answer] }, .ok ()) := by
  simp only [onStepResult, exec_bind, exec_activeSequence nl h, exec_currentStep nl hst,
    exec_setActiveSequence, hr, Bool.not_false, if_true]
  rw [exec_finishSequence nl (run.advanced cfg st result)
    (by simp [SequenceRun.advanced, hr])]

/-- A result that is ok arms the timer, unless its period is negative. -/
theorem exec_onStepResult_ok (run : SequenceRun) (st : SportCommandStep)
    (h : n.host.activeSequence = some run)
    (hst : run.steps[run.index]? = some st) {result : ApiResult} (hr : result.ok = true) :
    exec nl (onStepResult cfg result) n =
      if st.waitMsAfter < 0 then
        ({ n with host := { n.host with activeSequence := some (run.advanced cfg st result) } },
          .error .invalidPeriod)
      else
        ({ n with
            host := .waiting (run.advanced cfg st result) st.waitMsAfter
            out := n.out ++ [.host (.timerCreated st.waitMsAfter)] }, .ok ()) := by
  simp only [onStepResult, exec_bind, exec_activeSequence nl h, exec_currentStep nl hst,
    exec_setActiveSequence, hr, Bool.not_true, Bool.false_eq_true, if_false, createSequenceTimer]
  split
  · simp only [exec_raise, SequenceRun.advanced, hr]
  · simp only [exec_bind, exec_emit, exec_setSequenceTimer, SequenceRun.advanced, hr]
    rfl

end

/-! ## The callbacks of the five services -/

/-- The request a callback is to answer. -/
def Callback.request? : Callback → Option RequestId
  | .step => none
  | .speedLevel r | .switchJoystick r | .euler r | .pose r | .getAutoRecovery r => some r

/-- The warning of a service without a message field. -/
def failureLog (cfg : SportConfig) (name : String) (apiId : Int) (result : ApiResult) :
    List SportEmission :=
  if result.ok then []
  else [.log .warn (name ++ " failed: " ++ describe apiId result cfg.waitForResponse)]

/-- The flag in a reply of the form `{"data": <bool>}`. -/
def flagIn (nl : Nlohmann) (data : String) : Option Bool :=
  match nl.parse data with
  | some (.object members) =>
    match members.lookup "data" with
    | some (.boolean b) => some b
    | _ => none
  | _ => none

/-- The answer of `get_auto_recovery`. -/
def flagResponse (nl : Nlohmann) (result : ApiResult) : SportResponse :=
  if result.ok then
    match flagIn nl result.data with
    | none => .getAutoRecovery false ("could not read a flag out of the reply: " ++ result.data) false
    | some b => .getAutoRecovery true (describe SportApiId.autoRecoveryGet.code result true) b
  else .getAutoRecovery false (describe SportApiId.autoRecoveryGet.code result true) false

/-- What a service's callback lets out for a result. -/
def Callback.report (nl : Nlohmann) (cfg : SportConfig) : Callback → ApiResult → List SportEmission
  | .step, _ => []
  | .speedLevel r, res =>
    [answered r (.speedLevel res.ok (describe SportApiId.speedLevel.code res cfg.waitForResponse))]
  | .switchJoystick r, res =>
    failureLog cfg "switch_joystick" SportApiId.switchJoystick.code res ++
      [answered r (.switchJoystick res.ok)]
  | .euler r, res =>
    [answered r (.euler res.ok (describe SportApiId.euler.code res cfg.waitForResponse))]
  | .pose r, res =>
    failureLog cfg "pose" SportApiId.pose.code res ++ [answered r (.pose res.ok)]
  | .getAutoRecovery r, res => [answered r (flagResponse nl res)]

section
variable (nl : Nlohmann) (cfg : SportConfig)

/-- The reader never fails: it asks for the member before it takes it. -/
theorem readFlag_eq (data : String) : readFlag nl data = .ok (flagIn nl data) := by
  unfold readFlag flagIn
  cases hp : nl.parse data with
  | none => rfl
  | some js =>
    cases js with
    | object members =>
      cases hm : members.lookup "data" with
      | none => simp [Json.contains, hm]
      | some v =>
        simp only [Json.contains, Json.member, hm, Option.isSome_some, Bool.not_true,
          Bool.false_eq_true, if_false]
        cases v <;> rfl
    | _ => rfl

theorem exec_onLoggedResult (apiId : Int) (name : String) (respond : Bool → SportResponse)
    (request : RequestId) (result : ApiResult) (n : SportNode) :
    exec nl (onLoggedResult cfg apiId name respond request result) n =
      ({ n with out := n.out ++ (failureLog cfg name apiId result ++
          [answered request (respond result.ok)]) }, .ok ()) := by
  unfold onLoggedResult failureLog
  cases result.ok <;> simp [exec_bind, exec_answer, Node.log, Node.emit]

theorem exec_onGetAutoRecoveryResult (request : RequestId) (result : ApiResult) (n : SportNode) :
    exec nl (onGetAutoRecoveryResult nl request result) n =
      (n.emit (answered request (flagResponse nl result)), .ok ()) := by
  unfold onGetAutoRecoveryResult flagResponse
  split
  · rw [readFlag_eq, exec_bind]
    cases flagIn nl result.data <;> exact exec_answer nl _ _
  · exact exec_answer nl _ _

/-- A service's callback answers its request and touches nothing else. -/
theorem exec_body {cb : Callback} (h : cb ≠ .step) (result : ApiResult) (n : SportNode) :
    exec nl (cb.body nl cfg result) n =
      ({ n with out := n.out ++ cb.report nl cfg result }, .ok ()) := by
  cases cb with
  | step => exact absurd rfl h
  | speedLevel r => exact exec_answer nl _ _
  | switchJoystick r => exact exec_onLoggedResult nl cfg _ _ _ _ _ _
  | euler r => exact exec_answer nl _ _
  | pose r => exact exec_onLoggedResult nl cfg _ _ _ _ _ _
  | getAutoRecovery r => exact exec_onGetAutoRecoveryResult nl _ _ _

/-- Callbacks publish nothing. -/
theorem published_notMem_report (req : Request) (entry : Option (PendingRequest Callback))
    (cb : Callback) (result : ApiResult) :
    (Out.published req entry : SportEmission) ∉ cb.report nl cfg result := by
  cases cb with
  | switchJoystick r | pose r =>
    simp only [Callback.report, failureLog]
    split <;> simp [answered]
  | _ => simp [Callback.report, answered]

end

/-! ## Requests -/

abbrev SportCall := ServiceCall Callback SportResponse

/-- The services that send a request, for what the handler lets through. -/
def SportEvent.serviceCall? (nl : Nlohmann) (cfg : SportConfig) : SportEvent → Option SportCall
  | .speedLevel r level =>
    if level ≠ speedLevelLow ∧ level ≠ speedLevelHigh then none
    else some ⟨SportApiId.speedLevel.code, dataJson (.integer level), .speedLevel r, r,
      .speedLevel false (couldNotBeSent SportApiId.speedLevel.code),
      fun res => .speedLevel res.ok (describe SportApiId.speedLevel.code res cfg.waitForResponse),
      fun _ => True⟩
  | .switchJoystick r flag =>
    some ⟨SportApiId.switchJoystick.code, dataJson (.boolean flag), .switchJoystick r, r,
      .switchJoystick false, fun res => .switchJoystick res.ok, fun _ => True⟩
  | .euler r roll pitch yaw =>
    some ⟨SportApiId.euler.code, xyzJson roll pitch yaw, .euler r, r,
      .euler false (couldNotBeSent SportApiId.euler.code),
      fun res => .euler res.ok (describe SportApiId.euler.code res cfg.waitForResponse), fun _ => True⟩
  | .pose r flag =>
    some ⟨SportApiId.pose.code, dataJson (.boolean flag), .pose r, r, .pose false,
      fun res => .pose res.ok, fun _ => True⟩
  | .getAutoRecovery r =>
    if !cfg.waitForResponse then none
    else some ⟨SportApiId.autoRecoveryGet.code, emptyJson, .getAutoRecovery r, r,
      .getAutoRecovery false (couldNotBeSent SportApiId.autoRecoveryGet.code) false, flagResponse nl,
      fun data => (flagIn nl data).isSome = true⟩
  | _ => none

/-- The answer to a request the handler refuses before it sends anything. -/
def SportEvent.refusal? (cfg : SportConfig) (h : SportHost) :
    SportEvent → Option (RequestId × SportResponse)
  | .mode r name =>
    match cfg.presets.lookup name with
    | none => some (r, .mode false
        ("invalid mode: " ++ name ++ ". available: " ++ availableModes cfg.presets))
    | some steps =>
      if name ∈ cfg.blockedModes then some (r, .mode false (name ++
        " is listed in the blocked_modes parameter and was not sent. " ++
        "Send the Sport API id directly on api/sport/request if you really mean it."))
      else
        match h.activeSequence with
        | some run => some (r, .mode false ("another mode sequence is in progress: " ++ run.name))
        | none =>
          if steps = [] then some (r, .mode false ("mode " ++ name ++ ": the preset has no steps"))
          else none
  | .speedLevel r level =>
    if level ≠ speedLevelLow ∧ level ≠ speedLevelHigh then
      some (r, .speedLevel false ("level must be " ++ toString speedLevelLow ++ " or " ++
        toString speedLevelHigh ++ ", got " ++ toString level))
    else none
  | .getAutoRecovery r =>
    if !cfg.waitForResponse then
      some (r, .getAutoRecovery false "get_auto_recovery needs wait_for_response to be enabled" false)
    else none
  | _ => none

/-- The run an accepted mode request starts. -/
def SportEvent.accepted? (cfg : SportConfig) (h : SportHost) : SportEvent → Option SequenceRun
  | .mode r name =>
    match cfg.presets.lookup name with
    | none => none
    | some steps =>
      if name ∈ cfg.blockedModes then none
      else
        match h.activeSequence with
        | some _ => none
        | none => if steps = [] then none else some ⟨name, steps, 0, r, "", true⟩
  | _ => none

theorem SportEvent.refusal?_failure {cfg : SportConfig} {h : SportHost} {e : SportEvent}
    {r : RequestId} {resp : SportResponse} (hr : e.refusal? cfg h = some (r, resp)) :
    resp.success = false := by
  cases e <;> simp only [SportEvent.refusal?] at hr <;> repeat' split at hr
  all_goals first
    | cases hr; done
    | (simp only [Option.some.injEq, Prod.mk.injEq] at hr; rw [← hr.2]; rfl)

/-- What an accepted mode request is. -/
theorem SportEvent.accepted?_spec {h : SportHost} {e : SportEvent} {run : SequenceRun}
    (ha : e.accepted? cfg h = some run) :
    e = .mode run.requestId run.name ∧ h.activeSequence = none ∧
      cfg.presets.lookup run.name = some run.steps ∧ run.name ∉ cfg.blockedModes ∧
      run.steps ≠ [] ∧ run.index = 0 ∧ run.lastMessage = "" ∧ run.ok = true := by
  cases e with
  | mode r name =>
    simp only [SportEvent.accepted?] at ha
    split at ha
    · cases ha
    · next steps hl =>
      split at ha
      · cases ha
      · next hb =>
        split at ha
        · cases ha
        · next hact =>
          split at ha
          · cases ha
          · next hs =>
            simp only [Option.some.injEq] at ha
            subst ha
            exact ⟨rfl, hact, hl, hb, hs, rfl, rfl, rfl⟩
  | _ => cases ha

/-- A preset without steps is refused, if not for another reason. -/
theorem SportEvent.refusal?_noSteps {cfg : SportConfig} {h : SportHost} {request : RequestId}
    {name : String} (hl : cfg.presets.lookup name = some []) :
    ∃ text, (SportEvent.mode request name).refusal? cfg h = some (request, .mode false text) := by
  simp only [SportEvent.refusal?, hl]
  split
  · exact ⟨_, rfl⟩
  · split
    · exact ⟨_, rfl⟩
    · exact ⟨_, rfl⟩

/-- A mode request that is not refused is accepted. -/
theorem SportEvent.accepted?_of_not_refused {cfg : SportConfig} {h : SportHost} {request : RequestId}
    {name : String} (hr : (SportEvent.mode request name).refusal? cfg h = none) :
    ∃ run, (SportEvent.mode request name).accepted? cfg h = some run := by
  simp only [SportEvent.refusal?] at hr
  simp only [SportEvent.accepted?]
  split at hr
  · cases hr
  · split at hr
    · cases hr
    · next hb =>
      split at hr
      · cases hr
      · split at hr
        · cases hr
        · next hs => exact ⟨_, by rw [if_neg hb, if_neg hs]⟩

theorem SportEvent.serviceCall?_callback {nl : Nlohmann} {cfg : SportConfig} {e : SportEvent} {q : SportCall}
    (h : e.serviceCall? nl cfg = some q) :
    q.callback ≠ .step ∧ q.callback.request? = some q.request ∧ q.refused.success = false := by
  cases e <;> simp only [SportEvent.serviceCall?] at h <;> repeat' split at h
  all_goals first
    | cases h; done
    | (simp only [Option.some.injEq] at h; subst h; exact ⟨by simp, rfl, rfl⟩)

/-! ## `sendRequest` and the functions that call it -/

section
variable (nl : Nlohmann) (cfg : SportConfig)

theorem exec_sendRequest_waiting (hw : cfg.waitForResponse = true) (apiId : Int) (parameter : Json)
    (cb : Callback) (n : SportNode) :
    exec nl (sendRequest nl cfg apiId parameter cb) n = n.call nl apiId parameter cb := by
  unfold sendRequest
  rw [if_pos hw, exec_call]

theorem exec_sendRequest_atOnce (hw : cfg.waitForResponse = false) (apiId : Int) (parameter : Json)
    (cb : Callback) (n : SportNode) :
    exec nl (sendRequest nl cfg apiId parameter cb) n = match nl.dump parameter with
      | none => ({ n with client := n.client.afterSend (n.clock 0), clock := n.clock.tail },
          .error .typeError)
      | some text =>
        match exec nl (cb.body nl cfg ⟨true, 0, ""⟩)
          ((n.sent apiId false text).emit (.host (.resultAtOnce apiId ⟨true, 0, ""⟩))) with
        | (n', .ok ()) => (n', .ok true)
        | (n', .error f) => (n', .error f) := by
  unfold sendRequest
  rw [if_neg (by simp [hw]), exec_bind, exec_send, Node.send_eq]
  cases nl.dump parameter with
  | none => rfl
  | some text =>
    simp only [exec_bind, exec_emit]
    rcases exec nl (cb.body nl cfg ⟨true, 0, ""⟩) _ with ⟨n', _ | _⟩ <;> rfl

section
variable {n : SportNode} {run : SequenceRun} {st : SportCommandStep}

theorem exec_advanceSequence_finished (ha : n.host.activeSequence = some run)
    (hi : run.steps.length ≤ run.index) :
    exec nl (advanceSequence nl cfg) n =
      ({ n with host := .idle, out := n.out ++ [run.answer] }, .ok ()) := by
  simp only [advanceSequence, exec_bind, exec_activeSequence nl ha]
  rw [if_pos hi, exec_finishSequence nl run ha]

theorem exec_advanceSequence_waiting (ha : n.host.activeSequence = some run)
    (hst : run.steps[run.index]? = some st) (hw : cfg.waitForResponse = true) :
    exec nl (advanceSequence nl cfg) n =
      if n.client.full then
        ({ n with
            host := .idle
            out := n.out ++ [dropped n.client st.apiId, (run.notSent st).answer] }, .ok ())
      else match nl.dump st.parameter with
        | none =>
          ({ n with
              client := n.client.afterCall (n.clock 0) st.apiId .step
              clock := n.clock.tail }, .error .typeError)
        | some text => (n.called st.apiId text .step, .ok ()) := by
  have hi : ¬ run.index ≥ run.steps.length := by
    have := (List.getElem?_eq_some_iff.mp hst).1
    omega
  simp only [advanceSequence, exec_bind, exec_activeSequence nl ha]
  rw [if_neg hi]
  simp only [exec_bind, exec_currentStep nl hst]
  rw [exec_sendRequest_waiting nl cfg hw]
  by_cases hf : n.client.full
  · rw [if_pos hf, Node.call_full nl hf]
    simp only [Bool.not_false, if_true, exec_bind, Node.log,
      exec_activeSequence nl (n := Node.emit _ n) ha, exec_setActiveSequence]
    rw [exec_finishSequence nl (run.notSent st) rfl]
    simp [dropped]
  · rw [if_neg hf, Node.call_eq nl hf]
    cases nl.dump st.parameter <;> rfl

/-- Without `wait_for_response_` the step's result is handled from within. -/
theorem exec_advanceSequence_atOnce (ha : n.host.activeSequence = some run)
    (hst : run.steps[run.index]? = some st) (hw : cfg.waitForResponse = false) :
    exec nl (advanceSequence nl cfg) n = match nl.dump st.parameter with
      | none => ({ n with client := n.client.afterSend (n.clock 0), clock := n.clock.tail },
          .error .typeError)
      | some text => exec nl (onStepResult cfg ⟨true, 0, ""⟩)
          ((n.sent st.apiId false text).emit (.host (.resultAtOnce st.apiId ⟨true, 0, ""⟩))) := by
  have hi : ¬ run.index ≥ run.steps.length := by
    have := (List.getElem?_eq_some_iff.mp hst).1
    omega
  simp only [advanceSequence, exec_bind, exec_activeSequence nl ha]
  rw [if_neg hi]
  simp only [exec_bind, exec_currentStep nl hst]
  rw [exec_sendRequest_atOnce nl cfg hw]
  cases nl.dump st.parameter with
  | none => rfl
  | some text =>
    simp only [Callback.body]
    rcases exec nl (onStepResult cfg ⟨true, 0, ""⟩) _ with ⟨n', _ | _⟩ <;> rfl

theorem exec_onSequenceTimer (ha : n.host.armed = true) :
    exec nl (onSequenceTimer nl cfg) n =
      exec nl (advanceSequence nl cfg) { n with host := n.host.cancelTimer } := by
  simp only [onSequenceTimer, exec_bind, exec_read]
  cases ht : n.host.sequenceTimer with
  | none => simp [SportHost.armed, ht] at ha
  | some timer =>
    simp only [exec_bind, exec_setSequenceTimer, SportHost.cancelTimer, ht, Option.map_some]

/-- A request that is refused is answered, and that is all. -/
theorem exec_refused {e : SportEvent} {p : SportProg Unit} (hp : e.toNode nl cfg = .handler p)
    {r : RequestId} {resp : SportResponse} (hr : e.refusal? cfg n.host = some (r, resp)) :
    exec nl p n = (n.emit (answered r resp), .ok ()) := by
  have hanswer : exec nl (answer r resp) n = (n.emit (answered r resp), .ok ()) := exec_answer nl _ _
  cases e with
  | mode request name =>
    cases hp
    unfold handleMode
    simp only [SportEvent.refusal?] at hr
    cases hl : cfg.presets.lookup name with
    | none =>
      rw [hl] at hr
      cases hr
      exact hanswer
    | some steps =>
      rw [hl] at hr
      simp only at hr ⊢
      by_cases hb : name ∈ cfg.blockedModes
      · rw [if_pos hb] at hr ⊢
        cases hr
        exact hanswer
      · rw [if_neg hb] at hr ⊢
        simp only [exec_bind, exec_read]
        cases ha : n.host.activeSequence with
        | some run =>
          rw [ha] at hr
          cases hr
          exact hanswer
        | none =>
          rw [ha] at hr
          by_cases hs : steps = []
          · simp only [if_pos hs] at hr
            cases hr
            unfold startSequence
            rw [if_pos hs]
            exact hanswer
          · simp only [if_neg hs] at hr
            cases hr
  | speedLevel request level =>
    cases hp
    simp only [SportEvent.refusal?] at hr
    split at hr
    · next hlevel =>
      cases hr
      unfold handleSpeedLevel
      rw [if_pos hlevel]
      exact hanswer
    · cases hr
  | getAutoRecovery request =>
    cases hp
    simp only [SportEvent.refusal?] at hr
    split at hr
    · next hw =>
      cases hr
      unfold handleGetAutoRecovery
      rw [if_pos hw]
      exact hanswer
    · cases hr
  | _ => cases hr

/-- A mode request that is accepted. -/
theorem exec_handleMode {request : RequestId} {name : String}
    (hacc : (SportEvent.mode request name).accepted? cfg n.host = some run) :
    exec nl (handleMode nl cfg request name) n =
      exec nl (advanceSequence nl cfg) { n with host := { n.host with activeSequence := some run } } := by
  obtain ⟨hev, hnone, hl, hb, hs, hindex, hmsg, hok⟩ := SportEvent.accepted?_spec hacc
  have hrun : (⟨run.name, run.steps, 0, run.requestId, "", true⟩ : SequenceRun) = run := by
    rw [← hindex, ← hmsg, ← hok]
  cases hev
  unfold handleMode
  simp only [hl, if_neg hb, exec_bind, exec_read, hnone, startSequence, if_neg hs,
    exec_setActiveSequence, hrun]

variable {apiId : Int} {parameter : Json} {cb : Callback} {request : RequestId} {refused : SportResponse}

theorem exec_deferred_waiting (hw : cfg.waitForResponse = true) :
    exec nl (deferred nl cfg apiId parameter cb request refused) n =
      if n.client.full then
        ({ n with out := n.out ++ [dropped n.client apiId, answered request refused] }, .ok ())
      else match nl.dump parameter with
        | none =>
          ({ n with client := n.client.afterCall (n.clock 0) apiId cb, clock := n.clock.tail },
            .error .typeError)
        | some text => (n.called apiId text cb, .ok ()) := by
  simp only [deferred, exec_bind]
  rw [exec_sendRequest_waiting nl cfg hw]
  by_cases hf : n.client.full
  · rw [if_pos hf, Node.call_full nl hf]
    simp only [Bool.not_false, if_true, exec_answer]
    simp [Node.log, Node.emit, dropped]
  · rw [if_neg hf, Node.call_eq nl hf]
    cases nl.dump parameter <;> rfl

theorem exec_deferred_atOnce (hw : cfg.waitForResponse = false) (hcb : cb ≠ .step) :
    exec nl (deferred nl cfg apiId parameter cb request refused) n = match nl.dump parameter with
      | none => ({ n with client := n.client.afterSend (n.clock 0), clock := n.clock.tail },
          .error .typeError)
      | some text =>
        ({ n with
            client := n.client.afterSend (n.clock 0)
            clock := n.clock.tail
            out := n.out ++ .published ⟨n.client.freshId (n.clock 0), apiId, false, text⟩ none ::
              .host (.resultAtOnce apiId ⟨true, 0, ""⟩) :: cb.report nl cfg ⟨true, 0, ""⟩ }, .ok ()) := by
  simp only [deferred, exec_bind]
  rw [exec_sendRequest_atOnce nl cfg hw]
  cases nl.dump parameter with
  | none => rfl
  | some text =>
    simp only [exec_body nl cfg hcb]
    simp [Node.sent, Node.emit]

end

end

end Go2
