import Go2Driver.Answers
import Go2Driver.RobotStateBridge

/-!
# success is truthful and never crosses requests

Both bridges serve their requests the deferred way (`Truthful`): a request is
refused, or answered from the one result that settles its own call.  Success is
the reply to that call, while it is pending, with status code 0 and a payload its
reader accepts; nothing else that arrives decides it.
-/

namespace Go2

open Tables Runs SportBridge

/-! ## The sport bridge -/

def SportOut.answer? : SportOut → Option (RequestId × SportResponse)
  | .answer r resp => some (r, resp)
  | .timerCreated _ | .resultAtOnce _ _ => none

section
variable {nl : Nlohmann} {cfg : SportConfig}

theorem sportBridge_implements :
    Implements nl (Callback.body nl cfg) (sportBridgeStep nl cfg) fun e => (e.1.toNode nl cfg, e.2) :=
  fun _ _ _ => sportBridgeStep_node

/-- The callback of a service's request answers it. -/
theorem SportEvent.serviceCall?_answers {e : SportEvent} {q : SportCall}
    (h : e.serviceCall? nl cfg = some q) :
    Answers (θ := SportHost) SportOut.answer? nl (Callback.body nl cfg) q := by
  refine ⟨q.callback.report nl cfg, fun result => ⟨?_, ?_⟩⟩
  · exact fun n => exec_body nl cfg (SportEvent.serviceCall?_callback h).1 result n
  · cases e <;> simp only [SportEvent.serviceCall?] at h <;> repeat' split at h
    all_goals first
      | cases h; done
      | (simp only [Option.some.injEq] at h; subst h; simp only [Callback.report, failureLog])
    all_goals first
      | rfl
      | (split <;> rfl)

/-- An answer says success for a result that is ok, with a payload that was read. -/
theorem SportEvent.serviceCall?_success {e : SportEvent} {q : SportCall}
    (h : e.serviceCall? nl cfg = some q) (result : ApiResult) :
    (q.respond result).success = true ↔ result.ok = true ∧ q.accepts result.data := by
  cases e <;> simp only [SportEvent.serviceCall?] at h <;> repeat' split at h
  all_goals first
    | cases h; done
    | (simp only [Option.some.injEq] at h; subst h; simp only [SportResponse.success, and_true])
  -- get_auto_recovery reads its payload
  unfold flagResponse
  cases result.ok with
  | false => simp
  | true => cases flagIn nl result.data <;> simp

/-- Every answer of a service is on that service. -/
theorem SportEvent.serviceCall?_respond {e : SportEvent} {q : SportCall}
    (h : e.serviceCall? nl cfg = some q) (result : ApiResult) :
    (q.respond result).service = q.refused.service := by
  cases e <;> simp only [SportEvent.serviceCall?] at h <;> repeat' split at h
  all_goals first
    | cases h; done
    | (simp only [Option.some.injEq] at h; subst h; first | rfl | skip)
  simp only [flagResponse]
  split
  · split <;> rfl
  · rfl

/-- A service's request is refused, or the event is its one call. -/
theorem SportEvent.received_cases {e : SportEvent} {d : Debt} (hd : d ∈ e.received)
    (hmode : d.1 ≠ .mode) (h : SportHost) :
    (∃ resp, e.refusal? cfg h = some (d.2, resp)) ∨
      ∃ q, e.serviceCall? nl cfg = some q ∧ q.request = d.2 := by
  cases e <;> simp only [SportEvent.received, List.not_mem_nil, List.mem_singleton] at hd <;>
    subst hd
  case mode => exact absurd rfl hmode
  all_goals simp only [SportEvent.refusal?, SportEvent.serviceCall?]
  case speedLevel | getAutoRecovery => split <;> simp
  all_goals simp

theorem SportEvent.serviceCall?_not_refused {e : SportEvent} {q : SportCall}
    (h : e.serviceCall? nl cfg = some q) (host : SportHost) : e.refusal? cfg host = none := by
  cases e <;> simp only [SportEvent.serviceCall?] at h <;> simp only [SportEvent.refusal?]
  case mode => cases h
  all_goals
    split at h
    · cases h
    · next hc => rw [if_neg hc]

/-- A step's callback answers on the mode service only. -/
theorem LetOut.step_mode {e : PendingEntry Callback} {result : ApiResult} {L : List SportEmission}
    (h : LetOut nl (Callback.body nl cfg) e result L) (hcb : e.2.callback = .step) :
    ∀ a ∈ answersOf SportOut.answer? L, a.2.service = .mode := by
  obtain ⟨m, m', hexec, hout⟩ := h
  rw [hcb] at hexec
  simp only [Callback.body] at hexec
  cases ha : m.host.activeSequence with
  | none =>
    simp only [onStepResult, activeSequence, exec_bind, exec_read, ha, exec_raise] at hexec
    simp at hexec
  | some run =>
    cases hst : run.steps[run.index]? with
    | none =>
      simp only [onStepResult, exec_bind, exec_activeSequence nl ha, currentStep, hst, exec_raise]
        at hexec
      simp at hexec
    | some st =>
      have hL : ∀ {A : List SportEmission}, m'.out = m.out ++ A → L = A :=
        fun hA => (List.append_cancel_left (hA.symm.trans hout)).symm
      cases hr : result.ok with
      | false =>
        rw [exec_onStepResult_failed nl cfg run st ha hst hr, Prod.mk.injEq] at hexec
        rw [hL (by rw [← hexec.1])]
        intro a ha
        have hans := List.mem_singleton.mp
          (show a ∈ [(run.requestId, SportResponse.mode _ _)] from ha)
        rw [hans]
        rfl
      | true =>
        rw [exec_onStepResult_ok nl cfg run st ha hst hr] at hexec
        split at hexec
        · simp at hexec
        · rw [Prod.mk.injEq] at hexec
          rw [hL (by rw [← hexec.1])]
          intro a ha
          cases ha

/-- What a call of the bridge is for. -/
theorem Transition.call_cases {s s' : SportState} {e : SportEvent × Clock} {out : List SportEmission}
    (ht : Transition nl cfg s e s' out) {x : PendingEntry Callback} (hx : x ∈ calls out) :
    x.2.callback = .step ∨ ∃ q req, e.1.serviceCall? nl cfg = some q ∧
      out = [.published req (some x.2)] ∧ req.id = x.1 ∧ x.2.callback = q.callback := by
  obtain ⟨req, hp, hid⟩ := mem_calls.mp hx
  rcases ht.published_cases hp with ⟨-, -, hnone⟩ | ⟨q, hq, hentry⟩ | ⟨s₁, run, -, hadv, -⟩
  · cases hnone
  · obtain ⟨hout, hcb⟩ := hentry x.2 rfl
    exact .inr ⟨q, req, hq, hout, hid, hcb⟩
  · obtain ⟨-, -, -, -, -, hcb⟩ := hadv.published hp
    exact .inl (hcb x.2 rfl)

variable {timeoutMs : Int} {s : SportState} {tr : SportTrace}

theorem SportRun.answersTruthful (hw : cfg.waitForResponse = true) (h : SportRun nl cfg timeoutMs tr s) :
    Truthful SportOut.answer? SportResponse.success (fun e : SportEvent × Clock => (e.1.toNode nl cfg, e.2))
      SportResponse.service (fun e => e.1.received) (fun e => e.1.serviceCall? nl cfg) (· ≠ .mode) tr s where
  served := by
    rintro tr₁ st tr₂ rfl d hd hmode
    obtain ⟨hpre, ht⟩ := SportRun.transition h
    obtain ⟨pre, ⟨e, clk⟩, out, post⟩ := st
    simp only at hd hpre ht
    rcases SportEvent.received_cases hd hmode pre.host with ⟨resp, hr⟩ | ⟨q, hq, hreq⟩
    · left
      cases ht with
      | refused hr' =>
        rw [hr, Option.some.injEq, Prod.mk.injEq] at hr'
        obtain ⟨rfl, rfl⟩ := hr'
        exact ⟨resp, rfl, SportEvent.refusal?_failure hr, rfl⟩
      | accepted hacc _ =>
        rw [(SportEvent.accepted?_spec hacc).1] at hd
        exact absurd (by rw [List.mem_singleton.mp hd]) hmode
      | notSent hq _ _ => rw [SportEvent.serviceCall?_not_refused hq] at hr; cases hr
      | sent hq _ _ _ => rw [SportEvent.serviceCall?_not_refused hq] at hr; cases hr
      | atOnce hq _ _ => rw [SportEvent.serviceCall?_not_refused hq] at hr; cases hr
      | _ => cases hd
    · right
      refine ⟨q, hq, hreq, ?_⟩
      cases ht with
      | refused hr => rw [SportEvent.serviceCall?_not_refused hq] at hr; cases hr
      | accepted hacc _ =>
        rw [(SportEvent.accepted?_spec hacc).1] at hd
        exact absurd (by rw [List.mem_singleton.mp hd]) hmode
      | notSent hq' _ _ =>
        rw [hq, Option.some.injEq] at hq'
        subst hq'
        exact .inl ⟨q.refused, rfl, (SportEvent.serviceCall?_callback hq).2.2, rfl⟩
      | sent hq' _ _ _ =>
        rw [hq, Option.some.injEq] at hq'
        subst hq'
        exact served_of_published sportBridge_implements h rfl rfl (SportEvent.serviceCall?_answers hq)
          (SportEvent.serviceCall?_success hq)
      | atOnce _ hw' _ => rw [hw] at hw'; cases hw'
      | _ => cases hd
  origin := by
    rintro tr₁ st tr₂ rfl a ha hmode
    obtain ⟨hpre, ht⟩ := SportRun.transition h
    rcases answer_origin sportBridge_implements h ha with ⟨p, hp⟩ | ⟨x, result, hlet, hout, tr₀, st', mid, rfl, hx⟩
    · left
      obtain ⟨pre, ⟨e, clk⟩, out, post⟩ := st
      simp only at ha ht hp
      have hadv : ∀ {s₁ run r}, Advance nl cfg s₁ run r post out → a.2.service = .mode := by
        intro s₁ run r hadv
        cases hadv with
        | finished _ => rw [List.mem_singleton.mp ha]; rfl
        | notSent _ _ _ => rw [List.mem_singleton.mp ha]; rfl
        | sent _ _ _ _ => cases ha
        | atOnce _ _ _ _ => cases ha
      cases ht with
      | refused hr =>
        rw [List.mem_singleton.mp ha, SportEvent.refusal?_received hr]
        exact List.mem_singleton.mpr rfl
      | accepted _ hadv' => exact absurd (hadv hadv') hmode
      | notSent hq _ _ =>
        rw [List.mem_singleton.mp ha, (SportEvent.serviceCall?_owes hq).2]
        exact List.mem_singleton.mpr rfl
      | sent _ _ _ _ => cases ha
      | atOnce _ hw' _ => rw [hw] at hw'; cases hw'
      | cmdVel _ => cases ha
      | fired _ _ hadv' => exact absurd (hadv hadv') hmode
      | _ => cases hp
    · right
      obtain ⟨-, ht'⟩ := SportRun.transition hpre
      rcases ht'.call_cases hx with hstep | ⟨q, req, hq, hout', hid, hcb⟩
      · exact absurd (hlet.step_mode hstep a hout) hmode
      · refine ⟨tr₀, st', mid, req, x.2, rfl, ?_, hout', hid ▸ hout⟩
        have hans := hlet.answers hcb (SportEvent.serviceCall?_answers hq)
        rw [hans] at hout
        rw [List.mem_singleton.mp hout, (SportEvent.serviceCall?_owes hq).2,
          SportEvent.serviceCall?_respond hq]
        exact List.mem_singleton.mpr rfl

end

/-! ## The robot state bridge -/

def RobotOut.answer? : RobotOut → Option (RequestId × RobotResponse)
  | .answer r resp => some (r, resp)

def RobotRun (nl : Nlohmann) (timeoutMs : Int) (tr : RobotTrace (RobotEvent × Clock)) (s : RobotState) :
    Prop :=
  Run (robotStateBridgeStep nl) (State.start timeoutMs ()) tr s

section
variable {nl : Nlohmann} {e : RobotEvent} {q : RobotCall}

theorem robotBridge_implements :
    Implements nl (RobotCallback.body nl) (robotStateBridgeStep nl) fun e => (e.1.toNode, e.2) :=
  fun _ _ _ => id

theorem RobotEvent.serviceCall?_answers (h : e.serviceCall? nl = some q) :
    Answers (θ := Unit) RobotOut.answer? nl (RobotCallback.body nl) q := by
  refine ⟨fun result => [.host (.answer q.callback.request (q.callback.respond nl result))],
    fun result => ⟨RobotCallback.reports nl q.callback result, ?_⟩⟩
  cases e <;> cases h <;> rfl

theorem RobotEvent.serviceCall?_success (h : e.serviceCall? nl = some q) (result : ApiResult) :
    (q.respond result).success = true ↔ result.ok = true ∧ q.accepts result.data := by
  cases e <;> cases h <;> simp only [RobotCallback.respond] <;> cases result.ok
  all_goals try simp [RobotResponse.success]
  · cases statusIn nl result.data <;> simp
  · cases servicesIn nl result.data <;> simp

theorem RobotEvent.serviceCall?_respond (h : e.serviceCall? nl = some q) (result : ApiResult) :
    (q.respond result).service = q.refused.service := by
  cases e <;> cases h <;> simp only [RobotCallback.respond] <;> split
  · split <;> rfl
  · rfl
  · split <;> rfl
  · rfl

/-- `set_report_freq` answers in its own event and calls nothing. -/
theorem robotStep_setReportFreq {s s' : RobotState} {r : RequestId} {interval duration : Int}
    {clk : Clock} {out : List RobotEmission}
    (h : robotStateBridgeStep nl s (.setReportFreq r interval duration, clk) = some (s', out)) :
    calls out = [] ∧ ∃ resp, answersOf RobotOut.answer? out = [(r, resp)] ∧
      resp.service = .setReportFreq := by
  obtain ⟨n, hp, rfl, rfl⟩ := (nodeStep_eq_some nl _).mp h
  simp only [State.perform, RobotEvent.toNode, Node.perform, RobotStateBridge.handleSetReportFreq,
    exec_bind, exec_send, Node.send_eq] at hp
  cases hd : nl.dump (RobotStateBridge.reportFreqJson interval duration) with
  | none =>
    rw [hd] at hp
    simp at hp
  | some text =>
    rw [hd] at hp
    simp only [RobotStateBridge.answer, exec_emit, Prod.mk.injEq, and_true] at hp
    rw [← hp]
    exact ⟨rfl, _, rfl, rfl⟩

/-- What a call of the bridge is for. -/
theorem robotStep_calls {s s' : RobotState} {ev : RobotEvent × Clock} {out : List RobotEmission}
    (h : robotStateBridgeStep nl s ev = some (s', out)) {x : PendingEntry RobotCallback}
    (hx : x ∈ calls out) :
    ∃ q req, ev.1.serviceCall? nl = some q ∧ out = [.published req (some x.2)] ∧ req.id = x.1 ∧
      x.2.callback = q.callback := by
  have hcall : ∀ q, ev.1.serviceCall? nl = some q → ∃ q req, ev.1.serviceCall? nl = some q ∧
      out = [.published req (some x.2)] ∧ req.id = x.1 ∧ x.2.callback = q.callback := by
    intro q hq
    rcases robotStep_call nl hq h with ⟨-, -, rfl⟩ | ⟨text, -, rfl⟩
    · cases hx
    · rw [List.mem_singleton.mp hx]
      exact ⟨q, _, hq, rfl, rfl, rfl⟩
  obtain ⟨ev, clk⟩ := ev
  cases ev with
  | serviceSwitch r name enable => exact hcall _ rfl
  | serviceList r => exact hcall _ rfl
  | setReportFreq r interval duration =>
    rw [(robotStep_setReportFreq h).1] at hx
    cases hx
  | response msg =>
    rw [calls_eq_nil (fun cb result => ⟨_, RobotCallback.reports nl cb result, rfl⟩) h
      (fun p hp => by cases hp)] at hx
    cases hx
  | sweep order =>
    rw [calls_eq_nil (fun cb result => ⟨_, RobotCallback.reports nl cb result, rfl⟩) h
      (fun p hp => by cases hp)] at hx
    cases hx

variable {timeoutMs : Int} {s : RobotState} {tr : RobotTrace (RobotEvent × Clock)}

theorem RobotRun.answersTruthful (h : RobotRun nl timeoutMs tr s) :
    Truthful RobotOut.answer? RobotResponse.success (fun e : RobotEvent × Clock => (e.1.toNode, e.2))
      RobotResponse.service (fun e => e.1.received) (fun e => e.1.serviceCall? nl) (· ≠ .setReportFreq)
      tr s where
  served := by
    rintro tr₁ st tr₂ rfl d hd hsvc
    obtain ⟨-, hst, -⟩ := Run.split h
    have hcall : ∀ q, st.event.1.serviceCall? nl = some q → Served RobotOut.answer?
        RobotResponse.success (fun e : RobotEvent × Clock => (e.1.toNode, e.2)) q st tr₂ s := by
      intro q hq
      rcases robotStep_call nl hq hst with ⟨-, -, hout⟩ | ⟨text, -, hout⟩
      · left
        rw [Refused, hout]
        exact ⟨q.refused, rfl, (RobotEvent.serviceCall?_spec hq).2.1, rfl⟩
      · exact served_of_published robotBridge_implements h hout rfl (RobotEvent.serviceCall?_answers hq)
          (RobotEvent.serviceCall?_success hq)
    right
    generalize hev : st.event.1 = e at hd hcall
    cases e with
    | serviceSwitch r name enable =>
      rw [List.mem_singleton.mp hd]
      exact ⟨_, rfl, rfl, hcall _ rfl⟩
    | serviceList r =>
      rw [List.mem_singleton.mp hd]
      exact ⟨_, rfl, rfl, hcall _ rfl⟩
    | setReportFreq r interval duration => exact absurd (by rw [List.mem_singleton.mp hd]) hsvc
    | response msg => cases hd
    | sweep order => cases hd
  origin := by
    rintro tr₁ st tr₂ rfl a ha hsvc
    obtain ⟨hpre, hst, -⟩ := Run.split h
    rcases answer_origin robotBridge_implements h ha with
      ⟨p, hp⟩ | ⟨x, result, hlet, hout, tr₀, st', mid, rfl, hx⟩
    · left
      have hcall : ∀ q, st.event.1.serviceCall? nl = some q →
          (a.2.service, a.1) ∈ st.event.1.received := by
        intro q hq
        rw [(RobotEvent.serviceCall?_spec hq).2.2]
        rcases robotStep_call nl hq hst with ⟨-, -, hout⟩ | ⟨text, -, hout⟩
        · rw [hout] at ha
          rw [List.mem_singleton.mp ha]
          exact List.mem_singleton.mpr rfl
        · rw [hout] at ha
          cases ha
      generalize hev : st.event = e at hp hcall hst
      obtain ⟨e, clk⟩ := e
      cases e with
      | serviceSwitch r name enable => exact hcall _ rfl
      | serviceList r => exact hcall _ rfl
      | setReportFreq r interval duration =>
        obtain ⟨-, resp, hans, hresp⟩ := robotStep_setReportFreq hst
        rw [hans] at ha
        rw [List.mem_singleton.mp ha] at hsvc
        exact absurd hresp hsvc
      | response msg => cases hp
      | sweep order => cases hp
    · right
      obtain ⟨-, hst', -⟩ := Run.split hpre
      obtain ⟨q, req, hq, hout', hid, hcb⟩ := robotStep_calls hst' hx
      refine ⟨tr₀, st', mid, req, x.2, rfl, ?_, hout', hid ▸ hout⟩
      rw [hlet.answers hcb (RobotEvent.serviceCall?_answers hq)] at hout
      rw [List.mem_singleton.mp hout, (RobotEvent.serviceCall?_spec hq).2.2,
        RobotEvent.serviceCall?_respond hq]
      exact List.mem_singleton.mpr rfl

end

/-- **success is truthful and never crosses requests**, in every run of the waiting
sport bridge and of the robot state bridge.  Each request of a service that waits for
a reply is refused with success = false, or it is published and answered from the one
result that settles its call: the first reply under its id while it is pending, or a
time-out.  It says success exactly if that reply arrived with status code 0 and a
payload the service reads; and every answer is to the request whose call it settles. -/
theorem truthful (nl : Nlohmann) (cfg : SportConfig) (timeoutMs : Int) :
    (∀ tr s, cfg.waitForResponse = true → SportRun nl cfg timeoutMs tr s →
      Truthful SportOut.answer? SportResponse.success
        (fun e : SportEvent × Clock => (e.1.toNode nl cfg, e.2)) SportResponse.service
        (fun e => e.1.received) (fun e => e.1.serviceCall? nl cfg) (· ≠ .mode) tr s) ∧
    (∀ tr s, RobotRun nl timeoutMs tr s →
      Truthful RobotOut.answer? RobotResponse.success
        (fun e : RobotEvent × Clock => (e.1.toNode, e.2)) RobotResponse.service
        (fun e => e.1.received) (fun e => e.1.serviceCall? nl) (· ≠ .setReportFreq) tr s) :=
  ⟨fun _ _ hw h => h.answersTruthful hw, fun _ _ h => h.answersTruthful⟩

/-- Two requests in flight, whose replies come in the other order, and one twice. -/
def crossed : SportTrace × SportState :=
  execute (sportBridgeStep .small (.ofParameters initPresets true defaultBlockedModes)) (.start 2000)
    [(.getAutoRecovery ⟨[], 1⟩, .at 5 0), (.speedLevel ⟨[], 2⟩ 1, .at 5 0),
      (.response ⟨6, 1015, 7, ""⟩, .at 0 0), (.response ⟨5, 2055, 0, "\x7b\"data\":true\x7d"⟩, .at 0 0),
      (.response ⟨6, 1015, 0, ""⟩, .at 0 0)]

example : answersOf SportOut.answer? (history crossed.1) =
    [(⟨[], 2⟩, .speedLevel false "api_id=1015 rejected with status 7"),
      (⟨[], 1⟩, .getAutoRecovery true "api_id=2055 accepted" true)] := by decide

/-- A reply whose payload is no list. -/
def noList : RobotTrace (RobotEvent × Clock) × RobotState :=
  execute (robotStateBridgeStep .small) (.start 5000 ())
    [(.serviceList ⟨[], 1⟩, .at 5 0), (.response ⟨5, 1003, 0, "null"⟩, .at 0 0)]

theorem truthful_crossed :
    (crossed.1.length = 5 ∧ ∃ q, Served SportOut.answer? SportResponse.success
      (fun e : SportEvent × Clock =>
        (e.1.toNode .small (.ofParameters initPresets true defaultBlockedModes), e.2)) q
      (crossed.1.get ⟨0, by decide⟩) crossed.1.tail crossed.2) ∧
    (noList.1.length = 2 ∧ ∃ q, Served RobotOut.answer? RobotResponse.success
      (fun e : RobotEvent × Clock => (e.1.toNode, e.2)) q (noList.1.get ⟨0, by decide⟩) noList.1.tail
      noList.2) := by
  have hsport := (truthful .small (.ofParameters initPresets true defaultBlockedModes) 2000).1
    crossed.1 crossed.2 rfl (Run.execute _ _ _)
  have hrobot := (truthful .small (.ofParameters initPresets true defaultBlockedModes) 5000).2
    noList.1 noList.2 (Run.execute _ _ _)
  refine ⟨⟨rfl, ?_⟩, rfl, ?_⟩
  · rcases hsport.served [] _ crossed.1.tail rfl (.getAutoRecovery, ⟨[], 1⟩) List.mem_cons_self
      (by decide) with ⟨resp, hans, -⟩ | ⟨q, -, -, h⟩
    · cases hans
    · exact ⟨q, h⟩
  · rcases hrobot.served [] _ noList.1.tail rfl (.serviceList, ⟨[], 1⟩) List.mem_cons_self
      (by decide) with ⟨resp, hans, -⟩ | ⟨q, -, -, h⟩
    · cases hans
    · exact ⟨q, h⟩

end Go2
