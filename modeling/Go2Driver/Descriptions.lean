import Go2Driver.Truthful

/-!
# What a report says about the cause of a failure

`describe` tells a time-out from a refusal by the sign of the status code, the
time-out being handed to callbacks as code -1.  So a robot that refuses with a
negative code, as the firmware does with -1, is reported as one that did not reply.
`RefusalsNamed` says of a run that this does not happen: a reply with a code other
than 0 is reported as rejected with that code, and "got no reply" is said only where
no reply came.  A run has it exactly if no reply it took carried a negative code
(`refusalsNamed_iff_nonneg`).
-/

namespace Go2

open Tables Runs SportBridge

/-! ## The two texts -/

def noReplyText (apiId : Int) : String := "api_id=" ++ toString apiId ++ " got no reply"

def rejectedText (apiId code : Int) : String :=
  "api_id=" ++ toString apiId ++ " rejected with status " ++ toString code

/-- What `describe` makes of a reply with a code other than 0. -/
def refusalText (apiId code : Int) : String :=
  if code < 0 then noReplyText apiId else rejectedText apiId code

theorem describe_refusal {apiId code : Int} (h : code ≠ statusOk) (data : String) :
    describe apiId ⟨decide (code = statusOk), code, data⟩ true = refusalText apiId code := by
  simp [describe, refusalText, noReplyText, rejectedText, h]

theorem robot_describe_refusal {apiId code : Int} (h : code ≠ statusOk) (data : String) :
    RobotStateBridge.describe apiId ⟨decide (code = statusOk), code, data⟩ =
      refusalText apiId code := by
  simp [RobotStateBridge.describe, refusalText, noReplyText, rejectedText, h]

theorem rejectedText_ne (apiId code : Int) : rejectedText apiId code ≠ noReplyText apiId := by
  intro h
  unfold rejectedText noReplyText at h
  rw [String.append_assoc, String.append_right_inj] at h
  have hchars := congrArg String.toList h
  simp at hchars

theorem acceptedText_ne (apiId : Int) : "api_id=" ++ toString apiId ++ " accepted" ≠ noReplyText apiId := by
  intro h
  unfold noReplyText at h
  rw [String.append_right_inj] at h
  have hchars := congrArg String.toList h
  simp at hchars

/-- A text that begins another way. -/
theorem ne_noReplyText {text : String} {apiId : Int} (h : text.toList.head? ≠ some 'a') :
    text ≠ noReplyText apiId := by
  rintro rfl
  simp [noReplyText] at h

/-- The refusal's text is the one of a refusal exactly for a code that is not negative. -/
theorem refusalText_eq_iff (apiId : Int) {code : Int} :
    refusalText apiId code = rejectedText apiId code ↔ 0 ≤ code := by
  unfold refusalText
  split
  · next h =>
    constructor
    · exact fun heq => absurd heq.symm (rejectedText_ne apiId code)
    · exact fun h' => absurd h (by omega)
  · next h => exact ⟨fun _ => by omega, fun _ => rfl⟩

/-- A description that goes by the sign of the code separates a reply from a time-out
exactly for a code that is not negative. -/
theorem describe_ne_timeout {apiId code : Int} {text timeoutText : String}
    (htimeout : timeoutText = noReplyText apiId)
    (hrefused : code ≠ statusOk → text = refusalText apiId code)
    (haccepted : code = statusOk → text = "api_id=" ++ toString apiId ++ " accepted") :
    text ≠ timeoutText ↔ 0 ≤ code := by
  by_cases hcode : code = statusOk
  · rw [haccepted hcode, htimeout, hcode]
    exact iff_of_true (acceptedText_ne apiId) (Int.le_refl _)
  · rw [hrefused hcode, htimeout, ← refusalText_eq_iff apiId]
    unfold refusalText
    split
    · exact iff_of_false (fun h => h rfl) (Ne.symm (rejectedText_ne apiId code))
    · exact iff_of_true (rejectedText_ne apiId code) rfl

/-! ## Runs -/

section
variable {κ θ ω ε : Type} (f : ε → NodeEvent κ θ ω × Clock) (texts : List (Out κ ω) → List String)
  (subject : State κ θ → κ → Option (String × Int))

/-- In the run `tr`, a call that a reply with a code other than 0 settles is reported
as rejected with that code; and a call is reported as without a reply only if none
under its id came while it was pending.  `subject` is what a callback's report names:
the words before the description, and the api id. -/
def RefusalsNamed (tr : List (Step (State κ θ) ε (Out κ ω))) : Prop :=
  ∀ tr₁ y tr₂, tr = tr₁ ++ y :: tr₂ → ∀ e result, (e, result) ∈ invocations y.out →
    ∃ lead apiId, subject y.pre e.2.callback = some (lead, apiId) ∧
      (∀ msg clk, f y.event = (.response msg, clk) → msg.code ≠ statusOk →
        texts (outputFor e.1 y.out) = [lead ++ rejectedText apiId msg.code]) ∧
      (texts (outputFor e.1 y.out) = [lead ++ noReplyText apiId] →
        ∀ z ∈ tr₁ ++ [y], ∀ msg clk, f z.event = (.response msg, clk) →
          e ∈ z.pre.client.pending.entries → msg.id ≠ e.1)

/-- No reply that a call of the run was settled by carries a negative code. -/
def NoNegativeReply (tr : List (Step (State κ θ) ε (Out κ ω))) : Prop :=
  ∀ y ∈ tr, ∀ msg clk entry, f y.event = (.response msg, clk) →
    y.pre.client.pending.lookup msg.id = some entry → 0 ≤ msg.code

variable {f texts subject} {nl : Nlohmann} {body : κ → ApiResult → Prog κ θ ω Unit}
  {step : State κ θ → ε → Option (State κ θ × List (Out κ ω))}
  {timeoutMs : Int} {host₀ : θ} {s : State κ θ} {tr tr₁ tr₂ : List (Step (State κ θ) ε (Out κ ω))}
  {y : Step (State κ θ) ε (Out κ ω)}

/-- A call that is pending was not replied to while it was. -/
theorem not_replied_before (hi : Implements nl body step f)
    (h : Run step (State.start timeoutMs host₀) (tr₁ ++ y :: tr₂) s) {e : PendingEntry κ}
    (he : e ∈ y.pre.client.pending.entries) {z : Step (State κ θ) ε (Out κ ω)} (hz : z ∈ tr₁)
    {msg : Response} {clk : Clock} (hev : f z.event = (.response msg, clk))
    (hp : e ∈ z.pre.client.pending.entries) : msg.id ≠ e.1 := by
  intro hid
  obtain ⟨hpre, -, -⟩ := Run.split h
  obtain ⟨a, b, rfl⟩ := List.append_of_mem hz
  have hst := (Run.split hpre).2.1
  have hinv : (e, msg.result) ∈ invocations z.out := by
    rw [nodeStep_invocations (hi _ _ _ hst), State.mem_taken, hev]
    exact ⟨hp, hid, rfl⟩
  refine (hi.ledger hpre).invoked_notMem (e := e) ?_ he rfl
  rw [history_append, history_cons, invocations_append, invocations_append, List.map_append,
    List.map_append]
  exact List.mem_append_right _ (List.mem_append_left _ (List.mem_map_of_mem hinv))

/-- Where callbacks report replies through `refusalText`, refusals are named as such
exactly in the runs without a negative code. -/
theorem refusalsNamed_iff (hi : Implements nl body step f)
    (h : Run step (State.start timeoutMs host₀) tr s)
    (hsubject : ∀ tr₁ y tr₂, tr = tr₁ ++ y :: tr₂ → ∀ e ∈ y.pre.client.pending.entries,
      ∃ lead apiId, subject y.pre e.2.callback = some (lead, apiId) ∧
        ∀ msg clk, f y.event = (.response msg, clk) → msg.id = e.1 →
          (msg.code ≠ statusOk → texts (outputFor e.1 y.out) = [lead ++ refusalText apiId msg.code]) ∧
          (msg.code = statusOk → texts (outputFor e.1 y.out) ≠ [lead ++ noReplyText apiId])) :
    RefusalsNamed f texts subject tr ↔ NoNegativeReply f tr := by
  constructor
  · intro hnamed y hy msg clk entry hev hl
    obtain ⟨tr₁, tr₂, rfl⟩ := List.append_of_mem hy
    have hst := (Run.split h).2.1
    have hp := lookup_eq_some_iff.mp hl
    have hinv : (⟨msg.id, entry⟩, msg.result) ∈ invocations y.out := by
      rw [nodeStep_invocations (hi _ _ _ hst), State.mem_taken, hev]
      exact ⟨hp, rfl, rfl⟩
    obtain ⟨lead, apiId, hsub, hrej, -⟩ := hnamed tr₁ y tr₂ rfl _ _ hinv
    obtain ⟨lead', apiId', hsub', htext⟩ := hsubject tr₁ y tr₂ rfl _ hp
    rw [hsub, Option.some.injEq, Prod.mk.injEq] at hsub'
    obtain ⟨rfl, rfl⟩ := hsub'
    by_cases hcode : msg.code = statusOk
    · rw [hcode]
      exact Int.le_refl _
    · have heq := ((htext msg clk hev rfl).1 hcode).symm.trans (hrej msg clk hev hcode)
      rw [List.cons.injEq, String.append_right_inj] at heq
      exact (refusalText_eq_iff _).mp heq.1
  · intro hnonneg tr₁ y tr₂ htr e result hinv
    subst htr
    obtain ⟨-, hst, -⟩ := Run.split h
    have hinv' := hinv
    rw [nodeStep_invocations (hi _ _ _ hst), State.mem_taken] at hinv'
    obtain ⟨hp, hset⟩ := hinv'
    obtain ⟨lead, apiId, hsub, htext⟩ := hsubject tr₁ y tr₂ rfl _ hp
    refine ⟨lead, apiId, hsub, ?_, ?_⟩
    · intro msg clk hev hcode
      rw [hev] at hset
      have hl : y.pre.client.pending.lookup msg.id = some e.2 := by
        rw [hset.1]
        exact lookup_eq_some_iff.mpr hp
      have hge := hnonneg y (by simp) msg clk e.2 hev hl
      rw [(htext msg clk hev hset.1).1 hcode, (refusalText_eq_iff _).mpr hge]
    · intro hsaid z hz msg clk hev hpz
      rcases List.mem_append.mp hz with hz | hz
      · exact not_replied_before hi h hp hz hev hpz
      · rw [List.mem_singleton.mp hz] at hev
        intro hid
        have hl : y.pre.client.pending.lookup msg.id = some e.2 := by
          rw [hid]
          exact lookup_eq_some_iff.mpr hp
        have hge := hnonneg y (by simp) msg clk e.2 hev hl
        obtain ⟨hrefused, haccepted⟩ := htext msg clk hev hid
        by_cases hcode : msg.code = statusOk
        · exact haccepted hcode hsaid
        · have heq := (hrefused hcode).symm.trans hsaid
          rw [List.cons.injEq, String.append_right_inj] at heq
          rw [(refusalText_eq_iff _).mpr hge] at heq
          exact rejectedText_ne _ _ heq.1

end

/-! ## The sport bridge -/

def SportResponse.message? : SportResponse → Option String
  | .mode _ m | .speedLevel _ m | .euler _ m | .getAutoRecovery _ m _ => some m
  | .switchJoystick _ | .pose _ => none

/-- The texts of a report: messages of answers, and the warnings of services without one. -/
def sportTexts (L : List SportEmission) : List String :=
  L.filterMap fun
    | .log .warn text => some text
    | .host (.answer _ resp) => resp.message?
    | _ => none

/-- What a callback's report is about. -/
def Callback.subject (s : SportState) : Callback → Option (String × Int)
  | .step =>
    match s.host.activeSequence with
    | none => none
    | some run => run.steps[run.index]?.map fun st => ("mode " ++ run.name ++ ": ", st.apiId)
  | .speedLevel _ => some ("", SportApiId.speedLevel.code)
  | .switchJoystick _ => some ("switch_joystick failed: ", SportApiId.switchJoystick.code)
  | .euler _ => some ("", SportApiId.euler.code)
  | .pose _ => some ("pose failed: ", SportApiId.pose.code)
  | .getAutoRecovery _ => some ("", SportApiId.autoRecoveryGet.code)

section
variable {nl : Nlohmann} {cfg : SportConfig}

/-- The report of a service's callback on a reply. -/
theorem Callback.report_texts (nl : Nlohmann) (hw : cfg.waitForResponse = true) {cb : Callback} (hcb : cb ≠ .step)
    (s : SportState) (msg : Response) :
    ∃ lead apiId, cb.subject s = some (lead, apiId) ∧
      (msg.code ≠ statusOk →
        sportTexts (cb.report nl cfg msg.result) = [lead ++ refusalText apiId msg.code]) ∧
      (msg.code = statusOk → sportTexts (cb.report nl cfg msg.result) ≠ [lead ++ noReplyText apiId]) := by
  have hok : msg.code ≠ statusOk → msg.result.ok = false := fun h => decide_eq_false h
  have hok' : msg.code = statusOk → msg.result.ok = true := fun h => decide_eq_true h
  have hdescribe : ∀ apiId, msg.code = statusOk →
      describe apiId msg.result true = "api_id=" ++ toString apiId ++ " accepted" := by
    intro apiId h
    simp [describe, hok' h]
  cases cb with
  | step => exact absurd rfl hcb
  | speedLevel r | euler r =>
    refine ⟨_, _, rfl, fun h => ?_, fun h heq => ?_⟩
    · rw [String.empty_append, ← describe_refusal h msg.data, ← hw]
      rfl
    · have htext : [describe _ msg.result cfg.waitForResponse] = ["" ++ noReplyText _] := heq
      rw [hw, hdescribe _ h, String.empty_append, List.singleton_inj] at htext
      exact acceptedText_ne _ htext
  | switchJoystick r | pose r =>
    refine ⟨_, _, rfl, fun h => ?_, fun h heq => ?_⟩
    · rw [← describe_refusal h msg.data, ← hw]
      simp only [Callback.report, failureLog, hok h]
      rfl
    · simp only [Callback.report, failureLog, hok' h] at heq
      cases heq
  | getAutoRecovery r =>
    refine ⟨_, _, rfl, fun h => ?_, fun h heq => ?_⟩
    · rw [String.empty_append, ← describe_refusal h msg.data]
      simp only [Callback.report, flagResponse, hok h]
      rfl
    · simp only [Callback.report, flagResponse, hok' h, if_true] at heq
      cases hflag : flagIn nl msg.result.data with
      | none =>
        rw [hflag] at heq
        have htext : ["could not read a flag out of the reply: " ++ msg.result.data] =
            ["" ++ noReplyText _] := heq
        rw [String.empty_append, List.singleton_inj] at htext
        exact ne_noReplyText (by simp) htext
      | some b =>
        rw [hflag] at heq
        have htext : [describe _ msg.result true] = ["" ++ noReplyText _] := heq
        rw [hdescribe _ h, String.empty_append, List.singleton_inj] at htext
        exact acceptedText_ne _ htext

variable {timeoutMs : Int} {s : SportState} {tr : SportTrace}

/-- The report of a reply, in a run of the waiting bridge. -/
theorem SportRun.reply_texts (hw : cfg.waitForResponse = true)
    {tr₁ tr₂ : SportTrace} {y : Step SportState (SportEvent × Clock) SportEmission}
    (h : SportRun nl cfg timeoutMs (tr₁ ++ y :: tr₂) s) {e : PendingEntry Callback}
    (he : e ∈ y.pre.client.pending.entries) :
    ∃ lead apiId, e.2.callback.subject y.pre = some (lead, apiId) ∧
      ∀ msg clk, (y.event.1.toNode nl cfg, y.event.2) = (.response msg, clk) → msg.id = e.1 →
        (msg.code ≠ statusOk →
          sportTexts (outputFor e.1 y.out) = [lead ++ refusalText apiId msg.code]) ∧
        (msg.code = statusOk → sportTexts (outputFor e.1 y.out) ≠ [lead ++ noReplyText apiId]) := by
  obtain ⟨hpre, ht⟩ := SportRun.transition h
  have hstep := (Run.split h).2.1
  have hevent : ∀ msg clk, (y.event.1.toNode nl cfg, y.event.2) = (.response msg, clk) →
      y.event = (.response msg, clk) := by
    intro msg clk hev
    generalize y.event = ev at hev
    obtain ⟨ev, clk'⟩ := ev
    cases ev <;> simp only [SportEvent.toNode, Prod.mk.injEq, reduceCtorEq, false_and] at hev
    obtain ⟨hmsg, rfl⟩ := hev
    cases hmsg
    rfl
  by_cases hcb : e.2.callback = .step
  · obtain ⟨run, st, hrun, hst, -⟩ := (SportRun.phase hpre).step_of_pending he hcb
    refine ⟨"mode " ++ run.name ++ ": ", st.apiId, by simp [hcb, Callback.subject, hrun, hst], ?_⟩
    intro msg clk hev hid
    have hl : y.pre.client.pending.lookup msg.id = some e.2 := by
      rw [hid]
      exact lookup_eq_some_iff.mpr he
    obtain ⟨pre, ev, out, post⟩ := y
    obtain rfl : ev = (.response msg, clk) := hevent msg clk hev
    simp only at ht hl hrun he ⊢
    cases ht with
    | refused hr => cases hr
    | accepted hacc _ => cases hacc
    | notSent hq _ _ => cases hq
    | sent hq _ _ _ => cases hq
    | atOnce hq _ _ => cases hq
    | foreign hnone => rw [hl] at hnone; cases hnone
    | replied hl' hcb' =>
      rw [hl, Option.some.injEq] at hl'
      exact absurd (hl' ▸ hcb) hcb'
    | stepAccepted hl' _ hrun' hst' hr _ =>
      rw [← hid, outputFor_reply rfl]
      exact ⟨fun hcode => absurd (of_decide_eq_true hr) hcode, fun _ => by simp [sportTexts]⟩
    | stepFailed hl' _ hrun' hst' hr =>
      rw [hrun, Option.some.injEq] at hrun'
      subst hrun'
      rw [hst, Option.some.injEq] at hst'
      subst hst'
      rw [← hid, outputFor_reply rfl]
      have hcode : msg.code ≠ statusOk := of_decide_eq_false hr
      refine ⟨fun _ => ?_, fun hcode' => absurd hcode' hcode⟩
      rw [← describe_refusal hcode msg.data, ← hw]
      rfl
  · obtain ⟨lead, apiId, hsub, -⟩ := Callback.report_texts nl hw hcb y.pre ⟨0, 0, 0, ""⟩
    refine ⟨lead, apiId, hsub, ?_⟩
    intro msg clk hev hid
    obtain ⟨lead', apiId', hsub', htext⟩ := Callback.report_texts nl hw hcb y.pre msg
    rw [hsub, Option.some.injEq, Prod.mk.injEq] at hsub'
    obtain ⟨rfl, rfl⟩ := hsub'
    have hinv : (e, msg.result) ∈ invocations y.out := by
      rw [nodeStep_invocations (sportBridgeStep_node hstep), State.mem_taken, hev]
      exact ⟨he, hid, rfl⟩
    rw [(outputFor_settled (sportBridgeStep_node hstep) hinv).reports
      (exec_body nl cfg hcb msg.result)]
    exact htext

end

/-! ## The robot state bridge -/

def robotTexts (L : List RobotEmission) : List String :=
  L.filterMap fun
    | .host (.answer _ resp) => some resp.message
    | _ => none

def RobotCallback.subject (_ : RobotState) : RobotCallback → Option (String × Int)
  | .serviceSwitch _ => some ("", RobotStateApiId.serviceSwitch.code)
  | .serviceList _ => some ("", RobotStateApiId.serviceList.code)

/-- The report of a callback on a reply. -/
theorem RobotCallback.report_texts (nl : Nlohmann) (cb : RobotCallback) (s : RobotState)
    (msg : Response) :
    ∃ apiId, cb.subject s = some ("", apiId) ∧
      (msg.code ≠ statusOk → (cb.respond nl msg.result).message = refusalText apiId msg.code) ∧
      (msg.code = statusOk → (cb.respond nl msg.result).message ≠ noReplyText apiId) := by
  have hok : msg.code ≠ statusOk → msg.result.ok = false := fun h => decide_eq_false h
  have hok' : msg.code = statusOk → msg.result.ok = true := fun h => decide_eq_true h
  have hdescribe : ∀ apiId, msg.code = statusOk →
      RobotStateBridge.describe apiId msg.result = "api_id=" ++ toString apiId ++ " accepted" := by
    intro apiId h
    simp [RobotStateBridge.describe, hok' h]
  cases cb with
  | serviceSwitch r =>
    refine ⟨_, rfl, fun h => ?_, fun h => ?_⟩
    · rw [← robot_describe_refusal h msg.data]
      simp only [RobotCallback.respond, hok h]
      rfl
    · simp only [RobotCallback.respond, hok' h, if_true]
      cases statusIn nl msg.result.data with
      | none => exact ne_noReplyText (by simp [RobotResponse.message])
      | some status =>
        simp only [RobotResponse.message, hdescribe _ h]
        exact acceptedText_ne _
  | serviceList r =>
    refine ⟨_, rfl, fun h => ?_, fun h => ?_⟩
    · rw [← robot_describe_refusal h msg.data]
      simp only [RobotCallback.respond, hok h]
      rfl
    · simp only [RobotCallback.respond, hok' h, if_true]
      cases servicesIn nl msg.result.data with
      | none => exact ne_noReplyText (by simp [RobotResponse.message])
      | some services =>
        simp only [RobotResponse.message, hdescribe _ h]
        exact acceptedText_ne _

theorem RobotRun.reply_texts {nl : Nlohmann} {timeoutMs : Int} {s : RobotState}
    {tr₁ tr₂ : RobotTrace (RobotEvent × Clock)} {y : Step RobotState (RobotEvent × Clock) RobotEmission}
    (h : RobotRun nl timeoutMs (tr₁ ++ y :: tr₂) s) {e : PendingEntry RobotCallback}
    (he : e ∈ y.pre.client.pending.entries) :
    ∃ lead apiId, e.2.callback.subject y.pre = some (lead, apiId) ∧
      ∀ msg clk, (y.event.1.toNode, y.event.2) = (.response msg, clk) → msg.id = e.1 →
        (msg.code ≠ statusOk →
          robotTexts (outputFor e.1 y.out) = [lead ++ refusalText apiId msg.code]) ∧
        (msg.code = statusOk → robotTexts (outputFor e.1 y.out) ≠ [lead ++ noReplyText apiId]) := by
  have hstep := (Run.split h).2.1
  obtain ⟨apiId, hsub, -⟩ := RobotCallback.report_texts nl e.2.callback y.pre ⟨0, 0, 0, ""⟩
  refine ⟨"", apiId, hsub, ?_⟩
  intro msg clk hev hid
  obtain ⟨apiId', hsub', hrefused, haccepted⟩ := RobotCallback.report_texts nl e.2.callback y.pre msg
  rw [hsub, Option.some.injEq, Prod.mk.injEq] at hsub'
  obtain ⟨-, rfl⟩ := hsub'
  have hinv : (e, msg.result) ∈ invocations y.out := by
    rw [nodeStep_invocations hstep, State.mem_taken, hev]
    exact ⟨he, hid, rfl⟩
  rw [(outputFor_settled hstep hinv).reports (RobotCallback.reports nl e.2.callback msg.result),
    String.empty_append, String.empty_append]
  exact ⟨fun hcode => by rw [← hrefused hcode]; rfl,
    fun hcode heq => haccepted hcode (List.singleton_inj.mp heq)⟩

/-! ## Both bridges -/

/-- **When a refusal is reported as one.**  In a run of the waiting sport bridge or of
the robot state bridge, every refusal is reported with its status code, and silence
only where there was none, exactly if no reply that settled a call of the run
carried a negative code.  One description tells the two apart on the same condition. -/
theorem refusalsNamed_iff_nonneg (nl : Nlohmann) (cfg : SportConfig) (timeoutMs : Int) :
    (∀ tr s, cfg.waitForResponse = true → SportRun nl cfg timeoutMs tr s →
      (RefusalsNamed (fun e : SportEvent × Clock => (e.1.toNode nl cfg, e.2)) sportTexts
          (fun s cb => cb.subject s) tr ↔
        NoNegativeReply (fun e : SportEvent × Clock => (e.1.toNode nl cfg, e.2)) tr)) ∧
    (∀ tr s, RobotRun nl timeoutMs tr s →
      (RefusalsNamed (fun e : RobotEvent × Clock => (e.1.toNode, e.2)) robotTexts
          (fun s cb => cb.subject s) tr ↔
        NoNegativeReply (fun e : RobotEvent × Clock => (e.1.toNode, e.2)) tr)) ∧
    (∀ (msg : Response) (apiId : Int),
      (describe apiId msg.result true ≠ describe apiId timeoutResult true ↔ 0 ≤ msg.code) ∧
      (RobotStateBridge.describe apiId msg.result ≠ RobotStateBridge.describe apiId timeoutResult ↔
        0 ≤ msg.code)) := by
  refine ⟨?_, ?_, ?_⟩
  · intro tr s hw h
    refine refusalsNamed_iff sportBridge_implements h fun tr₁ y tr₂ htr e he => ?_
    subst htr
    exact SportRun.reply_texts hw h he
  · intro tr s h
    refine refusalsNamed_iff robotBridge_implements h fun tr₁ y tr₂ htr e he => ?_
    subst htr
    exact RobotRun.reply_texts h he
  · intro msg apiId
    constructor
    · exact describe_ne_timeout rfl (fun h => describe_refusal h msg.data)
        (fun h => by simp [describe, Response.result, h])
    · exact describe_ne_timeout rfl (fun h => robot_describe_refusal h msg.data)
        (fun h => by simp [RobotStateBridge.describe, Response.result, h])

/-- Every reply that reached a node carries a code that is not negative. -/
def NodeEvent.nonneg {κ θ ω : Type} : NodeEvent κ θ ω → Bool
  | .response msg => decide (0 ≤ msg.code)
  | _ => true

theorem NoNegativeReply.of_all {κ θ ω ε : Type} {f : ε → NodeEvent κ θ ω × Clock}
    {tr : List (Step (State κ θ) ε (Out κ ω))}
    (h : tr.all (fun y => (f y.event).1.nonneg) = true) : NoNegativeReply f tr := by
  intro y hy msg clk entry hev _
  have hall := List.all_eq_true.mp h y hy
  rw [hev] at hall
  exact of_decide_eq_true hall

theorem refusalsNamed_iff_nonneg_crossed :
    (RefusalsNamed (fun e : SportEvent × Clock =>
      (e.1.toNode .small (.ofParameters initPresets true defaultBlockedModes), e.2)) sportTexts
      (fun s cb => cb.subject s) crossed.1) ∧
    (RefusalsNamed (fun e : RobotEvent × Clock => (e.1.toNode, e.2)) robotTexts
      (fun s cb => cb.subject s) noList.1) ∧
    describe 1015 ⟨false, 7, ""⟩ true ≠ describe 1015 timeoutResult true := by
  have h := refusalsNamed_iff_nonneg .small (.ofParameters initPresets true defaultBlockedModes)
  exact ⟨((h 2000).1 _ crossed.2 rfl (Run.execute _ _ _)).mpr (.of_all (by decide)),
    ((h 5000).2.1 _ noList.2 (Run.execute _ _ _)).mpr (.of_all (by decide)),
    ((h 2000).2.2 ⟨0, 0, 7, ""⟩ 1015).1.mpr (by decide)⟩

/-- A speed level the robot refuses with status code -1. -/
def refusedByFirmware : SportTrace × SportState :=
  execute (sportBridgeStep .small (.ofParameters initPresets true defaultBlockedModes)) (.start 2000)
    [(.speedLevel ⟨[], 1⟩ 1, .at 5 0), (.response ⟨5, 1015, -1, ""⟩, .at 0 0)]

theorem refusal_reported_as_silence :
    SportRun .small (.ofParameters initPresets true defaultBlockedModes) 2000 refusedByFirmware.1
      refusedByFirmware.2 ∧
    sportTexts (history refusedByFirmware.1) = ["api_id=1015 got no reply"] ∧
    ¬ RefusalsNamed (fun e : SportEvent × Clock =>
      (e.1.toNode .small (.ofParameters initPresets true defaultBlockedModes), e.2)) sportTexts
      (fun s cb => cb.subject s) refusedByFirmware.1 := by
  refine ⟨Run.execute _ _ _, by decide, ?_⟩
  intro hnamed
  obtain ⟨lead, apiId, hsub, hrejected, -⟩ :=
    hnamed (refusedByFirmware.1.take 1) (refusedByFirmware.1.get ⟨1, by decide⟩) [] rfl
      ⟨5, ⟨1015, 2000000000, .speedLevel ⟨[], 1⟩⟩⟩ ⟨false, -1, ""⟩ List.mem_cons_self
  have hsub' : some ("", SportApiId.speedLevel.code) = some (lead, apiId) := hsub
  rw [Option.some.injEq, Prod.mk.injEq] at hsub'
  obtain ⟨rfl, rfl⟩ := hsub'
  exact absurd (hrejected ⟨5, 1015, -1, ""⟩ _ rfl (by decide)) (by decide)

end Go2
