import Go2Driver.Refusals
import Go2Driver.ReplyReaders
import Go2Driver.Wire

/-!
# What a success says about the robot

The bridges on an unreliable wire to the robot.

* `success_executed`: a service answered with success was carried out by the robot between
  the request and its answer; for a mode, all the steps of the preset, in order.
* `served_was_asked`: the robot is given only what a message received before asks for, and
  a step of a preset only after it accepted the steps before it.
* `session_executed`: the services called one after the other by a client that waits for
  each answer are carried out in the order of the calls.
* `robot_success_executed`: what a success of the robot state bridge says.

`Underway` is the invariant of the mode sequence on the wire.
-/

namespace Go2

open Tables Runs Networks SportBridge

/-! ## Commands -/

/-- Api id and parameter of a request. -/
abbrev Command := Int × Json

def SportCommandStep.command (st : SportCommandStep) : Command := (st.apiId, st.parameter)

/-- What a service request asks the robot to do, in order. -/
def SportEvent.commands (nl : Nlohmann) (cfg : SportConfig) : SportEvent → List Command
  | .mode _ name => ((cfg.presets.lookup name).getD []).map SportCommandStep.command
  | e => (e.serviceCall? nl cfg).toList.map fun q => (q.apiId, q.parameter)

/-- The robot was given the command and accepted it. -/
def Obeys (nl : Nlohmann) (c : Command) (x : Request × Response) : Prop :=
  x.1.apiId = c.1 ∧ x.1.noreply = false ∧ nl.dump c.2 = some x.1.parameter ∧ x.2.code = statusOk

/-- The commands were carried out in this order, others possibly in between. -/
def Executed (nl : Nlohmann) (cs : List Command) (served : List (Request × Response)) : Prop :=
  List.SublistForall₂ (Obeys nl) cs served

section
variable {nl : Nlohmann} {cs cs' : List Command} {l l' : List (Request × Response)}

theorem Executed.append (h : Executed nl cs l) (h' : Executed nl cs' l') :
    Executed nl (cs ++ cs') (l ++ l') := by
  obtain ⟨xs, hxs, hsub⟩ := List.sublistForall₂_iff.mp h
  obtain ⟨ys, hys, hsub'⟩ := List.sublistForall₂_iff.mp h'
  exact List.sublistForall₂_iff.mpr ⟨xs ++ ys, List.rel_append hxs hys, hsub.append hsub'⟩

theorem Executed.mono (h : Executed nl cs l) (hl : l.Sublist l') : Executed nl cs l' := by
  obtain ⟨xs, hxs, hsub⟩ := List.sublistForall₂_iff.mp h
  exact List.sublistForall₂_iff.mpr ⟨xs, hxs, hsub.trans hl⟩

theorem Executed.one {c : Command} {x : Request × Response} (hx : x ∈ l) (h : Obeys nl c x) :
    Executed nl [c] l :=
  List.sublistForall₂_iff.mpr ⟨[x], .cons h .nil, List.singleton_sublist.mpr hx⟩

end

/-! ## The sport bridge on the wire -/

abbrev SportWorld := World SportState Request Response
abbrev SportWorldTrace := NodeWorldTrace Callback SportHost SportOut (SportEvent × Clock)

def sportPorts (nl : Nlohmann) (cfg : SportConfig) :
    Ports (SportEvent × Clock) SportEmission Request Response :=
  nodePorts fun e => (e.1.toNode nl cfg, e.2)

def SportWorldRun (nl : Nlohmann) (cfg : SportConfig) (timeoutMs : Int) (tr : SportWorldTrace)
    (w : SportWorld) : Prop :=
  Run (worldStep (sportPorts nl cfg) (sportBridgeStep nl cfg)) (World.start (SportState.start timeoutMs))
    tr w

section
variable {nl : Nlohmann} {cfg : SportConfig} {timeoutMs : Int} {tr tr₁ tr₂ : SportWorldTrace}
  {w : SportWorld} {st : Step SportWorld (Action (SportEvent × Clock) Request Response) SportEmission}

theorem SportWorldRun.client (h : SportWorldRun nl cfg timeoutMs tr w) :
    SportRun nl cfg timeoutMs (clientSteps tr) w.client :=
  (World.run_client h).1

/-- A step of the bridge on the wire is a transition. -/
theorem SportWorldRun.transition (h : SportWorldRun nl cfg timeoutMs (tr₁ ++ st :: tr₂) w)
    {e : SportEvent × Clock} (he : st.event = .client e) :
    SportWorldRun nl cfg timeoutMs tr₁ st.pre ∧
      Transition nl cfg st.pre.client e st.post.client st.out := by
  obtain ⟨hpre, -, -⟩ := Run.split h
  exact ⟨hpre, (SportRun.transition (World.client_split h he).1).2⟩

/-- A fresh id is the id of nothing sent. -/
theorem SportWorldRun.sent_lt (h : SportWorldRun nl cfg timeoutMs tr w) {req : Request}
    (hr : req ∈ w.sent) (r : Reading) : req.id < w.client.client.freshId r := by
  have hle := World.sent_id_le sportBridge_implements h hr
  have := w.client.client.lastId_lt_freshId r
  omega

/-! ## A mode sequence and what the robot carried out of it -/

/-- The run `tr` accepted `run`, and since then the robot carried out the steps before
its current one.  It did so before the pending step, if any, was sent: that one is in
nothing the robot was given until then. -/
def Underway (nl : Nlohmann) (tr : SportWorldTrace) (w : SportWorld) (run : SequenceRun) : Prop :=
  ∃ t₀ rc m n clk, tr = t₀ ++ rc :: (m ++ n) ∧
    rc.event = .client (.mode run.requestId run.name, clk) ∧
    Executed nl ((run.steps.take run.index).map SportCommandStep.command) (servings m) ∧
    ∀ x ∈ w.client.client.pending.entries, x.2.callback = .step →
      (∀ y ∈ servings (t₀ ++ rc :: m), y.1.id ≠ x.1) ∧
      ∀ req ∈ w.sent, req.id = x.1 → ∃ st, run.steps[run.index]? = some st ∧ Asks nl st req

/-- A step that leaves the sequence where it is. -/
theorem Underway.snoc {run : SequenceRun} {w' : SportWorld} (h : Underway nl tr w run)
    (hpend : ∀ x ∈ w'.client.client.pending.entries, x.2.callback = .step →
      x ∈ w.client.client.pending.entries ∧ ∀ req ∈ w'.sent, req.id = x.1 → req ∈ w.sent) :
    Underway nl (tr ++ [st]) w' run := by
  obtain ⟨t₀, rc, m, n, clk, rfl, hrc, hex, hstep⟩ := h
  refine ⟨t₀, rc, m, n ++ [st], clk, by simp, hrc, hex, ?_⟩
  intro x hx hcb
  obtain ⟨hold, hsent⟩ := hpend x hx hcb
  obtain ⟨hserved, hask⟩ := hstep x hold hcb
  exact ⟨hserved, fun req hreq hid => hask req (hsent req hreq hid) hid⟩

/-- One call of `advanceSequence` of the waiting bridge after which the sequence is
still active: it sent the current step, and waits for that step only. -/
theorem Advance.sends {s s' : SportState} {run run' : SequenceRun} {rd : Reading}
    {out : List SportEmission} (h : Advance nl cfg s run rd s' out) (hw : cfg.waitForResponse = true)
    (ha : s.host.activeSequence = some run) (hno : noStepPending s.client)
    (hf : s.client.freshId rd ∉ s.client.pending) (ha' : s'.host.activeSequence = some run') :
    run' = run ∧ ∃ st req entry, run.steps[run.index]? = some st ∧ Asks nl st req ∧
      req.id = s.client.freshId rd ∧ out = [.published req (some entry)] ∧
      ∀ x ∈ s'.client.pending.entries, x.2.callback = .step → x.1 = req.id := by
  cases h with
  | finished _ => cases ha'
  | notSent _ _ _ => cases ha'
  | atOnce _ hw' _ _ => rw [hw] at hw'; cases hw'
  | @sent st text hst _ _ hd =>
    rw [ha, Option.some.injEq] at ha'
    refine ⟨ha'.symm, st, _, _, hst, ⟨rfl, rfl, hd⟩, rfl, rfl, ?_⟩
    intro x hx hcb
    rw [entries_afterCall hf] at hx
    rcases List.mem_cons.mp hx with rfl | hx
    · rfl
    · exact absurd hcb (hno x hx)

/-- The step that was just sent is in nothing the robot was given. -/
theorem SportWorldRun.begun (h : SportWorldRun nl cfg timeoutMs tr st.pre) {run : SequenceRun}
    {t₀ t₁ : SportWorldTrace} {clk : Clock} {rd : Reading} {stp : SportCommandStep} {req : Request}
    {entry : PendingRequest Callback}
    {rc : Step SportWorld (Action (SportEvent × Clock) Request Response) SportEmission}
    (htr : tr ++ [st] = t₀ ++ rc :: t₁) (hrc : rc.event = .client (.mode run.requestId run.name, clk))
    (hex : Executed nl ((run.steps.take run.index).map SportCommandStep.command) (servings t₁))
    (hst : run.steps[run.index]? = some stp) (hask : Asks nl stp req)
    (hid : req.id = st.pre.client.client.freshId rd) (hquiet : servings [st] = [])
    (hsent : st.post.sent = st.pre.sent ++ [.published req (some entry)].filterMap (sportPorts nl cfg).sent?)
    (honly : ∀ x ∈ st.post.client.client.pending.entries, x.2.callback = .step → x.1 = req.id) :
    Underway nl (tr ++ [st]) st.post run := by
  refine ⟨t₀, rc, t₁, [], clk, by rw [htr, List.append_nil], hrc, hex, ?_⟩
  intro x hx hcb
  rw [honly x hx hcb, ← htr, servings_append, hquiet, List.append_nil]
  constructor
  · intro y hy
    have := h.sent_lt (World.served_sent h hy) rd
    omega
  · intro req' hreq' hid'
    have hnew : st.post.sent = st.pre.sent ++ [req] := hsent
    rw [hnew, List.mem_append, List.mem_singleton] at hreq'
    rcases hreq' with hold | rfl
    · exfalso
      have := h.sent_lt hold rd
      omega
    · exact ⟨stp, hst, hask⟩

/-- **What is under way was carried out so far.** -/
theorem SportWorldRun.underway (hw : cfg.waitForResponse = true)
    (h : SportWorldRun nl cfg timeoutMs tr w) :
    ∀ run, w.client.host.activeSequence = some run → Underway nl tr w run := by
  refine Run.traceInvariant
    (fun tr w => ∀ run, w.client.host.activeSequence = some run → Underway nl tr w run) ?_ ?_ h
  · intro run hrun
    cases hrun
  intro tr w a w' out hr ih ha run hrun'
  have hr : SportWorldRun nl cfg timeoutMs tr w := hr
  cases a with
  | serve req reply =>
    obtain ⟨-, -, rfl, -⟩ := worldStep_serve.mp ha
    exact (ih run hrun').snoc fun x hx _ => ⟨hx, fun req hreq _ => hreq⟩
  | client e =>
    obtain ⟨-, hstep, hsent, -⟩ := worldStep_client.mp ha
    have hphase : Phase w.client := hr.client.phase
    have hf := hr.client.freshId_notMem
    have ht := sportBridgeStep_transition nl cfg hphase hstep
    cases ht.continues hphase hf hrun' with
    | kept hrun _ hkeep _ =>
      refine (ih run hrun).snoc fun x hx hcb => ⟨hkeep x hx hcb, fun req hreq hid => ?_⟩
      exact World.sent_before sportBridge_implements hr ha (hkeep x hx hcb) hreq hid
    | @advanced _ run₀ s₁ hadv hclient hact hno hpost hwhy =>
      obtain ⟨rfl, stp, req, entry, hst, hask, hid, rfl, honly⟩ :=
        hadv.sends hw hact (hclient ▸ hno) (hclient ▸ hf (e.2 0)) hpost
      rw [hclient] at hid
      rcases hwhy with ⟨-, hrun⟩ | hacc
      · obtain ⟨t₀, rc, m, n, clk, rfl, hrc, hex, -⟩ := ih run hrun
        have htr : (t₀ ++ rc :: (m ++ n)) ++ [⟨w, .client e, [.published req (some entry)], w'⟩] =
            t₀ ++ rc :: (m ++ (n ++ [⟨w, .client e, [.published req (some entry)], w'⟩])) := by simp
        refine SportWorldRun.begun hr htr hrc ?_ hst hask hid (servings_client rfl) hsent honly
        rw [servings_append]
        exact hex.mono (List.sublist_append_left _ _)
      · obtain ⟨hev, -, -, -, -, hindex, -⟩ := SportEvent.accepted?_spec hacc
        refine SportWorldRun.begun hr rfl (congrArg Action.client (Prod.ext hev rfl)) ?_ hst hask hid
          (servings_client rfl) hsent honly
        rw [hindex]
        exact .nil
    | @accepted msg entry run₀ stp hmsg hl hcb hact hst hok hpend _ _ =>
      obtain ⟨ev, clk⟩ := e
      cases hmsg
      obtain ⟨t₀, rc, m, n, clk', rfl, hrc, hex, hstep'⟩ := ih run₀ hact
      have hx := lookup_eq_some_iff.mp hl
      obtain ⟨hfresh, hask⟩ := hstep' _ hx hcb
      obtain ⟨req, hserved, hid, -⟩ :=
        World.reply_served sportBridge_implements (.snoc hr ha) rfl rfl hx rfl
      obtain ⟨stp', hst', hasks⟩ := hask req (World.served_sent hr hserved) hid
      rw [hst, Option.some.injEq] at hst'
      subst hst'
      -- the reply was made since the step was sent
      have hnew : (req, msg) ∈ servings n := by
        rw [← List.cons_append, ← List.append_assoc, servings_append] at hserved
        exact (List.mem_append.mp hserved).resolve_left fun hold => hfresh _ hold hid
      have hobeys : Obeys nl stp.command (req, msg) :=
        ⟨hasks.1, hasks.2.1, hasks.2.2, of_decide_eq_true hok⟩
      refine ⟨t₀, rc, m ++ (n ++ [⟨w, .client (.response msg, clk), out, w'⟩]), [], clk', by simp, hrc,
        ?_, ?_⟩
      · have hone : run₀.steps.take (run₀.index + 1) = run₀.steps.take run₀.index ++ [stp] := by
          rw [List.take_add_one, hst]
          rfl
        show Executed nl ((run₀.steps.take (run₀.index + 1)).map SportCommandStep.command) _
        rw [hone, List.map_append, servings_append, servings_append]
        refine hex.append ((Executed.one hnew hobeys).mono ?_)
        exact List.sublist_append_left _ _
      · intro x hx hcb'
        refine absurd hcb' (hphase.noStep_erase hl hcb x ?_)
        show x ∈ (w.client.client.pending.erase msg.id).entries
        rw [← hpend]
        exact hx

/-! ## Successes -/

/-- A step's callback sends no answer but that the sequence failed. -/
theorem LetOut.step_failure {x : PendingEntry Callback} {result : ApiResult} {L : List SportEmission}
    (h : LetOut nl (Callback.body nl cfg) x result L) (hcb : x.2.callback = .step) :
    ∀ a ∈ answersOf SportOut.answer? L, a.2.success = false := by
  obtain ⟨m, m', hexec, hout⟩ := h
  rw [hcb] at hexec
  simp only [Callback.body] at hexec
  cases ha : m.host.activeSequence with
  | none =>
    simp only [onStepResult, activeSequence, exec_bind, exec_read, ha, exec_raise] at hexec
    simp at hexec
  | some run =>
    cases hst : run.steps[run.index]? with
    | none =>
      simp only [onStepResult, exec_bind, exec_activeSequence nl ha, currentStep, hst, exec_raise]
        at hexec
      simp at hexec
    | some st =>
      have hL : ∀ {A : List SportEmission}, m'.out = m.out ++ A → L = A :=
        fun hA => (List.append_cancel_left (hA.symm.trans hout)).symm
      cases hr : result.ok with
      | false =>
        rw [exec_onStepResult_failed nl cfg run st ha hst hr, Prod.mk.injEq] at hexec
        rw [hL (by rw [← hexec.1])]
        intro a ha
        rw [List.mem_singleton.mp ha]
        simp [SportResponse.success, SequenceRun.advanced, hr]
      | true =>
        rw [exec_onStepResult_ok nl cfg run st ha hst hr] at hexec
        split at hexec
        · simp at hexec
        · rw [Prod.mk.injEq] at hexec
          rw [hL (by rw [← hexec.1])]
          intro a ha
          cases ha

/-- A service's callback answers with success only to a result that is ok. -/
theorem Callback.report_success {cb : Callback} {result : ApiResult} {a : RequestId × SportResponse}
    (ha : a ∈ answersOf SportOut.answer? (cb.report nl cfg result)) (hs : a.2.success = true) :
    result.ok = true := by
  by_contra hok
  have hok : result.ok = false := Bool.eq_false_iff.mpr hok
  cases cb with
  | step => cases ha
  | speedLevel r | euler r =>
    rw [List.mem_singleton.mp ha] at hs
    simp [SportResponse.success, hok] at hs
  | switchJoystick r | pose r =>
    simp only [Callback.report, failureLog, hok] at ha
    rw [List.mem_singleton.mp ha] at hs
    cases hs
  | getAutoRecovery r =>
    simp only [Callback.report, flagResponse, hok] at ha
    rw [List.mem_singleton.mp ha] at hs
    cases hs

/-- The request a call of a service publishes. -/
theorem Transition.call_sent {s s' : SportState} {e : SportEvent × Clock} {out : List SportEmission}
    (ht : Transition nl cfg s e s' out) {req : Request} {entry : PendingRequest Callback}
    (hp : Out.published req (some entry) ∈ out) (hcb : entry.callback ≠ .step) :
    ∃ q, e.1.serviceCall? nl cfg = some q ∧ entry.callback = q.callback ∧ req.apiId = q.apiId ∧
      req.noreply = false ∧ nl.dump q.parameter = some req.parameter := by
  rcases ht.published_cases hp with ⟨-, -, hnone⟩ | ⟨q, hq, hentry⟩ | ⟨s₁, run, -, hadv, -⟩
  · cases hnone
  · obtain ⟨hout, hcall⟩ := hentry entry rfl
    refine ⟨q, hq, hcall, ?_⟩
    cases ht with
    | @sent _ clk q' text hq' _ _ hd =>
      rw [hq, Option.some.injEq] at hq'
      subst hq'
      rw [List.cons.injEq, Out.published.injEq] at hout
      obtain ⟨⟨rfl, -⟩, -⟩ := hout
      exact ⟨rfl, rfl, hd⟩
    | accepted hacc _ => rw [(SportEvent.accepted?_spec hacc).1] at hq; cases hq
    | fired _ _ _ => cases hq
    | cmdVel _ => cases hq
    | stepAccepted _ _ _ _ _ _ => cases hq
    | stepFailed _ _ _ _ _ => cases hq
    | replied _ _ => cases hq
    | swept => cases hq
    | foreign _ => cases hq
    | refused _ => cases hout
    | notSent _ _ _ => cases hout
    | atOnce _ _ _ => simp at hout
  · obtain ⟨-, -, -, -, -, hstep⟩ := hadv.published hp
    exact absurd (hstep entry rfl) hcb

/-- A request that nothing waits for is a velocity. -/
theorem Transition.sent_velocity {s s' : SportState} {e : SportEvent × Clock} {out : List SportEmission}
    (ht : Transition nl cfg s e s' out) (hw : cfg.waitForResponse = true) {req : Request}
    (hp : Out.published req none ∈ out) :
    ∃ msg, e.1 = .cmdVel msg ∧ req.apiId = SportApiId.move.code ∧ req.noreply = true ∧
      nl.dump (xyzJson msg.linearX msg.linearY msg.angularZ) = some req.parameter := by
  rcases ht.published_cases hp with ⟨msg, hmsg, -⟩ | ⟨q, hq, -⟩ | ⟨s₁, run, -, hadv, -⟩
  · obtain ⟨e, clk⟩ := e
    cases hmsg
    cases ht with
    | @cmdVel _ _ text hd =>
      rw [List.mem_singleton, Out.published.injEq] at hp
      obtain ⟨rfl, -⟩ := hp
      exact ⟨msg, rfl, rfl, rfl, hd⟩
    | refused hr => cases hr
    | accepted hacc _ => cases hacc
    | notSent hq _ _ => cases hq
    | sent hq _ _ _ => cases hq
    | atOnce hq _ _ => cases hq
  · exfalso
    cases ht with
    | atOnce _ hw' _ => rw [hw] at hw'; cases hw'
    | accepted hacc _ => rw [(SportEvent.accepted?_spec hacc).1] at hq; cases hq
    | refused _ => simp [answered] at hp
    | notSent _ _ _ => simp [answered, dropped] at hp
    | sent _ _ _ _ => simp at hp
    | _ => cases hq
  · exfalso
    cases hadv with
    | finished _ => simp [SequenceRun.answer, answered] at hp
    | notSent _ _ _ => simp [SequenceRun.answer, answered, dropped] at hp
    | sent _ _ _ _ => simp at hp
    | atOnce _ hw' _ _ => rw [hw] at hw'; cases hw'

theorem SportEvent.commands_of_serviceCall? {e : SportEvent} {q : SportCall}
    (hq : e.serviceCall? nl cfg = some q) : e.commands nl cfg = [(q.apiId, q.parameter)] := by
  have hcommands : e.commands nl cfg =
      (e.serviceCall? nl cfg).toList.map fun q => (q.apiId, q.parameter) := by
    cases e <;> first | rfl | cases hq
  rw [hcommands, hq]
  rfl

/-- A handler's answer says success only where it ends a sequence that passed all its steps. -/
theorem Transition.handler_success {s s' : SportState} {e : SportEvent × Clock}
    {out : List SportEmission} (ht : Transition nl cfg s e s' out) (hw : cfg.waitForResponse = true)
    {p : SportProg Unit} (hp : e.1.toNode nl cfg = .handler p) {a : RequestId × SportResponse}
    (ha : a ∈ answersOf SportOut.answer? out) (hs : a.2.success = true) :
    ∃ run, s.host.activeSequence = some run ∧ run.steps.length ≤ run.index ∧ a.1 = run.requestId ∧
      a.2.service = .mode := by
  have hadv : ∀ {s₁ run r}, Advance nl cfg s₁ run r s' out →
      run.steps.length ≤ run.index ∧ a.1 = run.requestId ∧ a.2.service = .mode := by
    intro s₁ run r hadv
    cases hadv with
    | finished hi =>
      rw [List.mem_singleton.mp ha]
      exact ⟨hi, rfl, rfl⟩
    | notSent _ _ _ =>
      rw [List.mem_singleton.mp ha] at hs
      cases hs
    | sent _ _ _ _ => cases ha
    | atOnce _ _ _ _ => cases ha
  cases ht with
  | refused hr =>
    rw [List.mem_singleton.mp ha] at hs
    rw [SportEvent.refusal?_failure hr] at hs
    cases hs
  | accepted hacc hadv' =>
    obtain ⟨hlen, -⟩ := hadv hadv'
    obtain ⟨-, -, -, -, hne, hindex, -⟩ := SportEvent.accepted?_spec hacc
    have := List.length_pos_iff.mpr hne
    omega
  | fired _ hact hadv' => exact ⟨_, hact, hadv hadv'⟩
  | notSent hq _ _ =>
    rw [List.mem_singleton.mp ha] at hs
    rw [(SportEvent.serviceCall?_callback hq).2.2] at hs
    cases hs
  | sent _ _ _ _ => cases ha
  | atOnce _ hw' _ => rw [hw] at hw'; cases hw'
  | cmdVel _ => cases ha
  | _ => cases hp

/-- What a success was given for, at the event that answers it. -/
theorem SportWorldRun.carried_out (hw : cfg.waitForResponse = true) (h : SportWorldRun nl cfg timeoutMs tr w)
    (htr : tr = tr₁ ++ st :: tr₂) {a : RequestId × SportResponse}
    (ha : a ∈ answersOf SportOut.answer? st.out) (hs : a.2.success = true) :
    ∃ t₀ rc t₁ e clk, tr₁ = t₀ ++ rc :: t₁ ∧ rc.event = .client (e, clk) ∧
      (a.2.service, a.1) ∈ e.received ∧ e.commands nl cfg ≠ [] ∧
      Executed nl (e.commands nl cfg) (servings t₁) := by
  subst htr
  obtain ⟨hpre, hst, -⟩ := Run.split h
  have hpre : SportWorldRun nl cfg timeoutMs tr₁ st.pre := hpre
  cases he : st.event with
  | serve q p =>
    rw [he] at hst
    rw [(worldStep_serve.mp hst).2.2.2] at ha
    cases ha
  | client ev =>
    rw [he] at hst
    obtain ⟨-, hstep, -⟩ := worldStep_client.mp hst
    obtain ⟨-, ht⟩ := h.transition he
    rcases answer_settles sportBridge_implements hstep ha with ⟨p, hp⟩ | ⟨x, result, hinv, hlet, hout⟩
    · obtain ⟨run, hact, hlen, hreq, hsvc⟩ := ht.handler_success hw hp ha hs
      obtain ⟨t₀, rc, m, n, clk, rfl, hrc, hex, -⟩ := hpre.underway hw run hact
      obtain ⟨hl, -⟩ := SportRun.allowed hpre.client run hact
      have hcommands : (SportEvent.mode run.requestId run.name).commands nl cfg =
          run.steps.map SportCommandStep.command := by
        simp only [SportEvent.commands, hl, Option.getD_some]
      refine ⟨t₀, rc, m ++ n, _, clk, rfl, hrc, ?_, ?_, ?_⟩
      · rw [hreq, hsvc]
        exact List.mem_singleton.mpr rfl
      · rw [hcommands, ne_eq, List.map_eq_nil_iff]
        exact hpre.client.phase.steps_ne_nil hact
      · rw [List.take_of_length_le hlen] at hex
        rw [hcommands, servings_append]
        exact hex.mono (List.sublist_append_left _ _)
    · have hcb : x.2.callback ≠ .step := by
        intro hcb
        rw [hlet.step_failure hcb a hout] at hs
        cases hs
      have hrep := hlet.reports (fun n => exec_body nl cfg hcb result n)
      have hok := Callback.report_success (hrep ▸ hout) hs
      obtain ⟨t₀, rc, mid, sv, t₁, e, req, msg, rfl, hrc, hpub, hid, hsv, hcode, rfl⟩ :=
        ok_executed sportBridge_implements h hinv hok
      obtain ⟨q, hq, hcall, hapi, hnoreply, hd⟩ := (hpre.transition hrc).2.call_sent hpub hcb
      refine ⟨t₀, rc, mid ++ sv :: t₁, e.1, e.2, rfl, hrc, ?_, ?_, ?_⟩
      · rw [hlet.answers hcall (SportEvent.serviceCall?_answers hq)] at hout
        rw [List.mem_singleton.mp hout, (SportEvent.serviceCall?_owes hq).2,
          SportEvent.serviceCall?_respond hq]
        exact List.mem_singleton.mpr rfl
      · rw [SportEvent.commands_of_serviceCall? hq]
        exact List.cons_ne_nil _ _
      · rw [SportEvent.commands_of_serviceCall? hq]
        refine Executed.one (x := (req, msg)) ?_ ⟨hapi, hnoreply, hd, hcode⟩
        rw [List.append_cons, servings_append, servings_append, servings_serve hsv]
        exact List.mem_append_left _ (List.mem_append_right _ (List.mem_singleton.mpr rfl))

/-- **A success was carried out by the robot.**  For each answer with success = true of
the waiting sport bridge, on any of its services: after the request was received and
before it was answered, the robot was given what the request asks for, which is something,
and accepted it; for a mode, every step of the preset, in order. -/
theorem success_executed (hw : cfg.waitForResponse = true) (h : SportWorldRun nl cfg timeoutMs tr w)
    {a : RequestId × SportResponse} (ha : a ∈ answersOf SportOut.answer? (history tr))
    (hs : a.2.success = true) :
    ∃ t₀ rc t₁ st t₂ e clk, tr = t₀ ++ rc :: (t₁ ++ st :: t₂) ∧ rc.event = .client (e, clk) ∧
      (a.2.service, a.1) ∈ e.received ∧ a ∈ answersOf SportOut.answer? st.out ∧
      e.commands nl cfg ≠ [] ∧ Executed nl (e.commands nl cfg) (servings t₁) := by
  obtain ⟨o, ho, hoa⟩ := mem_answersOf.mp ha
  obtain ⟨st, hst, hout⟩ := List.mem_flatMap.mp ho
  obtain ⟨tr₁, t₂, rfl⟩ := List.append_of_mem hst
  have hans : a ∈ answersOf SportOut.answer? st.out := mem_answersOf.mpr ⟨o, hout, hoa⟩
  obtain ⟨t₀, rc, t₁, e, clk, rfl, hrc, hreq, hne, hex⟩ := h.carried_out hw rfl hans hs
  exact ⟨t₀, rc, t₁, st, t₂, e, clk, by simp, hrc, hreq, hans, hne, hex⟩

/-- A request sent for a mode is a step of a preset that is not blocked, and since the
mode was asked for the robot accepted all the steps before it. -/
theorem SportWorldRun.step_origin (hw : cfg.waitForResponse = true)
    (h : SportWorldRun nl cfg timeoutMs (tr₁ ++ st :: tr₂) w) {e : SportEvent × Clock}
    (he : st.event = .client e) {req : Request} {entry : PendingRequest Callback}
    (hp : Out.published req (some entry) ∈ st.out) (hcb : entry.callback = .step) :
    ∃ t₀ rc t₁ r name clk steps k stp, tr₁ ++ [st] = t₀ ++ rc :: t₁ ∧
      rc.event = .client (.mode r name, clk) ∧ cfg.presets.lookup name = some steps ∧
      name ∉ cfg.blockedModes ∧ steps[k]? = some stp ∧ Asks nl stp req ∧
      Executed nl ((steps.take k).map SportCommandStep.command) (servings t₁) := by
  obtain ⟨hpre, hst, -⟩ := Run.split h
  have hpost : SportWorldRun nl cfg timeoutMs (tr₁ ++ [st]) st.post := Run.snoc_iff.mpr ⟨hpre, hst, rfl⟩
  rw [he] at hst
  obtain ⟨-, hstep, hsent, -⟩ := worldStep_client.mp hst
  have hpend : (⟨req.id, entry⟩ : PendingEntry Callback) ∈ st.post.client.client.pending.entries :=
    called_pending (World.ledger sportBridge_implements hpre)
      (sportBridge_implements _ _ _ hstep) (mem_calls.mpr ⟨req, hp, rfl⟩)
  obtain ⟨run, -, hact, -, -⟩ := (hpost.client.phase).step_of_pending hpend hcb
  obtain ⟨t₀, rc, m, n, clk, hsplit, hrc, hex, hpending⟩ := hpost.underway hw run hact
  obtain ⟨hl, hb⟩ := SportRun.allowed hpost.client run hact
  have hmem : req ∈ st.post.sent := by
    rw [hsent]
    exact List.mem_append_right _ (mem_sent.mpr ⟨_, hp⟩)
  obtain ⟨stp, hget, hask⟩ := (hpending _ hpend hcb).2 req hmem rfl
  refine ⟨t₀, rc, m ++ n, run.requestId, run.name, clk, run.steps, run.index, stp, hsplit, hrc, hl, hb,
    hget, hask, ?_⟩
  rw [servings_append]
  exact hex.mono (List.sublist_append_left _ _)

/-- What a request received asks the robot for, where `served` is what the robot was given
since: the velocity of a message, the command of a service, or the next step of a preset
that is not blocked, once the steps before it were accepted. -/
inductive AskedBy (nl : Nlohmann) (cfg : SportConfig) (served : List (Request × Response))
    (req : Request) : SportEvent → Prop
  | velocity (msg : Twist) : req.apiId = SportApiId.move.code → req.noreply = true →
      nl.dump (xyzJson msg.linearX msg.linearY msg.angularZ) = some req.parameter →
      AskedBy nl cfg served req (.cmdVel msg)
  | service (e : SportEvent) (q : SportCall) : e.serviceCall? nl cfg = some q → req.apiId = q.apiId →
      req.noreply = false → nl.dump q.parameter = some req.parameter → AskedBy nl cfg served req e
  | step (r : RequestId) (name : String) (steps : List SportCommandStep) (k : Nat)
      (stp : SportCommandStep) : cfg.presets.lookup name = some steps → name ∉ cfg.blockedModes →
      steps[k]? = some stp → Asks nl stp req →
      Executed nl ((steps.take k).map SportCommandStep.command) served →
      AskedBy nl cfg served req (.mode r name)

/-- **The robot is given nothing that was not asked for, and the steps of a preset in
order.**  Whatever it is given, a message received before asks for it; a step of a preset
is given only after the robot accepted all the steps before it. -/
theorem served_was_asked (hw : cfg.waitForResponse = true) (h : SportWorldRun nl cfg timeoutMs tr w)
    (htr : tr = tr₁ ++ st :: tr₂) {req : Request} {msg : Response} (he : st.event = .serve req msg) :
    ∃ t₀ rc t₁ e clk, tr₁ = t₀ ++ rc :: t₁ ∧ rc.event = .client (e, clk) ∧
      AskedBy nl cfg (servings t₁) req e := by
  subst htr
  obtain ⟨hpre, hst, -⟩ := Run.split h
  rw [he] at hst
  obtain ⟨u, pb, v, e, o, rfl, hev, ho, hreq⟩ := World.sent_origin hpre (worldStep_serve.mp hst).1
  obtain ⟨entry, rfl⟩ := nodePorts_sent?.mp hreq
  obtain ⟨-, ht⟩ := SportWorldRun.transition hpre hev
  cases entry with
  | none =>
    obtain ⟨m, hm, hapi, hnoreply, hd⟩ := ht.sent_velocity hw ho
    refine ⟨u, pb, v, e.1, e.2, rfl, hev, ?_⟩
    rw [hm]
    exact .velocity m hapi hnoreply hd
  | some x =>
    by_cases hcb : x.callback = .step
    · obtain ⟨t₀, rc, t₁, r, name, clk, steps, k, stp, hsplit, hrc, hl, hb, hget, hask, hex⟩ :=
        SportWorldRun.step_origin hw hpre hev ho hcb
      refine ⟨t₀, rc, t₁ ++ v, _, clk, ?_, hrc, .step r name steps k stp hl hb hget hask ?_⟩
      · rw [List.append_cons, hsplit, List.append_assoc, List.cons_append]
      · rw [servings_append]
        exact hex.mono (List.sublist_append_left _ _)
    · obtain ⟨q, hq, -, hapi, hnoreply, hd⟩ := ht.call_sent ho hcb
      exact ⟨u, pb, v, e.1, e.2, rfl, hev, .service e.1 q hq hapi hnoreply hd⟩

/-- The two-step preset on the wire: each step is carried out, accepted and waited for. -/
def standDownDampOnWire : SportWorldTrace × SportWorld :=
  execute (worldStep (sportPorts .small (.ofParameters initPresets true defaultBlockedModes))
      (sportBridgeStep .small (.ofParameters initPresets true defaultBlockedModes)))
    (World.start (SportState.start 2000))
    [.client (.mode ⟨[], 1⟩ "stand_down_damp", .at 5 0),
      .serve ⟨5, 1005, false, "\x7b\x7d"⟩ ⟨5, 1005, 0, ""⟩,
      .client (.response ⟨5, 1005, 0, ""⟩, .at 0 0), .client (.timer, .at 9 0),
      .serve ⟨9, 1001, false, "\x7b\x7d"⟩ ⟨9, 1001, 0, ""⟩,
      .client (.response ⟨9, 1001, 0, ""⟩, .at 0 0), .client (.timer, .at 9 0)]

theorem success_executed_standDownDamp :
    ∃ t₀ rc t₁ st t₂ e clk, standDownDampOnWire.1 = t₀ ++ rc :: (t₁ ++ st :: t₂) ∧
      rc.event = .client (e, clk) ∧ (.mode, ⟨[], 1⟩) ∈ e.received ∧
      (⟨[], 1⟩, .mode true "mode stand_down_damp: api_id=1001 accepted") ∈
        answersOf SportOut.answer? st.out ∧
      e.commands .small (.ofParameters initPresets true defaultBlockedModes) ≠ [] ∧
      Executed .small (e.commands .small (.ofParameters initPresets true defaultBlockedModes))
        (servings t₁) := by
  have hrun : SportWorldRun .small (.ofParameters initPresets true defaultBlockedModes) 2000
      standDownDampOnWire.1 standDownDampOnWire.2 := Run.execute _ _ _
  exact success_executed rfl hrun
    (a := (⟨[], 1⟩, .mode true "mode stand_down_damp: api_id=1001 accepted")) (by decide) rfl

theorem served_was_asked_standDownDamp :
    ∃ t₀ rc t₁ e clk, standDownDampOnWire.1.take 4 = t₀ ++ rc :: t₁ ∧ rc.event = .client (e, clk) ∧
      AskedBy .small (.ofParameters initPresets true defaultBlockedModes) (servings t₁)
        ⟨9, 1001, false, "\x7b\x7d"⟩ e := by
  have hcut : standDownDampOnWire.1 =
      standDownDampOnWire.1.take 4 ++ standDownDampOnWire.1.get ⟨4, by decide⟩ ::
        standDownDampOnWire.1.drop 5 := rfl
  exact served_was_asked rfl (Run.execute _ _ _) hcut rfl

/-! ## Calls one after the other -/

/-- In a list whose items have no part in common, a part tells its item's place. -/
theorem eq_of_flatMap_nodup {α β : Type} {f : α → List β} {d : β} {l₁ l₂ m₁ m₂ : List α} {x y : α}
    (h : l₁ ++ x :: l₂ = m₁ ++ y :: m₂) (hnd : ((l₁ ++ x :: l₂).flatMap f).Nodup) (hx : d ∈ f x)
    (hy : d ∈ f y) : l₁ = m₁ ∧ l₂ = m₂ := by
  induction l₁ generalizing m₁ with
  | nil =>
    cases m₁ with
    | nil =>
      rw [List.nil_append, List.nil_append, List.cons.injEq] at h
      exact ⟨rfl, h.2⟩
    | cons z m₁ =>
      exfalso
      rw [List.nil_append, List.cons_append, List.cons.injEq] at h
      rw [List.nil_append, List.flatMap_cons, List.nodup_append] at hnd
      refine hnd.2.2 d hx d ?_ rfl
      rw [h.2]
      exact List.mem_flatMap.mpr ⟨y, by simp, hy⟩
  | cons z l₁ ih =>
    rw [List.cons_append, List.flatMap_cons, List.nodup_append] at hnd
    cases m₁ with
    | nil =>
      exfalso
      rw [List.cons_append, List.nil_append, List.cons.injEq] at h
      refine hnd.2.2 d (h.1 ▸ hy) d ?_ rfl
      exact List.mem_flatMap.mpr ⟨x, by simp, hx⟩
    | cons z' m₁ =>
      rw [List.cons_append, List.cons_append, List.cons.injEq] at h
      obtain ⟨rfl, rfl⟩ := ih h.2 hnd.2.1
      exact ⟨by rw [h.1], rfl⟩

/-- The requests received in a run on the wire. -/
def receivedOnWire (st : Step SportWorld (Action (SportEvent × Clock) Request Response) SportEmission) :
    List Debt :=
  match st.event with
  | .client e => e.1.received
  | .serve _ _ => []

/-- The events `es` are requests of one client that waits for each answer before it asks
again, and each of them was answered with success. -/
inductive Session : List SportEvent → SportWorldTrace → Prop
  | nil (tr : SportWorldTrace) : Session [] tr
  | answered {es : List SportEvent} {e : SportEvent} {clk : Clock} {tr mid rest : SportWorldTrace}
      {rc st : Step SportWorld (Action (SportEvent × Clock) Request Response) SportEmission}
      {a : RequestId × SportResponse} : Session es tr → rc.event = .client (e, clk) →
      a ∈ answersOf SportOut.answer? st.out → (a.2.service, a.1) ∈ e.received →
      a.2.success = true → Session (es ++ [e]) (tr ++ rc :: (mid ++ st :: rest))

/-- **A session is carried out in the order of its calls**, whatever other clients ask for
meanwhile: the robot accepted what the requests ask for one after the other. -/
theorem session_executed (hw : cfg.waitForResponse = true) (h : SportWorldRun nl cfg timeoutMs tr w)
    (hdistinct : (tr.flatMap receivedOnWire).Nodup) {es : List SportEvent} (hs : Session es tr) :
    Executed nl (es.flatMap (SportEvent.commands nl cfg)) (servings tr) := by
  induction hs generalizing w with
  | nil tr => exact .nil
  | @answered es e clk tr mid rest rc st a hs hrc ha hreq hsucc ih =>
    have hpre : SportWorldRun nl cfg timeoutMs tr rc.pre := (Run.split h).1
    have hnd := hdistinct
    rw [List.flatMap_append] at hnd
    have hex := ih hpre hnd.of_append_left
    have hassoc : tr ++ rc :: (mid ++ st :: rest) = (tr ++ rc :: mid) ++ st :: rest := by simp
    obtain ⟨t₀, rc', t₁, e', clk', hsplit, hrc', hreq', -, hex'⟩ :=
      h.carried_out hw hassoc ha hsucc
    -- the request ids are distinct, so it is the request of the session
    rw [hassoc, List.flatMap_append] at hdistinct
    obtain ⟨rfl, rfl⟩ := eq_of_flatMap_nodup (d := (a.2.service, a.1)) hsplit hdistinct.of_append_left
      (by rw [receivedOnWire, hrc]; exact hreq) (by rw [receivedOnWire, hrc']; exact hreq')
    have hsame : rc = rc' := by
      have := List.append_cancel_left hsplit
      rw [List.cons.injEq] at this
      exact this.1
    rw [← hsame, hrc, Action.client.injEq, Prod.mk.injEq] at hrc'
    obtain ⟨rfl, -⟩ := hrc'
    rw [List.flatMap_append, List.flatMap_singleton, hassoc, servings_append]
    refine (Executed.append hex hex').mono ?_
    have hrest : servings (tr ++ rc :: mid) = servings tr ++ servings mid := by
      rw [List.append_cons, servings_append, servings_append, servings_client hrc, List.append_nil]
    rw [hrest]
    exact List.sublist_append_left _ _

end

/-- A pose and, once it is answered, the joystick; another client asks for a speed level meanwhile. -/
def poseThenJoystick : SportWorldTrace × SportWorld :=
  execute (worldStep (sportPorts .small (.ofParameters initPresets true defaultBlockedModes))
      (sportBridgeStep .small (.ofParameters initPresets true defaultBlockedModes)))
    (World.start (SportState.start 2000))
    [.client (.pose ⟨[], 1⟩ true, .at 5 0), .client (.speedLevel ⟨[9], 1⟩ 1, .at 5 0),
      .serve ⟨5, 1028, false, "\x7b\"data\":true\x7d"⟩ ⟨5, 1028, 0, ""⟩,
      .client (.response ⟨5, 1028, 0, ""⟩, .at 0 0), .client (.switchJoystick ⟨[], 2⟩ true, .at 5 0),
      .serve ⟨7, 1027, false, "\x7b\"data\":true\x7d"⟩ ⟨7, 1027, 0, ""⟩,
      .client (.response ⟨7, 1027, 0, ""⟩, .at 0 0)]

theorem session_executed_poseThenJoystick :
    Executed .small ([.pose ⟨[], 1⟩ true, .switchJoystick ⟨[], 2⟩ true].flatMap
        (SportEvent.commands .small (.ofParameters initPresets true defaultBlockedModes)))
      (servings poseThenJoystick.1) := by
  have hcut : poseThenJoystick.1 =
      ([] ++ poseThenJoystick.1.get ⟨0, by decide⟩ :: ((poseThenJoystick.1.drop 1).take 2 ++
        poseThenJoystick.1.get ⟨3, by decide⟩ :: [])) ++ poseThenJoystick.1.get ⟨4, by decide⟩ ::
          ((poseThenJoystick.1.drop 5).take 1 ++ poseThenJoystick.1.get ⟨6, by decide⟩ :: []) := rfl
  have hpose : Session [.pose ⟨[], 1⟩ true] ([] ++ poseThenJoystick.1.get ⟨0, by decide⟩ ::
      ((poseThenJoystick.1.drop 1).take 2 ++ poseThenJoystick.1.get ⟨3, by decide⟩ :: [])) :=
    .answered (.nil []) rfl (a := (⟨[], 1⟩, .pose true)) (by decide) (by decide) rfl
  have hboth : Session [.pose ⟨[], 1⟩ true, .switchJoystick ⟨[], 2⟩ true] poseThenJoystick.1 := by
    rw [hcut]
    exact .answered hpose rfl (a := (⟨[], 2⟩, .switchJoystick true)) (by decide) (by decide) rfl
  exact session_executed rfl (Run.execute _ _ _) (by decide) hboth

/-! ## The robot state bridge on the wire -/

abbrev RobotWorld := World RobotState Request Response
abbrev RobotWorldTrace := NodeWorldTrace RobotCallback Unit RobotOut (RobotEvent × Clock)

def RobotWorldRun (nl : Nlohmann) (timeoutMs : Int) (tr : RobotWorldTrace) (w : RobotWorld) : Prop :=
  Run (worldStep (nodePorts fun e : RobotEvent × Clock => (e.1.toNode, e.2)) (robotStateBridgeStep nl))
    (World.start (State.start timeoutMs ())) tr w

/-- What a request that waits for its reply asks the robot to do. -/
def RobotEvent.commands (nl : Nlohmann) (e : RobotEvent) : List Command :=
  (e.serviceCall? nl).toList.map fun q => (q.apiId, q.parameter)

section
variable {nl : Nlohmann} {timeoutMs : Int} {tr tr₁ tr₂ : RobotWorldTrace} {w : RobotWorld}
  {st : Step RobotWorld (Action (RobotEvent × Clock) Request Response) RobotEmission}

/-- The request a call of the bridge publishes. -/
theorem robotStep_sent {s s' : RobotState} {e : RobotEvent × Clock} {out : List RobotEmission}
    (h : robotStateBridgeStep nl s e = some (s', out)) {req : Request}
    {entry : PendingRequest RobotCallback} (hp : Out.published req (some entry) ∈ out) :
    ∃ q, e.1.serviceCall? nl = some q ∧ entry.callback = q.callback ∧ req.apiId = q.apiId ∧
      req.noreply = false ∧ nl.dump q.parameter = some req.parameter := by
  have hx : (⟨req.id, entry⟩ : PendingEntry RobotCallback) ∈ calls out := mem_calls.mpr ⟨req, hp, rfl⟩
  obtain ⟨q, -, hq, -, -, hcb⟩ := robotStep_calls h hx
  refine ⟨q, hq, hcb, ?_⟩
  rcases robotStep_call nl hq h with ⟨-, -, rfl⟩ | ⟨text, hd, rfl⟩
  · simp at hp
  · rw [List.mem_singleton, Out.published.injEq] at hp
    obtain ⟨rfl, -⟩ := hp
    exact ⟨rfl, rfl, hd⟩

/-- A handler answers the services that wait for a reply with failures only. -/
theorem robotStep_handler_failure {s s' : RobotState} {e : RobotEvent × Clock}
    {out : List RobotEmission} (h : robotStateBridgeStep nl s e = some (s', out)) {p : RobotProg Unit}
    (hp : e.1.toNode = .handler p) {a : RequestId × RobotResponse}
    (ha : a ∈ answersOf RobotOut.answer? out) (hsvc : a.2.service ≠ .setReportFreq) :
    a.2.success = false := by
  have hcall : ∀ q, e.1.serviceCall? nl = some q → a.2.success = false := by
    intro q hq
    rcases robotStep_call nl hq h with ⟨-, -, rfl⟩ | ⟨text, -, rfl⟩
    · rw [List.mem_singleton.mp ha]
      exact (RobotEvent.serviceCall?_spec hq).2.1
    · cases ha
  obtain ⟨e, clk⟩ := e
  cases e with
  | serviceSwitch r name enable => exact hcall _ rfl
  | serviceList r => exact hcall _ rfl
  | setReportFreq r interval duration =>
    obtain ⟨-, resp, hans, hresp⟩ := robotStep_setReportFreq h
    rw [hans] at ha
    rw [List.mem_singleton.mp ha] at hsvc
    exact absurd hresp hsvc
  | response msg => cases hp
  | sweep order => cases hp

/-- **A success of service_switch or service_list was carried out by the robot**, between
the request and its answer.  (set_report_freq is answered when it was published.) -/
theorem robot_success_executed (h : RobotWorldRun nl timeoutMs tr w) (htr : tr = tr₁ ++ st :: tr₂)
    {a : RequestId × RobotResponse} (ha : a ∈ answersOf RobotOut.answer? st.out)
    (hsvc : a.2.service ≠ .setReportFreq) (hs : a.2.success = true) :
    ∃ t₀ rc t₁ e clk, tr₁ = t₀ ++ rc :: t₁ ∧ rc.event = .client (e, clk) ∧
      (a.2.service, a.1) ∈ e.received ∧ e.commands nl ≠ [] ∧
      Executed nl (e.commands nl) (servings t₁) := by
  subst htr
  obtain ⟨hpre, hst, -⟩ := Run.split h
  cases he : st.event with
  | serve q p =>
    rw [he] at hst
    rw [(worldStep_serve.mp hst).2.2.2] at ha
    cases ha
  | client ev =>
    rw [he] at hst
    obtain ⟨-, hstep, -⟩ := worldStep_client.mp hst
    rcases answer_settles robotBridge_implements hstep ha with ⟨p, hp⟩ | ⟨x, result, hinv, hlet, hout⟩
    · rw [robotStep_handler_failure hstep hp ha hsvc] at hs
      cases hs
    · have hrep := hlet.reports (RobotCallback.reports nl x.2.callback result)
      have hok : result.ok = true := by
        rw [hrep] at hout
        rw [List.mem_singleton.mp hout] at hs
        by_contra hok
        have hok : result.ok = false := Bool.eq_false_iff.mpr hok
        cases hcb : x.2.callback <;>
          simp [hcb, RobotCallback.respond, hok, RobotResponse.success] at hs
      obtain ⟨t₀, rc, mid, sv, t₁, e, req, msg, rfl, hrc, hpub, hid, hsv, hcode, rfl⟩ :=
        ok_executed robotBridge_implements h hinv hok
      obtain ⟨-, hrcst, -⟩ := Run.split (World.client_split hpre hrc).1
      obtain ⟨q, hq, hcall, hapi, hnoreply, hd⟩ := robotStep_sent hrcst hpub
      have hcommands : e.1.commands nl = [(q.apiId, q.parameter)] := by
        rw [RobotEvent.commands, hq]
        rfl
      refine ⟨t₀, rc, mid ++ sv :: t₁, e.1, e.2, rfl, hrc, ?_, ?_, ?_⟩
      · rw [hlet.answers hcall (RobotEvent.serviceCall?_answers hq)] at hout
        rw [List.mem_singleton.mp hout, (RobotEvent.serviceCall?_spec hq).2.2,
          RobotEvent.serviceCall?_respond hq]
        exact List.mem_singleton.mpr rfl
      · rw [hcommands]
        exact List.cons_ne_nil _ _
      · rw [hcommands]
        refine Executed.one (x := (req, msg)) ?_ ⟨hapi, hnoreply, hd, hcode⟩
        rw [List.append_cons, servings_append, servings_append, servings_serve hsv]
        exact List.mem_append_left _ (List.mem_append_right _ (List.mem_singleton.mpr rfl))

end

/-- A list of services that the robot fails to make once, and then makes. -/
def listedTwice : RobotWorldTrace × RobotWorld :=
  execute (worldStep (nodePorts fun e : RobotEvent × Clock => (e.1.toNode, e.2))
      (robotStateBridgeStep .replies)) (World.start (State.start 5000 ()))
    [.client (.serviceList ⟨[], 1⟩, .at 5 0), .serve ⟨5, 1003, false, "\x7b\x7d"⟩ ⟨5, 1003, 3, ""⟩,
      .serve ⟨5, 1003, false, "\x7b\x7d"⟩
        ⟨5, 1003, 0, "[\x7b\"name\":\"mcf\",\"status\":1.5\x7d,3]"⟩,
      .client (.response ⟨5, 1003, 0, "[\x7b\"name\":\"mcf\",\"status\":1.5\x7d,3]"⟩, .at 0 0)]

theorem robot_success_executed_listedTwice :
    ∃ t₀ rc t₁ e clk, listedTwice.1.take 3 = t₀ ++ rc :: t₁ ∧ rc.event = .client (e, clk) ∧
      (.serviceList, ⟨[], 1⟩) ∈ e.received ∧ e.commands .replies ≠ [] ∧
      Executed .replies (e.commands .replies) (servings t₁) := by
  have hcut : listedTwice.1 = listedTwice.1.take 3 ++ listedTwice.1.get ⟨3, by decide⟩ :: [] := rfl
  exact robot_success_executed (Run.execute _ _ _) hcut
    (a := (⟨[], 1⟩, .serviceList true "api_id=1003 accepted" [⟨"mcf", -1, 0, ""⟩])) (by decide)
    (by decide) rfl

end Go2
