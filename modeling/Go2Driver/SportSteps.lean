import Go2Driver.SportHandlers

/-!
# What one event of the sport bridge can do

`Transition` lists, with its guard, every way an event can complete: the state
it leaves and what it lets out.  `Advance` is the part the sequencer shares: one
call of `advanceSequence`.  `perform_completes` reads the handlers off once; it
needs the sequencer's `Phase`, the relation between `active_sequence_`, the
pending step callback and the timer on which `onStepResult` and the timer's
lambda rely.  Later proofs are by cases on a `Transition` and do not unfold a
handler.
-/

namespace Go2

open Tables Runs SportBridge

/-! ## Transitions -/

/-- What the callback of an expired entry lets out; a step's ends the sequence. -/
def timeoutReport (nl : Nlohmann) (cfg : SportConfig) (h : SportHost) : Callback → List SportEmission
  | .step =>
    match h.activeSequence with
    | none => []
    | some run =>
      match run.steps[run.index]? with
      | none => []
      | some st => [(run.advanced cfg st timeoutResult).answer]
  | cb => cb.report nl cfg timeoutResult

def expiry (nl : Nlohmann) (cfg : SportConfig) (h : SportHost) (e : PendingEntry Callback) :
    List SportEmission :=
  .invoked e.1 e.2 timeoutResult :: timeoutReport nl cfg h e.2.callback

def PendingRequest.isStep (entry : PendingRequest Callback) : Bool := decide (entry.callback = .step)

theorem PendingRequest.isStep_iff {entry : PendingRequest Callback} :
    entry.isStep = true ↔ entry.callback = .step := decide_eq_true_iff

/-- The host after the entries of a sweep were answered. -/
def SportHost.swept (h : SportHost) (l : List (PendingEntry Callback)) : SportHost :=
  if l.any (·.2.isStep) then .idle else h

theorem SportHost.swept_of_none {h : SportHost} {l : List (PendingEntry Callback)}
    (hl : ∀ e ∈ l, e.2.callback ≠ .step) : h.swept l = h := by
  unfold SportHost.swept
  rw [if_neg]
  rw [List.any_eq_true]
  rintro ⟨e, he, hs⟩
  exact hl e he (PendingRequest.isStep_iff.mp hs)

theorem SportHost.swept_of_mem {h : SportHost} {l : List (PendingEntry Callback)}
    {e : PendingEntry Callback} (he : e ∈ l) (hcb : e.2.callback = .step) : h.swept l = .idle := by
  unfold SportHost.swept
  rw [if_pos]
  exact List.any_eq_true.mpr ⟨e, he, PendingRequest.isStep_iff.mpr hcb⟩

theorem SportHost.swept_cons_of_ne {h : SportHost} {l : List (PendingEntry Callback)}
    {e : PendingEntry Callback} (hcb : e.2.callback ≠ .step) : h.swept (e :: l) = h.swept l := by
  unfold SportHost.swept
  rw [List.any_cons, Bool.eq_false_iff.mpr (fun hs => hcb (PendingRequest.isStep_iff.mp hs)),
    Bool.false_or]

section
variable (nl : Nlohmann) (cfg : SportConfig)

/-- One call of `advanceSequence` from `s`, whose active sequence is `run`. -/
inductive Advance (s : SportState) (run : SequenceRun) (r : Reading) :
    SportState → List SportEmission → Prop
  | finished : run.steps.length ≤ run.index → Advance s run r ⟨s.client, .idle⟩ [run.answer]
  | notSent {st : SportCommandStep} : run.steps[run.index]? = some st →
      cfg.waitForResponse = true → s.client.full →
      Advance s run r ⟨s.client, .idle⟩ [dropped s.client st.apiId, (run.notSent st).answer]
  | sent {st : SportCommandStep} {text : String} : run.steps[run.index]? = some st →
      cfg.waitForResponse = true → ¬ s.client.full → nl.dump st.parameter = some text →
      Advance s run r ⟨s.client.afterCall r st.apiId .step, s.host⟩
        [.published ⟨s.client.freshId r, st.apiId, false, text⟩
          (some (s.client.newEntry r st.apiId .step))]
  | atOnce {st : SportCommandStep} {text : String} : run.steps[run.index]? = some st →
      cfg.waitForResponse = false → nl.dump st.parameter = some text → 0 ≤ st.waitMsAfter →
      Advance s run r
        ⟨s.client.afterSend r, .waiting (run.advanced cfg st ⟨true, 0, ""⟩) st.waitMsAfter⟩
        [.published ⟨s.client.freshId r, st.apiId, false, text⟩ none,
          .host (.resultAtOnce st.apiId ⟨true, 0, ""⟩), .host (.timerCreated st.waitMsAfter)]

/-- The completed events of the bridge. -/
inductive Transition (s : SportState) :
    SportEvent × Clock → SportState → List SportEmission → Prop
  | refused {e : SportEvent} {clk : Clock} {r : RequestId} {resp : SportResponse} :
      e.refusal? cfg s.host = some (r, resp) → Transition s (e, clk) s [answered r resp]
  | accepted {e : SportEvent} {clk : Clock} {run : SequenceRun} {s' : SportState}
      {out : List SportEmission} : e.accepted? cfg s.host = some run →
      Advance nl cfg ⟨s.client, { s.host with activeSequence := some run }⟩ run (clk 0) s' out →
      Transition s (e, clk) s' out
  | notSent {e : SportEvent} {clk : Clock} {q : SportCall} : e.serviceCall? nl cfg = some q →
      cfg.waitForResponse = true → s.client.full →
      Transition s (e, clk) s [dropped s.client q.apiId, answered q.request q.refused]
  | sent {e : SportEvent} {clk : Clock} {q : SportCall} {text : String} :
      e.serviceCall? nl cfg = some q → cfg.waitForResponse = true → ¬ s.client.full →
      nl.dump q.parameter = some text →
      Transition s (e, clk) ⟨s.client.afterCall (clk 0) q.apiId q.callback, s.host⟩
        [.published ⟨s.client.freshId (clk 0), q.apiId, false, text⟩
          (some (s.client.newEntry (clk 0) q.apiId q.callback))]
  | atOnce {e : SportEvent} {clk : Clock} {q : SportCall} {text : String} :
      e.serviceCall? nl cfg = some q → cfg.waitForResponse = false → nl.dump q.parameter = some text →
      Transition s (e, clk) ⟨s.client.afterSend (clk 0), s.host⟩
        (.published ⟨s.client.freshId (clk 0), q.apiId, false, text⟩ none ::
          .host (.resultAtOnce q.apiId ⟨true, 0, ""⟩) :: q.callback.report nl cfg ⟨true, 0, ""⟩)
  | cmdVel {msg : Twist} {clk : Clock} {text : String} :
      nl.dump (xyzJson msg.linearX msg.linearY msg.angularZ) = some text →
      Transition s (.cmdVel msg, clk) ⟨s.client.afterSend (clk 0), s.host⟩
        [.published ⟨s.client.freshId (clk 0), SportApiId.move.code, true, text⟩ none]
  | foreign {msg : Response} {clk : Clock} : s.client.pending.lookup msg.id = none →
      Transition s (.response msg, clk) s
        [.log .debug ("ignoring reply for id=" ++ toString msg.id)]
  | replied {msg : Response} {clk : Clock} {entry : PendingRequest Callback} :
      s.client.pending.lookup msg.id = some entry → entry.callback ≠ .step →
      Transition s (.response msg, clk)
        ⟨{ s.client with pending := s.client.pending.erase msg.id }, s.host⟩
        (mismatchLog msg entry ++ .invoked msg.id entry msg.result ::
          entry.callback.report nl cfg msg.result)
  | stepAccepted {msg : Response} {clk : Clock} {entry : PendingRequest Callback}
      {run : SequenceRun} {st : SportCommandStep} :
      s.client.pending.lookup msg.id = some entry → entry.callback = .step →
      s.host.activeSequence = some run → run.steps[run.index]? = some st →
      msg.result.ok = true → 0 ≤ st.waitMsAfter →
      Transition s (.response msg, clk)
        ⟨{ s.client with pending := s.client.pending.erase msg.id },
          .waiting (run.advanced cfg st msg.result) st.waitMsAfter⟩
        (mismatchLog msg entry ++ [.invoked msg.id entry msg.result,
          .host (.timerCreated st.waitMsAfter)])
  | stepFailed {msg : Response} {clk : Clock} {entry : PendingRequest Callback}
      {run : SequenceRun} {st : SportCommandStep} :
      s.client.pending.lookup msg.id = some entry → entry.callback = .step →
      s.host.activeSequence = some run → run.steps[run.index]? = some st →
      msg.result.ok = false →
      Transition s (.response msg, clk)
        ⟨{ s.client with pending := s.client.pending.erase msg.id }, .idle⟩
        (mismatchLog msg entry ++ [.invoked msg.id entry msg.result,
          (run.advanced cfg st msg.result).answer])
  | swept {order : IterationOrder (PendingEntry Callback)} {clk : Clock} :
      Transition s (.sweep order, clk)
        ⟨{ s.client with pending := s.client.kept order (clk 0).now },
          s.host.swept (s.client.expired order (clk 0).now)⟩
        ((s.client.expired order (clk 0).now).map timeoutLog ++
          (s.client.expired order (clk 0).now).flatMap (expiry nl cfg s.host))
  | fired {clk : Clock} {run : SequenceRun} {s' : SportState} {out : List SportEmission} :
      s.host.armed = true → s.host.activeSequence = some run →
      Advance nl cfg ⟨s.client, s.host.cancelTimer⟩ run (clk 0) s' out →
      Transition s (.timer, clk) s' out

end

/-! ## The phases of the sequencer -/

/-- No step's callback is pending. -/
def noStepPending (c : UnitreeApiClient Callback) : Prop :=
  ∀ e ∈ c.pending.entries, e.2.callback ≠ .step

/-- How `active_sequence_`, the pending step callback and the timer go together
between events. -/
inductive Phase (s : SportState) : Prop
  | idle : s.host.activeSequence = none → s.host.armed = false → noStepPending s.client → Phase s
  | awaiting (run : SequenceRun) (st : SportCommandStep) (id : Int)
      (entry : PendingRequest Callback) : s.host.activeSequence = some run →
      run.steps[run.index]? = some st → run.ok = true → s.host.armed = false →
      s.client.pending.lookup id = some entry → entry.callback = .step → entry.apiId = st.apiId →
      (∀ e ∈ s.client.pending.entries, e.2.callback = .step → e.1 = id) → Phase s
  | delaying (run : SequenceRun) : s.host.activeSequence = some run → 1 ≤ run.index →
      run.index ≤ run.steps.length → run.ok = true → s.host.armed = true →
      noStepPending s.client → Phase s

/-- A pending step callback belongs to the active sequence, at a step it has. -/
theorem Phase.step_of_pending {s : SportState} (h : Phase s) {e : PendingEntry Callback}
    (he : e ∈ s.client.pending.entries) (hcb : e.2.callback = .step) :
    ∃ run st, s.host.activeSequence = some run ∧ run.steps[run.index]? = some st ∧
      e.2.apiId = st.apiId ∧ run.ok = true ∧ s.host.armed = false := by
  cases h with
  | idle _ _ hno => exact absurd hcb (hno e he)
  | delaying _ _ _ _ _ _ hno => exact absurd hcb (hno e he)
  | awaiting run st id entry ha hst hok harm hl _ hapi honly =>
    refine ⟨run, st, ha, hst, ?_, hok, harm⟩
    have hm : (⟨id, entry⟩ : PendingEntry Callback) ∈ s.client.pending.entries :=
      lookup_eq_some_iff.mp hl
    rw [entry_eq he hm (honly e he hcb)]
    exact hapi

/-- The timer is armed only while a sequence waits for it. -/
theorem Phase.active_of_armed {s : SportState} (h : Phase s) (ha : s.host.armed = true) :
    ∃ run, s.host.activeSequence = some run ∧ 1 ≤ run.index ∧ run.index ≤ run.steps.length ∧
      run.ok = true ∧ noStepPending s.client := by
  cases h with
  | idle _ harm _ => rw [ha] at harm; cases harm
  | awaiting _ _ _ _ _ _ _ harm => rw [ha] at harm; cases harm
  | delaying run hact h1 h2 hok _ hno => exact ⟨run, hact, h1, h2, hok, hno⟩

/-- The preset of the active sequence has steps. -/
theorem Phase.steps_ne_nil {s : SportState} (h : Phase s) {run : SequenceRun}
    (hrun : s.host.activeSequence = some run) : run.steps ≠ [] := by
  intro hnil
  cases h with
  | idle hnone _ _ =>
    rw [hrun] at hnone
    cases hnone
  | awaiting run' st _ _ hact hst =>
    rw [hrun, Option.some.injEq] at hact
    rw [← hact, hnil] at hst
    cases hst
  | delaying run' hact h1 h2 _ _ _ =>
    rw [hrun, Option.some.injEq] at hact
    rw [← hact, hnil, List.length_nil] at h2
    rw [← hact] at h1
    omega

/-- Two step callbacks are never pending together. -/
theorem Phase.step_unique {s : SportState} (h : Phase s) {e e' : PendingEntry Callback}
    (he : e ∈ s.client.pending.entries) (he' : e' ∈ s.client.pending.entries)
    (hcb : e.2.callback = .step) (hcb' : e'.2.callback = .step) : e = e' := by
  cases h with
  | idle _ _ hno => exact absurd hcb (hno e he)
  | delaying _ _ _ _ _ _ hno => exact absurd hcb (hno e he)
  | awaiting _ _ id _ _ _ _ _ _ _ _ honly =>
    exact entry_eq he he' ((honly e he hcb).trans (honly e' he' hcb').symm)

/-! ## Every event completes as a transition, or throws -/

/-- The event completed as `T` says, or ended in an exception: nothing undefined. -/
def Completes (x : SportNode × Except Fault Unit)
    (T : SportState → List SportEmission → Prop) : Prop :=
  match x with
  | (n, .ok ()) => T n.toState n.out
  | (_, .error f) => f.undefined = false

section
variable (nl : Nlohmann) (cfg : SportConfig)

theorem advanceSequence_completes {s : SportState} {run : SequenceRun} {clk : Clock}
    (ha : s.host.activeSequence = some run) :
    Completes (exec nl (advanceSequence nl cfg) ⟨s, clk, []⟩) (Advance nl cfg s run (clk 0)) := by
  by_cases hi : run.steps.length ≤ run.index
  · rw [exec_advanceSequence_finished nl cfg (n := ⟨s, clk, []⟩) ha hi]
    exact .finished hi
  · have hst : run.steps[run.index]? = some run.steps[run.index] :=
      List.getElem?_eq_getElem (by omega)
    generalize run.steps[run.index] = st at hst
    cases hw : cfg.waitForResponse with
    | true =>
      rw [exec_advanceSequence_waiting nl cfg (n := ⟨s, clk, []⟩) ha hst hw]
      by_cases hf : s.client.full
      · rw [if_pos hf]
        exact .notSent hst hw hf
      · rw [if_neg hf]
        cases hd : nl.dump st.parameter with
        | none => rfl
        | some text => exact .sent hst hw hf hd
    | false =>
      rw [exec_advanceSequence_atOnce nl cfg (n := ⟨s, clk, []⟩) ha hst hw]
      cases hd : nl.dump st.parameter with
      | none => rfl
      | some text =>
        simp only
        rw [exec_onStepResult_ok nl cfg run st ha hst rfl]
        by_cases hneg : st.waitMsAfter < 0
        · rw [if_pos hneg]
          rfl
        · rw [if_neg hneg]
          exact .atOnce hst hw hd (by omega)

theorem deferred_completes {s : SportState} {clk : Clock} {e : SportEvent} {q : SportCall}
    (hq : e.serviceCall? nl cfg = some q) :
    Completes (exec nl (deferred nl cfg q.apiId q.parameter q.callback q.request q.refused)
      ⟨s, clk, []⟩) (Transition nl cfg s (e, clk)) := by
  cases hw : cfg.waitForResponse with
  | true =>
    rw [exec_deferred_waiting nl cfg hw]
    by_cases hf : s.client.full
    · rw [if_pos hf]
      exact .notSent hq hw hf
    · rw [if_neg hf]
      cases hd : nl.dump q.parameter with
      | none => rfl
      | some text => exact .sent hq hw hf hd
  | false =>
    rw [exec_deferred_atOnce nl cfg hw (SportEvent.serviceCall?_callback hq).1]
    cases hd : nl.dump q.parameter with
    | none => rfl
    | some text => exact .atOnce hq hw hd

/-- A call of `advanceSequence` on behalf of an event. -/
theorem Completes.advance {s s₁ : SportState} {run : SequenceRun} {e : SportEvent × Clock}
    {x : SportNode × Except Fault Unit} (h : Completes x (Advance nl cfg s₁ run (e.2 0)))
    (ht : ∀ {s' out}, Advance nl cfg s₁ run (e.2 0) s' out → Transition nl cfg s e s' out) :
    Completes x (Transition nl cfg s e) := by
  obtain ⟨n, f | _⟩ := x
  · exact h
  · exact ht h

theorem handleMode_completes {s : SportState} {clk : Clock} (request : RequestId) (name : String) :
    Completes (exec nl (handleMode nl cfg request name) ⟨s, clk, []⟩)
      (Transition nl cfg s (.mode request name, clk)) := by
  cases hr : (SportEvent.mode request name).refusal? cfg s.host with
  | some x =>
    rw [exec_refused nl cfg (n := ⟨s, clk, []⟩) (e := .mode request name) rfl hr]
    exact .refused hr
  | none =>
    obtain ⟨run, hacc⟩ := SportEvent.accepted?_of_not_refused hr
    rw [exec_handleMode nl cfg (n := ⟨s, clk, []⟩) hacc]
    refine Completes.advance nl cfg (advanceSequence_completes nl cfg rfl) fun hadv => ?_
    exact .accepted hacc hadv

theorem onSequenceTimer_completes {s : SportState} {clk : Clock} (hp : Phase s)
    (ha : s.host.armed = true) :
    Completes (exec nl (onSequenceTimer nl cfg) ⟨s, clk, []⟩)
      (Transition nl cfg s (.timer, clk)) := by
  obtain ⟨run, hrun, -⟩ := hp.active_of_armed ha
  rw [exec_onSequenceTimer nl cfg (n := ⟨s, clk, []⟩) ha]
  refine Completes.advance nl cfg (advanceSequence_completes nl cfg hrun) fun hadv => ?_
  exact .fired ha hrun hadv

theorem responseCallback_completes {s : SportState} {clk : Clock} (hp : Phase s) (msg : Response) :
    Completes (Node.responseCallback nl (Callback.body nl cfg) msg ⟨s, clk, []⟩)
      (Transition nl cfg s (.response msg, clk)) := by
  cases hl : s.client.pending.lookup msg.id with
  | none =>
    rw [Node.responseCallback_none nl _ hl]
    exact .foreign hl
  | some entry =>
    rw [Node.responseCallback_some nl _ hl]
    by_cases hcb : entry.callback = .step
    · obtain ⟨run, st, hrun, hst, -⟩ := hp.step_of_pending (lookup_eq_some_iff.mp hl) hcb
      rw [hcb]
      simp only [Callback.body]
      cases hr : msg.result.ok with
      | false =>
        rw [exec_onStepResult_failed nl cfg run st hrun hst hr]
        have := @Transition.stepFailed nl cfg s msg clk entry run st hl hcb hrun hst hr
        simpa [Completes] using this
      | true =>
        rw [exec_onStepResult_ok nl cfg run st hrun hst hr]
        by_cases hneg : st.waitMsAfter < 0
        · rw [if_pos hneg]
          rfl
        · rw [if_neg hneg]
          have := @Transition.stepAccepted nl cfg s msg clk entry run st hl hcb hrun hst hr (by omega)
          simpa [Completes] using this
    · rw [exec_body nl cfg hcb]
      have := @Transition.replied nl cfg s msg clk entry hl hcb
      simpa [Completes] using this

theorem timeoutReport_eq {h : SportHost} {cb : Callback} (hcb : cb ≠ .step) :
    timeoutReport nl cfg h cb = cb.report nl cfg timeoutResult := by
  cases cb <;> first | rfl | exact absurd rfl hcb

theorem published_notMem_expiry (req : Request) (entry : Option (PendingRequest Callback))
    (h : SportHost) (x : PendingEntry Callback) :
    (Out.published req entry : SportEmission) ∉ expiry nl cfg h x := by
  rw [expiry, List.mem_cons]
  rintro (hp | hp)
  · cases hp
  · revert hp
    cases hcb : x.2.callback with
    | step =>
      unfold timeoutReport
      simp only
      split
      · simp
      · split <;> simp [SequenceRun.answer, answered]
    | _ =>
      rw [timeoutReport_eq nl cfg (by simp)]
      exact published_notMem_report nl cfg req entry _ _

theorem published_notMem_sweep (req : Request) (entry : Option (PendingRequest Callback))
    (h : SportHost) (l : List (PendingEntry Callback)) :
    Out.published req entry ∉ l.map timeoutLog ++ l.flatMap (expiry nl cfg h) := by
  rw [List.mem_append, List.mem_flatMap]
  rintro (hm | ⟨x, -, hx⟩)
  · exact (warnings_timeoutLog l).published_notMem req entry hm
  · exact published_notMem_expiry nl cfg req entry h x hx

/-- The callback of one expired entry. -/
theorem invoke_timeout {n : SportNode} {e : PendingEntry Callback}
    (hstep : e.2.callback = .step →
      ∃ run st, n.host.activeSequence = some run ∧ run.steps[run.index]? = some st) :
    n.invoke nl (Callback.body nl cfg) e.1 e.2 timeoutResult =
      ({ n with host := n.host.swept [e], out := n.out ++ expiry nl cfg n.host e }, .ok ()) := by
  unfold Node.invoke expiry
  by_cases hcb : e.2.callback = .step
  · obtain ⟨run, st, hrun, hst⟩ := hstep hcb
    rw [hcb]
    simp only [Callback.body]
    rw [exec_onStepResult_failed nl cfg (n := n.emit _) run st hrun hst rfl]
    simp [timeoutReport, hrun, hst, SportHost.swept_of_mem List.mem_cons_self hcb]
  · rw [exec_body nl cfg hcb]
    rw [SportHost.swept_cons_of_ne hcb, timeoutReport_eq nl cfg hcb]
    simp [SportHost.swept]
    rfl

/-- The callbacks of a sweep, of which at most one is a step's. -/
theorem invokeAll_timeouts {l : List (PendingEntry Callback)} {n : SportNode}
    (hstep : ∀ e ∈ l, e.2.callback = .step →
      ∃ run st, n.host.activeSequence = some run ∧ run.steps[run.index]? = some st)
    (hone : l.Pairwise fun e e' => ¬ (e.2.callback = .step ∧ e'.2.callback = .step)) :
    n.invokeAll nl (Callback.body nl cfg) l =
      ({ n with host := n.host.swept l, out := n.out ++ l.flatMap (expiry nl cfg n.host) },
        .ok ()) := by
  induction l generalizing n with
  | nil => simp [Node.invokeAll, SportHost.swept]
  | cons e l ih =>
    obtain ⟨hel, hl⟩ := List.pairwise_cons.mp hone
    have hinv := invoke_timeout nl cfg (n := n) (hstep e List.mem_cons_self)
    simp only [timeoutResult] at hinv
    simp only [Node.invokeAll, hinv]
    by_cases hcb : e.2.callback = .step
    · have hrest : ∀ e' ∈ l, e'.2.callback ≠ .step := fun e' he' h' => hel e' he' ⟨hcb, h'⟩
      rw [ih (fun e' he' h' => absurd h' (hrest e' he')) hl]
      have hflat : ∀ h h' : SportHost,
          l.flatMap (expiry nl cfg h) = l.flatMap (expiry nl cfg h') := by
        intro h h'
        unfold expiry
        rw [List.flatMap_congr]
        intro e' he'
        rw [timeoutReport_eq nl cfg (hrest e' he'), timeoutReport_eq nl cfg (hrest e' he')]
      rw [List.flatMap_cons, hflat _ n.host, SportHost.swept_of_mem List.mem_cons_self hcb,
        SportHost.swept_of_mem List.mem_cons_self hcb, SportHost.swept_of_none hrest,
        List.append_assoc]
    · have hsw : n.host.swept [e] = n.host := SportHost.swept_cons_of_ne hcb
      have ih' := ih (n := { n with out := n.out ++ expiry nl cfg n.host e })
        (fun e' he' h' => hstep e' (List.mem_cons_of_mem _ he') h') hl
      simp only [hsw, ih', SportHost.swept_cons_of_ne hcb, List.flatMap_cons, List.append_assoc]

/-- A sweep answers what has expired, and never throws. -/
theorem sweepTimeouts_returns {s : SportState} (hp : Phase s)
    (order : IterationOrder (PendingEntry Callback)) (clk : Clock) :
    ∃ clk', Node.sweepTimeouts nl (Callback.body nl cfg) order ⟨s, clk, []⟩ =
      (⟨⟨{ s.client with pending := s.client.kept order (clk 0).now },
          s.host.swept (s.client.expired order (clk 0).now)⟩, clk',
        (s.client.expired order (clk 0).now).map timeoutLog ++
          (s.client.expired order (clk 0).now).flatMap (expiry nl cfg s.host)⟩, .ok ()) := by
  have hmem : ∀ e ∈ s.client.expired order (clk 0).now, e ∈ s.client.pending.entries := by
    intro e he
    rw [UnitreeApiClient.expired, mem_expiredIn, order.mem_arrange] at he
    exact he.1
  rw [Node.sweepTimeouts_eq]
  split
  · next hnil =>
    -- nothing is pending: the sweep returns before it reads the clock
    have hexp : s.client.expired order (clk 0).now = [] := by
      rw [List.eq_nil_iff_forall_not_mem]
      intro e he
      have := hmem e he
      rw [hnil] at this
      cases this
    have hkept : s.client.kept order (clk 0).now = s.client.pending := by
      unfold UnitreeApiClient.kept
      rw [hexp]
      rfl
    rw [hexp, hkept]
    exact ⟨clk, rfl⟩
  · rw [invokeAll_timeouts nl cfg]
    · exact ⟨clk.tail, by simp⟩
    · intro e he hcb
      obtain ⟨run, st, hrun, hst, -⟩ := hp.step_of_pending (hmem e he) hcb
      exact ⟨run, st, hrun, hst⟩
    · refine (s.client.nodup_expired order (clk 0).now).imp_of_mem ?_
      rintro e e' he he' hne ⟨h, h'⟩
      exact hne (hp.step_unique (hmem e he) (hmem e' he') h h')

/-- The step of a sweep. -/
theorem sweep_step {s : SportState} (hp : Phase s) (order : IterationOrder (PendingEntry Callback))
    (clk : Clock) :
    sportBridgeStep nl cfg s (.sweep order, clk) =
      some (⟨{ s.client with pending := s.client.kept order (clk 0).now },
          s.host.swept (s.client.expired order (clk 0).now)⟩,
        (s.client.expired order (clk 0).now).map timeoutLog ++
          (s.client.expired order (clk 0).now).flatMap (expiry nl cfg s.host)) := by
  obtain ⟨clk', hret⟩ := sweepTimeouts_returns nl cfg hp order clk
  exact (nodeStep_eq_some nl _).mpr ⟨_, hret, rfl, rfl⟩

theorem sweepTimeouts_completes {s : SportState} {clk : Clock} (hp : Phase s)
    (order : IterationOrder (PendingEntry Callback)) :
    Completes (Node.sweepTimeouts nl (Callback.body nl cfg) order ⟨s, clk, []⟩)
      (Transition nl cfg s (.sweep order, clk)) := by
  obtain ⟨clk', hret⟩ := sweepTimeouts_returns nl cfg hp order clk
  rw [hret]
  exact .swept

/-- **Inversion.**  In a phase of the sequencer, every event the executor can run
completes as a `Transition` or ends in an exception. -/
theorem perform_completes {s : SportState} (hp : Phase s) {e : SportEvent × Clock}
    (he : e.1.enabled s.host = true) :
    Completes (SportState.perform nl cfg s e) (Transition nl cfg s e) := by
  obtain ⟨e, clk⟩ := e
  simp only [SportState.perform, State.perform]
  cases e with
  | mode request name => exact handleMode_completes nl cfg request name
  | speedLevel request level =>
    simp only [SportEvent.toNode, Node.perform, handleSpeedLevel]
    split
    · next h => exact .refused (by simp only [SportEvent.refusal?, if_pos h])
    · next h =>
      have hq : (SportEvent.speedLevel request level).serviceCall? nl cfg = some _ := if_neg h
      exact deferred_completes nl cfg hq
  | switchJoystick request flag =>
    have hq : (SportEvent.switchJoystick request flag).serviceCall? nl cfg = some _ := rfl
    exact deferred_completes nl cfg hq
  | euler request roll pitch yaw =>
    have hq : (SportEvent.euler request roll pitch yaw).serviceCall? nl cfg = some _ := rfl
    exact deferred_completes nl cfg hq
  | pose request flag =>
    have hq : (SportEvent.pose request flag).serviceCall? nl cfg = some _ := rfl
    exact deferred_completes nl cfg hq
  | getAutoRecovery request =>
    simp only [SportEvent.toNode, Node.perform, handleGetAutoRecovery]
    split
    · next h => exact .refused (by simp only [SportEvent.refusal?, if_pos h])
    · next h =>
      have hq : (SportEvent.getAutoRecovery request).serviceCall? nl cfg = some _ := if_neg h
      exact deferred_completes nl cfg hq
  | cmdVel msg =>
    simp only [SportEvent.toNode, Node.perform, cmdVelCallback, exec_send, Node.send_eq]
    cases hd : nl.dump (xyzJson msg.linearX msg.linearY msg.angularZ) with
    | none => rfl
    | some text => exact .cmdVel hd
  | response msg => exact responseCallback_completes nl cfg hp msg
  | sweep order => exact sweepTimeouts_completes nl cfg hp order
  | timer => exact onSequenceTimer_completes nl cfg hp he

theorem sportBridgeStep_transition {s s' : SportState} (hp : Phase s) {e : SportEvent × Clock}
    {out : List SportEmission} (h : sportBridgeStep nl cfg s e = some (s', out)) :
    Transition nl cfg s e s' out := by
  unfold sportBridgeStep at h
  split at h
  · next he =>
    obtain ⟨n, hn, rfl, rfl⟩ := (nodeStep_eq_some nl _).mp h
    have := perform_completes nl cfg hp he
    rw [SportState.perform, hn] at this
    exact this
  · cases h

end

/-! ## What a transition publishes -/

section
variable {nl : Nlohmann} {cfg : SportConfig} {s s' : SportState} {out : List SportEmission}
  {req : Request} {entry : Option (PendingRequest Callback)}

theorem Advance.published {run : SequenceRun} {rd : Reading} (h : Advance nl cfg s run rd s' out)
    (hp : Out.published req entry ∈ out) :
    ∃ st, run.steps[run.index]? = some st ∧ req.apiId = st.apiId ∧ req.noreply = false ∧
      nl.dump st.parameter = some req.parameter ∧ ∀ x, entry = some x → x.callback = .step := by
  cases h with
  | finished _ => simp [SequenceRun.answer, answered] at hp
  | notSent _ _ _ => simp [SequenceRun.answer, answered, dropped] at hp
  | @sent st text hst _ _ hd =>
    rw [List.mem_singleton, Out.published.injEq] at hp
    obtain ⟨rfl, rfl⟩ := hp
    refine ⟨st, hst, rfl, rfl, hd, ?_⟩
    rintro x ⟨⟩
    rfl
  | @atOnce st text hst _ hd _ =>
    simp only [List.mem_cons, Out.published.injEq, reduceCtorEq, List.not_mem_nil, or_false] at hp
    obtain ⟨rfl, rfl⟩ := hp
    exact ⟨st, hst, rfl, rfl, hd, by simp⟩

/-- Only velocity messages, services and the sequencer publish: a reply and a sweep do not. -/
theorem Transition.published_cases {e : SportEvent × Clock} (ht : Transition nl cfg s e s' out)
    (hp : Out.published req entry ∈ out) :
    (∃ msg, e.1 = .cmdVel msg ∧ entry = none) ∨
    (∃ q, e.1.serviceCall? nl cfg = some q ∧ ∀ x, entry = some x →
      out = [.published req entry] ∧ x.callback = q.callback) ∨
    ∃ s₁ run, s₁.host.activeSequence = some run ∧ Advance nl cfg s₁ run (e.2 0) s' out ∧
      (e.1.accepted? cfg s.host = some run ∨ s.host.activeSequence = some run) := by
  have hmismatch : ∀ (msg : Response) (x : PendingRequest Callback),
      (Out.published req entry : SportEmission) ∉ mismatchLog msg x :=
    fun msg x => (warnings_mismatchLog msg x).published_notMem req entry
  cases ht with
  | refused _ => simp [answered] at hp
  | notSent _ _ _ => simp [answered, dropped] at hp
  | @sent e clk q text hq _ _ _ =>
    right; left
    rw [List.mem_singleton, Out.published.injEq] at hp
    obtain ⟨rfl, rfl⟩ := hp
    refine ⟨q, hq, ?_⟩
    rintro x ⟨⟩
    exact ⟨rfl, rfl⟩
  | @atOnce e clk q text hq _ _ =>
    right; left
    rcases List.mem_cons.mp hp with hp | hp
    · rw [Out.published.injEq] at hp
      obtain ⟨rfl, rfl⟩ := hp
      exact ⟨q, hq, by simp⟩
    · rcases List.mem_cons.mp hp with hp | hp
      · cases hp
      · exact absurd hp (published_notMem_report nl cfg req entry _ _)
  | @cmdVel msg clk text _ =>
    rw [List.mem_singleton, Out.published.injEq] at hp
    exact .inl ⟨msg, rfl, hp.2⟩
  | foreign _ => simp at hp
  | replied _ _ =>
    rcases List.mem_append.mp hp with hp | hp
    · exact absurd hp (hmismatch _ _)
    · rcases List.mem_cons.mp hp with hp | hp
      · cases hp
      · exact absurd hp (published_notMem_report nl cfg req entry _ _)
  | stepAccepted _ _ _ _ _ _ =>
    rcases List.mem_append.mp hp with hp | hp
    · exact absurd hp (hmismatch _ _)
    · simp at hp
  | stepFailed _ _ _ _ _ =>
    rcases List.mem_append.mp hp with hp | hp
    · exact absurd hp (hmismatch _ _)
    · simp [SequenceRun.answer, answered] at hp
  | swept => exact absurd hp (published_notMem_sweep nl cfg req entry _ _)
  | @accepted e clk run _ _ hacc hadv =>
    exact .inr (.inr ⟨⟨s.client, { s.host with activeSequence := some run }⟩, run, rfl, hadv, .inl hacc⟩)
  | fired _ hact hadv =>
    exact .inr (.inr ⟨⟨s.client, s.host.cancelTimer⟩, _, hact, hadv, .inr hact⟩)

end

end Go2
