import Mathlib.Algebra.Order.BigOperators.Group.List
import Mathlib.Algebra.Ring.Int.Defs
import Go2Driver.Deadlines
import Go2Driver.Truthful
import Go2Driver.Transitions

/-!
# Every request is answered in time

On an executor that is late by a bounded amount both bridges answer each service request
within a time that is known when it is received: a request that was sent within the
time-out and the sweep period (`OnTime.answered`), a mode request within the sum of what
the steps of its preset may take (`stepBudget`, `OnBudget`).
-/

namespace Go2

open Tables Runs Timing

/-! ## A service that sends one request -/

/-- The time from the start of an event that makes a call to the event that settles it. -/
def callBudget (timeoutMs longest late : Int) : Int := longest + timeoutMs * 1000000 + sweepSlack late

section
variable {κ θ ω ε ρ : Type} {nl : Nlohmann} {body : κ → ApiResult → Prog κ θ ω Unit}
  {step : State κ θ → ε → Option (State κ θ × List (Out κ ω))} {f : ε → NodeEvent κ θ ω × Clock}
  {timeoutMs since longest late : Int} {host₀ : θ} {s : State κ θ}
  {tr₁ mid rest : TimedTrace (State κ θ) ε (Out κ ω)} {st x : TimedStep (State κ θ) ε (Out κ ω)}
  {e : PendingEntry κ} {answer? : ω → Option (RequestId × ρ)} {q : ServiceCall κ ρ}

/-- A call whose callback answers a service request has answered it before any event that
is started later. -/
theorem OnTime.answered (hon : OnTime f since longest late (tr₁ ++ st :: (mid ++ x :: rest)))
    (hi : Implements nl body step f)
    (h : Run (timed step) (State.start timeoutMs host₀) (tr₁ ++ st :: (mid ++ x :: rest)) s)
    (ht : 0 ≤ timeoutMs) (he : e ∈ calls st.out) (hcb : e.2.callback = q.callback)
    (hans : Answers answer? nl body q)
    (hlate : startedAt st + callBudget timeoutMs longest late < startedAt x) :
    ∃ y ∈ mid, ∃ result, (q.request, q.respond result) ∈ answersOf answer? y.out := by
  have htakes := (hon.inOrder.takes st (by simp)).2
  unfold callBudget at hlate
  obtain ⟨before, y, after, result, rfl, -, hinv, -⟩ := hon.settled_before hi h ht he (by omega)
  have hassoc : tr₁ ++ st :: ((before ++ y :: after) ++ x :: rest) =
      (tr₁ ++ st :: before) ++ y :: (after ++ x :: rest) := by simp
  rw [hassoc] at h
  have hlet := outputFor_settled (hi.timed _ _ _ (Run.split h).2.1) hinv
  have hmem : (q.request, q.respond result) ∈ answersOf answer? (outputFor e.1 y.out) := by
    rw [hlet.answers hcb hans]
    exact List.mem_cons_self
  obtain ⟨o, ho, hoa⟩ := mem_answersOf.mp hmem
  exact ⟨y, by simp, result, mem_answersOf.mpr ⟨o, under_subset_self _ _ _ ho, hoa⟩⟩

end

/-! ## The steps of a preset -/

abbrev SportTimedStep := TimedStep SportState (SportEvent × Clock) SportEmission
abbrev SportTimedTrace := List SportTimedStep

/-- The sport bridge on an executor late by at most `late`, which also fires its sequence timer. -/
structure SportOnTime (nl : Nlohmann) (cfg : SportConfig) (since longest late : Int)
    (tr : SportTimedTrace) : Prop
    extends OnTime (fun e : SportEvent × Clock => (e.1.toNode nl cfg, e.2)) since longest late tr where
  timer : Punctual (fun out => (timersIn out).getLast?.map (· * 1000000)) (·.host.armed) late none tr

theorem SportOnTime.left {nl : Nlohmann} {cfg : SportConfig} {since longest late : Int}
    {tr₁ tr₂ : SportTimedTrace} (h : SportOnTime nl cfg since longest late (tr₁ ++ tr₂)) :
    SportOnTime nl cfg since longest late tr₁ where
  toOnTime := h.toOnTime.left
  timer := h.timer.left

/-- What a step may take: the time to its result, its wait, and the lateness and length of
the two events in between. -/
def stepBudget (timeoutMs longest late : Int) (st : SportCommandStep) : Int :=
  timeoutMs * 1000000 + sweepSlack late + longest + (max st.waitMsAfter 0 * 1000000 + late + longest)

def budget (timeoutMs longest late : Int) (steps : List SportCommandStep) : Int :=
  (steps.map (stepBudget timeoutMs longest late)).sum

section
variable {timeoutMs longest late : Int} {steps : List SportCommandStep}

theorem stepBudget_nonneg (ht : 0 ≤ timeoutMs) (hlong : 0 ≤ longest) (hlate : 0 ≤ late)
    (st : SportCommandStep) : 0 ≤ stepBudget timeoutMs longest late st := by
  unfold stepBudget sweepSlack sweepPeriodMs
  omega

theorem budget_nonneg (ht : 0 ≤ timeoutMs) (hlong : 0 ≤ longest) (hlate : 0 ≤ late) :
    0 ≤ budget timeoutMs longest late steps := by
  refine List.sum_nonneg fun b hb => ?_
  obtain ⟨st, -, rfl⟩ := List.mem_map.mp hb
  exact stepBudget_nonneg ht hlong hlate st

theorem budget_take_succ {i : Nat} {st : SportCommandStep} (hst : steps[i]? = some st) :
    budget timeoutMs longest late (steps.take (i + 1)) =
      budget timeoutMs longest late (steps.take i) + stepBudget timeoutMs longest late st := by
  unfold budget
  rw [List.take_add_one, hst]
  simp

theorem budget_take_le (ht : 0 ≤ timeoutMs) (hlong : 0 ≤ longest) (hlate : 0 ≤ late) (i : Nat) :
    budget timeoutMs longest late (steps.take i) ≤ budget timeoutMs longest late steps := by
  have hsplit : budget timeoutMs longest late steps = budget timeoutMs longest late (steps.take i) +
      budget timeoutMs longest late (steps.drop i) := by
    unfold budget
    rw [← List.sum_append, ← List.map_append, List.take_append_drop]
  have : 0 ≤ budget timeoutMs longest late (steps.drop i) := budget_nonneg ht hlong hlate
  omega

end

section
variable {nl : Nlohmann} {cfg : SportConfig} {s s' : SportState} {e : SportEvent} {clk : Clock}
  {out : List SportEmission}

/-- A sequence owes the answer to its mode request until it gives it. -/
theorem Transition.active_after {e : SportEvent × Clock} (ht : Transition nl cfg s e s' out)
    (hp : Phase s) (hf : ∀ r, s.client.freshId r ∉ s.client.pending) {r : RequestId}
    (hr : (.mode, r) ∈ owed s ++ e.1.received) (hno : (.mode, r) ∉ answersIn out) :
    ∃ run, s'.host.activeSequence = some run := by
  have howed : (.mode, r) ∈ owed s' :=
    (List.mem_append.mp ((ht.conserves hp hf).mem_iff.mp hr)).resolve_left hno
  rcases List.mem_append.mp howed with hdebt | hhost
  · obtain ⟨x, -, hx⟩ := List.mem_flatMap.mp hdebt
    cases hcb : x.2.callback <;> rw [hcb] at hx <;> simp [Callback.owes] at hx
  · unfold SportHost.owes at hhost
    split at hhost
    · next run hrun => exact ⟨run, hrun⟩
    · cases hhost

end

/-- What the steps `seg` have come to: the step that is awaited times out, or the timer
that was created last is due, within the budget of the steps done, counted from `b`. -/
inductive OnBudget (timeoutMs longest late b : Int) (r : RequestId) (steps : List SportCommandStep)
    (seg : SportTimedTrace) (s : SportState) : Prop
  | awaiting {run : SequenceRun} {e : PendingEntry Callback} : s.host.activeSequence = some run →
      run.requestId = r → run.steps = steps → e ∈ s.client.pending.entries → e.2.callback = .step →
      e.2.deadline ≤ b + budget timeoutMs longest late (steps.take run.index) + timeoutMs * 1000000 →
      OnBudget timeoutMs longest late b r steps seg s
  | delaying {run : SequenceRun} {before after : SportTimedTrace} {a : SportTimedStep} {w : Int} :
      s.host.activeSequence = some run → run.requestId = r → run.steps = steps →
      s.host.armed = true → seg = before ++ a :: after → timersIn a.out = [w] →
      (∀ y ∈ after, timersIn y.out = []) →
      doneAt a + w * 1000000 + late + longest ≤
        b + budget timeoutMs longest late (steps.take run.index) →
      OnBudget timeoutMs longest late b r steps seg s

section
variable {nl : Nlohmann} {cfg : SportConfig} {timeoutMs since longest late b : Int} {r : RequestId}
  {steps : List SportCommandStep} {s : SportState} {tr₁ seg : SportTimedTrace} {y : SportTimedStep}

/-- One call of `advanceSequence`, done within the budget, that does not end the sequence. -/
theorem Advance.onBudget {s₁ s' : SportState} {run run' : SequenceRun} {rd : Reading}
    (hadv : Advance nl cfg s₁ run rd s' y.out) (hrun : run.requestId = r) (hsteps : run.steps = steps)
    (hact : s₁.host.activeSequence = some run) (hact' : s'.host.activeSequence = some run')
    (hf : s₁.client.freshId rd ∉ s₁.client.pending) (htimeout : s₁.client.timeoutMs = timeoutMs)
    (hread : rd.now ≤ doneAt y) (ht : 0 ≤ timeoutMs) (hlong : 0 ≤ longest) (hlate : 0 ≤ late)
    (hdone : doneAt y ≤ b + budget timeoutMs longest late (steps.take run.index)) :
    OnBudget timeoutMs longest late b r steps (seg ++ [y]) s' := by
  generalize hout : y.out = out at hadv
  cases hadv with
  | finished _ => cases hact'
  | notSent _ _ _ => cases hact'
  | @sent st text hst _ _ _ =>
    refine .awaiting (e := ⟨s₁.client.freshId rd, s₁.client.newEntry rd st.apiId .step⟩) hact hrun hsteps
      ?_ rfl ?_
    · rw [entries_afterCall hf]
      exact List.mem_cons_self
    · show rd.now + s₁.client.timeoutMs * 1000000 ≤ _
      rw [htimeout]
      omega
  | @atOnce st text hst _ _ hwait =>
    subst hsteps
    refine .delaying (w := st.waitMsAfter) rfl hrun rfl rfl (rfl : seg ++ [y] = seg ++ y :: [])
      ?_ (by simp) ?_
    · rw [hout]
      rfl
    · show doneAt y + _ + _ + _ ≤ b + budget timeoutMs longest late (run.steps.take (run.index + 1))
      rw [budget_take_succ hst]
      unfold stepBudget sweepSlack sweepPeriodMs
      omega

/-- **An event keeps to the budget** until the sequence is answered. -/
theorem OnBudget.step
    (h : Run (timed (sportBridgeStep nl cfg)) (SportState.start timeoutMs) (tr₁ ++ seg ++ [y]) s)
    (hon : SportOnTime nl cfg since longest late (tr₁ ++ seg ++ [y])) (ht : 0 ≤ timeoutMs) (hlate : 0 ≤ late)
    (hb : OnBudget timeoutMs longest late b r steps seg y.pre) (hno : (.mode, r) ∉ answersIn y.out) :
    OnBudget timeoutMs longest late b r steps (seg ++ [y]) y.post := by
  obtain ⟨hrun, hstep, -⟩ := Run.snoc_iff.mp h
  have hsport : SportRun nl cfg timeoutMs _ y.pre := run_untimed hrun
  have hp := hsport.phase
  have hf := hsport.freshId_notMem
  have htr := sportBridgeStep_transition nl cfg hp hstep
  have hp' := hp.step htr hf
  have htimeout : y.pre.client.timeoutMs = timeoutMs :=
    timeoutMs_run (Run.map _ sportBridge_implements hsport)
  have htakes := hon.inOrder.takes y (by simp)
  have hread := (hon.readings y (by simp) 0).2
  have hlong : 0 ≤ longest := by omega
  obtain ⟨run', hact'⟩ := htr.active_after hp hf (r := r) (by
    refine List.mem_append_left _ (List.mem_append_right _ ?_)
    cases hb with
    | awaiting hact hr _ _ _ _ => rw [SportHost.owes_eq hact, hr]; exact List.mem_singleton_self _
    | delaying hact hr _ _ _ _ _ _ => rw [SportHost.owes_eq hact, hr]; exact List.mem_singleton_self _) hno
  obtain ⟨⟨e, clk⟩, hev⟩ : ∃ ev, y.event.1 = ev := ⟨_, rfl⟩
  rw [hev] at htr hread
  cases htr.continues hp hf hact' with
  | kept hact₀ hhost hkept htimers =>
    cases hb with
    | @awaiting run x hact hr hsteps hx hcb hdl =>
      rw [← hhost] at hact
      refine .awaiting hact hr hsteps ?_ hcb hdl
      -- the step is still awaited: no timer is armed
      cases hp' with
      | idle hnone _ _ => rw [hact'] at hnone; cases hnone
      | awaiting _ _ id entry _ _ _ _ hl hcb' _ _ =>
        have hmem := lookup_eq_some_iff.mp hl
        rw [hp.step_unique hx (hkept _ hmem hcb') hcb hcb']
        exact hmem
      | delaying _ _ _ _ _ harm _ =>
        obtain ⟨-, -, -, -, -, -, hidle⟩ := hp.step_of_pending hx hcb
        rw [hhost, hidle] at harm
        cases harm
    | @delaying run before after a w hact hr hsteps harm hseg hw hafter hdue =>
      rw [← hhost] at hact harm
      have hseg' : seg ++ [y] = before ++ a :: (after ++ [y]) := by
        rw [hseg, List.append_assoc, List.cons_append]
      refine .delaying hact hr hsteps harm hseg' hw ?_ hdue
      intro z hz
      rcases List.mem_append.mp hz with hz | hz
      · exact hafter z hz
      · rw [List.mem_singleton.mp hz]
        exact htimers
  | advanced hadv hclient hact₁ _ _ hfrom =>
    rcases hfrom with ⟨harm, hact₀⟩ | hacc
    · cases hb with
      | @awaiting run x _ _ _ hx hcb _ =>
        obtain ⟨-, -, -, -, -, -, hnot⟩ := hp.step_of_pending hx hcb
        rw [harm] at hnot
        cases hnot
      | @delaying run before after a w hact hr hsteps _ hseg hw hafter hdue =>
        rw [hact₀, Option.some.injEq] at hact
        subst hact
        have htimer := hon.timer
        rw [hseg, show tr₁ ++ (before ++ a :: after) ++ [y] =
          (tr₁ ++ before) ++ a :: (after ++ y :: []) by simp] at htimer
        have hstart := htimer.le (w := w * 1000000) (by rw [hw]; rfl)
          (fun z hz => by rw [hafter z hz]; rfl) harm
        refine hadv.onBudget hr hsteps hact₁ hact' (by rw [hclient]; exact hf _) (by rw [hclient]; exact htimeout)
          hread ht hlong hlate ?_
        omega
    · have hnone := (SportEvent.accepted?_spec hacc).2.1
      cases hb with
      | awaiting hact _ _ _ _ _ => rw [hnone] at hact; cases hact
      | delaying hact _ _ _ _ _ _ _ => rw [hnone] at hact; cases hact
  | @accepted msg entry run st _ hl hcb hact₀ hst hok hpend hhost htimers =>
    cases hb with
    | delaying _ _ _ harm _ _ _ _ =>
      obtain ⟨-, -, -, -, -, hidle⟩ := hp.active_of_armed harm
      exact absurd hcb (hidle _ (lookup_eq_some_iff.mp hl))
    | @awaiting run₁ x hact hr hsteps hx hcbx hdl =>
      rw [hact₀, Option.some.injEq] at hact
      subst hact hsteps
      have hstart := hon.toOnTime.pending_until sportBridge_implements h ht hx
      refine .delaying hact' hr rfl ?_ (rfl : seg ++ [y] = seg ++ y :: []) htimers (by simp) ?_
      · rw [hhost]
        rfl
      · show doneAt _ + _ + _ + _ ≤ b + budget timeoutMs longest late (run.steps.take (run.index + 1))
        rw [budget_take_succ hst]
        unfold stepBudget
        omega

theorem onBudget_run {st : SportTimedStep} {mid : SportTimedTrace} {run : SequenceRun}
    (h : Run (timed (sportBridgeStep nl cfg)) (SportState.start timeoutMs) (tr₁ ++ st :: mid) s)
    (hon : SportOnTime nl cfg since longest late (tr₁ ++ st :: mid)) (ht : 0 ≤ timeoutMs) (hlate : 0 ≤ late)
    (hacc : st.event.1.1.accepted? cfg st.pre.host = some run)
    (hno : ∀ y ∈ st :: mid, (.mode, run.requestId) ∉ answersIn y.out) :
    OnBudget timeoutMs longest late (doneAt st) run.requestId run.steps (st :: mid) s := by
  induction mid using List.reverseRecOn generalizing s with
  | nil =>
    obtain ⟨hrun, hstep, rfl⟩ := Run.snoc_iff.mp h
    have hsport : SportRun nl cfg timeoutMs _ st.pre := run_untimed hrun
    have hp := hsport.phase
    have htr := sportBridgeStep_transition nl cfg hp hstep
    have htimeout : st.pre.client.timeoutMs = timeoutMs :=
      timeoutMs_run (Run.map _ sportBridge_implements hsport)
    have htakes := hon.inOrder.takes st (by simp)
    have hread := (hon.readings st (by simp) 0).2
    obtain ⟨hev, hnone, -, -, -, hindex, -, -⟩ := SportEvent.accepted?_spec hacc
    obtain ⟨run', hact'⟩ := htr.active_after hp hsport.freshId_notMem (r := run.requestId)
      (List.mem_append_right _ (by rw [hev]; exact List.mem_singleton_self _)) (hno st List.mem_cons_self)
    obtain ⟨⟨e, clk⟩, hevent⟩ : ∃ ev, st.event.1 = ev := ⟨_, rfl⟩
    rw [hevent] at htr hread hacc
    cases htr.continues hp hsport.freshId_notMem hact' with
    | kept hact _ _ _ => rw [hnone] at hact; cases hact
    | accepted _ _ _ hact _ _ _ _ _ => rw [hnone] at hact; cases hact
    | advanced hadv hclient hact₁ _ _ hfrom =>
      rcases hfrom with ⟨-, hact⟩ | hacc'
      · rw [hnone] at hact
        cases hact
      · rw [hacc, Option.some.injEq] at hacc'
        subst hacc'
        show OnBudget timeoutMs longest late _ _ _ ([] ++ [st]) _
        refine hadv.onBudget rfl rfl hact₁ hact' (by rw [hclient]; exact hsport.freshId_notMem _)
          (by rw [hclient]; exact htimeout) hread ht (by omega) hlate ?_
        rw [hindex]
        simp [budget]
  | append_singleton mid y ih =>
    have hassoc : tr₁ ++ st :: (mid ++ [y]) = tr₁ ++ (st :: mid) ++ [y] := by simp
    rw [hassoc] at h hon
    obtain ⟨hrun, -, rfl⟩ := Run.snoc_iff.mp h
    exact (ih hrun hon.left fun z hz => hno z (List.cons_subset_cons _ (List.subset_append_left _ _) hz)).step h hon ht hlate (hno y (by simp))

/-- A mode request has its answer within the budget of its preset. -/
theorem mode_in_time {st x : SportTimedStep} {mid rest : SportTimedTrace} {run : SequenceRun}
    (h : Run (timed (sportBridgeStep nl cfg)) (SportState.start timeoutMs)
      (tr₁ ++ st :: (mid ++ x :: rest)) s)
    (hon : SportOnTime nl cfg since longest late (tr₁ ++ st :: (mid ++ x :: rest))) (ht : 0 ≤ timeoutMs)
    (hlate : 0 ≤ late) (hacc : st.event.1.1.accepted? cfg st.pre.host = some run)
    (hx : doneAt st + budget timeoutMs longest late run.steps < startedAt x) :
    ∃ y ∈ st :: mid, (.mode, run.requestId) ∈ answersIn y.out := by
  by_contra hno
  have hassoc : tr₁ ++ st :: (mid ++ x :: rest) = (tr₁ ++ st :: mid) ++ x :: rest := by simp
  rw [hassoc] at h hon
  obtain ⟨hrun, -, -⟩ := Run.split h
  have hlong : 0 ≤ longest := by
    have := hon.inOrder.takes x (by simp)
    omega
  cases onBudget_run hrun hon.left ht hlate hacc (fun y hy ha => hno ⟨y, hy, ha⟩) with
  | @awaiting run' e hact _ hsteps he hcb hdl =>
    have hsport : SportRun nl cfg timeoutMs _ x.pre := run_untimed hrun
    obtain ⟨run₁, cur, hact₁, hcur, -⟩ := hsport.phase.step_of_pending he hcb
    rw [hact, Option.some.injEq] at hact₁
    subst hact₁
    rw [hsteps] at hcur
    have hstart := hon.toOnTime.pending_until sportBridge_implements h ht he
    have hle : budget timeoutMs longest late (run.steps.take (run'.index + 1)) ≤ _ :=
      budget_take_le ht hlong hlate _
    rw [budget_take_succ hcur] at hle
    unfold stepBudget at hle
    omega
  | @delaying run' before after a w _ _ _ harm hseg hw hafter hdue =>
    have htimer := hon.timer
    rw [hseg, show tr₁ ++ (before ++ a :: after) ++ x :: rest =
      (tr₁ ++ before) ++ a :: (after ++ x :: rest) by simp] at htimer
    have hstart := htimer.le (w := w * 1000000) (by rw [hw]; rfl)
      (fun z hz => by rw [hafter z hz]; rfl) harm
    have hle : budget timeoutMs longest late (run.steps.take run'.index) ≤ _ :=
      budget_take_le ht hlong hlate _
    omega

/-! ## Every request -/

/-- A request is answered by its own event, is a call, or starts a sequence. -/
theorem Transition.received_cases {s s' : SportState} {e : SportEvent × Clock} {out : List SportEmission}
    (ht : Transition nl cfg s e s' out) {d : Debt} (hd : d ∈ e.1.received) :
    d ∈ answersIn out ∨
    (∃ q x, e.1.serviceCall? nl cfg = some q ∧ d = (q.refused.service, q.request) ∧ x ∈ calls out ∧
      x.2.callback = q.callback) ∨
    ∃ run, e.1.accepted? cfg s.host = some run ∧ d = (.mode, run.requestId) := by
  cases ht with
  | refused hr =>
    rw [SportEvent.refusal?_received hr] at hd
    exact .inl hd
  | accepted hacc _ =>
    rw [(SportEvent.accepted?_spec hacc).1] at hd
    exact .inr (.inr ⟨_, hacc, List.mem_singleton.mp hd⟩)
  | notSent hq _ _ =>
    rw [(SportEvent.serviceCall?_owes hq).2] at hd
    exact .inl hd
  | sent hq _ _ _ =>
    rw [(SportEvent.serviceCall?_owes hq).2] at hd
    exact .inr (.inl ⟨_, _, hq, List.mem_singleton.mp hd, List.mem_cons_self, rfl⟩)
  | @atOnce _ _ q _ hq _ _ =>
    rw [← (SportEvent.serviceCall?_owes hq).1] at hd
    left
    show d ∈ answersIn (q.callback.report nl cfg ⟨true, 0, ""⟩)
    rwa [answersIn_report]
  | _ => cases hd

theorem mem_answersIn {L : List SportEmission} {r : RequestId} {resp : SportResponse}
    (h : (r, resp) ∈ answersOf SportOut.answer? L) : (resp.service, r) ∈ answersIn L := by
  obtain ⟨o, ho, hoa⟩ := mem_answersOf.mp h
  refine List.mem_filterMap.mpr ⟨_, ho, ?_⟩
  cases o with
  | answer r' resp' =>
    cases hoa
    rfl
  | _ => cases hoa

/-- The time from the start of the event that received a request to that of the one that answers it. -/
def answerBudget (cfg : SportConfig) (timeoutMs longest late : Int) : SportEvent → Int
  | .mode _ name => longest + budget timeoutMs longest late ((cfg.presets.lookup name).getD [])
  | _ => callBudget timeoutMs longest late

/-- **Every request is answered in time.**  In a run of the sport bridge, with
`wait_for_response` or without, on an executor that is late by at most `late`: a request
has been answered before any event that is started later than its budget. -/
theorem answered_in_time {tr : SportTimedTrace} {st x : SportTimedStep} {mid rest : SportTimedTrace}
    (h : Run (timed (sportBridgeStep nl cfg)) (SportState.start timeoutMs) tr s)
    (hon : SportOnTime nl cfg since longest late tr) (ht : 0 ≤ timeoutMs) (hlate : 0 ≤ late)
    (htr : tr = tr₁ ++ st :: (mid ++ x :: rest)) {d : Debt} (hd : d ∈ st.event.1.1.received)
    (hx : startedAt st + answerBudget cfg timeoutMs longest late st.event.1.1 < startedAt x) :
    ∃ y ∈ st :: mid, d ∈ answersIn y.out := by
  subst htr
  obtain ⟨hrun, hstep, -⟩ := Run.split h
  have hsport : SportRun nl cfg timeoutMs _ st.pre := run_untimed hrun
  have htr := sportBridgeStep_transition nl cfg hsport.phase hstep
  have htakes := (hon.inOrder.takes st (by simp)).2
  rcases htr.received_cases hd with hown | ⟨q, e, hq, rfl, he, hcb⟩ | ⟨run, hacc, rfl⟩
  · exact ⟨st, List.mem_cons_self, hown⟩
  · have hbudget : answerBudget cfg timeoutMs longest late st.event.1.1 =
        callBudget timeoutMs longest late := by
      generalize st.event.1.1 = ev at hq
      cases ev <;> first | rfl | cases hq
    rw [hbudget] at hx
    obtain ⟨y, hy, result, hans⟩ := hon.toOnTime.answered sportBridge_implements h ht he hcb
      (SportEvent.serviceCall?_answers hq) hx
    refine ⟨y, List.mem_cons_of_mem _ hy, ?_⟩
    rw [← SportEvent.serviceCall?_respond hq result]
    exact mem_answersIn hans
  · obtain ⟨hev, -, hlookup, -⟩ := SportEvent.accepted?_spec hacc
    refine mode_in_time h hon ht hlate hacc ?_
    rw [hev, answerBudget, hlookup, Option.getD_some] at hx
    omega

end

def helloEvents : List ((SportEvent × Clock) × Span) := [
  ((.mode ⟨[], 1⟩ "hello", .at 5 0), ⟨0, 10⟩), ((.response ⟨5, 1016, 0, ""⟩, .at 0 30), ⟨30, 40⟩),
  ((.timer, .at 0 45), ⟨45, 50⟩), ((.sweep listOrder, .at 0 90000000), ⟨90000000, 90000010⟩),
  ((.sweep listOrder, .at 0 180000000), ⟨180000000, 180000010⟩),
  ((.sweep listOrder, .at 0 270000000), ⟨270000000, 270000010⟩)]

/-- A preset of one step, its reply and its timer, with the sweeps beside. -/
def helloOnTime : SportTimedTrace × SportState :=
  execute (timed (sportBridgeStep .small (.ofParameters initPresets true defaultBlockedModes))) (.start 100)
    helloEvents

theorem answered_in_time_hello :
    ∃ y ∈ helloOnTime.1.take 5, (.mode, ⟨[], 1⟩) ∈ answersIn y.out := by
  have hon : SportOnTime .small (.ofParameters initPresets true defaultBlockedModes) 0 10 10
      helloOnTime.1 :=
    { inOrder := by decide
      readings := by
        intro st hst i
        have := event_mem_of_mem_execute hst
        simp only [helloEvents, List.mem_cons, List.not_mem_nil, or_false] at this
        rcases this with h | h | h | h | h | h <;> simp [startedAt, doneAt, h, Clock.at]
      sweeps := by decide
      timer := by decide }
  have hrun : Run (timed (sportBridgeStep .small (.ofParameters initPresets true defaultBlockedModes)))
      (.start 100)
      ([] ++ helloOnTime.1.get ⟨0, by decide⟩ :: ((helloOnTime.1.drop 1).take 4 ++
        helloOnTime.1.get ⟨5, by decide⟩ :: [])) helloOnTime.2 := Run.execute _ _ helloEvents
  exact answered_in_time hrun hon (by decide) (by decide) rfl List.mem_cons_self (by decide)

/-! ## The robot state bridge -/

/-- The same of the robot state bridge. -/
theorem robot_answered_in_time {nl : Nlohmann} {timeoutMs since longest late : Int} {s : RobotState}
    {tr tr₁ mid rest : TimedTrace RobotState (RobotEvent × Clock) RobotEmission}
    {st x : TimedStep RobotState (RobotEvent × Clock) RobotEmission}
    (h : Run (timed (robotStateBridgeStep nl)) (State.start timeoutMs ()) tr s)
    (hon : OnTime (fun e : RobotEvent × Clock => (e.1.toNode, e.2)) since longest late tr)
    (ht : 0 ≤ timeoutMs) (htr : tr = tr₁ ++ st :: (mid ++ x :: rest)) {d : RobotService × RequestId}
    (hd : d ∈ st.event.1.1.received)
    (hx : startedAt st + callBudget timeoutMs longest late < startedAt x) :
    ∃ y ∈ st :: mid, ∃ a ∈ answersOf RobotOut.answer? y.out, (a.2.service, a.1) = d := by
  subst htr
  have hstep : robotStateBridgeStep nl st.pre st.event.1 = some (st.post, st.out) := (Run.split h).2.1
  have hcall : ∀ q, st.event.1.1.serviceCall? nl = some q →
      ∃ y ∈ st :: mid, ∃ a ∈ answersOf RobotOut.answer? y.out, (a.2.service, a.1) = d := by
    intro q hq
    rw [(RobotEvent.serviceCall?_spec hq).2.2, List.mem_singleton] at hd
    rcases robotStep_call nl hq hstep with ⟨-, -, hout⟩ | ⟨text, -, hout⟩
    · refine ⟨st, List.mem_cons_self, (q.request, q.refused), ?_, hd.symm⟩
      rw [hout]
      exact List.mem_singleton_self _
    · have he : (⟨st.pre.client.freshId (st.event.1.2 0), st.pre.client.newEntry (st.event.1.2 0) q.apiId
          q.callback⟩ : PendingEntry RobotCallback) ∈ calls st.out := by
        rw [hout]
        exact List.mem_cons_self
      obtain ⟨y, hy, result, hans⟩ := hon.answered robotBridge_implements h ht he rfl
        (RobotEvent.serviceCall?_answers hq) hx
      refine ⟨y, List.mem_cons_of_mem _ hy, _, hans, ?_⟩
      rw [hd, RobotEvent.serviceCall?_respond hq]
  obtain ⟨⟨e, clk⟩, hev⟩ : ∃ ev, st.event.1 = ev := ⟨_, rfl⟩
  rw [hev] at hcall hd hstep
  cases e with
  | serviceSwitch r name enable => exact hcall _ rfl
  | serviceList r => exact hcall _ rfl
  | setReportFreq r interval duration =>
    obtain ⟨-, resp, hans, hsvc⟩ := robotStep_setReportFreq hstep
    refine ⟨st, List.mem_cons_self, (r, resp), ?_, ?_⟩
    · rw [hans]
      exact List.mem_singleton_self _
    · rw [List.mem_singleton.mp hd, hsvc]
  | response msg => cases hd
  | sweep order => cases hd

def robotEvents : List ((RobotEvent × Clock) × Span) := [
  ((.serviceList ⟨[], 1⟩, .at 5 0), ⟨0, 10⟩),
  ((.sweep listOrder, .at 0 90000000), ⟨90000000, 90000010⟩),
  ((.sweep listOrder, .at 0 180000000), ⟨180000000, 180000010⟩),
  ((.sweep listOrder, .at 0 270000000), ⟨270000000, 270000010⟩)]

/-- A list of services that the robot never replies with. -/
def robotOnTime : TimedTrace RobotState (RobotEvent × Clock) RobotEmission × RobotState :=
  execute (timed (robotStateBridgeStep .small)) (.start 100 ()) robotEvents

theorem robot_answered_in_time_noReply :
    ∃ y ∈ robotOnTime.1.take 3, ∃ a ∈ answersOf RobotOut.answer? y.out,
      (a.2.service, a.1) = (.serviceList, ⟨[], 1⟩) := by
  have hon : OnTime (fun e : RobotEvent × Clock => (e.1.toNode, e.2)) 0 10 10 robotOnTime.1 :=
    { inOrder := by decide
      readings := by
        intro st hst i
        have := event_mem_of_mem_execute hst
        simp only [robotEvents, List.mem_cons, List.not_mem_nil, or_false] at this
        rcases this with h | h | h | h <;> simp [startedAt, doneAt, h, Clock.at]
      sweeps := by decide }
  have hrun : Run (timed (robotStateBridgeStep .small)) (.start 100 ())
      ([] ++ robotOnTime.1.get ⟨0, by decide⟩ :: ((robotOnTime.1.drop 1).take 2 ++
        robotOnTime.1.get ⟨3, by decide⟩ :: [])) robotOnTime.2 := Run.execute _ _ robotEvents
  exact robot_answered_in_time hrun hon (by decide) rfl List.mem_cons_self (by decide)

end Go2
