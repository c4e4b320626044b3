import Go2Driver.Sequencer

/-!
# One answer to each service request

A request that was received is answered, or somebody still owes the answer: a
pending callback that captured its id, or the active sequence.  As multisets,
received = answered + owed, and every event keeps that (`Transition.conserves`):
it answers, or moves the debt to its next holder.  With distinct request ids each
request is then answered once or owed in one place (`one_answer`).
-/

namespace Go2

open Tables Runs SportBridge

/-- An answer owed: the service and the request. -/
abbrev Debt := SportService × RequestId

def SportEvent.received : SportEvent → List Debt
  | .mode r _ => [(.mode, r)]
  | .speedLevel r _ => [(.speedLevel, r)]
  | .switchJoystick r _ => [(.switchJoystick, r)]
  | .euler r _ _ _ => [(.euler, r)]
  | .pose r _ => [(.pose, r)]
  | .getAutoRecovery r => [(.getAutoRecovery, r)]
  | .cmdVel _ | .response _ | .sweep _ | .timer => []

/-- The requests a trace received, in order. -/
def received (tr : SportTrace) : List Debt := tr.flatMap (·.event.1.received)

def answersIn (L : List SportEmission) : List Debt :=
  L.filterMap fun
    | .host (.answer r resp) => some (resp.service, r)
    | _ => none

/-- Api id, parameter and noreply of each published request. -/
def requestsIn (L : List SportEmission) : List (Int × String × Bool) :=
  L.filterMap fun
    | .published req _ => some (req.apiId, req.parameter, req.noreply)
    | _ => none

theorem requestsIn_append (L L' : List SportEmission) :
    requestsIn (L ++ L') = requestsIn L ++ requestsIn L' := List.filterMap_append

theorem requestsIn_eq_nil {L : List SportEmission} (h : ∀ req entry, Out.published req entry ∉ L) :
    requestsIn L = [] := by
  unfold requestsIn
  rw [List.filterMap_eq_nil_iff]
  intro o ho
  cases o with
  | published req entry => exact absurd ho (h req entry)
  | _ => rfl

/-- What a pending callback owes for the request id it captured. -/
def Callback.owes : Callback → List Debt
  | .step => []
  | .speedLevel r => [(.speedLevel, r)]
  | .switchJoystick r => [(.switchJoystick, r)]
  | .euler r => [(.euler, r)]
  | .pose r => [(.pose, r)]
  | .getAutoRecovery r => [(.getAutoRecovery, r)]

/-- What the active sequence owes. -/
def SportHost.owes (h : SportHost) : List Debt :=
  match h.activeSequence with
  | some run => [(.mode, run.requestId)]
  | none => []

def debtsOf (l : List (PendingEntry Callback)) : List Debt := l.flatMap (·.2.callback.owes)

/-- One item for each place that holds a debt. -/
def owed (s : SportState) : List Debt := debtsOf s.client.pending.entries ++ s.host.owes

@[simp] theorem answersIn_append (L L' : List SportEmission) :
    answersIn (L ++ L') = answersIn L ++ answersIn L' := List.filterMap_append

@[simp] theorem answersIn_answered (r : RequestId) (resp : SportResponse) (L : List SportEmission) :
    answersIn (answered r resp :: L) = (resp.service, r) :: answersIn L := rfl

@[simp] theorem debtsOf_append (l l' : List (PendingEntry Callback)) :
    debtsOf (l ++ l') = debtsOf l ++ debtsOf l' := List.flatMap_append

@[simp] theorem debtsOf_cons (x : PendingEntry Callback) (l : List (PendingEntry Callback)) :
    debtsOf (x :: l) = x.2.callback.owes ++ debtsOf l := List.flatMap_cons

/-- What the pending calls owe, one of them taken out. -/
theorem perm_debtsOf_erase {pending : Table Int (PendingRequest Callback)} {id : Int}
    {entry : PendingRequest Callback} (hl : pending.lookup id = some entry) :
    (debtsOf pending.entries).Perm (entry.callback.owes ++ debtsOf (pending.erase id).entries) :=
  (perm_erase hl).flatMap_right _

theorem SportHost.owes_eq {h : SportHost} {run : SequenceRun} (ha : h.activeSequence = some run) :
    h.owes = [(.mode, run.requestId)] := by
  unfold SportHost.owes
  rw [ha]

section
variable {nl : Nlohmann} {cfg : SportConfig}

/-- A service's callback pays what it owes. -/
theorem answersIn_report (cb : Callback) (result : ApiResult) :
    answersIn (cb.report nl cfg result) = cb.owes := by
  cases cb with
  | step => rfl
  | speedLevel r => rfl
  | euler r => rfl
  | switchJoystick r | pose r =>
    simp only [Callback.report, failureLog]
    split <;> rfl
  | getAutoRecovery r =>
    simp only [Callback.report, flagResponse]
    split
    · split <;> rfl
    · rfl

theorem requestsIn_report (cb : Callback) (result : ApiResult) :
    requestsIn (cb.report nl cfg result) = [] :=
  requestsIn_eq_nil fun req entry => published_notMem_report nl cfg req entry cb result

theorem answersIn_mismatchLog (msg : Response) (entry : PendingRequest Callback) :
    answersIn (mismatchLog msg entry) = [] :=
  (warnings_mismatchLog msg entry).filterMap_eq_nil fun _ => rfl

theorem answersIn_timeoutLog (l : List (PendingEntry Callback)) :
    answersIn (l.map timeoutLog) = [] :=
  (warnings_timeoutLog l).filterMap_eq_nil fun _ => rfl

theorem answersIn_expiry {h : SportHost} {x : PendingEntry Callback} (hx : x.2.callback ≠ .step) :
    answersIn (expiry nl cfg h x) = x.2.callback.owes := by
  rw [expiry, timeoutReport_eq nl cfg hx]
  exact answersIn_report _ _

theorem answersIn_flatMap_expiry {h : SportHost} {l : List (PendingEntry Callback)}
    (hl : ∀ x ∈ l, x.2.callback ≠ .step) :
    answersIn (l.flatMap (expiry nl cfg h)) = debtsOf l := by
  induction l with
  | nil => rfl
  | cons x l ih =>
    obtain ⟨hx, hrest⟩ := List.forall_mem_cons.mp hl
    rw [List.flatMap_cons, answersIn_append, answersIn_expiry hx, ih hrest, debtsOf_cons]

theorem SportEvent.serviceCall?_owes {e : SportEvent} {q : SportCall}
    (h : e.serviceCall? nl cfg = some q) :
    q.callback.owes = e.received ∧ e.received = [(q.refused.service, q.request)] := by
  cases e <;> simp only [SportEvent.serviceCall?] at h <;> repeat' split at h
  all_goals first
    | cases h; done
    | (simp only [Option.some.injEq] at h; subst h; exact ⟨rfl, rfl⟩)

theorem SportEvent.refusal?_received {e : SportEvent} {h : SportHost} {r : RequestId}
    {resp : SportResponse} (hr : e.refusal? cfg h = some (r, resp)) :
    e.received = [(resp.service, r)] := by
  cases e <;> simp only [SportEvent.refusal?] at hr <;> repeat' split at hr
  all_goals first
    | cases hr; done
    | (simp only [Option.some.injEq, Prod.mk.injEq] at hr; rw [← hr.1, ← hr.2]; rfl)

/-! ## Every event conserves the debts -/

theorem Advance.conserves {s s' : SportState} {run : SequenceRun} {rd : Reading}
    {out : List SportEmission} (h : Advance nl cfg s run rd s' out)
    (ha : s.host.activeSequence = some run) (hf : s.client.freshId rd ∉ s.client.pending) :
    (owed s).Perm (answersIn out ++ owed s') := by
  have howed : owed s = debtsOf s.client.pending.entries ++ [(.mode, run.requestId)] := by
    rw [owed, SportHost.owes_eq ha]
  have hidle : owed ⟨s.client, .idle⟩ = debtsOf s.client.pending.entries := List.append_nil _
  cases h with
  | finished _ =>
    rw [howed, hidle]
    exact List.perm_append_comm
  | notSent _ _ _ =>
    rw [howed, hidle]
    exact List.perm_append_comm
  | sent _ _ _ _ =>
    show (owed s).Perm (debtsOf _ ++ s.host.owes)
    rw [entries_afterCall hf]
    exact List.Perm.refl _
  | atOnce _ _ _ _ =>
    rw [howed]
    exact List.Perm.refl _

theorem Transition.conserves {s s' : SportState} {e : SportEvent × Clock} {out : List SportEmission}
    (hp : Phase s) (ht : Transition nl cfg s e s' out)
    (hf : ∀ rd, s.client.freshId rd ∉ s.client.pending) :
    (owed s ++ e.1.received).Perm (answersIn out ++ owed s') := by
  cases ht with
  | refused hr =>
    rw [SportEvent.refusal?_received hr]
    exact List.perm_append_comm
  | @accepted e clk run s' out hacc hadv =>
    obtain ⟨hev, hnone, -⟩ := SportEvent.accepted?_spec hacc
    have hstart : owed s ++ e.received =
        owed ⟨s.client, { s.host with activeSequence := some run }⟩ := by
      rw [hev, owed, owed, SportHost.owes, hnone, List.append_nil]
      rfl
    rw [hstart]
    exact hadv.conserves rfl (hf _)
  | notSent hq _ _ =>
    rw [(SportEvent.serviceCall?_owes hq).2]
    exact List.perm_append_comm
  | @sent e clk q text hq hw hfull hd =>
    show (owed s ++ e.received).Perm (debtsOf _ ++ s.host.owes)
    rw [entries_afterCall (hf _), debtsOf_cons, ← (SportEvent.serviceCall?_owes hq).1,
      List.append_assoc]
    exact List.perm_append_comm
  | @atOnce e clk q text hq hw hd =>
    show (owed s ++ e.received).Perm (answersIn (q.callback.report nl cfg ⟨true, 0, ""⟩) ++ owed s)
    rw [answersIn_report, (SportEvent.serviceCall?_owes hq).1]
    exact List.perm_append_comm
  | cmdVel _ =>
    rw [SportEvent.received, List.append_nil]
    exact List.Perm.refl _
  | foreign _ =>
    rw [SportEvent.received, List.append_nil]
    exact List.Perm.refl _
  | @replied msg clk entry hl hcb =>
    have hans : answersIn (mismatchLog msg entry ++ .invoked msg.id entry msg.result ::
        entry.callback.report nl cfg msg.result) = entry.callback.owes := by
      rw [answersIn_append, answersIn_mismatchLog, List.nil_append]
      exact answersIn_report _ _
    rw [hans, SportEvent.received, List.append_nil]
    show (debtsOf _ ++ s.host.owes).Perm (entry.callback.owes ++ (debtsOf _ ++ s.host.owes))
    rw [← List.append_assoc]
    exact (perm_debtsOf_erase hl).append_right _
  | @stepAccepted msg clk entry run st hl hcb hrun hst hr hwait =>
    have hsplit := perm_debtsOf_erase hl
    rw [hcb, Callback.owes, List.nil_append] at hsplit
    rw [answersIn_append, answersIn_mismatchLog, SportEvent.received, List.append_nil, owed,
      SportHost.owes_eq hrun]
    exact hsplit.append_right _
  | @stepFailed msg clk entry run st hl hcb hrun hst hr =>
    have hsplit := perm_debtsOf_erase hl
    rw [hcb, Callback.owes, List.nil_append] at hsplit
    rw [answersIn_append, answersIn_mismatchLog, SportEvent.received, List.append_nil, owed,
      SportHost.owes_eq hrun]
    show (debtsOf _ ++ [(SportService.mode, run.requestId)]).Perm
      ((SportService.mode, run.requestId) :: (debtsOf _ ++ []))
    rw [List.append_nil]
    exact (hsplit.append_right _).trans List.perm_append_comm
  | @swept order clk =>
    have hsplit : (debtsOf s.client.pending.entries).Perm
        (debtsOf (s.client.expired order (clk 0).now) ++
          debtsOf (s.client.kept order (clk 0).now).entries) := by
      have := (s.client.perm_expired_kept order (clk 0).now).flatMap_right
        (fun x : PendingEntry Callback => x.2.callback.owes)
      rwa [List.flatMap_append] at this
    rw [answersIn_append, answersIn_timeoutLog, List.nil_append, SportEvent.received, List.append_nil]
    by_cases hex : ∃ x ∈ s.client.expired order (clk 0).now, x.2.callback = .step
    · obtain ⟨x, hx, hcb⟩ := hex
      obtain ⟨l₁, l₂, run, st, hl, hl₁, hl₂, hrun, hst⟩ := hp.expired_step hx hcb
      have hans : (answersIn ((s.client.expired order (clk 0).now).flatMap (expiry nl cfg s.host))).Perm
          ((.mode, run.requestId) :: debtsOf (s.client.expired order (clk 0).now)) := by
        have hx' : answersIn (expiry nl cfg s.host x) = [(.mode, run.requestId)] := by
          simp only [expiry, timeoutReport, hcb, hrun, hst]
          rfl
        rw [hl, List.flatMap_append, List.flatMap_cons, answersIn_append, answersIn_append, hx',
          answersIn_flatMap_expiry hl₁, answersIn_flatMap_expiry hl₂, debtsOf_append, debtsOf_cons, hcb]
        exact List.perm_middle
      rw [SportHost.swept_of_mem hx hcb, owed, SportHost.owes_eq hrun]
      show (debtsOf _ ++ [_]).Perm (answersIn _ ++ (debtsOf _ ++ []))
      rw [List.append_nil]
      refine (hsplit.append_right _).trans (List.perm_append_comm.trans ?_)
      exact (hans.append_right _).symm
    · have hnone : ∀ x ∈ s.client.expired order (clk 0).now, x.2.callback ≠ .step :=
        fun x hx hcb => hex ⟨x, hx, hcb⟩
      rw [SportHost.swept_of_none hnone, answersIn_flatMap_expiry hnone]
      show (debtsOf _ ++ s.host.owes).Perm (debtsOf _ ++ (debtsOf _ ++ s.host.owes))
      rw [← List.append_assoc]
      exact hsplit.append_right _
  | @fired clk run s' out harm hrun hadv =>
    rw [SportEvent.received, List.append_nil]
    exact hadv.conserves hrun (hf _)

/-- Without waiting, a service's own event answers it. -/
theorem Transition.answers_atOnce {s s' : SportState} {e : SportEvent × Clock}
    {out : List SportEmission} (ht : Transition nl cfg s e s' out)
    (hw : cfg.waitForResponse = false) (hacc : e.1.accepted? cfg s.host = none) :
    e.1.received ⊆ answersIn out := by
  cases ht with
  | refused hr =>
    rw [SportEvent.refusal?_received hr]
    exact List.Subset.refl _
  | accepted hacc' _ => rw [hacc] at hacc'; cases hacc'
  | notSent _ hw' _ => rw [hw] at hw'; cases hw'
  | sent _ hw' _ _ => rw [hw] at hw'; cases hw'
  | @atOnce e clk q text hq _ hd =>
    show e.received ⊆ answersIn (q.callback.report nl cfg ⟨true, 0, ""⟩)
    rw [answersIn_report, (SportEvent.serviceCall?_owes hq).1]
    exact List.Subset.refl _
  | _ => exact List.nil_subset _

variable {timeoutMs : Int} {s : SportState} {tr : SportTrace}

/-- Received = answered + owed, after every completed event. -/
theorem SportRun.conserves (h : SportRun nl cfg timeoutMs tr s) :
    (received tr).Perm (answersIn (history tr) ++ owed s) := by
  refine Run.traceInvariant (fun tr s => (received tr).Perm (answersIn (history tr) ++ owed s))
    (List.Perm.refl _) ?_ h
  intro tr s e s' out hr ih he
  have hp := SportRun.phase hr
  have hstep := (sportBridgeStep_transition nl cfg hp he).conserves hp (SportRun.freshId_notMem hr)
  have hrec : received (tr ++ [⟨s, e, out, s'⟩]) = received tr ++ e.1.received := by
    simp [received]
  rw [hrec, history_snoc, answersIn_append, List.append_assoc]
  calc (received tr ++ e.1.received).Perm (answersIn (history tr) ++ owed s ++ e.1.received) :=
        ih.append_right _
    List.Perm _ (answersIn (history tr) ++ (owed s ++ e.1.received)) := by
        rw [List.append_assoc]
    List.Perm _ (answersIn (history tr) ++ (answersIn out ++ owed s')) := hstep.append_left _

/-- **One answer to each request.**  After every completed event of a run whose
request ids are distinct:

* a received request was answered exactly once, on the service it came in on, and
  nobody owes its answer; or it was not answered, and exactly one place, a pending
  callback or the active sequence, owes it;
* no request id was answered twice, and none that was not received;
* without `wait_for_response_` every request but an accepted mode request is
  answered by its own event. -/
theorem one_answer (h : SportRun nl cfg timeoutMs tr s)
    (hnd : ((received tr).map (·.2)).Nodup) :
    (∀ d ∈ received tr,
      ((answersIn (history tr)).filter (fun a => a.2 = d.2) = [d] ∧
        (owed s).filter (fun a => a.2 = d.2) = []) ∨
      ((answersIn (history tr)).filter (fun a => a.2 = d.2) = [] ∧
        (owed s).filter (fun a => a.2 = d.2) = [d])) ∧
    ((answersIn (history tr)).map (·.2)).Nodup ∧
    (∀ d, d ∈ answersIn (history tr) ∨ d ∈ owed s → d ∈ received tr) ∧
    (cfg.waitForResponse = false → ∀ st ∈ tr, st.event.1.accepted? cfg st.pre.host = none →
      ∀ d ∈ st.event.1.received, d ∈ answersIn st.out) := by
  have hperm := h.conserves
  refine ⟨?_, ?_, ?_, ?_⟩
  · intro d hd
    have hone : (received tr).filter (fun a => a.2 = d.2) = [d] :=
      filter_key_eq_singleton (f := fun a : Debt => a.2) hnd hd
    have hsplit := hperm.filter (fun a => a.2 = d.2)
    rw [hone, List.filter_append] at hsplit
    rcases List.append_eq_singleton_iff.mp (List.singleton_perm.mp hsplit).symm with ⟨ha, ho⟩ | ⟨ha, ho⟩
    · exact .inr ⟨ha, ho⟩
    · exact .inl ⟨ha, ho⟩
  · have hall := (hperm.map (fun d : Debt => d.2)).nodup_iff.mp hnd
    rw [List.map_append] at hall
    exact hall.of_append_left
  · rintro d (hd | hd)
    · exact hperm.mem_iff.mpr (List.mem_append_left _ hd)
    · exact hperm.mem_iff.mpr (List.mem_append_right _ hd)
  · intro hw st hst hacc d hd
    obtain ⟨tr₁, tr₂, rfl⟩ := List.append_of_mem hst
    exact (SportRun.transition h).2.answers_atOnce hw hacc hd

end

/-- Two requests, the reply to the second, and a mode request. -/
def twoInFlight : SportTrace × SportState :=
  execute (sportBridgeStep .small (.ofParameters initPresets true defaultBlockedModes)) (.start 2000)
    [(.speedLevel ⟨[], 1⟩ 1, .at 5 0), (.speedLevel ⟨[], 2⟩ (-1), .at 5 0),
      (.response ⟨6, 1015, 0, ""⟩, .at 0 0), (.mode ⟨[], 3⟩ "hello", .at 5 0)]

example : answersIn (history twoInFlight.1) = [(.speedLevel, ⟨[], 2⟩)] ∧
    owed twoInFlight.2 = [(.speedLevel, ⟨[], 1⟩), (.mode, ⟨[], 3⟩)] := by decide

theorem one_answer_twoInFlight :
    twoInFlight.1.length = 4 ∧ ((answersIn (history twoInFlight.1)).map (·.2)).Nodup := by
  have hrun : SportRun .small (.ofParameters initPresets true defaultBlockedModes) 2000 twoInFlight.1
      twoInFlight.2 := Run.execute _ _ _
  exact ⟨rfl, (one_answer hrun (by decide)).2.1⟩

end Go2
