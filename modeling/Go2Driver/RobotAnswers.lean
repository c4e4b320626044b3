import Go2Driver.CallAtomic
import Go2Driver.Isolation

/-!
# One answer to each request of the robot state bridge

The bridge owes an answer only where a call is pending: what one event receives, and what
the callbacks it runs owe, is answered in it or handed to a call (`robotStep_pays`).  So
every request is answered once or owed by one pending call (`robot_one_answer`), and what is
published is what was received, less the calls that found the table full (`robot_relays`).
-/

namespace Go2

open Tables Runs RobotStateBridge

/-- The answer that a pending callback owes. -/
def RobotCallback.debt : RobotCallback → RobotService × RequestId
  | .serviceSwitch r => (.serviceSwitch, r)
  | .serviceList r => (.serviceList, r)

def robotReceived (tr : RobotTrace (RobotEvent × Clock)) : List (RobotService × RequestId) :=
  tr.flatMap fun st => st.event.1.received

def robotAnswers (L : List RobotEmission) : List (RobotService × RequestId) :=
  (answersOf RobotOut.answer? L).map fun a => (a.2.service, a.1)

def robotOwed (s : RobotState) : List (RobotService × RequestId) :=
  s.client.pending.entries.map fun x => x.2.callback.debt

section
variable (nl : Nlohmann)

theorem RobotCallback.pays (cb : RobotCallback) (result : ApiResult) :
    ((cb.respond nl result).service, cb.request) = cb.debt := by
  cases cb <;> simp only [RobotCallback.respond] <;> split
  · split <;> rfl
  · rfl
  · split <;> rfl
  · rfl

variable {nl}

theorem RobotEvent.serviceCall?_debt {e : RobotEvent} {q : RobotCall} (h : e.serviceCall? nl = some q) :
    e.received = [q.callback.debt] := by
  cases e <;> cases h <;> rfl

theorem robotAnswers_append (L L' : List RobotEmission) :
    robotAnswers (L ++ L') = robotAnswers L ++ robotAnswers L' := by
  rw [robotAnswers, answersOf_append, List.map_append]
  rfl

/-- What a callback lets out pays its debt. -/
theorem robotAnswers_report (id : Int) (entry : PendingRequest RobotCallback) (result : ApiResult)
    (L : List RobotEmission) : robotAnswers (.invoked id entry result ::
      .host (.answer entry.callback.request (entry.callback.respond nl result)) :: L) =
      entry.callback.debt :: robotAnswers L := by
  rw [← RobotCallback.pays nl entry.callback result]
  rfl

/-- A reply and a sweep answer what the callbacks they run owe, and that is all. -/
theorem robotStep_settles {s s' : RobotState} {ev : NodeEvent RobotCallback Unit RobotOut × Clock}
    {out : List RobotEmission} (h : nodeStep nl (RobotCallback.body nl) s ev = some (s', out))
    (hev : ∀ p, ev.1 ≠ .handler p) :
    robotAnswers out = (invocations out).map fun i => i.1.2.callback.debt := by
  obtain ⟨L, hlogs, hout⟩ := nodeStep_reports (RobotCallback.reports nl) h hev
  have hnone : robotAnswers L = [] := by
    rw [robotAnswers, answersOf, hlogs.filterMap_eq_nil fun _ _ => rfl]
    rfl
  generalize invocations out = settled at hout ⊢
  rw [hout, robotAnswers_append, hnone, List.nil_append]
  clear hout
  induction settled with
  | nil => rfl
  | cons i settled ih =>
    rw [List.flatMap_cons, List.map_cons, ← ih]
    exact robotAnswers_report i.1.1 i.1.2 i.2 _

/-- What an event receives, and what the callbacks it runs owe, it answers or hands to a call. -/
theorem robotStep_pays {s s' : RobotState} {ev : RobotEvent × Clock} {out : List RobotEmission}
    (h : robotStateBridgeStep nl s ev = some (s', out)) :
    (ev.1.received ++ (invocations out).map fun i => i.1.2.callback.debt).Perm
      (robotAnswers out ++ (calls out).map fun x => x.2.callback.debt) := by
  have hcall : ∀ q, ev.1.serviceCall? nl = some q →
      (ev.1.received ++ (invocations out).map fun i => i.1.2.callback.debt).Perm
        (robotAnswers out ++ (calls out).map fun x => x.2.callback.debt) := by
    intro q hq
    rw [RobotEvent.serviceCall?_debt hq]
    rcases robotStep_call nl hq h with ⟨-, -, rfl⟩ | ⟨text, -, rfl⟩
    · rw [show q.callback.debt = (q.refused.service, q.request) from ?_]
      · exact List.Perm.refl _
      · have := RobotEvent.serviceCall?_debt hq
        rw [(RobotEvent.serviceCall?_spec hq).2.2] at this
        exact (List.singleton_inj.mp this).symm
    · exact List.Perm.refl _
  obtain ⟨e, clk⟩ := ev
  cases e with
  | serviceSwitch r name enable => exact hcall _ rfl
  | serviceList r => exact hcall _ rfl
  | setReportFreq r interval duration =>
    obtain ⟨hcalls, resp, hans, hsvc⟩ := robotStep_setReportFreq h
    rw [nodeStep_invocations h, robotAnswers, hans, hcalls]
    show List.Perm [(RobotService.setReportFreq, r)] [(resp.service, r)]
    rw [hsvc]
  | response msg | sweep order =>
    have hnone := calls_eq_nil (fun cb result => ⟨_, RobotCallback.reports nl cb result, rfl⟩) h
      (fun p hp => by cases hp)
    rw [hnone, robotStep_settles h (fun p hp => by cases hp)]
    exact List.perm_append_comm

variable {timeoutMs : Int} {s : RobotState} {tr : RobotTrace (RobotEvent × Clock)}

theorem RobotRun.conserves (h : RobotRun nl timeoutMs tr s) :
    (robotReceived tr).Perm (robotAnswers (history tr) ++ robotOwed s) :=
  deferred_conserves robotBridge_implements (fun _ _ _ _ => robotStep_pays) h

/-- **One answer to each request of the robot state bridge.**  After every event of a run
whose request ids are distinct, each request received was answered once, on the service
it came in on, or its answer is owed by one pending call; nothing else is answered or owed,
and no more than the table holds is owed. -/
theorem robot_one_answer (h : RobotRun nl timeoutMs tr s)
    (hnd : ((robotReceived tr).map (·.2)).Nodup) :
    (∀ d ∈ robotReceived tr,
      ((robotAnswers (history tr)).filter (fun a => a.2 = d.2) = [d] ∧
        (robotOwed s).filter (fun a => a.2 = d.2) = []) ∨
      ((robotAnswers (history tr)).filter (fun a => a.2 = d.2) = [] ∧
        (robotOwed s).filter (fun a => a.2 = d.2) = [d])) ∧
    ((robotAnswers (history tr)).map (·.2)).Nodup ∧
    (∀ d, d ∈ robotAnswers (history tr) ∨ d ∈ robotOwed s → d ∈ robotReceived tr) ∧
    (robotReceived tr).length ≤ (robotAnswers (history tr)).length + maxPending := by
  have hperm := h.conserves
  refine ⟨fun d hd => filter_key_of_perm hperm hnd hd, ?_, ?_, ?_⟩
  · have hall := (hperm.map (fun d : RobotService × RequestId => d.2)).nodup_iff.mp hnd
    rw [List.map_append] at hall
    exact hall.of_append_left
  · rintro d (hd | hd)
    · exact hperm.mem_iff.mpr (List.mem_append_left _ hd)
    · exact hperm.mem_iff.mpr (List.mem_append_right _ hd)
  · have hfits := (robotBridge_implements.ledger h).fits
    rw [hperm.length_eq, List.length_append, robotOwed, List.length_map]
    omega

/-! ## What is published -/

def Request.content (req : Request) : Int × String × Bool := (req.apiId, req.parameter, req.noreply)

variable (nl) in
/-- What a request asks the bridge to publish. -/
def RobotEvent.wanted : RobotEvent → List (Int × String × Bool)
  | .serviceSwitch _ name enable =>
    (nl.dump (switchJson name enable)).toList.map (RobotStateApiId.serviceSwitch.code, ·, false)
  | .serviceList _ => (nl.dump emptyJson).toList.map (RobotStateApiId.serviceList.code, ·, false)
  | .setReportFreq _ interval duration =>
    (nl.dump (reportFreqJson interval duration)).toList.map (RobotStateApiId.setReportFreq.code, ·, true)
  | .response _ | .sweep _ => []

variable (nl) in
/-- What is published for an event: nothing for a call that finds the table full. -/
def relayed (s : RobotState) (e : RobotEvent × Clock) : List (Int × String × Bool) :=
  if s.client.full ∧ (e.1.serviceCall? nl).isSome then [] else e.1.wanted nl

/-- A reply and a sweep publish nothing. -/
theorem robotStep_silent {s s' : RobotState} {ev : NodeEvent RobotCallback Unit RobotOut × Clock}
    {out : List RobotEmission} (h : nodeStep nl (RobotCallback.body nl) s ev = some (s', out))
    (hev : ∀ p, ev.1 ≠ .handler p) : requestsOf out = [] := by
  obtain ⟨L, hlogs, hout⟩ := nodeStep_reports (RobotCallback.reports nl) h hev
  have hnone : requestsOf L = [] := hlogs.filterMap_eq_nil fun _ _ => rfl
  rw [hout, requestsOf_append, hnone, List.nil_append]
  generalize invocations out = settled
  induction settled with
  | nil => rfl
  | cons i settled ih => exact ih

/-- A call that finds the table full is answered at once. -/
theorem robotStep_full {s s' : RobotState} {e : RobotEvent × Clock} {out : List RobotEmission}
    {q : RobotCall} (hq : e.1.serviceCall? nl = some q) (hf : s.client.full)
    (h : robotStateBridgeStep nl s e = some (s', out)) :
    out = [.log .error (s.client.dropText q.apiId), .host (.answer q.request q.refused)] := by
  obtain ⟨e, clk⟩ := e
  obtain ⟨n, hp, -, rfl⟩ := (nodeStep_eq_some nl _).mp h
  have hprog : e.toNode = .handler (deferred q.apiId q.parameter q.callback q.request
      q.refused) := by
    cases e <;> cases hq <;> rfl
  simp only [State.perform, hprog, Node.perform, deferred, exec_bind, exec_call] at hp
  rw [Node.call_full nl hf] at hp
  simp only [Bool.not_false, if_true, answer, exec_emit, Prod.mk.injEq, and_true] at hp
  rw [← hp]
  rfl

/-- One event publishes what it is relayed as. -/
theorem robotStep_relays {s s' : RobotState} {e : RobotEvent × Clock} {out : List RobotEmission}
    (h : robotStateBridgeStep nl s e = some (s', out)) :
    (requestsOf out).map Request.content = relayed nl s e := by
  have hcall : ∀ q, e.1.serviceCall? nl = some q →
      (requestsOf out).map Request.content = relayed nl s e := by
    intro q hq
    have hwanted : e.1.wanted nl = (nl.dump q.parameter).toList.map (q.apiId, ·, false) := by
      generalize e.1 = ev at hq
      cases ev with
      | serviceSwitch _ _ _ => cases hq; rfl
      | serviceList _ => cases hq; rfl
      | _ => cases hq
    unfold relayed
    rw [hq, Option.isSome_some, hwanted]
    by_cases hf : s.client.full
    · rw [robotStep_full hq hf h, if_pos ⟨hf, rfl⟩]
      rfl
    · rw [if_neg fun hfull => hf hfull.1]
      rcases robotStep_call nl hq h with ⟨hfull, -⟩ | ⟨text, hd, rfl⟩
      · exact absurd hfull hf
      · rw [hd]
        rfl
  obtain ⟨e, clk⟩ := e
  cases e with
  | serviceSwitch r name enable => exact hcall _ rfl
  | serviceList r => exact hcall _ rfl
  | setReportFreq r interval duration =>
    obtain ⟨n, hp, -, rfl⟩ := (nodeStep_eq_some nl _).mp h
    simp only [State.perform, RobotEvent.toNode, Node.perform, handleSetReportFreq,
      exec_bind, exec_send, Node.send_eq] at hp
    cases hd : nl.dump (reportFreqJson interval duration) with
    | none =>
      rw [hd] at hp
      simp at hp
    | some text =>
      rw [hd] at hp
      simp only [answer, exec_emit, Prod.mk.injEq, and_true] at hp
      rw [← hp, relayed, if_neg (by simp [RobotEvent.serviceCall?]), RobotEvent.wanted, hd]
      rfl
  | response msg | sweep order =>
    rw [robotStep_silent h (fun p hp => by cases hp)]
    simp [relayed, RobotEvent.wanted, RobotEvent.serviceCall?]

/-- **The robot state bridge relays its requests**, whatever is received from the robot: over
every run the requests published are, one for one and in order, the requests received, less
the calls that found the table full; their ids increase; and a call is refused, in the event
that received it, exactly if 64 calls await their reply. -/
theorem robot_relays (h : RobotRun nl timeoutMs tr s) :
    (requestsOf (history tr)).map Request.content =
      tr.flatMap (fun st => relayed nl st.pre st.event) ∧
    (publishedIds (history tr)).Pairwise (· < ·) ∧
    ∀ st ∈ tr, ∀ q, st.event.1.serviceCall? nl = some q →
      (answersOf RobotOut.answer? st.out = [(q.request, q.refused)] ↔
        st.pre.client.pending.entries.length = maxPending) := by
  refine ⟨?_, (robotBridge_implements.ledger h).increasing, ?_⟩
  · unfold requestsOf
    rw [List.map_filterMap]
    refine Run.filterMap_history _ (relayed nl) (fun s e s' out he => ?_) h
    rw [← robotStep_relays he, requestsOf, List.map_filterMap]
  · intro st hst q hq
    obtain ⟨tr₁, tr₂, rfl⟩ := List.append_of_mem hst
    obtain ⟨hpre, hstep, -⟩ := Run.split h
    have hfits := (robotBridge_implements.ledger hpre).fits
    constructor
    · intro hans
      rcases robotStep_call nl hq hstep with ⟨hfull, -⟩ | ⟨text, -, hout⟩
      · exact Nat.le_antisymm hfits hfull
      · rw [hout] at hans
        cases hans
    · intro hlen
      rw [robotStep_full hq (Nat.le_of_eq hlen.symm) hstep]
      rfl

end

/-- A list that is replied to twice, a switch that waits, and a frequency that is answered at once. -/
def threeServices : RobotTrace (RobotEvent × Clock) × RobotState :=
  execute (robotStateBridgeStep .strict) (.start 5000 ())
    [(.serviceList ⟨[], 1⟩, .at 5 0), (.serviceSwitch ⟨[], 2⟩ "mcf" true, .at 5 0),
      (.response ⟨5, 1003, 0, "[]"⟩, .at 0 0), (.response ⟨5, 1003, 0, "[]"⟩, .at 0 0),
      (.setReportFreq ⟨[], 3⟩ 1 1, .at 9 0)]

example : robotAnswers (history threeServices.1) = [(.serviceList, ⟨[], 1⟩), (.setReportFreq, ⟨[], 3⟩)] ∧
    robotOwed threeServices.2 = [(.serviceSwitch, ⟨[], 2⟩)] := by decide

theorem robot_one_answer_threeServices :
    threeServices.1.length = 5 ∧ ((robotAnswers (history threeServices.1)).map (·.2)).Nodup := by
  have hrun : RobotRun .strict 5000 threeServices.1 threeServices.2 := Run.execute _ _ _
  exact ⟨by decide, (robot_one_answer hrun (by decide)).2.1⟩

theorem robot_relays_threeServices :
    (requestsOf (history threeServices.1)).map Request.content =
      [(1003, "\x7b\x7d", false), (1001, "\x7b\"name\":\"mcf\",\"switch\":1\x7d", false),
        (1002, "\x7b\"duration\":1,\"interval\":1\x7d", true)] := by
  have hrun : RobotRun .strict 5000 threeServices.1 threeServices.2 := Run.execute _ _ _
  exact (robot_relays hrun).1

end Go2
