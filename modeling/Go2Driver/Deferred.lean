import Go2Driver.CallFate

/-!
# Services that answer later

The pattern both bridges repeat: a service request is refused at once, or one
request is published for it and its callback, which captured the service request,
answers when the call is settled.  `Served` says what that makes of one request in
a run: refused with success = false, or published, and then answered from the one
result that settles its call, if any; with success exactly if the reply under the
id of its own request arrived while that was pending, with status code 0 and a
payload the reader accepts.
-/

namespace Go2

open Tables Runs

/-- The one request a service sends for the service request `request`, and its
answers: where it could not be sent, and to a result, with the payloads of a reply
that its reader accepts. -/
structure ServiceCall (κ ρ : Type) where
  apiId : Int
  parameter : Json
  callback : κ
  request : RequestId
  refused : ρ
  respond : ApiResult → ρ
  accepts : String → Prop

section
variable {κ θ ω ρ ε : Type}

/-- The answers among what was let out. -/
def answersOf (answer? : ω → Option (RequestId × ρ)) (L : List (Out κ ω)) : List (RequestId × ρ) :=
  L.filterMap fun
    | .host o => answer? o
    | _ => none

@[simp] theorem answersOf_append (answer? : ω → Option (RequestId × ρ)) (L L' : List (Out κ ω)) :
    answersOf answer? (L ++ L') = answersOf answer? L ++ answersOf answer? L' := List.filterMap_append

theorem mem_answersOf {answer? : ω → Option (RequestId × ρ)} {L : List (Out κ ω)} {a : RequestId × ρ} :
    a ∈ answersOf answer? L ↔ ∃ o, Out.host o ∈ L ∧ answer? o = some a := by
  rw [answersOf, List.mem_filterMap]
  constructor
  · rintro ⟨x, hx, ha⟩
    cases x with
    | host o => exact ⟨o, hx, ha⟩
    | _ => cases ha
  · rintro ⟨o, ho, ha⟩
    exact ⟨_, ho, ha⟩

variable (answer? : ω → Option (RequestId × ρ)) (success : ρ → Bool)
  (f : ε → NodeEvent κ θ ω × Clock)

/-- The event answers the service request `r` with a failure, and publishes nothing. -/
def Refused (r : RequestId) (st : Step (State κ θ) ε (Out κ ω)) : Prop :=
  ∃ resp, answersOf answer? st.out = [(r, resp)] ∧ success resp = false ∧ publishedIds st.out = []

/-- What the run `tr` after the event `st`, up to the state `s`, makes of the service
request that `st` received, whose call is `q`. -/
def Served (q : ServiceCall κ ρ) (st : Step (State κ θ) ε (Out κ ω))
    (tr : List (Step (State κ θ) ε (Out κ ω))) (s : State κ θ) : Prop :=
  Refused answer? success q.request st ∨
  ∃ req entry fate, st.out = [.published req (some entry)] ∧ entry.callback = q.callback ∧
    Fate f ⟨req.id, entry⟩ s tr fate ∧
    answersOf answer? (tr.flatMap fun y => outputFor req.id y.out) =
      fate.toList.map (fun result => (q.request, q.respond result)) ∧
    ((∃ result, fate = some result ∧ success (q.respond result) = true) ↔
      ∃ y ∈ tr, ∃ msg clk, f y.event = (.response msg, clk) ∧ msg.id = req.id ∧
        y.pre.client.pending.lookup req.id = some entry ∧ msg.code = statusOk ∧ q.accepts msg.data)

/-- In the run `tr` to `s`, each request to one of the services in `deferred` is
refused or `Served`; and each of their answers is for the request its own event
received, or for the request whose call it settles, which an earlier event received. -/
structure Truthful {σ : Type} (service : ρ → σ) (received : ε → List (σ × RequestId))
    (call? : ε → Option (ServiceCall κ ρ)) (deferred : σ → Prop)
    (tr : List (Step (State κ θ) ε (Out κ ω))) (s : State κ θ) : Prop where
  served : ∀ tr₁ st tr₂, tr = tr₁ ++ st :: tr₂ → ∀ d ∈ received st.event, deferred d.1 →
    Refused answer? success d.2 st ∨
    ∃ q, call? st.event = some q ∧ q.request = d.2 ∧ Served answer? success f q st tr₂ s
  origin : ∀ tr₁ st tr₂, tr = tr₁ ++ st :: tr₂ → ∀ a ∈ answersOf answer? st.out,
    deferred (service a.2) → (service a.2, a.1) ∈ received st.event ∨
    ∃ tr₀ st' mid req entry, tr₁ = tr₀ ++ st' :: mid ∧
      (service a.2, a.1) ∈ received st'.event ∧ st'.out = [.published req (some entry)] ∧
      a ∈ answersOf answer? (outputFor req.id st.out)

/-- The callback answers the service request and does nothing else but log. -/
def Answers (nl : Nlohmann) (body : κ → ApiResult → Prog κ θ ω Unit) (q : ServiceCall κ ρ) : Prop :=
  ∃ report : ApiResult → List (Out κ ω), ∀ result, Reports nl body q.callback result (report result) ∧
    answersOf answer? (report result) = [(q.request, q.respond result)]

variable {answer? success f} {nl : Nlohmann} {body : κ → ApiResult → Prog κ θ ω Unit}
  {step : State κ θ → ε → Option (State κ θ × List (Out κ ω))}
  {timeoutMs : Int} {host₀ : θ} {s : State κ θ} {tr tr₁ tr₂ : List (Step (State κ θ) ε (Out κ ω))}
  {st : Step (State κ θ) ε (Out κ ω)}

theorem served_of_published (hi : Implements nl body step f)
    (h : Run step (State.start timeoutMs host₀) (tr₁ ++ st :: tr₂) s) {q : ServiceCall κ ρ}
    {req : Request} {entry : PendingRequest κ} (hout : st.out = [.published req (some entry)])
    (hcb : entry.callback = q.callback) (hans : Answers answer? nl body q)
    (hsucc : ∀ result, success (q.respond result) = true ↔ result.ok = true ∧ q.accepts result.data) :
    Served answer? success f q st tr₂ s := by
  have hcall : (⟨req.id, entry⟩ : PendingEntry κ) ∈ calls st.out := by rw [hout]; exact List.mem_cons_self
  obtain ⟨fate, hfate⟩ := call_fate hi h hcall
  obtain ⟨report, hreport⟩ := hans
  have hrun : Run step (State.start timeoutMs host₀) ((tr₁ ++ [st]) ++ tr₂) s := by
    rwa [List.append_assoc]
  refine .inr ⟨req, entry, fate, hout, hcb, hfate, ?_, ?_⟩
  · rw [hfate.output hi hrun fun result => hcb ▸ (hreport result).1]
    cases fate with
    | none => rfl
    | some result => simpa using (hreport result).2
  · constructor
    · rintro ⟨result, rfl, hs⟩
      obtain ⟨hok, hacc⟩ := (hsucc result).mp hs
      cases hfate with
      | @settled mid rest x _ hmid hx hset hinv hrest hgone =>
        refine ⟨x, by simp, ?_⟩
        unfold SettledBy at hset
        cases hev : f x.event with
        | mk ev clk =>
          rw [hev] at hset
          cases ev with
          | handler p => exact hset.elim
          | response msg =>
            obtain ⟨hid, rfl⟩ := hset
            exact ⟨msg, clk, rfl, hid, lookup_eq_some_iff.mpr hx, of_decide_eq_true hok, hacc⟩
          | sweep order =>
            obtain ⟨-, rfl⟩ := hset
            cases hok
    · rintro ⟨y, hy, msg, clk, hev, hid, hl, hcode, hacc⟩
      have hset : SettledBy ⟨req.id, entry⟩ msg.result (f y.event) := by
        rw [hev]
        exact ⟨hid, rfl⟩
      have hfun : ∀ result', SettledBy ⟨req.id, entry⟩ result' (f y.event) → result' = msg.result := by
        intro result' h'
        rw [hev] at h'
        exact h'.2
      refine ⟨msg.result, hfate.decided hy (lookup_eq_some_iff.mp hl) hset hfun, ?_⟩
      exact (hsucc _).mpr ⟨decide_eq_true hcode, hacc⟩

/-- An answer comes from a handler, or from the callback of one call, which an earlier event published. -/
theorem answer_origin (hi : Implements nl body step f)
    (h : Run step (State.start timeoutMs host₀) (tr₁ ++ st :: tr₂) s) {a : RequestId × ρ}
    (ha : a ∈ answersOf answer? st.out) :
    (∃ p, (f st.event).1 = .handler p) ∨
    ∃ e result, LetOut nl body e result (outputFor e.1 st.out) ∧
      a ∈ answersOf answer? (outputFor e.1 st.out) ∧
      ∃ tr₀ st' mid, tr₁ = tr₀ ++ st' :: mid ∧ e ∈ calls st'.out := by
  obtain ⟨hpre, hst, -⟩ := Run.split h
  obtain ⟨o, ho, hoa⟩ := mem_answersOf.mp ha
  refine (nodeStep_host (hi _ _ _ hst) ho).imp_right ?_
  rintro ⟨⟨e, result⟩, hinv, hout⟩
  refine ⟨e, result, outputFor_settled (hi _ _ _ hst) hinv, mem_answersOf.mpr ⟨o, hout, hoa⟩, ?_⟩
  rw [nodeStep_invocations (hi _ _ _ hst)] at hinv
  have hcall := (hi.ledger hpre).call_of_pending (State.mem_taken.mp hinv).1
  unfold calls history at hcall
  rw [List.filterMap_flatMap, List.mem_flatMap] at hcall
  obtain ⟨st', hst', he⟩ := hcall
  obtain ⟨tr₀, mid, hsplit⟩ := List.append_of_mem hst'
  exact ⟨tr₀, st', mid, hsplit, he⟩

theorem LetOut.answers {e : PendingEntry κ} {result : ApiResult} {L : List (Out κ ω)}
    {q : ServiceCall κ ρ} (h : LetOut nl body e result L) (hcb : e.2.callback = q.callback)
    (hans : Answers answer? nl body q) : answersOf answer? L = [(q.request, q.respond result)] := by
  obtain ⟨report, hreport⟩ := hans
  rw [h.reports (hcb ▸ (hreport result).1)]
  exact (hreport result).2

/-! ## Where every callback only reports -/

theorem invokeAll_calls (hrep : ∀ cb result, ∃ L, Reports nl body cb result L ∧ calls L = [])
    {due : List (PendingEntry κ)} {n n' : Node κ θ ω} (h : n.invokeAll nl body due = (n', .ok ())) :
    calls n'.out = calls n.out := by
  refine Node.invokeAll_rule (fun _ m => calls m.out = calls n.out) ?_ rfl h
  intro e _ m m₁ hm hi
  obtain ⟨L, hL, hcalls⟩ := hrep e.2.callback timeoutResult
  rw [Node.invoke, hL, Prod.mk.injEq] at hi
  rw [← hi.1, ← hm]
  simp only [Node.emit_out, calls_append, hcalls, List.append_nil]
  exact List.append_nil _

/-- Then neither a reply nor a sweep makes a call. -/
theorem calls_eq_nil (hrep : ∀ cb result, ∃ L, Reports nl body cb result L ∧ calls L = [])
    {s' : State κ θ} {ev : NodeEvent κ θ ω × Clock} {out : List (Out κ ω)}
    (h : nodeStep nl body s ev = some (s', out)) (hev : ∀ p, ev.1 ≠ .handler p) : calls out = [] := by
  cases nodeStep_completed nl body h with
  | handler p clk n hp => exact absurd rfl (hev p)
  | ignored msg clk hl => rfl
  | settled msg clk entry n hl hp =>
    obtain ⟨L, hL, hcalls⟩ := hrep entry.callback msg.result
    rw [hL, Prod.mk.injEq] at hp
    rw [← hp.1]
    simp only [State.replied, calls_append, calls_mismatchLog, hcalls]
    rfl
  | nonePending order clk hempty => rfl
  | swept order clk n hp =>
    rw [invokeAll_calls hrep hp, Node.swept, List.nil_append, calls_timeoutLog]

/-- The callbacks of a sweep that only report. -/
theorem invokeAll_reports {report : κ → ApiResult → List (Out κ ω)}
    (hrep : ∀ cb result, Reports nl body cb result (report cb result)) (due : List (PendingEntry κ))
    (n : Node κ θ ω) : n.invokeAll nl body due =
      ({ n with
          out := n.out ++ due.flatMap fun e =>
            .invoked e.1 e.2 timeoutResult :: report e.2.callback timeoutResult }, .ok ()) := by
  induction due generalizing n with
  | nil => simp [Node.invokeAll]
  | cons e due ih =>
    have hone : n.invoke nl body e.1 e.2 timeoutResult =
        ({ n with out := n.out ++ .invoked e.1 e.2 timeoutResult :: report e.2.callback timeoutResult },
          .ok ()) := by
      rw [Node.invoke, hrep]
      simp [Node.emit]
    rw [Node.invokeAll_cons_ok nl body hone, ih]
    simp

/-- Nothing but log lines. -/
def LogLines (L : List (Out κ ω)) : Prop := ∀ o ∈ L, ∃ severity text, o = .log severity text

theorem LogLines.filterMap_eq_nil {α : Type} {L : List (Out κ ω)} (h : LogLines L)
    {g : Out κ ω → Option α} (hg : ∀ severity text, g (.log severity text) = none) :
    L.filterMap g = [] := by
  rw [List.filterMap_eq_nil_iff]
  intro o ho
  obtain ⟨severity, text, rfl⟩ := h o ho
  exact hg severity text

theorem Warnings.logLines {L : List (Out κ ω)} (h : Warnings L) : LogLines L :=
  fun o ho => ⟨.warn, h o ho⟩

/-- Where every callback only reports, a reply and a sweep let out log lines and the reports
of the callbacks they run. -/
theorem nodeStep_reports {report : κ → ApiResult → List (Out κ ω)}
    (hrep : ∀ cb result, Reports nl body cb result (report cb result)) {s' : State κ θ}
    {ev : NodeEvent κ θ ω × Clock} {out : List (Out κ ω)} (h : nodeStep nl body s ev = some (s', out))
    (hev : ∀ p, ev.1 ≠ .handler p) : ∃ L, LogLines L ∧ out = L ++ (invocations out).flatMap fun i =>
      .invoked i.1.1 i.1.2 i.2 :: report i.1.2.callback i.2 := by
  rw [nodeStep_invocations h]
  cases nodeStep_completed nl body h with
  | handler p clk n hp => exact absurd rfl (hev p)
  | ignored msg clk hl =>
    refine ⟨[.log .debug ("ignoring reply for id=" ++ toString msg.id)], ?_, ?_⟩
    · intro o ho
      exact ⟨_, _, List.mem_singleton.mp ho⟩
    · simp only [State.taken, hl]
      rfl
  | settled msg clk entry n hl hp =>
    rw [hrep, Prod.mk.injEq] at hp
    refine ⟨mismatchLog msg entry, (warnings_mismatchLog msg entry).logLines, ?_⟩
    rw [← hp.1]
    simp [State.taken, hl, State.replied]
  | nonePending order clk hempty =>
    refine ⟨[], by simp [LogLines], ?_⟩
    simp [State.taken, UnitreeApiClient.expired_of_empty hempty]
  | swept order clk n hp =>
    rw [invokeAll_reports hrep, Prod.mk.injEq] at hp
    refine ⟨_, (warnings_timeoutLog (s.client.expired order (clk 0).now)).logLines, ?_⟩
    rw [← hp.1]
    simp only [Node.swept, List.nil_append, State.taken, List.flatMap_map]

/-! ## Answered or owed -/

/-- Where each event answers what it received and what its callbacks owe, or hands the
debt to a call, what a run received is answered or owed by a pending call. -/
theorem deferred_conserves {δ : Type} {received : ε → List δ} {debt : κ → δ} {paid : RequestId × ρ → δ}
    (hi : Implements nl body step f)
    (hstep : ∀ s e s' out, step s e = some (s', out) →
      (received e ++ (invocations out).map fun i => debt i.1.2.callback).Perm
        ((answersOf answer? out).map paid ++ (calls out).map fun x => debt x.2.callback))
    (h : Run step (State.start timeoutMs host₀) tr s) :
    (tr.flatMap fun st => received st.event).Perm
      ((answersOf answer? (history tr)).map paid ++ s.client.pending.entries.map fun x => debt x.2.callback) := by
  have hpaid : ((tr.flatMap fun st => received st.event) ++
      (invocations (history tr)).map fun i => debt i.1.2.callback).Perm
      ((answersOf answer? (history tr)).map paid ++ (calls (history tr)).map fun x => debt x.2.callback) := by
    refine Run.traceInvariant (fun tr _ => ((tr.flatMap fun st => received st.event) ++
      (invocations (history tr)).map fun i => debt i.1.2.callback).Perm
      ((answersOf answer? (history tr)).map paid ++ (calls (history tr)).map fun x => debt x.2.callback))
      (List.Perm.refl _) ?_ h
    intro tr s e s' out _ ih he
    rw [history_snoc, invocations_append, calls_append, answersOf_append, List.flatMap_append,
      List.flatMap_singleton, List.map_append, List.map_append, List.map_append]
    refine (perm_append_comm_middle _ _ _ _).trans ?_
    refine ((ih.append (hstep s e s' out he)).trans ?_)
    exact perm_append_comm_middle _ _ _ _
  -- what the callbacks that were run owed is paid
  have hbalance := (hi.ledger h).balance.map fun x : PendingEntry κ => debt x.2.callback
  rw [List.nil_append, List.map_append, List.map_map] at hbalance
  refine (List.perm_append_right_iff ((invocations (history tr)).map fun i => debt i.1.2.callback)).mp ?_
  refine hpaid.trans ((hbalance.append_left _).trans ?_)
  rw [List.append_assoc]
  exact List.perm_append_comm.append_left _

end

end Go2
