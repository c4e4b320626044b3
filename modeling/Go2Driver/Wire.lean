import Go2Driver.Lib.Networks
import Go2Driver.Deferred

/-!
# A node on an unreliable wire

What `Lib.Networks` says of a node: its requests are carried out at any later time, in any
order, any number of times, with any reply under their id, or never; replies are delayed,
lost, repeated, and mixed with replies to other clients, under ids this client has not used.

A call's reply is then the reply the robot gave when it carried out the very request the
call published (`World.reply_served`), so a callback that is told of a success runs after
its request was carried out (`ok_executed`).
-/

namespace Go2

open Tables Runs Networks

section
variable {κ θ ω ε : Type}

/-- The id the robot's reply echoes. -/
def nodePorts (f : ε → NodeEvent κ θ ω × Clock) : Ports ε (Out κ ω) Request Response where
  sent?
    | .published req _ => some req
    | _ => none
  delivers? e :=
    match (f e).1 with
    | .response msg => some msg
    | _ => none
  answers req msg := decide (msg.id = req.id)

abbrev NodeWorldTrace (κ θ ω ε : Type) := WorldTrace (State κ θ) ε (Out κ ω) Request Response

theorem nodePorts_sent? {f : ε → NodeEvent κ θ ω × Clock} {o : Out κ ω} {req : Request} :
    (nodePorts f).sent? o = some req ↔ ∃ entry, o = .published req entry := by
  cases o <;> simp [nodePorts]

theorem mem_sent {f : ε → NodeEvent κ θ ω × Clock} {L : List (Out κ ω)} {req : Request} :
    req ∈ L.filterMap (nodePorts f).sent? ↔ ∃ entry, Out.published req entry ∈ L := by
  rw [List.mem_filterMap]
  constructor
  · rintro ⟨o, ho, hreq⟩
    obtain ⟨entry, rfl⟩ := nodePorts_sent?.mp hreq
    exact ⟨entry, ho⟩
  · rintro ⟨entry, ho⟩
    exact ⟨_, ho, rfl⟩

theorem mem_publishedIds {L : List (Out κ ω)} {id : Int} :
    id ∈ publishedIds L ↔ ∃ req entry, Out.published req entry ∈ L ∧ req.id = id := by
  unfold publishedIds
  rw [List.mem_filterMap]
  constructor
  · rintro ⟨o, ho, hid⟩
    cases o with
    | published req entry => exact ⟨req, entry, ho, Option.some.inj hid⟩
    | _ => cases hid
  · rintro ⟨req, entry, ho, rfl⟩
    exact ⟨_, ho, rfl⟩

/-- Requests published under one id are one. -/
theorem Ledger.published_eq {L : List (Out κ ω)} {due : List (PendingEntry κ)} {c : UnitreeApiClient κ}
    (h : Ledger L due c) {req req' : Request} {entry entry' : Option (PendingRequest κ)}
    (hp : Out.published req entry ∈ L) (hp' : Out.published req' entry' ∈ L) (hid : req.id = req'.id) :
    req = req' ∧ entry = entry' := by
  obtain ⟨L₁, L₂, rfl⟩ := List.append_of_mem hp
  have hinc := h.increasing
  have hcut : publishedIds (L₁ ++ .published req entry :: L₂) =
      publishedIds L₁ ++ req.id :: publishedIds L₂ := by
    rw [publishedIds_append]
    rfl
  rw [hcut, List.pairwise_append, List.pairwise_cons] at hinc
  obtain ⟨-, ⟨hafter, -⟩, hbefore⟩ := hinc
  rcases List.mem_append.mp hp' with hp' | hp'
  · have := hbefore _ (mem_publishedIds.mpr ⟨req', entry', hp', rfl⟩) _ List.mem_cons_self
    omega
  · rcases List.mem_cons.mp hp' with heq | hp'
    · cases heq
      exact ⟨rfl, rfl⟩
    · have := hafter _ (mem_publishedIds.mpr ⟨req', entry', hp', rfl⟩)
      omega

/-- What is published later has a larger id. -/
theorem Ledger.call_lt {L out : List (Out κ ω)} {due : List (PendingEntry κ)} {c : UnitreeApiClient κ}
    (h : Ledger (L ++ out) due c) {x : PendingEntry κ} (hx : x ∈ calls L) {req : Request}
    {entry : Option (PendingRequest κ)} (hp : Out.published req entry ∈ out) : x.1 < req.id := by
  have hinc := h.increasing
  rw [publishedIds_append, List.pairwise_append] at hinc
  exact hinc.2.2 _ ((keys_calls_sublist L).subset (List.mem_map_of_mem hx)) _
    (mem_publishedIds.mpr ⟨req, entry, hp, rfl⟩)

variable {nl : Nlohmann} {body : κ → ApiResult → Prog κ θ ω Unit}
  {step : State κ θ → ε → Option (State κ θ × List (Out κ ω))} {f : ε → NodeEvent κ θ ω × Clock}
  {timeoutMs : Int} {host₀ : θ} {w : World (State κ θ) Request Response}
  {tr tr₁ tr₂ : NodeWorldTrace κ θ ω ε}
  {st : Step (World (State κ θ) Request Response) (Action ε Request Response) (Out κ ω)}

/-- A step of the client in a run on the wire, as a step of the client's run. -/
theorem World.client_split {P : Ports ε (Out κ ω) Request Response} {e : ε}
    (h : Run (worldStep P step) (World.start (State.start timeoutMs host₀)) (tr₁ ++ st :: tr₂) w)
    (he : st.event = .client e) :
    Run step (State.start timeoutMs host₀)
      (clientSteps tr₁ ++ ⟨st.pre.client, e, st.out, st.post.client⟩ :: clientSteps tr₂) w.client ∧
    history (clientSteps tr₁) = history tr₁ := by
  have hrun := (World.run_client h).1
  rw [List.append_cons, clientSteps_append, clientSteps_append, clientSteps_client he,
    List.append_assoc] at hrun
  exact ⟨hrun, (World.run_client (Run.split h).1).2⟩

theorem World.ledger (hi : Implements nl body step f) {P : Ports ε (Out κ ω) Request Response}
    (h : Run (worldStep P step) (World.start (State.start timeoutMs host₀)) tr w) :
    Ledger (history tr) [] w.client.client := by
  obtain ⟨hrun, hhist⟩ := World.run_client h
  rw [← hhist]
  exact hi.ledger hrun

theorem World.sent_id_le (hi : Implements nl body step f)
    (h : Run (worldStep (nodePorts f) step) (World.start (State.start timeoutMs host₀)) tr w)
    {req : Request} (hr : req ∈ w.sent) : req.id ≤ w.client.client.lastId := by
  rw [World.sent_eq h] at hr
  obtain ⟨entry, hpub⟩ := mem_sent.mp hr
  exact (World.ledger hi h).bounded _ (mem_publishedIds.mpr ⟨req, entry, hpub, rfl⟩)

/-- What a client's step sends is not sent under the id of a pending call. -/
theorem World.sent_before (hi : Implements nl body step f) {w' : World (State κ θ) Request Response}
    {e : ε} {out : List (Out κ ω)}
    (h : Run (worldStep (nodePorts f) step) (World.start (State.start timeoutMs host₀)) tr w)
    (hst : worldStep (nodePorts f) step w (.client e) = some (w', out)) {x : PendingEntry κ}
    (hx : x ∈ w.client.client.pending.entries) {req : Request} (hr : req ∈ w'.sent) (hid : req.id = x.1) :
    req ∈ w.sent := by
  have hL' := World.ledger hi (.snoc h hst)
  rw [history_snoc] at hL'
  rw [(worldStep_client.mp hst).2.2.1] at hr
  refine (List.mem_append.mp hr).resolve_right fun hnew => ?_
  obtain ⟨entry, hpub⟩ := mem_sent.mp hnew
  have := hL'.call_lt ((World.ledger hi h).call_of_pending hx) hpub
  omega

/-- What a call pending at the delivery of a reply under its id was served with. -/
theorem World.reply_served (hi : Implements nl body step f)
    (h : Run (worldStep (nodePorts f) step) (World.start (State.start timeoutMs host₀))
      (tr₁ ++ st :: tr₂) w) {e : ε} (he : st.event = .client e) {msg : Response} {clk : Clock}
    (hmsg : f e = (.response msg, clk)) {x : PendingEntry κ}
    (hx : x ∈ st.pre.client.client.pending.entries) (hid : msg.id = x.1) :
    ∃ req, (req, msg) ∈ servings tr₁ ∧ req.id = x.1 ∧ Out.published req (some x.2) ∈ history tr₁ := by
  obtain ⟨hpre, -, -⟩ := Run.split h
  have hL := World.ledger hi hpre
  obtain ⟨req, hpub, hreq⟩ := mem_calls.mp (hL.call_of_pending hx)
  have hsent : req ∈ st.pre.sent := by
    rw [World.sent_eq hpre]
    exact mem_sent.mpr ⟨_, hpub⟩
  have hd : (nodePorts f).delivers? e = some msg := by
    simp [nodePorts, hmsg]
  obtain ⟨req', hserved, hans⟩ := World.delivered_served h he hd hsent
    (decide_eq_true (hid.trans hreq.symm))
  obtain ⟨t₀, rc, mid, sv, t₁, e', o, rfl, -, -, ho, hreq'⟩ := World.served_after_sent hpre hserved
  obtain ⟨entry', rfl⟩ := nodePorts_sent?.mp hreq'
  have hpub' : Out.published req' entry' ∈ history (t₀ ++ rc :: (mid ++ sv :: t₁)) := by
    rw [history_append, history_cons]
    exact List.mem_append_right _ (List.mem_append_left _ ho)
  have hid' : msg.id = req'.id := of_decide_eq_true hans
  obtain ⟨rfl, rfl⟩ := hL.published_eq hpub hpub' (by omega)
  exact ⟨req, hserved, hreq, hpub⟩

/-- **A callback is told of a success only after the robot carried out its request.**
The request its call published, and after it was published, with status code 0 and the
data the callback is given. -/
theorem ok_executed (hi : Implements nl body step f)
    (h : Run (worldStep (nodePorts f) step) (World.start (State.start timeoutMs host₀))
      (tr₁ ++ st :: tr₂) w) {x : PendingEntry κ} {result : ApiResult}
    (hinv : (x, result) ∈ invocations st.out) (hok : result.ok = true) :
    ∃ t₀ rc mid sv t₁ e req msg, tr₁ = t₀ ++ rc :: (mid ++ sv :: t₁) ∧ rc.event = .client e ∧
      Out.published req (some x.2) ∈ rc.out ∧ req.id = x.1 ∧ sv.event = .serve req msg ∧
      msg.code = statusOk ∧ result = msg.result := by
  obtain ⟨hpre, hst, -⟩ := Run.split h
  cases he : st.event with
  | serve q p =>
    rw [he] at hst
    rw [(worldStep_serve.mp hst).2.2.2] at hinv
    cases hinv
  | client e =>
    rw [he] at hst
    obtain ⟨-, hstep, -⟩ := worldStep_client.mp hst
    rw [nodeStep_invocations (hi _ _ _ hstep)] at hinv
    obtain ⟨hx, hset⟩ := State.mem_taken.mp hinv
    -- a success is a reply, not a time-out
    unfold SettledBy at hset
    cases hev : f e with
    | mk ev clk =>
      rw [hev] at hset
      cases ev with
      | handler p => exact hset.elim
      | sweep order =>
        rw [hset.2] at hok
        cases hok
      | response msg =>
        obtain ⟨hid, rfl⟩ := hset
        obtain ⟨req, hserved, hreq, hpub⟩ := World.reply_served hi h he hev hx hid
        have hL := World.ledger hi hpre
        obtain ⟨t₀, rc, mid, sv, t₁, e', o, rfl, hsv, hrc, ho, hreq'⟩ :=
          World.served_after_sent hpre hserved
        obtain ⟨entry', rfl⟩ := nodePorts_sent?.mp hreq'
        have hpub' : Out.published req entry' ∈ history (t₀ ++ rc :: (mid ++ sv :: t₁)) := by
          rw [history_append, history_cons]
          exact List.mem_append_right _ (List.mem_append_left _ ho)
        obtain ⟨-, rfl⟩ := hL.published_eq hpub hpub' rfl
        exact ⟨t₀, rc, mid, sv, t₁, e', req, msg, rfl, hrc, ho, hreq, hsv, of_decide_eq_true hok, rfl⟩

/-- An answer comes from a handler, or from the callback of a call that is settled. -/
theorem answer_settles {ρ : Type} {answer? : ω → Option (RequestId × ρ)} (hi : Implements nl body step f)
    {s s' : State κ θ} {e : ε} {out : List (Out κ ω)} (hstep : step s e = some (s', out))
    {a : RequestId × ρ} (ha : a ∈ answersOf answer? out) :
    (∃ p, (f e).1 = .handler p) ∨
    ∃ x result, (x, result) ∈ invocations out ∧ LetOut nl body x result (outputFor x.1 out) ∧
      a ∈ answersOf answer? (outputFor x.1 out) := by
  obtain ⟨o, ho, hoa⟩ := mem_answersOf.mp ha
  refine (nodeStep_host (hi _ _ _ hstep) ho).imp_right ?_
  rintro ⟨⟨x, result⟩, hinv, hout⟩
  exact ⟨x, result, hinv, outputFor_settled (hi _ _ _ hstep) hinv, mem_answersOf.mpr ⟨o, hout, hoa⟩⟩

end

end Go2
