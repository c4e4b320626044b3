import Go2Driver.CallFate
import Mathlib.Logic.Function.Basic

/-!
# Two clients on one DDS domain

Two processes publish on one request topic and read one response topic.  Each
has its own `last_id_` and its own steady clock; the robot answers a request
under the id and the api_id it carries, and every answer reaches both.

`nextId` says that ids must be unique across processes.  Nothing makes them so:
an id is a clock reading or a local increment, and `responseCallback` takes the
entry under the id of a reply whatever its api_id.

* `Domain`, `domainStep`: the two clients, what each has published, the replies.
* `Isolated`: a step hands no reply to a call of the other client.
* `Clear`: the id of the next request is no id the other client has in use.
* `isolation`: a run of clear steps is isolated; after any other step the next
  reply can reach the wrong client.

Callbacks do nothing here; a call made by a callback is the event that follows.
-/

namespace Go2

open Tables Runs Function

variable {κ : Type}

/-! ## The domain -/

inductive Side
  | left | right
deriving DecidableEq, Repr

def Side.other : Side → Side
  | .left => .right
  | .right => .left

@[simp] theorem Side.other_other (side : Side) : side.other.other = side := by
  cases side <;> rfl

theorem Side.ne_other (side : Side) : side ≠ side.other := by
  cases side <;> decide

theorem Side.eq_or_eq_other (side side' : Side) : side' = side ∨ side' = side.other := by
  cases side <;> cases side' <;> decide

/-- The requests in a history. -/
def requestsOf {ω : Type} (L : List (Out κ ω)) : List Request :=
  L.filterMap fun
    | .published req _ => some req
    | _ => none

structure Domain (κ : Type) where
  node : Side → State κ Unit
  /-- The last reading of each steady clock. -/
  reading : Side → Int
  requests : Side → List Request
  /-- What the robot has answered, and whose request each reply answers. -/
  replies : List (Side × Response)

inductive DomainEvent (κ : Type)
  | call (side : Side) (apiId : Int) (parameter : Json) (onResponse : κ) (r : Reading)
  | send (side : Side) (apiId : Int) (parameter : Json) (noreply : Bool) (r : Reading)
  | sweep (side : Side) (order : IterationOrder (PendingEntry κ)) (now : Int)
  /-- The robot answers the `k`-th request of `side`. -/
  | reply (side : Side) (k : Nat) (code : Int) (data : String)
  /-- The `k`-th reply reaches `side`. -/
  | deliver (side : Side) (k : Nat)

def silent : κ → ApiResult → Prog κ Unit Unit Unit := fun _ _ => .ret ()

section
variable (nl : Nlohmann)

/-- One event of the client of `side`. -/
def Domain.attend (d : Domain κ) (side : Side) (e : NodeEvent κ Unit Unit) (r : Reading) :
    Option (Domain κ × List (Side × Out κ Unit)) :=
  match nodeStep nl silent (d.node side) (e, fun _ => r) with
  | none => none
  | some (s, out) =>
    some ({ d with
        node := update d.node side s
        reading := update d.reading side r.steady
        requests := update d.requests side (d.requests side ++ requestsOf out) },
      out.map fun o => (side, o))

def domainStep (d : Domain κ) : DomainEvent κ → Option (Domain κ × List (Side × Out κ Unit))
  | .call side apiId parameter onResponse r =>
    -- a steady clock does not go back
    if d.reading side ≤ r.steady then
      d.attend nl side (.handler (.callThen apiId parameter onResponse fun _ => .ret ())) r
    else none
  | .send side apiId parameter noreply r =>
    if d.reading side ≤ r.steady then
      d.attend nl side (.handler (.sendThen apiId parameter noreply (.ret ()))) r
    else none
  | .sweep side order now => d.attend nl side (.sweep order) ⟨d.reading side, now⟩
  | .reply side k code data =>
    match (d.requests side)[k]? with
    | none => none
    | some req => some ({ d with replies := d.replies ++ [(side, ⟨req.id, req.apiId, code, data⟩)] }, [])
  | .deliver side k =>
    match d.replies[k]? with
    | none => none
    | some (_, msg) => d.attend nl side (.response msg) ⟨d.reading side, 0⟩

end

def Domain.start (timeoutMs reading : Side → Int) : Domain κ :=
  ⟨fun side => .start (timeoutMs side) (), reading, fun _ => [], []⟩

abbrev DomainTrace (κ : Type) := List (Step (Domain κ) (DomainEvent κ) (Side × Out κ Unit))

/-! ## The property and its condition -/

/-- A reply that reaches `side` runs a callback of `side` only if it answers a
request of `side`, with the api_id of the call. -/
def Isolated (st : Step (Domain κ) (DomainEvent κ) (Side × Out κ Unit)) : Prop :=
  ∀ side k, st.event = .deliver side k → ∀ origin msg, st.pre.replies[k]? = some (origin, msg) →
    ∀ id entry result, (side, .invoked id entry result) ∈ st.out → origin = side ∧ entry.apiId = msg.apiId

/-- With the steady clock at `steady`, the next request does not come out under `id`. -/
def UnitreeApiClient.Avoids (c : UnitreeApiClient κ) (steady id : Int) : Prop :=
  (c.lastId < steady → steady ≠ id) ∧ (steady ≤ c.lastId → c.lastId + 1 ≠ id)

/-- A call avoids every id the other client has published, and a `send` those of
the calls that wait at the other client. -/
def Clear (d : Domain κ) : DomainEvent κ → Prop
  | .call side _ _ _ r => (d.node side).client.full ∨
      ∀ req ∈ d.requests side.other, (d.node side).client.Avoids r.steady req.id
  | .send side _ _ _ r =>
      ∀ e ∈ (d.node side.other).client.pending.entries, (d.node side).client.Avoids r.steady e.1
  | .sweep _ _ _ | .reply _ _ _ _ | .deliver _ _ => True

theorem UnitreeApiClient.avoids_iff {c : UnitreeApiClient κ} {r : Reading} {id : Int} :
    c.Avoids r.steady id ↔ c.freshId r ≠ id := by
  unfold UnitreeApiClient.Avoids UnitreeApiClient.freshId
  omega

/-! ## What one event of a client publishes -/

section
variable {ω : Type} {L L' : List (Out κ ω)}

@[simp] theorem requestsOf_append : requestsOf (L ++ L') = requestsOf L ++ requestsOf L' :=
  List.filterMap_append

theorem mem_requestsOf {req : Request} : req ∈ requestsOf L ↔ ∃ entry, Out.published req entry ∈ L := by
  unfold requestsOf
  rw [List.mem_filterMap]
  constructor
  · rintro ⟨o, ho, hreq⟩
    cases o with
    | published req' entry =>
      cases hreq
      exact ⟨entry, ho⟩
    | invoked _ _ _ => cases hreq
    | log _ _ => cases hreq
    | host _ => cases hreq
  · rintro ⟨entry, ho⟩
    exact ⟨_, ho, rfl⟩

theorem map_id_requestsOf : (requestsOf L).map (·.id) = publishedIds L := by
  unfold requestsOf publishedIds
  rw [List.map_filterMap]
  congr 1
  ext o : 1
  cases o <;> rfl

end

section
variable {nl : Nlohmann} {s s' : State κ Unit} {r : Reading} {apiId : Int} {parameter : Json}
  {out : List (Out κ Unit)}

theorem nodeStep_call {onResponse : κ}
    (h : nodeStep nl silent s (.handler (.callThen apiId parameter onResponse fun _ => .ret ()),
      fun _ => r) = some (s', out)) :
    (s.client.full ∧ ∀ req entry, Out.published req entry ∉ out) ∨
    (¬ s.client.full ∧ ∃ text, out = [.published ⟨s.client.freshId r, apiId, false, text⟩
      (some (s.client.newEntry r apiId onResponse))]) := by
  obtain ⟨n, hp, -, rfl⟩ := (nodeStep_eq_some nl silent).mp h
  simp only [State.perform, Node.perform, exec] at hp
  rcases hc : Node.call nl apiId parameter onResponse ⟨s, fun _ => r, []⟩ with ⟨n₁, f | sent⟩
  · rw [hc] at hp
    simp at hp
  · rw [hc] at hp
    simp only [Prod.mk.injEq, and_true] at hp
    subst hp
    obtain ⟨hf, -, rfl⟩ | ⟨hf, -, text, -, rfl⟩ := Node.call_cases nl hc
    · refine .inl ⟨hf, fun req entry hm => ?_⟩
      rw [Node.log, Node.emit_out, List.nil_append, List.mem_singleton] at hm
      cases hm
    · exact .inr ⟨hf, text, rfl⟩

theorem nodeStep_send {noreply : Bool}
    (h : nodeStep nl silent s (.handler (.sendThen apiId parameter noreply (.ret ())), fun _ => r) =
      some (s', out)) :
    ∃ text, out = [.published ⟨s.client.freshId r, apiId, noreply, text⟩ none] := by
  obtain ⟨n, hp, -, rfl⟩ := (nodeStep_eq_some nl silent).mp h
  simp only [State.perform, Node.perform, exec] at hp
  rcases hc : Node.send nl apiId parameter noreply ⟨s, fun _ => r, []⟩ with ⟨n₁, f | sent⟩
  · rw [hc] at hp
    simp at hp
  · rw [hc] at hp
    simp only [Prod.mk.injEq, and_true] at hp
    subst hp
    obtain ⟨text, -, rfl⟩ := Node.send_cases nl hc
    exact ⟨text, rfl⟩

theorem invokeAll_silent (due : List (PendingEntry κ)) (n : Node κ Unit Unit) :
    n.invokeAll nl silent due =
      ({ n with out := n.out ++ due.map fun e => .invoked e.1 e.2 timeoutResult }, .ok ()) := by
  induction due generalizing n with
  | nil => simp [Node.invokeAll]
  | cons e due ih =>
    simp only [Node.invokeAll, Node.invoke, silent, exec]
    rw [ih]
    simp [Node.emit, timeoutResult]

/-- A reply to a pending call, where callbacks do nothing. -/
theorem nodeStep_response_silent {msg : Response} {entry : PendingRequest κ} {clk : Clock}
    (hl : s.client.pending.lookup msg.id = some entry) :
    nodeStep nl silent s (.response msg, clk) =
      some (⟨{ s.client with pending := s.client.pending.erase msg.id }, ()⟩,
        mismatchLog msg entry ++ [.invoked msg.id entry msg.result]) := by
  refine (nodeStep_eq_some nl silent).mpr ⟨_, Node.responseCallback_some nl silent hl, rfl, ?_⟩
  rw [List.nil_append]

/-- A reply and a sweep publish nothing, where callbacks do nothing. -/
theorem nodeStep_silent {e : NodeEvent κ Unit Unit} (hev : ∀ p, e ≠ .handler p)
    (h : nodeStep nl silent s (e, fun _ => r) = some (s', out)) (req : Request)
    (entry : Option (PendingRequest κ)) : Out.published req entry ∉ out := by
  cases nodeStep_completed nl silent h with
  | handler p clk n hp => exact absurd rfl (hev p)
  | ignored msg clk hl =>
    intro hm
    cases List.mem_singleton.mp hm
  | settled msg clk entry' n hl hp =>
    cases hp
    show Out.published req entry ∉ mismatchLog msg entry' ++ [.invoked msg.id entry' msg.result]
    rw [List.mem_append, List.mem_singleton]
    rintro (hm | hm)
    · exact (warnings_mismatchLog msg entry').published_notMem req entry hm
    · cases hm
  | nonePending order clk hempty => exact List.not_mem_nil
  | swept order clk n hp =>
    rw [invokeAll_silent, Prod.mk.injEq] at hp
    simp [← hp.1, Node.swept, timeoutLog]

end

/-! ## What holds in every run -/

section
variable {nl : Nlohmann} {d d' : Domain κ} {side : Side} {ev : NodeEvent κ Unit Unit} {r : Reading}
  {out : List (Side × Out κ Unit)}

/-- One client acts, the other stays as it is. -/
theorem Domain.attend_cases (h : d.attend nl side ev r = some (d', out)) :
    ∃ o, nodeStep nl silent (d.node side) (ev, fun _ => r) = some (d'.node side, o) ∧
      out = o.map (fun x => (side, x)) ∧ d'.requests side = d.requests side ++ requestsOf o ∧
      d'.node side.other = d.node side.other ∧ d'.requests side.other = d.requests side.other ∧
      d'.replies = d.replies := by
  unfold Domain.attend at h
  split at h
  · cases h
  · next s o hs =>
    rw [Option.some.injEq, Prod.mk.injEq] at h
    obtain ⟨rfl, rfl⟩ := h
    have hne : side.other ≠ side := side.ne_other.symm
    refine ⟨o, ?_, rfl, update_self .., update_of_ne hne .., update_of_ne hne .., rfl⟩
    simp only [hs, update_self]

theorem Domain.attend_eq {s : State κ Unit} {o : List (Out κ Unit)}
    (h : nodeStep nl silent (d.node side) (ev, fun _ => r) = some (s, o)) :
    d.attend nl side ev r = some ({ d with
        node := update d.node side s
        reading := update d.reading side r.steady
        requests := update d.requests side (d.requests side ++ requestsOf o) },
      o.map fun x => (side, x)) := by
  unfold Domain.attend
  rw [h]

/-- The client `c` published `reqs`, and each waiting call is one of them. -/
def Published (c : UnitreeApiClient κ) (reqs : List Request) : Prop :=
  ∃ L : List (Out κ Unit), Ledger L [] c ∧ requestsOf L = reqs ∧
    ∀ req entry, Out.published req (some entry) ∈ L → entry.apiId = req.apiId

/-- What a run keeps, whatever the ids. -/
structure Domain.Sound (d : Domain κ) : Prop where
  published : ∀ side, Published (d.node side).client (d.requests side)
  echoed : ∀ p ∈ d.replies, ∃ req ∈ d.requests p.1, req.id = p.2.id ∧ req.apiId = p.2.apiId

/-- No call waits under an id of a request of the other client. -/
def Domain.Apart (d : Domain κ) : Prop :=
  ∀ side, ∀ e ∈ (d.node side).client.pending.entries, ∀ req ∈ d.requests side.other, req.id ≠ e.1

theorem Published.start (timeoutMs : Int) : Published (⟨∅, timeoutMs, 0⟩ : UnitreeApiClient κ) [] :=
  ⟨[], Ledger.start timeoutMs, rfl, by simp⟩

theorem Published.request {c : UnitreeApiClient κ} {reqs : List Request} (h : Published c reqs)
    {e : PendingEntry κ} (he : e ∈ c.pending.entries) : ∃ req ∈ reqs, req.id = e.1 := by
  obtain ⟨L, hL, rfl, -⟩ := h
  obtain ⟨req, hm, hid⟩ := mem_calls.mp (hL.call_of_pending he)
  exact ⟨req, mem_requestsOf.mpr ⟨_, hm⟩, hid⟩

/-- A request under the id of a waiting call is the request of that call. -/
theorem Published.apiId {c : UnitreeApiClient κ} {reqs : List Request} (h : Published c reqs)
    {e : PendingEntry κ} (he : e ∈ c.pending.entries) {req : Request} (hreq : req ∈ reqs)
    (hid : req.id = e.1) : e.2.apiId = req.apiId := by
  obtain ⟨L, hL, rfl, hlabel⟩ := h
  obtain ⟨req', hm, hid'⟩ := mem_calls.mp (hL.call_of_pending he)
  have hnd : ((requestsOf L).map (·.id)).Nodup := by
    rw [map_id_requestsOf]
    exact hL.increasing.imp fun hlt => Int.ne_of_lt hlt
  have heq : req' = req :=
    List.inj_on_of_nodup_map hnd (mem_requestsOf.mpr ⟨_, hm⟩) hreq (hid'.trans hid.symm)
  exact heq ▸ hlabel req' e.2 hm

theorem Published.step {s s' : State κ Unit} {reqs : List Request} {o : List (Out κ Unit)}
    (h : Published s.client reqs) (hs : nodeStep nl silent s (ev, fun _ => r) = some (s', o))
    (hlabel : ∀ req entry, Out.published req (some entry) ∈ o → entry.apiId = req.apiId) :
    Published s'.client (reqs ++ requestsOf o) := by
  obtain ⟨L, hL, rfl, hold⟩ := h
  refine ⟨L ++ o, Ledger.step nl silent hL hs, requestsOf_append, fun req entry hm => ?_⟩
  rcases List.mem_append.mp hm with hm | hm
  · exact hold req entry hm
  · exact hlabel req entry hm

theorem Domain.Sound.start (timeoutMs reading : Side → Int) :
    (Domain.start timeoutMs reading : Domain κ).Sound :=
  ⟨fun side => Published.start (timeoutMs side), by simp [Domain.start]⟩

theorem Domain.Sound.attend (h : d.Sound) (ha : d.attend nl side ev r = some (d', out))
    (hlabel : ∀ req entry, (side, Out.published req (some entry)) ∈ out → entry.apiId = req.apiId) :
    d'.Sound := by
  obtain ⟨o, hs, rfl, hreqs, hnode, hother, hreplies⟩ := Domain.attend_cases ha
  constructor
  · intro x
    rcases side.eq_or_eq_other x with rfl | rfl
    · rw [hreqs]
      exact (h.published x).step hs fun req entry hm => hlabel req entry (List.mem_map_of_mem hm)
    · rw [hnode, hother]
      exact h.published side.other
  · rintro ⟨x, msg⟩ hp
    rw [hreplies] at hp
    obtain ⟨req, hreq, hecho⟩ := h.echoed _ hp
    refine ⟨req, ?_, hecho⟩
    rcases side.eq_or_eq_other x with rfl | rfl
    · rw [hreqs]
      exact List.mem_append_left _ hreq
    · rw [hother]
      exact hreq

theorem Domain.Sound.reply (h : d.Sound) {req : Request} (hreq : req ∈ d.requests side) (code : Int)
    (data : String) :
    ({ d with replies := d.replies ++ [(side, ⟨req.id, req.apiId, code, data⟩)] } : Domain κ).Sound := by
  refine ⟨h.published, fun p hp => ?_⟩
  rcases List.mem_append.mp hp with hp | hp
  · exact h.echoed p hp
  · rw [List.mem_singleton.mp hp]
    exact ⟨req, hreq, rfl, rfl⟩

/-- An event keeps the clients apart if what it publishes is under no id that
the other client has in use. -/
theorem Domain.Apart.attend (h : d.Apart) (hsound : d.Sound)
    (ha : d.attend nl side ev r = some (d', out))
    (hcall : ∀ req entry, (side, Out.published req (some entry)) ∈ out →
      ∀ req' ∈ d.requests side.other, req'.id ≠ req.id)
    (hreq : ∀ req entry, (side, Out.published req entry) ∈ out →
      ∀ e ∈ (d.node side.other).client.pending.entries, req.id ≠ e.1) : d'.Apart := by
  obtain ⟨o, hs, rfl, hreqs, hnode, hother, -⟩ := Domain.attend_cases ha
  obtain ⟨L, hL, -, -⟩ := hsound.published side
  intro x e he req hr
  rcases side.eq_or_eq_other x with rfl | rfl
  · -- the client that acted
    rw [hother] at hr
    rcases List.mem_append.mp ((nodeStep_pending hL hs).symm.subset (List.mem_append_right _ he)) with
      hc | hp
    · obtain ⟨req', hm, hid⟩ := mem_calls.mp hc
      rw [← hid]
      exact hcall req' e.2 (List.mem_map_of_mem hm) req hr
    · exact h x e hp req hr
  · rw [hnode] at he
    rw [Side.other_other, hreqs] at hr
    rcases List.mem_append.mp hr with hr | hr
    · exact h side.other e he req (by rwa [Side.other_other])
    · obtain ⟨entry, hm⟩ := mem_requestsOf.mp hr
      exact hreq req entry (List.mem_map_of_mem hm) e he

theorem Domain.Apart.start (timeoutMs reading : Side → Int) :
    (Domain.start timeoutMs reading : Domain κ).Apart := by
  intro side e he
  cases he

/-- What an event of the domain can do. -/
inductive DomainTransition (nl : Nlohmann) (d : Domain κ) :
    DomainEvent κ → Domain κ → List (Side × Out κ Unit) → Prop
  | refused {side apiId parameter onResponse r p d' out} : (d.node side).client.full →
      d.attend nl side (.handler p) r = some (d', out) →
      (∀ req entry, (side, Out.published req entry) ∉ out) →
      DomainTransition nl d (.call side apiId parameter onResponse r) d' out
  | called {side apiId parameter onResponse r p d' text} : ¬ (d.node side).client.full →
      d.attend nl side (.handler p) r =
        some (d', [(side, .published ⟨(d.node side).client.freshId r, apiId, false, text⟩
          (some ((d.node side).client.newEntry r apiId onResponse)))]) →
      DomainTransition nl d (.call side apiId parameter onResponse r) d'
        [(side, .published ⟨(d.node side).client.freshId r, apiId, false, text⟩
          (some ((d.node side).client.newEntry r apiId onResponse)))]
  | sent {side apiId parameter noreply r p d' text} :
      d.attend nl side (.handler p) r =
        some (d', [(side, .published ⟨(d.node side).client.freshId r, apiId, noreply, text⟩ none)]) →
      DomainTransition nl d (.send side apiId parameter noreply r) d'
        [(side, .published ⟨(d.node side).client.freshId r, apiId, noreply, text⟩ none)]
  | swept {side order now d' out} :
      d.attend nl side (.sweep order) ⟨d.reading side, now⟩ = some (d', out) →
      (∀ req entry, (side, Out.published req entry) ∉ out) →
      DomainTransition nl d (.sweep side order now) d' out
  | replied {side k code data req} : (d.requests side)[k]? = some req →
      DomainTransition nl d (.reply side k code data)
        { d with replies := d.replies ++ [(side, ⟨req.id, req.apiId, code, data⟩)] } []
  | delivered {side k origin msg d' out} : d.replies[k]? = some (origin, msg) →
      d.attend nl side (.response msg) ⟨d.reading side, 0⟩ = some (d', out) →
      (∀ req entry, (side, Out.published req entry) ∉ out) →
      DomainTransition nl d (.deliver side k) d' out

theorem Domain.attend_silent (ha : d.attend nl side ev r = some (d', out)) (hev : ∀ p, ev ≠ .handler p)
    (req : Request) (entry : Option (PendingRequest κ)) : (side, Out.published req entry) ∉ out := by
  obtain ⟨o, hs, rfl, -⟩ := Domain.attend_cases ha
  intro hm
  obtain ⟨x, hx, heq⟩ := List.mem_map.mp hm
  cases heq
  exact nodeStep_silent hev hs req entry hx

theorem domainStep_transition {e : DomainEvent κ} (h : domainStep nl d e = some (d', out)) :
    DomainTransition nl d e d' out := by
  cases e with
  | call side apiId parameter onResponse r =>
    simp only [domainStep] at h
    split at h
    · have ha := h
      obtain ⟨o, hs, rfl, -⟩ := Domain.attend_cases h
      rcases nodeStep_call hs with ⟨hf, hno⟩ | ⟨hf, text, rfl⟩
      · refine .refused hf ha fun req entry hm => ?_
        obtain ⟨x, hx, heq⟩ := List.mem_map.mp hm
        cases heq
        exact hno req entry hx
      · exact .called hf ha
    · cases h
  | send side apiId parameter noreply r =>
    simp only [domainStep] at h
    split at h
    · have ha := h
      obtain ⟨o, hs, rfl, -⟩ := Domain.attend_cases h
      obtain ⟨text, rfl⟩ := nodeStep_send hs
      exact .sent ha
    · cases h
  | sweep side order now => exact .swept h (Domain.attend_silent h (by simp))
  | reply side k code data =>
    simp only [domainStep] at h
    split at h
    · cases h
    · next req hreq =>
      rw [Option.some.injEq, Prod.mk.injEq] at h
      obtain ⟨rfl, rfl⟩ := h
      exact .replied hreq
  | deliver side k =>
    simp only [domainStep] at h
    split at h
    · cases h
    · next origin msg hk => exact .delivered hk h (Domain.attend_silent h (by simp))

theorem Domain.Sound.step {e : DomainEvent κ} (h : d.Sound) (hs : domainStep nl d e = some (d', out)) :
    d'.Sound := by
  cases domainStep_transition hs with
  | refused _ ha hno => exact h.attend ha fun req entry hm => absurd hm (hno _ _)
  | called _ ha =>
    refine h.attend ha fun req entry hm => ?_
    cases List.mem_singleton.mp hm
    rfl
  | sent ha =>
    refine h.attend ha fun req entry hm => ?_
    cases List.mem_singleton.mp hm
  | swept ha hno => exact h.attend ha fun req entry hm => absurd hm (hno _ _)
  | replied hreq => exact h.reply (List.mem_of_getElem? hreq) _ _
  | delivered _ ha hno => exact h.attend ha fun req entry hm => absurd hm (hno _ _)

/-- An event that publishes nothing, or under a clear id, keeps the clients apart. -/
theorem Domain.Apart.step {e : DomainEvent κ} (h : d.Apart) (hsound : d.Sound)
    (hs : domainStep nl d e = some (d', out)) (hclear : Clear d e) : d'.Apart := by
  have hquiet : ∀ {side ev r}, d.attend nl side ev r = some (d', out) →
      (∀ req entry, (side, Out.published req entry) ∉ out) → d'.Apart :=
    fun ha hno => h.attend hsound ha (fun _ _ hm => absurd hm (hno _ _)) fun _ _ hm => absurd hm (hno _ _)
  cases domainStep_transition hs with
  | refused _ ha hno => exact hquiet ha hno
  | @called side _ _ _ r _ _ _ hf ha =>
    have hfresh := hclear.resolve_left hf
    refine h.attend hsound ha ?_ ?_
    · intro req entry hm req' hreq'
      cases List.mem_singleton.mp hm
      exact (UnitreeApiClient.avoids_iff.mp (hfresh req' hreq')).symm
    · intro req entry hm e he
      cases List.mem_singleton.mp hm
      -- the call that waits at the other client is one of its requests
      obtain ⟨req', hreq', hid'⟩ := (hsound.published side.other).request he
      rw [← hid']
      exact UnitreeApiClient.avoids_iff.mp (hfresh req' hreq')
  | sent ha =>
    refine h.attend hsound ha ?_ ?_
    · intro req entry hm
      cases List.mem_singleton.mp hm
    · intro req entry hm e he
      cases List.mem_singleton.mp hm
      exact UnitreeApiClient.avoids_iff.mp (hclear e he)
  | swept ha hno => exact hquiet ha hno
  | replied hreq => exact h
  | delivered _ ha hno => exact hquiet ha hno

/-! ## Isolation -/

theorem Domain.Apart.isolated {st : Step (Domain κ) (DomainEvent κ) (Side × Out κ Unit)}
    (h : st.pre.Apart) (hsound : st.pre.Sound)
    (hs : domainStep nl st.pre st.event = some (st.post, st.out)) : Isolated st := by
  intro side k hev origin msg hk id entry result hm
  rw [hev] at hs
  simp only [domainStep, hk] at hs
  obtain ⟨o, hn, hout, -⟩ := Domain.attend_cases hs
  rw [hout] at hm
  obtain ⟨x, hx, heq⟩ := List.mem_map.mp hm
  cases heq
  have htaken : ((⟨id, entry⟩ : PendingEntry κ), result) ∈ invocations o :=
    List.mem_filterMap.mpr ⟨_, hx, rfl⟩
  rw [nodeStep_invocations hn, State.mem_taken] at htaken
  obtain ⟨hp, hid, -⟩ := htaken
  obtain ⟨req, hreq, hid', happ⟩ := hsound.echoed _ (List.mem_of_getElem? hk)
  rcases side.eq_or_eq_other origin with rfl | rfl
  · refine ⟨rfl, ?_⟩
    rw [← happ]
    exact (hsound.published origin).apiId hp hreq (hid'.trans hid)
  · exact absurd (hid'.trans hid) (h side _ hp req hreq)

/-- A request under the id of a call that waits at the other client: answered, it
runs that call's callback. -/
theorem Domain.crosses {e : PendingEntry κ} (he : e ∈ (d.node side).client.pending.entries)
    {req : Request} (hreq : req ∈ d.requests side.other) (hid : req.id = e.1) :
    ∃ tr d', Run (domainStep nl) d tr d' ∧ ∃ st ∈ tr, ¬ Isolated st := by
  obtain ⟨k, hk⟩ := List.getElem?_of_mem hreq
  let msg : Response := ⟨req.id, req.apiId, 0, ""⟩
  let answered : Domain κ := { d with replies := d.replies ++ [(side.other, msg)] }
  have hanswer : domainStep nl d (.reply side.other k 0 "") = some (answered, []) := by
    simp only [domainStep, hk]
    rfl
  have hlast : answered.replies[d.replies.length]? = some (side.other, msg) := by
    simp [answered]
  have hl : (answered.node side).client.pending.lookup msg.id = some e.2 := by
    rw [show msg.id = e.1 from hid]
    exact lookup_eq_some_iff.mpr he
  obtain ⟨d', out, hdeliver, hinvoked⟩ : ∃ d' out,
      domainStep nl answered (.deliver side d.replies.length) = some (d', out) ∧
        (side, Out.invoked msg.id e.2 msg.result) ∈ out := by
    simp only [domainStep, hlast]
    exact ⟨_, _, Domain.attend_eq (nodeStep_response_silent hl), by simp⟩
  refine ⟨_, d', .cons hanswer (.cons hdeliver .nil), _, List.mem_cons_of_mem _ List.mem_cons_self, ?_⟩
  intro hiso
  exact Side.ne_other side (hiso side _ rfl side.other msg hlast msg.id e.2 msg.result hinvoked).1.symm

theorem eq_singleton_of_map {x : Out κ Unit} {o : List (Out κ Unit)}
    (h : [(side, x)] = o.map fun y => (side, y)) : o = [x] := by
  refine List.map_injective_iff.mpr (fun y z hyz => ?_) h.symm
  exact (Prod.mk.inj hyz).2

/-- After a step that is not clear, the robot's next reply can reach the wrong client. -/
theorem Domain.Sound.crosses {e : DomainEvent κ} (h : d.Sound)
    (hs : domainStep nl d e = some (d', out)) (hclear : ¬ Clear d e) :
    ∃ tr d'', Run (domainStep nl) d' tr d'' ∧ ∃ st ∈ tr, ¬ Isolated st := by
  cases domainStep_transition hs with
  | refused hf => exact absurd (.inl hf) hclear
  | @called side apiId _ onResponse r _ _ text hf ha =>
    unfold Clear at hclear
    push Not at hclear
    obtain ⟨-, req, hreq, hid⟩ := hclear
    rw [UnitreeApiClient.avoids_iff, not_not] at hid
    obtain ⟨o, hn, hout, -, -, hother, -⟩ := Domain.attend_cases ha
    obtain ⟨L, hL, -, -⟩ := h.published side
    have ho := eq_singleton_of_map hout
    have hcalled : (⟨(d.node side).client.freshId r, (d.node side).client.newEntry r apiId onResponse⟩ :
        PendingEntry κ) ∈ calls o := mem_calls.mpr ⟨_, ho ▸ List.mem_singleton_self _, rfl⟩
    exact Domain.crosses (called_pending hL hn hcalled) (hother ▸ hreq) hid.symm
  | @sent side apiId parameter noreply r p d' text ha =>
    unfold Clear at hclear
    push Not at hclear
    obtain ⟨e, he, hid⟩ := hclear
    rw [UnitreeApiClient.avoids_iff, not_not] at hid
    obtain ⟨o, hn, hout, hreqs, hnode, -, -⟩ := Domain.attend_cases ha
    have hsent : (⟨(d.node side).client.freshId r, apiId, noreply, text⟩ : Request) ∈
        d'.requests side.other.other := by
      rw [Side.other_other, hreqs, eq_singleton_of_map hout]
      exact List.mem_append_right _ (List.mem_singleton_self _)
    exact Domain.crosses (hnode ▸ he) hsent hid
  | swept => exact absurd trivial hclear
  | replied => exact absurd trivial hclear
  | delivered => exact absurd trivial hclear

variable {tr : DomainTrace κ} {timeoutMs reading : Side → Int}

theorem Domain.Sound.run (h : Run (domainStep nl) (Domain.start timeoutMs reading) tr d) : d.Sound :=
  h.invariant Domain.Sound (Domain.Sound.start timeoutMs reading) fun _ _ _ _ hI hs => hI.step hs

theorem Domain.Apart.run (h : Run (domainStep nl) (Domain.start timeoutMs reading) tr d)
    (hclear : ∀ st ∈ tr, Clear st.pre st.event) : d.Apart ∧ ∀ st ∈ tr, Isolated st := by
  refine h.traceInvariant
    (fun tr d => (∀ st ∈ tr, Clear st.pre st.event) → d.Apart ∧ ∀ st ∈ tr, Isolated st) ?_ ?_ hclear
  · exact fun _ => ⟨Domain.Apart.start timeoutMs reading, by simp⟩
  · intro tr d e d' out hr ih hs hclear
    obtain ⟨hapart, hiso⟩ := ih fun st hst => hclear st (List.mem_append_left _ hst)
    have hsound := Domain.Sound.run hr
    have hlast : Clear d e := hclear ⟨d, e, out, d'⟩ (List.mem_append_right _ (List.mem_singleton.mpr rfl))
    refine ⟨hapart.step hsound hs hlast, fun st hst => ?_⟩
    rcases List.mem_append.mp hst with hst | hst
    · exact hiso st hst
    · rw [List.mem_singleton.mp hst]
      show Isolated ⟨d, e, out, d'⟩
      exact Domain.Apart.isolated hapart hsound hs

/-- **When two clients are isolated.**  In a run whose steps are all clear, no reply
runs the callback of a call of the client it does not answer, nor of a call with another
api_id.  After a step that is not clear, in any run, a reply can. -/
theorem isolation (h : Run (domainStep nl) (Domain.start timeoutMs reading) tr d) :
    ((∀ st ∈ tr, Clear st.pre st.event) → ∀ st ∈ tr, Isolated st) ∧
    ∀ e d' out, domainStep nl d e = some (d', out) → ¬ Clear d e →
      ∃ tr' d'', Run (domainStep nl) d' tr' d'' ∧ ∃ st ∈ tr', ¬ Isolated st :=
  ⟨fun hclear => (Domain.Apart.run h hclear).2,
    fun _ _ _ hs hclear => (Domain.Sound.run h).crosses hs hclear⟩

end

/-- Two calls on equal readings; the reply to the right one reaches both clients. -/
def sharedReading : DomainTrace Unit × Domain Unit :=
  execute (domainStep .small) (.start (fun _ => 2000) fun _ => 0)
    [.call .left 1015 emptyJson () ⟨5, 0⟩, .call .right 1028 emptyJson () ⟨5, 0⟩,
      .reply .right 0 0 "done", .deliver .left 0, .deliver .right 0]

/-- The result of the right client's call is given to the left client's call. -/
theorem foreign_reply_delivered :
    (∃ st ∈ sharedReading.1, st.event = .deliver .left 0 ∧
      st.pre.replies = [(.right, ⟨5, 1028, 0, "done"⟩)] ∧
      (.left, .invoked 5 ⟨1015, 2000000000, ()⟩ ⟨true, 0, "done"⟩) ∈ st.out) ∧
    ¬ ∀ (tr : DomainTrace Unit) d, Run (domainStep .small) (.start (fun _ => 2000) fun _ => 0) tr d →
      ∀ st ∈ tr, Isolated st := by
  have hcross : ∃ st ∈ sharedReading.1, st.event = .deliver .left 0 ∧
      st.pre.replies = [(.right, ⟨5, 1028, 0, "done"⟩)] ∧
      (.left, .invoked 5 ⟨1015, 2000000000, ()⟩ ⟨true, 0, "done"⟩) ∈ st.out :=
    ⟨_, List.mem_of_getElem? (i := 3) rfl, rfl, rfl, .tail _ (.head _)⟩
  refine ⟨hcross, fun hall => ?_⟩
  obtain ⟨st, hst, hev, hreplies, hm⟩ := hcross
  have hiso := hall _ _ (Run.execute _ _ _) st hst
  have hfirst : st.pre.replies[0]? = some (.right, ⟨5, 1028, 0, "done"⟩) := by rw [hreplies]; rfl
  exact absurd (hiso .left 0 hev _ _ hfirst _ _ _ hm).1 (by decide)

/-- The same two calls on readings of their own. -/
def ownReadings : DomainTrace Unit × Domain Unit :=
  execute (domainStep .small) (.start (fun _ => 2000) fun _ => 0)
    [.call .left 1015 emptyJson () ⟨5, 0⟩, .call .right 1028 emptyJson () ⟨6, 0⟩,
      .reply .right 0 0 "done", .deliver .left 0, .deliver .right 0]

/-- The left client's call alone. -/
def leftCall : DomainTrace Unit × Domain Unit :=
  execute (domainStep .small) (.start (fun _ => 2000) fun _ => 0) [.call .left 1015 emptyJson () ⟨5, 0⟩]

theorem isolation_ownReadings :
    ownReadings.1.length = 5 ∧ (∀ st ∈ ownReadings.1, Isolated st) ∧
      ∃ d' out, domainStep .small leftCall.2 (.call .right 1028 emptyJson () ⟨5, 0⟩) = some (d', out) ∧
        ∃ tr d'', Run (domainStep .small) d' tr d'' ∧ ∃ st ∈ tr, ¬ Isolated st := by
  have hown : Run (domainStep .small) _ ownReadings.1 ownReadings.2 := Run.execute _ _ _
  have hleft : Run (domainStep .small) _ leftCall.1 leftCall.2 := Run.execute _ _ _
  obtain ⟨d', out, hstep⟩ : ∃ d' out,
      domainStep .small leftCall.2 (.call .right 1028 emptyJson () ⟨5, 0⟩) = some (d', out) := ⟨_, _, rfl⟩
  refine ⟨rfl, (isolation hown).1 ?_, d', out, hstep, (isolation hleft).2 _ d' out hstep ?_⟩
  · refine List.forall_mem_cons.mpr ⟨.inr (fun _ h => nomatch h), List.forall_mem_cons.mpr ⟨.inr ?_, ?_⟩⟩
    · -- the left client's only request is under 5
      refine List.forall_mem_singleton.mpr ?_
      unfold UnitreeApiClient.Avoids
      decide
    · exact List.forall_mem_cons.mpr ⟨trivial, List.forall_mem_cons.mpr ⟨trivial,
        List.forall_mem_singleton.mpr trivial⟩⟩
  · rintro (hfull | hclear)
    · exact absurd hfull (by decide)
    · have hid := hclear ⟨5, 1015, false, "\x7b\x7d"⟩ (List.mem_singleton.mpr rfl)
      exact hid.1 (by decide) rfl

end Go2
