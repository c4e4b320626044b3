import Go2Driver.Lib.Runs

/-!
# A client and its server over an unreliable wire

The client is any system of `Lib.Runs`.  `Ports` says which of its outputs are
requests and which of its events deliver a reply.  The server may carry out any
request that was sent, any number of times, in any order, with any reply that
answers it, or never.  A reply may arrive at any time, any number of times, or
never; one that answers no request sent may come from elsewhere.

* `World.run_client`: what the client does is a run of the client alone, so its
  invariants hold here too.
* `World.served_eq`, `World.sent_eq`: what was served and what was sent, read off the run.
* `World.delivered_served`: a reply that answers a request sent was made by the server.
* `World.served_after_sent`: what is served was sent before.
-/

namespace Networks

open Runs

variable {σ ε ω ρ π : Type}

/-- What of a client's outputs and events is on the wire, and which reply answers
which request. -/
structure Ports (ε ω ρ π : Type) where
  sent? : ω → Option ρ
  delivers? : ε → Option π
  answers : ρ → π → Bool

/-- The client, the requests it sent, and what the server carried out, with its replies. -/
structure World (σ ρ π : Type) where
  client : σ
  sent : List ρ
  served : List (ρ × π)

inductive Action (ε ρ π : Type)
  | client (e : ε)
  | serve (request : ρ) (reply : π)

abbrev WorldTrace (σ ε ω ρ π : Type) := List (Step (World σ ρ π) (Action ε ρ π) ω)

def World.start (s : σ) : World σ ρ π := ⟨s, [], []⟩

/-! ## What a trace did, party by party -/

section

/-- A step of the client, as the client sees it. -/
def clientStep? (st : Step (World σ ρ π) (Action ε ρ π) ω) : Option (Step σ ε ω) :=
  match st.event with
  | .client e => some ⟨st.pre.client, e, st.out, st.post.client⟩
  | .serve _ _ => none

/-- The client's part of a run. -/
def clientSteps (tr : WorldTrace σ ε ω ρ π) : List (Step σ ε ω) := tr.filterMap clientStep?

def serving? (st : Step (World σ ρ π) (Action ε ρ π) ω) : Option (ρ × π) :=
  match st.event with
  | .client _ => none
  | .serve request reply => some (request, reply)

/-- The server's part: what it carried out, in order. -/
def servings (tr : WorldTrace σ ε ω ρ π) : List (ρ × π) := tr.filterMap serving?

variable {tr tr₁ tr₂ : WorldTrace σ ε ω ρ π} {st : Step (World σ ρ π) (Action ε ρ π) ω}

@[simp] theorem clientSteps_append :
    clientSteps (tr₁ ++ tr₂) = clientSteps tr₁ ++ clientSteps tr₂ := List.filterMap_append

@[simp] theorem servings_append : servings (tr₁ ++ tr₂) = servings tr₁ ++ servings tr₂ :=
  List.filterMap_append

theorem clientSteps_client {e : ε} (h : st.event = .client e) :
    clientSteps [st] = [⟨st.pre.client, e, st.out, st.post.client⟩] := by
  simp [clientSteps, clientStep?, h]

theorem clientSteps_serve {request : ρ} {reply : π} (h : st.event = .serve request reply) :
    clientSteps [st] = [] := by
  simp [clientSteps, clientStep?, h]

theorem servings_client {e : ε} (h : st.event = .client e) : servings [st] = [] := by
  simp [servings, serving?, h]

theorem servings_serve {request : ρ} {reply : π} (h : st.event = .serve request reply) :
    servings [st] = [(request, reply)] := by
  simp [servings, serving?, h]

/-- What was carried out was carried out by a step. -/
theorem split_of_servings {request : ρ} {reply : π} (h : (request, reply) ∈ servings tr) :
    ∃ tr₁ st tr₂, tr = tr₁ ++ st :: tr₂ ∧ st.event = .serve request reply := by
  unfold servings at h
  obtain ⟨st, hst, hserve⟩ := List.mem_filterMap.mp h
  obtain ⟨tr₁, tr₂, rfl⟩ := List.append_of_mem hst
  refine ⟨tr₁, st, tr₂, rfl, ?_⟩
  unfold serving? at hserve
  cases he : st.event with
  | client e =>
    rw [he] at hserve
    cases hserve
  | serve q p =>
    rw [he] at hserve
    cases hserve
    rfl

end

/-! ## Steps -/

variable [DecidableEq ρ] [DecidableEq π]

/-- The reply was made, or it answers no request sent. -/
def World.mayArrive (P : Ports ε ω ρ π) (w : World σ ρ π) (reply : π) : Bool :=
  decide (reply ∈ w.served.map (·.2)) || w.sent.all fun request => !P.answers request reply

section
variable (P : Ports ε ω ρ π) (step : σ → ε → Option (σ × List ω))

def worldStep (w : World σ ρ π) : Action ε ρ π → Option (World σ ρ π × List ω)
  | .client e =>
    if (P.delivers? e).all (w.mayArrive P) then
      (step w.client e).map fun r => (⟨r.1, w.sent ++ r.2.filterMap P.sent?, w.served⟩, r.2)
    else none
  | .serve request reply =>
    if request ∈ w.sent ∧ P.answers request reply = true then
      some (⟨w.client, w.sent, w.served ++ [(request, reply)]⟩, [])
    else none

end

variable {P : Ports ε ω ρ π} {step : σ → ε → Option (σ × List ω)} {w w' : World σ ρ π} {out : List ω}

theorem worldStep_client {e : ε} :
    worldStep P step w (.client e) = some (w', out) ↔
      (∀ reply, P.delivers? e = some reply → w.mayArrive P reply = true) ∧
      step w.client e = some (w'.client, out) ∧ w'.sent = w.sent ++ out.filterMap P.sent? ∧
      w'.served = w.served := by
  have hall : (P.delivers? e).all (w.mayArrive P) = true ↔
      ∀ reply, P.delivers? e = some reply → w.mayArrive P reply = true := by
    cases P.delivers? e with
    | none => simp
    | some reply => simp
  rw [← hall]
  simp only [worldStep]
  split
  · next h =>
    simp only [h, true_and]
    cases step w.client e with
    | none => simp
    | some r =>
      obtain ⟨s', o⟩ := r
      simp only [Option.map_some, Option.some.injEq, Prod.mk.injEq]
      constructor
      · rintro ⟨rfl, rfl⟩
        exact ⟨⟨rfl, rfl⟩, rfl, rfl⟩
      · rintro ⟨⟨rfl, rfl⟩, hsent, hserved⟩
        refine ⟨?_, rfl⟩
        rw [← hsent, ← hserved]
  · next h => simp [h]

theorem worldStep_serve {request : ρ} {reply : π} :
    worldStep P step w (.serve request reply) = some (w', out) ↔
      request ∈ w.sent ∧ P.answers request reply = true ∧
      w' = ⟨w.client, w.sent, w.served ++ [(request, reply)]⟩ ∧ out = [] := by
  simp only [worldStep]
  split
  · next h =>
    simp only [Option.some.injEq, Prod.mk.injEq, h, true_and]
    constructor
    · rintro ⟨rfl, rfl⟩
      exact ⟨rfl, rfl⟩
    · rintro ⟨rfl, rfl⟩
      exact ⟨rfl, rfl⟩
  · next h =>
    refine iff_of_false (by simp) ?_
    rintro ⟨h₁, h₂, -⟩
    exact h ⟨h₁, h₂⟩

/-! ## Runs -/

variable {tr tr₁ tr₂ : WorldTrace σ ε ω ρ π} {st : Step (World σ ρ π) (Action ε ρ π) ω} {s₀ : σ}

/-- What a run let out is what the client let out. -/
theorem World.run_client (h : Run (worldStep P step) (World.start s₀) tr w) :
    Run step s₀ (clientSteps tr) w.client ∧ history (clientSteps tr) = history tr := by
  induction h with
  | nil => exact ⟨.nil, rfl⟩
  | @snoc tr w w' a out hr ha ih =>
    obtain ⟨hrun, hhist⟩ := ih
    rw [clientSteps_append, history_snoc]
    cases a with
    | client e =>
      obtain ⟨-, hstep, -⟩ := worldStep_client.mp ha
      rw [clientSteps_client rfl, history_snoc, hhist]
      exact ⟨.snoc hrun hstep, rfl⟩
    | serve request reply =>
      obtain ⟨-, -, rfl, rfl⟩ := worldStep_serve.mp ha
      rw [clientSteps_serve rfl, List.append_nil, List.append_nil]
      exact ⟨hrun, hhist⟩

theorem World.served_eq (h : Run (worldStep P step) (World.start s₀) tr w) : w.served = servings tr := by
  induction h with
  | nil => rfl
  | @snoc tr w w' a out hr ha ih =>
    rw [servings_append]
    cases a with
    | client e =>
      obtain ⟨-, -, -, hserved⟩ := worldStep_client.mp ha
      rw [hserved, ih, servings_client rfl, List.append_nil]
    | serve request reply =>
      obtain ⟨-, -, rfl, -⟩ := worldStep_serve.mp ha
      rw [servings_serve rfl, ih]

theorem World.sent_eq (h : Run (worldStep P step) (World.start s₀) tr w) :
    w.sent = (history tr).filterMap P.sent? := by
  induction h with
  | nil => rfl
  | @snoc tr w w' a out hr ha ih =>
    rw [history_snoc, List.filterMap_append]
    cases a with
    | client e =>
      obtain ⟨-, -, hsent, -⟩ := worldStep_client.mp ha
      rw [hsent, ih]
    | serve request reply =>
      obtain ⟨-, -, rfl, rfl⟩ := worldStep_serve.mp ha
      rw [ih, List.filterMap_nil, List.append_nil]

/-- A request is sent by a step of the client. -/
theorem World.sent_origin (h : Run (worldStep P step) (World.start s₀) tr w) {request : ρ}
    (hr : request ∈ w.sent) : ∃ tr₁ st tr₂ e o, tr = tr₁ ++ st :: tr₂ ∧ st.event = .client e ∧
      o ∈ st.out ∧ P.sent? o = some request := by
  rw [World.sent_eq h, List.mem_filterMap] at hr
  obtain ⟨o, ho, hreq⟩ := hr
  unfold history at ho
  obtain ⟨st, hst, hout⟩ := List.mem_flatMap.mp ho
  obtain ⟨tr₁, tr₂, rfl⟩ := List.append_of_mem hst
  obtain ⟨-, hstep, -⟩ := Run.split h
  cases he : st.event with
  | client e => exact ⟨tr₁, st, tr₂, e, o, rfl, he, hout, hreq⟩
  | serve request' reply =>
    rw [he] at hstep
    rw [(worldStep_serve.mp hstep).2.2.2] at hout
    cases hout

/-- A reply that arrives for a request sent was made for one it answers. -/
theorem World.delivered_served (h : Run (worldStep P step) (World.start s₀) (tr₁ ++ st :: tr₂) w)
    {e : ε} {reply : π} (he : st.event = .client e) (hd : P.delivers? e = some reply) {request : ρ}
    (hsent : request ∈ st.pre.sent) (hans : P.answers request reply = true) :
    ∃ request', (request', reply) ∈ servings tr₁ ∧ P.answers request' reply = true := by
  obtain ⟨hpre, hstep, -⟩ := Run.split h
  rw [he] at hstep
  have harrive := (worldStep_client.mp hstep).1 reply hd
  unfold World.mayArrive at harrive
  rw [Bool.or_eq_true, decide_eq_true_iff, World.served_eq hpre] at harrive
  rcases harrive with hmade | hforeign
  · obtain ⟨⟨request', reply'⟩, hmem, rfl⟩ := List.mem_map.mp hmade
    refine ⟨request', hmem, ?_⟩
    obtain ⟨t₁, sv, t₂, rfl, hev⟩ := split_of_servings hmem
    obtain ⟨-, hst, -⟩ := Run.split hpre
    rw [hev] at hst
    exact (worldStep_serve.mp hst).2.1
  · have := List.all_eq_true.mp hforeign request hsent
    rw [hans] at this
    cases this

/-- What is served was sent before, by a step of the client. -/
theorem World.served_after_sent (h : Run (worldStep P step) (World.start s₀) tr w) {request : ρ}
    {reply : π} (hserved : (request, reply) ∈ servings tr) :
    ∃ t₀ st mid sv t₁ e o, tr = t₀ ++ st :: (mid ++ sv :: t₁) ∧ sv.event = .serve request reply ∧
      st.event = .client e ∧ o ∈ st.out ∧ P.sent? o = some request := by
  obtain ⟨t, sv, t₁, rfl, hev⟩ := split_of_servings hserved
  obtain ⟨hpre, hst, -⟩ := Run.split h
  rw [hev] at hst
  obtain ⟨hsent, -⟩ := worldStep_serve.mp hst
  obtain ⟨t₀, st, mid, e, o, rfl, he, ho, hreq⟩ := World.sent_origin hpre hsent
  exact ⟨t₀, st, mid, sv, t₁, e, o, by simp, hev, he, ho, hreq⟩

theorem World.served_sent (h : Run (worldStep P step) (World.start s₀) tr w) {request : ρ} {reply : π}
    (hserved : (request, reply) ∈ servings tr) : request ∈ w.sent := by
  obtain ⟨t₀, st, mid, sv, t₁, e, o, rfl, -, -, ho, hreq⟩ := World.served_after_sent h hserved
  rw [World.sent_eq h, List.mem_filterMap, history_append, history_cons]
  exact ⟨o, List.mem_append_right _ (List.mem_append_left _ ho), hreq⟩

end Networks
