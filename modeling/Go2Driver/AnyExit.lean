import Go2Driver.CallFate

/-!
# Whatever a callback ends in

A callback may end in an exception, and the state it leaves behind is there for whoever
survives it.  `Exits` is `Stable` with what holds at every exit, also where `call` and
`send` throw because their parameter cannot be written; `Kept` is what stays as it was.

* `Exits.exec`, `Exits.invokeAll`: a program, the callbacks of a sweep.
* `survivedStep`: an event, whichever way it ends.
* `survived_issued`: the ids in the table were all given out, so a fresh id is in none.
-/

namespace Go2

open Tables Runs

section
variable {κ θ ω α : Type}

/-- The node where `send` threw: the id is used up. -/
def Node.sendThrew (n : Node κ θ ω) : Node κ θ ω :=
  { n with client := n.client.afterSend (n.clock 0), clock := n.clock.tail }

/-- The node where `call` threw: the entry is registered, and nothing is published. -/
def Node.callThrew (apiId : Int) (onResponse : κ) (n : Node κ θ ω) : Node κ θ ω :=
  { n with client := n.client.afterCall (n.clock 0) apiId onResponse, clock := n.clock.tail }

/-- `P` holds as long as a program runs, and `Q` of the node it leaves, however it ends. -/
structure Exits (P Q : Node κ θ ω → Prop) : Prop extends Stable P where
  ends : ∀ n, P n → Q n
  sendThrew : ∀ n, P n → Q n.sendThrew
  callThrew : ∀ n apiId onResponse, ¬ n.client.full → P n → Q (n.callThrew apiId onResponse)

/-- Kept by whatever a program can do to its node, however it ends. -/
structure Kept (P : Node κ θ ω → Prop) : Prop extends Stable P where
  sendThrew : ∀ n, P n → P n.sendThrew
  callThrew : ∀ n apiId onResponse, ¬ n.client.full → P n → P (n.callThrew apiId onResponse)

theorem Kept.exits {P : Node κ θ ω → Prop} (hP : Kept P) : Exits P P where
  toStable := hP.toStable
  ends _ h := h
  sendThrew := hP.sendThrew
  callThrew := hP.callThrew

variable (nl : Nlohmann) {P Q : Node κ θ ω → Prop}

theorem Exits.call (hP : Exits P Q) {apiId : Int} {parameter : Json} {onResponse : κ}
    {n n' : Node κ θ ω} {f : Fault} (h : n.call nl apiId parameter onResponse = (n', .error f))
    (hn : P n) : Q n' := by
  by_cases hf : n.client.full
  · rw [Node.call_full nl hf] at h
    cases h
  · rw [Node.call_eq nl hf] at h
    cases hd : nl.dump parameter with
    | none =>
      rw [hd] at h
      cases h
      exact hP.callThrew n apiId onResponse hf hn
    | some text =>
      rw [hd] at h
      cases h

theorem Exits.send (hP : Exits P Q) {apiId : Int} {parameter : Json} {noreply : Bool}
    {n n' : Node κ θ ω} {f : Fault} (h : n.send nl apiId parameter noreply = (n', .error f))
    (hn : P n) : Q n' := by
  rw [Node.send_eq] at h
  cases hd : nl.dump parameter with
  | none =>
    rw [hd] at h
    cases h
    exact hP.sendThrew n hn
  | some text =>
    rw [hd] at h
    cases h

/-- By induction on what the program does next. -/
theorem Exits.exec (hP : Exits P Q) (p : Prog κ θ ω α) {n : Node κ θ ω} (hn : P n) :
    Q (exec nl p n).1 := by
  induction p generalizing n with
  | ret a => exact hP.ends n hn
  | raise f => exact hP.ends n hn
  | callThen apiId parameter onResponse next ih =>
    simp only [Go2.exec]
    rcases hc : n.call nl apiId parameter onResponse with ⟨n', f | sent⟩
    · exact hP.call nl hc hn
    · exact ih sent (hP.toStable.call nl hc hn)
  | sendThen apiId parameter noreply next ih =>
    simp only [Go2.exec]
    rcases hc : n.send nl apiId parameter noreply with ⟨n', f | _⟩
    · exact hP.send nl hc hn
    · obtain ⟨text, -, rfl⟩ := n.send_cases nl hc
      exact ih (hP.sent _ _ _ _ hn)
  | readThen next ih => exact ih _ hn
  | writeThen h next ih => exact ih (hP.host _ _ hn)
  | emitThen o next ih => exact ih (hP.quiet _ _ rfl hn)
  | logThen sev text next ih => exact ih (hP.quiet _ _ rfl hn)

theorem Kept.exec (hP : Kept P) (p : Prog κ θ ω α) {n : Node κ θ ω} (hn : P n) :
    P (exec nl p n).1 :=
  hP.exits.exec nl p hn

variable (body : κ → ApiResult → Prog κ θ ω Unit)

/-- The callbacks of a sweep, up to one that throws, for what is not about which were run. -/
theorem Exits.invokeAll (hP : Exits P Q)
    (hinv : ∀ n id entry result, P n → P (n.emit (.invoked id entry result)))
    (due : List (PendingEntry κ)) {n : Node κ θ ω} (hn : P n) : Q (n.invokeAll nl body due).1 := by
  induction due generalizing n with
  | nil => exact hP.ends n hn
  | cons e due ih =>
    have hone : Q (n.invoke nl body e.1 e.2 timeoutResult).1 := hP.exec nl _ (hinv _ _ _ _ hn)
    rcases hi : n.invoke nl body e.1 e.2 timeoutResult with ⟨n', f | _⟩
    · rw [hi] at hone
      rw [Node.invokeAll_cons_error nl body hi]
      exact hone
    · rw [Node.invokeAll_cons_ok nl body hi]
      exact ih (hP.toStable.invoke nl body hi (hinv _ _ _ _ hn))

theorem Kept.invokeAll (hP : Kept P)
    (hinv : ∀ n id entry result, P n → P (n.emit (.invoked id entry result)))
    (due : List (PendingEntry κ)) {n : Node κ θ ω} (hn : P n) : P (n.invokeAll nl body due).1 :=
  hP.exits.invokeAll nl body hinv due hn

/-- Where every callback returns, so do the callbacks of a sweep. -/
theorem invokeAll_returns {due : List (PendingEntry κ)}
    (hret : ∀ e ∈ due, ∀ n : Node κ θ ω, (exec nl (body e.2.callback timeoutResult) n).2 = .ok ())
    (n : Node κ θ ω) : (n.invokeAll nl body due).2 = .ok () := by
  induction due generalizing n with
  | nil => rfl
  | cons e due ih =>
    have hone : (n.invoke nl body e.1 e.2 timeoutResult).2 = .ok () :=
      hret e List.mem_cons_self (n.emit (.invoked e.1 e.2 timeoutResult))
    rcases hi : n.invoke nl body e.1 e.2 timeoutResult with ⟨n', f | _⟩
    · rw [hi] at hone
      cases hone
    · rw [Node.invokeAll_cons_ok nl body hi]
      apply ih
      intro e' he'
      exact hret e' (List.mem_cons_of_mem _ he')

/-! ## Events that are survived -/

/-- One event.  The exception it may end in is survived. -/
def survivedStep (s : State κ θ) (e : NodeEvent κ θ ω × Clock) : Option (State κ θ × List (Out κ ω)) :=
  some ((s.perform nl body e).1.toState, (s.perform nl body e).1.out)

/-- The ids in the table are none that is still to be given out. -/
def UnitreeApiClient.Issued (c : UnitreeApiClient κ) : Prop := ∀ e ∈ c.pending.entries, e.1 ≤ c.lastId

theorem UnitreeApiClient.Issued.freshId_notMem {c : UnitreeApiClient κ} (h : c.Issued) (r : Reading) :
    c.freshId r ∉ c.pending := by
  intro hm
  obtain ⟨v, hv⟩ := mem_iff_lookup.mp hm
  have hle := h _ (lookup_eq_some_iff.mp hv)
  have hlt := c.lastId_lt_freshId r
  simp only at hle
  omega

theorem Ledger.issued {L : List (Out κ ω)} {due : List (PendingEntry κ)} {c : UnitreeApiClient κ}
    (h : Ledger L due c) : c.Issued := by
  intro e he
  exact h.id_le (h.call_of_pending he)

/-- A smaller table of the same client. -/
theorem UnitreeApiClient.Issued.subset {c : UnitreeApiClient κ} (h : c.Issued)
    {pending : Table Int (PendingRequest κ)} (hsub : pending.entries ⊆ c.pending.entries) :
    UnitreeApiClient.Issued { c with pending } := by
  intro e he
  exact h e (hsub he)

theorem UnitreeApiClient.Issued.afterSend {c : UnitreeApiClient κ} (h : c.Issued) (r : Reading) :
    (c.afterSend r).Issued := by
  intro e he
  have hle := h e he
  have hlt := c.lastId_lt_freshId r
  simp only [UnitreeApiClient.afterSend]
  omega

theorem UnitreeApiClient.Issued.entries_afterCall {c : UnitreeApiClient κ} (h : c.Issued) (r : Reading)
    (apiId : Int) (onResponse : κ) : (c.afterCall r apiId onResponse).pending.entries =
      ⟨c.freshId r, c.newEntry r apiId onResponse⟩ :: c.pending.entries :=
  entries_emplace (h.freshId_notMem r)

theorem UnitreeApiClient.Issued.afterCall {c : UnitreeApiClient κ} (h : c.Issued) (r : Reading)
    (apiId : Int) (onResponse : κ) : (c.afterCall r apiId onResponse).Issued := by
  intro e he
  rw [h.entries_afterCall, List.mem_cons] at he
  show e.1 ≤ c.freshId r
  rcases he with rfl | he
  · exact Int.le_refl _
  · have hle := h e he
    have hlt := c.lastId_lt_freshId r
    omega

theorem kept_issued : Kept fun n : Node κ θ ω => n.client.Issued where
  quiet _ _ _ h := h
  host _ _ h := h
  sent n _ _ _ h := h.afterSend (n.clock 0)
  called n _ _ _ _ h := h.afterCall (n.clock 0) _ _
  sendThrew n h := h.afterSend (n.clock 0)
  callThrew n _ _ _ h := h.afterCall (n.clock 0) _ _

theorem UnitreeApiClient.Issued.perform {s : State κ θ} (h : s.client.Issued)
    (e : NodeEvent κ θ ω × Clock) : (s.perform nl body e).1.client.Issued := by
  obtain ⟨e, clk⟩ := e
  cases e with
  | handler p => exact kept_issued.exec nl p h
  | response msg =>
    simp only [State.perform, Node.perform]
    cases hl : s.client.pending.lookup msg.id with
    | none =>
      rw [Node.responseCallback_none nl body hl]
      exact h
    | some entry =>
      rw [Node.responseCallback_some nl body hl]
      apply kept_issued.exec nl
      apply h.subset
      intro e he
      exact (mem_entries_erase.mp he).1
  | sweep order =>
    simp only [State.perform, Node.perform, Node.sweepTimeouts_eq]
    split
    · exact h
    · apply kept_issued.invokeAll nl body (fun _ _ _ _ h => h)
      apply h.subset
      rw [UnitreeApiClient.entries_kept]
      exact List.filter_sublist.subset

variable {nl body} {timeoutMs : Int} {host₀ : θ} {s : State κ θ}
  {tr : List (Step (State κ θ) (NodeEvent κ θ ω × Clock) (Out κ ω))}

/-- Also where exceptions are survived. -/
theorem survived_issued (h : Run (survivedStep nl body) (State.start timeoutMs host₀) tr s) :
    s.client.Issued := by
  apply h.invariant fun s => s.client.Issued
  · intro e he
    cases he
  · intro s e s' out hs hstep
    cases hstep
    exact hs.perform nl body e

end

end Go2
