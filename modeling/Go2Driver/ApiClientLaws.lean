import Go2Driver.ApiClient

/-!
# Laws of the client: one lemma an operation

What `call`, `send`, `responseCallback` and `sweepTimeouts` leave behind, case
by case, in terms of the node before.  Later proofs use these and do not unfold
the operations.

* `call_cases`, `send_cases`: refused, thrown, or published.
* `responseCallback_none`, `responseCallback_some`: a foreign reply, a reply to a call.
* `sweepTimeouts_eq`: the entries past their deadline, whatever the order of the walk.
* `invokeAll_rule`: what each callback of a sweep keeps holds after the last.
* `exec_bind`: a program after a program.
* `Stable`: a property that every program keeps because the client's operations do.
-/

namespace Go2

open Tables Runs

variable {κ θ ω α β : Type}

@[simp] theorem Node.emit_client (o : Out κ ω) (n : Node κ θ ω) : (n.emit o).client = n.client := rfl
@[simp] theorem Node.emit_host (o : Out κ ω) (n : Node κ θ ω) : (n.emit o).host = n.host := rfl
@[simp] theorem Node.emit_clock (o : Out κ ω) (n : Node κ θ ω) : (n.emit o).clock = n.clock := rfl
@[simp] theorem Node.emit_out (o : Out κ ω) (n : Node κ θ ω) : (n.emit o).out = n.out ++ [o] := rfl
@[simp] theorem Node.setPending_host (t) (n : Node κ θ ω) : (n.setPending t).host = n.host := rfl
@[simp] theorem Node.setPending_clock (t) (n : Node κ θ ω) : (n.setPending t).clock = n.clock := rfl
@[simp] theorem Node.setPending_out (t) (n : Node κ θ ω) : (n.setPending t).out = n.out := rfl
@[simp] theorem Node.setPending_client (t) (n : Node κ θ ω) :
    (n.setPending t).client = { n.client with pending := t } := rfl

/-! ## `call` and `send` -/

/-- The id `nextId` is about to give out. -/
def UnitreeApiClient.freshId (c : UnitreeApiClient κ) (r : Reading) : Int := max r.steady (c.lastId + 1)

/-- The entry `call` is about to register. -/
def UnitreeApiClient.newEntry (c : UnitreeApiClient κ) (r : Reading) (apiId : Int) (onResponse : κ) :
    PendingRequest κ :=
  ⟨apiId, r.now + c.timeoutMs * 1000000, onResponse⟩

/-- `pending_` is at its bound. -/
def UnitreeApiClient.full (c : UnitreeApiClient κ) : Prop := maxPending ≤ c.pending.entries.length

instance (c : UnitreeApiClient κ) : Decidable c.full := inferInstanceAs (Decidable (_ ≤ _))

def UnitreeApiClient.afterSend (c : UnitreeApiClient κ) (r : Reading) : UnitreeApiClient κ :=
  { c with lastId := c.freshId r }

def UnitreeApiClient.afterCall (c : UnitreeApiClient κ) (r : Reading) (apiId : Int) (onResponse : κ) :
    UnitreeApiClient κ :=
  ⟨emplace (c.freshId r) (c.newEntry r apiId onResponse) c.pending, c.timeoutMs, c.freshId r⟩

def UnitreeApiClient.dropText (c : UnitreeApiClient κ) (apiId : Int) : String :=
  "dropping api_id=" ++ toString apiId ++ ": " ++ toString c.pending.entries.length ++
    " requests are already awaiting a reply"

/-- The node after a request was published for a `send`. -/
def Node.sent (apiId : Int) (noreply : Bool) (text : String) (n : Node κ θ ω) : Node κ θ ω :=
  { n with
    client := n.client.afterSend (n.clock 0)
    clock := n.clock.tail
    out := n.out ++ [.published ⟨n.client.freshId (n.clock 0), apiId, noreply, text⟩ none] }

/-- The node after a request was published for a `call`. -/
def Node.called (apiId : Int) (text : String) (onResponse : κ) (n : Node κ θ ω) : Node κ θ ω :=
  { n with
    client := n.client.afterCall (n.clock 0) apiId onResponse
    clock := n.clock.tail
    out := n.out ++ [.published ⟨n.client.freshId (n.clock 0), apiId, false, text⟩
      (some (n.client.newEntry (n.clock 0) apiId onResponse))] }

@[simp] theorem Node.sent_host (a b t) (n : Node κ θ ω) : (n.sent a b t).host = n.host := rfl
@[simp] theorem Node.called_host (a t cb) (n : Node κ θ ω) : (n.called a t cb).host = n.host := rfl

section
variable (nl : Nlohmann)

theorem Node.send_eq (apiId : Int) (parameter : Json) (noreply : Bool) (n : Node κ θ ω) :
    n.send nl apiId parameter noreply = match nl.dump parameter with
      | some text => (n.sent apiId noreply text, .ok ())
      | none => ({ n with client := n.client.afterSend (n.clock 0), clock := n.clock.tail },
          .error .typeError) := by
  unfold Node.send Node.publish
  cases nl.dump parameter <;> rfl

theorem Node.call_full {apiId : Int} {parameter : Json} {onResponse : κ} {n : Node κ θ ω}
    (h : n.client.full) :
    n.call nl apiId parameter onResponse =
      (n.log .error (n.client.dropText apiId), .ok false) :=
  if_pos h

theorem Node.call_eq {apiId : Int} {parameter : Json} {onResponse : κ} {n : Node κ θ ω}
    (h : ¬ n.client.full) :
    n.call nl apiId parameter onResponse = match nl.dump parameter with
      | some text => (n.called apiId text onResponse, .ok true)
      | none => ({ n with client := n.client.afterCall (n.clock 0) apiId onResponse
                          clock := n.clock.tail }, .error .typeError) := by
  have hc : ¬ maxPending ≤ n.client.pending.entries.length := h
  unfold Node.call Node.publish
  rw [if_neg hc]
  cases nl.dump parameter <;> rfl

/-- A `call` that returns was refused or published its request. -/
theorem Node.call_cases {apiId : Int} {parameter : Json} {onResponse : κ} {n n' : Node κ θ ω}
    {sent : Bool} (h : n.call nl apiId parameter onResponse = (n', .ok sent)) :
    (n.client.full ∧ sent = false ∧ n' = n.log .error (n.client.dropText apiId)) ∨
    (¬ n.client.full ∧ sent = true ∧ ∃ text, nl.dump parameter = some text ∧
      n' = n.called apiId text onResponse) := by
  by_cases hf : n.client.full
  · rw [Node.call_full nl hf] at h
    simp only [Prod.mk.injEq, Except.ok.injEq] at h
    exact .inl ⟨hf, h.2.symm, h.1.symm⟩
  · rw [Node.call_eq nl hf] at h
    cases hd : nl.dump parameter with
    | none => rw [hd] at h; simp at h
    | some text =>
      rw [hd] at h
      simp only [Prod.mk.injEq, Except.ok.injEq] at h
      exact .inr ⟨hf, h.2.symm, text, rfl, h.1.symm⟩

theorem Node.send_cases {apiId : Int} {parameter : Json} {noreply : Bool} {n n' : Node κ θ ω}
    (h : n.send nl apiId parameter noreply = (n', .ok ())) :
    ∃ text, nl.dump parameter = some text ∧ n' = n.sent apiId noreply text := by
  rw [Node.send_eq] at h
  cases hd : nl.dump parameter with
  | none => rw [hd] at h; simp at h
  | some text =>
    rw [hd] at h
    simp only [Prod.mk.injEq, and_true] at h
    exact ⟨text, rfl, h.symm⟩

/-! ## Programs -/

theorem exec_bind (p : Prog κ θ ω α) (q : α → Prog κ θ ω β) (n : Node κ θ ω) :
    exec nl (p >>= q) n = match exec nl p n with
      | (n', .ok a) => exec nl (q a) n'
      | (n', .error f) => (n', .error f) := by
  show exec nl (p.bind q) n = _
  induction p generalizing n with
  | ret a => rfl
  | raise f => rfl
  | callThen a p cb next ih =>
    simp only [Prog.bind, exec]
    rcases n.call nl a p cb with ⟨n', _ | sent⟩
    · rfl
    · exact ih sent n'
  | sendThen a p noreply next ih =>
    simp only [Prog.bind, exec]
    rcases n.send nl a p noreply with ⟨n', _ | _⟩
    · rfl
    · exact ih n'
  | readThen next ih => exact ih _ n
  | writeThen h next ih => exact ih _
  | emitThen o next ih => exact ih _
  | logThen sev text next ih => exact ih _

@[simp] theorem exec_pure (a : α) (n : Node κ θ ω) :
    exec nl (pure a : Prog κ θ ω α) n = (n, .ok a) := rfl

@[simp] theorem exec_raise (f : Fault) (n : Node κ θ ω) :
    exec nl (.raise f : Prog κ θ ω α) n = (n, .error f) := rfl

@[simp] theorem exec_read (n : Node κ θ ω) :
    exec nl (Prog.read : Prog κ θ ω θ) n = (n, .ok n.host) := rfl

@[simp] theorem exec_write (h : θ) (n : Node κ θ ω) :
    exec nl (Prog.write h : Prog κ θ ω Unit) n = ({ n with host := h }, .ok ()) := rfl

@[simp] theorem exec_emit (o : ω) (n : Node κ θ ω) :
    exec nl (Prog.emit o : Prog κ θ ω Unit) n = (n.emit (.host o), .ok ()) := rfl

@[simp] theorem exec_log (sev : Severity) (text : String) (n : Node κ θ ω) :
    exec nl (Prog.log sev text : Prog κ θ ω Unit) n = (n.log sev text, .ok ()) := rfl

theorem exec_call (apiId : Int) (parameter : Json) (onResponse : κ) (n : Node κ θ ω) :
    exec nl (Prog.call apiId parameter onResponse : Prog κ θ ω Bool) n =
      n.call nl apiId parameter onResponse := by
  simp only [Prog.call, exec]
  rcases n.call nl apiId parameter onResponse with ⟨n', _ | _⟩ <;> rfl

theorem exec_send (apiId : Int) (parameter : Json) (noreply : Bool) (n : Node κ θ ω) :
    exec nl (Prog.send apiId parameter noreply : Prog κ θ ω Unit) n =
      n.send nl apiId parameter noreply := by
  simp only [Prog.send, exec]
  rcases n.send nl apiId parameter noreply with ⟨n', _ | _⟩ <;> rfl

/-- Neither a request nor the run of a callback. -/
def Out.quiet : Out κ ω → Bool
  | .published _ _ | .invoked _ _ _ => false
  | .log _ _ | .host _ => true

/-- Kept by whatever a program can do to its node. -/
structure Stable (P : Node κ θ ω → Prop) : Prop where
  quiet : ∀ n o, o.quiet = true → P n → P (n.emit o)
  host : ∀ n h, P n → P { n with host := h }
  sent : ∀ n apiId noreply text, P n → P (n.sent apiId noreply text)
  called : ∀ n apiId text onResponse, ¬ n.client.full → P n → P (n.called apiId text onResponse)

theorem Stable.call {P : Node κ θ ω → Prop} (hP : Stable P) {apiId : Int} {parameter : Json}
    {onResponse : κ} {n n' : Node κ θ ω} {sent : Bool}
    (h : n.call nl apiId parameter onResponse = (n', .ok sent)) (hn : P n) : P n' := by
  obtain ⟨-, -, rfl⟩ | ⟨hf, -, text, -, rfl⟩ := n.call_cases nl h
  · exact hP.quiet _ _ rfl hn
  · exact hP.called _ _ _ _ hf hn

theorem Stable.exec {P : Node κ θ ω → Prop} (hP : Stable P) {p : Prog κ θ ω α} {n n' : Node κ θ ω}
    {a : α} (h : exec nl p n = (n', .ok a)) (hn : P n) : P n' := by
  induction p generalizing n with
  | ret b =>
    simp only [Go2.exec, Prod.mk.injEq] at h
    exact h.1 ▸ hn
  | raise f => simp [Go2.exec] at h
  | callThen apiId param cb next ih =>
    simp only [Go2.exec] at h
    rcases hc : n.call nl apiId param cb with ⟨n₁, f | sent⟩
    · rw [hc] at h; simp at h
    · rw [hc] at h
      exact ih sent h (hP.call nl hc hn)
  | sendThen apiId param noreply next ih =>
    simp only [Go2.exec] at h
    rcases hc : n.send nl apiId param noreply with ⟨n₁, f | _⟩
    · rw [hc] at h; simp at h
    · rw [hc] at h
      obtain ⟨text, -, rfl⟩ := n.send_cases nl hc
      exact ih h (hP.sent _ _ _ _ hn)
  | readThen next ih => exact ih _ h hn
  | writeThen _ next ih => exact ih h (hP.host _ _ hn)
  | emitThen o next ih => exact ih h (hP.quiet _ _ rfl hn)
  | logThen sev text next ih => exact ih h (hP.quiet _ _ rfl hn)

/-! ## Replies -/

variable (body : κ → ApiResult → Prog κ θ ω Unit)

def Response.result (msg : Response) : ApiResult := ⟨decide (msg.code = statusOk), msg.code, msg.data⟩

/-- The log line for a reply to `entry` that carries another api_id. -/
def mismatchLog (msg : Response) (entry : PendingRequest κ) : List (Out κ ω) :=
  if entry.apiId ≠ msg.apiId then
    [.log .warn ("reply for id=" ++ toString msg.id ++ " carries api_id=" ++ toString msg.apiId ++
      ", expected " ++ toString entry.apiId)]
  else []

/-- Nothing but warnings. -/
def Warnings (L : List (Out κ ω)) : Prop := ∀ o ∈ L, ∃ text, o = .log .warn text

theorem Warnings.filterMap_eq_nil {L : List (Out κ ω)} (h : Warnings L) {f : Out κ ω → Option β}
    (hf : ∀ text, f (.log .warn text) = none) : L.filterMap f = [] := by
  rw [List.filterMap_eq_nil_iff]
  intro o ho
  obtain ⟨text, rfl⟩ := h o ho
  exact hf text

theorem Warnings.published_notMem {L : List (Out κ ω)} (h : Warnings L) (req : Request)
    (entry : Option (PendingRequest κ)) : Out.published req entry ∉ L := by
  intro hm
  obtain ⟨text, htext⟩ := h _ hm
  cases htext

theorem Warnings.host_notMem {L : List (Out κ ω)} (h : Warnings L) (o : ω) : Out.host o ∉ L := by
  intro hm
  obtain ⟨text, htext⟩ := h _ hm
  cases htext

theorem warnings_mismatchLog (msg : Response) (entry : PendingRequest κ) :
    Warnings (mismatchLog msg entry : List (Out κ ω)) := by
  intro o ho
  unfold mismatchLog at ho
  split at ho
  · exact ⟨_, List.mem_singleton.mp ho⟩
  · cases ho

theorem Node.responseCallback_none {msg : Response} {n : Node κ θ ω}
    (h : n.client.pending.lookup msg.id = none) :
    n.responseCallback nl body msg =
      (n.log .debug ("ignoring reply for id=" ++ toString msg.id), .ok ()) := by
  simp only [Node.responseCallback, h]

theorem Node.responseCallback_some {msg : Response} {n : Node κ θ ω} {entry : PendingRequest κ}
    (h : n.client.pending.lookup msg.id = some entry) :
    n.responseCallback nl body msg =
      exec nl (body entry.callback msg.result)
        { n with
          client := { n.client with pending := n.client.pending.erase msg.id }
          out := n.out ++ mismatchLog msg entry ++ [.invoked msg.id entry msg.result] } := by
  simp only [Node.responseCallback, h, Node.invoke, mismatchLog, Response.result]
  split <;> simp [Node.log, Node.emit, Node.setPending]

/-! ## Time-outs -/

def timeoutResult : ApiResult := ⟨false, statusTimeout, ""⟩

def timeoutLog (e : PendingEntry κ) : Out κ ω :=
  .log .warn ("no reply for api_id=" ++ toString e.2.apiId ++ " within the timeout")

theorem warnings_timeoutLog (l : List (PendingEntry κ)) :
    Warnings (l.map timeoutLog : List (Out κ ω)) := by
  intro o ho
  obtain ⟨e, -, rfl⟩ := List.mem_map.mp ho
  exact ⟨_, rfl⟩

/-- The entries of a walk whose deadline is at or before `now`. -/
def expiredIn (now : Int) (l : List (PendingEntry κ)) : List (PendingEntry κ) :=
  l.filter fun e => decide (e.2.deadline ≤ now)

theorem Node.sweepLoop_eq (now : Int) (l : List (PendingEntry κ)) (n : Node κ θ ω) :
    n.sweepLoop now l =
      ({ n with
          client := { n.client with pending := eraseAll (expiredIn now l) n.client.pending }
          out := n.out ++ (expiredIn now l).map timeoutLog }, expiredIn now l) := by
  induction l generalizing n with
  | nil => simp [Node.sweepLoop, expiredIn, eraseAll]
  | cons e l ih =>
    unfold Node.sweepLoop
    by_cases he : e.2.deadline > now
    · have hx : expiredIn now (e :: l) = expiredIn now l :=
        List.filter_cons_of_neg (by simp; omega)
      rw [if_pos he, ih, hx]
    · have hx : expiredIn now (e :: l) = e :: expiredIn now l :=
        List.filter_cons_of_pos (by simp; omega)
      rw [if_neg he, hx]
      simp [ih, Node.log, Node.emit, Node.setPending, eraseAll, timeoutLog]

theorem mem_expiredIn {now : Int} {l : List (PendingEntry κ)} {e : PendingEntry κ} :
    e ∈ expiredIn now l ↔ e ∈ l ∧ e.2.deadline ≤ now := by
  rw [expiredIn, List.mem_filter, decide_eq_true_eq]

/-- What a sweep at `now` takes out of the table, in the order of its walk. -/
def UnitreeApiClient.expired (c : UnitreeApiClient κ) (order : IterationOrder (PendingEntry κ))
    (now : Int) : List (PendingEntry κ) :=
  expiredIn now (order.arrange c.pending.entries)

/-- The table a sweep at `now` leaves. -/
def UnitreeApiClient.kept (c : UnitreeApiClient κ) (order : IterationOrder (PendingEntry κ))
    (now : Int) : Table Int (PendingRequest κ) :=
  eraseAll (c.expired order now) c.pending

theorem UnitreeApiClient.entries_kept (c : UnitreeApiClient κ)
    (order : IterationOrder (PendingEntry κ)) (now : Int) :
    (c.kept order now).entries = c.pending.entries.filter fun e => !decide (e.2.deadline ≤ now) :=
  entries_eraseAll_filter (fun e : PendingEntry κ => decide (e.2.deadline ≤ now)) c.pending
    (l := c.expired order now) fun e => by
      rw [UnitreeApiClient.expired, mem_expiredIn, order.mem_arrange, decide_eq_true_eq]

theorem UnitreeApiClient.nodup_expired (c : UnitreeApiClient κ)
    (order : IterationOrder (PendingEntry κ)) (now : Int) : (c.expired order now).Nodup :=
  ((order.perm _).nodup_iff.mpr c.pending.nodupKeys.nodup).sublist List.filter_sublist

/-- A sweep splits the table into what it takes and what it leaves. -/
theorem UnitreeApiClient.perm_expired_kept (c : UnitreeApiClient κ)
    (order : IterationOrder (PendingEntry κ)) (now : Int) :
    c.pending.entries.Perm (c.expired order now ++ (c.kept order now).entries) := by
  rw [c.entries_kept]
  have hp : (c.expired order now).Perm
      (c.pending.entries.filter fun e => decide (e.2.deadline ≤ now)) :=
    (order.perm _).filter _
  exact (List.filter_append_perm _ _).symm.trans (hp.symm.append_right _)

theorem Node.sweepTimeouts_eq (order : IterationOrder (PendingEntry κ)) (n : Node κ θ ω) :
    n.sweepTimeouts nl body order =
      if n.client.pending.entries = [] then (n, .ok ())
      else Node.invokeAll nl body (n.client.expired order (n.clock 0).now)
        { n with
          client := { n.client with pending := n.client.kept order (n.clock 0).now }
          clock := n.clock.tail
          out := n.out ++ (n.client.expired order (n.clock 0).now).map timeoutLog } := by
  unfold Node.sweepTimeouts
  simp only [Node.sweepLoop_eq]
  rfl

/-- The node once a sweep has walked its table, before any callback. -/
def Node.swept (order : IterationOrder (PendingEntry κ)) (n : Node κ θ ω) : Node κ θ ω :=
  { n with
    client := { n.client with pending := n.client.kept order (n.clock 0).now }
    clock := n.clock.tail
    out := n.out ++ (n.client.expired order (n.clock 0).now).map timeoutLog }

theorem sweepTimeouts_eq_swept (order : IterationOrder (PendingEntry κ)) (n : Node κ θ ω) :
    n.sweepTimeouts nl body order =
      if n.client.pending.entries = [] then (n, .ok ())
      else (n.swept order).invokeAll nl body (n.client.expired order (n.clock 0).now) :=
  n.sweepTimeouts_eq nl body order

/-- What every program keeps, every callback of a sweep keeps. -/
theorem Stable.invoke {P : Node κ θ ω → Prop} (hP : Stable P) {id : Int} {entry : PendingRequest κ}
    {result : ApiResult} {n n' : Node κ θ ω}
    (h : n.invoke nl body id entry result = (n', .ok ()))
    (hn : P (n.emit (.invoked id entry result))) : P n' :=
  hP.exec nl h hn

theorem Node.invokeAll_cons_ok {e : PendingEntry κ} {due : List (PendingEntry κ)} {n n₁ : Node κ θ ω}
    (h : n.invoke nl body e.1 e.2 timeoutResult = (n₁, .ok ())) :
    n.invokeAll nl body (e :: due) = n₁.invokeAll nl body due := by
  rw [timeoutResult] at h
  simp only [Node.invokeAll, h]

/-- A callback that throws is the last of its sweep. -/
theorem Node.invokeAll_cons_error {e : PendingEntry κ} {due : List (PendingEntry κ)} {n n₁ : Node κ θ ω}
    {f : Fault} (h : n.invoke nl body e.1 e.2 timeoutResult = (n₁, .error f)) :
    n.invokeAll nl body (e :: due) = (n₁, .error f) := by
  rw [timeoutResult] at h
  simp only [Node.invokeAll, h]

variable {nl body}

/-- Where a sweep's callbacks all return, what each of them keeps, with the entries that
are still due, holds after the last. -/
theorem Node.invokeAll_rule (P : List (PendingEntry κ) → Node κ θ ω → Prop)
    (hone : ∀ e due n n₁, P (e :: due) n → n.invoke nl body e.1 e.2 timeoutResult = (n₁, .ok ()) →
      P due n₁)
    {due : List (PendingEntry κ)} {n n' : Node κ θ ω} (hn : P due n)
    (h : n.invokeAll nl body due = (n', .ok ())) : P [] n' := by
  induction due generalizing n with
  | nil =>
    cases h
    exact hn
  | cons e due ih =>
    rcases hi : n.invoke nl body e.1 e.2 timeoutResult with ⟨n₁, f | _⟩
    · rw [invokeAll_cons_error nl body hi] at h
      cases h
    · rw [invokeAll_cons_ok nl body hi] at h
      exact ih (hone e due n n₁ hn hi) h

end

end Go2
