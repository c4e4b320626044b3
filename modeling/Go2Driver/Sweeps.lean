import Go2Driver.AnyExit

/-!
# Time-outs are exact

A sweep walks the table, takes out every entry whose deadline is at or before the time it
read, and runs their callbacks afterwards.  Those may call, send and throw.

* `SweepExact`, `sweepExact`: what one sweep does, from any node, with any callbacks and
  whatever they end in.
* `deadline_step`: a deadline is the node's time at the call, plus the time-out.
* `sweeps_exact`: over the runs of a node, whose clock may jump either way, no call is
  timed out early, no entry that is due survives a sweep, and a sweep past every deadline
  empties the table.
-/

namespace Go2

open Tables Runs

variable {κ θ ω α : Type}

/-! ## One sweep -/

/-- In the table at the start of a sweep, with a deadline at or before the time the sweep reads. -/
def Due (n : Node κ θ ω) (e : PendingEntry κ) : Prop :=
  e ∈ n.client.pending.entries ∧ e.2.deadline ≤ (n.clock 0).now

section
variable (nl : Nlohmann) (body : κ → ApiResult → Prog κ θ ω Unit)
  (order : IterationOrder (PendingEntry κ)) (n : Node κ θ ω)

/-- What one sweep does, however it ends.  The table holds what was not due, as it was,
and in front of it what the callbacks added: the calls they published, the last one first,
and at most one more, registered by a call that threw and so ended the sweep.  The callbacks
that were run are those of entries that were due, each once, with the result of a time-out,
and all of them where none throws. -/
structure SweepExact : Prop where
  table : ∃ added, (n.sweepTimeouts nl body order).1.client.pending.entries =
    added ++ n.client.pending.entries.filter fun e => !decide (e.2.deadline ≤ (n.clock 0).now)
  invoked : ∃ ran : List (PendingEntry κ), invocations (n.sweepTimeouts nl body order).1.out =
      invocations n.out ++ ran.map (fun e => (e, timeoutResult)) ∧
    ran.Nodup ∧ (∀ e ∈ ran, Due n e) ∧
    ((n.sweepTimeouts nl body order).2 = .ok () → ∀ e, Due n e → e ∈ ran)
  completes : (∀ e, Due n e → ∀ m, (exec nl (body e.2.callback timeoutResult) m).2 = .ok ()) →
    (n.sweepTimeouts nl body order).2 = .ok ()
  removed : n.client.Issued → ∀ e, Due n e →
    (n.sweepTimeouts nl body order).1.client.pending.lookup e.1 = none
  added : n.client.Issued → ∃ new unpublished, (n.sweepTimeouts nl body order).1.out = n.out ++ new ∧
    (n.sweepTimeouts nl body order).1.client.pending.entries = unpublished ++ ((calls new).reverse ++
      n.client.pending.entries.filter fun e => !decide (e.2.deadline ≤ (n.clock 0).now)) ∧
    unpublished.length ≤ 1 ∧ ((n.sweepTimeouts nl body order).2 = .ok () → unpublished = [])

variable {nl body order n}

theorem mem_expired_iff {e : PendingEntry κ} :
    e ∈ n.client.expired order (n.clock 0).now ↔ Due n e := by
  unfold Due
  rw [UnitreeApiClient.expired, mem_expiredIn, order.mem_arrange]

/-- `emplace` puts at most one entry in front. -/
theorem exists_entries_emplace (k : Int) (v : PendingRequest κ) (t : Table Int (PendingRequest κ)) :
    ∃ more, (emplace k v t).entries = more ++ t.entries := by
  by_cases h : k ∈ t
  · exact ⟨[], by rw [emplace, if_pos h]; rfl⟩
  · exact ⟨[⟨k, v⟩], entries_emplace h⟩

/-- A program leaves every entry of the table where it is. -/
theorem kept_entries (base : List (PendingEntry κ)) :
    Kept fun n : Node κ θ ω => ∃ added, n.client.pending.entries = added ++ base := by
  have hcall : ∀ (n : Node κ θ ω) apiId onResponse,
      (∃ added, n.client.pending.entries = added ++ base) →
      ∃ added, (n.client.afterCall (n.clock 0) apiId onResponse).pending.entries = added ++ base := by
    intro n apiId onResponse ⟨added, hadded⟩
    obtain ⟨more, hmore⟩ := exists_entries_emplace (n.client.freshId (n.clock 0))
      (n.client.newEntry (n.clock 0) apiId onResponse) n.client.pending
    exact ⟨more ++ added, by rw [List.append_assoc, ← hadded]; exact hmore⟩
  exact {
    quiet := fun _ _ _ h => h
    host := fun _ _ h => h
    sent := fun _ _ _ _ h => h
    called := fun n apiId _ onResponse _ h => hcall n apiId onResponse h
    sendThrew := fun _ h => h
    callThrew := fun n apiId onResponse _ h => hcall n apiId onResponse h }

theorem sweep_table : ∃ added, (n.sweepTimeouts nl body order).1.client.pending.entries =
    added ++ n.client.pending.entries.filter fun e => !decide (e.2.deadline ≤ (n.clock 0).now) := by
  rw [← n.client.entries_kept order]
  by_cases hempty : n.client.pending.entries = []
  · refine ⟨[], ?_⟩
    rw [sweepTimeouts_eq_swept, if_pos hempty, UnitreeApiClient.entries_kept, hempty]
    rfl
  · rw [sweepTimeouts_eq_swept, if_neg hempty]
    exact (kept_entries _).invokeAll nl body (fun _ _ _ _ h => h) _ ⟨[], rfl⟩

/-- A program runs no callback, however it ends. -/
theorem kept_invocations (I : List (PendingEntry κ × ApiResult)) :
    Kept fun n : Node κ θ ω => invocations n.out = I where
  toStable := stable_invocations I
  sendThrew _ h := h
  callThrew _ _ _ _ h := h

/-- The callbacks of a sweep are run from the first on, up to one that throws. -/
theorem invokeAll_ran (nl : Nlohmann) (body : κ → ApiResult → Prog κ θ ω Unit)
    (due : List (PendingEntry κ)) (m : Node κ θ ω) : ∃ ran rest, due = ran ++ rest ∧
      invocations (m.invokeAll nl body due).1.out =
        invocations m.out ++ ran.map (fun e => (e, timeoutResult)) ∧
      ((m.invokeAll nl body due).2 = .ok () → rest = []) := by
  induction due generalizing m with
  | nil => exact ⟨[], [], rfl, by simp [Node.invokeAll], fun _ => rfl⟩
  | cons e due ih =>
    have hone : invocations (m.invoke nl body e.1 e.2 timeoutResult).1.out =
        invocations m.out ++ [(e, timeoutResult)] := by
      apply (kept_invocations (invocations m.out ++ [(e, timeoutResult)])).exec nl
      rw [Node.emit_out, invocations_append]
      rfl
    rcases hi : m.invoke nl body e.1 e.2 timeoutResult with ⟨m', f | _⟩
    · rw [hi] at hone
      rw [Node.invokeAll_cons_error nl body hi]
      refine ⟨[e], due, rfl, hone, ?_⟩
      intro h
      cases h
    · rw [hi] at hone
      rw [Node.invokeAll_cons_ok nl body hi]
      obtain ⟨ran, rest, hdue, hran, hall⟩ := ih m'
      refine ⟨e :: ran, rest, by rw [hdue, List.cons_append], ?_, hall⟩
      rw [hran, hone, List.map_cons, List.append_assoc]
      rfl

theorem sweep_invoked : ∃ ran : List (PendingEntry κ), invocations (n.sweepTimeouts nl body order).1.out =
      invocations n.out ++ ran.map (fun e => (e, timeoutResult)) ∧
    ran.Nodup ∧ (∀ e ∈ ran, Due n e) ∧
    ((n.sweepTimeouts nl body order).2 = .ok () → ∀ e, Due n e → e ∈ ran) := by
  rw [sweepTimeouts_eq_swept]
  split
  · next hempty =>
    refine ⟨[], (List.append_nil _).symm, List.nodup_nil, by simp, ?_⟩
    intro _ e he
    rw [Due, hempty] at he
    exact he.1
  · obtain ⟨ran, rest, hdue, hran, hall⟩ := invokeAll_ran nl body
      (n.client.expired order (n.clock 0).now) (n.swept order)
    have hnodup := n.client.nodup_expired order (n.clock 0).now
    rw [hdue] at hnodup
    refine ⟨ran, ?_, hnodup.of_append_left, ?_, ?_⟩
    · rwa [invocations_swept] at hran
    · intro e he
      apply mem_expired_iff.mp
      rw [hdue]
      exact List.mem_append_left _ he
    · intro hok e he
      have hm : e ∈ n.client.expired order (n.clock 0).now := mem_expired_iff.mpr he
      rw [hdue, hall hok, List.append_nil] at hm
      exact hm

theorem sweep_completes
    (hret : ∀ e, Due n e → ∀ m, (exec nl (body e.2.callback timeoutResult) m).2 = .ok ()) :
    (n.sweepTimeouts nl body order).2 = .ok () := by
  rw [sweepTimeouts_eq_swept]
  split
  · rfl
  · apply invokeAll_returns
    intro e he m
    exact hret e (mem_expired_iff.mp he) m

/-- The ids in the table were given out; those of entries that are not in `base`, after `last`. -/
def UnitreeApiClient.Later (last : Int) (base : List (PendingEntry κ)) (c : UnitreeApiClient κ) : Prop :=
  c.Issued ∧ last ≤ c.lastId ∧ ∀ e ∈ c.pending.entries, e ∈ base ∨ last < e.1

theorem UnitreeApiClient.Later.afterSend {last : Int} {base : List (PendingEntry κ)}
    {c : UnitreeApiClient κ} (h : c.Later last base) (r : Reading) : (c.afterSend r).Later last base := by
  obtain ⟨hiss, hlast, hent⟩ := h
  have hlt := c.lastId_lt_freshId r
  exact ⟨hiss.afterSend r, show last ≤ c.freshId r by omega, hent⟩

theorem UnitreeApiClient.Later.afterCall {last : Int} {base : List (PendingEntry κ)}
    {c : UnitreeApiClient κ} (h : c.Later last base) (r : Reading) (apiId : Int) (onResponse : κ) :
    (c.afterCall r apiId onResponse).Later last base := by
  obtain ⟨hiss, hlast, hent⟩ := h
  have hlt := c.lastId_lt_freshId r
  refine ⟨hiss.afterCall r apiId onResponse, show last ≤ c.freshId r by omega, ?_⟩
  intro e he
  rw [hiss.entries_afterCall, List.mem_cons] at he
  rcases he with rfl | he
  · right
    simp only
    omega
  · exact hent e he

/-- Whatever a program adds to the table is later than every id given out before. -/
theorem kept_later (last : Int) (base : List (PendingEntry κ)) :
    Kept fun n : Node κ θ ω => n.client.Later last base where
  quiet _ _ _ h := h
  host _ _ h := h
  sent n _ _ _ h := h.afterSend (n.clock 0)
  called n apiId _ onResponse _ h := h.afterCall (n.clock 0) apiId onResponse
  sendThrew n h := h.afterSend (n.clock 0)
  callThrew n apiId onResponse _ h := h.afterCall (n.clock 0) apiId onResponse

/-- What was due is gone, and no callback puts it back. -/
theorem sweep_removed (nl : Nlohmann) (body : κ → ApiResult → Prog κ θ ω Unit)
    (order : IterationOrder (PendingEntry κ)) (hiss : n.client.Issued) {e : PendingEntry κ} (he : Due n e) :
    (n.sweepTimeouts nl body order).1.client.pending.lookup e.1 = none := by
  have hkept : ∀ x, x ∈ (n.client.kept order (n.clock 0).now).entries ↔
      x ∈ n.client.pending.entries ∧ ¬ x.2.deadline ≤ (n.clock 0).now := by
    intro x
    rw [UnitreeApiClient.entries_kept, List.mem_filter]
    simp
  have hne : n.client.pending.entries ≠ [] := List.ne_nil_of_mem he.1
  obtain ⟨-, -, hent⟩ : (n.sweepTimeouts nl body order).1.client.Later n.client.lastId
      (n.client.kept order (n.clock 0).now).entries := by
    rw [sweepTimeouts_eq_swept, if_neg hne]
    apply (kept_later _ _).invokeAll nl body (fun _ _ _ _ h => h)
    refine ⟨hiss.subset fun x hx => ((hkept x).mp hx).1, Int.le_refl _, ?_⟩
    intro x hx
    exact .inl hx
  cases hl : (n.sweepTimeouts nl body order).1.client.pending.lookup e.1 with
  | none => rfl
  | some v =>
    exfalso
    rcases hent _ (lookup_eq_some_iff.mp hl) with hm | hlt
    · obtain ⟨hm, hlate⟩ := (hkept _).mp hm
      rw [entry_eq hm he.1 rfl] at hlate
      exact hlate he.2
    · have hle := hiss e he.1
      simp only at hlt
      omega

/-- The calls published after `L` stand in the table in front of `base`, the last one first. -/
def Node.Grown (L : List (Out κ ω)) (base : List (PendingEntry κ)) (n : Node κ θ ω) : Prop :=
  n.client.Issued ∧ ∃ new, n.out = L ++ new ∧ n.client.pending.entries = (calls new).reverse ++ base

theorem Node.Grown.emit {L : List (Out κ ω)} {base : List (PendingEntry κ)} {m : Node κ θ ω}
    (h : m.Grown L base) {o : Out κ ω} (ho : calls [o] = []) : (m.emit o).Grown L base := by
  obtain ⟨hiss, new, hout, hent⟩ := h
  refine ⟨hiss, new ++ [o], by rw [Node.emit_out, hout, List.append_assoc], ?_⟩
  rw [calls_append, ho, List.append_nil]
  exact hent

/-- A program leaves the calls it published, and the one that threw, in front of the table. -/
theorem exits_grown (L : List (Out κ ω)) (base : List (PendingEntry κ)) :
    Exits (Node.Grown L base) fun n : Node κ θ ω => ∃ new unpublished, n.out = L ++ new ∧
      n.client.pending.entries = unpublished ++ ((calls new).reverse ++ base) ∧
      unpublished.length ≤ 1 where
  quiet _ _ ho h := h.emit (calls_quiet ho)
  host _ _ h := h
  sent n apiId noreply text := by
    rintro ⟨hiss, new, hout, hent⟩
    refine ⟨hiss.afterSend _, new ++ [.published ⟨_, apiId, noreply, text⟩ none],
      by rw [Node.sent, hout, List.append_assoc], ?_⟩
    rw [calls_append]
    exact (List.append_nil (calls new)).symm ▸ hent
  called n apiId text onResponse _ := by
    rintro ⟨hiss, new, hout, hent⟩
    refine ⟨hiss.afterCall _ _ _, new ++ [.published ⟨_, apiId, false, text⟩ (some _)],
      by rw [Node.called, hout, List.append_assoc], ?_⟩
    rw [calls_append, List.reverse_append, Node.called, hiss.entries_afterCall, hent]
    rfl
  ends n := by
    rintro ⟨-, new, hout, hent⟩
    exact ⟨new, [], hout, hent, Nat.zero_le 1⟩
  sendThrew n := by
    rintro ⟨-, new, hout, hent⟩
    exact ⟨new, [], hout, hent, Nat.zero_le 1⟩
  callThrew n apiId onResponse _ := by
    rintro ⟨hiss, new, hout, hent⟩
    refine ⟨new, [⟨n.client.freshId (n.clock 0), n.client.newEntry (n.clock 0) apiId onResponse⟩], hout, ?_,
      Nat.le_refl 1⟩
    rw [Node.callThrew, hiss.entries_afterCall, hent]
    rfl

theorem sweep_added (hiss : n.client.Issued) : ∃ new unpublished,
    (n.sweepTimeouts nl body order).1.out = n.out ++ new ∧
    (n.sweepTimeouts nl body order).1.client.pending.entries = unpublished ++ ((calls new).reverse ++
      n.client.pending.entries.filter fun e => !decide (e.2.deadline ≤ (n.clock 0).now)) ∧
    unpublished.length ≤ 1 ∧ ((n.sweepTimeouts nl body order).2 = .ok () → unpublished = []) := by
  rw [← n.client.entries_kept order, sweepTimeouts_eq_swept]
  split
  · next hempty =>
    refine ⟨[], [], (List.append_nil _).symm, ?_, Nat.zero_le 1, fun _ => rfl⟩
    rw [UnitreeApiClient.entries_kept, hempty]
    rfl
  · have hswept : (n.swept order).Grown n.out (n.client.kept order (n.clock 0).now).entries := by
      refine ⟨hiss.subset ?_, _, rfl, ?_⟩
      · rw [UnitreeApiClient.entries_kept]
        exact List.filter_sublist.subset
      · rw [calls_timeoutLog]
        rfl
    rcases hr : (n.swept order).invokeAll nl body (n.client.expired order (n.clock 0).now) with ⟨n', f | _⟩
    · obtain ⟨new, unpublished, hout, hent, hlen⟩ :=
        (exits_grown n.out (n.client.kept order (n.clock 0).now).entries).invokeAll nl body
          (fun _ _ _ _ hm => hm.emit rfl) (n.client.expired order (n.clock 0).now) hswept
      rw [hr] at hout hent
      exact ⟨new, unpublished, hout, hent, hlen, fun hok => by cases hok⟩
    · -- where every callback returned, only published calls were added
      obtain ⟨-, new, hout, hent⟩ := Node.invokeAll_rule (fun _ m => m.Grown n.out _)
        (fun _ _ _ _ hm hi => (exits_grown _ _).toStable.invoke nl body hi (hm.emit rfl)) hswept hr
      exact ⟨new, [], hout, hent, Nat.zero_le 1, fun _ => rfl⟩

theorem sweepExact (nl : Nlohmann) (body : κ → ApiResult → Prog κ θ ω Unit)
    (order : IterationOrder (PendingEntry κ)) (n : Node κ θ ω) : SweepExact nl body order n where
  table := sweep_table
  invoked := sweep_invoked
  completes := sweep_completes
  removed hiss _ he := sweep_removed nl body order hiss he
  added hiss := sweep_added hiss

end

/-! ## Callbacks that start no call -/

/-- The program makes no call, whatever it reads. -/
def Prog.CallFree : Prog κ θ ω α → Prop
  | .ret _ | .raise _ => True
  | .callThen _ _ _ _ => False
  | .sendThen _ _ _ next => next.CallFree
  | .readThen next => ∀ host, (next host).CallFree
  | .writeThen _ next => next.CallFree
  | .emitThen _ next => next.CallFree
  | .logThen _ _ next => next.CallFree

section
variable (nl : Nlohmann) (body : κ → ApiResult → Prog κ θ ω Unit)

theorem Prog.CallFree.exec_pending {p : Prog κ θ ω α} (hp : p.CallFree) (n : Node κ θ ω) :
    (exec nl p n).1.client.pending = n.client.pending := by
  induction p generalizing n with
  | ret a => rfl
  | raise f => rfl
  | callThen apiId parameter onResponse next ih => exact hp.elim
  | sendThen apiId parameter noreply next ih =>
    simp only [exec, Node.send_eq]
    cases nl.dump parameter with
    | none => rfl
    | some text => exact ih hp _
  | readThen next ih => exact ih _ (hp _) n
  | writeThen h next ih => exact ih hp _
  | emitThen o next ih => exact ih hp _
  | logThen sev text next ih => exact ih hp _

theorem invokeAll_callFree {due : List (PendingEntry κ)}
    (hfree : ∀ e ∈ due, (body e.2.callback timeoutResult).CallFree) (n : Node κ θ ω) :
    (n.invokeAll nl body due).1.client.pending = n.client.pending := by
  induction due generalizing n with
  | nil => rfl
  | cons e due ih =>
    obtain ⟨he, hdue⟩ := List.forall_mem_cons.mp hfree
    have hone : (n.invoke nl body e.1 e.2 timeoutResult).1.client.pending = n.client.pending :=
      he.exec_pending nl (n.emit (.invoked e.1 e.2 timeoutResult))
    rcases hi : n.invoke nl body e.1 e.2 timeoutResult with ⟨n', f | _⟩
    · rw [hi] at hone
      rw [Node.invokeAll_cons_error nl body hi]
      exact hone
    · rw [hi] at hone
      rw [Node.invokeAll_cons_ok nl body hi]
      exact (ih hdue n').trans hone

/-- A sweep past every deadline, whose callbacks start no call, leaves nothing. -/
theorem sweep_empties {n : Node κ θ ω} (order : IterationOrder (PendingEntry κ))
    (hdue : ∀ e ∈ n.client.pending.entries, e.2.deadline ≤ (n.clock 0).now)
    (hfree : ∀ e ∈ n.client.pending.entries, (body e.2.callback timeoutResult).CallFree) :
    (n.sweepTimeouts nl body order).1.client.pending.entries = [] := by
  rw [sweepTimeouts_eq_swept]
  split
  · next hempty => exact hempty
  · rw [invokeAll_callFree]
    · show (n.client.kept order (n.clock 0).now).entries = []
      rw [UnitreeApiClient.entries_kept, List.filter_eq_nil_iff]
      intro e he
      simpa using hdue e he
    · intro e he
      exact hfree e (mem_expired_iff.mp he).1

/-- With an empty table a call that can be written is accepted. -/
theorem Node.call_accepted {n : Node κ θ ω} (h : n.client.pending.entries = []) {parameter : Json}
    {text : String} (hd : nl.dump parameter = some text) (apiId : Int) (onResponse : κ) :
    (n.call nl apiId parameter onResponse).2 = .ok true := by
  have hroom : ¬ n.client.full := by
    rw [UnitreeApiClient.full, h]
    exact Nat.not_succ_le_zero 63
  rw [Node.call_eq nl hroom, hd]

end

/-! ## Deadlines -/

/-- The requests among what was let out, with the entry of each that waits for a reply. -/
def publishedWith (L : List (Out κ ω)) : List (Request × Option (PendingRequest κ)) :=
  L.filterMap fun
    | .published req entry => some (req, entry)
    | _ => none

@[simp] theorem publishedWith_append (L L' : List (Out κ ω)) :
    publishedWith (L ++ L') = publishedWith L ++ publishedWith L' := List.filterMap_append

theorem publishedWith_quiet {o : Out κ ω} (h : o.quiet = true) : publishedWith [o] = [] := by
  cases o <;> first | rfl | cases h

theorem mem_publishedWith {L : List (Out κ ω)} {req : Request} {entry : Option (PendingRequest κ)} :
    (req, entry) ∈ publishedWith L ↔ Out.published req entry ∈ L := by
  rw [publishedWith, List.mem_filterMap]
  constructor
  · rintro ⟨o, ho, hr⟩
    cases o with
    | published req entry =>
      cases hr
      exact ho
    | _ => cases hr
  · intro h
    exact ⟨_, h, rfl⟩

/-- The readings the requests of an event take, in order: a sweep reads the clock once before. -/
def readingOf : NodeEvent κ θ ω × Clock → Nat → Reading
  | (.sweep _, clk), j => clk (j + 1)
  | (.handler _, clk), j | (.response _, clk), j => clk j

/-- Each request took the next reading of `clk`, and each deadline is the time of its call
plus the time-out. -/
structure Dated (clk : Clock) (timeoutMs : Int) (n : Node κ θ ω) : Prop where
  timeout : n.client.timeoutMs = timeoutMs
  clock : ∀ i, n.clock i = clk (i + (publishedWith n.out).length)
  deadline : ∀ j req entry, (publishedWith n.out)[j]? = some (req, some entry) →
    entry.deadline = (clk j).now + timeoutMs * 1000000

section
variable {clk : Clock} {timeoutMs : Int}

/-- One more request. -/
theorem Dated.published {n n' : Node κ θ ω} (h : Dated clk timeoutMs n) {req : Request}
    {entry : Option (PendingRequest κ)} (hout : n'.out = n.out ++ [.published req entry])
    (hclock : n'.clock = n.clock.tail) (htimeout : n'.client.timeoutMs = n.client.timeoutMs)
    (hentry : ∀ e, entry = some e → e.deadline = (n.clock 0).now + timeoutMs * 1000000) :
    Dated clk timeoutMs n' where
  timeout := htimeout.trans h.timeout
  clock i := by
    have hlen : (publishedWith n'.out).length = (publishedWith n.out).length + 1 := by
      rw [hout, publishedWith_append, List.length_append]
      rfl
    rw [hclock, Clock.tail, h.clock, hlen]
    congr 1
    omega
  deadline j req' entry' hj := by
    rw [hout, publishedWith_append] at hj
    by_cases hlt : j < (publishedWith n.out).length
    · rw [List.getElem?_append_left hlt] at hj
      exact h.deadline j req' entry' hj
    · rw [List.getElem?_append_right (by omega)] at hj
      have hone : (req', some entry') ∈ publishedWith [Out.published (ω := ω) req entry] :=
        List.mem_of_getElem? hj
      obtain ⟨-, heq⟩ := Prod.mk.inj (List.mem_singleton.mp hone)
      have hzero : j - (publishedWith n.out).length < 1 := (List.getElem?_eq_some_iff.mp hj).1
      rw [hentry entry' heq.symm, h.clock]
      congr 3
      omega

/-- What is no request takes no reading. -/
theorem Dated.emit {n : Node κ θ ω} (h : Dated clk timeoutMs n) {o : Out κ ω} (ho : publishedWith [o] = []) :
    Dated clk timeoutMs (n.emit o) := by
  have hreq : publishedWith (n.emit o).out = publishedWith n.out := by
    rw [Node.emit_out, publishedWith_append, ho, List.append_nil]
  constructor
  · exact h.timeout
  · rw [hreq]
    exact h.clock
  · rw [hreq]
    exact h.deadline

theorem stable_dated : Stable fun n : Node κ θ ω => Dated clk timeoutMs n where
  quiet n o ho h := h.emit (publishedWith_quiet ho)
  host n host h := ⟨h.timeout, h.clock, h.deadline⟩
  sent n apiId noreply text h := h.published rfl rfl rfl fun e he => by cases he
  called n apiId text onResponse _ h := by
    refine h.published rfl rfl rfl ?_
    intro e he
    cases he
    show (n.clock 0).now + n.client.timeoutMs * 1000000 = _
    rw [h.timeout]

variable {nl : Nlohmann} {body : κ → ApiResult → Prog κ θ ω Unit}

/-- Running a callback is no request. -/
theorem Dated.invokeAll {due : List (PendingEntry κ)} {n n' : Node κ θ ω} (hn : Dated clk timeoutMs n)
    (h : n.invokeAll nl body due = (n', .ok ())) : Dated clk timeoutMs n' := by
  refine Node.invokeAll_rule (fun _ m => Dated clk timeoutMs m) ?_ hn h
  intro e _ m m₁ hm hi
  exact stable_dated.invoke nl body hi (hm.emit rfl)

theorem Warnings.publishedWith_eq_nil {L : List (Out κ ω)} (h : Warnings L) : publishedWith L = [] :=
  h.filterMap_eq_nil fun _ => rfl

/-- Before its first request a node is dated by the clock it has left. -/
theorem dated_of_no_requests {n : Node κ θ ω} (htimeout : n.client.timeoutMs = timeoutMs)
    (h : publishedWith n.out = []) : Dated n.clock timeoutMs n where
  timeout := htimeout
  clock i := by rw [h]; rfl
  deadline j req entry hj := by
    rw [h] at hj
    cases hj

/-- The deadline of a call is the node's time at the call plus the time-out, which stays as it is. -/
theorem deadline_step {s s' : State κ θ} {e : NodeEvent κ θ ω × Clock} {out : List (Out κ ω)}
    (hs : s.client.timeoutMs = timeoutMs) (h : nodeStep nl body s e = some (s', out)) :
    s'.client.timeoutMs = timeoutMs ∧
      ∀ j req entry, (publishedWith out)[j]? = some (req, some entry) →
        entry.deadline = (readingOf e j).now + timeoutMs * 1000000 := by
  cases nodeStep_completed nl body h with
  | handler p clk n hp =>
    have hd : Dated clk timeoutMs n :=
      stable_dated.exec nl hp (dated_of_no_requests (n := ⟨s, clk, []⟩) hs rfl)
    exact ⟨hd.timeout, hd.deadline⟩
  | ignored msg clk hl =>
    refine ⟨hs, ?_⟩
    intro j req entry hj
    cases hj
  | settled msg clk entry n hl hp =>
    have hreq : publishedWith (s.replied (ω := ω) clk msg entry).out = [] := by
      rw [State.replied, publishedWith_append, (warnings_mismatchLog msg entry).publishedWith_eq_nil]
      rfl
    have hd : Dated clk timeoutMs n := stable_dated.exec nl hp (dated_of_no_requests hs hreq)
    exact ⟨hd.timeout, hd.deadline⟩
  | nonePending order clk hempty =>
    refine ⟨hs, ?_⟩
    intro j req entry hj
    cases hj
  | swept order clk n hp =>
    have hd : Dated clk.tail timeoutMs n := by
      apply Dated.invokeAll (dated_of_no_requests (n := Node.swept order ⟨s, clk, []⟩) hs _) hp
      exact (warnings_timeoutLog _).publishedWith_eq_nil
    exact ⟨hd.timeout, hd.deadline⟩

end

/-! ## Runs -/

section
variable (nl : Nlohmann) (body : κ → ApiResult → Prog κ θ ω Unit)

/-- A call that a sweep times out was made by an earlier event, at a time that the
time-out, counted from there, has run out when the sweep reads the clock. -/
def NeverEarly (timeoutMs : Int)
    (tr : List (Step (State κ θ) (NodeEvent κ θ ω × Clock) (Out κ ω))) : Prop :=
  ∀ tr₁ y tr₂, tr = tr₁ ++ y :: tr₂ → ∀ order clk, y.event = (.sweep order, clk) →
    ∀ e result, (e, result) ∈ invocations y.out → result = timeoutResult ∧
      ∃ x ∈ tr₁, ∃ j req, (publishedWith x.out)[j]? = some (req, some e.2) ∧ req.id = e.1 ∧
        e.2.deadline = (readingOf x.event j).now + timeoutMs * 1000000 ∧
        (readingOf x.event j).now + timeoutMs * 1000000 ≤ (clk 0).now

/-- An entry whose deadline has passed is in the table after a sweep only if the sweep's
callbacks added it. -/
def NoneOverdue (tr : List (Step (State κ θ) (NodeEvent κ θ ω × Clock) (Out κ ω))) : Prop :=
  ∀ y ∈ tr, ∀ order clk, y.event = (.sweep order, clk) →
    ∀ e ∈ y.post.client.pending.entries, e.2.deadline ≤ (clk 0).now →
      e ∉ y.pre.client.pending.entries ∧ e ∈ calls y.out

variable {nl body} {timeoutMs : Int} {host₀ : θ} {s : State κ θ}
  {tr : List (Step (State κ θ) (NodeEvent κ θ ω × Clock) (Out κ ω))}

theorem timeoutMs_run (h : Run (nodeStep nl body) (State.start timeoutMs host₀) tr s) :
    s.client.timeoutMs = timeoutMs := by
  refine h.invariant (fun s => s.client.timeoutMs = timeoutMs) rfl ?_
  intro s e s' out hs he
  exact (deadline_step hs he).1

theorem never_early (h : Run (nodeStep nl body) (State.start timeoutMs host₀) tr s) :
    NeverEarly timeoutMs tr := by
  rintro tr₁ y tr₂ rfl order clk hev e result hinv
  obtain ⟨hpre, hstep, -⟩ := Run.split h
  rw [nodeStep_invocations hstep, State.mem_taken, hev] at hinv
  obtain ⟨hpend, hdue, rfl⟩ := hinv
  refine ⟨rfl, ?_⟩
  -- the event that made the call
  have hcall := (Ledger.run hpre).call_of_pending hpend
  unfold calls history at hcall
  rw [List.filterMap_flatMap, List.mem_flatMap] at hcall
  obtain ⟨x, hx, he⟩ := hcall
  obtain ⟨req, hpub, hid⟩ := mem_calls.mp he
  obtain ⟨j, hj⟩ := List.mem_iff_getElem?.mp (mem_publishedWith.mpr hpub)
  obtain ⟨tr₀, mid, rfl⟩ := List.append_of_mem hx
  obtain ⟨hpre₀, hstep₀, -⟩ := Run.split hpre
  have hdl := (deadline_step (timeoutMs_run hpre₀) hstep₀).2 j req e.2 hj
  refine ⟨x, hx, j, req, hj, hid, hdl, ?_⟩
  rw [← hdl]
  exact hdue

theorem none_overdue (h : Run (nodeStep nl body) (State.start timeoutMs host₀) tr s) :
    NoneOverdue tr := by
  intro y hy order clk hev e hpost hdue
  obtain ⟨tr₁, tr₂, rfl⟩ := List.append_of_mem hy
  obtain ⟨hpre, hstep, -⟩ := Run.split h
  have hL := Ledger.run hpre
  have hnot : e ∉ y.pre.client.pending.entries := by
    intro hm
    rw [hev] at hstep
    obtain ⟨n, hp, hn, -⟩ := (nodeStep_eq_some nl body).mp hstep
    have hgone := sweep_removed nl body order (n := ⟨y.pre, clk, []⟩) hL.issued ⟨hm, hdue⟩
    simp only [State.perform, Node.perform] at hp
    rw [hp] at hgone
    rw [← hn] at hpost
    rw [lookup_eq_some_iff.mpr hpost] at hgone
    cases hgone
  refine ⟨hnot, ?_⟩
  have hperm := nodeStep_pending hL hstep
  have hm := hperm.mem_iff.mpr (List.mem_append_right _ hpost)
  exact (List.mem_append.mp hm).resolve_right hnot

end

/-- **Time-outs are exact.**  From any node, with any callbacks, one sweep does what
`SweepExact` says, and the ids in the table were given out in every state a run reaches.
Over the runs of a node no call is timed out by a sweep that reads a time before the
node's time at the call plus the time-out, and no entry that is due survives a sweep unless
the sweep's callbacks added it.  A sweep past every deadline, whose callbacks start no
call, empties the table, so the next call is accepted. -/
theorem sweeps_exact {κ θ ω : Type} (nl : Nlohmann) (body : κ → ApiResult → Prog κ θ ω Unit)
    (timeoutMs : Int) (host₀ : θ) :
    (∀ order (n : Node κ θ ω), SweepExact nl body order n) ∧
    (∀ tr s, Run (survivedStep nl body) (State.start timeoutMs host₀) tr s → s.client.Issued) ∧
    (∀ tr s, Run (nodeStep nl body) (State.start timeoutMs host₀) tr s →
      NeverEarly timeoutMs tr ∧ NoneOverdue tr) ∧
    (∀ order (n n' : Node κ θ ω),
      (∀ e ∈ n.client.pending.entries, e.2.deadline ≤ (n.clock 0).now) →
      (∀ e ∈ n.client.pending.entries, (body e.2.callback timeoutResult).CallFree) →
      n'.toState = (n.sweepTimeouts nl body order).1.toState →
      n'.client.pending.entries = [] ∧
        ∀ apiId parameter onResponse text, nl.dump parameter = some text →
          (n'.call nl apiId parameter onResponse).2 = .ok true) := by
  refine ⟨fun order n => sweepExact nl body order n, fun tr s h => survived_issued h,
    fun tr s h => ⟨never_early h, none_overdue h⟩, ?_⟩
  intro order n n' hdue hfree hn'
  have hempty : n'.client.pending.entries = [] := by
    rw [hn']
    exact sweep_empties nl body order hdue hfree
  refine ⟨hempty, ?_⟩
  intro apiId parameter onResponse text hd
  exact Node.call_accepted nl hempty hd apiId onResponse

/-- A callback that calls again, once. -/
def retry : Bool → ApiResult → Prog Bool Unit Unit Unit
  | true, _ => .callThen 1015 emptyJson false fun _ => .ret ()
  | false, _ => .ret ()

/-- The walk of a table in the order of its list. -/
def listOrder {γ : Type} : IterationOrder γ := ⟨id, List.Perm.refl⟩

/-- A call, and a sweep at its deadline whose callback calls again. -/
def retried : List (Step (State Bool Unit) (NodeEvent Bool Unit Unit × Clock) (Out Bool Unit)) ×
    State Bool Unit :=
  execute (nodeStep .small retry) (.start 2000 ())
    [(.handler (.callThen 1015 emptyJson true fun _ => .ret ()), fun _ => ⟨5, 0⟩),
      (.sweep listOrder, fun _ => ⟨0, 2000000000⟩)]

theorem sweeps_exact_retried :
    (retried.1.length = 2 ∧ retried.2.client.pending.keys = [6] ∧ NeverEarly 2000 retried.1 ∧
      NoneOverdue retried.1) ∧
    (Node.sweepTimeouts .small retry listOrder
      (⟨retried.2, fun _ => ⟨0, 4000000000⟩, []⟩ : Node Bool Unit Unit)).1.client.pending.entries = [] := by
  obtain ⟨-, -, hruns, hempties⟩ := sweeps_exact Nlohmann.small retry 2000 ()
  have hrun : Run (nodeStep .small retry) (.start 2000 ()) retried.1 retried.2 := Run.execute _ _ _
  refine ⟨⟨rfl, by decide, hruns _ _ hrun⟩, (hempties listOrder _ _ ?_ ?_ rfl).1⟩
  · intro e he
    rw [List.mem_singleton.mp he]
    decide
  · intro e he
    rw [List.mem_singleton.mp he]
    trivial

end Go2
