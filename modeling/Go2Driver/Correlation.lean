import Go2Driver.ApiClientLaws

/-!
# Each call is answered once, by its own reply or by the time-out

For every run of a node, whatever its callbacks do: the ids it publishes are
increasing, so no two are equal, and the calls that were accepted are, as a
multiset, the callbacks that were run and the entries that still wait
(`Ledger.balance`).  Each operation of the client keeps that balance; a sweep
first moves entries from the table to the list of callbacks it is about to run
(`due`), then runs them.  `Completed` is each way an event can complete.  Since
ids are distinct, the balance says that a call waits or has been answered exactly
once (`correlation`).
-/

namespace Go2

open Tables Runs

variable {κ θ ω α : Type}

/-! ## What a history records -/

/-- Ids of the published requests. -/
def publishedIds (L : List (Out κ ω)) : List Int :=
  L.filterMap fun
    | .published req _ => some req.id
    | _ => none

/-- The calls that returned true: the id published for each and its entry. -/
def calls (L : List (Out κ ω)) : List (PendingEntry κ) :=
  L.filterMap fun
    | .published req (some entry) => some ⟨req.id, entry⟩
    | _ => none

/-- The callbacks that were run, with the result each was given. -/
def invocations (L : List (Out κ ω)) : List (PendingEntry κ × ApiResult) :=
  L.filterMap fun
    | .invoked id entry result => some (⟨id, entry⟩, result)
    | _ => none

@[simp] theorem publishedIds_append (L L' : List (Out κ ω)) :
    publishedIds (L ++ L') = publishedIds L ++ publishedIds L' := List.filterMap_append

@[simp] theorem calls_append (L L' : List (Out κ ω)) : calls (L ++ L') = calls L ++ calls L' :=
  List.filterMap_append

@[simp] theorem invocations_append (L L' : List (Out κ ω)) :
    invocations (L ++ L') = invocations L ++ invocations L' := List.filterMap_append

theorem publishedIds_quiet {o : Out κ ω} (h : o.quiet = true) : publishedIds [o] = [] := by
  cases o <;> first | rfl | cases h

theorem calls_quiet {o : Out κ ω} (h : o.quiet = true) : calls [o] = [] := by
  cases o <;> first | rfl | cases h

theorem invocations_quiet {o : Out κ ω} (h : o.quiet = true) : invocations [o] = [] := by
  cases o <;> first | rfl | cases h

theorem mem_calls {L : List (Out κ ω)} {e : PendingEntry κ} :
    e ∈ calls L ↔ ∃ req, Out.published req (some e.2) ∈ L ∧ req.id = e.1 := by
  unfold calls
  rw [List.mem_filterMap]
  constructor
  · rintro ⟨o, ho, he⟩
    cases o with
    | published req entry =>
      cases entry with
      | none => cases he
      | some entry =>
        cases he
        exact ⟨req, ho, rfl⟩
    | invoked _ _ _ => cases he
    | log _ _ => cases he
    | host _ => cases he
  · rintro ⟨req, ho, hid⟩
    exact ⟨_, ho, congrArg some (Sigma.ext hid HEq.rfl)⟩

theorem calls_mismatchLog (msg : Response) (entry : PendingRequest κ) :
    calls (mismatchLog msg entry : List (Out κ ω)) = [] :=
  (warnings_mismatchLog msg entry).filterMap_eq_nil fun _ => rfl

theorem calls_timeoutLog (l : List (PendingEntry κ)) :
    calls (l.map timeoutLog : List (Out κ ω)) = [] :=
  (warnings_timeoutLog l).filterMap_eq_nil fun _ => rfl

theorem invocations_mismatchLog (msg : Response) (entry : PendingRequest κ) :
    invocations (mismatchLog msg entry : List (Out κ ω)) = [] :=
  (warnings_mismatchLog msg entry).filterMap_eq_nil fun _ => rfl

theorem invocations_timeoutLog (l : List (PendingEntry κ)) :
    invocations (l.map timeoutLog : List (Out κ ω)) = [] :=
  (warnings_timeoutLog l).filterMap_eq_nil fun _ => rfl

/-- The walk of a sweep runs no callback. -/
theorem invocations_swept (order : IterationOrder (PendingEntry κ)) (n : Node κ θ ω) :
    invocations (n.swept order).out = invocations n.out := by
  unfold Node.swept
  rw [invocations_append, invocations_timeoutLog, List.append_nil]

/-- A call's id is one of the published ids. -/
theorem keys_calls_sublist (L : List (Out κ ω)) :
    ((calls L).map (·.1)).Sublist (publishedIds L) := by
  induction L with
  | nil => exact .slnil
  | cons o L ih =>
    cases o with
    | published req entry =>
      cases entry with
      | none => exact ih.cons _
      | some entry => exact ih.cons_cons _
    | invoked id entry result => exact ih
    | log sev text => exact ih
    | host o => exact ih

/-! ## The ledger of a client -/

/-- The history `L` of a client `c` that has taken the entries `due` out of its
table and not yet run their callbacks. -/
structure Ledger (L : List (Out κ ω)) (due : List (PendingEntry κ)) (c : UnitreeApiClient κ) :
    Prop where
  increasing : (publishedIds L).Pairwise (· < ·)
  bounded : ∀ i ∈ publishedIds L, i ≤ c.lastId
  balance : (calls L).Perm ((invocations L).map (·.1) ++ (due ++ c.pending.entries))
  fits : c.pending.entries.length ≤ maxPending

theorem Ledger.start (timeoutMs : Int) : Ledger ([] : List (Out κ ω)) [] ⟨∅, timeoutMs, 0⟩ where
  increasing := List.Pairwise.nil
  bounded := by simp [publishedIds]
  balance := List.Perm.refl _
  fits := Nat.zero_le _

section
variable {L : List (Out κ ω)} {due : List (PendingEntry κ)} {c : UnitreeApiClient κ}

theorem Ledger.nodup_keys (h : Ledger L due c) : ((calls L).map (·.1)).Nodup :=
  (h.increasing.imp (fun hlt => Int.ne_of_lt hlt)).sublist (keys_calls_sublist L)

/-- Two calls with one id are one call. -/
theorem Ledger.call_eq (h : Ledger L due c) {e e' : PendingEntry κ} (he : e ∈ calls L)
    (he' : e' ∈ calls L) (hk : e.1 = e'.1) : e = e' :=
  List.inj_on_of_nodup_map h.nodup_keys he he' hk

theorem Ledger.call_of_pending (h : Ledger L due c) {e : PendingEntry κ}
    (he : e ∈ c.pending.entries) : e ∈ calls L :=
  h.balance.mem_iff.mpr (List.mem_append_right _ (List.mem_append_right _ he))

theorem Ledger.call_of_invoked (h : Ledger L due c) {e : PendingEntry κ} {r : ApiResult}
    (he : (e, r) ∈ invocations L) : e ∈ calls L :=
  h.balance.mem_iff.mpr (List.mem_append_left _ (List.mem_map_of_mem he))

/-- A call whose callback was run is out of the table. -/
theorem Ledger.invoked_notMem (h : Ledger L due c) {e : PendingEntry κ}
    (he : e ∈ (invocations L).map (·.1)) {x : PendingEntry κ} (hx : x ∈ due ++ c.pending.entries) :
    x.1 ≠ e.1 := by
  have hnd := (h.balance.map (·.1)).nodup_iff.mp h.nodup_keys
  rw [List.map_append, List.nodup_append] at hnd
  exact fun hk => hnd.2.2 _ (List.mem_map_of_mem he) _ (List.mem_map_of_mem hx) hk.symm

/-- A call waits and its callback was not run, or it is out of the table and its
callback was run once. -/
theorem Ledger.settled_once (h : Ledger L [] c) {e : PendingEntry κ} (he : e ∈ calls L) :
    (c.pending.lookup e.1 = some e.2 ∧ (invocations L).filter (fun i => i.1.1 = e.1) = []) ∨
    (c.pending.lookup e.1 = none ∧
      ∃ result, (invocations L).filter (fun i => i.1.1 = e.1) = [(e, result)]) := by
  have hb := h.balance
  rw [List.nil_append] at hb
  have hnd := (hb.map (·.1)).nodup_iff.mp h.nodup_keys
  rw [List.map_append, List.map_map, List.nodup_append] at hnd
  obtain ⟨hnd, -, hdisj⟩ := hnd
  rcases List.mem_append.mp (hb.mem_iff.mp he) with hm | hp
  · right
    obtain ⟨⟨e', r⟩, hi, rfl⟩ := List.mem_map.mp hm
    refine ⟨?_, r, ?_⟩
    · cases hl : c.pending.lookup e'.1 with
      | none => rfl
      | some v =>
        have hkey : e'.1 ∈ c.pending.entries.map (·.1) :=
          List.mem_map.mpr ⟨⟨e'.1, v⟩, lookup_eq_some_iff.mp hl, rfl⟩
        exact absurd rfl (hdisj _ (List.mem_map_of_mem hi) _ hkey)
    · exact filter_key_eq_singleton (f := fun i : PendingEntry κ × ApiResult => i.1.1) hnd hi
  · left
    refine ⟨lookup_eq_some_iff.mpr hp, List.filter_eq_nil_iff.mpr ?_⟩
    intro i hi
    simpa using hdisj _ (List.mem_map_of_mem hi) _ (List.mem_map_of_mem hp)

theorem Ledger.id_le (h : Ledger L due c) {e : PendingEntry κ} (he : e ∈ calls L) : e.1 ≤ c.lastId :=
  h.bounded _ ((keys_calls_sublist L).subset (List.mem_map_of_mem he))

theorem UnitreeApiClient.lastId_lt_freshId (c : UnitreeApiClient κ) (r : Reading) :
    c.lastId < c.freshId r := by
  unfold UnitreeApiClient.freshId
  omega

/-- A fresh id is in no entry, so `emplace` never finds it taken. -/
theorem Ledger.freshId_notMem (h : Ledger L due c) (r : Reading) : c.freshId r ∉ c.pending := by
  intro hm
  obtain ⟨v, hv⟩ := mem_iff_lookup.mp hm
  have hle := h.id_le (h.call_of_pending (lookup_eq_some_iff.mp hv))
  have hlt := c.lastId_lt_freshId r
  simp only at hle
  omega

theorem Ledger.quiet (h : Ledger L due c) {o : Out κ ω} (ho : o.quiet = true) :
    Ledger (L ++ [o]) due c where
  increasing := by rw [publishedIds_append, publishedIds_quiet ho, List.append_nil]; exact h.increasing
  bounded := by rw [publishedIds_append, publishedIds_quiet ho, List.append_nil]; exact h.bounded
  balance := by
    rw [calls_append, invocations_append, calls_quiet ho, invocations_quiet ho, List.append_nil,
      List.append_nil]
    exact h.balance
  fits := h.fits

theorem Ledger.warnings (h : Ledger L due c) {W : List (Out κ ω)} (hW : Warnings W) :
    Ledger (L ++ W) due c := by
  induction W generalizing L with
  | nil => rwa [List.append_nil]
  | cons o W ih =>
    obtain ⟨ho, hrest⟩ := List.forall_mem_cons.mp hW
    obtain ⟨text, rfl⟩ := ho
    rw [List.append_cons]
    exact ih (h.quiet rfl) hrest

/-- A published request extends the increasing ids, and its id becomes `lastId`. -/
theorem Ledger.publish_ids (h : Ledger L due c) (r : Reading) (req : Request)
    (entry : Option (PendingRequest κ)) (hid : req.id = c.freshId r) :
    (publishedIds (L ++ [.published req entry])).Pairwise (· < ·) ∧
      ∀ i ∈ publishedIds (L ++ [.published req entry]), i ≤ c.freshId r := by
  have hlt := c.lastId_lt_freshId r
  have hx : publishedIds (L ++ [.published req entry]) = publishedIds L ++ [c.freshId r] := by
    rw [publishedIds_append, ← hid]; rfl
  rw [hx]
  constructor
  · refine List.pairwise_append.mpr ⟨h.increasing, List.pairwise_singleton _ _, ?_⟩
    intro i hi j hj
    rw [List.mem_singleton.mp hj]
    have := h.bounded i hi
    omega
  · intro i hi
    rcases List.mem_append.mp hi with hi | hi
    · have := h.bounded i hi
      omega
    · exact Int.le_of_eq (List.mem_singleton.mp hi)

theorem Ledger.sent (h : Ledger L due c) (r : Reading) (req : Request) (hid : req.id = c.freshId r) :
    Ledger (L ++ [.published req none]) due (c.afterSend r) where
  increasing := (h.publish_ids r req none hid).1
  bounded := (h.publish_ids r req none hid).2
  balance := by
    rw [calls_append, invocations_append]
    have hc : calls [(.published req none : Out κ ω)] = [] := rfl
    have hi : invocations [(.published req none : Out κ ω)] = [] := rfl
    rw [hc, hi, List.append_nil, List.append_nil]
    exact h.balance
  fits := h.fits

theorem Ledger.called (h : Ledger L due c) (r : Reading) (req : Request) (apiId : Int) (onResponse : κ)
    (hid : req.id = c.freshId r) (hf : ¬ c.full) :
    Ledger (L ++ [.published req (some (c.newEntry r apiId onResponse))]) due
      (c.afterCall r apiId onResponse) where
  increasing := (h.publish_ids r req _ hid).1
  bounded := (h.publish_ids r req _ hid).2
  balance := by
    have hent : (c.afterCall r apiId onResponse).pending.entries =
        ⟨c.freshId r, c.newEntry r apiId onResponse⟩ :: c.pending.entries :=
      entries_emplace (h.freshId_notMem r)
    have hcalls : calls (L ++ [.published req (some (c.newEntry r apiId onResponse))]) =
        calls L ++ [⟨c.freshId r, c.newEntry r apiId onResponse⟩] := by
      rw [calls_append, ← hid]; rfl
    have hinv : invocations (L ++ [.published req (some (c.newEntry r apiId onResponse))]) =
        invocations L := by
      rw [invocations_append]; exact List.append_nil _
    rw [hcalls, hinv, hent]
    -- the new entry moves from the end of the calls to the front of the table
    generalize (⟨c.freshId r, c.newEntry r apiId onResponse⟩ : PendingEntry κ) = e
    calc List.Perm (calls L ++ [e]) (e :: calls L) := List.perm_append_singleton _ _
      List.Perm _ (e :: ((invocations L).map (·.1) ++ due ++ c.pending.entries)) := by
        rw [List.append_assoc]; exact h.balance.cons _
      List.Perm _ ((invocations L).map (·.1) ++ due ++ e :: c.pending.entries) :=
        List.perm_middle.symm
      List.Perm _ ((invocations L).map (·.1) ++ (due ++ e :: c.pending.entries)) := by
        rw [List.append_assoc]
  fits := by
    have hent : (c.afterCall r apiId onResponse).pending.entries =
        ⟨c.freshId r, c.newEntry r apiId onResponse⟩ :: c.pending.entries :=
      entries_emplace (h.freshId_notMem r)
    unfold UnitreeApiClient.full at hf
    rw [hent, List.length_cons]
    omega

/-- Running a callback that is due. -/
theorem Ledger.invoked {e : PendingEntry κ} (h : Ledger L (e :: due) c) (result : ApiResult) :
    Ledger (L ++ [.invoked e.1 e.2 result]) due c where
  increasing := by simpa [publishedIds] using h.increasing
  bounded := by simpa [publishedIds] using h.bounded
  balance := by
    have hcalls : calls (L ++ [.invoked e.1 e.2 result]) = calls L := by
      rw [calls_append]; exact List.append_nil _
    have hinv : invocations (L ++ [.invoked e.1 e.2 result]) = invocations L ++ [(e, result)] := by
      rw [invocations_append]; rfl
    rw [hcalls, hinv, List.map_append, List.append_assoc]
    exact h.balance
  fits := h.fits

/-- Entries leave the table for the list of callbacks to run. -/
theorem Ledger.take (h : Ledger L [] c) {due : List (PendingEntry κ)}
    {pending : Table Int (PendingRequest κ)}
    (hp : c.pending.entries.Perm (due ++ pending.entries)) : Ledger L due { c with pending } where
  increasing := h.increasing
  bounded := h.bounded
  balance := h.balance.trans (hp.append_left _)
  fits := by
    have hlen := hp.length_eq
    rw [List.length_append] at hlen
    have := h.fits
    simp only
    omega

/-- A reply takes its call out of the table and runs its callback. -/
theorem Ledger.reply (h : Ledger L [] c) (msg : Response) {entry : PendingRequest κ}
    (hl : c.pending.lookup msg.id = some entry) :
    Ledger (L ++ (mismatchLog msg entry ++ [.invoked msg.id entry msg.result])) []
      { c with pending := c.pending.erase msg.id } := by
  have htake : Ledger L [⟨msg.id, entry⟩] { c with pending := c.pending.erase msg.id } :=
    h.take (perm_erase hl)
  rw [← List.append_assoc]
  exact (htake.warnings (warnings_mismatchLog msg entry)).invoked msg.result

end

/-! ## Every event keeps the ledger -/

section
variable (nl : Nlohmann) (body : κ → ApiResult → Prog κ θ ω Unit)

/-- The ledger of a node in the middle of an event, after the history `L`. -/
theorem stable_ledger (L : List (Out κ ω)) (due : List (PendingEntry κ)) :
    Stable fun n : Node κ θ ω => Ledger (L ++ n.out) due n.client where
  quiet n o ho h := by
    have := h.quiet ho
    rwa [List.append_assoc] at this
  host _ _ h := h
  sent n apiId noreply text h := by
    have := h.sent (n.clock 0) ⟨n.client.freshId (n.clock 0), apiId, noreply, text⟩ rfl
    rwa [List.append_assoc] at this
  called n apiId text onResponse hf h := by
    have := h.called (n.clock 0) ⟨n.client.freshId (n.clock 0), apiId, false, text⟩ apiId
      onResponse rfl hf
    rwa [List.append_assoc] at this

/-- A program runs no callback. -/
theorem stable_invocations (I : List (PendingEntry κ × ApiResult)) :
    Stable fun n : Node κ θ ω => invocations n.out = I where
  quiet n o ho h := by simp [invocations_quiet ho, h]
  host _ _ h := h
  sent n apiId noreply text h := by simpa [Node.sent, invocations] using h
  called n apiId text onResponse _ h := by simpa [Node.called, invocations] using h

theorem Ledger.invokeAll (L : List (Out κ ω)) {due : List (PendingEntry κ)} {n n' : Node κ θ ω}
    (hn : Ledger (L ++ n.out) due n.client) (h : n.invokeAll nl body due = (n', .ok ())) :
    Ledger (L ++ n'.out) [] n'.client := by
  refine Node.invokeAll_rule (fun due n => Ledger (L ++ n.out) due n.client) ?_ hn h
  intro e due n n₁ hL hi
  apply (stable_ledger L due).invoke nl body hi
  have := hL.invoked timeoutResult
  rwa [List.append_assoc] at this

/-- What `nodeStep` does is what `perform` did when it returned. -/
theorem nodeStep_eq_some {s s' : State κ θ} {e : NodeEvent κ θ ω × Clock} {out : List (Out κ ω)} :
    nodeStep nl body s e = some (s', out) ↔
      ∃ n, s.perform nl body e = (n, .ok ()) ∧ n.toState = s' ∧ n.out = out := by
  unfold nodeStep
  rcases s.perform nl body e with ⟨n, f | _⟩
  · simp
  · simp

/-- The node that a reply to `entry` leaves for its callback. -/
def State.replied (s : State κ θ) (clk : Clock) (msg : Response) (entry : PendingRequest κ) :
    Node κ θ ω where
  client := { s.client with pending := s.client.pending.erase msg.id }
  host := s.host
  clock := clk
  out := mismatchLog msg entry ++ [.invoked msg.id entry msg.result]

/-- Each way an event can complete, with what it ran. -/
inductive Completed (s : State κ θ) : NodeEvent κ θ ω × Clock → State κ θ → List (Out κ ω) → Prop
  | handler (p : Prog κ θ ω Unit) (clk : Clock) (n : Node κ θ ω) :
      exec nl p ⟨s, clk, []⟩ = (n, .ok ()) → Completed s (.handler p, clk) n.toState n.out
  | ignored (msg : Response) (clk : Clock) : s.client.pending.lookup msg.id = none →
      Completed s (.response msg, clk) s [.log .debug ("ignoring reply for id=" ++ toString msg.id)]
  | settled (msg : Response) (clk : Clock) (entry : PendingRequest κ) (n : Node κ θ ω) :
      s.client.pending.lookup msg.id = some entry →
      exec nl (body entry.callback msg.result) (s.replied clk msg entry) = (n, .ok ()) →
      Completed s (.response msg, clk) n.toState n.out
  | nonePending (order : IterationOrder (PendingEntry κ)) (clk : Clock) :
      s.client.pending.entries = [] → Completed s (.sweep order, clk) s []
  | swept (order : IterationOrder (PendingEntry κ)) (clk : Clock) (n : Node κ θ ω) :
      Node.invokeAll nl body (s.client.expired order (clk 0).now) (Node.swept order ⟨s, clk, []⟩) =
        (n, .ok ()) →
      Completed s (.sweep order, clk) n.toState n.out

theorem nodeStep_completed {s s' : State κ θ} {e : NodeEvent κ θ ω × Clock} {out : List (Out κ ω)}
    (h : nodeStep nl body s e = some (s', out)) : Completed nl body s e s' out := by
  obtain ⟨n, hp, rfl, rfl⟩ := (nodeStep_eq_some nl body).mp h
  obtain ⟨e, clk⟩ := e
  cases e with
  | handler p => exact .handler p clk n hp
  | response msg =>
    simp only [State.perform, Node.perform] at hp
    cases hl : s.client.pending.lookup msg.id with
    | none =>
      rw [Node.responseCallback_none nl body hl, Prod.mk.injEq] at hp
      rw [← hp.1]
      exact .ignored msg clk hl
    | some entry =>
      rw [Node.responseCallback_some nl body hl] at hp
      exact .settled msg clk entry n hl hp
  | sweep order =>
    simp only [State.perform, Node.perform, sweepTimeouts_eq_swept] at hp
    split at hp
    · next hempty =>
      rw [Prod.mk.injEq] at hp
      rw [← hp.1]
      exact .nonePending order clk hempty
    · exact .swept order clk n hp

theorem Ledger.step {L : List (Out κ ω)} {s s' : State κ θ} {e : NodeEvent κ θ ω × Clock}
    {out : List (Out κ ω)} (hs : Ledger L [] s.client) (h : nodeStep nl body s e = some (s', out)) :
    Ledger (L ++ out) [] s'.client := by
  cases nodeStep_completed nl body h with
  | handler p clk n hp =>
    apply (stable_ledger L []).exec nl hp
    rwa [List.append_nil]
  | ignored msg clk hl => exact hs.quiet rfl
  | settled msg clk entry n hl hp => exact (stable_ledger L []).exec nl hp (hs.reply msg hl)
  | nonePending order clk hempty => rwa [List.append_nil]
  | swept order clk n hp =>
    apply Ledger.invokeAll nl body L _ hp
    have htake := hs.take (s.client.perm_expired_kept order (clk 0).now)
    exact htake.warnings (warnings_timeoutLog _)

variable {nl body} {timeoutMs : Int} {host₀ : θ} {s : State κ θ}
  {tr tr₁ tr₂ : List (Step (State κ θ) (NodeEvent κ θ ω × Clock) (Out κ ω))}

theorem Ledger.run (h : Run (nodeStep nl body) (State.start timeoutMs host₀) tr s) :
    Ledger (history tr) [] s.client := by
  refine h.historyInvariant (fun L s => Ledger L [] s.client) (fun _ _ => True)
    (Ledger.start timeoutMs) ?_ fun _ _ => trivial
  intro L s e s' out hL _ hstep
  exact Ledger.step nl body hL hstep

/-- A reply runs the callback of the entry under its id, and no other; a reply
under any other id does nothing. -/
theorem response_step {st : Step (State κ θ) (NodeEvent κ θ ω × Clock) (Out κ ω)} {msg : Response}
    {clock : Clock} (hst : nodeStep nl body st.pre st.event = some (st.post, st.out))
    (hev : st.event = (.response msg, clock)) :
    (∃ entry, st.pre.client.pending.lookup msg.id = some entry ∧
      invocations st.out = [(⟨msg.id, entry⟩, msg.result)]) ∨
    (st.pre.client.pending.lookup msg.id = none ∧ st.post = st.pre ∧ calls st.out = [] ∧
      publishedIds st.out = [] ∧ invocations st.out = []) := by
  rw [hev] at hst
  obtain ⟨pre, event, out, post⟩ := st
  subst hev
  cases nodeStep_completed nl body hst with
  | ignored _ _ hl =>
    right
    exact ⟨hl, rfl, rfl, rfl, rfl⟩
  | settled _ _ entry n hl hp =>
    left
    refine ⟨entry, hl, ?_⟩
    refine (stable_invocations [(⟨msg.id, entry⟩, msg.result)]).exec nl hp ?_
    rw [State.replied, invocations_append, invocations_mismatchLog]
    rfl

/-- **Exactly once.**  In every run of a node, whatever its callbacks do:

* the ids of the published requests are pairwise distinct;
* a call that returned true waits in the table and its callback was not run, or
  it is out of the table and its callback was run exactly once;
* a reply runs only the callback registered by the call that published its id,
  with that reply's code and data, and a reply under another id does nothing;
* no callback is run but one registered by a call that returned true; a call
  that returned false left the node as it was, but for a log line. -/
theorem correlation (h : Run (nodeStep nl body) (State.start timeoutMs host₀) tr s) :
    (publishedIds (history tr)).Nodup ∧
    (∀ e ∈ calls (history tr),
      (s.client.pending.lookup e.1 = some e.2 ∧
        (invocations (history tr)).filter (fun i => i.1.1 = e.1) = []) ∨
      (s.client.pending.lookup e.1 = none ∧
        ∃ result, (invocations (history tr)).filter (fun i => i.1.1 = e.1) = [(e, result)])) ∧
    (∀ tr₁ st tr₂ msg clock, tr = tr₁ ++ st :: tr₂ → st.event = (.response msg, clock) →
      (∃ entry, (⟨msg.id, entry⟩ : PendingEntry κ) ∈ calls (history tr₁) ∧
        invocations st.out = [(⟨msg.id, entry⟩, ⟨decide (msg.code = 0), msg.code, msg.data⟩)]) ∨
      (st.pre.client.pending.lookup msg.id = none ∧ st.post = st.pre ∧
        publishedIds st.out = [] ∧ invocations st.out = [])) ∧
    (∀ i ∈ invocations (history tr), i.1 ∈ calls (history tr)) ∧
    (∀ (n n' : Node κ θ ω) apiId parameter onResponse,
      (n.call nl apiId parameter onResponse = (n', .ok true) →
        ∃ req entry, n'.out = n.out ++ [.published req (some entry)] ∧
          req.apiId = apiId ∧ entry.callback = onResponse) ∧
      (n.call nl apiId parameter onResponse = (n', .ok false) →
        n'.toState = n.toState ∧ ∃ text, n'.out = n.out ++ [.log .error text])) := by
  have hL := Ledger.run h
  refine ⟨hL.increasing.imp (fun hlt => Int.ne_of_lt hlt), fun e => hL.settled_once, ?_, ?_, ?_⟩
  · intro tr₁ st tr₂ msg clock htr hev
    subst htr
    obtain ⟨hpre, hst, -⟩ := h.split
    rcases response_step hst hev with ⟨entry, hl, hi⟩ | ⟨hl, hpost, -, hp, hi⟩
    · exact .inl ⟨entry, (Ledger.run hpre).call_of_pending (lookup_eq_some_iff.mp hl), hi⟩
    · exact .inr ⟨hl, hpost, hp, hi⟩
  · rintro ⟨e, r⟩ hi
    exact hL.call_of_invoked hi
  · intro n n' apiId parameter onResponse
    constructor
    · intro hc
      obtain ⟨-, hb, -⟩ | ⟨-, -, text, -, rfl⟩ := n.call_cases nl hc
      · cases hb
      · exact ⟨_, _, rfl, rfl, rfl⟩
    · intro hc
      obtain ⟨-, -, rfl⟩ | ⟨-, hb, -⟩ := n.call_cases nl hc
      · exact ⟨rfl, _, rfl⟩
      · cases hb

end

/-- One call, its reply, and the reply again. -/
def duplicateReply : List (Step (State Unit Unit) (NodeEvent Unit Unit Unit × Clock) (Out Unit Unit)) ×
    State Unit Unit :=
  execute (nodeStep .small fun _ _ => .ret ()) (.start 2000 ())
    [(.handler (.callThen 1015 emptyJson () fun _ => .ret ()), fun _ => ⟨5, 0⟩),
      (.response ⟨5, 1015, 0, ""⟩, fun _ => ⟨0, 0⟩), (.response ⟨5, 1015, 0, ""⟩, fun _ => ⟨0, 0⟩)]

theorem correlation_duplicateReply :
    duplicateReply.1.length = 3 ∧
      ∃ result, (invocations (history duplicateReply.1)).filter (fun i => i.1.1 = 5) =
        [(⟨5, ⟨1015, 2000000000, ()⟩⟩, result)] := by
  have hcall : (⟨5, ⟨1015, 2000000000, ()⟩⟩ : PendingEntry Unit) ∈ calls (history duplicateReply.1) :=
    List.mem_cons_self
  have hgone : duplicateReply.2.client.pending.lookup 5 = none := rfl
  have hrun : Run _ _ duplicateReply.1 duplicateReply.2 := Run.execute _ _ _
  rcases (correlation hrun).2.1 _ hcall with ⟨h, -⟩ | ⟨-, h⟩
  · rw [hgone] at h
    cases h
  · exact ⟨rfl, h⟩

end Go2
