import Go2Driver.Correlation
import Mathlib.Data.List.Forall2

/-!
# A node does not see its ids

The ids of requests come from the clock and from a counter, and no callback reads
them.  So two nodes that differ in their ids and in the readings behind them do the
same: `Mirrors` relates their states, with the n-th call of one history beside the
n-th of the other (`twins`), and a program or a reply to twin calls keeps the
relation and lets out the same but for the ids (`exec_mirrors`, `Mirrors.reply`).
-/

namespace Go2

open Tables Runs List

variable {κ θ ω α : Type}

/-! ## Increasing lists side by side -/

/-- Pairs out of two increasing lists are ordered alike. -/
theorem zip_lt_iff {β γ : Type} {f : β → Int} {g : γ → Int} {l : List β} {l' : List γ}
    (h : (l.map f).Pairwise (· < ·)) (h' : (l'.map g).Pairwise (· < ·)) {a b : β} {a' b' : γ}
    (ha : (a, a') ∈ l.zip l') (hb : (b, b') ∈ l.zip l') : f a < f b ↔ g a' < g b' := by
  rw [pairwise_map, pairwise_iff_getElem] at h h'
  obtain ⟨i, hi, hai⟩ := mem_iff_getElem.mp ha
  obtain ⟨j, hj, hbj⟩ := mem_iff_getElem.mp hb
  rw [getElem_zip, Prod.mk.injEq] at hai hbj
  rw [length_zip] at hi hj
  obtain ⟨rfl, rfl⟩ := hai
  obtain ⟨rfl, rfl⟩ := hbj
  rcases Nat.lt_trichotomy i j with hij | rfl | hij
  · exact iff_of_true (h i j (by omega) (by omega) hij) (h' i j (by omega) (by omega) hij)
  · exact iff_of_false (Int.lt_irrefl _) (Int.lt_irrefl _)
  · have hlt := h j i (by omega) (by omega) hij
    have hlt' := h' j i (by omega) (by omega) hij
    exact iff_of_false (by omega) (by omega)

theorem zip_eq_iff {β γ : Type} {f : β → Int} {g : γ → Int} {l : List β} {l' : List γ}
    (h : (l.map f).Pairwise (· < ·)) (h' : (l'.map g).Pairwise (· < ·)) {a b : β} {a' b' : γ}
    (ha : (a, a') ∈ l.zip l') (hb : (b, b') ∈ l.zip l') : f a = f b ↔ g a' = g b' := by
  have hab := zip_lt_iff h h' ha hb
  have hba := zip_lt_iff h h' hb ha
  omega

/-! ## What is let out, without ids -/

/-- An emission with its id taken off; log lines are left out. -/
inductive Seen (κ ω : Type)
  | request (apiId : Int) (noreply : Bool) (parameter : String) (entry : Option (PendingRequest κ))
  | result (entry : PendingRequest κ) (result : ApiResult)
  | host (o : ω)

def Out.seen? : Out κ ω → Option (Seen κ ω)
  | .published req entry => some (.request req.apiId req.noreply req.parameter entry)
  | .invoked _ entry result => some (.result entry result)
  | .log _ _ => none
  | .host o => some (.host o)

def seen (L : List (Out κ ω)) : List (Seen κ ω) := L.filterMap Out.seen?

@[simp] theorem seen_append (L L' : List (Out κ ω)) : seen (L ++ L') = seen L ++ seen L' :=
  filterMap_append

theorem seen_mismatchLog (msg : Response) (entry : PendingRequest κ) :
    seen (mismatchLog msg entry : List (Out κ ω)) = [] :=
  (warnings_mismatchLog msg entry).filterMap_eq_nil fun _ => rfl

/-! ## Twin calls -/

/-- The calls of two histories, the n-th with the n-th. -/
def twins (L L' : List (Out κ ω)) : List (PendingEntry κ × PendingEntry κ) := (calls L).zip (calls L')

/-- Two states that differ in the ids their histories gave out. -/
structure Mirrors (L L' : List (Out κ ω)) (s t : State κ θ) : Prop where
  host : s.host = t.host
  timeoutMs : s.client.timeoutMs = t.client.timeoutMs
  called : Forall₂ (fun e e' => e.2 = e'.2) (calls L) (calls L')
  pending : Forall₂ (fun e e' => (e, e') ∈ twins L L') s.client.pending.entries t.client.pending.entries
  ledger : Ledger L [] s.client
  ledger' : Ledger L' [] t.client

theorem Mirrors.start (timeoutMs : Int) (host₀ : θ) :
    Mirrors ([] : List (Out κ ω)) [] (State.start timeoutMs host₀) (State.start timeoutMs host₀) :=
  ⟨rfl, rfl, .nil, .nil, Ledger.start timeoutMs, Ledger.start timeoutMs⟩

theorem Ledger.keys_increasing {L : List (Out κ ω)} {due : List (PendingEntry κ)}
    {c : UnitreeApiClient κ} (h : Ledger L due c) : ((calls L).map (·.1)).Pairwise (· < ·) :=
  h.increasing.sublist (keys_calls_sublist L)

section
variable {L L' : List (Out κ ω)} {s t : State κ θ} {e e' x x' : PendingEntry κ}

theorem Mirrors.value (h : Mirrors L L' s t) (he : (e, e') ∈ twins L L') : e.2 = e'.2 :=
  forall₂_zip h.called he

theorem Mirrors.lt_iff (h : Mirrors L L' s t) (he : (e, e') ∈ twins L L') (hx : (x, x') ∈ twins L L') :
    e.1 < x.1 ↔ e'.1 < x'.1 :=
  zip_lt_iff h.ledger.keys_increasing h.ledger'.keys_increasing he hx

theorem Mirrors.id_iff (h : Mirrors L L' s t) (he : (e, e') ∈ twins L L') (hx : (x, x') ∈ twins L L') :
    e.1 = x.1 ↔ e'.1 = x'.1 :=
  zip_eq_iff h.ledger.keys_increasing h.ledger'.keys_increasing he hx

/-- The twin of a pending call is pending. -/
theorem Mirrors.pending_twin (h : Mirrors L L' s t) (he : e ∈ s.client.pending.entries) :
    ∃ e' ∈ t.client.pending.entries, (e, e') ∈ twins L L' := by
  obtain ⟨i, hi, rfl⟩ := mem_iff_getElem.mp he
  obtain ⟨hlen, hget⟩ := forall₂_iff_get.mp h.pending
  exact ⟨_, getElem_mem (by omega), hget i hi (by omega)⟩

theorem Mirrors.lookup_twin (h : Mirrors L L' s t) (he : (e, e') ∈ twins L L')
    (hl : s.client.pending.lookup e.1 = some e.2) : t.client.pending.lookup e'.1 = some e.2 := by
  obtain ⟨x', hx', htwin⟩ := h.pending_twin (lookup_eq_some_iff.mp hl)
  have hid : x'.1 = e'.1 := (h.id_iff htwin he).mp rfl
  rw [← hid, h.value htwin]
  exact lookup_eq_some_iff.mpr hx'

/-- Both tables hold as many entries. -/
theorem Mirrors.full_iff (h : Mirrors L L' s t) : s.client.full ↔ t.client.full := by
  unfold UnitreeApiClient.full
  rw [h.pending.length_eq]

theorem twins_append {A A' : List (Out κ ω)} (hlen : (calls L).length = (calls L').length) :
    twins (L ++ A) (L' ++ A') = twins L L' ++ twins A A' := by
  unfold twins
  rw [calls_append, calls_append, zip_append hlen]

theorem twins_append_nil {A A' : List (Out κ ω)} (hA : calls A = []) (hA' : calls A' = []) :
    twins (L ++ A) (L' ++ A') = twins L L' := by
  unfold twins
  rw [calls_append, calls_append, hA, hA', append_nil, append_nil]

/-- Output that registers no call, and a change to neither table. -/
theorem Mirrors.frame (h : Mirrors L L' s t) {A A' : List (Out κ ω)} {s' t' : State κ θ}
    (hA : calls A = []) (hA' : calls A' = []) (hhost : s'.host = t'.host)
    (hs : s'.client.pending = s.client.pending ∧ s'.client.timeoutMs = s.client.timeoutMs)
    (ht : t'.client.pending = t.client.pending ∧ t'.client.timeoutMs = t.client.timeoutMs)
    (hL : Ledger (L ++ A) [] s'.client) (hL' : Ledger (L' ++ A') [] t'.client) :
    Mirrors (L ++ A) (L' ++ A') s' t' where
  host := hhost
  timeoutMs := by rw [hs.2, ht.2, h.timeoutMs]
  called := by rw [calls_append, calls_append, hA, hA', append_nil, append_nil]; exact h.called
  pending := by
    rw [twins_append_nil hA hA', hs.1, ht.1]
    exact h.pending
  ledger := hL
  ledger' := hL'

/-- Both sides register a call. -/
theorem Mirrors.called_both (h : Mirrors L L' s t) {r r' : Reading} (hnow : r.now = r'.now)
    (apiId : Int) (text : String) (onResponse : κ) (hf : ¬ s.client.full) :
    Mirrors (L ++ [.published ⟨s.client.freshId r, apiId, false, text⟩
        (some (s.client.newEntry r apiId onResponse))])
      (L' ++ [.published ⟨t.client.freshId r', apiId, false, text⟩
        (some (t.client.newEntry r' apiId onResponse))])
      ⟨s.client.afterCall r apiId onResponse, s.host⟩
      ⟨t.client.afterCall r' apiId onResponse, t.host⟩ := by
  have hentry : s.client.newEntry r apiId onResponse = t.client.newEntry r' apiId onResponse := by
    unfold UnitreeApiClient.newEntry
    rw [hnow, h.timeoutMs]
  have hent : (s.client.afterCall r apiId onResponse).pending.entries =
      ⟨s.client.freshId r, s.client.newEntry r apiId onResponse⟩ :: s.client.pending.entries :=
    entries_emplace (h.ledger.freshId_notMem r)
  have hent' : (t.client.afterCall r' apiId onResponse).pending.entries =
      ⟨t.client.freshId r', t.client.newEntry r' apiId onResponse⟩ :: t.client.pending.entries :=
    entries_emplace (h.ledger'.freshId_notMem r')
  constructor
  · exact h.host
  · exact h.timeoutMs
  · rw [calls_append, calls_append]
    exact rel_append h.called (.cons hentry .nil)
  · rw [hent, hent', twins_append h.called.length_eq]
    refine .cons (mem_append_right _ (mem_singleton.mpr rfl)) ?_
    exact h.pending.imp fun _ _ hx => mem_append_left _ hx
  · exact h.ledger.called r _ apiId onResponse rfl hf
  · exact h.ledger'.called r' _ apiId onResponse rfl (fun hf' => hf (h.full_iff.mpr hf'))

/-- Both sides take twin calls out of their tables. -/
theorem Mirrors.taken (h : Mirrors L L' s t) (he : (e, e') ∈ twins L L')
    (hp : s.client.pending.lookup e.1 = some e.2) (msg : Response) (hid : msg.id = e.1) :
    Mirrors (L ++ (mismatchLog msg e.2 ++ [.invoked e.1 e.2 msg.result]))
      (L' ++ (mismatchLog { msg with id := e'.1 } e.2 ++ [.invoked e'.1 e.2 msg.result]))
      ⟨{ s.client with pending := s.client.pending.erase e.1 }, s.host⟩
      ⟨{ t.client with pending := t.client.pending.erase e'.1 }, t.host⟩ := by
  have hcalls : ∀ (m : Response) (i : Int),
      calls (mismatchLog m e.2 ++ [(.invoked i e.2 msg.result : Out κ ω)]) = [] := by
    intro m i
    rw [calls_append, calls_mismatchLog]
    rfl
  have hp' := h.lookup_twin he hp
  have hL := h.ledger.reply msg (by rw [hid]; exact hp)
  have hL' := h.ledger'.reply { msg with id := e'.1 } hp'
  rw [hid] at hL
  constructor
  · exact h.host
  · exact h.timeoutMs
  · rw [calls_append L, calls_append L', hcalls, hcalls, append_nil, append_nil]
    exact h.called
  · rw [twins_append_nil (hcalls _ _) (hcalls _ _)]
    simp only [entries_erase]
    -- the ids of twins differ from those taken together
    have hboth : Forall₂ (fun x x' => (x, x') ∈ twins L L' ∧ (x.1 ≠ e.1 ↔ x'.1 ≠ e'.1))
        s.client.pending.entries t.client.pending.entries :=
      h.pending.imp fun x x' hx => ⟨hx, not_congr (h.id_iff hx he)⟩
    refine (rel_filter ?_ hboth).imp fun _ _ hx => hx.1
    intro x x' hx
    simpa using hx.2
  · exact hL
  · exact hL'

end

/-! ## Programs and replies -/

/-- Two results of the same event, on both sides: the same fault, or states that mirror
each other and the same let out. -/
def SameResult (L L' : List (Out κ ω)) (x y : Node κ θ ω × Except Fault α) : Prop :=
  match x, y with
  | (n, .ok a), (m, .ok b) =>
    a = b ∧ Mirrors (L ++ n.out) (L' ++ m.out) n.toState m.toState ∧ seen n.out = seen m.out ∧
      ∀ i, (n.clock i).now = (m.clock i).now
  | (_, .error f), (_, .error g) => f = g
  | _, _ => False

variable (nl : Nlohmann)

/-- A program does the same on both sides. -/
theorem exec_mirrors {L L' : List (Out κ ω)} (p : Prog κ θ ω α) {n m : Node κ θ ω}
    (h : Mirrors (L ++ n.out) (L' ++ m.out) n.toState m.toState) (hseen : seen n.out = seen m.out)
    (hnow : ∀ i, (n.clock i).now = (m.clock i).now) :
    SameResult L L' (exec nl p n) (exec nl p m) := by
  have hquiet : ∀ {n m : Node κ θ ω} (o : Out κ ω), o.quiet = true →
      Mirrors (L ++ n.out) (L' ++ m.out) n.toState m.toState →
      Mirrors (L ++ (n.emit o).out) (L' ++ (m.emit o).out) (n.emit o).toState (m.emit o).toState := by
    intro n m o ho h
    simp only [Node.emit_out, ← append_assoc]
    exact h.frame (calls_quiet ho) (calls_quiet ho) h.host ⟨rfl, rfl⟩ ⟨rfl, rfl⟩ (h.ledger.quiet ho)
      (h.ledger'.quiet ho)
  induction p generalizing n m with
  | ret a => exact ⟨rfl, h, hseen, hnow⟩
  | raise f => exact (rfl : f = f)
  | callThen apiId parameter onResponse next ih =>
    simp only [exec]
    by_cases hf : n.client.full
    · have hf' : m.client.full := h.full_iff.mp hf
      rw [Node.call_full nl hf, Node.call_full nl hf']
      have hdrop : n.client.dropText apiId = m.client.dropText apiId := by
        unfold UnitreeApiClient.dropText
        rw [h.pending.length_eq]
      rw [hdrop]
      exact ih false (hquiet _ rfl h) (by simpa [Node.log, seen, Out.seen?] using hseen) hnow
    · have hf' : ¬ m.client.full := fun hm => hf (h.full_iff.mpr hm)
      rw [Node.call_eq nl hf, Node.call_eq nl hf']
      cases hd : nl.dump parameter with
      | none => exact (rfl : Fault.typeError = Fault.typeError)
      | some text =>
        have hboth := h.called_both (hnow 0) apiId text onResponse hf
        refine ih true ?_ ?_ (fun i => hnow (i + 1))
        · simpa only [Node.called, append_assoc] using hboth
        · have hentry : n.client.newEntry (n.clock 0) apiId onResponse =
              m.client.newEntry (m.clock 0) apiId onResponse := by
            unfold UnitreeApiClient.newEntry
            rw [hnow 0, h.timeoutMs]
          simpa [Node.called, seen, Out.seen?, hentry] using hseen
  | sendThen apiId parameter noreply next ih =>
    simp only [exec, Node.send_eq]
    cases hd : nl.dump parameter with
    | none => exact (rfl : Fault.typeError = Fault.typeError)
    | some text =>
      refine ih ?_ ?_ (fun i => hnow (i + 1))
      · simp only [Node.sent, ← append_assoc]
        exact h.frame rfl rfl h.host ⟨rfl, rfl⟩ ⟨rfl, rfl⟩ (h.ledger.sent _ _ rfl)
          (h.ledger'.sent _ _ rfl)
      · simpa [Node.sent, seen, Out.seen?] using hseen
  | readThen next ih =>
    simp only [exec]
    have hhost : n.host = m.host := h.host
    rw [hhost]
    exact ih _ h hseen hnow
  | writeThen host next ih =>
    exact ih ⟨rfl, h.timeoutMs, h.called, h.pending, h.ledger, h.ledger'⟩ hseen hnow
  | emitThen o next ih => exact ih (hquiet _ rfl h) (by simp [hseen]) hnow
  | logThen sev text next ih => exact ih (hquiet _ rfl h) (by simp [Node.log, hseen]) hnow

variable (body : κ → ApiResult → Prog κ θ ω Unit)

/-- A reply does the same as the reply to the twin call. -/
theorem Mirrors.reply {L L' : List (Out κ ω)} {s t : State κ θ} {clk clk' : Clock}
    {e e' : PendingEntry κ} (h : Mirrors L L' s t) (hnow : ∀ i, (clk i).now = (clk' i).now)
    (he : (e, e') ∈ twins L L') (hp : s.client.pending.lookup e.1 = some e.2) (msg : Response)
    (hid : msg.id = e.1) :
    SameResult L L' (Node.responseCallback nl body msg ⟨s, clk, []⟩)
      (Node.responseCallback nl body { msg with id := e'.1 } ⟨t, clk', []⟩) := by
  have hlookup : s.client.pending.lookup msg.id = some e.2 := by rw [hid]; exact hp
  have hseen : ∀ (m : Response) (i : Int),
      seen (mismatchLog m e.2 ++ [(.invoked i e.2 msg.result : Out κ ω)]) =
        [.result e.2 msg.result] := by
    intro m i
    rw [seen_append, seen_mismatchLog]
    rfl
  rw [Node.responseCallback_some nl body hlookup,
    Node.responseCallback_some nl body (h.lookup_twin he hp), hid]
  exact exec_mirrors nl _ (h.taken he hp msg hid) ((hseen _ _).trans (hseen _ _).symm) hnow

end Go2
