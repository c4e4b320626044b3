import Go2Driver.Correlation

/-!
# What becomes of a call

A call waits in the table until the first of two events: a reply under its id,
or a sweep past its deadline.  That event runs its callback, once, and what the
callback lets out is found between its `invoked` and the next (`under`).

* `nodeStep_invocations`, `nodeStep_pending`: which callbacks an event runs, and
  what it leaves in the table.
* `Fate`, `call_fate`: the call still waits, or one event settled it.
* `outputFor_settled`: where the callback only reports, what was let out for the call.

A bridge is a system whose steps are steps of a node under a map of its events
(`Implements`); the results are about runs of the bridge.
-/

namespace Go2

open Tables Runs

variable {κ θ ω α : Type}

/-! ## The callbacks an event runs -/

/-- The entries an event takes out of the table, with the result for each. -/
def State.taken (s : State κ θ) : NodeEvent κ θ ω × Clock → List (PendingEntry κ × ApiResult)
  | (.handler _, _) => []
  | (.response msg, _) =>
    match s.client.pending.lookup msg.id with
    | none => []
    | some entry => [(⟨msg.id, entry⟩, msg.result)]
  | (.sweep order, clk) =>
    (s.client.expired order (clk 0).now).map fun e => (e, timeoutResult)

theorem UnitreeApiClient.expired_of_empty {c : UnitreeApiClient κ} (h : c.pending.entries = [])
    (order : IterationOrder (PendingEntry κ)) (now : Int) : c.expired order now = [] := by
  rw [List.eq_nil_iff_forall_not_mem]
  intro e he
  rw [UnitreeApiClient.expired, mem_expiredIn, order.mem_arrange, h] at he
  cases he.1

section
variable {nl : Nlohmann} {body : κ → ApiResult → Prog κ θ ω Unit}

theorem invokeAll_invocations {due : List (PendingEntry κ)} {n n' : Node κ θ ω}
    (h : n.invokeAll nl body due = (n', .ok ())) :
    invocations n'.out = invocations n.out ++ due.map fun e => (e, timeoutResult) := by
  have hall := Node.invokeAll_rule
    (fun rest m => invocations m.out ++ rest.map (fun e => (e, timeoutResult)) =
      invocations n.out ++ due.map fun e => (e, timeoutResult)) ?_ rfl h
  · rwa [List.map_nil, List.append_nil] at hall
  · intro e rest m m₁ hm hi
    have hone : invocations m₁.out = invocations m.out ++ [(e, timeoutResult)] :=
      (stable_invocations (invocations m.out ++ [(e, timeoutResult)])).invoke nl body hi
        (by rw [Node.emit_out, invocations_append]; rfl)
    rw [hone, ← hm]
    simp

/-- An event runs the callbacks of the entries it takes. -/
theorem nodeStep_invocations {s s' : State κ θ} {e : NodeEvent κ θ ω × Clock} {out : List (Out κ ω)}
    (h : nodeStep nl body s e = some (s', out)) : invocations out = s.taken e := by
  cases nodeStep_completed nl body h with
  | handler p clk n hp => exact (stable_invocations []).exec nl hp rfl
  | ignored msg clk hl =>
    simp only [State.taken, hl]
    rfl
  | settled msg clk entry n hl hp =>
    simp only [State.taken, hl]
    apply (stable_invocations _).exec nl hp
    rw [State.replied, invocations_append, invocations_mismatchLog]
    rfl
  | nonePending order clk hempty =>
    simp only [State.taken, UnitreeApiClient.expired_of_empty hempty]
    rfl
  | swept order clk n hp =>
    rw [invokeAll_invocations hp, invocations_swept]
    rfl

/-- An event leaves in the table what it did not take, and its own calls. -/
theorem nodeStep_pending {L : List (Out κ ω)} {s s' : State κ θ} {e : NodeEvent κ θ ω × Clock}
    {out : List (Out κ ω)} (hL : Ledger L [] s.client) (h : nodeStep nl body s e = some (s', out)) :
    (calls out ++ s.client.pending.entries).Perm
      ((s.taken e).map (·.1) ++ s'.client.pending.entries) := by
  have hb := (Ledger.step nl body hL h).balance
  rw [calls_append, invocations_append, List.map_append, nodeStep_invocations h] at hb
  have hbefore := hL.balance
  rw [List.nil_append] at hb hbefore
  -- cancel the callbacks that were run before
  refine (List.perm_append_left_iff ((invocations L).map (·.1))).mp ?_
  calc List.Perm ((invocations L).map (·.1) ++ (calls out ++ s.client.pending.entries))
        ((invocations L).map (·.1) ++ s.client.pending.entries ++ calls out) := by
          rw [List.append_assoc]
          exact List.perm_append_comm.append_left _
    List.Perm _ (calls L ++ calls out) := hbefore.symm.append_right _
    List.Perm _ ((invocations L).map (·.1) ++ ((s.taken e).map (·.1) ++ s'.client.pending.entries)) := by
          rw [← List.append_assoc]
          exact hb

end

/-! ## One event and one call -/

/-- What makes an event take the entry `e` with `result`: the reply to it, or a sweep past its deadline. -/
def SettledBy (e : PendingEntry κ) (result : ApiResult) : NodeEvent κ θ ω × Clock → Prop
  | (.handler _, _) => False
  | (.response msg, _) => msg.id = e.1 ∧ result = msg.result
  | (.sweep _, clk) => e.2.deadline ≤ (clk 0).now ∧ result = timeoutResult

theorem State.mem_taken {s : State κ θ} {ev : NodeEvent κ θ ω × Clock} {e : PendingEntry κ}
    {result : ApiResult} :
    (e, result) ∈ s.taken ev ↔ e ∈ s.client.pending.entries ∧ SettledBy e result ev := by
  obtain ⟨ev, clk⟩ := ev
  cases ev with
  | handler p => simp [State.taken, SettledBy]
  | response msg =>
    simp only [State.taken, SettledBy]
    cases hl : s.client.pending.lookup msg.id with
    | none =>
      simp only [List.not_mem_nil, false_iff]
      rintro ⟨he, hid, -⟩
      rw [hid, lookup_eq_some_iff.mpr he] at hl
      cases hl
    | some entry =>
      have hm := lookup_eq_some_iff.mp hl
      simp only [List.mem_singleton, Prod.mk.injEq]
      constructor
      · rintro ⟨rfl, rfl⟩
        exact ⟨hm, rfl, rfl⟩
      · rintro ⟨he, hid, rfl⟩
        exact ⟨entry_eq he hm hid.symm, rfl⟩
  | sweep order =>
    simp only [State.taken, SettledBy, List.mem_map, Prod.mk.injEq]
    constructor
    · rintro ⟨x, hx, rfl, rfl⟩
      rw [UnitreeApiClient.expired, mem_expiredIn, order.mem_arrange] at hx
      exact ⟨hx.1, hx.2, rfl⟩
    · rintro ⟨he, hdl, rfl⟩
      refine ⟨e, ?_, rfl, rfl⟩
      rw [UnitreeApiClient.expired, mem_expiredIn, order.mem_arrange]
      exact ⟨he, hdl⟩

section
variable {nl : Nlohmann} {body : κ → ApiResult → Prog κ θ ω Unit} {L : List (Out κ ω)}
  {s s' : State κ θ} {ev : NodeEvent κ θ ω × Clock} {out : List (Out κ ω)} {e : PendingEntry κ}

/-- An event settles a pending call or leaves it pending, running no callback of its id. -/
theorem pending_step (hL : Ledger L [] s.client) (h : nodeStep nl body s ev = some (s', out))
    (he : e ∈ s.client.pending.entries) :
    (e ∈ s'.client.pending.entries ∧ (∀ i ∈ invocations out, i.1.1 ≠ e.1) ∧
      ∀ result, ¬ SettledBy e result ev) ∨
    ∃ result, (e, result) ∈ invocations out ∧ SettledBy e result ev := by
  rw [nodeStep_invocations h]
  by_cases hset : ∃ result, SettledBy e result ev
  · obtain ⟨result, hset⟩ := hset
    exact .inr ⟨result, State.mem_taken.mpr ⟨he, hset⟩, hset⟩
  · have hnot : ∀ i ∈ s.taken ev, i.1.1 ≠ e.1 := by
      rintro ⟨x, result⟩ hi hk
      obtain ⟨hx, hset'⟩ := State.mem_taken.mp hi
      have hxe : x = e := entry_eq hx he hk
      exact hset ⟨result, hxe ▸ hset'⟩
    refine .inl ⟨?_, hnot, fun result hr => hset ⟨result, hr⟩⟩
    have hmem := (nodeStep_pending hL h).subset (List.mem_append_right _ he)
    rcases List.mem_append.mp hmem with htaken | hpend
    · obtain ⟨i, hi, rfl⟩ := List.mem_map.mp htaken
      exact absurd rfl (hnot i hi)
    · exact hpend

/-- A call that is settled is never heard of again. -/
theorem settled_step (hL : Ledger L [] s.client) (h : nodeStep nl body s ev = some (s', out))
    (he : e ∈ calls L) (hgone : e ∉ s.client.pending.entries) :
    e ∉ s'.client.pending.entries ∧ ∀ i ∈ invocations out, i.1.1 ≠ e.1 := by
  have hL' := Ledger.step nl body hL h
  have hinv : e ∈ (invocations L).map (·.1) :=
    (List.mem_append.mp (hL.balance.mem_iff.mp he)).resolve_right hgone
  have hb := hL'.balance
  rw [List.nil_append, invocations_append, List.map_append, List.append_assoc] at hb
  have hnd := (hb.map (·.1)).nodup_iff.mp hL'.nodup_keys
  rw [List.map_append, List.nodup_append] at hnd
  obtain ⟨-, -, hdisj⟩ := hnd
  have hkey : e.1 ∈ ((invocations L).map (·.1)).map (·.1) := List.mem_map_of_mem hinv
  constructor
  · intro hp
    exact hdisj _ hkey _ (List.mem_map_of_mem (List.mem_append_right _ hp)) rfl
  · intro i hi hk
    refine hdisj _ hkey i.1.1 ?_ hk.symm
    exact List.mem_map_of_mem (List.mem_append_left _ (List.mem_map_of_mem hi))

/-- A call an event publishes is pending after it. -/
theorem called_pending (hL : Ledger L [] s.client) (h : nodeStep nl body s ev = some (s', out))
    (he : e ∈ calls out) : e ∈ s'.client.pending.entries := by
  have hL' := Ledger.step nl body hL h
  have hnew : e ∉ calls L := by
    intro hold
    have hnd := hL'.nodup_keys
    rw [calls_append, List.map_append, List.nodup_append] at hnd
    exact hnd.2.2 _ (List.mem_map_of_mem hold) _ (List.mem_map_of_mem he) rfl
  rcases List.mem_append.mp ((nodeStep_pending hL h).subset (List.mem_append_left _ he)) with ht | hp
  · obtain ⟨⟨x, result⟩, hi, rfl⟩ := List.mem_map.mp ht
    exact absurd (hL.call_of_pending (State.mem_taken.mp hi).1) hnew
  · exact hp

end

/-! ## A call in a run -/

section
variable {ε : Type}

/-- A system whose steps are those of a node whose events `f` gives. -/
def Implements (nl : Nlohmann) (body : κ → ApiResult → Prog κ θ ω Unit)
    (step : State κ θ → ε → Option (State κ θ × List (Out κ ω))) (f : ε → NodeEvent κ θ ω × Clock) :
    Prop :=
  ∀ s e r, step s e = some r → nodeStep nl body s (f e) = some r

variable {nl : Nlohmann} {body : κ → ApiResult → Prog κ θ ω Unit}
  {step : State κ θ → ε → Option (State κ θ × List (Out κ ω))} {f : ε → NodeEvent κ θ ω × Clock}
  {timeoutMs : Int} {host₀ : θ} {s : State κ θ} {tr tr₁ tr₂ : List (Step (State κ θ) ε (Out κ ω))}
  {st : Step (State κ θ) ε (Out κ ω)} {e : PendingEntry κ}

theorem Implements.ledger (hi : Implements nl body step f)
    (h : Run step (State.start timeoutMs host₀) tr s) : Ledger (history tr) [] s.client := by
  have := Ledger.run (Run.map f hi h)
  rwa [history_mapEvent] at this

/-- The step is no event of the call `e`. -/
def Spares (f : ε → NodeEvent κ θ ω × Clock) (e : PendingEntry κ)
    (st : Step (State κ θ) ε (Out κ ω)) : Prop :=
  (∀ i ∈ invocations st.out, i.1.1 ≠ e.1) ∧
    (e ∈ st.pre.client.pending.entries → ∀ result, ¬ SettledBy e result (f st.event))

/-- What has become of the call `e` after the steps `tr`, which led to `s`: it
waits, or one event settled it with a result, the first reply under its id or the
first sweep past its deadline. -/
inductive Fate (f : ε → NodeEvent κ θ ω × Clock) (e : PendingEntry κ) (s : State κ θ) :
    List (Step (State κ θ) ε (Out κ ω)) → Option ApiResult → Prop
  | waiting {tr : List (Step (State κ θ) ε (Out κ ω))} : e ∈ s.client.pending.entries →
      (∀ y ∈ tr, e ∈ y.pre.client.pending.entries ∧ Spares f e y) → Fate f e s tr none
  | settled {mid rest : List (Step (State κ θ) ε (Out κ ω))} {x : Step (State κ θ) ε (Out κ ω)}
      {result : ApiResult} :
      (∀ y ∈ mid, e ∈ y.pre.client.pending.entries ∧ Spares f e y) →
      e ∈ x.pre.client.pending.entries → SettledBy e result (f x.event) →
      (e, result) ∈ invocations x.out →
      (∀ y ∈ rest, e ∉ y.pre.client.pending.entries ∧ Spares f e y) →
      e ∉ s.client.pending.entries → Fate f e s (mid ++ x :: rest) (some result)

/-- A call is pending from the event that published it to the one that settles it.
That event runs its callback and no other event does. -/
theorem call_fate (hi : Implements nl body step f)
    (h : Run step (State.start timeoutMs host₀) (tr₁ ++ st :: tr₂) s) (he : e ∈ calls st.out) :
    ∃ result, Fate f e s tr₂ result := by
  obtain ⟨hpre, hst, hrest⟩ := Run.split h
  have hsnoc : Run step (State.start timeoutMs host₀) (tr₁ ++ [st]) st.post :=
    Run.snoc_iff.mpr ⟨hpre, hst, rfl⟩
  have hcall : e ∈ calls (history (tr₁ ++ [st])) := by simp [he]
  refine Run.traceInvariant (fun tr s => ∃ result, Fate f e s tr result) ?_ ?_ hrest
  · exact ⟨none, .waiting (called_pending (hi.ledger hpre) (hi _ _ _ hst) he) (by simp)⟩
  · rintro tr t ev t' out hr ⟨result, ih⟩ hev
    have hL := hi.ledger (Run.append_iff.mpr ⟨_, hsnoc, hr⟩)
    have hnode := hi _ _ _ hev
    cases ih with
    | waiting hpend hmid =>
      rcases pending_step hL hnode hpend with ⟨hpend', hno, hnset⟩ | ⟨result, hinv, hset⟩
      · refine ⟨none, .waiting hpend' fun y hy => ?_⟩
        rcases List.mem_append.mp hy with hy | hy
        · exact hmid y hy
        · rw [List.mem_singleton.mp hy]
          exact ⟨hpend, hno, fun _ => hnset⟩
      · refine ⟨some result, .settled hmid hpend hset hinv (by simp) ?_⟩
        -- run once, so no longer pending
        intro hp
        refine (Ledger.step nl body hL hnode).invoked_notMem (e := e) ?_ hp rfl
        rw [invocations_append, List.map_append]
        exact List.mem_append_right _ (List.mem_map_of_mem hinv)
    | @settled mid rest x result hmid hx hset hinv hrest' hgone =>
      have hcall' : e ∈ calls (history (tr₁ ++ [st] ++ (mid ++ x :: rest))) := by
        rw [history_append, calls_append]
        exact List.mem_append_left _ hcall
      obtain ⟨hgone', hno⟩ := settled_step hL hnode hcall' hgone
      rw [List.append_assoc, List.cons_append]
      refine ⟨some result, .settled hmid hx hset hinv ?_ hgone'⟩
      intro y hy
      rcases List.mem_append.mp hy with hy | hy
      · exact hrest' y hy
      · rw [List.mem_singleton.mp hy]
        exact ⟨hgone, hno, fun hp => absurd hp hgone⟩

/-- An event that settles a call while it is pending is the one that decides its fate. -/
theorem Fate.decided {result : ApiResult} {fate : Option ApiResult}
    (h : Fate f e s tr fate) {y : Step (State κ θ) ε (Out κ ω)} (hy : y ∈ tr)
    (hp : e ∈ y.pre.client.pending.entries) (hset : SettledBy e result (f y.event))
    (hfun : ∀ result', SettledBy e result' (f y.event) → result' = result) : fate = some result := by
  cases h with
  | waiting _ hall => exact absurd hset ((hall y hy).2.2 hp result)
  | @settled mid rest x result' hmid hx hset' hinv hrest hgone =>
    rcases List.mem_append.mp hy with hy | hy
    · exact absurd hset ((hmid y hy).2.2 hp result)
    · rcases List.mem_cons.mp hy with rfl | hy
      · rw [hfun _ hset']
      · exact absurd hp (hrest y hy).1

end

/-! ## What a callback lets out -/

/-- What is let out while the callback of call `id` runs; `on`: it is the last that was started. -/
def under (id : Int) : Bool → List (Out κ ω) → List (Out κ ω)
  | _, [] => []
  | _, .invoked id' _ _ :: L => under id (decide (id' = id)) L
  | true, o :: L => o :: under id true L
  | false, _ :: L => under id false L

/-- What one event lets out for the call `id`. -/
def outputFor (id : Int) (out : List (Out κ ω)) : List (Out κ ω) := under id false out

theorem under_subset_self (id : Int) (on : Bool) (L : List (Out κ ω)) : under id on L ⊆ L := by
  induction L generalizing on with
  | nil => cases on <;> exact List.nil_subset _
  | cons o L ih =>
    cases o with
    | invoked id' entry result => cases on <;> exact List.subset_cons_of_subset _ (ih _)
    | published req entry | log sev text | host o =>
      cases on with
      | false => exact List.subset_cons_of_subset _ (ih _)
      | true => exact List.cons_subset_cons _ (ih _)

/-- What comes before any callback is run. -/
def preface (L : List (Out κ ω)) : List (Out κ ω) :=
  L.takeWhile fun o => match o with
    | .invoked _ _ _ => false
    | _ => true

theorem preface_append_of_none {A : List (Out κ ω)} (h : invocations A = []) (B : List (Out κ ω)) :
    preface (A ++ B) = A ++ preface B := by
  induction A with
  | nil => rfl
  | cons o A ih =>
    cases o with
    | invoked id entry result => cases h
    | published req entry | log sev text | host o => exact congrArg (List.cons _) (ih h)

theorem preface_subset_under (id : Int) (L : List (Out κ ω)) : preface L ⊆ under id true L := by
  induction L with
  | nil => exact List.nil_subset _
  | cons o L ih =>
    cases o with
    | invoked id' entry result => exact List.nil_subset _
    | published req entry | log sev text | host o => exact List.cons_subset_cons _ ih

theorem under_subset (id : Int) (L : List (Out κ ω)) : under id false L ⊆ under id true L := by
  induction L with
  | nil => exact List.nil_subset _
  | cons o L ih =>
    cases o with
    | invoked id' entry result => exact List.Subset.refl _
    | published req entry | log sev text | host o => exact List.Subset.trans ih (List.subset_cons_self _ _)

/-- Whatever is let out comes before the callbacks, or while one of them runs. -/
theorem mem_outputFor {L : List (Out κ ω)} {o : ω} (ho : Out.host o ∈ L) :
    Out.host o ∈ preface L ∨ ∃ i ∈ invocations L, Out.host o ∈ outputFor i.1.1 L := by
  unfold outputFor
  induction L with
  | nil => cases ho
  | cons x L ih =>
    cases x with
    | invoked id entry result =>
      have ho : Out.host o ∈ L := (List.mem_cons.mp ho).resolve_left (by simp)
      right
      rcases ih ho with hpre | ⟨i, hi, hu⟩
      · exact ⟨(⟨id, entry⟩, result), List.mem_cons_self, by
          simpa [under] using preface_subset_under id L hpre⟩
      · refine ⟨i, List.mem_cons_of_mem _ hi, ?_⟩
        by_cases hid : id = i.1.1
        · simpa [under, hid] using under_subset i.1.1 L hu
        · simpa [under, hid] using hu
    | published req entry | log sev text | host o' =>
      rcases List.mem_cons.mp ho with heq | ho
      · exact .inl (heq ▸ List.mem_cons_self)
      · exact (ih ho).imp (List.mem_cons_of_mem _) id

theorem under_append_of_none {id : Int} {L : List (Out κ ω)} (h : invocations L = []) (on : Bool)
    (R : List (Out κ ω)) : under id on (L ++ R) = (if on then L else []) ++ under id on R := by
  induction L with
  | nil => cases on <;> rfl
  | cons o L ih =>
    cases o with
    | invoked id' entry result => cases h
    | published req entry | log sev text | host o =>
      have ih := ih h
      cases on
      · exact ih
      · exact congrArg (List.cons _) ih

/-- Nothing is let out for a call whose callback is not run. -/
theorem outputFor_nil {id : Int} {L : List (Out κ ω)} (h : ∀ i ∈ invocations L, i.1.1 ≠ id) :
    outputFor id L = [] := by
  unfold outputFor
  induction L with
  | nil => rfl
  | cons o L ih =>
    cases o with
    | invoked id' entry result =>
      have hne : id' ≠ id := h _ List.mem_cons_self
      have ih := ih fun i hi => h i (List.mem_cons_of_mem _ hi)
      simpa [under, hne] using ih
    | published req entry | log sev text | host o => exact ih h

/-- At a reply it is what follows `invoked`. -/
theorem outputFor_reply {msg : Response} {entry entry' : PendingRequest κ} {id : Int}
    {result : ApiResult} {new : List (Out κ ω)} (h : invocations new = []) :
    outputFor id (mismatchLog msg entry ++ .invoked id entry' result :: new) = new := by
  have hnew : under id true (new ++ []) = _ := under_append_of_none h true []
  rw [List.append_nil] at hnew
  rw [outputFor, under_append_of_none (invocations_mismatchLog msg entry)]
  simpa [under] using hnew

/-- A callback that does nothing but let out `L` for `result`. -/
def Reports (nl : Nlohmann) (body : κ → ApiResult → Prog κ θ ω Unit) (cb : κ) (result : ApiResult)
    (L : List (Out κ ω)) : Prop :=
  ∀ n : Node κ θ ω, exec nl (body cb result) n = ({ n with out := n.out ++ L }, .ok ())

section
variable {nl : Nlohmann} {body : κ → ApiResult → Prog κ θ ω Unit}

theorem extends_append {L out A : List (Out κ ω)} (hA : invocations A = [])
    (h : ∃ new, out = L ++ new ∧ invocations new = []) :
    ∃ new, out ++ A = L ++ new ∧ invocations new = [] := by
  obtain ⟨new, rfl, hinv⟩ := h
  exact ⟨new ++ A, by rw [List.append_assoc], by rw [invocations_append, hinv, hA]; rfl⟩

/-- A program only adds to what was let out, and runs no callback. -/
theorem stable_extends (L : List (Out κ ω)) :
    Stable fun n : Node κ θ ω => ∃ new, n.out = L ++ new ∧ invocations new = [] where
  quiet _ _ ho h := extends_append (invocations_quiet ho) h
  host _ _ h := h
  sent _ _ _ _ h := extends_append rfl h
  called _ _ _ _ _ h := extends_append rfl h

/-- `L` is what the callback of `e` let out, run with `result` on some node. -/
def LetOut (nl : Nlohmann) (body : κ → ApiResult → Prog κ θ ω Unit) (e : PendingEntry κ)
    (result : ApiResult) (L : List (Out κ ω)) : Prop :=
  ∃ m m' : Node κ θ ω, exec nl (body e.2.callback result) m = (m', .ok ()) ∧ m'.out = m.out ++ L

/-- One callback's run: its `invoked`, then what it lets out. -/
theorem invoke_segment {e : PendingEntry κ} {result : ApiResult} {n n' : Node κ θ ω}
    (h : n.invoke nl body e.1 e.2 result = (n', .ok ())) :
    ∃ new, n'.out = n.out ++ .invoked e.1 e.2 result :: new ∧ invocations new = [] ∧
      LetOut nl body e result new := by
  obtain ⟨new, hout, hinv⟩ := (stable_extends (n.out ++ [.invoked e.1 e.2 result])).invoke nl body h
    ⟨[], (List.append_nil _).symm, rfl⟩
  exact ⟨new, by rw [hout, List.append_assoc]; rfl, hinv, _, _, h, hout⟩

theorem invokeAll_segments {due : List (PendingEntry κ)} {n n' : Node κ θ ω}
    (h : n.invokeAll nl body due = (n', .ok ())) :
    ∃ rest, n'.out = n.out ++ rest ∧ preface rest = [] ∧
      (∀ id on, under id on rest = under id false rest) ∧
      (∀ id, id ∉ due.map (·.1) → under id false rest = []) ∧
      ((due.map (·.1)).Nodup → ∀ e ∈ due, LetOut nl body e timeoutResult (under e.1 false rest)) := by
  induction due generalizing n with
  | nil =>
    cases h
    refine ⟨[], (List.append_nil _).symm, rfl, ?_, fun _ _ => rfl, fun _ e he => by cases he⟩
    intro id on
    cases on <;> rfl
  | cons e due ih =>
    rcases hi : n.invoke nl body e.1 e.2 timeoutResult with ⟨n₁, f | _⟩
    · rw [Node.invokeAll_cons_error nl body hi] at h
      cases h
    · rw [Node.invokeAll_cons_ok nl body hi] at h
      obtain ⟨new, hnew, hinv, hlet⟩ := invoke_segment hi
      obtain ⟨rest, hrest, -, hfresh, hnone, hall⟩ := ih h
      have hunder : ∀ id on, under id on (.invoked e.1 e.2 timeoutResult :: (new ++ rest)) =
          (if decide (e.1 = id) then new else []) ++ under id false rest := by
        intro id on
        have : under id on (.invoked e.1 e.2 timeoutResult :: (new ++ rest)) =
            under id (decide (e.1 = id)) (new ++ rest) := by cases on <;> rfl
        rw [this, under_append_of_none hinv, hfresh]
      refine ⟨.invoked e.1 e.2 timeoutResult :: (new ++ rest), ?_, rfl, ?_, ?_, ?_⟩
      · rw [hrest, hnew, List.append_assoc]
        rfl
      · intro id on
        rw [hunder, hunder]
      · intro id hid
        rw [List.map_cons, List.mem_cons, not_or] at hid
        rw [hunder, hnone id hid.2, if_neg (by simpa using Ne.symm hid.1)]
        rfl
      · intro hnd x hx
        rw [List.map_cons, List.nodup_cons] at hnd
        rw [hunder]
        rcases List.mem_cons.mp hx with rfl | hx
        · rw [hnone x.1 hnd.1, if_pos (decide_eq_true rfl), List.append_nil]
          exact hlet
        · have hne : e.1 ≠ x.1 := fun heq => hnd.1 (heq ▸ List.mem_map_of_mem hx)
          rw [if_neg (by simpa using hne)]
          exact hall hnd.2 x hx

/-- What an event lets out for a call it settles, the call's callback let out. -/
theorem outputFor_settled {s s' : State κ θ} {ev : NodeEvent κ θ ω × Clock} {out : List (Out κ ω)}
    {e : PendingEntry κ} {result : ApiResult} (h : nodeStep nl body s ev = some (s', out))
    (hinv : (e, result) ∈ invocations out) : LetOut nl body e result (outputFor e.1 out) := by
  rw [nodeStep_invocations h] at hinv
  obtain ⟨hpend, hset⟩ := State.mem_taken.mp hinv
  cases nodeStep_completed nl body h with
  | handler p clk n hp => exact hset.elim
  | ignored msg clk hl =>
    rw [hset.1, lookup_eq_some_iff.mpr hpend] at hl
    cases hl
  | settled msg clk entry n hl hp =>
    obtain ⟨hid, rfl⟩ := hset
    rw [hid, lookup_eq_some_iff.mpr hpend] at hl
    cases hl
    obtain ⟨new, hout, hnew⟩ := (stable_extends (s.replied clk msg e.2).out).exec nl hp
      ⟨[], (List.append_nil _).symm, rfl⟩
    have hunder : outputFor e.1 n.out = new := by
      rw [hout, State.replied, List.append_assoc, ← hid]
      exact outputFor_reply hnew
    rw [hunder]
    exact ⟨_, n, hp, hout⟩
  | nonePending order clk hempty =>
    rw [hempty] at hpend
    cases hpend
  | swept order clk n hp =>
    obtain ⟨hdl, rfl⟩ := hset
    obtain ⟨rest, hout, -, -, -, hall⟩ := invokeAll_segments hp
    have hmem : e ∈ s.client.expired order (clk 0).now := by
      rw [UnitreeApiClient.expired, mem_expiredIn, order.mem_arrange]
      exact ⟨hpend, hdl⟩
    have hkeys : ((s.client.expired order (clk 0).now).map (·.1)).Nodup := by
      have hnd : ((order.arrange s.client.pending.entries).map (·.1)).Nodup :=
        ((order.perm _).map _).nodup_iff.mpr s.client.pending.nodupKeys
      exact hnd.sublist (List.filter_sublist.map _)
    rw [outputFor, hout, under_append_of_none]
    · exact hall hkeys e hmem
    · rw [invocations_swept]
      rfl

theorem LetOut.reports {e : PendingEntry κ} {result : ApiResult} {L L' : List (Out κ ω)}
    (h : LetOut nl body e result L) (hr : Reports nl body e.2.callback result L') : L = L' := by
  obtain ⟨m, m', hexec, hout⟩ := h
  rw [hr, Prod.mk.injEq] at hexec
  rw [← hexec.1] at hout
  exact (List.append_cancel_left hout).symm

/-- What a reply or a sweep lets out, one of its callbacks lets out. -/
theorem nodeStep_host {s s' : State κ θ} {ev : NodeEvent κ θ ω × Clock} {out : List (Out κ ω)} {o : ω}
    (h : nodeStep nl body s ev = some (s', out)) (ho : Out.host o ∈ out) :
    (∃ p, ev.1 = .handler p) ∨ ∃ i ∈ invocations out, Out.host o ∈ outputFor i.1.1 out := by
  cases nodeStep_completed nl body h with
  | handler p clk n hp => exact .inl ⟨p, rfl⟩
  | ignored msg clk hl => cases List.mem_singleton.mp ho
  | settled msg clk entry n hl hp =>
    refine (mem_outputFor ho).imp_left fun hpre => ?_
    exfalso
    obtain ⟨new, hout, -⟩ := (stable_extends (s.replied clk msg entry).out).exec nl hp
      ⟨[], (List.append_nil _).symm, rfl⟩
    rw [hout, State.replied, List.append_assoc,
      preface_append_of_none (invocations_mismatchLog msg entry)] at hpre
    rcases List.mem_append.mp hpre with hm | hm
    · exact (warnings_mismatchLog msg entry).host_notMem o hm
    · cases hm
  | nonePending order clk hempty => cases ho
  | swept order clk n hp =>
    refine (mem_outputFor ho).imp_left fun hpre => ?_
    exfalso
    obtain ⟨rest, hout, hrest, -⟩ := invokeAll_segments hp
    rw [hout, Node.swept, List.nil_append, preface_append_of_none (invocations_timeoutLog _), hrest,
      List.append_nil] at hpre
    exact (warnings_timeoutLog _).host_notMem o hpre

/-! ## A call whose callback only reports -/

variable {ε : Type} {step : State κ θ → ε → Option (State κ θ × List (Out κ ω))}
  {f : ε → NodeEvent κ θ ω × Clock} {timeoutMs : Int} {host₀ : θ} {s : State κ θ}
  {tr tr₁ tr₂ : List (Step (State κ θ) ε (Out κ ω))} {st : Step (State κ θ) ε (Out κ ω)}
  {e : PendingEntry κ}

/-- Everything a run lets out for a call is the report of the result that settled it. -/
theorem Fate.output (hi : Implements nl body step f)
    (h : Run step (State.start timeoutMs host₀) (tr₁ ++ tr₂) s) {fate : Option ApiResult}
    (hfate : Fate f e s tr₂ fate) {report : ApiResult → List (Out κ ω)}
    (hrep : ∀ result, Reports nl body e.2.callback result (report result)) :
    tr₂.flatMap (fun y => outputFor e.1 y.out) = fate.toList.flatMap report := by
  have hnil : ∀ {l : List (Step (State κ θ) ε (Out κ ω))}, (∀ y ∈ l, Spares f e y) →
      l.flatMap (fun y => outputFor e.1 y.out) = [] := by
    intro l hl
    rw [List.flatMap_eq_nil_iff]
    exact fun y hy => outputFor_nil (hl y hy).1
  cases hfate with
  | waiting _ hall => exact hnil fun y hy => (hall y hy).2
  | @settled mid rest x result hmid hx hset hinv hrest hgone =>
    have hstep := (Run.split (by rwa [← List.append_assoc] at h)).2.1
    rw [List.flatMap_append, List.flatMap_cons, hnil fun y hy => (hmid y hy).2,
      hnil fun y hy => (hrest y hy).2, (outputFor_settled (hi _ _ _ hstep) hinv).reports (hrep result)]
    simp

end

end Go2
