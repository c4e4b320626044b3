import Go2Driver.SportSteps

/-!
# The sequencer's invariant

`onStepResult` and the timer's lambda capture only `this` and dereference
`active_sequence_` unchecked.  They are safe because `Phase` holds between
events: a sequence waits either for the reply to one pending step, or for its
armed timer, and without a sequence there is neither (`Phase.step`).  So in
every run the unchecked accesses find what they assume, and a reply or timer of
a sequence that has ended finds nothing (`sequencer_invariant`).
-/

namespace Go2

open Tables Runs SportBridge

/-! ## Runs of the bridge are runs of a node -/

section
variable {nl : Nlohmann} {cfg : SportConfig} {timeoutMs : Int} {s : SportState} {tr : SportTrace}

def SportRun (nl : Nlohmann) (cfg : SportConfig) (timeoutMs : Int) (tr : SportTrace) (s : SportState) :
    Prop :=
  Run (sportBridgeStep nl cfg) (SportState.start timeoutMs) tr s

theorem sportBridgeStep_node {s : SportState} {e : SportEvent × Clock}
    {r : SportState × List SportEmission} (h : sportBridgeStep nl cfg s e = some r) :
    nodeStep nl (Callback.body nl cfg) s (e.1.toNode nl cfg, e.2) = some r := by
  unfold sportBridgeStep at h
  split at h
  · exact h
  · cases h

theorem SportRun.toNode (h : SportRun nl cfg timeoutMs tr s) :
    Run (nodeStep nl (Callback.body nl cfg)) (State.start timeoutMs ⟨none, none⟩)
      (tr.map (Step.mapEvent fun e => (e.1.toNode nl cfg, e.2))) s :=
  Run.map _ (fun _ _ _ => sportBridgeStep_node) h

theorem SportRun.ledger (h : SportRun nl cfg timeoutMs tr s) : Ledger (history tr) [] s.client := by
  have := Ledger.run h.toNode
  rwa [history_mapEvent] at this

theorem SportRun.freshId_notMem (h : SportRun nl cfg timeoutMs tr s) (r : Reading) :
    s.client.freshId r ∉ s.client.pending :=
  h.ledger.freshId_notMem r

end

/-! ## Pending step callbacks, operation by operation -/

section
variable {c : UnitreeApiClient Callback}

theorem entries_afterCall {r : Reading} (hf : c.freshId r ∉ c.pending) (apiId : Int) (cb : Callback) :
    (c.afterCall r apiId cb).pending.entries =
      ⟨c.freshId r, c.newEntry r apiId cb⟩ :: c.pending.entries :=
  entries_emplace hf

theorem mem_entries_kept {order : IterationOrder (PendingEntry Callback)} {now : Int}
    {e : PendingEntry Callback} :
    e ∈ (c.kept order now).entries ↔ e ∈ c.pending.entries ∧ now < e.2.deadline := by
  rw [c.entries_kept, List.mem_filter, Bool.not_eq_true', decide_eq_false_iff_not, Int.not_le]

theorem mem_expired {order : IterationOrder (PendingEntry Callback)} {now : Int}
    {e : PendingEntry Callback} :
    e ∈ c.expired order now ↔ e ∈ c.pending.entries ∧ e.2.deadline ≤ now := by
  rw [UnitreeApiClient.expired, mem_expiredIn, order.mem_arrange]

end

/-- A phase only looks at the host and at the pending step callbacks. -/
theorem Phase.of_steps {s s' : SportState} (h : Phase s) (hhost : s'.host = s.host)
    (hsteps : ∀ e : PendingEntry Callback, e.2.callback = .step →
      (e ∈ s'.client.pending.entries ↔ e ∈ s.client.pending.entries)) : Phase s' := by
  have hno : noStepPending s.client → noStepPending s'.client :=
    fun hno e he hcb => hno e ((hsteps e hcb).mp he) hcb
  cases h with
  | idle ha harm hn => exact .idle (hhost ▸ ha) (hhost ▸ harm) (hno hn)
  | awaiting run st id entry ha hst hok harm hl hcb hapi honly =>
    refine .awaiting run st id entry (hhost ▸ ha) hst hok (hhost ▸ harm) ?_ hcb hapi ?_
    · exact lookup_eq_some_iff.mpr ((hsteps ⟨id, entry⟩ hcb).mpr (lookup_eq_some_iff.mp hl))
    · exact fun e he hs => honly e ((hsteps e hs).mp he) hs
  | delaying run ha h1 h2 hok harm hn =>
    exact .delaying run (hhost ▸ ha) h1 h2 hok (hhost ▸ harm) (hno hn)

/-- A host that is idle, with no step pending. -/
theorem Phase.ended {c : UnitreeApiClient Callback} (h : noStepPending c) : Phase ⟨c, .idle⟩ :=
  .idle rfl rfl h

/-- A reply that finds no entry leaves the bridge as it was. -/
theorem foreign_step {nl : Nlohmann} {cfg : SportConfig} {s : SportState} {msg : Response}
    (h : s.client.pending.lookup msg.id = none) (clk : Clock) :
    sportBridgeStep nl cfg s (.response msg, clk) =
      some (s, [.log .debug ("ignoring reply for id=" ++ toString msg.id)]) :=
  (nodeStep_eq_some nl _).mpr ⟨_, Node.responseCallback_none nl _ h, rfl, rfl⟩

/-! ## Every transition keeps the phase -/

section
variable {nl : Nlohmann} {cfg : SportConfig}

/-- One call of `advanceSequence`, with no step pending and the timer not armed. -/
theorem Advance.phase {s s' : SportState} {run : SequenceRun} {r : Reading}
    {out : List SportEmission} (h : Advance nl cfg s run r s' out)
    (ha : s.host.activeSequence = some run) (hok : run.ok = true) (harm : s.host.armed = false)
    (hno : noStepPending s.client) (hf : s.client.freshId r ∉ s.client.pending) : Phase s' := by
  cases h with
  | finished _ => exact .ended hno
  | notSent _ _ _ => exact .ended hno
  | @sent st text hst hw hfull hd =>
    refine .awaiting run st (s.client.freshId r) (s.client.newEntry r st.apiId .step) ha hst hok harm
      (lookup_emplace_self hf) rfl rfl ?_
    intro e he hcb
    rw [entries_afterCall hf] at he
    rcases List.mem_cons.mp he with rfl | he
    · rfl
    · exact absurd hcb (hno e he)
  | @atOnce st text hst hw hd hwait =>
    have hlt : run.index < run.steps.length := (List.getElem?_eq_some_iff.mp hst).1
    refine .delaying _ rfl ?_ ?_ ?_ rfl hno
    · simp [SequenceRun.advanced]
    · simp only [SequenceRun.advanced]
      omega
    · simp [SequenceRun.advanced, hok]

/-- A reply takes the only pending step callback out of the table. -/
theorem Phase.noStep_erase {s : SportState} (h : Phase s) {id : Int} {entry : PendingRequest Callback}
    (hl : s.client.pending.lookup id = some entry) (hcb : entry.callback = .step) :
    noStepPending { s.client with pending := s.client.pending.erase id } := by
  intro e he hstep
  obtain ⟨hm, hne⟩ := mem_entries_erase.mp he
  have := h.step_unique hm (lookup_eq_some_iff.mp hl) hstep hcb
  exact hne (by rw [this])

/-- A step among the expired entries is the only one, and the active sequence's. -/
theorem Phase.expired_step {s : SportState} (h : Phase s)
    {order : IterationOrder (PendingEntry Callback)} {now : Int} {x : PendingEntry Callback}
    (hx : x ∈ s.client.expired order now) (hcb : x.2.callback = .step) :
    ∃ l₁ l₂ run st, s.client.expired order now = l₁ ++ x :: l₂ ∧
      (∀ y ∈ l₁, y.2.callback ≠ .step) ∧ (∀ y ∈ l₂, y.2.callback ≠ .step) ∧
      s.host.activeSequence = some run ∧ run.steps[run.index]? = some st := by
  have hpend : ∀ y ∈ s.client.expired order now, y ∈ s.client.pending.entries :=
    fun y hy => (mem_expired.mp hy).1
  obtain ⟨run, st, hrun, hst, -⟩ := h.step_of_pending (hpend x hx) hcb
  obtain ⟨l₁, l₂, hl⟩ := List.append_of_mem hx
  have hnd := s.client.nodup_expired order now
  rw [hl] at hnd hpend
  have hne : ∀ y ∈ l₁ ++ l₂, y.2.callback ≠ .step := by
    intro y hy hcb'
    have hmem : y ∈ l₁ ++ x :: l₂ := List.perm_middle.symm.subset (List.mem_cons_of_mem x hy)
    have heq := h.step_unique (hpend y hmem) (hpend x (by simp)) hcb' hcb
    exact (List.nodup_middle.mp hnd).notMem (heq ▸ hy)
  exact ⟨l₁, l₂, run, st, hl, fun y hy => hne y (List.mem_append_left _ hy),
    fun y hy => hne y (List.mem_append_right _ hy), hrun, hst⟩

theorem Phase.step {s s' : SportState} {e : SportEvent × Clock} {out : List SportEmission}
    (hp : Phase s) (ht : Transition nl cfg s e s' out)
    (hf : ∀ r, s.client.freshId r ∉ s.client.pending) : Phase s' := by
  cases ht with
  | refused _ => exact hp
  | notSent _ _ _ => exact hp
  | foreign _ => exact hp
  | @accepted e clk run s' out hacc hadv =>
    obtain ⟨-, hnone, -, -, -, -, -, hok⟩ := SportEvent.accepted?_spec hacc
    have hidle : s.host.armed = false ∧ noStepPending s.client := by
      cases hp with
      | idle _ harm hno => exact ⟨harm, hno⟩
      | awaiting run _ _ _ ha => rw [hnone] at ha; cases ha
      | delaying run ha => rw [hnone] at ha; cases ha
    exact hadv.phase rfl hok hidle.1 hidle.2 (hf _)
  | @sent e clk q text hq hw hfull hd =>
    refine hp.of_steps rfl fun e he => ?_
    have hent := entries_afterCall (hf (clk 0)) q.apiId q.callback
    rw [hent, List.mem_cons]
    refine or_iff_right ?_
    rintro rfl
    exact (SportEvent.serviceCall?_callback hq).1 he
  | atOnce _ _ _ => exact hp.of_steps rfl fun _ _ => Iff.rfl
  | cmdVel _ => exact hp.of_steps rfl fun _ _ => Iff.rfl
  | @replied msg clk entry hl hcb =>
    refine hp.of_steps rfl fun e he => ?_
    rw [mem_entries_erase]
    refine and_iff_left_of_imp fun hm hk => hcb ?_
    have hent : e = ⟨msg.id, entry⟩ := entry_eq hm (lookup_eq_some_iff.mp hl) hk
    rw [hent] at he
    exact he
  | @stepAccepted msg clk entry run st hl hcb hrun hst hr hwait =>
    obtain ⟨run', st', hrun', hst', -, hok, -⟩ := hp.step_of_pending (lookup_eq_some_iff.mp hl) hcb
    rw [hrun, Option.some.injEq] at hrun'
    subst hrun'
    have hlt : run.index < run.steps.length := (List.getElem?_eq_some_iff.mp hst).1
    refine .delaying _ rfl ?_ ?_ ?_ rfl (hp.noStep_erase hl hcb)
    · simp [SequenceRun.advanced]
    · simp only [SequenceRun.advanced]
      omega
    · simp [SequenceRun.advanced, hok, hr]
  | stepFailed hl hcb _ _ _ => exact .ended (hp.noStep_erase hl hcb)
  | @swept order clk =>
    by_cases hex : ∃ e ∈ s.client.expired order (clk 0).now, e.2.callback = .step
    · obtain ⟨e, he, hcb⟩ := hex
      rw [SportHost.swept_of_mem he hcb]
      obtain ⟨hm, hdl⟩ := mem_expired.mp he
      refine .ended fun e' he' hcb' => ?_
      obtain ⟨hm', hdl'⟩ := mem_entries_kept.mp he'
      have := hp.step_unique hm hm' hcb hcb'
      subst this
      omega
    · rw [SportHost.swept_of_none (fun e he hcb => hex ⟨e, he, hcb⟩)]
      refine hp.of_steps rfl fun e hcb => ?_
      rw [mem_entries_kept]
      refine and_iff_left_of_imp fun hm => ?_
      by_contra hdl
      exact hex ⟨e, mem_expired.mpr ⟨hm, by omega⟩, hcb⟩
  | @fired clk run s' out harm hrun hadv =>
    obtain ⟨run', hrun', -, -, hok, hno⟩ := hp.active_of_armed harm
    rw [hrun, Option.some.injEq] at hrun'
    subst hrun'
    refine hadv.phase hrun hok ?_ hno (hf _)
    unfold SportHost.cancelTimer SportHost.armed
    cases s.host.sequenceTimer <;> rfl

variable {timeoutMs : Int} {s : SportState} {tr : SportTrace}

theorem SportRun.phase (h : SportRun nl cfg timeoutMs tr s) : Phase s := by
  refine Run.traceInvariant (fun _ s => Phase s) (.idle rfl rfl (fun e he => by cases he)) ?_ h
  intro tr s e s' out hr hp he
  exact hp.step (sportBridgeStep_transition nl cfg hp he) (SportRun.freshId_notMem hr)

theorem SportRun.transition {tr₁ tr₂ : SportTrace} {st : Step SportState (SportEvent × Clock) SportEmission}
    (h : SportRun nl cfg timeoutMs (tr₁ ++ st :: tr₂) s) :
    SportRun nl cfg timeoutMs tr₁ st.pre ∧ Transition nl cfg st.pre st.event st.post st.out := by
  obtain ⟨hpre, hst, -⟩ := Run.split h
  exact ⟨hpre, sportBridgeStep_transition nl cfg (SportRun.phase hpre) hst⟩

/-! ## What is left of a sequence that ended -/

/-- A timer that is armed after an event was armed before, or created by it. -/
theorem Transition.armed {s s' : SportState} {e : SportEvent × Clock} {out : List SportEmission}
    (ht : Transition nl cfg s e s' out) (h : s'.host.armed = true) :
    s.host.armed = true ∨ ∃ w, Out.host (.timerCreated w) ∈ out := by
  have hadv : ∀ {s₁ : SportState} {run : SequenceRun} {r : Reading},
      Advance nl cfg s₁ run r s' out → s₁.host.armed = true ∨ ∃ w, Out.host (.timerCreated w) ∈ out := by
    intro s₁ run r ha
    cases ha with
    | finished _ => cases h
    | notSent _ _ _ => cases h
    | sent _ _ _ _ => exact .inl h
    | @atOnce st _ _ _ _ _ => exact .inr ⟨st.waitMsAfter, by simp⟩
  cases ht with
  | refused _ => exact .inl h
  | notSent _ _ _ => exact .inl h
  | sent _ _ _ _ => exact .inl h
  | atOnce _ _ _ => exact .inl h
  | cmdVel _ => exact .inl h
  | foreign _ => exact .inl h
  | replied _ _ => exact .inl h
  | @accepted _ _ run _ _ _ ha =>
    have harm : SportHost.armed { s.host with activeSequence := some run } = s.host.armed := rfl
    exact (hadv ha).imp_left fun h => harm ▸ h
  | fired harm _ _ => exact .inl harm
  | @stepAccepted _ _ _ _ st _ _ _ _ _ _ => exact .inr ⟨st.waitMsAfter, by simp⟩
  | stepFailed _ _ _ _ _ => cases h
  | swept =>
    left
    simp only [SportHost.swept] at h
    split at h
    · cases h
    · exact h

/-- A call that is no longer pending never is again. -/
theorem SportRun.gone {tr₁ tr₂ : SportTrace} {t : SportState}
    (h₁ : SportRun nl cfg timeoutMs tr₁ t) (h : SportRun nl cfg timeoutMs (tr₁ ++ tr₂) s)
    {e : PendingEntry Callback} (he : e ∈ calls (history tr₁))
    (hgone : e ∉ t.client.pending.entries) : s.client.pending.lookup e.1 = none := by
  have hinv : e ∈ (invocations (history tr₁)).map (·.1) := by
    rcases List.mem_append.mp (h₁.ledger.balance.mem_iff.mp he) with hi | hp
    · exact hi
    · exact absurd hp hgone
  obtain ⟨i, hi, rfl⟩ := List.mem_map.mp hinv
  have hcalled : i.1 ∈ calls (history (tr₁ ++ tr₂)) := by
    rw [history_append, calls_append]
    exact List.mem_append_left _ he
  rcases h.ledger.settled_once hcalled with ⟨-, hnone⟩ | ⟨hnone, -⟩
  · rw [history_append, invocations_append, List.filter_eq_nil_iff] at hnone
    exact absurd (hnone i (List.mem_append_left _ hi)) (by simp)
  · exact hnone

end

/-! ## Every run -/

/-- Exactly one pending entry holds a step callback, for the step the run is at, and no timer is armed. -/
def AwaitsReply (s : SportState) (run : SequenceRun) : Prop :=
  (∃ id entry st, s.client.pending.lookup id = some entry ∧ entry.callback = .step ∧
    (∀ id' entry', s.client.pending.lookup id' = some entry' → entry'.callback = .step → id' = id) ∧
    run.steps[run.index]? = some st ∧ entry.apiId = st.apiId) ∧ s.host.armed = false

/-- No pending entry holds a step callback and the timer is armed. -/
def AwaitsTimer (s : SportState) (run : SequenceRun) : Prop :=
  (∀ id entry, s.client.pending.lookup id = some entry → entry.callback ≠ .step) ∧
    s.host.armed = true ∧ 1 ≤ run.index ∧ run.index ≤ run.steps.length ∧ run.ok = true

theorem noStepPending.lookup {c : UnitreeApiClient Callback} (h : noStepPending c) (id : Int)
    (entry : PendingRequest Callback) (hl : c.pending.lookup id = some entry) :
    entry.callback ≠ .step :=
  h ⟨id, entry⟩ (lookup_eq_some_iff.mp hl)

variable {nl : Nlohmann} {cfg : SportConfig} {timeoutMs : Int} {s : SportState} {tr : SportTrace}

/-- **The sequencer's invariant**, in every state of every run:

* with an active sequence, either its step's reply is awaited or its timer is
  armed, never both; without one, neither a step callback nor the timer is left;
* no event uses an empty `active_sequence_`, a null timer or a step past the end;
* once no sequence was active, the replies to the steps sent before find no
  entry and change nothing, and a timer that is armed was created since. -/
theorem sequencer_invariant (h : SportRun nl cfg timeoutMs tr s) :
    (∀ run, s.host.activeSequence = some run → Xor (AwaitsReply s run) (AwaitsTimer s run)) ∧
    (s.host.activeSequence = none →
      (∀ id entry, s.client.pending.lookup id = some entry → entry.callback ≠ .step) ∧
        s.host.armed = false) ∧
    (∀ e n f, e.1.enabled s.host = true → SportState.perform nl cfg s e = (n, .error f) →
      f.undefined = false) ∧
    (∀ tr₁ st tr₂, tr = tr₁ ++ st :: tr₂ → st.post.host.activeSequence = none →
      (∀ e ∈ calls (history (tr₁ ++ [st])), e.2.callback = .step → ∀ msg clk, msg.id = e.1 →
        ∃ text, sportBridgeStep nl cfg s (.response msg, clk) = some (s, [.log .debug text])) ∧
      (s.host.armed = true → ∃ w, Out.host (.timerCreated w) ∈ history tr₂)) := by
  have hp := h.phase
  refine ⟨?_, ?_, ?_, ?_⟩
  · intro run hrun
    cases hp with
    | idle ha => rw [hrun] at ha; cases ha
    | awaiting run' st id entry ha hst hok harm hl hcb hapi honly =>
      rw [hrun, Option.some.injEq] at ha
      subst ha
      refine .inl ⟨⟨⟨id, entry, st, hl, hcb, ?_, hst, hapi⟩, harm⟩, fun htimer => htimer.1 id entry hl hcb⟩
      exact fun id' entry' hl' hcb' => honly ⟨id', entry'⟩ (lookup_eq_some_iff.mp hl') hcb'
    | delaying run' ha h1 h2 hok harm hno =>
      rw [hrun, Option.some.injEq] at ha
      subst ha
      refine .inr ⟨⟨hno.lookup, harm, h1, h2, hok⟩, ?_⟩
      rintro ⟨⟨id, entry, -, hl, hcb, -⟩, -⟩
      exact hno.lookup id entry hl hcb
  · intro hnone
    cases hp with
    | idle _ harm hno => exact ⟨hno.lookup, harm⟩
    | awaiting run _ _ _ ha => rw [hnone] at ha; cases ha
    | delaying run ha => rw [hnone] at ha; cases ha
  · intro e n f he hn
    have := perform_completes nl cfg hp he
    rw [hn] at this
    exact this
  · intro tr₁ st tr₂ htr hnone
    have htr' : tr = (tr₁ ++ [st]) ++ tr₂ := by rw [htr, List.append_assoc, List.singleton_append]
    have hcut := h
    unfold SportRun at hcut
    rw [htr', Run.append_iff] at hcut
    obtain ⟨t, h₁, h₂⟩ := hcut
    obtain ⟨-, -, rfl⟩ := Run.snoc_iff.mp h₁
    have hidle : st.post.host.armed = false ∧ noStepPending st.post.client := by
      cases SportRun.phase h₁ with
      | idle _ harm hno => exact ⟨harm, hno⟩
      | awaiting run _ _ _ ha => rw [hnone] at ha; cases ha
      | delaying run ha => rw [hnone] at ha; cases ha
    constructor
    · intro e he hcb msg clk hid
      have hl := SportRun.gone h₁ (htr' ▸ h) he (fun hm => hidle.2 e hm hcb)
      exact ⟨_, foreign_step (by rw [hid]; exact hl) clk⟩
    · -- along the rest of the run: armed only if created there
      refine Run.traceInvariant
        (fun tr s => s.host.armed = true → ∃ w, Out.host (.timerCreated w) ∈ history tr)
        (fun ha => by rw [hidle.1] at ha; cases ha) ?_ h₂
      intro tr s e s' out hr ih he ha
      have hpre := Run.append_iff.mpr ⟨_, h₁, hr⟩
      rcases (sportBridgeStep_transition nl cfg (SportRun.phase hpre) he).armed ha with hb | ⟨w, hw⟩
      · obtain ⟨w, hw⟩ := ih hb
        exact ⟨w, by rw [history_append]; exact List.mem_append_left _ hw⟩
      · exact ⟨w, by rw [history_append]; exact List.mem_append_right _ (by simpa using hw)⟩

/-- A clock that stands still. -/
def Clock.at (steady now : Int) : Clock := fun _ => ⟨steady, now⟩

/-- The two-step preset up to its timer: the request, the first step's reply and a late copy of it. -/
def standDownDamp : SportTrace × SportState :=
  execute (sportBridgeStep .small (.ofParameters initPresets true defaultBlockedModes)) (.start 2000)
    [(.mode ⟨[], 1⟩ "stand_down_damp", .at 5 0), (.response ⟨5, 1005, 0, ""⟩, .at 0 0),
      (.response ⟨5, 1005, 0, ""⟩, .at 0 0)]

theorem sequencer_invariant_standDownDamp :
    standDownDamp.1.length = 3 ∧ ∃ run, standDownDamp.2.host.activeSequence = some run ∧
      Xor (AwaitsReply standDownDamp.2 run) (AwaitsTimer standDownDamp.2 run) :=
  ⟨rfl, _, rfl, (sequencer_invariant (Run.execute _ _ _)).1 _ rfl⟩

end Go2
