import Go2Driver.CallAtomic
import Go2Driver.Refusals
import Go2Driver.Sweeps

/-!
# The bridge never dies, and always comes to rest

What ends the process of the sport bridge is an exception: a parameter that cannot be
written, or a timer with a negative period.  The parameters of its own services can all be
written, so it is the preset table that decides (`SportConfig.Sound`): every event of
every run completes exactly if the presets that can be started are sound
(`never_dies_iff`).

* `Turn`: the events that call `advanceSequence`.
* `reaches_turn`: every step of a preset gets its turn in some run.
* `comes_to_rest`: sweeps and timers alone lead from every reachable state to one in which
  nothing is pending, no sequence is active and every request is answered.
-/

namespace Go2

open Tables Runs SportBridge

/-- The step's parameter can be written, and its wait is a time. -/
def SportCommandStep.Sound (st : SportCommandStep) : Prop :=
  st.parameter.utf8 = true ∧ 0 ≤ st.waitMsAfter

instance (st : SportCommandStep) : Decidable st.Sound :=
  inferInstanceAs (Decidable (st.parameter.utf8 = true ∧ 0 ≤ st.waitMsAfter))

/-- The presets that a mode request can start consist of sound steps. -/
def SportConfig.Sound (cfg : SportConfig) : Prop :=
  ∀ name steps, cfg.presets.lookup name = some steps → name ∉ cfg.blockedModes → ∀ st ∈ steps, st.Sound

/-- The presets of the node are sound, whatever is blocked. -/
theorem initPresets_sound (blocked : List String) (wait : Bool) :
    (SportConfig.ofParameters initPresets wait blocked).Sound := by
  intro name steps hl _ st hst
  have hall : ∀ p ∈ initPresets, ∀ st ∈ p.2, st.Sound := by decide
  obtain ⟨l₁, l₂, hsplit, -⟩ := List.lookup_eq_some_iff.mp hl
  have hmem : (name, steps) ∈ (SportConfig.ofParameters initPresets wait blocked).presets := by
    rw [hsplit]
    exact List.mem_append_right _ List.mem_cons_self
  exact hall _ hmem st hst

theorem Nlohmann.Strict.writes {nl : Nlohmann} (hs : nl.Strict) {js : Json} (h : js.utf8 = true) :
    ∃ text, nl.dump js = some text :=
  Option.isSome_iff_exists.mp ((hs js).mpr h)

theorem utf8_xyzJson (x y z : Double) : (xyzJson x y z).utf8 = true := by
  show (validUtf8 "x" && true && (validUtf8 "y" && true && (validUtf8 "z" && true && true))) = true
  decide

/-- The parameters of the bridge's own services can be written. -/
theorem SportEvent.serviceCall?_written {nl : Nlohmann} {cfg : SportConfig} {e : SportEvent}
    {q : SportCall} (h : e.serviceCall? nl cfg = some q) : q.parameter.utf8 = true := by
  have hdata : ∀ js : Json, js.utf8 = true → (dataJson js).utf8 = true := by
    intro js hjs
    show (validUtf8 "data" && js.utf8 && true) = true
    rw [hjs]
    decide
  cases e <;> simp only [SportEvent.serviceCall?] at h <;> repeat' split at h
  all_goals first
    | cases h; done
    | (simp only [Option.some.injEq] at h; subst h; first | exact hdata _ rfl | exact utf8_xyzJson _ _ _ | rfl)

/-! ## Turns of the sequencer -/

/-- The event makes the sequencer take the current step of `run`. -/
inductive Turn (cfg : SportConfig) (s : SportState) (run : SequenceRun) : SportEvent → Prop
  | accepts {e : SportEvent} : e.accepted? cfg s.host = some run → Turn cfg s run e
  | fires : s.host.armed = true → s.host.activeSequence = some run → Turn cfg s run .timer

section
variable {nl : Nlohmann} {cfg : SportConfig} {s s' : SportState} {run : SequenceRun} {e : SportEvent}
  {clk : Clock} {out : List SportEmission}

theorem SportEvent.accepted?_not_refused {h : SportHost} (ha : e.accepted? cfg h = some run) :
    e.refusal? cfg h = none := by
  obtain ⟨hev, hnone, hl, hb, hsteps, -⟩ := SportEvent.accepted?_spec ha
  rw [hev]
  simp only [SportEvent.refusal?, hl, if_neg hb, hnone, if_neg hsteps]

theorem Turn.enabled (h : Turn cfg s run e) : e.enabled s.host = true := by
  cases h with
  | accepts hacc => rw [(SportEvent.accepted?_spec hacc).1]; rfl
  | fires harm _ => exact harm

variable (nl) in
/-- The event is one call of `advanceSequence`. -/
theorem Turn.transition_iff (h : Turn cfg s run e) :
    ∃ s₁ : SportState, s₁.client = s.client ∧ s₁.host.activeSequence = some run ∧
      ∀ clk s' out, Transition nl cfg s (e, clk) s' out ↔ Advance nl cfg s₁ run (clk 0) s' out := by
  cases h with
  | accepts hacc =>
    refine ⟨⟨s.client, { s.host with activeSequence := some run }⟩, rfl, rfl, fun clk s' out => ?_⟩
    refine ⟨fun ht => ?_, .accepted hacc⟩
    obtain ⟨rfl, -⟩ := SportEvent.accepted?_spec hacc
    cases ht with
    | accepted hacc' hadv =>
      rw [hacc, Option.some.injEq] at hacc'
      exact hacc' ▸ hadv
    | refused hr => rw [SportEvent.accepted?_not_refused hacc] at hr; cases hr
    | notSent hq _ _ => cases hq
    | sent hq _ _ _ => cases hq
    | atOnce hq _ _ => cases hq
  | fires harm hact =>
    refine ⟨⟨s.client, s.host.cancelTimer⟩, rfl, hact, fun clk s' out => ?_⟩
    refine ⟨fun ht => ?_, .fired harm hact⟩
    cases ht with
    | fired _ hact' hadv =>
      rw [hact, Option.some.injEq] at hact'
      exact hact' ▸ hadv
    | refused hr => cases hr
    | accepted hacc _ => cases hacc
    | notSent hq _ _ => cases hq
    | sent hq _ _ _ => cases hq
    | atOnce hq _ _ => cases hq

variable (cfg s) in
/-- A sound step is taken, one way or another. -/
theorem Advance.total (hs : nl.Strict) (hsound : ∀ st, run.steps[run.index]? = some st → st.Sound)
    (r : Reading) : ∃ s' out, Advance nl cfg s run r s' out := by
  by_cases hi : run.steps.length ≤ run.index
  · exact ⟨_, _, .finished hi⟩
  · have hst : run.steps[run.index]? = some run.steps[run.index] := List.getElem?_eq_getElem (by omega)
    obtain ⟨hutf8, hwait⟩ := hsound _ hst
    obtain ⟨text, hd⟩ := hs.writes hutf8
    cases hw : cfg.waitForResponse with
    | false => exact ⟨_, _, .atOnce hst hw hd hwait⟩
    | true =>
      by_cases hf : s.client.full
      · exact ⟨_, _, .notSent hst hw hf⟩
      · exact ⟨_, _, .sent hst hw hf hd⟩

/-! ## Every step gets its turn -/

variable {timeoutMs : Int}

/-- An empty table is not full. -/
theorem UnitreeApiClient.not_full {κ : Type} {c : UnitreeApiClient κ} (h : c.pending.entries = []) :
    ¬ c.full := by
  unfold UnitreeApiClient.full
  rw [h]
  exact Nat.not_succ_le_zero _

/-- After a step that the robot accepts comes the turn of the next. -/
theorem Turn.next {tr : SportTrace} {st : SportCommandStep} (hs : nl.Strict)
    (h : SportRun nl cfg timeoutMs tr s) (hempty : s.client.pending.entries = []) (ht : Turn cfg s run e)
    (hst : run.steps[run.index]? = some st) (hsound : st.Sound) :
    ∃ tr' s' result, SportRun nl cfg timeoutMs (tr ++ tr') s' ∧ s'.client.pending.entries = [] ∧
      Turn cfg s' (run.advanced cfg st result) .timer := by
  obtain ⟨s₁, hclient, hact, hiff⟩ := ht.transition_iff nl
  obtain ⟨text, hd⟩ := hs.writes hsound.1
  have hp := h.phase
  have hfresh := h.freshId_notMem (Clock.at 0 0 0)
  rw [← hclient] at hfresh hempty
  cases hw : cfg.waitForResponse with
  | false =>
    have htr := (hiff (.at 0 0) _ _).mpr (.atOnce hst hw hd hsound.2)
    refine ⟨_, ⟨s₁.client.afterSend (Clock.at 0 0 0), .waiting (run.advanced cfg st ⟨true, 0, ""⟩) st.waitMsAfter⟩,
      ⟨true, 0, ""⟩, h.snoc (htr.step hp), hempty, .fires rfl rfl⟩
  | true =>
    have htr := (hiff (.at 0 0) _ _).mpr (.sent hst hw (UnitreeApiClient.not_full hempty) hd)
    have hsent := Run.snoc h (htr.step hp)
    have hl := lookup_emplace_self (v := s₁.client.newEntry (Clock.at 0 0 0) st.apiId .step) hfresh
    -- the robot accepts it
    have hreply : Transition nl cfg ⟨s₁.client.afterCall (Clock.at 0 0 0) st.apiId .step, s₁.host⟩
        (.response ⟨s₁.client.freshId (Clock.at 0 0 0), st.apiId, 0, ""⟩, .at 0 0) _ _ :=
      .stepAccepted hl rfl hact hst rfl hsound.2
    have hlast := Run.snoc hsent (hreply.step (SportRun.phase hsent))
    rw [List.append_assoc] at hlast
    refine ⟨_, _, _, hlast, ?_, .fires rfl rfl⟩
    show (AList.erase _ (s₁.client.afterCall (Clock.at 0 0 0) st.apiId .step).pending).entries = []
    rw [entries_erase, entries_afterCall hfresh, hempty]
    simp

variable (timeoutMs) in
/-- Every step of a preset that can be started gets its turn, if the steps before are sound. -/
theorem reaches_turn {name : String} {steps : List SportCommandStep} (hs : nl.Strict)
    (hl : cfg.presets.lookup name = some steps) (hb : name ∉ cfg.blockedModes) (i : Nat)
    (hi : i < steps.length) (hsound : ∀ j < i, ∀ st, steps[j]? = some st → st.Sound) :
    ∃ tr s run e, SportRun nl cfg timeoutMs tr s ∧ s.client.pending.entries = [] ∧ Turn cfg s run e ∧
      run.steps = steps ∧ run.index = i := by
  induction i with
  | zero =>
    have hsteps : steps ≠ [] := List.length_pos_iff.mp hi
    refine ⟨[], .start timeoutMs, ⟨name, steps, 0, ⟨[], 0⟩, "", true⟩, .mode ⟨[], 0⟩ name, .nil, rfl,
      .accepts ?_, rfl, rfl⟩
    simp only [SportEvent.accepted?, hl, if_neg hb]
    exact if_neg hsteps
  | succ i ih =>
    obtain ⟨tr, s, run, e, h, hempty, hturn, rfl, rfl⟩ := ih (by omega) fun j hj => hsound j (by omega)
    have hst : run.steps[run.index]? = some run.steps[run.index] := List.getElem?_eq_getElem (by omega)
    obtain ⟨tr', s', result, h', hempty', hturn'⟩ :=
      hturn.next hs h hempty hst (hsound run.index (by omega) _ hst)
    exact ⟨_, s', _, _, h', hempty', hturn', rfl, rfl⟩

/-! ## Every event completes -/

/-- Where the presets are sound, there is a transition for every event the executor can run. -/
theorem Transition.total (hs : nl.Strict) (hsound : cfg.Sound) (hp : Phase s)
    (hallowed : ∀ run, s.host.activeSequence = some run → Allowed cfg run)
    (hen : e.enabled s.host = true) (clk : Clock) : ∃ s' out, Transition nl cfg s (e, clk) s' out := by
  have hstep : ∀ run, Allowed cfg run → ∀ st, run.steps[run.index]? = some st → st.Sound :=
    fun run hrun st hst => hsound _ _ hrun.1 hrun.2 st (List.mem_of_getElem? hst)
  have hturn : ∀ run, Allowed cfg run → Turn cfg s run e → ∃ s' out, Transition nl cfg s (e, clk) s' out := by
    intro run hrun ht
    obtain ⟨s₁, -, -, hiff⟩ := ht.transition_iff nl
    obtain ⟨s', out, hadv⟩ := Advance.total cfg s₁ hs (hstep run hrun) (clk 0)
    exact ⟨s', out, (hiff clk s' out).mpr hadv⟩
  have hcall : ∀ q, e.serviceCall? nl cfg = some q → ∃ s' out, Transition nl cfg s (e, clk) s' out := by
    intro q hq
    obtain ⟨text, hd⟩ := hs.writes (SportEvent.serviceCall?_written hq)
    cases hw : cfg.waitForResponse with
    | false => exact ⟨_, _, .atOnce hq hw hd⟩
    | true =>
      by_cases hf : s.client.full
      · exact ⟨_, _, .notSent hq hw hf⟩
      · exact ⟨_, _, .sent hq hw hf hd⟩
  cases hr : e.refusal? cfg s.host with
  | some x => exact ⟨_, _, .refused hr⟩
  | none =>
    cases e with
    | mode r name =>
      obtain ⟨run, hacc⟩ := SportEvent.accepted?_of_not_refused hr
      obtain ⟨-, -, hl, hb, -⟩ := SportEvent.accepted?_spec hacc
      exact hturn run ⟨hl, hb⟩ (.accepts hacc)
    | timer =>
      obtain ⟨run, hact, -⟩ := hp.active_of_armed hen
      exact hturn run (hallowed run hact) (.fires hen hact)
    | cmdVel msg =>
      obtain ⟨text, hd⟩ := hs.writes (utf8_xyzJson msg.linearX msg.linearY msg.angularZ)
      exact ⟨_, _, .cmdVel hd⟩
    | sweep order => exact ⟨_, _, .swept⟩
    | response msg =>
      cases hl : s.client.pending.lookup msg.id with
      | none => exact ⟨_, _, .foreign hl⟩
      | some entry =>
        by_cases hcb : entry.callback = .step
        · obtain ⟨run, st, hrun, hst, -⟩ := hp.step_of_pending (lookup_eq_some_iff.mp hl) hcb
          cases hok : msg.result.ok with
          | false => exact ⟨_, _, .stepFailed hl hcb hrun hst hok⟩
          | true =>
            exact ⟨_, _, .stepAccepted hl hcb hrun hst hok (hstep run (hallowed run hrun) st hst).2⟩
        · exact ⟨_, _, .replied hl hcb⟩
    | switchJoystick r flag | euler r roll pitch yaw | pose r flag => exact hcall _ rfl
    | speedLevel r level =>
      simp only [SportEvent.refusal?] at hr
      split at hr
      · cases hr
      · next hlevel => exact hcall _ (if_neg hlevel)
    | getAutoRecovery r =>
      simp only [SportEvent.refusal?] at hr
      split at hr
      · cases hr
      · next hwait => exact hcall _ (if_neg hwait)

/-- In every state of every run of the bridge, every event that the executor can run completes. -/
def NeverDies (nl : Nlohmann) (cfg : SportConfig) (timeoutMs : Int) : Prop :=
  ∀ tr s, SportRun nl cfg timeoutMs tr s → ∀ e : SportEvent × Clock, e.1.enabled s.host = true →
    ∃ s' out, sportBridgeStep nl cfg s e = some (s', out)

theorem never_dies (hs : nl.Strict) (hsound : cfg.Sound) : NeverDies nl cfg timeoutMs := by
  intro tr s h e hen
  obtain ⟨s', out, ht⟩ := Transition.total hs hsound h.phase h.allowed hen e.2
  exact ⟨s', out, ht.step h.phase⟩

/-- A step that gets its turn, and completes, is sound. -/
theorem Turn.sound (hs : nl.Strict) (hd : NeverDies nl cfg timeoutMs) {tr : SportTrace}
    (h : SportRun nl cfg timeoutMs tr s) (hempty : s.client.pending.entries = [])
    (ht : Turn cfg s run e) {st : SportCommandStep} (hst : run.steps[run.index]? = some st) : st.Sound := by
  obtain ⟨s₁, hclient, hact, hiff⟩ := ht.transition_iff nl
  obtain ⟨s', out, hstep⟩ := hd tr s h (e, .at 0 0) ht.enabled
  have hadv := (hiff _ _ _).mp (sportBridgeStep_transition nl cfg h.phase hstep)
  have hfresh := h.freshId_notMem (Clock.at 0 0 0)
  rw [← hclient] at hfresh hempty
  have hutf8 : ∀ {text}, nl.dump st.parameter = some text → st.parameter.utf8 = true :=
    fun h => (hs _).mp (Option.isSome_iff_exists.mpr ⟨_, h⟩)
  cases hadv with
  | finished hi =>
    have := (List.getElem?_eq_some_iff.mp hst).1
    omega
  | notSent _ _ hf => exact absurd hf (UnitreeApiClient.not_full hempty)
  | atOnce hst' _ hd' hwait =>
    rw [hst, Option.some.injEq] at hst'
    subst hst'
    exact ⟨hutf8 hd', hwait⟩
  | sent hst' _ _ hd' =>
    rw [hst, Option.some.injEq] at hst'
    subst hst'
    refine ⟨hutf8 hd', ?_⟩
    -- the reply that accepts it has to complete as well
    obtain ⟨s'', out', hreply⟩ := hd _ _ (Run.snoc h hstep)
      (.response ⟨s₁.client.freshId (Clock.at 0 0 0), st.apiId, 0, ""⟩, .at 0 0) rfl
    have hif := hreply.symm.trans (stepAccepted_step _ (lookup_emplace_self hfresh) rfl hact hst rfl)
    by_contra hneg
    rw [if_pos (by omega)] at hif
    cases hif

/-- **Exactly which preset tables can end the process.**  Every event of every run
completes if and only if the presets that a mode request can start consist of sound steps. -/
theorem never_dies_iff (hs : nl.Strict) : NeverDies nl cfg timeoutMs ↔ cfg.Sound := by
  refine ⟨fun hd => ?_, never_dies hs⟩
  intro name steps hl hb
  -- by induction on the place of the step: those before it are sound
  have hall : ∀ (i : Nat) (st : SportCommandStep), steps[i]? = some st → st.Sound := by
    intro i
    induction i using Nat.strong_induction_on with
    | _ i ih =>
      intro st hst
      obtain ⟨tr, s, run, e, h, hempty, hturn, rfl, rfl⟩ := reaches_turn timeoutMs hs hl hb i
        (List.getElem?_eq_some_iff.mp hst).1 ih
      exact hturn.sound hs hd h hempty hst
  intro st hst
  obtain ⟨i, hi⟩ := List.mem_iff_getElem?.mp hst
  exact hall i st hi

theorem never_dies_iff_initPresets :
    NeverDies .strict (.ofParameters initPresets true defaultBlockedModes) 2000 ∧
      ¬ NeverDies .strict (.ofParameters [("bow", [SportApiId.step .hello emptyJson (-1)])] true []) 2000 := by
  constructor
  · exact (never_dies_iff Nlohmann.strict_strict).mpr (initPresets_sound _ _)
  · intro hd
    have hsound := (never_dies_iff Nlohmann.strict_strict).mp hd "bow" _ rfl (by decide) _ List.mem_cons_self
    exact absurd hsound (by decide)

/-! ## Coming to rest -/

/-- An event that needs neither the robot nor a client. -/
def SportEvent.own : SportEvent → Bool
  | .sweep _ | .timer => true
  | _ => false

theorem SportEvent.received_of_own (h : e.own = true) : e.received = [] := by
  cases e <;> first | rfl | cases h

/-- Nothing is pending and no sequence is active. -/
structure AtRest (s : SportState) : Prop where
  pending : s.client.pending.entries = []
  active : s.host.activeSequence = none

theorem AtRest.owed (h : AtRest s) : owed s = [] := by
  rw [Go2.owed, h.pending, SportHost.owes, h.active]
  rfl

theorem exists_deadline_le {κ : Type} (l : List (PendingEntry κ)) :
    ∃ now : Int, ∀ e ∈ l, e.2.deadline ≤ now := by
  induction l with
  | nil => exact ⟨0, by simp⟩
  | cons e l ih =>
    obtain ⟨now, hl⟩ := ih
    refine ⟨max e.2.deadline now, fun x hx => ?_⟩
    rcases List.mem_cons.mp hx with rfl | hx
    · omega
    · have := hl x hx
      omega

/-- A sweep late enough empties the table; it ends a sequence that waits for a reply, and no other. -/
theorem sweep_all {tr : SportTrace} (h : SportRun nl cfg timeoutMs tr s) :
    ∃ st : Step SportState (SportEvent × Clock) SportEmission,
      SportRun nl cfg timeoutMs (tr ++ [st]) st.post ∧ st.event.1.own = true ∧
      st.post.client.pending.entries = [] ∧
      (∀ e ∈ s.client.pending.entries, e.2.callback = .step → st.post.host = .idle) ∧
      (noStepPending s.client → st.post.host = s.host) := by
  obtain ⟨now, hnow⟩ := exists_deadline_le s.client.pending.entries
  refine ⟨_, h.snoc (sweep_step nl cfg h.phase listOrder (.at 0 now)), rfl, ?_, ?_, ?_⟩
  · rw [List.eq_nil_iff_forall_not_mem]
    intro e he
    obtain ⟨hm, hdl⟩ := mem_entries_kept.mp he
    exact absurd hdl (Int.not_lt.mpr (hnow e hm))
  · intro e he hcb
    exact SportHost.swept_of_mem (mem_expired.mpr ⟨he, hnow e he⟩) hcb
  · intro hno
    exact SportHost.swept_of_none fun e he => hno e (mem_expired.mp he).1

/-- A sequence that waits for its timer comes to rest, by induction on the steps it has left. -/
theorem delaying_rests (hs : nl.Strict) (hsound : cfg.Sound) {tr : SportTrace}
    (h : SportRun nl cfg timeoutMs tr s) (hempty : s.client.pending.entries = [])
    (harm : s.host.armed = true) (hact : s.host.activeSequence = some run) :
    ∃ tr' s', SportRun nl cfg timeoutMs (tr ++ tr') s' ∧ AtRest s' ∧ ∀ st ∈ tr', st.event.1.own = true := by
  generalize hn : run.steps.length - run.index = n
  induction n using Nat.strong_induction_on generalizing tr s run with
  | _ n ih =>
    obtain ⟨s₁, hclient, hact₁, hiff⟩ := (Turn.fires harm hact : Turn cfg s run .timer).transition_iff nl
    have hrun := h.allowed run hact
    have hstep : ∀ st, run.steps[run.index]? = some st → st.Sound :=
      fun st hst => hsound _ _ hrun.1 hrun.2 st (List.mem_of_getElem? hst)
    obtain ⟨s', out, hadv⟩ := Advance.total cfg s₁ hs hstep (Clock.at 0 0 0)
    have hfired := Run.snoc h (((hiff (.at 0 0) s' out).mpr hadv).step h.phase)
    have hown : ∀ st ∈ [(⟨s, (.timer, .at 0 0), out, s'⟩ : Step SportState (SportEvent × Clock) SportEmission)],
        st.event.1.own = true := by
      intro st hst
      rw [List.mem_singleton.mp hst]
      rfl
    rw [← hclient] at hempty
    cases hadv with
    | finished hi => exact ⟨_, _, hfired, ⟨hempty, rfl⟩, hown⟩
    | notSent _ _ _ => exact ⟨_, _, hfired, ⟨hempty, rfl⟩, hown⟩
    | @sent st text hst _ _ _ =>
      -- nobody replies: a sweep ends the sequence
      have hfresh : s₁.client.freshId (Clock.at 0 0 0) ∉ s₁.client.pending := by
        rw [hclient]
        exact h.freshId_notMem _
      obtain ⟨sw, hswept, hswown, hswempty, hidle, -⟩ := sweep_all hfired
      rw [List.append_assoc] at hswept
      refine ⟨_, _, hswept, ⟨hswempty, ?_⟩, ?_⟩
      · rw [hidle ⟨s₁.client.freshId (Clock.at 0 0 0), s₁.client.newEntry (Clock.at 0 0 0) st.apiId .step⟩ ?_ rfl]
        · rfl
        · show _ ∈ (s₁.client.afterCall (Clock.at 0 0 0) st.apiId .step).pending.entries
          rw [entries_afterCall hfresh]
          exact List.mem_cons_self
      · intro x hx
        rcases List.mem_append.mp hx with hx | hx
        · exact hown x hx
        · rw [List.mem_singleton.mp hx]
          exact hswown
    | @atOnce st text hst _ _ _ =>
      have hlt := (List.getElem?_eq_some_iff.mp hst).1
      obtain ⟨tr', s'', hrest, hat, hown'⟩ := ih (run.steps.length - (run.index + 1)) (by omega) hfired hempty rfl
        rfl rfl
      rw [List.append_assoc] at hrest
      refine ⟨_, s'', hrest, hat, ?_⟩
      intro x hx
      rcases List.mem_append.mp hx with hx | hx
      · exact hown x hx
      · exact hown' x hx

/-- **The bridge always comes to rest**, where the presets that can be started are sound.
From every state of every run there is a way on, by sweeps and timers alone, to a state with
nothing pending, no sequence active and no timer armed, in which every request received was
answered. -/
theorem comes_to_rest (hs : nl.Strict) (hsound : cfg.Sound) {tr : SportTrace}
    (h : SportRun nl cfg timeoutMs tr s) :
    ∃ tr' s', SportRun nl cfg timeoutMs (tr ++ tr') s' ∧ (∀ st ∈ tr', st.event.1.own = true) ∧
      AtRest s' ∧ s'.host.armed = false ∧
      (received tr).Perm (answersIn (history (tr ++ tr'))) := by
  have hrest : ∃ tr' s', SportRun nl cfg timeoutMs (tr ++ tr') s' ∧ AtRest s' ∧
      ∀ st ∈ tr', st.event.1.own = true := by
    obtain ⟨sw, hswept, hown, hempty, hidle, hsame⟩ := sweep_all h
    have hone : ∀ st ∈ [sw], st.event.1.own = true := by
      intro st hst
      rw [List.mem_singleton.mp hst]
      exact hown
    cases h.phase with
    | idle hnone _ hno => exact ⟨_, _, hswept, ⟨hempty, by rw [hsame hno]; exact hnone⟩, hone⟩
    | awaiting run st id entry _ _ _ _ hl hcb _ _ =>
      refine ⟨_, _, hswept, ⟨hempty, ?_⟩, hone⟩
      rw [hidle ⟨id, entry⟩ (lookup_eq_some_iff.mp hl) hcb]
      rfl
    | delaying run hact _ _ _ harm hno =>
      obtain ⟨tr', s', hrun, hat, hown'⟩ := delaying_rests hs hsound hswept hempty
        (by rw [hsame hno]; exact harm) (by rw [hsame hno]; exact hact)
      rw [List.append_assoc] at hrun
      refine ⟨_, s', hrun, hat, ?_⟩
      intro x hx
      rcases List.mem_append.mp hx with hx | hx
      · exact hone x hx
      · exact hown' x hx
  obtain ⟨tr', s', hrun, hat, hown⟩ := hrest
  refine ⟨tr', s', hrun, hown, hat, ?_, ?_⟩
  · cases hrun.phase with
    | idle _ harm _ => exact harm
    | awaiting run _ _ _ hact => rw [hat.active] at hact; cases hact
    | delaying run hact => rw [hat.active] at hact; cases hact
  · have hconserved := hrun.conserves
    have hnone : received tr' = [] :=
      List.flatMap_eq_nil_iff.mpr fun st hst => SportEvent.received_of_own (hown st hst)
    rw [hat.owed, List.append_nil, received, List.flatMap_append] at hconserved
    rw [received] at hnone ⊢
    rwa [hnone, List.append_nil] at hconserved

end

/-- The first step of the two-step preset was accepted, and a pose waits for its reply. -/
def midway : SportTrace × SportState :=
  execute (sportBridgeStep .strict (.ofParameters initPresets true defaultBlockedModes)) (.start 2000)
    [(.mode ⟨[], 1⟩ "stand_down_damp", .at 5 0), (.pose ⟨[], 2⟩ true, .at 5 0),
      (.response ⟨5, 1005, 0, ""⟩, .at 0 0)]

theorem comes_to_rest_midway :
    owed midway.2 = [(.pose, ⟨[], 2⟩), (.mode, ⟨[], 1⟩)] ∧
      ∃ tr', [(SportService.mode, (⟨[], 1⟩ : RequestId)), (.pose, ⟨[], 2⟩)].Perm
        (answersIn (history (midway.1 ++ tr'))) := by
  obtain ⟨tr', -, -, -, -, -, hperm⟩ := comes_to_rest Nlohmann.strict_strict (initPresets_sound _ _)
    (Run.execute _ _ _ : SportRun .strict (.ofParameters initPresets true defaultBlockedModes) 2000
      midway.1 midway.2)
  exact ⟨by decide, tr', hperm⟩

end Go2
