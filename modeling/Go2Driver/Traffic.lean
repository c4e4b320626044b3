import Mathlib.Algebra.GroupWithZero.Nat
import Go2Driver.Progress

/-!
# What the sport bridge ever sends, and how much

`Sends` lists what one event can publish: nothing, the velocity of a message, the request
of a service, or the step whose turn it is.  From it, over every run:

* `traffic_bounded`: the velocities sent are the velocities received, one for one; the
  other requests are no more than what was asked for, whatever the robot replies.
* `vocabulary_iff`: which requests some run sends, exactly.
* `acrobatics_iff`: a flip or a hand stand is sent in some run if and only if the
  `blocked_modes` parameter does not name it.
-/

namespace Go2

open Tables Runs SportBridge

/-- The requests that the active sequence has still to send. -/
def SportState.stepsLeft (s : SportState) : Nat :=
  match s.host.activeSequence with
  | none => 0
  | some run =>
    if s.host.armed then run.steps.length - run.index else run.steps.length - (run.index + 1)

theorem SportState.stepsLeft_idle {s : SportState} (h : s.host.activeSequence = none) : s.stepsLeft = 0 := by
  unfold SportState.stepsLeft
  rw [h]

theorem SportState.stepsLeft_armed {s : SportState} {run : SequenceRun}
    (h : s.host.activeSequence = some run) (harm : s.host.armed = true) :
    s.stepsLeft = run.steps.length - run.index := by
  unfold SportState.stepsLeft
  rw [h]
  exact if_pos harm

theorem SportState.stepsLeft_waiting (c : UnitreeApiClient Callback) (run : SequenceRun) (w : Int) :
    SportState.stepsLeft ⟨c, .waiting run w⟩ = run.steps.length - run.index := rfl

theorem SportState.stepsLeft_awaiting {s : SportState} {run : SequenceRun}
    (h : s.host.activeSequence = some run) (harm : s.host.armed = false) :
    s.stepsLeft = run.steps.length - (run.index + 1) := by
  unfold SportState.stepsLeft
  rw [h]
  exact if_neg (by simp [harm])

/-- What one event publishes, and what it leaves to send. -/
inductive Sends (nl : Nlohmann) (cfg : SportConfig) (s s' : SportState) (e : SportEvent) :
    List (Int × String × Bool) → Prop
  | nothing : (∀ msg, e ≠ .cmdVel msg) → s'.stepsLeft ≤ s.stepsLeft → Sends nl cfg s s' e []
  | velocity {msg : Twist} {text : String} : e = .cmdVel msg →
      nl.dump (xyzJson msg.linearX msg.linearY msg.angularZ) = some text → s'.stepsLeft = s.stepsLeft →
      Sends nl cfg s s' e [(SportApiId.move.code, text, true)]
  | service {q : SportCall} {text : String} : e.serviceCall? nl cfg = some q →
      nl.dump q.parameter = some text → s'.stepsLeft = s.stepsLeft →
      Sends nl cfg s s' e [(q.apiId, text, false)]
  | step {run : SequenceRun} {st : SportCommandStep} {text : String} : Turn cfg s run e →
      run.steps[run.index]? = some st → nl.dump st.parameter = some text →
      s'.stepsLeft + (run.index + 1) = run.steps.length → Sends nl cfg s s' e [(st.apiId, text, false)]

section
variable {nl : Nlohmann} {cfg : SportConfig} {s s' : SportState} {e : SportEvent} {clk : Clock}
  {out : List SportEmission}

theorem requestsIn_mismatchLog (msg : Response) (entry : PendingRequest Callback) (L : List SportEmission) :
    requestsIn (mismatchLog msg entry ++ L) = requestsIn L := by
  rw [requestsIn_append, requestsIn_eq_nil ((warnings_mismatchLog msg entry).published_notMem), List.nil_append]

/-- One call of `advanceSequence`. -/
theorem Turn.sends {s₁ : SportState} {run : SequenceRun} {r : Reading} (ht : Turn cfg s run e)
    (hadv : Advance nl cfg s₁ run r s' out)
    (hact : s₁.host.activeSequence = some run) (harm : s₁.host.armed = false) :
    Sends nl cfg s s' e (requestsIn out) := by
  have hev : ∀ msg, e ≠ .cmdVel msg := by
    rintro msg rfl
    cases ht with
    | accepts hacc => cases hacc
  cases hadv with
  | finished _ => exact .nothing hev (by rw [SportState.stepsLeft_idle rfl]; exact Nat.zero_le _)
  | notSent _ _ _ => exact .nothing hev (by rw [SportState.stepsLeft_idle rfl]; exact Nat.zero_le _)
  | @sent st text hst _ _ hd =>
    have hlt := (List.getElem?_eq_some_iff.mp hst).1
    refine .step ht hst hd ?_
    rw [SportState.stepsLeft_awaiting (s := ⟨s₁.client.afterCall r st.apiId .step, s₁.host⟩) hact harm]
    omega
  | @atOnce st text hst _ hd _ =>
    have hlt := (List.getElem?_eq_some_iff.mp hst).1
    refine .step ht hst hd ?_
    rw [SportState.stepsLeft_waiting]
    show run.steps.length - (run.index + 1) + (run.index + 1) = run.steps.length
    omega

theorem Transition.sends (ht : Transition nl cfg s (e, clk) s' out) (hp : Phase s) :
    Sends nl cfg s s' e (requestsIn out) := by
  have hidle : s'.host.activeSequence = none → s'.stepsLeft ≤ s.stepsLeft := by
    intro h
    rw [SportState.stepsLeft_idle h]
    exact Nat.zero_le _
  have hsame : s'.host = s.host → s'.stepsLeft = s.stepsLeft := by
    intro h
    unfold SportState.stepsLeft
    rw [h]
  cases ht with
  | refused hr =>
    refine .nothing ?_ (le_refl _)
    rintro msg rfl
    cases hr
  | notSent hq _ _ =>
    refine .nothing ?_ (le_refl _)
    rintro msg rfl
    cases hq
  | accepted hacc hadv =>
    refine (Turn.accepts hacc).sends hadv rfl ?_
    have hnone := (SportEvent.accepted?_spec hacc).2.1
    cases hp with
    | idle _ harm _ => exact harm
    | awaiting run _ _ _ hact => rw [hnone] at hact; cases hact
    | delaying run hact => rw [hnone] at hact; cases hact
  | sent hq _ _ hd => exact .service hq hd (hsame rfl)
  | @atOnce _ _ q _ hq _ hd =>
    show Sends nl cfg s _ e (_ :: requestsIn (q.callback.report nl cfg ⟨true, 0, ""⟩))
    rw [requestsIn_report]
    exact .service hq hd (hsame rfl)
  | cmdVel hd => exact .velocity rfl hd (hsame rfl)
  | foreign _ => exact .nothing (by simp) (le_refl _)
  | @replied msg _ entry _ _ =>
    rw [requestsIn_mismatchLog]
    show Sends nl cfg s _ _ (requestsIn (entry.callback.report nl cfg msg.result))
    rw [requestsIn_report]
    exact .nothing (by simp) (le_of_eq (hsame rfl))
  | @stepAccepted msg _ entry run st hl hcb hact hst _ _ =>
    obtain ⟨-, -, -, -, -, -, harm⟩ := hp.step_of_pending (lookup_eq_some_iff.mp hl) hcb
    rw [requestsIn_mismatchLog]
    refine .nothing (by simp) ?_
    rw [SportState.stepsLeft_awaiting hact harm, SportState.stepsLeft_waiting]
    exact le_refl _
  | stepFailed _ _ _ _ _ =>
    rw [requestsIn_mismatchLog]
    exact .nothing (by simp) (hidle rfl)
  | swept =>
    rw [requestsIn_eq_nil fun req entry => published_notMem_sweep nl cfg req entry _ _]
    refine .nothing (by simp) ?_
    simp only [SportHost.swept] at hidle hsame ⊢
    split
    · next hany =>
      rw [SportState.stepsLeft_idle rfl]
      exact Nat.zero_le _
    · exact le_refl _
  | @fired _ run _ _ harm hact hadv =>
    refine (Turn.fires harm hact).sends hadv hact ?_
    unfold SportHost.cancelTimer SportHost.armed
    cases s.host.sequenceTimer <;> rfl

/-! ## How much is sent -/

/-- The velocity of a message, as it is sent. -/
def SportEvent.velocity? (nl : Nlohmann) : SportEvent → Option (Int × String × Bool)
  | .cmdVel msg =>
    (nl.dump (xyzJson msg.linearX msg.linearY msg.angularZ)).map (SportApiId.move.code, ·, true)
  | _ => none

/-- How many requests are sent for the event at most: one for each step of its preset, or one. -/
def SportEvent.weight (cfg : SportConfig) : SportEvent → Nat
  | .mode _ name => ((cfg.presets.lookup name).getD []).length
  | .speedLevel .. | .switchJoystick .. | .euler .. | .pose .. | .getAutoRecovery .. => 1
  | .cmdVel _ | .response _ | .sweep _ | .timer => 0

theorem Sends.velocities {L : List (Int × String × Bool)} (h : Sends nl cfg s s' e L) :
    L.filter (·.2.2) = (e.velocity? nl).toList := by
  cases h with
  | nothing hev _ =>
    cases e with
    | cmdVel msg => exact absurd rfl (hev msg)
    | _ => rfl
  | velocity hev hd _ =>
    rw [hev, SportEvent.velocity?, hd]
    rfl
  | service hq _ _ => cases e <;> first | rfl | cases hq
  | step ht _ _ _ =>
    cases ht with
    | accepts hacc => rw [(SportEvent.accepted?_spec hacc).1]; rfl
    | fires _ _ => rfl

/-- What is sent for the services, with what is left to send, is paid for by the event. -/
theorem Sends.paid {L : List (Int × String × Bool)} (h : Sends nl cfg s s' e L) :
    (L.filter (!·.2.2)).length + s'.stepsLeft ≤ s.stepsLeft + e.weight cfg := by
  cases h with
  | nothing _ hle => exact Nat.le_trans (by simpa using hle) (Nat.le_add_right _ _)
  | velocity _ _ hsame => simp [hsame]
  | service hq _ hsame =>
    have hweight : e.weight cfg = 1 := by cases e <;> first | rfl | cases hq
    simp [hsame, hweight, Nat.add_comm]
  | step ht hst _ hleft =>
    simp only [Bool.not_false, List.filter_cons_of_pos, List.filter_nil, List.length_singleton]
    cases ht with
    | accepts hacc =>
      obtain ⟨hev, -, hl, -, -, hindex, -⟩ := SportEvent.accepted?_spec hacc
      rw [hev, SportEvent.weight, hl, Option.getD_some]
      omega
    | fires harm hact =>
      rw [SportState.stepsLeft_armed hact harm]
      omega

variable {timeoutMs : Int} {tr : SportTrace}

theorem SportRun.sends {tr₁ tr₂ : SportTrace} {st : Step SportState (SportEvent × Clock) SportEmission}
    (h : SportRun nl cfg timeoutMs (tr₁ ++ st :: tr₂) s) :
    Sends nl cfg st.pre st.post st.event.1 (requestsIn st.out) := by
  obtain ⟨hpre, ht⟩ := SportRun.transition h
  exact ht.sends hpre.phase

/-- **What is sent is bounded by what is asked for**, whatever is received, late or twice,
from the robot: over every run the velocities sent are the velocities received, one for
one and in order, and the other requests are at most one for each request of a service
and one for each step of a preset that a mode request named. -/
theorem traffic_bounded (h : SportRun nl cfg timeoutMs tr s) :
    (requestsIn (history tr)).filter (·.2.2) = tr.filterMap (·.event.1.velocity? nl) ∧
    ((requestsIn (history tr)).filter (!·.2.2)).length + s.stepsLeft ≤
      (tr.map (·.event.1.weight cfg)).sum := by
  refine Run.traceInvariant (fun tr s =>
    (requestsIn (history tr)).filter (·.2.2) = tr.filterMap (·.event.1.velocity? nl) ∧
    ((requestsIn (history tr)).filter (!·.2.2)).length + s.stepsLeft ≤
      (tr.map (·.event.1.weight cfg)).sum) ⟨rfl, Nat.le_refl _⟩ ?_ h
  intro tr s e s' out hr ih he
  have hsends := SportRun.sends (hr.snoc he : SportRun nl cfg timeoutMs _ s')
  have hpaid := hsends.paid
  obtain ⟨hvel, hpaid₀⟩ := ih
  rw [history_snoc, requestsIn_append]
  constructor
  · rw [List.filter_append, List.filterMap_append, hvel, hsends.velocities]
    cases hv : e.1.velocity? nl <;> simp [hv]
  · rw [List.filter_append, List.length_append, List.map_append, List.sum_append]
    simp only [List.map_cons, List.map_nil, List.sum_cons, List.sum_nil, Nat.add_zero] at hpaid ⊢
    omega

/-! ## What can be sent -/

/-- The requests the bridge has a reason for: a velocity, the request of a service, or a
step of a preset that is not blocked. -/
inductive Speaks (nl : Nlohmann) (cfg : SportConfig) : Int × String × Bool → Prop
  | velocity (msg : Twist) {text : String} :
      nl.dump (xyzJson msg.linearX msg.linearY msg.angularZ) = some text →
      Speaks nl cfg (SportApiId.move.code, text, true)
  | service (e : SportEvent) {q : SportCall} {text : String} : e.serviceCall? nl cfg = some q →
      nl.dump q.parameter = some text → Speaks nl cfg (q.apiId, text, false)
  | preset {name : String} {steps : List SportCommandStep} {st : SportCommandStep} {text : String} :
      cfg.presets.lookup name = some steps → name ∉ cfg.blockedModes → st ∈ steps →
      nl.dump st.parameter = some text → Speaks nl cfg (st.apiId, text, false)

theorem Sends.speaks {L : List (Int × String × Bool)} (h : Sends nl cfg s s' e L)
    (hallowed : ∀ run, s.host.activeSequence = some run → Allowed cfg run) :
    ∀ x ∈ L, Speaks nl cfg x := by
  intro x hx
  cases h with
  | nothing _ _ => cases hx
  | velocity _ hd _ =>
    rw [List.mem_singleton.mp hx]
    exact .velocity _ hd
  | service hq hd _ =>
    rw [List.mem_singleton.mp hx]
    exact .service _ hq hd
  | @step run st text ht hst hd _ =>
    rw [List.mem_singleton.mp hx]
    have hrun : Allowed cfg run := by
      cases ht with
      | accepts hacc =>
        obtain ⟨-, -, hl, hb, -⟩ := SportEvent.accepted?_spec hacc
        exact ⟨hl, hb⟩
      | fires _ hact => exact hallowed run hact
    exact .preset hrun.1 hrun.2 (List.mem_of_getElem? hst) hd

/-- In some run of the bridge the request is sent. -/
def Sendable (nl : Nlohmann) (cfg : SportConfig) (timeoutMs : Int) (x : Int × String × Bool) : Prop :=
  ∃ tr s, SportRun nl cfg timeoutMs tr s ∧ x ∈ requestsIn (history tr)

variable (clk) in
theorem Sendable.of_transition {x : Int × String × Bool} (h : SportRun nl cfg timeoutMs tr s)
    (ht : Transition nl cfg s (e, clk) s' out) (hx : x ∈ requestsIn out) : Sendable nl cfg timeoutMs x := by
  refine ⟨_, s', h.snoc (ht.step h.phase), ?_⟩
  rw [history_snoc, requestsIn_append]
  exact List.mem_append_right _ hx

theorem Sendable.of_speaks (hs : nl.Strict) (hsound : cfg.Sound) {x : Int × String × Bool}
    (h : Speaks nl cfg x) : Sendable nl cfg timeoutMs x := by
  have hstart : SportRun nl cfg timeoutMs [] (.start timeoutMs) := .nil
  have hempty : (SportState.start timeoutMs).client.pending.entries = [] := rfl
  cases h with
  | velocity msg hd => exact .of_transition (.at 0 0) hstart (.cmdVel hd) (List.mem_singleton.mpr rfl)
  | service e hq hd =>
    cases hw : cfg.waitForResponse with
    | true =>
      refine .of_transition (.at 0 0) hstart
        (.sent hq hw (UnitreeApiClient.not_full hempty) hd) (List.mem_singleton.mpr rfl)
    | false => exact .of_transition (.at 0 0) hstart (.atOnce hq hw hd) List.mem_cons_self
  | @preset name steps st text hl hb hst hd =>
    obtain ⟨i, hi⟩ := List.mem_iff_getElem?.mp hst
    obtain ⟨tr, s, run, e, hrun, hempty, hturn, rfl, rfl⟩ := reaches_turn timeoutMs hs hl hb i
      (List.getElem?_eq_some_iff.mp hi).1
      fun j _ x hx => hsound name _ hl hb x (List.mem_of_getElem? hx)
    obtain ⟨s₁, hclient, -, hiff⟩ := hturn.transition_iff nl
    rw [← hclient] at hempty
    cases hw : cfg.waitForResponse with
    | true =>
      have ht := (hiff (.at 0 0) _ _).mpr (.sent hi hw (UnitreeApiClient.not_full hempty) hd)
      exact .of_transition _ hrun ht (List.mem_singleton.mpr rfl)
    | false =>
      have ht := (hiff (.at 0 0) _ _).mpr (.atOnce hi hw hd (hsound name _ hl hb st hst).2)
      exact .of_transition _ hrun ht List.mem_cons_self

theorem Sendable.speaks {x : Int × String × Bool} (h : Sendable nl cfg timeoutMs x) : Speaks nl cfg x := by
  obtain ⟨tr, s, hrun, hx⟩ := h
  refine Run.traceInvariant (fun tr _ => ∀ x ∈ requestsIn (history tr), Speaks nl cfg x)
    (fun _ hx => by cases hx) ?_ hrun x hx
  intro tr s e s' out hr ih he x hx
  rw [history_snoc, requestsIn_append] at hx
  rcases List.mem_append.mp hx with hx | hx
  · exact ih x hx
  · have hsends := SportRun.sends (hr.snoc he : SportRun nl cfg timeoutMs _ s')
    exact hsends.speaks (SportRun.allowed hr) x hx

/-- **The vocabulary of the bridge**, where the presets that can be started are sound: a request
is sent in some run if and only if it is a velocity, the request of a service, or a step of a
preset that is not blocked. -/
theorem vocabulary_iff (hs : nl.Strict) (hsound : cfg.Sound) (x : Int × String × Bool) :
    Sendable nl cfg timeoutMs x ↔ Speaks nl cfg x :=
  ⟨Sendable.speaks, Sendable.of_speaks hs hsound⟩

/-! ## Flips and hand stands -/

/-- The modes that `blocked_modes` names by default, and what each sends. -/
def acrobatics : List (String × SportApiId) :=
  [("front_flip", .frontFlip), ("back_flip", .backFlip), ("left_flip", .leftFlip), ("hand_stand", .handStand)]

example : acrobatics.map (·.1) = defaultBlockedModes := rfl

theorem acrobatic_preset {name : String} {api : SportApiId} (ha : (name, api) ∈ acrobatics) :
    name ≠ blockNothing ∧ ∃ st : SportCommandStep, initPresets.lookup name = some [st] ∧
      st.apiId = api.code ∧ st.parameter.utf8 = true := by
  simp only [acrobatics, List.mem_cons, Prod.mk.injEq, List.not_mem_nil, or_false] at ha
  rcases ha with ⟨rfl, rfl⟩ | ⟨rfl, rfl⟩ | ⟨rfl, rfl⟩ | ⟨rfl, rfl⟩
  all_goals exact ⟨by decide, _, rfl, rfl, by decide⟩

/-- No other preset of the node, and none of its services, sends what an acrobatic mode sends. -/
theorem acrobatic_only {name name' : String} {api : SportApiId} (ha : (name, api) ∈ acrobatics)
    {steps : List SportCommandStep} (hl : initPresets.lookup name' = some steps) {st : SportCommandStep}
    (hst : st ∈ steps) (hapi : st.apiId = api.code) : name' = name := by
  have hall : ∀ a ∈ acrobatics, ∀ p ∈ initPresets, ∀ st ∈ p.2, st.apiId = a.2.code → p.1 = a.1 := by decide
  obtain ⟨l₁, l₂, hsplit, -⟩ := List.lookup_eq_some_iff.mp hl
  have hmem : (name', steps) ∈ initPresets := by
    rw [hsplit]
    exact List.mem_append_right _ List.mem_cons_self
  exact hall (name, api) ha _ hmem st hst hapi

theorem serviceCall?_not_acrobatic {q : SportCall} (hq : e.serviceCall? nl cfg = some q) {name : String}
    {api : SportApiId} (ha : (name, api) ∈ acrobatics) : q.apiId ≠ api.code := by
  have hall : ∀ a ∈ acrobatics, a.2.code ∉ [SportApiId.speedLevel.code, SportApiId.switchJoystick.code,
      SportApiId.euler.code, SportApiId.pose.code, SportApiId.autoRecoveryGet.code] := by decide
  intro heq
  refine hall (name, api) ha ?_
  rw [← heq]
  cases e <;> simp only [SportEvent.serviceCall?] at hq <;> repeat' split at hq
  all_goals first
    | cases hq; done
    | (simp only [Option.some.injEq] at hq; subst hq; simp)

/-- **An acrobatic is sent in some run if and only if it is not blocked**: whatever else
the parameter lists, with or without `wait_for_response`. -/
theorem acrobatics_iff (hs : nl.Strict) {wait : Bool} {blocked : List String} {name : String}
    {api : SportApiId} (ha : (name, api) ∈ acrobatics) :
    (∃ text noreply, Sendable nl (.ofParameters initPresets wait blocked) timeoutMs (api.code, text, noreply)) ↔
      name ∉ blocked := by
  obtain ⟨hne, st, hl, hapi, hutf8⟩ := acrobatic_preset ha
  have hmem : name ∈ (SportConfig.ofParameters initPresets wait blocked).blockedModes ↔ name ∈ blocked := by
    show name ∈ blockedSet blocked ↔ _
    rw [mem_blockedSet]
    exact and_iff_left hne
  constructor
  · rintro ⟨text, noreply, hsend⟩
    generalize hx : (api.code, text, noreply) = x at hsend
    cases hsend.speaks with
    | velocity msg hd =>
      have hmove : ∀ a ∈ acrobatics, a.2.code ≠ SportApiId.move.code := by decide
      rw [Prod.mk.injEq] at hx
      exact absurd hx.1 (hmove _ ha)
    | service e hq hd =>
      rw [Prod.mk.injEq] at hx
      exact absurd hx.1.symm (serviceCall?_not_acrobatic hq ha)
    | preset hl' hb' hst' hd =>
      rw [Prod.mk.injEq] at hx
      rw [acrobatic_only ha hl' hst' hx.1.symm, hmem] at hb'
      exact hb'
  · intro hb
    obtain ⟨text, hd⟩ := hs.writes hutf8
    refine ⟨text, false, Sendable.of_speaks hs (initPresets_sound blocked wait) ?_⟩
    rw [← hapi]
    exact .preset hl (fun h => hb (hmem.mp h)) List.mem_cons_self hd

end

theorem acrobatics_iff_defaults :
    (¬ ∃ text noreply, Sendable .strict (.ofParameters initPresets true defaultBlockedModes) 2000
      (1030, text, noreply)) ∧
    ∃ text noreply, Sendable .strict (.ofParameters initPresets true ["none"]) 2000 (1030, text, noreply) :=
  by
  have ha : ("front_flip", SportApiId.frontFlip) ∈ acrobatics := List.mem_cons_self
  constructor
  · intro hsend
    exact (acrobatics_iff Nlohmann.strict_strict ha).mp hsend (by decide)
  · exact (acrobatics_iff Nlohmann.strict_strict ha).mpr (by decide)

/-- A velocity between the two steps of a preset, and a reply that comes twice. -/
def drivenBetween : SportTrace × SportState :=
  execute (sportBridgeStep .strict (.ofParameters initPresets true defaultBlockedModes)) (.start 2000)
    [(.mode ⟨[], 1⟩ "stand_down_damp", .at 5 0), (.cmdVel ⟨.finite 1, .finite 0, .finite 0⟩, .at 5 0),
      (.response ⟨5, 1005, 0, ""⟩, .at 0 0), (.response ⟨5, 1005, 0, ""⟩, .at 0 0), (.timer, .at 9 0)]

theorem traffic_bounded_drivenBetween :
    drivenBetween.1.length = 5 ∧ ((requestsIn (history drivenBetween.1)).filter (!·.2.2)).length ≤ 2 := by
  have hpaid := (traffic_bounded (Run.execute _ _ _ : SportRun .strict
    (.ofParameters initPresets true defaultBlockedModes) 2000 drivenBetween.1 drivenBetween.2)).2
  exact ⟨by decide, Nat.le_trans (Nat.le_add_right _ _) hpaid⟩

theorem vocabulary_iff_pose :
    Sendable .strict (.ofParameters initPresets true defaultBlockedModes) 2000
      (1028, "\x7b\"data\":true\x7d", false) := by
  refine (vocabulary_iff Nlohmann.strict_strict (initPresets_sound _ _) _).mpr ?_
  exact .service (.pose ⟨[], 1⟩ true) rfl (by decide)

end Go2
