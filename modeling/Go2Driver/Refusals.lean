import Go2Driver.Answers
import Go2Driver.ModeSequence
import Go2Driver.Transitions

/-!
# Refused requests, and presets that are never sent

A request that is refused changes nothing: the bridge is left in the state it was
in, and the one thing let out is the answer that says so (`refused_step`).  So a run
without its refused requests is a run to the same state (`SportRun.accepted_only`).

What a sequence sends was accepted once: `Allowed` holds of the active sequence in
every state, so every request sent for the mode service is a step of a preset that
the `blocked_modes` parameter does not name (`SportRun.requests_allowed`).
-/

namespace Go2

open Tables Runs SportBridge

/-! ## `blocked_modes_` -/

theorem mem_insertName {name x : String} {names : List String} :
    x ∈ insertName name names ↔ x = name ∨ x ∈ names := by
  induction names with
  | nil => simp [insertName]
  | cons n rest ih =>
    unfold insertName
    split
    · exact List.mem_cons
    · split
      · next heq =>
        subst heq
        simp
      · rw [List.mem_cons, ih, List.mem_cons]
        exact or_left_comm

/-- The set is the parameter without `none`. -/
theorem mem_blockedSet {blocked : List String} {x : String} :
    x ∈ blockedSet blocked ↔ x ∈ blocked ∧ x ≠ blockNothing := by
  -- the fold over the parameter, from any set
  have hfold : ∀ (l set : List String),
      x ∈ l.foldl (fun set name => if name ≠ blockNothing then insertName name set else set) set ↔
        (x ∈ l ∧ x ≠ blockNothing) ∨ x ∈ set := by
    intro l
    induction l with
    | nil => simp
    | cons name l ih =>
      intro set
      rw [List.foldl_cons, ih, List.mem_cons]
      by_cases hname : name ≠ blockNothing
      · rw [if_pos hname, mem_insertName]
        constructor
        · rintro (⟨h, hne⟩ | rfl | h)
          · exact .inl ⟨.inr h, hne⟩
          · exact .inl ⟨.inl rfl, hname⟩
          · exact .inr h
        · rintro (⟨rfl | h, hne⟩ | h)
          · exact .inr (.inl rfl)
          · exact .inl ⟨h, hne⟩
          · exact .inr (.inr h)
      · rw [if_neg hname]
        refine or_congr_left (and_congr_left fun hne => ?_)
        refine (or_iff_right ?_).symm
        rintro rfl
        exact hname hne
  have := hfold blocked []
  simpa [blockedSet] using this

/-! ## What is refused -/

/-- The requests the bridge refuses before it sends anything. -/
inductive RefusedRequest (presets : Presets) (wait : Bool) (blocked : List String) (h : SportHost) :
    SportEvent → Prop
  | unknownMode {r : RequestId} {name : String} : presets.lookup name = none →
      RefusedRequest presets wait blocked h (.mode r name)
  | blockedMode {r : RequestId} {name : String} : name ∈ blocked →
      RefusedRequest presets wait blocked h (.mode r name)
  | sequenceActive {r : RequestId} {name : String} : h.activeSequence ≠ none →
      RefusedRequest presets wait blocked h (.mode r name)
  | noSteps {r : RequestId} {name : String} : presets.lookup name = some [] →
      RefusedRequest presets wait blocked h (.mode r name)
  | speedLevel {r : RequestId} {level : Int} : level ≠ -1 → level ≠ 1 →
      RefusedRequest presets wait blocked h (.speedLevel r level)
  | getAutoRecovery {r : RequestId} : wait = false →
      RefusedRequest presets wait blocked h (.getAutoRecovery r)

section
variable {presets : Presets} {wait : Bool} {blocked : List String} {h : SportHost} {e : SportEvent}

theorem modeRefused_iff (hnone : presets.lookup blockNothing = none) {r : RequestId} {name : String} :
    RefusedRequest presets wait blocked h (.mode r name) ↔
      ((SportEvent.mode r name).refusal? (.ofParameters presets wait blocked) h).isSome = true := by
  have hmem : name ∈ (SportConfig.ofParameters presets wait blocked).blockedModes ↔
      name ∈ blocked ∧ name ≠ blockNothing := mem_blockedSet
  have hpresets : (SportConfig.ofParameters presets wait blocked).presets = presets := rfl
  simp only [SportEvent.refusal?, hpresets]
  cases hl : presets.lookup name with
  | none => exact iff_of_true (.unknownMode hl) rfl
  | some steps =>
    simp only
    split
    · next hb => exact iff_of_true (.blockedMode (hmem.mp hb).1) rfl
    · next hb =>
      cases ha : h.activeSequence with
      | some run => exact iff_of_true (.sequenceActive (by rw [ha]; simp)) rfl
      | none =>
        simp only
        split
        · next hs => exact iff_of_true (.noSteps (hs ▸ hl)) rfl
        · next hs =>
          refine iff_of_false ?_ (by simp)
          intro href
          cases href with
          | unknownMode hl' => rw [hl] at hl'; cases hl'
          | blockedMode hb' =>
            refine hb (hmem.mpr ⟨hb', ?_⟩)
            rintro rfl
            rw [hl] at hnone
            cases hnone
          | sequenceActive hact => exact hact ha
          | noSteps hl' =>
            rw [hl, Option.some.injEq] at hl'
            exact hs hl'

/-- The handlers refuse what is to be refused, and nothing else. -/
theorem refusedRequest_iff (hnone : presets.lookup blockNothing = none) :
    RefusedRequest presets wait blocked h e ↔
      (e.refusal? (.ofParameters presets wait blocked) h).isSome = true := by
  cases e with
  | mode r name => exact modeRefused_iff hnone
  | speedLevel r level =>
    simp only [SportEvent.refusal?]
    split
    · next hlevel => exact iff_of_true (.speedLevel hlevel.1 hlevel.2) rfl
    · next hlevel =>
      refine iff_of_false ?_ (by simp)
      rintro (_ | _ | _ | _ | ⟨h₁, h₂⟩)
      exact hlevel ⟨h₁, h₂⟩
  | getAutoRecovery r =>
    cases wait with
    | false => exact iff_of_true (.getAutoRecovery rfl) rfl
    | true =>
      refine iff_of_false ?_ (by simp [SportEvent.refusal?, SportConfig.ofParameters])
      rintro (_ | _ | _ | _ | _ | hw)
      cases hw
  | _ =>
    refine iff_of_false ?_ (by simp [SportEvent.refusal?])
    rintro ⟨⟩

end

section
variable {nl : Nlohmann} {cfg : SportConfig}

/-! ## A run without what it refused -/

variable {timeoutMs : Int} {s : SportState} {tr : SportTrace}

/-- The request was not refused. -/
def letThrough (cfg : SportConfig) (st : Step SportState (SportEvent × Clock) SportEmission) : Bool :=
  (st.event.1.refusal? cfg st.pre.host).isNone

/-- Without its refused requests a run leads to the same state, through the same steps. -/
theorem SportRun.accepted_only (h : SportRun nl cfg timeoutMs tr s) :
    SportRun nl cfg timeoutMs (tr.filter (letThrough cfg)) s := by
  refine Run.traceInvariant
    (fun tr s => SportRun nl cfg timeoutMs (tr.filter (letThrough cfg)) s) .nil ?_ h
  intro tr s e s' out _ ih he
  rw [List.filter_append]
  cases hr : e.1.refusal? cfg s.host with
  | none =>
    rw [List.filter_cons_of_pos (by simp [letThrough, hr])]
    exact .snoc ih he
  | some refusal =>
    -- the step stays where it was
    have hstep : sportBridgeStep nl cfg s e = some (s, [answered refusal.1 refusal.2]) :=
      refused_step hr e.2
    rw [he, Option.some.injEq, Prod.mk.injEq] at hstep
    rw [List.filter_cons_of_neg (by simp [letThrough, hr]), List.filter_nil, List.append_nil, hstep.1]
    exact ih

/-! ## What a sequence sends -/

/-- A run of a preset that may be sent. -/
def Allowed (cfg : SportConfig) (run : SequenceRun) : Prop :=
  cfg.presets.lookup run.name = some run.steps ∧ run.name ∉ cfg.blockedModes

/-- The active sequence after an `advanceSequence` is still the preset's. -/
theorem Advance.allowed {s s' : SportState} {run : SequenceRun} {rd : Reading}
    {out : List SportEmission} (h : Advance nl cfg s run rd s' out) (hr : Allowed cfg run)
    (ha : s.host.activeSequence = some run) {run' : SequenceRun}
    (ha' : s'.host.activeSequence = some run') : Allowed cfg run' := by
  cases h with
  | finished _ => cases ha'
  | notSent _ _ _ => cases ha'
  | sent _ _ _ _ =>
    rw [ha, Option.some.injEq] at ha'
    exact ha' ▸ hr
  | atOnce _ _ _ _ =>
    cases ha'
    exact hr

theorem Transition.allowed {s s' : SportState} {e : SportEvent × Clock} {out : List SportEmission}
    (ht : Transition nl cfg s e s' out)
    (hs : ∀ run, s.host.activeSequence = some run → Allowed cfg run) (run : SequenceRun)
    (hrun : s'.host.activeSequence = some run) : Allowed cfg run := by
  cases ht with
  | refused _ => exact hs run hrun
  | notSent _ _ _ => exact hs run hrun
  | sent _ _ _ _ => exact hs run hrun
  | atOnce _ _ _ => exact hs run hrun
  | cmdVel _ => exact hs run hrun
  | foreign _ => exact hs run hrun
  | replied _ _ => exact hs run hrun
  | accepted hacc hadv =>
    obtain ⟨-, -, hl, hb, -⟩ := SportEvent.accepted?_spec hacc
    exact hadv.allowed ⟨hl, hb⟩ rfl hrun
  | fired _ hact hadv => exact hadv.allowed (hs _ hact) hact hrun
  | @stepAccepted _ _ _ run₀ _ _ _ hact _ _ _ =>
    cases hrun
    exact (hs run₀ hact : Allowed cfg run₀)
  | stepFailed _ _ _ _ _ => cases hrun
  | swept =>
    simp only [SportHost.swept] at hrun
    split at hrun
    · cases hrun
    · exact hs run hrun

theorem SportRun.allowed (h : SportRun nl cfg timeoutMs tr s) :
    ∀ run, s.host.activeSequence = some run → Allowed cfg run := by
  refine Run.traceInvariant
    (fun _ s => ∀ run, s.host.activeSequence = some run → Allowed cfg run)
    (fun run hrun => by cases hrun) ?_ h
  intro tr s e s' out hr ih he
  exact (sportBridgeStep_transition nl cfg (SportRun.phase hr) he).allowed ih

/-- A step of a preset that may be sent, asked for by the request. -/
def StepOfAllowed (nl : Nlohmann) (cfg : SportConfig) (req : Request) : Prop :=
  ∃ name steps, cfg.presets.lookup name = some steps ∧ name ∉ cfg.blockedModes ∧
    ∃ st ∈ steps, Asks nl st req

/-- Every request sent for the mode service is a step of a preset that may be sent. -/
theorem SportRun.requests_allowed {tr₁ tr₂ : SportTrace}
    {st : Step SportState (SportEvent × Clock) SportEmission}
    (h : SportRun nl cfg timeoutMs (tr₁ ++ st :: tr₂) s) {req : Request}
    {entry : Option (PendingRequest Callback)} (hp : Out.published req entry ∈ st.out)
    (hmode : st.event.1.ofMode = true ∨ entry.any PendingRequest.isStep = true) :
    StepOfAllowed nl cfg req := by
  obtain ⟨hpre, ht⟩ := SportRun.transition h
  rcases ht.published_cases hp with ⟨msg, hev, rfl⟩ | ⟨q, hq, hentry⟩ | ⟨s₁, run, -, hadv, hrun⟩
  · rw [hev] at hmode
    simp [SportEvent.ofMode] at hmode
  · exfalso
    rw [(SportEvent.ofMode_of_serviceCall? hq).1] at hmode
    cases entry with
    | none => simp at hmode
    | some x =>
      have hcb := PendingRequest.isStep_iff.mp (hmode.resolve_left (by simp))
      rw [(hentry x rfl).2] at hcb
      exact (SportEvent.serviceCall?_callback hq).1 hcb
  · have hallowed : Allowed cfg run := by
      rcases hrun with hacc | hact
      · obtain ⟨-, -, hl, hb, -⟩ := SportEvent.accepted?_spec hacc
        exact ⟨hl, hb⟩
      · exact SportRun.allowed hpre run hact
    obtain ⟨step, hstep, hapi, hnoreply, hd, -⟩ := hadv.published hp
    exact ⟨run.name, run.steps, hallowed.1, hallowed.2, step, List.mem_of_getElem? hstep, hapi, hnoreply, hd⟩

end

/-! ## The bridge under its parameters -/

/-- **Refusals have no effect, and a blocked preset is never sent**, whatever the
parameter lists.  In every state of every run, a request that is to be refused is
answered once, with success = false, and leaves the bridge as it was; the requests
sent for the mode service are steps of presets that the parameter does not name; and
the run without the refused requests is a run of the bridge too, step for step. -/
theorem refusals_without_effect (nl : Nlohmann) (presets : Presets) (wait : Bool)
    (blocked : List String) (timeoutMs : Int) (hnone : presets.lookup blockNothing = none)
    {tr : SportTrace} {s : SportState}
    (h : SportRun nl (.ofParameters presets wait blocked) timeoutMs tr s) :
    (∀ e clk, RefusedRequest presets wait blocked s.host e →
      ∃ r resp, e.received = [(resp.service, r)] ∧ resp.success = false ∧
        sportBridgeStep nl (.ofParameters presets wait blocked) s (e, clk) =
          some (s, [answered r resp])) ∧
    (∀ st ∈ tr, ∀ req entry, Out.published req entry ∈ st.out →
      (st.event.1.ofMode = true ∨ ∃ x, entry = some x ∧ x.callback = .step) →
      ∃ name steps, presets.lookup name = some steps ∧ name ∉ blocked ∧
        ∃ step ∈ steps, req.apiId = step.apiId ∧ nl.dump step.parameter = some req.parameter) ∧
    ∃ accepted : Step SportState (SportEvent × Clock) SportEmission → Bool,
      (∀ st, accepted st = true ↔ ¬ RefusedRequest presets wait blocked st.pre.host st.event.1) ∧
        SportRun nl (.ofParameters presets wait blocked) timeoutMs (tr.filter accepted) s := by
  refine ⟨?_, ?_, letThrough (.ofParameters presets wait blocked), ?_, h.accepted_only⟩
  · intro e clk href
    obtain ⟨⟨r, resp⟩, hr⟩ := Option.isSome_iff_exists.mp ((refusedRequest_iff hnone).mp href)
    exact ⟨r, resp, SportEvent.refusal?_received hr, SportEvent.refusal?_failure hr,
      refused_step hr clk⟩
  · intro st hst req entry hp hmode
    obtain ⟨tr₁, tr₂, rfl⟩ := List.append_of_mem hst
    obtain ⟨name, steps, hl, hb, step, hstep, hapi, -, hd⟩ := SportRun.requests_allowed h hp (by
      refine hmode.imp_right ?_
      rintro ⟨x, rfl, hx⟩
      exact PendingRequest.isStep_iff.mpr hx)
    refine ⟨name, steps, hl, fun hin => hb ?_, step, hstep, hapi, hd⟩
    refine mem_blockedSet.mpr ⟨hin, ?_⟩
    rintro rfl
    rw [show presets.lookup blockNothing = some steps from hl] at hnone
    cases hnone
  · intro st
    rw [refusedRequest_iff hnone]
    unfold letThrough
    cases st.event.1.refusal? _ st.pre.host <;> simp

/-- A flip that is blocked, the two-step preset, and a mode refused while it runs. -/
def flipBlocked : SportTrace × SportState :=
  execute (sportBridgeStep .small (.ofParameters initPresets true ["none", "back_flip"])) (.start 2000)
    [(.mode ⟨[], 1⟩ "back_flip", .at 5 0), (.mode ⟨[], 2⟩ "stand_down_damp", .at 5 0),
      (.mode ⟨[], 3⟩ "hello", .at 5 0)]

example : (answersIn (history flipBlocked.1), publishedIds (history flipBlocked.1)) =
    ([(.mode, ⟨[], 1⟩), (.mode, ⟨[], 3⟩)], [5]) := by decide

theorem refusals_without_effect_flipBlocked :
    flipBlocked.1.length = 3 ∧
      ∃ r resp, (SportEvent.mode ⟨[], 4⟩ "back_flip").received = [(resp.service, r)] ∧
        resp.success = false ∧
        sportBridgeStep .small (.ofParameters initPresets true ["none", "back_flip"]) flipBlocked.2
          (.mode ⟨[], 4⟩ "back_flip", .at 9 0) = some (flipBlocked.2, [answered r resp]) :=
  ⟨rfl, (refusals_without_effect .small initPresets true ["none", "back_flip"] 2000 (by decide)
    (Run.execute _ _ _)).1 _ _ (.blockedMode (by decide))⟩

end Go2
