import Go2Driver.CallAtomic
import Go2Driver.Sweeps

/-!
# Without wait_for_response the robot is not listened to

Nothing is ever pending in a bridge that does not wait, so a reply finds no call and a
sweep has nothing to settle: a run without its replies and sweeps is a run to the same
state that lets out the same but for debug lines.  And nothing but a refusal is answered
with success = false (`robot_ignored`).
-/

namespace Go2

open Tables Runs SportBridge

/-- A reply, or a sweep. -/
def SportEvent.fromRobot : SportEvent → Bool
  | .response _ | .sweep _ => true
  | _ => false

def heard (st : Step SportState (SportEvent × Clock) SportEmission) : Bool := st.event.1.fromRobot

def Out.isDebug {κ ω : Type} : Out κ ω → Bool
  | .log .debug _ => true
  | _ => false

section
variable {nl : Nlohmann} {cfg : SportConfig} {s s' : SportState} {e : SportEvent × Clock}
  {out : List SportEmission}

/-- A bridge that does not wait registers no call. -/
theorem Transition.nonePending (ht : Transition nl cfg s e s' out) (hw : cfg.waitForResponse = false)
    (hs : s.client.pending.entries = []) : s'.client.pending.entries = [] := by
  have hadv : ∀ {s₁ : SportState} {run : SequenceRun} {r : Reading}, Advance nl cfg s₁ run r s' out →
      s₁.client = s.client → s'.client.pending.entries = [] := by
    intro s₁ run r hadv hclient
    rw [← hclient] at hs
    cases hadv with
    | sent _ hw' _ _ => rw [hw] at hw'; cases hw'
    | _ => exact hs
  cases ht with
  | accepted _ hadv' => exact hadv hadv' rfl
  | fired _ _ hadv' => exact hadv hadv' rfl
  | sent _ hw' _ _ => rw [hw] at hw'; cases hw'
  | replied _ _ =>
    show (AList.erase _ _).entries = []
    rw [entries_erase, hs]
    rfl
  | stepAccepted _ _ _ _ _ _ =>
    show (AList.erase _ _).entries = []
    rw [entries_erase, hs]
    rfl
  | stepFailed _ _ _ _ _ =>
    show (AList.erase _ _).entries = []
    rw [entries_erase, hs]
    rfl
  | swept =>
    show (UnitreeApiClient.kept _ _ _).entries = []
    rw [UnitreeApiClient.entries_kept, hs]
    rfl
  | _ => exact hs

/-- With nothing pending, a reply and a sweep change nothing. -/
theorem Transition.unheard (ht : Transition nl cfg s e s' out) (hs : s.client.pending.entries = [])
    (he : e.1.fromRobot = true) : s' = s ∧ out.filter (!·.isDebug) = [] := by
  have hlookup : ∀ {id : Int} {entry : PendingRequest Callback},
      s.client.pending.lookup id = some entry → False := by
    intro id entry hl
    have hm := lookup_eq_some_iff.mp hl
    rw [hs] at hm
    cases hm
  obtain ⟨e, clk⟩ := e
  cases e with
  | response msg =>
    cases ht with
    | foreign _ => exact ⟨rfl, rfl⟩
    | replied hl _ => exact (hlookup hl).elim
    | stepAccepted hl _ _ _ _ _ => exact (hlookup hl).elim
    | stepFailed hl _ _ _ _ => exact (hlookup hl).elim
    | refused hr => cases hr
    | accepted hacc _ => cases hacc
    | notSent hq _ _ => cases hq
    | sent hq _ _ _ => cases hq
    | atOnce hq _ _ => cases hq
  | sweep order =>
    cases ht with
    | swept =>
      have hexp := UnitreeApiClient.expired_of_empty hs
      simp only [UnitreeApiClient.kept, hexp]
      exact ⟨rfl, rfl⟩
    | refused hr => cases hr
    | accepted hacc _ => cases hacc
    | notSent hq _ _ => cases hq
    | sent hq _ _ _ => cases hq
    | atOnce hq _ _ => cases hq
  | _ => cases he

/-- An event that is not the robot's lets out no debug line. -/
theorem Transition.loud (ht : Transition nl cfg s e s' out) (hw : cfg.waitForResponse = false)
    (he : e.1.fromRobot = false) : out.filter (!·.isDebug) = out := by
  rw [List.filter_eq_self]
  intro o ho
  have hadv : ∀ {s₁ run r}, Advance nl cfg s₁ run r s' out → (!o.isDebug) = true := by
    intro s₁ run r hadv
    cases hadv with
    | finished _ =>
      rw [List.mem_singleton.mp ho]
      rfl
    | notSent _ hw' _ => rw [hw] at hw'; cases hw'
    | sent _ hw' _ _ => rw [hw] at hw'; cases hw'
    | atOnce _ _ _ _ =>
      simp only [List.mem_cons, List.not_mem_nil, or_false] at ho
      rcases ho with rfl | rfl | rfl <;> rfl
  cases ht with
  | refused _ =>
    rw [List.mem_singleton.mp ho]
    rfl
  | accepted _ hadv' => exact hadv hadv'
  | fired _ _ hadv' => exact hadv hadv'
  | notSent _ hw' _ => rw [hw] at hw'; cases hw'
  | sent _ hw' _ _ => rw [hw] at hw'; cases hw'
  | @atOnce _ _ q _ _ _ _ =>
    rcases List.mem_cons.mp ho with rfl | ho
    · rfl
    rcases List.mem_cons.mp ho with rfl | ho
    · rfl
    revert ho
    cases q.callback <;> simp only [Callback.report, failureLog] <;> simp +contextual [answered, Out.isDebug]
  | cmdVel _ =>
    rw [List.mem_singleton.mp ho]
    rfl
  | _ => cases he

/-- Nothing but a refusal is answered with a failure. -/
theorem Transition.failure_refused (ht : Transition nl cfg s e s' out) (hp : Phase s)
    (hw : cfg.waitForResponse = false) (hs : s.client.pending.entries = []) {r : RequestId}
    {resp : SportResponse} (ha : .host (.answer r resp) ∈ out) (hfail : resp.success = false) :
    e.1.refusal? cfg s.host = some (r, resp) := by
  by_cases hrobot : e.1.fromRobot = true
  · have hquiet := (ht.unheard hs hrobot).2
    rw [List.filter_eq_nil_iff] at hquiet
    exact absurd rfl (hquiet _ ha)
  have hadv : ∀ {s₁ run rd}, Advance nl cfg s₁ run rd s' out → run.ok = true → False := by
    intro s₁ run rd hadv hok
    cases hadv with
    | finished _ =>
      cases List.mem_singleton.mp ha
      rw [SportResponse.success, hok] at hfail
      cases hfail
    | notSent _ hw' _ => rw [hw] at hw'; cases hw'
    | sent _ hw' _ _ => rw [hw] at hw'; cases hw'
    | atOnce _ _ _ _ => simp at ha
  cases ht with
  | refused hr =>
    cases List.mem_singleton.mp ha
    exact hr
  | accepted hacc hadv' => exact (hadv hadv' (SportEvent.accepted?_spec hacc).2.2.2.2.2.2.2).elim
  | fired harm hact hadv' =>
    obtain ⟨run, hact', -, -, hok, -⟩ := hp.active_of_armed harm
    rw [hact, Option.some.injEq] at hact'
    exact (hadv hadv' (hact' ▸ hok)).elim
  | notSent _ hw' _ => rw [hw] at hw'; cases hw'
  | sent _ hw' _ _ => rw [hw] at hw'; cases hw'
  | @atOnce ev _ q _ hq _ _ =>
    exfalso
    have ha : .host (.answer r resp) ∈ q.callback.report nl cfg ⟨true, 0, ""⟩ := by simpa using ha
    cases ev <;> simp only [SportEvent.serviceCall?, hw, Bool.not_false, if_true] at hq <;>
      repeat' split at hq
    all_goals first
      | cases hq; done
      | (simp only [Option.some.injEq] at hq; subst hq; simp [Callback.report, failureLog, answered] at ha)
    all_goals
      obtain ⟨-, rfl⟩ := ha
      cases hfail
  | cmdVel _ => simp at ha
  | _ => exact absurd rfl hrobot

variable {timeoutMs : Int} {s : SportState} {tr : SportTrace}

theorem SportRun.nonePending (h : SportRun nl cfg timeoutMs tr s) (hw : cfg.waitForResponse = false) :
    s.client.pending.entries = [] := by
  refine Run.traceInvariant (fun _ s => s.client.pending.entries = []) rfl ?_ h
  intro tr s e s' out hr hs he
  exact (sportBridgeStep_transition nl cfg (SportRun.phase hr) he).nonePending hw hs

/-- **A bridge that does not wait does not listen.**  Nothing is pending in any state; a
run without its replies and sweeps is a run to the same state that lets out the same but
for the debug lines; and an answer with success = false is a refusal. -/
theorem robot_ignored (hw : cfg.waitForResponse = false) (h : SportRun nl cfg timeoutMs tr s) :
    s.client.pending.entries = [] ∧
    SportRun nl cfg timeoutMs (tr.filter (!heard ·)) s ∧
    history (tr.filter (!heard ·)) = (history tr).filter (!·.isDebug) ∧
    ∀ st ∈ tr, ∀ r resp, Out.host (SportOut.answer r resp) ∈ st.out → resp.success = false →
      st.event.1.refusal? cfg st.pre.host = some (r, resp) := by
  refine ⟨h.nonePending hw, ?_⟩
  have hrun : SportRun nl cfg timeoutMs (tr.filter (!heard ·)) s ∧
      history (tr.filter (!heard ·)) = (history tr).filter (!·.isDebug) := by
    refine Run.traceInvariant (fun tr s => SportRun nl cfg timeoutMs (tr.filter (!heard ·)) s ∧
      history (tr.filter (!heard ·)) = (history tr).filter (!·.isDebug)) ⟨.nil, rfl⟩ ?_ h
    intro tr s e s' out hr ih he
    have ht := sportBridgeStep_transition nl cfg (SportRun.phase hr) he
    rw [List.filter_append, history_snoc, List.filter_append, ← ih.2]
    cases hrobot : e.1.fromRobot with
    | true =>
      obtain ⟨rfl, hquiet⟩ := ht.unheard (SportRun.nonePending hr hw) hrobot
      rw [List.filter_cons_of_neg (by simp [heard, hrobot]), List.filter_nil, List.append_nil, hquiet,
        List.append_nil]
      exact ⟨ih.1, rfl⟩
    | false =>
      rw [List.filter_cons_of_pos (by simp [heard, hrobot]), List.filter_nil, history_snoc, ht.loud hw hrobot]
      exact ⟨ih.1.snoc he, rfl⟩
  refine ⟨hrun.1, hrun.2, ?_⟩
  intro st hst r resp ha hfail
  obtain ⟨tr₁, tr₂, rfl⟩ := List.append_of_mem hst
  obtain ⟨hpre, ht⟩ := SportRun.transition h
  exact ht.failure_refused hpre.phase hw (hpre.nonePending hw) ha hfail

end

/-- A mode that the robot rejects, to a bridge that does not wait, and a sweep. -/
def rejectedHello : SportTrace × SportState :=
  execute (sportBridgeStep .small (.ofParameters initPresets false defaultBlockedModes)) (.start 2000)
    [(.mode ⟨[], 1⟩ "hello", .at 5 0), (.response ⟨5, 1016, 7, ""⟩, .at 0 0),
      (.sweep listOrder, .at 0 3000000000), (.timer, .at 9 0)]

example : answersOf SportOut.answer? (history rejectedHello.1) =
    [(⟨[], 1⟩, .mode true "mode hello: api_id=1016 published")] := by decide

theorem robot_ignored_rejectedHello :
    rejectedHello.1.length = 4 ∧ (rejectedHello.1.filter (!heard ·)).length = 2 ∧
      history (rejectedHello.1.filter (!heard ·)) = (history rejectedHello.1).filter (!·.isDebug) :=
  ⟨by decide, by decide, (robot_ignored rfl (Run.execute _ _ _)).2.2.1⟩

end Go2
