import Go2Driver.DriverLaws

/-!
# An odometry message takes effect as a whole, or not at all

`odomCallback` has two outputs and one recorded stamp.  The transforms go out
before the stamp is made a `rclcpp::Time`, which throws for negative seconds: then
the transforms are out, the recorded stamp is the old one and no odometry follows.
A callback is all or nothing exactly where that does not happen (`StampTaken`), and
the recorded stamp is the one of the last broadcast in every state of a run exactly
where it does not happen in the run (`odom_all_or_nothing`).
-/

namespace Go2

open Runs

section
variable {R : Type} (cfg : DriverConfig R)

/-- The transforms and the odometry of one message, all under `stamp`, and `stamp` recorded. -/
def WholeEffect (stamp : Stamp) (st : Step DriverState (DriverEvent R × RosTime) (DriverOut R)) :
    Prop :=
  (if cfg.publishTf then
    (∃ a b, broadcasts st.out = [[a, b]] ∧ a.stamp = stamp ∧ b.stamp = stamp) ∧
      RosTime.ofStamp stamp = .ok st.post.lastTfStamp
  else broadcasts st.out = [] ∧ st.post = st.pre) ∧
  (if cfg.publishOdom then ∃ msg, odometries st.out = [msg] ∧ msg.stamp = stamp
  else odometries st.out = [])

def NoEffect (st : Step DriverState (DriverEvent R × RosTime) (DriverOut R)) : Prop :=
  broadcasts st.out = [] ∧ odometries st.out = [] ∧ st.post = st.pre

/-- The stamp of the event's odometry message, if its transforms are broadcast, is a time. -/
def StampTaken : DriverEvent R × RosTime → Prop
  | (.odom msg, now) => cfg.publishTf = true → 0 ≤ (resolveStamp cfg now msg.stamp).sec.toInt
  | (.lidar _, _) | (.lowState _, _) => True

/-- `last_tf_stamp_` is the stamp of the most recent broadcast of the history `L`, and
zero before the first. -/
def Recorded (L : List (DriverOut R)) (s : DriverState) : Prop :=
  match lastBroadcast L with
  | none => s.lastTfStamp = ⟨0⟩
  | some stamp => RosTime.ofStamp stamp = .ok s.lastTfStamp

theorem odometries_odomOut [Add R] (stamp : Stamp) (msg : Odometry R) :
    odometries (odomOut cfg stamp msg) = if cfg.publishOdom then [republished cfg stamp msg] else [] := by
  unfold odomOut
  split <;> rfl

variable [Add R] [Zero R] {tf2 : Tf2 R} {cfg}
  {s s' : DriverState} {e : DriverEvent R × RosTime} {out : List (DriverOut R)}

omit [Zero R] in
/-- The odometry of a message goes out whole under its stamp. -/
theorem odometry_whole (stamp : Stamp) (msg : Odometry R) :
    if cfg.publishOdom then ∃ o, odometries (odomOut cfg stamp msg) = [o] ∧ o.stamp = stamp
    else odometries (odomOut cfg stamp msg) = [] := by
  rw [odometries_odomOut]
  split
  · exact ⟨_, rfl, rfl⟩
  · rfl

/-- One message: all or nothing exactly where its stamp is a time, if transforms are broadcast. -/
theorem DriverTransition.allOrNothing_iff {msg : Odometry R} {now : RosTime}
    (h : DriverTransition cfg tf2 s (.odom msg, now) s' out) :
    WholeEffect cfg (resolveStamp cfg now msg.stamp) ⟨s, (.odom msg, now), out, s'⟩ ∨
      NoEffect ⟨s, (.odom msg, now), out, s'⟩ ↔ StampTaken cfg (.odom msg, now) := by
  cases h with
  | odomSilent msg now htf =>
    constructor
    · intro _ htrue
      rw [htf] at htrue
      cases htrue
    · intro _
      left
      refine ⟨?_, odometry_whole _ msg⟩
      rw [if_neg (by simp [htf])]
      exact ⟨broadcasts_odomOut cfg _ msg, rfl⟩
  | odomDone msg now htf hs =>
    constructor
    · intro _ _
      exact hs
    · intro _
      left
      refine ⟨?_, odometry_whole _ msg⟩
      have hb : broadcasts (.transforms (transformsOf cfg tf2 (resolveStamp cfg now msg.stamp) msg) ::
          odomOut cfg (resolveStamp cfg now msg.stamp) msg) =
            [transformsOf cfg tf2 (resolveStamp cfg now msg.stamp) msg] := by
        rw [← List.singleton_append, broadcasts_append, broadcasts_odomOut]
        rfl
      rw [if_pos htf]
      exact ⟨⟨_, _, hb, rfl, rfl⟩, RosTime.ofStamp_ok hs⟩
  | odomThrew msg now htf hs =>
    constructor
    · rintro (⟨hwhole, _⟩ | ⟨hnone, _⟩)
      · rw [if_pos htf, RosTime.ofStamp_error hs] at hwhole
        cases hwhole.2
      · cases hnone
    · intro htaken
      have := htaken htf
      omega

/-- After a callback the recorded stamp is the last one broadcast, where it was before and
the stamp of the event is a time; and only there. -/
theorem DriverTransition.recorded_iff {L : List (DriverOut R)} (hr : Recorded L s)
    (h : DriverTransition cfg tf2 s e s' out) : Recorded (L ++ out) s' ↔ StampTaken cfg e := by
  have hsame : DriverEvent.broadcast cfg e = [] → s' = s → Recorded (L ++ out) s' := by
    intro hb hs
    unfold Recorded
    rw [lastBroadcast_append_of_none (h.broadcastStamps.trans hb), hs]
    exact hr
  have hone : ∀ stamp, DriverEvent.broadcast cfg e = [stamp] →
      (Recorded (L ++ out) s' ↔ RosTime.ofStamp stamp = .ok s'.lastTfStamp) := by
    intro stamp hb
    unfold Recorded
    rw [lastBroadcast_append_of_one (h.broadcastStamps.trans hb)]
  cases h with
  | odomSilent msg now htf =>
    refine iff_of_true (hsame (if_neg (by simp [htf])) rfl) ?_
    intro htrue
    rw [htf] at htrue
    cases htrue
  | odomDone msg now htf hs =>
    rw [hone _ (if_pos htf)]
    exact iff_of_true (RosTime.ofStamp_ok hs) fun _ => hs
  | odomThrew msg now htf hs =>
    rw [hone _ (if_pos htf), RosTime.ofStamp_error hs]
    constructor
    · intro hok
      cases hok
    · intro htaken
      have := htaken htf
      omega
  | lidarDone msg now hs => exact iff_of_true (hsame rfl rfl) trivial
  | lidarThrew msg now hl hs => exact iff_of_true (hsame rfl rfl) trivial
  | lowState msg now => exact iff_of_true (hsame rfl rfl) trivial

variable {tr : DriverTrace R}

/-- While every stamp is a time, the recorded stamp is the last one broadcast. -/
theorem DriverRun.recorded (h : DriverRun cfg tf2 tr s) (ht : ∀ st ∈ tr, StampTaken cfg st.event) :
    Recorded (history tr) s := by
  refine Run.historyInvariant Recorded (fun _ e => StampTaken cfg e) rfl ?_ h ht
  intro L s e s' out hr htaken hstep
  exact ((driverStep_transition cfg tf2 hstep).recorded_iff hr).mpr htaken

/-- A run in whose every state the last broadcast is recorded took no stamp that is no time. -/
theorem DriverRun.stamps_taken (h : DriverRun cfg tf2 tr s)
    (hr : ∀ tr₁ tr₂ t, tr = tr₁ ++ tr₂ → DriverRun cfg tf2 tr₁ t → Recorded (history tr₁) t) :
    ∀ st ∈ tr, StampTaken cfg st.event := by
  intro st hst
  obtain ⟨tr₁, tr₂, rfl⟩ := List.append_of_mem hst
  obtain ⟨hpre, hstep, -⟩ := Run.split h
  have hbefore : Recorded (history tr₁) st.pre := hr tr₁ (st :: tr₂) st.pre rfl hpre
  have hafter := hr (tr₁ ++ [st]) tr₂ st.post (List.append_cons _ _ _) (Run.snoc_iff.mpr ⟨hpre, hstep, rfl⟩)
  rw [history_snoc] at hafter
  exact ((driverStep_transition cfg tf2 hstep).recorded_iff hbefore).mp hafter

end

/-- **When an odometry message is all or nothing.**  One `odomCallback` takes its whole
effect or none exactly if its stamp is a time or no transforms are broadcast.  In every
state of a run the recorded stamp is the one last broadcast, exactly if that holds of
every odometry message of the run. -/
theorem odom_all_or_nothing {R : Type} [Add R] [Zero R] (cfg : DriverConfig R) (tf2 : Tf2 R) :
    (∀ s msg now s' out, driverStep cfg tf2 s (.odom msg, now) = some (s', out) →
      (WholeEffect cfg (resolveStamp cfg now msg.stamp) ⟨s, (.odom msg, now), out, s'⟩ ∨
        NoEffect ⟨s, (.odom msg, now), out, s'⟩ ↔
          (cfg.publishTf = true → 0 ≤ (resolveStamp cfg now msg.stamp).sec.toInt))) ∧
    (∀ tr s, DriverRun cfg tf2 tr s →
      ((∀ tr₁ tr₂ t, tr = tr₁ ++ tr₂ → DriverRun cfg tf2 tr₁ t → Recorded (history tr₁) t) ↔
        ∀ st ∈ tr, StampTaken cfg st.event)) := by
  constructor
  · intro s msg now s' out h
    exact (driverStep_transition cfg tf2 h).allOrNothing_iff
  · intro tr s h
    constructor
    · exact h.stamps_taken
    · intro ht tr₁ tr₂ t htr h₁
      apply h₁.recorded
      intro st hst
      exact ht st (htr ▸ List.mem_append_left _ hst)

/-- Two messages a second apart. -/
def twoOdoms : DriverTrace Int × DriverState :=
  execute (driverStep (.defaults Int) .level) .start
    [(.odom (.level ⟨7, 0⟩), ⟨0⟩), (.odom (.level ⟨8, 0⟩), ⟨0⟩)]

theorem odom_all_or_nothing_twoOdoms :
    (∃ s' out, driverStep (.defaults Int) .level .start (.odom (.level ⟨7, 0⟩), ⟨0⟩) = some (s', out) ∧
      (WholeEffect (.defaults Int) ⟨7, 0⟩ ⟨.start, (.odom (.level ⟨7, 0⟩), ⟨0⟩), out, s'⟩ ∨
        NoEffect ⟨.start, (.odom (.level ⟨7, 0⟩), ⟨0⟩), out, s'⟩)) ∧
    twoOdoms.1.length = 2 ∧ Recorded (history twoOdoms.1) twoOdoms.2 := by
  have hrun : DriverRun (.defaults Int) .level twoOdoms.1 twoOdoms.2 := Run.execute _ _ _
  obtain ⟨hone, hall⟩ := odom_all_or_nothing (.defaults Int) .level
  refine ⟨⟨_, _, rfl, ?_⟩, rfl, ?_⟩
  · apply (hone _ _ _ _ _ rfl).mpr
    intro _
    decide
  · refine (hall _ _ hrun).mpr ?_ twoOdoms.1 [] _ (List.append_nil _).symm hrun
    exact List.forall_mem_cons.mpr ⟨fun _ => by decide, List.forall_mem_singleton.mpr fun _ => by decide⟩

/-- A message whose seconds are negative, on a new node. -/
def negativeOdom : DriverTrace Int × DriverState :=
  execute (driverStep (.defaults Int) .level) .start [(.odom (.level ⟨-1, 0⟩), ⟨0⟩)]

/-- The transforms are out, the recorded stamp is not theirs, and no odometry follows. -/
theorem odom_half_done :
    (∃ st ∈ negativeOdom.1, st.event = (.odom (.level ⟨-1, 0⟩), ⟨0⟩) ∧
      broadcastStamps st.out = [⟨-1, 0⟩] ∧ odometries st.out = [] ∧ st.post = st.pre ∧
      ¬ (WholeEffect (.defaults Int) ⟨-1, 0⟩ st ∨ NoEffect st)) ∧
    DriverRun (.defaults Int) .level negativeOdom.1 negativeOdom.2 ∧
    ¬ Recorded (history negativeOdom.1) negativeOdom.2 := by
  refine ⟨⟨_, List.mem_of_getElem? (i := 0) rfl, rfl, rfl, rfl, rfl, ?_⟩, Run.execute _ _ _, ?_⟩
  · rintro (⟨⟨-, hrec⟩, -⟩ | ⟨hnone, -⟩)
    · cases hrec
    · cases hnone
  · intro hrec
    cases hrec

end Go2
