import Go2Driver.Driver

/-!
# Laws of the driver: one equation a callback

What `publishLidar` and `odomCallback` leave behind, in terms of the state before.
Later proofs use these and do not unfold the callbacks.

* `Stamp.total_toStamp`: a stamp taken to a time and back.
* `publishLidar_leave`, `odomCallback_leave`: the callbacks, with their exceptions.
* `driverStep_transition`: each way a callback can end.
* `broadcasts`, `odometries`, `clouds`, `lastBroadcast`: what a history records.
-/

namespace Go2

open Runs DriverM

/-! ## Stamps -/

/-- A stamp in normal form is negative exactly where its seconds are. -/
theorem Stamp.sec_nonneg {s : Stamp} (hn : s.nanosec.toNat < 1000000000) (h : 0 < s.total) :
    0 ≤ s.sec.toInt := by
  unfold Stamp.total at h
  omega

theorem RosTime.ofStamp_ok {s : Stamp} (h : 0 ≤ s.sec.toInt) : RosTime.ofStamp s = .ok ⟨s.total⟩ := by
  unfold RosTime.ofStamp
  rw [if_neg (by omega)]

theorem RosTime.ofStamp_error {s : Stamp} (h : s.sec.toInt < 0) :
    RosTime.ofStamp s = .error .negativeTime := if_pos h

/-- A stamp in normal form comes back from the time it stands for, bit by bit. -/
theorem Stamp.total_toStamp {s : Stamp} (hn : s.nanosec.toNat < 1000000000) :
    RosTime.toStamp ⟨s.total⟩ = s := by
  have hsec : s.total / 1000000000 = s.sec.toInt := by
    unfold Stamp.total
    omega
  have hnano : (s.total % 1000000000).toNat = s.nanosec.toNat := by
    unfold Stamp.total
    omega
  unfold RosTime.toStamp
  rw [hsec, hnano, Int32.ofInt_toInt, UInt32.ofNat_toNat]

theorem RosTime.toStamp_nanosec (t : RosTime) : t.toStamp.nanosec.toNat < 1000000000 := by
  unfold RosTime.toStamp
  rw [UInt32.toNat_ofNat']
  omega

/-! ## Programs -/

namespace DriverM

variable {R α β : Type}

/-- How a program ends, and the node after it. -/
def exec (m : DriverM R α) (d : Driver R) : Except TimeFault α × Driver R := m.run.run d

@[simp] theorem exec_pure (a : α) (d : Driver R) : exec (pure a) d = (.ok a, d) := rfl

@[simp] theorem exec_get (d : Driver R) : exec get d = (.ok d, d) := rfl

@[simp] theorem exec_emit (o : DriverOut R) (d : Driver R) :
    exec (emit o) d = (.ok (), { d with out := d.out ++ [o] }) := rfl

@[simp] theorem exec_setLastTfStamp (t : RosTime) (d : Driver R) :
    exec (setLastTfStamp t) d = (.ok (), { d with lastTfStamp := t }) := rfl

@[simp] theorem exec_ofExcept (x : Except TimeFault α) (d : Driver R) :
    exec (ofExcept x) d = (x, d) := by
  cases x <;> rfl

/-- After an exception nothing more is done. -/
@[simp] theorem exec_bind (m : DriverM R α) (k : α → DriverM R β) (d : Driver R) :
    exec (m >>= k) d = match exec m d with
      | (.ok a, d') => exec (k a) d'
      | (.error f, d') => (.error f, d') := by
  show StateT.bind m (ExceptT.bindCont k) d = _
  unfold StateT.bind exec
  show ExceptT.bindCont k (m.run.run d).1 (m.run.run d).2 = _
  rcases m.run.run d with ⟨f | a, d'⟩ <;> rfl

theorem leave_eq (m : DriverM R Unit) (s : DriverState) :
    m.leave s = match exec m ⟨s, []⟩ with
      | (.ok (), d) => (d.toDriverState, d.out)
      | (.error f, d) => (d.toDriverState, d.out ++ [.threw f]) := rfl

end DriverM

/-! ## The callbacks -/

section
variable {R : Type} (cfg : DriverConfig R)

/-- The stamp a cloud is published with. -/
def clampStamp (last : RosTime) (stamp : Stamp) : Stamp :=
  if 0 < last.nanoseconds ∧ last.nanoseconds < stamp.total then last.toStamp else stamp

/-- The report on a cloud that leads the last transform by much. -/
def staleWarning (last : RosTime) (stamp : Stamp) : List (DriverOut R) :=
  if 0 < last.nanoseconds ∧ staleTfWarnNs < stamp.total - last.nanoseconds then
    [.staleTf (stamp.total - last.nanoseconds) cfg.inputOdomTopic]
  else []

theorem publishLidar_leave (now : RosTime) (msg : PointCloud2) (s : DriverState) :
    (publishLidar cfg now msg).leave s =
      let stamp := resolveStamp cfg now msg.stamp
      if 0 < s.lastTfStamp.nanoseconds ∧ stamp.sec.toInt < 0 then (s, [.threw .negativeTime])
      else (s, staleWarning cfg s.lastTfStamp stamp ++ [.cloud { msg with
        stamp := clampStamp s.lastTfStamp stamp, frameId := cfg.pointcloudFrame }]) := by
  unfold publishLidar clampStamp staleWarning
  rw [leave_eq]
  generalize resolveStamp cfg now msg.stamp = stamp
  by_cases hl : 0 < s.lastTfStamp.nanoseconds
  · by_cases hs : stamp.sec.toInt < 0
    · simp [hl, hs, RosTime.ofStamp_error hs]
    · have hok := RosTime.ofStamp_ok (s := stamp) (by omega)
      by_cases hlead : s.lastTfStamp.nanoseconds < stamp.total
      · by_cases hw : staleTfWarnNs < stamp.total - s.lastTfStamp.nanoseconds
        · simp [hl, hs, hok, hlead, hw]
        · simp [hl, hs, hok, hlead, hw]
      · have hw : ¬ staleTfWarnNs < stamp.total - s.lastTfStamp.nanoseconds := by
          unfold staleTfWarnNs
          omega
        simp [hl, hs, hok, hlead, hw]
  · simp [hl]

variable [Add R] [Zero R] (tf2 : Tf2 R)

/-- The pair of transforms of an odometry message. -/
def transformsOf (stamp : Stamp) (msg : Odometry R) : List (TransformStamped R) :=
  let rpy := tf2.getRPY msg.pose.orientation
  [makeTransform stamp cfg.odomFrame cfg.baseFootprintFrame msg.pose.position.x msg.pose.position.y 0
      (tf2.normalize (tf2.setRPY 0 0 rpy.2.2)),
    makeTransform stamp cfg.baseFootprintFrame cfg.baseLinkFrame 0 0
      (msg.pose.position.z + cfg.bodyZOffset) (tf2.normalize (tf2.setRPY rpy.1 rpy.2.1 0))]

/-- The odometry message that is published for one that was received. -/
def republished (stamp : Stamp) (msg : Odometry R) : Odometry R where
  stamp
  frameId := cfg.odomFrame
  childFrameId := cfg.baseLinkFrame
  pose := { msg.pose with
    position := { msg.pose.position with z := msg.pose.position.z + cfg.bodyZOffset } }
  poseCovariance := fillDiagonal poseCovarianceDiagonal
  twist := msg.twist
  twistCovariance := fillDiagonal twistCovarianceDiagonal

/-- `publish_odom_`'s part. -/
def odomOut (stamp : Stamp) (msg : Odometry R) : List (DriverOut R) :=
  if cfg.publishOdom then [.odometry (republished cfg stamp msg)] else []

theorem odomCallback_leave (now : RosTime) (msg : Odometry R) (s : DriverState) :
    (odomCallback cfg tf2 now msg).leave s =
      let stamp := resolveStamp cfg now msg.stamp
      if cfg.publishTf = false then (s, odomOut cfg stamp msg)
      else if stamp.sec.toInt < 0 then (s, [.transforms (transformsOf cfg tf2 stamp msg), .threw .negativeTime])
      else (⟨⟨stamp.total⟩⟩, .transforms (transformsOf cfg tf2 stamp msg) :: odomOut cfg stamp msg) := by
  unfold odomCallback odomOut transformsOf republished
  rw [leave_eq]
  generalize resolveStamp cfg now msg.stamp = stamp
  cases htf : cfg.publishTf with
  | false => cases hodom : cfg.publishOdom <;> simp
  | true =>
    by_cases hs : stamp.sec.toInt < 0
    · simp [hs, RosTime.ofStamp_error hs]
    · have hok := RosTime.ofStamp_ok (s := stamp) (by omega)
      cases hodom : cfg.publishOdom <;> simp [hs, hok]

end

/-! ## What a history records -/

section
variable {R : Type}

def broadcasts (L : List (DriverOut R)) : List (List (TransformStamped R)) :=
  L.filterMap fun
    | .transforms tfs => some tfs
    | _ => none

def odometries (L : List (DriverOut R)) : List (Odometry R) :=
  L.filterMap fun
    | .odometry msg => some msg
    | _ => none

def clouds (L : List (DriverOut R)) : List PointCloud2 :=
  L.filterMap fun
    | .cloud msg => some msg
    | _ => none

/-- The stamps of the transforms that were broadcast, one a broadcast. -/
def broadcastStamps (L : List (DriverOut R)) : List Stamp :=
  (broadcasts L).filterMap fun tfs => tfs.head?.map (·.stamp)

/-- The stamp of the most recent broadcast. -/
def lastBroadcast (L : List (DriverOut R)) : Option Stamp := (broadcastStamps L).getLast?

theorem broadcasts_append (L L' : List (DriverOut R)) :
    broadcasts (L ++ L') = broadcasts L ++ broadcasts L' := List.filterMap_append

theorem clouds_append (L L' : List (DriverOut R)) : clouds (L ++ L') = clouds L ++ clouds L' :=
  List.filterMap_append

theorem broadcastStamps_append (L L' : List (DriverOut R)) :
    broadcastStamps (L ++ L') = broadcastStamps L ++ broadcastStamps L' := by
  unfold broadcastStamps
  rw [broadcasts_append, List.filterMap_append]

/-- What broadcasts nothing leaves the most recent broadcast as it was. -/
theorem lastBroadcast_append_of_none {L L' : List (DriverOut R)} (h : broadcastStamps L' = []) :
    lastBroadcast (L ++ L') = lastBroadcast L := by
  unfold lastBroadcast
  rw [broadcastStamps_append, h, List.append_nil]

theorem lastBroadcast_append_of_one {L L' : List (DriverOut R)} {stamp : Stamp}
    (h : broadcastStamps L' = [stamp]) : lastBroadcast (L ++ L') = some stamp := by
  unfold lastBroadcast
  rw [broadcastStamps_append, h, List.getLast?_concat]

variable (cfg : DriverConfig R)

theorem broadcasts_odomOut [Add R] (stamp : Stamp) (msg : Odometry R) :
    broadcasts (odomOut cfg stamp msg) = [] := by
  unfold odomOut
  split <;> rfl

theorem clouds_odomOut [Add R] (stamp : Stamp) (msg : Odometry R) :
    clouds (odomOut cfg stamp msg) = [] := by
  unfold odomOut
  split <;> rfl

theorem broadcasts_staleWarning (last : RosTime) (stamp : Stamp) :
    broadcasts (staleWarning cfg last stamp) = [] := by
  unfold staleWarning
  split <;> rfl

theorem clouds_staleWarning (last : RosTime) (stamp : Stamp) :
    clouds (staleWarning cfg last stamp) = [] := by
  unfold staleWarning
  split <;> rfl

end

/-! ## Steps -/

section
variable {R : Type} [Add R] [Zero R] (cfg : DriverConfig R) (tf2 : Tf2 R)

/-- Each way a callback can end, with the state it leaves and what it lets out. -/
inductive DriverTransition (s : DriverState) :
    DriverEvent R × RosTime → DriverState → List (DriverOut R) → Prop
  | odomSilent (msg : Odometry R) (now : RosTime) : cfg.publishTf = false →
      DriverTransition s (.odom msg, now) s (odomOut cfg (resolveStamp cfg now msg.stamp) msg)
  | odomDone (msg : Odometry R) (now : RosTime) : cfg.publishTf = true →
      0 ≤ (resolveStamp cfg now msg.stamp).sec.toInt →
      DriverTransition s (.odom msg, now) ⟨⟨(resolveStamp cfg now msg.stamp).total⟩⟩
        (.transforms (transformsOf cfg tf2 (resolveStamp cfg now msg.stamp) msg) ::
          odomOut cfg (resolveStamp cfg now msg.stamp) msg)
  | odomThrew (msg : Odometry R) (now : RosTime) : cfg.publishTf = true →
      (resolveStamp cfg now msg.stamp).sec.toInt < 0 →
      DriverTransition s (.odom msg, now) s
        [.transforms (transformsOf cfg tf2 (resolveStamp cfg now msg.stamp) msg), .threw .negativeTime]
  | lidarDone (msg : PointCloud2) (now : RosTime) :
      (0 < s.lastTfStamp.nanoseconds → 0 ≤ (resolveStamp cfg now msg.stamp).sec.toInt) →
      DriverTransition s (.lidar msg, now) s
        (staleWarning cfg s.lastTfStamp (resolveStamp cfg now msg.stamp) ++ [.cloud { msg with
          stamp := clampStamp s.lastTfStamp (resolveStamp cfg now msg.stamp)
          frameId := cfg.pointcloudFrame }])
  | lidarThrew (msg : PointCloud2) (now : RosTime) : 0 < s.lastTfStamp.nanoseconds →
      (resolveStamp cfg now msg.stamp).sec.toInt < 0 →
      DriverTransition s (.lidar msg, now) s [.threw .negativeTime]
  | lowState (msg : LowState R) (now : RosTime) :
      DriverTransition s (.lowState msg, now) s
        [.jointStates ⟨now.toStamp, jointNames, motorStateIndex.map msg.motorState⟩]

theorem driverStep_transition {s s' : DriverState} {e : DriverEvent R × RosTime}
    {out : List (DriverOut R)} (h : driverStep cfg tf2 s e = some (s', out)) :
    DriverTransition cfg tf2 s e s' out := by
  unfold driverStep at h
  rw [Option.some.injEq] at h
  obtain ⟨e, now⟩ := e
  cases e with
  | odom msg =>
    simp only [DriverEvent.callback, odomCallback_leave] at h
    by_cases htf : cfg.publishTf = false
    · rw [if_pos htf, Prod.mk.injEq] at h
      obtain ⟨rfl, rfl⟩ := h
      exact .odomSilent msg now htf
    · rw [if_neg htf] at h
      have htrue : cfg.publishTf = true := by simpa using htf
      by_cases hs : (resolveStamp cfg now msg.stamp).sec.toInt < 0
      · rw [if_pos hs, Prod.mk.injEq] at h
        obtain ⟨rfl, rfl⟩ := h
        exact .odomThrew msg now htrue hs
      · rw [if_neg hs, Prod.mk.injEq] at h
        obtain ⟨rfl, rfl⟩ := h
        exact .odomDone msg now htrue (by omega)
  | lidar msg =>
    simp only [DriverEvent.callback, publishLidar_leave] at h
    split at h
    · next hthrow =>
      rw [Prod.mk.injEq] at h
      obtain ⟨rfl, rfl⟩ := h
      exact .lidarThrew msg now hthrow.1 hthrow.2
    · next hdone =>
      rw [Prod.mk.injEq] at h
      obtain ⟨rfl, rfl⟩ := h
      apply DriverTransition.lidarDone
      intro hl
      omega
  | lowState msg =>
    rw [Prod.mk.injEq] at h
    obtain ⟨rfl, rfl⟩ := h
    exact .lowState msg now

/-- The stamps an event broadcasts transforms with, whether its callback returns or not. -/
def DriverEvent.broadcast : DriverEvent R × RosTime → List Stamp
  | (.odom msg, now) => if cfg.publishTf then [resolveStamp cfg now msg.stamp] else []
  | (.lidar _, _) | (.lowState _, _) => []

variable {cfg tf2} {s s' : DriverState} {e : DriverEvent R × RosTime} {out : List (DriverOut R)}

theorem DriverTransition.broadcastStamps (h : DriverTransition cfg tf2 s e s' out) :
    broadcastStamps out = DriverEvent.broadcast cfg e := by
  cases h with
  | odomSilent msg now htf =>
    unfold Go2.broadcastStamps DriverEvent.broadcast
    rw [broadcasts_odomOut, htf]
    rfl
  | odomDone msg now htf hs =>
    unfold Go2.broadcastStamps DriverEvent.broadcast
    rw [← List.singleton_append, broadcasts_append, broadcasts_odomOut, htf]
    rfl
  | odomThrew msg now htf hs =>
    unfold DriverEvent.broadcast
    rw [htf]
    rfl
  | lidarDone msg now hs =>
    unfold Go2.broadcastStamps
    rw [broadcasts_append, broadcasts_staleWarning]
    rfl
  | lidarThrew msg now hl hs => rfl
  | lowState msg now => rfl

end

end Go2
