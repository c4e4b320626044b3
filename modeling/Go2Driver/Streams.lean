import Go2Driver.OdomAtomic

/-!
# Each output is made of its own input

The three subscriptions of the driver share one field, the stamp of the last transform,
and only the clouds read it.  So over every run the transforms and the odometry are made
of the odometry received, the joint states of the motor states, and the clouds, but for
their stamps, of the clouds received: nothing is invented or taken out of order, whatever
else arrives between, and only a stamp that is no time loses a message (`streams_separate`).
A joint's name leads to its own motor (`JointState.Names`).
-/

namespace Go2

open Runs

section
variable {R : Type}

def jointStatesIn (L : List (DriverOut R)) : List (JointState R) :=
  L.filterMap fun
    | .jointStates msg => some msg
    | _ => none

theorem jointStatesIn_append (L L' : List (DriverOut R)) :
    jointStatesIn (L ++ L') = jointStatesIn L ++ jointStatesIn L' := List.filterMap_append

theorem odometries_append (L L' : List (DriverOut R)) :
    odometries (L ++ L') = odometries L ++ odometries L' := List.filterMap_append

/-- A cloud without its stamp. -/
def PointCloud2.payload (c : PointCloud2) : String × List UInt8 := (c.frameId, c.data)

/-! ## What was received, and what is made of it -/

def DriverEvent.odometry? : DriverEvent R → Option (Odometry R)
  | .odom msg => some msg
  | _ => none

def DriverEvent.cloud? : DriverEvent R → Option PointCloud2
  | .lidar msg => some msg
  | _ => none

def DriverEvent.lowState? : DriverEvent R → Option (LowState R)
  | .lowState msg => some msg
  | _ => none

/-- The message of an event, if it is of one kind, with the clock as it was then. -/
def message {α : Type} (kind : DriverEvent R → Option α) (e : DriverEvent R × RosTime) :
    List (α × RosTime) := (kind e.1).toList.map (·, e.2)

def inputs {α : Type} (kind : DriverEvent R → Option α) (tr : DriverTrace R) : List (α × RosTime) :=
  tr.flatMap fun st => message kind st.event

variable (cfg : DriverConfig R)

def transformsFor [Add R] [Zero R] (tf2 : Tf2 R) (m : Odometry R × RosTime) :
    List (List (TransformStamped R)) :=
  if cfg.publishTf then [transformsOf cfg tf2 (resolveStamp cfg m.2 m.1.stamp) m.1] else []

/-- With the transforms on, a stamp that is no time takes the odometry with it. -/
def odometryFor [Add R] (m : Odometry R × RosTime) : List (Odometry R) :=
  if cfg.publishTf = true → 0 ≤ (resolveStamp cfg m.2 m.1.stamp).sec.toInt then
    odometries (odomOut cfg (resolveStamp cfg m.2 m.1.stamp) m.1)
  else []

def jointStatesFor (m : LowState R × RosTime) : List (JointState R) :=
  [⟨m.2.toStamp, jointNames, motorStateIndex.map m.1.motorState⟩]

def payloadFor (m : PointCloud2 × RosTime) : List (String × List UInt8) :=
  [(cfg.pointcloudFrame, m.1.data)]

/-! ## Joints -/

/-- The legs in Unitree's order. -/
def unitreeLegs : List String := ["FR", "FL", "RR", "RL"]

def legJoints : List String := ["hip", "thigh", "calf"]

/-- The name of the joint that the `i`-th motor turns. -/
def motorJoint (i : Fin 12) : String :=
  unitreeLegs.getD (i / 3) "" ++ "_" ++ legJoints.getD (i % 3) "" ++ "_joint"

/-- Where the `i`-th motor's angle is in a joint state. -/
theorem motorJoint_place : ∀ i : Fin 12, ∃ k : Fin 12, jointNames[k.val]? = some (motorJoint i) ∧
    motorStateIndex[k.val]? = some i.val := by
  decide

theorem jointNames_nodup : jointNames.Nodup := by decide

/-- The names and the angles of a joint state lead to the angle of the joint's own motor. -/
def JointState.Names (js : JointState R) (msg : LowState R) : Prop :=
  js.name.Nodup ∧ js.name.length = js.position.length ∧
    ∀ i : Fin 12, ∃ k : Nat, js.name[k]? = some (motorJoint i) ∧ js.position[k]? = some (msg.motorState i)

theorem jointStatesFor_names {m : LowState R × RosTime} {js : JointState R} (h : js ∈ jointStatesFor m) :
    js.Names m.1 := by
  obtain rfl := List.mem_singleton.mp h
  refine ⟨jointNames_nodup, rfl, ?_⟩
  intro i
  obtain ⟨k, hname, hmotor⟩ := motorJoint_place i
  refine ⟨k, hname, ?_⟩
  rw [List.getElem?_map, hmotor]
  rfl

/-! ## One callback, a run -/

theorem odometries_staleWarning (last : RosTime) (stamp : Stamp) :
    odometries (staleWarning cfg last stamp) = [] := by
  unfold staleWarning
  split <;> rfl

theorem jointStatesIn_staleWarning (last : RosTime) (stamp : Stamp) :
    jointStatesIn (staleWarning cfg last stamp) = [] := by
  unfold staleWarning
  split <;> rfl

theorem jointStatesIn_odomOut [Add R] (stamp : Stamp) (msg : Odometry R) :
    jointStatesIn (odomOut cfg stamp msg) = [] := by
  unfold odomOut
  split <;> rfl

variable [Add R] [Zero R] {cfg} {tf2 : Tf2 R} {s s' : DriverState} {e : DriverEvent R × RosTime}
  {out : List (DriverOut R)} {tr : DriverTrace R}

theorem DriverTransition.transforms_of (h : DriverTransition cfg tf2 s e s' out) :
    broadcasts out = (message DriverEvent.odometry? e).flatMap (transformsFor cfg tf2) := by
  cases h with
  | odomSilent msg now htf =>
    simp [message, DriverEvent.odometry?, transformsFor, broadcasts_odomOut, htf]
  | odomDone msg now htf hs =>
    rw [← List.singleton_append, broadcasts_append, broadcasts_odomOut]
    simp [message, DriverEvent.odometry?, transformsFor, broadcasts, htf]
  | odomThrew msg now htf hs => simp [message, DriverEvent.odometry?, transformsFor, broadcasts, htf]
  | lidarDone msg now hs =>
    rw [broadcasts_append, broadcasts_staleWarning]
    rfl
  | lidarThrew msg now hl hs => rfl
  | lowState msg now => rfl

theorem DriverTransition.odometry_of (h : DriverTransition cfg tf2 s e s' out) :
    odometries out = (message DriverEvent.odometry? e).flatMap (odometryFor cfg) := by
  cases h with
  | odomSilent msg now htf => simp [message, DriverEvent.odometry?, odometryFor, htf]
  | odomDone msg now htf hs =>
    rw [← List.singleton_append, odometries_append]
    simp [message, DriverEvent.odometry?, odometryFor, odometries, hs]
  | odomThrew msg now htf hs =>
    simp [message, DriverEvent.odometry?, odometryFor, odometries, htf, Int.not_le.mpr hs]
  | lidarDone msg now hs =>
    rw [odometries_append, odometries_staleWarning]
    rfl
  | lidarThrew msg now hl hs => rfl
  | lowState msg now => rfl

theorem DriverTransition.jointStates_of (h : DriverTransition cfg tf2 s e s' out) :
    jointStatesIn out = (message DriverEvent.lowState? e).flatMap jointStatesFor := by
  cases h with
  | odomSilent msg now htf => exact jointStatesIn_odomOut cfg _ msg
  | odomDone msg now htf hs =>
    rw [← List.singleton_append, jointStatesIn_append, jointStatesIn_odomOut]
    rfl
  | odomThrew msg now htf hs => rfl
  | lidarDone msg now hs =>
    rw [jointStatesIn_append, jointStatesIn_staleWarning]
    rfl
  | lidarThrew msg now hl hs => rfl
  | lowState msg now => rfl

/-- A cloud is published, or its stamp is no time. -/
theorem DriverTransition.clouds_of (h : DriverTransition cfg tf2 s e s' out) :
    (clouds out).map PointCloud2.payload =
      (message DriverEvent.cloud? e).flatMap (payloadFor cfg) ∨
    clouds out = [] ∧ ∃ m ∈ message DriverEvent.cloud? e,
      (resolveStamp cfg m.2 m.1.stamp).sec.toInt < 0 := by
  cases h with
  | odomSilent msg now htf =>
    left
    simp only [clouds_odomOut]
    rfl
  | odomDone msg now htf hs =>
    left
    simp only [← List.singleton_append (l := odomOut _ _ _), clouds_append, clouds_odomOut]
    rfl
  | odomThrew msg now htf hs => exact .inl rfl
  | lidarDone msg now hs =>
    left
    simp only [clouds_append, clouds_staleWarning]
    rfl
  | lidarThrew msg now hl hs => exact .inr ⟨rfl, (msg, now), List.mem_singleton.mpr rfl, hs⟩
  | lowState msg now => exact .inl rfl

/-- A part of the output made of the messages of one kind. -/
theorem DriverRun.made_of {α β : Type} {kind : DriverEvent R → Option α} {make : α × RosTime → List β}
    {part : DriverOut R → Option β} (h : DriverRun cfg tf2 tr s)
    (hmake : ∀ s e s' out, DriverTransition cfg tf2 s e s' out →
      out.filterMap part = (message kind e).flatMap make) :
    (history tr).filterMap part = (inputs kind tr).flatMap make := by
  unfold inputs
  rw [List.flatMap_assoc]
  apply Run.filterMap_history part (fun _ e => (message kind e).flatMap make) ?_ h
  intro s e s' out he
  exact hmake s e s' out (driverStep_transition cfg tf2 he)

/-- The clouds: some may be missing. -/
theorem DriverRun.clouds_of (h : DriverRun cfg tf2 tr s) :
    ((clouds (history tr)).map PointCloud2.payload).Sublist
      ((inputs DriverEvent.cloud? tr).flatMap (payloadFor cfg)) ∧
    ((∀ m ∈ inputs DriverEvent.cloud? tr, 0 ≤ (resolveStamp cfg m.2 m.1.stamp).sec.toInt) →
      (clouds (history tr)).map PointCloud2.payload =
        (inputs DriverEvent.cloud? tr).flatMap (payloadFor cfg)) := by
  unfold DriverRun at h
  induction h with
  | nil => exact ⟨.slnil, fun _ => rfl⟩
  | @snoc tr s s' e out hr he ih =>
    obtain ⟨hsub, hall⟩ := ih
    have hcloud := (driverStep_transition cfg tf2 he).clouds_of
    have hrec : inputs DriverEvent.cloud? (tr ++ [⟨s, e, out, s'⟩]) =
        inputs DriverEvent.cloud? tr ++ message DriverEvent.cloud? e := by
      unfold inputs
      rw [List.flatMap_append, List.flatMap_singleton]
    rw [history_snoc, clouds_append, List.map_append, hrec, List.flatMap_append]
    constructor
    · refine hsub.append ?_
      rcases hcloud with hmade | ⟨hnone, -⟩
      · exact hmade ▸ .refl _
      · rw [hnone]
        exact List.nil_sublist _
    · intro htime
      rw [hall fun m hm => htime m (List.mem_append_left _ hm)]
      rcases hcloud with hmade | ⟨-, m, hm, hneg⟩
      · rw [hmade]
      · have := htime m (List.mem_append_right _ hm)
        omega

end

/-- Two motor states around an odometry message and a cloud whose stamp is no time. -/
def mixedStreams : DriverTrace Int × DriverState :=
  execute (driverStep (.defaults Int) .level) .start
    [(.lowState ⟨fun i => i⟩, ⟨1⟩), (.odom (.level ⟨5, 500⟩), ⟨2⟩), (.lidar ⟨⟨-1, 0⟩, "", [9]⟩, ⟨3⟩),
      (.lowState ⟨fun i => 2 * i⟩, ⟨4⟩)]

end Go2
