import Go2Driver.Lib.Runs
import Mathlib.Algebra.Ring.Int.Defs

/-!
# `Go2Driver`: stamps, transforms, clouds

The state bridge.  An odometry message is split into the two transforms
`odom → base_footprint → base_link` and republished; a point cloud is republished
with a stamp that does not lead the transforms; the motor states are reordered.
The node's only state is `last_tf_stamp_`.

* `RosTime.ofStamp`, `RosTime.toStamp`: `rclcpp::Time` from a message's stamp and
  back.  Constructing one from negative seconds throws (`TimeFault`).
* `DriverM`: a callback is a program that keeps what it did before an exception.
* `driverStep`: one callback, however it exits; an exception is let out as `threw`.

The arithmetic of poses is generic in the scalar `R`, and the three functions of
tf2 that the node calls are a parameter, `Tf2 R`.
-/

namespace Go2

open Runs

/-! ## Stamps -/

/-- `builtin_interfaces::msg::Time`. -/
structure Stamp where
  sec : Int32
  nanosec : UInt32
deriving DecidableEq

/-- The nanoseconds a stamp stands for. -/
def Stamp.total (s : Stamp) : Int := s.sec.toInt * 1000000000 + s.nanosec.toNat

/-- `rclcpp::Time`, by its `nanoseconds()`; the driver's are all of ROS time. -/
structure RosTime where
  nanoseconds : Int
deriving DecidableEq

/-- "cannot store a negative time point in rclcpp::Time". -/
inductive TimeFault
  | negativeTime
deriving DecidableEq, Repr

/-- `rclcpp::Time(stamp)`. -/
def RosTime.ofStamp (s : Stamp) : Except TimeFault RosTime :=
  if s.sec.toInt < 0 then .error .negativeTime else .ok ⟨s.total⟩

/-- The conversion of `rclcpp::Time` to a message's stamp. -/
def RosTime.toStamp (t : RosTime) : Stamp :=
  ⟨Int32.ofInt (t.nanoseconds / 1000000000), UInt32.ofNat (t.nanoseconds % 1000000000).toNat⟩

/-! ## Messages -/

/-- `geometry_msgs::msg::Point` and `Vector3`. -/
structure Vector3 (R : Type) where
  x : R
  y : R
  z : R
deriving DecidableEq

/-- `geometry_msgs::msg::Quaternion`, and `tf2::Quaternion`. -/
structure Orientation (R : Type) where
  x : R
  y : R
  z : R
  w : R
deriving DecidableEq

structure Pose (R : Type) where
  position : Vector3 R
  orientation : Orientation R
deriving DecidableEq

/-- `nav_msgs::msg::Odometry`; `twist` is its linear and its angular part. -/
structure Odometry (R : Type) where
  stamp : Stamp
  frameId : String
  childFrameId : String
  pose : Pose R
  poseCovariance : List Rat
  twist : Vector3 R × Vector3 R
  twistCovariance : List Rat
deriving DecidableEq

structure TransformStamped (R : Type) where
  stamp : Stamp
  frameId : String
  childFrameId : String
  translation : Vector3 R
  rotation : Orientation R
deriving DecidableEq

structure PointCloud2 where
  stamp : Stamp
  frameId : String
  data : List UInt8
deriving DecidableEq

/-- `unitree_go::msg::LowState`: the angle `q` of each motor. -/
structure LowState (R : Type) where
  motorState : Nat → R

structure JointState (R : Type) where
  stamp : Stamp
  name : List String
  position : List R
deriving DecidableEq

/-- What the node calls of tf2: roll, pitch and yaw of a quaternion's matrix, the
quaternion of three angles, and a quaternion scaled to length one. -/
structure Tf2 (R : Type) where
  getRPY : Orientation R → R × R × R
  setRPY : R → R → R → Orientation R
  normalize : Orientation R → Orientation R

/-! ## The node -/

/-- The parameters. -/
structure DriverConfig (R : Type) where
  inputOdomTopic : String
  pointcloudFrame : String
  odomFrame : String
  baseFootprintFrame : String
  baseLinkFrame : String
  bodyZOffset : R
  useMsgStamp : Bool
  publishTf : Bool
  publishOdom : Bool

/-- The parameters' defaults. -/
def DriverConfig.defaults (R : Type) [Zero R] : DriverConfig R where
  inputOdomTopic := "/utlidar/robot_odom"
  pointcloudFrame := "utlidar_lidar"
  odomFrame := "odom"
  baseFootprintFrame := "base_footprint"
  baseLinkFrame := "base_link"
  bodyZOffset := 0
  useMsgStamp := true
  publishTf := true
  publishOdom := true

inductive DriverOut (R : Type)
  /-- `tf_broadcaster_.sendTransform` -/
  | transforms (tfs : List (TransformStamped R))
  | odometry (msg : Odometry R)
  | cloud (msg : PointCloud2)
  | jointStates (msg : JointState R)
  /-- handed to the throttled logger: a cloud leads the last transform -/
  | staleTf (leadNs : Int) (topic : String)
  /-- the callback was left by an exception -/
  | threw (f : TimeFault)
deriving DecidableEq

structure DriverState where
  lastTfStamp : RosTime
deriving DecidableEq

/-- The node in the middle of a callback. -/
structure Driver (R : Type) extends DriverState where
  out : List (DriverOut R)

abbrev DriverM (R : Type) := ExceptT TimeFault (StateM (Driver R))

namespace DriverM

variable {R : Type}

def emit (o : DriverOut R) : DriverM R Unit := modify fun d => { d with out := d.out ++ [o] }

def setLastTfStamp (t : RosTime) : DriverM R Unit := modify fun d => { d with lastTfStamp := t }

end DriverM

open DriverM

section
variable {R : Type}

def jointNames : List String :=
  ["FL_hip_joint", "FL_thigh_joint", "FL_calf_joint", "FR_hip_joint", "FR_thigh_joint", "FR_calf_joint",
    "RL_hip_joint", "RL_thigh_joint", "RL_calf_joint", "RR_hip_joint", "RR_thigh_joint", "RR_calf_joint"]

/-- For each joint name, the motor that turns it: Unitree orders the legs FR, FL, RR, RL. -/
def motorStateIndex : List Nat := [3, 4, 5, 0, 1, 2, 9, 10, 11, 6, 7, 8]

def poseCovarianceDiagonal : List Rat := [1 / 100, 1 / 100, 5 / 100, 1 / 100, 1 / 100, 1 / 100]
def twistCovarianceDiagonal : List Rat := [1 / 100, 1 / 100, 5 / 100, 1 / 100, 1 / 100, 1 / 100]

/-- The loop over a covariance that starts as 36 zeros. -/
def fillDiagonal (diagonal : List Rat) : List Rat :=
  (List.range 6).foldl (fun covariance i => covariance.set (i * 7) (diagonal.getD i 0))
    (List.replicate 36 0)

/-- A lead above this, in nanoseconds, is handed to the throttled logger. -/
def staleTfWarnNs : Int := 100000000

def makeTransform (stamp : Stamp) (parentFrame childFrame : String) (x y z : R)
    (rotation : Orientation R) : TransformStamped R :=
  ⟨stamp, parentFrame, childFrame, ⟨x, y, z⟩, rotation⟩

variable (cfg : DriverConfig R) (tf2 : Tf2 R)

/-- `now` is the reading of the node's clock. -/
def resolveStamp (now : RosTime) (msgStamp : Stamp) : Stamp :=
  if cfg.useMsgStamp then msgStamp else now.toStamp

def publishLidar (now : RosTime) (msg : PointCloud2) : DriverM R Unit := do
  let mut stamp := resolveStamp cfg now msg.stamp
  let last := (← get).lastTfStamp
  if 0 < last.nanoseconds then
    let t ← ofExcept (RosTime.ofStamp stamp)
    if last.nanoseconds < t.nanoseconds then
      let lead := t.nanoseconds - last.nanoseconds
      if staleTfWarnNs < lead then
        emit (.staleTf lead cfg.inputOdomTopic)
      stamp := last.toStamp
  emit (.cloud { msg with stamp, frameId := cfg.pointcloudFrame })

def odomCallback [Add R] [Zero R] (now : RosTime) (msg : Odometry R) : DriverM R Unit := do
  let stamp := resolveStamp cfg now msg.stamp
  let p := msg.pose.position
  let (roll, pitch, yaw) := tf2.getRPY msg.pose.orientation
  let qYaw := tf2.normalize (tf2.setRPY 0 0 yaw)
  let qRp := tf2.normalize (tf2.setRPY roll pitch 0)
  let bodyZ := p.z + cfg.bodyZOffset
  if cfg.publishTf then
    emit (.transforms [
      makeTransform stamp cfg.odomFrame cfg.baseFootprintFrame p.x p.y 0 qYaw,
      makeTransform stamp cfg.baseFootprintFrame cfg.baseLinkFrame 0 0 bodyZ qRp])
    -- the transforms are out before the stamp is known to be a time
    let t ← ofExcept (RosTime.ofStamp stamp)
    setLastTfStamp t
  if cfg.publishOdom then
    emit (.odometry {
      stamp
      frameId := cfg.odomFrame
      childFrameId := cfg.baseLinkFrame
      pose := { msg.pose with position := { p with z := bodyZ } }
      poseCovariance := fillDiagonal poseCovarianceDiagonal
      twist := msg.twist
      twistCovariance := fillDiagonal twistCovarianceDiagonal })

/-- `LowState` carries no stamp, so the clock is read whatever `use_msg_stamp_` says. -/
def publishJointStates (now : RosTime) (msg : LowState R) : DriverM R Unit :=
  emit (.jointStates ⟨now.toStamp, jointNames, motorStateIndex.map msg.motorState⟩)

/-! ## Callbacks as steps -/

inductive DriverEvent (R : Type)
  | odom (msg : Odometry R)
  | lidar (msg : PointCloud2)
  | lowState (msg : LowState R)

def DriverEvent.callback [Add R] [Zero R] (now : RosTime) : DriverEvent R → DriverM R Unit
  | .odom msg => odomCallback cfg tf2 now msg
  | .lidar msg => publishLidar cfg now msg
  | .lowState msg => publishJointStates now msg

/-- What a callback leaves, with an exception as the last thing it lets out. -/
def DriverM.leave (m : DriverM R Unit) (s : DriverState) : DriverState × List (DriverOut R) :=
  match m.run.run ⟨s, []⟩ with
  | (.ok (), d) => (d.toDriverState, d.out)
  | (.error f, d) => (d.toDriverState, d.out ++ [.threw f])

/-- One callback, with the reading of the clock it takes. -/
def driverStep [Add R] [Zero R] (s : DriverState) (e : DriverEvent R × RosTime) :
    Option (DriverState × List (DriverOut R)) :=
  some ((e.1.callback cfg tf2 e.2).leave s)

abbrev DriverTrace (R : Type) := List (Step DriverState (DriverEvent R × RosTime) (DriverOut R))

def DriverState.start : DriverState := ⟨⟨0⟩⟩

/-- The steps `tr` are a run of a new node, and lead to `s`. -/
def DriverRun [Add R] [Zero R] (tr : DriverTrace R) (s : DriverState) : Prop :=
  Run (driverStep cfg tf2) .start tr s

end

/-! ## A level robot -/

/-- tf2 on the quaternion of a level robot that faces along x. -/
def Tf2.level : Tf2 Int where
  getRPY _ := (0, 0, 0)
  setRPY _ _ _ := ⟨0, 0, 0, 1⟩
  normalize q := q

/-- Such a robot's odometry. -/
def Odometry.level (stamp : Stamp) : Odometry Int :=
  ⟨stamp, "odom", "base", ⟨⟨3, 4, 1⟩, ⟨0, 0, 0, 1⟩⟩, [], (⟨0, 0, 0⟩, ⟨0, 0, 0⟩), []⟩

end Go2
