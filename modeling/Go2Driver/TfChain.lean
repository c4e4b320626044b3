import Go2Driver.DriverLaws
import Go2Driver.Lib.Rotations
import Mathlib.Analysis.SpecialFunctions.Trigonometric.Basic

/-!
# The transforms and the odometry describe the same pose

`odomCallback` splits one pose over two transforms, `odom → base_footprint` (x, y and yaw)
and `base_footprint → base_link` (height, roll and pitch), and publishes it a third time as
odometry.  In exact real arithmetic the chain of the two is the pose of the odometry
(`tf_chain_is_odometry`): the quaternion of a yaw times that of a roll and a pitch is the
quaternion of the three angles, and a turn about the vertical leaves the height alone.

What is used of tf2 is `Tf2.Documented`.
-/

namespace Go2

open Runs Rotations Quaternion
open scoped Matrix

/-! ## Poses as rigid motions -/

def Vector3.point (p : Vector3 ℝ) : ℍ[ℝ] := Rotations.point ![p.x, p.y, p.z]

@[simps] def Orientation.quaternion (q : Orientation ℝ) : ℍ[ℝ] := ⟨q.w, q.x, q.y, q.z⟩

/-- From the child frame to the parent frame. -/
def TransformStamped.motion (t : TransformStamped ℝ) : Rigid ℝ :=
  ⟨t.translation.point, t.rotation.quaternion⟩

def Pose.motion (p : Pose ℝ) : Rigid ℝ := ⟨p.position.point, p.orientation.quaternion⟩

/-! ## tf2 -/

/-- The matrix of roll, pitch and yaw. -/
noncomputable def eulerMatrix (roll pitch yaw : ℝ) : Matrix (Fin 3) (Fin 3) ℝ :=
  matZ (Real.cos yaw) (Real.sin yaw) * matY (Real.cos pitch) (Real.sin pitch) *
    matX (Real.cos roll) (Real.sin roll)

/-- `setRPY`: the formula in the sines and cosines of the half angles. -/
noncomputable def eulerOrientation (roll pitch yaw : ℝ) : Orientation ℝ where
  x := Real.sin (roll / 2) * Real.cos (pitch / 2) * Real.cos (yaw / 2) -
    Real.cos (roll / 2) * Real.sin (pitch / 2) * Real.sin (yaw / 2)
  y := Real.cos (roll / 2) * Real.sin (pitch / 2) * Real.cos (yaw / 2) +
    Real.sin (roll / 2) * Real.cos (pitch / 2) * Real.sin (yaw / 2)
  z := Real.cos (roll / 2) * Real.cos (pitch / 2) * Real.sin (yaw / 2) -
    Real.sin (roll / 2) * Real.sin (pitch / 2) * Real.cos (yaw / 2)
  w := Real.cos (roll / 2) * Real.cos (pitch / 2) * Real.cos (yaw / 2) +
    Real.sin (roll / 2) * Real.sin (pitch / 2) * Real.sin (yaw / 2)

/-- `q /= length()`. -/
noncomputable def Orientation.normalized (q : Orientation ℝ) : Orientation ℝ :=
  let length := Real.sqrt (q.x ^ 2 + q.y ^ 2 + q.z ^ 2 + q.w ^ 2)
  ⟨q.x / length, q.y / length, q.z / length, q.w / length⟩

/-- What is documented of tf2, `getRPY` at the orientation `q`: its angles are those of `q`'s
rotation, about x, y and z one after the other. -/
structure Tf2.Documented (tf2 : Tf2 ℝ) (q : Orientation ℝ) : Prop where
  getRPY : ∀ roll pitch yaw, tf2.getRPY q = (roll, pitch, yaw) →
    ∀ v, rotate q.quaternion (point v) = point (eulerMatrix roll pitch yaw *ᵥ v)
  setRPY : ∀ roll pitch yaw, tf2.setRPY roll pitch yaw = eulerOrientation roll pitch yaw
  normalize : ∀ q' : Orientation ℝ, q'.quaternion ≠ 0 → tf2.normalize q' = q'.normalized

theorem cos_eq_half (a : ℝ) : Real.cos a = Real.cos (a / 2) ^ 2 - Real.sin (a / 2) ^ 2 := by
  rw [← Real.cos_two_mul']
  congr 1
  ring

theorem sin_eq_half (a : ℝ) : Real.sin a = 2 * Real.sin (a / 2) * Real.cos (a / 2) := by
  rw [← Real.sin_two_mul]
  congr 1
  ring

/-- The quaternion of the three angles is the product of those of each. -/
theorem eulerOrientation_quaternion (roll pitch yaw : ℝ) :
    (eulerOrientation roll pitch yaw).quaternion =
      turnZ (Real.cos (yaw / 2)) (Real.sin (yaw / 2)) *
        (turnY (Real.cos (pitch / 2)) (Real.sin (pitch / 2)) *
          turnX (Real.cos (roll / 2)) (Real.sin (roll / 2))) := by
  ext <;> simp [Orientation.quaternion, eulerOrientation]
  all_goals ring

theorem normSq_eulerOrientation (roll pitch yaw : ℝ) :
    normSq (eulerOrientation roll pitch yaw).quaternion = 1 := by
  rw [eulerOrientation_quaternion, map_mul, map_mul, normSq_turnX (Real.cos_sq_add_sin_sq _),
    normSq_turnY (Real.cos_sq_add_sin_sq _), normSq_turnZ (Real.cos_sq_add_sin_sq _)]
  norm_num

/-- It turns by the matrix of the three angles. -/
theorem rotate_eulerOrientation (roll pitch yaw : ℝ) (v : Fin 3 → ℝ) :
    rotate (eulerOrientation roll pitch yaw).quaternion (point v) =
      point (eulerMatrix roll pitch yaw *ᵥ v) := by
  rw [eulerOrientation_quaternion, rotate_turns (Real.cos_sq_add_sin_sq _) (Real.cos_sq_add_sin_sq _)
    (Real.cos_sq_add_sin_sq _)]
  simp only [← cos_eq_half, ← sin_eq_half]
  rfl

/-- An orientation of length one is left as it is. -/
theorem Orientation.normalized_of_unit {q : Orientation ℝ} (h : normSq q.quaternion = 1) :
    q.normalized = q := by
  have hlen : q.x ^ 2 + q.y ^ 2 + q.z ^ 2 + q.w ^ 2 = 1 := by
    rw [normSq_def', quaternion] at h
    linear_combination h
  unfold normalized
  simp only [hlen, Real.sqrt_one, div_one]

theorem Tf2.Documented.normalize_setRPY {tf2 : Tf2 ℝ} {q : Orientation ℝ} (h : tf2.Documented q)
    (roll pitch yaw : ℝ) :
    tf2.normalize (tf2.setRPY roll pitch yaw) = eulerOrientation roll pitch yaw := by
  have hunit := normSq_eulerOrientation roll pitch yaw
  rw [h.setRPY, h.normalize _ (ne_zero_of_unit hunit), Orientation.normalized_of_unit hunit]

/-! ## The chain -/

/-- A yaw alone, and then a roll and a pitch, are the three angles. -/
theorem eulerOrientation_split (roll pitch yaw : ℝ) :
    (eulerOrientation 0 0 yaw).quaternion * (eulerOrientation roll pitch 0).quaternion =
      (eulerOrientation roll pitch yaw).quaternion := by
  simp only [eulerOrientation_quaternion, zero_div, Real.cos_zero, Real.sin_zero, turnX_one_zero,
    turnY_one_zero, turnZ_one_zero, mul_one, one_mul]

/-- The rotation of a yaw leaves the height alone. -/
theorem rotate_yaw_height (yaw z : ℝ) :
    rotate (eulerOrientation 0 0 yaw).quaternion (point ![0, 0, z]) = point ![0, 0, z] := by
  rw [eulerOrientation_quaternion]
  simp only [zero_div, Real.cos_zero, Real.sin_zero, turnX_one_zero, turnY_one_zero, mul_one]
  exact rotate_turnZ_axis (Real.cos_sq_add_sin_sq _) z

/-- The transforms `a` and `b`, one after the other, are the pose that the odometry message
`o` publishes: of the same frames, at the same time, with the same translation, and with the
same rotation, whose quaternions agree up to length and sign. -/
structure SamePose (a b : TransformStamped ℝ) (o : Odometry ℝ) : Prop where
  frames : a.frameId = o.frameId ∧ a.childFrameId = b.frameId ∧ b.childFrameId = o.childFrameId
  stamps : a.stamp = o.stamp ∧ b.stamp = o.stamp
  /-- `base_footprint` stays on the ground, and turns about the vertical only -/
  footprint : a.translation.z = 0 ∧ ∃ yaw, a.rotation = eulerOrientation 0 0 yaw
  /-- `base_link` is above it, with a roll and a pitch -/
  body : b.translation.x = 0 ∧ b.translation.y = 0 ∧
    ∃ roll pitch, b.rotation = eulerOrientation roll pitch 0
  translation : (a.motion.comp b.motion).translation = o.pose.motion.translation
  rotation : normSq (a.motion.comp b.motion).rotation = 1 ∧
    ∃ c : ℝ, c ^ 2 = normSq o.pose.motion.rotation ∧
      o.pose.motion.rotation = c • (a.motion.comp b.motion).rotation
  motion : ∀ p, (a.motion.comp b.motion).apply p = o.pose.motion.apply p

/-- A point seen from `base_link`, taken through one transform and then the other, is where
the published pose puts it. -/
theorem SamePose.lookup {a b : TransformStamped ℝ} {o : Odometry ℝ} (h : SamePose a b o) (p : ℍ[ℝ]) :
    a.motion.apply (b.motion.apply p) = o.pose.motion.apply p := by
  rw [← Rigid.comp_apply]
  exact h.motion p

section
variable (cfg : DriverConfig ℝ) {tf2 : Tf2 ℝ} {msg : Odometry ℝ}

theorem transformsOf_eq (hd : tf2.Documented msg.pose.orientation) (stamp : Stamp) :
    ∃ roll pitch yaw, tf2.getRPY msg.pose.orientation = (roll, pitch, yaw) ∧
      transformsOf cfg tf2 stamp msg =
        [⟨stamp, cfg.odomFrame, cfg.baseFootprintFrame,
            ⟨msg.pose.position.x, msg.pose.position.y, 0⟩, eulerOrientation 0 0 yaw⟩,
          ⟨stamp, cfg.baseFootprintFrame, cfg.baseLinkFrame,
            ⟨0, 0, msg.pose.position.z + cfg.bodyZOffset⟩, eulerOrientation roll pitch 0⟩] := by
  refine ⟨_, _, _, rfl, ?_⟩
  simp only [transformsOf, hd.normalize_setRPY]
  rfl

/-- The pair of transforms of a message is the pose that is published for it. -/
theorem samePose_transforms (hd : tf2.Documented msg.pose.orientation)
    (hq : msg.pose.orientation.quaternion ≠ 0) (stamp : Stamp) :
    ∃ a b, transformsOf cfg tf2 stamp msg = [a, b] ∧ SamePose a b (republished cfg stamp msg) := by
  obtain ⟨roll, pitch, yaw, hrpy, htf⟩ := transformsOf_eq cfg hd stamp
  refine ⟨_, _, htf, ?_⟩
  have hunit := normSq_eulerOrientation roll pitch yaw
  -- the message's quaternion turns as the product of the two does, so it is a multiple of it
  obtain ⟨c, hc, hmul⟩ : ∃ c : ℝ, c ≠ 0 ∧
      msg.pose.orientation.quaternion = c • (eulerOrientation roll pitch yaw).quaternion := by
    apply eq_smul_of_rotate_eq hq (ne_zero_of_unit hunit)
    intro v
    rw [hd.getRPY roll pitch yaw hrpy, rotate_eulerOrientation]
  have htrans : point ![msg.pose.position.x, msg.pose.position.y, 0] +
      rotate (eulerOrientation 0 0 yaw).quaternion (point ![0, 0, msg.pose.position.z + cfg.bodyZOffset]) =
        point ![msg.pose.position.x, msg.pose.position.y, msg.pose.position.z + cfg.bodyZOffset] := by
    rw [rotate_yaw_height, ← point_add]
    simp
  have hrot := hmul
  rw [← eulerOrientation_split] at hunit hrot
  have hlen : c ^ 2 = normSq msg.pose.orientation.quaternion := by
    rw [hrot, normSq_smul, hunit, mul_one]
  constructor
  · exact ⟨rfl, rfl, rfl⟩
  · exact ⟨rfl, rfl⟩
  · exact ⟨rfl, yaw, rfl⟩
  · exact ⟨rfl, rfl, roll, pitch, rfl⟩
  · exact htrans
  · exact ⟨hunit, c, hlen, hrot⟩
  · intro p
    exact (Rigid.apply_eq_of_smul hc htrans.symm hrot p).symm

end

/-- **The TF chain and the odometry describe the same pose.**  In exact arithmetic, for
every odometry message whose quaternion is not zero and every height offset: with both
outputs on, the callback broadcasts the two transforms, and the odometry it publishes is
their chain, in frames, stamp, translation and rotation, and is the message's pose with
the offset added to its height.  It is published unless the stamp is no time, which leaves
the callback after the broadcast. -/
theorem tf_chain_is_odometry (cfg : DriverConfig ℝ) (tf2 : Tf2 ℝ) (msg : Odometry ℝ)
    (now : RosTime) (s s' : DriverState) (out : List (DriverOut ℝ)) (htf : cfg.publishTf = true)
    (hodom : cfg.publishOdom = true) (hd : tf2.Documented msg.pose.orientation)
    (hq : msg.pose.orientation.quaternion ≠ 0)
    (h : driverStep cfg tf2 s (.odom msg, now) = some (s', out)) :
    ∃ a b, broadcasts out = [[a, b]] ∧
      (∀ o ∈ odometries out, SamePose a b o ∧
        o.pose.position = ⟨msg.pose.position.x, msg.pose.position.y,
          msg.pose.position.z + cfg.bodyZOffset⟩ ∧
        o.pose.orientation = msg.pose.orientation) ∧
      (0 ≤ (resolveStamp cfg now msg.stamp).sec.toInt → ∃ o, odometries out = [o]) := by
  obtain ⟨a, b, htransforms, hsame⟩ := samePose_transforms cfg hd hq (resolveStamp cfg now msg.stamp)
  refine ⟨a, b, ?_⟩
  cases driverStep_transition cfg tf2 h with
  | odomSilent _ _ hoff =>
    rw [htf] at hoff
    cases hoff
  | odomDone _ _ _ hs =>
    rw [htransforms]
    unfold odomOut
    rw [if_pos hodom]
    refine ⟨rfl, ?_, fun _ => ⟨_, rfl⟩⟩
    intro o ho
    rw [List.mem_singleton.mp ho]
    exact ⟨hsame, rfl, rfl⟩
  | odomThrew _ _ _ hs =>
    rw [htransforms]
    refine ⟨rfl, ?_, ?_⟩
    · intro o ho
      cases ho
    · intro hpos
      omega

/-- tf2 on the quaternion of a robot that lies on its side. -/
noncomputable def Tf2.rolled : Tf2 ℝ where
  getRPY _ := (Real.pi / 2, 0, 0)
  setRPY := eulerOrientation
  normalize := Orientation.normalized

/-- Such a robot's odometry; the quaternion is of length √2. -/
def Odometry.rolled : Odometry ℝ :=
  ⟨⟨7, 0⟩, "odom", "base", ⟨⟨3, 4, 1⟩, ⟨1, 0, 0, 1⟩⟩, [], (⟨0, 0, 0⟩, ⟨0, 0, 0⟩), []⟩

/-- The default parameters, with a height offset. -/
noncomputable def DriverConfig.raised : DriverConfig ℝ := { DriverConfig.defaults ℝ with bodyZOffset := 2 }

theorem rolled_documented : Tf2.rolled.Documented Odometry.rolled.pose.orientation where
  getRPY roll pitch yaw hrpy v := by
    cases hrpy
    have hmul : Odometry.rolled.pose.orientation.quaternion =
        Real.sqrt 2 • (eulerOrientation (Real.pi / 2) 0 0).quaternion := by
      have hangle : Real.pi / 2 / 2 = Real.pi / 4 := by ring
      have hsq : Real.sqrt 2 * (Real.sqrt 2 / 2) = 1 := by
        rw [← mul_div_assoc, Real.mul_self_sqrt zero_le_two]
        norm_num
      ext <;> simp [Odometry.rolled, eulerOrientation, hangle, hsq]
    have hroot : Real.sqrt 2 ≠ 0 := Real.sqrt_ne_zero'.mpr zero_lt_two
    rw [hmul, rotate_smul hroot, rotate_eulerOrientation]
  setRPY _ _ _ := rfl
  normalize _ _ := rfl

theorem tf_chain_is_odometry_rolled :
    ∃ s' out a b o, driverStep .raised .rolled .start (.odom .rolled, ⟨0⟩) = some (s', out) ∧
      broadcasts out = [[a, b]] ∧ odometries out = [o] ∧ SamePose a b o ∧
      o.pose.position = ⟨3, 4, 1 + 2⟩ := by
  have hq : Odometry.rolled.pose.orientation.quaternion ≠ 0 := by
    intro h
    have hre := congrArg QuaternionAlgebra.re h
    simp [Odometry.rolled] at hre
  obtain ⟨a, b, hb, hsame, hone⟩ := tf_chain_is_odometry .raised .rolled .rolled ⟨0⟩ .start _ _ rfl
    rfl rolled_documented hq rfl
  obtain ⟨o, ho⟩ := hone (by decide)
  obtain ⟨hpose, hposition, -⟩ := hsame o (by rw [ho]; exact List.mem_singleton.mpr rfl)
  exact ⟨_, _, a, b, o, rfl, hb, ho, hpose, hposition⟩

end Go2
