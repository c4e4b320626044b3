import Mathlib.Algebra.Quaternion
import Mathlib.LinearAlgebra.Matrix.Notation
import Mathlib.Tactic.LinearCombination

/-!
# Rotations by quaternions

Over any ordered field.  A quaternion `q ≠ 0` turns the point `p`, a quaternion without real
part, to `q p q⁻¹`.  So a product turns by its factors one after the other, and the length
and the sign of a quaternion do not matter.

* `rotate_mul`, `rotate_smul`: products and multiples.
* `rotate_turnX`, `rotate_turnY`, `rotate_turnZ`: a quaternion of half an angle about an axis
  turns by the matrix of the angle; `rotate_turns` for the three after each other.
* `eq_smul_of_rotate_eq`: quaternions that turn every point alike are multiples of each other.
* `Rigid`: a rotation followed by a translation, and their composition.
-/

namespace Rotations

open Quaternion
open scoped Matrix

/-! ## Points and turns -/

section
variable {R : Type} [CommRing R]

/-- A point of space. -/
@[simps] def point (v : Fin 3 → R) : ℍ[R] := ⟨0, v 0, v 1, v 2⟩

/-- The quaternion of a turn about an axis, for the cosine and the sine of half its angle. -/
@[simps] def turnX (c s : R) : ℍ[R] := ⟨c, s, 0, 0⟩
@[simps] def turnY (c s : R) : ℍ[R] := ⟨c, 0, s, 0⟩
@[simps] def turnZ (c s : R) : ℍ[R] := ⟨c, 0, 0, s⟩

/-- The matrix of a turn about an axis, for the cosine and the sine of its angle. -/
def matX (c s : R) : Matrix (Fin 3) (Fin 3) R := !![1, 0, 0; 0, c, -s; 0, s, c]
def matY (c s : R) : Matrix (Fin 3) (Fin 3) R := !![c, 0, s; 0, 1, 0; -s, 0, c]
def matZ (c s : R) : Matrix (Fin 3) (Fin 3) R := !![c, -s, 0; s, c, 0; 0, 0, 1]

@[simp] theorem turnX_one_zero : turnX (1 : R) 0 = 1 := by
  ext <;> simp

@[simp] theorem turnY_one_zero : turnY (1 : R) 0 = 1 := by
  ext <;> simp

@[simp] theorem turnZ_one_zero : turnZ (1 : R) 0 = 1 := by
  ext <;> simp

theorem point_add (v w : Fin 3 → R) : point (v + w) = point v + point w := by
  ext <;> simp

variable {c s : R} (h : c ^ 2 + s ^ 2 = 1)
include h

theorem normSq_turnX : normSq (turnX c s) = 1 := by
  rw [normSq_def', turnX]
  linear_combination h

theorem normSq_turnY : normSq (turnY c s) = 1 := by
  rw [normSq_def', turnY]
  linear_combination h

theorem normSq_turnZ : normSq (turnZ c s) = 1 := by
  rw [normSq_def', turnZ]
  linear_combination h

end

section
variable {R : Type} [Field R] [LinearOrder R] [IsStrictOrderedRing R]

/-- The point `p`, turned by `q`. -/
def rotate (q p : ℍ[R]) : ℍ[R] := q * p * q⁻¹

theorem rotate_mul (q r p : ℍ[R]) : rotate (q * r) p = rotate q (rotate r p) := by
  unfold rotate
  rw [mul_inv_rev]
  simp only [mul_assoc]

theorem rotate_smul {c : R} (hc : c ≠ 0) (q p : ℍ[R]) : rotate (c • q) p = rotate q p := by
  unfold rotate
  rw [smul_inv₀, smul_mul_assoc, smul_mul_assoc, mul_smul_comm, smul_smul, mul_inv_cancel₀ hc,
    one_smul]

theorem rotate_add (q p p' : ℍ[R]) : rotate q (p + p') = rotate q p + rotate q p' := by
  unfold rotate
  rw [mul_add, add_mul]

theorem rotate_of_unit {q : ℍ[R]} (h : normSq q = 1) (p : ℍ[R]) : rotate q p = q * p * star q := by
  rw [rotate, inv_def, h, inv_one, one_smul]

theorem ne_zero_of_unit {q : ℍ[R]} (h : normSq q = 1) : q ≠ 0 := by
  apply normSq_ne_zero.mp
  rw [h]
  exact one_ne_zero

/-! ## Turns about the axes -/

theorem rotate_turnX {c s : R} (h : c ^ 2 + s ^ 2 = 1) (v : Fin 3 → R) :
    rotate (turnX c s) (point v) = point (matX (c ^ 2 - s ^ 2) (2 * s * c) *ᵥ v) := by
  rw [rotate_of_unit (normSq_turnX h)]
  ext <;> simp [matX, Matrix.vecHead, Matrix.vecTail]
  · ring
  · linear_combination v 0 * h
  · ring
  · ring

theorem rotate_turnY {c s : R} (h : c ^ 2 + s ^ 2 = 1) (v : Fin 3 → R) :
    rotate (turnY c s) (point v) = point (matY (c ^ 2 - s ^ 2) (2 * s * c) *ᵥ v) := by
  rw [rotate_of_unit (normSq_turnY h)]
  ext <;> simp [matY, Matrix.vecHead, Matrix.vecTail]
  · ring
  · ring
  · linear_combination v 1 * h
  · ring

theorem rotate_turnZ {c s : R} (h : c ^ 2 + s ^ 2 = 1) (v : Fin 3 → R) :
    rotate (turnZ c s) (point v) = point (matZ (c ^ 2 - s ^ 2) (2 * s * c) *ᵥ v) := by
  rw [rotate_of_unit (normSq_turnZ h)]
  ext <;> simp [matZ, Matrix.vecHead, Matrix.vecTail]
  · ring
  · ring
  · ring
  · linear_combination v 2 * h

/-- The three turns one after the other, about x first. -/
theorem rotate_turns {cx sx cy sy cz sz : R} (hx : cx ^ 2 + sx ^ 2 = 1) (hy : cy ^ 2 + sy ^ 2 = 1)
    (hz : cz ^ 2 + sz ^ 2 = 1) (v : Fin 3 → R) :
    rotate (turnZ cz sz * (turnY cy sy * turnX cx sx)) (point v) =
      point ((matZ (cz ^ 2 - sz ^ 2) (2 * sz * cz) * matY (cy ^ 2 - sy ^ 2) (2 * sy * cy) *
        matX (cx ^ 2 - sx ^ 2) (2 * sx * cx)) *ᵥ v) := by
  rw [rotate_mul, rotate_mul, rotate_turnX hx, rotate_turnY hy, rotate_turnZ hz,
    Matrix.mulVec_mulVec, Matrix.mulVec_mulVec]

/-- A turn about the vertical leaves what is on it. -/
theorem rotate_turnZ_axis {c s : R} (h : c ^ 2 + s ^ 2 = 1) (z : R) :
    rotate (turnZ c s) (point ![0, 0, z]) = point ![0, 0, z] := by
  rw [rotate_turnZ h]
  ext <;> simp [matZ, Matrix.vecHead, Matrix.vecTail]

/-! ## Quaternions that turn alike -/

/-- What turns every point as `1` does is a number. -/
theorem eq_coe_of_commutes {r : ℍ[R]} (h : ∀ v, r * point v = point v * r) : r = (r.re : ℍ[R]) := by
  have h0 := h ![1, 0, 0]
  have h1 := h ![0, 1, 0]
  have hK := congrArg QuaternionAlgebra.imJ h0
  have hJ := congrArg QuaternionAlgebra.imK h0
  have hI := congrArg QuaternionAlgebra.imK h1
  simp at hK hJ hI
  ext
  · rfl
  · show r.imI = 0
    linarith
  · show r.imJ = 0
    linarith
  · show r.imK = 0
    linarith

/-- Quaternions that turn every point alike are multiples of each other. -/
theorem eq_smul_of_rotate_eq {p q : ℍ[R]} (hp : p ≠ 0) (hq : q ≠ 0)
    (h : ∀ v, rotate p (point v) = rotate q (point v)) : ∃ c : R, c ≠ 0 ∧ p = c • q := by
  have hcomm : ∀ v, q⁻¹ * p * point v = point v * (q⁻¹ * p) := by
    intro v
    have hv := h v
    unfold rotate at hv
    calc q⁻¹ * p * point v = q⁻¹ * (p * point v * p⁻¹) * p := by
          rw [mul_assoc q⁻¹, mul_assoc, inv_mul_cancel_right₀ hp]
      _ = q⁻¹ * (q * point v * q⁻¹) * p := by rw [hv]
      _ = point v * (q⁻¹ * p) := by
          rw [mul_assoc q, inv_mul_cancel_left₀ hq, mul_assoc]
  have hr := eq_coe_of_commutes hcomm
  have hpq : p = (q⁻¹ * p).re • q := by
    rw [← mul_coe_eq_smul, ← hr, mul_inv_cancel_left₀ hq]
  refine ⟨(q⁻¹ * p).re, ?_, hpq⟩
  intro hzero
  rw [hzero, zero_smul] at hpq
  exact hp hpq

/-! ## Rigid motions -/

/-- A rotation, followed by a translation. -/
structure Rigid (R : Type) [CommRing R] where
  translation : ℍ[R]
  rotation : ℍ[R]

def Rigid.apply (f : Rigid R) (p : ℍ[R]) : ℍ[R] := f.translation + rotate f.rotation p

/-- `g`, then `f`. -/
def Rigid.comp (f g : Rigid R) : Rigid R :=
  ⟨f.translation + rotate f.rotation g.translation, f.rotation * g.rotation⟩

theorem Rigid.comp_apply (f g : Rigid R) (p : ℍ[R]) : (f.comp g).apply p = f.apply (g.apply p) := by
  unfold apply comp
  simp only [rotate_mul, rotate_add, add_assoc]

/-- Motions with the same translation, whose quaternions are multiples, are the same. -/
theorem Rigid.apply_eq_of_smul {f g : Rigid R} {c : R} (hc : c ≠ 0)
    (ht : f.translation = g.translation) (hr : f.rotation = c • g.rotation) (p : ℍ[R]) :
    f.apply p = g.apply p := by
  unfold apply
  rw [ht, hr, rotate_smul hc]

end

end Rotations
