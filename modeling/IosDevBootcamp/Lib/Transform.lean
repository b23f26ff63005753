import Mathlib.Analysis.SpecialFunctions.Trigonometric.Basic
import Mathlib.Tactic.Ring
import IosDevBootcamp.Lib.SceneGraph

/-!
# Transforms of nodes

The transform of a node is a matrix that acts on points from the right, as rows with a last
component one.  Its first three rows turn and scale, and its last row is the position of the node.
-/

namespace IosDevBootcamp.Lib.Transform

open IosDevBootcamp.Lib.SceneGraph

variable {R : Type*} [CommRing R]

/-- A matrix of four rows. -/
structure SCNMatrix4 (R : Type*) where
  m11 : R
  m12 : R
  m13 : R
  m14 : R
  m21 : R
  m22 : R
  m23 : R
  m24 : R
  m31 : R
  m32 : R
  m33 : R
  m34 : R
  m41 : R
  m42 : R
  m43 : R
  m44 : R
  deriving DecidableEq, Repr

namespace SCNMatrix4

def identity : SCNMatrix4 R := ⟨1, 0, 0, 0, 0, 1, 0, 0, 0, 0, 1, 0, 0, 0, 0, 1⟩

/-- A point of the node in the coordinates of its parent. -/
def apply (m : SCNMatrix4 R) (p : Vector3 R) : Vector3 R where
  x := p.x * m.m11 + p.y * m.m21 + p.z * m.m31 + m.m41
  y := p.x * m.m12 + p.y * m.m22 + p.z * m.m32 + m.m42
  z := p.x * m.m13 + p.y * m.m23 + p.z * m.m33 + m.m43

def setPosition (m : SCNMatrix4 R) (p : Vector3 R) : SCNMatrix4 R :=
  { m with m41 := p.x, m42 := p.y, m43 := p.z }

end SCNMatrix4

/-! ### Rotations -/

/-- An angle, by its cosine and its sine. -/
structure Angle (R : Type*) [CommRing R] where
  cos : R
  sin : R
  sq_add_sq : cos ^ 2 + sin ^ 2 = 1

/-- The angle `-π / 2`. -/
def Angle.minusHalfPi : Angle R := ⟨0, -1, by ring⟩

noncomputable def Angle.ofReal (θ : ℝ) : Angle ℝ :=
  ⟨Real.cos θ, Real.sin θ, Real.cos_sq_add_sin_sq θ⟩

lemma Angle.ofReal_minusHalfPi : Angle.ofReal (-Real.pi / 2) = Angle.minusHalfPi := by
  have hcos : Real.cos (-Real.pi / 2) = 0 := by
    rw [neg_div, Real.cos_neg, Real.cos_pi_div_two]
  have hsin : Real.sin (-Real.pi / 2) = -1 := by
    rw [neg_div, Real.sin_neg, Real.sin_pi_div_two]
  simp only [ofReal, minusHalfPi, hcos, hsin]

/-- `SCNMatrix4MakeRotation`, about an axis of length one. -/
def makeRotation (angle : Angle R) (x y z : R) : SCNMatrix4 R :=
  let c := angle.cos
  let s := angle.sin
  let t := 1 - c
  ⟨t * x * x + c, t * x * y + s * z, t * x * z - s * y, 0,
    t * x * y - s * z, t * y * y + c, t * y * z + s * x, 0,
    t * x * z + s * y, t * y * z - s * x, t * z * z + c, 0,
    0, 0, 0, 1⟩

/-- A rotation leaves a node at the origin. -/
lemma setPosition_makeRotation_zero (angle : Angle R) (x y z : R) :
    (makeRotation angle x y z).setPosition ⟨0, 0, 0⟩ = makeRotation angle x y z := rfl

/-- A quarter turn back about the first axis, and then a position. -/
lemma apply_quarterTurn (p q : Vector3 R) :
    ((makeRotation Angle.minusHalfPi 1 0 0).setPosition p).apply q =
      ⟨q.x + p.x, q.z + p.y, -q.y + p.z⟩ := by
  simp [SCNMatrix4.apply, SCNMatrix4.setPosition, makeRotation, Angle.minusHalfPi]

end IosDevBootcamp.Lib.Transform
