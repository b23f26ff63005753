import Mathlib.Algebra.Order.Field.Rat
import Mathlib.Tactic.Linarith
import Mathlib.Tactic.NormNum
import IosDevBootcamp.ARDiceee.Defs

/-!
# Where a plane is drawn

`createPlane` places the node at the centre of the anchor and then assigns a rotation as its whole
transform, which takes the node back to the origin.  So every plane is drawn around the origin of
its anchor's node, whatever the centre is.
-/

namespace IosDevBootcamp.ARDiceee

open IosDevBootcamp.Lib.SceneGraph IosDevBootcamp.Lib.Transform

variable {R : Type*} [Field R] [LinearOrder R]

/-! ### Areas -/

/-- A plane stands upright, around the origin of its node. -/
def SCNPlane.points (plane : SCNPlane R) : Set (Vector3 R) :=
  {p | |p.x| ≤ plane.width / 2 ∧ |p.y| ≤ plane.height / 2 ∧ p.z = 0}

/-- The points a node covers, in the coordinates of its parent. -/
def Body.covered (body : Body R) : Set (Vector3 R) :=
  match body.geometry with
  | some plane => Set.image body.transform.apply plane.points
  | none => ∅

/-- A rectangle that lies flat. -/
def rectangle (cx cz ex ez : R) : Set (Vector3 R) :=
  {p | |p.x - cx| ≤ ex / 2 ∧ p.y = 0 ∧ |p.z - cz| ≤ ez / 2}

/-- The rectangle that was detected. -/
def ARPlaneAnchor.detected (a : ARPlaneAnchor R) : Set (Vector3 R) :=
  rectangle a.center.x a.center.z a.extent.x a.extent.z

/-! ### Planes laid flat -/

/-- A plane that is turned and then moved covers a rectangle around the place it is moved to. -/
lemma covered_quarterTurn (plane : SCNPlane R) (x z : R) :
    (⟨some plane, (makeRotation Angle.minusHalfPi 1 0 0).setPosition ⟨x, 0, z⟩⟩ : Body R).covered =
      rectangle x z plane.width plane.height := by
  ext p
  unfold Body.covered
  simp only [Set.mem_image, apply_quarterTurn]
  constructor
  · rintro ⟨q, ⟨hx, hy, hz⟩, rfl⟩
    have hz' : |-q.y + z - z| ≤ plane.height / 2 := by
      rw [add_sub_cancel_right, abs_neg]
      exact hy
    have hx' : |q.x + x - x| ≤ plane.width / 2 := by
      rw [add_sub_cancel_right]
      exact hx
    exact ⟨hx', by rw [hz, add_zero], hz'⟩
  · rintro ⟨hx, hy, hz⟩
    -- the point that the turn takes to `p`
    have hq : |z - p.z| ≤ plane.height / 2 := by
      rw [abs_sub_comm]
      exact hz
    refine ⟨⟨p.x - x, z - p.z, 0⟩, ⟨hx, hq, rfl⟩, ?_⟩
    rw [sub_add_cancel, add_zero, neg_sub, sub_add_cancel, ← hy]

/-- The plane is drawn around the origin, whatever the centre of the anchor is. -/
lemma covered_createPlane (a : ARPlaneAnchor R) :
    (createPlane a).covered = rectangle 0 0 a.extent.x a.extent.z := by
  have hbody : createPlane a = ⟨some ⟨a.extent.x, a.extent.z, ["art.scnassets/grid.png"]⟩,
      (makeRotation Angle.minusHalfPi 1 0 0).setPosition ⟨0, 0, 0⟩⟩ := by
    rw [setPosition_makeRotation_zero]
    rfl
  rw [hbody, covered_quarterTurn]

/-- Over the reals the plane is turned by the angle the source names. -/
lemma transform_createPlane (a : ARPlaneAnchor ℝ) :
    (createPlane a).transform = makeRotation (Angle.ofReal (-Real.pi / 2)) 1 0 0 := by
  rw [Angle.ofReal_minusHalfPi]
  rfl

/-! ### Rectangles of one size -/

section Rectangles

variable [IsStrictOrderedRing R] {cx cz dx dz ex ez : R}

lemma le_of_rectangle_subset (hx : 0 ≤ ex) (hz : 0 ≤ ez)
    (h : rectangle cx cz ex ez ⊆ rectangle dx dz ex ez) : cx ≤ dx ∧ cz ≤ dz := by
  -- the far corner of the one rectangle is in the other
  have hcorner : (⟨cx + ex / 2, 0, cz + ez / 2⟩ : Vector3 R) ∈ rectangle cx cz ex ez := by
    refine ⟨?_, rfl, ?_⟩
    · show |cx + ex / 2 - cx| ≤ ex / 2
      rw [add_sub_cancel_left, abs_of_nonneg (by linarith)]
    · show |cz + ez / 2 - cz| ≤ ez / 2
      rw [add_sub_cancel_left, abs_of_nonneg (by linarith)]
  obtain ⟨hdx, -, hdz⟩ := h hcorner
  constructor
  · have hle : cx + ex / 2 - dx ≤ ex / 2 := (abs_le.mp hdx).2
    linarith
  · have hle : cz + ez / 2 - dz ≤ ez / 2 := (abs_le.mp hdz).2
    linarith

lemma rectangle_eq_empty (h : ex < 0 ∨ ez < 0) : rectangle cx cz ex ez = ∅ := by
  apply Set.eq_empty_of_forall_notMem
  rintro p ⟨hx, -, hz⟩
  have hx0 : 0 ≤ |p.x - cx| := abs_nonneg _
  have hz0 : 0 ≤ |p.z - cz| := abs_nonneg _
  rcases h with h | h <;> linarith

/-- Rectangles of one size are the same when their centres are, or when they have no points. -/
lemma rectangle_eq_iff : rectangle cx cz ex ez = rectangle dx dz ex ez ↔
    (cx = dx ∧ cz = dz) ∨ ex < 0 ∨ ez < 0 := by
  constructor
  · intro h
    by_cases hneg : ex < 0 ∨ ez < 0
    · exact Or.inr hneg
    · rw [not_or, not_lt, not_lt] at hneg
      obtain ⟨hx, hz⟩ := hneg
      obtain ⟨hcx, hcz⟩ := le_of_rectangle_subset hx hz h.subset
      obtain ⟨hdx, hdz⟩ := le_of_rectangle_subset hx hz h.symm.subset
      exact Or.inl ⟨le_antisymm hcx hdx, le_antisymm hcz hdz⟩
  · rintro (⟨rfl, rfl⟩ | h)
    · rfl
    · rw [rectangle_eq_empty h, rectangle_eq_empty h]

end Rectangles

/-! ### The node that is attached -/

omit [LinearOrder R] in
lemma childNodes_renderer (node : AnchorNode R) (a : ARPlaneAnchor R) :
    (renderer node (.plane a)).childNodes =
      node.childNodes ++ [⟨node.next, none, createPlane a⟩] :=
  addChildNode_of_lt node.id_lt (Nat.le_refl _)

/-- **When a plane is drawn where it was detected.**  The node that is attached for a plane covers
the detected rectangle exactly when the centre of the anchor is the origin of its node, or when the
rectangle has no points. -/
theorem drawn_where_detected_iff [IsStrictOrderedRing R] (node : AnchorNode R)
    (a : ARPlaneAnchor R) :
    ∃ n, (renderer node (.plane a)).childNodes = node.childNodes ++ [n] ∧
      (n.value.covered = a.detected ↔
        (a.center.x = 0 ∧ a.center.z = 0) ∨ a.extent.x < 0 ∨ a.extent.z < 0) := by
  refine ⟨⟨node.next, none, createPlane a⟩, childNodes_renderer node a, ?_⟩
  have hcovered : (createPlane a).covered = rectangle 0 0 a.extent.x a.extent.z :=
    covered_createPlane a
  rw [hcovered, ARPlaneAnchor.detected, eq_comm]
  exact rectangle_eq_iff

/-- The node of a new anchor. -/
def newNode : AnchorNode R := ⟨[], 0, fun _ h => absurd h List.not_mem_nil⟩

theorem drawn_where_detected_iff_centred :
    ∃ n, (renderer newNode (.plane ⟨⟨0, 0, 0⟩, ⟨3, 0, 1⟩⟩)).childNodes = [n] ∧
      n.value.covered = (⟨⟨0, 0, 0⟩, ⟨3, 0, 1⟩⟩ : ARPlaneAnchor ℚ).detected := by
  obtain ⟨n, hn, hiff⟩ :=
    drawn_where_detected_iff newNode (⟨⟨0, 0, 0⟩, ⟨3, 0, 1⟩⟩ : ARPlaneAnchor ℚ)
  exact ⟨n, hn, hiff.mpr (Or.inl ⟨rfl, rfl⟩)⟩

/-- The centre of a plane that was detected two metres away is not drawn. -/
theorem centre_not_drawn :
    ∃ n, (renderer newNode (.plane ⟨⟨2, 0, 0⟩, ⟨1, 0, 1⟩⟩)).childNodes = [n] ∧
      ⟨2, 0, 0⟩ ∈ (⟨⟨2, 0, 0⟩, ⟨1, 0, 1⟩⟩ : ARPlaneAnchor ℚ).detected ∧
      ⟨2, 0, 0⟩ ∉ n.value.covered ∧
      n.value.covered ≠ (⟨⟨2, 0, 0⟩, ⟨1, 0, 1⟩⟩ : ARPlaneAnchor ℚ).detected := by
  have hdetected : ⟨2, 0, 0⟩ ∈ (⟨⟨2, 0, 0⟩, ⟨1, 0, 1⟩⟩ : ARPlaneAnchor ℚ).detected := by
    refine ⟨?_, rfl, ?_⟩ <;> norm_num
  have hcovered : ⟨2, 0, 0⟩ ∉
      (createPlane (⟨⟨2, 0, 0⟩, ⟨1, 0, 1⟩⟩ : ARPlaneAnchor ℚ)).covered := by
    rw [covered_createPlane]
    rintro ⟨hx, -, -⟩
    norm_num at hx
  refine ⟨⟨0, none, createPlane _⟩, childNodes_renderer newNode _, hdetected, hcovered, ?_⟩
  intro heq
  exact hcovered (heq ▸ hdetected)

end IosDevBootcamp.ARDiceee
