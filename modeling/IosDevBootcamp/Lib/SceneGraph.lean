import Mathlib.Algebra.Notation.Defs
import IosDevBootcamp.Lib.Keyed

/-!
# Scene graphs

The child nodes of a scene's root, in the order in which they were added.  A node is an object: it
has an identity, it is attached at most once, and it goes by its identity when it is detached.
-/

namespace IosDevBootcamp.Lib.SceneGraph

structure Vector3 (R : Type*) where
  x : R
  y : R
  z : R
  deriving DecidableEq, Repr

/-- What a hit test finds: a transform, by its four columns of four components. -/
structure HitTestResult (R : Type*) where
  columns : Fin 4 → Fin 4 → R

/-- The place a hit test found, in the last column of the transform. -/
def HitTestResult.position {R : Type*} (hit : HitTestResult R) : Vector3 R :=
  ⟨hit.columns 3 0, hit.columns 3 1, hit.columns 3 2⟩

/-- A translation to a place. -/
def HitTestResult.translation {R : Type*} [Zero R] [One R] (x y z : R) : HitTestResult R where
  columns
    | 3, 0 => x
    | 3, 1 => y
    | 3, 2 => z
    | c, i => if c = i then 1 else 0

structure Node (α : Type*) where
  id : ℕ
  name : Option String
  value : α
  deriving DecidableEq, Repr

variable {α : Type*}

/-- A node has one parent, so it leaves the place it had. -/
def addChildNode (children : List (Node α)) (n : Node α) : List (Node α) :=
  Keyed.erase Node.id children n.id ++ [n]

def removeFromParentNode (children : List (Node α)) (n : Node α) : List (Node α) :=
  Keyed.erase Node.id children n.id

variable {children : List (Node α)} {n : Node α}

/-- A node that is not attached comes last. -/
lemma addChildNode_of_lt {k : ℕ} (h : ∀ m ∈ children, m.id < k) (hn : k ≤ n.id) :
    addChildNode children n = children ++ [n] := by
  have hfresh : n.id ∉ children.map Node.id := fun hm => by
    obtain ⟨m, hm, hid⟩ := List.mem_map.mp hm
    have := h m hm
    omega
  rw [addChildNode, Keyed.erase_of_notMem hfresh]

/-- With a new node the next identity is new. -/
lemma lt_of_mem_addChildNode {k : ℕ} {name : Option String} {value : α}
    (h : ∀ m ∈ children, m.id < k) :
    ∀ m ∈ addChildNode children ⟨k, name, value⟩, m.id < k + 1 := by
  intro m hm
  rw [addChildNode_of_lt h (Nat.le_refl k)] at hm
  rcases List.mem_append.mp hm with hm | hm
  · have hlt := h m hm
    omega
  · obtain rfl := List.mem_singleton.mp hm
    exact Nat.lt_succ_self k

/-- Nodes detached one after the other are all gone, and the others stay. -/
lemma foldl_removeFromParentNode (ns children : List (Node α)) :
    ns.foldl removeFromParentNode children =
      children.filter fun m => decide (m.id ∉ ns.map Node.id) := by
  induction ns generalizing children with
  | nil => simp
  | cons n ns ih =>
    rw [List.foldl_cons, ih, removeFromParentNode, Keyed.erase, List.filter_filter]
    apply List.filter_congr
    intro m _
    rw [List.map_cons, ← Bool.decide_and, decide_eq_decide, List.mem_cons, not_or, and_comm]

end IosDevBootcamp.Lib.SceneGraph
