import IosDevBootcamp.Lib.Run
import IosDevBootcamp.Lib.SceneGraph
import IosDevBootcamp.Lib.Transform

/-!
# AR Dicee

`ViewController` adds a die where a tap hits a plane, keeps the dice in `diceArray` as well as in
the scene, and rolls all of the array.  As a delegate of the renderer it draws a grid on each plane
that is detected.
-/

namespace IosDevBootcamp.ARDiceee

open IosDevBootcamp.Lib.SceneGraph IosDevBootcamp.Lib.Transform

variable {R : Type*} [Add R]

/-- `SCNAction.rotateBy(x:y:z:duration:)` on a node: the quarter turns about two axes. -/
structure Roll (R : Type*) where
  node : Node (Vector3 R)
  x : ℕ
  z : ℕ
  deriving DecidableEq, Repr

/-- The controller, the scene it draws in and the actions it has started.  A node shows nothing but
its position, and `next` is the identity of the next node. -/
structure ViewController (R : Type*) where
  diceArray : List (Node (Vector3 R))
  childNodes : List (Node (Vector3 R))
  next : ℕ
  actions : List (Roll R)
  deriving DecidableEq, Repr

def launch : ViewController R := ⟨[], [], 0, []⟩

inductive Event (R : Type*)
  /-- A touch, with the planes that its hit test finds. -/
  | touchesBegan (results : List (HitTestResult R))
  /-- The roll button, with what `arc4random_uniform(4)` gives call after call. -/
  | rollDice (random : ℕ → Fin 4)
  /-- A shake. -/
  | motionEnded (random : ℕ → Fin 4)
  | removeAllDice

namespace ViewController

/-- `diceScene` is the scene file and the node `Dice` in it, either of which may be missing; of the
node only the radius of its bounding sphere is used. -/
def addDice (diceScene : Option (Option R)) (s : ViewController R) (hitResult : HitTestResult R) :
    ViewController R :=
  match diceScene with
  | none => s
  | some none => s
  | some (some radius) =>
    let place := hitResult.position
    let diceNode : Node (Vector3 R) := ⟨s.next, some "Dice", ⟨place.x, place.y + radius, place.z⟩⟩
    { s with
      childNodes := addChildNode s.childNodes diceNode
      diceArray := s.diceArray ++ [diceNode]
      next := s.next + 1 }

/-- `(arc4random_uniform(4) + 1) * (π / 2) * 5`, in quarter turns. -/
def roll (randomX randomZ : Fin 4) (diceNode : Node (Vector3 R)) : Roll R :=
  ⟨diceNode, (randomX + 1) * 5, (randomZ + 1) * 5⟩

/-- The rolls that are started, one for each die of the array. -/
def rollAll (s : ViewController R) (random : ℕ → Fin 4) : List (Roll R) :=
  s.diceArray.mapIdx fun i dice => roll (random (2 * i)) (random (2 * i + 1)) dice

def removeAllDice (s : ViewController R) : ViewController R :=
  if s.diceArray.isEmpty then s
  else { s with childNodes := s.diceArray.foldl removeFromParentNode s.childNodes }

def step (diceScene : Option (Option R)) (s : ViewController R) :
    Event R → Except Empty (ViewController R)
  | .touchesBegan results =>
    match results.head? with
    | some hitResult => .ok (s.addDice diceScene hitResult)
    | none => .ok s
  | .rollDice random => .ok { s with actions := s.actions ++ s.rollAll random }
  | .motionEnded random => .ok { s with actions := s.actions ++ s.rollAll random }
  | .removeAllDice => .ok s.removeAllDice

end ViewController

/-! ### Planes -/

section Planes

variable {R : Type*} [CommRing R]

/-- A plane that is detected: its centre and its extent in the coordinates of the anchor. -/
structure ARPlaneAnchor (R : Type*) where
  center : Vector3 R
  extent : Vector3 R
  deriving DecidableEq, Repr

inductive ARAnchor (R : Type*)
  | plane (planeAnchor : ARPlaneAnchor R)
  | other
  deriving DecidableEq, Repr

/-- A plane of a width and a height, with the images of its materials. -/
structure SCNPlane (R : Type*) where
  width : R
  height : R
  materials : List String
  deriving DecidableEq, Repr

/-- What a node of the renderer shows, and where. -/
structure Body (R : Type*) where
  geometry : Option (SCNPlane R)
  transform : SCNMatrix4 R
  deriving DecidableEq, Repr

/-- The node of an anchor, as a parent: every identity from `next` on is new. -/
structure AnchorNode (R : Type*) where
  childNodes : List (Node (Body R))
  next : ℕ
  id_lt : ∀ n ∈ childNodes, n.id < next

def createPlane (planeAnchor : ARPlaneAnchor R) : Body R :=
  let plane : SCNPlane R := ⟨planeAnchor.extent.x, planeAnchor.extent.z, []⟩
  let planeNode : Body R := ⟨none, .identity⟩
  let position := ⟨planeAnchor.center.x, 0, planeAnchor.center.z⟩
  let planeNode := { planeNode with transform := planeNode.transform.setPosition position }
  let planeNode := { planeNode with transform := makeRotation Angle.minusHalfPi 1 0 0 }
  let gridMaterial := "art.scnassets/grid.png"
  let plane := { plane with materials := [gridMaterial] }
  { planeNode with geometry := some plane }

/-- `renderer(_:didAdd:for:)`. -/
def renderer (node : AnchorNode R) (anchor : ARAnchor R) : AnchorNode R :=
  match anchor with
  | .other => node
  | .plane planeAnchor =>
    let planeNode : Node (Body R) := ⟨node.next, none, createPlane planeAnchor⟩
    { childNodes := addChildNode node.childNodes planeNode
      next := node.next + 1
      id_lt := lt_of_mem_addChildNode node.id_lt }

end Planes

end IosDevBootcamp.ARDiceee
