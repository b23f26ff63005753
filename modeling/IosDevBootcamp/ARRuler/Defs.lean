import Mathlib.Algebra.Field.Defs
import Mathlib.Data.Rat.Cast.Defs
import IosDevBootcamp.Lib.SceneGraph

/-!
# AR Ruler

`ViewController` puts a dot where a tap hits a feature point, starts again with the third dot, and
shows the distance of two dots in a text next to the first.  The dots are kept twice, in
`dotNodesArray` and in the scene; the text is found in the scene by its name.
-/

namespace IosDevBootcamp.ARRuler

open IosDevBootcamp.Lib.SceneGraph

variable {R : Type*} [Field R]

/-- What happens to a number on its way to a text: `sqrt`, and `String(format: "%.2f in", _)`. -/
structure Numerics (R : Type*) where
  sqrt : R → R
  format : R → String

inductive Color
  | white | green | red
  deriving DecidableEq, Repr

inductive Geometry (R : Type*)
  | sphere (radius : R) (diffuse : Color)
  | text (string : String) (extrusionDepth : R) (diffuse : Color)
  deriving DecidableEq, Repr

/-- What a node of the scene shows. -/
structure Body (R : Type*) where
  geometry : Geometry R
  position : Vector3 R
  scale : Vector3 R
  deriving DecidableEq, Repr

/-- The controller and the scene it draws in; `next` is the identity of the next node. -/
structure ViewController (R : Type*) where
  dotNodesArray : List (Node (Body R))
  childNodes : List (Node (Body R))
  next : ℕ
  deriving DecidableEq, Repr

def launch : ViewController R := ⟨[], [], 0⟩

/-- What `calculate` measures: a squared distance, and the place to show it at. -/
structure Measurement (R : Type*) where
  squared : R
  location : Vector3 R
  deriving DecidableEq, Repr

namespace ViewController

variable (N : Numerics R) (s : ViewController R)

def showMeasurement (text : String) (location : Vector3 R) : ViewController R :=
  let textNode : Node (Body R) := ⟨s.next, some "textNode",
    ⟨.text text 1 .red, ⟨location.x, location.y + 0.01, location.z⟩, ⟨0.005, 0.005, 0.005⟩⟩⟩
  let childNodes :=
    (s.childNodes.filter fun n => n.name = some "textNode").foldl removeFromParentNode s.childNodes
  { s with childNodes := addChildNode childNodes textNode, next := s.next + 1 }

/-- The measurement of the first and the last dot. -/
def measurement : Option (Measurement R) :=
  match s.dotNodesArray.head?, s.dotNodesArray.getLast? with
  | some start, some last =>
    let a := last.value.position.x - start.value.position.x
    let b := last.value.position.y - start.value.position.y
    let c := last.value.position.z - last.value.position.z
    some ⟨a ^ 2 + b ^ 2 + c ^ 2, start.value.position⟩
  | _, _ => none

/-- The text of a squared distance in metres. -/
def formattedInches (squared : R) : String :=
  let distance := N.sqrt squared
  let distanceInInches := (distance * 100) / 2.54
  N.format distanceInInches

def calculate : ViewController R :=
  match s.measurement with
  | some m => s.showMeasurement (formattedInches N m.squared) m.location
  | none => s

def addDot (location : HitTestResult R) : ViewController R :=
  let s := if s.dotNodesArray.length = 2 then
      { s with
        childNodes := s.dotNodesArray.foldl removeFromParentNode s.childNodes
        dotNodesArray := [] }
    else s
  let diffuse : Color :=
    if s.dotNodesArray.length = 0 then .green
    else if s.dotNodesArray.length = 1 then .red
    else .white
  let dotNode : Node (Body R) :=
    ⟨s.next, none, ⟨.sphere 0.005 diffuse, location.position, ⟨1, 1, 1⟩⟩⟩
  let s := { s with
    dotNodesArray := s.dotNodesArray ++ [dotNode]
    childNodes := addChildNode s.childNodes dotNode
    next := s.next + 1 }
  if s.dotNodesArray.length ≥ 2 then s.calculate N else s

/-- A touch, with the feature points that its hit test finds. -/
def touchesBegan (hitTestResults : List (HitTestResult R)) : ViewController R :=
  match hitTestResults.head? with
  | some hitResult => s.addDot N hitResult
  | none => s

end ViewController

end IosDevBootcamp.ARRuler
