import Mathlib.Algebra.Ring.Int.Defs
import IosDevBootcamp.ARDiceee.Defs

/-!
# The array and the dice on screen

A die is added to both and nothing else changes either, except that removing all dice takes them
out of the scene only.  From then on the array holds dice that are gone, and rolls them.
-/

namespace IosDevBootcamp.ARDiceee

open IosDevBootcamp.Lib.SceneGraph IosDevBootcamp.Lib.Run ViewController HitTestResult

variable {R : Type*}

def IsVisible (s : ViewController R) (n : Node (Vector3 R)) : Prop :=
  n ∈ s.childNodes ∧ n.name = some "Dice"

/-- The list has every visible die once, and no other node. -/
structure OnScreen (s : ViewController R) (l : List (Node (Vector3 R))) : Prop where
  nodup : l.Nodup
  mem_iff : ∀ n, n ∈ l ↔ IsVisible s n

/-- All dice are removed only before the first one is added. -/
def KeepsDice (s : ViewController R) : Event R → Prop
  | .removeAllDice => s.diceArray = []
  | _ => True

/-! ### What every run keeps -/

/-- Every node of the scene is a die of the array, and the dice are distinct objects. -/
structure Inv (s : ViewController R) : Prop where
  nodup : (s.diceArray.map Node.id).Nodup
  dice : ∀ n ∈ s.diceArray, n.name = some "Dice" ∧ n.id < s.next
  scene : ∀ n ∈ s.childNodes, n ∈ s.diceArray

/-- No die of the array has been removed from the scene. -/
def AllAttached (s : ViewController R) : Prop := ∀ n ∈ s.diceArray, n ∈ s.childNodes

lemma inv_launch : Inv (launch : ViewController R) := by
  constructor <;> simp [launch]

variable {s : ViewController R}

lemma onScreen_iff (h : Inv s) : OnScreen s s.diceArray ↔ AllAttached s := by
  constructor
  · intro hs n hn
    exact ((hs.mem_iff n).mp hn).1
  · intro hs
    exact ⟨h.nodup.of_map Node.id, fun n =>
      ⟨fun hn => ⟨hs n hn, (h.dice n hn).1⟩, fun hn => h.scene n hn.1⟩⟩

/-! ### Steps -/

lemma inv_removeAllDice (h : Inv s) :
    Inv s.removeAllDice ∧ (AllAttached s.removeAllDice ↔ AllAttached s ∧ s.diceArray = []) := by
  by_cases hnil : s.diceArray = []
  · have heq : s.removeAllDice = s := by simp [removeAllDice, hnil]
    rw [heq]
    exact ⟨h, (and_iff_left hnil).symm⟩
  · -- every die is in the array, so none is left in the scene
    have hnone : s.diceArray.foldl removeFromParentNode s.childNodes = [] := by
      rw [foldl_removeFromParentNode]
      apply List.filter_eq_nil_iff.mpr
      intro n hn hkeep
      exact of_decide_eq_true hkeep (List.mem_map_of_mem (h.scene n hn))
    have heq : s.removeAllDice = { s with childNodes := [] } := by
      simp [removeAllDice, hnil, hnone]
    rw [heq]
    have hall : ¬ AllAttached { s with childNodes := [] } := by
      intro hall
      obtain ⟨n, l, hl⟩ := List.exists_cons_of_ne_nil hnil
      exact absurd (hall n (by simp [hl])) List.not_mem_nil
    exact ⟨⟨h.nodup, h.dice, by simp⟩, iff_of_false hall fun hc => hnil hc.2⟩

variable [Add R]

lemma addDice_eq (h : Inv s) (radius : R) (hit : HitTestResult R) :
    ∃ die : Node (Vector3 R), die.name = some "Dice" ∧ die.id = s.next ∧
      s.addDice (some (some radius)) hit = { s with
        childNodes := s.childNodes ++ [die]
        diceArray := s.diceArray ++ [die]
        next := s.next + 1 } := by
  refine ⟨⟨s.next, some "Dice",
    ⟨hit.position.x, hit.position.y + radius, hit.position.z⟩⟩, rfl, rfl, ?_⟩
  have hadd := addChildNode_of_lt (k := s.next) (n := ⟨s.next, some "Dice",
    ⟨hit.position.x, hit.position.y + radius, hit.position.z⟩⟩)
    (fun n hn => (h.dice n (h.scene n hn)).2) (Nat.le_refl _)
  rw [addDice]
  simp only [hadd]

lemma inv_addDice (h : Inv s) (diceScene : Option (Option R)) (hit : HitTestResult R) :
    Inv (s.addDice diceScene hit) ∧ (AllAttached (s.addDice diceScene hit) ↔ AllAttached s) := by
  rcases diceScene with - | - | radius
  · exact ⟨h, Iff.rfl⟩
  · exact ⟨h, Iff.rfl⟩
  obtain ⟨die, hname, hid, heq⟩ := addDice_eq h radius hit
  have hnew : die ∉ s.diceArray := fun hm => by
    have := (h.dice die hm).2
    omega
  rw [heq]
  refine ⟨⟨?_, ?_, ?_⟩, ?_⟩
  · rw [List.map_append, List.map_singleton]
    refine List.nodup_append.mpr ⟨h.nodup, List.nodup_singleton _, ?_⟩
    intro i hi j hj hij
    obtain ⟨n, hn, rfl⟩ := List.mem_map.mp hi
    have := (h.dice n hn).2
    have := List.mem_singleton.mp hj
    omega
  · intro n hn
    rcases List.mem_append.mp hn with hn | hn
    · obtain ⟨hdice, hlt⟩ := h.dice n hn
      exact ⟨hdice, show n.id < s.next + 1 by omega⟩
    · obtain rfl := List.mem_singleton.mp hn
      exact ⟨hname, show n.id < s.next + 1 by omega⟩
  · intro n hn
    rcases List.mem_append.mp hn with hn | hn
    · exact List.mem_append_left _ (h.scene n hn)
    · exact List.mem_append_right _ hn
  · constructor
    · intro hall n hn
      rcases List.mem_append.mp (hall n (List.mem_append_left _ hn)) with hm | hm
      · exact hm
      · exact absurd (List.mem_singleton.mp hm ▸ hn) hnew
    · intro hall n hn
      rcases List.mem_append.mp hn with hn | hn
      · exact List.mem_append_left _ (hall n hn)
      · exact List.mem_append_right _ hn

variable {diceScene : Option (Option R)}

lemma inv_step {s' : ViewController R} {e : Event R} (h : Inv s)
    (hs : step diceScene s e = .ok s') :
    Inv s' ∧ (AllAttached s' ↔ AllAttached s ∧ KeepsDice s e) := by
  cases e with
  | touchesBegan results =>
    simp only [step] at hs
    split at hs
    · rename_i hit _
      cases hs
      obtain ⟨hi, hall⟩ := inv_addDice h diceScene hit
      exact ⟨hi, hall.trans (and_iff_left trivial).symm⟩
    · cases hs
      exact ⟨h, (and_iff_left trivial).symm⟩
  | rollDice random =>
    cases hs
    exact ⟨⟨h.nodup, h.dice, h.scene⟩, (and_iff_left trivial).symm⟩
  | motionEnded random =>
    cases hs
    exact ⟨⟨h.nodup, h.dice, h.scene⟩, (and_iff_left trivial).symm⟩
  | removeAllDice =>
    cases hs
    exact inv_removeAllDice h

/-! ### Runs -/

omit [Add R] in
lemma map_node_rollAll (s : ViewController R) (random : ℕ → Fin 4) :
    (s.rollAll random).map Roll.node = s.diceArray := by
  apply List.ext_getElem?
  intro i
  simp [rollAll, roll, Function.comp_def]

/-- **When the array is exactly the dice on screen.**  After a run `diceArray` has every visible die
once and no other, and a roll starts one action on each of them and none elsewhere, exactly when the
run removed all dice only before the first one was added. -/
theorem array_on_screen_iff {es : List (Event R)}
    (h : run (step diceScene) launch es = .ok s) :
    (OnScreen s s.diceArray ∧ ∀ random, OnScreen s ((s.rollAll random).map Roll.node)) ↔
      Along (step diceScene) KeepsDice launch es := by
  have hi : Inv s := run_inv (fun _ _ _ hi hs => (inv_step hi hs).1) inv_launch h
  have hrun := run_iff_along (fun _ _ _ hi hs => inv_step hi hs) inv_launch h
  have hstart : AllAttached (launch : ViewController R) := fun n hn => by cases hn
  simp only [map_node_rollAll, onScreen_iff hi, forall_const, and_self]
  rw [hrun]
  exact and_iff_right hstart

theorem array_on_screen_iff_two :
    ∃ s, run (step (some (some (1 : ℤ)))) launch [.removeAllDice, .touchesBegan [translation 0 0 0],
        .touchesBegan [translation 5 0 0], .motionEnded fun _ => 0] = .ok s ∧
      s.childNodes.length = 2 ∧ OnScreen s s.diceArray := by
  obtain ⟨s, hs, hlen⟩ : ∃ s, run (step (some (some (1 : ℤ)))) launch [.removeAllDice,
      .touchesBegan [translation 0 0 0], .touchesBegan [translation 5 0 0],
      .motionEnded fun _ => 0] = .ok s ∧ s.childNodes.length = 2 := ⟨_, rfl, rfl⟩
  exact ⟨s, hs, hlen, ((array_on_screen_iff hs).mpr ⟨rfl, trivial, trivial, trivial, trivial⟩).1⟩

/-- A removed die stays in the array, and is rolled. -/
theorem removed_die_rolled :
    ∃ s, run (step (some (some (1 : ℤ)))) launch [.touchesBegan [translation 0 0 0], .removeAllDice,
        .rollDice fun _ => 0] = .ok s ∧
      s.childNodes = [] ∧ s.diceArray.length = 1 ∧ s.actions.length = 1 ∧
      ¬ OnScreen s s.diceArray := by
  refine ⟨_, rfl, rfl, rfl, rfl, ?_⟩
  intro h
  exact absurd ((h.mem_iff _).mp (List.mem_singleton_self _)).1 List.not_mem_nil

end IosDevBootcamp.ARDiceee
