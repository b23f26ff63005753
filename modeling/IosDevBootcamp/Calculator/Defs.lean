import IosDevBootcamp.Lib.Numeral
import IosDevBootcamp.Lib.Run

/-!
# The calculator

`CalculatorManager` keeps the operand of the last calc key and one pending operation;
`ViewController` keeps the label and the flag `isDoneTyping`, and reads its operands back from the
label.  The arithmetic is an arbitrary type `D` with the operations and the text conversions the
code uses of `Double`; what is assumed of the conversions are the last fields of `SwiftDouble`.
-/

namespace IosDevBootcamp.Calculator

open IosDevBootcamp.Lib.Numeral IosDevBootcamp.Lib.Run

/-! ### The keys -/

/-- The keys wired to `calcButtonPressed`. -/
inductive CalcKey
  | clear | sign | percent | divide | multiply | subtract | add | equals
  deriving DecidableEq, Repr

def CalcKey.title : CalcKey → String
  | .clear => "AC"
  | .sign => "+/-"
  | .percent => "%"
  | .divide => "÷"
  | .multiply => "×"
  | .subtract => "-"
  | .add => "+"
  | .equals => "="

/-- The keys wired to `numButtonPressed`. -/
inductive NumKey
  | digit (d : Fin 10)
  | point
  deriving DecidableEq, Repr

/-- The title of a number key, the text it puts on the label. -/
def NumKey.title : NumKey → List Char
  | .digit d => [Nat.digitChar d]
  | .point => ['.']

inductive Key
  | calcButton (c : CalcKey)
  | numButton (n : NumKey)
  deriving DecidableEq, Repr

/-! ### The arithmetic -/

/-- What the calculator uses of `Double`: the literals, the operations, the test
`floor(x) == x`, and the conversions from and to text.  A text reads as a number exactly when it is
a numeral, and what is written reads back as the same value. -/
class SwiftDouble (D : Type*) where
  zero : D
  minusOne : D
  hundred : D
  add : D → D → D
  sub : D → D → D
  mul : D → D → D
  div : D → D → D
  /-- `floor(x) == x`. -/
  isInt : D → Bool
  /-- `Double(text)`. -/
  ofText : List Char → Option D
  /-- `String(x)`. -/
  toText : D → List Char
  ofText_isSome : ∀ t, (ofText t).isSome ↔ IsNumeral t
  ofText_toText : ∀ x, ofText (toText x) = some x
  ofText_zero : ofText ['0'] = some zero
  toText_zero : toText zero = ['0', '.', '0']
  isInt_zero : isInt zero = true

variable {D : Type*} [SwiftDouble D]

open SwiftDouble

/-! ### Traps -/

/-- The calls of `fatalError`. -/
inductive Trap
  /-- The getter of `displayValue` finds no number on the label. -/
  | displayValue
  /-- `calcButtonPressed` finds no title. -/
  | noTitle
  /-- The guard of the decimal point finds no number on the label. -/
  | pointGuard
  /-- `calculate` finds no number. -/
  | noNumber
  deriving DecidableEq, Repr

def Trap.message : Trap → String
  | .displayValue => "Unable to covert display to double"
  | .noTitle => "button not found"
  | .pointGuard => "Unable to convert num to double"
  | .noNumber => "no number found"

/-! ### `CalculatorManager` -/

structure CalculatorManager (D : Type*) where
  number : Option D
  intermediateCalculation : Option (D × CalcKey)
  deriving DecidableEq

namespace CalculatorManager

def setNumber (m : CalculatorManager D) (number : D) : CalculatorManager D :=
  { m with number := some number }

/-- `performCalculation`: the pending operation applied to its operand and `n2`. -/
def performCalculation (m : CalculatorManager D) (n2 : D) : Option D :=
  match m.intermediateCalculation with
  | none => none
  | some (n1, operation) =>
    match operation with
    | .add => some (add n1 n2)
    | .subtract => some (sub n1 n2)
    | .divide => some (div n1 n2)
    | .multiply => some (mul n1 n2)
    | _ => none

/-- `calculate`: the result to display, if any, and the manager after it. -/
def calculate (m : CalculatorManager D) (symbol : CalcKey) :
    Except Trap (Option D × CalculatorManager D) :=
  match m.number with
  | none => .error .noNumber
  | some number =>
    match symbol with
    | .sign => .ok (some (mul number minusOne), m)
    | .percent => .ok (some (div number hundred), m)
    | .equals => .ok (m.performCalculation number, m)
    | .clear => .ok (some zero, m)
    | symbol => .ok (none, { m with intermediateCalculation := some (number, symbol) })

end CalculatorManager

/-! ### `ViewController` -/

structure ViewController (D : Type*) where
  displayLabel : List Char
  isDoneTyping : Bool
  calculator : CalculatorManager D
  deriving DecidableEq

/-- The screen at launch; the storyboard puts `0` on the label. -/
def launch : ViewController D where
  displayLabel := ['0']
  isDoneTyping := true
  calculator := ⟨none, none⟩

namespace ViewController

/-- The getter of `displayValue`. -/
def displayValue (s : ViewController D) : Except Trap D :=
  match (ofText s.displayLabel : Option D) with
  | some number => .ok number
  | none => .error .displayValue

/-- The setter of `displayValue`. -/
def setDisplayValue (s : ViewController D) (newValue : D) : ViewController D :=
  { s with displayLabel := toText newValue }

/-- `calcButtonPressed`, with the title of the button. -/
def calcButtonPressed (s : ViewController D) (currentTitle : Option CalcKey) :
    Except Trap (ViewController D) := do
  let value ← s.displayValue
  let calculator := s.calculator.setNumber value
  match currentTitle with
  | none => .error .noTitle
  | some button =>
    let (result, calculator) ← calculator.calculate button
    let s := { s with calculator := calculator }
    let s := match result with
      | some result => s.setDisplayValue result
      | none => s
    return { s with isDoneTyping := !s.isDoneTyping }

/-- `numButtonPressed`, with the title of the button. -/
def numButtonPressed (s : ViewController D) (currentTitle : Option NumKey) :
    Except Trap (ViewController D) :=
  match currentTitle with
  | none => .ok s
  | some numberTapped =>
    if s.isDoneTyping then
      .ok { s with displayLabel := numberTapped.title, isDoneTyping := !s.isDoneTyping }
    else if numberTapped = .point then
      match (ofText s.displayLabel : Option D) with
      | none => .error .pointGuard
      | some currentValue =>
        if !(isInt currentValue) then .ok s
        else .ok { s with displayLabel := s.displayLabel ++ numberTapped.title }
    else .ok { s with displayLabel := s.displayLabel ++ numberTapped.title }

/-- A tap on a key; every key of the storyboard has a title. -/
def press (s : ViewController D) : Key → Except Trap (ViewController D)
  | .calcButton c => s.calcButtonPressed (some c)
  | .numButton n => s.numButtonPressed (some n)

end ViewController

/-! ### Reading the label -/

lemma kind_digitChar (d : Fin 10) : kind (Nat.digitChar d) = .digit := by
  revert d; decide

lemma kind_point : kind '.' = .point := by decide

lemma isNumeral_of_ofText {t : List Char} {x : D} (h : ofText t = some x) : IsNumeral t :=
  (ofText_isSome (D := D) t).mp (by simp [h])

lemma exists_ofText {t : List Char} (h : IsNumeral t) : ∃ x : D, ofText t = some x :=
  Option.isSome_iff_exists.mp ((ofText_isSome t).mpr h)

lemma ofText_eq_none {t : List Char} (h : ¬ IsNumeral t) : (ofText t : Option D) = none := by
  rwa [← Option.not_isSome_iff_eq_none, ofText_isSome]

lemma isNumeral_toText (x : D) : IsNumeral (toText x) :=
  isNumeral_of_ofText (ofText_toText x)

/-! ### What a calc key does -/

/-- The result `calculate` shows for the key `c` on the operand `x`, with `pending` stored. -/
def result (pending : Option (D × CalcKey)) (c : CalcKey) (x : D) : Option D :=
  match c with
  | .sign => some (mul x minusOne)
  | .percent => some (div x hundred)
  | .equals => CalculatorManager.performCalculation ⟨some x, pending⟩ x
  | .clear => some zero
  | _ => none

/-- What is stored after the key `c` on the operand `x`, with `pending` stored before. -/
def pendingAfter (pending : Option (D × CalcKey)) (c : CalcKey) (x : D) : Option (D × CalcKey) :=
  match c with
  | .divide | .multiply | .subtract | .add => some (x, c)
  | _ => pending

def labelAfter (t : List Char) (r : Option D) : List Char := r.elim t toText

lemma isNumeral_labelAfter {t : List Char} (h : IsNumeral t) (r : Option D) :
    IsNumeral (labelAfter t r) := by
  cases r with
  | none => exact h
  | some r => exact isNumeral_toText r

/-! ### The operators -/

inductive Operator
  | add | subtract | multiply | divide
  deriving DecidableEq, Repr

namespace Operator

def key : Operator → CalcKey
  | add => .add
  | subtract => .subtract
  | multiply => .multiply
  | divide => .divide

def eval : Operator → D → D → D
  | add => SwiftDouble.add
  | subtract => SwiftDouble.sub
  | multiply => SwiftDouble.mul
  | divide => SwiftDouble.div

@[simp] lemma result_key (o : Operator) (p : Option (D × CalcKey)) (x : D) :
    result p o.key x = none := by
  cases o <;> rfl

omit [SwiftDouble D] in
@[simp] lemma pendingAfter_key (o : Operator) (p : Option (D × CalcKey)) (x : D) :
    pendingAfter p o.key x = some (x, o.key) := by
  cases o <;> rfl

@[simp] lemma result_equals (o : Operator) (a x : D) :
    result (some (a, o.key)) .equals x = some (o.eval a x) := by
  cases o <;> rfl

end Operator

namespace ViewController

/-- The screen after the key `c` on a label that reads as `x`. -/
def afterCalc (s : ViewController D) (c : CalcKey) (x : D) : ViewController D where
  displayLabel := labelAfter s.displayLabel (result s.calculator.intermediateCalculation c x)
  isDoneTyping := !s.isDoneTyping
  calculator := ⟨some x, pendingAfter s.calculator.intermediateCalculation c x⟩

@[simp] lemma displayLabel_afterCalc (s : ViewController D) (c : CalcKey) (x : D) :
    (s.afterCalc c x).displayLabel =
      labelAfter s.displayLabel (result s.calculator.intermediateCalculation c x) := rfl

@[simp] lemma isDoneTyping_afterCalc (s : ViewController D) (c : CalcKey) (x : D) :
    (s.afterCalc c x).isDoneTyping = !s.isDoneTyping := rfl

@[simp] lemma pending_afterCalc (s : ViewController D) (c : CalcKey) (x : D) :
    (s.afterCalc c x).calculator.intermediateCalculation =
      pendingAfter s.calculator.intermediateCalculation c x := rfl

/-- **What a calc key does** on a label that reads as a number. -/
lemma press_calc {s : ViewController D} {x : D} (h : ofText s.displayLabel = some x)
    (c : CalcKey) : s.press (.calcButton c) = .ok (s.afterCalc c x) := by
  obtain ⟨t, done, n, p⟩ := s
  cases c
  case equals =>
    simp only [press, calcButtonPressed, displayValue, h, CalculatorManager.calculate,
      CalculatorManager.setNumber, bind, Except.bind, afterCalc, result, pendingAfter]
    cases CalculatorManager.performCalculation ⟨some x, p⟩ x <;> rfl
  all_goals
    simp only [press, calcButtonPressed, displayValue, h, bind, Except.bind]
    rfl

lemma press_calc_trap {s : ViewController D} (h : ¬ IsNumeral s.displayLabel) (c : CalcKey) :
    s.press (.calcButton c) = .error .displayValue := by
  simp only [press, calcButtonPressed, displayValue, ofText_eq_none h]
  rfl

/-! ### What a number key does -/

lemma press_num_fresh {s : ViewController D} (h : s.isDoneTyping = true) (n : NumKey) :
    s.press (.numButton n) = .ok { s with displayLabel := n.title, isDoneTyping := false } := by
  simp [press, numButtonPressed, h]

lemma press_digit_append {s : ViewController D} (h : s.isDoneTyping = false) (d : Fin 10) :
    s.press (.numButton (.digit d)) =
      .ok { s with displayLabel := s.displayLabel ++ [Nat.digitChar d] } := by
  simp [press, numButtonPressed, h, NumKey.title]

/-- A further point is appended to an integral value and dropped otherwise. -/
lemma press_point_append {s : ViewController D} {x : D} (h : s.isDoneTyping = false)
    (hx : ofText s.displayLabel = some x) :
    s.press (.numButton .point) = .ok (if isInt x then
      { s with displayLabel := s.displayLabel ++ ['.'] } else s) := by
  cases hi : isInt x <;> simp [press, numButtonPressed, h, hx, NumKey.title, hi]

lemma press_point_trap {s : ViewController D} (h : s.isDoneTyping = false)
    (hx : ¬ IsNumeral s.displayLabel) : s.press (.numButton .point) = .error .pointGuard := by
  simp [press, numButtonPressed, h, ofText_eq_none hx]

end ViewController

end IosDevBootcamp.Calculator
