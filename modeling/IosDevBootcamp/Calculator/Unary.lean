import IosDevBootcamp.Calculator.Hundredths

/-!
# Sign change and percent

The two unary keys compute on the label and leave the pending operation alone, so any number of
them can stand between an operand and `=`.
-/

namespace IosDevBootcamp.Calculator

open IosDevBootcamp.Lib.Run SwiftDouble ViewController

/-- The keys that change the number on the label and nothing that is stored. -/
inductive Unary
  | sign | percent
  deriving DecidableEq, Repr

namespace Unary

def key : Unary → CalcKey
  | sign => .sign
  | percent => .percent

def keys (u : List Unary) : List Key := u.map fun f => .calcButton f.key

variable {D : Type*} [SwiftDouble D] (neg : D → D)

def eval : Unary → D → D
  | sign, x => neg x
  | percent, x => div x hundred

/-- The value of a word of unary keys on `b`. -/
def evalAll (u : List Unary) (b : D) : D := u.foldl (fun x f => f.eval neg x) b

variable {neg}

lemma result_key (hneg : ∀ x : D, mul x minusOne = neg x) (f : Unary)
    (p : Option (D × CalcKey)) (x : D) : result p f.key x = some (f.eval neg x) := by
  cases f with
  | sign => exact congrArg some (hneg x)
  | percent => rfl

omit [SwiftDouble D] in
lemma pendingAfter_key (f : Unary) (p : Option (D × CalcKey)) (x : D) :
    pendingAfter p f.key x = p := by
  cases f <;> rfl

end Unary

variable {D : Type*} [SwiftDouble D] {neg : D → D}

/-- A word of unary keys is applied to the number on the label. -/
lemma run_unary (hneg : ∀ x : D, mul x minusOne = neg x) (u : List Unary) {s : ViewController D}
    {b : D} (hb : ofText s.displayLabel = some b) :
    ∃ s', run press s (Unary.keys u) = .ok s' ∧
      ofText s'.displayLabel = some (Unary.evalAll neg u b) ∧
      s'.calculator.intermediateCalculation = s.calculator.intermediateCalculation := by
  induction u generalizing s b with
  | nil => exact ⟨s, rfl, hb, rfl⟩
  | cons f u ih =>
    have htext : ofText (s.afterCalc f.key b).displayLabel = some (f.eval neg b) := by
      rw [displayLabel_afterCalc, Unary.result_key hneg]
      exact ofText_toText _
    obtain ⟨s', hs', hlabel, hpending⟩ := ih htext
    refine ⟨s', ?_, hlabel, ?_⟩
    · rw [Unary.keys, List.map_cons, run_cons_ok (press_calc hb f.key)]
      exact hs'
    · rw [hpending, pending_afterCalc, Unary.pendingAfter_key]

/-- **Sign change and percent keep the pending operation.**  With `a op` pending and `b` on the
label, a word `u` of these keys and then `=` show `a op u(b)`, and `a op` is pending still. -/
theorem unary_keeps_pending (hneg : ∀ x : D, mul x minusOne = neg x) {s : ViewController D}
    (o : Operator) {a b : D} (hp : s.calculator.intermediateCalculation = some (a, o.key))
    (hb : ofText s.displayLabel = some b) (u : List Unary) :
    ∃ s', run press s (Unary.keys u ++ [.calcButton .equals]) = .ok s' ∧
      s'.displayLabel = toText (o.eval a (Unary.evalAll neg u b)) ∧
      ofText s'.displayLabel = some (o.eval a (Unary.evalAll neg u b)) ∧
      s'.calculator.intermediateCalculation = some (a, o.key) := by
  obtain ⟨t, ht, hlabel, hpending⟩ := run_unary hneg u hb
  have heq : (t.afterCalc .equals (Unary.evalAll neg u b)).displayLabel =
      toText (o.eval a (Unary.evalAll neg u b)) := by
    rw [displayLabel_afterCalc, hpending, hp, Operator.result_equals]
    rfl
  refine ⟨t.afterCalc .equals (Unary.evalAll neg u b), ?_, heq, ?_, ?_⟩
  · rw [run_append_ok ht, run_singleton, press_calc hlabel]
  · rw [heq, ofText_toText]
  · rw [pending_afterCalc, hpending, hp]
    rfl

/-- `5 + 200`, then sign change, percent and `=`, shows `3`. -/
theorem unary_keeps_pending_five :
    ∃ s s', run press (launch : ViewController Hundredths) [.numButton (.digit 5),
        .calcButton .add, .numButton (.digit 2), .numButton (.digit 0), .numButton (.digit 0)] =
          .ok s ∧
      run press s (Unary.keys [.sign, .percent] ++ [.calcButton .equals]) = .ok s' ∧
      s'.displayLabel = ['3', '.', '0'] ∧
      s'.calculator.intermediateCalculation = some (.num 500, .add) := by
  obtain ⟨s, hs, hp, hb⟩ : ∃ s, run press (launch : ViewController Hundredths)
      [.numButton (.digit 5), .calcButton .add, .numButton (.digit 2), .numButton (.digit 0),
        .numButton (.digit 0)] = .ok s ∧
      s.calculator.intermediateCalculation = some (.num 500, Operator.add.key) ∧
      ofText s.displayLabel = some (Hundredths.num 20000) :=
    ⟨_, rfl, by decide, by decide⟩
  obtain ⟨s', hs', hlabel, -, hpending⟩ :=
    unary_keeps_pending Hundredths.mul_minusOne .add hp hb [.sign, .percent]
  refine ⟨s, s', hs, hs', ?_, hpending⟩
  rw [hlabel]
  decide

end IosDevBootcamp.Calculator
