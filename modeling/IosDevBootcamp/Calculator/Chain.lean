import IosDevBootcamp.Calculator.Entry

/-!
# Chains of operations

An operator key stores its operand and its symbol over those of the operator key before it, and
only `=` computes.  So a chain `n₀ o₁ n₁ … oₖ nₖ =` shows `nₖ₋₁ oₖ nₖ`, whatever came earlier.
-/

namespace IosDevBootcamp.Calculator

open IosDevBootcamp.Lib.Numeral IosDevBootcamp.Lib.Run SwiftDouble ViewController

/-! ### The keys of a chain -/

/-- The keys `o₁ n₁ … oₖ nₖ`. -/
def linkKeys (rest : List (Operator × DigitWord)) : List Key :=
  rest.flatMap fun (o, n) => .calcButton o.key :: n.keys

/-- The keys `n₀ o₁ n₁ … oₖ nₖ =`. -/
def chainKeys (n₀ : DigitWord) (rest : List (Operator × DigitWord)) : List Key :=
  n₀.keys ++ linkKeys rest ++ [.calcButton .equals]

def lastOperand (n₀ : DigitWord) (rest : List (Operator × DigitWord)) : DigitWord :=
  (rest.getLast?.map Prod.snd).getD n₀

lemma linkKeys_concat (rest : List (Operator × DigitWord)) (o : Operator) (n : DigitWord) :
    linkKeys (rest ++ [(o, n)]) = linkKeys rest ++ .calcButton o.key :: n.keys := by
  simp [linkKeys]

lemma lastOperand_cons (n₀ : DigitWord) (o : Operator) (n : DigitWord)
    (rest : List (Operator × DigitWord)) :
    lastOperand n₀ ((o, n) :: rest) = lastOperand n rest := by
  rw [lastOperand, lastOperand, List.getLast?_cons]
  cases rest.getLast? <;> rfl

/-- The value of a chain evaluated from the left. -/
def leftFold (D : Type*) [SwiftDouble D] (n₀ : DigitWord) (rest : List (Operator × DigitWord)) :
    D :=
  rest.foldl (fun acc (o, n) => o.eval acc (n.value D)) (n₀.value D)

variable {D : Type*} [SwiftDouble D]

/-- The user has just typed the word `w`. -/
def Typed (s : ViewController D) (w : DigitWord) : Prop :=
  s.displayLabel = w.text ∧ s.isDoneTyping = false

/-- An operator and a word: the word stands on the label, and the operand before it is pending. -/
lemma run_link {s : ViewController D} {w : DigitWord} (h : Typed s w) (o : Operator)
    (n : DigitWord) :
    ∃ s', run press s (.calcButton o.key :: n.keys) = .ok s' ∧ Typed s' n ∧
      s'.calculator.intermediateCalculation = some (w.value D, o.key) := by
  have hx : ofText s.displayLabel = some (w.value D) := by rw [h.1, w.ofText_text]
  refine ⟨_, (run_cons_ok (press_calc hx o.key) _).trans (run_word_fresh n ?_), ⟨rfl, rfl⟩, ?_⟩
  · simp [h.2]
  · simp

/-- Along a chain the last word typed stands on the label. -/
lemma run_links (rest : List (Operator × DigitWord)) {s : ViewController D} {w : DigitWord}
    (h : Typed s w) :
    ∃ s', run press s (linkKeys rest) = .ok s' ∧ Typed s' (lastOperand w rest) := by
  induction rest generalizing s w with
  | nil => exact ⟨s, rfl, h⟩
  | cons link rest ih =>
    obtain ⟨o, n⟩ := link
    obtain ⟨s', hs', ht, -⟩ := run_link h o n
    obtain ⟨s'', hs'', ht'⟩ := ih ht
    refine ⟨s'', ?_, ?_⟩
    · rw [linkKeys, List.flatMap_cons, run_append_ok hs']
      exact hs''
    · rwa [lastOperand_cons]

/-- **What a chain of operations shows**: the last operation, on its own two operands. -/
theorem chain_shows_last (n₀ : DigitWord) (rest : List (Operator × DigitWord)) (o : Operator)
    (n : DigitWord) :
    ∃ s, run press (launch : ViewController D) (chainKeys n₀ (rest ++ [(o, n)])) = .ok s ∧
      ofText s.displayLabel = some (o.eval ((lastOperand n₀ rest).value D) (n.value D)) := by
  obtain ⟨s₀, hs₀, ht₀⟩ :
      ∃ s₀, run press (launch : ViewController D) n₀.keys = .ok s₀ ∧ Typed s₀ n₀ :=
    ⟨_, run_word_fresh n₀ rfl, rfl, rfl⟩
  obtain ⟨s₁, hs₁, ht₁⟩ := run_links rest ht₀
  obtain ⟨s₂, hs₂, ht₂, hp⟩ := run_link ht₁ o n
  have hx : ofText s₂.displayLabel = some (n.value D) := by rw [ht₂.1, n.ofText_text]
  refine ⟨s₂.afterCalc .equals (n.value D), ?_, ?_⟩
  · rw [chainKeys, linkKeys_concat, List.append_assoc, run_append_ok hs₀, List.append_assoc,
      run_append_ok hs₁, run_append_ok hs₂, run_singleton]
    exact press_calc hx _
  · rw [displayLabel_afterCalc, hp, Operator.result_equals]
    exact ofText_toText _

/-- `1 + 2 + 3 =` shows `5`, not `6`. -/
theorem one_two_three :
    ¬ ∀ (n₀ : DigitWord) (rest : List (Operator × DigitWord)), rest ≠ [] →
      ∃ s, run press (launch : ViewController Hundredths) (chainKeys n₀ rest) = .ok s ∧
        ofText s.displayLabel = some (leftFold Hundredths n₀ rest) := by
  intro h
  obtain ⟨s, hs, htext⟩ := h ⟨[1], by decide⟩
    [(.add, ⟨[2], by decide⟩), (.add, ⟨[3], by decide⟩)] (by decide)
  have hrun : (run press (launch : ViewController Hundredths) (chainKeys ⟨[1], by decide⟩
      [(.add, ⟨[2], by decide⟩), (.add, ⟨[3], by decide⟩)])).map (·.displayLabel) =
      .ok ['5', '.', '0'] := by decide
  rw [hs] at hrun
  have hlabel : s.displayLabel = ['5', '.', '0'] := Except.ok.inj hrun
  rw [hlabel] at htext
  exact absurd htext (by decide)

end IosDevBootcamp.Calculator
