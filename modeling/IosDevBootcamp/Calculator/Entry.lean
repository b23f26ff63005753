import IosDevBootcamp.Calculator.Hundredths

/-!
# Typing an operand

What a word of digit keys leaves on the label, according to the flag `isDoneTyping`, and when a
calc key is followed by a fresh operand.
-/

namespace IosDevBootcamp.Calculator

open IosDevBootcamp.Lib.Numeral IosDevBootcamp.Lib.Run SwiftDouble ViewController

/-- A non-empty word of digit keys. -/
structure DigitWord where
  digits : List (Fin 10)
  ne_nil : digits ≠ []

namespace DigitWord

def keys (w : DigitWord) : List Key := w.digits.map fun d => .numButton (.digit d)

def text (w : DigitWord) : List Char := w.digits.map fun d : Fin 10 => Nat.digitChar d

variable {D : Type*} [SwiftDouble D] (w : DigitWord)

lemma isNumeral_text : IsNumeral w.text := by
  have hne : w.text ≠ [] := by simpa only [text, ne_eq, List.map_eq_nil_iff] using w.ne_nil
  refine .inl (isDecimal_digits hne fun c hc => ?_)
  obtain ⟨d, -, rfl⟩ := List.mem_map.mp hc
  exact kind_digitChar d

def value (D : Type*) [SwiftDouble D] (w : DigitWord) : D :=
  (ofText w.text).get ((ofText_isSome w.text).mpr w.isNumeral_text)

lemma ofText_text : ofText w.text = some (w.value D) := by simp [value]

end DigitWord

variable {D : Type*} [SwiftDouble D]

lemma run_digits_append (ds : List (Fin 10)) {s : ViewController D} (h : s.isDoneTyping = false) :
    run press s (ds.map fun d => .numButton (.digit d)) = .ok { s with
      displayLabel := s.displayLabel ++ ds.map fun d : Fin 10 => Nat.digitChar d } := by
  induction ds generalizing s with
  | nil => simp
  | cons d ds ih =>
    have hrec := ih (s := { s with displayLabel := s.displayLabel ++ [Nat.digitChar d] }) h
    rw [List.map_cons, run_cons_ok (press_digit_append h d), hrec]
    simp

/-- A word typed when the user is done replaces the label. -/
lemma run_word_fresh (w : DigitWord) {s : ViewController D} (h : s.isDoneTyping = true) :
    run press s w.keys = .ok { s with displayLabel := w.text, isDoneTyping := false } := by
  obtain ⟨ds, hne⟩ := w
  obtain ⟨d, ds, rfl⟩ := List.exists_cons_of_ne_nil hne
  rw [DigitWord.keys, List.map_cons, run_cons_ok (press_num_fresh h _),
    run_digits_append ds rfl]
  rfl

/-- **When a calc key starts a fresh operand.**  After a calc key a word of digits stands alone on
the label exactly when the label read as a number and the user was typing before the key: the key
toggles `isDoneTyping`, whatever it was. -/
theorem fresh_operand_iff (s : ViewController D) (c : CalcKey) (w : DigitWord) :
    (∃ s', run press s (.calcButton c :: w.keys) = .ok s' ∧ s'.displayLabel = w.text) ↔
      IsNumeral s.displayLabel ∧ s.isDoneTyping = false := by
  by_cases hn : IsNumeral s.displayLabel
  · obtain ⟨x, hx⟩ := exists_ofText (D := D) hn
    rw [run_cons_ok (press_calc hx c)]
    cases hdone : s.isDoneTyping
    · exact ⟨fun _ => ⟨hn, rfl⟩, fun _ => ⟨_, run_word_fresh w (by simp [hdone]), rfl⟩⟩
    · -- the digits are glued onto the label the key left, which is not empty
      refine ⟨fun ⟨s', hs', htext⟩ => ?_, fun h => absurd h.2 (by simp)⟩
      have happ := run_digits_append w.digits (s := s.afterCalc c x) (by simp [hdone])
      rw [← DigitWord.keys, hs'] at happ
      cases happ
      exact absurd (List.append_left_eq_self.mp htext) (isNumeral_labelAfter hn _).ne_nil
  · refine ⟨fun ⟨s', hs', _⟩ => ?_, fun h => absurd h.1 hn⟩
    rw [run_cons_error (press_calc_trap hn c)] at hs'
    cases hs'

/-- At launch the flag is set, so `+` and then `5` leave `05` on the label. -/
theorem add_digit_glued :
    ¬ ∀ (h : List Key) (s : ViewController Hundredths) (c : CalcKey) (w : DigitWord),
      run press launch h = .ok s →
        ∃ s', run press s (.calcButton c :: w.keys) = .ok s' ∧ s'.displayLabel = w.text := by
  intro h
  obtain ⟨s', hs', htext⟩ := h [] launch .add ⟨[5], by decide⟩ rfl
  have hrun : (run press (launch : ViewController Hundredths)
      (.calcButton .add :: DigitWord.keys ⟨[5], by decide⟩)).map (·.displayLabel) =
      .ok ['0', '5'] := by decide
  rw [hs'] at hrun
  have hlabel : s'.displayLabel = ['0', '5'] := Except.ok.inj hrun
  rw [hlabel] at htext
  exact absurd htext (by decide)

end IosDevBootcamp.Calculator
