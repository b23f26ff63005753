import Mathlib.Computability.DFA
import Mathlib.Data.List.Forall2
import Mathlib.Tactic.DeriveFintype

/-!
# Texts that read as a floating-point number

A text is a *decimal* when it has an optional sign, digits with at most one point and at least one
digit, and an optional exponent.  The grammar is the automaton `decimal`, so what happens to a text
when one more character is appended is one step of `Scan.next`.  A text *spells* `inf`, `infinity`
or `nan` in any case, after an optional sign.  A *numeral* is one or the other.
-/

namespace IosDevBootcamp.Lib.Numeral

/-! ### The automaton -/

/-- What the grammar distinguishes about a character. -/
inductive Kind
  | digit | sign | point | expMark | other
  deriving DecidableEq, Repr

def kind (c : Char) : Kind :=
  if c.isDigit then .digit
  else if c = '+' ∨ c = '-' then .sign
  else if c = '.' then .point
  else if c = 'e' ∨ c = 'E' then .expMark
  else .other

/-- How far a decimal has been read: `whole` are digits without a point, `lone` is a point before
any digit, `frac` are digits and a point; then come the parts of an exponent. -/
inductive Scan
  | start
  | sign
  | whole
  | lone
  | frac
  | mark
  | markSign
  | exponent
  | bad
  deriving DecidableEq, Repr

def Scan.next : Scan → Kind → Scan
  | .start, .digit => .whole
  | .start, .sign => .sign
  | .start, .point => .lone
  | .sign, .digit => .whole
  | .sign, .point => .lone
  | .whole, .digit => .whole
  | .whole, .point => .frac
  | .whole, .expMark => .mark
  | .lone, .digit => .frac
  | .frac, .digit => .frac
  | .frac, .expMark => .mark
  | .mark, .digit => .exponent
  | .mark, .sign => .markSign
  | .markSign, .digit => .exponent
  | .exponent, .digit => .exponent
  | _, _ => .bad

def Scan.accepting : Scan → Bool
  | .whole | .frac | .exponent => true
  | _ => false

def decimal : DFA Char Scan where
  step q c := q.next (kind c)
  start := .start
  accept := {q | q.accepting = true}

def IsDecimal (t : List Char) : Prop := (decimal.eval t).accepting = true

instance : DecidablePred IsDecimal := fun t =>
  inferInstanceAs (Decidable ((decimal.eval t).accepting = true))

/-! ### The other numerals -/

/-- The text without its sign, if it has one. -/
def dropSign : List Char → List Char
  | [] => []
  | c :: t => if kind c = .sign then t else c :: t

/-- The text is the word, in any case. -/
def Spells (word t : List Char) : Prop := List.Forall₂ (fun l c => c = l ∨ c = l.toUpper) word t

instance (word t : List Char) : Decidable (Spells word t) :=
  inferInstanceAs (Decidable (List.Forall₂ _ word t))

/-- The spellings of an infinity and of a value that is not a number. -/
def specials : List (List Char) :=
  [['i', 'n', 'f'], ['i', 'n', 'f', 'i', 'n', 'i', 't', 'y'], ['n', 'a', 'n']]

/-- The text spells an infinity or a value that is not a number. -/
def IsSpecial (t : List Char) : Prop := ∃ word ∈ specials, Spells word (dropSign t)

instance : DecidablePred IsSpecial := fun t =>
  inferInstanceAs (Decidable (∃ word ∈ specials, Spells word (dropSign t)))

def IsNumeral (t : List Char) : Prop := IsDecimal t ∨ IsSpecial t

instance : DecidablePred IsNumeral := fun t =>
  inferInstanceAs (Decidable (IsDecimal t ∨ IsSpecial t))

/-! ### One character more -/

lemma eval_concat (t : List Char) (c : Char) :
    decimal.eval (t ++ [c]) = (decimal.eval t).next (kind c) :=
  decimal.eval_append_singleton t c

lemma evalFrom_bad (t : List Char) : decimal.evalFrom .bad t = .bad := by
  induction t with
  | nil => rfl
  | cons c t ih =>
    rw [DFA.evalFrom_cons]
    exact ih

lemma Scan.next_digit_accepting {q : Scan} (h : q.accepting = true) :
    (q.next .digit).accepting = true := by
  cases q <;> simp_all [Scan.accepting, Scan.next]

lemma Scan.next_point_bad {q : Scan} (h : q.accepting = true) (hw : q ≠ .whole) :
    q.next .point = .bad := by
  cases q <;> simp_all [Scan.accepting, Scan.next]

lemma Scan.next_other (q : Scan) : q.next .other = .bad := by cases q <;> rfl

lemma IsDecimal.concat_digit {t : List Char} {c : Char} (h : IsDecimal t)
    (hc : kind c = .digit) : IsDecimal (t ++ [c]) := by
  unfold IsDecimal at h ⊢
  rw [eval_concat, hc]
  exact Scan.next_digit_accepting h

/-- Digits do not leave a state that a digit keeps. -/
lemma evalFrom_digits {q : Scan} (hq : q.next .digit = q) {t : List Char}
    (hd : ∀ c ∈ t, kind c = .digit) : decimal.evalFrom q t = q := by
  induction t with
  | nil => rfl
  | cons c t ih =>
    rw [DFA.evalFrom_cons, show decimal.step q c = q by simp [decimal, hd c (by simp), hq]]
    exact ih fun c' hc' => hd c' (List.mem_cons_of_mem c hc')

/-- A text of digits reads as a whole number. -/
lemma eval_digits {t : List Char} (ht : t ≠ []) (hd : ∀ c ∈ t, kind c = .digit) :
    decimal.eval t = .whole := by
  obtain ⟨c, u, rfl⟩ := List.exists_cons_of_ne_nil ht
  rw [DFA.eval, DFA.evalFrom_cons, show decimal.step decimal.start c = .whole by
    simp [decimal, hd c (by simp), Scan.next]]
  exact evalFrom_digits rfl fun c' hc' => hd c' (List.mem_cons_of_mem c hc')

lemma isDecimal_digits {t : List Char} (ht : t ≠ []) (hd : ∀ c ∈ t, kind c = .digit) :
    IsDecimal t := by
  unfold IsDecimal
  rw [eval_digits ht hd]
  rfl

/-! ### The spellings -/

lemma Spells.kind_other {word t : List Char} (h : Spells word t)
    (hw : ∀ l ∈ word, kind l = .other ∧ kind l.toUpper = .other) : ∀ c ∈ t, kind c = .other := by
  induction h with
  | nil => simp
  | cons hc _ ih =>
    rename_i l c word t _
    have hl := hw l (by simp)
    intro c' hc'
    rcases List.mem_cons.mp hc' with rfl | hc'
    · rcases hc with rfl | rfl
      · exact hl.1
      · exact hl.2
    · exact ih (fun l' hl' => hw l' (List.mem_cons_of_mem l hl')) c' hc'

/-- What follows the sign of a special text is letters, and some. -/
lemma IsSpecial.letters {t : List Char} (h : IsSpecial t) :
    dropSign t ≠ [] ∧ ∀ c ∈ dropSign t, kind c = .other := by
  obtain ⟨word, hword, hs⟩ := h
  have hlen : word.length = (dropSign t).length := hs.length_eq
  have hne : ∀ w ∈ specials, w.length ≠ 0 := by decide
  refine ⟨fun h0 => hne word hword (by rw [hlen, h0]; rfl), hs.kind_other ?_⟩
  have hall : (specials.all fun w => w.all fun l =>
      kind l = .other ∧ kind l.toUpper = .other) = true := by decide
  intro l hl
  exact of_decide_eq_true (List.all_eq_true.mp (List.all_eq_true.mp hall word hword) l hl)

/-- A special text is no beginning of a decimal. -/
lemma IsSpecial.eval_bad {t : List Char} (h : IsSpecial t) : decimal.eval t = .bad := by
  obtain ⟨hne, hl⟩ := h.letters
  have hbad : ∀ (q : Scan) (u : List Char), u ≠ [] → (∀ c ∈ u, kind c = .other) →
      decimal.evalFrom q u = .bad := by
    intro q u hu hk
    obtain ⟨c, u, rfl⟩ := List.exists_cons_of_ne_nil hu
    rw [DFA.evalFrom_cons, show decimal.step q c = .bad by
      simp [decimal, hk c (by simp), Scan.next_other]]
    exact evalFrom_bad u
  cases t with
  | nil => exact absurd rfl hne
  | cons c t =>
    by_cases hc : kind c = .sign
    · rw [dropSign, if_pos hc] at hne hl
      rw [DFA.eval, DFA.evalFrom_cons]
      exact hbad _ t hne hl
    · rw [dropSign, if_neg hc] at hne hl
      exact hbad _ (c :: t) hne hl

lemma IsSpecial.not_concat {t : List Char} {c : Char} (hc : kind c = .digit ∨ kind c = .point) :
    ¬ IsSpecial (t ++ [c]) := by
  intro h
  obtain ⟨hne, hl⟩ := h.letters
  have hmem : c ∈ dropSign (t ++ [c]) := by
    cases t with
    | nil =>
      have : kind c ≠ .sign := by rcases hc with h | h <;> rw [h] <;> decide
      simp [dropSign, this]
    | cons a t =>
      rw [List.cons_append, dropSign]
      split <;> simp
  rcases hc with h | h <;> simp [hl c hmem] at h

/-! ### Numerals -/

lemma IsNumeral.ne_nil {t : List Char} (h : IsNumeral t) : t ≠ [] := by
  rintro rfl
  exact absurd h (by decide)

lemma isNumeral_concat_digit {t : List Char} {c : Char} (hc : kind c = .digit)
    (h : IsDecimal t) : IsNumeral (t ++ [c]) :=
  .inl (h.concat_digit hc)

/-- A text followed by a point is a numeral when it has digits, and neither point nor exponent. -/
lemma isNumeral_concat_point {t : List Char} {c : Char} (hc : kind c = .point)
    (h : decimal.eval t = .whole) : IsNumeral (t ++ [c]) := by
  left
  unfold IsDecimal
  rw [eval_concat, hc, h]
  rfl

/-! ### Texts that no digit repairs -/

/-- The text is no numeral, and stays none however many digits follow it. -/
def Dead (t : List Char) : Prop :=
  decimal.eval t = .bad ∧ ∃ u c, t = u ++ [c] ∧ (kind c = .digit ∨ kind c = .point)

lemma Dead.not_isNumeral {t : List Char} (h : Dead t) : ¬ IsNumeral t := by
  obtain ⟨hbad, u, c, rfl, hc⟩ := h
  rintro (hd | hs)
  · unfold IsDecimal at hd
    rw [hbad] at hd
    exact absurd hd (by decide)
  · exact IsSpecial.not_concat hc hs

lemma Dead.concat_digit {t : List Char} {c : Char} (h : Dead t) (hc : kind c = .digit) :
    Dead (t ++ [c]) := by
  refine ⟨?_, t, c, rfl, .inl hc⟩
  rw [eval_concat, h.1]
  rfl

lemma IsSpecial.dead_concat {t : List Char} {c : Char} (h : IsSpecial t)
    (hc : kind c = .digit ∨ kind c = .point) : Dead (t ++ [c]) := by
  refine ⟨?_, t, c, rfl, hc⟩
  rw [eval_concat, h.eval_bad]
  rfl

/-- A point that follows a numeral with a point, an exponent or no digits is fatal. -/
lemma IsNumeral.dead_concat_point {t : List Char} {c : Char} (h : IsNumeral t)
    (hw : decimal.eval t ≠ .whole) (hc : kind c = .point) : Dead (t ++ [c]) := by
  rcases h with hd | hs
  · refine ⟨?_, t, c, rfl, .inr hc⟩
    rw [eval_concat, hc]
    exact Scan.next_point_bad hd hw
  · exact hs.dead_concat (.inr hc)

end IosDevBootcamp.Lib.Numeral
