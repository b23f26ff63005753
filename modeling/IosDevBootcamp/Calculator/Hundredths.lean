import Mathlib.Data.List.TakeWhile
import IosDevBootcamp.Calculator.Defs

/-!
# An arithmetic to run the calculator on

`Hundredths` counts whole hundredths, with one value that is not a number for what a division by
zero gives.  It reads and writes texts as `Double` does for the numbers with at most two decimals
that a run on fixed keys meets, so such a run can be evaluated.
-/

namespace IosDevBootcamp.Calculator

open IosDevBootcamp.Lib.Numeral

/-- A number of hundredths, or no number. -/
inductive Hundredths
  | num (n : ℤ)
  | nan
  deriving DecidableEq, Repr

namespace Hundredths

def lift (f : ℤ → ℤ → Hundredths) : Hundredths → Hundredths → Hundredths
  | num a, num b => f a b
  | _, _ => nan

/-! ### Reading -/

/-- The number a text of digits writes. -/
def readNat (t : List Char) : ℕ := Nat.ofDigitChars 10 t 0

/-- What is left of a text after the digits it starts with. -/
def afterDigits (t : List Char) : List Char := t.dropWhile Char.isDigit

/-- The digits after the point, when the text starts with a point. -/
def fraction : List Char → List Char
  | '.' :: t => t.takeWhile Char.isDigit
  | _ => []

/-- The text after the point and its digits. -/
def afterFraction : List Char → List Char
  | '.' :: t => afterDigits t
  | t => t

/-- The exponent a text writes after its mark. -/
def exponent : List Char → ℤ
  | _ :: '-' :: t => -(readNat t : ℤ)
  | _ :: '+' :: t => readNat t
  | _ :: t => readNat t
  | [] => 0

/-- The hundredths of a decimal without sign. -/
def magnitude (t : List Char) : ℕ :=
  let whole := t.takeWhile Char.isDigit
  let rest := afterDigits t
  let e := exponent (afterFraction rest)
  readNat (whole ++ fraction rest) * 100 * 10 ^ e.toNat /
    (10 ^ (fraction rest).length * 10 ^ (-e).toNat)

def read (t : List Char) : ℤ :=
  if t.head? = some '-' then -(magnitude (dropSign t) : ℤ) else magnitude (dropSign t)

def ofText (t : List Char) : Option Hundredths :=
  if IsNumeral t then some (if IsSpecial t then nan else num (read t)) else none

/-! ### Writing -/

/-- The digits after the point of `r` hundredths. -/
def cents (r : ℕ) : List Char :=
  if r % 10 = 0 then [Nat.digitChar (r / 10)]
  else [Nat.digitChar (r / 10), Nat.digitChar (r % 10)]

def write (n : ℕ) : List Char := Nat.toDigits 10 (n / 100) ++ '.' :: cents (n % 100)

def toText : Hundredths → List Char
  | num n => if n < 0 then '-' :: write n.natAbs else write n.natAbs
  | nan => ['n', 'a', 'n']

/-! ### What is written reads back -/

lemma isDigit_iff_kind (c : Char) : c.isDigit = true ↔ kind c = .digit := by
  unfold kind
  split
  · simp_all
  · simp_all only [Bool.not_eq_true, false_iff, Bool.false_eq_true]
    split
    · simp
    · split
      · simp
      · split <;> simp

lemma isDigit_toDigits (n : ℕ) : ∀ c ∈ Nat.toDigits 10 n, c.isDigit = true :=
  fun _ hc => Nat.isDigit_of_mem_toDigits (by decide) (by decide) hc

lemma isDigit_cents {r : ℕ} (hr : r < 100) : ∀ c ∈ cents r, c.isDigit = true := by
  have h1 : r / 10 < 10 := by omega
  have h2 : r % 10 < 10 := Nat.mod_lt r (by decide)
  intro c hc
  unfold cents at hc
  split at hc
  · obtain rfl : c = Nat.digitChar (r / 10) := by simpa using hc
    simpa using h1
  · rcases List.mem_cons.mp hc with rfl | hc
    · simpa using h1
    · obtain rfl : c = Nat.digitChar (r % 10) := by simpa using hc
      simpa using h2

lemma write_eq_cons (n : ℕ) : ∃ c t, write n = c :: t ∧ c.isDigit = true := by
  obtain ⟨c, t, hct⟩ := List.exists_cons_of_ne_nil (Nat.toDigits_ne_nil (n := n / 100) (b := 10))
  refine ⟨c, t ++ '.' :: cents (n % 100), by rw [write, hct]; rfl, isDigit_toDigits (n / 100) c ?_⟩
  simp [hct]

lemma takeWhile_write (n : ℕ) : (write n).takeWhile Char.isDigit = Nat.toDigits 10 (n / 100) := by
  rw [write, List.takeWhile_append_of_pos (isDigit_toDigits _)]
  simp

lemma afterDigits_write (n : ℕ) : afterDigits (write n) = '.' :: cents (n % 100) := by
  rw [afterDigits, write, List.dropWhile_append_of_pos (isDigit_toDigits _)]
  rfl

lemma fraction_cents {r : ℕ} (hr : r < 100) : fraction ('.' :: cents r) = cents r :=
  List.takeWhile_eq_self_iff.mpr (isDigit_cents hr)

lemma afterFraction_cents {r : ℕ} (hr : r < 100) : afterFraction ('.' :: cents r) = [] :=
  List.dropWhile_eq_nil_iff.mpr (isDigit_cents hr)

/-- The digits of `q` and of `r` hundredths, as a number, against the digits there are. -/
lemma readNat_cents (q : ℕ) {r : ℕ} (hr : r < 100) :
    readNat (Nat.toDigits 10 q ++ cents r) * 100 = (q * 100 + r) * 10 ^ (cents r).length := by
  have h1 : r / 10 < 10 := by omega
  have h2 : r % 10 < 10 := Nat.mod_lt r (by decide)
  rw [readNat, Nat.ofDigitChars_append, Nat.ofDigitChars_ten_toDigits, cents]
  split
  · rw [Nat.ofDigitChars_cons_digitChar_of_lt_ten h1, Nat.ofDigitChars_nil]
    simp only [List.length_singleton]
    omega
  · rw [Nat.ofDigitChars_cons_digitChar_of_lt_ten h1, Nat.ofDigitChars_cons_digitChar_of_lt_ten h2,
      Nat.ofDigitChars_nil]
    simp only [List.length_cons, List.length_nil]
    omega

lemma magnitude_write (n : ℕ) : magnitude (write n) = n := by
  have hr : n % 100 < 100 := Nat.mod_lt n (by decide)
  have hpos : 0 < 10 ^ (cents (n % 100)).length := Nat.pow_pos (by decide)
  simp only [magnitude, takeWhile_write, afterDigits_write, fraction_cents hr,
    afterFraction_cents hr, exponent, neg_zero, Int.toNat_zero, pow_zero, mul_one]
  rw [readNat_cents _ hr, Nat.mul_div_cancel _ hpos]
  omega

lemma dropSign_write (n : ℕ) : dropSign (write n) = write n := by
  obtain ⟨c, t, hct, hc⟩ := write_eq_cons n
  rw [hct, dropSign, if_neg]
  rw [(isDigit_iff_kind c).mp hc]
  decide

lemma dropSign_minus (t : List Char) : dropSign ('-' :: t) = t := by
  rw [dropSign, if_pos (by decide)]

lemma head_write (n : ℕ) : (write n).head? ≠ some '-' := by
  obtain ⟨c, t, hct, hc⟩ := write_eq_cons n
  rw [hct]
  rintro h
  obtain rfl : c = '-' := by simpa using h
  exact absurd hc (by decide)

lemma toText_num_neg {n : ℤ} (hn : n < 0) : toText (num n) = '-' :: write n.natAbs := if_pos hn

lemma toText_num {n : ℤ} (hn : ¬ n < 0) : toText (num n) = write n.natAbs := if_neg hn

lemma read_toText (n : ℤ) : read (toText (num n)) = n := by
  unfold read
  by_cases hn : n < 0
  · rw [toText_num_neg hn, List.head?_cons, if_pos rfl, dropSign_minus, magnitude_write]
    omega
  · rw [toText_num hn, if_neg (head_write _), dropSign_write, magnitude_write]
    omega

/-- What is written is read as a number with a point, whatever sign came before. -/
lemma evalFrom_write {q : Scan} (hq : q.next .digit = .whole) (n : ℕ) :
    decimal.evalFrom q (write n) = .frac := by
  have hr : n % 100 < 100 := Nat.mod_lt n (by decide)
  have hdig : ∀ c ∈ Nat.toDigits 10 (n / 100), kind c = .digit :=
    fun c hc => (isDigit_iff_kind c).mp (isDigit_toDigits _ c hc)
  have hwhole : decimal.evalFrom q (Nat.toDigits 10 (n / 100)) = .whole := by
    obtain ⟨c, t, hct⟩ :=
      List.exists_cons_of_ne_nil (Nat.toDigits_ne_nil (n := n / 100) (b := 10))
    rw [hct] at hdig ⊢
    rw [DFA.evalFrom_cons, show decimal.step q c = .whole by simp [decimal, hdig c (by simp), hq]]
    exact evalFrom_digits rfl fun c' hc' => hdig c' (List.mem_cons_of_mem c hc')
  rw [write, DFA.evalFrom_of_append, hwhole, DFA.evalFrom_cons]
  exact evalFrom_digits rfl fun c hc => (isDigit_iff_kind c).mp (isDigit_cents hr c hc)

lemma isDecimal_toText (n : ℤ) : IsDecimal (toText (num n)) := by
  unfold IsDecimal
  by_cases hn : n < 0
  · rw [toText_num_neg hn, DFA.eval, DFA.evalFrom_cons, evalFrom_write rfl]
    rfl
  · rw [toText_num hn, DFA.eval, evalFrom_write rfl]
    rfl

lemma isNumeral_toText' (x : Hundredths) : IsNumeral (toText x) := by
  cases x with
  | num n => exact .inl (isDecimal_toText n)
  | nan => decide

lemma ofText_toText' (x : Hundredths) : ofText (toText x) = some x := by
  rw [ofText, if_pos (isNumeral_toText' x)]
  cases x with
  | num n =>
    have hs : ¬ IsSpecial (toText (num n)) := fun hs => by
      have hd := isDecimal_toText n
      unfold IsDecimal at hd
      rw [hs.eval_bad] at hd
      exact absurd hd (by decide)
    rw [if_neg hs, read_toText]
  | nan => decide

instance : SwiftDouble Hundredths where
  zero := num 0
  minusOne := num (-100)
  hundred := num 10000
  add := lift fun a b => num (a + b)
  sub := lift fun a b => num (a - b)
  mul := lift fun a b => num ((a * b).tdiv 100)
  div := lift fun a b => if b = 0 then nan else num ((a * 100).tdiv b)
  isInt
    | num n => n % 100 == 0
    | nan => false
  ofText := ofText
  toText := toText
  ofText_isSome t := by
    unfold ofText
    split <;> simp_all
  ofText_toText := ofText_toText'
  ofText_zero := by decide
  toText_zero := by decide
  isInt_zero := by decide

/-! ### Negation and whole numbers -/

def neg : Hundredths → Hundredths
  | num n => num (-n)
  | nan => nan

lemma mul_minusOne (x : Hundredths) : SwiftDouble.mul x SwiftDouble.minusOne = neg x := by
  cases x with
  | num n =>
    change num ((n * -100).tdiv 100) = num (-n)
    rw [show n * -100 = -n * 100 by omega, Int.mul_tdiv_cancel _ (by decide)]
  | nan => rfl

/-- A text of digits reads as a whole number. -/
lemma ofText_digits {t : List Char} (ht : t ≠ []) (hd : ∀ c ∈ t, kind c = .digit) :
    ofText t = some (num (readNat t * 100)) := by
  have hdec : IsDecimal t := isDecimal_digits ht hd
  have hs : ¬ IsSpecial t := fun hs => by
    unfold IsDecimal at hdec
    rw [hs.eval_bad] at hdec
    exact absurd hdec (by decide)
  have hdig : ∀ c ∈ t, c.isDigit = true := fun c hc => (isDigit_iff_kind c).mpr (hd c hc)
  have hsign : dropSign t = t ∧ t.head? ≠ some '-' := by
    obtain ⟨c, u, rfl⟩ := List.exists_cons_of_ne_nil ht
    have hc : kind c = .digit := hd c List.mem_cons_self
    refine ⟨by rw [dropSign, hc]; rfl, fun h => ?_⟩
    obtain rfl : c = '-' := by simpa using h
    exact absurd hc (by decide)
  have hmag : magnitude t = readNat t * 100 := by
    have htake : t.takeWhile Char.isDigit = t := List.takeWhile_eq_self_iff.mpr hdig
    have hrest : afterDigits t = [] := List.dropWhile_eq_nil_iff.mpr hdig
    simp [magnitude, htake, hrest, fraction, afterFraction, exponent]
  rw [ofText, if_pos (.inl hdec), if_neg hs, read, if_neg hsign.2, hsign.1, hmag]
  simp

end Hundredths

end IosDevBootcamp.Calculator
