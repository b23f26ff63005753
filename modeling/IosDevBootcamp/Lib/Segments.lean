import Mathlib.Data.List.Basic

/-!
# Segments of a list

A list cut into segments of one length; the last segment is shorter, and empty when the length of the
list is a multiple of that of the segments.
-/

namespace IosDevBootcamp.Lib.Segments

variable {α : Type*} (c : ℕ) (l : List α)

/-- The segment with an index. -/
def segment (i : ℕ) : List α := (l.drop (i * c)).take c

/-- The number of segments, with the one that is not full. -/
def count : ℕ := l.length / c + 1

/-- The first segments with their indices. -/
def numbered (k : ℕ) : List (ℕ × List α) := (List.range k).map fun i => (i, segment c l i)

@[simp] lemma numbered_zero : numbered c l 0 = [] := rfl

lemma numbered_succ (k : ℕ) : numbered c l (k + 1) = numbered c l k ++ [(k, segment c l k)] := by
  rw [numbered, List.range_succ, List.map_append]
  rfl

/-- The first segments are the beginning of the list. -/
lemma flatMap_numbered (k : ℕ) : (numbered c l k).flatMap Prod.snd = l.take (k * c) := by
  induction k with
  | zero => simp
  | succ k ih =>
    rw [numbered_succ, List.flatMap_append, ih, Nat.add_mul, Nat.one_mul, List.take_add]
    simp [segment]

variable {c}

/-- **All segments are the list.** -/
theorem flatMap_numbered_count (hc : 0 < c) : (numbered c l (count c l)).flatMap Prod.snd = l := by
  have hlen : l.length ≤ count c l * c := by
    have h := Nat.div_add_mod l.length c
    have hlt := Nat.mod_lt l.length hc
    rw [count, Nat.add_mul, Nat.one_mul, Nat.mul_comm]
    omega
  rw [flatMap_numbered, List.take_of_length_le hlen]

variable {l}

/-- The last segment is the one after which nothing is left. -/
lemma eq_count_iff (hc : 0 < c) {i : ℕ} (hi : i * c ≤ l.length) :
    i + 1 = count c l ↔ l.length < (i + 1) * c := by
  have hle : i ≤ l.length / c := (Nat.le_div_iff_mul_le hc).mpr hi
  rw [count, ← Nat.div_lt_iff_lt_mul hc]
  omega

end IosDevBootcamp.Lib.Segments
