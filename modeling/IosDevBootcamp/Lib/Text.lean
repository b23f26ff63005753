import Mathlib.Algebra.Order.Ring.Nat
import Mathlib.Data.List.Basic

/-!
# Texts

A text is a list of code points.  Texts are ordered code point by code point, so that sorting a list
of texts has one result whatever the order they come in, and are joined with separators that a split
finds again.
-/

namespace IosDevBootcamp.Lib

abbrev Text := List Char

namespace Text

/-! ### Order -/

/-- The order of texts by their code points. -/
def le : Text → Text → Bool
  | [], _ => true
  | _ :: _, [] => false
  | a :: s, b :: t => Nat.blt a.toNat b.toNat || (a == b && le s t)

lemma le_cons_iff {a b : Char} {s t : Text} :
    le (a :: s) (b :: t) = true ↔ a.toNat < b.toNat ∨ (a = b ∧ le s t = true) := by
  simp [le, Nat.blt_eq]

lemma le_total (s t : Text) : le s t = true ∨ le t s = true := by
  induction s generalizing t with
  | nil => exact Or.inl rfl
  | cons a s ih =>
    cases t with
    | nil => exact Or.inr rfl
    | cons b t =>
      rw [le_cons_iff, le_cons_iff]
      rcases Nat.lt_trichotomy a.toNat b.toNat with h | h | h
      · exact Or.inl (Or.inl h)
      · have hab : a = b := Char.toNat_inj.mp h
        rcases ih t with h | h
        · exact Or.inl (Or.inr ⟨hab, h⟩)
        · exact Or.inr (Or.inr ⟨hab.symm, h⟩)
      · exact Or.inr (Or.inl h)

lemma le_antisymm {s t : Text} (hst : le s t = true) (hts : le t s = true) : s = t := by
  induction s generalizing t with
  | nil =>
    cases t with
    | nil => rfl
    | cons b t => cases hts
  | cons a s ih =>
    cases t with
    | nil => cases hst
    | cons b t =>
      rw [le_cons_iff] at hst hts
      rcases hst with h | ⟨rfl, h⟩
      · rcases hts with h' | ⟨rfl, -⟩ <;> omega
      · rcases hts with h' | ⟨-, h'⟩
        · omega
        · rw [ih h h']

lemma le_trans {s t u : Text} (hst : le s t = true) (htu : le t u = true) : le s u = true := by
  induction s generalizing t u with
  | nil => rfl
  | cons a s ih =>
    cases t with
    | nil => cases hst
    | cons b t =>
      cases u with
      | nil => cases htu
      | cons c u =>
        rw [le_cons_iff] at hst htu ⊢
        rcases hst with h | ⟨rfl, h⟩
        · rcases htu with h' | ⟨rfl, -⟩
          · exact Or.inl (by omega)
          · exact Or.inl h
        · rcases htu with h' | ⟨rfl, h'⟩
          · exact Or.inl h'
          · exact Or.inr ⟨rfl, ih h h'⟩

/-- A common beginning does not matter. -/
lemma le_append_left (p s t : Text) : le (p ++ s) (p ++ t) = le s t := by
  induction p with
  | nil => rfl
  | cons a p ih =>
    rw [Bool.eq_iff_iff, List.cons_append, List.cons_append, le_cons_iff, ih]
    simp

/-- Texts that differ before either ends are ordered whatever follows them. -/
lemma le_append {s t : Text} (h : le s t = true) (hst : ¬ s <+: t) (x y : Text) :
    le (s ++ x) (t ++ y) = true := by
  induction s generalizing t with
  | nil => exact absurd t.nil_prefix hst
  | cons a s ih =>
    cases t with
    | nil => cases h
    | cons b t =>
      rw [le_cons_iff] at h
      rw [List.cons_append, List.cons_append, le_cons_iff]
      rcases h with h | ⟨rfl, h⟩
      · exact Or.inl h
      · exact Or.inr ⟨rfl, ih h fun hp => hst (List.cons_prefix_cons.mpr ⟨rfl, hp⟩)⟩

/-! ### Sorting -/

def sorted (ts : List Text) : List Text := ts.mergeSort le

lemma pairwise_sorted (ts : List Text) : (sorted ts).Pairwise fun s t => le s t = true := by
  have htrans : ∀ s t u, le s t = true → le t u = true → le s u = true := fun _ _ _ => le_trans
  have htotal : ∀ s t, (le s t || le t s) = true := fun s t =>
    (Bool.or_eq_true _ _).mpr (le_total s t)
  exact List.pairwise_mergeSort htrans htotal ts

lemma sorted_perm (ts : List Text) : (sorted ts).Perm ts := List.mergeSort_perm ts le

/-- **There is one sorted order.** -/
lemma sorted_eq {ts us : List Text} (hp : us.Perm ts) (hs : us.Pairwise fun s t => le s t = true) :
    sorted ts = us := by
  have hperm : (sorted ts).Perm us := (sorted_perm ts).trans hp.symm
  exact List.Perm.eq_of_pairwise (fun s t _ _ hst hts => le_antisymm hst hts) (pairwise_sorted ts)
    hs hperm

lemma sorted_congr {ts us : List Text} (hp : ts.Perm us) : sorted ts = sorted us :=
  sorted_eq ((sorted_perm us).trans hp.symm) (pairwise_sorted us)

/-- Texts that are made of the elements of a list are sorted by sorting the list. -/
lemma exists_sorted_map {α : Type*} (f : α → Text) (l : List α) :
    ∃ l' : List α, l'.Perm l ∧ sorted (l.map f) = l'.map f := by
  refine ⟨l.mergeSort fun a b => le (f a) (f b), List.mergeSort_perm _ _, ?_⟩
  exact (List.map_mergeSort (f := f) (s := le) fun _ _ _ _ => rfl).symm

/-! ### Separators -/

/-- `joined(separator:)`. -/
def joined (separator : Text) (ts : List Text) : Text := separator.intercalate ts

/-- `components(separatedBy:)` with a single character. -/
def components (separator : Char) (t : Text) : List Text := t.splitOn separator

lemma components_joined {c : Char} {ts : List Text} (hc : ∀ t ∈ ts, c ∉ t) (hts : ts ≠ []) :
    components c (joined [c] ts) = ts :=
  List.splitOn_intercalate c hc hts

/-- A text with one separator has two components. -/
lemma components_append {c : Char} {s t : Text} (hs : c ∉ s) (ht : c ∉ t) :
    components c (s ++ c :: t) = [s, t] := by
  have h : components c (joined [c] [s, t]) = [s, t] :=
    components_joined (by simp [hs, ht]) (by simp)
  simpa [joined, List.intercalate] using h

lemma joined_cons (sep : Text) (t : Text) (ts : List Text) :
    joined sep (t :: ts) = t ++ ts.flatMap (sep ++ ·) := by
  induction ts generalizing t with
  | nil => simp [joined, List.intercalate]
  | cons u ts ih =>
    have hu := ih u
    simp only [joined, List.intercalate] at hu ⊢
    rw [List.intersperse_cons_cons, List.flatten_cons, List.flatten_cons, hu, List.flatMap_cons,
      List.append_assoc]

lemma length_joined (sep : Text) {ts : List Text} (hts : ts ≠ []) :
    (joined sep ts).length + sep.length = (ts.map fun t => t.length + sep.length).sum := by
  obtain ⟨t, ts, rfl⟩ := List.exists_cons_of_ne_nil hts
  rw [joined_cons, List.length_append, List.length_flatMap, List.map_cons, List.sum_cons]
  simp only [List.length_append, Nat.add_comm sep.length]
  omega

/-- The order of the texts does not change the length. -/
lemma length_joined_perm {sep : Text} {ts us : List Text} (h : ts.Perm us) :
    (joined sep ts).length = (joined sep us).length := by
  by_cases hts : ts = []
  · rw [hts] at h ⊢
    rw [List.nil_perm.mp h]
  · have hus : us ≠ [] := by
      rintro rfl
      exact hts (List.perm_nil.mp h)
    have hlen := length_joined sep hts
    have hlen' := length_joined sep hus
    have hsum := (h.map fun t => t.length + sep.length).sum_nat
    omega

lemma mem_joined {c : Char} {sep : Text} {ts : List Text} (h : c ∈ joined sep ts) :
    c ∈ sep ∨ ∃ t ∈ ts, c ∈ t := by
  cases ts with
  | nil => cases h
  | cons t ts =>
    rw [joined_cons, List.mem_append, List.mem_flatMap] at h
    rcases h with h | ⟨u, hu, h⟩
    · exact Or.inr ⟨t, List.mem_cons_self, h⟩
    · rcases List.mem_append.mp h with h | h
      · exact Or.inl h
      · exact Or.inr ⟨u, List.mem_cons_of_mem t hu, h⟩

lemma mem_joined_of_mem {c : Char} {sep t : Text} {ts : List Text} (ht : t ∈ ts) (h : c ∈ t) :
    c ∈ joined sep ts := by
  cases ts with
  | nil => cases ht
  | cons u ts =>
    rw [joined_cons, List.mem_append, List.mem_flatMap]
    rcases List.mem_cons.mp ht with rfl | ht
    · exact Or.inl h
    · exact Or.inr ⟨t, ht, List.mem_append.mpr (Or.inr h)⟩

/-! ### Numbers -/

/-- The number that digits stand for. -/
def number (t : Text) : Option ℕ :=
  if t ≠ [] ∧ t.all Char.isDigit then some (Nat.ofDigitChars 10 t 0) else none

lemma number_description (n : ℕ) : number (toString n).toList = some n := by
  rw [Nat.toString_eq_ofList_toDigits, String.toList_ofList, number, if_pos,
    Nat.ofDigitChars_ten_toDigits]
  exact ⟨Nat.toDigits_ne_nil, List.all_eq_true.mpr fun c hc =>
    Nat.isDigit_of_mem_toDigits (by decide) (by decide) hc⟩

end Text

end IosDevBootcamp.Lib
