import Mathlib.Data.List.Nodup
import Mathlib.Data.List.Sort

/-!
# Ordered views of a collection

The elements of a collection have numbers, and some have a key.  A view lists those that have one,
by their keys, and by their numbers where the keys do not decide.  There is one list of them in that
order.
-/

namespace IosDevBootcamp.Lib

/-- An order of keys in which different keys may be equal. -/
structure KeyOrder (κ : Type*) where
  le : κ → κ → Bool
  total : ∀ k j, le k j = true ∨ le j k = true
  trans : ∀ k j i, le k j = true → le j i = true → le k i = true

namespace Ordered

variable {α κ : Type*} (order : KeyOrder κ) (key : α → Option κ) (number : α → ℕ)

/-- The order of the view, on elements with their keys. -/
def Le (p q : κ × α) : Prop :=
  order.le p.1 q.1 = true ∧ (order.le q.1 p.1 = true → number p.2 ≤ number q.2)

instance : DecidableRel (Le order number) := fun _ _ => inferInstanceAs (Decidable (_ ∧ _))

instance : Std.Total (Le order number) where
  total p q := by
    have hnum := Nat.le_total (number p.2) (number q.2)
    rcases order.total p.1 q.1 with h | h
    · by_cases hqp : order.le q.1 p.1 = true
      · exact hnum.imp (fun hn => ⟨h, fun _ => hn⟩) (fun hn => ⟨hqp, fun _ => hn⟩)
      · exact Or.inl ⟨h, fun h' => absurd h' hqp⟩
    · by_cases hpq : order.le p.1 q.1 = true
      · exact hnum.imp (fun hn => ⟨hpq, fun _ => hn⟩) (fun hn => ⟨h, fun _ => hn⟩)
      · exact Or.inr ⟨h, fun h' => absurd h' hpq⟩

instance : IsTrans (κ × α) (Le order number) where
  trans p q r hpq hqr := by
    refine ⟨order.trans _ _ _ hpq.1 hqr.1, fun h => ?_⟩
    -- with `r` not after `p` all three keys are equal
    have hrq := order.trans _ _ _ h hpq.1
    have hqp := order.trans _ _ _ hqr.1 h
    exact Nat.le_trans (hpq.2 hqp) (hqr.2 hrq)

def keyed (l : List α) : List (κ × α) := l.filterMap fun a => (key a).map fun k => (k, a)

def view (l : List α) : List α :=
  ((keyed key l).insertionSort (Le order number)).map Prod.snd

/-- The order of the view, on elements that have keys. -/
def Before (a b : α) : Prop :=
  ∀ k j, key a = some k → key b = some j → Le order number (k, a) (j, b)

variable {order key number} {l l' : List α} {a b : α} {p : κ × α}

lemma mem_keyed : p ∈ keyed key l ↔ p.2 ∈ l ∧ key p.2 = some p.1 := by
  unfold keyed
  rw [List.mem_filterMap]
  constructor
  · rintro ⟨a, ha, hp⟩
    obtain ⟨k, hk, rfl⟩ := Option.map_eq_some_iff.mp hp
    exact ⟨ha, hk⟩
  · rintro ⟨hl, hk⟩
    exact ⟨p.2, hl, by rw [hk]; rfl⟩

/-- A view leaves out the elements without a key. -/
lemma view_perm : (view order key number l).Perm (l.filter fun a => (key a).isSome) := by
  have hsnd : (keyed key l).map Prod.snd = l.filter fun a => (key a).isSome := by
    unfold keyed
    rw [List.map_filterMap, ← List.filterMap_eq_filter]
    refine List.filterMap_congr fun a _ => ?_
    cases h : key a <;> simp [Option.guard, h]
  rw [← hsnd]
  exact (List.perm_insertionSort _ _).map Prod.snd

lemma mem_view : a ∈ view order key number l ↔ a ∈ l ∧ (key a).isSome = true := by
  rw [view_perm.mem_iff, List.mem_filter]

/-- A view is in its order. -/
lemma view_pairwise : (view order key number l).Pairwise (Before order key number) := by
  have hsorted := List.pairwise_insertionSort (Le order number) (keyed key l)
  rw [view, List.pairwise_map]
  refine hsorted.imp_of_mem ?_
  intro p q hp hq hle k j hk hj
  have hkey : ∀ {p : κ × α}, p ∈ (keyed key l).insertionSort (Le order number) →
      key p.2 = some p.1 :=
    fun h => (mem_keyed.mp ((List.mem_insertionSort _).mp h)).2
  obtain rfl : p.1 = k := Option.some_inj.mp ((hkey hp).symm.trans hk)
  obtain rfl : q.1 = j := Option.some_inj.mp ((hkey hq).symm.trans hj)
  exact hle

/-- **There is one list in the order**, where all elements have a key and no two have a number. -/
lemma eq_of_pairwise (hl : l.Pairwise (Before order key number))
    (hl' : l'.Pairwise (Before order key number)) (h : l.Perm l')
    (hkey : ∀ a ∈ l, (key a).isSome = true) (hn : (l.map number).Nodup) : l = l' := by
  refine List.Perm.eq_of_pairwise (fun a b ha hb hab hba => ?_) hl hl' h
  obtain ⟨k, hk⟩ := Option.isSome_iff_exists.mp (hkey a ha)
  obtain ⟨j, hj⟩ := Option.isSome_iff_exists.mp (hkey b (h.mem_iff.mpr hb))
  have hle := hab k j hk hj
  have hle' := hba j k hj hk
  exact List.inj_on_of_nodup_map hn ha (h.mem_iff.mpr hb)
    (Nat.le_antisymm (hle.2 hle'.1) (hle'.2 hle.1))

end Ordered

end IosDevBootcamp.Lib
