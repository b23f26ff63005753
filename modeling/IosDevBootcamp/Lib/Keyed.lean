import Mathlib.Data.List.Nodup
import Mathlib.Data.List.Perm.Basic

/-!
# Lists with keys

A table of records is a list whose elements have a key.  Records are looked up, changed and erased
by their key; when the keys are distinct each of these is about one record.
-/

namespace IosDevBootcamp.Lib.Keyed

open scoped List

variable {α β κ : Type*} [DecidableEq κ] (key : α → κ)

def lookup (l : List α) (k : κ) : Option α := l.find? (key · = k)

/-- The records with the key, changed by `g`. -/
def modify (g : α → α) (l : List α) (k : κ) : List α := l.map fun x => if key x = k then g x else x

def erase (l : List α) (k : κ) : List α := l.filter (key · ≠ k)

variable {key} {l : List α} {x : α} {k j : κ} {g : α → α}

/-! ### Keys -/

lemma map_key_erase : (erase key l k).map key = (l.map key).filter (· ≠ k) := by
  rw [List.filter_map]
  rfl

lemma map_key_modify (hg : ∀ x, key (g x) = key x) : (modify key g l k).map key = l.map key := by
  simp only [modify, List.map_map]
  refine List.map_congr_left fun x _ => ?_
  simp only [Function.comp_apply]
  split
  · exact hg x
  · rfl

lemma erase_of_notMem (h : k ∉ l.map key) : erase key l k = l :=
  List.filter_eq_self.mpr fun x hx =>
    decide_eq_true fun heq => h (List.mem_map.mpr ⟨x, hx, heq⟩)

lemma modify_of_notMem (h : k ∉ l.map key) : modify key g l k = l := by
  have hid : ∀ x ∈ l, (if key x = k then g x else x) = x := fun x hx =>
    if_neg fun heq => h (List.mem_map.mpr ⟨x, hx, heq⟩)
  simp only [modify, List.map_congr_left hid, List.map_id']

/-! ### Lookup -/

lemma lookup_isSome : (lookup key l k).isSome = true ↔ k ∈ l.map key := by
  simp [lookup, List.find?_isSome]

lemma mem_of_lookup (h : lookup key l k = some x) : x ∈ l ∧ key x = k :=
  ⟨List.mem_of_find?_eq_some h, by simpa using List.find?_some h⟩

/-- Erasing a key hides it from the lookup, and nothing else. -/
lemma lookup_erase : lookup key (erase key l k) j = if j = k then none else lookup key l j := by
  simp only [lookup, erase, List.find?_filter]
  split
  · subst j
    refine List.find?_eq_none.mpr fun x _ => ?_
    simp
  · rename_i hne
    congr 1
    funext x
    by_cases hx : key x = j
    · simp [hx, hne]
    · simp [hx]

lemma lookup_map (hg : ∀ x, key (g x) = key x) :
    lookup key (l.map g) k = (lookup key l k).map g := by
  have hcomp : (fun x => decide (key x = k)) ∘ g = fun x => decide (key x = k) := by
    funext x
    rw [Function.comp_apply, hg]
  simp only [lookup, List.find?_map, hcomp]

/-- A new record hides no other. -/
lemma lookup_concat_of_ne (h : k ≠ key x) : lookup key (l ++ [x]) k = lookup key l k := by
  have hnone : [x].find? (key · = k) = none := by simpa using h.symm
  rw [lookup, List.find?_append, hnone, Option.or_none]
  rfl

lemma lookup_concat_self (h : key x ∉ l.map key) : lookup key (l ++ [x]) (key x) = some x := by
  have hnone : lookup key l (key x) = none := by
    rwa [← Option.not_isSome_iff_eq_none, lookup_isSome]
  rw [lookup, List.find?_append, show l.find? (key · = key x) = none from hnone]
  simp

/-- Keys that are all there are the keys of what they look up. -/
lemma map_key_filterMap_lookup {ks : List κ} (h : ∀ k ∈ ks, k ∈ l.map key) :
    (ks.filterMap (lookup key l)).map key = ks := by
  induction ks with
  | nil => rfl
  | cons k ks ih =>
    have hs : (lookup key l k).isSome = true := lookup_isSome.mpr (h k List.mem_cons_self)
    obtain ⟨x, hx⟩ := Option.isSome_iff_exists.mp hs
    rw [List.filterMap_cons_some hx, List.map_cons, (mem_of_lookup hx).2,
      ih fun j hj => h j (List.mem_cons_of_mem k hj)]

/-- Erasing a key from the table and from a list of keys erases it from what they look up. -/
lemma filterMap_lookup_erase (ks : List κ) (k : κ) :
    (ks.filter (· ≠ k)).filterMap (lookup key (erase key l k)) =
      erase key (ks.filterMap (lookup key l)) k := by
  induction ks with
  | nil => rfl
  | cons j ks ih =>
    by_cases hj : j = k
    · subst hj
      rw [List.filter_cons_of_neg (by simp), ih]
      cases hx : lookup key l j with
      | none => rw [List.filterMap_cons_none hx]
      | some x =>
        rw [List.filterMap_cons_some hx, erase, erase, List.filter_cons_of_neg]
        simp [(mem_of_lookup hx).2]
    · rw [List.filter_cons_of_pos (by simpa using hj)]
      have he : lookup key (erase key l k) j = lookup key l j := by rw [lookup_erase, if_neg hj]
      cases hx : lookup key l j with
      | none => rw [List.filterMap_cons_none (he.trans hx), List.filterMap_cons_none hx, ih]
      | some x =>
        rw [List.filterMap_cons_some (he.trans hx), List.filterMap_cons_some hx, ih, erase, erase,
          List.filter_cons_of_pos]
        simp [(mem_of_lookup hx).2, hj]

/-! ### Distinct keys -/

section Distinct

variable (hn : (l.map key).Nodup)
include hn

lemma lookup_of_mem (hx : x ∈ l) : lookup key l (key x) = some x := by
  have hsome : (lookup key l (key x)).isSome = true := lookup_isSome.mpr (List.mem_map_of_mem hx)
  obtain ⟨y, hy⟩ := Option.isSome_iff_exists.mp hsome
  rw [hy, List.inj_on_of_nodup_map hn (mem_of_lookup hy).1 hx (mem_of_lookup hy).2]

/-- A record and the records without its key make up the table. -/
lemma perm_cons_erase (hx : x ∈ l) : l.Perm (x :: erase key l (key x)) := by
  induction l with
  | nil => cases hx
  | cons y l ih =>
    rw [List.map_cons, List.nodup_cons] at hn
    rcases List.mem_cons.mp hx with rfl | hx
    · have he : erase key (x :: l) (key x) = l := by
        rw [erase, List.filter_cons_of_neg (by simp)]
        exact erase_of_notMem hn.1
      rw [he]
    · have hne : key y ≠ key x := fun heq => hn.1 (heq ▸ List.mem_map_of_mem hx)
      have he : erase key (y :: l) (key x) = y :: erase key l (key x) :=
        List.filter_cons_of_pos (by simpa using hne)
      rw [he]
      exact ((ih hn.2 hx).cons y).trans (List.Perm.swap x y _)

/-- Changing a record adds to what is gathered from the table what it adds to the record's part. -/
lemma flatMap_modify_perm {f : α → List β} {extra : List β} (hx : x ∈ l)
    (hg : (f (g x)).Perm (extra ++ f x)) :
    ((modify key g l (key x)).flatMap f).Perm (extra ++ l.flatMap f) := by
  have hp := perm_cons_erase hn hx
  have hrest : key x ∉ (erase key l (key x)).map key := by simp [map_key_erase]
  have hmod : (modify key g l (key x)).Perm (g x :: erase key l (key x)) := by
    have := hp.map fun y => if key y = key x then g y else y
    rw [List.map_cons, if_pos rfl] at this
    rwa [← modify, ← modify, modify_of_notMem hrest] at this
  have hf := hmod.flatMap_right f
  have hl := hp.flatMap_right f
  rw [List.flatMap_cons] at hf hl
  calc (modify key g l (key x)).flatMap f
      ~ f (g x) ++ (erase key l (key x)).flatMap f := hf
    _ ~ (extra ++ f x) ++ (erase key l (key x)).flatMap f := hg.append_right _
    _ ~ extra ++ l.flatMap f := by
        rw [List.append_assoc]
        exact hl.symm.append_left extra

/-- The record of a row is erased by erasing the row. -/
lemma erase_eq_eraseIdx {i : ℕ} (hx : l[i]? = some x) : erase key l (key x) = l.eraseIdx i := by
  induction l generalizing i with
  | nil => cases hx
  | cons y l ih =>
    rw [List.map_cons, List.nodup_cons] at hn
    cases i with
    | zero =>
      obtain rfl : y = x := by simpa using hx
      rw [erase, List.filter_cons_of_neg (by simp), List.eraseIdx_cons_zero]
      exact erase_of_notMem hn.1
    | succ i =>
      have hx' : l[i]? = some x := by simpa using hx
      have hne : key y ≠ key x := fun heq =>
        hn.1 (heq ▸ List.mem_map_of_mem (List.mem_of_getElem? hx'))
      rw [erase, List.filter_cons_of_pos (by simpa using hne), List.eraseIdx_cons_succ]
      exact congrArg (y :: ·) (ih hn.2 hx')

/-- The record of a row is changed by changing the row. -/
lemma modify_eq_set {i : ℕ} (hx : l[i]? = some x) : modify key g l (key x) = l.set i (g x) := by
  induction l generalizing i with
  | nil => cases hx
  | cons y l ih =>
    rw [List.map_cons, List.nodup_cons] at hn
    cases i with
    | zero =>
      obtain rfl : y = x := by simpa using hx
      rw [modify, List.map_cons, if_pos rfl, List.set_cons_zero]
      exact congrArg (g y :: ·) (modify_of_notMem hn.1)
    | succ i =>
      have hx' : l[i]? = some x := by simpa using hx
      have hne : key y ≠ key x := fun heq =>
        hn.1 (heq ▸ List.mem_map_of_mem (List.mem_of_getElem? hx'))
      rw [modify, List.map_cons, if_neg hne, List.set_cons_succ]
      exact congrArg (y :: ·) (ih hn.2 hx')

end Distinct

end IosDevBootcamp.Lib.Keyed
