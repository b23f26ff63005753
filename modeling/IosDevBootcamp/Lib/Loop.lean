import Mathlib.Data.List.Basic

/-!
# Loops that collect

A loop that appends to a list what it finds at each step has collected the found values in order.
An index that runs to a bound finds what the elements before the bound give, also when the list ends
before it.
-/

namespace IosDevBootcamp.Lib.Loop

variable {α β : Type*}

/-- A loop whose step appends what `f` finds, or nothing. -/
lemma foldl_collect {g : List β → α → List β} {f : α → Option β}
    (hg : ∀ acc a, g acc a = acc ++ (f a).toList) (l : List α) (acc : List β) :
    l.foldl g acc = acc ++ l.filterMap f := by
  induction l generalizing acc with
  | nil => simp
  | cons a l ih =>
    rw [List.foldl_cons, ih, hg]
    cases h : f a with
    | none => rw [List.filterMap_cons_none h, Option.toList_none, List.append_nil]
    | some b => rw [List.filterMap_cons_some h, List.append_assoc, Option.toList_some,
        List.singleton_append]

/-- Indexing up to a bound visits the elements before the bound. -/
lemma filterMap_range_getElem? (f : α → Option β) (l : List α) (n : ℕ) :
    (List.range n).filterMap (fun i => l[i]?.bind f) = (l.take n).filterMap f := by
  induction n with
  | zero => simp
  | succ n ih =>
    rw [List.range_succ, List.filterMap_append, ih, List.take_add_one, List.filterMap_append]
    cases h : l[n]? with
    | none => simp [h]
    | some a => simp [List.filterMap_cons, h]

/-! ### Loops over a range that can fail -/

/-- A loop over `0 ..< n` whose step succeeds under an invariant ends, with the invariant of `n`. -/
lemma foldlM_range {σ : Type*} {f : σ → ℕ → Option σ} {P : ℕ → σ → Prop} {s : σ} (n : ℕ)
    (h0 : P 0 s) (hstep : ∀ i < n, ∀ s, P i s → ∃ s', f s i = some s' ∧ P (i + 1) s') :
    ∃ s', (List.range n).foldlM f s = some s' ∧ P n s' := by
  induction n with
  | zero => exact ⟨s, rfl, h0⟩
  | succ n ih =>
    obtain ⟨t, ht, hP⟩ := ih fun i hi => hstep i (by omega)
    obtain ⟨t', ht', hP'⟩ := hstep n (by omega) t hP
    refine ⟨t', ?_, hP'⟩
    rw [List.range_succ, List.foldlM_append, ht]
    simpa using ht'

/-- A loop whose step always finds something maps. -/
lemma mapM_some {f : α → Option β} {g : α → β} {l : List α} (h : ∀ a ∈ l, f a = some (g a)) :
    l.mapM f = some (l.map g) := by
  induction l with
  | nil => rfl
  | cons a l ih =>
    rw [List.mapM_cons, h a List.mem_cons_self, ih fun b hb => h b (List.mem_cons_of_mem a hb)]
    rfl

/-- What such a loop finds it has found of some element. -/
lemma exists_of_mem_mapM {f : α → Option β} {l : List α} {bs : List β} (h : l.mapM f = some bs)
    {b : β} (hb : b ∈ bs) : ∃ a ∈ l, f a = some b := by
  induction l generalizing bs with
  | nil =>
    cases h
    cases hb
  | cons a l ih =>
    rw [List.mapM_cons] at h
    obtain ⟨b', ha, hrest⟩ := Option.bind_eq_some_iff.mp h
    obtain ⟨bs', hl, hbs⟩ := Option.bind_eq_some_iff.mp hrest
    cases hbs
    rcases List.mem_cons.mp hb with rfl | hb
    · exact ⟨a, List.mem_cons_self, ha⟩
    · obtain ⟨a', ha', hfound⟩ := ih hl hb
      exact ⟨a', List.mem_cons_of_mem a ha', hfound⟩

end IosDevBootcamp.Lib.Loop
