import Mathlib.Data.List.Basic
import Mathlib.Tactic.Common

/-!
# Runs of an event-driven program

A program that reacts to events is a step function `σ → ε → Except ρ σ`: an event takes a state to
the next one, or ends in a fault.  `run` folds the step over a list of events, `Along` says that a
condition holds of every event of a run in the state before it, and the rules below turn what one
step preserves into what every run preserves.
-/

namespace IosDevBootcamp.Lib.Run

variable {σ σ' ε ρ : Type*} {step : σ → ε → Except ρ σ}

/-- The state after the events `es`, or the fault of the first event that has no step. -/
def run (step : σ → ε → Except ρ σ) (s : σ) (es : List ε) : Except ρ σ := es.foldlM step s

/-- `P` holds of every event of the run in the state before it. -/
def Along (step : σ → ε → Except ρ σ) (P : σ → ε → Prop) : σ → List ε → Prop
  | _, [] => True
  | s, e :: es => P s e ∧ match step s e with
    | .ok s' => Along step P s' es
    | .error _ => True

instance decidableAlong (P : σ → ε → Prop) [∀ s e, Decidable (P s e)] :
    ∀ (s : σ) (es : List ε), Decidable (Along step P s es)
  | _, [] => isTrue trivial
  | s, e :: es => by
      have : Decidable (match step s e with
          | .ok s' => Along step P s' es
          | .error _ => True) := by
        split
        · exact decidableAlong P _ es
        · exact isTrue trivial
      exact inferInstanceAs (Decidable (_ ∧ _))

/-- What a mapped result was before. -/
lemma map_ok_iff {α β : Type*} {f : α → β} {x : Except ρ α} {b : β} :
    x.map f = .ok b ↔ ∃ a, x = .ok a ∧ f a = b := by
  cases x with
  | error e => exact ⟨nofun, fun ⟨_, h, _⟩ => nomatch h⟩
  | ok a =>
    constructor
    · intro h
      exact ⟨a, rfl, Except.ok.inj h⟩
    · rintro ⟨_, h, rfl⟩
      cases h
      rfl

/-! ### Unfolding a run -/

@[simp] lemma run_nil (s : σ) : run step s [] = .ok s := rfl

lemma run_cons_ok {s s' : σ} {e : ε} (h : step s e = .ok s') (es : List ε) :
    run step s (e :: es) = run step s' es := by
  simp only [run, List.foldlM_cons, h]
  rfl

lemma run_cons_error {s : σ} {e : ε} {f : ρ} (h : step s e = .error f) (es : List ε) :
    run step s (e :: es) = .error f := by
  simp only [run, List.foldlM_cons, h]
  rfl

@[simp] lemma run_singleton (s : σ) (e : ε) : run step s [e] = step s e := by
  cases h : step s e with
  | ok s' => rw [run_cons_ok h, run_nil]
  | error f => rw [run_cons_error h]

lemma run_append_ok {s s' : σ} {es : List ε} (h : run step s es = .ok s') (fs : List ε) :
    run step s (es ++ fs) = run step s' fs := by
  simp only [run, List.foldlM_append] at h ⊢
  rw [h]
  rfl

lemma run_append_error {s : σ} {es : List ε} {f : ρ} (h : run step s es = .error f)
    (fs : List ε) : run step s (es ++ fs) = .error f := by
  simp only [run, List.foldlM_append] at h ⊢
  rw [h]
  rfl

/-- A run that ends well after `es ++ fs` has ended well after `es`. -/
lemma run_append_ok_iff {s t : σ} {es fs : List ε} :
    run step s (es ++ fs) = .ok t ↔ ∃ u, run step s es = .ok u ∧ run step u fs = .ok t := by
  cases h : run step s es with
  | ok u => simp [run_append_ok h]
  | error f => simp [run_append_error h]

lemma run_cons_ok_iff {s t : σ} {e : ε} {es : List ε} :
    run step s (e :: es) = .ok t ↔ ∃ u, step s e = .ok u ∧ run step u es = .ok t := by
  cases h : step s e with
  | ok u => simp [run_cons_ok h]
  | error f => simp [run_cons_error h]

/-! ### Conditions along a run -/

section Along

variable {P : σ → ε → Prop}

@[simp] lemma along_nil (s : σ) : Along step P s [] := trivial

lemma along_cons_ok {s s' : σ} {e : ε} (h : step s e = .ok s') (es : List ε) :
    Along step P s (e :: es) ↔ P s e ∧ Along step P s' es := by
  simp only [Along, h]

lemma along_cons_error {s : σ} {e : ε} {f : ρ} (h : step s e = .error f) (es : List ε) :
    Along step P s (e :: es) ↔ P s e := by
  simp only [Along, h, and_true]

lemma Along.head {s : σ} {e : ε} {es : List ε} (h : Along step P s (e :: es)) : P s e := h.1

lemma Along.tail {s s' : σ} {e : ε} {es : List ε} (h : Along step P s (e :: es))
    (hs : step s e = .ok s') : Along step P s' es :=
  ((along_cons_ok hs es).mp h).2

lemma Along.imp {Q : σ → ε → Prop} (hPQ : ∀ s e, P s e → Q s e) {s : σ} {es : List ε}
    (h : Along step P s es) : Along step Q s es := by
  induction es generalizing s with
  | nil => exact along_nil s
  | cons e es ih =>
    cases hs : step s e with
    | error f => exact (along_cons_error hs es).mpr (hPQ s e h.head)
    | ok s' => exact (along_cons_ok hs es).mpr ⟨hPQ s e h.head, ih (h.tail hs)⟩

lemma along_of_forall {es : List ε} (h : ∀ s, ∀ e ∈ es, P s e) (s : σ) : Along step P s es := by
  induction es generalizing s with
  | nil => exact along_nil s
  | cons e es ih =>
    have he : P s e := h s e List.mem_cons_self
    cases hs : step s e with
    | error f => exact (along_cons_error hs es).mpr he
    | ok s' =>
      refine (along_cons_ok hs es).mpr ⟨he, ih ?_ s'⟩
      exact fun u f hf => h u f (List.mem_cons_of_mem e hf)

end Along

/-! ### Invariants -/

/-- What every step preserves holds at the end of every run. -/
theorem run_inv {Inv : σ → Prop} (hstep : ∀ s e s', Inv s → step s e = .ok s' → Inv s')
    {s t : σ} {es : List ε} (hs : Inv s) (h : run step s es = .ok t) : Inv t := by
  induction es generalizing s with
  | nil =>
    obtain rfl : s = t := by simpa using h
    exact hs
  | cons e es ih =>
    obtain ⟨u, hu, hes⟩ := run_cons_ok_iff.mp h
    exact ih (hstep s e u hs hu) hes

/-- A value computed from the events alone stays related to the state when every step relates it to
the next one. -/
theorem run_follows {τ : Type*} {R : σ → τ → Prop} {f : τ → ε → τ}
    (hstep : ∀ s x e s', R s x → step s e = .ok s' → R s' (f x e))
    {s t : σ} {x : τ} {es : List ε} (hs : R s x) (h : run step s es = .ok t) :
    R t (es.foldl f x) := by
  induction es generalizing s x with
  | nil =>
    obtain rfl : s = t := by simpa using h
    exact hs
  | cons e es ih =>
    obtain ⟨u, hu, hes⟩ := run_cons_ok_iff.mp h
    exact ih (hstep s x e u hs hu) hes

/-- A relation between the state and the events so far that every step keeps holds at the end of
every run. -/
theorem run_history {R : σ → List ε → Prop}
    (hstep : ∀ s es e s', R s es → step s e = .ok s' → R s' (es ++ [e]))
    {s t : σ} {es : List ε} (hs : R s []) (h : run step s es = .ok t) : R t es := by
  have hfold : ∀ l : List ε, es.foldl (fun l e => l ++ [e]) l = l ++ es := by
    simp [← List.flatMap_def]
  have hR := run_follows (fun s l e s' => hstep s l e s') hs h
  rwa [hfold, List.nil_append] at hR

/-- A part of the state that some events write and the others leave alone is what the last of those
events wrote. -/
theorem run_last_write {α β : Type*} {v : σ → α} {w : ε → Option β} {f : β → α}
    (hstep : ∀ s e s', step s e = .ok s' → v s' = ((w e).map f).getD (v s))
    {s t : σ} {es : List ε} (h : run step s es = .ok t) :
    v t = ((es.filterMap w).getLast?.map f).getD (v s) := by
  refine run_history (R := fun t es => v t = ((es.filterMap w).getLast?.map f).getD (v s))
    (fun u es e u' hu he => ?_) rfl h
  rw [hstep u e u' he, List.filterMap_append]
  cases hw : w e with
  | none => simp [hw, hu]
  | some b => simp [hw]

/-- What every step that meets `P` preserves holds at the end of every run whose steps meet `P`. -/
theorem run_inv_along {Inv : σ → Prop} {P : σ → ε → Prop}
    (hstep : ∀ s e s', Inv s → P s e → step s e = .ok s' → Inv s')
    {s t : σ} {es : List ε} (hs : Inv s) (hP : Along step P s es)
    (h : run step s es = .ok t) : Inv t := by
  induction es generalizing s with
  | nil =>
    obtain rfl : s = t := by simpa using h
    exact hs
  | cons e es ih =>
    obtain ⟨u, hu, hes⟩ := run_cons_ok_iff.mp h
    exact ih (hstep s e u hs hP.head hu) (hP.tail hu) hes

section Follows

variable {ε' : Type*} {step' : σ → ε' → Except ρ σ} {f : ε' → ε} {Inv : σ → Prop}
  {P : σ → ε' → Prop}

/-- When each step of a system that meets `P` has a step of another one beside it, so does each run. -/
theorem run_simulates {σ' : Type*} {step' : σ' → ε' → Except ρ σ'} {P : σ' → ε' → Prop}
    {R : σ' → σ → Prop}
    (hstep : ∀ s a e s', R s a → P s e → step' s e = .ok s' → ∃ a', step a (f e) = .ok a' ∧ R s' a')
    {s t : σ'} {a : σ} {es : List ε'} (hs : R s a) (hP : Along step' P s es)
    (h : run step' s es = .ok t) : ∃ b, run step a (es.map f) = .ok b ∧ R t b := by
  induction es generalizing s a with
  | nil =>
    obtain rfl : s = t := by simpa using h
    exact ⟨a, rfl, hs⟩
  | cons e es ih =>
    obtain ⟨u, hu, hes⟩ := run_cons_ok_iff.mp h
    obtain ⟨a', ha', hR⟩ := hstep s a e u hs hP.head hu
    rw [List.map_cons, run_cons_ok ha']
    exact ih hR (hP.tail hu) hes

/-- When a system steps as another one wherever `P` is met, it runs as that does. -/
theorem run_eq_along (hstep : ∀ s e, Inv s → P s e → step' s e = step s (f e))
    (hinv : ∀ s e s', Inv s → step s e = .ok s' → Inv s') {s : σ} {es : List ε'} (hs : Inv s)
    (hP : Along step' P s es) : run step' s es = run step s (es.map f) := by
  induction es generalizing s with
  | nil => rfl
  | cons e es ih =>
    have heq := hstep s e hs hP.head
    rw [List.map_cons]
    cases h : step s (f e) with
    | error a => rw [run_cons_error (heq.trans h), run_cons_error h]
    | ok u =>
      rw [run_cons_ok (heq.trans h), run_cons_ok h]
      exact ih (hinv s (f e) u hs h) (hP.tail (heq.trans h))

lemma along_of_eq (hstep : ∀ s e, Inv s → P s e → step' s e = step s (f e))
    (hinv : ∀ s e s', Inv s → step s e = .ok s' → Inv s') {s : σ} {es : List ε'} (hs : Inv s)
    (hP : Along (fun s e => step s (f e)) P s es) : Along step' P s es := by
  induction es generalizing s with
  | nil => exact along_nil s
  | cons e es ih =>
    have heq := hstep s e hs hP.head
    cases h : step s (f e) with
    | error a => exact (along_cons_error (heq.trans h) es).mpr hP.head
    | ok u =>
      exact (along_cons_ok (heq.trans h) es).mpr
        ⟨hP.head, ih (hinv s (f e) u hs h) (hP.tail h)⟩

end Follows

/-- When a step keeps `Q` just if it meets `P`, and `Q` once lost does not come back, a run keeps
`Q` just if all its steps meet `P`. -/
theorem run_iff_along {Inv Q : σ → Prop} {P : σ → ε → Prop}
    (hstep : ∀ s e s', Inv s → step s e = .ok s' → Inv s' ∧ (Q s' ↔ Q s ∧ P s e))
    {s t : σ} {es : List ε} (hs : Inv s) (h : run step s es = .ok t) :
    Q t ↔ Q s ∧ Along step P s es := by
  induction es generalizing s with
  | nil =>
    obtain rfl : s = t := by simpa using h
    simp
  | cons e es ih =>
    obtain ⟨u, hu, hes⟩ := run_cons_ok_iff.mp h
    obtain ⟨hi, hiff⟩ := hstep s e u hs hu
    rw [ih hi hes, hiff, along_cons_ok hu, and_assoc]

/-- When from a state with `Q` the steps that meet `P` are those that keep `Q`, every state of a run
has `Q` just if all its steps meet `P`. -/
theorem forall_prefix_iff_along {Q : σ → Prop} {P : σ → ε → Prop}
    (hstep : ∀ s e, Q s → (P s e ↔ ∀ s', step s e = .ok s' → Q s')) {s : σ} {es : List ε}
    (hs : Q s) :
    (∀ fs, fs <+: es → ∀ u, run step s fs = .ok u → Q u) ↔ Along step P s es := by
  induction es generalizing s with
  | nil =>
    refine ⟨fun _ => along_nil s, fun _ fs hfs u hu => ?_⟩
    obtain rfl : fs = [] := List.prefix_nil.mp hfs
    obtain rfl : s = u := by simpa using hu
    exact hs
  | cons e es ih =>
    cases he : step s e with
    | error f =>
      have hP : P s e := (hstep s e hs).mpr fun s' hs' => by
        rw [he] at hs'
        cases hs'
      refine ⟨fun _ => (along_cons_error he es).mpr hP, fun _ fs hfs u hu => ?_⟩
      rcases List.prefix_cons_iff.mp hfs with rfl | ⟨gs, rfl, -⟩
      · obtain rfl : s = u := by simpa using hu
        exact hs
      · rw [run_cons_error he] at hu
        cases hu
    | ok s' =>
      rw [along_cons_ok he]
      constructor
      · intro h
        have hs' : Q s' := h [e] ⟨es, rfl⟩ s' (by rw [run_singleton, he])
        refine ⟨(hstep s e hs).mpr fun t ht => ?_, (ih hs').mp fun fs hfs u hu => ?_⟩
        · rw [he] at ht
          cases ht
          exact hs'
        · exact h (e :: fs) (List.prefix_cons_inj e |>.mpr hfs) u (by rw [run_cons_ok he, hu])
      · rintro ⟨hP, halong⟩ fs hfs u hu
        have hs' : Q s' := (hstep s e hs).mp hP s' he
        rcases List.prefix_cons_iff.mp hfs with rfl | ⟨gs, rfl, hgs⟩
        · obtain rfl : s = u := by simpa using hu
          exact hs
        · rw [run_cons_ok he] at hu
          exact (ih hs').mpr halong gs hgs u hu

/-- When a step that meets `P` never faults and preserves `Inv`, no run whose steps meet `P`
faults. -/
theorem run_ok_along {Inv : σ → Prop} {P : σ → ε → Prop}
    (hstep : ∀ s e, Inv s → P s e → ∃ s', step s e = .ok s' ∧ Inv s')
    {s : σ} {es : List ε} (hs : Inv s) (hP : Along step P s es) :
    ∃ t, run step s es = .ok t ∧ Inv t := by
  induction es generalizing s with
  | nil => exact ⟨s, rfl, hs⟩
  | cons e es ih =>
    obtain ⟨u, hu, hi⟩ := hstep s e hs hP.head
    obtain ⟨t, ht, hit⟩ := ih hi (hP.tail hu)
    exact ⟨t, by rw [run_cons_ok hu, ht], hit⟩

/-- A run that breaks `P` has a first event that does: up to it the steps meet `P` and the
invariant they preserve holds. -/
theorem exists_first_break {Inv : σ → Prop} {P : σ → ε → Prop}
    (hstep : ∀ s e, Inv s → P s e → ∃ s', step s e = .ok s' ∧ Inv s')
    {s : σ} {es : List ε} (hs : Inv s) (hP : ¬ Along step P s es) :
    ∃ fs e gs t, es = fs ++ e :: gs ∧ Along step P s fs ∧ run step s fs = .ok t ∧ Inv t ∧
      ¬ P t e := by
  induction es generalizing s with
  | nil => exact absurd trivial hP
  | cons e es ih =>
    by_cases he : P s e
    · obtain ⟨u, hu, hi⟩ := hstep s e hs he
      rw [along_cons_ok hu] at hP
      obtain ⟨fs, f, gs, t, rfl, hfs, hrun, hit, hf⟩ := ih hi fun h => hP ⟨he, h⟩
      exact ⟨e :: fs, f, gs, t, rfl, (along_cons_ok hu fs).mpr ⟨he, hfs⟩,
        by rw [run_cons_ok hu, hrun], hit, hf⟩
    · exact ⟨[], e, es, s, rfl, trivial, rfl, hs, he⟩

end IosDevBootcamp.Lib.Run
