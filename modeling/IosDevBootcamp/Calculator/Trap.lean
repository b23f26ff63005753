import IosDevBootcamp.Calculator.Hundredths

/-!
# When the calculator traps

The label is the only store of the operand, and every path that reads it ends in `fatalError` when
it is no numeral.  `OkKey` names the keys that keep the label readable, in the state before the
key: a run whose keys all meet it never traps, and a run that breaks it once can never reach a calc
key again without a trap.
-/

namespace IosDevBootcamp.Calculator

open IosDevBootcamp.Lib.Numeral IosDevBootcamp.Lib.Run SwiftDouble ViewController

variable {D : Type*} [SwiftDouble D]

/-- The label shows an integral value, as the guard of the decimal point computes it. -/
def ShowsInt (D : Type*) [SwiftDouble D] (t : List Char) : Prop :=
  (ofText t : Option D).any isInt = true

instance : DecidablePred (ShowsInt D) := fun _ => inferInstanceAs (Decidable (_ = true))

/-- **The keys that keep the label readable.**  No calc key follows a lone point; no digit is
appended to `inf` or `nan`; no point is appended to a lone point, nor to an integral value that is
written with a point or an exponent. -/
def OkKey (s : ViewController D) : Key → Prop
  | .calcButton _ => s.displayLabel ≠ ['.']
  | .numButton (.digit _) => s.isDoneTyping = true ∨ ¬ IsSpecial s.displayLabel
  | .numButton .point => s.isDoneTyping = true ∨ (s.displayLabel ≠ ['.'] ∧
      (ShowsInt D s.displayLabel → decimal.eval s.displayLabel = .whole))

instance (s : ViewController D) (k : Key) : Decidable (OkKey s k) :=
  match k with
  | .calcButton _ => inferInstanceAs (Decidable (_ ≠ _))
  | .numButton (.digit _) => inferInstanceAs (Decidable (_ ∨ _))
  | .numButton .point => inferInstanceAs (Decidable (_ ∨ _))

/-- The label reads as a number, or is the lone point the user has just typed. -/
def Readable (s : ViewController D) : Prop :=
  IsNumeral s.displayLabel ∨ (s.displayLabel = ['.'] ∧ s.isDoneTyping = false)

omit [SwiftDouble D] in
lemma readable_launch : Readable (launch : ViewController D) :=
  .inl (show IsNumeral ['0'] by decide)

/-! ### What a key does to a readable label -/

lemma not_isNumeral_point : ¬ IsNumeral ['.'] := by decide

lemma isNumeral_digit (d : Fin 10) : IsNumeral [Nat.digitChar d] :=
  .inl (isDecimal_digits (by simp) (by simpa using kind_digitChar d))

lemma isNumeral_point_digit (d : Fin 10) : IsNumeral (['.'] ++ [Nat.digitChar d]) := by
  left
  unfold IsDecimal
  rw [eval_concat, kind_digitChar]
  decide

/-- No key traps on a label that reads as a number. -/
lemma press_ok_of_isNumeral {s : ViewController D} (hn : IsNumeral s.displayLabel) (k : Key) :
    ∃ s', s.press k = .ok s' := by
  obtain ⟨x, hx⟩ := exists_ofText (D := D) hn
  match k with
  | .calcButton c => exact ⟨_, press_calc hx c⟩
  | .numButton n =>
    by_cases hdone : s.isDoneTyping = true
    · exact ⟨_, press_num_fresh hdone n⟩
    · have hdone : s.isDoneTyping = false := by simpa using hdone
      cases n with
      | digit d => exact ⟨_, press_digit_append hdone d⟩
      | point => exact ⟨_, press_point_append hdone hx⟩

lemma Readable.calc_ok {s : ViewController D} (h : Readable s) {c : CalcKey}
    (hc : OkKey s (.calcButton c)) : ∃ s', s.press (.calcButton c) = .ok s' ∧ Readable s' := by
  have hn : IsNumeral s.displayLabel := h.resolve_right fun hp => hc hp.1
  obtain ⟨x, hx⟩ := exists_ofText (D := D) hn
  exact ⟨_, press_calc hx c, .inl (isNumeral_labelAfter hn _)⟩

lemma Readable.digit_ok {s : ViewController D} (h : Readable s) {d : Fin 10}
    (hd : OkKey s (.numButton (.digit d))) :
    ∃ s', s.press (.numButton (.digit d)) = .ok s' ∧ Readable s' := by
  by_cases hdone : s.isDoneTyping = true
  · exact ⟨_, press_num_fresh hdone _, .inl (isNumeral_digit d)⟩
  · have hspecial : ¬ IsSpecial s.displayLabel := hd.resolve_left hdone
    refine ⟨_, press_digit_append (by simpa using hdone) d, .inl ?_⟩
    rcases h with (hdec | hs) | ⟨hp, -⟩
    · exact isNumeral_concat_digit (kind_digitChar d) hdec
    · exact absurd hs hspecial
    · rw [hp]
      exact isNumeral_point_digit d

lemma Readable.point_ok {s : ViewController D} (h : Readable s)
    (hp : OkKey s (.numButton .point)) :
    ∃ s', s.press (.numButton .point) = .ok s' ∧ Readable s' := by
  by_cases hdone : s.isDoneTyping = true
  · exact ⟨_, press_num_fresh hdone _, .inr ⟨rfl, rfl⟩⟩
  · have hdone' : s.isDoneTyping = false := by simpa using hdone
    obtain ⟨hlone, hwhole⟩ := hp.resolve_left hdone
    have hn : IsNumeral s.displayLabel := h.resolve_right fun hp => hlone hp.1
    obtain ⟨x, hx⟩ := exists_ofText (D := D) hn
    refine ⟨_, press_point_append hdone' hx, ?_⟩
    split
    · next hi =>
      exact .inl (isNumeral_concat_point kind_point (hwhole (by simp [ShowsInt, hx, hi])))
    · exact .inl hn

/-- A key that meets `OkKey` does not trap and leaves the label readable. -/
theorem Readable.press_ok (s : ViewController D) (k : Key) (h : Readable s) (hk : OkKey s k) :
    ∃ s', s.press k = .ok s' ∧ Readable s' := by
  match k with
  | .calcButton _ => exact h.calc_ok hk
  | .numButton (.digit _) => exact h.digit_ok hk
  | .numButton .point => exact h.point_ok hk

/-! ### What a key does that breaks the condition -/

/-- The user is typing on a label that no digit repairs. -/
def Stuck (s : ViewController D) : Prop := Dead s.displayLabel ∧ s.isDoneTyping = false

/-- A key that breaks `OkKey` traps, or leaves the screen stuck. -/
theorem Readable.press_break {s : ViewController D} {k : Key} (h : Readable s)
    (hk : ¬ OkKey s k) :
    (∃ f, s.press k = .error f) ∨ ∃ s', s.press k = .ok s' ∧ Stuck s' := by
  match k with
  | .calcButton c =>
    have hp : s.displayLabel = ['.'] := not_not.mp hk
    exact .inl ⟨_, press_calc_trap (by rw [hp]; exact not_isNumeral_point) c⟩
  | .numButton (.digit d) =>
    obtain ⟨hdone, hs⟩ := not_or.mp hk
    have hdone : s.isDoneTyping = false := by simpa using hdone
    exact .inr ⟨_, press_digit_append hdone d,
      (not_not.mp hs).dead_concat (.inl (kind_digitChar d)), hdone⟩
  | .numButton .point =>
    obtain ⟨hdone, hs⟩ := not_or.mp hk
    have hdone : s.isDoneTyping = false := by simpa using hdone
    by_cases hp : s.displayLabel = ['.']
    · exact .inl ⟨_, press_point_trap hdone (by rw [hp]; exact not_isNumeral_point)⟩
    · have hn : IsNumeral s.displayLabel := h.resolve_right fun hp' => hp hp'.1
      obtain ⟨hint, hwhole⟩ : ShowsInt D s.displayLabel ∧ decimal.eval s.displayLabel ≠ .whole := by
        simpa [hp] using hs
      obtain ⟨x, hx⟩ := exists_ofText (D := D) hn
      have hi : isInt x = true := by simpa [ShowsInt, hx] using hint
      refine .inr ⟨_, press_point_append hdone hx, ?_⟩
      rw [if_pos hi]
      exact ⟨hn.dead_concat_point hwhole kind_point, hdone⟩

lemma Stuck.press_ok {s s' : ViewController D} {k : Key} (h : Stuck s)
    (hs : s.press k = .ok s') : Stuck s' := by
  match k with
  | .calcButton c =>
    rw [press_calc_trap h.1.not_isNumeral] at hs
    cases hs
  | .numButton (.digit d) =>
    rw [press_digit_append h.2] at hs
    cases hs
    exact ⟨h.1.concat_digit (kind_digitChar d), h.2⟩
  | .numButton .point =>
    rw [press_point_trap h.2 h.1.not_isNumeral] at hs
    cases hs

/-- From a stuck screen every run up to a calc key traps. -/
lemma Stuck.run_ne_ok {s s' : ViewController D} (h : Stuck s) (t : List Key) (c : CalcKey) :
    run press s (t ++ [.calcButton c]) ≠ .ok s' := by
  intro hrun
  obtain ⟨u, hu, hc⟩ := run_append_ok_iff.mp hrun
  have hstuck : Stuck u := run_inv (fun _ _ _ hi hs => Stuck.press_ok hi hs) h hu
  rw [run_singleton, press_calc_trap hstuck.1.not_isNumeral] at hc
  cases hc

/-- From a readable screen at most one digit leads to a calc key that does not trap. -/
lemma Readable.exists_run {s : ViewController D} (h : Readable s) :
    ∃ t c s', run press s (t ++ [.calcButton c]) = .ok s' := by
  rcases h with hn | ⟨hp, hdone⟩
  · obtain ⟨s', hs'⟩ := press_ok_of_isNumeral hn (.calcButton .equals)
    refine ⟨[], .equals, s', ?_⟩
    rw [List.nil_append, run_singleton, hs']
  · have hn : IsNumeral (s.displayLabel ++ [Nat.digitChar (0 : Fin 10)]) := by
      rw [hp]
      exact isNumeral_point_digit 0
    obtain ⟨s', hs'⟩ := press_ok_of_isNumeral
      (s := { s with displayLabel := s.displayLabel ++ [Nat.digitChar (0 : Fin 10)] }) hn
      (.calcButton .equals)
    refine ⟨[.numButton (.digit 0)], .equals, s', ?_⟩
    rw [List.singleton_append, run_cons_ok (press_digit_append hdone 0), run_singleton,
      hs']

/-! ### Runs -/

theorem run_readable {ks : List Key} (h : Along press OkKey (launch : ViewController D) ks) :
    ∃ s, run press (launch : ViewController D) ks = .ok s ∧ Readable s :=
  run_ok_along Readable.press_ok readable_launch h

/-- A run that breaks `OkKey` traps or ends on a stuck screen. -/
theorem run_stuck {ks : List Key} {s : ViewController D}
    (h : ¬ Along press OkKey (launch : ViewController D) ks)
    (hs : run press (launch : ViewController D) ks = .ok s) : Stuck s := by
  obtain ⟨fs, k, gs, u, rfl, -, hfs, hu, hk⟩ :=
    exists_first_break Readable.press_ok readable_launch h
  rw [run_append_ok hfs] at hs
  obtain ⟨v, hv, hrest⟩ := run_cons_ok_iff.mp hs
  have hstuck : Stuck v := by
    rcases hu.press_break hk with ⟨f, hf⟩ | ⟨s', hs', hstuck⟩
    · rw [hf] at hv
      cases hv
    · rw [hs'] at hv
      cases hv
      exact hstuck
  exact run_inv (fun _ _ _ hi hs => Stuck.press_ok hi hs) hstuck hrest

/-- **When the calculator does not trap.**  The keys of a run all meet `OkKey` exactly when the run
does not trap and can be continued to a calc key that does not trap either. -/
theorem no_trap_iff (ks : List Key) :
    Along press OkKey (launch : ViewController D) ks ↔
      ∃ s, run press (launch : ViewController D) ks = .ok s ∧
        ∃ t c s', run press s (t ++ [.calcButton c]) = .ok s' := by
  constructor
  · intro h
    obtain ⟨s, hs, hr⟩ := run_readable h
    exact ⟨s, hs, hr.exists_run⟩
  · rintro ⟨s, hs, t, c, s', hs'⟩
    by_contra h
    exact (run_stuck h hs).run_ne_ok t c hs'

example : Along press OkKey (launch : ViewController Hundredths)
    [.numButton (.digit 1), .numButton .point, .numButton (.digit 5), .calcButton .sign,
      .calcButton .add, .numButton (.digit 2), .calcButton .equals] := by decide

/-- A lone point and then a calc key: the first key of a decimal fraction is enough to trap. -/
theorem point_add_traps :
    ¬ ∀ ks : List Key, ∃ s, run press (launch : ViewController Hundredths) ks = .ok s := by
  intro h
  obtain ⟨s, hs⟩ := h [.numButton .point, .calcButton .add]
  have : run press (launch : ViewController Hundredths) [.numButton .point, .calcButton .add] =
      .error .displayValue := by decide
  rw [this] at hs
  cases hs

/-- The only traps of a key are those of an unreadable label: `calculate` always finds a number,
and every key has a title. -/
theorem press_error {s : ViewController D} {k : Key} {f : Trap} (h : s.press k = .error f) :
    ¬ IsNumeral s.displayLabel ∧ (f = .displayValue ∨ f = .pointGuard) := by
  have hn : ¬ IsNumeral s.displayLabel := fun hn => by
    obtain ⟨s', hs'⟩ := press_ok_of_isNumeral hn k
    rw [hs'] at h
    cases h
  refine ⟨hn, ?_⟩
  match k with
  | .calcButton c =>
    rw [press_calc_trap hn] at h
    cases h
    exact .inl rfl
  | .numButton n =>
    by_cases hdone : s.isDoneTyping = true
    · rw [press_num_fresh hdone] at h
      cases h
    · have hdone : s.isDoneTyping = false := by simpa using hdone
      cases n with
      | digit d =>
        rw [press_digit_append hdone] at h
        cases h
      | point =>
        rw [press_point_trap hdone hn] at h
        cases h
        exact .inr rfl

end IosDevBootcamp.Calculator
