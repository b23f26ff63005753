import IosDevBootcamp.Calculator.Hundredths

/-!
# What `AC` forgets

`AC` writes `0.0` on the label and toggles `isDoneTyping`; it keeps the pending operation.  `Carry`
says in which of the three places a run after `AC` still differs from a run from launch, `Forgets`
that no key of the run reads one of them, and then the two runs show the same numbers.
-/

namespace IosDevBootcamp.Calculator

open IosDevBootcamp.Lib.Numeral IosDevBootcamp.Lib.Run SwiftDouble ViewController

/-- What a run after `AC` carries over, next to a run of the same keys from launch. -/
structure Carry where
  flag : Bool
  /-- The labels show the same number in different texts. -/
  label : Bool
  /-- An operation entered before `AC` is still pending. -/
  pending : Bool
  deriving DecidableEq, Repr

/-- What the keys alone decide of a run from launch. -/
structure Control where
  done : Bool
  own : Bool
  deriving DecidableEq, Repr

def CalcKey.isOperator : CalcKey → Bool
  | .divide | .multiply | .subtract | .add => true
  | _ => false

def Control.launch : Control := ⟨true, false⟩

def Control.next (c : Control) : Key → Control
  | .numButton _ => { c with done := false }
  | .calcButton k => ⟨!c.done, c.own || k.isOperator⟩

/-- The key reads what is carried over: a number key the flag, and the label it is appended to;
`=` the pending operation. -/
def Carry.reads (r : Carry) (c : Control) : Key → Bool
  | .numButton _ => r.flag || (r.label && !c.done)
  | .calcButton .equals => r.pending
  | .calcButton _ => false

/-- What is still carried over after a key that does not read it. -/
def Carry.next (r : Carry) (c : Control) : Key → Carry
  | .numButton _ => { r with label := false }
  | .calcButton .equals => { r with label := r.label && !c.own }
  | .calcButton .clear | .calcButton .sign | .calcButton .percent => { r with label := false }
  | .calcButton _ => { r with pending := false }

/-- **No key reads what is carried over.** -/
def Forgets : Carry → Control → List Key → Prop
  | _, _, [] => True
  | r, c, k :: t => r.reads c k = false ∧ Forgets (r.next c k) (c.next k) t

instance decidableForgets : ∀ (r : Carry) (c : Control) (t : List Key), Decidable (Forgets r c t)
  | _, _, [] => isTrue trivial
  | r, c, k :: t =>
    have := decidableForgets (r.next c k) (c.next k) t
    inferInstanceAs (Decidable (_ ∧ _))

/-- What `AC` carries over from the screen `s`. -/
def carry {D : Type*} (s : ViewController D) : Carry :=
  ⟨s.isDoneTyping, true, s.calculator.intermediateCalculation.isSome⟩

variable {D : Type*} [SwiftDouble D]

/-- The number on the display after a run, or its trap. -/
def shown (r : Except Trap (ViewController D)) : Except Trap (Option D) :=
  r.map fun s => ofText s.displayLabel

/-! ### Two runs side by side -/

/-- The screens `a`, of a run after `AC`, and `l`, of a run from launch, agree up to `r`. -/
structure Tracks (r : Carry) (c : Control) (a l : ViewController D) : Prop where
  done : l.isDoneTyping = c.done
  flag : a.isDoneTyping = (c.done ^^ r.flag)
  value : (ofText a.displayLabel : Option D) = ofText l.displayLabel
  label : r.label = false → a.displayLabel = l.displayLabel
  pending : r.pending = false →
    a.calculator.intermediateCalculation = l.calculator.intermediateCalculation
  fresh : c.own = false → l.calculator.intermediateCalculation = none
  own : c.own = true → ∃ x, ∃ o : Operator, l.calculator.intermediateCalculation = some (x, o.key)

/-- The two runs trap alike, or go on to screens that agree up to `r'`. -/
def Together (r' : Carry) (c' : Control) (a l : Except Trap (ViewController D)) : Prop :=
  (∃ f, a = .error f ∧ l = .error f) ∨ ∃ a' l', a = .ok a' ∧ l = .ok l' ∧ Tracks r' c' a' l'

section Step

variable {r : Carry} {c : Control} {a l : ViewController D}

lemma Tracks.press_num (h : Tracks r c a l) {n : NumKey} (hk : r.reads c (.numButton n) = false) :
    Together (r.next c (.numButton n)) (c.next (.numButton n)) (a.press (.numButton n))
      (l.press (.numButton n)) := by
  obtain ⟨hflag, hlabel⟩ : r.flag = false ∧ (r.label = true → c.done = true) := by
    simpa [Carry.reads] using hk
  have ha : a.isDoneTyping = c.done := by rw [h.flag, hflag, Bool.xor_false]
  cases hdone : c.done
  · -- the key is appended in both runs, to the same text
    have hlf : r.label = false := by
      by_contra hl
      simp [hlabel (by simpa using hl)] at hdone
    obtain ⟨ta, da, ma⟩ := a
    obtain rfl : ta = l.displayLabel := h.label hlf
    have key : ∀ t, Tracks (r.next c (.numButton n)) (c.next (.numButton n))
        { displayLabel := t, isDoneTyping := da, calculator := ma } { l with displayLabel := t } :=
        fun t =>
      ⟨by simp [Control.next, h.done, hdone],
        by simpa [Control.next, Carry.next, hdone, hflag] using ha, rfl, fun _ => rfl, h.pending,
        h.fresh, h.own⟩
    cases n with
    | digit d =>
      exact .inr ⟨_, _, press_digit_append (ha.trans hdone) d,
        press_digit_append (h.done.trans hdone) d, key _⟩
    | point =>
      by_cases hn : IsNumeral l.displayLabel
      · obtain ⟨x, hx⟩ := exists_ofText (D := D) hn
        refine .inr ⟨_, _, press_point_append (ha.trans hdone) (h.value.trans hx),
          press_point_append (h.done.trans hdone) hx, ?_⟩
        split
        · exact key _
        · exact key l.displayLabel
      · exact .inl ⟨_, press_point_trap (ha.trans hdone) hn,
          press_point_trap (h.done.trans hdone) hn⟩
  · -- the key replaces the label in both runs
    refine .inr ⟨_, _, press_num_fresh (ha.trans hdone) n, press_num_fresh (h.done.trans hdone) n,
      ?_⟩
    exact ⟨rfl, by simp [Control.next, Carry.next, hflag], rfl, fun _ => rfl, h.pending, h.fresh,
      h.own⟩

/-- A result is shown over any label; without one the numbers shown stay equal. -/
lemma ofText_labelAfter {t u : List Char} (h : (ofText t : Option D) = ofText u) (y : Option D) :
    (ofText (labelAfter t y) : Option D) = ofText (labelAfter u y) := by
  cases y with
  | none => exact h
  | some y => rfl

/-- An operator key leaves both labels alone, and the same operation pending. -/
lemma Tracks.afterCalc_operator (h : Tracks r c a l) (o : Operator) (x : D) :
    Tracks (r.next c (.calcButton o.key)) (c.next (.calcButton o.key)) (a.afterCalc o.key x)
      (l.afterCalc o.key x) where
  done := by simp [Control.next, h.done]
  flag := by cases o <;> simp [Control.next, Carry.next, h.flag, Operator.key]
  value := by simpa using ofText_labelAfter h.value none
  label hr := by
    have hr : r.label = false := by cases o <;> exact hr
    simpa [labelAfter] using h.label hr
  pending _ := by simp
  fresh hc := by cases o <;> simp [Control.next, CalcKey.isOperator, Operator.key] at hc
  own _ := ⟨x, o, by simp⟩

/-- A key that shows a result of the operand alone leaves the same text on both labels. -/
lemma Tracks.afterCalc_unary (h : Tracks r c a l) {k : CalcKey} (x y : D)
    (hk : k = .clear ∨ k = .sign ∨ k = .percent) (hres : ∀ p, result p k x = some y) :
    Tracks (r.next c (.calcButton k)) (c.next (.calcButton k)) (a.afterCalc k x)
      (l.afterCalc k x) := by
  have hkeep : ∀ p : Option (D × CalcKey), pendingAfter p k x = p := by
    rcases hk with rfl | rfl | rfl <;> exact fun _ => rfl
  have hown : c.next (.calcButton k) = ⟨!c.done, c.own⟩ := by
    rcases hk with rfl | rfl | rfl <;> simp [Control.next, CalcKey.isOperator]
  have hnext : r.next c (.calcButton k) = { r with label := false } := by
    rcases hk with rfl | rfl | rfl <;> rfl
  rw [hown, hnext]
  exact
    { done := by simp [h.done]
      flag := by simp [h.flag]
      value := by simp [hres, labelAfter]
      label := fun _ => by simp [hres, labelAfter]
      pending := by simpa [hkeep] using h.pending
      fresh := by simpa [hkeep] using h.fresh
      own := by simpa [hkeep] using h.own }

/-- `=` shows the same result in both runs once they have the same pending operation. -/
lemma Tracks.afterCalc_equals (h : Tracks r c a l) (hp : r.pending = false) (x : D) :
    Tracks (r.next c (.calcButton .equals)) (c.next (.calcButton .equals)) (a.afterCalc .equals x)
      (l.afterCalc .equals x) where
  done := by simp [Control.next, h.done]
  flag := by simp [Control.next, Carry.next, h.flag]
  value := by
    simpa [h.pending hp] using ofText_labelAfter h.value _
  label hr := by
    rw [displayLabel_afterCalc, displayLabel_afterCalc, h.pending hp]
    cases hown : c.own
    · have hr : r.label = false := by simpa [Carry.next, hown] using hr
      rw [h.label hr]
    · obtain ⟨n, o, ho⟩ := h.own hown
      rw [ho, Operator.result_equals]
      rfl
  pending := h.pending
  fresh hc := h.fresh (by simpa [Control.next, CalcKey.isOperator] using hc)
  own hc := h.own (by simpa [Control.next, CalcKey.isOperator] using hc)

lemma Tracks.press_calc (h : Tracks r c a l) {k : CalcKey}
    (hk : r.reads c (.calcButton k) = false) :
    Together (r.next c (.calcButton k)) (c.next (.calcButton k)) (a.press (.calcButton k))
      (l.press (.calcButton k)) := by
  by_cases hn : IsNumeral l.displayLabel
  · obtain ⟨x, hx⟩ := exists_ofText (D := D) hn
    refine .inr ⟨_, _, ViewController.press_calc (h.value.trans hx) k,
      ViewController.press_calc hx k, ?_⟩
    match k with
    | .divide => exact h.afterCalc_operator .divide x
    | .multiply => exact h.afterCalc_operator .multiply x
    | .subtract => exact h.afterCalc_operator .subtract x
    | .add => exact h.afterCalc_operator .add x
    | .clear => exact h.afterCalc_unary x zero (.inl rfl) fun _ => rfl
    | .sign => exact h.afterCalc_unary x (mul x minusOne) (.inr (.inl rfl)) fun _ => rfl
    | .percent => exact h.afterCalc_unary x (div x hundred) (.inr (.inr rfl)) fun _ => rfl
    | .equals => exact h.afterCalc_equals hk x
  · have hna : ¬ IsNumeral a.displayLabel := fun hna => hn <| by
      obtain ⟨x, hx⟩ := exists_ofText (D := D) hna
      exact isNumeral_of_ofText (h.value.symm.trans hx)
    exact .inl ⟨_, press_calc_trap hna k, press_calc_trap hn k⟩

/-- **One key.**  A key that reads nothing that is carried over acts alike in both runs. -/
theorem Tracks.press (h : Tracks r c a l) {k : Key} (hk : r.reads c k = false) :
    Together (r.next c k) (c.next k) (a.press k) (l.press k) := by
  match k with
  | .calcButton _ => exact h.press_calc hk
  | .numButton _ => exact h.press_num hk

/-- **A run.**  Keys that read nothing that is carried over show the same in both runs. -/
theorem Tracks.shown_eq (h : Tracks r c a l) {t : List Key} (ht : Forgets r c t) :
    ∀ u, u <+: t → shown (run ViewController.press a u) = shown (run ViewController.press l u) := by
  induction t generalizing r c a l with
  | nil =>
    intro u hu
    rw [List.prefix_nil.mp hu]
    exact congrArg Except.ok h.value
  | cons k t ih =>
    intro u hu
    cases u with
    | nil => exact congrArg Except.ok h.value
    | cons k' u =>
      obtain ⟨rfl, hut⟩ := List.cons_prefix_cons.mp hu
      rcases h.press ht.1 with ⟨f, hfa, hfl⟩ | ⟨a', l', ha, hl, htracks⟩
      · rw [run_cons_error hfa, run_cons_error hfl]
      · rw [run_cons_ok ha, run_cons_ok hl]
        exact ih htracks ht.2 u hut

end Step

/-! ### `AC` against launch -/

/-- After `AC` the screen agrees with the launch screen up to what `AC` carries over. -/
lemma tracks_clear (s : ViewController D) (x : D) :
    Tracks (carry s) .launch (s.afterCalc .clear x) launch where
  done := rfl
  flag := by simp [carry, Control.launch]
  value := by
    show ofText (toText zero) = ofText ['0']
    rw [ofText_toText, ofText_zero]
  label h := by simp [carry] at h
  pending h := by
    simpa [carry, pendingAfter, launch] using h
  fresh _ := rfl
  own h := by simp [Control.launch] at h

/-- From launch `+` and then a point show `0.`, a number. -/
lemma shown_add_point_launch :
    ∃ y : D, shown (run ViewController.press (launch : ViewController D)
      [.calcButton .add, .numButton .point]) = .ok (some y) := by
  have h₁ := ViewController.press_calc (s := (launch : ViewController D)) ofText_zero .add
  have h₂ := press_point_append (s := (launch : ViewController D).afterCalc .add zero) rfl
    (show ofText ['0'] = some zero from ofText_zero)
  rw [if_pos isInt_zero] at h₂
  obtain ⟨y, hy⟩ := exists_ofText (D := D) (show IsNumeral ['0', '.'] by decide)
  refine ⟨y, ?_⟩
  rw [run_cons_ok h₁, run_singleton, h₂]
  exact congrArg Except.ok hy

/-- After `AC` the same keys trap, or show no number: the point stands alone, or follows `0.0`. -/
lemma shown_clear_add_point (s : ViewController D) (y : D) :
    shown (run ViewController.press s [.calcButton .clear, .calcButton .add, .numButton .point]) ≠
      .ok (some y) := by
  by_cases hn : IsNumeral s.displayLabel
  · obtain ⟨x, hx⟩ := exists_ofText (D := D) hn
    have h₁ := ViewController.press_calc hx .clear
    have h₂ := ViewController.press_calc (s := s.afterCalc .clear x)
      (ofText_toText (zero : D)) .add
    rw [run_cons_ok h₁, run_cons_ok h₂, run_singleton]
    cases hdone : s.isDoneTyping
    · have h₃ := press_point_append (s := (s.afterCalc .clear x).afterCalc .add zero)
        (by simp [hdone]) (ofText_toText (zero : D))
      rw [if_pos isInt_zero] at h₃
      have hbad : (ofText (toText (zero : D) ++ ['.']) : Option D) = none := by
        rw [toText_zero]
        exact ofText_eq_none (by decide)
      intro heq
      rw [h₃] at heq
      have heq : (ofText (toText (zero : D) ++ ['.']) : Option D) = some y :=
        Except.ok.inj heq
      rw [hbad] at heq
      cases heq
    · have h₃ := press_num_fresh (s := (s.afterCalc .clear x).afterCalc .add zero)
        (by simp [hdone]) .point
      have hbad : (ofText ['.'] : Option D) = none := ofText_eq_none (by decide)
      intro heq
      rw [h₃] at heq
      have heq : (ofText ['.'] : Option D) = some y := Except.ok.inj heq
      rw [hbad] at heq
      cases heq
  · rw [run_cons_error (press_calc_trap hn .clear)]
    intro heq
    cases heq

/-- **When `AC` forgets the past.**  On a label that reads as a number, keys that read nothing of
what `AC` carries over show after `AC` what they show from launch.  And after every history some
keys do not. -/
theorem clear_forgets {h : List Key} {s : ViewController D}
    (hs : run ViewController.press launch h = .ok s) :
    (∀ t, IsNumeral s.displayLabel → Forgets (carry s) .launch t → ∀ u, u <+: t →
      shown (run ViewController.press launch (h ++ .calcButton .clear :: u)) =
        shown (run ViewController.press (launch : ViewController D) u)) ∧
    ∃ t, shown (run ViewController.press launch (h ++ .calcButton .clear :: t)) ≠
      shown (run ViewController.press (launch : ViewController D) t) := by
  constructor
  · intro t hn ht u hu
    obtain ⟨x, hx⟩ := exists_ofText (D := D) hn
    rw [run_append_ok hs, run_cons_ok (ViewController.press_calc hx .clear)]
    exact (tracks_clear s x).shown_eq ht u hu
  · obtain ⟨y, hy⟩ := shown_add_point_launch (D := D)
    refine ⟨[.calcButton .add, .numButton .point], ?_⟩
    rw [run_append_ok hs, hy]
    exact shown_clear_add_point s y

/-- `AC` while `5` is being typed, then `3 + 4 =`: the same numbers as from launch. -/
theorem clear_forgets_typing :
    shown (run ViewController.press (launch : ViewController Hundredths)
      ([.numButton (.digit 5)] ++ .calcButton .clear ::
        [.numButton (.digit 3), .calcButton .add, .numButton (.digit 4), .calcButton .equals])) =
      shown (run ViewController.press (launch : ViewController Hundredths)
        [.numButton (.digit 3), .calcButton .add, .numButton (.digit 4), .calcButton .equals]) :=
  (clear_forgets (h := [.numButton (.digit 5)]) rfl).1
    [.numButton (.digit 3), .calcButton .add, .numButton (.digit 4), .calcButton .equals]
    (by decide) (by decide) _ (List.prefix_refl _)

/-- `5 + 1 AC 3 =` shows `8`: the operand `5` and its `+` outlive `AC`. -/
theorem clear_keeps_operation :
    ¬ ∀ (h t : List Key) (s : ViewController Hundredths),
      run ViewController.press launch h = .ok s → ∀ u, u <+: t →
        shown (run ViewController.press launch (h ++ .calcButton .clear :: u)) =
          shown (run ViewController.press (launch : ViewController Hundredths) u) := by
  intro h
  have := h [.numButton (.digit 5), .calcButton .add, .numButton (.digit 1)]
    [.numButton (.digit 3), .calcButton .equals] _ rfl _ (List.prefix_refl _)
  exact absurd this (by decide)

end IosDevBootcamp.Calculator
