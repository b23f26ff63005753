import IosDevBootcamp.Calculator.Entry

/-!
# Typing points

Whether a number already has a point is decided by its value: a point is accepted while the label
reads as an integer.  So a first point is accepted and a second one rejected, except that `1.` and
`1.0` are integers too, and that a lone point is no number at all.
-/

namespace IosDevBootcamp.Calculator

open IosDevBootcamp.Lib.Numeral IosDevBootcamp.Lib.Run SwiftDouble ViewController

/-! ### Words of number keys -/

/-- The keys without the points after the first one. -/
def onePoint : List NumKey → List NumKey
  | [] => []
  | .digit d :: w => .digit d :: onePoint w
  | .point :: w => .point :: w.filter (· ≠ .point)

/-- What the keys should leave on the label. -/
def numeral (w : List NumKey) : List Char := (onePoint w).flatMap NumKey.title

lemma onePoint_append_of_notMem {w : List NumKey} (h : .point ∉ w) (v : List NumKey) :
    onePoint (w ++ v) = w ++ onePoint v := by
  induction w with
  | nil => rfl
  | cons n w ih =>
    rw [List.mem_cons, not_or] at h
    cases n with
    | digit d => rw [List.cons_append, onePoint, ih h.2, List.cons_append]
    | point => exact absurd rfl h.1

lemma onePoint_append_of_mem {w : List NumKey} (h : .point ∈ w) (v : List NumKey) :
    onePoint (w ++ v) = onePoint w ++ v.filter (· ≠ .point) := by
  induction w with
  | nil => cases h
  | cons n w ih =>
    cases n with
    | digit d => rw [List.cons_append, onePoint, ih (by simpa using h), onePoint, List.cons_append]
    | point => rw [List.cons_append, onePoint, List.filter_append, onePoint, List.cons_append]

lemma onePoint_of_notMem {w : List NumKey} (h : .point ∉ w) : onePoint w = w := by
  simpa [onePoint] using onePoint_append_of_notMem h []

lemma numeral_concat_digit (w : List NumKey) (d : Fin 10) :
    numeral (w ++ [.digit d]) = numeral w ++ [Nat.digitChar d] := by
  by_cases h : .point ∈ w
  · simp [numeral, onePoint_append_of_mem h, NumKey.title]
  · simp [numeral, onePoint_append_of_notMem h, onePoint_of_notMem h, onePoint, NumKey.title]

lemma numeral_concat_first {w : List NumKey} (h : .point ∉ w) :
    numeral (w ++ [.point]) = numeral w ++ ['.'] := by
  simp [numeral, onePoint_append_of_notMem h, onePoint_of_notMem h, onePoint, NumKey.title]

lemma numeral_concat_point {w : List NumKey} (h : .point ∈ w) :
    numeral (w ++ [.point]) = numeral w := by
  simp [numeral, onePoint_append_of_mem h]

lemma digitChar_ne_point (d : Fin 10) : Nat.digitChar d ≠ '.' := by
  revert d; decide

lemma count_numeral (w : List NumKey) :
    (numeral w).count '.' = if .point ∈ w then 1 else 0 := by
  induction w using List.reverseRecOn with
  | nil => rfl
  | append_singleton w n ih =>
    cases n with
    | digit d => simp [numeral_concat_digit, ih, (digitChar_ne_point d)]
    | point =>
      by_cases h : .point ∈ w
      · rw [numeral_concat_point h, ih]
        simp [h]
      · rw [numeral_concat_first h, List.count_append, ih]
        simp [h]

/-- A word without points is a word of digits. -/
lemma exists_digits {w : List NumKey} (h : .point ∉ w) :
    ∃ ds : List (Fin 10), w = ds.map .digit := by
  induction w with
  | nil => exact ⟨[], rfl⟩
  | cons n w ih =>
    rw [List.mem_cons, not_or] at h
    cases n with
    | digit d =>
      obtain ⟨ds, rfl⟩ := ih h.2
      exact ⟨d :: ds, rfl⟩
    | point => exact absurd rfl h.1

lemma exists_digitWord {w : List NumKey} (hw : w ≠ []) (h : .point ∉ w) :
    ∃ v : DigitWord, v.text = numeral w := by
  obtain ⟨ds, rfl⟩ := exists_digits h
  refine ⟨⟨ds, fun hnil => hw (by rw [hnil]; rfl)⟩, ?_⟩
  rw [numeral, onePoint_of_notMem h, DigitWord.text, List.flatMap_map]
  exact List.map_eq_flatMap

variable {D : Type*} [SwiftDouble D]

/-! ### Rejected points -/

/-- The number typed so far reads as a number that is no integer, so a point is rejected. -/
def Rejects (D : Type*) [SwiftDouble D] (w : List NumKey) : Prop :=
  ∃ x : D, ofText (numeral w) = some x ∧ isInt x = false

/-- **The points after the first one are all rejected**, each by the number typed before it. -/
def PointsRejected (D : Type*) [SwiftDouble D] (w : List NumKey) : Prop :=
  ∀ v, v ++ [.point] <+: w → .point ∈ v → Rejects D v

lemma pointsRejected_nil : PointsRejected D [] := fun v hv =>
  absurd (List.prefix_nil.mp hv) (by simp)

lemma pointsRejected_concat {w : List NumKey} {n : NumKey} :
    PointsRejected D (w ++ [n]) ↔
      PointsRejected D w ∧ (n = .point → .point ∈ w → Rejects D w) := by
  constructor
  · intro h
    refine ⟨fun v hv => h v (hv.trans (List.prefix_append w [n])), ?_⟩
    rintro rfl
    exact h w (List.prefix_refl _)
  · rintro ⟨hw, hn⟩ v hv hp
    rcases List.prefix_concat_iff.mp hv with heq | hv
    · obtain ⟨rfl, hpoint⟩ := List.append_inj' heq rfl
      exact hn (List.singleton_inj.mp hpoint).symm hp
    · exact hw v hv hp

/-- While the points are rejected the label shows the numeral typed. -/
lemma run_numeral (hdigits : ∀ w : DigitWord, isInt (w.value D) = true) {s : ViewController D}
    (hs : s.isDoneTyping = true) {w : List NumKey} (hw : w ≠ []) (h : PointsRejected D w) :
    run press s (w.map .numButton) =
      .ok { s with displayLabel := numeral w, isDoneTyping := false } := by
  induction w using List.reverseRecOn with
  | nil => exact absurd rfl hw
  | append_singleton w n ih =>
    obtain ⟨hprev, hn⟩ := pointsRejected_concat.mp h
    by_cases hnil : w = []
    · subst hnil
      rw [List.nil_append, List.map_singleton, run_singleton, press_num_fresh hs]
      cases n <;> simp [numeral, onePoint]
    · rw [List.map_append, run_append_ok (ih hnil hprev), List.map_singleton, run_singleton]
      cases n with
      | digit d =>
        rw [press_digit_append rfl, numeral_concat_digit]
      | point =>
        by_cases hp : .point ∈ w
        · obtain ⟨x, hx, hint⟩ := hn rfl hp
          rw [press_point_append rfl hx, numeral_concat_point hp]
          simp [hint]
        · obtain ⟨v, hv⟩ := exists_digitWord hnil hp
          have hx : ofText (numeral w) = some (v.value D) := by rw [← hv, v.ofText_text]
          rw [press_point_append rfl hx, numeral_concat_first hp, hdigits v]
          rfl

/-! ### Accepted points -/

/-- The user is typing on a label with two points. -/
def TwoPoints (s : ViewController D) : Prop :=
  2 ≤ s.displayLabel.count '.' ∧ s.isDoneTyping = false

lemma TwoPoints.press_ok {s s' : ViewController D} {n : NumKey} (h : TwoPoints s)
    (hs : s.press (.numButton n) = .ok s') : TwoPoints s' := by
  cases n with
  | digit d =>
    rw [press_digit_append h.2] at hs
    cases hs
    refine ⟨?_, h.2⟩
    have htwo := h.1
    rw [List.count_append]
    omega
  | point =>
    by_cases hn : IsNumeral s.displayLabel
    · obtain ⟨x, hx⟩ := exists_ofText (D := D) hn
      rw [press_point_append h.2 hx] at hs
      cases hs
      split
      · refine ⟨?_, h.2⟩
        have htwo := h.1
        rw [List.count_append]
        omega
      · exact h
    · rw [press_point_trap h.2 hn] at hs
      cases hs

/-- A further point that is not rejected traps, or stays on the label. -/
lemma run_twoPoints (hdigits : ∀ w : DigitWord, isInt (w.value D) = true)
    {s s' : ViewController D} (hs : s.isDoneTyping = true) {w : List NumKey}
    (h : ¬ PointsRejected D w) (hrun : run press s (w.map .numButton) = .ok s') :
    TwoPoints s' := by
  induction w using List.reverseRecOn generalizing s' with
  | nil => exact absurd pointsRejected_nil h
  | append_singleton w n ih =>
    rw [List.map_append, List.map_singleton] at hrun
    obtain ⟨t, ht, hlast⟩ := run_append_ok_iff.mp hrun
    rw [run_singleton] at hlast
    by_cases hprev : PointsRejected D w
    · rw [pointsRejected_concat, not_and] at h
      have hbreak := h hprev
      simp only [Classical.not_imp] at hbreak
      obtain ⟨rfl, hp, hrej⟩ := hbreak
      have hne : w ≠ [] := List.ne_nil_of_mem hp
      rw [run_numeral hdigits hs hne hprev] at ht
      cases ht
      by_cases hn : IsNumeral (numeral w)
      · obtain ⟨x, hx⟩ := exists_ofText (D := D) hn
        have hint : isInt x = true := by
          by_contra hfalse
          exact hrej ⟨x, hx, by simpa using hfalse⟩
        rw [press_point_append rfl hx, hint] at hlast
        cases hlast
        refine ⟨?_, rfl⟩
        simp [count_numeral, hp]
      · rw [press_point_trap rfl hn] at hlast
        cases hlast
    · exact (ih hprev ht).press_ok hlast

/-- **When number entry accepts exactly the decimal numerals.**  Typing a word of digits and points
does not trap and leaves it on the label without its further points, exactly when each further
point comes on a number that is no integer. -/
theorem number_entry_iff (hdigits : ∀ w : DigitWord, isInt (w.value D) = true)
    {s : ViewController D} (hs : s.isDoneTyping = true) {w : List NumKey} (hw : w ≠ []) :
    (∃ s', run press s (w.map .numButton) = .ok s' ∧ s'.displayLabel = numeral w) ↔
      PointsRejected D w := by
  constructor
  · rintro ⟨s', hs', hlabel⟩
    by_contra h
    have htwo := (run_twoPoints hdigits hs h hs').1
    rw [hlabel, count_numeral] at htwo
    split at htwo <;> omega
  · intro h
    exact ⟨_, run_numeral hdigits hs hw h, rfl⟩

lemma Hundredths.isInt_value (w : DigitWord) : isInt (w.value Hundredths) = true := by
  have hne : w.text ≠ [] := by simpa [DigitWord.text] using w.ne_nil
  have hd : ∀ c ∈ w.text, kind c = .digit := fun c hc => by
    obtain ⟨d, -, rfl⟩ := List.mem_map.mp hc
    exact kind_digitChar d
  have hvalue : some (w.value Hundredths) = some (.num (readNat w.text * 100)) :=
    w.ofText_text.symm.trans (Hundredths.ofText_digits hne hd)
  rw [Option.some.inj hvalue]
  change ((readNat w.text : ℤ) * 100 % 100 == 0) = true
  simp

/-- `1.5.2` leaves `1.52`. -/
theorem number_entry_iff_fraction :
    ∃ s', run press (launch : ViewController Hundredths)
      ([.digit 1, .point, .digit 5, .point, .digit 2].map .numButton) = .ok s' ∧
      s'.displayLabel = ['1', '.', '5', '2'] := by
  have hreject : Rejects Hundredths [.digit 1, .point, .digit 5] := ⟨.num 150, by decide, by decide⟩
  have h : PointsRejected Hundredths ([] ++ [.digit 1] ++ [.point] ++ [.digit 5] ++ [.point] ++
      [.digit 2]) := by
    simp only [pointsRejected_concat]
    simpa [pointsRejected_nil] using hreject
  exact (number_entry_iff Hundredths.isInt_value rfl (List.cons_ne_nil _ _)).mpr h

/-- `1..` keeps both points, and `..` traps. -/
theorem second_point_accepted :
    (run press (launch : ViewController Hundredths)
      ([.digit 1, .point, .point].map .numButton)).map (·.displayLabel) = .ok ['1', '.', '.'] ∧
    numeral [.digit 1, .point, .point] = ['1', '.'] ∧
    run press (launch : ViewController Hundredths) ([.point, .point].map .numButton) =
      .error .pointGuard := by
  refine ⟨?_, ?_, ?_⟩ <;> decide

end IosDevBootcamp.Calculator
