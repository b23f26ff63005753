import Mathlib.Algebra.Group.Nat.Even
import Mathlib.Data.List.Induction
import IosDevBootcamp.ARRuler.Defs

/-!
# What the ruler shows

After an even number of taps the scene holds two dots and the text of their distance.  The next tap
takes the two dots away and leaves the text, which then belongs to no dots.  The distance itself
leaves out the third coordinate.
-/

namespace IosDevBootcamp.ARRuler

open IosDevBootcamp.Lib IosDevBootcamp.Lib.SceneGraph ViewController HitTestResult

variable {R : Type*} [Field R] (N : Numerics R)

/-- The state after taps that hit these feature points. -/
def afterTaps (taps : List (HitTestResult R)) : ViewController R :=
  taps.foldl (fun s hit => s.addDot N hit) launch

def hits (touches : List (List (HitTestResult R))) : List (HitTestResult R) :=
  touches.filterMap List.head?

/-- Touches that hit nothing do nothing. -/
lemma foldl_touchesBegan (touches : List (List (HitTestResult R))) (s : ViewController R) :
    touches.foldl (fun s results => s.touchesBegan N results) s =
      (hits touches).foldl (fun s hit => s.addDot N hit) s := by
  induction touches generalizing s with
  | nil => rfl
  | cons results touches ih =>
    rw [List.foldl_cons, ih, touchesBegan, hits, hits]
    cases hhead : results.head? with
    | none => rw [List.filterMap_cons_none hhead]
    | some hit => rw [List.filterMap_cons_some hhead, List.foldl_cons]

/-! ### Nodes -/

def dotNode (i : ℕ) (diffuse : Color) (hit : HitTestResult R) : Node (Body R) :=
  ⟨i, none, ⟨.sphere 0.005 diffuse, hit.position, ⟨1, 1, 1⟩⟩⟩

def textBody (m : Measurement R) : Body R :=
  ⟨.text (formattedInches N m.squared) 1 .red,
    ⟨m.location.x, m.location.y + 0.01, m.location.z⟩, ⟨0.005, 0.005, 0.005⟩⟩

def textNode (i : ℕ) (m : Measurement R) : Node (Body R) := ⟨i, some "textNode", textBody N m⟩

def isDot (n : Node (Body R)) : Bool :=
  match n.value.geometry with
  | .sphere _ _ => true
  | .text _ _ _ => false

def dotNodes (s : ViewController R) : List (Node (Body R)) := s.childNodes.filter isDot

def textNodes (s : ViewController R) : List (Node (Body R)) :=
  s.childNodes.filter fun n => n.name = some "textNode"

/-- The measurement of two taps, as `calculate` computes it. -/
def measured (p q : HitTestResult R) : Measurement R where
  squared := (q.position.x - p.position.x) ^ 2 + (q.position.y - p.position.y) ^ 2 +
    (q.position.z - q.position.z) ^ 2
  location := p.position

/-! ### One more dot -/

section Step

variable {i j k n : ℕ} {old : List (Node (Body R))} {p q : HitTestResult R}

lemma addDot_launch (p : HitTestResult R) :
    (launch : ViewController R).addDot N p =
      ⟨[dotNode 0 .green p], [dotNode 0 .green p], 1⟩ := rfl

/-- A new text replaces the texts in the scene. -/
lemma showMeasurement_eq {s : ViewController R} {dots : List (Node (Body R))}
    (hs : s.childNodes = old ++ dots) (hold : ∀ m ∈ old, m.name = some "textNode")
    (hdots : ∀ m ∈ dots, m.name ≠ some "textNode" ∧ m.id ∉ old.map Node.id ∧ m.id < s.next)
    (m : Measurement R) :
    s.showMeasurement (formattedInches N m.squared) m.location =
      { s with childNodes := dots ++ [textNode N s.next m], next := s.next + 1 } := by
  have htexts : (s.childNodes.filter fun n => n.name = some "textNode") = old := by
    have hkeep : (old.filter fun n => n.name = some "textNode") = old :=
      List.filter_eq_self.mpr fun n hn => decide_eq_true (hold n hn)
    have hdrop : (dots.filter fun n => n.name = some "textNode") = [] :=
      List.filter_eq_nil_iff.mpr fun n hn h => (hdots n hn).1 (of_decide_eq_true h)
    rw [hs, List.filter_append, hkeep, hdrop, List.append_nil]
  have hremove : old.foldl removeFromParentNode s.childNodes = dots := by
    have hdrop : (old.filter fun n => decide (n.id ∉ old.map Node.id)) = [] :=
      List.filter_eq_nil_iff.mpr fun n hn h => of_decide_eq_true h (List.mem_map_of_mem hn)
    have hkeep : (dots.filter fun n => decide (n.id ∉ old.map Node.id)) = dots :=
      List.filter_eq_self.mpr fun n hn => decide_eq_true (hdots n hn).2.1
    rw [foldl_removeFromParentNode, hs, List.filter_append, hdrop, hkeep, List.nil_append]
  have hadd : addChildNode dots (textNode N s.next m) = dots ++ [textNode N s.next m] :=
    addChildNode_of_lt (fun n hn => (hdots n hn).2.2) le_rfl
  simp only [showMeasurement, htexts, hremove]
  exact congrArg (fun l => { s with childNodes := l, next := s.next + 1 }) hadd

/-- The second dot is shown with the measurement of the two. -/
lemma addDot_one (hold : ∀ m ∈ old, m.name = some "textNode" ∧ m.id < i) (hin : i < n)
    (q : HitTestResult R) :
    (⟨[dotNode i .green p], old ++ [dotNode i .green p], n⟩ : ViewController R).addDot N q =
      ⟨[dotNode i .green p, dotNode n .red q],
        [dotNode i .green p, dotNode n .red q, textNode N (n + 1) (measured p q)], n + 2⟩ := by
  have hadd : addChildNode (old ++ [dotNode i .green p]) (dotNode n .red q) =
      old ++ [dotNode i .green p, dotNode n .red q] := by
    rw [addChildNode_of_lt (k := n) ?_ le_rfl, List.append_assoc, List.singleton_append]
    intro m hm
    rcases List.mem_append.mp hm with hm | hm
    · exact (hold m hm).2.trans hin
    · obtain rfl := List.mem_singleton.mp hm
      exact hin
  have hnodes : old ++ [dotNode i .green p, dotNode n .red q] =
      old ++ [dotNode i .green p, dotNode n .red q] := rfl
  have hshow := showMeasurement_eq N
    (s := ⟨[dotNode i .green p, dotNode n .red q],
      old ++ [dotNode i .green p, dotNode n .red q], n + 1⟩)
    hnodes (fun m hm => (hold m hm).1) ?_ (measured p q)
  · calc (⟨[dotNode i .green p], old ++ [dotNode i .green p], n⟩ : ViewController R).addDot N q
        = (⟨[dotNode i .green p, dotNode n .red q],
            addChildNode (old ++ [dotNode i .green p]) (dotNode n .red q), n + 1⟩ :
              ViewController R).calculate N := rfl
      _ = (⟨[dotNode i .green p, dotNode n .red q],
            old ++ [dotNode i .green p, dotNode n .red q], n + 1⟩ :
              ViewController R).calculate N := by rw [hadd]
      _ = _ := hshow
  · intro m hm
    have hnew : ∀ k, i ≤ k → k ∉ old.map Node.id := fun k hk hmem => by
      obtain ⟨o, ho, hid⟩ := List.mem_map.mp hmem
      have := (hold o ho).2
      omega
    rcases List.mem_cons.mp hm with rfl | hm
    · exact ⟨by simp [dotNode], hnew i le_rfl, Nat.lt_succ_of_lt hin⟩
    · obtain rfl := List.mem_singleton.mp hm
      exact ⟨by simp [dotNode], hnew n hin.le, Nat.lt_succ_self n⟩

lemma foldl_remove_two (hij : i < j) (hjk : j < k) (m : Measurement R) :
    [dotNode i .green p, dotNode j .red q].foldl removeFromParentNode
      [dotNode i .green p, dotNode j .red q, textNode N k m] = [textNode N k m] := by
  have hki : k ≠ i := by omega
  have hkj : k ≠ j := by omega
  rw [foldl_removeFromParentNode]
  simp [dotNode, textNode, hki, hkj]

/-- The third dot clears the first two, and leaves the text. -/
lemma addDot_two (hij : i < j) (hjk : j < k) (hkn : k < n) (m : Measurement R)
    (hit : HitTestResult R) :
    (⟨[dotNode i .green p, dotNode j .red q],
      [dotNode i .green p, dotNode j .red q, textNode N k m], n⟩ : ViewController R).addDot N hit =
      ⟨[dotNode n .green hit], [textNode N k m, dotNode n .green hit], n + 1⟩ := by
  have hadd : addChildNode [textNode N k m] (dotNode n .green hit) =
      [textNode N k m, dotNode n .green hit] := by
    refine addChildNode_of_lt (k := n) ?_ le_rfl
    intro t ht
    obtain rfl := List.mem_singleton.mp ht
    exact hkn
  have hremove := foldl_remove_two N (p := p) (q := q) hij hjk m
  simp only [addDot, List.length_cons, List.length_nil, if_true, hremove]
  exact congrArg (fun l => (⟨[dotNode n .green hit], l, n + 1⟩ : ViewController R)) hadd

end Step

/-! ### The scene after some taps -/

/-- The state after the taps.  `old` is the text that an odd number of taps leaves. -/
inductive Shape : List (HitTestResult R) → ViewController R → Prop
  | start : Shape [] launch
  | one {taps : List (HitTestResult R)} {i n : ℕ} {old : List (Node (Body R))}
      (heven : Even taps.length) (hi : i < n)
      (hold : ∀ m ∈ old, m.name = some "textNode" ∧ m.id < i ∧ isDot m = false)
      (hlen : old.length = if taps = [] then 0 else 1) (p : HitTestResult R) :
    Shape (taps ++ [p]) ⟨[dotNode i .green p], old ++ [dotNode i .green p], n⟩
  | two {taps : List (HitTestResult R)} {i j k n : ℕ} (heven : Even taps.length) (hij : i < j)
      (hjk : j < k) (hkn : k < n) (p q : HitTestResult R) :
    Shape (taps ++ [p, q]) ⟨[dotNode i .green p, dotNode j .red q],
      [dotNode i .green p, dotNode j .red q, textNode N k (measured p q)], n⟩

lemma Shape.addDot {taps : List (HitTestResult R)} {s : ViewController R} (h : Shape N taps s)
    (hit : HitTestResult R) : Shape N (taps ++ [hit]) (s.addDot N hit) := by
  cases h with
  | start =>
    rw [addDot_launch]
    show Shape N ([] ++ [hit]) ⟨[dotNode 0 .green hit], [] ++ [dotNode 0 .green hit], 1⟩
    exact .one (by simp) Nat.one_pos (by simp) rfl hit
  | one heven hi hold hlen p =>
    rw [addDot_one N (fun m hm => ⟨(hold m hm).1, (hold m hm).2.1⟩) hi, List.append_assoc]
    exact .two heven hi (Nat.lt_succ_self _) (Nat.lt_succ_self _) p hit
  | @two taps i j k n heven hij hjk hkn p q =>
    rw [addDot_two N hij hjk hkn]
    show Shape N (taps ++ [p, q] ++ [hit]) ⟨[dotNode n .green hit],
      [textNode N k (measured p q)] ++ [dotNode n .green hit], n + 1⟩
    refine .one ?_ (Nat.lt_succ_self _) ?_ ?_ hit
    · rw [List.length_append]
      exact heven.add even_two
    · intro m hm
      obtain rfl := List.mem_singleton.mp hm
      exact ⟨rfl, hkn, rfl⟩
    · simp

theorem shape_afterTaps (taps : List (HitTestResult R)) : Shape N taps (afterTaps N taps) := by
  induction taps using List.reverseRecOn with
  | nil => exact .start
  | append_singleton taps hit ih =>
    have hstep : afterTaps N (taps ++ [hit]) = (afterTaps N taps).addDot N hit := by
      simp [afterTaps]
    rw [hstep]
    exact ih.addDot N hit

/-! ### Dots and texts -/

/-- The dots in the scene are those of `dotNodesArray`, none, one or two of them according to the
number of taps, and there is at most one text. -/
structure DotsMatch (s : ViewController R) (taps : ℕ) : Prop where
  scene : dotNodes s = s.dotNodesArray
  count : s.dotNodesArray.length = if taps = 0 then 0 else if Even taps then 2 else 1
  text : (textNodes s).length ≤ 1

/-- A text is in the scene when two dots are, and it is the text of these two. -/
structure TextMatches (s : ViewController R) : Prop where
  shown : textNodes s ≠ [] ↔ s.dotNodesArray.length = 2
  own : ∀ t ∈ textNodes s, ∃ m, s.measurement = some m ∧ t.value = textBody N m

section Shapes

variable {taps : List (HitTestResult R)} {i j k n : ℕ} {old : List (Node (Body R))}

lemma textNodes_one (hold : ∀ m ∈ old, m.name = some "textNode") (p : HitTestResult R) :
    textNodes ⟨[dotNode i .green p], old ++ [dotNode i .green p], n⟩ = old := by
  have hkeep : (old.filter fun m => m.name = some "textNode") = old :=
    List.filter_eq_self.mpr fun m hm => decide_eq_true (hold m hm)
  rw [textNodes, List.filter_append, hkeep]
  exact List.append_nil old

lemma dotNodes_one (hold : ∀ m ∈ old, isDot m = false) (p : HitTestResult R) :
    dotNodes ⟨[dotNode i .green p], old ++ [dotNode i .green p], n⟩ = [dotNode i .green p] := by
  have hdrop : old.filter isDot = [] := List.filter_eq_nil_iff.mpr fun m hm h => by
    rw [hold m hm] at h
    cases h
  rw [dotNodes, List.filter_append, hdrop]
  rfl

lemma Shape.dotsMatch {s : ViewController R} (h : Shape N taps s) : DotsMatch s taps.length := by
  cases h with
  | start => exact ⟨rfl, rfl, Nat.zero_le 1⟩
  | @one taps i n old heven _ hold hlen p =>
    refine ⟨dotNodes_one (fun m hm => (hold m hm).2.2) p, ?_, ?_⟩
    · have hodd : ¬ Even (taps.length + 1) := Nat.not_even_iff_odd.mpr heven.add_one
      simp [hodd]
    · rw [textNodes_one fun m hm => (hold m hm).1, hlen]
      split
      · exact Nat.zero_le 1
      · exact le_rfl
  | two heven _ _ _ p q =>
    refine ⟨rfl, ?_, le_rfl⟩
    simp [heven.add even_two]

lemma Shape.textMatches_iff {s : ViewController R} (h : Shape N taps s) :
    TextMatches N s ↔ taps.length ≤ 1 ∨ Even taps.length := by
  cases h with
  | start => exact iff_of_true ⟨by simp [launch, textNodes], by simp [launch, textNodes]⟩ (by simp)
  | @one taps i n old heven _ hold hlen p =>
    have hodd : ¬ Even (taps ++ [p]).length := by
      rw [List.length_append]
      exact Nat.not_even_iff_odd.mpr heven.add_one
    have htexts := textNodes_one (i := i) (n := n) (fun m hm => (hold m hm).1) p
    rw [or_iff_left hodd]
    by_cases hnil : taps = []
    · rw [if_pos hnil] at hlen
      obtain rfl : old = [] := List.length_eq_zero_iff.mp hlen
      refine iff_of_true ⟨?_, ?_⟩ (by simp [hnil])
      · rw [htexts]
        simp
      · rw [htexts]
        simp
    · -- the text of the two dots before is still there
      rw [if_neg hnil] at hlen
      have hpos : 0 < taps.length := List.length_pos_iff.mpr hnil
      have hmany : ¬ (taps ++ [p]).length ≤ 1 := by
        rw [List.length_append, List.length_singleton]
        omega
      refine iff_of_false ?_ hmany
      intro ht
      have hne : old ≠ [] := List.ne_nil_of_length_pos (by omega)
      rw [← htexts] at hne
      exact absurd (ht.shown.mp hne) (by simp)
  | @two taps i j k n heven _ _ _ p q =>
    refine iff_of_true ⟨?_, ?_⟩ (Or.inr ?_)
    · exact iff_of_true (List.cons_ne_nil (textNode N k (measured p q)) []) rfl
    · intro t ht
      obtain rfl : t = textNode N k (measured p q) := List.mem_singleton.mp ht
      exact ⟨measured p q, rfl, rfl⟩
    · rw [List.length_append]
      exact heven.add even_two

end Shapes

/-- **When the ruler's scene matches its state.**  The dots always do.  The text does after an even
number of taps and after the first; after every later odd one it belongs to dots that are gone. -/
theorem scene_matches_iff (taps : List (HitTestResult R)) :
    DotsMatch (afterTaps N taps) taps.length ∧
      (TextMatches N (afterTaps N taps) ↔ taps.length ≤ 1 ∨ Even taps.length) :=
  ⟨(shape_afterTaps N taps).dotsMatch N, (shape_afterTaps N taps).textMatches_iff N⟩

/-- What the scene shows after touches is decided by those that hit something. -/
theorem touches_scene (touches : List (List (HitTestResult R))) :
    DotsMatch (touches.foldl (fun s results => s.touchesBegan N results) launch)
        (hits touches).length ∧
      (TextMatches N (touches.foldl (fun s results => s.touchesBegan N results) launch) ↔
        (hits touches).length ≤ 1 ∨ Even (hits touches).length) := by
  rw [foldl_touchesBegan]
  have hshape := shape_afterTaps N (hits touches)
  exact ⟨hshape.dotsMatch N, hshape.textMatches_iff N⟩

/-! ### The distance -/

def squaredDistance (p q : Vector3 R) : R := (q.x - p.x) ^ 2 + (q.y - p.y) ^ 2 + (q.z - p.z) ^ 2

lemma measured_squared_eq_iff (p q : HitTestResult R) :
    (measured p q).squared = squaredDistance p.position q.position ↔
      p.position.z = q.position.z := by
  simp only [measured, squaredDistance, sub_self, ne_eq, OfNat.ofNat_ne_zero, not_false_eq_true,
    zero_pow, add_right_inj]
  rw [eq_comm, pow_eq_zero_iff (by decide), sub_eq_zero, eq_comm]

/-- Two dots, and the text of their measurement. -/
lemma Shape.measurement_eq {taps : List (HitTestResult R)} (heven : Even taps.length)
    {p q : HitTestResult R} {s : ViewController R} (h : Shape N (taps ++ [p, q]) s) :
    s.measurement = some (measured p q) ∧
      (textNodes s).map Node.value = [textBody N (measured p q)] := by
  generalize hts : taps ++ [p, q] = ts at h
  cases h with
  | start => exact absurd hts (by simp)
  | @one us i n old heven' _ _ _ p' =>
    have hlen := congrArg List.length hts
    simp only [List.length_append, List.length_cons, List.length_nil] at hlen
    have hodd : ¬ Even (us.length + 1) := Nat.not_even_iff_odd.mpr heven'.add_one
    have hsame : taps.length + 2 = us.length + 1 := hlen
    exact absurd (hsame ▸ heven.add even_two) hodd
  | two _ _ _ _ p' q' =>
    obtain ⟨rfl, hpq⟩ := List.append_inj' hts rfl
    cases hpq
    exact ⟨rfl, rfl⟩

/-- The ruler measures the distance of the two taps, and shows it at the first. -/
def Measures (s : ViewController R) (p q : HitTestResult R) : Prop :=
  s.measurement = some ⟨squaredDistance p.position q.position, p.position⟩ ∧
    (textNodes s).map Node.value =
      [textBody N ⟨squaredDistance p.position q.position, p.position⟩]

lemma measures_iff {taps : List (HitTestResult R)} (heven : Even taps.length)
    (p q : HitTestResult R) :
    Measures N (afterTaps N (taps ++ [p, q])) p q ↔ p.position.z = q.position.z := by
  obtain ⟨hm, ht⟩ := (shape_afterTaps N (taps ++ [p, q])).measurement_eq N heven
  rw [← measured_squared_eq_iff]
  constructor
  · rintro ⟨h, -⟩
    rw [hm] at h
    exact congrArg Measurement.squared (Option.some.inj h)
  · intro h
    have heq : measured p q = ⟨squaredDistance p.position q.position, p.position⟩ := by
      rw [← h]
      rfl
    exact ⟨by rw [hm, heq], by rw [ht, heq]⟩

/-- **When the ruler measures the Euclidean distance.**  In a run every second tap measures the
distance of the last two taps exactly when the two taps of every pair have the same third
coordinate. -/
theorem measures_run_iff (taps : List (HitTestResult R)) :
    (∀ k p q, taps[2 * k]? = some p → taps[2 * k + 1]? = some q →
      Measures N (afterTaps N (taps.take (2 * k + 2))) p q) ↔
    ∀ k p q, taps[2 * k]? = some p → taps[2 * k + 1]? = some q →
      p.position.z = q.position.z := by
  refine forall_congr' fun k => forall₂_congr fun p q => forall₂_congr fun hp hq => ?_
  have htake : taps.take (2 * k + 2) = taps.take (2 * k) ++ [p, q] := by
    rw [List.take_add_one, List.take_add_one, hp, hq, List.append_assoc]
    rfl
  have hlen : (taps.take (2 * k)).length = 2 * k := by
    have := (List.getElem?_eq_some_iff.mp hp).1
    rw [List.length_take]
    omega
  rw [htake]
  exact measures_iff N (by rw [hlen]; exact even_two_mul k) p q

/-! ### Runs -/

/-- Square roots of fractions of squares, and two decimals. -/
def Numerics.rational : Numerics ℚ where
  sqrt x := Nat.sqrt x.num.toNat / Nat.sqrt x.den
  format x :=
    let n := (x * 100 + 1 / 2).floor.toNat
    toString (n / 100) ++ "." ++ (if n % 100 < 10 then "0" else "") ++ toString (n % 100) ++ " in"

/-- The text of two dots is shown next to a single dot. -/
theorem text_outlives_dots :
    ∃ s, afterTaps Numerics.rational [translation 0 0 0, translation 1 0 0, translation 5 0 0] = s ∧
      s.dotNodesArray.length = 1 ∧ (textNodes s).length = 1 ∧
      ¬ TextMatches Numerics.rational s := by
  obtain ⟨s, hs, hdots, htexts⟩ : ∃ s,
      afterTaps Numerics.rational [translation 0 0 0, translation 1 0 0, translation 5 0 0] = s ∧
      s.dotNodesArray.length = 1 ∧ (textNodes s).length = 1 := ⟨_, rfl, rfl, by decide +kernel⟩
  refine ⟨s, hs, hdots, htexts, ?_⟩
  intro h
  have htwo := h.shown.mp (List.ne_nil_of_length_pos (by rw [htexts]; exact Nat.one_pos))
  rw [hdots] at htwo
  cases htwo

/-- Two taps one metre apart in depth measure zero. -/
theorem depth_measures_zero :
    ∃ s, afterTaps Numerics.rational [translation 0 0 0, translation 0 0 1] = s ∧
      s.measurement = some ⟨0, ⟨0, 0, 0⟩⟩ ∧
      squaredDistance (⟨0, 0, 0⟩ : Vector3 ℚ) ⟨0, 0, 1⟩ = 1 ∧
      ¬ Measures Numerics.rational s (translation 0 0 0) (translation 0 0 1) := by
  obtain ⟨s, hs, hm⟩ : ∃ s,
      afterTaps Numerics.rational [translation 0 0 0, translation 0 0 1] = s ∧
      s.measurement = some ⟨0, ⟨0, 0, 0⟩⟩ := ⟨_, rfl, by decide +kernel⟩
  refine ⟨s, hs, hm, by decide +kernel, ?_⟩
  intro h
  have heq := h.1
  rw [hm] at heq
  exact absurd heq (by decide +kernel)

end IosDevBootcamp.ARRuler
