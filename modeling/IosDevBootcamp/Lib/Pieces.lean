import Mathlib.Data.List.Infix
import Mathlib.Data.List.Basic

/-!
# Pieces between separators

A list is cut at the occurrences of a separator that is itself a list.  Where the first element of the
separator does not occur in the rest of it, no two occurrences overlap, and what was put together from
pieces without a separator comes apart as it was.
-/

namespace IosDevBootcamp.Lib.Pieces

variable {α : Type*} [DecidableEq α]

/-- The pieces of a list, found from the left; the first `skip` elements still belong to a
separator. -/
def piecesFrom (sep : List α) : ℕ → List α → List (List α)
  | _, [] => [[]]
  | skip + 1, _ :: l => piecesFrom sep skip l
  | 0, a :: l =>
    if sep <+: a :: l then [] :: piecesFrom sep (sep.length - 1) l
    else (piecesFrom sep 0 l).modifyHead (a :: ·)

def pieces (sep l : List α) : List (List α) := piecesFrom sep 0 l

variable {sep l : List α} {c : α}

lemma piecesFrom_drop (sep : List α) (skip : ℕ) (l : List α) :
    piecesFrom sep skip l = pieces sep (l.drop skip) := by
  induction l generalizing skip with
  | nil => rw [List.drop_nil]; cases skip <;> rfl
  | cons a l ih =>
    cases skip with
    | zero => rfl
    | succ skip => exact ih skip

lemma pieces_append_self (hsep : sep ≠ []) (l : List α) :
    pieces sep (sep ++ l) = [] :: pieces sep l := by
  obtain ⟨c, d, rfl⟩ := List.exists_cons_of_ne_nil hsep
  have hpre : c :: d <+: c :: (d ++ l) := List.prefix_append (c :: d) l
  rw [pieces, List.cons_append, piecesFrom, if_pos hpre, piecesFrom_drop]
  simp

lemma pieces_cons_of_not {a : α} (h : ¬ sep <+: a :: l) :
    pieces sep (a :: l) = (pieces sep l).modifyHead (a :: ·) := by
  rw [pieces, piecesFrom, if_neg h]
  rfl

/-- The cases of the search: the list is at its end, at a separator, or within its first piece, with
which it begins. -/
theorem pieces_induction {motive : List α → List (List α) → Prop} (hsep : sep ≠ [])
    (nil : motive [] [[]])
    (separator : ∀ l, motive l (pieces sep l) → motive (sep ++ l) ([] :: pieces sep l))
    (within : ∀ a l p ps, ¬ sep <+: a :: l → p <+: l → motive l (p :: ps) →
      motive (a :: l) ((a :: p) :: ps)) (l : List α) : motive l (pieces sep l) := by
  suffices h : ∀ n l, l.length ≤ n →
      motive l (pieces sep l) ∧ ∃ p ps, pieces sep l = p :: ps ∧ p <+: l from (h _ l le_rfl).1
  intro n
  induction n with
  | zero =>
    intro l hl
    rw [List.length_eq_zero_iff.mp (Nat.le_zero.mp hl)]
    exact ⟨nil, [], [], rfl, List.prefix_rfl⟩
  | succ n ih =>
    intro l hl
    cases l with
    | nil => exact ⟨nil, [], [], rfl, List.prefix_rfl⟩
    | cons a l =>
      by_cases h : sep <+: a :: l
      · obtain ⟨m, hm⟩ := h
        have hlen := congrArg List.length hm
        have hpos := List.length_pos_iff.mpr hsep
        rw [List.length_append, List.length_cons] at hlen
        rw [List.length_cons] at hl
        rw [← hm, pieces_append_self hsep]
        exact ⟨separator m (ih m (by omega)).1, [], _, rfl, List.nil_prefix⟩
      · obtain ⟨hmotive, p, ps, hp, hpre⟩ := ih l (Nat.le_of_succ_le_succ hl)
        rw [pieces_cons_of_not h, hp, List.modifyHead_cons]
        exact ⟨within a l p ps h hpre (hp ▸ hmotive), a :: p, ps, rfl,
          List.cons_prefix_cons.mpr ⟨rfl, hpre⟩⟩

lemma pieces_ne_nil (hsep : sep ≠ []) (l : List α) : pieces sep l ≠ [] := by
  induction l using pieces_induction hsep with
  | nil => exact List.cons_ne_nil _ _
  | separator l _ => exact List.cons_ne_nil _ _
  | within a l p ps _ _ _ => exact List.cons_ne_nil _ _

/-- **The pieces are what was cut.** -/
theorem intercalate_pieces (hsep : sep ≠ []) (l : List α) :
    sep.intercalate (pieces sep l) = l := by
  induction l using pieces_induction hsep with
  | nil => rfl
  | separator l ih =>
    rw [List.intercalate_cons_of_ne_nil (pieces_ne_nil hsep l), ih, List.nil_append]
  | within a l p ps _ _ ih =>
    rw [← ih]
    cases ps with
    | nil => simp
    | cons q qs => simp

/-- **No piece has a separator.** -/
theorem not_infix_of_mem_pieces (hsep : sep ≠ []) (l : List α) :
    ∀ p ∈ pieces sep l, ¬ sep <:+: p := by
  have hnil : ¬ sep <:+: ([] : List α) := fun h => hsep (List.infix_nil.mp h)
  induction l using pieces_induction hsep with
  | nil => exact List.forall_mem_singleton.mpr hnil
  | separator l ih => exact List.forall_mem_cons.mpr ⟨hnil, ih⟩
  | within a l p ps hnot hpre ih =>
    obtain ⟨hp, hps⟩ := List.forall_mem_cons.mp ih
    refine List.forall_mem_cons.mpr ⟨fun h => ?_, hps⟩
    rcases List.infix_cons_iff.mp h with h | h
    · exact hnot (h.trans (List.cons_prefix_cons.mpr ⟨rfl, hpre⟩))
    · exact hp h

lemma infix_of_mem_pieces (hsep : sep ≠ []) (l : List α) : ∀ p ∈ pieces sep l, p <:+: l := by
  induction l using pieces_induction hsep with
  | nil => exact List.forall_mem_singleton.mpr List.infix_rfl
  | separator l ih =>
    refine List.forall_mem_cons.mpr ⟨List.nil_infix, fun p hp => ?_⟩
    exact (ih p hp).trans (List.suffix_append sep l).isInfix
  | within a l p ps _ hpre ih =>
    refine List.forall_mem_cons.mpr
      ⟨(List.cons_prefix_cons.mpr ⟨rfl, hpre⟩ : a :: p <+: a :: l).isInfix, fun q hq => ?_⟩
    exact List.infix_cons (ih q (List.mem_cons_of_mem p hq))

omit [DecidableEq α] in
/-- What does not have an element does not reach over it. -/
lemma not_infix_append_cons {x a b : List α} (hc : c ∉ x) (ha : ¬ x <:+: a) (hb : ¬ x <:+: b) :
    ¬ x <:+: a ++ c :: b := by
  have hstart : ∀ {y z : List α}, x <+: y ++ c :: z → x <+: y := by
    intro y z h
    rcases List.prefix_or_prefix_of_prefix h (List.prefix_append y (c :: z)) with h' | ⟨r, rfl⟩
    · exact h'
    · rw [List.prefix_append_right_inj] at h
      cases r with
      | nil => rw [List.append_nil]
      | cons d r =>
        obtain ⟨rfl, -⟩ := List.cons_prefix_cons.mp h
        exact absurd (List.mem_append_right y List.mem_cons_self) hc
  induction a with
  | nil =>
    intro h
    rcases List.infix_cons_iff.mp h with h | h
    · exact ha (hstart (y := []) h).isInfix
    · exact hb h
  | cons d a ih =>
    intro h
    rcases List.infix_cons_iff.mp h with h | h
    · exact ha (hstart (y := d :: a) h).isInfix
    · exact ih (fun h' => ha (List.infix_cons h')) h

/-! ### Putting together -/

section Apart

variable {d : List α} (hc : c ∉ d)
include hc

omit [DecidableEq α] in
/-- A separator that follows a piece does not begin in it. -/
lemma not_prefix_append {a : α} {x : List α} (hx : ¬ c :: d <:+: a :: x) (l : List α) :
    ¬ c :: d <+: a :: (x ++ (c :: d ++ l)) := by
  intro h
  have hx' : a :: x <+: a :: (x ++ (c :: d ++ l)) := List.prefix_append (a :: x) _
  rcases List.prefix_or_prefix_of_prefix h hx' with h' | ⟨y, hy⟩
  · exact hx h'.isInfix
  · rw [← hy, ← List.cons_append, List.prefix_append_right_inj] at h
    rw [List.cons_append, List.cons.injEq] at hy
    cases y with
    | nil =>
      rw [List.append_nil] at hy
      exact hx (by rw [hy.1, hy.2])
    | cons b y =>
      obtain ⟨hb, -⟩ := List.cons_prefix_cons.mp h
      rw [← hy.2, List.mem_append, hb, hy.1] at hc
      exact hc (Or.inr List.mem_cons_self)

lemma pieces_append {x : List α} (hx : ¬ c :: d <:+: x) (l : List α) :
    pieces (c :: d) (x ++ (c :: d ++ l)) = x :: pieces (c :: d) l := by
  induction x with
  | nil => exact pieces_append_self (List.cons_ne_nil c d) l
  | cons a x ih =>
    have hx' : ¬ c :: d <:+: x := fun h => hx (List.infix_cons h)
    rw [List.cons_append, pieces_cons_of_not (not_prefix_append hc hx l), ih hx']
    rfl

end Apart

lemma pieces_of_not_infix (h : ¬ sep <:+: l) : pieces sep l = [l] := by
  induction l with
  | nil => rfl
  | cons a l ih =>
    rw [pieces_cons_of_not fun hp => h hp.isInfix, ih fun hi => h (List.infix_cons hi)]
    rfl

omit [DecidableEq α] in
/-- Lists that are joined, with a separator after the last. -/
lemma intercalate_append {ps : List (List α)} (hne : ps ≠ []) :
    sep.intercalate ps ++ sep = ps.flatMap (· ++ sep) := by
  induction ps with
  | nil => exact absurd rfl hne
  | cons p ps ih =>
    cases ps with
    | nil => simp
    | cons q qs =>
      rw [List.intercalate_cons_cons, List.append_assoc, ih (List.cons_ne_nil q qs)]
      rfl

section Joined

variable {d : List α} (hc : c ∉ d) {ps : List (List α)} (hps : ∀ p ∈ ps, ¬ c :: d <:+: p)
include hc hps

/-- **Pieces without a separator come apart as they were.** -/
theorem pieces_flatMap (l : List α) :
    pieces (c :: d) (ps.flatMap (· ++ (c :: d)) ++ l) = ps ++ pieces (c :: d) l := by
  induction ps with
  | nil => rfl
  | cons p ps ih =>
    obtain ⟨hp, hps⟩ := List.forall_mem_cons.mp hps
    rw [List.flatMap_cons, List.append_assoc, List.append_assoc, pieces_append hc hp, ih hps]
    rfl

lemma pieces_intercalate (hne : ps ≠ []) : pieces (c :: d) ((c :: d).intercalate ps) = ps := by
  induction ps with
  | nil => exact absurd rfl hne
  | cons p ps ih =>
    obtain ⟨hp, hps⟩ := List.forall_mem_cons.mp hps
    cases ps with
    | nil =>
      rw [List.intercalate_singleton]
      exact pieces_of_not_infix hp
    | cons q qs =>
      rw [List.intercalate_cons_cons, List.append_assoc, pieces_append hc hp,
        ih hps (List.cons_ne_nil q qs)]

end Joined

/-- **A separator between two lists parts their pieces.** -/
theorem pieces_append_append {d : List α} (hc : c ∉ d) (x l : List α) :
    pieces (c :: d) (x ++ (c :: d ++ l)) = pieces (c :: d) x ++ pieces (c :: d) l := by
  have hsep : c :: d ≠ [] := List.cons_ne_nil c d
  conv_lhs => rw [← intercalate_pieces hsep x]
  rw [← List.append_assoc, intercalate_append (pieces_ne_nil hsep x),
    pieces_flatMap hc (not_infix_of_mem_pieces hsep x)]

end IosDevBootcamp.Lib.Pieces
