import Mathlib.Data.List.Sort

/-!
# Live queries

A live query is a chain of stages over a list that changes underneath it: each stage filters, or
sorts stably, what the stages before it leave.  Nothing is cached, so a query is evaluated against
whatever the list is now.  Up to order a query is one filter, by all its filters at once; its order
is that of its last sort.
-/

namespace IosDevBootcamp.Lib.Query

variable {α : Type*}

/-- A stage of a query.  The sort is stable: equal elements keep their order. -/
inductive Stage (α : Type*)
  | filter (p : α → Bool)
  | sorted (le : α → α → Bool)

/-- A query is the list of its stages, first one first. -/
abbrev Stages (α : Type*) := List (Stage α)

def Stage.apply : Stage α → List α → List α
  | .filter p, l => l.filter p
  | .sorted le, l => l.insertionSort fun a b => le a b = true

/-- The results of a query over the present contents of its source. -/
def eval (q : Stages α) (l : List α) : List α := q.foldl (fun l s => s.apply l) l

def Stage.keeps : Stage α → α → Bool
  | .filter p => p
  | .sorted _ => fun _ => true

/-- The elements all stages let through. -/
def keeps (q : Stages α) (x : α) : Bool := q.all fun s => s.keeps x

@[simp] lemma keeps_nil (x : α) : keeps [] x = true := rfl

@[simp] lemma keeps_cons (s : Stage α) (q : Stages α) (x : α) :
    keeps (s :: q) x = (s.keeps x && keeps q x) := List.all_cons

@[simp] lemma keeps_append (q q' : Stages α) (x : α) :
    keeps (q ++ q') x = (keeps q x && keeps q' x) := List.all_append

lemma eval_append (q q' : Stages α) (l : List α) : eval (q ++ q') l = eval q' (eval q l) :=
  List.foldl_append

/-! ### Contents -/

lemma Stage.apply_perm (s : Stage α) (l : List α) : (s.apply l).Perm (l.filter s.keeps) := by
  cases s with
  | filter p => exact List.Perm.refl _
  | sorted le =>
    have h : l.filter (Stage.sorted le).keeps = l := List.filter_eq_self.mpr fun _ _ => rfl
    rw [h]
    exact List.perm_insertionSort _ l

/-- **A query is one filter**, up to the order of its results. -/
theorem eval_perm (q : Stages α) (l : List α) : (eval q l).Perm (l.filter (keeps q)) := by
  induction q generalizing l with
  | nil =>
    have h : l.filter (keeps []) = l := List.filter_eq_self.mpr fun _ _ => rfl
    rw [h]
    exact List.Perm.refl _
  | cons s q ih =>
    have hstage : ((s.apply l).filter (keeps q)).Perm ((l.filter s.keeps).filter (keeps q)) :=
      (s.apply_perm l).filter _
    rw [List.filter_filter] at hstage
    have hkeeps : (fun x => keeps q x && s.keeps x) = keeps (s :: q) := by
      funext x
      rw [keeps_cons, Bool.and_comm]
    rw [hkeeps] at hstage
    exact (ih (s.apply l)).trans hstage

lemma mem_eval {q : Stages α} {l : List α} {x : α} : x ∈ eval q l ↔ x ∈ l ∧ keeps q x = true := by
  rw [(eval_perm q l).mem_iff, List.mem_filter]

/-- Taking a shown element out of the source takes one row out of the results. -/
lemma length_eval_of_perm_cons {q : Stages α} {l l' : List α} {x : α} (h : l.Perm (x :: l'))
    (hx : keeps q x = true) : (eval q l).length = (eval q l').length + 1 := by
  have hp : (eval q l).Perm (x :: l'.filter (keeps q)) := by
    have := (eval_perm q l).trans (h.filter _)
    rwa [List.filter_cons_of_pos hx] at this
  rw [hp.length_eq, List.length_cons, (eval_perm q l').length_eq]

/-- Two filters of one list keep the same elements, counted with multiplicity, when the narrower
one drops nothing. -/
lemma filter_perm_filter_iff {p q : α → Bool} {l : List α}
    (h : ∀ x ∈ l, q x = true → p x = true) :
    (l.filter q).Perm (l.filter p) ↔ ∀ x ∈ l, p x = true → q x = true := by
  constructor
  · intro hp x hx hpx
    have hm : x ∈ l.filter q := hp.mem_iff.mpr (List.mem_filter.mpr ⟨hx, hpx⟩)
    exact (List.mem_filter.mp hm).2
  · intro hpq
    have heq : l.filter q = l.filter p :=
      List.filter_congr fun x hx => Bool.eq_iff_iff.mpr ⟨h x hx, hpq x hx⟩
    rw [heq]

/-! ### Order -/

/-- The last sort of a query decides the order of its results. -/
theorem eval_sorted (q : Stages α) (le : α → α → Bool)
    (htrans : ∀ a b c, le a b = true → le b c = true → le a c = true)
    (htotal : ∀ a b, le a b = true ∨ le b a = true) (l : List α) :
    (eval (q ++ [.sorted le]) l).Pairwise fun a b => le a b = true := by
  have ht : IsTrans α fun a b => le a b = true := ⟨htrans⟩
  have ho : Std.Total fun a b => le a b = true := ⟨htotal⟩
  rw [eval_append]
  exact List.pairwise_insertionSort _ _

/-! ### Changes of the source -/

/-- The stage does not notice `f`. -/
def Stage.Ignores (f : α → α) : Stage α → Prop
  | .filter p => ∀ x, p (f x) = p x
  | .sorted le => ∀ a b, le (f a) (f b) = le a b

/-- What the stage sorts by is an order, in which different elements may be equal. -/
def Stage.Ordered : Stage α → Prop
  | .filter _ => True
  | .sorted le => (∀ a b c, le a b = true → le b c = true → le a c = true) ∧
      ∀ a b, le a b = true ∨ le b a = true

lemma Stage.apply_map {s : Stage α} {f : α → α} (h : s.Ignores f) (l : List α) :
    s.apply (l.map f) = (s.apply l).map f := by
  cases s with
  | filter p =>
    have hp : p ∘ f = p := funext h
    simp only [Stage.apply, List.filter_map, hp]
  | sorted le =>
    refine (List.map_insertionSort _ _ f l fun a _ b _ => ?_).symm
    rw [h a b]

/-- A change that no stage notices changes the results in place. -/
theorem eval_map {q : Stages α} {f : α → α} (h : ∀ s ∈ q, s.Ignores f) (l : List α) :
    eval q (l.map f) = (eval q l).map f := by
  induction q generalizing l with
  | nil => rfl
  | cons s q ih =>
    have hs : s.apply (l.map f) = (s.apply l).map f := Stage.apply_map (h s List.mem_cons_self) l
    change eval q (s.apply (l.map f)) = (eval q (s.apply l)).map f
    rw [hs, ih fun t ht => h t (List.mem_cons_of_mem s ht)]

/-- The stage that looks at the elements through `f`. -/
def Stage.comap {β : Type*} (f : α → β) : Stage β → Stage α
  | .filter p => .filter fun x => p (f x)
  | .sorted le => .sorted fun a b => le (f a) (f b)

/-- A query of what `f` makes of the source. -/
theorem eval_comap {β : Type*} (f : α → β) (q : Stages β) (l : List α) :
    eval q (l.map f) = (eval (q.map (Stage.comap f)) l).map f := by
  induction q generalizing l with
  | nil => rfl
  | cons s q ih =>
    have hs : s.apply (l.map f) = ((s.comap f).apply l).map f := by
      cases s with
      | filter p => exact List.filter_map
      | sorted le => exact (List.map_insertionSort _ _ f l fun _ _ _ _ => Iff.rfl).symm
    change eval q (s.apply (l.map f)) = _
    rw [hs, ih]
    rfl

lemma filter_orderedInsert {r : α → α → Prop} [DecidableRel r]
    (htrans : ∀ a b c, r a b → r b c → r a c) (p : α → Bool) (a : α) {l : List α}
    (hl : l.Pairwise r) :
    (l.orderedInsert r a).filter p =
      if p a then (l.filter p).orderedInsert r a else l.filter p := by
  induction l with
  | nil => cases h : p a <;> simp [h]
  | cons b l ih =>
    obtain ⟨hb, hl⟩ := List.pairwise_cons.mp hl
    by_cases hab : r a b
    · -- what is left of the list comes after `a` too
      have hall : ∀ c ∈ (b :: l).filter p, r a c := fun c hc => by
        rcases List.mem_cons.mp (List.mem_filter.mp hc).1 with rfl | hc
        · exact hab
        · exact htrans a b c hab (hb c hc)
      have hfront : ((b :: l).filter p).orderedInsert r a = a :: (b :: l).filter p := by
        cases hf : (b :: l).filter p with
        | nil => rfl
        | cons c m => exact List.orderedInsert_cons_of_le r m (hall c (by simp [hf]))
      rw [List.orderedInsert_cons_of_le r l hab, hfront, List.filter_cons]
    · rw [List.orderedInsert_of_not_le r l hab, List.filter_cons, ih hl, List.filter_cons]
      cases p a with
      | false => simp
      | true =>
        cases p b with
        | false => simp
        | true => simp [hab]

/-- A stable sort and a filter may change places. -/
lemma filter_insertionSort {r : α → α → Prop} [DecidableRel r] [IsTrans α r] [Std.Total r]
    (p : α → Bool) (l : List α) :
    (l.insertionSort r).filter p = (l.filter p).insertionSort r := by
  induction l with
  | nil => rfl
  | cons a l ih =>
    rw [List.insertionSort_cons, filter_orderedInsert IsTrans.trans p a
      (List.pairwise_insertionSort r l), ih, List.filter_cons]
    split <;> rfl

lemma Stage.apply_filter {s : Stage α} (h : s.Ordered) (p : α → Bool) (l : List α) :
    s.apply (l.filter p) = (s.apply l).filter p := by
  cases s with
  | filter q => simp only [Stage.apply, List.filter_filter, Bool.and_comm]
  | sorted le =>
    have ht : IsTrans α fun a b => le a b = true := ⟨h.1⟩
    have ho : Std.Total fun a b => le a b = true := ⟨h.2⟩
    exact (filter_insertionSort p l).symm

/-- What is taken out of the source is taken out of the results, and the rest stays in order. -/
theorem eval_filter {q : Stages α} (h : ∀ s ∈ q, s.Ordered) (p : α → Bool) (l : List α) :
    eval q (l.filter p) = (eval q l).filter p := by
  induction q generalizing l with
  | nil => rfl
  | cons s q ih =>
    have hs : s.apply (l.filter p) = (s.apply l).filter p :=
      Stage.apply_filter (h s List.mem_cons_self) p l
    change eval q (s.apply (l.filter p)) = (eval q (s.apply l)).filter p
    rw [hs, ih fun t ht => h t (List.mem_cons_of_mem s ht)]

end IosDevBootcamp.Lib.Query
