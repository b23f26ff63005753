import IosDevBootcamp.InspoQuotes.Defs

/-!
# How often the premium quotes are shown

The handler appends the premium quotes once for every paid transaction, whether or not they are
already on the list.  So the list shows every quote once exactly when, counting the launch with the
flag set, they were appended at most once.
-/

namespace IosDevBootcamp.InspoQuotes

def paidCount (transactions : List Transaction) : ℕ :=
  transactions.countP fun t => t.transactionState.isPaid

/-- The app after the callbacks of `batches`. -/
def callbacks (s : App) (batches : List (List Transaction)) : App :=
  batches.foldl App.paymentQueue s

/-- The premium quotes were appended `n` times, and the flag says whether they were at all. -/
structure Appended (n : ℕ) (s : App) : Prop where
  quotes : s.table.quotesToShow = baseQuotes ++ (List.replicate n premiumQuotes).flatten
  flag : s.defaults productID = decide (0 < n)

/-! ### Counting -/

lemma appended_launch (d : UserDefaults) : Appended (d productID).toNat (App.launch d) where
  quotes := by
    rw [App.launch, App.viewDidLoad_quotes]
    cases hd : d productID <;> simp [hd, QuoteTable.fresh]
  flag := by
    rw [App.launch, App.viewDidLoad_defaults]
    cases hd : d productID <;> simp [hd]

lemma Appended.updateTransaction {n : ℕ} {s : App} (h : Appended n s) (t : Transaction) :
    Appended (n + if t.transactionState.isPaid then 1 else 0) (s.updateTransaction t) := by
  cases hp : t.transactionState.isPaid
  · have hkeep : ((s.updateTransaction t).table = s.table) ∧
        (s.updateTransaction t).defaults = s.defaults := by
      by_cases hf : t.transactionState = .failed
      · rw [App.updateTransaction_failed hf]
        exact ⟨rfl, rfl⟩
      · rw [App.updateTransaction_waiting hp hf]
        exact ⟨rfl, rfl⟩
    exact ⟨by rw [hkeep.1]; exact h.quotes, by rw [hkeep.2]; exact h.flag⟩
  · rw [App.updateTransaction_paid hp]
    refine ⟨?_, ?_⟩
    · show s.table.quotesToShow ++ premiumQuotes = _
      rw [h.quotes, if_pos rfl, List.replicate_succ', List.flatten_append]
      simp
    · show s.setPurchased.defaults productID = _
      simp

lemma Appended.paymentQueue {n : ℕ} {s : App} (h : Appended n s) (ts : List Transaction) :
    Appended (n + paidCount ts) (s.paymentQueue ts) := by
  induction ts generalizing n s with
  | nil => exact h
  | cons t ts ih =>
    have := ih (h.updateTransaction t)
    have hcount : paidCount (t :: ts) =
        (if t.transactionState.isPaid then 1 else 0) + paidCount ts := by
      rw [paidCount, List.countP_cons, Nat.add_comm]
      rfl
    rwa [hcount, ← Nat.add_assoc]

/-- **Every run** appends once for each paid transaction, and once at a launch with the flag
set. -/
theorem appended_callbacks {n : ℕ} {s : App} (h : Appended n s)
    (batches : List (List Transaction)) :
    Appended (n + paidCount batches.flatten) (callbacks s batches) := by
  induction batches generalizing n s with
  | nil => exact h
  | cons ts batches ih =>
    have := ih (h.paymentQueue ts)
    rwa [Nat.add_assoc, paidCount, paidCount, ← List.countP_append, ← List.flatten_cons] at this

/-! ### The table -/

def isBuyRow (s : App) (row : ℕ) : Bool := s.cellForRowAt row = buyCell

/-- **Every quote is shown once**: the base quotes while the flag is not set, the base and the
premium quotes once it is, with one row to buy in the first case and none in the second. -/
structure ShowsEachOnce (s : App) : Prop where
  quotes : s.table.quotesToShow =
    if s.defaults productID then baseQuotes ++ premiumQuotes else baseQuotes
  rows : s.numberOfRowsInSection.1 =
    baseQuotes.length + if s.defaults productID then premiumQuotes.length else 1
  buyRows : (List.range s.numberOfRowsInSection.1).countP (isBuyRow s) =
    if s.defaults productID then 0 else 1
  nodup : s.table.quotesToShow.Nodup

lemma nodup_quotes : (baseQuotes ++ premiumQuotes).Nodup := by
  decide +kernel

/-- The rows past the quotes, and only they, offer the purchase. -/
lemma isBuyRow_eq (s : App) (row : ℕ) :
    isBuyRow s row = decide (s.table.quotesToShow.length ≤ row) := by
  unfold isBuyRow App.cellForRowAt
  cases hq : s.table.quotesToShow[row]? with
  | none => simpa using hq
  | some q =>
    obtain ⟨hlt, -⟩ := List.getElem?_eq_some_iff.mp hq
    simp [buyCell, hlt]

lemma countP_isBuyRow (s : App) (k : ℕ) :
    (List.range (s.table.quotesToShow.length + k)).countP (isBuyRow s) = k := by
  have hquotes : (List.range s.table.quotesToShow.length).countP (isBuyRow s) = 0 := by
    rw [List.countP_eq_zero]
    intro row hrow
    simpa [isBuyRow_eq] using List.mem_range.mp hrow
  have hrest : ∀ rows : List ℕ,
      (rows.map fun i => s.table.quotesToShow.length + i).countP (isBuyRow s) = rows.length := by
    intro rows
    rw [← List.length_map (fun i => s.table.quotesToShow.length + i), List.countP_eq_length]
    intro row hrow
    obtain ⟨i, -, rfl⟩ := List.mem_map.mp hrow
    simp [isBuyRow_eq]
  rw [List.range_add, List.countP_append, hquotes, hrest, List.length_range, Nat.zero_add]

/-- The table is right exactly when the list is. -/
lemma showsEachOnce_iff_quotes (s : App) : ShowsEachOnce s ↔ s.table.quotesToShow =
    if s.defaults productID then baseQuotes ++ premiumQuotes else baseQuotes := by
  refine ⟨fun h => h.quotes, fun h => ⟨h, ?_, ?_, ?_⟩⟩
  · rw [App.numberOfRowsInSection_fst, h]
    split <;> simp
  · rw [App.numberOfRowsInSection_fst, countP_isBuyRow]
  · rw [h]
    split
    · exact nodup_quotes
    · exact (List.nodup_append.mp nodup_quotes).1

/-- The table is right exactly while the premium quotes were appended at most once. -/
lemma Appended.showsEachOnce_iff_le {n : ℕ} {s : App} (h : Appended n s) :
    ShowsEachOnce s ↔ n ≤ 1 := by
  rw [showsEachOnce_iff_quotes, h.quotes, h.flag]
  match n with
  | 0 => simp
  | 1 => simp
  | n + 2 =>
    refine ⟨fun heq => ?_, fun hle => by omega⟩
    have hlen := congrArg List.length heq
    simp [List.replicate_succ, premiumQuotes, baseQuotes] at hlen

/-! ### Runs -/

/-- **When every quote is shown once.**  In every state of a run the table shows each quote once
exactly when the launch with the flag set, if it is one, and the paid transactions of all the
callbacks are at most one together. -/
theorem showsEachOnce_iff (d : UserDefaults) (batches : List (List Transaction)) :
    (∀ bs, bs <+: batches → ShowsEachOnce (callbacks (App.launch d) bs)) ↔
      (d productID).toNat + paidCount batches.flatten ≤ 1 := by
  have hrun : ∀ bs, ShowsEachOnce (callbacks (App.launch d) bs) ↔
      (d productID).toNat + paidCount bs.flatten ≤ 1 := fun bs =>
    (appended_callbacks (appended_launch d) bs).showsEachOnce_iff_le
  constructor
  · intro h
    exact (hrun batches).mp (h batches (List.prefix_refl _))
  · rintro h bs ⟨rest, rfl⟩
    rw [List.flatten_append, paidCount, List.countP_append] at h
    rw [hrun, paidCount]
    omega

/-- Two restored transactions in one batch show the premium quotes twice. -/
theorem two_restored_show_twice :
    ¬ ∀ (d : UserDefaults) (batches : List (List Transaction)) (bs : List (List Transaction)),
      bs <+: batches → ShowsEachOnce (callbacks (App.launch d) bs) := by
  intro h
  have hshow := h (fun _ => false) [[⟨1, .restored⟩, ⟨2, .restored⟩]] _ (List.prefix_refl _)
  have happ := appended_callbacks (appended_launch fun _ => false)
    [[⟨1, .restored⟩, ⟨2, .restored⟩]]
  exact absurd (happ.showsEachOnce_iff_le.mp hshow) (by decide)

end IosDevBootcamp.InspoQuotes
