import IosDevBootcamp.Lib.Loop
import IosDevBootcamp.FlashChat.Defs

/-!
# Rows of the chat

The listener replaces `messages` at once and leaves the reload to a queued closure.  Until the
closure runs the table asks for the rows it had, which a shorter snapshot no longer has; and when it
runs it scrolls to the last row, which a snapshot without messages does not have.
-/

namespace IosDevBootcamp.FlashChat

open IosDevBootcamp.Lib IosDevBootcamp.Lib.Run ChatViewController

/-! ### Messages of a snapshot -/

/-- The messages of the documents that have all three fields. -/
def messagesOf (documents : List Document) : List Message := documents.filterMap Message.ofData

lemma foldl_appendDocument (documents : List Document) (messages : List Message) :
    documents.foldl appendDocument messages = messages ++ messagesOf documents := by
  refine Loop.foldl_collect ?_ documents messages
  intro messages data
  unfold appendDocument
  cases Message.ofData data with
  | none => exact (List.append_nil messages).symm
  | some message => rfl

lemma snapshotListener_messages (s : ChatViewController) (documents : List Document) :
    (s.snapshotListener (some documents) false).messages = messagesOf documents :=
  foldl_appendDocument documents []

/-! ### What a step does to the rows -/

/-- The messages, the rows of the table and the queued closures after an event. -/
inductive Shows (s : ChatViewController) : Event → ChatViewController → Prop
  | same {e : Event} {s' : ChatViewController} (hm : s'.messages = s.messages)
      (ht : s'.tableView = s.tableView)
      (hq : .reloadTable ∈ s'.mainQueue ↔ .reloadTable ∈ s.mainQueue)
      (he : ∀ documents, e ≠ .snapshot (some documents) false) : Shows s e s'
  | snapshot (documents : List Document) {s' : ChatViewController}
      (hm : s'.messages = messagesOf documents) (ht : s'.tableView = s.tableView)
      (hq : .reloadTable ∈ s'.mainQueue) : Shows s (.snapshot (some documents) false) s'
  | reload {s' : ChatViewController} (hm : s'.messages = s.messages)
      (ht : s'.tableView = ⟨s.messages.length⟩)
      (hq : .reloadTable ∈ s'.mainQueue → .reloadTable ∈ s.mainQueue) : Shows s .runMain s'

lemma shows_of_step {s s' : ChatViewController} {e : Event} (h : step s e = .ok s') :
    Shows s e s' := by
  cases e with
  | edit text =>
    cases h
    exact .same rfl rfl Iff.rfl (by simp)
  | sendPressed currentUser now =>
    cases h
    cases currentUser with
    | none => exact .same rfl rfl Iff.rfl (by simp)
    | some messageSender => exact .same rfl rfl Iff.rfl (by simp)
  | complete i error =>
    simp only [step] at h
    split at h
    · cases h
    · cases h
      cases error with
      | true => exact .same rfl rfl Iff.rfl (by simp)
      | false => exact .same rfl rfl (by simp [completion]) (by simp)
  | snapshot documents error =>
    cases h
    cases error with
    | true => exact .same rfl rfl Iff.rfl (by simp)
    | false =>
      cases documents with
      | none => exact .same rfl rfl Iff.rfl (by simp)
      | some documents =>
        exact .snapshot documents (snapshotListener_messages s documents) rfl
          (by simp [snapshotListener])
  | runMain =>
    simp only [step] at h
    split at h
    · cases h
    · rename_i queue hq
      cases h
      exact .same rfl rfl (by simp [clearText, hq]) (by simp)
    · rename_i queue hq
      simp only [reloadTable, TableView.scrollToRow] at h
      split at h
      · rename_i t ht
        cases h
        rw [Option.ite_none_right_eq_some, Option.some.injEq] at ht
        exact .reload rfl ht.2.symm fun _ => by rw [hq]; exact List.mem_cons_self
      · cases h
  | cellForRow row currentUser =>
    simp only [step] at h
    split at h
    · cases hc : s.cellForRowAt row currentUser with
      | error f => rw [hc] at h; cases h
      | ok cell => rw [hc] at h; cases h; exact .same rfl rfl Iff.rfl (by simp)
    · cases h

/-! ### Cells -/

/-- Whatever cell the table asks for, its row is a row of `messages`. -/
def CellsInRange (s : ChatViewController) : Prop :=
  ∀ row currentUser, step s (.cellForRow row currentUser) ≠ .error .indexOutOfRange

lemma cellForRowAt_of_lt {s : ChatViewController} {row : ℕ} (h : row < s.messages.length)
    (currentUser : Option String) : ∃ cell, s.cellForRowAt row currentUser = .ok cell := by
  simp only [cellForRowAt, List.getElem?_eq_getElem h]
  split
  · exact ⟨_, rfl⟩
  · exact ⟨_, rfl⟩

lemma cellsInRange_iff {s : ChatViewController} :
    CellsInRange s ↔ s.tableView.rows ≤ s.messages.length := by
  constructor
  · intro h
    by_contra hlt
    have hnone : s.messages[s.messages.length]? = none := List.getElem?_eq_none (Nat.le_refl _)
    refine h s.messages.length none ?_
    simp only [step, if_pos (Nat.lt_of_not_le hlt), cellForRowAt, hnone]
    rfl
  · intro h row currentUser hstep
    simp only [step] at hstep
    split at hstep
    · rename_i hrow
      obtain ⟨cell, hcell⟩ := cellForRowAt_of_lt (Nat.lt_of_lt_of_le hrow h) currentUser
      rw [hcell] at hstep
      cases hstep
    · cases hstep

/-- A snapshot has a message for every row the table shows. -/
def KeepsRows (s : ChatViewController) : Event → Prop
  | .snapshot (some documents) false => s.tableView.rows ≤ (messagesOf documents).length
  | _ => True

lemma keepsRows_iff {s : ChatViewController} {e : Event} (hs : CellsInRange s) :
    KeepsRows s e ↔ ∀ s', step s e = .ok s' → CellsInRange s' := by
  constructor
  · intro he s' h
    rw [cellsInRange_iff] at hs ⊢
    cases shows_of_step h with
    | same hm ht _ _ => rwa [hm, ht]
    | snapshot documents hm ht _ =>
      rw [hm, ht]
      exact he
    | reload hm ht _ => exact Nat.le_of_eq (by rw [hm, ht])
  · intro h
    cases e with
    | snapshot documents error =>
      cases documents with
      | none => cases error <;> trivial
      | some documents =>
        cases error with
        | true => trivial
        | false =>
          have hrows := cellsInRange_iff.mp (h _ rfl)
          rwa [snapshotListener_messages] at hrows
    | _ => trivial

/-- **When the cells stay in range.**  In every state of a run the cells the table may ask for are
there exactly when no snapshot of the run has fewer messages than the table shows rows. -/
theorem cells_in_range_iff (es : List Event) :
    (∀ fs, fs <+: es → ∀ s, run step launch fs = .ok s → CellsInRange s) ↔
      Along step KeepsRows launch es :=
  forall_prefix_iff_along (fun _ _ hs => keepsRows_iff hs)
    (cellsInRange_iff.mpr (Nat.le_refl 0))

/-- A document with the three fields. -/
def hello : Document := fun field =>
  if field = dateField then some (.number 0) else some (.string "hello")

/-- Two messages are shown, then one is deleted, and the table asks for the second row. -/
theorem shrinking_snapshot_out_of_range :
    run step launch [.snapshot (some [hello, hello]) false, .runMain,
      .snapshot (some [hello]) false, .cellForRow 1 none] = .error .indexOutOfRange := rfl

/-! ### Scrolling -/

/-- The closure's row, `messages.count - 1`, is a row of `messages`. -/
lemma reloadTable_error_iff {s : ChatViewController} :
    s.reloadTable = .error .scrollOutOfRange ↔
      ¬ (0 ≤ (s.messages.length : ℤ) - 1 ∧ (s.messages.length : ℤ) - 1 < s.messages.length) := by
  by_cases h : 0 < s.messages.length
  · rw [reloadTable_of_pos h]
    simp only [reduceCtorEq, false_iff, not_not]
    omega
  · have hnone : (s.tableView.reloadData s.messages.length).scrollToRow
        ((s.messages.length : ℤ) - 1) = none := if_neg (by omega)
    simp only [reloadTable, hnone, true_iff]
    omega

/-- Whenever the queued closures run, each scrolls to a row of `messages`. -/
def ScrollsInRange (s : ChatViewController) : Prop :=
  ∀ n, run step s (List.replicate n .runMain) ≠ .error .scrollOutOfRange

lemma exists_scrollOutOfRange {s : ChatViewController} (hm : s.messages = [])
    (hq : .reloadTable ∈ s.mainQueue) :
    ∃ n, run step s (List.replicate n .runMain) = .error .scrollOutOfRange := by
  obtain ⟨queue, hqueue⟩ : ∃ queue, s.mainQueue = queue := ⟨_, rfl⟩
  induction queue generalizing s with
  | nil =>
    rw [hqueue] at hq
    cases hq
  | cons c queue ih =>
    cases c with
    | clearText =>
      have hstep : step s .runMain = .ok { s with mainQueue := queue }.clearText := by
        simp only [step, hqueue]
      have hq' : .reloadTable ∈ queue := by simpa [hqueue] using hq
      obtain ⟨n, hn⟩ := ih (s := { s with mainQueue := queue }.clearText) hm hq' rfl
      exact ⟨n + 1, by rw [List.replicate_succ, run_cons_ok hstep, hn]⟩
    | reloadTable =>
      refine ⟨1, ?_⟩
      rw [List.replicate_one, run_singleton]
      simp only [step, hqueue]
      exact reloadTable_error_iff.mpr (by simp [hm])

lemma scrollsInRange_iff {s : ChatViewController} :
    ScrollsInRange s ↔ (.reloadTable ∈ s.mainQueue → s.messages ≠ []) := by
  constructor
  · intro h hq hm
    obtain ⟨n, hn⟩ := exists_scrollOutOfRange hm hq
    exact h n hn
  · intro h n
    induction n generalizing s with
    | zero => simp
    | succ n ih =>
      rw [List.replicate_succ]
      cases hs : step s .runMain with
      | ok s' =>
        rw [run_cons_ok hs]
        apply ih
        intro hq
        cases shows_of_step hs with
        | same hm _ hq' _ => exact hm ▸ h (hq'.mp hq)
        | reload hm _ hq' => exact hm ▸ h (hq' hq)
      | error f =>
        rw [run_cons_error hs]
        simp only [step] at hs
        split at hs
        · cases hs
          simp
        · cases hs
        · rename_i queue hq
          have hm : 0 < s.messages.length := List.length_pos_iff.mpr (h (by simp [hq]))
          rw [reloadTable_of_pos (s := { s with mainQueue := queue }) hm] at hs
          cases hs

/-- A snapshot has a document with all three fields. -/
def HasMessage : Event → Prop
  | .snapshot (some documents) false => ∃ data ∈ documents, (Message.ofData data).isSome = true
  | _ => True

lemma messagesOf_ne_nil {documents : List Document} :
    messagesOf documents ≠ [] ↔ ∃ data ∈ documents, (Message.ofData data).isSome = true := by
  simp [messagesOf, List.filterMap_eq_nil_iff, Option.isSome_iff_ne_none]

lemma hasMessage_iff {s : ChatViewController} {e : Event} (hs : ScrollsInRange s) :
    HasMessage e ↔ ∀ s', step s e = .ok s' → ScrollsInRange s' := by
  rw [scrollsInRange_iff] at hs
  constructor
  · intro he s' h
    rw [scrollsInRange_iff]
    intro hq
    cases shows_of_step h with
    | same hm _ hq' _ => exact hm ▸ hs (hq'.mp hq)
    | snapshot documents hm _ _ => exact hm ▸ messagesOf_ne_nil.mpr he
    | reload hm _ hq' => exact hm ▸ hs (hq' hq)
  · intro h
    cases e with
    | snapshot documents error =>
      cases documents with
      | none => cases error <;> trivial
      | some documents =>
        cases error with
        | true => trivial
        | false =>
          have hne := scrollsInRange_iff.mp (h _ rfl) (by simp [snapshotListener])
          rw [snapshotListener_messages] at hne
          exact messagesOf_ne_nil.mp hne
    | _ => trivial

/-- **When the chat scrolls to a row it has.**  In every state of a run the queued closures have
rows to scroll to, whenever they run, exactly when every snapshot of the run that arrived without an
error has a document with all three fields. -/
theorem scrolls_in_range_iff (es : List Event) :
    (∀ fs, fs <+: es → ∀ s, run step launch fs = .ok s → ScrollsInRange s) ↔
      Along step (fun _ e => HasMessage e) launch es :=
  forall_prefix_iff_along (fun _ _ hs => hasMessage_iff hs)
    (scrollsInRange_iff.mpr (by simp [launch]))

/-- A chat without messages makes the first closure scroll to row `-1`. -/
theorem empty_chat_out_of_range :
    run step launch [.snapshot (some []) false, .runMain] = .error .scrollOutOfRange := rfl

end IosDevBootcamp.FlashChat
