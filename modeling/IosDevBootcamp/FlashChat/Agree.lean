import Mathlib.Data.List.Flatten
import Mathlib.Data.List.Induction
import Mathlib.Data.List.Perm.Basic
import IosDevBootcamp.FlashChat.Chat
import IosDevBootcamp.FlashChat.Rows

/-!
# Flash Chat: what the screens show

Once its closures have run, a screen shows a cell for each message of its last snapshot: documents that
were there or were sent, in the order of their dates and none twice.  When no call is in flight, the
screens whose last snapshot held the whole collection show the same messages: those that were there and
those whose calls succeeded.
-/

namespace IosDevBootcamp.FlashChat

open IosDevBootcamp.Lib
open scoped List

/-! ### The screen -/

section Screen

variable {s s' : ChatViewController} {e : Event}

lemma step_isLocal (he : e.isLocal = true) (h : s.step e = .ok s') :
    s'.inFlight = s.inFlight ∧ s'.saved = s.saved ∧ s'.messages = s.messages := by
  cases e with
  | edit text =>
    cases h
    exact ⟨rfl, rfl, rfl⟩
  | runMain =>
    simp only [ChatViewController.step] at h
    split at h
    · cases h
    · cases h
      exact ⟨rfl, rfl, rfl⟩
    · simp only [ChatViewController.reloadTable] at h
      split at h
      · cases h
        exact ⟨rfl, rfl, rfl⟩
      · cases h
  | cellForRow row currentUser =>
    simp only [ChatViewController.step] at h
    split at h
    · obtain ⟨cell, -, rfl⟩ := Run.map_ok_iff.mp h
      exact ⟨rfl, rfl, rfl⟩
    · cases h
  | sendPressed currentUser now => cases he
  | complete i error => cases he
  | snapshot documents error => cases he

lemma step_complete {i : ℕ} {error : Bool} (h : s.step (.complete i error) = .ok s') :
    ∃ o, s.inFlight[i]? = some o ∧ s'.inFlight = s.inFlight.eraseIdx i ∧
      s'.saved = (if error then s.saved else s.saved ++ [o]) ∧ s'.messages = s.messages := by
  simp only [ChatViewController.step] at h
  split at h
  · cases h
  · rename_i o ho
    cases h
    refine ⟨o, ho, ?_⟩
    cases error <;> exact ⟨rfl, rfl, rfl⟩

/-- The table has the rows of the messages, or it will have them when a closure has run. -/
def Reloaded (s : ChatViewController) : Prop :=
  .reloadTable ∈ s.mainQueue ∨ s.tableView.rows = s.messages.length

lemma reloaded_step (hs : Reloaded s) (h : s.step e = .ok s') : Reloaded s' := by
  cases shows_of_step h with
  | same hm ht hq _ =>
    refine hs.imp hq.mpr fun hrows => ?_
    rw [hm, ht, hrows]
  | snapshot _ _ _ hq => exact Or.inl hq
  | reload hm ht _ => exact Or.inr (by rw [hm, ht])

lemma cellForRowAt_of_some {row : ℕ} {message : Message} (h : s.messages[row]? = some message)
    (currentUser : Option String) :
    s.cellForRowAt row currentUser = .ok (MessageCell.of currentUser message) := by
  simp only [ChatViewController.cellForRowAt, h, MessageCell.of]
  split <;> rfl

lemma mapM_range {α β : Type} {f : ℕ → Except Fault β} {g : α → β} {l : List α}
    (hf : ∀ i a, l[i]? = some a → f i = .ok (g a)) : (List.range l.length).mapM f = .ok (l.map g) := by
  induction l using List.reverseRecOn with
  | nil => rfl
  | append_singleton l a ih =>
    have hl : (List.range l.length).mapM f = .ok (l.map g) := by
      refine ih fun i b hb => hf i b ?_
      rw [List.getElem?_append_left (List.getElem?_eq_some_iff.mp hb).1, hb]
    have ha : f l.length = .ok (g a) := hf l.length a (by simp)
    rw [List.length_append, List.length_singleton, List.range_succ, List.mapM_append, hl,
      List.mapM_cons, ha, List.mapM_nil, List.map_append]
    rfl

/-- With the closures run, the table shows a cell for each message. -/
lemma cells_of_reloaded (hs : Reloaded s) (hq : .reloadTable ∉ s.mainQueue)
    (currentUser : Option String) :
    s.cells currentUser = .ok (s.messages.map (MessageCell.of currentUser)) := by
  rw [ChatViewController.cells, hs.resolve_left hq]
  exact mapM_range fun row message h => cellForRowAt_of_some h currentUser

end Screen

/-! ### A screen and its documents -/

variable {State Action : Type*} (db : Firestore State Action)

/-- All documents that a screen has handed over. -/
def Client.sent (c : Client) : List Stored := c.saved ++ c.refused ++ c.writes

/-- The documents of a screen are those of its calls, and its messages are those of its last
snapshot. -/
structure Client.WellFormed (σ : State) (c : Client) : Prop where
  writes : c.writes.map Stored.data = c.screen.inFlight.map (·.message.data)
  saved : c.saved.map Stored.data = c.screen.saved.map (·.message.data)
  messages : c.screen.messages = messagesOf (c.snapshot.map Stored.data)
  reloaded : Reloaded c.screen
  snapshot : db.IsSnapshot σ dateField c.snapshot
  stored : c.saved ⊆ db.stored σ
  refused : ∀ d ∈ c.refused, db.completion σ d.id = some true

variable {db} {σ σ' σ₀ : State} {c c' : Client}

/-- A screen stays well formed while the database moves on. -/
lemma Client.WellFormed.later (h : c.WellFormed db σ) (hlater : db.Later σ σ')
    (hwritten : db.written σ ⊆ db.written σ') : c.WellFormed db σ' where
  writes := h.writes
  saved := h.saved
  messages := h.messages
  reloaded := h.reloaded
  snapshot := ⟨List.Subset.trans h.snapshot.subset hwritten, h.snapshot.nodup, h.snapshot.has_field,
    h.snapshot.pairwise⟩
  stored := List.Subset.trans h.stored hlater.stored
  refused d hd := hlater.completion _ _ (h.refused d hd)

lemma wellFormed_launch : Client.launch.WellFormed db σ where
  writes := rfl
  saved := rfl
  messages := rfl
  reloaded := Or.inr rfl
  snapshot := ⟨List.nil_subset _, List.nodup_nil, fun _ hd => absurd hd List.not_mem_nil,
    List.Pairwise.nil⟩
  stored := List.nil_subset _
  refused _ hd := absurd hd List.not_mem_nil

/-- An event that leaves the calls and the messages alone. -/
lemma Client.WellFormed.screen {screen : ChatViewController} {e : Event} (h : c.WellFormed db σ)
    (hstep : c.screen.step e = .ok screen) (hi : screen.inFlight = c.screen.inFlight)
    (hs : screen.saved = c.screen.saved) (hm : screen.messages = c.screen.messages) :
    { c with screen }.WellFormed db σ where
  writes := by rw [hi, h.writes]
  saved := by rw [hs, h.saved]
  messages := by rw [hm, h.messages]
  reloaded := reloaded_step h.reloaded hstep
  snapshot := h.snapshot
  stored := h.stored
  refused := h.refused

lemma user_ok {e : Event} (hc : c.WellFormed db σ) (h : c.user e = .ok c') :
    c'.WellFormed db σ ∧ c'.sent = c.sent := by
  unfold Client.user at h
  split at h
  · rename_i hlocal
    obtain ⟨screen, hstep, rfl⟩ := Run.map_ok_iff.mp h
    obtain ⟨hi, hs, hm⟩ := step_isLocal hlocal hstep
    exact ⟨hc.screen hstep hi hs hm, rfl⟩
  · cases h

/-- A tap on Send hands over a document if someone is signed in. -/
lemma sendPressed_cases (db : Firestore State Action) (c : Client) (σ : State) (i : ℕ)
    (currentUser : Option String) (now : TimeInterval) :
    c.sendPressed db σ i currentUser now = (c, σ) ∨ ∃ o : Outgoing,
      c.sendPressed db σ i currentUser now =
        ({ c with
          screen := { c.screen with inFlight := c.screen.inFlight ++ [o] }
          writes := c.writes ++ [⟨(db.addDocument σ i o.message.data).1, o.message.data⟩] },
        (db.addDocument σ i o.message.data).2) := by
  cases currentUser with
  | none =>
    refine Or.inl ?_
    simp [Client.sendPressed, ChatViewController.sendPressed]
  | some messageSender =>
    refine Or.inr ⟨⟨⟨messageSender, now, c.screen.messageTextfield.text⟩,
      c.screen.messageTextfield.draft⟩, ?_⟩
    simp [Client.sendPressed, ChatViewController.sendPressed]

/-- The document of a call that ends is stored, or refused for good. -/
lemma complete_ok (hdb : db.Lawful) {j : ℕ} (hc : c.WellFormed db σ) (hsent : c.sent ⊆ db.written σ)
    (h : c.complete db σ j = .ok c') : c'.WellFormed db σ ∧ c'.sent.Perm c.sent := by
  unfold Client.complete at h
  split at h
  · cases h
  rename_i d hd
  split at h
  · cases h
  rename_i error hcompletion
  obtain ⟨screen, hstep, rfl⟩ := Run.map_ok_iff.mp h
  obtain ⟨o, ho, hi, hs, hm⟩ := step_complete hstep
  have hdata : d.data = o.message.data := by
    have hget := congrArg (·[j]?) hc.writes
    simpa [hd, ho] using hget
  have hmem : d ∈ c.writes := List.mem_of_getElem? hd
  have hwrites : c.writes.Perm (d :: c.writes.eraseIdx j) := by
    obtain ⟨hj, rfl⟩ := List.getElem?_eq_some_iff.mp hd
    exact (List.getElem_cons_eraseIdx_perm hj).symm
  have hwritten : d ∈ db.written σ := hsent (List.mem_append_right _ hmem)
  have hleft : (c.writes.eraseIdx j).map Stored.data = screen.inFlight.map (·.message.data) := by
    rw [hi, ← List.eraseIdx_map, ← List.eraseIdx_map, hc.writes]
  cases error with
  | false =>
    have hstored : d ∈ db.stored σ := (hdb.completion σ d hwritten false hcompletion).mpr rfl
    refine ⟨⟨hleft, ?_, hm.trans hc.messages, reloaded_step hc.reloaded hstep, hc.snapshot, ?_,
      hc.refused⟩, ?_⟩
    · simp [hs, hc.saved, hdata]
    · exact List.append_subset.mpr
        ⟨hc.stored, List.cons_subset.mpr ⟨hstored, List.nil_subset _⟩⟩
    · calc c.saved ++ [d] ++ c.refused ++ c.writes.eraseIdx j
          ~ c.saved ++ c.refused ++ d :: c.writes.eraseIdx j := by
            simp only [List.append_assoc, List.singleton_append]
            exact List.Perm.append_left _ List.perm_middle.symm
        _ ~ c.saved ++ c.refused ++ c.writes := hwrites.symm.append_left _
  | true =>
    refine ⟨⟨hleft, ?_, hm.trans hc.messages, reloaded_step hc.reloaded hstep, hc.snapshot,
      hc.stored, ?_⟩, ?_⟩
    · simp [hs, hc.saved]
    · exact List.forall_mem_append.mpr ⟨hc.refused, List.forall_mem_singleton.mpr hcompletion⟩
    · calc c.saved ++ (c.refused ++ [d]) ++ c.writes.eraseIdx j
          = c.saved ++ c.refused ++ d :: c.writes.eraseIdx j := by simp
        _ ~ c.saved ++ c.refused ++ c.writes := hwrites.symm.append_left _

lemma receive_ok {snapshot : List Stored} (hc : c.WellFormed db σ)
    (hsnapshot : db.IsSnapshot σ dateField snapshot) (h : c.receive snapshot = .ok c') :
    c'.WellFormed db σ ∧ c'.sent = c.sent := by
  unfold Client.receive at h
  obtain ⟨screen, hstep, rfl⟩ := Run.map_ok_iff.mp h
  have hreloaded := reloaded_step hc.reloaded hstep
  cases hstep
  exact ⟨⟨hc.writes, hc.saved, snapshotListener_messages _ _, hreloaded, hsnapshot, hc.stored,
    hc.refused⟩, rfl⟩

/-! ### The screens together -/

variable (db σ₀)

/-- What was ever written was there or was handed over by one call of one screen. -/
structure ChatInv (s : Chat State) : Prop where
  sent : (db.written σ₀ ++ s.clients.flatMap Client.sent).Perm (db.written s.database)
  stored : db.stored σ₀ ⊆ db.stored s.database
  wellFormed : ∀ c ∈ s.clients, c.WellFormed db s.database

variable {db σ₀} {clients : List Client} {i : ℕ}

lemma chatInv_launch : ChatInv db σ₀ (Chat.launch σ₀) where
  sent := by simp [Chat.launch]
  stored := List.Subset.refl _
  wellFormed _ hc := absurd hc List.not_mem_nil

/-- What one screen hands over. -/
lemma flatMap_sent_set {new : List Stored} (hi : clients[i]? = some c)
    (h : c'.sent.Perm (c.sent ++ new)) : ((clients.set i c').flatMap Client.sent).Perm
      (clients.flatMap Client.sent ++ new) := by
  obtain ⟨hlt, rfl⟩ := List.getElem?_eq_some_iff.mp hi
  calc (clients.set i c').flatMap Client.sent
      ~ (c' :: clients.eraseIdx i).flatMap Client.sent :=
        (List.set_perm_cons_eraseIdx hlt c').flatMap_right _
    _ = c'.sent ++ (clients.eraseIdx i).flatMap Client.sent := List.flatMap_cons
    _ ~ clients[i].sent ++ new ++ (clients.eraseIdx i).flatMap Client.sent := h.append_right _
    _ ~ (clients[i] :: clients.eraseIdx i).flatMap Client.sent ++ new := by
        rw [List.flatMap_cons, List.append_assoc, List.append_assoc]
        exact List.Perm.append_left _ List.perm_append_comm
    _ ~ clients.flatMap Client.sent ++ new :=
        ((List.getElem_cons_eraseIdx_perm hlt).flatMap_right _).append_right _

/-- A screen with the documents it had. -/
lemma ChatInv.setClient {s : Chat State} (h : ChatInv db σ₀ s) (hi : s.clients[i]? = some c)
    (hc' : c'.WellFormed db s.database) (hsent : c'.sent.Perm c.sent) :
    ChatInv db σ₀ (s.setClient i c') where
  sent := by
    have hset : ((s.clients.set i c').flatMap Client.sent).Perm (s.clients.flatMap Client.sent ++ []) :=
      flatMap_sent_set hi (hsent.trans (List.Perm.of_eq (List.append_nil _).symm))
    rw [List.append_nil] at hset
    exact (hset.append_left _).trans h.sent
  stored := h.stored
  wellFormed b hb := (List.mem_or_eq_of_mem_set hb).elim (h.wellFormed b) fun heq => heq ▸ hc'

/-- A new document. -/
lemma ChatInv.addDocument (hdb : db.Lawful) {s : Chat State} (h : ChatInv db σ₀ s)
    (hi : s.clients[i]? = some c) (o : Outgoing) :
    ChatInv db σ₀ ⟨(db.addDocument s.database i o.message.data).2, s.clients.set i { c with
      screen := { c.screen with inFlight := c.screen.inFlight ++ [o] }
      writes := c.writes ++
        [⟨(db.addDocument s.database i o.message.data).1, o.message.data⟩] }⟩ := by
  have hlater := hdb.later_addDocument s.database i o.message.data
  have hwritten := hdb.written_addDocument s.database i o.message.data
  have hsub : db.written s.database ⊆ db.written (db.addDocument s.database i o.message.data).2 :=
    hwritten ▸ List.subset_append_left _ _
  have hc := (h.wellFormed c (List.mem_of_getElem? hi)).later hlater hsub
  refine ⟨?_, List.Subset.trans h.stored hlater.stored, fun b hb => ?_⟩
  · rw [hwritten]
    refine ((flatMap_sent_set hi (List.Perm.of_eq (List.append_assoc _ _ _).symm)).append_left
      _).trans ?_
    rw [← List.append_assoc]
    exact h.sent.append_right _
  · rcases List.mem_or_eq_of_mem_set hb with hb | rfl
    · exact (h.wellFormed b hb).later hlater hsub
    · exact ⟨by simp [hc.writes], hc.saved, hc.messages, hc.reloaded, hc.snapshot, hc.stored,
        hc.refused⟩

section Step

variable {s s' : Chat State} {es : List (ChatEvent Action)}

lemma withClient_ok {f : Client → Except Fault (Chat State)} (h : s.withClient i f = .ok s') :
    ∃ c, s.clients[i]? = some c ∧ f c = .ok s' := by
  unfold Chat.withClient at h
  split at h
  · rename_i c hc
    exact ⟨c, hc, h⟩
  · cases h

/-- What a screen has handed over was written. -/
lemma ChatInv.sent_subset (h : ChatInv db σ₀ s) (hi : s.clients[i]? = some c) :
    c.sent ⊆ db.written s.database := fun _ hd => h.sent.subset
  (List.mem_append_right _ (List.mem_flatMap.mpr ⟨c, List.mem_of_getElem? hi, hd⟩))

/-- **Every event keeps the invariant.** -/
lemma chatInv_step (hdb : db.Lawful) {e : ChatEvent Action} (hs : ChatInv db σ₀ s)
    (h : s.step db e = .ok s') : ChatInv db σ₀ s' := by
  have hwf : ∀ {i : ℕ} {c : Client}, s.clients[i]? = some c → c.WellFormed db s.database :=
    fun hi => hs.wellFormed _ (List.mem_of_getElem? hi)
  cases e with
  | database a =>
    cases h
    have hlater := hdb.later_act s.database a
    have hwritten := hdb.written_act s.database a
    refine ⟨hwritten ▸ hs.sent, List.Subset.trans hs.stored hlater.stored, fun c hc => ?_⟩
    exact (hs.wellFormed c hc).later hlater (hwritten ▸ List.Subset.refl _)
  | join =>
    cases h
    refine ⟨?_, hs.stored, List.forall_mem_append.mpr
      ⟨hs.wellFormed, List.forall_mem_singleton.mpr wellFormed_launch⟩⟩
    rw [List.flatMap_append, show [Client.launch].flatMap Client.sent = [] from rfl, List.append_nil]
    exact hs.sent
  | user i e =>
    obtain ⟨c, hi, h⟩ := withClient_ok h
    obtain ⟨c', huser, rfl⟩ := Run.map_ok_iff.mp h
    obtain ⟨hc', hsent⟩ := user_ok (hwf hi) huser
    exact hs.setClient hi hc' (List.Perm.of_eq hsent)
  | sendPressed i currentUser now =>
    obtain ⟨c, hi, h⟩ := withClient_ok h
    rcases sendPressed_cases db c s.database i currentUser now with heq | ⟨o, heq⟩
    · rw [heq] at h
      obtain rfl := Except.ok.inj h
      exact hs.setClient hi (hwf hi) (List.Perm.refl _)
    · rw [heq] at h
      obtain rfl := Except.ok.inj h
      exact hs.addDocument hdb hi o
  | complete i j =>
    obtain ⟨c, hi, h⟩ := withClient_ok h
    obtain ⟨c', hcomplete, rfl⟩ := Run.map_ok_iff.mp h
    obtain ⟨hc', hsent⟩ := complete_ok hdb (hwf hi) (hs.sent_subset hi) hcomplete
    exact hs.setClient hi hc' hsent
  | snapshot i =>
    obtain ⟨c, hi, h⟩ := withClient_ok h
    obtain ⟨c', hreceive, rfl⟩ := Run.map_ok_iff.mp h
    obtain ⟨hc', hsent⟩ := receive_ok (hwf hi) (hdb.snapshot s.database i dateField) hreceive
    exact hs.setClient hi hc' (List.Perm.of_eq hsent)
  | listenerError i =>
    obtain ⟨c, hi, h⟩ := withClient_ok h
    obtain ⟨screen, hstep, rfl⟩ := Run.map_ok_iff.mp h
    have hc' : { c with screen }.WellFormed db s.database := by
      refine (hwf hi).screen hstep ?_ ?_ ?_ <;> cases hstep <;> rfl
    exact hs.setClient hi hc' (List.Perm.refl _)

lemma chatInv_run (hdb : db.Lawful) (h : Run.run (Chat.step db) (Chat.launch σ₀) es = .ok s) :
    ChatInv db σ₀ s :=
  Run.run_inv (fun _ _ _ hs hstep => chatInv_step hdb hs hstep) chatInv_launch h

end Step

/-! ### What is shown -/

lemma messagesOf_append (documents documents' : List Document) :
    messagesOf (documents ++ documents') = messagesOf documents ++ messagesOf documents' :=
  List.filterMap_append

/-- The documents of messages are read as these messages. -/
lemma messagesOf_data (l : List Outgoing) :
    messagesOf (l.map (·.message.data)) = l.map (·.message) := by
  unfold messagesOf
  rw [List.filterMap_map]
  exact List.filterMap_eq_map_iff_forall_eq_some.mpr fun o _ => Message.ofData_data o.message

lemma ofData_date {data : Document} {m : Message} (h : Message.ofData data = some m) :
    data dateField = some (.number m.date) := by
  obtain ⟨sender, -, h⟩ := Option.bind_eq_some_iff.mp h
  obtain ⟨date, hdate, h⟩ := Option.bind_eq_some_iff.mp h
  obtain ⟨body, -, h⟩ := Option.bind_eq_some_iff.mp h
  cases h
  unfold Value.asTimeInterval at hdate
  split at hdate
  · rename_i t ht
    cases hdate
    exact ht
  · cases hdate

/-- A document without a date is no message, so a query by dates leaves no message out. -/
lemma messagesOf_dated (l : List Stored) :
    messagesOf ((l.filter fun d => (d.data dateField).isSome).map Stored.data) =
      messagesOf (l.map Stored.data) := by
  unfold messagesOf
  rw [List.filterMap_map, List.filterMap_map, List.filterMap_filter]
  refine List.filterMap_congr fun d _ => ?_
  cases hd : Message.ofData d.data with
  | none => simp [hd]
  | some m => simp [hd, ofData_date hd]

lemma Firestore.IsSnapshot.dates (hdb : db.Lawful) {l : List Stored}
    (h : db.IsSnapshot σ dateField l) :
    (messagesOf (l.map Stored.data)).Pairwise fun m n => m.date ≤ n.date := by
  unfold messagesOf
  rw [List.pairwise_filterMap, List.pairwise_map]
  refine h.pairwise.imp fun {d e} hle m hm n hn => ?_
  have hdate := (hle _ _ (ofData_date hm) (ofData_date hn)).1
  rw [hdb.number] at hdate
  exact of_decide_eq_true hdate

section Results

variable {s : Chat State} {es : List (ChatEvent Action)}

/-- **Once its closures have run, a screen shows the messages of documents that were there or were
handed over, none more often than that, in the order of their dates.** -/
theorem shows_written (hdb : db.Lawful)
    (h : Run.run (Chat.step db) (Chat.launch σ₀) es = .ok s) (hc : c ∈ s.clients)
    (hq : .reloadTable ∉ c.screen.mainQueue) (currentUser : Option String) :
    c.screen.cells currentUser = .ok (c.screen.messages.map (MessageCell.of currentUser)) ∧
      c.screen.messages.Pairwise (fun m n => m.date ≤ n.date) ∧
      c.screen.messages.Subperm
        (messagesOf ((db.written σ₀ ++ s.clients.flatMap Client.sent).map Stored.data)) := by
  have hinv := chatInv_run hdb h
  have hwf := hinv.wellFormed c hc
  refine ⟨cells_of_reloaded hwf.reloaded hq currentUser, ?_⟩
  rw [hwf.messages]
  refine ⟨hwf.snapshot.dates hdb, ?_⟩
  have hsub : c.snapshot.Subperm (db.written σ₀ ++ s.clients.flatMap Client.sent) :=
    List.subperm_of_subset hwf.snapshot.nodup.of_map
      (List.Subset.trans hwf.snapshot.subset hinv.sent.symm.subset)
  obtain ⟨l, hperm, hl⟩ := hsub
  exact ⟨_, (hperm.map _).filterMap _, (hl.map _).filterMap _⟩

/-- A collection with one message. -/
def welcome : List Entry := [⟨Message.data ⟨"a@b.c", 5, "Welcome"⟩, none, some false⟩]

/-- Two screens send at once, and the later message arrives first.  Another one is refused. -/
def twoScreens : List (ChatEvent (ℕ × Bool)) :=
  [.join, .join, .user 0 (.edit "Hi"), .user 1 (.edit "Yo"), .sendPressed 0 (some "a@b.c") 7,
    .sendPressed 1 (some "d@e.f") 8, .sendPressed 1 (some "d@e.f") 9, .database (2, false),
    .database (1, false), .database (3, true), .complete 1 1, .complete 1 0, .complete 0 0,
    .snapshot 0, .snapshot 1, .user 0 .runMain, .user 0 .runMain, .user 1 .runMain, .user 1 .runMain]

theorem shows_written_welcome : ∃ s c,
    Run.run (Chat.step ledger) (Chat.launch welcome) twoScreens = .ok s ∧ c ∈ s.clients ∧
      c.screen.tableView.rows = 3 ∧
      c.screen.cells (some "a@b.c") = .ok (c.screen.messages.map (MessageCell.of (some "a@b.c"))) ∧
      c.screen.messages.Pairwise fun m n => m.date ≤ n.date := by
  have hrun : Run.run (Chat.step ledger) (Chat.launch welcome) twoScreens = .ok _ := rfl
  have hshows := shows_written ledger_lawful hrun List.mem_cons_self (by decide) (some "a@b.c")
  exact ⟨_, _, hrun, List.mem_cons_self, rfl, hshows.1, hshows.2.1⟩

/-- The last snapshot held the whole collection, as far as a query by dates finds it. -/
def Client.UpToDate (db : Firestore State Action) (σ : State) (c : Client) : Prop :=
  ∀ d, d ∈ c.snapshot ↔ d ∈ db.stored σ ∧ (d.data dateField).isSome = true

/-- The documents that were there and those whose calls succeeded. -/
def Chat.settled (db : Firestore State Action) (σ₀ : State) (s : Chat State) : List Stored :=
  db.written σ₀ ++ s.clients.flatMap Client.saved

/-- What is stored when no call is in flight. -/
lemma mem_stored (hdb : db.Lawful) (hquiet : db.written σ₀ ⊆ db.stored σ₀) (hs : ChatInv db σ₀ s)
    (hidle : ∀ c ∈ s.clients, c.screen.inFlight = []) (d : Stored) :
    d ∈ db.stored s.database ↔ d ∈ s.settled db σ₀ := by
  constructor
  · intro hd
    rcases List.mem_append.mp (hs.sent.symm.subset (hdb.stored _ hd)) with hd' | hd'
    · exact List.mem_append_left _ hd'
    · obtain ⟨c, hc, hsent⟩ := List.mem_flatMap.mp hd'
      have hwf := hs.wellFormed c hc
      have hwrites : c.writes = [] := by
        rw [← List.map_eq_nil_iff (f := Stored.data), hwf.writes, hidle c hc, List.map_nil]
      rw [Client.sent, hwrites, List.append_nil] at hsent
      rcases List.mem_append.mp hsent with hsaved | hrefused
      · exact List.mem_append_right _ (List.mem_flatMap.mpr ⟨c, hc, hsaved⟩)
      · -- what was refused is not stored
        have hcompletion := hwf.refused d hrefused
        have hfalse := (hdb.completion _ d (hdb.stored _ hd) true hcompletion).mp hd
        cases hfalse
  · intro hd
    rcases List.mem_append.mp hd with hd | hd
    · exact hs.stored (hquiet hd)
    · obtain ⟨c, hc, hsaved⟩ := List.mem_flatMap.mp hd
      exact (hs.wellFormed c hc).stored hsaved

lemma nodup_settled (hdb : db.Lawful) (hs : ChatInv db σ₀ s) :
    ((s.settled db σ₀).map Stored.id).Nodup := by
  have hdistinct := (hs.sent.map Stored.id).nodup_iff.mpr (hdb.distinct s.database)
  refine hdistinct.sublist (List.Sublist.map _ (List.Sublist.append_left ?_ _))
  refine List.Sublist.flatMap_right _ fun c _ => ?_
  rw [Client.sent, List.append_assoc]
  exact List.sublist_append_left _ _

/-- **When no call is in flight, all screens that were told of the whole collection show the same
messages**: those that were there and those whose calls succeeded on any screen, each once. -/
theorem screens_agree (hdb : db.Lawful) (hquiet : db.written σ₀ ⊆ db.stored σ₀)
    (h : Run.run (Chat.step db) (Chat.launch σ₀) es = .ok s)
    (hidle : ∀ c ∈ s.clients, c.screen.inFlight = []) :
    ∃ messages : List Message,
      messages.Perm (messagesOf ((db.written σ₀).map Stored.data) ++
        (s.clients.flatMap (·.screen.saved)).map (·.message)) ∧
      ∀ c ∈ s.clients, c.UpToDate db s.database → .reloadTable ∉ c.screen.mainQueue →
        ∀ currentUser, c.screen.cells currentUser =
          .ok (messages.map (MessageCell.of currentUser)) := by
  have hinv := chatInv_run hdb h
  have hstored := mem_stored hdb hquiet hinv hidle
  have hsaved : (s.clients.flatMap Client.saved).map Stored.data =
      (s.clients.flatMap (·.screen.saved)).map (·.message.data) := by
    rw [List.map_flatMap, List.map_flatMap]
    exact List.flatMap_congr fun c hc => (hinv.wellFormed c hc).saved
  have hsettled : messagesOf ((s.settled db σ₀).map Stored.data) =
      messagesOf ((db.written σ₀).map Stored.data) ++
        (s.clients.flatMap (·.screen.saved)).map (·.message) := by
    rw [Chat.settled, List.map_append, messagesOf_append, hsaved, messagesOf_data]
  by_cases hex : ∃ b ∈ s.clients, b.UpToDate db s.database
  · obtain ⟨b, hb, hall⟩ := hex
    have hwf := hinv.wellFormed b hb
    refine ⟨b.screen.messages, ?_, fun c hc hall' hq currentUser => ?_⟩
    · have hperm : b.snapshot.Perm
          ((s.settled db σ₀).filter fun d => (d.data dateField).isSome) := by
        refine (List.perm_ext_iff_of_nodup hwf.snapshot.nodup.of_map
          ((nodup_settled hdb hinv).of_map.filter _)).mpr fun d => ?_
        rw [hall d, hstored d, List.mem_filter]
      rw [← hsettled, ← messagesOf_dated, hwf.messages]
      exact (hperm.map _).filterMap _
    · have hwf' := hinv.wellFormed c hc
      have hperm : c.snapshot.Perm b.snapshot :=
        (List.perm_ext_iff_of_nodup hwf'.snapshot.nodup.of_map hwf.snapshot.nodup.of_map).mpr
          fun d => (hall' d).trans (hall d).symm
      have heq : c.snapshot = b.snapshot := Ordered.eq_of_pairwise hwf'.snapshot.pairwise
        hwf.snapshot.pairwise hperm hwf'.snapshot.has_field hwf'.snapshot.nodup
      rw [cells_of_reloaded hwf'.reloaded hq, hwf'.messages, heq, ← hwf.messages]
  · exact ⟨_, List.Perm.refl _, fun c hc hall => absurd ⟨c, hc, hall⟩ hex⟩

theorem screens_agree_welcome : ∃ (s : Chat (List Entry)) (c c' : Client)
    (messages : List Message),
    Run.run (Chat.step ledger) (Chat.launch welcome) twoScreens = .ok s ∧ s.clients = [c, c'] ∧
      messages.Perm [⟨"a@b.c", 5, "Welcome"⟩, ⟨"a@b.c", 7, "Hi"⟩, ⟨"d@e.f", 8, "Yo"⟩] ∧
      c.screen.cells (some "a@b.c") = .ok (messages.map (MessageCell.of (some "a@b.c"))) ∧
      c'.screen.cells (some "a@b.c") = .ok (messages.map (MessageCell.of (some "a@b.c"))) := by
  have hrun : Run.run (Chat.step ledger) (Chat.launch welcome) twoScreens = .ok _ := rfl
  obtain ⟨messages, hperm, hagree⟩ := screens_agree ledger_lawful (List.Subset.refl _) hrun
    (List.forall_mem_cons.mpr ⟨rfl, List.forall_mem_singleton.mpr rfl⟩)
  exact ⟨_, _, _, messages, hrun, rfl, hperm,
    hagree _ List.mem_cons_self (fun d => Ordered.mem_view) (by decide) _,
    hagree _ (List.mem_cons_of_mem _ List.mem_cons_self) (fun d => Ordered.mem_view) (by decide) _⟩

end Results

end IosDevBootcamp.FlashChat
