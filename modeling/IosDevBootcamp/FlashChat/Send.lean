import Mathlib.Data.List.Nodup
import Mathlib.Data.List.Perm.Basic
import IosDevBootcamp.FlashChat.Defs

/-!
# What happens to a draft

A send is acknowledged later than it is tapped, and the field is cleared later still, so what the
user does in between decides whether a draft is sent twice or erased unsent.  `Patient` is what the
user must not do; a patient user is safe whatever the order of completions and closures, and any
other step of the user is unsafe for one of those orders.
-/

namespace IosDevBootcamp.FlashChat

open IosDevBootcamp.Lib IosDevBootcamp.Lib.Run ChatViewController

def drafts (l : List Outgoing) : List ℕ := l.filterMap (·.draft)

/-- **No draft is lost or sent twice**: each was saved at most once, and those erased were saved. -/
structure Kept (s : ChatViewController) : Prop where
  once : (drafts s.saved).Nodup
  erased : ∀ d ∈ s.erased, d ∈ drafts s.saved

/-- **What a patient user does.**  Send is not tapped on a draft that is in flight or saved, and
the field is not edited while a call is in flight or a clearing closure is queued. -/
def Patient (s : ChatViewController) : Event → Prop
  | .edit _ => s.inFlight = [] ∧ .clearText ∉ s.mainQueue
  | .sendPressed (some _) _ =>
    ∀ d, s.messageTextfield.draft = some d → d ∉ drafts s.inFlight ∧ d ∉ drafts s.saved
  | _ => True

/-- The event is not a step of the user. -/
def Event.ofEnvironment : Event → Bool
  | .edit _ | .sendPressed _ _ => false
  | _ => true

lemma patient_of_environment (s : ChatViewController) {e : Event} (h : e.ofEnvironment = true) :
    Patient s e := by
  cases e with
  | edit text => cases h
  | sendPressed currentUser now => cases h
  | complete i error => trivial
  | snapshot documents error => trivial
  | runMain => trivial
  | cellForRow row currentUser => trivial

section Drafts

variable {l : List Outgoing} {o : Outgoing} {d i : ℕ}

lemma drafts_append (l l' : List Outgoing) : drafts (l ++ l') = drafts l ++ drafts l' :=
  List.filterMap_append

lemma mem_drafts : d ∈ drafts l ↔ ∃ o ∈ l, o.draft = some d := List.mem_filterMap

lemma drafts_singleton (o : Outgoing) : drafts [o] = o.draft.toList := by
  cases h : o.draft <;> simp [drafts, h]

/-- Taking a document out of a list takes its draft out. -/
lemma drafts_perm_eraseIdx (h : l[i]? = some o) :
    (drafts l).Perm (o.draft.toList ++ drafts (l.eraseIdx i)) := by
  obtain ⟨hi, rfl⟩ := List.getElem?_eq_some_iff.mp h
  have hp : l.Perm (l[i] :: l.eraseIdx i) := (List.getElem_cons_eraseIdx_perm hi).symm
  have hd := hp.filterMap (·.draft)
  rw [← List.singleton_append, List.filterMap_append] at hd
  rwa [← drafts_singleton]

end Drafts

/-! ### The invariant of a patient user -/

/-- Every draft was sent at most once, the drafts are numbered below `edits`, what is in flight
comes from the field, and a queued closure finds a saved draft or none. -/
structure Inv (s : ChatViewController) : Prop where
  nodup : (drafts s.saved ++ drafts s.inFlight).Nodup
  sent_lt : ∀ d ∈ drafts s.saved ++ drafts s.inFlight, d < s.edits
  field_lt : ∀ d, s.messageTextfield.draft = some d → d < s.edits
  inFlight : ∀ o ∈ s.inFlight, ∀ d, s.messageTextfield.draft = some d → o.draft = some d
  queued : .clearText ∈ s.mainQueue → ∀ d, s.messageTextfield.draft = some d →
    d ∈ drafts s.saved
  erased : ∀ d ∈ s.erased, d ∈ drafts s.saved

lemma Inv.kept {s : ChatViewController} (h : Inv s) : Kept s :=
  ⟨(List.nodup_append.mp h.nodup).1, h.erased⟩

lemma inv_launch : Inv launch := by
  constructor <;> simp [launch, drafts]

lemma Inv.edit {s : ChatViewController} (h : Inv s) (hp : s.inFlight = [] ∧
    .clearText ∉ s.mainQueue) (text : String) :
    Inv { s with messageTextfield := ⟨text, some s.edits⟩, edits := s.edits + 1 } where
  nodup := h.nodup
  sent_lt d hd := Nat.lt_succ_of_lt (h.sent_lt d hd)
  field_lt d hd := by
    obtain rfl : s.edits = d := Option.some.inj hd
    exact Nat.lt_succ_self _
  inFlight o ho := by
    rw [hp.1] at ho
    cases ho
  queued hq := absurd hq hp.2
  erased := h.erased

lemma Inv.send {s : ChatViewController} (h : Inv s)
    (hp : ∀ d, s.messageTextfield.draft = some d → d ∉ drafts s.inFlight ∧ d ∉ drafts s.saved)
    (o : Outgoing) (ho : o.draft = s.messageTextfield.draft) :
    Inv { s with inFlight := s.inFlight ++ [o] } where
  nodup := by
    rw [drafts_append, drafts_singleton, ho, ← List.append_assoc]
    cases hd : s.messageTextfield.draft with
    | none => simpa using h.nodup
    | some d =>
      have hfresh : d ∉ drafts s.saved ++ drafts s.inFlight := by
        have := hp d hd
        simp only [List.mem_append, not_or]
        exact ⟨this.2, this.1⟩
      simpa using List.nodup_append.mpr ⟨h.nodup, List.nodup_singleton d, by
        intro x hx y hy hxy
        rw [List.mem_singleton.mp hy] at hxy
        exact hfresh (hxy ▸ hx)⟩
  sent_lt d hd := by
    rw [drafts_append, drafts_singleton, ho, ← List.append_assoc, List.mem_append] at hd
    rcases hd with hd | hd
    · exact h.sent_lt d hd
    · exact h.field_lt d (by simpa using hd)
  field_lt := h.field_lt
  inFlight o' ho' d hd := by
    rcases List.mem_append.mp ho' with ho' | ho'
    · exact h.inFlight o' ho' d hd
    · rw [List.mem_singleton.mp ho', ho, hd]
  queued := h.queued
  erased := h.erased

lemma Inv.complete {s : ChatViewController} (h : Inv s) {i : ℕ} {o : Outgoing}
    (hi : s.inFlight[i]? = some o) (error : Bool) :
    Inv ({ s with inFlight := s.inFlight.eraseIdx i }.completion o error) := by
  have hperm := drafts_perm_eraseIdx hi
  have ho : o ∈ s.inFlight := List.mem_of_getElem? hi
  have hsub : ∀ o' ∈ s.inFlight.eraseIdx i, o' ∈ s.inFlight :=
    fun o' => List.mem_of_mem_eraseIdx
  cases error with
  | true =>
    have hd : ∀ d ∈ drafts (s.inFlight.eraseIdx i), d ∈ drafts s.inFlight :=
      fun d hd => hperm.mem_iff.mpr (List.mem_append_right _ hd)
    refine ⟨?_, ?_, h.field_lt, fun o' ho' => h.inFlight o' (hsub o' ho'), h.queued, h.erased⟩
    · have hn := (hperm.append_left (drafts s.saved)).nodup_iff.mp h.nodup
      exact hn.sublist (List.Sublist.append_left (List.sublist_append_right _ _) _)
    · intro d hd'
      refine h.sent_lt d ?_
      rcases List.mem_append.mp hd' with hd' | hd'
      · exact List.mem_append_left _ hd'
      · exact List.mem_append_right _ (hd d hd')
  | false =>
    -- the draft moves from the calls in flight to the saved ones
    have hmove : (drafts s.saved ++ drafts s.inFlight).Perm
        (drafts (s.saved ++ [o]) ++ drafts (s.inFlight.eraseIdx i)) := by
      rw [drafts_append, drafts_singleton, List.append_assoc]
      exact hperm.append_left _
    have hsaved : ∀ d ∈ drafts s.saved, d ∈ drafts (s.saved ++ [o]) := by
      intro d hd
      rw [drafts_append]
      exact List.mem_append_left _ hd
    refine ⟨hmove.nodup_iff.mp h.nodup, fun d hd => h.sent_lt d (hmove.mem_iff.mpr hd),
      h.field_lt, fun o' ho' => h.inFlight o' (hsub o' ho'), ?_,
      fun d hd => hsaved d (h.erased d hd)⟩
    intro _ d hd
    exact mem_drafts.mpr ⟨o, by simp [completion], h.inFlight o ho d hd⟩

lemma Inv.clearText {s : ChatViewController} {queue : List Closure} (h : Inv s)
    (hq : s.mainQueue = .clearText :: queue) : Inv { s with mainQueue := queue }.clearText where
  nodup := h.nodup
  sent_lt := h.sent_lt
  field_lt _ hd := by cases hd
  inFlight _ _ _ hd := by cases hd
  queued _ _ hd := by cases hd
  erased d hd := by
    rcases List.mem_append.mp hd with hd | hd
    · exact h.erased d hd
    · exact h.queued (by rw [hq]; exact List.mem_cons_self) d (by simpa using hd)

/-- What the invariant reads is untouched by the messages, the rows and the queued reloads. -/
lemma Inv.congr {s t : ChatViewController} (h : Inv s)
    (hf : t.messageTextfield = s.messageTextfield) (hi : t.inFlight = s.inFlight)
    (he : t.edits = s.edits) (hs : t.saved = s.saved) (hx : t.erased = s.erased)
    (hq : .clearText ∈ t.mainQueue → .clearText ∈ s.mainQueue) : Inv t where
  nodup := by rw [hs, hi]; exact h.nodup
  sent_lt := by rw [hs, hi, he]; exact h.sent_lt
  field_lt := by rw [hf, he]; exact h.field_lt
  inFlight := by rw [hi, hf]; exact h.inFlight
  queued hm := by rw [hf, hs]; exact h.queued (hq hm)
  erased := by rw [hx, hs]; exact h.erased

/-- A patient step keeps the invariant. -/
lemma Inv.step {s s' : ChatViewController} (h : Inv s) {e : Event} (hp : Patient s e)
    (hs : step s e = .ok s') : Inv s' := by
  cases e with
  | edit text =>
    cases hs
    exact h.edit hp text
  | sendPressed currentUser now =>
    cases hs
    cases currentUser with
    | none => exact h
    | some messageSender => exact h.send hp _ rfl
  | complete i error =>
    simp only [ChatViewController.step] at hs
    split at hs
    · cases hs
    · rename_i o hi
      cases hs
      exact h.complete hi error
  | snapshot documents error =>
    cases hs
    cases error with
    | true => exact h
    | false =>
      cases documents with
      | none => exact h
      | some documents => exact h.congr rfl rfl rfl rfl rfl (by simp [snapshotListener])
  | runMain =>
    simp only [ChatViewController.step] at hs
    split at hs
    · cases hs
    · rename_i queue hq
      cases hs
      exact h.clearText hq
    · rename_i queue hq
      simp only [reloadTable] at hs
      split at hs
      · cases hs
        exact h.congr rfl rfl rfl rfl rfl (by simp [hq])
      · cases hs
  | cellForRow row currentUser =>
    simp only [ChatViewController.step] at hs
    split at hs
    · cases hc : s.cellForRowAt row currentUser with
      | error f => rw [hc] at hs; cases hs
      | ok cell => rw [hc] at hs; cases hs; exact h
    · cases hs

lemma inv_of_run {s t : ChatViewController} {es : List Event} (hs : Inv s)
    (hp : Along ChatViewController.step Patient s es)
    (h : run ChatViewController.step s es = .ok t) : Inv t :=
  run_inv_along (fun _ _ _ hi hp hst => hi.step hp hst) hs hp h

/-! ### What an impatient step risks -/

/-- From `s` the completions, snapshots and closures alone can lose or repeat a draft. -/
def AtRisk (s : ChatViewController) : Prop :=
  ∃ es : List Event, (∀ e ∈ es, e.ofEnvironment = true) ∧
    ∃ t, run ChatViewController.step s es = .ok t ∧ ¬ Kept t

lemma AtRisk.of_step {s s' : ChatViewController} {e : Event} (he : e.ofEnvironment = true)
    (hs : ChatViewController.step s e = .ok s') (h : AtRisk s') : AtRisk s := by
  obtain ⟨es, hes, t, hrun, ht⟩ := h
  refine ⟨e :: es, ?_, t, ?_, ht⟩
  · intro f hf
    rcases List.mem_cons.mp hf with rfl | hf
    · exact he
    · exact hes f hf
  · rw [run_cons_ok hs, hrun]

/-- The main queue reaches a queued clearing closure, as long as there are rows to scroll to. -/
lemma atRisk_of_closure_rows {s : ChatViewController} {d : ℕ} (hm : s.messages ≠ [])
    (hq : .clearText ∈ s.mainQueue) (hd : s.messageTextfield.draft = some d)
    (hs : d ∉ drafts s.saved) : AtRisk s := by
  obtain ⟨queue, hqueue⟩ : ∃ queue, s.mainQueue = queue := ⟨_, rfl⟩
  induction queue generalizing s with
  | nil =>
    rw [hqueue] at hq
    cases hq
  | cons c queue ih =>
    cases c with
    | clearText =>
      refine ⟨[.runMain], by simp [Event.ofEnvironment], { s with mainQueue := queue }.clearText,
        ?_, ?_⟩
      · rw [run_singleton]
        simp only [ChatViewController.step, hqueue]
      · intro hk
        exact hs (hk.erased d (by simp [ChatViewController.clearText, hd]))
    | reloadTable =>
      have hlen : 0 < s.messages.length := List.length_pos_iff.mpr hm
      have hstep : ChatViewController.step s .runMain =
          .ok { s with mainQueue := queue, tableView := ⟨s.messages.length⟩ } := by
        simp only [ChatViewController.step, hqueue]
        exact reloadTable_of_pos hlen
      rw [hqueue] at hq
      have hq' : .clearText ∈ queue := by simpa using hq
      exact AtRisk.of_step rfl hstep (ih hm hq' hd hs rfl)

lemma atRisk_of_closure {s : ChatViewController} {d : ℕ} (hq : .clearText ∈ s.mainQueue)
    (hd : s.messageTextfield.draft = some d) (hs : d ∉ drafts s.saved) : AtRisk s := by
  -- a snapshot with one message comes first, so that the queued reloads have a row
  let data : Document := fun field =>
    if field = dateField then some (.number 0) else some (.string "")
  refine AtRisk.of_step (e := .snapshot (some [data]) false) rfl rfl ?_
  refine atRisk_of_closure_rows (d := d) ?_ ?_ hd hs
  · change List.foldl appendDocument [] [data] ≠ []
    decide
  · exact List.mem_append_left _ hq

lemma atRisk_of_saved {s : ChatViewController} {i d : ℕ} {o : Outgoing}
    (hi : s.inFlight[i]? = some o) (hd : o.draft = some d) (hs : d ∈ drafts s.saved) :
    AtRisk s := by
  refine ⟨[.complete i false], by simp [Event.ofEnvironment],
    { s with inFlight := s.inFlight.eraseIdx i }.completion o false, ?_, ?_⟩
  · rw [run_singleton]
    simp only [ChatViewController.step, hi]
  · intro hk
    have hn : (drafts (s.saved ++ [o])).Nodup := hk.once
    rw [drafts_append, drafts_singleton, hd] at hn
    exact (List.nodup_append.mp hn).2.2 d hs d (by simp) rfl

lemma atRisk_of_edit {s : ChatViewController} (h : Inv s) {text : String}
    (hp : ¬ Patient s (.edit text)) :
    AtRisk { s with messageTextfield := ⟨text, some s.edits⟩, edits := s.edits + 1 } := by
  have hnew : s.edits ∉ drafts s.saved ++ drafts s.inFlight := fun hd => by
    have := h.sent_lt _ hd
    omega
  rw [List.mem_append, not_or] at hnew
  by_cases hi : s.inFlight = []
  · have hq : .clearText ∈ s.mainQueue := by
      by_contra hq
      exact hp ⟨hi, hq⟩
    exact atRisk_of_closure hq rfl hnew.1
  · obtain ⟨o, l, ho⟩ := List.exists_cons_of_ne_nil hi
    -- the first call in flight succeeds, and its closure finds the new draft
    have hstep : ChatViewController.step
        { s with messageTextfield := ⟨text, some s.edits⟩, edits := s.edits + 1 }
        (.complete 0 false) = .ok ({ s with
          messageTextfield := ⟨text, some s.edits⟩, edits := s.edits + 1, inFlight := l
          }.completion o false) := by
      simp [ChatViewController.step, ho]
    refine AtRisk.of_step rfl hstep (atRisk_of_closure (d := s.edits) ?_ rfl ?_)
    · simp [completion]
    · intro hd
      simp only [completion, drafts_append, drafts_singleton, Bool.false_eq_true, if_false,
        List.mem_append] at hd
      rcases hd with hd | hd
      · exact hnew.1 hd
      · have ho' : s.edits ∈ drafts s.inFlight :=
          mem_drafts.mpr ⟨o, by simp [ho], by simpa using hd⟩
        exact hnew.2 ho'

lemma atRisk_of_send {s : ChatViewController} {d : ℕ} {o : Outgoing} (hd : o.draft = some d)
    (hp : d ∈ drafts s.inFlight ∨ d ∈ drafts s.saved) :
    AtRisk { s with inFlight := s.inFlight ++ [o] } := by
  rcases hp with hp | hp
  · obtain ⟨o', ho', hd'⟩ := mem_drafts.mp hp
    obtain ⟨i, hi⟩ := List.mem_iff_getElem?.mp ho'
    have hlt : i < s.inFlight.length := (List.getElem?_eq_some_iff.mp hi).1
    -- the earlier call succeeds first, then the new one, which has moved up by one place
    have hstep : ChatViewController.step { s with inFlight := s.inFlight ++ [o] }
        (.complete i false) = .ok ({ s with
          inFlight := s.inFlight.eraseIdx i ++ [o] }.completion o' false) := by
      simp only [ChatViewController.step, List.getElem?_append_left hlt, hi,
        List.eraseIdx_append_of_lt_length hlt]
    refine AtRisk.of_step rfl hstep
      (atRisk_of_saved (i := (s.inFlight.eraseIdx i).length) (o := o) ?_ hd ?_)
    · simp [completion]
    · exact mem_drafts.mpr ⟨o', by simp [completion], hd'⟩
  · exact atRisk_of_saved (i := s.inFlight.length) (o := o) (by simp) hd hp

/-- An impatient step puts a draft at risk. -/
lemma exists_step_atRisk {s : ChatViewController} (h : Inv s) {e : Event} (hp : ¬ Patient s e) :
    ∃ s', ChatViewController.step s e = .ok s' ∧ AtRisk s' := by
  cases e with
  | edit text => exact ⟨_, rfl, atRisk_of_edit h hp⟩
  | sendPressed currentUser now =>
    cases currentUser with
    | none => exact absurd trivial hp
    | some messageSender =>
      simp only [Patient, not_forall, not_and_or, not_not] at hp
      obtain ⟨d, hd, hp⟩ := hp
      exact ⟨_, rfl, atRisk_of_send hd hp⟩
  | complete i error => exact absurd trivial hp
  | snapshot documents error => exact absurd trivial hp
  | runMain => exact absurd trivial hp
  | cellForRow row currentUser => exact absurd trivial hp

/-! ### Drafts of a run -/

/-- **A patient user's drafts are kept.**  After every run in which the user is patient no draft
was sent twice and none was erased unsent; and patience is exactly what is needed, since a step
leaves no draft at risk just when it is a patient one. -/
theorem kept_of_patient {es : List Event} {s : ChatViewController}
    (h : run ChatViewController.step launch es = .ok s)
    (hp : Along ChatViewController.step Patient launch es) :
    Kept s ∧ ∀ e s', ChatViewController.step s e = .ok s' → (Patient s e ↔ ¬ AtRisk s') := by
  have hi : Inv s := inv_of_run inv_launch hp h
  refine ⟨hi.kept, fun e s' hs => ⟨fun he hr => ?_, fun hr => ?_⟩⟩
  · obtain ⟨fs, hfs, t, hrun, ht⟩ := hr
    have hquiet : ∀ u, Along ChatViewController.step Patient u fs :=
      along_of_forall fun u f hf => patient_of_environment u (hfs f hf)
    exact ht (inv_of_run (hi.step he hs) (hquiet s') hrun).kept
  · by_contra he
    obtain ⟨u, hu, hrisk⟩ := exists_step_atRisk hi he
    rw [hs] at hu
    cases hu
    exact hr hrisk

/-- A send that fails, the same draft sent again, and a draft typed once the field is cleared. -/
def resent : List Event :=
  [.edit "hi", .sendPressed (some "a@b.c") 0, .complete 0 true, .sendPressed (some "a@b.c") 1,
    .complete 0 false, .runMain, .edit "there"]

theorem kept_of_patient_resent :
    ∃ s, run ChatViewController.step launch resent = .ok s ∧ drafts s.saved = [0] ∧
      s.erased = [0] ∧ Kept s := by
  refine ⟨_, rfl, rfl, rfl,
    (kept_of_patient (show run ChatViewController.step launch resent = .ok _ from rfl) ?_).1⟩
  simp [resent, Along, Patient, launch, ChatViewController.step, ChatViewController.sendPressed,
    completion, ChatViewController.clearText, drafts]

/-- A second tap on Send before the first is acknowledged sends the draft twice, and a text typed
in that time is erased unsent. -/
theorem impatient_not_kept :
    (∃ s, run ChatViewController.step launch [.edit "hi", .sendPressed (some "a@b.c") 0,
      .sendPressed (some "a@b.c") 1, .complete 0 false, .complete 0 false] = .ok s ∧
      drafts s.saved = [0, 0] ∧ ¬ Kept s) ∧
    ∃ s, run ChatViewController.step launch [.edit "hi", .sendPressed (some "a@b.c") 0,
      .edit "there", .complete 0 false, .runMain] = .ok s ∧
      drafts s.saved = [0] ∧ s.erased = [1] ∧ ¬ Kept s := by
  refine ⟨⟨_, rfl, rfl, fun hk => ?_⟩, ⟨_, rfl, rfl, rfl, fun hk => ?_⟩⟩
  · exact absurd hk.once (by decide)
  · exact absurd (hk.erased 1 (by decide)) (by decide)

end IosDevBootcamp.FlashChat
