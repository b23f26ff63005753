import IosDevBootcamp.InspoQuotes.Defs
import IosDevBootcamp.Lib.Run

/-!
# The purchase across crashes

The handler statement by statement, in a process that may die between any two of them.  What
survives are the stored flags and StoreKit's transactions; StoreKit may change the state of a
transaction that is purchasing or deferred at any moment, and delivers any unfinished transactions
to a live process, again after a relaunch.
-/

namespace IosDevBootcamp.InspoQuotes

open IosDevBootcamp.Lib.Run

/-! ### The handler, one statement at a time -/

/-- Where the handler stands.  A transaction is named by its id, and `rest` are the transactions
the loop has not reached. -/
inductive Pc
  | idle
  | loop (rest : List ℕ)
  /-- At `UserDefaults.standard.set(true, forKey: productID)`. -/
  | grant (t : ℕ) (rest : List ℕ)
  /-- At `quotesToShow.append(contentsOf: premiumQuotes)`. -/
  | append (t : ℕ) (rest : List ℕ)
  /-- At `tableView.reloadData()`. -/
  | reload (t : ℕ) (rest : List ℕ)
  /-- At the `finishTransaction` of the first branch. -/
  | finish (t : ℕ) (rest : List ℕ)
  /-- At the test of the second branch. -/
  | testFailed (t : ℕ) (rest : List ℕ)
  /-- At the `finishTransaction` of the second branch. -/
  | finishFailed (t : ℕ) (rest : List ℕ)
  /-- At `print("failed")`. -/
  | log (t : ℕ) (rest : List ℕ)
  deriving DecidableEq, Repr

structure Process where
  table : QuoteTable
  pc : Pc

/-- The device and StoreKit.  `state` knows the transactions there are, `finished` the state each
was in when it was finished; `process` is `none` while the app does not run. -/
structure World where
  defaults : UserDefaults
  state : ℕ → Option TransactionState
  finished : List Transaction
  process : Option Process

/-- What can happen next. -/
inductive Event
  /-- A payment or a restore makes a transaction. -/
  | submit (t : ℕ) (st : TransactionState)
  /-- StoreKit settles a transaction that is purchasing or deferred. -/
  | settle (t : ℕ) (st : TransactionState)
  /-- StoreKit calls `paymentQueue(_:updatedTransactions:)`. -/
  | deliver (ts : List ℕ)
  | exec
  | crash
  | relaunch

namespace World

/-- What the handler and `viewDidLoad` read and write. -/
def app (w : World) (table : QuoteTable) : App := ⟨w.defaults, table, w.finished⟩

/-- The world with what `viewDidLoad` or a statement of the handler has left. -/
def withApp (w : World) (s : App) (pc : Pc) : World :=
  { w with defaults := s.defaults, finished := s.finished, process := some ⟨s.table, pc⟩ }

def exec (w : World) (p : Process) : Except Unit World :=
  let s := w.app p.table
  match p.pc with
  | .idle => .error ()
  | .loop [] => .ok (w.withApp s .idle)
  | .loop (t :: rest) =>
    match w.state t with
    | none => .error ()
    | some st =>
      if st = .purchased ∨ st = .restored then .ok (w.withApp s (.grant t rest))
      else .ok (w.withApp s (.testFailed t rest))
  | .grant t rest => .ok (w.withApp s.setPurchased (.append t rest))
  | .append t rest => .ok (w.withApp s.showPremiumQuotes (.reload t rest))
  | .reload t rest => .ok (w.withApp s (.finish t rest))
  | .finish t rest =>
    match w.state t with
    | none => .error ()
    | some st => .ok (w.withApp (s.finishTransaction ⟨t, st⟩) (.loop rest))
  | .testFailed t rest =>
    match w.state t with
    | none => .error ()
    | some st =>
      if st = .failed then .ok (w.withApp s (.finishFailed t rest))
      else .ok (w.withApp s (.loop rest))
  | .finishFailed t rest =>
    match w.state t with
    | none => .error ()
    | some st => .ok (w.withApp (s.finishTransaction ⟨t, st⟩) (.log t rest))
  | .log _ rest => .ok (w.withApp s (.loop rest))

/-- The transaction is known and has not been finished. -/
def Unfinished (w : World) (t : ℕ) : Prop := (w.state t).isSome ∧ t ∉ w.finished.map (·.id)

instance (w : World) (t : ℕ) : Decidable (w.Unfinished t) := inferInstanceAs (Decidable (_ ∧ _))

/-- One event; `.error ()` when it cannot happen. -/
def step (w : World) : Event → Except Unit World
  | .submit t st =>
    if w.state t = none then .ok { w with state := Function.update w.state t (some st) }
    else .error ()
  | .settle t st =>
    if w.state t = some .purchasing ∨ w.state t = some .deferred then
      .ok { w with state := Function.update w.state t (some st) }
    else .error ()
  | .deliver ts =>
    match w.process with
    | some ⟨table, .idle⟩ =>
      if ∀ t ∈ ts, w.Unfinished t then .ok { w with process := some ⟨table, .loop ts⟩ }
      else .error ()
    | _ => .error ()
  | .exec =>
    match w.process with
    | some p => w.exec p
    | none => .error ()
  | .crash =>
    match w.process with
    | some _ => .ok { w with process := none }
    | none => .error ()
  | .relaunch =>
    match w.process with
    | some _ => .error ()
    | none => .ok (w.withApp (w.app .fresh).viewDidLoad .idle)

/-- A device that stores the flags `d` and has not run the app, with no transaction yet. -/
def start (d : UserDefaults) : World := ⟨d, fun _ => none, [], none⟩

def purchased (w : World) : Bool := w.defaults productID

end World

/-! ### What a statement does -/

namespace World

variable {w w' : World} {p : Process}

def Paid (w : World) (t : ℕ) : Prop := ∃ st, w.state t = some st ∧ st.isPaid = true

/-- What the handler knows where it stands: in the first branch the transaction is paid, and past
the first statement the flag is set; in the second branch it has failed. -/
def Knows (w : World) : Pc → Prop
  | .grant t _ => w.Paid t
  | .append t _ | .reload t _ | .finish t _ => w.Paid t ∧ w.purchased = true
  | .finishFailed t _ | .log t _ => w.state t = some .failed
  | .idle | .loop _ | .testFailed _ _ => True

/-- What one statement does to what survives a crash. -/
inductive Durable (w : World) (pc : Pc) (w' : World) : Prop
  | same : w'.defaults = w.defaults → w'.finished = w.finished → Durable w pc w'
  | grants (t : ℕ) (rest : List ℕ) : pc = .grant t rest →
      w'.defaults = Function.update w.defaults productID true → w'.finished = w.finished →
      Durable w pc w'
  | finishes (t : ℕ) (rest : List ℕ) (st : TransactionState) :
      (pc = .finish t rest ∨ pc = .finishFailed t rest) → w.state t = some st →
      w'.defaults = w.defaults → w'.finished = w.finished ++ [⟨t, st⟩] → Durable w pc w'

/-- **What a statement does.**  It leaves StoreKit's states alone, does one of the three things to
what survives, and goes on to a place where the handler knows what it should. -/
lemma exec_spec (h : w.exec p = .ok w') (hk : w.Knows p.pc) :
    w'.state = w.state ∧ Durable w p.pc w' ∧ ∃ p', w'.process = some p' ∧ w'.Knows p'.pc := by
  obtain ⟨table, pc⟩ := p
  cases pc with
  | idle => cases h
  | loop rest =>
    cases rest with
    | nil =>
      cases h
      exact ⟨rfl, .same rfl rfl, _, rfl, trivial⟩
    | cons t rest =>
      cases hst : w.state t with
      | none =>
        simp only [exec, hst] at h
        cases h
      | some st =>
        simp only [exec, hst] at h
        split at h
        · next hpaid =>
          cases h
          have hst' : st.isPaid = true := by simpa [TransactionState.isPaid] using hpaid
          exact ⟨rfl, .same rfl rfl, _, rfl, st, hst, hst'⟩
        · cases h
          exact ⟨rfl, .same rfl rfl, _, rfl, trivial⟩
  | grant t rest =>
    cases h
    exact ⟨rfl, .grants t rest rfl rfl rfl, _, rfl, hk,
      App.setPurchased_defaults (w.app table)⟩
  | append t rest =>
    cases h
    exact ⟨rfl, .same rfl rfl, _, rfl, hk⟩
  | reload t rest =>
    cases h
    exact ⟨rfl, .same rfl rfl, _, rfl, hk⟩
  | finish t rest =>
    cases hst : w.state t with
    | none =>
      simp only [exec, hst] at h
      cases h
    | some st =>
      simp only [exec, hst] at h
      cases h
      exact ⟨rfl, .finishes t rest st (.inl rfl) hst rfl rfl, _, rfl, trivial⟩
  | testFailed t rest =>
    cases hst : w.state t with
    | none =>
      simp only [exec, hst] at h
      cases h
    | some st =>
      simp only [exec, hst] at h
      split at h
      · next hfailed =>
        cases h
        subst hfailed
        exact ⟨rfl, .same rfl rfl, _, rfl, hst⟩
      · cases h
        exact ⟨rfl, .same rfl rfl, _, rfl, trivial⟩
  | finishFailed t rest =>
    cases hst : w.state t with
    | none =>
      simp only [exec, hst] at h
      cases h
    | some st =>
      simp only [exec, hst] at h
      cases h
      exact ⟨rfl, .finishes t rest st (.inr rfl) hst rfl rfl, _, rfl, hk⟩
  | log t rest =>
    cases h
    exact ⟨rfl, .same rfl rfl, _, rfl, trivial⟩

/-- What the other events do: they leave the flag and the finished transactions alone, settle only
what is purchasing or deferred, and leave the handler where it stands, or at rest. -/
lemma step_spec {e : Event} (h : w.step e = .ok w') :
    (∃ p, e = .exec ∧ w.process = some p ∧ w.exec p = .ok w') ∨
    (w'.defaults = w.defaults ∧ w'.finished = w.finished ∧
      (∀ t st, w.state t = some st → st ≠ .purchasing → st ≠ .deferred → w'.state t = some st) ∧
      ∀ p', w'.process = some p' →
        w.process = some p' ∨ p'.pc = .idle ∨ ∃ rest, p'.pc = .loop rest) := by
  cases e with
  | submit t st =>
    right
    simp only [step] at h
    split at h
    · next hnone =>
      cases h
      refine ⟨rfl, rfl, fun u su hu _ _ => ?_, fun p' hp' => .inl hp'⟩
      have hne : u ≠ t := by
        rintro rfl
        rw [hnone] at hu
        cases hu
      exact (Function.update_of_ne hne _ _).trans hu
    · cases h
  | settle t st =>
    right
    simp only [step] at h
    split at h
    · next hwait =>
      cases h
      refine ⟨rfl, rfl, fun u su hu hp hd => ?_, fun p' hp' => .inl hp'⟩
      have hne : u ≠ t := by
        rintro rfl
        rw [hu] at hwait
        simp [hp, hd] at hwait
      exact (Function.update_of_ne hne _ _).trans hu
    · cases h
  | deliver ts =>
    right
    simp only [step] at h
    split at h
    · split at h
      · cases h
        refine ⟨rfl, rfl, fun _ _ hu _ _ => hu, fun p' hp' => .inr (.inr ⟨ts, ?_⟩)⟩
        cases hp'
        rfl
      · cases h
    · cases h
  | exec =>
    left
    simp only [step] at h
    split at h
    · next p hp => exact ⟨p, rfl, hp, h⟩
    · cases h
  | crash =>
    right
    simp only [step] at h
    split at h
    · cases h
      exact ⟨rfl, rfl, fun _ _ hu _ _ => hu, fun p' hp' => by cases hp'⟩
    · cases h
  | relaunch =>
    right
    simp only [step] at h
    split at h
    · cases h
    · cases h
      refine ⟨App.viewDidLoad_defaults _, App.viewDidLoad_finished _, fun _ _ hu _ _ => hu,
        fun p' hp' => .inr (.inl ?_)⟩
      cases hp'
      rfl

/-! ### The invariant -/

/-- A finished transaction had failed, or was paid and the flag is set; and the handler knows what
it should. -/
structure Inv (w : World) : Prop where
  finished : ∀ t ∈ w.finished, t.transactionState = .failed ∨
    (t.transactionState.isPaid = true ∧ w.purchased = true)
  knows : ∀ p, w.process = some p → w.Knows p.pc

lemma inv_start (d : UserDefaults) : (start d).Inv :=
  ⟨fun _ ht => (by cases ht), fun _ hp => (by cases hp)⟩

/-- What is known stays known while the flag and the settled states do. -/
lemma Knows.mono {pc : Pc} (h : w.Knows pc) (hflag : w.purchased = true → w'.purchased = true)
    (hstate : ∀ t st, w.state t = some st → st ≠ .purchasing → st ≠ .deferred →
      w'.state t = some st) : w'.Knows pc := by
  have hpaid : ∀ t, w.Paid t → w'.Paid t := by
    rintro t ⟨st, hst, hp⟩
    exact ⟨st, hstate t st hst (by rintro rfl; cases hp) (by rintro rfl; cases hp), hp⟩
  cases pc with
  | grant t rest => exact hpaid t h
  | append t rest => exact ⟨hpaid t h.1, hflag h.2⟩
  | reload t rest => exact ⟨hpaid t h.1, hflag h.2⟩
  | finish t rest => exact ⟨hpaid t h.1, hflag h.2⟩
  | finishFailed t rest => exact hstate t .failed h (by decide) (by decide)
  | log t rest => exact hstate t .failed h (by decide) (by decide)
  | idle => trivial
  | loop rest => trivial
  | testFailed t rest => trivial

/-- Nothing a statement does to what survives takes the flag back. -/
lemma Durable.purchased {pc : Pc} (h : Durable w pc w') (hw : w.purchased = true) :
    w'.purchased = true := by
  cases h with
  | same hd _ => rwa [World.purchased, hd]
  | grants t rest _ hd _ =>
    rw [World.purchased, hd]
    exact Function.update_self productID true w.defaults
  | finishes t rest st _ _ hd _ => rwa [World.purchased, hd]

/-- **No event takes the flag back.** -/
theorem step_purchased {e : Event} (hi : w.Inv) (h : w.step e = .ok w')
    (hw : w.purchased = true) : w'.purchased = true := by
  rcases step_spec h with ⟨p, -, hp, hexec⟩ | ⟨hd, -, -, -⟩
  · exact (exec_spec hexec (hi.knows p hp)).2.1.purchased hw
  · rwa [World.purchased, hd]

/-- **Every event keeps the invariant.** -/
theorem step_inv (w : World) (e : Event) (w' : World) (hi : w.Inv) (h : w.step e = .ok w') :
    w'.Inv := by
  have hflag : w.purchased = true → w'.purchased = true := step_purchased hi h
  have hkeep : ∀ t ∈ w.finished, t.transactionState = .failed ∨
      (t.transactionState.isPaid = true ∧ w'.purchased = true) := fun t ht =>
    (hi.finished t ht).imp_right fun hp => ⟨hp.1, hflag hp.2⟩
  rcases step_spec h with ⟨p, -, hp, hexec⟩ | ⟨hd, hf, hstate, hproc⟩
  · have hk := hi.knows p hp
    obtain ⟨-, hdur, p', hp', hk'⟩ := exec_spec hexec hk
    refine ⟨?_, fun q hq => ?_⟩
    · cases hdur with
      | same _ hf => rwa [hf]
      | grants t rest _ _ hf => rwa [hf]
      | finishes t rest st hpc hst _ hf =>
        rw [hf]
        intro u hu
        rcases List.mem_append.mp hu with hu | hu
        · exact hkeep u hu
        · obtain rfl : u = ⟨t, st⟩ := by simpa using hu
          rcases hpc with hpc | hpc
          · rw [hpc] at hk
            obtain ⟨⟨st', hst', hpaid⟩, hset⟩ := hk
            obtain rfl : st = st' := Option.some.inj (hst.symm.trans hst')
            exact .inr ⟨hpaid, hflag hset⟩
          · rw [hpc] at hk
            exact .inl (Option.some.inj (hst.symm.trans hk))
    · rw [hp'] at hq
      cases hq
      exact hk'
  · refine ⟨by rwa [hf], fun p' hp' => ?_⟩
    rcases hproc p' hp' with hsame | hpc | ⟨rest, hpc⟩
    · exact (hi.knows p' hsame).mono hflag hstate
    · rw [hpc]
      trivial
    · rw [hpc]
      trivial

/-- **No paid transaction is lost.**  In every state of every run: a finished transaction that was
paid implies the flag; the flag is never taken back; the only event that sets it is the first
statement of the first branch, on a paid transaction; and no transaction is finished while it is
purchasing or deferred. -/
theorem paid_never_lost {d : UserDefaults} {es : List Event}
    (h : run step (start d) es = .ok w) :
    (∀ t ∈ w.finished, t.transactionState.isPaid = true → w.purchased = true) ∧
    (∀ fs w', run step w fs = .ok w' → w.purchased = true → w'.purchased = true) ∧
    (∀ e w', w.step e = .ok w' → w.purchased = false → w'.purchased = true →
      ∃ p t rest, e = .exec ∧ w.process = some p ∧ p.pc = .grant t rest ∧ w.Paid t) ∧
    (∀ t ∈ w.finished, t.transactionState ≠ .purchasing ∧ t.transactionState ≠ .deferred) := by
  have hi : w.Inv := run_inv step_inv (inv_start d) h
  refine ⟨fun t ht hp => ?_, fun fs w' hrun hw => ?_, fun e w' hstep hw hw' => ?_, fun t ht => ?_⟩
  · rcases hi.finished t ht with hf | ⟨-, hset⟩
    · rw [hf] at hp
      cases hp
    · exact hset
  · have hboth : ∀ u e u', (Inv u ∧ u.purchased = true) → step u e = .ok u' →
        Inv u' ∧ u'.purchased = true := fun u e u' hu hs =>
      ⟨step_inv u e u' hu.1 hs, step_purchased hu.1 hs hu.2⟩
    exact (run_inv hboth ⟨hi, hw⟩ hrun).2
  · rcases step_spec hstep with ⟨p, he, hp, hexec⟩ | ⟨hd, -, -, -⟩
    · have hk := hi.knows p hp
      cases (exec_spec hexec hk).2.1 with
      | grants t rest hpc _ _ =>
        rw [hpc] at hk
        exact ⟨p, t, rest, he, hp, hpc, hk⟩
      | same hd _ =>
        rw [World.purchased, hd, ← World.purchased, hw] at hw'
        cases hw'
      | finishes t rest st _ _ hd _ =>
        rw [World.purchased, hd, ← World.purchased, hw] at hw'
        cases hw'
    · rw [World.purchased, hd, ← World.purchased, hw] at hw'
      cases hw'
  · rcases hi.finished t ht with hf | ⟨hp, -⟩
    · rw [hf]
      decide
    · constructor <;> intro hf <;> rw [hf] at hp <;> cases hp

/-- The process dies between the grant and `finishTransaction`; the transaction is delivered again
after the relaunch, and finished with the flag set. -/
theorem paid_never_lost_crash : ∃ u w,
    run step (start fun _ => false)
      [.relaunch, .submit 1 .purchased, .deliver [1], .exec, .exec, .crash] = .ok u ∧
    run step u [.relaunch, .deliver [1], .exec, .exec, .exec, .exec, .exec, .crash] = .ok w ∧
    u.finished = [] ∧ w.finished = [⟨1, .purchased⟩] ∧ w.purchased = true := by
  have hrun : run step (start fun _ => false)
      ([.relaunch, .submit 1 .purchased, .deliver [1], .exec, .exec, .crash] ++
        [.relaunch, .deliver [1], .exec, .exec, .exec, .exec, .exec, .crash]) = .ok _ := rfl
  exact ⟨_, _, rfl, rfl, rfl, rfl,
    (paid_never_lost hrun).1 ⟨1, .purchased⟩ (List.mem_singleton.mpr rfl) rfl⟩

/-! ### The statements against the whole handler -/

/-- The statements of one round of the loop do what `updateTransaction` does. -/
lemma exec_transaction {table : QuoteTable} {t : ℕ} {rest : List ℕ} {st : TransactionState}
    (hproc : w.process = some ⟨table, .loop (t :: rest)⟩) (hst : w.state t = some st) :
    ∃ n, run step w (List.replicate n .exec) =
      .ok (w.withApp ((w.app table).updateTransaction ⟨t, st⟩) (.loop rest)) := by
  obtain ⟨defaults, state, finished, process⟩ := w
  obtain rfl : process = some ⟨table, .loop (t :: rest)⟩ := hproc
  replace hst : state t = some st := hst
  -- the number of statements is that of the branch the state selects
  refine ⟨match st with | .purchased | .restored => 5 | .failed => 4 | _ => 2, ?_⟩
  cases st <;>
    · simp [run, List.replicate, step, exec, withApp, app, hst, App.updateTransaction, bind,
        Except.bind]
      rfl

/-- **The statements refine the handler.**  Undisturbed, they leave what `paymentQueue` leaves. -/
theorem exec_paymentQueue {table : QuoteTable} (ts : List Transaction)
    (hproc : w.process = some ⟨table, .loop (ts.map (·.id))⟩)
    (hst : ∀ t ∈ ts, w.state t.id = some t.transactionState) :
    ∃ n, run step w (List.replicate n .exec) =
      .ok (w.withApp ((w.app table).paymentQueue ts) .idle) := by
  induction ts generalizing w table with
  | nil =>
    refine ⟨1, ?_⟩
    simp only [List.replicate_one, run_singleton, step, hproc]
    rfl
  | cons t ts ih =>
    obtain ⟨n, hn⟩ := exec_transaction hproc (hst t (by simp))
    obtain ⟨m, hm⟩ := ih
      (w := w.withApp ((w.app table).updateTransaction t) (.loop (ts.map (·.id))))
      rfl fun u hu => hst u (List.mem_cons_of_mem t hu)
    refine ⟨n + m, ?_⟩
    rw [List.replicate_add, run_append_ok hn]
    exact hm

/-- **A redelivered payment is granted.**  When an idle process is delivered unfinished
transactions of which one is paid, and is left to run, the flag is set. -/
theorem deliver_grants {table : QuoteTable} {ts : List Transaction}
    (hproc : w.process = some ⟨table, .idle⟩) (hun : ∀ t ∈ ts, w.Unfinished t.id)
    (hst : ∀ t ∈ ts, w.state t.id = some t.transactionState)
    (hpaid : ts.any (fun t => t.transactionState.isPaid) = true) :
    ∃ n w', run step w (.deliver (ts.map (·.id)) :: List.replicate n .exec) = .ok w' ∧
      w'.purchased = true := by
  have hdeliver : w.step (.deliver (ts.map (·.id))) =
      .ok { w with process := some ⟨table, .loop (ts.map (·.id))⟩ } := by
    simp only [step, hproc]
    rw [if_pos (by simpa using hun)]
  obtain ⟨n, hn⟩ := exec_paymentQueue
    (w := { w with process := some ⟨table, .loop (ts.map (·.id))⟩ }) ts rfl hst
  refine ⟨n, _, (run_cons_ok hdeliver _).trans hn, ?_⟩
  show ((w.app table).paymentQueue ts).defaults productID = true
  rw [App.paymentQueue_flag, hpaid, Bool.or_true]

end World

end IosDevBootcamp.InspoQuotes
