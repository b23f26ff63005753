import Mathlib.Logic.Function.Basic
import Mathlib.Tactic.Common

/-!
# InspoQuotes: the quote table and its purchase

`QuoteTableViewController` keeps the quotes in memory and the purchase as a flag in the user
defaults.  Three entry points write them: `viewDidLoad`, and the purchased and the restored
transactions of `paymentQueue(_:updatedTransactions:)`.
-/

namespace IosDevBootcamp.InspoQuotes

/-! ### The data -/

/-- `productID`, the key of the stored flag. -/
def productID : String := "com.someapp.name.product"

/-- The quotes everybody sees. -/
def baseQuotes : List String := [
  "Our greatest glory is not in never falling, but in rising every time we fall. — Confucius",
  "All our dreams can come true, if we have the courage to pursue them. – Walt Disney",
  "It does not matter how slowly you go as long as you do not stop. – Confucius",
  "Everything you’ve ever wanted is on the other side of fear. — George Addair",
  "Success is not final, failure is not fatal: it is the courage to continue that counts. – Winston Churchill",
  "Hardships often prepare ordinary people for an extraordinary destiny. – C.S. Lewis"]

def premiumQuotes : List String := [
  "Believe in yourself. You are braver than you think, more talented than you know, and capable of more than you imagine. ― Roy T. Bennett",
  "I learned that courage was not the absence of fear, but the triumph over it. The brave man is not he who does not feel afraid, but he who conquers that fear. – Nelson Mandela",
  "There is only one thing that makes a dream impossible to achieve: the fear of failure. ― Paulo Coelho",
  "It’s not whether you get knocked down. It’s whether you get up. – Vince Lombardi",
  "Your true success in life begins only when you make the commitment to become excellent at what you do. — Brian Tracy",
  "Believe in yourself, take on your challenges, dig deep within yourself to conquer fears. Never let anyone bring you down. You got to keep going. – Chantal Sutherland"]

inductive TransactionState
  | purchasing | purchased | failed | restored | deferred
  deriving DecidableEq, Repr

/-- The test of the first branch of the handler. -/
def TransactionState.isPaid (st : TransactionState) : Bool :=
  st == .purchased || st == .restored

structure Transaction where
  id : ℕ
  transactionState : TransactionState
  deriving DecidableEq, Repr

/-- What the user defaults store, one flag a key. -/
abbrev UserDefaults := String → Bool

/-! ### The view controller -/

/-- The fields of the view controller, and the button of its navigation item. -/
structure QuoteTable where
  quotesToShow : List String
  rightBarButton : Bool
  observing : Bool
  deriving DecidableEq, Repr

def QuoteTable.fresh : QuoteTable := ⟨baseQuotes, true, false⟩

/-- The app: what is stored, the view controller, and the transactions finished so far. -/
structure App where
  defaults : UserDefaults
  table : QuoteTable
  finished : List Transaction

namespace App

/-- `isPurchased`: reads the stored flag, and removes the restore button when it is set. -/
def isPurchased (s : App) : Bool × App :=
  let purchasedStatus := s.defaults productID
  if purchasedStatus then (true, { s with table := { s.table with rightBarButton := false } })
  else (false, s)

def showPremiumQuotes (s : App) : App :=
  { s with table := { s.table with quotesToShow := s.table.quotesToShow ++ premiumQuotes } }

def viewDidLoad (s : App) : App :=
  let s := { s with table := { s.table with observing := true } }
  match s.isPurchased with
  | (true, s) => s.showPremiumQuotes
  | (false, s) => s

/-- `UserDefaults.standard.set(true, forKey: productID)`. -/
def setPurchased (s : App) : App := { s with defaults := Function.update s.defaults productID true }

/-- `SKPaymentQueue.default().finishTransaction(transaction)`. -/
def finishTransaction (s : App) (t : Transaction) : App := { s with finished := s.finished ++ [t] }

/-- The body of the loop of `paymentQueue(_:updatedTransactions:)`. -/
def updateTransaction (s : App) (t : Transaction) : App :=
  if t.transactionState = .purchased ∨ t.transactionState = .restored then
    (s.setPurchased.showPremiumQuotes).finishTransaction t
  else if t.transactionState = .failed then s.finishTransaction t
  else s

def paymentQueue (s : App) (transactions : List Transaction) : App :=
  transactions.foldl updateTransaction s

def numberOfRowsInSection (s : App) : ℕ × App :=
  match s.isPurchased with
  | (true, s) => (s.table.quotesToShow.length, s)
  | (false, s) => (s.table.quotesToShow.length + 1, s)

end App

structure Cell where
  text : String
  isGreen : Bool
  hasDisclosure : Bool
  deriving DecidableEq, Repr

/-- The row that offers the purchase. -/
def buyCell : Cell := ⟨"Want more quotes? Click here!", true, true⟩

namespace App

def cellForRowAt (s : App) (row : ℕ) : Cell :=
  match s.table.quotesToShow[row]? with
  | some quote => ⟨quote, false, false⟩
  | none => buyCell

/-- `buyPremiumQuotes`: the product of the payment it queues. -/
def buyPremiumQuotes (canMakePayments : Bool) : Option String :=
  if canMakePayments then some productID else none

/-- `tableView(_:didSelectRowAt:)`: the payment it queues, if any. -/
def didSelectRowAt (s : App) (canMakePayments : Bool) (row : ℕ) : Option String :=
  if row = s.table.quotesToShow.length then buyPremiumQuotes canMakePayments else none

/-- The app right after its launch with the stored flags `d`. -/
def launch (d : UserDefaults) : App := viewDidLoad ⟨d, .fresh, []⟩

/-! ### What each entry point does -/

/-- The rows of the table: one more than the quotes while the flag is not set. -/
lemma numberOfRowsInSection_fst (s : App) : s.numberOfRowsInSection.1 =
    s.table.quotesToShow.length + if s.defaults productID then 0 else 1 := by
  unfold numberOfRowsInSection isPurchased
  cases s.defaults productID <;> rfl

@[simp] lemma viewDidLoad_defaults (s : App) : s.viewDidLoad.defaults = s.defaults := by
  unfold viewDidLoad isPurchased
  cases hd : s.defaults productID <;> simp [hd, showPremiumQuotes]

@[simp] lemma viewDidLoad_finished (s : App) : s.viewDidLoad.finished = s.finished := by
  unfold viewDidLoad isPurchased
  cases hd : s.defaults productID <;> simp [hd, showPremiumQuotes]

lemma viewDidLoad_quotes (s : App) : s.viewDidLoad.table.quotesToShow =
    s.table.quotesToShow ++ if s.defaults productID then premiumQuotes else [] := by
  unfold viewDidLoad isPurchased
  cases hd : s.defaults productID <;> simp [hd, showPremiumQuotes]

@[simp] lemma setPurchased_defaults (s : App) : s.setPurchased.defaults productID = true := by
  simp [setPurchased]

/-- A paid transaction sets the flag, shows the premium quotes, and is finished. -/
lemma updateTransaction_paid {s : App} {t : Transaction} (h : t.transactionState.isPaid = true) :
    s.updateTransaction t = (s.setPurchased.showPremiumQuotes).finishTransaction t := by
  unfold updateTransaction
  rw [if_pos (by simpa [TransactionState.isPaid] using h)]

lemma updateTransaction_failed {s : App} {t : Transaction} (h : t.transactionState = .failed) :
    s.updateTransaction t = s.finishTransaction t := by
  simp [updateTransaction, h]

lemma updateTransaction_waiting {s : App} {t : Transaction}
    (h : t.transactionState.isPaid = false) (hf : t.transactionState ≠ .failed) :
    s.updateTransaction t = s := by
  unfold updateTransaction
  rw [if_neg (by simpa [TransactionState.isPaid] using h), if_neg hf]

/-- A transaction sets the flag when it is paid. -/
lemma updateTransaction_flag (s : App) (t : Transaction) :
    (s.updateTransaction t).defaults productID =
      (s.defaults productID || t.transactionState.isPaid) := by
  cases hp : t.transactionState.isPaid
  · rw [Bool.or_false]
    by_cases hf : t.transactionState = .failed
    · rw [updateTransaction_failed hf]
      rfl
    · rw [updateTransaction_waiting hp hf]
  · rw [updateTransaction_paid hp, Bool.or_true]
    exact setPurchased_defaults s

/-- A batch sets the flag when one of its transactions is paid. -/
lemma paymentQueue_flag (s : App) (ts : List Transaction) :
    (s.paymentQueue ts).defaults productID =
      (s.defaults productID || ts.any fun t => t.transactionState.isPaid) := by
  induction ts generalizing s with
  | nil => simp [paymentQueue]
  | cons t ts ih =>
    rw [List.any_cons, ← Bool.or_assoc, ← updateTransaction_flag]
    exact ih (s.updateTransaction t)

end App

end IosDevBootcamp.InspoQuotes
