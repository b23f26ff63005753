import Mathlib.Data.Int.Notation
import Mathlib.Tactic.Common

/-!
# Table views

A table view keeps the number of rows it shows and asks its data source for the number of rows
there are.  A reload copies that number.  An insertion, a deletion and a scroll are checked, and
the app is stopped when the check fails.
-/

namespace IosDevBootcamp.Lib

structure TableView where
  rows : ℕ
  deriving DecidableEq, Repr

namespace TableView

variable (t : TableView) (count : ℕ)

/-- `reloadData`, when the data source has `count` rows. -/
def reloadData (_ : TableView) (count : ℕ) : TableView := ⟨count⟩

/-- `insertRows(at:)` with one row: the data source must have one row more than is shown. -/
def insertRow (row : ℤ) : Option TableView :=
  if count = t.rows + 1 ∧ 0 ≤ row ∧ row < count then some ⟨count⟩ else none

/-- `deleteRows(at:)` with one row: the data source must have one row less than is shown. -/
def deleteRow (row : ℕ) : Option TableView :=
  if row < t.rows ∧ count + 1 = t.rows then some ⟨count⟩ else none

/-- `scrollToRow(at:)`, which needs the row to be there. -/
def scrollToRow (row : ℤ) : Option TableView :=
  if 0 ≤ row ∧ row < t.rows then some t else none

/-- The table shows as many rows as the data source has. -/
def InStep : Prop := t.rows = count

instance : Decidable (t.InStep count) := inferInstanceAs (Decidable (_ = _))

variable {t count} {count' row : ℕ}

/-- An insertion that is allowed leaves the table in step. -/
lemma inStep_of_insertRow {r : ℤ} {t' : TableView} (h : t.insertRow count r = some t') :
    t'.InStep count := by
  simp only [insertRow, Option.ite_none_right_eq_some, Option.some.injEq] at h
  exact h.2 ▸ rfl

/-- From a table in step the last row can be inserted just when the data source grew by one. -/
lemma insertRow_last_isSome (h : t.InStep count) :
    (t.insertRow count' ((count' : ℤ) - 1)).isSome = true ↔ count' = count + 1 := by
  have hr : t.rows = count := h
  simp only [insertRow, Option.isSome_ite, hr]
  omega

/-- A shown row can be deleted just when the data source shrank by one. -/
lemma deleteRow_of_lt (h : row < t.rows) :
    t.deleteRow count row = if count + 1 = t.rows then some ⟨count⟩ else none := by
  simp only [deleteRow, h, true_and]

lemma scrollToRow_of_lt {r : ℤ} (h₀ : 0 ≤ r) (h : r < t.rows) : t.scrollToRow r = some t :=
  if_pos ⟨h₀, h⟩

end TableView

end IosDevBootcamp.Lib
