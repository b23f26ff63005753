import IosDevBootcamp.Todoey.Defs

/-!
# Steps of the app

Which events are carried out, and the state each of them leaves.  Every invariant of a run is read
off from these cases.
-/

namespace IosDevBootcamp.Todoey

open IosDevBootcamp.Lib TodoListViewController

/-! ### Swipes -/

section Swipes

variable {r r' : Realm} {count : Realm → ℕ} {t t' : TableView} {row : ℕ}
  {updateModel : Except Fault Realm}

lemma swipe_disabled (h : ¬ row < t.rows) (o : SwipeActionsOrientation) :
    SwipeTableViewController.swipe o r updateModel count t row = .error .disabled := if_neg h

lemma swipe_left (h : row < t.rows) :
    SwipeTableViewController.swipe .left r updateModel count t row = .ok (r, t) := if_pos h

/-- The row goes when the data source has one row less, and the app stops when it has not. -/
lemma swipe_right (h : row < t.rows) :
    SwipeTableViewController.swipe .right r (.ok r') count t row =
      if count r' + 1 = t.rows then .ok (r', ⟨count r'⟩) else .error .inconsistentUpdate := by
  simp only [SwipeTableViewController.swipe, SwipeTableViewController.editActionsForRowAt,
    SwipeTableViewController.perform, TableView.deleteRow_of_lt h, if_pos h]
  by_cases hc : count r' + 1 = t.rows
  · simp only [if_pos hc]
  · simp only [if_neg hc]

/-- A swipe that ends well had no action, or has run `updateModel` and deleted the row. -/
lemma swipe_ok {o : SwipeActionsOrientation}
    (h : SwipeTableViewController.swipe o r updateModel count t row = .ok (r', t')) :
    row < t.rows ∧ ((o = .left ∧ r' = r ∧ t' = t) ∨
      (o = .right ∧ updateModel = .ok r' ∧ t' = ⟨count r'⟩)) := by
  by_cases hrow : row < t.rows
  swap
  · rw [swipe_disabled hrow] at h
    cases h
  refine ⟨hrow, ?_⟩
  cases o with
  | left =>
    rw [swipe_left hrow] at h
    cases h
    exact Or.inl ⟨rfl, rfl, rfl⟩
  | right =>
    cases updateModel with
    | error f =>
      simp only [SwipeTableViewController.swipe, if_pos hrow] at h
      cases h
    | ok u =>
      rw [swipe_right hrow] at h
      split at h
      · cases h
        exact Or.inr ⟨rfl, rfl, rfl⟩
      · cases h

end Swipes

/-! ### Cases of a step -/

variable (K : Collation)

/-- What an event of the category list leaves, when it is carried out. -/
inductive StepsCategories (s : App) : Event → App → Prop
  | addCategory (name color : String) (commits : Bool) {r : Realm}
      (hr : r = s.realm.write commits (Realm.addCategory name color)) :
    StepsCategories s (.addCategory name color commits)
      ⟨r, ⟨CategoryViewController.numberOfRowsInSection r⟩, none⟩
  | swipeLeft {row : ℕ} (hrow : row < s.tableView.rows) (commits : Bool) :
    StepsCategories s (.swipeCategory .left row commits) ⟨s.realm, s.tableView, none⟩
  | swipeRight {row : ℕ} (hrow : row < s.tableView.rows) {k : Category}
      (hk : s.realm.categories[row]? = some k) (commits : Bool) {r : Realm}
      (hr : r = s.realm.write commits (Realm.deleteCategory k.id)) :
    StepsCategories s (.swipeCategory .right row commits)
      ⟨r, ⟨CategoryViewController.numberOfRowsInSection r⟩, none⟩
  | selectCategory {row : ℕ} (hrow : row < s.tableView.rows) {k : Category}
      (hk : s.realm.categories[row]? = some k) :
    StepsCategories s (.selectCategory row)
      { s with todoList := some (loadItems K ⟨some k.id, none, "", ⟨0⟩⟩ s.realm) }

/-- What an event of the list of items leaves, when it is carried out. -/
inductive StepsItems (s : App) (vc : TodoListViewController) : Event → App → Prop
  | back : StepsItems s vc .back { s with todoList := none }
  | addItem {c : ObjectId} (hsel : vc.selectedCategory = some c) (hc : c ∈ s.realm.categoryIds)
      (title : String) (now : Date) (commits : Bool) {r : Realm}
      (hr : r = s.realm.write commits (Realm.appendItem c title now)) :
    StepsItems s vc (.addItem title now commits)
      { s with realm := r, todoList := some (vc.loadItems K r) }
  | addNowhere (hsel : vc.selectedCategory = none) (title : String) (now : Date) (commits : Bool) :
    StepsItems s vc (.addItem title now commits)
      { s with todoList := some (vc.loadItems K s.realm) }
  | selectItem {row : ℕ} (hrow : row < vc.tableView.rows) {x : Item}
      (hx : vc.itemAt s.realm row = .ok (some x)) (commits : Bool) {r : Realm}
      (hr : r = s.realm.write commits (Realm.toggleDone x.id)) :
    StepsItems s vc (.selectItem row commits)
      { s with realm := r, todoList := some (vc.reloadData r) }
  | selectNothing {row : ℕ} (hrow : row < vc.tableView.rows)
      (hx : vc.itemAt s.realm row = .ok none) (commits : Bool) :
    StepsItems s vc (.selectItem row commits)
      { s with todoList := some (vc.reloadData s.realm) }
  | swipeLeft {row : ℕ} (hrow : row < vc.tableView.rows) (commits : Bool) :
    StepsItems s vc (.swipeItem .left row commits) { s with todoList := some vc }
  | swipeRight {row : ℕ} (hrow : row < vc.tableView.rows) {x : Item}
      (hx : vc.itemAt s.realm row = .ok (some x)) (commits : Bool) {r : Realm}
      (hr : r = s.realm.write commits (Realm.deleteItem x.id)) :
    StepsItems s vc (.swipeItem .right row commits)
      { s with
        realm := r
        todoList := some { vc with tableView := ⟨vc.numberOfRowsInSection r⟩ } }
  | swipeNothing {row : ℕ} (hrow : row < vc.tableView.rows)
      (hx : vc.itemAt s.realm row = .ok none) (commits : Bool) :
    StepsItems s vc (.swipeItem .right row commits)
      { s with todoList := some { vc with tableView := ⟨vc.numberOfRowsInSection s.realm⟩ } }
  | textDidChange (searchText : String) :
    StepsItems s vc (.textDidChange searchText)
      { s with todoList := some (vc.textDidChange K s.realm searchText) }
  | searchButtonClicked :
    StepsItems s vc .searchButtonClicked
      { s with todoList := some (vc.searchBarSearchButtonClicked K s.realm) }

lemma stepCategories_ok {s s' : App} {e : Event} (h : s.stepCategories K e = .ok s') :
    StepsCategories K s e s' := by
  cases e with
  | addCategory name color commits =>
    obtain ⟨⟨r, t⟩, hsave, rfl⟩ := Run.map_ok_iff.mp h
    simp only [CategoryViewController.saveCategories] at hsave
    split at hsave
    · rename_i u hu
      cases hsave
      obtain rfl : t = ⟨_⟩ := congrArg TableView.mk (TableView.inStep_of_insertRow hu)
      exact .addCategory name color commits rfl
    · cases hsave
  | swipeCategory o row commits =>
    obtain ⟨⟨r, t⟩, hswipe, rfl⟩ := Run.map_ok_iff.mp h
    obtain ⟨hrow, ⟨rfl, rfl, rfl⟩ | ⟨rfl, hmodel, rfl⟩⟩ := swipe_ok hswipe
    · exact .swipeLeft hrow commits
    · simp only [CategoryViewController.updateModel] at hmodel
      split at hmodel
      · rename_i k hk
        exact .swipeRight hrow hk commits (Except.ok.inj hmodel).symm
      · cases hmodel
  | selectCategory row =>
    simp only [App.stepCategories] at h
    split at h
    · rename_i hrow
      obtain ⟨vc, hvc, rfl⟩ := Run.map_ok_iff.mp h
      simp only [CategoryViewController.prepare] at hvc
      split at hvc
      · rename_i k hk
        cases hvc
        exact .selectCategory hrow hk
      · cases hvc
    · cases h
  | _ => cases h

lemma stepItems_ok {s s' : App} {vc : TodoListViewController} {e : Event}
    (h : s.stepItems K vc e = .ok s') : StepsItems K s vc e s' := by
  cases e with
  | back =>
    cases h
    exact .back
  | addItem title now commits =>
    obtain ⟨⟨r, vc'⟩, hadd, rfl⟩ := Run.map_ok_iff.mp h
    simp only [addNewItem] at hadd
    split at hadd
    · rename_i hsel
      cases hadd
      exact .addNowhere hsel title now commits
    · rename_i c hsel
      split at hadd
      · rename_i hc
        cases hadd
        exact .addItem hsel hc title now commits rfl
      · cases hadd
  | selectItem row commits =>
    simp only [App.stepItems] at h
    split at h
    · rename_i hrow
      obtain ⟨⟨r, vc'⟩, hsel, rfl⟩ := Run.map_ok_iff.mp h
      simp only [didSelectRowAt] at hsel
      split at hsel
      · cases hsel
      · rename_i item hx
        cases hsel
        cases item with
        | none => exact .selectNothing hrow hx commits
        | some x => exact .selectItem hrow hx commits rfl
    · cases h
  | swipeItem o row commits =>
    obtain ⟨⟨r, t⟩, hswipe, rfl⟩ := Run.map_ok_iff.mp h
    obtain ⟨hrow, ⟨rfl, rfl, rfl⟩ | ⟨rfl, hmodel, rfl⟩⟩ := swipe_ok hswipe
    · exact .swipeLeft hrow commits
    · simp only [TodoListViewController.updateModel] at hmodel
      split at hmodel
      · cases hmodel
      · rename_i hx
        cases hmodel
        exact .swipeNothing hrow hx commits
      · rename_i x hx
        exact .swipeRight hrow hx commits (Except.ok.inj hmodel).symm
  | textDidChange searchText =>
    cases h
    exact .textDidChange searchText
  | searchButtonClicked =>
    cases h
    exact .searchButtonClicked
  | _ => cases h

/-- **Every step is one of the cases**, of the list that is in front. -/
theorem step_cases {s s' : App} {e : Event} (h : s.step K e = .ok s') :
    (s.todoList = none ∧ StepsCategories K s e s') ∨
      ∃ vc, s.todoList = some vc ∧ StepsItems K s vc e s' := by
  cases hs : s.todoList with
  | none =>
    simp only [App.step, hs] at h
    exact Or.inl ⟨rfl, stepCategories_ok K h⟩
  | some vc =>
    simp only [App.step, hs] at h
    exact Or.inr ⟨vc, rfl, stepItems_ok K h⟩

end IosDevBootcamp.Todoey
