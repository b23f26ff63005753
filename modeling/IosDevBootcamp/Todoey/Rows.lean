import IosDevBootcamp.Todoey.Step

/-!
# The tables and the store

A write that throws leaves the store as it was.  The list of items is reloaded after an addition or
a toggle and cannot notice; the two swipes and the new category update one row all the same, and
that update is refused.
-/

namespace IosDevBootcamp.Todoey

open IosDevBootcamp.Lib IosDevBootcamp.Lib.Query IosDevBootcamp.Lib.Run

/-! ### Both lists in step -/

/-- Every table shows as many rows as `numberOfRowsInSection` says. -/
def App.InStep (s : App) : Prop :=
  s.tableView.InStep (CategoryViewController.numberOfRowsInSection s.realm) ∧
    ∀ vc, s.todoList = some vc → vc.tableView.InStep (vc.numberOfRowsInSection s.realm)

/-- The event does not have a write that throws and is followed by the update of one row. -/
def Event.Harmless : Event → Bool
  | .addCategory _ _ commits => commits
  | .swipeCategory .right _ commits => commits
  | .swipeItem .right _ commits => commits
  | _ => true

/-- An open list of items is loaded, for a category that is stored. -/
structure TodoListViewController.Loaded (vc : TodoListViewController) (r : Realm) : Prop where
  selected : ∃ c ∈ r.categoryIds, vc.selectedCategory = some c
  loaded : ∃ q, vc.todoItems = some q
  rows : vc.tableView.InStep (vc.numberOfRowsInSection r)

/-- Every item has at most one owner, the categories are in step, and so is an open list. -/
structure App.Inv (s : App) : Prop where
  owned : s.realm.links.Nodup
  rows : s.tableView.InStep (CategoryViewController.numberOfRowsInSection s.realm)
  todoList : ∀ vc, s.todoList = some vc → vc.Loaded s.realm

lemma App.Inv.inStep {s : App} (h : s.Inv) : s.InStep :=
  ⟨h.rows, fun vc hvc => (h.todoList vc hvc).rows⟩

lemma App.inv_launch : launch.Inv where
  owned := List.nodup_nil
  rows := rfl
  todoList _ h := by cases h

/-! ### Owners -/

section Owners

variable {t : Tables}

lemma Tables.next_notMem_links (h : t.Valid) : t.next ∉ t.links := fun hm =>
  Nat.lt_irrefl _ (h.items_lt _ (h.links_mem _ hm))

lemma nodup_links_appendItem (h : t.Valid) (hn : t.links.Nodup) {c : ObjectId}
    (hc : c ∈ t.categoryIds) (title : String) (now : Date) :
    (t.appendItem c title now).links.Nodup := by
  rw [(Tables.links_appendItem_perm h.categories_nodup hc).nodup_iff, List.nodup_cons]
  exact ⟨Tables.next_notMem_links h, hn⟩

lemma nodup_links_deleteItem (hn : t.links.Nodup) (i : ObjectId) :
    (t.deleteItem i).links.Nodup := by
  rw [Tables.links_deleteItem]
  exact hn.filter _

lemma nodup_links_deleteCategory (h : t.Valid) (hn : t.links.Nodup) {k : Category}
    (hk : k ∈ t.categories) : (t.deleteCategory k.id).links.Nodup := by
  rw [(Tables.links_deleteCategory_perm h.categories_nodup hk).nodup_iff] at hn
  exact (List.nodup_append.mp hn).2.1

/-- With one owner each, the items of a list are distinct objects. -/
lemma nodup_ids_listItems (h : t.Valid) (hn : t.links.Nodup) (c : ObjectId) :
    ((t.listItems c).map Item.id).Nodup := by
  cases hk : Keyed.lookup Category.id t.categories c with
  | none => simp [Tables.listItems, hk]
  | some k =>
    rw [Tables.map_id_listItems h hk]
    exact (List.nodup_flatMap.mp hn).1 k (Keyed.mem_of_lookup hk).1

end Owners

/-! ### One row less -/

/-- A deleted category takes one row out of the list of categories. -/
lemma length_deleteCategory (r : Realm) {k : Category} (hk : k ∈ r.categories) :
    (r.deleteCategory k.id).categories.length + 1 = r.categories.length := by
  have hp := Keyed.perm_cons_erase r.valid.categories_nodup hk
  rw [hp.length_eq, List.length_cons]
  rfl

/-- A deleted item takes one row out of every result that showed it. -/
lemma length_items_deleteItem (r : Realm) (hn : r.links.Nodup) {q : ItemResults} {x : Item}
    (hx : x ∈ q.items r) :
    (q.items (r.deleteItem x.id)).length + 1 = (q.items r).length := by
  obtain ⟨hmem, hkeeps⟩ := mem_eval.mp hx
  have hp := Keyed.perm_cons_erase (nodup_ids_listItems r.valid hn q.list) hmem
  have hdel : (r.deleteItem x.id).listItems q.list =
      Keyed.erase Item.id (r.listItems q.list) x.id := Tables.listItems_deleteItem _ _ _
  rw [ItemResults.items, ItemResults.items, hdel, length_eval_of_perm_cons hp hkeeps]

/-! ### What an event comes to -/

variable (K : Collation)

/-- From a state in step an event is disabled, or harmless and leaves the tables in step, or stops
the app with a refused update. -/
inductive Outcome (s : App) (e : Event) : Prop
  | disabled (h : s.step K e = .error .disabled)
  | ok (hh : e.Harmless = true) (s' : App) (h : s.step K e = .ok s') (hi : s'.Inv)
  | refused (hh : e.Harmless = false) (h : s.step K e = .error .inconsistentUpdate)

section Categories

variable {s : App} (h : s.Inv) (hs : s.todoList = none)
include h hs

lemma outcome_addCategory (name color : String) (commits : Bool) :
    Outcome K s (.addCategory name color commits) := by
  have hstep : s.step K (.addCategory name color commits) =
      (CategoryViewController.saveCategories s.realm s.tableView name color commits).map
        fun p => ⟨p.1, p.2, none⟩ := by
    simp only [App.step, hs, App.stepCategories]
  cases commits with
  | true =>
    have hlen : CategoryViewController.numberOfRowsInSection (s.realm.addCategory name color) =
        CategoryViewController.numberOfRowsInSection s.realm + 1 := List.length_append
    obtain ⟨t, ht⟩ :=
      Option.isSome_iff_exists.mp ((TableView.insertRow_last_isSome h.rows).mpr hlen)
    refine .ok rfl ⟨s.realm.addCategory name color, t, none⟩ ?_ ⟨?_, ?_, ?_⟩
    · rw [hstep, CategoryViewController.saveCategories]
      simp only [Realm.write_commits, ht]
      rfl
    · exact Tables.links_addCategory.symm ▸ h.owned
    · exact TableView.inStep_of_insertRow ht
    · intro vc hvc
      cases hvc
  | false =>
    refine .refused rfl ?_
    have hnone : s.tableView.insertRow (CategoryViewController.numberOfRowsInSection s.realm)
        ((CategoryViewController.numberOfRowsInSection s.realm : ℤ) - 1) = none := by
      rw [← Option.not_isSome_iff_eq_none, TableView.insertRow_last_isSome h.rows]
      omega
    rw [hstep, CategoryViewController.saveCategories]
    simp only [Realm.write_throws, hnone]
    rfl

lemma outcome_swipeCategory (o : SwipeActionsOrientation) (row : ℕ) (commits : Bool) :
    Outcome K s (.swipeCategory o row commits) := by
  have hstep : s.step K (.swipeCategory o row commits) =
      (SwipeTableViewController.swipe o s.realm
        (CategoryViewController.updateModel s.realm row commits)
        CategoryViewController.numberOfRowsInSection s.tableView row).map
        fun p => ⟨p.1, p.2, none⟩ := by
    simp only [App.step, hs, App.stepCategories]
  by_cases hrow : row < s.tableView.rows
  swap
  · exact .disabled (by rw [hstep, swipe_disabled hrow]; rfl)
  cases o with
  | left =>
    refine .ok rfl ⟨s.realm, s.tableView, none⟩ (by rw [hstep, swipe_left hrow]; rfl)
      ⟨h.owned, h.rows, ?_⟩
    intro vc hvc
    cases hvc
  | right =>
    have hlt : row < s.realm.categories.length := by
      have : s.tableView.rows = s.realm.categories.length := h.rows
      omega
    have hk : s.realm.categories[row] ∈ s.realm.categories := List.getElem_mem hlt
    have hmodel : CategoryViewController.updateModel s.realm row commits =
        .ok (s.realm.write commits (Realm.deleteCategory s.realm.categories[row].id)) := by
      simp only [CategoryViewController.updateModel, List.getElem?_eq_getElem hlt]
    rw [hmodel, swipe_right hrow] at hstep
    have hrows : s.tableView.rows = s.realm.categories.length := h.rows
    cases commits with
    | true =>
      have hlen := length_deleteCategory s.realm hk
      rw [if_pos (by rw [hrows]; exact hlen)] at hstep
      refine .ok rfl _ hstep ⟨?_, rfl, ?_⟩
      · exact nodup_links_deleteCategory s.realm.valid h.owned hk
      · intro vc hvc
        cases hvc
    | false =>
      rw [if_neg (by rw [hrows]; exact Nat.succ_ne_self _)] at hstep
      exact .refused rfl hstep

lemma outcome_selectCategory (row : ℕ) : Outcome K s (.selectCategory row) := by
  have hstep : s.step K (.selectCategory row) = if row < s.tableView.rows then
      (CategoryViewController.prepare s.realm K row).map fun vc => { s with todoList := some vc }
      else .error .disabled := by
    simp only [App.step, hs, App.stepCategories]
  by_cases hrow : row < s.tableView.rows
  swap
  · exact .disabled (by rw [hstep, if_neg hrow])
  have hlt : row < s.realm.categories.length := by
    have : s.tableView.rows = s.realm.categories.length := h.rows
    omega
  rw [if_pos hrow, CategoryViewController.prepare, List.getElem?_eq_getElem hlt] at hstep
  refine .ok rfl _ hstep ⟨h.owned, h.rows, ?_⟩
  intro vc hvc
  cases hvc
  exact ⟨⟨_, List.mem_map_of_mem (List.getElem_mem hlt), rfl⟩, ⟨_, rfl⟩, rfl⟩

end Categories

section Items

variable {s : App} {vc : TodoListViewController} (h : s.Inv) (hs : s.todoList = some vc)
include h hs

omit h in
lemma step_items (e : Event) : s.step K e = s.stepItems K vc e := by
  simp only [App.step, hs]

omit hs in
/-- A write that keeps the categories and the owners keeps the list of categories in step. -/
lemma inv_items {r : Realm} {vc' : TodoListViewController} (hn : r.links.Nodup)
    (hids : r.categoryIds = s.realm.categoryIds) (hvc : vc'.Loaded r) :
    App.Inv { s with realm := r, todoList := some vc' } where
  owned := hn
  rows := by
    have hlen : r.categories.length = s.realm.categories.length := by
      simpa [Tables.categoryIds] using congrArg List.length hids
    exact h.rows.trans hlen.symm
  todoList vc hvc' := by
    cases hvc'
    exact hvc

lemma loaded_loadItems {r : Realm} (hids : r.categoryIds = s.realm.categoryIds) (text : String) :
    ({ vc with searchBar := text }.loadItems K r).Loaded r := by
  obtain ⟨c, hc, hsel⟩ := (h.todoList vc hs).selected
  refine ⟨⟨c, hids ▸ hc, hsel⟩, ?_, rfl⟩
  simp [TodoListViewController.loadItems, TodoListViewController.reloadData, hsel]

lemma loaded_reloadData {r : Realm} (hids : r.categoryIds = s.realm.categoryIds) :
    (vc.reloadData r).Loaded r := by
  obtain ⟨⟨c, hc, hsel⟩, hq, -⟩ := h.todoList vc hs
  exact ⟨⟨c, hids ▸ hc, hsel⟩, hq, rfl⟩

lemma outcome_addItem (title : String) (now : Date) (commits : Bool) :
    Outcome K s (.addItem title now commits) := by
  obtain ⟨c, hc, hsel⟩ := (h.todoList vc hs).selected
  have hstep : s.step K (.addItem title now commits) =
      .ok { s with
        realm := s.realm.write commits (Realm.appendItem c title now)
        todoList := some (vc.loadItems K
          (s.realm.write commits (Realm.appendItem c title now))) } := by
    simp only [step_items K hs, App.stepItems, TodoListViewController.addNewItem, hsel, if_pos hc]
    rfl
  refine .ok rfl _ hstep ?_
  cases commits with
  | true =>
    have hids : (s.realm.appendItem c title now).categoryIds = s.realm.categoryIds :=
      Tables.categoryIds_appendItem
    exact inv_items h (nodup_links_appendItem s.realm.valid h.owned hc title now) hids
      (loaded_loadItems K h hs hids vc.searchBar)
  | false => exact inv_items h h.owned rfl (loaded_loadItems K h hs rfl vc.searchBar)

lemma itemAt_of_lt {row : ℕ} (hrow : row < vc.tableView.rows) :
    ∃ q x, vc.todoItems = some q ∧ (q.items s.realm)[row]? = some x ∧
      vc.itemAt s.realm row = .ok (some x) := by
  obtain ⟨-, ⟨q, hq⟩, hrows⟩ := h.todoList vc hs
  have hlt : row < (q.items s.realm).length := by
    have : vc.tableView.rows = vc.numberOfRowsInSection s.realm := hrows
    simp only [TodoListViewController.numberOfRowsInSection, hq] at this
    omega
  refine ⟨q, _, hq, List.getElem?_eq_getElem hlt, ?_⟩
  simp only [TodoListViewController.itemAt, hq, List.getElem?_eq_getElem hlt]

lemma outcome_selectItem (row : ℕ) (commits : Bool) :
    Outcome K s (.selectItem row commits) := by
  have hstep : s.step K (.selectItem row commits) = if row < vc.tableView.rows then
      (vc.didSelectRowAt s.realm row commits).map
        fun p => { s with realm := p.1, todoList := some p.2 }
      else .error .disabled := by
    simp only [step_items K hs, App.stepItems]
  by_cases hrow : row < vc.tableView.rows
  swap
  · exact .disabled (by rw [hstep, if_neg hrow])
  obtain ⟨q, x, -, -, hitem⟩ := itemAt_of_lt h hs hrow
  rw [if_pos hrow, TodoListViewController.didSelectRowAt, hitem] at hstep
  refine .ok rfl _ hstep ?_
  cases commits with
  | true => exact inv_items h h.owned rfl (loaded_reloadData h hs rfl)
  | false => exact inv_items h h.owned rfl (loaded_reloadData h hs rfl)

lemma outcome_swipeItem (o : SwipeActionsOrientation) (row : ℕ) (commits : Bool) :
    Outcome K s (.swipeItem o row commits) := by
  have hstep : s.step K (.swipeItem o row commits) =
      (SwipeTableViewController.swipe o s.realm (vc.updateModel s.realm row commits)
        vc.numberOfRowsInSection vc.tableView row).map
        fun p => { s with realm := p.1, todoList := some { vc with tableView := p.2 } } := by
    simp only [step_items K hs, App.stepItems]
  by_cases hrow : row < vc.tableView.rows
  swap
  · exact .disabled (by rw [hstep, swipe_disabled hrow]; rfl)
  cases o with
  | left =>
    refine .ok rfl _ (by rw [hstep, swipe_left hrow]; rfl) (inv_items h h.owned rfl ?_)
    exact h.todoList vc hs
  | right =>
    obtain ⟨q, x, hq, hx, hitem⟩ := itemAt_of_lt h hs hrow
    have hmodel : vc.updateModel s.realm row commits =
        .ok (s.realm.write commits (Realm.deleteItem x.id)) := by
      simp only [TodoListViewController.updateModel, hitem]
    have hcount : ∀ r, vc.numberOfRowsInSection r = (q.items r).length := fun r => by
      simp only [TodoListViewController.numberOfRowsInSection, hq]
    have hrows : vc.tableView.rows = (q.items s.realm).length :=
      ((h.todoList vc hs).rows).trans (hcount s.realm)
    rw [hmodel, swipe_right hrow, hrows, hcount] at hstep
    cases commits with
    | true =>
      have hlen := length_items_deleteItem s.realm h.owned (List.mem_of_getElem? hx)
      have hids : (s.realm.deleteItem x.id).categoryIds = s.realm.categoryIds :=
        Tables.categoryIds_deleteItem
      rw [Realm.write_commits, if_pos hlen] at hstep
      obtain ⟨⟨c, hc, hsel⟩, hq', -⟩ := h.todoList vc hs
      refine .ok rfl _ hstep (inv_items h (nodup_links_deleteItem h.owned x.id) hids ?_)
      exact ⟨⟨c, hids ▸ hc, hsel⟩, hq', (hcount _).symm⟩
    | false =>
      rw [Realm.write_throws, if_neg (Nat.succ_ne_self _)] at hstep
      exact .refused rfl hstep

lemma outcome_textDidChange (searchText : String) :
    Outcome K s (.textDidChange searchText) := by
  have hstep : s.step K (.textDidChange searchText) =
      .ok { s with todoList := some (vc.textDidChange K s.realm searchText) } := by
    simp only [step_items K hs, App.stepItems]
  refine .ok rfl _ hstep (inv_items h h.owned rfl ?_)
  simp only [TodoListViewController.textDidChange]
  split
  · exact loaded_loadItems K h hs rfl searchText
  · obtain ⟨hsel, hq, hrows⟩ := h.todoList vc hs
    exact ⟨hsel, hq, hrows⟩

lemma outcome_searchButtonClicked : Outcome K s .searchButtonClicked := by
  have hstep : s.step K .searchButtonClicked =
      .ok { s with todoList := some (vc.searchBarSearchButtonClicked K s.realm) } := by
    simp only [step_items K hs, App.stepItems]
  obtain ⟨hsel, ⟨q, hq⟩, -⟩ := h.todoList vc hs
  refine .ok rfl _ hstep (inv_items h h.owned rfl ⟨hsel, ?_, rfl⟩)
  simp [TodoListViewController.searchBarSearchButtonClicked, TodoListViewController.reloadData, hq]

end Items

/-- Every event of a state in step comes to one of the three outcomes. -/
theorem outcome {s : App} (h : s.Inv) (e : Event) : Outcome K s e := by
  cases hs : s.todoList with
  | none =>
    cases e with
    | addCategory name color commits => exact outcome_addCategory K h hs name color commits
    | swipeCategory o row commits => exact outcome_swipeCategory K h hs o row commits
    | selectCategory row => exact outcome_selectCategory K h hs row
    | _ => exact .disabled (by simp only [App.step, hs, App.stepCategories])
  | some vc =>
    cases e with
    | back =>
      refine .ok rfl { s with todoList := none } (by simp only [App.step, hs, App.stepItems])
        ⟨h.owned, h.rows, ?_⟩
      intro vc hvc
      cases hvc
    | addItem title now commits => exact outcome_addItem K h hs title now commits
    | selectItem row commits => exact outcome_selectItem K h hs row commits
    | swipeItem o row commits => exact outcome_swipeItem K h hs o row commits
    | textDidChange searchText => exact outcome_textDidChange K h hs searchText
    | searchButtonClicked => exact outcome_searchButtonClicked K h hs
    | _ => exact .disabled (by simp only [App.step, hs, App.stepItems])

lemma App.Inv.step {s s' : App} {e : Event} (h : s.Inv) (hs : s.step K e = .ok s') : s'.Inv := by
  cases outcome K h e with
  | disabled hd => rw [hd] at hs; cases hs
  | ok _ u hu hi => rw [hu] at hs; cases hs; exact hi
  | refused _ hr => rw [hr] at hs; cases hs

lemma App.inv_of_run {s : App} {es : List Event} (h : run (App.step K) launch es = .ok s) : s.Inv :=
  run_inv (fun _ _ _ hi hs => hi.step K hs) App.inv_launch h

/-! ### Tables of a run -/

/-- **The tables stay in step, unless a write throws under a row update.**  Every state a run
reaches is in step, and an event it can meet there is carried out, and leaves the tables in step,
exactly when it is harmless; the others are refused by a table. -/
theorem inStep_iff_harmless {s : App} {es : List Event}
    (h : run (App.step K) launch es = .ok s) :
    s.InStep ∧ ∀ e, s.step K e ≠ .error .disabled →
      ((∃ s', s.step K e = .ok s' ∧ s'.InStep) ↔ e.Harmless = true) := by
  have hi : s.Inv := App.inv_of_run K h
  refine ⟨hi.inStep, fun e he => ?_⟩
  cases outcome K hi e with
  | disabled hd => exact absurd hd he
  | ok hh s' hs' hi' => exact ⟨fun _ => hh, fun _ => ⟨s', hs', hi'.inStep⟩⟩
  | refused hh hr =>
    constructor
    · rintro ⟨s', hs', -⟩
      rw [hr] at hs'
      cases hs'
    · intro ht
      rw [ht] at hh
      cases hh

/-- A category, two of its items, and one of them deleted. -/
def shopping : List Event :=
  [.addCategory "Shopping" "0096FF" true, .selectCategory 0, .addItem "milk" 0 true,
    .addItem "bread" 1 true, .swipeItem .right 0 true]

theorem inStep_iff_harmless_shopping :
    ∃ s, run (App.step .plain) launch shopping = .ok s ∧ s.InStep ∧
      ∃ s', s.step .plain (.swipeItem .right 0 true) = .ok s' ∧ s'.InStep := by
  obtain ⟨s, hs, u, hu⟩ : ∃ s, run (App.step .plain) launch shopping = .ok s ∧
      ∃ u, s.step .plain (.swipeItem .right 0 true) = .ok u := ⟨_, rfl, _, rfl⟩
  obtain ⟨hi, hiff⟩ := inStep_iff_harmless .plain hs
  refine ⟨s, hs, hi, (hiff _ ?_).mpr rfl⟩
  rw [hu]
  nofun

/-- A category, a swipe of a category and a swipe of an item, each with a write that throws. -/
theorem thrown_write_refused :
    run (App.step .plain) launch [.addCategory "Shopping" "0096FF" false] =
      .error .inconsistentUpdate ∧
    run (App.step .plain) launch [.addCategory "Shopping" "0096FF" true,
      .swipeCategory .right 0 false] = .error .inconsistentUpdate ∧
    run (App.step .plain) launch [.addCategory "Shopping" "0096FF" true, .selectCategory 0,
      .addItem "milk" 0 true, .swipeItem .right 0 false] = .error .inconsistentUpdate :=
  ⟨rfl, rfl, rfl⟩

end IosDevBootcamp.Todoey
