import Mathlib.Data.List.Pairwise
import IosDevBootcamp.Todoey.Search

/-!
# Row actions

A selection and a deletion go from a row to an object through the query that is on display, and the
query is evaluated again after the write they make.  The field a selection changes is in no filter
and in no sort key, and a stable sort keeps its order when one element leaves, so the row, the
object and the display stay aligned.
-/

namespace IosDevBootcamp.Todoey

open IosDevBootcamp.Lib IosDevBootcamp.Lib.Query IosDevBootcamp.Lib.Run TodoListViewController

/-- The order of texts is an order; different texts may be equal in it. -/
structure Collation.Ordered (K : Collation) : Prop where
  trans : ∀ a b c, K.le a b = true → K.le b c = true → K.le a c = true
  total : ∀ a b, K.le a b = true ∨ K.le b a = true

/-- The app on a store, with the list of categories in front. -/
def App.start (r : Realm) : App := ⟨r, ⟨r.categories.length⟩, none⟩

lemma App.inv_start {r : Realm} (hr : r.links.Nodup) : (App.start r).Inv where
  owned := hr
  rows := rfl
  todoList _ h := by cases h

/-- The item as a selection leaves it. -/
def Item.toggled (x : Item) : Item := { x with done := !x.done }

/-! ### Lists of a store -/

lemma Tables.listItems_toggleDone (t : Tables) (i c : ObjectId) :
    (t.toggleDone i).listItems c = Keyed.modify Item.id Item.toggled (t.listItems c) i := by
  have hlookup : ∀ j, Keyed.lookup Item.id (t.toggleDone i).items j =
      (Keyed.lookup Item.id t.items j).map fun x => if x.id = i then x.toggled else x :=
    fun j => Keyed.lookup_map fun x => by split <;> rfl
  have hcategories : (t.toggleDone i).categories = t.categories := rfl
  simp only [Tables.listItems, hcategories]
  cases Keyed.lookup Category.id t.categories c with
  | none => rfl
  | some k =>
    simp only [Keyed.modify, List.map_filterMap]
    exact List.filterMap_congr fun j _ => hlookup j

variable (K : Collation)

/-! ### Queries on display -/

lemma Searches.mem_stages {h : Searches} {s : Stage Item} (hs : s ∈ h.stages K) :
    s = byTitle K ∨ (∃ text, s = titleContains K text) ∨ s = newestFirst := by
  rcases List.mem_cons.mp hs with rfl | hs
  · exact Or.inl rfl
  · obtain ⟨text, -, hs⟩ := List.mem_flatMap.mp hs
    rcases List.mem_cons.mp hs with rfl | hs
    · exact Or.inr (Or.inl ⟨text, rfl⟩)
    · exact Or.inr (Or.inr (List.mem_singleton.mp hs))

lemma Searches.ignores_done (h : Searches) (f : Item → Item) (htitle : ∀ x, (f x).title = x.title)
    (htime : ∀ x, (f x).timestamp = x.timestamp) : ∀ s ∈ h.stages K, s.Ignores f := by
  intro s hs
  rcases Searches.mem_stages K hs with rfl | ⟨text, rfl⟩ | rfl
  · intro a b
    simp only [htitle]
  · intro x
    simp only [htitle]
  · intro a b
    simp only [htime]

variable {K}

lemma Searches.ordered (hK : K.Ordered) (h : Searches) : ∀ s ∈ h.stages K, s.Ordered := by
  intro s hs
  rcases Searches.mem_stages K hs with rfl | ⟨text, rfl⟩ | rfl
  · exact ⟨fun a b c => hK.trans a.title b.title c.title, fun a b => hK.total a.title b.title⟩
  · trivial
  · refine ⟨?_, ?_⟩
    · intro a b c hab hbc
      rw [decide_eq_true_eq] at hab hbc ⊢
      exact le_trans hbc hab
    · intro a b
      rw [decide_eq_true_eq, decide_eq_true_eq]
      exact le_total _ _

/-! ### A row and its object -/

section Row

variable {r : Realm} {c : ObjectId} {h : Searches} {row : ℕ} {x : Item}

lemma nodup_ids_eval (hr : r.links.Nodup) (q : Stages Item) (c : ObjectId) :
    ((eval q (r.listItems c)).map Item.id).Nodup := by
  rw [((eval_perm q (r.listItems c)).map Item.id).nodup_iff]
  exact (nodup_ids_listItems r.valid hr c).sublist (List.filter_sublist.map Item.id)

/-- An item of a list is stored, and the category of the list links to it. -/
lemma mem_of_mem_listItems (hx : x ∈ r.listItems c) :
    x ∈ r.items ∧ ∃ k ∈ r.categories, k.id = c ∧ x.id ∈ k.items := by
  cases hk : Keyed.lookup Category.id r.categories c with
  | none => simp [Tables.listItems, hk] at hx
  | some k =>
    simp only [Tables.listItems, hk] at hx
    obtain ⟨i, hi, hlookup⟩ := List.mem_filterMap.mp hx
    obtain ⟨hmem, rfl⟩ := Keyed.mem_of_lookup hlookup
    obtain ⟨hcat, hid⟩ := Keyed.mem_of_lookup hk
    exact ⟨hmem, k, hcat, hid, hi⟩

lemma eq_of_id_eq (hx : x ∈ r.items) {y : Item} (hy : y ∈ r.items) : y.id = x.id ↔ y = x :=
  ⟨fun hid => List.inj_on_of_nodup_map r.valid.items_nodup hy hx hid, fun heq => heq ▸ rfl⟩

lemma items_toggleDone (hx : x ∈ r.items) :
    (r.toggleDone x.id).items = r.items.map fun y => if y = x then x.toggled else y := by
  apply List.map_congr_left
  intro y hy
  by_cases heq : y = x
  · rw [if_pos heq, if_pos (by rw [heq]), heq]
    rfl
  · rw [if_neg heq, if_neg fun hid => heq ((eq_of_id_eq hx hy).mp hid)]

lemma items_deleteItem (hx : x ∈ r.items) :
    (r.deleteItem x.id).items = r.items.filter (· ≠ x) := by
  apply List.filter_congr
  intro y hy
  rw [decide_eq_decide, ne_eq, ne_eq, eq_of_id_eq hx hy]

/-- The link of a deleted item goes from its own category, which is the only one that has it. -/
lemma categories_deleteItem (hr : r.links.Nodup) (hx : x ∈ r.listItems c) :
    (r.deleteItem x.id).categories = r.categories.map fun k =>
      if k.id = c then { k with items := k.items.erase x.id } else k := by
  obtain ⟨-, k₀, hk₀, hid₀, hlink⟩ := mem_of_mem_listItems hx
  obtain ⟨hnodup, hpair⟩ := List.nodup_flatMap.mp hr
  apply List.map_congr_left
  intro k hk
  by_cases hid : k.id = c
  · rw [if_pos hid, (hnodup k hk).erase_eq_filter]
    have hne : ∀ i ∈ k.items, decide (i ≠ x.id) = (i != x.id) := fun i _ => by
      by_cases h : i = x.id <;> simp [h]
    rw [List.filter_congr hne]
  · have hsymm : Std.Symm (Function.onFun List.Disjoint fun k : Category => k.items) :=
      ⟨fun _ _ hd _ ha hb => hd hb ha⟩
    have hdisj : x.id ∉ k.items := fun hm => by
      have hkk : k₀ ≠ k := fun heq => hid (heq ▸ hid₀)
      exact hpair.forall hk₀ hk hkk hlink hm
    have hself : k.items.filter (· ≠ x.id) = k.items := List.filter_eq_self.mpr fun i hi =>
      decide_eq_true fun heq => hdisj (heq ▸ hi)
    rw [if_neg hid, hself]

variable (hr : r.links.Nodup) (hx : (eval (h.stages K) (r.listItems c))[row]? = some x)
include hr hx

/-- A selection changes its own row of the display. -/
lemma eval_toggleDone : eval (h.stages K) ((r.toggleDone x.id).listItems c) =
    (eval (h.stages K) (r.listItems c)).set row x.toggled := by
  have hmod : (r.toggleDone x.id).listItems c =
      Keyed.modify Item.id Item.toggled (r.listItems c) x.id := Tables.listItems_toggleDone _ _ _
  have hignores : ∀ s ∈ h.stages K, s.Ignores fun y => if y.id = x.id then y.toggled else y :=
    h.ignores_done K _ (fun y => by split <;> rfl) (fun y => by split <;> rfl)
  rw [hmod, Keyed.modify, eval_map hignores, ← Keyed.modify]
  exact Keyed.modify_eq_set (nodup_ids_eval hr _ c) hx

/-- A deletion takes its own row out of the display. -/
lemma eval_deleteItem (hK : K.Ordered) : eval (h.stages K) ((r.deleteItem x.id).listItems c) =
    (eval (h.stages K) (r.listItems c)).eraseIdx row := by
  have hdel : (r.deleteItem x.id).listItems c = Keyed.erase Item.id (r.listItems c) x.id :=
    Tables.listItems_deleteItem _ _ _
  rw [hdel, Keyed.erase, eval_filter (h.ordered hK), ← Keyed.erase]
  exact Keyed.erase_eq_eraseIdx (nodup_ids_eval hr _ c) hx

end Row

/-! ### Rows of a run -/

/-- A store that the app has written has at most one owner for every item. -/
theorem nodup_links_run {es : List Event} {s : App}
    (h : run (App.step K) (App.start Realm.empty) es = .ok s) : s.realm.links.Nodup := by
  have hempty : Realm.empty.links.Nodup := List.nodup_nil
  have hi : s.Inv := run_inv (fun _ _ _ hi hs => hi.step K hs) (App.inv_start hempty) h
  exact hi.owned

/-- **A row action hits exactly the displayed item.**  In every run on a store whose items have at
most one owner, a row of the open list shows an item of its category.  Selecting the row flips
`done` of that item and changes nothing else; swiping it deletes that item, from the store and from
its category, and takes the row out of the display. -/
theorem row_actions_exact (hK : K.Ordered) {r : Realm} (hr : r.links.Nodup) {es : List Event}
    {s : App} (h : run (App.step K) (App.start r) es = .ok s) {vc : TodoListViewController}
    (hvc : s.todoList = some vc) {row : ℕ} (hrow : row < vc.tableView.rows) :
    ∃ c x, vc.selectedCategory = some c ∧ s.displayed[row]? = some x ∧ x ∈ s.realm.items ∧
      (∃ s', s.step K (.selectItem row true) = .ok s' ∧
        s'.realm.items = s.realm.items.map (fun y => if y = x then x.toggled else y) ∧
        s'.realm.categories = s.realm.categories ∧
        s'.displayed = s.displayed.set row x.toggled) ∧
      ∃ s', s.step K (.swipeItem .right row true) = .ok s' ∧
        s'.realm.items = s.realm.items.filter (· ≠ x) ∧
        s'.realm.categories = s.realm.categories.map (fun k =>
          if k.id = c then { k with items := k.items.erase x.id } else k) ∧
        s'.displayed = s.displayed.eraseIdx row := by
  have hi : s.Inv := run_inv (fun _ _ _ hi hs => hi.step K hs) (App.inv_start hr) h
  have hf : Follows K s (searches es) := by
    refine run_follows (R := Follows K) (f := Searches.after)
      (fun _ _ _ _ hf hs => follows_step K hf hs) ?_ h
    intro vc hvc
    cases hvc
  obtain ⟨-, c, hc, hq⟩ := hf vc hvc
  obtain ⟨q, x, hq', hx, hitem⟩ := itemAt_of_lt hi hvc hrow
  obtain rfl : (⟨c, (searches es).stages K⟩ : ItemResults) = q := by
    rw [hq] at hq'
    exact Option.some.inj hq'
  have hdisplayed : s.displayed = eval ((searches es).stages K) (s.realm.listItems c) := by
    simp only [App.displayed, hvc, displayed, hq, ItemResults.items]
  have hmem : x ∈ s.realm.listItems c := (mem_eval.mp (List.mem_of_getElem? hx)).1
  have hstored : x ∈ s.realm.items := (mem_of_mem_listItems hmem).1
  refine ⟨c, x, hc, by rw [hdisplayed]; exact hx, hstored, ?_, ?_⟩
  · have hstep : s.step K (.selectItem row true) = .ok { s with
        realm := s.realm.toggleDone x.id
        todoList := some (vc.reloadData (s.realm.toggleDone x.id)) } := by
      simp only [step_items K hvc, App.stepItems, if_pos hrow, didSelectRowAt, hitem,
        Realm.write_commits]
      rfl
    refine ⟨_, hstep, items_toggleDone hstored, rfl, ?_⟩
    rw [hdisplayed, ← eval_toggleDone hi.owned hx]
    simp only [App.displayed, displayed, reloadData, hq, ItemResults.items]
  · have hmodel : vc.updateModel s.realm row true = .ok (s.realm.deleteItem x.id) := by
      simp only [TodoListViewController.updateModel, hitem, Realm.write_commits]
    have hcount : vc.numberOfRowsInSection (s.realm.deleteItem x.id) + 1 = vc.tableView.rows := by
      rw [(hi.todoList vc hvc).rows]
      simp only [numberOfRowsInSection, hq]
      exact length_items_deleteItem s.realm hi.owned (List.mem_of_getElem? hx)
    have hstep : s.step K (.swipeItem .right row true) = .ok { s with
        realm := s.realm.deleteItem x.id
        todoList := some { vc with tableView :=
          ⟨vc.numberOfRowsInSection (s.realm.deleteItem x.id)⟩ } } := by
      simp only [step_items K hvc, App.stepItems, hmodel, swipe_right hrow, if_pos hcount]
      rfl
    refine ⟨_, hstep, items_deleteItem hstored, categories_deleteItem hi.owned hmem, ?_⟩
    rw [hdisplayed, ← eval_deleteItem hi.owned hx hK]
    simp only [App.displayed, displayed, hq, ItemResults.items]

/-! ### The plain order of texts -/

lemma Collation.plain_ordered : Collation.plain.Ordered where
  trans _ _ _ := Text.le_trans
  total _ _ := Text.le_total _ _

/-- Two items, both found by a search. -/
def found : List Event :=
  [.addCategory "Shopping" "0096FF" true, .selectCategory 0, .addItem "butter" 0 true,
    .addItem "bread" 1 true, .textDidChange "b", .searchButtonClicked]

/-- The older of the two is in the second row. -/
theorem row_actions_exact_found :
    ∃ s s' s'', run (App.step .plain) (App.start Realm.empty) found = .ok s ∧
      s.step .plain (.selectItem 1 true) = .ok s' ∧
      s'.displayed = [⟨2, "bread", false, 1⟩, ⟨1, "butter", true, 0⟩] ∧
      s.step .plain (.swipeItem .right 1 true) = .ok s'' ∧
      s''.displayed = [⟨2, "bread", false, 1⟩] := by
  obtain ⟨s, vc, hs, hvc, hrow, hd⟩ : ∃ s vc,
      run (App.step .plain) (App.start Realm.empty) found = .ok s ∧ s.todoList = some vc ∧
        1 < vc.tableView.rows ∧
        s.displayed = [⟨2, "bread", false, 1⟩, ⟨1, "butter", false, 0⟩] :=
    ⟨_, _, rfl, rfl, by decide +kernel, by decide +kernel⟩
  obtain ⟨c, x, -, hx, -, ⟨s', hs', -, -, hd'⟩, ⟨s'', hs'', -, -, hd''⟩⟩ :=
    row_actions_exact Collation.plain_ordered (r := Realm.empty) List.nodup_nil hs hvc hrow
  rw [hd] at hx hd' hd''
  cases hx
  exact ⟨s, s', s'', hs, hs', hd', hs'', hd''⟩

end IosDevBootcamp.Todoey
