import Mathlib.Data.List.InsertIdx
import IosDevBootcamp.Todoey.Actions

/-!
# Todoey: a notebook

What the app is for: a notebook has pages of notes, and shows the notes of one page as its searches
order them.  It knows nothing of identities, links and live queries.  Every run of the app goes as
the notebook goes.
-/

namespace IosDevBootcamp.Todoey

open IosDevBootcamp.Lib IosDevBootcamp.Lib.Query IosDevBootcamp.Lib.Run TodoListViewController

/-! ### The notebook -/

structure Note where
  title : String
  done : Bool
  timestamp : Date
  deriving DecidableEq, Repr

def Note.toggled (x : Note) : Note := { x with done := !x.done }

structure Page where
  name : String
  color : String
  notes : List Note
  deriving DecidableEq, Repr

def Page.edit (f : List Note → List Note) (p : Page) : Page := { p with notes := f p.notes }

/-- The pages, the number of the open one, and what was searched on it. -/
structure Notebook where
  pages : List Page
  opened : Option ℕ
  searches : Searches

/-- Notes with their places: by title, and after a search those that contain the text, latest
first. -/
def Searches.order (K : Collation) (h : Searches) : Stages (Note × ℕ) :=
  .sorted (fun a b => K.le a.1.title b.1.title) :: h.searched.flatMap fun text =>
    [.filter fun a => K.containsCD a.1.title text,
      .sorted fun a b => decide (b.1.timestamp ≤ a.1.timestamp)]

namespace Notebook

variable (K : Collation) (b : Notebook)

/-- The notes that are shown, with their places on the page. -/
def shown : List (Note × ℕ) :=
  match b.opened.bind (b.pages[·]?) with
  | some p => eval (b.searches.order K) p.notes.zipIdx
  | none => []

def editPage (f : List Note → List Note) : Notebook :=
  match b.opened with
  | some n => { b with pages := b.pages.modify n (Page.edit f) }
  | none => b

/-- An edit of the page at the place of the note that is shown in a row. -/
def editRow (row : ℕ) (f : ℕ → List Note → List Note) : Notebook :=
  match (b.shown K)[row]? with
  | some a => b.editPage (f a.2)
  | none => b

def write : Event → Notebook
  | .addCategory name color true => { b with pages := b.pages ++ [⟨name, color, []⟩] }
  | .swipeCategory .right row true => { b with pages := b.pages.eraseIdx row }
  | .addItem title now true => b.editPage (· ++ [⟨title, false, now⟩])
  | .selectItem row true => b.editRow K row fun place notes => notes.modify place Note.toggled
  | .swipeItem .right row true => b.editRow K row fun place notes => notes.eraseIdx place
  | _ => b

def openedAfter : Event → Option ℕ
  | .selectCategory row => some row
  | .back => none
  | _ => b.opened

def after (e : Event) : Notebook := ⟨(b.write K e).pages, b.openedAfter e, b.searches.after e⟩

end Notebook

/-! ### The pages of a store -/

def Item.note (x : Item) : Note := ⟨x.title, x.done, x.timestamp⟩

def Realm.page (r : Realm) (k : Category) : Page := ⟨k.name, k.color, (r.listItems k.id).map Item.note⟩

def Realm.pages (r : Realm) : List Page := r.categories.map r.page

section Pages

variable {r r' : Realm} {k : Category} {n : ℕ}

lemma lookup_category (hk : k ∈ r.categories) :
    Keyed.lookup Category.id r.categories k.id = some k :=
  Keyed.lookup_of_mem r.valid.categories_nodup hk

/-- A write that changes one list edits one page. -/
lemma pages_edit {f : List Note → List Note}
    (hcategories : r'.categories.map (fun k => (k.id, k.name, k.color)) =
      r.categories.map fun k => (k.id, k.name, k.color))
    (hk : r.categories[n]? = some k)
    (hself : (r'.listItems k.id).map Item.note = f ((r.listItems k.id).map Item.note))
    (hother : ∀ c ∈ r.categoryIds, c ≠ k.id → r'.listItems c = r.listItems c) :
    r'.pages = r.pages.modify n (Page.edit f) := by
  apply List.ext_getElem?
  intro i
  have hget := congrArg (·[i]?) hcategories
  simp only [List.getElem?_map] at hget
  rw [Realm.pages, Realm.pages, List.getElem?_modify, List.getElem?_map, List.getElem?_map]
  cases hi : r.categories[i]? with
  | none =>
    rw [hi, Option.map_none, Option.map_eq_none_iff] at hget
    rw [hget]
    rfl
  | some j =>
    rw [hi, Option.map_some] at hget
    obtain ⟨j', hj', heq⟩ := Option.map_eq_some_iff.mp hget
    simp only [Prod.mk.injEq] at heq
    rw [hj', Option.map_some, Option.map_some, Option.map_eq_map, Option.map_some, Option.some_inj]
    by_cases hni : n = i
    · subst hni
      obtain rfl : k = j := Option.some_inj.mp (hk.symm.trans hi)
      simp only [if_pos, Realm.page, Page.edit, heq.1, heq.2.1, heq.2.2, hself]
    · have hne : j.id ≠ k.id := by
        intro hid
        have hnodup : (r.categories.map Category.id).Nodup := r.valid.categories_nodup
        have hget : ∀ {m : ℕ} {c : Category}, r.categories[m]? = some c →
            (r.categories.map Category.id)[m]? = some c.id :=
          fun hc => by rw [List.getElem?_map, hc, Option.map_some]
        have hlt : n < (r.categories.map Category.id).length :=
          (List.getElem?_eq_some_iff.mp (hget hk)).1
        exact hni ((List.getElem?_inj hlt hnodup).mp ((hget hk).trans (hid ▸ (hget hi).symm)))
      have hlist := hother j.id (List.mem_map_of_mem (List.mem_of_getElem? hi)) hne
      simp only [if_neg hni, Realm.page, heq.1, heq.2.1, heq.2.2, hlist]

lemma pages_addCategory (r : Realm) (name color : String) :
    (r.addCategory name color).pages = r.pages ++ [⟨name, color, []⟩] := by
  have hold : ∀ k ∈ r.categories, (r.addCategory name color).page k = r.page k := by
    intro k hk
    have hlookup : Keyed.lookup Category.id (r.addCategory name color).categories k.id = some k := by
      refine (Keyed.lookup_concat_of_ne ?_).trans (lookup_category hk)
      exact Nat.ne_of_lt (r.valid.categories_lt k.id (List.mem_map_of_mem hk))
    have hlist : (r.addCategory name color).listItems k.id = r.listItems k.id := by
      simp only [Tables.listItems, hlookup, lookup_category hk]
      rfl
    rw [Realm.page, Realm.page, hlist]
  have hnew : (r.addCategory name color).page ⟨r.next, name, color, []⟩ = ⟨name, color, []⟩ := by
    have hmem : (⟨r.next, name, color, []⟩ : Category) ∈ (r.addCategory name color).categories :=
      List.mem_append_right _ List.mem_cons_self
    simp [Realm.page, Tables.listItems, lookup_category hmem]
  have hcategories : (r.addCategory name color).categories =
      r.categories ++ [⟨r.next, name, color, []⟩] := rfl
  rw [Realm.pages, hcategories, List.map_append, List.map_cons, List.map_nil, hnew,
    List.map_congr_left hold]
  rfl

lemma pages_deleteCategory (hk : r.categories[n]? = some k) :
    (r.deleteCategory k.id).pages = r.pages.eraseIdx n := by
  have hcategories : (r.deleteCategory k.id).categories = r.categories.eraseIdx n :=
    Keyed.erase_eq_eraseIdx r.valid.categories_nodup hk
  have hold : ∀ j ∈ r.categories.eraseIdx n, (r.deleteCategory k.id).page j = r.page j := by
    intro j hj
    have hmem : j ∈ r.categories := List.mem_of_mem_eraseIdx hj
    have hlookup := lookup_category (r := r.deleteCategory k.id) (hcategories ▸ hj)
    have hlist : (r.deleteCategory k.id).listItems j.id = r.listItems j.id := by
      simp only [Tables.listItems, hlookup, lookup_category hmem]
      rfl
    rw [Realm.page, Realm.page, hlist]
  rw [Realm.pages, Realm.pages, List.eraseIdx_map, hcategories, List.map_congr_left hold]

lemma pages_appendItem (hk : r.categories[n]? = some k) (title : String) (now : Date) :
    (r.appendItem k.id title now).pages =
      r.pages.modify n (Page.edit (· ++ [⟨title, false, now⟩])) := by
  have hmem : k ∈ r.categories := List.mem_of_getElem? hk
  have hcategory : ∀ c, Keyed.lookup Category.id (r.appendItem k.id title now).categories c =
      (Keyed.lookup Category.id r.categories c).map
        fun j => if j.id = k.id then j.append r.next else j := by
    intro c
    exact Keyed.lookup_map fun j => by split <;> rfl
  -- the links of the old lists lead to the items they led to
  have hitem : ∀ c ∈ r.categories, c.items.filterMap
      (Keyed.lookup Item.id (r.items ++ [⟨r.next, title, false, now⟩])) =
        c.items.filterMap (Keyed.lookup Item.id r.items) := by
    intro c hc
    refine List.filterMap_congr fun i hi => Keyed.lookup_concat_of_ne ?_
    have hlink : i ∈ r.links := List.mem_flatMap.mpr ⟨c, hc, hi⟩
    exact Nat.ne_of_lt (r.valid.items_lt i (r.valid.links_mem i hlink))
  have hnew : Keyed.lookup Item.id (r.items ++ [⟨r.next, title, false, now⟩]) r.next =
      some ⟨r.next, title, false, now⟩ :=
    Keyed.lookup_concat_self (x := (⟨r.next, title, false, now⟩ : Item))
      fun h => Nat.lt_irrefl _ (r.valid.items_lt _ h)
  have hitems : (r.appendItem k.id title now).items = r.items ++ [⟨r.next, title, false, now⟩] := rfl
  refine pages_edit ?_ hk ?_ ?_
  · change (Keyed.modify _ _ _ _).map _ = _
    rw [Keyed.modify, List.map_map]
    refine List.map_congr_left fun j _ => ?_
    rw [Function.comp_apply]
    split <;> rfl
  · simp only [Tables.listItems, hcategory, lookup_category hmem, Option.map_some, if_pos, hitems]
    rw [Category.append, List.filterMap_append, hitem k hmem, List.map_append]
    simp [hnew, Item.note]
  · intro c hc hne
    obtain ⟨j, hj, rfl⟩ := List.mem_map.mp hc
    simp only [Tables.listItems, hcategory, lookup_category hj, Option.map_some, if_neg hne, hitems,
      hitem j hj]

section Items

variable {place : ℕ} {x : Item}

/-- No other list has an item of the list. -/
lemma notMem_ids_listItems (hr : r.links.Nodup) (hx : x ∈ r.listItems k.id) {c : ObjectId}
    (hne : c ≠ k.id) : x.id ∉ (r.listItems c).map Item.id := by
  intro hmem
  obtain ⟨y, hy, hid⟩ := List.mem_map.mp hmem
  obtain ⟨-, j, hj, hjid, hjx⟩ := mem_of_mem_listItems hx
  obtain ⟨-, i, hi, hic, hiy⟩ := mem_of_mem_listItems hy
  have hsymm : Std.Symm (Function.onFun List.Disjoint fun k : Category => k.items) :=
    ⟨fun _ _ hd _ ha hb => hd hb ha⟩
  have hji : j ≠ i := fun heq => hne (hic.symm.trans ((heq ▸ rfl : i.id = j.id).trans hjid))
  exact (List.nodup_flatMap.mp hr).2.forall hj hi hji hjx (hid ▸ hiy)

lemma pages_toggleDone (hr : r.links.Nodup) (hk : r.categories[n]? = some k)
    (hx : (r.listItems k.id)[place]? = some x) :
    (r.toggleDone x.id).pages =
      r.pages.modify n (Page.edit fun notes => notes.modify place Note.toggled) := by
  have hlist : ∀ c, (r.toggleDone x.id).listItems c =
      Keyed.modify Item.id Item.toggled (r.listItems c) x.id := Tables.listItems_toggleDone _ _
  refine pages_edit rfl hk ?_ ?_
  · rw [hlist, Keyed.modify_eq_set (nodup_ids_listItems r.valid hr k.id) hx]
    apply List.ext_getElem?
    intro i
    rw [List.getElem?_map, List.getElem?_modify, List.getElem?_map]
    by_cases hi : place = i
    · subst hi
      obtain ⟨hlt, heq⟩ := List.getElem?_eq_some_iff.mp hx
      rw [List.getElem?_set_self hlt, hx]
      simp [Item.note, Item.toggled, Note.toggled]
    · rw [List.getElem?_set_ne hi]
      simp [hi]
  · intro c hc hne
    rw [hlist]
    exact Keyed.modify_of_notMem (notMem_ids_listItems hr (List.mem_of_getElem? hx) hne)

lemma pages_deleteItem (hr : r.links.Nodup) (hk : r.categories[n]? = some k)
    (hx : (r.listItems k.id)[place]? = some x) :
    (r.deleteItem x.id).pages =
      r.pages.modify n (Page.edit fun notes => notes.eraseIdx place) := by
  have hlist : ∀ c, (r.deleteItem x.id).listItems c = Keyed.erase Item.id (r.listItems c) x.id :=
    Tables.listItems_deleteItem _ _
  refine pages_edit ?_ hk ?_ ?_
  · change (List.map _ r.categories).map _ = _
    rw [List.map_map]
    rfl
  · rw [hlist, Keyed.erase_eq_eraseIdx (nodup_ids_listItems r.valid hr k.id) hx, List.eraseIdx_map]
  · intro c hc hne
    rw [hlist]
    exact Keyed.erase_of_notMem (notMem_ids_listItems hr (List.mem_of_getElem? hx) hne)

end Items

end Pages

/-! ### The app and the notebook -/

variable {K : Collation} {s s' : App} {b : Notebook} {vc : TodoListViewController} {n : ℕ}
  {k : Category}

/-- The notebook of an app. -/
structure Models (K : Collation) (s : App) (b : Notebook) : Prop where
  inv : s.Inv
  pages : s.realm.pages = b.pages
  follows : Follows K s b.searches
  closed : s.todoList = none → b.opened = none
  opened : ∀ vc, s.todoList = some vc → ∃ n k, b.opened = some n ∧
    s.realm.categories[n]? = some k ∧ vc.selectedCategory = some k.id

/-- The notes of the open list, with their places. -/
lemma shown_eq (hs : s.realm.links.Nodup) (hpages : s.realm.pages = b.pages)
    (hn : b.opened = some n) (hk : s.realm.categories[n]? = some k) :
    b.shown K = (eval (b.searches.stages K) (s.realm.listItems k.id)).map
      fun x => (x.note, (s.realm.listItems k.id).idxOf x) := by
  have hids := nodup_ids_listItems s.realm.valid hs k.id
  have hzip : ((s.realm.listItems k.id).map Item.note).zipIdx =
      (s.realm.listItems k.id).map fun x => (x.note, (s.realm.listItems k.id).idxOf x) := by
    apply List.ext_getElem?
    intro i
    rw [List.getElem?_zipIdx, List.getElem?_map, List.getElem?_map]
    cases hi : (s.realm.listItems k.id)[i]? with
    | none => rfl
    | some x =>
      obtain ⟨hlt, rfl⟩ := List.getElem?_eq_some_iff.mp hi
      simp [hids.of_map.idxOf_getElem i hlt]
  have hpage : b.pages[n]? = some (s.realm.page k) := by
    rw [← hpages, Realm.pages, List.getElem?_map, hk, Option.map_some]
  have hstages : (b.searches.order K).map (Stage.comap fun x : Item =>
      (x.note, (s.realm.listItems k.id).idxOf x)) = b.searches.stages K := by
    simp only [Searches.order, Searches.stages, List.map_cons, List.map_flatMap]
    rfl
  rw [Notebook.shown, hn, Option.bind_some, hpage]
  simp only [Realm.page]
  rw [hzip, eval_comap, hstages]

lemma displayed_eq (h : Models K s b) (hvc : s.todoList = some vc)
    (hc : vc.selectedCategory = some k.id) :
    s.displayed = eval (b.searches.stages K) (s.realm.listItems k.id) := by
  obtain ⟨-, c, hsel, hq⟩ := h.follows vc hvc
  obtain rfl : k.id = c := Option.some_inj.mp (hc.symm.trans hsel)
  simp only [App.displayed, hvc, displayed, hq, ItemResults.items]

/-- The item of a row stands at the place that the notebook shows in the row. -/
lemma exists_place (h : Models K s b) (hvc : s.todoList = some vc) {row : ℕ} {x : Item}
    (hx : vc.itemAt s.realm row = .ok (some x)) (hn : b.opened = some n)
    (hk : s.realm.categories[n]? = some k) (hc : vc.selectedCategory = some k.id) :
    ∃ place, (s.realm.listItems k.id)[place]? = some x ∧
      (b.shown K)[row]? = some (x.note, place) := by
  obtain ⟨-, c, hsel, hq⟩ := h.follows vc hvc
  obtain rfl : k.id = c := Option.some_inj.mp (hc.symm.trans hsel)
  have hrow : (eval (b.searches.stages K) (s.realm.listItems k.id))[row]? = some x := by
    simp only [itemAt, hq, ItemResults.items] at hx
    split at hx
    · rename_i y hy
      cases hx
      exact hy
    · cases hx
  have hmem : x ∈ s.realm.listItems k.id := (mem_eval.mp (List.mem_of_getElem? hrow)).1
  refine ⟨(s.realm.listItems k.id).idxOf x, ?_, ?_⟩
  · have hlt := List.idxOf_lt_length_of_mem hmem
    rw [List.getElem?_eq_getElem hlt, List.getElem_idxOf]
  · rw [shown_eq h.inv.owned h.pages hn hk, List.getElem?_map, hrow]
    rfl

lemma itemAt_ne_none (h : Models K s b) (hvc : s.todoList = some vc) {row : ℕ} :
    vc.itemAt s.realm row ≠ .ok none := by
  obtain ⟨-, c, -, hq⟩ := h.follows vc hvc
  intro hx
  simp only [itemAt, hq] at hx
  split at hx <;> cases hx

/-- An event of the open list leaves it open on the same page. -/
lemma Models.list {r : Realm} {vc' : TodoListViewController} {b' : Notebook} (h : Models K s b)
    (hvc : s.todoList = some vc) (hids : r.categoryIds = s.realm.categoryIds)
    (hsel : vc'.selectedCategory = vc.selectedCategory) (hopened : b'.opened = b.opened)
    (hpages : r.pages = b'.pages) (hinv : App.Inv { s with realm := r, todoList := some vc' })
    (hfollows : Follows K { s with realm := r, todoList := some vc' } b'.searches) :
    Models K { s with realm := r, todoList := some vc' } b' := by
  refine ⟨hinv, hpages, hfollows, nofun, fun _ hvc' => ?_⟩
  cases hvc'
  obtain ⟨n, k, hn, hk, hc⟩ := h.opened vc hvc
  have hget := congrArg (·[n]?) hids
  simp only [Tables.categoryIds, List.getElem?_map, hk, Option.map_some] at hget
  obtain ⟨k', hk', hid⟩ := Option.map_eq_some_iff.mp hget
  exact ⟨n, k', hopened.trans hn, hk', by rw [hsel, hc, hid]⟩

/-- An edit of the open page, from what the write does to the pages. -/
lemma editPage_pages {f : List Note → List Note} (hn : b.opened = some n) :
    (b.editPage f).pages = b.pages.modify n (Page.edit f) := by
  rw [Notebook.editPage, hn]

lemma editRow_pages {f : ℕ → List Note → List Note} {row place : ℕ} {x : Note}
    (hn : b.opened = some n) (hrow : (b.shown K)[row]? = some (x, place)) :
    (b.editRow K row f).pages = b.pages.modify n (Page.edit (f place)) := by
  rw [Notebook.editRow, hrow]
  exact editPage_pages hn

/-- **The notebook goes with the app.** -/
lemma models_step {e : Event} (h : Models K s b) (hs : s.step K e = .ok s') :
    Models K s' (b.after K e) := by
  have hinv := h.inv.step K hs
  have hfollows : Follows K s' (b.after K e).searches := follows_step K h.follows hs
  obtain ⟨hnone, hc⟩ | ⟨vc, hvc, hi⟩ := step_cases K hs
  · have hclosed := h.closed hnone
    cases hc with
    | addCategory name color commits hr =>
      refine ⟨hinv, ?_, hfollows, fun _ => hclosed, nofun⟩
      cases commits with
      | true => rw [hr, Realm.write_commits, pages_addCategory, h.pages]; rfl
      | false => rw [hr]; exact h.pages
    | swipeLeft hrow commits => exact ⟨hinv, h.pages, hfollows, fun _ => hclosed, nofun⟩
    | swipeRight hrow hk commits hr =>
      refine ⟨hinv, ?_, hfollows, fun _ => hclosed, nofun⟩
      cases commits with
      | true => rw [hr, Realm.write_commits, pages_deleteCategory hk, h.pages]; rfl
      | false => rw [hr]; exact h.pages
    | selectCategory hrow hk =>
      refine ⟨hinv, h.pages, hfollows, nofun, fun vc hvc => ?_⟩
      cases hvc
      exact ⟨_, _, rfl, hk, rfl⟩
  · obtain ⟨n, k, hn, hk, hsel⟩ := h.opened vc hvc
    cases hi with
    | back => exact ⟨hinv, h.pages, hfollows, fun _ => rfl, nofun⟩
    | addItem hsel' hc title now commits hr =>
      obtain rfl := Option.some_inj.mp (hsel'.symm.trans hsel)
      subst hr
      cases commits with
      | true =>
        refine h.list hvc Tables.categoryIds_appendItem rfl rfl ?_ hinv hfollows
        rw [Realm.write_commits, pages_appendItem hk, h.pages]
        exact (editPage_pages hn).symm
      | false => exact h.list hvc rfl rfl rfl h.pages hinv hfollows
    | addNowhere hsel' title now commits => cases hsel'.symm.trans hsel
    | selectItem hrow hx commits hr =>
      obtain ⟨place, hplace, hshown⟩ := exists_place h hvc hx hn hk hsel
      subst hr
      cases commits with
      | true =>
        refine h.list hvc rfl rfl rfl ?_ hinv hfollows
        rw [Realm.write_commits, pages_toggleDone h.inv.owned hk hplace, h.pages]
        exact (editRow_pages hn hshown).symm
      | false => exact h.list hvc rfl rfl rfl h.pages hinv hfollows
    | swipeRight hrow hx commits hr =>
      obtain ⟨place, hplace, hshown⟩ := exists_place h hvc hx hn hk hsel
      subst hr
      cases commits with
      | true =>
        refine h.list hvc Tables.categoryIds_deleteItem rfl rfl ?_ hinv hfollows
        rw [Realm.write_commits, pages_deleteItem h.inv.owned hk hplace, h.pages]
        exact (editRow_pages (f := fun place notes => notes.eraseIdx place) hn hshown).symm
      | false => exact h.list hvc rfl rfl rfl h.pages hinv hfollows
    | textDidChange searchText =>
      refine h.list hvc rfl ?_ rfl h.pages hinv hfollows
      simp only [TodoListViewController.textDidChange]
      split <;> rfl
    | searchButtonClicked => exact h.list hvc rfl rfl rfl h.pages hinv hfollows
    | swipeLeft hrow commits => exact h.list hvc rfl rfl rfl h.pages hinv hfollows
    | selectNothing hrow hx commits => exact absurd hx (itemAt_ne_none h hvc)
    | swipeNothing hrow hx commits => exact absurd hx (itemAt_ne_none h hvc)

/-- The notebook after a run that starts with some pages. -/
def notebook (K : Collation) (pages : List Page) (es : List Event) : Notebook :=
  es.foldl (Notebook.after K) ⟨pages, none, ⟨"", []⟩⟩

/-- **The app is a notebook.**  In every run, from any store whose items have at most one owner, the
store holds the pages of the notebook, and the open list shows its notes, row by row. -/
theorem refines_notebook {r : Realm} (hr : r.links.Nodup) {es : List Event}
    (h : run (App.step K) (App.start r) es = .ok s) :
    s.realm.pages = (notebook K r.pages es).pages ∧
      s.displayed.map Item.note = ((notebook K r.pages es).shown K).map Prod.fst := by
  have hstart : Models K (App.start r) ⟨r.pages, none, ⟨"", []⟩⟩ :=
    ⟨App.inv_start hr, rfl, nofun, fun _ => rfl, nofun⟩
  have hmodels : Models K s (notebook K r.pages es) :=
    run_follows (R := Models K) (f := Notebook.after K)
      (fun _ _ _ _ h hs => models_step h hs) hstart h
  refine ⟨hmodels.pages, ?_⟩
  cases hvc : s.todoList with
  | none => simp [App.displayed, hvc, Notebook.shown, hmodels.closed hvc]
  | some vc =>
    obtain ⟨n, k, hn, hk, hc⟩ := hmodels.opened vc hvc
    rw [displayed_eq hmodels hvc hc, shown_eq hmodels.inv.owned hmodels.pages hn hk, List.map_map]
    rfl

theorem refines_notebook_found :
    ∃ s, run (App.step .plain) (App.start Realm.empty) found = .ok s ∧
      s.realm.pages = [⟨"Shopping", "0096FF", [⟨"butter", false, 0⟩, ⟨"bread", false, 1⟩]⟩] ∧
      s.displayed.map Item.note = [⟨"bread", false, 1⟩, ⟨"butter", false, 0⟩] := by
  obtain ⟨s, hs⟩ : ∃ s, run (App.step .plain) (App.start Realm.empty) found = .ok s := ⟨_, rfl⟩
  obtain ⟨hpages, hshown⟩ := refines_notebook (r := Realm.empty) List.nodup_nil hs
  exact ⟨s, hs, hpages, hshown.trans (by decide +kernel)⟩

end IosDevBootcamp.Todoey
