import IosDevBootcamp.Lib.Query
import IosDevBootcamp.Lib.Run
import IosDevBootcamp.Lib.TableView
import IosDevBootcamp.Lib.Text
import IosDevBootcamp.Todoey.Realm

/-!
# Todoey: the two lists

`CategoryViewControllerTableViewController` lists the categories and `TodoListViewController` the
items of the one that was selected; both get their swipe from `SwipeTableViewController`.  The list
of items is a live query that opening, adding and clearing the search field build afresh and that a
search extends.  Whether a write commits or throws is part of the event.
-/

namespace IosDevBootcamp.Todoey

open IosDevBootcamp.Lib IosDevBootcamp.Lib.Query

/-- How the database compares strings: `CONTAINS[cd]`, and the order of a sort by a string key. -/
structure Collation where
  containsCD : String → String → Bool
  le : String → String → Bool

/-- Substrings whatever the case of the letters, and the order of the code points. -/
def Collation.plain : Collation where
  containsCD s t :=
    (s.toList.map Char.toLower).tails.any (t.toList.map Char.toLower).isPrefixOf
  le s t := Text.le s.toList t.toList

inductive Fault
  /-- The event cannot happen now. -/
  | disabled
  /-- A row past the end of the results. -/
  | indexOutOfRange
  /-- A row update that does not fit the data source. -/
  | inconsistentUpdate
  /-- The use of a deleted object. -/
  | invalidated
  deriving DecidableEq, Repr

/-! ### Swipes -/

inductive SwipeActionsOrientation
  | left
  | right
  deriving DecidableEq, Repr

inductive SwipeActionStyle
  | default
  | destructive
  deriving DecidableEq, Repr

structure SwipeAction where
  style : SwipeActionStyle
  title : String
  image : String
  deriving DecidableEq, Repr

namespace SwipeTableViewController

def editActionsForRowAt : SwipeActionsOrientation → Option (List SwipeAction)
  | .right => some [⟨.destructive, "Delete", "trash-icon"⟩]
  | .left => none

/-- The handler of the action runs `updateModel`; a destructive action then deletes the row. -/
def perform (action : SwipeAction) (updateModel : Except Fault Realm) (count : Realm → ℕ)
    (t : TableView) (row : ℕ) : Except Fault (Realm × TableView) :=
  match updateModel with
  | .error f => .error f
  | .ok r =>
    match action.style with
    | .default => .ok (r, t)
    | .destructive =>
      match t.deleteRow (count r) row with
      | some t => .ok (r, t)
      | none => .error .inconsistentUpdate

/-- A swipe of a row, up to its first action. -/
def swipe (orientation : SwipeActionsOrientation) (r : Realm) (updateModel : Except Fault Realm)
    (count : Realm → ℕ) (t : TableView) (row : ℕ) : Except Fault (Realm × TableView) :=
  if row < t.rows then
    match editActionsForRowAt orientation with
    | some (action :: _) => perform action updateModel count t row
    | _ => .ok (r, t)
  else .error .disabled

end SwipeTableViewController

/-! ### The list of items -/

/-- `Results<Item>`: stages over the list of a category. -/
structure ItemResults where
  list : ObjectId
  stages : Stages Item

def ItemResults.items (q : ItemResults) (r : Realm) : List Item :=
  eval q.stages (r.listItems q.list)

structure TodoListViewController where
  selectedCategory : Option ObjectId
  todoItems : Option ItemResults
  searchBar : String
  tableView : TableView

namespace TodoListViewController

variable (K : Collation) (vc : TodoListViewController) (r : Realm)

/-- `sorted(byKeyPath: "title", ascending: true)`. -/
def byTitle : Stage Item := .sorted fun a b => K.le a.title b.title

/-- `sorted(byKeyPath: "timestamp", ascending: false)`. -/
def newestFirst : Stage Item := .sorted fun a b => decide (b.timestamp ≤ a.timestamp)

/-- `filter("title CONTAINS[cd] %@", text)`. -/
def titleContains (text : String) : Stage Item := .filter fun i => K.containsCD i.title text

def displayed : List Item :=
  match vc.todoItems with
  | some q => q.items r
  | none => []

def numberOfRowsInSection : ℕ :=
  match vc.todoItems with
  | some q => (q.items r).length
  | none => 1

def reloadData : TodoListViewController :=
  { vc with tableView := vc.tableView.reloadData (vc.numberOfRowsInSection r) }

def loadItems : TodoListViewController :=
  { vc with todoItems := vc.selectedCategory.map fun c => ⟨c, [byTitle K]⟩ }.reloadData r

/-- `todoItems?[row]`. -/
def itemAt (row : ℕ) : Except Fault (Option Item) :=
  match vc.todoItems with
  | none => .ok none
  | some q =>
    match (q.items r)[row]? with
    | some item => .ok (some item)
    | none => .error .indexOutOfRange

def didSelectRowAt (row : ℕ) (commits : Bool) : Except Fault (Realm × TodoListViewController) :=
  match vc.itemAt r row with
  | .error f => .error f
  | .ok item =>
    let r := match item with
      | some item => r.write commits (Realm.toggleDone item.id)
      | none => r
    .ok (r, vc.reloadData r)

/-- `addNewItem`, once its alert is submitted. -/
def addNewItem (title : String) (now : Date) (commits : Bool) :
    Except Fault (Realm × TodoListViewController) :=
  match vc.selectedCategory with
  | none => .ok (r, vc.loadItems K r)
  | some category =>
    if category ∈ r.categoryIds then
      let r := r.write commits (Realm.appendItem category title now)
      .ok (r, vc.loadItems K r)
    else .error .invalidated

def updateModel (row : ℕ) (commits : Bool) : Except Fault Realm :=
  match vc.itemAt r row with
  | .error f => .error f
  | .ok none => .ok r
  | .ok (some item) => .ok (r.write commits (Realm.deleteItem item.id))

def searchBarSearchButtonClicked : TodoListViewController :=
  let todoItems := vc.todoItems.map fun q : ItemResults =>
    { q with stages := q.stages ++ [titleContains K vc.searchBar, newestFirst] }
  { vc with todoItems }.reloadData r

/-- `searchBar(_:textDidChange:)`, after the text of the bar has become `searchText`. -/
def textDidChange (searchText : String) : TodoListViewController :=
  let vc := { vc with searchBar := searchText }
  if vc.searchBar = "" then vc.loadItems K r else vc

end TodoListViewController

/-! ### The list of categories -/

/-- The app: the category list, which is always there, and the list of items when it is open. -/
structure App where
  realm : Realm
  tableView : TableView
  todoList : Option TodoListViewController

/-- The app on an empty store. -/
def launch : App := ⟨Realm.empty, ⟨0⟩, none⟩

namespace CategoryViewController

variable (r : Realm) (t : TableView)

/-- `categories` is set in `viewDidLoad` to the live results of all categories. -/
def numberOfRowsInSection : ℕ := r.categories.length

def saveCategories (name color : String) (commits : Bool) : Except Fault (Realm × TableView) :=
  let r := r.write commits (Realm.addCategory name color)
  let index := numberOfRowsInSection r
  match t.insertRow (numberOfRowsInSection r) ((index : ℤ) - 1) with
  | some t => .ok (r, t)
  | none => .error .inconsistentUpdate

def updateModel (row : ℕ) (commits : Bool) : Except Fault Realm :=
  match r.categories[row]? with
  | some itemToDelete => .ok (r.write commits (Realm.deleteCategory itemToDelete.id))
  | none => .error .indexOutOfRange

/-- `prepare(for:)` of the segue to the items: the list is loaded when its category is set. -/
def prepare (K : Collation) (row : ℕ) : Except Fault TodoListViewController :=
  match r.categories[row]? with
  | some category => .ok (TodoListViewController.loadItems K ⟨some category.id, none, "", ⟨0⟩⟩ r)
  | none => .error .indexOutOfRange

end CategoryViewController

/-! ### Events -/

inductive Event
  | addCategory (name color : String) (commits : Bool)
  | swipeCategory (orientation : SwipeActionsOrientation) (row : ℕ) (commits : Bool)
  | selectCategory (row : ℕ)
  /-- Back from the items to the categories. -/
  | back
  | addItem (title : String) (now : Date) (commits : Bool)
  | selectItem (row : ℕ) (commits : Bool)
  | swipeItem (orientation : SwipeActionsOrientation) (row : ℕ) (commits : Bool)
  | textDidChange (searchText : String)
  | searchButtonClicked
  deriving DecidableEq, Repr

namespace App

/-- An event of the category list, while it is in front. -/
def stepCategories (K : Collation) (s : App) : Event → Except Fault App
  | .addCategory name color commits =>
    (CategoryViewController.saveCategories s.realm s.tableView name color commits).map
      fun p => ⟨p.1, p.2, none⟩
  | .swipeCategory orientation row commits =>
    (SwipeTableViewController.swipe orientation s.realm
      (CategoryViewController.updateModel s.realm row commits)
      CategoryViewController.numberOfRowsInSection s.tableView row).map fun p => ⟨p.1, p.2, none⟩
  | .selectCategory row =>
    if row < s.tableView.rows then
      (CategoryViewController.prepare s.realm K row).map fun vc => { s with todoList := some vc }
    else .error .disabled
  | _ => .error .disabled

/-- An event of the list of items, while it is open. -/
def stepItems (K : Collation) (s : App) (vc : TodoListViewController) : Event → Except Fault App
  | .back => .ok { s with todoList := none }
  | .addItem title now commits =>
    (vc.addNewItem K s.realm title now commits).map
      fun p => { s with realm := p.1, todoList := some p.2 }
  | .selectItem row commits =>
    if row < vc.tableView.rows then
      (vc.didSelectRowAt s.realm row commits).map
        fun p => { s with realm := p.1, todoList := some p.2 }
    else .error .disabled
  | .swipeItem orientation row commits =>
    (SwipeTableViewController.swipe orientation s.realm (vc.updateModel s.realm row commits)
      vc.numberOfRowsInSection vc.tableView row).map
      fun p => { s with realm := p.1, todoList := some { vc with tableView := p.2 } }
  | .textDidChange searchText =>
    .ok { s with todoList := some (vc.textDidChange K s.realm searchText) }
  | .searchButtonClicked =>
    .ok { s with todoList := some (vc.searchBarSearchButtonClicked K s.realm) }
  | _ => .error .disabled

def step (K : Collation) (s : App) (e : Event) : Except Fault App :=
  match s.todoList with
  | none => s.stepCategories K e
  | some vc => s.stepItems K vc e

end App

end IosDevBootcamp.Todoey
