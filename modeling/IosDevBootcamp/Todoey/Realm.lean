import Mathlib.Data.Int.Notation
import IosDevBootcamp.Lib.Keyed

/-!
# Todoey: the store

The two object types and the writes the controllers make.  `Tables` is the raw data and a `Realm`
is tables that are `Valid`, which is what the database itself guarantees: objects have an identity,
and a link leads to a stored object.  That an item has one owner is not among it.
-/

namespace IosDevBootcamp.Todoey

open IosDevBootcamp.Lib

abbrev ObjectId := ℕ

/-- A time since 1970 in nanoseconds, as the database stores it. -/
abbrev Date := ℤ

structure Item where
  id : ObjectId
  title : String
  done : Bool
  timestamp : Date
  deriving DecidableEq, Repr

/-- A category; its list of items holds links. -/
structure Category where
  id : ObjectId
  name : String
  color : String
  items : List ObjectId
  deriving DecidableEq, Repr

def Category.append (i : ObjectId) (k : Category) : Category := { k with items := k.items ++ [i] }

structure Tables where
  categories : List Category
  items : List Item
  next : ObjectId
  deriving DecidableEq, Repr

namespace Tables

variable (t : Tables)

def itemIds : List ObjectId := t.items.map (·.id)

def categoryIds : List ObjectId := t.categories.map (·.id)

/-- All links, of all categories. -/
def links : List ObjectId := t.categories.flatMap (·.items)

structure Valid : Prop where
  items_nodup : t.itemIds.Nodup
  categories_nodup : t.categoryIds.Nodup
  items_lt : ∀ i ∈ t.itemIds, i < t.next
  categories_lt : ∀ c ∈ t.categoryIds, c < t.next
  links_mem : ∀ i ∈ t.links, i ∈ t.itemIds

/-! ### The writes -/

/-- `realm.add(category)`. -/
def addCategory (name color : String) : Tables :=
  { t with categories := t.categories ++ [⟨t.next, name, color, []⟩], next := t.next + 1 }

/-- `category.items.append(newToDo)`, which also stores the new item. -/
def appendItem (c : ObjectId) (title : String) (now : Date) : Tables where
  categories := Keyed.modify Category.id (Category.append t.next) t.categories c
  items := t.items ++ [⟨t.next, title, false, now⟩]
  next := t.next + 1

def toggleDone (i : ObjectId) : Tables :=
  { t with items := Keyed.modify Item.id (fun x => { x with done := !x.done }) t.items i }

/-- `realm.delete(item)`: the object goes, and the links to it. -/
def deleteItem (i : ObjectId) : Tables :=
  { t with
    items := Keyed.erase Item.id t.items i
    categories := t.categories.map fun k => { k with items := k.items.filter (· ≠ i) } }

/-- `realm.delete(category)`: the object goes, and nothing it links to. -/
def deleteCategory (c : ObjectId) : Tables :=
  { t with categories := Keyed.erase Category.id t.categories c }

/-! ### What they do to the identities and the links -/

section Writes

variable {t} {name color title : String} {now : Date} {c i : ObjectId}

@[simp] lemma itemIds_addCategory : (t.addCategory name color).itemIds = t.itemIds := rfl

@[simp] lemma categoryIds_addCategory :
    (t.addCategory name color).categoryIds = t.categoryIds ++ [t.next] := List.map_append

@[simp] lemma links_addCategory : (t.addCategory name color).links = t.links := by
  simp [links, addCategory]

@[simp] lemma itemIds_appendItem :
    (t.appendItem c title now).itemIds = t.itemIds ++ [t.next] := List.map_append

@[simp] lemma categoryIds_appendItem : (t.appendItem c title now).categoryIds = t.categoryIds :=
  Keyed.map_key_modify fun _ => rfl

/-- A new item has one link, from its category. -/
lemma links_appendItem_perm (h : t.categoryIds.Nodup) (hc : c ∈ t.categoryIds) :
    (t.appendItem c title now).links.Perm (t.next :: t.links) := by
  obtain ⟨k, hk, rfl⟩ := List.mem_map.mp hc
  have hone : (k.append t.next).items.Perm ([t.next] ++ k.items) := List.perm_append_comm
  exact Keyed.flatMap_modify_perm h hk hone

@[simp] lemma itemIds_toggleDone : (t.toggleDone i).itemIds = t.itemIds :=
  Keyed.map_key_modify fun _ => rfl

@[simp] lemma links_toggleDone : (t.toggleDone i).links = t.links := rfl

@[simp] lemma itemIds_deleteItem : (t.deleteItem i).itemIds = t.itemIds.filter (· ≠ i) :=
  Keyed.map_key_erase

@[simp] lemma categoryIds_deleteItem : (t.deleteItem i).categoryIds = t.categoryIds := by
  simp [categoryIds, deleteItem]

@[simp] lemma links_deleteItem : (t.deleteItem i).links = t.links.filter (· ≠ i) := by
  simp [links, deleteItem, List.flatMap_map, List.filter_flatMap]

@[simp] lemma itemIds_deleteCategory : (t.deleteCategory c).itemIds = t.itemIds := rfl

@[simp] lemma categoryIds_deleteCategory :
    (t.deleteCategory c).categoryIds = t.categoryIds.filter (· ≠ c) :=
  Keyed.map_key_erase

/-- With a category go its own links, and no others. -/
lemma links_deleteCategory_perm (h : t.categoryIds.Nodup) {k : Category}
    (hk : k ∈ t.categories) : t.links.Perm (k.items ++ (t.deleteCategory k.id).links) := by
  have hp := (Keyed.perm_cons_erase h hk).flatMap_right Category.items
  rwa [List.flatMap_cons] at hp

lemma mem_links_of_deleteCategory (hi : i ∈ (t.deleteCategory c).links) : i ∈ t.links := by
  obtain ⟨k, hk, hi⟩ := List.mem_flatMap.mp hi
  exact List.mem_flatMap.mpr ⟨k, (List.mem_filter.mp hk).1, hi⟩

lemma mem_links_of_appendItem (hi : i ∈ (t.appendItem c title now).links) :
    i = t.next ∨ i ∈ t.links := by
  obtain ⟨k', hk', hi⟩ := List.mem_flatMap.mp hi
  obtain ⟨k, hk, rfl⟩ := List.mem_map.mp hk'
  have hold : i ∈ k.items → i ∈ t.links := fun hi => List.mem_flatMap.mpr ⟨k, hk, hi⟩
  split at hi
  · rcases List.mem_append.mp hi with hi | hi
    · exact Or.inr (hold hi)
    · exact Or.inl (List.mem_singleton.mp hi)
  · exact Or.inr (hold hi)

/-! ### Every write keeps the tables valid -/

lemma nodup_concat_next {l : List ℕ} {n : ℕ} (hl : l.Nodup) (hlt : ∀ i ∈ l, i < n) :
    (l ++ [n]).Nodup := by
  refine List.nodup_append.mpr ⟨hl, List.nodup_singleton n, ?_⟩
  intro i hi j hj hij
  have := hlt i hi
  have := List.mem_singleton.mp hj
  omega

lemma lt_next_of_mem_concat {l : List ℕ} {n : ℕ} (hlt : ∀ i ∈ l, i < n) :
    ∀ i ∈ l ++ [n], i < n + 1 := by
  intro i hi
  rcases List.mem_append.mp hi with hi | hi
  · have := hlt i hi
    omega
  · have := List.mem_singleton.mp hi
    omega

lemma Valid.addCategory (h : t.Valid) : (t.addCategory name color).Valid where
  items_nodup := h.items_nodup
  categories_nodup := by
    rw [categoryIds_addCategory]
    exact nodup_concat_next h.categories_nodup h.categories_lt
  items_lt i hi := Nat.lt_succ_of_lt (h.items_lt i hi)
  categories_lt := by
    rw [categoryIds_addCategory]
    exact lt_next_of_mem_concat h.categories_lt
  links_mem := by
    rw [links_addCategory]
    exact h.links_mem

lemma Valid.appendItem (h : t.Valid) : (t.appendItem c title now).Valid where
  items_nodup := by
    rw [itemIds_appendItem]
    exact nodup_concat_next h.items_nodup h.items_lt
  categories_nodup := by
    rw [categoryIds_appendItem]
    exact h.categories_nodup
  items_lt := by
    rw [itemIds_appendItem]
    exact lt_next_of_mem_concat h.items_lt
  categories_lt := by
    rw [categoryIds_appendItem]
    exact fun c hc => Nat.lt_succ_of_lt (h.categories_lt c hc)
  links_mem i hi := by
    rw [itemIds_appendItem]
    rcases mem_links_of_appendItem hi with rfl | hi
    · exact List.mem_append_right _ (List.mem_singleton_self _)
    · exact List.mem_append_left _ (h.links_mem i hi)

lemma Valid.toggleDone (h : t.Valid) : (t.toggleDone i).Valid where
  items_nodup := by
    rw [itemIds_toggleDone]
    exact h.items_nodup
  categories_nodup := h.categories_nodup
  items_lt := by
    rw [itemIds_toggleDone]
    exact h.items_lt
  categories_lt := h.categories_lt
  links_mem := by
    rw [itemIds_toggleDone]
    exact h.links_mem

lemma Valid.deleteItem (h : t.Valid) : (t.deleteItem i).Valid where
  items_nodup := by
    rw [itemIds_deleteItem]
    exact h.items_nodup.filter _
  categories_nodup := by
    rw [categoryIds_deleteItem]
    exact h.categories_nodup
  items_lt j hj := by
    rw [itemIds_deleteItem] at hj
    exact h.items_lt j (List.mem_filter.mp hj).1
  categories_lt := by
    rw [categoryIds_deleteItem]
    exact h.categories_lt
  links_mem j hj := by
    rw [links_deleteItem] at hj
    obtain ⟨hj, hne⟩ := List.mem_filter.mp hj
    rw [itemIds_deleteItem]
    exact List.mem_filter.mpr ⟨h.links_mem j hj, hne⟩

lemma Valid.deleteCategory (h : t.Valid) : (t.deleteCategory c).Valid where
  items_nodup := h.items_nodup
  categories_nodup := by
    rw [categoryIds_deleteCategory]
    exact h.categories_nodup.filter _
  items_lt := h.items_lt
  categories_lt k hk := by
    rw [categoryIds_deleteCategory] at hk
    exact h.categories_lt k (List.mem_filter.mp hk).1
  links_mem i hi := h.links_mem i (mem_links_of_deleteCategory hi)

end Writes

/-! ### Reading -/

/-- The items of a category's list; a category that was deleted has none. -/
def listItems (c : ObjectId) : List Item :=
  match Keyed.lookup Category.id t.categories c with
  | some k => k.items.filterMap (Keyed.lookup Item.id t.items)
  | none => []

lemma map_id_listItems {t : Tables} (h : t.Valid) {c : ObjectId} {k : Category}
    (hk : Keyed.lookup Category.id t.categories c = some k) :
    (t.listItems c).map Item.id = k.items := by
  have hlinks : ∀ i ∈ k.items, i ∈ t.items.map Item.id := fun i hi =>
    h.links_mem i (List.mem_flatMap.mpr ⟨k, (Keyed.mem_of_lookup hk).1, hi⟩)
  rw [listItems, hk]
  exact Keyed.map_key_filterMap_lookup hlinks

/-- A deleted item is gone from every list, and every list is otherwise as before. -/
lemma listItems_deleteItem (i c : ObjectId) :
    (t.deleteItem i).listItems c = Keyed.erase Item.id (t.listItems c) i := by
  have hk : Keyed.lookup Category.id (t.deleteItem i).categories c =
      (Keyed.lookup Category.id t.categories c).map
        fun k => { k with items := k.items.filter (· ≠ i) } :=
    Keyed.lookup_map fun _ => rfl
  simp only [listItems, hk]
  cases Keyed.lookup Category.id t.categories c with
  | none => rfl
  | some k => exact Keyed.filterMap_lookup_erase _ _

/-- `parentCategory` of an item: a category for every link to it. -/
def parentCategory (i : ObjectId) : List Category :=
  t.categories.flatMap fun k => List.replicate (k.items.count i) k

lemma length_parentCategory (i : ObjectId) : (t.parentCategory i).length = t.links.count i := by
  simp [parentCategory, links, List.length_flatMap, List.count_flatMap, Function.comp_def]

end Tables

/-! ### The database -/

/-- Tables the database can hold. -/
structure Realm extends Tables where
  valid : toTables.Valid

namespace Realm

def empty : Realm := ⟨⟨[], [], 0⟩, by constructor <;> simp [Tables.itemIds, Tables.categoryIds,
  Tables.links]⟩

def addCategory (name color : String) (r : Realm) : Realm :=
  ⟨r.toTables.addCategory name color, r.valid.addCategory⟩

def appendItem (c : ObjectId) (title : String) (now : Date) (r : Realm) : Realm :=
  ⟨r.toTables.appendItem c title now, r.valid.appendItem⟩

def toggleDone (i : ObjectId) (r : Realm) : Realm := ⟨r.toTables.toggleDone i, r.valid.toggleDone⟩

def deleteItem (i : ObjectId) (r : Realm) : Realm := ⟨r.toTables.deleteItem i, r.valid.deleteItem⟩

def deleteCategory (c : ObjectId) (r : Realm) : Realm :=
  ⟨r.toTables.deleteCategory c, r.valid.deleteCategory⟩

/-- `realm.write`: all of the block, or a thrown error and nothing of it. -/
def write (commits : Bool) (block : Realm → Realm) (r : Realm) : Realm :=
  if commits then block r else r

@[simp] lemma write_commits (block : Realm → Realm) (r : Realm) : r.write true block = block r :=
  rfl

@[simp] lemma write_throws (block : Realm → Realm) (r : Realm) : r.write false block = r := rfl

end Realm

end IosDevBootcamp.Todoey
