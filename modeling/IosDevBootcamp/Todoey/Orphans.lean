import IosDevBootcamp.Todoey.Rows

/-!
# Orphaned items

A deleted category leaves its items behind: they are stored, no category lists them, and no later
event reaches them.  These are all the orphans there are, so a run has none just when the categories
it deleted were empty.
-/

namespace IosDevBootcamp.Todoey

open IosDevBootcamp.Lib IosDevBootcamp.Lib.Query IosDevBootcamp.Lib.Run

/-- **Every stored item has exactly one owner.** -/
def NoOrphans (r : Realm) : Prop := ∀ x ∈ r.items, (r.parentCategory x.id).length = 1

/-- The items of the category that the event deletes, in the state before it. -/
def App.orphanedBy (s : App) : Event → List ObjectId
  | .swipeCategory .right row true =>
    match s.realm.categories[row]? with
    | some k => k.items
    | none => []
  | _ => []

/-! ### What a step writes -/

/-- The store after an event. -/
inductive Writes (s : App) : Event → Realm → Prop
  | nothing {e : Event} (h : s.orphanedBy e = []) : Writes s e s.realm
  | addCategory (name color : String) :
    Writes s (.addCategory name color true) (s.realm.addCategory name color)
  | addItem {c : ObjectId} (hc : c ∈ s.realm.categoryIds) (title : String) (now : Date) :
    Writes s (.addItem title now true) (s.realm.appendItem c title now)
  | selectItem (row : ℕ) (i : ObjectId) :
    Writes s (.selectItem row true) (s.realm.toggleDone i)
  | swipeItem (row : ℕ) {i : ObjectId} (hi : i ∈ s.realm.links) :
    Writes s (.swipeItem .right row true) (s.realm.deleteItem i)
  | swipeCategory {row : ℕ} {k : Category} (hk : s.realm.categories[row]? = some k) :
    Writes s (.swipeCategory .right row true) (s.realm.deleteCategory k.id)

/-- What a list shows is linked. -/
lemma mem_links_of_itemAt {vc : TodoListViewController} {r : Realm} {row : ℕ} {x : Item}
    (h : vc.itemAt r row = .ok (some x)) : x.id ∈ r.links := by
  simp only [TodoListViewController.itemAt] at h
  split at h
  · cases h
  · rename_i q hq
    split at h
    · rename_i y hy
      cases h
      have hx : x ∈ r.listItems q.list := (mem_eval.mp (List.mem_of_getElem? hy)).1
      cases hk : Keyed.lookup Category.id r.categories q.list with
      | none =>
        simp [Tables.listItems, hk] at hx
      | some k =>
        have hid : x.id ∈ k.items := by
          rw [← Tables.map_id_listItems r.valid hk]
          exact List.mem_map_of_mem hx
        exact List.mem_flatMap.mpr ⟨k, (Keyed.mem_of_lookup hk).1, hid⟩
    · cases h

variable (K : Collation)

lemma writes_of_step {s s' : App} {e : Event} (hs : s.step K e = .ok s') :
    Writes s e s'.realm := by
  obtain ⟨-, hc⟩ | ⟨vc, -, hi⟩ := step_cases K hs
  · cases hc with
    | addCategory name color commits hr =>
      subst hr
      cases commits with
      | true => exact .addCategory name color
      | false => exact .nothing rfl
    | swipeLeft hrow commits => exact .nothing rfl
    | swipeRight hrow hk commits hr =>
      subst hr
      cases commits with
      | true => exact .swipeCategory hk
      | false => exact .nothing rfl
    | selectCategory hrow hk => exact .nothing rfl
  · cases hi with
    | addItem hsel hc title now commits hr =>
      subst hr
      cases commits with
      | true => exact .addItem hc title now
      | false => exact .nothing rfl
    | @selectItem row hrow x hx commits r hr =>
      subst hr
      cases commits with
      | true => exact .selectItem row x.id
      | false => exact .nothing rfl
    | @swipeRight row hrow x hx commits r hr =>
      subst hr
      cases commits with
      | true => exact .swipeItem row (mem_links_of_itemAt hx)
      | false => exact .nothing rfl
    | _ => exact .nothing rfl

/-! ### Orphans -/

/-- Stored, and listed by no category. -/
def Tables.Orphan (t : Tables) (i : ObjectId) : Prop := i ∈ t.itemIds ∧ i ∉ t.links

/-- With at most one owner each, the items that have not exactly one have none. -/
lemma noOrphans_iff_forall {r : Realm} (hn : r.links.Nodup) :
    NoOrphans r ↔ ∀ i, ¬ r.Orphan i := by
  constructor
  · rintro h i ⟨hi, hlinks⟩
    obtain ⟨x, hx, rfl⟩ := List.mem_map.mp hi
    have hone := h x hx
    rw [Tables.length_parentCategory, List.count_eq_zero_of_not_mem hlinks] at hone
    cases hone
  · intro h x hx
    have hlinks : x.id ∈ r.links := by
      by_contra hlinks
      exact h x.id ⟨List.mem_map_of_mem hx, hlinks⟩
    rw [Tables.length_parentCategory, List.count_eq_one_of_mem hn hlinks]

section Writes

variable {t : Tables} {c i j : ObjectId} {name color title : String} {now : Date}

lemma orphan_addCategory : (t.addCategory name color).Orphan i ↔ t.Orphan i := by
  simp [Tables.Orphan]

lemma orphan_appendItem (h : t.Valid) (hc : c ∈ t.categoryIds) :
    (t.appendItem c title now).Orphan i ↔ t.Orphan i := by
  have hlinks : i ∈ (t.appendItem c title now).links ↔ i = t.next ∨ i ∈ t.links := by
    rw [(Tables.links_appendItem_perm h.categories_nodup hc).mem_iff, List.mem_cons]
  have hnext : t.next ∉ t.itemIds := fun hm => Nat.lt_irrefl _ (h.items_lt _ hm)
  simp only [Tables.Orphan, Tables.itemIds_appendItem, List.mem_append, List.mem_singleton, hlinks,
    not_or]
  constructor
  · rintro ⟨hi | hi, hne, hl⟩
    · exact ⟨hi, hl⟩
    · exact absurd hi hne
  · rintro ⟨hi, hl⟩
    exact ⟨Or.inl hi, fun heq => hnext (heq ▸ hi), hl⟩

lemma orphan_toggleDone : (t.toggleDone j).Orphan i ↔ t.Orphan i := by
  simp [Tables.Orphan]

lemma orphan_deleteItem (hj : j ∈ t.links) : (t.deleteItem j).Orphan i ↔ t.Orphan i := by
  simp only [Tables.Orphan, Tables.itemIds_deleteItem, Tables.links_deleteItem, List.mem_filter,
    decide_eq_true_eq]
  constructor
  · rintro ⟨⟨hi, hne⟩, hl⟩
    exact ⟨hi, fun hm => hl ⟨hm, hne⟩⟩
  · rintro ⟨hi, hl⟩
    have hne : i ≠ j := fun heq => hl (heq ▸ hj)
    exact ⟨⟨hi, hne⟩, fun hm => hl hm.1⟩

lemma orphan_deleteCategory (h : t.Valid) (hn : t.links.Nodup) {k : Category}
    (hk : k ∈ t.categories) :
    (t.deleteCategory k.id).Orphan i ↔ t.Orphan i ∨ i ∈ k.items := by
  have hp := Tables.links_deleteCategory_perm h.categories_nodup hk
  have hlinks : i ∈ t.links ↔ i ∈ k.items ∨ i ∈ (t.deleteCategory k.id).links := by
    rw [hp.mem_iff, List.mem_append]
  have hdisj : i ∈ k.items → i ∉ (t.deleteCategory k.id).links := fun hi hl =>
    (List.nodup_append.mp (hp.nodup_iff.mp hn)).2.2 i hi i hl rfl
  have hstored : i ∈ k.items → i ∈ t.itemIds := fun hi => h.links_mem i (hlinks.mpr (Or.inl hi))
  simp only [Tables.Orphan, Tables.itemIds_deleteCategory, hlinks, not_or]
  constructor
  · rintro ⟨hi, hl⟩
    by_cases hki : i ∈ k.items
    · exact Or.inr hki
    · exact Or.inl ⟨hi, hki, hl⟩
  · rintro (⟨hi, -, hl⟩ | hki)
    · exact ⟨hi, hl⟩
    · exact ⟨hstored hki, hdisj hki⟩

end Writes

/-- The orphans after a step are those before it and the items of the category it deletes. -/
lemma orphan_step {s : App} (h : s.Inv) {e : Event} {r : Realm} (hw : Writes s e r)
    (i : ObjectId) : r.Orphan i ↔ s.realm.Orphan i ∨ i ∈ s.orphanedBy e := by
  have hkept : ∀ {e' : Event}, s.orphanedBy e' = [] → (s.realm.Orphan i ↔
      s.realm.Orphan i ∨ i ∈ s.orphanedBy e') := fun hnone => by
    rw [hnone]
    simp
  cases hw with
  | nothing hnone => exact hkept hnone
  | addCategory name color => exact orphan_addCategory.trans (hkept rfl)
  | addItem hc title now => exact (orphan_appendItem s.realm.valid hc).trans (hkept rfl)
  | selectItem row j => exact orphan_toggleDone.trans (hkept rfl)
  | swipeItem row hj => exact (orphan_deleteItem hj).trans (hkept rfl)
  | swipeCategory hk =>
    simp only [App.orphanedBy, hk]
    exact orphan_deleteCategory s.realm.valid h.owned (List.mem_of_getElem? hk)

/-- **No orphans, if only empty categories are deleted, and only then.**  After a run from the
empty store every item has exactly one owner just when every category the run deleted was empty;
a run that deleted another never gets rid of the orphans. -/
theorem noOrphans_iff {s : App} {es : List Event} (h : run (App.step K) launch es = .ok s) :
    NoOrphans s.realm ↔ Along (App.step K) (fun s e => s.orphanedBy e = []) launch es := by
  have hi : s.Inv := App.inv_of_run K h
  have hstep : ∀ (s : App) (e : Event) (s' : App), s.Inv → s.step K e = .ok s' →
      s'.Inv ∧ ((∀ i, ¬ s'.realm.Orphan i) ↔
        (∀ i, ¬ s.realm.Orphan i) ∧ s.orphanedBy e = []) := by
    intro s e s' hs hstep
    refine ⟨hs.step K hstep, ?_⟩
    simp only [orphan_step hs (writes_of_step K hstep), not_or, forall_and,
      List.eq_nil_iff_forall_not_mem]
  have hnone : ∀ i, ¬ launch.realm.Orphan i := fun i ho => by cases ho.1
  rw [noOrphans_iff_forall hi.owned, run_iff_along hstep App.inv_launch h]
  exact and_iff_right hnone

/-- An item deleted on its own leaves its category to be deleted empty. -/
theorem noOrphans_iff_emptied :
    ∃ s, run (App.step .plain) launch [.addCategory "Shopping" "0096FF" true, .selectCategory 0,
      .addItem "milk" 0 true, .swipeItem .right 0 true, .back, .swipeCategory .right 0 true] =
        .ok s ∧ NoOrphans s.realm := by
  obtain ⟨s, hs⟩ : ∃ s, run (App.step .plain) launch [.addCategory "Shopping" "0096FF" true,
    .selectCategory 0, .addItem "milk" 0 true, .swipeItem .right 0 true, .back,
    .swipeCategory .right 0 true] = .ok s := ⟨_, rfl⟩
  refine ⟨s, hs, (noOrphans_iff .plain hs).mpr ?_⟩
  exact ⟨rfl, rfl, rfl, rfl, rfl, rfl, trivial⟩

/-- The items of a deleted category stay in the store with no owner. -/
theorem deleted_category_orphans :
    ∃ s, run (App.step .plain) launch [.addCategory "Shopping" "0096FF" true, .selectCategory 0,
      .addItem "milk" 0 true, .back, .swipeCategory .right 0 true] = .ok s ∧
      s.realm.items = [⟨1, "milk", false, 0⟩] ∧ s.realm.parentCategory 1 = [] ∧
      ¬ NoOrphans s.realm := by
  refine ⟨_, rfl, rfl, rfl, fun h => ?_⟩
  exact absurd (h ⟨1, "milk", false, 0⟩ (List.mem_singleton_self _)) (by decide)

end IosDevBootcamp.Todoey
