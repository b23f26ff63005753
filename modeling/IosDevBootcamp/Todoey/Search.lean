import IosDevBootcamp.Todoey.Orphans

/-!
# Searches

A search filters what is on show, and what is on show is what the searches before it left.  So the
list shows the items that contain every text searched since it was last loaded, newest first, and a
search is exact when those earlier texts take nothing away.
-/

namespace IosDevBootcamp.Todoey

open IosDevBootcamp.Lib IosDevBootcamp.Lib.Query IosDevBootcamp.Lib.Run TodoListViewController

/-! ### The searches of a run -/

/-- The text in the search bar, and the texts searched since the list was last loaded. -/
structure Searches where
  text : String
  searched : List String

def Searches.after (h : Searches) : Event → Searches
  | .selectCategory _ => ⟨"", []⟩
  | .addItem _ _ _ => ⟨h.text, []⟩
  | .textDidChange searchText => ⟨searchText, if searchText = "" then [] else h.searched⟩
  | .searchButtonClicked => ⟨h.text, h.searched ++ [h.text]⟩
  | _ => h

/-- The searches of a run that starts in the list of categories. -/
def searches (es : List Event) : Searches := es.foldl Searches.after ⟨"", []⟩

def App.displayed (s : App) : List Item :=
  match s.todoList with
  | some vc => vc.displayed s.realm
  | none => []

/-- The items of the opened category. -/
def App.contents (s : App) : List Item :=
  match s.todoList.bind (·.selectedCategory) with
  | some c => s.realm.listItems c
  | none => []

variable (K : Collation)

/-- The query that the searches have built. -/
def Searches.stages (h : Searches) : Stages Item :=
  byTitle K :: h.searched.flatMap fun text => [titleContains K text, newestFirst]

lemma Searches.keeps_stages (h : Searches) (i : Item) :
    keeps (h.stages K) i = true ↔ ∀ t ∈ h.searched, K.containsCD i.title t = true := by
  have hall : ∀ l : List String,
      keeps (l.flatMap fun text => [titleContains K text, newestFirst]) i = true ↔
        ∀ t ∈ l, K.containsCD i.title t = true := by
    intro l
    induction l with
    | nil => simp
    | cons t l ih =>
      rw [List.flatMap_cons, keeps_append, Bool.and_eq_true, ih, List.forall_mem_cons]
      simp [titleContains, newestFirst, Stage.keeps]
  rw [Searches.stages, keeps_cons, Bool.and_eq_true, hall]
  exact and_iff_right rfl

/-! ### The list follows its searches -/

/-- An open list shows the query of its searches over the list of its category. -/
def Follows (s : App) (h : Searches) : Prop :=
  ∀ vc, s.todoList = some vc → vc.searchBar = h.text ∧
    ∃ c, vc.selectedCategory = some c ∧ vc.todoItems = some ⟨c, h.stages K⟩

lemma follows_step {s s' : App} {h : Searches} {e : Event} (hf : Follows K s h)
    (hs : s.step K e = .ok s') : Follows K s' (h.after e) := by
  obtain ⟨-, hc⟩ | ⟨vc, htodo, hi⟩ := step_cases K hs
  · cases hc with
    | selectCategory hrow hk =>
      intro vc hvc
      cases hvc
      exact ⟨rfl, _, rfl, rfl⟩
    | _ =>
      intro vc hvc
      cases hvc
  · obtain ⟨htext, c, hc, hq⟩ := hf vc htodo
    cases hi with
    | back =>
      intro vc hvc
      cases hvc
    | addItem hsel hc' title now commits hr =>
      intro vc hvc
      cases hvc
      refine ⟨htext, c, hc, ?_⟩
      simp [loadItems, reloadData, hc, Searches.stages, Searches.after]
    | addNowhere hsel title now commits =>
      rw [hc] at hsel
      cases hsel
    | textDidChange searchText =>
      intro vc hvc
      cases hvc
      by_cases hempty : searchText = ""
      · subst hempty
        refine ⟨rfl, c, hc, ?_⟩
        simp [TodoListViewController.textDidChange, loadItems, reloadData, hc, Searches.stages,
          Searches.after]
      · simp only [TodoListViewController.textDidChange, if_neg hempty, Searches.after]
        exact ⟨trivial, c, hc, hq⟩
    | searchButtonClicked =>
      intro vc hvc
      cases hvc
      refine ⟨htext, c, hc, ?_⟩
      simp [searchBarSearchButtonClicked, reloadData, hq, htext, Searches.stages, Searches.after]
    | _ =>
      -- the selected category and the query stay as they are
      intro vc hvc
      cases hvc
      exact ⟨htext, c, hc, hq⟩

/-! ### Exact searches -/

lemma eval_newestFirst (q : Stages Item) (l : List Item) :
    (eval (q ++ [newestFirst]) l).Pairwise fun a b => b.timestamp ≤ a.timestamp := by
  have h := eval_sorted q (fun a b : Item => decide (b.timestamp ≤ a.timestamp))
    (fun a b c hab hbc => by
      rw [decide_eq_true_eq] at hab hbc ⊢
      exact le_trans hbc hab)
    (fun a b => by
      rw [decide_eq_true_eq, decide_eq_true_eq]
      exact le_total _ _) l
  exact h.imp fun hab => of_decide_eq_true hab

/-- **A search is exact when the earlier ones take nothing away.**  In every run, from any store,
what a search shows is the items of the category that contain its text, newest first, just when
each of them contains all the texts searched since the list was last loaded. -/
theorem search_exact_iff {s₀ s : App} {es : List Event} (h₀ : s₀.todoList = none)
    (h : run (App.step K) s₀ (es ++ [.searchButtonClicked]) = .ok s) :
    (s.displayed.Perm (s.contents.filter fun i => K.containsCD i.title (searches es).text) ∧
      s.displayed.Pairwise fun a b => b.timestamp ≤ a.timestamp) ↔
    ∀ i ∈ s.contents, K.containsCD i.title (searches es).text = true →
      ∀ t ∈ (searches es).searched, K.containsCD i.title t = true := by
  obtain ⟨u, hu, hlast⟩ := run_append_ok_iff.mp h
  rw [run_singleton] at hlast
  have hstart : Follows K s₀ ⟨"", []⟩ := fun vc hvc => by
    rw [h₀] at hvc
    cases hvc
  have hf : Follows K u (searches es) :=
    run_follows (R := Follows K) (f := Searches.after)
      (fun _ _ _ _ hf hs => follows_step K hf hs) hstart hu
  cases htodo : u.todoList with
  | none =>
    simp only [App.step, htodo] at hlast
    cases hlast
  | some vc =>
    obtain ⟨htext, c, hc, hq⟩ := hf vc htodo
    simp only [App.step, htodo] at hlast
    cases hlast
    have hcontents : App.contents { u with todoList := some (vc.searchBarSearchButtonClicked K
        u.realm) } = u.realm.listItems c := by
      simp only [App.contents, Option.bind_some, searchBarSearchButtonClicked, reloadData, hc]
    have hdisplayed : App.displayed { u with todoList := some (vc.searchBarSearchButtonClicked K
        u.realm) } = eval ((searches es).stages K ++ [titleContains K (searches es).text] ++
          [newestFirst]) (u.realm.listItems c) := by
      simp [App.displayed, displayed, searchBarSearchButtonClicked, reloadData, hq, htext,
        ItemResults.items]
    rw [hcontents, hdisplayed]
    have hkeeps : ∀ i, keeps ((searches es).stages K ++ [titleContains K (searches es).text] ++
        [newestFirst]) i = true ↔ (∀ t ∈ (searches es).searched, K.containsCD i.title t = true) ∧
          K.containsCD i.title (searches es).text = true := fun i => by
      rw [keeps_append, keeps_append, Bool.and_eq_true, Bool.and_eq_true,
        Searches.keeps_stages]
      simp [titleContains, newestFirst, Stage.keeps]
    rw [and_iff_left (eval_newestFirst _ _), List.Perm.congr_left (eval_perm _ _),
      filter_perm_filter_iff fun i _ hi => ((hkeeps i).mp hi).2]
    refine forall₂_congr fun i _ => forall_congr' fun hi => ?_
    rw [hkeeps]
    exact and_iff_left hi

/-- Two items, of which one is searched. -/
def searched : List Event :=
  [.addCategory "Shopping" "0096FF" true, .selectCategory 0, .addItem "butter" 0 true,
    .addItem "bread" 1 true, .textDidChange "br"]

theorem search_exact_iff_first :
    ∃ s, run (App.step .plain) launch (searched ++ [.searchButtonClicked]) = .ok s ∧
      s.displayed.Perm (s.contents.filter fun i =>
        Collation.plain.containsCD i.title (searches searched).text) := by
  obtain ⟨s, hs⟩ : ∃ s, run (App.step .plain) launch (searched ++ [.searchButtonClicked]) = .ok s :=
    ⟨_, rfl⟩
  refine ⟨s, hs, ((search_exact_iff .plain rfl hs).mpr ?_).1⟩
  intro i _ _ t ht
  cases ht

/-- A text that every item contains, searched after one that some do not contain, shows too few. -/
theorem search_depends_on_earlier :
    ∃ s, run (App.step .plain) launch (searched ++ [.searchButtonClicked, .textDidChange "b",
        .searchButtonClicked]) = .ok s ∧
      s.displayed = [⟨2, "bread", false, 1⟩] ∧
      (s.contents.filter fun i => Collation.plain.containsCD i.title "b") =
        [⟨1, "butter", false, 0⟩, ⟨2, "bread", false, 1⟩] ∧
      ¬ s.displayed.Perm (s.contents.filter fun i => Collation.plain.containsCD i.title "b") := by
  refine ⟨_, rfl, ?_, ?_, fun hp => absurd hp.length_eq ?_⟩
  · decide +kernel
  · decide +kernel
  · decide +kernel

end IosDevBootcamp.Todoey
