import IosDevBootcamp.FlashChat.Defs
import IosDevBootcamp.Lib.Ordered

/-!
# Flash Chat: the database

What the chat uses of Firestore: it adds documents to a collection, is told how each call ended, and
listens to a query that orders the collection by a field.  The database itself is a parameter, with
what its documentation promises for a collection that only the chat writes to.
-/

namespace IosDevBootcamp.FlashChat

open IosDevBootcamp.Lib

/-- A document with its identifier. -/
structure Stored where
  id : ℕ
  data : Document

/-- A database with one collection.  What it does on its own is an action of it: a write arrives or is
refused, and an app gets to know of it. -/
structure Firestore (State Action : Type*) where
  act : State → Action → State
  /-- The identifier of the new document of an app. -/
  addDocument : State → ℕ → Document → ℕ × State
  /-- Whether a call ended with an error, once it has ended. -/
  completion : State → ℕ → Option Bool
  /-- How the values of a field are sorted. -/
  order : KeyOrder Value
  /-- What the listener of an app is told, when it listens to `order(by:)` of a field. -/
  snapshot : State → ℕ → String → List Stored
  /-- The documents of the collection. -/
  stored : State → List Stored
  /-- These, and all that were handed to `addDocument`. -/
  written : State → List Stored

namespace Firestore

variable {State Action : Type*} (db : Firestore State Action)

/-- Nothing stored is lost, and a call that has ended has ended for good. -/
structure Later (σ σ' : State) : Prop where
  stored : db.stored σ ⊆ db.stored σ'
  completion : ∀ id error, db.completion σ id = some error → db.completion σ' id = some error

/-- What a query that sorts by a field can be told: each document once, if it has the field, and in the
order of the field, or of the identifiers where that does not decide. -/
structure IsSnapshot (σ : State) (field : String) (l : List Stored) : Prop where
  subset : l ⊆ db.written σ
  nodup : (l.map Stored.id).Nodup
  has_field : ∀ d ∈ l, (d.data field).isSome = true
  pairwise : l.Pairwise (Ordered.Before db.order (fun d => d.data field) Stored.id)

/-- What is documented, where no one else writes to the collection and nothing is deleted from it. -/
structure Lawful : Prop where
  number : ∀ t u, db.order.le (.number t) (.number u) = decide (t ≤ u)
  distinct : ∀ σ, ((db.written σ).map Stored.id).Nodup
  stored : ∀ σ, db.stored σ ⊆ db.written σ
  /-- A call ends without an error if its document is stored. -/
  completion : ∀ σ, ∀ d ∈ db.written σ, ∀ error, db.completion σ d.id = some error →
    (d ∈ db.stored σ ↔ error = false)
  later_act : ∀ σ a, db.Later σ (db.act σ a)
  later_addDocument : ∀ σ i data, db.Later σ (db.addDocument σ i data).2
  written_act : ∀ σ a, db.written (db.act σ a) = db.written σ
  written_addDocument : ∀ σ i data, db.written (db.addDocument σ i data).2 =
    db.written σ ++ [⟨(db.addDocument σ i data).1, data⟩]
  snapshot : ∀ σ i field, db.IsSnapshot σ field (db.snapshot σ i field)

end Firestore

/-! ### A database -/

/-- Numbers first, in their order. -/
def numbersFirst : KeyOrder Value where
  le
    | .number t, .number u => decide (t ≤ u)
    | .number _, _ => true
    | _, .number _ => false
    | _, _ => true
  total k j := by
    cases k <;> cases j <;> simp
    exact Int.le_total _ _
  trans k j i := by
    cases k <;> cases j <;> cases i <;> simp
    exact Int.le_trans

/-- What a ledger has of a document: the app it is from, and how its call ended. -/
structure Entry where
  data : Document
  app : Option ℕ
  error : Option Bool

/-- The documents of some entries, with their places for identifiers. -/
def documents (p : Entry → Bool) (σ : List Entry) : List Stored :=
  (σ.zipIdx.filter fun e => p e.1).map fun e => ⟨e.2, e.1.data⟩

def Entry.stored (e : Entry) : Bool := e.error = some false

/-- An app knows what is stored, and what it has handed over itself as long as that is not refused. -/
def Entry.knownTo (i : ℕ) (e : Entry) : Bool := e.stored || decide (e.error = none ∧ e.app = some i)

/-- The write of an open entry arrives or is refused. -/
def settle (σ : List Entry) (a : ℕ × Bool) : List Entry :=
  σ.modify a.1 fun e => if e.error = none then { e with error := some a.2 } else e

/-- A database that keeps a ledger of all documents. -/
def ledger : Firestore (List Entry) (ℕ × Bool) where
  act := settle
  addDocument σ i data := (σ.length, σ ++ [⟨data, some i, none⟩])
  completion σ id := σ[id]?.bind Entry.error
  order := numbersFirst
  snapshot σ i field :=
    Ordered.view numbersFirst (fun d => d.data field) Stored.id (documents (Entry.knownTo i) σ)
  stored := documents Entry.stored
  written := documents fun _ => true

section Ledger

variable {p : Entry → Bool} {σ : List Entry} {d : Stored} {e : Entry}

lemma mem_documents : d ∈ documents p σ ↔ ∃ e, σ[d.id]? = some e ∧ p e = true ∧ e.data = d.data := by
  simp only [documents, List.mem_map, List.mem_filter, Prod.exists, List.mem_zipIdx_iff_getElem?]
  constructor
  · rintro ⟨e, i, ⟨he, hp⟩, rfl⟩
    exact ⟨e, he, hp, rfl⟩
  · rintro ⟨e, he, hp, hdata⟩
    exact ⟨e, d.id, ⟨he, hp⟩, by rw [hdata]⟩

/-- Each document has a place of its own. -/
lemma nodup_documents (p : Entry → Bool) (σ : List Entry) :
    ((documents p σ).map Stored.id).Nodup := by
  have hids : (documents p σ).map Stored.id = (σ.zipIdx.filter fun e => p e.1).map Prod.snd := by
    rw [documents, List.map_map]
    rfl
  rw [hids]
  refine List.Nodup.sublist (List.filter_sublist.map Prod.snd) ?_
  rw [List.zipIdx_map_snd]
  exact List.nodup_range'

lemma documents_append (p : Entry → Bool) (σ : List Entry) (e : Entry) :
    documents p (σ ++ [e]) = documents p σ ++ if p e then [⟨σ.length, e.data⟩] else [] := by
  rw [documents, List.zipIdx_append, List.filter_append, List.map_append]
  by_cases hp : p e = true <;> simp [documents, hp]

lemma getElem?_settle (σ : List Entry) (a : ℕ × Bool) (i : ℕ) : (settle σ a)[i]? = σ[i]?.map fun e =>
    if i = a.1 ∧ e.error = none then { e with error := some a.2 } else e := by
  rw [settle, List.getElem?_modify]
  by_cases hi : a.1 = i
  · subst hi
    simp
  · simp [hi, Ne.symm hi]

/-- An entry that is settled stays as it is. -/
lemma later_settle (σ : List Entry) (a : ℕ × Bool) : ledger.Later σ (settle σ a) where
  stored d hd := by
    obtain ⟨e, he, hp, hdata⟩ := mem_documents.mp hd
    have hended : e.error = some false := of_decide_eq_true hp
    refine mem_documents.mpr ⟨e, ?_, hp, hdata⟩
    rw [getElem?_settle, he]
    simp [hended]
  completion id error herror := by
    obtain ⟨e, he, hended⟩ := Option.bind_eq_some_iff.mp herror
    refine Option.bind_eq_some_iff.mpr ⟨e, ?_, hended⟩
    rw [getElem?_settle, he]
    simp [hended]

lemma later_append (σ : List Entry) (e : Entry) : ledger.Later σ (σ ++ [e]) where
  stored d hd := by
    change d ∈ documents Entry.stored (σ ++ [e])
    rw [documents_append]
    exact List.mem_append_left _ hd
  completion id error herror := by
    obtain ⟨e', he, hended⟩ := Option.bind_eq_some_iff.mp herror
    have hlt := (List.getElem?_eq_some_iff.mp he).1
    exact Option.bind_eq_some_iff.mpr ⟨e', by rw [List.getElem?_append_left hlt, he], hended⟩

lemma written_settle (σ : List Entry) (a : ℕ × Bool) :
    documents (fun _ => true) (settle σ a) = documents (fun _ => true) σ := by
  have hall : ∀ σ : List Entry, documents (fun _ => true) σ =
      (σ.map Entry.data).zipIdx.map fun e => ⟨e.2, e.1⟩ := by
    intro σ
    rw [documents, List.zipIdx_map, List.map_map, List.filter_true]
    rfl
  rw [hall, hall]
  refine congrArg (fun l => (List.zipIdx l).map fun e => (⟨e.2, e.1⟩ : Stored)) (List.ext_getElem? ?_)
  intro i
  rw [List.getElem?_map, List.getElem?_map, getElem?_settle, Option.map_map]
  refine congrArg (Option.map · σ[i]?) (funext fun e => ?_)
  simp only [Function.comp_apply]
  split <;> rfl

lemma mem_written : d ∈ ledger.written σ ↔ ∃ e, σ[d.id]? = some e ∧ e.data = d.data :=
  (mem_documents (p := fun _ => true)).trans (by simp)

end Ledger

lemma ledger_lawful : ledger.Lawful where
  number _ _ := rfl
  distinct := nodup_documents fun _ => true
  stored σ d hd := by
    obtain ⟨e, he, -, hdata⟩ := mem_documents.mp hd
    exact mem_written.mpr ⟨e, he, hdata⟩
  completion σ d hd error herror := by
    obtain ⟨e, he, hended⟩ := Option.bind_eq_some_iff.mp herror
    obtain ⟨e', he', hdata⟩ := mem_written.mp hd
    obtain rfl := Option.some_inj.mp (he.symm.trans he')
    constructor
    · intro hstored
      obtain ⟨e', he', hp, -⟩ := mem_documents.mp hstored
      obtain rfl := Option.some_inj.mp (he.symm.trans he')
      have hfalse : e.error = some false := of_decide_eq_true hp
      exact Option.some_inj.mp (hended.symm.trans hfalse)
    · rintro rfl
      exact mem_documents.mpr ⟨e, he, decide_eq_true hended, hdata⟩
  later_act := later_settle
  later_addDocument σ i data := later_append σ _
  written_act := written_settle
  written_addDocument σ i data := documents_append (fun _ => true) σ ⟨data, some i, none⟩
  snapshot σ i field := by
    refine ⟨fun d hd => ?_, ?_, fun d hd => (Ordered.mem_view.mp hd).2, Ordered.view_pairwise⟩
    · obtain ⟨e, he, -, hdata⟩ := mem_documents.mp (Ordered.mem_view.mp hd).1
      exact mem_written.mpr ⟨e, he, hdata⟩
    · exact (Ordered.view_perm.map _).nodup_iff.mpr
        ((nodup_documents _ σ).sublist (List.filter_sublist.map _))

end IosDevBootcamp.FlashChat
