import Mathlib.Data.Int.Notation
import IosDevBootcamp.Lib.Keyed
import IosDevBootcamp.Lib.Percent

/-!
# Swifter: parameters and their encoding

The parameters of a request are a dictionary, which has no order: a process iterates over a
dictionary in an order of its own, here a `HashSeed`.  The strings made of a dictionary join its
entries in that order.
-/

namespace IosDevBootcamp.Swifter

open IosDevBootcamp.Lib IosDevBootcamp.Lib.Percent

/-! ### Character sets -/

abbrev CharacterSet := Char → Bool

namespace CharacterSet

/-- `urlQueryAllowed`: the characters of the query of a URL. -/
def urlQueryAllowed : CharacterSet := fun c => unreserved c || "!$&'()*+,;=:@/?".toList.contains c

def remove (s : CharacterSet) (charactersIn : Text) : CharacterSet :=
  fun c => s c && !charactersIn.contains c

def insert (s : CharacterSet) (charactersIn : Text) : CharacterSet :=
  fun c => s c || charactersIn.contains c

end CharacterSet

/-- `allowedCharacterSet` of `urlEncodedString` after its `remove`. -/
def removedCharacterSet : CharacterSet :=
  CharacterSet.urlQueryAllowed.remove "\n:#/?@!$&'()*+,;=".toList

def allowedCharacterSet (encodeAll : Bool) : CharacterSet :=
  if !encodeAll then removedCharacterSet.insert "[]".toList else removedCharacterSet

def urlEncodedString (t : Text) (encodeAll : Bool) : Text := encode (allowedCharacterSet encodeAll) t

/-- The unreserved characters are what is left. -/
lemma removedCharacterSet_eq : removedCharacterSet = unreserved := by
  funext c
  have hkeep : ∀ c ∈ "\n:#/?@!$&'()*+,;=".toList, unreserved c = false :=
    List.forall_iff_forall_mem.mp (by decide)
  have hdrop : ∀ c ∈ "!$&'()*+,;=:@/?".toList, c ∈ "\n:#/?@!$&'()*+,;=".toList :=
    List.forall_iff_forall_mem.mp (by decide)
  simp only [removedCharacterSet, CharacterSet.remove, CharacterSet.urlQueryAllowed]
  rw [Bool.eq_iff_iff, Bool.and_eq_true, Bool.or_eq_true, Bool.not_eq_true', ← Bool.not_eq_true,
    List.contains_iff_mem, List.contains_iff_mem]
  constructor
  · rintro ⟨hc | hc, hnot⟩
    · exact hc
    · exact absurd (hdrop c hc) hnot
  · intro hc
    refine ⟨Or.inl hc, fun hmem => ?_⟩
    rw [hkeep c hmem] at hc
    cases hc

lemma allowedCharacterSet_true : allowedCharacterSet true = unreserved := removedCharacterSet_eq

/-- Brackets are left as they are. -/
lemma allowedCharacterSet_false (c : Char) :
    allowedCharacterSet false c = (unreserved c || c == '[' || c == ']') := by
  have hset : allowedCharacterSet false c = (removedCharacterSet c || "[]".toList.contains c) := rfl
  rw [hset, removedCharacterSet_eq, Bool.eq_iff_iff]
  simp [or_assoc]

/-- No escape is taken for an escape of its own, and no separator is left. -/
lemma not_allowed (encodeAll : Bool) {c : Char} (hc : c ∈ ['%', '&', '=', ',', ' ', '"', '?']) :
    allowedCharacterSet encodeAll c = false := by
  have hall : ∀ c ∈ ['%', '&', '=', ',', ' ', '"', '?'],
      (unreserved c || c == '[' || c == ']') = false ∧ unreserved c = false :=
    List.forall_iff_forall_mem.mp (by decide)
  cases encodeAll with
  | false => rw [allowedCharacterSet_false, (hall c hc).1]
  | true => rw [allowedCharacterSet_true, (hall c hc).2]

/-- The separators of queries and headers do not occur in an encoded text. -/
lemma notMem_urlEncodedString (t : Text) (encodeAll : Bool) {c : Char}
    (hc : c ∈ ['&', '=', ',', ' ', '"', '?']) : c ∉ urlEncodedString t encodeAll := by
  intro hmem
  have hother : ∀ c ∈ ['&', '=', ',', ' ', '"', '?'], c ≠ '%' ∧ c.isAlphanum = false :=
    List.forall_iff_forall_mem.mp (by decide)
  obtain ⟨hne, halpha⟩ := hother c hc
  rcases mem_encode hmem with h | h | h
  · rw [not_allowed encodeAll (List.mem_cons_of_mem _ hc)] at h
    cases h
  · exact hne h
  · rw [halpha] at h
    cases h

/-- **What is encoded can be read back.** -/
lemma decode_urlEncodedString (t : Text) (encodeAll : Bool) :
    decode (urlEncodedString t encodeAll) = some (utf8 t) :=
  decode_encode (not_allowed encodeAll List.mem_cons_self) t

/-! ### Dictionaries -/

/-- A floating-point number, known by its description. -/
structure Double where
  description : Text
  numeric : ∀ c ∈ description, c.isAlphanum = true ∨ c ∈ ['-', '+', '.']
  deriving DecidableEq, Repr

/-- The values of parameters.  A nested dictionary is known by its description and by what
`JSONSerialization` makes of it. -/
inductive Value
  | string (t : Text)
  | int (n : ℤ)
  | bool (b : Bool)
  | double (x : Double)
  | data (d : List UInt8)
  | dictionary (description : Text) (json : Option (List UInt8))
  deriving DecidableEq, Repr

/-- What a string interpolation makes of a value. -/
def Value.description : Value → Text
  | .string t => t
  | .int n => (toString n).toList
  | .bool b => (toString b).toList
  | .double x => x.description
  | .data d => (toString d.length).toList ++ " bytes".toList
  | .dictionary description _ => description

abbrev Entry := Text × Value

structure Dictionary where
  entries : List Entry
  nodup : (entries.map Prod.fst).Nodup

namespace Dictionary

def empty : Dictionary := ⟨[], List.nodup_nil⟩

def updateValue (v : Value) (k : Text) (d : Dictionary) : Dictionary where
  entries := Keyed.erase Prod.fst d.entries k ++ [(k, v)]
  nodup := by
    have hold : ((Keyed.erase Prod.fst d.entries k).map Prod.fst).Nodup := by
      rw [Keyed.map_key_erase]
      exact d.nodup.filter _
    rw [List.map_append, List.nodup_append]
    refine ⟨hold, List.nodup_singleton k, ?_⟩
    intro j hj i hi hji
    rw [Keyed.map_key_erase] at hj
    have hne : j ≠ k := by simpa using (List.mem_filter.mp hj).2
    exact hne (hji.trans (List.mem_singleton.mp hi))

/-- `d[k]`. -/
def value (k : Text) (d : Dictionary) : Option Value :=
  (Keyed.lookup Prod.fst d.entries k).map Prod.snd

/-- `d[k] as? String`. -/
def stringValue (k : Text) (d : Dictionary) : Option Text :=
  match d.value k with
  | some (.string t) => some t
  | _ => none

/-- `d[k] as? Data`. -/
def dataValue (k : Text) (d : Dictionary) : Option (List UInt8) :=
  match d.value k with
  | some (.data data) => some data
  | _ => none

/-- What `JSONSerialization` makes of `d[k] as? [String: Any]`. -/
def jsonValue (k : Text) (d : Dictionary) : Option (List UInt8) :=
  match d.value k with
  | some (.dictionary _ json) => json
  | _ => none

def removeValue (k : Text) (d : Dictionary) : Dictionary where
  entries := Keyed.erase Prod.fst d.entries k
  nodup := by
    rw [Keyed.map_key_erase]
    exact d.nodup.filter _

/-- The assignment `??=` to a key. -/
def updateIfSome (v : Option Value) (k : Text) (d : Dictionary) : Dictionary :=
  match v with
  | some v => d.updateValue v k
  | none => d

/-- An assignment for every entry of a list. -/
def updateAll (l : List Entry) (d : Dictionary) : Dictionary :=
  l.foldl (fun d e => d.updateValue e.2 e.1) d

/-! What a dictionary holds, whatever the order of its entries. -/

variable {d d' : Dictionary} {l l' : List Entry} {e : Entry} {k : Text} {v : Value}

lemma mem_updateValue :
    e ∈ (d.updateValue v k).entries ↔ (e.1 ≠ k ∧ e ∈ d.entries) ∨ e = (k, v) := by
  simp [updateValue, Keyed.erase, List.mem_filter, and_comm]

/-- A dictionary holds the last assignments and what they leave of it. -/
lemma mem_updateAll (hl : (l.map Prod.fst).Nodup) :
    e ∈ (d.updateAll l).entries ↔ (e.1 ∉ l.map Prod.fst ∧ e ∈ d.entries) ∨ e ∈ l := by
  unfold updateAll
  induction l generalizing d with
  | nil => simp
  | cons a l ih =>
    rw [List.map_cons, List.nodup_cons] at hl
    rw [List.foldl_cons, ih hl.2, mem_updateValue, List.map_cons, List.mem_cons, List.mem_cons]
    have ha : e = a → e.1 ∉ l.map Prod.fst := fun h => h ▸ hl.1
    constructor
    · rintro (⟨hnot, ⟨hne, he⟩ | he⟩ | he)
      · exact Or.inl ⟨fun h => h.elim hne hnot, he⟩
      · exact Or.inr (Or.inl he)
      · exact Or.inr (Or.inr he)
    · rintro (⟨hnot, he⟩ | he | he)
      · exact Or.inl ⟨fun h => hnot (Or.inr h), Or.inl ⟨fun h => hnot (Or.inl h), he⟩⟩
      · exact Or.inl ⟨ha he, Or.inr he⟩
      · exact Or.inr he

lemma value_eq (h : (k, v) ∈ d.entries) : d.value k = some v := by
  rw [value, Keyed.lookup_of_mem d.nodup h]
  rfl

lemma value_none (h : k ∉ d.entries.map Prod.fst) : d.value k = none := by
  have hlookup : Keyed.lookup Prod.fst d.entries k = none := by
    rwa [← Option.not_isSome_iff_eq_none, Keyed.lookup_isSome]
  rw [value, hlookup]
  rfl

/-- Dictionaries that hold the same have the same entries in some order. -/
lemma entries_perm (h : ∀ e, e ∈ d.entries ↔ e ∈ d'.entries) : d.entries.Perm d'.entries :=
  (List.perm_ext_iff_of_nodup d.nodup.of_map d'.nodup.of_map).mpr h

lemma updateValue_perm (h : d.entries.Perm d'.entries) :
    (d.updateValue v k).entries.Perm (d'.updateValue v k).entries :=
  entries_perm fun e => by rw [mem_updateValue, mem_updateValue, h.mem_iff]

lemma updateAll_perm (hl : l.Perm l') (hn : (l.map Prod.fst).Nodup)
    (h : d.entries.Perm d'.entries) :
    (d.updateAll l).entries.Perm (d'.updateAll l').entries := by
  have hkeys := hl.map Prod.fst
  refine entries_perm fun e => ?_
  rw [mem_updateAll hn, mem_updateAll (hkeys.nodup_iff.mp hn), h.mem_iff, hl.mem_iff,
    hkeys.mem_iff]

end Dictionary

/-- The order in which a process iterates over its dictionaries. -/
structure HashSeed where
  iterate : Dictionary → List Entry
  perm : ∀ d, (iterate d).Perm d.entries

/-- Iteration in the order of insertion. -/
def insertionOrder : HashSeed := ⟨Dictionary.entries, fun _ => List.Perm.refl _⟩

/-- The latest entry first. -/
def reverseOrder : HashSeed := ⟨fun d => d.entries.reverse, fun d => d.entries.reverse_perm⟩

namespace HashSeed

variable (seed : HashSeed)

/-- `left +| right`. -/
def merged (left right : Dictionary) : Dictionary :=
  ((Dictionary.empty.updateAll (seed.iterate left)).updateAll (seed.iterate right))

/-- The loop over the entries with a property. -/
def filter (predicate : Entry → Bool) (d : Dictionary) : Dictionary :=
  Dictionary.empty.updateAll ((seed.iterate d).filter predicate)

def queryString (d : Dictionary) : Text :=
  Text.joined ['&'] ((seed.iterate d).map fun e => e.1 ++ '=' :: e.2.description)

/-- `keyString=valueString` of an entry. -/
def encodedEntry (e : Entry) : Text :=
  let keyString := urlEncodedString e.1 false
  keyString ++ '=' :: urlEncodedString e.2.description (keyString == "status".toList)

def urlEncodedQueryString (d : Dictionary) : Text :=
  Text.joined ['&'] ((seed.iterate d).map encodedEntry)

variable {seed} {d left right : Dictionary} {e : Entry}

lemma mem_iterate : e ∈ seed.iterate d ↔ e ∈ d.entries := (seed.perm d).mem_iff

lemma iterate_nodup (seed : HashSeed) (d : Dictionary) : ((seed.iterate d).map Prod.fst).Nodup :=
  ((seed.perm d).map Prod.fst).nodup_iff.mpr d.nodup

lemma iterate_keys {k : Text} :
    k ∈ (seed.iterate d).map Prod.fst ↔ k ∈ d.entries.map Prod.fst :=
  ((seed.perm d).map Prod.fst).mem_iff

lemma mem_merged : e ∈ (seed.merged left right).entries ↔
    (e.1 ∉ right.entries.map Prod.fst ∧ e ∈ left.entries) ∨ e ∈ right.entries := by
  rw [merged, Dictionary.mem_updateAll (iterate_nodup seed right),
    Dictionary.mem_updateAll (iterate_nodup seed left), mem_iterate, mem_iterate, iterate_keys]
  simp [Dictionary.empty]

lemma mem_filter {predicate : Entry → Bool} : e ∈ (seed.filter predicate d).entries ↔
    e ∈ d.entries ∧ predicate e = true := by
  rw [filter, Dictionary.mem_updateAll
    ((iterate_nodup seed d).sublist (List.filter_sublist.map _)), List.mem_filter, mem_iterate]
  simp [Dictionary.empty]

end HashSeed

end IosDevBootcamp.Swifter
