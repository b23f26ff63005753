import IosDevBootcamp.Swifter.Verify

/-!
# Swifter: named parameters

The calls of the library put their arguments into a dictionary under fixed names, leaving out those
that are `nil`.  Where the names can be sorted in any way, only brackets in the texts can make the
client and the server sign different strings; the text of a status may have them.
-/

namespace IosDevBootcamp.Swifter

open IosDevBootcamp.Lib IosDevBootcamp.Lib.Percent IosDevBootcamp.Lib.OAuth1

/-! ### Values without brackets -/

lemma bracketFree_description_nat (n : ℕ) : BracketFree (toString n).toList := by
  rw [Nat.toString_eq_ofList_toDigits, String.toList_ofList]
  exact bracketFree_of_forall (p := fun c => c.isDigit = true) (by decide) (by decide)
    fun c hc => Nat.isDigit_of_mem_toDigits (by decide) (by decide) hc

lemma bracketFree_description_int (n : ℤ) : BracketFree (Value.int n).description := by
  cases n with
  | ofNat m => exact bracketFree_description_nat m
  | negSucc m =>
    have hneg : (Value.int (Int.negSucc m)).description = '-' :: (toString (m + 1)).toList := by
      change ("-" ++ Nat.repr (m + 1)).toList = _
      rw [String.toList_append]
      rfl
    rw [hneg, bracketFree_cons (by decide)]
    exact bracketFree_description_nat (m + 1)

lemma bracketFree_description_double (x : Double) : BracketFree x.description :=
  bracketFree_of_forall (p := fun c => c.isAlphanum = true ∨ c ∈ ['-', '+', '.']) (by decide)
    (by decide) x.numeric

/-- The text of a value that can have brackets. -/
def Value.text : Value → Option Text
  | .string t => some t
  | .dictionary description _ => some description
  | _ => none

lemma bracketFree_description_iff (v : Value) :
    BracketFree v.description ↔ ∀ t ∈ v.text, BracketFree t := by
  cases v with
  | string t => simp [Value.description, Value.text]
  | dictionary description json => simp [Value.description, Value.text]
  | int n => exact iff_of_true (bracketFree_description_int n) nofun
  | bool b => exact iff_of_true (by cases b <;> decide) nofun
  | double x => exact iff_of_true (bracketFree_description_double x) nofun
  | data d =>
    exact iff_of_true
      (bracketFree_append.mpr ⟨bracketFree_description_nat d.length, by decide⟩) nofun

/-! ### Arguments and their names -/

/-- The arguments of a call, with the names they are sent under. -/
abbrev Arguments := List (Text × Option Value)

namespace Arguments

def given (p : Text × Option Value) : Option Entry := p.2.map fun v => (p.1, v)

def dictionary (l : Arguments) : Dictionary :=
  l.foldl (fun d p => d.updateIfSome p.2 p.1) Dictionary.empty

/-- The text of an argument, if it is not a status. -/
def text (p : Text × Option Value) : Option Text :=
  if p.1 = "status".toList then none else p.2.bind Value.text

def texts (l : Arguments) : List Text := l.filterMap text

/-- Names that are no names of the header, and can be sorted with them in any way. -/
def Sendable (names : List Text) : Prop :=
  names.Nodup ∧ (∀ k ∈ names, "oauth_".toList.isPrefixOf k = false) ∧
    (∀ k ∈ names, BracketFree k) ∧
    PrefixFree ((ownNames ++ names).map fun k => urlEncodedString k false)

instance (names : List Text) : Decidable (Sendable names) :=
  inferInstanceAs (Decidable (_ ∧ _ ∧ _ ∧ _))

/-- Under distinct names every argument that is given is an entry. -/
lemma entries_dictionary {l : Arguments} (hl : (l.map Prod.fst).Nodup) :
    l.dictionary.entries = l.filterMap given := by
  suffices h : ∀ d : Dictionary, (∀ k ∈ l.map Prod.fst, k ∉ d.entries.map Prod.fst) →
      (l.foldl (fun d p => d.updateIfSome p.2 p.1) d).entries =
        d.entries ++ l.filterMap given from
    h Dictionary.empty fun _ _ => List.not_mem_nil
  induction l with
  | nil => exact fun d _ => (List.append_nil _).symm
  | cons p l ih =>
    obtain ⟨k, v⟩ := p
    rw [List.map_cons, List.nodup_cons] at hl
    intro d hd
    have hk : k ∉ d.entries.map Prod.fst := hd k List.mem_cons_self
    have hrest : ∀ j ∈ l.map Prod.fst, j ∉ d.entries.map Prod.fst := fun j hj =>
      hd j (List.mem_cons_of_mem k hj)
    cases v with
    | none => exact ih hl.2 d hrest
    | some v =>
      have hentries : (d.updateValue v k).entries = d.entries ++ [(k, v)] := by
        simp only [Dictionary.updateValue, Keyed.erase_of_notMem hk]
      rw [List.foldl_cons, Dictionary.updateIfSome, ih hl.2 _ ?_, hentries, List.append_assoc]
      · rfl
      · intro j hj hmem
        rw [hentries, List.map_append, List.mem_append] at hmem
        rcases hmem with hmem | hmem
        · exact hrest j hj hmem
        · rw [List.mem_singleton.mp hmem] at hj
          exact hl.1 hj

lemma map_filterMap_given (l : Arguments) :
    ((l.filterMap given).map Prod.fst).Sublist (l.map Prod.fst) := by
  induction l with
  | nil => exact List.Sublist.slnil
  | cons p l ih =>
    obtain ⟨k, v⟩ := p
    cases v with
    | none => exact ih.cons k
    | some v => exact ih.cons_cons k

variable {l : Arguments} (hl : Sendable (l.map Prod.fst)) {e : Entry}
include hl

lemma mem_dictionary : e ∈ l.dictionary.entries ↔ e ∈ l.filterMap given := by
  rw [entries_dictionary hl.1]

lemma mem_names (he : e ∈ l.dictionary.entries) : e.1 ∈ l.map Prod.fst :=
  (map_filterMap_given l).subset (List.mem_map_of_mem ((mem_dictionary hl).mp he))

/-- No argument is a parameter of the header. -/
lemma not_isOAuth (he : e ∈ l.dictionary.entries) : isOAuth e = false :=
  hl.2.1 e.1 (mem_names hl he)

/-- The entries are plain if and only if the texts have no brackets. -/
lemma plain_dictionary_iff :
    (∀ e ∈ l.dictionary.entries, e.Plain) ↔ ∀ t ∈ l.texts, BracketFree t := by
  simp only [mem_dictionary hl, texts, List.mem_filterMap]
  constructor
  · rintro h t ⟨⟨k, v⟩, hp, ht⟩
    simp only [text, Option.ite_none_left_eq_some, Option.bind_eq_some_iff] at ht
    obtain ⟨hstatus, w, rfl, hw⟩ := ht
    have hplain := (h (k, w) ⟨_, hp, rfl⟩).2.resolve_left hstatus
    exact (bracketFree_description_iff w).mp hplain t hw
  · rintro h e ⟨⟨k, v⟩, hp, he⟩
    obtain ⟨w, rfl, rfl⟩ := Option.map_eq_some_iff.mp he
    refine ⟨hl.2.2.1 k (List.mem_map_of_mem hp), ?_⟩
    by_cases hstatus : k = "status".toList
    · exact Or.inl hstatus
    · refine Or.inr ((bracketFree_description_iff w).mpr fun t ht => ?_)
      exact h t ⟨_, hp, (if_neg hstatus).trans ht⟩

end Arguments

/-! ### What is signed of a call -/

section Signed

open OAuthClient HashSeed Arguments

variable (seed : HashSeed) (client : OAuthClient) (timestamp nonce : Text)

/-- The texts that the client puts into the header. -/
def OAuthClient.headerTexts : List Text :=
  [client.consumerKey, timestamp, nonce] ++ (client.accessToken.map (·.key)).toList

lemma plain_ownParameters_iff : (∀ e ∈ ownParameters client timestamp nonce, e.Plain) ↔
    ∀ t ∈ client.headerTexts timestamp nonce, BracketFree t := by
  have hname : ∀ k ∈ ownNames, BracketFree k ∧ k ≠ "status".toList := by decide
  have hplain : ∀ e ∈ ownParameters client timestamp nonce,
      (e.Plain ↔ BracketFree e.2.description) := by
    intro e he
    obtain ⟨hfree, hstatus⟩ := hname e.1
      ((ownParameters_keys client timestamp nonce).subset (List.mem_map_of_mem he))
    exact ⟨fun h => h.2.resolve_left hstatus, fun h => ⟨hfree, Or.inr h⟩⟩
  have hversion : BracketFree version ∧ BracketFree signatureMethod := by decide
  rw [forall₂_congr hplain]
  unfold ownParameters headerTexts
  cases client.accessToken <;> simp [Value.description, hversion]

variable {l : Arguments} (hl : Sendable (l.map Prod.fst)) {e : Entry}
include hl

/-- Without names of the header among the arguments, the header has the client's own parameters. -/
lemma mem_header :
    e ∈ (client.authorizationParameters seed l.dictionary timestamp nonce).entries ↔
      e ∈ ownParameters client timestamp nonce := by
  rw [mem_authorizationParameters]
  constructor
  · rintro (⟨-, hown⟩ | ⟨hgiven, hoauth⟩)
    · exact hown
    · rw [not_isOAuth hl hgiven] at hoauth
      cases hoauth
  · refine fun hown => Or.inl ⟨fun hmem => ?_, hown⟩
    obtain ⟨e', he', hkey⟩ := List.mem_map.mp hmem
    have hfalse := not_isOAuth hl he'
    rw [isOAuth, hkey] at hfalse
    exact absurd (isOAuth_ownParameters hown).1 (by rw [isOAuth, hfalse]; decide)

lemma mem_finalParameters :
    e ∈ (client.finalParameters seed l.dictionary timestamp nonce false).entries ↔
      e ∈ ownParameters client timestamp nonce ∨ e ∈ l.dictionary.entries := by
  rw [finalParameters_perm_append.mem_iff, List.mem_append,
    mem_header seed client timestamp nonce hl, mem_filter]
  exact or_congr_right (and_iff_left_of_imp fun he => by rw [not_isOAuth hl he]; rfl)

/-- No name of the call or of the header begins another. -/
lemma prefixFree_finalParameters :
    PrefixFree ((client.finalParameters seed l.dictionary timestamp nonce false).entries.map
      fun e => urlEncodedString e.1 false) := by
  have hmem : ∀ t ∈ (client.finalParameters seed l.dictionary timestamp nonce false).entries.map
      (fun e => urlEncodedString e.1 false),
      t ∈ (ownNames ++ l.map Prod.fst).map fun k => urlEncodedString k false := by
    intro t ht
    obtain ⟨e, he, rfl⟩ := List.mem_map.mp ht
    refine List.mem_map_of_mem (f := fun k => urlEncodedString k false) (List.mem_append.mpr ?_)
    exact ((mem_finalParameters seed client timestamp nonce hl).mp he).imp
      (fun h => (ownParameters_keys client timestamp nonce).subset (List.mem_map_of_mem h))
      (mem_names hl)
  exact fun s hs t ht => hl.2.2.2 s (hmem s hs) t (hmem t ht)

lemma signable_dictionary {url : Text} (hurl : '?' ∉ url) :
    Signable seed client url timestamp nonce l.dictionary where
  url := hurl
  names := prefixFree_finalParameters seed client timestamp nonce hl
  signature := by
    intro hmem
    obtain ⟨e, he, hkey⟩ := List.mem_map.mp hmem
    have hname := not_isOAuth hl he
    rw [isOAuth, hkey] at hname
    exact absurd hname (by decide)

/-- What is signed of a call is plain if and only if its texts and those of the header are. -/
lemma plain_finalParameters_iff :
    (∀ e ∈ (client.finalParameters seed l.dictionary timestamp nonce false).entries, e.Plain) ↔
      ∀ t ∈ client.headerTexts timestamp nonce ++ l.texts, BracketFree t := by
  simp only [mem_finalParameters seed client timestamp nonce hl, List.mem_append, or_imp,
    forall_and, plain_ownParameters_iff, plain_dictionary_iff hl]

/-- The header is plain if and only if its texts are. -/
lemma plain_header_iff :
    (∀ e ∈ (client.finalParameters seed l.dictionary timestamp nonce true).entries, e.Plain) ↔
      ∀ t ∈ client.headerTexts timestamp nonce, BracketFree t := by
  rw [← plain_ownParameters_iff]
  exact forall_congr' fun e => imp_congr_left (mem_header seed client timestamp nonce hl)

omit hl in
/-- **A server accepts every query of named parameters without brackets**, those of a status apart. -/
theorem get_verifies {seed : HashSeed} {client : OAuthClient} {path timestamp nonce boundary : Text}
    {baseURL : TwitterURL} {r : URLRequest}
    (hget : client.get seed path baseURL l.dictionary timestamp nonce boundary = some r)
    (hl : Sendable (l.map Prod.fst)) (hquery : '?' ∉ baseURL.relative path)
    (hurl : BracketFree (baseURL.relative path))
    (htexts : ∀ t ∈ client.headerTexts timestamp nonce ++ l.texts, BracketFree t)
    (hconsumer : BracketFree client.consumerSecret) (htoken : BracketFree (tokenSecret client)) :
    verify hmacSHA1 (utf8 client.consumerSecret) (utf8 (tokenSecret client)) r.signed =
      some true := by
  have hsignable := signable_dictionary seed client timestamp nonce hl hquery
  obtain ⟨signature, ps, hsignature, hps, hreceived⟩ := get_received hget hsignable
  exact verifies hsignature hps hreceived hsignable.names hurl
    ((plain_finalParameters_iff seed client timestamp nonce hl).mpr htexts) hconsumer htoken

end Signed

end IosDevBootcamp.Swifter
