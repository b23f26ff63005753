import IosDevBootcamp.Lib.Loop
import IosDevBootcamp.Lib.Percent

/-!
# Signed requests

OAuth 1.0 as a server sees it.  The parameters of a request are those of its `Authorization` header,
of its query and of a body that is a form.  Their normal form is a list sorted by encoded name, and
by encoded value where names are equal; with the method and the address of the request it is the
text that is signed, and the server compares the signature it computes with the one in the header.
-/

namespace IosDevBootcamp.Lib.OAuth1

open Percent Text

/-- A name and a value, as bytes. -/
abbrev Parameter := List UInt8 × List UInt8

/-! ### The normal form -/

def encodedPair (p : Parameter) : Text × Text := (encodeOctets p.1, encodeOctets p.2)

def pairLe (p q : Text × Text) : Bool := if p.1 = q.1 then le p.2 q.2 else le p.1 q.1

def pairText (p : Text × Text) : Text := p.1 ++ '=' :: p.2

def normalized (ps : List Parameter) : Text :=
  joined ['&'] (((ps.map encodedPair).mergeSort pairLe).map pairText)

def baseString (method uri : Text) (ps : List Parameter) : Text :=
  method ++ '&' :: encodeOctets (utf8 uri) ++ '&' :: encodeOctets (utf8 (normalized ps))

/-- The characters of a normal form. -/
lemma mem_normalized {c : Char} {ps : List Parameter} (h : c ∈ normalized ps) :
    unreserved c = true ∨ c ∈ ['%', '&', '='] := by
  have hoctets : ∀ bs, c ∈ encodeOctets bs → unreserved c = true ∨ c ∈ ['%', '&', '='] :=
    fun bs hc => (mem_encodeOctets hc).imp_right fun heq => by simp [heq]
  rcases mem_joined h with hc | ⟨t, ht, hc⟩
  · rw [List.mem_singleton.mp hc]
    decide
  · obtain ⟨q, hq, rfl⟩ := List.mem_map.mp ht
    obtain ⟨p, -, rfl⟩ := List.mem_map.mp (List.mem_mergeSort.mp hq)
    rcases List.mem_append.mp hc with hc | hc
    · exact hoctets _ hc
    · rcases List.mem_cons.mp hc with rfl | hc
      · decide
      · exact hoctets _ hc

/-- No name is the beginning of another. -/
def PrefixFree (names : List Text) : Prop := ∀ a ∈ names, ∀ b ∈ names, a <+: b → a = b

instance (names : List Text) : Decidable (PrefixFree names) :=
  inferInstanceAs (Decidable (∀ a ∈ names, ∀ b ∈ names, a <+: b → a = b))

lemma pairLe_total (p q : Text × Text) : (pairLe p q || pairLe q p) = true := by
  unfold pairLe
  rw [Bool.or_eq_true]
  by_cases h : p.1 = q.1
  · rw [if_pos h, if_pos h.symm]
    exact le_total p.2 q.2
  · rw [if_neg h, if_neg (Ne.symm h)]
    exact le_total p.1 q.1

lemma pairLe_trans (p q r : Text × Text) (hpq : pairLe p q = true) (hqr : pairLe q r = true) :
    pairLe p r = true := by
  unfold pairLe at hpq hqr ⊢
  split at hpq
  · rename_i h
    rw [h]
    split at hqr
    · rename_i h'
      rw [if_pos h']
      exact le_trans hpq hqr
    · rename_i h'
      rwa [if_neg h']
  · rename_i h
    split at hqr
    · rename_i h'
      rwa [← h', if_neg h]
    · have hne : p.1 ≠ r.1 := fun h' => h (le_antisymm hpq (h' ▸ hqr))
      rw [if_neg hne]
      exact le_trans hpq hqr

/-- Pairs in order have texts in order, when neither name begins the other. -/
lemma le_pairText {p q : Text × Text} (h : pairLe p q = true) (hpre : p.1 <+: q.1 → p.1 = q.1) :
    le (pairText p) (pairText q) = true := by
  unfold pairLe at h
  unfold pairText
  split at h
  · rename_i heq
    rw [heq, le_append_left]
    exact le_cons_iff.mpr (Or.inr ⟨rfl, h⟩)
  · rename_i hne
    exact le_append h (fun hp => hne (hpre hp)) _ _

/-- **Where no name begins another, sorting the pairs is sorting their texts.** -/
theorem normalized_eq {ps : List Parameter}
    (h : PrefixFree ((ps.map encodedPair).map Prod.fst)) :
    normalized ps = joined ['&'] (sorted ((ps.map encodedPair).map pairText)) := by
  unfold normalized
  congr 1
  refine (sorted_eq ((List.mergeSort_perm _ _).map _) ?_).symm
  rw [List.pairwise_map]
  refine (List.pairwise_mergeSort pairLe_trans pairLe_total _).imp_of_mem ?_
  intro p q hp hq hpq
  rw [List.mem_mergeSort] at hp hq
  exact le_pairText hpq (h _ (List.mem_map_of_mem hp) _ (List.mem_map_of_mem hq))

/-! ### The parameters of a request -/

/-- A request as it arrives; `form` is the body if that is a form. -/
structure SignedRequest where
  method : Text
  url : Text
  authorization : Text
  form : Text

def decodePair (name value : Text) : Option Parameter := do
  return (← decode name, ← decode value)

/-- `name=value`. -/
def parsePair (t : Text) : Option Parameter :=
  match components '=' t with
  | [name, value] => decodePair name value
  | _ => none

def queryParameters (query : Text) : Option (List Parameter) :=
  ((components '&' query).filter (· ≠ [])).mapM parsePair

/-- `name="value"`, after blanks. -/
def parseHeaderItem (t : Text) : Option Parameter :=
  match components '"' (t.dropWhile (· == ' ')) with
  | [name, value, []] =>
    match components '=' name with
    | [name, []] => decodePair name value
    | _ => none
  | _ => none

def headerParameters (authorization : Text) : Option (List Parameter) :=
  if "OAuth ".toList.isPrefixOf authorization then
    (components ',' (authorization.drop 6)).mapM parseHeaderItem
  else none

def signatureName : List UInt8 := utf8 "oauth_signature".toList

/-- The text that is signed, as the server finds it, and the signature in the header. -/
def received (r : SignedRequest) : Option (Text × List UInt8) := do
  let header ← headerParameters r.authorization
  let query ← queryParameters ((r.url.dropWhile (· != '?')).drop 1)
  let form ← queryParameters r.form
  let base := baseString r.method (r.url.takeWhile (· != '?'))
    (header.filter (·.1 ≠ signatureName) ++ query ++ form)
  match header.filter (·.1 = signatureName) with
  | [signature] => return (base, signature.2)
  | _ => none

/-- What the server answers to a request, under the secrets of its client. -/
def verify (sign : List UInt8 → List UInt8 → Text) (consumerSecret tokenSecret : List UInt8)
    (r : SignedRequest) : Option Bool := do
  let (base, signature) ← received r
  let key := encodeOctets consumerSecret ++ '&' :: encodeOctets tokenSecret
  return signature == utf8 (sign (utf8 key) (utf8 base))

/-! ### Reading what a client wrote -/

/-- A text without the characters that structure queries and headers. -/
def Clean (t : Text) : Prop := ∀ c ∈ ['&', '=', ',', ' ', '"', '?'], c ∉ t

/-- `name="value"`. -/
def headerItem (p : Text × Text) : Text := p.1 ++ '=' :: '"' :: p.2 ++ ['"']

section Reading

/-- The pair is clean and stands for a parameter. -/
def Writes (p : Text × Text) (q : Parameter) : Prop :=
  Clean p.1 ∧ Clean p.2 ∧ decodePair p.1 p.2 = some q

/-! Elements of a list are written by `f`, and stand for the parameters that `g` gives. -/

variable {α : Type*} {l : List α} {f : α → Text × Text} {g : α → Parameter} {p : Text × Text}

lemma parsePair_pairText (h1 : Clean p.1) (h2 : Clean p.2) :
    parsePair (pairText p) = decodePair p.1 p.2 := by
  rw [parsePair, pairText, components_append (h1 '=' (by simp)) (h2 '=' (by simp))]

lemma notMem_pairText (h1 : Clean p.1) (h2 : Clean p.2) {c : Char} (hc : c ∈ ['&', ',', '"', '?']) :
    c ∉ pairText p := by
  have hsub : c ∈ ['&', '=', ',', ' ', '"', '?'] ∧ c ≠ '=' := by
    have hall : ∀ c ∈ ['&', ',', '"', '?'], c ∈ ['&', '=', ',', ' ', '"', '?'] ∧ c ≠ '=' :=
      List.forall_iff_forall_mem.mp (by decide)
    exact hall c hc
  intro hmem
  rcases List.mem_append.mp hmem with h | h
  · exact h1 c hsub.1 h
  · rcases List.mem_cons.mp h with h | h
    · exact hsub.2 h
    · exact h2 c hsub.1 h

/-- **A query is read pair by pair.** -/
theorem queryParameters_joined (hl : ∀ a ∈ l, Writes (f a) (g a)) :
    queryParameters (joined ['&'] (l.map fun a => pairText (f a))) = some (l.map g) := by
  have hparts : (components '&' (joined ['&'] (l.map fun a => pairText (f a)))).filter (· ≠ []) =
      l.map fun a => pairText (f a) := by
    by_cases hnil : l = []
    · rw [hnil]
      rfl
    · rw [components_joined]
      · refine List.filter_eq_self.mpr fun t ht => ?_
        obtain ⟨a, -, rfl⟩ := List.mem_map.mp ht
        simp [pairText]
      · intro t ht
        obtain ⟨a, ha, rfl⟩ := List.mem_map.mp ht
        exact notMem_pairText (hl a ha).1 (hl a ha).2.1 (by simp)
      · rwa [ne_eq, List.map_eq_nil_iff]
  rw [queryParameters, hparts, List.mapM_map]
  refine Loop.mapM_some fun a ha => ?_
  obtain ⟨h1, h2, hdecode⟩ := hl a ha
  exact (parsePair_pairText h1 h2).trans hdecode

lemma parseHeaderItem_headerItem (h1 : Clean p.1) (h2 : Clean p.2) :
    parseHeaderItem (headerItem p) = decodePair p.1 p.2 ∧
      parseHeaderItem (' ' :: headerItem p) = decodePair p.1 p.2 := by
  have hblank : (headerItem p).dropWhile (· == ' ') = headerItem p := by
    unfold headerItem
    cases hp : p.1 with
    | nil => rfl
    | cons c t =>
      have hc : c ≠ ' ' := by
        rintro rfl
        exact h1 ' ' (by simp) (hp ▸ List.mem_cons_self)
      rw [List.cons_append, List.cons_append, List.dropWhile_cons_of_neg (by simpa using hc)]
  have hquotes : components '"' (headerItem p) = [p.1 ++ ['='], p.2, []] := by
    have hq1 : '"' ∉ p.1 ++ ['='] := by simpa using h1 '"' (by simp)
    have h : components '"' (joined ['"'] [p.1 ++ ['='], p.2, []]) = [p.1 ++ ['='], p.2, []] :=
      components_joined (by simpa using ⟨by simpa using h1 '"' (by simp), h2 '"' (by simp)⟩)
        (by simp)
    rw [← h]
    simp [joined_cons, headerItem]
  have hname : components '=' (p.1 ++ ['=']) = [p.1, []] :=
    components_append (h1 '=' (by simp)) (by simp)
  have hparse : parseHeaderItem (headerItem p) = decodePair p.1 p.2 := by
    simp only [parseHeaderItem, hblank, hquotes, hname]
  refine ⟨hparse, ?_⟩
  rw [← hparse]
  rfl

/-- **A header is read pair by pair.** -/
theorem headerParameters_joined (hne : l ≠ []) (hl : ∀ a ∈ l, Writes (f a) (g a)) :
    headerParameters ("OAuth ".toList ++ joined ", ".toList (l.map fun a => headerItem (f a))) =
      some (l.map g) := by
  have hcomma : ∀ a ∈ l, ',' ∉ headerItem (f a) := by
    intro a ha hmem
    have h1 := (hl a ha).1 ',' (by simp)
    have h2 := (hl a ha).2.1 ',' (by simp)
    simp [headerItem, h1, h2] at hmem
  obtain ⟨a, l, rfl⟩ := List.exists_cons_of_ne_nil hne
  have hjoin : joined ", ".toList ((a :: l).map fun a => headerItem (f a)) =
      joined [','] (headerItem (f a) :: l.map fun a => ' ' :: headerItem (f a)) := by
    rw [List.map_cons, joined_cons, joined_cons, List.flatMap_map, List.flatMap_map]
    rfl
  have hparts : components ',' (joined [','] (headerItem (f a) :: l.map fun a =>
      ' ' :: headerItem (f a))) = headerItem (f a) :: l.map fun a => ' ' :: headerItem (f a) := by
    refine components_joined ?_ (by simp)
    intro t ht
    rcases List.mem_cons.mp ht with rfl | ht
    · exact hcomma a List.mem_cons_self
    · obtain ⟨b, hb, rfl⟩ := List.mem_map.mp ht
      simpa using hcomma b (List.mem_cons_of_mem a hb)
  have hpre : "OAuth ".toList.isPrefixOf
      ("OAuth ".toList ++ joined ", ".toList ((a :: l).map fun a => headerItem (f a))) = true :=
    List.isPrefixOf_iff_prefix.mpr (List.prefix_append _ _)
  have hdrop : ∀ t : Text, ("OAuth ".toList ++ t).drop 6 = t := fun _ => rfl
  have hread : ∀ b ∈ a :: l, parseHeaderItem (headerItem (f b)) = some (g b) ∧
      parseHeaderItem (' ' :: headerItem (f b)) = some (g b) := by
    intro b hb
    obtain ⟨h1, h2, hdecode⟩ := hl b hb
    rw [← hdecode]
    exact parseHeaderItem_headerItem h1 h2
  have hrest : (l.map fun a => ' ' :: headerItem (f a)).mapM parseHeaderItem =
      some (l.map g) := by
    rw [List.mapM_map]
    exact Loop.mapM_some fun b hb => (hread b (List.mem_cons_of_mem a hb)).2
  rw [headerParameters, if_pos hpre, hdrop, hjoin, hparts, List.mapM_cons, hrest,
    (hread a List.mem_cons_self).1]
  rfl

end Reading

end IosDevBootcamp.Lib.OAuth1
