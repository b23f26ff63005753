import Mathlib.Data.List.TakeWhile
import IosDevBootcamp.Lib.OAuth1
import IosDevBootcamp.Swifter.HTTPRequest

/-!
# Swifter: a server accepts what the client signs

The client signs the strings it encodes and sorts; a server reads the header and the query back and
signs the normal form of what it finds.  Both sign the same text, except where brackets, which the
client leaves as they are, are escaped by the server.
-/

namespace IosDevBootcamp.Swifter

open IosDevBootcamp.Lib IosDevBootcamp.Lib.Percent IosDevBootcamp.Lib.OAuth1

/-! ### Encoded entries -/

def BracketFree (t : Text) : Prop := '[' ∉ t ∧ ']' ∉ t

instance (t : Text) : Decidable (BracketFree t) :=
  inferInstanceAs (Decidable ('[' ∉ t ∧ ']' ∉ t))

/-- Without brackets the client encodes as the server does. -/
lemma urlEncodedString_eq {t : Text} (h : BracketFree t) (encodeAll : Bool) :
    urlEncodedString t encodeAll = encodeOctets (utf8 t) := by
  rw [encodeOctets_utf8, urlEncodedString]
  refine encode_congr fun c hc => ?_
  cases encodeAll with
  | true => rw [allowedCharacterSet_true]
  | false =>
    have hopen : c ≠ '[' := fun heq => h.1 (heq ▸ hc)
    have hclose : c ≠ ']' := fun heq => h.2 (heq ▸ hc)
    rw [allowedCharacterSet_false, beq_false_of_ne hopen, beq_false_of_ne hclose, Bool.or_false,
      Bool.or_false]

lemma urlEncodedString_true (t : Text) : urlEncodedString t true = encodeOctets (utf8 t) := by
  rw [encodeOctets_utf8, urlEncodedString, allowedCharacterSet_true]

/-- An entry as the server knows it. -/
def parameter (e : Entry) : Parameter := (utf8 e.1, utf8 e.2.description)

/-- The two texts of an encoded entry. -/
def encodedTexts (e : Entry) : Text × Text :=
  let keyString := urlEncodedString e.1 false
  (keyString, urlEncodedString e.2.description (keyString == "status".toList))

lemma encodedEntry_eq (e : Entry) : HashSeed.encodedEntry e = pairText (encodedTexts e) := rfl

lemma clean_urlEncodedString (t : Text) (encodeAll : Bool) : Clean (urlEncodedString t encodeAll) :=
  fun _ hc => notMem_urlEncodedString t encodeAll hc

lemma writes_encodedTexts (e : Entry) : Writes (encodedTexts e) (parameter e) := by
  refine ⟨clean_urlEncodedString _ _, clean_urlEncodedString _ _, ?_⟩
  simp only [decodePair, encodedTexts, decode_urlEncodedString]
  rfl

/-- Every bracket of an entry is escaped; in a status all characters are. -/
def Entry.Plain (e : Entry) : Prop :=
  BracketFree e.1 ∧ (e.1 = "status".toList ∨ BracketFree e.2.description)

lemma encodedPair_parameter {e : Entry} (h : e.Plain) :
    encodedPair (parameter e) = encodedTexts e := by
  unfold encodedPair parameter encodedTexts
  rw [urlEncodedString_eq h.1]
  refine congrArg (Prod.mk _) ?_
  rcases h.2 with hstatus | hvalue
  · have hkey : encodeOctets (utf8 "status".toList) = "status".toList := by decide
    rw [hstatus, hkey, beq_self_eq_true, urlEncodedString_true]
  · rw [urlEncodedString_eq hvalue]

/-! ### What the server reads -/

section Reads

variable (seed : HashSeed) (d : Dictionary)

/-- The server reads the entries out of the header, in some order. -/
lemma headerParameters_headerOf (hne : d.entries ≠ []) :
    ∃ es : List Entry, es.Perm d.entries ∧
      headerParameters (OAuthClient.headerOf seed d) = some (es.map parameter) := by
  obtain ⟨es, hes, hsorted⟩ := Text.exists_sorted_map HashSeed.encodedEntry (seed.iterate d)
  replace hes := hes.trans (seed.perm d)
  have hitem : ∀ e, OAuthClient.headerComponent (HashSeed.encodedEntry e) =
      some (headerItem (encodedTexts e)) := by
    intro e
    obtain ⟨h1, h2, -⟩ := writes_encodedTexts e
    rw [encodedEntry_eq, OAuthClient.headerComponent, pairText,
      Text.components_append (h1 '=' (by simp)) (h2 '=' (by simp))]
    rfl
  refine ⟨es, hes, ?_⟩
  rw [OAuthClient.headerOf, components_urlEncodedQueryString, if_neg hne, hsorted,
    List.filterMap_map]
  have hmap : es.filterMap (OAuthClient.headerComponent ∘ HashSeed.encodedEntry) =
      es.map fun e => headerItem (encodedTexts e) := by
    rw [← List.filterMap_eq_map']
    exact List.filterMap_congr fun e _ => hitem e
  rw [hmap]
  refine headerParameters_joined ?_ fun e _ => writes_encodedTexts e
  rintro rfl
  exact hne (List.nil_perm.mp hes)

/-- The server reads the entries out of the query. -/
lemma queryParameters_urlEncodedQueryString :
    queryParameters (seed.urlEncodedQueryString d) = some ((seed.iterate d).map parameter) :=
  queryParameters_joined fun e _ => writes_encodedTexts e

/-- The string the client signs is the normal form of the parameters, where every bracket is escaped. -/
lemma parameterString_eq {ps : List Parameter} (hps : ps.Perm (d.entries.map parameter))
    (hfree : ∀ e ∈ d.entries, e.Plain)
    (hnames : PrefixFree (d.entries.map fun e => urlEncodedString e.1 false)) :
    OAuthClient.parameterString seed d = normalized ps := by
  have hpairs : (ps.map encodedPair).Perm (d.entries.map encodedTexts) := by
    refine (hps.map encodedPair).trans (List.Perm.of_eq ?_)
    rw [List.map_map]
    exact List.map_congr_left fun e he => encodedPair_parameter (hfree e he)
  have hkeysFree : PrefixFree ((ps.map encodedPair).map Prod.fst) := by
    have hkeys := (hpairs.map Prod.fst).trans (List.Perm.of_eq List.map_map)
    intro a ha b hb
    exact hnames a (hkeys.mem_iff.mp ha) b (hkeys.mem_iff.mp hb)
  rw [normalized_eq hkeysFree, Text.sorted_congr (hpairs.map pairText), OAuthClient.parameterString,
    components_urlEncodedQueryString, List.map_map]
  by_cases hnil : d.entries = []
  · rw [if_pos hnil, hnil]
    simp [Text.sorted, Text.joined]
  · rw [if_neg hnil, Text.sorted_congr ((seed.perm d).map HashSeed.encodedEntry)]
    rfl

end Reads

/-! ### Brackets -/

section Brackets

variable {s t : Text}

lemma bracketFree_append : BracketFree (s ++ t) ↔ BracketFree s ∧ BracketFree t := by
  simp only [BracketFree, List.mem_append, not_or]
  tauto

lemma bracketFree_cons {c : Char} (hc : c ≠ '[' ∧ c ≠ ']') : BracketFree (c :: t) ↔ BracketFree t := by
  simp only [BracketFree, List.mem_cons, not_or]
  exact ⟨fun h => ⟨h.1.2, h.2.2⟩, fun h => ⟨⟨hc.1.symm, h.1⟩, ⟨hc.2.symm, h.2⟩⟩⟩

lemma bracketFree_of_forall {p : Char → Prop} (hopen : ¬ p '[') (hclose : ¬ p ']')
    (h : ∀ c ∈ t, p c) : BracketFree t :=
  ⟨fun hc => hopen (h _ hc), fun hc => hclose (h _ hc)⟩

lemma bracketFree_encodeOctets (bs : List UInt8) : BracketFree (encodeOctets bs) :=
  bracketFree_of_forall (p := fun c => unreserved c = true ∨ c = '%') (by decide) (by decide)
    fun _ hc => mem_encodeOctets hc

lemma bracketFree_normalized (ps : List Parameter) : BracketFree (normalized ps) :=
  bracketFree_of_forall (p := fun c => unreserved c = true ∨ c ∈ ['%', '&', '=']) (by decide)
    (by decide) fun _ hc => mem_normalized hc

/-- The client leaves brackets where they are. -/
lemma bracketFree_urlEncodedString : BracketFree (urlEncodedString t false) ↔ BracketFree t := by
  unfold BracketFree urlEncodedString
  rw [mem_encode_iff (by decide) (by decide) (by decide),
    mem_encode_iff (by decide) (by decide) (by decide)]

lemma bracketFree_joined {ts : List Text} :
    BracketFree (Text.joined ['&'] ts) ↔ ∀ t ∈ ts, BracketFree t := by
  constructor
  · intro h t ht
    exact ⟨fun hc => h.1 (Text.mem_joined_of_mem ht hc),
      fun hc => h.2 (Text.mem_joined_of_mem ht hc)⟩
  · intro h
    constructor
    all_goals
      intro hc
      rcases Text.mem_joined hc with hsep | ⟨t, ht, hmem⟩
      · simp at hsep
      · exact absurd hmem (by first | exact (h t ht).1 | exact (h t ht).2)

/-- The name of a status is the only one that reads so when it is encoded. -/
lemma keyString_status_iff : urlEncodedString t false = "status".toList ↔ t = "status".toList := by
  have hstatus : urlEncodedString "status".toList false = "status".toList := by decide
  constructor
  · intro h
    exact encode_injective (not_allowed false List.mem_cons_self) (h.trans hstatus.symm)
  · rintro rfl
    exact hstatus

lemma bracketFree_encodedEntry (e : Entry) : BracketFree (HashSeed.encodedEntry e) ↔ e.Plain := by
  unfold HashSeed.encodedEntry Entry.Plain
  rw [bracketFree_append, bracketFree_cons (by decide), bracketFree_urlEncodedString]
  refine and_congr_right fun _ => ?_
  by_cases hstatus : e.1 = "status".toList
  · rw [keyString_status_iff.mpr hstatus, beq_self_eq_true, urlEncodedString_true]
    exact iff_of_true (bracketFree_encodeOctets _) (Or.inl hstatus)
  · rw [beq_false_of_ne (mt keyString_status_iff.mp hstatus), bracketFree_urlEncodedString]
    exact ⟨Or.inr, fun h => h.resolve_left hstatus⟩

lemma bracketFree_parameterString (seed : HashSeed) (d : Dictionary) :
    BracketFree (OAuthClient.parameterString seed d) ↔ ∀ e ∈ d.entries, e.Plain := by
  unfold OAuthClient.parameterString
  rw [bracketFree_joined, components_urlEncodedQueryString]
  split
  · rename_i hnil
    rw [hnil]
    refine iff_of_true (fun t ht => ?_) fun e he => absurd he List.not_mem_nil
    rw [List.mem_singleton.mp ((Text.sorted_perm _).mem_iff.mp ht)]
    decide
  · simp only [(Text.sorted_perm _).mem_iff, List.forall_mem_map, bracketFree_encodedEntry,
      HashSeed.mem_iterate]

/-- **The client and the server sign the same text if and only if every bracket is escaped.** -/
theorem signatureBaseString_eq_iff (seed : HashSeed) (method : HTTPMethodType) (url : Text)
    {d : Dictionary} {ps : List Parameter} (hps : ps.Perm (d.entries.map parameter))
    (hnames : PrefixFree (d.entries.map fun e => urlEncodedString e.1 false)) :
    OAuthClient.signatureBaseString seed method url d = baseString method.rawValue url ps ↔
      BracketFree url ∧ ∀ e ∈ d.entries, e.Plain := by
  have hmethod : BracketFree method.rawValue := by cases method <;> decide
  constructor
  · intro heq
    have hfree : BracketFree (baseString method.rawValue url ps) := by
      unfold baseString
      rw [bracketFree_append, bracketFree_append, bracketFree_cons (by decide),
        bracketFree_cons (by decide)]
      exact ⟨⟨hmethod, bracketFree_encodeOctets _⟩, bracketFree_encodeOctets _⟩
    rw [← heq, OAuthClient.signatureBaseString, bracketFree_append, bracketFree_append,
      bracketFree_cons (by decide), bracketFree_cons (by decide), bracketFree_urlEncodedString,
      bracketFree_urlEncodedString, bracketFree_parameterString] at hfree
    exact ⟨hfree.1.2, hfree.2⟩
  · rintro ⟨hurl, hplain⟩
    rw [OAuthClient.signatureBaseString, baseString, parameterString_eq seed d hps hplain hnames,
      urlEncodedString_eq hurl, urlEncodedString_eq (bracketFree_normalized ps)]

end Brackets

/-! ### The parameters of a signed request -/

section Parameters

open OAuthClient HashSeed

variable (seed : HashSeed) (client : OAuthClient) (parameters : Dictionary)
  (timestamp nonce : Text)

def isOAuth (e : Entry) : Bool := "oauth_".toList.isPrefixOf e.1

/-- The parameters of the header that the client itself puts in. -/
def ownParameters : List Entry :=
  [("oauth_version".toList, .string version),
    ("oauth_signature_method".toList, .string signatureMethod),
    ("oauth_consumer_key".toList, .string client.consumerKey),
    ("oauth_timestamp".toList, .string timestamp), ("oauth_nonce".toList, .string nonce)] ++
  (client.accessToken.map fun token => ("oauth_token".toList, Value.string token.key)).toList

def ownNames : List Text :=
  ["oauth_version".toList, "oauth_signature_method".toList, "oauth_consumer_key".toList,
    "oauth_timestamp".toList, "oauth_nonce".toList, "oauth_token".toList]

/-- The names of the client's own parameters, with or without a token. -/
lemma ownParameters_keys : (ownParameters client timestamp nonce).map Prod.fst <+: ownNames := by
  unfold ownParameters
  cases client.accessToken with
  | none => exact ⟨["oauth_token".toList], rfl⟩
  | some token => exact ⟨[], rfl⟩

variable {client timestamp nonce}

lemma isOAuth_ownParameters {e : Entry} (he : e ∈ ownParameters client timestamp nonce) :
    isOAuth e = true ∧ e.1 ≠ "oauth_signature".toList := by
  have hkey := (ownParameters_keys client timestamp nonce).subset (List.mem_map_of_mem he)
  have hall : ∀ k ∈ ownNames,
      "oauth_".toList.isPrefixOf k = true ∧ k ≠ "oauth_signature".toList := by decide
  exact hall e.1 hkey

variable {seed parameters}

lemma authorizationParameters_eq : client.authorizationParameters seed parameters timestamp nonce =
    (Dictionary.empty.updateAll (ownParameters client timestamp nonce)).updateAll
      ((seed.iterate parameters).filter isOAuth) := by
  unfold authorizationParameters ownParameters
  cases client.accessToken <;> rfl

/-- The header has the client's own parameters, unless they are given, and those that are given. -/
lemma mem_authorizationParameters {e : Entry} :
    e ∈ (client.authorizationParameters seed parameters timestamp nonce).entries ↔
      (e.1 ∉ parameters.entries.map Prod.fst ∧ e ∈ ownParameters client timestamp nonce) ∨
        (e ∈ parameters.entries ∧ isOAuth e = true) := by
  have hown : ((ownParameters client timestamp nonce).map Prod.fst).Nodup :=
    (ownParameters_keys client timestamp nonce).sublist.nodup (by decide)
  have hgiven : (((seed.iterate parameters).filter isOAuth).map Prod.fst).Nodup :=
    (iterate_nodup seed parameters).sublist (List.filter_sublist.map _)
  rw [authorizationParameters_eq, Dictionary.mem_updateAll hgiven, Dictionary.mem_updateAll hown,
    List.mem_filter, mem_iterate]
  have hempty : e ∉ Dictionary.empty.entries := List.not_mem_nil
  -- A name of the client's own begins as the filtered names do.
  have hnames : e ∈ ownParameters client timestamp nonce →
      (e.1 ∉ ((seed.iterate parameters).filter isOAuth).map Prod.fst ↔
        e.1 ∉ parameters.entries.map Prod.fst) := by
    intro he
    have hoauth := (isOAuth_ownParameters he).1
    refine not_congr ⟨fun h => ?_, fun h => ?_⟩
    · obtain ⟨e', he', hkey⟩ := List.mem_map.mp h
      exact List.mem_map.mpr ⟨e', mem_iterate.mp (List.mem_filter.mp he').1, hkey⟩
    · obtain ⟨e', he', hkey⟩ := List.mem_map.mp h
      refine List.mem_map.mpr ⟨e', List.mem_filter.mpr ⟨mem_iterate.mpr he', ?_⟩, hkey⟩
      rw [isOAuth, hkey]
      exact hoauth
  constructor
  · rintro (⟨hnot, ⟨-, h⟩ | h⟩ | h)
    · exact absurd h hempty
    · exact Or.inl ⟨(hnames h).mp hnot, h⟩
    · exact Or.inr h
  · rintro (⟨hnot, h⟩ | h)
    · exact Or.inl ⟨(hnames h).mpr hnot, Or.inr h⟩
    · exact Or.inr h

/-- What is signed is the header without the signature, and the query. -/
lemma finalParameters_perm_append :
    (client.finalParameters seed parameters timestamp nonce false).entries.Perm
      ((client.authorizationParameters seed parameters timestamp nonce).entries ++
        (seed.filter (fun e => !isOAuth e) parameters).entries) := by
  have hoauth : ∀ e ∈ (client.authorizationParameters seed parameters timestamp nonce).entries,
      isOAuth e = true := by
    intro e he
    rcases mem_authorizationParameters.mp he with ⟨-, h⟩ | ⟨-, h⟩
    · exact (isOAuth_ownParameters h).1
    · exact h
  have hdisjoint : ((client.authorizationParameters seed parameters timestamp nonce).entries ++
      (seed.filter (fun e => !isOAuth e) parameters).entries).Nodup := by
    refine List.nodup_append.mpr ⟨Dictionary.nodup _ |>.of_map, Dictionary.nodup _ |>.of_map, ?_⟩
    intro e he e' he' heq
    have h := (mem_filter.mp he').2
    rw [← heq, hoauth e he] at h
    cases h
  refine (List.perm_ext_iff_of_nodup (Dictionary.nodup _).of_map hdisjoint).mpr fun e => ?_
  simp only [finalParameters, Bool.false_eq_true, if_false]
  rw [mem_merged, List.mem_append, mem_filter]
  constructor
  · rintro (⟨-, h⟩ | h)
    · exact Or.inl h
    · cases hkind : isOAuth e with
      | true => exact Or.inl (mem_authorizationParameters.mpr (Or.inr ⟨h, hkind⟩))
      | false => exact Or.inr ⟨h, rfl⟩
  · rintro (h | ⟨h, -⟩)
    · rcases mem_authorizationParameters.mp h with ⟨hnot, -⟩ | ⟨hgiven, -⟩
      · exact Or.inl ⟨hnot, h⟩
      · exact Or.inr hgiven
    · exact Or.inr h

end Parameters

/-! ### The answer of the server -/

section Answer

open OAuthClient HashSeed

/-- The body, which is as long as its header says. -/
def URLRequest.body (r : URLRequest) : Data :=
  match (r.value HTTPRequest.contentLength).bind Text.number with
  | some n => (r.httpBody.getD []).take n
  | none => []

/-- The body, if it is said to be a form. -/
def URLRequest.form (r : URLRequest) : Text :=
  if r.value HTTPRequest.contentType = some HTTPRequest.urlEncodedForm then
    (utf8Decode r.body).getD []
  else []

/-- A request as the server gets it. -/
def URLRequest.signed (r : URLRequest) : SignedRequest :=
  ⟨r.httpMethod, r.url, (r.value "Authorization".toList).getD [], r.form⟩

/-- The signature the server computes. -/
def hmacSHA1 (key text : List UInt8) : Text :=
  base64EncodedString (Hmac.hmac Sha1.sha1 64 key text)

def tokenSecret (client : OAuthClient) : Text :=
  (client.accessToken.map fun token => token.secret).getD []

variable (seed : HashSeed) (parameters : Dictionary)

lemma urlEncodedQueryString_nil {d : Dictionary} (h : d.entries = []) :
    seed.urlEncodedQueryString d = [] := by
  have hiter : seed.iterate d = [] := List.perm_nil.mp (h ▸ seed.perm d)
  rw [urlEncodedQueryString, hiter]
  rfl

lemma body_eq {r : URLRequest} {data : Data} (hr : r.httpBody = some data)
    (hlen : r.value HTTPRequest.contentLength = some (HTTPRequest.count data)) : r.body = data := by
  rw [URLRequest.body, hlen, Option.bind_some, HTTPRequest.count, Text.number_description, hr]
  exact List.take_length

lemma form_of_no_body {r : URLRequest} (h : r.httpBody = none) : r.form = [] := by
  have hbody : r.body = [] := by
    rw [URLRequest.body, h]
    split
    · exact List.take_nil
    · rfl
  rw [URLRequest.form, hbody]
  split <;> rfl

/-- What `get` sends: the parameters stand in the query, the header as it is. -/
lemma signed_start (boundary url authorization : Text) :
    (HTTPRequest.start seed boundary { HTTPRequest.make url .GET parameters with
      headers := [("Authorization".toList, authorization)] }).signed =
    ⟨HTTPMethodType.GET.rawValue, appendQueryString url
      (seed.urlEncodedQueryString (seed.filter (fun e => !isOAuth e) parameters)),
      authorization, []⟩ := by
  change (if (seed.filter (fun e => !isOAuth e) parameters).entries ≠ [] then _
    else _ : URLRequest).signed = _
  split
  · rw [URLRequest.signed, form_of_no_body rfl]
    rfl
  · rename_i hnil
    rw [urlEncodedQueryString_nil seed (not_not.mp hnil), appendQueryString, if_pos rfl,
      URLRequest.signed, form_of_no_body rfl]
    rfl

/-- The server takes the address and the query apart again. -/
lemma splits_url {url : Text} (hurl : '?' ∉ url) (query : Text) :
    (appendQueryString url query).takeWhile (· != '?') = url ∧
      ((appendQueryString url query).dropWhile (· != '?')).drop 1 = query := by
  have hall : ∀ c ∈ url, (c != '?') = true := fun c hc =>
    bne_iff_ne.mpr fun heq => hurl (heq ▸ hc)
  unfold appendQueryString
  split
  · rename_i hnil
    rw [List.takeWhile_eq_self_iff.mpr hall, List.dropWhile_eq_nil_iff.mpr hall, hnil]
    exact ⟨rfl, rfl⟩
  · rw [List.append_assoc, List.takeWhile_append_of_pos hall,
      List.dropWhile_append_of_pos hall]
    simp

/-- The signature is the one parameter of the header that is not signed. -/
lemma header_split {d : Dictionary} {es : List Entry} {signature : Text}
    (hd : "oauth_signature".toList ∉ d.entries.map Prod.fst)
    (hes : es.Perm (d.updateValue (.string signature) "oauth_signature".toList).entries) :
    (es.map parameter).filter (·.1 = signatureName) = [(signatureName, utf8 signature)] ∧
      ((es.map parameter).filter (·.1 ≠ signatureName)).Perm (d.entries.map parameter) := by
  have hentries : (d.updateValue (.string signature) "oauth_signature".toList).entries =
      d.entries ++ [("oauth_signature".toList, .string signature)] := by
    simp only [Dictionary.updateValue, Keyed.erase_of_notMem hd]
  have hname : ∀ e ∈ d.entries, (parameter e).1 ≠ signatureName := fun e he heq =>
    hd (List.mem_map.mpr ⟨e, he, utf8_injective heq⟩)
  have hperm := hes.map parameter
  rw [hentries, List.map_append] at hperm
  refine ⟨List.perm_singleton.mp ?_, ?_⟩
  · refine (hperm.filter _).trans (List.Perm.of_eq ?_)
    rw [List.filter_append, List.filter_eq_nil_iff.mpr, List.nil_append]
    · rfl
    · intro p hp
      obtain ⟨e, he, rfl⟩ := List.mem_map.mp hp
      simpa using hname e he
  · refine (hperm.filter _).trans (List.Perm.of_eq ?_)
    rw [List.filter_append, List.filter_eq_self.mpr]
    · exact List.append_nil _
    · intro p hp
      obtain ⟨e, he, rfl⟩ := List.mem_map.mp hp
      simpa using hname e he

variable {seed parameters} {client : OAuthClient} {url timestamp nonce signature : Text}

/-- **The server finds the signature and the parameters that were signed**: those of the header, and
the rest in the query or in the form. -/
theorem received_eq {method : HTTPMethodType} {address form : Text} {final : Dictionary}
    {rest : List Entry} {qs fs : List Parameter}
    (hgiven : "oauth_signature".toList ∉ parameters.entries.map Prod.fst)
    (haddress : address.takeWhile (· != '?') = url)
    (hquery : queryParameters ((address.dropWhile (· != '?')).drop 1) = some qs)
    (hform : queryParameters form = some fs) (hrest : (qs ++ fs).Perm (rest.map parameter))
    (hfinal : final.entries.Perm
      ((client.authorizationParameters seed parameters timestamp nonce).entries ++ rest)) :
    ∃ ps, ps.Perm (final.entries.map parameter) ∧
      received ⟨method.rawValue, address,
        headerOf seed ((client.authorizationParameters seed parameters timestamp nonce).updateValue
          (.string signature) "oauth_signature".toList), form⟩ =
        some (baseString method.rawValue url ps, utf8 signature) := by
  have hnosig : "oauth_signature".toList ∉
      (client.authorizationParameters seed parameters timestamp nonce).entries.map Prod.fst := by
    intro hmem
    obtain ⟨e, he, hkey⟩ := List.mem_map.mp hmem
    rcases mem_authorizationParameters.mp he with ⟨-, hown⟩ | ⟨hmember, -⟩
    · exact (isOAuth_ownParameters hown).2 hkey
    · exact hgiven (List.mem_map.mpr ⟨e, hmember, hkey⟩)
  have hne : ((client.authorizationParameters seed parameters timestamp nonce).updateValue
      (.string signature) "oauth_signature".toList).entries ≠ [] := by
    simp [Dictionary.updateValue]
  obtain ⟨es, hes, hheader⟩ := headerParameters_headerOf seed _ hne
  obtain ⟨hsig, hown⟩ := header_split hnosig hes
  refine ⟨(es.map parameter).filter (·.1 ≠ signatureName) ++ qs ++ fs, ?_, ?_⟩
  · rw [List.append_assoc]
    refine (hown.append hrest).trans ?_
    rw [← List.map_append]
    exact (hfinal.map parameter).symm
  · simp only [received, hheader, haddress, hquery, hform, hsig, Option.bind_eq_bind,
      Option.bind_some]
    rfl

/-- The names of what is signed leave no doubt. -/
structure Signable (seed : HashSeed) (client : OAuthClient) (url timestamp nonce : Text)
    (parameters : Dictionary) : Prop where
  url : '?' ∉ url
  names : PrefixFree ((client.finalParameters seed parameters timestamp nonce false).entries.map
    fun e => urlEncodedString e.1 false)
  signature : "oauth_signature".toList ∉ parameters.entries.map Prod.fst

/-- What `get` sends to the server. -/
lemma get_signed {path boundary : Text} {baseURL : TwitterURL} {r : URLRequest}
    (hget : client.get seed path baseURL parameters timestamp nonce boundary = some r) :
    ∃ signature, client.oauthSignature seed .GET (baseURL.relative path)
        (client.finalParameters seed parameters timestamp nonce false) client.accessToken =
          some signature ∧
      r.signed = ⟨HTTPMethodType.GET.rawValue, appendQueryString (baseURL.relative path)
        (seed.urlEncodedQueryString (seed.filter (fun e => !isOAuth e) parameters)),
        headerOf seed ((client.authorizationParameters seed parameters timestamp nonce).updateValue
          (.string signature) "oauth_signature".toList), []⟩ := by
  obtain ⟨authorization, hheader, hr⟩ := Option.bind_eq_some_iff.mp hget
  obtain rfl := Option.some_inj.mp hr
  obtain ⟨signature, hsignature, hauthorization⟩ := Option.bind_eq_some_iff.mp hheader
  obtain rfl := Option.some_inj.mp hauthorization
  exact ⟨signature, hsignature, signed_start seed parameters boundary _ _⟩

lemma get_received {path boundary : Text} {baseURL : TwitterURL} {r : URLRequest}
    (hget : client.get seed path baseURL parameters timestamp nonce boundary = some r)
    (h : Signable seed client (baseURL.relative path) timestamp nonce parameters) :
    ∃ signature ps, client.oauthSignature seed .GET (baseURL.relative path)
        (client.finalParameters seed parameters timestamp nonce false) client.accessToken =
          some signature ∧
      ps.Perm ((client.finalParameters seed parameters timestamp nonce false).entries.map
        parameter) ∧
      received r.signed =
        some (baseString HTTPMethodType.GET.rawValue (baseURL.relative path) ps,
          utf8 signature) := by
  obtain ⟨signature, hsignature, hr⟩ := get_signed hget
  obtain ⟨haddress, hquery⟩ := splits_url h.url
    (seed.urlEncodedQueryString (seed.filter (fun e => !isOAuth e) parameters))
  have hread := queryParameters_urlEncodedQueryString seed
    (seed.filter (fun e => !isOAuth e) parameters)
  rw [← hquery] at hread
  have hrest := (seed.perm (seed.filter (fun e => !isOAuth e) parameters)).map parameter
  rw [← List.append_nil (List.map parameter (seed.iterate _))] at hrest
  have hform : queryParameters [] = some [] := rfl
  obtain ⟨ps, hps, hreceived⟩ :=
    received_eq h.signature haddress hread hform hrest finalParameters_perm_append
  exact ⟨signature, ps, hsignature, hps, hr ▸ hreceived⟩

/-- A signature is there unless the texts are longer than any that fits in memory. -/
lemma exists_oauthSignature (method : HTTPMethodType) (d : Dictionary)
    (hlen : client.consumerSecret.length + (tokenSecret client).length + url.length +
      (seed.urlEncodedQueryString d).length < 2 ^ 50) :
    ∃ signature, client.oauthSignature seed method url d client.accessToken = some signature := by
  have hparameters : (parameterString seed d).length = (seed.urlEncodedQueryString d).length := by
    unfold parameterString
    rw [Text.length_joined_perm (Text.sorted_perm _), components_urlEncodedQueryString]
    split
    · rename_i hnil
      rw [urlEncodedQueryString_nil seed hnil]
      rfl
    · rfl
  have hmethod : method.rawValue.length ≤ 7 := by cases method <;> decide
  have hkey : (client.signingKey client.accessToken).length ≤
      12 * client.consumerSecret.length + 1 + 12 * (tokenSecret client).length := by
    have hconsumer : (urlEncodedString client.consumerSecret false).length ≤
        12 * client.consumerSecret.length := length_encode_le _
    unfold signingKey tokenSecret
    cases client.accessToken with
    | none =>
      simp only [Option.map_none, Option.getD_none, List.length_append, List.length_cons,
        List.length_nil]
      omega
    | some token =>
      have htoken : (urlEncodedString token.secret false).length ≤ 12 * token.secret.length :=
        length_encode_le _
      simp only [Option.map_some, Option.getD_some, List.length_append, List.length_cons]
      omega
  have hbase : (signatureBaseString seed method url d).length ≤
      9 + 12 * url.length + 12 * (seed.urlEncodedQueryString d).length := by
    have hurl : (urlEncodedString url false).length ≤ 12 * url.length := length_encode_le _
    have hstring : (urlEncodedString (parameterString seed d) false).length ≤
        12 * (parameterString seed d).length := length_encode_le _
    rw [signatureBaseString, List.length_append, List.length_append, List.length_cons,
      List.length_cons]
    omega
  have hkeyBytes := length_utf8_le (client.signingKey client.accessToken)
  have hbaseBytes := length_utf8_le (signatureBaseString seed method url d)
  rw [oauthSignature, HMAC.sha1_eq, if_pos (by omega)]
  exact ⟨_, rfl⟩

lemma exists_authorizationHeader (method : HTTPMethodType) (isMediaUpload : Bool)
    (hlen : client.consumerSecret.length + (tokenSecret client).length + url.length +
      (seed.urlEncodedQueryString (client.finalParameters seed parameters timestamp nonce
        isMediaUpload)).length < 2 ^ 50) :
    ∃ authorization, client.authorizationHeader seed method url parameters timestamp nonce
      isMediaUpload = some authorization := by
  obtain ⟨signature, hsignature⟩ := exists_oauthSignature method _ hlen
  exact ⟨_, Option.bind_eq_some_iff.mpr ⟨signature, hsignature, rfl⟩⟩

/-- The key of the client is the key the server makes of the secrets. -/
lemma signingKey_eq (hconsumer : BracketFree client.consumerSecret)
    (htoken : BracketFree (tokenSecret client)) :
    client.signingKey client.accessToken = encodeOctets (utf8 client.consumerSecret) ++
      '&' :: encodeOctets (utf8 (tokenSecret client)) := by
  rw [signingKey, urlEncodedString_eq hconsumer]
  unfold tokenSecret at htoken ⊢
  cases hcase : client.accessToken with
  | none => rfl
  | some token =>
    rw [hcase] at htoken
    exact congrArg (_ ++ '&' :: ·) (urlEncodedString_eq htoken false)

/-- **The server accepts what was signed, when every bracket is escaped.** -/
theorem verifies {method : HTTPMethodType} {final : Dictionary} {ps : List Parameter}
    {r : SignedRequest}
    (hsignature : client.oauthSignature seed method url final client.accessToken = some signature)
    (hps : ps.Perm (final.entries.map parameter))
    (hreceived : received r = some (baseString method.rawValue url ps, utf8 signature))
    (hnames : PrefixFree (final.entries.map fun e => urlEncodedString e.1 false))
    (hurl : BracketFree url) (hplain : ∀ e ∈ final.entries, e.Plain)
    (hconsumer : BracketFree client.consumerSecret) (htoken : BracketFree (tokenSecret client)) :
    verify hmacSHA1 (utf8 client.consumerSecret) (utf8 (tokenSecret client)) r = some true := by
  rw [oauthSignature, signingKey_eq hconsumer htoken,
    (signatureBaseString_eq_iff seed method url hps hnames).mpr ⟨hurl, hplain⟩,
    HMAC.sha1_eq] at hsignature
  have hsign : signature = hmacSHA1 (utf8 (encodeOctets (utf8 client.consumerSecret) ++
      '&' :: encodeOctets (utf8 (tokenSecret client))))
      (utf8 (baseString method.rawValue url ps)) := by
    split at hsignature
    · exact (Option.some_inj.mp hsignature).symm
    · cases hsignature
  simp only [verify, hreceived, Option.bind_eq_bind, Option.bind_some]
  rw [← hsign, beq_self_eq_true]
  rfl

end Answer

end IosDevBootcamp.Swifter
