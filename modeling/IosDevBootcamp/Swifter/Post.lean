import IosDevBootcamp.Swifter.Parameters

/-!
# Swifter: requests with a body

`OAuthClient.post` takes an upload and a JSON body out of its parameters, under keys that say where
they are.  What remains is a form, or goes into the parts of a multipart body with the upload.  The
parameters of a form are signed; beside an upload only those of the header are.
-/

namespace IosDevBootcamp.Swifter

open IosDevBootcamp.Lib IosDevBootcamp.Lib.Percent IosDevBootcamp.Lib.OAuth1

/-! ### Taking parameters out -/

namespace DataParameters

def dataKey : Text := "SwifterDataParameterKey".toList
def fileNameKey : Text := "SwifterDataParameterFilename".toList
def jsonDataKey : Text := "SwifterDataJSONDataParameterKey".toList

/-- The keys that are not sent. -/
def keys : List Text := [dataKey, fileNameKey, jsonDataKey]

end DataParameters

open DataParameters

namespace Dictionary

/-- The JSON body, and the parameters without it. -/
def takeJSON (d : Dictionary) : Option Data × Dictionary :=
  match d.stringValue jsonDataKey with
  | some key => (d.jsonValue key, (d.removeValue jsonDataKey).removeValue key)
  | none => (none, d)

/-- The data with its key, and the parameters without it. -/
def takeData (d : Dictionary) : Option (Text × Data) × Dictionary :=
  match d.stringValue dataKey with
  | some keyString => ((d.dataValue keyString).map fun data => (keyString, data),
      (d.removeValue dataKey).removeValue keyString)
  | none => (none, d)

def takeFileName (d : Dictionary) : Option Text × Dictionary :=
  match d.stringValue fileNameKey with
  | some fileName => (some fileName, d.removeValue fileNameKey)
  | none => (none, d)

end Dictionary

structure PostData where
  jsonBody : Option Data
  /-- `postDataKey` and `postData`. -/
  postData : Option (Text × Data)
  postDataFileName : Option Text
  parameters : Dictionary

def PostData.ofParameters (d : Dictionary) : PostData :=
  let json := d.takeJSON
  let data := json.2.takeData
  let fileName := data.2.takeFileName
  ⟨json.1, data.1, fileName.1, fileName.2⟩

def PostData.uploadData (p : PostData) : List DataUpload :=
  (p.postData.map fun d => ⟨d.2, d.1, some "application/octet-stream".toList,
    some (p.postDataFileName.getD "media.jpg".toList)⟩).toList

/-- `post`: a signed request, made and started. -/
def OAuthClient.post (seed : HashSeed) (client : OAuthClient) (path : Text) (baseURL : TwitterURL)
    (parameters : Dictionary) (timestamp nonce boundary : Text) : Option URLRequest := do
  let url := baseURL.relative path
  let p := PostData.ofParameters parameters
  let authorization ← client.authorizationHeader seed .POST url p.parameters timestamp nonce
    p.postData.isSome
  let request := { HTTPRequest.make url .POST p.parameters with
    headers := [("Authorization".toList, authorization)]
    encodeParameters := p.postData.isNone
    uploadData := p.uploadData
    jsonBody := p.jsonBody }
  return request.start seed boundary

/-! ### Tweets -/

/-- The arguments of `postTweet`; `displayCoordinates` is never read. -/
structure TweetArguments where
  status : Text
  inReplyToStatusID : Option Text
  coordinate : Option (Double × Double)
  autoPopulateReplyMetadata : Option Bool
  excludeReplyUserIds : Option Bool
  placeID : Option Double
  displayCoordinates : Option Bool
  trimUser : Option Bool
  mediaIDs : List Text
  attachmentURL : Option Text
  tweetMode : TweetMode
  deriving DecidableEq, Repr

namespace TweetArguments

variable (a : TweetArguments)

/-- Where the tweet is from: a place, or else a coordinate. -/
def place (d : Dictionary) : Dictionary :=
  match a.placeID, a.coordinate with
  | some placeID, _ => d
    |>.updateValue (.double placeID) "place_id".toList
    |>.updateValue (.bool true) "display_coordinates".toList
  | none, some (lat, long) => d
    |>.updateValue (.double lat) "lat".toList
    |>.updateValue (.double long) "long".toList
    |>.updateValue (.bool true) "display_coordinates".toList
  | none, none => d

def media (d : Dictionary) : Dictionary :=
  if a.mediaIDs ≠ [] then
    d.updateValue (.string (Text.joined [','] a.mediaIDs)) "media_ids".toList
  else d

def parameters : Dictionary :=
  Dictionary.empty
    |>.updateValue (.string a.status) "status".toList
    |>.updateIfSome (a.inReplyToStatusID.map .string) "in_reply_to_status_id".toList
    |>.updateIfSome (a.autoPopulateReplyMetadata.map .bool) "auto_populate_reply_metadata".toList
    |>.updateIfSome (a.excludeReplyUserIds.map .bool) "exclude_reply_user_ids".toList
    |>.updateIfSome (a.trimUser.map .bool) "trim_user".toList
    |>.updateIfSome (a.attachmentURL.map .string) "attachment_url".toList
    |>.updateIfSome (a.tweetMode.stringValue.map .string) "tweet_mode".toList
    |> a.place
    |> a.media

/-- The tweet of a text. -/
def ofStatus (status : Text) : TweetArguments :=
  ⟨status, none, none, none, none, none, none, none, [], none, .default⟩

end TweetArguments

/-- The request of `postTweet`. -/
def OAuthClient.postTweet (seed : HashSeed) (client : OAuthClient) (a : TweetArguments)
    (timestamp nonce boundary : Text) : Option URLRequest :=
  client.post seed "statuses/update.json".toList .api a.parameters timestamp nonce boundary

/-! ### What a server answers to a post -/

section Answer

open OAuthClient HashSeed

variable {seed : HashSeed} {client : OAuthClient} {path timestamp nonce boundary : Text}
  {baseURL : TwitterURL} {d : Dictionary} {r : URLRequest}

/-- Without their keys nothing is taken out. -/
lemma ofParameters_of_notMem (h : ∀ k ∈ keys, k ∉ d.entries.map Prod.fst) :
    PostData.ofParameters d = ⟨none, none, none, d⟩ := by
  have hvalue : ∀ k ∈ keys, d.stringValue k = none := fun k hk => by
    rw [Dictionary.stringValue, Dictionary.value_none (h k hk)]
  simp only [PostData.ofParameters, Dictionary.takeJSON, Dictionary.takeData,
    Dictionary.takeFileName, hvalue jsonDataKey (by decide), hvalue dataKey (by decide),
    hvalue fileNameKey (by decide)]

/-- The parameters of a post that go into its body as a form. -/
def PostData.formParameters (seed : HashSeed) (p : PostData) : Text :=
  match p.jsonBody, p.postData with
  | none, none => seed.urlEncodedQueryString (seed.filter (fun e => !isOAuth e) p.parameters)
  | _, _ => []

/-- A body of another kind is no form. -/
lemma form_of_contentType {t : Text} (ht : r.value HTTPRequest.contentType = some t)
    (hne : t ≠ HTTPRequest.urlEncodedForm) : r.form = [] := by
  rw [URLRequest.form, ht, if_neg fun h => hne (Option.some_inj.mp h)]

lemma form_of_body {t : Text} (hr : r.httpBody = some (utf8 t))
    (hlen : r.value HTTPRequest.contentLength = some (HTTPRequest.count (utf8 t)))
    (ht : r.value HTTPRequest.contentType = some HTTPRequest.urlEncodedForm) : r.form = t := by
  rw [URLRequest.form, if_pos ht, body_eq hr hlen, utf8Decode_utf8]
  rfl

/-- What `post` sends: the parameters are the body if that is a form, the header as it is. -/
lemma signed_post (p : PostData) (boundary url authorization : Text) :
    (HTTPRequest.start seed boundary { HTTPRequest.make url .POST p.parameters with
      headers := [("Authorization".toList, authorization)]
      encodeParameters := p.postData.isNone
      uploadData := p.uploadData
      jsonBody := p.jsonBody }).signed =
    ⟨HTTPMethodType.POST.rawValue, url, authorization, p.formParameters seed⟩ := by
  obtain ⟨jsonBody, postData, fileName, parameters⟩ := p
  cases jsonBody with
  | some body =>
    rw [URLRequest.signed, form_of_contentType (t := "application/json".toList) rfl (by decide)]
    rfl
  | none =>
    cases postData with
    | some data =>
      have hne : "multipart/form-data; boundary=".toList ++ boundary ≠ HTTPRequest.urlEncodedForm := by
        intro h
        have hfirst : some 'm' = some 'a' := congrArg List.head? h
        exact absurd hfirst (by decide)
      rw [URLRequest.signed, form_of_contentType rfl hne]
      rfl
    | none =>
      change (if (seed.filter (fun e => !isOAuth e) parameters).entries ≠ [] then _
        else _ : URLRequest).signed = _
      split
      · rw [URLRequest.signed, form_of_body rfl rfl rfl]
        rfl
      · rename_i hnil
        rw [PostData.formParameters, urlEncodedQueryString_nil seed (not_not.mp hnil),
          URLRequest.signed, form_of_no_body rfl]
        rfl

/-- What `post` sends to the server. -/
lemma post_signed (hpost : client.post seed path baseURL d timestamp nonce boundary = some r) :
    ∃ signature, client.oauthSignature seed .POST (baseURL.relative path)
        (client.finalParameters seed (PostData.ofParameters d).parameters timestamp nonce
          (PostData.ofParameters d).postData.isSome) client.accessToken = some signature ∧
      r.signed = ⟨HTTPMethodType.POST.rawValue, baseURL.relative path,
        headerOf seed ((client.authorizationParameters seed (PostData.ofParameters d).parameters
          timestamp nonce).updateValue (.string signature) "oauth_signature".toList),
        (PostData.ofParameters d).formParameters seed⟩ := by
  obtain ⟨authorization, hheader, hr⟩ := Option.bind_eq_some_iff.mp hpost
  obtain rfl := Option.some_inj.mp hr
  obtain ⟨signature, hsignature, hauthorization⟩ := Option.bind_eq_some_iff.mp hheader
  obtain rfl := Option.some_inj.mp hauthorization
  exact ⟨signature, hsignature, signed_post _ boundary _ _⟩

/-- Beside a JSON body without an upload no parameters can be sent. -/
def PostData.Sent (p : PostData) : Prop :=
  p.postData = none → p.jsonBody ≠ none → ∀ e ∈ p.parameters.entries, isOAuth e = true

/-- What is signed is the header, and the form. -/
lemma final_perm_form (seed : HashSeed) (client : OAuthClient) (timestamp nonce : Text)
    {p : PostData} (hp : p.Sent) : ∃ es fs : List Entry, fs.Perm es ∧
    (client.finalParameters seed p.parameters timestamp nonce p.postData.isSome).entries.Perm
      ((client.authorizationParameters seed p.parameters timestamp nonce).entries ++ es) ∧
    queryParameters (p.formParameters seed) = some (fs.map parameter) := by
  obtain ⟨jsonBody, postData, fileName, parameters⟩ := p
  have hall : (client.finalParameters seed parameters timestamp nonce false).entries.Perm _ :=
    finalParameters_perm_append
  cases postData with
  | some data =>
    refine ⟨[], [], List.Perm.nil, List.Perm.of_eq (List.append_nil _).symm, ?_⟩
    cases jsonBody <;> rfl
  | none =>
    cases jsonBody with
    | some body =>
      have hnone : (seed.filter (fun e => !isOAuth e) parameters).entries = [] := by
        refine List.eq_nil_iff_forall_not_mem.mpr fun e he => ?_
        obtain ⟨hmem, hkind⟩ := mem_filter.mp he
        rw [hp rfl (Option.some_ne_none body) e hmem] at hkind
        cases hkind
      rw [hnone] at hall
      exact ⟨[], [], List.Perm.nil, hall, rfl⟩
    | none =>
      exact ⟨_, _, seed.perm _, hall, queryParameters_urlEncodedQueryString seed _⟩

lemma post_received (hpost : client.post seed path baseURL d timestamp nonce boundary = some r)
    (h : Signable seed client (baseURL.relative path) timestamp nonce
      (PostData.ofParameters d).parameters) (hsent : (PostData.ofParameters d).Sent) :
    ∃ signature ps, client.oauthSignature seed .POST (baseURL.relative path)
        (client.finalParameters seed (PostData.ofParameters d).parameters timestamp nonce
          (PostData.ofParameters d).postData.isSome) client.accessToken = some signature ∧
      ps.Perm ((client.finalParameters seed (PostData.ofParameters d).parameters timestamp nonce
          (PostData.ofParameters d).postData.isSome).entries.map parameter) ∧
      received r.signed =
        some (baseString HTTPMethodType.POST.rawValue (baseURL.relative path) ps,
          utf8 signature) := by
  obtain ⟨signature, hsignature, hr⟩ := post_signed hpost
  obtain ⟨es, fs, hfs, hfinal, hform⟩ := final_perm_form seed client timestamp nonce hsent
  obtain ⟨haddress, hquery⟩ := splits_url h.url []
  rw [appendQueryString, if_pos rfl] at haddress hquery
  have hnone : queryParameters [] = some [] := rfl
  rw [← hquery] at hnone
  obtain ⟨ps, hps, hreceived⟩ :=
    received_eq h.signature haddress hnone hform (hfs.map parameter) hfinal
  exact ⟨signature, ps, hsignature, hps, hr ▸ hreceived⟩

/-- The names of the header are among those of all parameters. -/
lemma Signable.prefixFree {url : Text} {p : Dictionary}
    (h : Signable seed client url timestamp nonce p) (isMediaUpload : Bool) :
    PrefixFree ((client.finalParameters seed p timestamp nonce isMediaUpload).entries.map
      fun e => urlEncodedString e.1 false) := by
  cases isMediaUpload with
  | false => exact h.names
  | true =>
    have hsub : ∀ e ∈ (client.finalParameters seed p timestamp nonce true).entries,
        e ∈ (client.finalParameters seed p timestamp nonce false).entries := fun e he =>
      finalParameters_perm_append.mem_iff.mpr (List.mem_append_left _ he)
    intro s hs t ht
    obtain ⟨e, he, rfl⟩ := List.mem_map.mp hs
    obtain ⟨e', he', rfl⟩ := List.mem_map.mp ht
    exact h.names _ (List.mem_map_of_mem (hsub e he)) _ (List.mem_map_of_mem (hsub e' he'))

/-- **A server accepts every post whose names leave no doubt and in whose signed texts every bracket
is escaped**, whatever kind of body it has. -/
theorem post_verifies (hpost : client.post seed path baseURL d timestamp nonce boundary = some r)
    (h : Signable seed client (baseURL.relative path) timestamp nonce
      (PostData.ofParameters d).parameters) (hsent : (PostData.ofParameters d).Sent)
    (hplain : ∀ e ∈ (client.finalParameters seed (PostData.ofParameters d).parameters timestamp
      nonce (PostData.ofParameters d).postData.isSome).entries, e.Plain)
    (hurl : BracketFree (baseURL.relative path)) (hconsumer : BracketFree client.consumerSecret)
    (htoken : BracketFree (tokenSecret client)) :
    verify hmacSHA1 (utf8 client.consumerSecret) (utf8 (tokenSecret client)) r.signed =
      some true := by
  obtain ⟨signature, ps, hsignature, hps, hreceived⟩ := post_received hpost h hsent
  exact verifies hsignature hps hreceived (h.prefixFree _) hurl hplain hconsumer htoken

lemma exists_post (hlen : client.consumerSecret.length + (tokenSecret client).length +
      (baseURL.relative path).length + (seed.urlEncodedQueryString (client.finalParameters seed
        (PostData.ofParameters d).parameters timestamp nonce
        (PostData.ofParameters d).postData.isSome)).length < 2 ^ 50) (boundary : Text) :
    ∃ r, client.post seed path baseURL d timestamp nonce boundary = some r := by
  obtain ⟨authorization, hauthorization⟩ := exists_authorizationHeader .POST _ hlen
  exact ⟨_, Option.bind_eq_some_iff.mpr ⟨authorization, hauthorization, rfl⟩⟩

end Answer

/-! ### Named parameters -/

section Named

open OAuthClient Arguments

variable {seed : HashSeed} {client : OAuthClient} {path timestamp nonce boundary : Text}
  {baseURL : TwitterURL} {r : URLRequest} {l : Arguments}

lemma ofParameters_dictionary (hl : Sendable (l.map Prod.fst))
    (hkeys : ∀ k ∈ keys, k ∉ l.map Prod.fst) :
    PostData.ofParameters l.dictionary = ⟨none, none, none, l.dictionary⟩ := by
  refine ofParameters_of_notMem fun k hk hmem => ?_
  obtain ⟨e, he, rfl⟩ := List.mem_map.mp hmem
  exact hkeys _ hk (mem_names hl he)

/-- **A server accepts every form of named parameters without brackets**, those of a status apart. -/
theorem form_verifies
    (hpost : client.post seed path baseURL l.dictionary timestamp nonce boundary = some r)
    (hl : Sendable (l.map Prod.fst)) (hkeys : ∀ k ∈ keys, k ∉ l.map Prod.fst)
    (hquery : '?' ∉ baseURL.relative path) (hurl : BracketFree (baseURL.relative path))
    (htexts : ∀ t ∈ client.headerTexts timestamp nonce ++ l.texts, BracketFree t)
    (hconsumer : BracketFree client.consumerSecret) (htoken : BracketFree (tokenSecret client)) :
    verify hmacSHA1 (utf8 client.consumerSecret) (utf8 (tokenSecret client)) r.signed =
      some true := by
  have hp := ofParameters_dictionary hl hkeys
  refine post_verifies hpost ?_ ?_ ?_ hurl hconsumer htoken
  · rw [hp]
    exact signable_dictionary seed client timestamp nonce hl hquery
  · rw [hp]
    exact fun _ h => absurd rfl h
  · rw [hp]
    exact (plain_finalParameters_iff seed client timestamp nonce hl).mpr htexts

end Named

/-! ### Every tweet is accepted -/

namespace TweetArguments

variable (a : TweetArguments)

/-- The arguments, with the names they are sent under. -/
def named : Arguments :=
  [("status".toList, some (.string a.status)),
    ("in_reply_to_status_id".toList, a.inReplyToStatusID.map .string),
    ("auto_populate_reply_metadata".toList, a.autoPopulateReplyMetadata.map .bool),
    ("exclude_reply_user_ids".toList, a.excludeReplyUserIds.map .bool),
    ("trim_user".toList, a.trimUser.map .bool),
    ("attachment_url".toList, a.attachmentURL.map .string),
    ("tweet_mode".toList, a.tweetMode.stringValue.map .string),
    ("place_id".toList, a.placeID.map .double),
    ("lat".toList, if a.placeID.isSome then none else a.coordinate.map fun c => .double c.1),
    ("long".toList, if a.placeID.isSome then none else a.coordinate.map fun c => .double c.2),
    ("display_coordinates".toList,
      if a.placeID.isSome || a.coordinate.isSome then some (.bool true) else none),
    ("media_ids".toList,
      if a.mediaIDs ≠ [] then some (.string (Text.joined [','] a.mediaIDs)) else none)]

/-- The texts among the arguments, without the status. -/
def texts : List Text := a.named.texts

lemma map_named : a.named.map Prod.fst = ["status".toList, "in_reply_to_status_id".toList,
    "auto_populate_reply_metadata".toList, "exclude_reply_user_ids".toList, "trim_user".toList,
    "attachment_url".toList, "tweet_mode".toList, "place_id".toList, "lat".toList, "long".toList,
    "display_coordinates".toList, "media_ids".toList] := rfl

lemma sendable : Arguments.Sendable (a.named.map Prod.fst) := by
  rw [map_named]
  decide +kernel

lemma parameters_eq : a.parameters = a.named.dictionary := by
  obtain ⟨status, reply, coordinate, auto, exclude, placeID, display, trim, mediaIDs, url, mode⟩ := a
  cases placeID <;> cases coordinate <;> cases mediaIDs <;> rfl

end TweetArguments

section Tweets

open OAuthClient

variable {seed : HashSeed} {client : OAuthClient} {a : TweetArguments}
  {timestamp nonce boundary : Text} {r : URLRequest}

/-- **A server accepts every tweet**, whatever its status and wherever it is from, when its other
texts have no brackets. -/
theorem postTweet_verifies
    (htweet : client.postTweet seed a timestamp nonce boundary = some r)
    (htexts : ∀ t ∈ client.headerTexts timestamp nonce ++ a.texts, BracketFree t)
    (hconsumer : BracketFree client.consumerSecret) (htoken : BracketFree (tokenSecret client)) :
    verify hmacSHA1 (utf8 client.consumerSecret) (utf8 (tokenSecret client)) r.signed =
      some true := by
  rw [OAuthClient.postTweet, a.parameters_eq] at htweet
  exact form_verifies htweet a.sendable (by rw [a.map_named]; decide) (by decide) (by decide)
    htexts hconsumer htoken

/-- A tweet with brackets, and a question about an ampersand. -/
theorem postTweet_verifies_brackets : ∃ r, sampleClient.postTweet insertionOrder
      (TweetArguments.ofStatus "[OC] Q&A?".toList) "1318622958".toList "kYjz".toList [] = some r ∧
    verify hmacSHA1 (utf8 sampleClient.consumerSecret) (utf8 (tokenSecret sampleClient)) r.signed =
      some true := by
  obtain ⟨r, hr⟩ : ∃ r, sampleClient.postTweet insertionOrder
      (TweetArguments.ofStatus "[OC] Q&A?".toList) "1318622958".toList "kYjz".toList [] = some r :=
    exists_post (by decide +kernel) []
  exact ⟨r, hr, postTweet_verifies hr (by decide) (by decide) (by decide)⟩

end Tweets

end IosDevBootcamp.Swifter
