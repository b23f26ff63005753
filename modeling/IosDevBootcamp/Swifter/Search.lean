import IosDevBootcamp.Swifter.Parameters

/-!
# Swifter: searching for tweets

What is proved of signed requests in general holds of every search: its parameters have names that
can be sorted in any way, so only brackets in its texts can keep the server from accepting it.
-/

namespace IosDevBootcamp.Swifter

open IosDevBootcamp.Lib IosDevBootcamp.Lib.Percent IosDevBootcamp.Lib.OAuth1 OAuthClient

/-- The arguments, with the names they are sent under. -/
def SearchArguments.named (a : SearchArguments) : Arguments :=
  [("q".toList, some (.string a.query)), ("geocode".toList, a.geocode.map .string),
    ("lang".toList, a.lang.map .string), ("locale".toList, a.locale.map .string),
    ("result_type".toList, a.resultType.map .string), ("count".toList, a.count.map .int),
    ("until".toList, a.untilDate.map .string), ("since_id".toList, a.sinceID.map .string),
    ("max_id".toList, a.maxID.map .string),
    ("include_entities".toList, a.includeEntities.map .bool),
    ("callback".toList, a.callback.map .string),
    ("tweet_mode".toList, a.tweetMode.stringValue.map .string)]

/-- The texts among the arguments. -/
def SearchArguments.texts (a : SearchArguments) : List Text := a.named.texts

variable (seed : HashSeed) (client : OAuthClient) (a : SearchArguments) (timestamp nonce : Text)

lemma SearchArguments.sendable : Arguments.Sendable (a.named.map Prod.fst) :=
  show Arguments.Sendable ["q".toList, "geocode".toList, "lang".toList, "locale".toList,
    "result_type".toList, "count".toList, "until".toList, "since_id".toList, "max_id".toList,
    "include_entities".toList, "callback".toList, "tweet_mode".toList] by decide

lemma SearchArguments.parameters_eq : a.parameters = a.named.dictionary := rfl

lemma signable_search : Signable seed client (TwitterURL.api.relative "search/tweets.json".toList)
    timestamp nonce a.parameters :=
  signable_dictionary seed client timestamp nonce a.sendable (by decide)

lemma plain_search_iff :
    (∀ e ∈ (client.finalParameters seed a.parameters timestamp nonce false).entries, e.Plain) ↔
      ∀ t ∈ client.headerTexts timestamp nonce ++ a.texts, BracketFree t :=
  plain_finalParameters_iff seed client timestamp nonce a.sendable

lemma exists_searchTweet (boundary : Text)
    (hlen : client.consumerSecret.length + (tokenSecret client).length +
      (TwitterURL.api.relative "search/tweets.json".toList).length + (seed.urlEncodedQueryString
        (client.finalParameters seed a.parameters timestamp nonce false)).length < 2 ^ 50) :
    ∃ r, client.searchTweet seed a timestamp nonce boundary = some r := by
  obtain ⟨authorization, hauthorization⟩ := exists_authorizationHeader .GET false hlen
  exact ⟨_, Option.bind_eq_some_iff.mpr ⟨authorization, hauthorization, rfl⟩⟩

/-- The search of a tap on Predict. -/
def fetchArguments (searchText : Text) : SearchArguments where
  query := searchText
  geocode := none
  lang := some "en".toList
  locale := none
  resultType := none
  count := some 100
  untilDate := none
  sinceID := none
  maxID := none
  includeEntities := none
  callback := none
  tweetMode := .extended

lemma exists_sampleSearch (searchText : Text) (hlen : (insertionOrder.urlEncodedQueryString
      (sampleClient.finalParameters insertionOrder (fetchArguments searchText).parameters
        "1318622958".toList "kYjz".toList false)).length < 2 ^ 49) :
    ∃ r, sampleClient.searchTweet insertionOrder (fetchArguments searchText) "1318622958".toList
      "kYjz".toList [] = some r := by
  refine exists_searchTweet _ _ _ _ _ [] ?_
  have hrest : sampleClient.consumerSecret.length + (tokenSecret sampleClient).length +
      (TwitterURL.api.relative "search/tweets.json".toList).length < 2 ^ 49 := by decide
  omega

variable {seed client a timestamp nonce} {boundary : Text} {r : URLRequest}

/-- **A server accepts every search without brackets**: it computes the signature that the client
sent, from what it reads in the request and the secrets it shares with the client. -/
theorem searchTweet_verifies
    (hsearch : client.searchTweet seed a timestamp nonce boundary = some r)
    (htexts : ∀ t ∈ client.headerTexts timestamp nonce ++ a.texts, BracketFree t)
    (hconsumer : BracketFree client.consumerSecret) (htoken : BracketFree (tokenSecret client)) :
    verify hmacSHA1 (utf8 client.consumerSecret) (utf8 (tokenSecret client)) r.signed =
      some true := by
  rw [OAuthClient.searchTweet, a.parameters_eq] at hsearch
  exact get_verifies hsearch a.sendable (by decide) (by decide) htexts hconsumer htoken

theorem searchTweet_verifies_apple : ∃ r, sampleClient.searchTweet insertionOrder
      (fetchArguments "@Apple".toList) "1318622958".toList "kYjz".toList [] = some r ∧
    verify hmacSHA1 (utf8 sampleClient.consumerSecret) (utf8 (tokenSecret sampleClient)) r.signed =
      some true := by
  obtain ⟨r, hr⟩ := exists_sampleSearch "@Apple".toList (by decide +kernel)
  exact ⟨r, hr, searchTweet_verifies hr (by decide) (by decide) (by decide)⟩

/-- **A bracket in a search is signed as it is by the client and escaped by the server**: they sign
the same text if and only if there is none. -/
theorem searchTweet_received_iff
    (hsearch : client.searchTweet seed a timestamp nonce boundary = some r) :
    (received r.signed).map Prod.fst = some (signatureBaseString seed .GET
        (TwitterURL.api.relative "search/tweets.json".toList)
        (client.finalParameters seed a.parameters timestamp nonce false)) ↔
      ∀ t ∈ client.headerTexts timestamp nonce ++ a.texts, BracketFree t := by
  obtain ⟨signature, ps, -, hps, hreceived⟩ :=
    get_received hsearch (signable_search seed client a timestamp nonce)
  have hurl : BracketFree (TwitterURL.api.relative "search/tweets.json".toList) := by decide
  rw [hreceived, Option.map_some, Option.some_inj, eq_comm,
    signatureBaseString_eq_iff seed .GET _ hps (signable_search seed client a timestamp nonce).names,
    plain_search_iff]
  exact and_iff_right hurl

/-- Of a search for a bracketed word the server signs another text. -/
theorem searchTweet_received_bracket : ∃ r, sampleClient.searchTweet insertionOrder
      (fetchArguments "[OC]".toList) "1318622958".toList "kYjz".toList [] = some r ∧
    (received r.signed).map Prod.fst ≠ some (signatureBaseString insertionOrder .GET
      (TwitterURL.api.relative "search/tweets.json".toList)
      (sampleClient.finalParameters insertionOrder (fetchArguments "[OC]".toList).parameters
        "1318622958".toList "kYjz".toList false)) := by
  obtain ⟨r, hr⟩ := exists_sampleSearch "[OC]".toList (by decide +kernel)
  exact ⟨r, hr, (searchTweet_received_iff hr).not.mpr (by decide)⟩

end IosDevBootcamp.Swifter
