import IosDevBootcamp.Swifter.Encoding
import IosDevBootcamp.Swifter.HMAC

/-!
# Swifter: the signature of a request

`OAuthClient` signs a request: the parameters are encoded, sorted and joined to a base string, whose
code under the secrets goes into the `Authorization` header with the other `oauth_` parameters.  The
dictionaries on the way are iterated in whatever order the process has for them.
-/

namespace IosDevBootcamp.Swifter

open IosDevBootcamp.Lib IosDevBootcamp.Lib.Percent

/-! ### Base 64 -/

def base64Digit (n : ℕ) : Char :=
  "ABCDEFGHIJKLMNOPQRSTUVWXYZabcdefghijklmnopqrstuvwxyz0123456789+/".toList.getD n '='

/-- `base64EncodedString` of `Data`. -/
def base64EncodedString : List UInt8 → Text
  | [] => []
  | [a] =>
    let n := 16 * a.toNat
    [base64Digit (n / 64), base64Digit (n % 64), '=', '=']
  | [a, b] =>
    let n := 1024 * a.toNat + 4 * b.toNat
    [base64Digit (n / 4096), base64Digit (n / 64 % 64), base64Digit (n % 64), '=']
  | a :: b :: c :: t =>
    let n := 65536 * a.toNat + 256 * b.toNat + c.toNat
    [base64Digit (n / 262144), base64Digit (n / 4096 % 64), base64Digit (n / 64 % 64),
      base64Digit (n % 64)] ++ base64EncodedString t

/-! ### Credentials -/

structure OAuthAccessToken where
  key : Text
  secret : Text
  verifier : Option Text
  screenName : Option Text
  userID : Option Text
  deriving DecidableEq, Repr

structure Credential where
  accessToken : Option OAuthAccessToken
  deriving DecidableEq, Repr

structure OAuthClient where
  consumerKey : Text
  consumerSecret : Text
  credential : Option Credential
  deriving DecidableEq, Repr

/-- A client with a token. -/
def sampleClient : OAuthClient :=
  ⟨"xvz1".toList, "kAcS".toList,
    some ⟨some ⟨"370".toList, "Lsww".toList, none, none, none⟩⟩⟩

inductive HTTPMethodType
  | OPTIONS | GET | HEAD | POST | PUT | DELETE | TRACE | CONNECT
  deriving DecidableEq, Repr

def HTTPMethodType.rawValue : HTTPMethodType → Text
  | .OPTIONS => "OPTIONS".toList
  | .GET => "GET".toList
  | .HEAD => "HEAD".toList
  | .POST => "POST".toList
  | .PUT => "PUT".toList
  | .DELETE => "DELETE".toList
  | .TRACE => "TRACE".toList
  | .CONNECT => "CONNECT".toList

namespace OAuthClient

def version : Text := "1.0".toList
def signatureMethod : Text := "HMAC-SHA1".toList

variable (seed : HashSeed) (client : OAuthClient) (method : HTTPMethodType) (url : Text)
  (parameters : Dictionary)

/-- `self.credential?.accessToken`. -/
def accessToken : Option OAuthAccessToken := client.credential.bind (·.accessToken)

/-! ### The signature -/

def signingKey (token : Option OAuthAccessToken) : Text :=
  let tokenSecret := (token.map fun token => urlEncodedString token.secret false).getD []
  urlEncodedString client.consumerSecret false ++ '&' :: tokenSecret

def parameterString : Text :=
  Text.joined ['&'] (Text.sorted (Text.components '&' (seed.urlEncodedQueryString parameters)))

def signatureBaseString : Text :=
  method.rawValue ++ '&' :: urlEncodedString url false ++
    '&' :: urlEncodedString (parameterString seed parameters) false

def oauthSignature (token : Option OAuthAccessToken) : Option Text := do
  let sha1 ← HMAC.sha1 (utf8 (client.signingKey token))
    (utf8 (signatureBaseString seed method url parameters))
  return base64EncodedString sha1

/-! ### The header -/

/-- `authorizationParameters` without the signature. -/
def authorizationParameters (timestamp nonce : Text) : Dictionary :=
  let d := Dictionary.empty
    |>.updateValue (.string version) "oauth_version".toList
    |>.updateValue (.string signatureMethod) "oauth_signature_method".toList
    |>.updateValue (.string client.consumerKey) "oauth_consumer_key".toList
    |>.updateValue (.string timestamp) "oauth_timestamp".toList
    |>.updateValue (.string nonce) "oauth_nonce".toList
    |>.updateIfSome (client.accessToken.map fun token => .string token.key) "oauth_token".toList
  d.updateAll ((seed.iterate parameters).filter fun e => "oauth_".toList.isPrefixOf e.1)

/-- A component as it stands in the header. -/
def headerComponent (component : Text) : Option Text :=
  match Text.components '=' component with
  | [key, value] => some (key ++ '=' :: '"' :: value ++ ['"'])
  | _ => none

def headerOf (parameters : Dictionary) : Text :=
  let components := Text.sorted (Text.components '&' (seed.urlEncodedQueryString parameters))
  "OAuth ".toList ++ Text.joined ", ".toList (components.filterMap headerComponent)

/-- The parameters that are signed. -/
def finalParameters (timestamp nonce : Text) (isMediaUpload : Bool) : Dictionary :=
  let authorizationParameters := client.authorizationParameters seed parameters timestamp nonce
  if isMediaUpload then authorizationParameters
  else seed.merged authorizationParameters parameters

def authorizationHeader (timestamp nonce : Text) (isMediaUpload : Bool) : Option Text := do
  let signature ← client.oauthSignature seed method url
    (client.finalParameters seed parameters timestamp nonce isMediaUpload) client.accessToken
  return headerOf seed ((client.authorizationParameters seed parameters timestamp nonce).updateValue
    (.string signature) "oauth_signature".toList)

end OAuthClient

/-! ### Components -/

section Components

open HashSeed OAuthClient

variable (seed : HashSeed) (d : Dictionary)

lemma notMem_encodedEntry (e : Entry) : '&' ∉ encodedEntry e := by
  intro hmem
  rcases List.mem_append.mp hmem with h | h
  · exact notMem_urlEncodedString _ _ (by simp) h
  · rcases List.mem_cons.mp h with h | h
    · cases h
    · exact notMem_urlEncodedString _ _ (by simp) h

/-- The components of the query string are the encoded entries. -/
lemma components_urlEncodedQueryString : Text.components '&' (seed.urlEncodedQueryString d) =
    if d.entries = [] then [[]] else (seed.iterate d).map encodedEntry := by
  have hlen := (seed.perm d).length_eq
  split
  · rename_i hnil
    have hiter : seed.iterate d = [] := by
      rw [hnil] at hlen
      exact List.length_eq_zero_iff.mp hlen
    rw [urlEncodedQueryString, hiter]
    rfl
  · rename_i hne
    refine Text.components_joined ?_ ?_
    · intro t ht
      obtain ⟨e, -, rfl⟩ := List.mem_map.mp ht
      exact notMem_encodedEntry e
    · intro hmap
      rw [List.map_eq_nil_iff] at hmap
      rw [hmap, List.length_nil] at hlen
      exact hne (List.length_eq_zero_iff.mp hlen.symm)

/-! ### The order of the dictionaries does not matter -/

variable (seed' : HashSeed) {d} {d' : Dictionary}

lemma iterate_perm (h : d.entries.Perm d'.entries) : (seed.iterate d).Perm (seed'.iterate d') :=
  ((seed.perm d).trans h).trans (seed'.perm d').symm

lemma sorted_components_congr (h : d.entries.Perm d'.entries) :
    Text.sorted (Text.components '&' (seed.urlEncodedQueryString d)) =
      Text.sorted (Text.components '&' (seed'.urlEncodedQueryString d')) := by
  rw [components_urlEncodedQueryString, components_urlEncodedQueryString]
  by_cases hnil : d.entries = []
  · rw [hnil] at h
    rw [if_pos hnil, if_pos (List.nil_perm.mp h)]
  · have hnil' : d'.entries ≠ [] := by
      intro hd'
      rw [hd'] at h
      exact hnil (List.perm_nil.mp h)
    rw [if_neg hnil, if_neg hnil']
    exact Text.sorted_congr ((iterate_perm seed seed' h).map encodedEntry)

lemma authorizationParameters_perm (client : OAuthClient) (h : d.entries.Perm d'.entries)
    (timestamp nonce : Text) :
    (client.authorizationParameters seed d timestamp nonce).entries.Perm
      (client.authorizationParameters seed' d' timestamp nonce).entries :=
  Dictionary.updateAll_perm ((iterate_perm seed seed' h).filter _)
    ((iterate_nodup seed d).sublist (List.filter_sublist.map _)) (List.Perm.refl _)

lemma merged_perm {e e' : Dictionary} (h : d.entries.Perm d'.entries)
    (he : e.entries.Perm e'.entries) :
    (seed.merged d e).entries.Perm (seed'.merged d' e').entries :=
  Dictionary.updateAll_perm (iterate_perm seed seed' he) (iterate_nodup seed e)
    (Dictionary.updateAll_perm (iterate_perm seed seed' h) (iterate_nodup seed d)
      (List.Perm.refl _))

lemma finalParameters_perm (client : OAuthClient) (h : d.entries.Perm d'.entries)
    (timestamp nonce : Text) (isMediaUpload : Bool) :
    (client.finalParameters seed d timestamp nonce isMediaUpload).entries.Perm
      (client.finalParameters seed' d' timestamp nonce isMediaUpload).entries := by
  have hauth := authorizationParameters_perm seed seed' client h timestamp nonce
  cases isMediaUpload with
  | true => exact hauth
  | false => exact merged_perm seed seed' hauth h

lemma oauthSignature_congr (client : OAuthClient) (method : HTTPMethodType) (url : Text)
    (token : Option OAuthAccessToken) (h : d.entries.Perm d'.entries) :
    client.oauthSignature seed method url d token =
      client.oauthSignature seed' method url d' token := by
  simp only [oauthSignature, signatureBaseString, parameterString,
    sorted_components_congr seed seed' h]

/-- **The header does not depend on the order of the dictionaries**: neither on the order in which
the process iterates over them nor on the order in which the parameters were put in. -/
theorem authorizationHeader_congr (client : OAuthClient) (method : HTTPMethodType)
    (url timestamp nonce : Text) (isMediaUpload : Bool) (h : d.entries.Perm d'.entries) :
    client.authorizationHeader seed method url d timestamp nonce isMediaUpload =
      client.authorizationHeader seed' method url d' timestamp nonce isMediaUpload := by
  have hsig := oauthSignature_congr seed seed' client method url client.accessToken
    (finalParameters_perm seed seed' client h timestamp nonce isMediaUpload)
  have hauth := authorizationParameters_perm seed seed' client h timestamp nonce
  simp only [authorizationHeader, hsig]
  congr 1
  funext signature
  simp only [headerOf, sorted_components_congr seed seed' (Dictionary.updateValue_perm hauth)]

/-- Two parameters put in one way round and the other, iterated in two orders. -/
theorem authorizationHeader_congr_pair :
    sampleClient.authorizationHeader insertionOrder .GET "https://api.twitter.com/".toList
        ((Dictionary.empty.updateValue (.string []) "q".toList).updateValue (.int 100)
          "count".toList) [] [] false =
      sampleClient.authorizationHeader reverseOrder .GET "https://api.twitter.com/".toList
        ((Dictionary.empty.updateValue (.int 100) "count".toList).updateValue (.string [])
          "q".toList) [] [] false :=
  authorizationHeader_congr _ _ sampleClient .GET _ [] [] false (List.Perm.swap _ _ _)

end Components

end IosDevBootcamp.Swifter
