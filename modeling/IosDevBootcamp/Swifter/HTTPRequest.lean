import IosDevBootcamp.Swifter.OAuthClient

/-!
# Swifter: the requests that are sent

`HTTPRequest.start` makes the `URLRequest` of a request: its parameters go into the address, into a
form or into the parts of a multipart body, unless there is a JSON body.  Over it stand
`OAuthClient.get`, which signs the request, and `searchTweet`.
-/

namespace IosDevBootcamp.Swifter

open IosDevBootcamp.Lib IosDevBootcamp.Lib.Percent

/-! ### Addresses -/

inductive TwitterURL
  | api | upload | stream | publish | userStream | siteStream | oauth
  deriving DecidableEq, Repr

def TwitterURL.url : TwitterURL → Text
  | .api => "https://api.twitter.com/1.1/".toList
  | .upload => "https://upload.twitter.com/1.1/".toList
  | .stream => "https://stream.twitter.com/1.1/".toList
  | .userStream => "https://userstream.twitter.com/1.1/".toList
  | .siteStream => "https://sitestream.twitter.com/1.1/".toList
  | .oauth => "https://api.twitter.com/".toList
  | .publish => "https://publish.twitter.com/".toList

/-- The absolute string of a relative path; the base ends with a slash. -/
def TwitterURL.relative (baseURL : TwitterURL) (path : Text) : Text := baseURL.url ++ path

/-- `URL.append(queryString:)` on the absolute string, where cutting off a final `?` cuts nothing. -/
def appendQueryString (url queryString : Text) : Text :=
  if queryString = [] then url
  else url ++ (if '?' ∈ url then ['&'] else ['?']) ++ queryString

/-! ### Starting a request -/

abbrev Data := List UInt8

structure DataUpload where
  data : Data
  parameterName : Text
  mimeType : Option Text
  fileName : Option Text
  deriving DecidableEq, Repr

structure URLRequest where
  url : Text
  httpMethod : Text
  allHTTPHeaderFields : List (Text × Text)
  httpBody : Option Data
  deriving DecidableEq, Repr

/-- `setValue(_:forHTTPHeaderField:)`. -/
def URLRequest.setValue (value field : Text) (r : URLRequest) : URLRequest :=
  { r with allHTTPHeaderFields :=
      Keyed.erase Prod.fst r.allHTTPHeaderFields field ++ [(field, value)] }

def URLRequest.value (field : Text) (r : URLRequest) : Option Text :=
  (Keyed.lookup Prod.fst r.allHTTPHeaderFields field).map Prod.snd

structure HTTPRequest where
  url : Text
  HTTPMethod : HTTPMethodType
  headers : List (Text × Text)
  parameters : Dictionary
  encodeParameters : Bool
  uploadData : List DataUpload
  jsonBody : Option Data

/-- `init(url:method:parameters:)`. -/
def HTTPRequest.make (url : Text) (method : HTTPMethodType) (parameters : Dictionary) :
    HTTPRequest :=
  ⟨url, method, [], parameters, false, [], none⟩

namespace HTTPRequest

variable (seed : HashSeed) (boundary : Text) (r : HTTPRequest)

def crlf : Text := ['\r', '\n']

def mulipartContent (upload : DataUpload) : Data :=
  let mimeType := upload.mimeType.getD "application/octet-stream".toList
  let fileNameContentDisposition :=
    match upload.fileName with
    | some fileName => "filename=\"".toList ++ fileName ++ "\"".toList
    | none => []
  utf8 ("--".toList ++ boundary ++ crlf) ++
    utf8 ("Content-Disposition: form-data; name=\"".toList ++ upload.parameterName ++
      "\"; ".toList ++ fileNameContentDisposition ++ crlf) ++
    utf8 ("Content-Type: ".toList ++ mimeType ++ crlf ++ crlf) ++ upload.data

/-- The part of a parameter in a multipart body. -/
def parameterContent (e : Entry) : Data :=
  utf8 (crlf ++ "--".toList ++ boundary ++ crlf) ++
    utf8 ("Content-Disposition: form-data; name=\"".toList ++ e.1 ++ "\"".toList ++ crlf ++ crlf) ++
    utf8 e.2.description

def multipartBody (nonOAuthParameters : Dictionary) : Data :=
  r.uploadData.flatMap (mulipartContent boundary) ++
    (seed.iterate nonOAuthParameters).flatMap (parameterContent boundary) ++
    utf8 (crlf ++ "--".toList ++ boundary ++ "--".toList ++ crlf)

def count (data : Data) : Text := (toString data.length).toList

def contentType : Text := "Content-Type".toList
def contentLength : Text := "Content-Length".toList
def urlEncodedForm : Text := "application/x-www-form-urlencoded; charset=utf-8".toList

/-- The request before its body, with the headers that were set. -/
def bare : URLRequest :=
  r.headers.foldl (fun u h => u.setValue h.2 h.1) ⟨r.url, r.HTTPMethod.rawValue, [], none⟩

def nonOAuthParameters : Dictionary :=
  seed.filter (fun e => !"oauth_".toList.isPrefixOf e.1) r.parameters

/-- The request that `start` makes.  The boundary is two hyphens and a fresh UUID. -/
def start : URLRequest :=
  let nonOAuthParameters := r.nonOAuthParameters seed
  match r.jsonBody with
  | some body =>
    { (r.bare.setValue "application/json".toList contentType).setValue (count body) contentLength
      with httpBody := some body }
  | none =>
    if r.uploadData ≠ [] then
      let body := r.multipartBody seed boundary nonOAuthParameters
      { (r.bare.setValue ("multipart/form-data; boundary=".toList ++ boundary) contentType).setValue
          (count body) contentLength with httpBody := some body }
    else if nonOAuthParameters.entries ≠ [] then
      if r.HTTPMethod = .GET ∨ r.HTTPMethod = .HEAD ∨ r.HTTPMethod = .DELETE then
        { r.bare.setValue urlEncodedForm contentType with
          url := appendQueryString r.url (seed.urlEncodedQueryString nonOAuthParameters) }
      else if r.encodeParameters then
        let data := utf8 (seed.urlEncodedQueryString nonOAuthParameters)
        { (r.bare.setValue urlEncodedForm contentType).setValue (count data) contentLength
          with httpBody := some data }
      else
        let data := utf8 (seed.queryString nonOAuthParameters)
        { r.bare.setValue (count data) contentLength with httpBody := some data }
    else r.bare

end HTTPRequest

/-! ### Signed requests -/

/-- `get`: a signed request, made and started. -/
def OAuthClient.get (seed : HashSeed) (client : OAuthClient) (path : Text) (baseURL : TwitterURL)
    (parameters : Dictionary) (timestamp nonce boundary : Text) : Option URLRequest := do
  let url := baseURL.relative path
  let authorization ← client.authorizationHeader seed .GET url parameters timestamp nonce false
  let request := { HTTPRequest.make url .GET parameters with
    headers := [("Authorization".toList, authorization)] }
  return request.start seed boundary

inductive TweetMode
  | default
  | extended
  | compat
  | other (t : Text)
  deriving DecidableEq, Repr

def TweetMode.stringValue : TweetMode → Option Text
  | .default => none
  | .extended => some "extended".toList
  | .compat => some "compat".toList
  | .other t => some t

/-- The arguments of `searchTweet`. -/
structure SearchArguments where
  query : Text
  geocode : Option Text
  lang : Option Text
  locale : Option Text
  resultType : Option Text
  count : Option ℤ
  untilDate : Option Text
  sinceID : Option Text
  maxID : Option Text
  includeEntities : Option Bool
  callback : Option Text
  tweetMode : TweetMode
  deriving DecidableEq, Repr

def SearchArguments.parameters (a : SearchArguments) : Dictionary :=
  Dictionary.empty
    |>.updateValue (.string a.query) "q".toList
    |>.updateIfSome (a.geocode.map .string) "geocode".toList
    |>.updateIfSome (a.lang.map .string) "lang".toList
    |>.updateIfSome (a.locale.map .string) "locale".toList
    |>.updateIfSome (a.resultType.map .string) "result_type".toList
    |>.updateIfSome (a.count.map .int) "count".toList
    |>.updateIfSome (a.untilDate.map .string) "until".toList
    |>.updateIfSome (a.sinceID.map .string) "since_id".toList
    |>.updateIfSome (a.maxID.map .string) "max_id".toList
    |>.updateIfSome (a.includeEntities.map .bool) "include_entities".toList
    |>.updateIfSome (a.callback.map .string) "callback".toList
    |>.updateIfSome (a.tweetMode.stringValue.map .string) "tweet_mode".toList

/-- The request of `searchTweet`. -/
def OAuthClient.searchTweet (seed : HashSeed) (client : OAuthClient) (a : SearchArguments)
    (timestamp nonce boundary : Text) : Option URLRequest :=
  client.get seed "search/tweets.json".toList .api a.parameters timestamp nonce boundary

end IosDevBootcamp.Swifter
