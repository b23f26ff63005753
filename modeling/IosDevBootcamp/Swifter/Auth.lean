import IosDevBootcamp.Lib.Run
import IosDevBootcamp.Swifter.QueryString
import IosDevBootcamp.Swifter.Response

/-!
# Swifter: authorization

`authorize(withCallback:presentingFrom:)` asks for a request token, opens the page on which the user
approves it, and waits for the page to open a callback URL with a verifier, which is exchanged for the
access token.  The callback comes as a notification, for which one observer is kept at a time.  Any
number of authorizations may be under way.  What the server answers is left open.
-/

namespace IosDevBootcamp.Swifter

open IosDevBootcamp.Lib IosDevBootcamp.Lib.Percent

/-! ### Tokens -/

/-- `init(key:secret:)`. -/
def OAuthAccessToken.make (key secret : Text) : OAuthAccessToken :=
  ⟨key, secret, none, none, (Text.components '-' key).head?⟩

/-- `init(queryString:)`, which needs a key and a secret. -/
def OAuthAccessToken.ofQueryString (queryString : Text) : Option OAuthAccessToken := do
  let attributes := queryStringParameters queryString
  let key ← attributes.value "oauth_token".toList
  let secret ← attributes.value "oauth_token_secret".toList
  return ⟨key, secret, none, attributes.value "screen_name".toList,
    attributes.value "user_id".toList⟩

/-- The token of a response, whose body has to be a text. -/
def tokenOfBody (body : Data) : Option OAuthAccessToken :=
  (utf8Decode body).bind OAuthAccessToken.ofQueryString

/-! ### One authorization -/

/-- What a URL that is opened is read for. -/
structure OpenedURL where
  scheme : Option Text
  query : Option Text
  deriving DecidableEq, Repr

def OpenedURL.hasSameUrlScheme (url other : OpenedURL) : Bool :=
  match url.scheme, other.scheme with
  | some scheme, some otherScheme => scheme.map Char.toLower = otherScheme.map Char.toLower
  | _, _ => false

def makeQueryURL (tokenKey : Text) (forceLogin : Bool) : Text :=
  let forceLogin := if forceLogin then "&force_login=true".toList else []
  TwitterURL.oauth.relative ("oauth/authorize?oauth_token=".toList ++ tokenKey ++ forceLogin)

inductive AuthCall
  | success (token : OAuthAccessToken)
  | failure (error : RequestError)
  deriving DecidableEq, Repr

/-- What an authorization waits for. -/
inductive AuthPhase
  | requestToken
  | authorizing
  | accessToken
  | finished
  deriving DecidableEq, Repr

/-- A call of `authorize`, with the request token its closures have captured and the parameters of the
requests it has sent. -/
structure Authorization where
  forceLogin : Bool
  token : Option OAuthAccessToken
  phase : AuthPhase
  sent : List Parameters
  calls : List AuthCall
  deriving DecidableEq, Repr

/-- `postOAuthRequestToken`. -/
def postOAuthRequestToken (callbackURL : Text) (forceLogin : Bool) : Authorization :=
  ⟨forceLogin, none, .requestToken, [[("oauth_callback".toList, callbackURL)]], []⟩

namespace Authorization

variable (a : Authorization)

def call (c : AuthCall) : Authorization := { a with phase := .finished, calls := a.calls ++ [c] }

def postOAuthAccessToken (requestToken : OAuthAccessToken) : Authorization :=
  match requestToken.verifier with
  | some verifier =>
    let parameters : Parameters :=
      [("oauth_token".toList, requestToken.key), ("oauth_verifier".toList, verifier)]
    { a with phase := .accessToken, sent := a.sent ++ [parameters] }
  | none => a.call (.failure (.swifter "Bad OAuth response received from server" .badOAuthResponse))

/-- `postOAuthAccessTokenHelper`, which needs a query and the captured token. -/
def postOAuthAccessTokenHelper (responseURL : OpenedURL) : Option Authorization := do
  let token ← a.token
  let query ← responseURL.query
  match (queryStringParameters query).value "oauth_verifier".toList with
  | none => return a.call (.failure (.swifter "User cancelled login from Twitter App" .cancelled))
  | some verifier => return a.postOAuthAccessToken { token with verifier := some verifier }

end Authorization

/-! ### The client -/

/-- The authorizations of a client, the one whose closure observes the notification, the credential and
the pages that were opened. -/
structure AuthState where
  authorizations : List Authorization
  observer : Option ℕ
  credential : Option Credential
  opened : List Text
  deriving DecidableEq, Repr

def AuthState.launch : AuthState := ⟨[], none, none, []⟩

inductive AuthEvent
  | authorize (callbackURL : Text) (forceLogin : Bool)
  | requestTokenResponse (i : ℕ) (body : Data)
  | accessTokenResponse (i : ℕ) (body : Data)
  /-- The response has the status of an error. -/
  | reject (i : ℕ) (response : Response)
  | fail (i : ℕ) (code : ℤ)
  | handleOpenURL (url callbackURL : OpenedURL)

namespace AuthState

variable (parse : Parser) (s : AuthState)

def setAuthorization (i : ℕ) (a : Authorization) : AuthState :=
  { s with authorizations := s.authorizations.set i a }

/-- The page opens and the closure is registered in place of another. -/
def openPage (i : ℕ) (a : Authorization) (token : OAuthAccessToken) : AuthState :=
  { s.setAuthorization i { a with token := some token, phase := .authorizing } with
    observer := some i
    opened := s.opened ++ [makeQueryURL token.key a.forceLogin] }

/-- The success handler of the request for an access token. -/
def authorized (i : ℕ) (a : Authorization) (token : OAuthAccessToken) : AuthState :=
  { s.setAuthorization i (a.call (.success token)) with credential := some ⟨some token⟩ }

def requestTokenStep (body : Data) (i : ℕ) (a : Authorization) : Except Fault AuthState :=
  match a.phase with
  | .requestToken =>
    match tokenOfBody body with
    | some token => .ok (s.openPage i a token)
    | none => .error .unexpectedlyFoundNil
  | _ => .error .disabled

def accessTokenStep (body : Data) (i : ℕ) (a : Authorization) : Except Fault AuthState :=
  match a.phase with
  | .accessToken =>
    match tokenOfBody body with
    | some token => .ok (s.authorized i a token)
    | none => .error .unexpectedlyFoundNil
  | _ => .error .disabled

/-- The failure handler of a request. -/
def failStep (error : RequestError) (i : ℕ) (a : Authorization) : Except Fault AuthState :=
  match a.phase with
  | .requestToken | .accessToken => .ok (s.setAuthorization i (a.call (.failure error)))
  | _ => .error .disabled

def rejectStep (response : Response) (i : ℕ) (a : Authorization) : Except Fault AuthState :=
  match a.phase with
  | .requestToken | .accessToken =>
    match HTTPRequest.didComplete parse response with
    | .error fault => .error fault
    | .ok (.error error) => .ok (s.setAuthorization i (a.call (.failure error)))
    | .ok (.ok _) => .error .disabled
  | _ => .error .disabled

/-- The closure of an observer, which is removed first. -/
def observerStep (url : OpenedURL) (i : ℕ) (a : Authorization) : Except Fault AuthState :=
  match a.postOAuthAccessTokenHelper url with
  | some a => .ok ({ s with observer := none }.setAuthorization i a)
  | none => .error .unexpectedlyFoundNil

def withAuthorization (i : ℕ) (f : ℕ → Authorization → Except Fault AuthState) :
    Except Fault AuthState :=
  match s.authorizations[i]? with
  | some a => f i a
  | none => .error .disabled

def handleOpenURL (url callbackURL : OpenedURL) : Except Fault AuthState :=
  if url.hasSameUrlScheme callbackURL then
    match s.observer with
    | some i => s.withAuthorization i (s.observerStep url)
    | none => .ok s
  else .ok s

def step : AuthEvent → Except Fault AuthState
  | .authorize callbackURL forceLogin =>
    .ok { s with
      authorizations := s.authorizations ++ [postOAuthRequestToken callbackURL forceLogin] }
  | .requestTokenResponse i body => s.withAuthorization i (s.requestTokenStep body)
  | .accessTokenResponse i body => s.withAuthorization i (s.accessTokenStep body)
  | .reject i response => s.withAuthorization i (s.rejectStep parse response)
  | .fail i code => s.withAuthorization i (s.failStep (.connection code))
  | .handleOpenURL url callbackURL => s.handleOpenURL url callbackURL

end AuthState

end IosDevBootcamp.Swifter
