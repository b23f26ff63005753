import IosDevBootcamp.Swifter.HTTPRequest
import IosDevBootcamp.Twittermenti.Defs

/-!
# Swifter: responses

`didCompleteWithError` hands a response to one of the two handlers of its request, by its status.  What
it makes of an error assumes that the body is a text, and that a code in it is an `Int`.  A JSON request
parses the body before its own success handler gets it; the parser is a parameter.
-/

namespace IosDevBootcamp.Swifter

open IosDevBootcamp.Lib IosDevBootcamp.Lib.Percent
open IosDevBootcamp.Twittermenti (JSON)

inductive Fault
  /-- The event cannot happen now. -/
  | disabled
  | unexpectedlyFoundNil
  | rangeOutOfBounds
  | doubleOutOfRange
  deriving DecidableEq, Repr

/-! ### Properties of JSON values -/

/-- The property `object`. -/
def object? : JSON → Option (List (String × JSON))
  | .object value => some value
  | _ => none

/-- The property `array`. -/
def array? : JSON → Option (List JSON)
  | .array value => some value
  | _ => none

/-- The property `double`. -/
def double? : JSON → Option Float
  | .number value => some value
  | _ => none

/-- The numbers that `Int(_:)` takes. -/
def InIntRange (value : Float) : Prop :=
  -9223372036854775808.0 ≤ value ∧ value < 9223372036854775808.0

instance (value : Float) : Decidable (InIntRange value) :=
  inferInstanceAs (Decidable (_ ∧ _))

/-- The property `integer`. -/
def integer? : JSON → Except Fault (Option ℤ)
  | .number value =>
    if InIntRange value then .ok (some value.toInt64.toInt) else .error .doubleOutOfRange
  | _ => .ok none

/-! ### Completion -/

structure Response where
  statusCode : ℕ
  allHeaderFields : List (String × String)
  body : Data

inductive ErrorKind
  | urlResponseError (status : ℕ) (headers : List (String × String)) (errorCode : ℤ)
  | jsonParseError
  | cancelled
  | badOAuthResponse
  | invalidGifData
  | invalidGifResponse
  | invalidMultipartMediaResponse
  deriving DecidableEq, Repr

/-- What a failure handler gets: the error of a connection, or one of the library. -/
inductive RequestError
  | connection (code : ℤ)
  | swifter (message : String) (kind : ErrorKind)
  deriving DecidableEq, Repr

/-- The parser, with the text of its error. -/
abbrev Parser := Data → Except String JSON

namespace HTTPRequest

def statusDescription : ℕ → String
  | 400 => "Bad Request"
  | 401 => "Unauthorized"
  | 402 => "Payment Required"
  | 403 => "Forbidden"
  | 404 => "Not Found"
  | 405 => "Method Not Allowed"
  | 406 => "Not Acceptable"
  | 407 => "Proxy Authentication Required"
  | 408 => "Request Timeout"
  | 409 => "Conflict"
  | 410 => "Gone"
  | 411 => "Length Required"
  | 412 => "Precondition Failed"
  | 413 => "Payload Too Large"
  | 414 => "URI Too Long"
  | 415 => "Unsupported Media Type"
  | 416 => "Requested Range Not Satisfiable"
  | 417 => "Expectation Failed"
  | 420 => "Enhance Your Calm"
  | 422 => "Unprocessable Entity"
  | 423 => "Locked"
  | 424 => "Failed Dependency"
  | 425 => "Unassigned"
  | 426 => "Upgrade Required"
  | 427 => "Unassigned"
  | 428 => "Precondition Required"
  | 429 => "Too Many Requests"
  | 430 => "Unassigned"
  | 431 => "Request Header Fields Too Large"
  | 432 => "Unassigned"
  | 500 => "Internal Server Error"
  | 501 => "Not Implemented"
  | 502 => "Bad Gateway"
  | 503 => "Service Unavailable"
  | 504 => "Gateway Timeout"
  | 505 => "HTTP Version Not Supported"
  | 506 => "Variant Also Negotiates"
  | 507 => "Insufficient Storage"
  | 508 => "Loop Detected"
  | 509 => "Unassigned"
  | 510 => "Not Extended"
  | 511 => "Network Authentication Required"
  | _ => ""

def description (status : ℕ) (string : String) : String :=
  let s := "HTTP Status " ++ toString status
  let description := statusDescription status
  if description ≠ "" then s ++ ": " ++ description ++ ", Response: " ++ string else s

variable (parse : Parser)

/-- The code of the first error in a body, where a subscript that finds nothing gives `invalid`. -/
def firstCode (data : Data) : JSON :=
  match parse data with
  | .ok json =>
    match array? (json.subscriptKey "errors") with
    | some (error :: _) => error.subscriptKey "code"
    | _ => .invalid
  | .error _ => .invalid

def responseErrorCode (data : Data) : Except Fault (Option ℤ) := integer? (firstCode parse data)

/-- What a response hands over, an error or its body. -/
def didComplete (response : Response) : Except Fault (Except RequestError Data) :=
  if response.statusCode < 400 then .ok (.ok response.body)
  else
    match utf8Decode response.body with
    | none => .error .unexpectedlyFoundNil
    | some responseString =>
      (responseErrorCode parse response.body).map fun errorCode => .error (.swifter
        (description response.statusCode (String.ofList responseString))
        (.urlResponseError response.statusCode response.allHeaderFields (errorCode.getD 0)))

/-- The success handler of `jsonRequest`, which parses a body. -/
def jsonSuccess (response : Response) (data : Data) : Except RequestError JSON :=
  match parse data with
  | .ok jsonResult => .ok jsonResult
  | .error message =>
    if 200 ≤ response.statusCode ∧ response.statusCode ≤ 299 ∧ data = [] then .ok (.string "{}")
    else .error (.swifter message .jsonParseError)

/-- What the response of a JSON request hands over. -/
def jsonComplete (response : Response) : Except Fault (Except RequestError JSON) :=
  (didComplete parse response).map fun result => result.bind (jsonSuccess parse response)

/-! ### Traps -/

/-- The error of a response whose code is a number and no `Int`. -/
def HugeCode (data : Data) : Prop := ∃ value, firstCode parse data = .number value ∧ ¬ InIntRange value

lemma responseErrorCode_error {data : Data} {f : Fault} :
    responseErrorCode parse data = .error f ↔ f = .doubleOutOfRange ∧ HugeCode parse data := by
  unfold responseErrorCode HugeCode
  cases firstCode parse data with
  | number value =>
    by_cases hrange : InIntRange value
    · simp [integer?, hrange]
    · simp [integer?, hrange, eq_comm]
  | _ => simp [integer?]

/-- **A response traps where its status is an error and its body is no text or has a huge code.** -/
lemma didComplete_error {response : Response} {f : Fault} :
    didComplete parse response = .error f ↔ 400 ≤ response.statusCode ∧
      (f = .unexpectedlyFoundNil ∧ utf8Decode response.body = none ∨
        f = .doubleOutOfRange ∧ utf8Decode response.body ≠ none ∧
          HugeCode parse response.body) := by
  unfold didComplete
  by_cases hstatus : response.statusCode < 400
  · simp [hstatus, Nat.not_le.mpr hstatus]
  · rw [if_neg hstatus, and_iff_right (Nat.le_of_not_lt hstatus)]
    cases hdecode : utf8Decode response.body with
    | none => simp [eq_comm]
    | some responseString =>
      have hcode : responseErrorCode parse response.body = .error f ↔ _ :=
        responseErrorCode_error parse
      cases hresult : responseErrorCode parse response.body with
      | ok errorCode => simpa [hresult, Except.map] using hcode
      | error g => simpa [hresult, Except.map] using hcode

lemma jsonComplete_error {response : Response} {f : Fault} :
    jsonComplete parse response = .error f ↔ didComplete parse response = .error f := by
  cases h : didComplete parse response <;> simp [jsonComplete, h, Except.map]

end HTTPRequest

end IosDevBootcamp.Swifter
