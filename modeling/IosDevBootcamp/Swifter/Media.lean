import IosDevBootcamp.Swifter.Response

/-!
# Swifter: uploading media

`INIT -> APPEND -> FINALIZE`, and `STATUS` where the answer to `FINALIZE` asks for it: each request of
an upload is made by the handler of the response before it.  Any number of uploads run at a time.  A
request reaches the server before its response arrives, and it can fail before or after that.  What the
server answers is left open.
-/

namespace IosDevBootcamp.Swifter

open IosDevBootcamp.Twittermenti (JSON)

/-! ### Requests -/

inductive MediaType
  | png | jpeg | gif | mov | mp4
  deriving DecidableEq, Repr

def MediaType.rawValue : MediaType → String
  | .png => "image/png"
  | .jpeg => "image/jpeg"
  | .gif => "image/gif"
  | .mov => "video/mov"
  | .mp4 => "video/mp4"

inductive MediaCategory
  | gif | video
  deriving DecidableEq, Repr

def MediaCategory.rawValue : MediaCategory → String
  | .gif => "tweet_gif"
  | .video => "tweet_video"

/-- The commands of `media/upload.json` with their parameters, and the tweet that ends an upload. -/
inductive MediaRequest
  | INIT (totalBytes : ℕ) (mediaType mediaCategory : String)
  | APPEND (mediaId : String) (segmentIndex : ℕ) (fileName : String) (media : Data)
  | FINALIZE (mediaId : String)
  | STATUS (mediaId : String)
  | tweet (status mediaIds : String)
  deriving DecidableEq, Repr

def chunkSize : ℕ := 2 * 1024 * 1024

/-- `subdata(in:)` for the range of the segment with an index.  The first index of the data is not 0 where
it is a slice, and it does not matter for an empty range. -/
def subData (startIndex : ℕ) (data : Data) (index : ℕ) : Option Data :=
  let location : ℤ := index * chunkSize
  let length : ℤ :=
    if data.length < chunkSize then data.length else min (data.length - location) chunkSize
  if length < 0 ∨ 0 < length ∧
      (location < startIndex ∨ startIndex + data.length < location + length) then none
  else some ((data.drop (location - startIndex).toNat).take length.toNat)

/-! ### One upload -/

/-- The call of a handler. -/
inductive Call
  | success (json : JSON)
  | failure (error : RequestError)

/-- What the handlers of an upload lead to. -/
inductive Purpose
  | multipartMedia
  | tweetWithGif (text : String)
  deriving DecidableEq, Repr

/-- What the upload waits for. -/
inductive Phase
  | sent (request : MediaRequest)
  | answered (request : MediaRequest) (response : Response)
  /-- The delay before a `STATUS`. -/
  | delayed (mediaId : String)
  | finished

/-- A call of `postMultipartMedia` or `postTweetWithGif`, with what its closures have captured and the
handlers that were called. -/
structure Upload where
  data : Data
  startIndex : ℕ
  name : Option String
  type : MediaType
  category : MediaCategory
  purpose : Purpose
  mediaId : Option String
  phase : Phase
  calls : List Call

def mediaIdString (json : JSON) : Option String := (json.subscriptKey "media_id_string").string?

namespace Upload

variable (parse : Parser) (u : Upload) (mediaId : String) (json : JSON)

def call (c : Call) : Upload := { u with phase := .finished, calls := u.calls ++ [c] }

def fail (message : String) (kind : ErrorKind) : Upload := u.call (.failure (.swifter message kind))

def send (request : MediaRequest) : Upload := { u with phase := .sent request }

def appendUpload (index : ℕ) : Except Fault Upload :=
  match subData u.startIndex u.data index with
  | some subData => .ok (u.send (.APPEND mediaId index (u.name.getD "Swifter.media") subData))
  | none => .error .rangeOutOfBounds

/-- The success handler of `finalizeUpload`. -/
def finalized : Upload :=
  match u.purpose with
  | .multipartMedia => u.call (.success json)
  | .tweetWithGif text => u.send (.tweet text mediaId)

def statusCheck (processingInfo : List (String × JSON)) : Except Fault Upload :=
  match (processingInfo.lookup "state").bind JSON.string? with
  | none => .error .unexpectedlyFoundNil
  | some state =>
    if state = "pending" ∨ state = "in_progress" then
      match (processingInfo.lookup "check_after_secs").bind double? with
      | none => .error .unexpectedlyFoundNil
      | some _ => .ok { u with phase := .delayed mediaId }
    else if state = "succeeded" then .ok (u.finalized mediaId json)
    else .ok (u.fail "Failed to upload Multipart Media" .invalidMultipartMediaResponse)

/-- The success handler of `prepareUpload`. -/
def prepared : Except Fault Upload :=
  match mediaIdString json with
  | some id => { u with mediaId := some id }.appendUpload id 0
  | none =>
    match u.purpose with
    | .multipartMedia =>
      .ok (u.fail "Bad Response for Multipart Media Upload" .invalidMultipartMediaResponse)
    | .tweetWithGif _ => .ok (u.fail "Bad Response for GIF Upload" .invalidGifResponse)

/-- The success handler of a request. -/
def succeed : MediaRequest → Except Fault Upload
  | .INIT _ _ _ => u.prepared json
  | .APPEND id index _ _ =>
    let next := index + 1
    if u.data.length < next * chunkSize then .ok (u.send (.FINALIZE id))
    else u.appendUpload id next
  | .FINALIZE id =>
    match object? json with
    | some (_ :: _) =>
      match object? (json.subscriptKey "processing_info") with
      | some processingInfo => u.statusCheck id json processingInfo
      | none => .ok (u.finalized id json)
    | _ => .ok (u.fail "Bad Response for Multipart Media Upload" .invalidMultipartMediaResponse)
  | .STATUS id =>
    match object? (json.subscriptKey "processing_info") with
    | some processingInfo => u.statusCheck id json processingInfo
    | none => .ok (u.fail "Bad Response for Multipart Media Upload" .invalidMultipartMediaResponse)
  | .tweet _ _ => .ok (u.call (.success json))

/-- The response of a request arrives. -/
def respond (request : MediaRequest) (response : Response) : Except Fault Upload :=
  match HTTPRequest.jsonComplete parse response with
  | .error fault => .error fault
  | .ok (.error error) => .ok (u.call (.failure error))
  | .ok (.ok json) => u.succeed json request

end Upload

/-- `postMultipartMedia`. -/
def postMultipartMedia (startIndex : ℕ) (media : Data) (name : Option String) (type : MediaType)
    (category : MediaCategory) : Upload :=
  ⟨media, startIndex, name, type, category, .multipartMedia, none,
    .sent (.INIT media.length type.rawValue category.rawValue), []⟩

/-- `postTweetWithGif`, with the contents of the attachment if it can be read. -/
def postTweetWithGif (contents : Option Data) (lastPathComponent text : String) : Upload :=
  match contents with
  | none =>
    let u : Upload :=
      ⟨[], 0, some lastPathComponent, .gif, .gif, .tweetWithGif text, none, .finished, []⟩
    u.fail "Found invalid GIF Data" .invalidGifData
  | some data =>
    ⟨data, 0, some lastPathComponent, .gif, .gif, .tweetWithGif text, none,
      .sent (.INIT data.length MediaType.gif.rawValue MediaCategory.gif.rawValue), []⟩

/-! ### The system -/

/-- The uploads, and the requests that the server has received, each with the upload it is of. -/
structure System where
  uploads : List Upload
  received : List (ℕ × MediaRequest)

def System.launch : System := ⟨[], []⟩

/-- What the server has received of an upload. -/
def System.receivedOf (s : System) (i : ℕ) : List MediaRequest :=
  (s.received.filter (·.1 = i)).map Prod.snd

inductive Event
  | postMultipartMedia (startIndex : ℕ) (media : Data) (name : Option String) (type : MediaType)
      (category : MediaCategory)
  | postTweetWithGif (contents : Option Data) (lastPathComponent text : String)
  /-- The request of an upload reaches the server, which answers. -/
  | deliver (upload : ℕ) (response : Response)
  /-- The response arrives. -/
  | respond (upload : ℕ)
  /-- The connection fails, whether or not the request has reached the server. -/
  | fail (upload : ℕ) (code : ℤ)
  /-- The delay is over. -/
  | fire (upload : ℕ)

namespace System

variable (parse : Parser) (s : System)

def setUpload (i : ℕ) (u : Upload) : System := { s with uploads := s.uploads.set i u }

def deliverStep (response : Response) (i : ℕ) (u : Upload) : Except Fault System :=
  match u.phase with
  | .sent request =>
    .ok { s.setUpload i { u with phase := .answered request response } with
      received := s.received ++ [(i, request)] }
  | _ => .error .disabled

def respondStep (i : ℕ) (u : Upload) : Except Fault System :=
  match u.phase with
  | .answered request response => (u.respond parse request response).map (s.setUpload i)
  | _ => .error .disabled

def failStep (code : ℤ) (i : ℕ) (u : Upload) : Except Fault System :=
  match u.phase with
  | .sent _ | .answered _ _ => .ok (s.setUpload i (u.call (.failure (.connection code))))
  | _ => .error .disabled

def fireStep (i : ℕ) (u : Upload) : Except Fault System :=
  match u.phase with
  | .delayed mediaId => .ok (s.setUpload i (u.send (.STATUS mediaId)))
  | _ => .error .disabled

/-- A step about an upload that there is. -/
def withUpload (i : ℕ) (f : ℕ → Upload → Except Fault System) : Except Fault System :=
  match s.uploads[i]? with
  | some u => f i u
  | none => .error .disabled

def step : Event → Except Fault System
  | .postMultipartMedia startIndex media name type category =>
    .ok { s with
      uploads := s.uploads ++ [Swifter.postMultipartMedia startIndex media name type category] }
  | .postTweetWithGif contents lastPathComponent text =>
    .ok { s with uploads := s.uploads ++ [Swifter.postTweetWithGif contents lastPathComponent text] }
  | .deliver i response => s.withUpload i (s.deliverStep response)
  | .respond i => s.withUpload i (s.respondStep parse)
  | .fail i code => s.withUpload i (s.failStep code)
  | .fire i => s.withUpload i s.fireStep

end System

end IosDevBootcamp.Swifter
