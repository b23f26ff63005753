import IosDevBootcamp.Swifter.Fields
import IosDevBootcamp.Swifter.Uploads

/-!
# Swifter: the requests of an upload on the wire

The steps of an upload hand requests to the server as they are.  Here they are sent: as a query, as a
form, or with their segment in a multipart body.  The server reads back the request that was made, and
accepts its signature, when the boundary does not occur in the data and the name of the file can be
quoted.
-/

namespace IosDevBootcamp.Swifter

open IosDevBootcamp.Lib IosDevBootcamp.Lib.Percent IosDevBootcamp.Lib.OAuth1
open IosDevBootcamp.Lib.Multipart (Part Free Quotable)

/-! ### Sending -/

def mediaPath : Text := "media/upload.json".toList

namespace MediaRequest

open DataParameters

/-- The parameters of a command. -/
def arguments : MediaRequest → Arguments
  | .INIT totalBytes mediaType mediaCategory =>
    [("command".toList, some (.string "INIT".toList)), ("total_bytes".toList, some (.int totalBytes)),
      ("media_type".toList, some (.string mediaType.toList)),
      ("media_category".toList, some (.string mediaCategory.toList))]
  | .APPEND mediaId segmentIndex fileName media =>
    [("command".toList, some (.string "APPEND".toList)),
      ("media_id".toList, some (.string mediaId.toList)),
      ("segment_index".toList, some (.int segmentIndex)),
      (dataKey, some (.string "media".toList)), (fileNameKey, some (.string fileName.toList)),
      ("media".toList, some (.data media))]
  | .FINALIZE mediaId =>
    [("command".toList, some (.string "FINALIZE".toList)),
      ("media_id".toList, some (.string mediaId.toList))]
  | .STATUS mediaId =>
    [("command".toList, some (.string "STATUS".toList)),
      ("media_id".toList, some (.string mediaId.toList))]
  | .tweet _ _ => []

/-- The arguments of the tweet with a media. -/
def tweetArguments (status mediaIds : String) : TweetArguments :=
  { TweetArguments.ofStatus status.toList with mediaIDs := [mediaIds.toList] }

def send (seed : HashSeed) (client : OAuthClient) (timestamp nonce boundary : Text) :
    MediaRequest → Option URLRequest
  | .tweet status mediaIds =>
    client.postTweet seed (tweetArguments status mediaIds) timestamp nonce boundary
  | .STATUS mediaId =>
    client.get seed mediaPath .upload (arguments (.STATUS mediaId)).dictionary timestamp nonce boundary
  | request => client.post seed mediaPath .upload request.arguments.dictionary timestamp nonce boundary

end MediaRequest

/-! ### Reading -/

def fieldText (fs : List Part) (name : Text) : Option String :=
  (Keyed.lookup Part.name fs (utf8 name)).bind fun p => (utf8Decode p.content).map String.ofList

def fieldNumber (fs : List Part) (name : Text) : Option ℕ :=
  (fieldText fs name).bind fun t => Text.number t.toList

/-- The segment with the name of its file. -/
def fieldFile (fs : List Part) (name : Text) : Option (String × Data) := do
  let p ← Keyed.lookup Part.name fs (utf8 name)
  let fileName ← utf8Decode (← p.fileName)
  return (String.ofList fileName, p.content)

/-- The command that the fields of a request stand for. -/
def readCommand (method : Text) (fs : List Part) : Option MediaRequest := do
  let command ← fieldText fs "command".toList
  if method = HTTPMethodType.GET.rawValue then
    if command = "STATUS" then return .STATUS (← fieldText fs "media_id".toList) else none
  else if command = "INIT" then
    return .INIT (← fieldNumber fs "total_bytes".toList) (← fieldText fs "media_type".toList)
      (← fieldText fs "media_category".toList)
  else if command = "APPEND" then
    let file ← fieldFile fs "media".toList
    return .APPEND (← fieldText fs "media_id".toList) (← fieldNumber fs "segment_index".toList)
      file.1 file.2
  else if command = "FINALIZE" then return .FINALIZE (← fieldText fs "media_id".toList)
  else none

/-- The request of an upload that the server reads. -/
def URLRequest.mediaRequest (r : URLRequest) : Option MediaRequest := do
  let fs ← r.fields
  let address := r.url.takeWhile (· != '?')
  if address = TwitterURL.upload.relative mediaPath then readCommand r.httpMethod fs
  else if address = TwitterURL.api.relative "statuses/update.json".toList then
    return .tweet (← fieldText fs "status".toList) (← fieldText fs "media_ids".toList)
  else none

/-! ### Fields of named parameters -/

section Named

open OAuthClient HashSeed Arguments DataParameters

variable {seed : HashSeed} {client : OAuthClient} {path timestamp nonce boundary k : Text}
  {baseURL : TwitterURL} {r : URLRequest} {l : Arguments} {v : Value}

lemma sentEntries_dictionary (hl : Sendable (l.map Prod.fst)) {e : Entry} :
    e ∈ sentEntries seed l.dictionary ↔ e ∈ l.filterMap given := by
  rw [sentEntries, mem_iterate, mem_filter, ← mem_dictionary hl]
  exact and_iff_left_of_imp fun he => by rw [not_isOAuth hl he]; rfl

/-- The names of the fields are distinct. -/
lemma nodup_entryFields (d : Dictionary) :
    ((entryFields (sentEntries seed d)).map Part.name).Nodup := by
  have hnames : (entryFields (sentEntries seed d)).map Part.name =
      ((sentEntries seed d).map Prod.fst).map utf8 := by
    rw [entryFields, List.map_map, List.map_map]
    rfl
  rw [hnames]
  exact (iterate_nodup seed _).map fun _ _ => utf8_injective

lemma fieldText_entry (seed : HashSeed) (hl : Sendable (l.map Prod.fst)) (hv : (k, some v) ∈ l) :
    fieldText (entryFields (sentEntries seed l.dictionary)) k =
      some (String.ofList v.description) := by
  have hmem : fieldOf (parameter (k, v)) ∈ entryFields (sentEntries seed l.dictionary) :=
    List.mem_map_of_mem (f := fun e => fieldOf (parameter e))
      ((sentEntries_dictionary hl).mpr (List.mem_filterMap.mpr ⟨(k, some v), hv, rfl⟩))
  have hlookup := Keyed.lookup_of_mem (nodup_entryFields l.dictionary) hmem
  rw [fieldText, show utf8 k = Part.name (fieldOf (parameter (k, v))) from rfl, hlookup]
  simp [fieldOf, parameter, utf8Decode_utf8]

lemma fieldText_string (seed : HashSeed) (hl : Sendable (l.map Prod.fst)) {t : String}
    (hv : (k, some (.string t.toList)) ∈ l) :
    fieldText (entryFields (sentEntries seed l.dictionary)) k = some t := by
  rw [fieldText_entry seed hl hv, Value.description, String.ofList_toList]

lemma fieldNumber_entry (seed : HashSeed) (hl : Sendable (l.map Prod.fst)) {n : ℕ}
    (hv : (k, some (.int n)) ∈ l) :
    fieldNumber (entryFields (sentEntries seed l.dictionary)) k = some n := by
  rw [fieldNumber, fieldText_entry seed hl hv, Option.bind_some, String.toList_ofList]
  exact Text.number_description n

/-- A field of another name in front does not matter. -/
lemma fieldText_cons {p : Part} {fs : List Part} (h : p.name ≠ utf8 k) :
    fieldText (p :: fs) k = fieldText fs k := by
  rw [fieldText, Keyed.lookup, List.find?_cons_of_neg (by simpa using h)]
  rfl

end Named

/-! ### What the server makes of a request -/

section Received

open OAuthClient HashSeed Arguments DataParameters

variable {seed : HashSeed} {client : OAuthClient} {timestamp nonce boundary : Text}
  {r : URLRequest} {request : MediaRequest}

/-- The file of a segment has a name that can be quoted, and no line of the segment, and of the
identifier that is sent with it, begins as a delimiter. -/
def MediaRequest.Readable (boundary : Text) : MediaRequest → Prop
  | .APPEND mediaId _ fileName media => Quotable (utf8 fileName.toList) ∧
      Free (utf8 boundary) media ∧ Free (utf8 boundary) (utf8 mediaId.toList)
  | _ => True

/-- How many characters are signed for parameters, with the secrets and the address. -/
def signedLength (seed : HashSeed) (client : OAuthClient) (baseURL : TwitterURL) (path : Text)
    (d : Dictionary) (timestamp nonce : Text) (isMediaUpload : Bool) : ℕ :=
  client.consumerSecret.length + (tokenSecret client).length + (baseURL.relative path).length +
    (seed.urlEncodedQueryString
      (client.finalParameters seed d timestamp nonce isMediaUpload)).length

/-- What is sent with a segment. -/
def segmentArguments (mediaId : String) (segmentIndex : ℕ) : Arguments :=
  [("command".toList, some (.string "APPEND".toList)),
    ("media_id".toList, some (.string mediaId.toList)),
    ("segment_index".toList, some (.int segmentIndex))]

def MediaRequest.signedLength (seed : HashSeed) (client : OAuthClient) (timestamp nonce : Text) :
    MediaRequest → ℕ
  | .tweet status mediaIds => Swifter.signedLength seed client .api "statuses/update.json".toList
      (tweetArguments status mediaIds).parameters timestamp nonce false
  | .APPEND mediaId segmentIndex _ _ => Swifter.signedLength seed client .upload mediaPath
      (segmentArguments mediaId segmentIndex).dictionary timestamp nonce true
  | request => Swifter.signedLength seed client .upload mediaPath request.arguments.dictionary
      timestamp nonce false

/-- The names of a command that is a form or a query. -/
def commandNames : List (List Text) :=
  [["command".toList, "total_bytes".toList, "media_type".toList, "media_category".toList],
    ["command".toList, "media_id".toList],
    ["command".toList, "media_id".toList, "segment_index".toList]]

lemma commandNames_sendable : ∀ names ∈ commandNames,
    Sendable names ∧ ∀ k ∈ keys, k ∉ names := by decide +kernel

/-- A post to the address of the commands is read as a command. -/
lemma mediaRequest_post {d : Dictionary}
    (hpost : client.post seed mediaPath .upload d timestamp nonce boundary = some r) :
    r.mediaRequest = r.fields.bind (readCommand HTTPMethodType.POST.rawValue) := by
  obtain ⟨signature, -, hsigned⟩ := post_signed hpost
  have haddress : r.url = TwitterURL.upload.relative mediaPath := congrArg SignedRequest.url hsigned
  have hmethod : r.httpMethod = HTTPMethodType.POST.rawValue :=
    congrArg SignedRequest.method hsigned
  have hbare : (TwitterURL.upload.relative mediaPath).takeWhile (· != '?') =
      TwitterURL.upload.relative mediaPath := by decide
  rw [URLRequest.mediaRequest, haddress, hmethod, hbare]
  simp only [if_true, Option.bind_eq_bind]

lemma form_received {l : Arguments} (hl : l.map Prod.fst ∈ commandNames)
    (hpost : client.post seed mediaPath .upload l.dictionary timestamp nonce boundary = some r) :
    r.mediaRequest = readCommand HTTPMethodType.POST.rawValue
      (entryFields (sentEntries seed l.dictionary)) := by
  obtain ⟨hsendable, hkeys⟩ := commandNames_sendable _ hl
  have hp := ofParameters_dictionary hsendable hkeys
  have hfields := form_fields hpost (by decide) (by rw [hp]) (by rw [hp])
  rw [mediaRequest_post hpost, hfields, hp, Option.bind_some]

lemma post_ne_get : HTTPMethodType.POST.rawValue ≠ HTTPMethodType.GET.rawValue := by decide

lemma INIT_received {totalBytes : ℕ} {mediaType mediaCategory : String}
    (hsend : (MediaRequest.INIT totalBytes mediaType mediaCategory).send seed client timestamp nonce
      boundary = some r) :
    r.mediaRequest = some (.INIT totalBytes mediaType mediaCategory) := by
  have hnames : (MediaRequest.INIT totalBytes mediaType mediaCategory).arguments.map Prod.fst ∈
      commandNames := .head _
  have hl := (commandNames_sendable _ hnames).1
  have hcommand := fieldText_string seed hl (t := "INIT") (.head _)
  have hbytes := fieldNumber_entry seed hl (n := totalBytes) (.tail _ (.head _))
  have htype := fieldText_string seed hl (t := mediaType) (.tail _ (.tail _ (.head _)))
  have hcategory := fieldText_string seed hl (t := mediaCategory)
    (.tail _ (.tail _ (.tail _ (.head _))))
  rw [form_received hnames hsend]
  simp [readCommand, hcommand, hbytes, htype, hcategory, post_ne_get, -String.reduceToList]

lemma FINALIZE_received {mediaId : String}
    (hsend : (MediaRequest.FINALIZE mediaId).send seed client timestamp nonce boundary = some r) :
    r.mediaRequest = some (.FINALIZE mediaId) := by
  have hnames : (MediaRequest.FINALIZE mediaId).arguments.map Prod.fst ∈ commandNames :=
    .tail _ (.head _)
  have hl := (commandNames_sendable _ hnames).1
  have hcommand := fieldText_string seed hl (t := "FINALIZE") (.head _)
  have hid := fieldText_string seed hl (t := mediaId) (.tail _ (.head _))
  rw [form_received hnames hsend]
  simp [readCommand, hcommand, hid, post_ne_get, -String.reduceToList]

/-- The one command that is a query. -/
lemma STATUS_received {mediaId : String}
    (hsend : (MediaRequest.STATUS mediaId).send seed client timestamp nonce boundary = some r) :
    r.mediaRequest = some (.STATUS mediaId) := by
  have hl := (commandNames_sendable ((MediaRequest.STATUS mediaId).arguments.map Prod.fst)
    (.tail _ (.head _))).1
  have hcommand := fieldText_string seed hl (t := "STATUS") (.head _)
  have hid := fieldText_string seed hl (t := mediaId) (.tail _ (.head _))
  obtain ⟨signature, -, hsigned⟩ := get_signed hsend
  have haddress : r.url.takeWhile (· != '?') = TwitterURL.upload.relative mediaPath :=
    (congrArg (fun q => q.url.takeWhile (· != '?')) hsigned).trans (splits_url (by decide) _).1
  have hmethod : r.httpMethod = HTTPMethodType.GET.rawValue := congrArg SignedRequest.method hsigned
  rw [URLRequest.mediaRequest, query_fields hsend (by decide), haddress, hmethod]
  simp [readCommand, hcommand, hid, -String.reduceToList]

/-- The tweet is read at its own address. -/
lemma tweet_received {status mediaIds : String}
    (hsend : (MediaRequest.tweet status mediaIds).send seed client timestamp nonce boundary =
      some r) : r.mediaRequest = some (.tweet status mediaIds) := by
  have hl := (MediaRequest.tweetArguments status mediaIds).sendable
  have hkeys : ∀ k ∈ keys, k ∉ (MediaRequest.tweetArguments status mediaIds).named.map Prod.fst := by
    rw [TweetArguments.map_named]
    decide
  have hstatus := fieldText_string seed hl (t := status) (.head _)
  have hmedia : ("media_ids".toList, some (.string mediaIds.toList)) ∈
      (MediaRequest.tweetArguments status mediaIds).named := by
    simp [MediaRequest.tweetArguments, TweetArguments.named, Text.joined, -String.reduceToList]
  have hids := fieldText_string seed hl hmedia
  have hpost : client.post seed "statuses/update.json".toList .api
      (MediaRequest.tweetArguments status mediaIds).named.dictionary timestamp nonce boundary =
        some r := by
    rw [← TweetArguments.parameters_eq]
    exact hsend
  have hp := ofParameters_dictionary hl hkeys
  have hfields := form_fields hpost (by decide) (by rw [hp]) (by rw [hp])
  rw [hp] at hfields
  obtain ⟨signature, -, hsigned⟩ := post_signed hpost
  have haddress : r.url = TwitterURL.api.relative "statuses/update.json".toList :=
    congrArg SignedRequest.url hsigned
  have hbare : (TwitterURL.api.relative "statuses/update.json".toList).takeWhile (· != '?') =
      TwitterURL.api.relative "statuses/update.json".toList := by decide
  have hother : TwitterURL.api.relative "statuses/update.json".toList ≠
      TwitterURL.upload.relative mediaPath := by decide
  rw [URLRequest.mediaRequest, hfields, haddress, hbare]
  simp [hother, hstatus, hids, -String.reduceToList]

/-! ### Segments -/

variable {mediaId fileName : String} {segmentIndex : ℕ} {media : Data}

lemma map_arguments_APPEND :
    (MediaRequest.APPEND mediaId segmentIndex fileName media).arguments.map Prod.fst =
      ["command".toList, "media_id".toList, "segment_index".toList, dataKey, fileNameKey,
        "media".toList] := rfl

/-- The segment is taken out with its keys; what remains goes with it. -/
lemma ofParameters_APPEND (mediaId fileName : String) (segmentIndex : ℕ) (media : Data) :
    PostData.ofParameters
      (MediaRequest.APPEND mediaId segmentIndex fileName media).arguments.dictionary =
    ⟨none, some ("media".toList, media), some fileName.toList,
      (segmentArguments mediaId segmentIndex).dictionary⟩ := by
  have hnodup : ["command".toList, "media_id".toList, "segment_index".toList].Nodup := by decide
  have hrest : (segmentArguments mediaId segmentIndex).dictionary.entries = _ :=
    entries_dictionary hnodup
  have hentries :
      (MediaRequest.APPEND mediaId segmentIndex fileName media).arguments.dictionary.entries = _ :=
    entries_dictionary (by rw [map_arguments_APPEND]; decide)
  generalize (MediaRequest.APPEND mediaId segmentIndex fileName media).arguments.dictionary = d at *
  have hkeys : d.entries.map Prod.fst = ["command".toList, "media_id".toList,
      "segment_index".toList, dataKey, fileNameKey, "media".toList] := by
    rw [hentries]
    rfl
  have hjson : d.value jsonDataKey = none := Dictionary.value_none (by rw [hkeys]; decide)
  have hkey : d.value dataKey = some (.string "media".toList) := Dictionary.value_eq (by
    rw [hentries]
    exact .tail _ (.tail _ (.tail _ (.head _))))
  have hmedia : d.value "media".toList = some (.data media) := Dictionary.value_eq (by
    rw [hentries]
    exact .tail _ (.tail _ (.tail _ (.tail _ (.tail _ (.head _))))))
  have hfile : ((d.removeValue dataKey).removeValue "media".toList).value fileNameKey =
      some (.string fileName.toList) := Dictionary.value_eq (by
    simp only [Dictionary.removeValue, Keyed.erase, List.mem_filter, hentries]
    exact ⟨⟨.tail _ (.tail _ (.tail _ (.tail _ (.head _)))),
      decide_eq_true (show fileNameKey ≠ dataKey by decide)⟩,
      decide_eq_true (show fileNameKey ≠ "media".toList by decide)⟩)
  simp only [PostData.ofParameters, Dictionary.takeJSON, Dictionary.stringValue, hjson,
    Dictionary.takeData, hkey, Dictionary.dataValue, hmedia, Dictionary.takeFileName, hfile,
    Option.map_some]
  congr 1
  generalize (segmentArguments mediaId segmentIndex).dictionary = rest at *
  obtain ⟨es, hes⟩ := rest
  subst hrest
  simp only [Dictionary.removeValue, Dictionary.mk.injEq, hentries]
  rfl

/-- The segment with its file, and the identifier of an `APPEND`, are fields. -/
lemma readCommand_APPEND {fs : List Part} (h : readCommand HTTPMethodType.POST.rawValue fs =
      some (.APPEND mediaId segmentIndex fileName media)) :
    (∃ p ∈ fs, p.content = media ∧ p.fileName = some (utf8 fileName.toList)) ∧
      ∃ p ∈ fs, p.content = utf8 mediaId.toList := by
  simp only [readCommand, Option.bind_eq_bind, Option.bind_eq_some_iff, if_neg post_ne_get] at h
  obtain ⟨command, -, h⟩ := h
  split_ifs at h
  all_goals simp only [Option.bind_eq_some_iff] at h
  · obtain ⟨_, -, _, -, _, -, h⟩ := h
    cases h
  · obtain ⟨file, hfile, id, hid, index, -, h⟩ := h
    cases h
    obtain ⟨p, hp, t, ht, u, hu, h⟩ := by
      simpa only [fieldFile, Option.bind_eq_bind, Option.bind_eq_some_iff] using hfile
    obtain ⟨q, hq, v, hv, rfl⟩ := by
      simpa only [fieldText, Option.bind_eq_some_iff, Option.map_eq_some_iff] using hid
    cases h
    refine ⟨⟨p, (Keyed.mem_of_lookup hp).1, rfl, ?_⟩, q, (Keyed.mem_of_lookup hq).1, ?_⟩
    · rw [String.toList_ofList, utf8_of_utf8Decode hu, ht]
    · rw [String.toList_ofList, utf8_of_utf8Decode hv]
  · obtain ⟨_, -, h⟩ := h
    cases h

/-- A segment in front of its parameters is read as an `APPEND`. -/
lemma readCommand_segment {fs : List Part} (hcommand : fieldText fs "command".toList = some "APPEND")
    (hid : fieldText fs "media_id".toList = some mediaId)
    (hindex : fieldNumber fs "segment_index".toList = some segmentIndex) :
    readCommand HTTPMethodType.POST.rawValue
        (⟨utf8 "media".toList, some (utf8 fileName.toList), media⟩ :: fs) =
      some (.APPEND mediaId segmentIndex fileName media) := by
  have hother : ∀ k ∈ ["command".toList, "media_id".toList, "segment_index".toList],
    utf8 "media".toList ≠ utf8 k := by decide
  rw [← fieldText_cons (p := ⟨utf8 "media".toList, some (utf8 fileName.toList), media⟩)
    (hother _ (.head _))] at hcommand
  rw [← fieldText_cons (p := ⟨utf8 "media".toList, some (utf8 fileName.toList), media⟩)
    (hother _ (.tail _ (.head _)))] at hid
  rw [fieldNumber, ← fieldText_cons (p := ⟨utf8 "media".toList, some (utf8 fileName.toList), media⟩)
    (hother _ (.tail _ (.tail _ (.head _)))), ← fieldNumber] at hindex
  have hfile : fieldFile (⟨utf8 "media".toList, some (utf8 fileName.toList), media⟩ :: fs)
      "media".toList = some (fileName, media) := by
    simp [fieldFile, Keyed.lookup, utf8Decode_utf8, -String.reduceToList]
  simp [readCommand, hcommand, hid, hindex, hfile, post_ne_get, -String.reduceToList]

/-- The values that go with a segment have no hyphens, the identifier apart. -/
lemma free_segmentArguments (seed : HashSeed) (segmentIndex : ℕ) :
    (∀ e ∈ sentEntries seed (segmentArguments mediaId segmentIndex).dictionary,
      Free (utf8 boundary) (utf8 e.2.description)) ↔
    Free (utf8 boundary) (utf8 mediaId.toList) := by
  have hhyphen : ∀ {t : Text}, '-' ∉ t → Free (utf8 boundary) (utf8 t) := fun ht =>
    Multipart.free_of_notMem fun hmem => ht (mem_of_mem_utf8 (by decide) hmem)
  have hindex : '-' ∉ (toString segmentIndex).toList := by
    rw [Nat.toString_eq_ofList_toDigits, String.toList_ofList]
    intro hmem
    exact absurd (Nat.isDigit_of_mem_toDigits (by decide) (by decide) hmem) (by decide)
  have hl : Sendable ((segmentArguments mediaId segmentIndex).map Prod.fst) :=
    (commandNames_sendable _ (.tail _ (.tail _ (.head _)))).1
  have hgiven : (segmentArguments mediaId segmentIndex).filterMap given =
      [("command".toList, .string "APPEND".toList), ("media_id".toList, .string mediaId.toList),
        ("segment_index".toList, .int segmentIndex)] := rfl
  simp only [sentEntries_dictionary hl, hgiven, List.forall_mem_cons]
  exact ⟨fun h => h.2.1, fun h => ⟨hhyphen (by decide), h, hhyphen hindex, nofun⟩⟩

lemma APPEND_received_iff (hsend : (MediaRequest.APPEND mediaId segmentIndex fileName media).send
      seed client timestamp nonce boundary = some r) (hboundary : '\r' ∉ boundary) :
    r.mediaRequest = some (.APPEND mediaId segmentIndex fileName media) ↔
      Quotable (utf8 fileName.toList) ∧ Free (utf8 boundary) media ∧
        Free (utf8 boundary) (utf8 mediaId.toList) := by
  have hp := ofParameters_APPEND mediaId fileName segmentIndex media
  have hl : Sendable ((segmentArguments mediaId segmentIndex).map Prod.fst) :=
    (commandNames_sendable _ (.tail _ (.tail _ (.head _)))).1
  have hurl : '?' ∉ TwitterURL.upload.relative mediaPath := by decide
  have hparse := upload_fields hsend hurl (by rw [hp]) (by rw [hp])
  have hnames : ∀ k ∈ ["command".toList, "media_id".toList, "segment_index".toList],
    Quotable (utf8 k) := by decide
  have hfields := upload_fields_iff hsend hurl (by rw [hp]) (by rw [hp]) hboundary (by decide)
    (by rw [hp]; exact fun e he => hnames _ (mem_names hl he))
  rw [hp] at hfields
  rw [mediaRequest_post hsend, ← free_segmentArguments seed segmentIndex]
  constructor
  · intro h
    obtain ⟨fs, hfs, hcommand⟩ := Option.bind_eq_some_iff.mp h
    rw [hparse] at hfs
    have hfree := Multipart.free_of_parse hfs
    obtain ⟨⟨p, hmem, rfl, hfileName⟩, q, hmem', hq⟩ := readCommand_APPEND hcommand
    exact ⟨(Multipart.quotable_of_parse hfs p hmem).2 _ hfileName, hfree p hmem,
      (free_segmentArguments seed segmentIndex).mpr (hq ▸ hfree q hmem')⟩
  · intro h
    rw [hfields.mpr h, Option.bind_some]
    exact readCommand_segment (fieldText_string seed hl (.head _))
      (fieldText_string seed hl (.tail _ (.head _)))
      (fieldNumber_entry seed hl (.tail _ (.tail _ (.head _))))

/-- What a server reads of a request that was sent. -/
lemma received_iff (hsend : request.send seed client timestamp nonce boundary = some r)
    (hboundary : '\r' ∉ boundary) :
    r.mediaRequest = some request ↔ request.Readable boundary := by
  cases request with
  | INIT totalBytes mediaType mediaCategory => exact iff_of_true (INIT_received hsend) trivial
  | APPEND mediaId segmentIndex fileName media => exact APPEND_received_iff hsend hboundary
  | FINALIZE mediaId => exact iff_of_true (FINALIZE_received hsend) trivial
  | STATUS mediaId => exact iff_of_true (STATUS_received hsend) trivial
  | tweet status mediaIds => exact iff_of_true (tweet_received hsend) trivial

/-- A request that can be signed is sent. -/
lemma exists_send (boundary : Text)
    (hlen : request.signedLength seed client timestamp nonce < 2 ^ 50) :
    ∃ r, request.send seed client timestamp nonce boundary = some r := by
  have hform : ∀ l : Arguments, l.map Prod.fst ∈ commandNames →
      signedLength seed client .upload mediaPath l.dictionary timestamp nonce false < 2 ^ 50 →
      ∃ r, client.post seed mediaPath .upload l.dictionary timestamp nonce boundary = some r := by
    intro l hl hlen
    obtain ⟨hsendable, hkeys⟩ := commandNames_sendable _ hl
    exact exists_post (by rw [ofParameters_dictionary hsendable hkeys]; exact hlen) boundary
  cases request with
  | INIT totalBytes mediaType mediaCategory => exact hform _ (.head _) hlen
  | FINALIZE mediaId => exact hform _ (.tail _ (.head _)) hlen
  | STATUS mediaId =>
    obtain ⟨authorization, hauthorization⟩ := exists_authorizationHeader .GET false hlen
    exact ⟨_, Option.bind_eq_some_iff.mpr ⟨authorization, hauthorization, rfl⟩⟩
  | tweet status mediaIds =>
    refine exists_post ?_ boundary
    have hkeys : ∀ k ∈ keys,
        k ∉ (MediaRequest.tweetArguments status mediaIds).named.map Prod.fst := by
      rw [TweetArguments.map_named]
      decide
    rw [TweetArguments.parameters_eq, ofParameters_dictionary (TweetArguments.sendable _) hkeys,
      ← TweetArguments.parameters_eq]
    exact hlen
  | APPEND mediaId segmentIndex fileName media =>
    exact exists_post (by rw [ofParameters_APPEND]; exact hlen) boundary

/-- **Every request of an upload is sent, and read as it was made if and only if it is readable**: only
a segment can be read as something else. -/
theorem mediaRequest_iff (hlen : request.signedLength seed client timestamp nonce < 2 ^ 50)
    (hboundary : '\r' ∉ boundary) :
    ∃ r, request.send seed client timestamp nonce boundary = some r ∧
      (r.mediaRequest = some request ↔ request.Readable boundary) := by
  obtain ⟨r, hr⟩ := exists_send boundary hlen
  exact ⟨r, hr, received_iff hr hboundary⟩

def sampleSend (request : MediaRequest) : Option URLRequest :=
  request.send insertionOrder sampleClient "1318622958".toList "kYjz".toList "--E621".toList

/-- A segment is read as it was made, but not one whose second line is a delimiter, nor one whose file
has a quote in its name. -/
theorem mediaRequest_iff_segments :
    (∃ r, sampleSend (.APPEND "7" 0 "cat.gif" [71, 73, 70]) = some r ∧
      r.mediaRequest = some (.APPEND "7" 0 "cat.gif" [71, 73, 70])) ∧
    (∃ r, sampleSend (.APPEND "7" 0 "cat.gif" (71 :: 13 :: 10 :: utf8 "----E621".toList)) = some r ∧
      r.mediaRequest ≠
        some (.APPEND "7" 0 "cat.gif" (71 :: 13 :: 10 :: utf8 "----E621".toList))) ∧
    ∃ r, sampleSend (.APPEND "7" 0 "a\"b.gif" [71, 73, 70]) = some r ∧
      r.mediaRequest ≠ some (.APPEND "7" 0 "a\"b.gif" [71, 73, 70]) := by
  have hboundary : '\r' ∉ "--E621".toList := by decide
  have hread : ∀ request : MediaRequest,
      request.signedLength insertionOrder sampleClient "1318622958".toList "kYjz".toList < 2 ^ 50 →
      ∃ r, sampleSend request = some r ∧
        (r.mediaRequest = some request ↔ request.Readable "--E621".toList) :=
    fun _ hlen => mediaRequest_iff hlen hboundary
  refine ⟨?_, ?_, ?_⟩
  · obtain ⟨r, hr, hiff⟩ := hread (.APPEND "7" 0 "cat.gif" [71, 73, 70]) (by decide +kernel)
    exact ⟨r, hr, hiff.mpr (by decide : Quotable (utf8 "cat.gif".toList) ∧
      Free (utf8 "--E621".toList) [71, 73, 70] ∧ Free (utf8 "--E621".toList) (utf8 "7".toList))⟩
  · obtain ⟨r, hr, hiff⟩ := hread
      (.APPEND "7" 0 "cat.gif" (71 :: 13 :: 10 :: utf8 "----E621".toList)) (by decide +kernel)
    exact ⟨r, hr, fun h => absurd (hiff.mp h).2.1 (by decide)⟩
  · obtain ⟨r, hr, hiff⟩ := hread (.APPEND "7" 0 "a\"b.gif" [71, 73, 70]) (by decide +kernel)
    exact ⟨r, hr, fun h => absurd (hiff.mp h).1 (by decide)⟩

/-- The texts of a request that are signed, the status of a tweet apart. -/
def MediaRequest.texts : MediaRequest → List Text
  | .APPEND _ _ _ _ => []
  | .tweet status mediaIds => (tweetArguments status mediaIds).texts
  | request => request.arguments.texts

section Verified

variable (htexts : ∀ t ∈ client.headerTexts timestamp nonce ++ request.texts, BracketFree t)
  (hconsumer : BracketFree client.consumerSecret) (htoken : BracketFree (tokenSecret client))
include htexts hconsumer htoken

/-- **The server accepts the signature of every request of an upload**, when the texts that are signed
have no brackets. -/
theorem send_verifies (hsend : request.send seed client timestamp nonce boundary = some r) :
    verify hmacSHA1 (utf8 client.consumerSecret) (utf8 (tokenSecret client)) r.signed =
      some true := by
  have hform : ∀ l : Arguments, l.map Prod.fst ∈ commandNames →
      client.post seed mediaPath .upload l.dictionary timestamp nonce boundary = some r →
      (∀ t ∈ client.headerTexts timestamp nonce ++ l.texts, BracketFree t) →
      verify hmacSHA1 (utf8 client.consumerSecret) (utf8 (tokenSecret client)) r.signed =
        some true := by
    intro l hl hpost hfree
    obtain ⟨hsendable, hkeys⟩ := commandNames_sendable _ hl
    exact form_verifies hpost hsendable hkeys (by decide) (by decide) hfree hconsumer htoken
  cases request with
  | INIT totalBytes mediaType mediaCategory => exact hform _ (.head _) hsend htexts
  | FINALIZE mediaId => exact hform _ (.tail _ (.head _)) hsend htexts
  | STATUS mediaId =>
    exact get_verifies hsend (commandNames_sendable _ (.tail _ (.head _))).1 (by decide) (by decide)
      htexts hconsumer htoken
  | tweet status mediaIds =>
    have hpost : client.post seed "statuses/update.json".toList .api
        (MediaRequest.tweetArguments status mediaIds).named.dictionary timestamp nonce boundary =
          some r := by
      rw [← TweetArguments.parameters_eq]
      exact hsend
    refine form_verifies hpost (TweetArguments.sendable _) ?_ (by decide) (by decide) htexts
      hconsumer htoken
    rw [TweetArguments.map_named]
    decide
  | APPEND mediaId segmentIndex fileName media =>
    have hl : Sendable ((segmentArguments mediaId segmentIndex).map Prod.fst) :=
      (commandNames_sendable _ (.tail _ (.tail _ (.head _)))).1
    have hp := ofParameters_APPEND mediaId fileName segmentIndex media
    refine post_verifies hsend ?_ ?_ ?_ (by decide) hconsumer htoken
    · rw [hp]
      exact signable_dictionary seed client timestamp nonce hl (by decide)
    · rw [hp]
      exact fun h => nomatch h
    · rw [hp]
      refine (plain_header_iff seed client timestamp nonce hl).mpr fun t ht => htexts t ?_
      exact List.mem_append_left _ ht

end Verified

end Received

end IosDevBootcamp.Swifter
