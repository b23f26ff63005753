import IosDevBootcamp.Lib.Multipart
import IosDevBootcamp.Swifter.Media
import IosDevBootcamp.Swifter.Post

/-!
# Swifter: the fields of a request

A server reads the fields of a request out of its query and its body.  From a multipart body they come
back exactly when no line of the data and of the values begins as a delimiter, and the name of the file,
which is written as it is, has no quote and no line break.  The boundary is a fresh one for that.
-/

namespace IosDevBootcamp.Swifter

open IosDevBootcamp.Lib IosDevBootcamp.Lib.Percent IosDevBootcamp.Lib.OAuth1
open IosDevBootcamp.Lib.Multipart (Part Entity Writes Free Quotable)

/-! ### Reading -/

def multipartForm : Text := "multipart/form-data; boundary=".toList

/-- The boundary, if the body is said to have parts. -/
def URLRequest.boundary (r : URLRequest) : Option (List UInt8) :=
  (r.value HTTPRequest.contentType).bind fun t =>
    if multipartForm <+: t then some (utf8 (t.drop multipartForm.length)) else none

def fieldOf (p : Parameter) : Part := ⟨p.1, none, p.2⟩

def URLRequest.fields (r : URLRequest) : Option (List Part) := do
  let query ← queryParameters ((r.url.dropWhile (· != '?')).drop 1)
  let body ← match r.boundary with
    | some boundary => Multipart.parse boundary r.body
    | none => (queryParameters r.form).map (·.map fieldOf)
  return query.map fieldOf ++ body

/-! ### The parts of an upload -/

/-- What is written for an upload with a file name. -/
def uploadEntity (name fileName : Text) (data : Data) : Entity where
  header := [Multipart.disposition (utf8 name) (some (utf8 fileName)),
    utf8 "Content-Type: application/octet-stream".toList]
  content := data

def parameterEntity (e : Entry) : Entity where
  header := [Multipart.disposition (utf8 e.1) none]
  content := utf8 e.2.description

section Written

variable {t name fileName boundary : Text} {data : Data} {e : Entry} {b : UInt8}

lemma writes_upload (hname : Quotable (utf8 name)) (hfileName : Quotable (utf8 fileName)) :
    Writes (uploadEntity name fileName data) ⟨utf8 name, some (utf8 fileName), data⟩ := by
  refine Multipart.writes_disposition hname ?_ ?_
  · rintro t ⟨⟩
    exact hfileName
  · exact List.forall_mem_singleton.mpr (by decide)

lemma writes_parameter (hname : Quotable (utf8 e.1)) :
    Writes (parameterEntity e) (fieldOf (parameter e)) :=
  Multipart.writes_disposition hname nofun nofun

lemma utf8_crlf : utf8 HTTPRequest.crlf = Multipart.crlf := by decide

lemma utf8_hyphens : utf8 "--".toList = Multipart.hyphens := by decide

lemma utf8_quote : utf8 "\"".toList = [Multipart.quote] := by decide

lemma utf8_field : utf8 "Content-Disposition: form-data; name=\"".toList =
    Multipart.field ++ [Multipart.quote] := by decide

lemma parameterContent_eq : HTTPRequest.parameterContent boundary e =
    Multipart.crlf ++ (Multipart.hyphens ++ (utf8 boundary ++
      (Multipart.crlf ++ (parameterEntity e).bytes))) := by
  simp only [HTTPRequest.parameterContent, parameterEntity, Entity.bytes, Multipart.disposition,
    List.flatMap_singleton, utf8_append, utf8_crlf, utf8_hyphens, utf8_quote, utf8_field,
    List.append_assoc, List.cons_append, List.nil_append]

lemma utf8_fileName : utf8 "\"; ".toList ++ utf8 "filename=\"".toList =
    Multipart.quote :: (Multipart.fileNameParameter ++ [Multipart.quote]) := by decide

lemma utf8_mimeType : utf8 "Content-Type: ".toList ++ utf8 "application/octet-stream".toList =
    utf8 "Content-Type: application/octet-stream".toList := by decide

lemma mulipartContent_eq : HTTPRequest.mulipartContent boundary
      ⟨data, name, some "application/octet-stream".toList, some fileName⟩ =
    Multipart.hyphens ++ (utf8 boundary ++
      (Multipart.crlf ++ (uploadEntity name fileName data).bytes)) := by
  have hfile : ∀ l, utf8 "\"; ".toList ++ (utf8 "filename=\"".toList ++ l) =
      Multipart.quote :: (Multipart.fileNameParameter ++ Multipart.quote :: l) := fun l => by
    rw [← List.append_assoc, utf8_fileName]
    simp
  have hmime : ∀ l, utf8 "Content-Type: ".toList ++ (utf8 "application/octet-stream".toList ++ l) =
      utf8 "Content-Type: application/octet-stream".toList ++ l := fun l => by
    rw [← List.append_assoc, utf8_mimeType]
  simp only [HTTPRequest.mulipartContent, uploadEntity, Entity.bytes, Multipart.disposition,
    Option.getD_some, List.flatMap_cons, List.flatMap_nil, utf8_append, utf8_crlf, utf8_hyphens,
    utf8_quote, utf8_field, hfile, hmime, List.append_assoc, List.cons_append, List.nil_append,
    List.append_nil]

/-- The parameters after a part, and the end of the body. -/
lemma flatMap_parameterContent (es : List Entry) :
    es.flatMap (HTTPRequest.parameterContent boundary) ++
        utf8 (HTTPRequest.crlf ++ "--".toList ++ boundary ++ "--".toList ++ HTTPRequest.crlf) =
      Multipart.crlf ++ Multipart.write (utf8 boundary) (es.map parameterEntity) := by
  induction es with
  | nil =>
    simp only [List.flatMap_nil, List.map_nil, Multipart.write, utf8_append, utf8_crlf,
      utf8_hyphens, List.append_assoc, List.nil_append, List.append_nil]
  | cons e es ih =>
    rw [List.flatMap_cons, List.append_assoc, ih, parameterContent_eq]
    simp only [List.map_cons, Multipart.write, List.append_assoc]

/-- The body of an upload and its parameters. -/
lemma multipartBody_eq (boundary : Text) (seed : HashSeed) (r : HTTPRequest) (d : Dictionary)
    (hr : r.uploadData =
      [⟨data, name, some "application/octet-stream".toList, some fileName⟩]) :
    r.multipartBody seed boundary d = Multipart.write (utf8 boundary)
      (uploadEntity name fileName data :: (seed.iterate d).map parameterEntity) := by
  rw [HTTPRequest.multipartBody, hr, List.append_assoc, flatMap_parameterContent,
    List.flatMap_singleton, mulipartContent_eq, Multipart.write]
  simp only [List.append_assoc]

end Written

/-! ### The fields of a post -/

section Fields

open OAuthClient HashSeed DataParameters

variable {seed : HashSeed} {client : OAuthClient} {path timestamp nonce boundary key : Text}
  {baseURL : TwitterURL} {d : Dictionary} {data : Data} {r : URLRequest}

/-- The entries that are sent in the body or in the query. -/
def sentEntries (seed : HashSeed) (d : Dictionary) : List Entry :=
  seed.iterate (seed.filter (fun e => !isOAuth e) d)

/-- The fields of entries. -/
def entryFields (es : List Entry) : List Part := es.map fun e => fieldOf (parameter e)

/-- A request that `post` has started. -/
lemma post_started (hpost : client.post seed path baseURL d timestamp nonce boundary = some r) :
    ∃ authorization, r = HTTPRequest.start seed boundary
      { HTTPRequest.make (baseURL.relative path) .POST (PostData.ofParameters d).parameters with
        headers := [("Authorization".toList, authorization)]
        encodeParameters := (PostData.ofParameters d).postData.isNone
        uploadData := (PostData.ofParameters d).uploadData
        jsonBody := (PostData.ofParameters d).jsonBody } := by
  obtain ⟨authorization, -, hr⟩ := Option.bind_eq_some_iff.mp hpost
  exact ⟨authorization, (Option.some_inj.mp hr).symm⟩

/-- No query stands in an address without one. -/
lemma no_query {url : Text} (hurl : '?' ∉ url) :
    queryParameters ((url.dropWhile (· != '?')).drop 1) = some [] := by
  have hquery := (splits_url hurl []).2
  rw [appendQueryString, if_pos rfl] at hquery
  rw [hquery]
  rfl

/-- A form is not said to have parts. -/
lemma boundary_none (hr : r.value HTTPRequest.contentType = some HTTPRequest.urlEncodedForm ∨
    r.value HTTPRequest.contentType = none) : r.boundary = none := by
  have hform : ¬ multipartForm <+: HTTPRequest.urlEncodedForm := by decide
  rcases hr with hr | hr
  · rw [URLRequest.boundary, hr, Option.bind_some, if_neg hform]
  · rw [URLRequest.boundary, hr, Option.bind_none]

/-- The parameters of a form are its fields. -/
theorem form_fields (hpost : client.post seed path baseURL d timestamp nonce boundary = some r)
    (hurl : '?' ∉ baseURL.relative path) (hjson : (PostData.ofParameters d).jsonBody = none)
    (hdata : (PostData.ofParameters d).postData = none) :
    r.fields = some (entryFields (sentEntries seed (PostData.ofParameters d).parameters)) := by
  obtain ⟨authorization, hr⟩ := post_started hpost
  obtain ⟨signature, -, hsigned⟩ := post_signed hpost
  have hupload : (PostData.ofParameters d).uploadData = [] := by
    rw [PostData.uploadData, hdata]
    rfl
  have hnone : r.boundary = none := by
    rw [hjson, hupload] at hr
    change r = if (seed.filter (fun e => !isOAuth e) _).entries ≠ [] then _ else _ at hr
    split at hr
    · exact boundary_none (Or.inl (by rw [hr, hdata]; rfl))
    · exact boundary_none (Or.inr (by rw [hr]; rfl))
  have haddress : r.url = baseURL.relative path := congrArg SignedRequest.url hsigned
  have hform : r.form = seed.urlEncodedQueryString (seed.filter (fun e => !isOAuth e)
      (PostData.ofParameters d).parameters) := by
    have h := congrArg SignedRequest.form hsigned
    rw [PostData.formParameters, hjson, hdata] at h
    exact h
  rw [URLRequest.fields, haddress, no_query hurl, hnone, hform,
    queryParameters_urlEncodedQueryString]
  simp [entryFields, sentEntries]

/-- The parameters of a query are its fields. -/
theorem query_fields (hget : client.get seed path baseURL d timestamp nonce boundary = some r)
    (hurl : '?' ∉ baseURL.relative path) : r.fields = some (entryFields (sentEntries seed d)) := by
  obtain ⟨signature, -, hsigned⟩ := get_signed hget
  have hnone : r.boundary = none := by
    obtain ⟨authorization, -, hr⟩ := Option.bind_eq_some_iff.mp hget
    replace hr := (Option.some_inj.mp hr).symm
    change r = if (seed.filter (fun e => !isOAuth e) d).entries ≠ [] then _ else _ at hr
    split at hr
    · exact boundary_none (Or.inl (by rw [hr]; rfl))
    · exact boundary_none (Or.inr (by rw [hr]; rfl))
  have haddress : r.url = appendQueryString (baseURL.relative path)
      (seed.urlEncodedQueryString (seed.filter (fun e => !isOAuth e) d)) :=
    congrArg SignedRequest.url hsigned
  have hform : r.form = [] := congrArg SignedRequest.form hsigned
  have hempty : queryParameters [] = some [] := rfl
  rw [URLRequest.fields, haddress, (splits_url hurl _).2, queryParameters_urlEncodedQueryString,
    hnone, hform, hempty]
  simp [entryFields, sentEntries]

/-- The name of the file of an upload. -/
def PostData.fileName (p : PostData) : Text := p.postDataFileName.getD "media.jpg".toList

lemma upload_fields (hpost : client.post seed path baseURL d timestamp nonce boundary = some r)
    (hurl : '?' ∉ baseURL.relative path) (hjson : (PostData.ofParameters d).jsonBody = none)
    (hdata : (PostData.ofParameters d).postData = some (key, data)) :
    r.fields = Multipart.parse (utf8 boundary) (Multipart.write (utf8 boundary)
      (uploadEntity key (PostData.ofParameters d).fileName data ::
        (sentEntries seed (PostData.ofParameters d).parameters).map parameterEntity)) := by
  obtain ⟨authorization, hr⟩ := post_started hpost
  have hupload : (PostData.ofParameters d).uploadData = [⟨data, key,
      some "application/octet-stream".toList, some (PostData.ofParameters d).fileName⟩] := by
    rw [PostData.uploadData, hdata]
    rfl
  rw [hjson, hupload, hdata] at hr
  have haddress : r.url = baseURL.relative path := by rw [hr]; rfl
  have hboundary : r.boundary = some (utf8 boundary) := by
    have htype : r.value HTTPRequest.contentType = some (multipartForm ++ boundary) := by
      rw [hr]; rfl
    rw [URLRequest.boundary, htype, Option.bind_some, if_pos (List.prefix_append _ _),
      List.drop_left]
  have hbody : r.body = Multipart.write (utf8 boundary)
      (uploadEntity key (PostData.ofParameters d).fileName data ::
        (sentEntries seed (PostData.ofParameters d).parameters).map parameterEntity) := by
    rw [sentEntries, ← multipartBody_eq boundary seed
      { HTTPRequest.make (baseURL.relative path) .POST (PostData.ofParameters d).parameters with
        headers := [("Authorization".toList, authorization)]
        uploadData := [⟨data, key, some "application/octet-stream".toList,
          some (PostData.ofParameters d).fileName⟩] } _ rfl]
    exact body_eq (by rw [hr]; rfl) (by rw [hr]; rfl)
  rw [URLRequest.fields, haddress, no_query hurl, hboundary, hbody]
  simp

/-- **An upload comes back if and only if its file has a name that can be quoted and no line of the data
and the values begins as a delimiter.** -/
theorem upload_fields_iff
    (hpost : client.post seed path baseURL d timestamp nonce boundary = some r)
    (hurl : '?' ∉ baseURL.relative path) (hjson : (PostData.ofParameters d).jsonBody = none)
    (hdata : (PostData.ofParameters d).postData = some (key, data)) (hboundary : '\r' ∉ boundary)
    (hkey : Quotable (utf8 key))
    (hnames : ∀ e ∈ (PostData.ofParameters d).parameters.entries, Quotable (utf8 e.1)) :
    r.fields = some (⟨utf8 key, some (utf8 (PostData.ofParameters d).fileName), data⟩ ::
        entryFields (sentEntries seed (PostData.ofParameters d).parameters)) ↔
      Quotable (utf8 (PostData.ofParameters d).fileName) ∧ Free (utf8 boundary) data ∧
        ∀ e ∈ sentEntries seed (PostData.ofParameters d).parameters,
          Free (utf8 boundary) (utf8 e.2.description) := by
  rw [upload_fields hpost hurl hjson hdata]
  rw [← and_iff_right_of_imp (a := Quotable (utf8 (PostData.ofParameters d).fileName)) fun h =>
    (Multipart.quotable_of_parse h _ List.mem_cons_self).2 _ rfl]
  refine and_congr_right fun hfileName => ?_
  -- Each part with what is written for it.
  let written : List (Entity × Part) :=
    (uploadEntity key (PostData.ofParameters d).fileName data,
      ⟨utf8 key, some (utf8 (PostData.ofParameters d).fileName), data⟩) ::
    (sentEntries seed (PostData.ofParameters d).parameters).map fun e =>
      (parameterEntity e, fieldOf (parameter e))
  have hwrites : ∀ p ∈ written, Writes p.1 p.2 := by
    refine List.forall_mem_cons.mpr ⟨writes_upload hkey hfileName, ?_⟩
    refine List.forall_mem_map.mpr fun e he => writes_parameter (hnames e ?_)
    exact (mem_filter.mp (mem_iterate.mp he)).1
  have hcr : 13 ∉ utf8 boundary := fun hmem => hboundary (mem_of_mem_utf8 (by decide) hmem)
  have hread := Multipart.parse_write_iff hcr hwrites
  simp only [written, List.map_cons, List.map_map, List.forall_mem_cons, List.forall_mem_map]
    at hread
  exact hread

end Fields

end IosDevBootcamp.Swifter
