import IosDevBootcamp.Swifter.Commands

/-!
# Swifter: uploads over the wire

The uploads again, with a server that receives no requests but what it reads: it takes the request out of
what was sent and checks its signature, and what it cannot read or does not accept it has not received.
Where boundaries are fresh it reads only what the uploads have asked for, so all that holds of uploads
holds over the wire.
-/

namespace IosDevBootcamp.Swifter

open IosDevBootcamp.Lib IosDevBootcamp.Lib.Percent IosDevBootcamp.Lib.OAuth1
open IosDevBootcamp.Lib.Multipart (Quotable)

/-! ### The system -/

/-- What a request has of the process and the moment it is sent in. -/
structure Transport where
  seed : HashSeed
  timestamp : Text
  nonce : Text
  boundary : Text

inductive WireEvent
  /-- An event about the uploads alone. -/
  | event (e : Event)
  /-- The request of an upload is sent and arrives, and the server answers. -/
  | deliver (upload : ℕ) (response : Response) (transport : Transport)

/-- The event of the uploads. -/
def WireEvent.toEvent : WireEvent → Event
  | .event e => e
  | .deliver i response _ => .deliver i response

variable (parse : Parser) (client : OAuthClient)

def MediaRequest.sendOver (request : MediaRequest) (t : Transport) : Option URLRequest :=
  request.send t.seed client t.timestamp t.nonce t.boundary

/-- What the server reads, if the signature is the one it computes. -/
def URLRequest.received (r : URLRequest) : Option MediaRequest :=
  if verify hmacSHA1 (utf8 client.consumerSecret) (utf8 (tokenSecret client)) r.signed =
      some true then r.mediaRequest
  else none

namespace System

variable (s : System)

/-- A request that is not sent does not arrive. -/
def wireDeliverStep (response : Response) (t : Transport) (i : ℕ) (u : Upload) :
    Except Fault System :=
  match u.phase with
  | .sent request =>
    match request.sendOver client t with
    | some r => .ok { s.setUpload i { u with phase := .answered request response } with
        received := s.received ++ ((r.received client).map fun q => (i, q)).toList }
    | none => .error .disabled
  | _ => .error .disabled

def wireStep : WireEvent → Except Fault System
  | .event (.deliver _ _) => .error .disabled
  | .event e => s.step parse e
  | .deliver i response t => s.withUpload i (s.wireDeliverStep client response t)

end System

/-! ### Fresh boundaries -/

/-- The delimiter of a boundary occurs in no data and no identifier, and no file has a name that breaks
a header. -/
structure Upload.Fresh (u : Upload) (t : Transport) : Prop where
  boundary : '\r' ∉ t.boundary
  data : ¬ Multipart.hyphens ++ utf8 t.boundary <:+: u.data
  mediaId : ∀ id ∈ u.mediaId, ¬ Multipart.hyphens ++ utf8 t.boundary <:+: utf8 id.toList
  name : ∀ name ∈ u.name, Quotable (utf8 name.toList)

/-- The boundary is fresh for the upload whose request is sent. -/
def WireEvent.Fresh (s : System) : WireEvent → Prop
  | .deliver i _ t => ∀ u ∈ s.uploads[i]?, u.Fresh t
  | .event _ => True

section Fresh

variable {client} {u : Upload} {t : Transport} {l : List MediaRequest} {request : MediaRequest}
  {r : URLRequest}

/-- A request that an upload makes can be read. -/
lemma Upload.Fresh.read (h : u.Fresh t) (hmakes : u.Makes l request)
    (hsend : request.sendOver client t = some r) : r.mediaRequest = some request := by
  refine (received_iff hsend h.boundary).mpr ?_
  cases request with
  | APPEND id i name data =>
    obtain ⟨-, hid, -, rfl, rfl, -⟩ := hmakes
    have hsub : Segments.segment chunkSize u.data i <:+: u.data :=
      (List.take_prefix _ _).isInfix.trans (List.drop_suffix _ _).isInfix
    refine ⟨?_, Multipart.free_of_not_infix fun h' => h.data (h'.trans hsub),
      Multipart.free_of_not_infix (h.mediaId id hid)⟩
    cases hname : u.name with
    | none => exact (by decide : Quotable (utf8 "Swifter.media".toList))
    | some name => exact h.name name hname
  | _ => trivial

end Fresh

/-- The request is made of texts without brackets that can be signed. -/
structure MediaRequest.Signable (client : OAuthClient) (t : Transport) (request : MediaRequest) :
    Prop where
  texts : ∀ text ∈ client.headerTexts t.timestamp t.nonce ++ request.texts, BracketFree text
  length : request.signedLength t.seed client t.timestamp t.nonce < 2 ^ 50

/-- Only deliveries hand requests over, under fresh boundaries and with texts without brackets. -/
def WireEvent.Proper (client : OAuthClient) (s : System) : WireEvent → Prop
  | .deliver i _ t => ∀ u ∈ s.uploads[i]?,
    u.Fresh t ∧ ∀ request, u.phase = .sent request → request.Signable client t
  | .event (.deliver _ _) => False
  | .event _ => True

/-! ### Refinement -/

section Refinement

variable {parse client} {s s' a a' : System} {e : WireEvent} {i : ℕ} {u : Upload}
  {request : MediaRequest} {r : URLRequest} {response : Response} {t : Transport}

/-- The server over the wire has received a part of what it receives without it. -/
structure Reads (s a : System) : Prop where
  uploads : s.uploads = a.uploads
  received : s.received.Sublist a.received

lemma step_deliver (hu : s.uploads[i]? = some u) (hphase : u.phase = .sent request) :
    s.step parse (.deliver i response) =
      .ok { s.setUpload i { u with phase := .answered request response } with
        received := s.received ++ [(i, request)] } := by
  simp only [System.step, System.withUpload, hu, System.deliverStep, hphase]

/-- An event that delivers nothing does not look at what was received. -/
lemma Reads.step (h : Reads s a) {e : Event} (he : ∀ i response, e ≠ .deliver i response)
    (hstep : s.step parse e = .ok s') : ∃ a', a.step parse e = .ok a' ∧ Reads s' a' := by
  obtain ⟨us, received⟩ := s
  obtain ⟨us', received'⟩ := a
  obtain ⟨rfl, hsub⟩ := h
  cases e with
  | postMultipartMedia startIndex media name type category =>
    obtain rfl := Except.ok.inj hstep
    exact ⟨_, rfl, rfl, hsub⟩
  | postTweetWithGif contents lastPathComponent text =>
    obtain rfl := Except.ok.inj hstep
    exact ⟨_, rfl, rfl, hsub⟩
  | deliver i response => exact absurd rfl (he i response)
  | respond i =>
    obtain ⟨u, hu, hstep⟩ := withUpload_ok hstep
    obtain ⟨request, response, u', hphase, hu', rfl⟩ := System.respondStep_ok hstep
    refine ⟨⟨us.set i u', received'⟩, ?_, rfl, hsub⟩
    change us[i]? = some u at hu
    simp only [System.step, System.withUpload, hu, System.respondStep, hphase, hu']
    rfl
  | fail i code =>
    obtain ⟨u, hu, hstep⟩ := withUpload_ok hstep
    obtain ⟨hphase, rfl⟩ := System.failStep_ok hstep
    refine ⟨⟨us.set i (u.call (.failure (.connection code))), received'⟩, ?_, rfl, hsub⟩
    change us[i]? = some u at hu
    simp only [System.step, System.withUpload, hu, System.failStep]
    rcases hphase with ⟨request, hphase⟩ | ⟨request, response, hphase⟩ <;> simp only [hphase] <;> rfl
  | fire i =>
    obtain ⟨u, hu, hstep⟩ := withUpload_ok hstep
    obtain ⟨id, hphase, rfl⟩ := System.fireStep_ok hstep
    refine ⟨⟨us.set i (u.send (.STATUS id)), received'⟩, ?_, rfl, hsub⟩
    change us[i]? = some u at hu
    simp only [System.step, System.withUpload, hu, System.fireStep, hphase]
    rfl

/-- **What arrives is what was sent, or nothing that was asked for.** -/
lemma Reads.wireStep (h : Reads s a) (ha : Inv a) (hfresh : e.Fresh s)
    (hstep : s.wireStep parse client e = .ok s') :
    ∃ a', a.step parse e.toEvent = .ok a' ∧ Reads s' a' ∧ Inv a' := by
  suffices hs : ∃ a', a.step parse e.toEvent = .ok a' ∧ Reads s' a' by
    obtain ⟨a', ha', hreads⟩ := hs
    exact ⟨a', ha', hreads, step_inv ha ha'⟩
  cases e with
  | event e =>
    have hne : ∀ i response, e ≠ .deliver i response := by
      rintro i response rfl
      cases hstep
    cases e with
    | deliver i response => exact absurd rfl (hne i response)
    | _ => exact h.step hne hstep
  | deliver i response t =>
    obtain ⟨u, hu, hstep⟩ := withUpload_ok hstep
    have hu' : a.uploads[i]? = some u := h.uploads ▸ hu
    have hwf := ha.wellFormed i u hu'
    unfold System.wireDeliverStep at hstep
    split at hstep
    · rename_i request hphase
      rw [Upload.WellFormed, hphase] at hwf
      split at hstep
      · rename_i r hsend
        obtain rfl := Except.ok.inj hstep
        refine ⟨_, step_deliver hu' hphase, ?_, ?_⟩
        · exact congrArg (·.set i { u with phase := .answered request response }) h.uploads
        · have hread := (hfresh u hu).read hwf.1 hsend
          refine List.Sublist.append h.received ?_
          rw [URLRequest.received]
          split
          · rw [hread]
            exact List.Sublist.refl _
          · exact List.nil_sublist _
      · cases hstep
    · cases hstep

variable (hconsumer : BracketFree client.consumerSecret) (htoken : BracketFree (tokenSecret client))
include hconsumer htoken

/-- Where nothing is refused, a delivery is what the server is handed without the wire. -/
lemma wireStep_eq (s : System) (e : WireEvent) (hs : Inv s) (hproper : e.Proper client s) :
    s.wireStep parse client e = s.step parse e.toEvent := by
  cases e with
  | event e =>
    cases e with
    | deliver i response => exact hproper.elim
    | _ => rfl
  | deliver i response t =>
    cases hu : s.uploads[i]? with
    | none => simp only [System.wireStep, WireEvent.toEvent, System.step, System.withUpload, hu]
    | some u =>
      obtain ⟨hfresh, hsignable⟩ := hproper u hu
      have hwf := hs.wellFormed i u hu
      cases hphase : u.phase with
      | sent request =>
        rw [Upload.WellFormed, hphase] at hwf
        obtain ⟨htexts, hlength⟩ := hsignable request hphase
        obtain ⟨r, hsend⟩ := exists_send t.boundary hlength
        have hreceived : r.received client = some request := by
          rw [URLRequest.received, if_pos (send_verifies htexts hconsumer htoken hsend)]
          exact hfresh.read hwf.1 hsend
        rw [WireEvent.toEvent, step_deliver hu hphase]
        simp only [System.wireStep, System.withUpload, hu, System.wireDeliverStep, hphase]
        rw [MediaRequest.sendOver, hsend]
        simp only [hreceived, Option.map_some, Option.toList_some]
      | _ =>
        simp only [System.wireStep, WireEvent.toEvent, System.step, System.withUpload, hu,
          System.wireDeliverStep, System.deliverStep, hphase]

end Refinement

/-! ### A run -/

def sampleTransport : Transport where
  seed := insertionOrder
  timestamp := "1318622958".toList
  nonce := "kYjz".toList
  boundary := "--E621E1F8-C36C".toList

/-- A picture is uploaded, as far as its first segment. -/
def wireRun : List WireEvent :=
  [.event (.postMultipartMedia 0 [71, 73, 70] (some "cat.gif") .gif .gif),
    .deliver 0 (ok idAnswer) sampleTransport, .event (.respond 0), .deliver 0 (ok []) sampleTransport]

lemma sampleClient_bracketFree :
    BracketFree sampleClient.consumerSecret ∧ BracketFree (tokenSecret sampleClient) := by decide

lemma sample_signable (request : MediaRequest)
    (h : request = .INIT 3 "image/gif" "tweet_gif" ∨ request = .APPEND "7" 0 "cat.gif" [71, 73, 70]) :
    request.Signable sampleClient sampleTransport := by
  rcases h with rfl | rfl
  · exact ⟨by decide, by decide +kernel⟩
  · exact ⟨by decide, by decide +kernel⟩

lemma sample_wireStep (s : System) (e : WireEvent) (hs : Inv s) (hproper : e.Proper sampleClient s) :
    s.wireStep sampleParser sampleClient e = s.step sampleParser e.toEvent :=
  wireStep_eq sampleClient_bracketFree.1 sampleClient_bracketFree.2 s e hs hproper

lemma step_keeps (s : System) (e : Event) (s' : System) (hs : Inv s)
    (h : s.step sampleParser e = .ok s') : Inv s' := step_inv hs h

lemma wireRun_proper : Run.Along (System.wireStep sampleParser sampleClient)
    (fun s e => e.Proper sampleClient s) System.launch wireRun := by
  refine Run.along_of_eq sample_wireStep step_keeps launch_inv ⟨trivial, ?_, trivial, ?_, trivial⟩
  · rintro u ⟨⟩
    refine ⟨⟨by decide, by decide, nofun, by decide⟩, ?_⟩
    rintro request ⟨⟩
    exact sample_signable _ (Or.inl rfl)
  · rintro u ⟨⟩
    refine ⟨⟨by decide, by decide, by decide, by decide⟩, ?_⟩
    rintro request ⟨⟩
    exact sample_signable _ (Or.inr rfl)

lemma WireEvent.Proper.fresh {client : OAuthClient} (s : System) (e : WireEvent)
    (h : e.Proper client s) : e.Fresh s := by
  cases e with
  | event e => trivial
  | deliver i response => exact fun u hu => (h u hu).1

/-! ### Results -/

section Results

variable {parse client} {s : System} {es : List WireEvent}

/-- **Over the wire the uploads do only what they do without it, and the server reads only requests that
they have made**, in their order. -/
theorem wire_refines (hfresh : Run.Along (System.wireStep parse client) (fun s e => e.Fresh s)
      System.launch es) (h : Run.run (System.wireStep parse client) System.launch es = .ok s) :
    ∃ a, Run.run (System.step parse) System.launch (es.map WireEvent.toEvent) = .ok a ∧
      s.uploads = a.uploads ∧ s.received.Sublist a.received := by
  obtain ⟨a, ha, hreads, -⟩ := Run.run_simulates (R := fun s a => Reads s a ∧ Inv a)
    (fun _ _ _ _ hs hP hstep => hs.1.wireStep hs.2 hP hstep)
    ⟨⟨rfl, List.Sublist.refl _⟩, launch_inv⟩ hfresh h
  exact ⟨a, ha, hreads.uploads, hreads.received⟩

theorem wire_refines_picture : ∃ s a : System,
    Run.run (System.wireStep sampleParser sampleClient) System.launch wireRun = .ok s ∧
    Run.run (System.step sampleParser) System.launch (wireRun.map WireEvent.toEvent) = .ok a ∧
    s.received.Sublist a.received ∧
    s.received = [(0, .INIT 3 "image/gif" "tweet_gif"), (0, .APPEND "7" 0 "cat.gif" [71, 73, 70])] := by
  obtain ⟨s, hs, hreceived⟩ : ∃ s : System,
      Run.run (System.wireStep sampleParser sampleClient) System.launch wireRun = .ok s ∧
        s.received =
          [(0, .INIT 3 "image/gif" "tweet_gif"), (0, .APPEND "7" 0 "cat.gif" [71, 73, 70])] :=
    ⟨_, Run.run_eq_along sample_wireStep step_keeps launch_inv wireRun_proper, rfl⟩
  obtain ⟨a, ha, -, hsub⟩ :=
    wire_refines (wireRun_proper.imp fun s e => WireEvent.Proper.fresh s e) hs
  exact ⟨s, a, hs, ha, hsub, hreceived⟩

/-- **Under fresh boundaries and without brackets the wire makes no difference**: requests are sent, read
as they were made, and none is refused for its signature. -/
theorem wire_run_eq (hconsumer : BracketFree client.consumerSecret)
    (htoken : BracketFree (tokenSecret client))
    (hproper : Run.Along (System.wireStep parse client) (fun s e => e.Proper client s)
      System.launch es) : Run.run (System.wireStep parse client) System.launch es =
    Run.run (System.step parse) System.launch (es.map WireEvent.toEvent) :=
  Run.run_eq_along (wireStep_eq hconsumer htoken) (fun _ _ _ hs h => step_inv hs h) launch_inv hproper

theorem wire_run_eq_picture : ∃ s : System,
    Run.run (System.wireStep sampleParser sampleClient) System.launch wireRun = .ok s ∧
      s.received =
        [(0, .INIT 3 "image/gif" "tweet_gif"), (0, .APPEND "7" 0 "cat.gif" [71, 73, 70])] :=
  ⟨_, wire_run_eq sampleClient_bracketFree.1 sampleClient_bracketFree.2 wireRun_proper, rfl⟩

end Results

end IosDevBootcamp.Swifter
