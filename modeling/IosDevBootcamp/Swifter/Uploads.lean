import IosDevBootcamp.Swifter.Upload

/-!
# Swifter: uploads side by side

Whatever the server answers, whatever the order of requests, responses and failures, and however many
uploads run at a time: an upload calls one handler, what the server has received of it is a beginning of
its script, and all of it when the success handler is called.
-/

namespace IosDevBootcamp.Swifter

open IosDevBootcamp.Lib IosDevBootcamp.Lib.Segments IosDevBootcamp.Lib.Percent
open IosDevBootcamp.Twittermenti (JSON)

/-! ### The system -/

/-- Each upload has sent what the server has received of it, and nothing is of an upload that there is
not. -/
structure Inv (s : System) : Prop where
  wellFormed : ∀ i (u : Upload), s.uploads[i]? = some u → u.WellFormed (s.receivedOf i)
  known : ∀ p ∈ s.received, p.1 < s.uploads.length

section Invariant

variable {s : System} {u u' : Upload} {i : ℕ}

lemma launch_inv : Inv System.launch where
  wellFormed := fun i u hu => by
    rw [show System.launch.uploads = [] from rfl, List.getElem?_nil] at hu
    cases hu
  known := fun p hp => absurd hp List.not_mem_nil

/-- A new upload has sent nothing. -/
lemma Inv.append (h : Inv s) (hwf : u.WellFormed []) :
    Inv { s with uploads := s.uploads ++ [u] } where
  wellFormed := fun j v hv => by
    rcases Nat.lt_or_ge j s.uploads.length with hj | hj
    · rw [List.getElem?_append_left hj] at hv
      exact h.wellFormed j v hv
    · have hnil : s.receivedOf j = [] := by
        rw [System.receivedOf, List.filter_eq_nil_iff.mpr, List.map_nil]
        intro p hp
        have hlt := h.known p hp
        simp only [decide_eq_true_eq]
        omega
      rw [List.getElem?_append_right hj, List.getElem?_singleton] at hv
      split at hv <;> cases hv
      exact hnil ▸ hwf
  known := fun p hp => by
    have hlt := h.known p hp
    simp only [List.length_append]
    omega

/-- An upload moves on. -/
lemma Inv.set (h : Inv s) (hu : s.uploads[i]? = some u) (hwf : u'.WellFormed (s.receivedOf i)) :
    Inv (s.setUpload i u') where
  wellFormed := fun j v hv => by
    by_cases hij : i = j
    · subst hij
      rw [System.setUpload, List.getElem?_set_self (List.getElem?_eq_some_iff.mp hu).1] at hv
      cases hv
      exact hwf
    · rw [System.setUpload, List.getElem?_set_ne hij] at hv
      exact h.wellFormed j v hv
  known := fun p hp => by
    rw [System.setUpload, List.length_set]
    exact h.known p hp

/-- What the server receives is of one upload. -/
lemma receivedOf_append (s : System) (us : List Upload) (i j : ℕ) (request : MediaRequest) :
    (System.mk us (s.received ++ [(i, request)])).receivedOf j =
      s.receivedOf j ++ if i = j then [request] else [] := by
  by_cases hij : i = j <;> simp [System.receivedOf, hij]

/-- The request of an upload is received. -/
lemma Inv.deliver (h : Inv s) (hu : s.uploads[i]? = some u) {request : MediaRequest}
    (hphase : u.phase = .sent request) (response : Response) :
    Inv { s.setUpload i { u with phase := .answered request response } with
      received := s.received ++ [(i, request)] } where
  wellFormed := fun j v hv => by
    change (s.uploads.set i _)[j]? = some v at hv
    rw [receivedOf_append]
    by_cases hij : i = j
    · subst hij
      rw [List.getElem?_set_self (List.getElem?_eq_some_iff.mp hu).1] at hv
      cases hv
      rw [if_pos rfl]
      exact wellFormed_answered hphase (h.wellFormed i u hu) response
    · rw [List.getElem?_set_ne hij] at hv
      rw [if_neg hij, List.append_nil]
      exact h.wellFormed j v hv
  known := fun p hp => by
    change p.1 < (s.uploads.set i _).length
    rw [List.length_set]
    rcases List.mem_append.mp hp with hp | hp
    · exact h.known p hp
    · rw [List.mem_singleton.mp hp]
      exact (List.getElem?_eq_some_iff.mp hu).1

end Invariant

section Steps

variable {parse : Parser} {s s' : System} {e : Event} {i : ℕ} {u : Upload}

/-- A step about an upload is a step of one that there is. -/
lemma withUpload_ok {f : ℕ → Upload → Except Fault System} (h : s.withUpload i f = .ok s') :
    ∃ u, s.uploads[i]? = some u ∧ f i u = .ok s' := by
  unfold System.withUpload at h
  split at h
  · rename_i u hu
    exact ⟨u, hu, h⟩
  · cases h

lemma System.deliverStep_ok {response : Response} (h : s.deliverStep response i u = .ok s') :
    ∃ request, u.phase = .sent request ∧
      s' = { s.setUpload i { u with phase := .answered request response } with
        received := s.received ++ [(i, request)] } := by
  unfold System.deliverStep at h
  split at h
  · rename_i request hphase
    exact ⟨request, hphase, (Except.ok.inj h).symm⟩
  · cases h

lemma System.respondStep_ok (h : s.respondStep parse i u = .ok s') :
    ∃ request response u', u.phase = .answered request response ∧
      u.respond parse request response = .ok u' ∧ s' = s.setUpload i u' := by
  unfold System.respondStep at h
  split at h
  · rename_i request response hphase
    obtain ⟨u', hu', hs'⟩ := Run.map_ok_iff.mp h
    exact ⟨request, response, u', hphase, hu', hs'.symm⟩
  · cases h

lemma System.failStep_ok {code : ℤ} (h : s.failStep code i u = .ok s') :
    ((∃ request, u.phase = .sent request) ∨
      ∃ request response, u.phase = .answered request response) ∧
      s' = s.setUpload i (u.call (.failure (.connection code))) := by
  unfold System.failStep at h
  split at h
  · rename_i request hphase
    exact ⟨Or.inl ⟨request, hphase⟩, (Except.ok.inj h).symm⟩
  · rename_i request response hphase
    exact ⟨Or.inr ⟨request, response, hphase⟩, (Except.ok.inj h).symm⟩
  · cases h

lemma System.fireStep_ok (h : s.fireStep i u = .ok s') :
    ∃ id, u.phase = .delayed id ∧ s' = s.setUpload i (u.send (.STATUS id)) := by
  unfold System.fireStep at h
  split at h
  · rename_i id hphase
    exact ⟨id, hphase, (Except.ok.inj h).symm⟩
  · cases h

lemma wellFormed_postMultipartMedia (startIndex : ℕ) (media : Data) (name : Option String)
    (type : MediaType) (category : MediaCategory) :
    (postMultipartMedia startIndex media name type category).WellFormed [] :=
  ⟨⟨rfl, rfl, rfl, rfl, rfl⟩, rfl⟩

lemma wellFormed_postTweetWithGif (contents : Option Data) (lastPathComponent text : String) :
    (postTweetWithGif contents lastPathComponent text).WellFormed [] := by
  cases contents with
  | none => exact ⟨⟨0, List.nil_prefix⟩, _, rfl, nofun⟩
  | some data => exact ⟨⟨rfl, rfl, rfl, rfl, rfl⟩, rfl⟩

/-- **Every step keeps the invariant.** -/
theorem step_inv (hs : Inv s) (h : s.step parse e = .ok s') : Inv s' := by
  cases e with
  | postMultipartMedia startIndex media name type category =>
    obtain rfl := Except.ok.inj h
    exact hs.append (wellFormed_postMultipartMedia startIndex media name type category)
  | postTweetWithGif contents lastPathComponent text =>
    obtain rfl := Except.ok.inj h
    exact hs.append (wellFormed_postTweetWithGif contents lastPathComponent text)
  | deliver i response =>
    obtain ⟨u, hu, h⟩ := withUpload_ok h
    obtain ⟨request, hphase, rfl⟩ := System.deliverStep_ok h
    exact hs.deliver hu hphase response
  | respond i =>
    obtain ⟨u, hu, h⟩ := withUpload_ok h
    obtain ⟨request, response, u', hphase, hu', rfl⟩ := System.respondStep_ok h
    exact hs.set hu (wellFormed_respond hphase (hs.wellFormed i u hu) hu')
  | fail i code =>
    obtain ⟨u, hu, h⟩ := withUpload_ok h
    obtain ⟨hphase, rfl⟩ := System.failStep_ok h
    exact hs.set hu (wellFormed_fail (hs.wellFormed i u hu) hphase)
  | fire i =>
    obtain ⟨u, hu, h⟩ := withUpload_ok h
    obtain ⟨id, hphase, rfl⟩ := System.fireStep_ok h
    exact hs.set hu (wellFormed_fire hphase (hs.wellFormed i u hu))

lemma run_inv {es : List Event} (h : Run.run (System.step parse) System.launch es = .ok s) : Inv s :=
  Run.run_inv (fun _ _ _ hs => step_inv hs) launch_inv h

/-! ### What is received -/

/-- The data of a segment. -/
def MediaRequest.segment : MediaRequest → Data
  | .APPEND _ _ _ media => media
  | _ => []

/-- The media that a tweet is posted with. -/
def MediaRequest.tweeted : MediaRequest → Option String
  | .tweet _ mediaIds => some mediaIds
  | _ => none

lemma flatMap_announced (u : Upload) (id : String) (k : ℕ) :
    (u.announced id k).flatMap MediaRequest.segment =
      (numbered chunkSize u.data k).flatMap Prod.snd := by
  rw [Upload.announced, List.flatMap_cons, List.flatMap_map]
  rfl

lemma flatMap_polled (u : Upload) (id : String) (n : ℕ) :
    (u.polled id n).flatMap MediaRequest.segment = u.data := by
  have hstatus : (List.replicate n (MediaRequest.STATUS id)).flatMap MediaRequest.segment = [] := by
    rw [List.flatMap_eq_nil_iff]
    intro request hrequest
    rw [List.eq_of_mem_replicate hrequest]
    rfl
  rw [Upload.polled, List.flatMap_append, flatMap_announced,
    flatMap_numbered_count u.data chunkSize_pos, List.flatMap_cons, hstatus]
  exact List.append_nil _

/-- **The segments of a whole script are the data.** -/
lemma flatMap_script (hid : u.mediaId ≠ none) (n : ℕ) :
    (u.script n).flatMap MediaRequest.segment = u.data := by
  obtain ⟨id, hid⟩ := Option.ne_none_iff_exists'.mp hid
  rw [Upload.script, hid]
  cases u.purpose with
  | multipartMedia => exact flatMap_polled u id n
  | tweetWithGif text =>
    change (u.polled id n ++ [MediaRequest.tweet text id]).flatMap MediaRequest.segment = u.data
    rw [List.flatMap_append, flatMap_polled]
    exact List.append_nil _

lemma tweeted_polled (u : Upload) (id : String) (n : ℕ) :
    (u.polled id n).filterMap MediaRequest.tweeted = [] := by
  refine List.filterMap_eq_nil_iff.mpr fun request hrequest => ?_
  rw [Upload.polled, Upload.announced] at hrequest
  rcases List.mem_append.mp hrequest with hrequest | hrequest
  · rcases List.mem_cons.mp hrequest with rfl | hrequest
    · rfl
    · obtain ⟨p, -, rfl⟩ := List.mem_map.mp hrequest
      rfl
  · rcases List.mem_cons.mp hrequest with rfl | hrequest
    · rfl
    · rw [List.eq_of_mem_replicate hrequest]
      rfl

/-- A tweet is the last request of a script. -/
lemma tweet_mem_script {status id : String} {n : ℕ} (h : .tweet status id ∈ u.script n) :
    u.purpose = .tweetWithGif status ∧ u.mediaId = some id ∧
      u.script n = u.polled id n ++ [.tweet status id] := by
  have hpolled : ∀ id' m, MediaRequest.tweet status id ∉ u.polled id' m := by
    intro id' m hmem
    have hnone := List.filterMap_eq_nil_iff.mp (tweeted_polled u id' m) _ hmem
    cases hnone
  rw [Upload.script] at h ⊢
  cases hid : u.mediaId with
  | none =>
    rw [hid] at h
    cases List.mem_singleton.mp h
  | some id' =>
    rw [hid] at h
    cases hpurpose : u.purpose with
    | multipartMedia =>
      rw [hpurpose] at h
      exact absurd h (hpolled id' n)
    | tweetWithGif text =>
      rw [hpurpose] at h
      rcases List.mem_append.mp h with h | h
      · exact absurd h (hpolled id' n)
      · cases List.mem_singleton.mp h
        exact ⟨rfl, rfl, rfl⟩

/-- A script has one tweet at most. -/
lemma length_tweeted_script (u : Upload) (n : ℕ) :
    ((u.script n).filterMap MediaRequest.tweeted).length ≤ 1 := by
  rw [Upload.script]
  cases u.mediaId with
  | none => exact Nat.zero_le 1
  | some id =>
    cases u.purpose with
    | multipartMedia => simp [tweeted_polled]
    | tweetWithGif text =>
      simp only [List.filterMap_append, tweeted_polled, List.nil_append]
      exact Nat.le_refl 1

/-! ### Results -/

/-- **An upload calls at most one handler, and one when it is finished.  What the server has received of
it is a beginning of its script, and the whole script when the success handler is called**: then the
segments that were received are the data. -/
theorem upload_finished {es : List Event}
    (h : Run.run (System.step parse) System.launch es = .ok s) (hu : s.uploads[i]? = some u) :
    u.calls.length ≤ 1 ∧ (u.phase = .finished ↔ u.calls ≠ []) ∧
      (∃ n, s.receivedOf i <+: u.script n) ∧
      ∀ json, Call.success json ∈ u.calls → u.mediaId ≠ none ∧
        (∃ n, s.receivedOf i = u.script n) ∧
        (s.receivedOf i).flatMap MediaRequest.segment = u.data := by
  have hwf := (run_inv h).wellFormed i u hu
  have hscript := hwf.prefix_script
  unfold Upload.WellFormed at hwf
  cases hphase : u.phase with
  | sent request =>
    rw [hphase] at hwf
    simp [hwf.2, hscript]
  | answered request response =>
    rw [hphase] at hwf
    simp [hwf.2, hscript]
  | delayed id =>
    rw [hphase] at hwf
    simp [hwf.2.2, hscript]
  | finished =>
    rw [hphase] at hwf
    obtain ⟨-, c, hcalls, hsuccess⟩ := hwf
    refine ⟨by simp [hcalls], by simp [hcalls], hscript, fun json hmem => ?_⟩
    rw [hcalls, List.mem_singleton] at hmem
    obtain ⟨hid, n, hn⟩ := hsuccess json hmem.symm
    exact ⟨hid, ⟨n, hn⟩, hn ▸ flatMap_script hid n⟩

/-- The bytes of an object with the member `"media_id_string":"7"`. -/
def idAnswer : Data :=
  [123, 34, 109, 101, 100, 105, 97, 95, 105, 100, 95, 115, 116, 114, 105, 110, 103, 34, 58, 34, 55, 34,
    125]

/-- The bytes of an empty object. -/
def emptyAnswer : Data := [123, 125]

/-- What a parser makes of two answers. -/
def sampleParser : Parser := fun data =>
  if data = idAnswer then .ok (.object [("media_id_string", .string "7")])
  else if data = emptyAnswer then .ok (.object [])
  else .error "The data is not in the correct format."

def ok (body : Data) : Response := ⟨200, [], body⟩

/-- A GIF is uploaded and tweeted. -/
def gifRun : List Event :=
  [.postTweetWithGif (some [71, 73, 70]) "cat.gif" "a cat",
    .deliver 0 (ok idAnswer), .respond 0, .deliver 0 (ok []), .respond 0,
    .deliver 0 (ok idAnswer), .respond 0, .deliver 0 (ok emptyAnswer), .respond 0]

lemma gifRun_ends : ∃ (s : System) (u : Upload),
    Run.run (System.step sampleParser) System.launch gifRun = .ok s ∧ s.uploads[0]? = some u ∧
      u.data = [71, 73, 70] ∧ u.calls = [.success (.object [])] ∧
      s.uploads.filterMap Upload.mediaId = ["7"] ∧
      s.receivedOf 0 = [.INIT 3 "image/gif" "tweet_gif", .APPEND "7" 0 "cat.gif" [71, 73, 70],
        .FINALIZE "7", .tweet "a cat" "7"] :=
  ⟨_, _, rfl, rfl, rfl, rfl, rfl, rfl⟩

theorem upload_finished_gif :
    ∃ s u json, Run.run (System.step sampleParser) System.launch gifRun = .ok s ∧
      s.uploads[0]? = some u ∧ Call.success json ∈ u.calls ∧
      s.receivedOf 0 = [.INIT 3 "image/gif" "tweet_gif", .APPEND "7" 0 "cat.gif" [71, 73, 70],
        .FINALIZE "7", .tweet "a cat" "7"] ∧
      (s.receivedOf 0).flatMap MediaRequest.segment = [71, 73, 70] := by
  obtain ⟨s, u, hrun, hu, hdata, hcalls, -, hreceived⟩ := gifRun_ends
  have hsuccess : Call.success (.object []) ∈ u.calls := hcalls ▸ List.mem_singleton_self _
  exact ⟨s, u, _, hrun, hu, hsuccess, hreceived,
    ((upload_finished hrun hu).2.2.2 _ hsuccess).2.2.trans hdata⟩

/-- An index is known by what is found there alone. -/
lemma index_unique {us : List Upload} {v : Upload} {j : ℕ} {id : String}
    (hids : (us.filterMap Upload.mediaId).Nodup) (hu : us[i]? = some u) (hv : us[j]? = some v)
    (hui : u.mediaId = some id) (hvj : v.mediaId = some id) : i = j := by
  have hne : ∀ {i j : ℕ} {u v : Upload}, us[i]? = some u → us[j]? = some v →
      u.mediaId = some id → v.mediaId = some id → ¬ i < j := by
    intro i j u v hu hv hui hvj hlt
    obtain ⟨hi, rfl⟩ := List.getElem?_eq_some_iff.mp hu
    obtain ⟨hj, rfl⟩ := List.getElem?_eq_some_iff.mp hv
    exact List.pairwise_iff_getElem.mp (List.pairwise_filterMap.mp hids) i j hi hj hlt id hui id
      hvj rfl
  have hij := hne hu hv hui hvj
  have hji := hne hv hu hvj hui
  omega

lemma mem_receivedOf {request : MediaRequest} (h : (i, request) ∈ s.received) :
    request ∈ s.receivedOf i :=
  List.mem_map.mpr ⟨(i, request), List.mem_filter.mpr ⟨h, decide_eq_true rfl⟩, rfl⟩

lemma Inv.exists_upload (hs : Inv s) {request : MediaRequest} (h : (i, request) ∈ s.received) :
    ∃ u, s.uploads[i]? = some u := ⟨_, List.getElem?_eq_getElem (hs.known _ h)⟩

/-- When a tweet is received, all that comes before it in the script was. -/
lemma Inv.tweet_received (hs : Inv s) {status id : String}
    (h : (i, MediaRequest.tweet status id) ∈ s.received) :
    ∃ u n, s.uploads[i]? = some u ∧ u.purpose = .tweetWithGif status ∧ u.mediaId = some id ∧
      s.receivedOf i = u.polled id n ++ [.tweet status id] := by
  obtain ⟨u, hu⟩ := hs.exists_upload h
  obtain ⟨n, hn⟩ := (hs.wellFormed i u hu).prefix_script
  have hmem := mem_receivedOf h
  obtain ⟨hpurpose, hid, hscript⟩ := tweet_mem_script (hn.subset hmem)
  refine ⟨u, n, hu, hpurpose, hid, ?_⟩
  rw [hscript] at hn
  rcases List.prefix_concat_iff.mp hn with heq | hpre
  · exact heq
  · have hnone := List.filterMap_eq_nil_iff.mp (tweeted_polled u id n) _ (hpre.subset hmem)
    cases hnone

/-- An upload is tweeted once at most. -/
lemma Inv.length_tweeted_le (hs : Inv s) (i : ℕ) :
    ((s.receivedOf i).filterMap MediaRequest.tweeted).length ≤ 1 := by
  cases hi : s.receivedOf i with
  | nil => exact Nat.zero_le 1
  | cons request l =>
    have hmem : request ∈ s.receivedOf i := hi ▸ List.mem_cons_self
    obtain ⟨⟨j, _⟩, hp, rfl⟩ := List.mem_map.mp hmem
    obtain ⟨hreceived, hij⟩ := List.mem_filter.mp hp
    obtain rfl : j = i := of_decide_eq_true hij
    obtain ⟨u, hu⟩ := hs.exists_upload hreceived
    obtain ⟨n, hn⟩ := (hs.wellFormed j u hu).prefix_script
    rw [← hi]
    exact (hn.sublist.filterMap _).length_le.trans (length_tweeted_script u n)

lemma Inv.mediaId_of_tweeted (hs : Inv s) {request : MediaRequest} {id : String}
    (h : (i, request) ∈ s.received) (hid : request.tweeted = some id) :
    ∃ u, s.uploads[i]? = some u ∧ u.mediaId = some id := by
  cases request with
  | tweet status id' =>
    cases hid
    obtain ⟨u, -, hu, -, hid, -⟩ := hs.tweet_received h
    exact ⟨u, hu, hid⟩
  | _ => cases hid

/-- Two tweets of one media would be of one upload, which is tweeted once at most. -/
lemma Inv.nodup_tweeted (hs : Inv s) (hids : (s.uploads.filterMap Upload.mediaId).Nodup) :
    ((s.received.map Prod.snd).filterMap MediaRequest.tweeted).Nodup := by
  rw [List.filterMap_map, List.Nodup, List.pairwise_filterMap, List.pairwise_iff_forall_sublist]
  rintro ⟨i, request⟩ ⟨j, request'⟩ hsub id hid _ hid' rfl
  obtain ⟨u, hu, hui⟩ := hs.mediaId_of_tweeted (hsub.subset List.mem_cons_self) hid
  obtain ⟨v, hv, hvj⟩ :=
    hs.mediaId_of_tweeted (hsub.subset (List.mem_cons_of_mem _ List.mem_cons_self)) hid'
  obtain rfl := index_unique hids hu hv hui hvj
  have hle := hs.length_tweeted_le i
  have hsub' := (((hsub.filter (·.1 = i)).map Prod.snd).filterMap MediaRequest.tweeted).length_le
  have htwo : ((([(i, request), (i, request')].filter (·.1 = i)).map Prod.snd).filterMap
      MediaRequest.tweeted).length = 2 := by
    rw [List.filter_eq_self.mpr (by simp)]
    simp [show request.tweeted = some id from hid, show request'.tweeted = some id from hid']
  rw [htwo] at hsub'
  exact absurd (hsub'.trans hle) (by decide)

/-- **An upload is tweeted once at most, with the text and the identifier it was given, after its whole
data.  Where the server names no identifier to two uploads, no media is tweeted twice.** -/
theorem tweets_once {es : List Event}
    (h : Run.run (System.step parse) System.launch es = .ok s) :
    (∀ i, ((s.receivedOf i).filterMap MediaRequest.tweeted).length ≤ 1) ∧
      (∀ i status id, (i, MediaRequest.tweet status id) ∈ s.received →
        ∃ u, s.uploads[i]? = some u ∧ u.purpose = .tweetWithGif status ∧ u.mediaId = some id ∧
          .FINALIZE id ∈ s.receivedOf i ∧
          (s.receivedOf i).flatMap MediaRequest.segment = u.data) ∧
      ((s.uploads.filterMap Upload.mediaId).Nodup →
        ((s.received.map Prod.snd).filterMap MediaRequest.tweeted).Nodup) := by
  have hinv := run_inv h
  refine ⟨hinv.length_tweeted_le, fun i status id hp => ?_, hinv.nodup_tweeted⟩
  obtain ⟨u, n, hu, hpurpose, hid, hreceived⟩ := hinv.tweet_received hp
  refine ⟨u, hu, hpurpose, hid, ?_, ?_⟩
  · rw [hreceived]
    simp [Upload.polled]
  · rw [hreceived, List.flatMap_append, flatMap_polled]
    exact List.append_nil _

theorem tweets_once_gif : ∃ s, Run.run (System.step sampleParser) System.launch gifRun = .ok s ∧
    ((s.received.map Prod.snd).filterMap MediaRequest.tweeted).Nodup := by
  obtain ⟨s, u, hrun, -, -, -, hids, -⟩ := gifRun_ends
  exact ⟨s, hrun, (tweets_once hrun).2.2 (hids ▸ List.nodup_singleton "7")⟩

/-! ### Crashes -/

/-- Processing info without a state, or that asks to wait but not how long. -/
def BadInfo (info : List (String × JSON)) : Prop :=
  match (info.lookup "state").bind JSON.string? with
  | none => True
  | some state => (state = "pending" ∨ state = "in_progress") ∧
      (info.lookup "check_after_secs").bind double? = none

def Malformed (json : JSON) : Prop :=
  ∃ info, object? (json.subscriptKey "processing_info") = some info ∧ BadInfo info

def MediaRequest.Announces : MediaRequest → Prop
  | .INIT _ _ _ => True
  | _ => False

def MediaRequest.AsksStatus : MediaRequest → Prop
  | .FINALIZE _ | .STATUS _ => True
  | _ => False

/-- What the response of a request traps on. -/
def Upload.Traps (parse : Parser) (u : Upload) (request : MediaRequest) (response : Response) :
    Fault → Prop
  | .disabled => False
  | .unexpectedlyFoundNil => 400 ≤ response.statusCode ∧ utf8Decode response.body = none ∨
      response.statusCode < 400 ∧
        ∃ json, parse response.body = .ok json ∧ request.AsksStatus ∧ Malformed json
  | .doubleOutOfRange => 400 ≤ response.statusCode ∧ utf8Decode response.body ≠ none ∧
      HTTPRequest.HugeCode parse response.body
  | .rangeOutOfBounds => response.statusCode < 400 ∧
      ∃ json, parse response.body = .ok json ∧ request.Announces ∧ mediaIdString json ≠ none ∧
        u.startIndex ≠ 0 ∧ u.data ≠ []

lemma statusCheck_error {id : String} {json : JSON} {info : List (String × JSON)} {f : Fault} :
    u.statusCheck id json info = .error f ↔ f = .unexpectedlyFoundNil ∧ BadInfo info := by
  unfold Upload.statusCheck BadInfo
  cases hstate : (info.lookup "state").bind JSON.string? with
  | none => simp [eq_comm]
  | some state =>
    by_cases hwait : state = "pending" ∨ state = "in_progress"
    · cases hsecs : (info.lookup "check_after_secs").bind double? with
      | none => simp [hwait, eq_comm]
      | some secs => simp [hwait]
    · by_cases hdone : state = "succeeded" <;> simp [hwait, hdone]

lemma object?_subscriptKey {json : JSON} {key : String} {info : List (String × JSON)}
    (h : object? (json.subscriptKey key) = some info) : ∃ p ps, object? json = some (p :: ps) := by
  cases json with
  | object dict =>
    cases dict with
    | nil => cases h
    | cons p ps => exact ⟨p, ps, rfl⟩
  | _ => cases h

/-- A slice is looked at when its first segment is taken. -/
lemma prepared_error {json : JSON} {f : Fault} : u.prepared json = .error f ↔
    f = .rangeOutOfBounds ∧ mediaIdString json ≠ none ∧ u.startIndex ≠ 0 ∧ u.data ≠ [] := by
  unfold Upload.prepared
  cases hid : mediaIdString json with
  | none => cases u.purpose <;> simp
  | some id =>
    by_cases hstart : u.startIndex = 0 ∨ u.data = []
    · simp only [appendUpload_eq (u := { u with mediaId := some id }) (i := 0) hstart (by simp)]
      simp only [reduceCtorEq, false_iff, not_and_or, not_not]
      exact Or.inr (Or.inr hstart)
    · obtain ⟨hstart, hdata⟩ := not_or.mp hstart
      simp [Upload.appendUpload, subData_slice hstart hdata, hstart, hdata, eq_comm]

/-- A success handler traps on a slice and on malformed processing info, and on nothing else. -/
lemma succeed_error {l : List MediaRequest} {request : MediaRequest} {json : JSON} {f : Fault}
    (hmakes : u.Makes l request) : u.succeed json request = .error f ↔
      f = .unexpectedlyFoundNil ∧ request.AsksStatus ∧ Malformed json ∨
        f = .rangeOutOfBounds ∧ request.Announces ∧ mediaIdString json ≠ none ∧
          u.startIndex ≠ 0 ∧ u.data ≠ [] := by
  cases request with
  | INIT totalBytes mediaType mediaCategory =>
    simp [Upload.succeed, prepared_error, MediaRequest.AsksStatus, MediaRequest.Announces]
  | APPEND id i name data =>
    have hok : ∃ u', u.succeed json (.APPEND id i name data) = .ok u' := by
      simp only [Upload.succeed]
      split
      · exact ⟨_, rfl⟩
      · rename_i hmore
        rw [appendUpload_eq hmakes.2.2.2.2.2 (Nat.le_of_not_lt hmore)]
        exact ⟨_, rfl⟩
    obtain ⟨u', hu'⟩ := hok
    simp [hu', MediaRequest.AsksStatus, MediaRequest.Announces]
  | FINALIZE id =>
    simp only [Upload.succeed, MediaRequest.AsksStatus, MediaRequest.Announces, true_and, Malformed,
      false_and, and_false, or_false]
    cases hinfo : object? (json.subscriptKey "processing_info") with
    | none => split <;> simp
    | some info =>
      obtain ⟨p, ps, hobject⟩ := object?_subscriptKey hinfo
      simp only [hobject, statusCheck_error, Option.some_inj, exists_eq_left']
  | STATUS id =>
    simp only [Upload.succeed, MediaRequest.AsksStatus, MediaRequest.Announces, true_and, Malformed,
      false_and, and_false, or_false]
    cases hinfo : object? (json.subscriptKey "processing_info") with
    | none => simp
    | some info => simp only [statusCheck_error, Option.some_inj, exists_eq_left']
  | tweet status id => simp [Upload.succeed, MediaRequest.AsksStatus, MediaRequest.Announces]

/-- **What the response of a request that was made traps on.** -/
lemma respond_error {l : List MediaRequest} {request : MediaRequest} {response : Response} {f : Fault}
    (hmakes : u.Makes l request) :
    u.respond parse request response = .error f ↔ u.Traps parse request response f := by
  by_cases hstatus : response.statusCode < 400
  · have hnot := Nat.not_le.mpr hstatus
    have hcomplete : HTTPRequest.jsonComplete parse response =
        .ok (HTTPRequest.jsonSuccess parse response response.body) := by
      rw [HTTPRequest.jsonComplete, HTTPRequest.didComplete, if_pos hstatus]
      rfl
    rw [Upload.respond, hcomplete, HTTPRequest.jsonSuccess]
    cases hparse : parse response.body with
    | ok json =>
      simp only [succeed_error hmakes]
      cases f <;> simp [Upload.Traps, hstatus, hnot, hparse]
    | error message =>
      have htraps : ¬ u.Traps parse request response f := by
        cases f <;> simp [Upload.Traps, hnot, hparse]
      have hempty : u.succeed (.string "{}") request ≠ .error f := by
        rw [ne_eq, succeed_error hmakes]
        simp [Malformed, mediaIdString, JSON.subscriptKey, object?, JSON.string?]
      split_ifs
      · exact iff_of_false hempty htraps
      · exact iff_of_false (fun h => by cases h) htraps
  · have hle := Nat.le_of_not_lt hstatus
    have htraps : u.Traps parse request response f ↔
        HTTPRequest.didComplete parse response = .error f := by
      rw [HTTPRequest.didComplete_error]
      cases f <;> simp [Upload.Traps, hle, hstatus]
    rw [htraps, ← HTTPRequest.jsonComplete_error, Upload.respond]
    cases hcomplete : HTTPRequest.jsonComplete parse response with
    | error g => simp
    | ok result =>
      cases result with
      | error error => simp
      | ok json =>
        -- An error status gives no body.
        rw [HTTPRequest.jsonComplete, HTTPRequest.didComplete, if_neg hstatus] at hcomplete
        split at hcomplete
        · cases hcomplete
        · obtain ⟨_, hresult, hjson⟩ := Run.map_ok_iff.mp hcomplete
          obtain ⟨_, -, rfl⟩ := Run.map_ok_iff.mp hresult
          cases hjson

/-- Only the response of a request can trap. -/
lemma step_error {f : Fault} (h : s.step parse e = .error f) (hf : f ≠ .disabled) :
    ∃ i u request response, e = .respond i ∧ s.uploads[i]? = some u ∧
      u.phase = .answered request response ∧ u.respond parse request response = .error f := by
  have hdisabled : ∀ {x : Except Fault System}, x = .error .disabled → x ≠ .error f := by
    rintro x rfl hx
    exact hf (Except.error.inj hx).symm
  cases e with
  | postMultipartMedia startIndex media name type category => cases h
  | postTweetWithGif contents lastPathComponent text => cases h
  | deliver i response =>
    simp only [System.step, System.withUpload, System.deliverStep] at h
    split at h
    · split at h
      · cases h
      · exact absurd h (hdisabled rfl)
    · exact absurd h (hdisabled rfl)
  | respond i =>
    simp only [System.step, System.withUpload, System.respondStep] at h
    split at h
    · rename_i u hu
      split at h
      · rename_i request response hphase
        refine ⟨i, u, request, response, rfl, hu, hphase, ?_⟩
        cases hresult : u.respond parse request response with
        | ok u' => simp [hresult, Except.map] at h
        | error g => simpa [hresult, Except.map] using h
      · exact absurd h (hdisabled rfl)
    · exact absurd h (hdisabled rfl)
  | fail i code =>
    simp only [System.step, System.withUpload, System.failStep] at h
    split at h
    · split at h
      · cases h
      · cases h
      · exact absurd h (hdisabled rfl)
    · exact absurd h (hdisabled rfl)
  | fire i =>
    simp only [System.step, System.withUpload, System.fireStep] at h
    split at h
    · split at h
      · cases h
      · exact absurd h (hdisabled rfl)
    · exact absurd h (hdisabled rfl)

/-- The request that was answered was made. -/
lemma Inv.makes (hs : Inv s) (hu : s.uploads[i]? = some u) {request : MediaRequest}
    {response : Response} (hphase : u.phase = .answered request response) :
    ∃ l, u.Makes l request := by
  have hwf := hs.wellFormed i u hu
  rw [Upload.WellFormed, hphase] at hwf
  obtain ⟨⟨l, -, hmakes⟩, -⟩ := hwf
  exact ⟨l, hmakes⟩

/-- **What the completion of a request crashes on**: an error status with a body that is no text or whose
code is no `Int`, processing info without a state or without the seconds it asks for, and the first
segment of a slice. -/
theorem crash_iff {es : List Event} (h : Run.run (System.step parse) System.launch es = .ok s)
    (e : Event) (f : Fault) : s.step parse e = .error f ∧ f ≠ .disabled ↔
      ∃ i u request response, e = .respond i ∧ s.uploads[i]? = some u ∧
        u.phase = .answered request response ∧ u.Traps parse request response f := by
  have hinv := run_inv h
  constructor
  · rintro ⟨herror, hf⟩
    obtain ⟨i, u, request, response, rfl, hu, hphase, hrespond⟩ := step_error herror hf
    obtain ⟨l, hmakes⟩ := hinv.makes hu hphase
    exact ⟨i, u, request, response, rfl, hu, hphase, (respond_error hmakes).mp hrespond⟩
  · rintro ⟨i, u, request, response, rfl, hu, hphase, htraps⟩
    obtain ⟨l, hmakes⟩ := hinv.makes hu hphase
    have hrespond := (respond_error hmakes).mpr htraps
    refine ⟨?_, fun hf => ?_⟩
    · simp only [System.step, System.withUpload, hu, System.respondStep, hphase, hrespond]
      rfl
    · rw [hf] at htraps
      exact htraps

/-- A slice is uploaded, and the status of an error comes with a body that is no text. -/
theorem crash_iff_answers :
    (∃ s, Run.run (System.step sampleParser) System.launch
        [.postMultipartMedia 1 [73, 70] none .gif .gif, .deliver 0 (ok idAnswer)] = .ok s ∧
      s.step sampleParser (.respond 0) = .error .rangeOutOfBounds) ∧
    ∃ s, Run.run (System.step sampleParser) System.launch
        [.postMultipartMedia 0 [73, 70] none .gif .gif, .deliver 0 ⟨500, [], [255]⟩] = .ok s ∧
      s.step sampleParser (.respond 0) = .error .unexpectedlyFoundNil := by
  constructor
  · have hrun : Run.run (System.step sampleParser) System.launch
        [.postMultipartMedia 1 [73, 70] none .gif .gif, .deliver 0 (ok idAnswer)] = .ok _ := rfl
    refine ⟨_, hrun, ((crash_iff hrun (.respond 0) .rangeOutOfBounds).mpr ?_).1⟩
    refine ⟨0, _, .INIT 2 "image/gif" "tweet_gif", ok idAnswer, rfl, rfl, rfl, by decide, _, rfl,
      trivial, ?_, Nat.one_ne_zero, List.cons_ne_nil _ _⟩
    exact Option.some_ne_none "7"
  · have hrun : Run.run (System.step sampleParser) System.launch
        [.postMultipartMedia 0 [73, 70] none .gif .gif, .deliver 0 ⟨500, [], [255]⟩] = .ok _ := rfl
    refine ⟨_, hrun, ((crash_iff hrun (.respond 0) .unexpectedlyFoundNil).mpr ?_).1⟩
    exact ⟨0, _, .INIT 2 "image/gif" "tweet_gif", ⟨500, [], [255]⟩, rfl, rfl, rfl,
      Or.inl ⟨by decide, by decide⟩⟩

end Steps

end IosDevBootcamp.Swifter
