import IosDevBootcamp.Swifter.Auth

/-!
# Swifter: who is authorized

An authorization succeeds only with a callback for the page it opened, and the access token it was given
for the verifier of that callback; it calls one handler at most.  One whose page was open when another
page opened never calls any.
-/

namespace IosDevBootcamp.Swifter

open IosDevBootcamp.Lib IosDevBootcamp.Lib.OAuth1 IosDevBootcamp.Lib.Percent

/-! ### The tokens of a response -/

/-- **The token of a response is the one written into it.**  There is a token when there are a key and a
secret, and where a name is written twice the last value counts. -/
theorem tokenOfBody_joined {l : List (Text × Text)} (hl : ∀ p ∈ l, Scannable p) :
    tokenOfBody (utf8 (Text.joined ['&'] (l.map pairText))) = (do
      let key ← lastValue l "oauth_token".toList
      let secret ← lastValue l "oauth_token_secret".toList
      return ⟨key, secret, none, lastValue l "screen_name".toList, lastValue l "user_id".toList⟩) := by
  have hread : ∀ name : Text, name ≠ [] →
      (queryStringParameters (Text.joined ['&'] (l.map pairText))).value name = lastValue l name :=
    fun _ hname => queryStringParameters_joined hl hname
  simp only [tokenOfBody, utf8Decode_utf8, Option.bind_some, OAuthAccessToken.ofQueryString]
  rw [hread _ (by decide), hread _ (by decide), hread _ (by decide), hread _ (by decide)]

/-- What the server writes. -/
def sampleResponse : List (Text × Text) :=
  [("oauth_token".toList, "K0".toList), ("oauth_token_secret".toList, "S1".toList),
    ("user_id".toList, "38895958".toList), ("screen_name".toList, []),
    ("oauth_token".toList, "K1".toList)]

theorem tokenOfBody_joined_sample :
    tokenOfBody (utf8 (Text.joined ['&'] (sampleResponse.map pairText))) =
      some ⟨"K1".toList, "S1".toList, none, none, some "38895958".toList⟩ := by
  have hall : ∀ p ∈ sampleResponse, '=' ∉ p.1 ∧ '&' ∉ p.2 ∧ skip p.1 = p.1 ∧ skip p.2 = p.2 := by
    decide
  refine (tokenOfBody_joined fun p hp => ?_).trans (by decide)
  obtain ⟨hname, hvalue, hskip, hskip'⟩ := hall p hp
  exact ⟨hname, hvalue, hskip, hskip'⟩

/-! ### What has happened to an authorization -/

/-- What takes the place of no page and calls no observer. -/
def AuthEvent.Quiet : AuthEvent → Prop
  | .requestTokenResponse _ _ => False
  | .handleOpenURL url callbackURL => url.hasSameUrlScheme callbackURL = false
  | _ => True

/-- The page for a request token is the last that was opened, and there was no callback since. -/
def Opened (i : ℕ) (token : OAuthAccessToken) (es : List AuthEvent) : Prop :=
  ∃ fs body gs, es = fs ++ .requestTokenResponse i body :: gs ∧ tokenOfBody body = some token ∧
    ∀ e ∈ gs, e.Quiet

/-- The page was called back with a verifier. -/
def CalledBack (i : ℕ) (token : OAuthAccessToken) (verifier : Text) (es : List AuthEvent) : Prop :=
  ∃ fs url callbackURL query gs, es = fs ++ .handleOpenURL url callbackURL :: gs ∧
    Opened i token fs ∧ url.hasSameUrlScheme callbackURL = true ∧ url.query = some query ∧
    (queryStringParameters query).value "oauth_verifier".toList = some verifier

/-- An access token arrived after that. -/
def Exchanged (i : ℕ) (token : OAuthAccessToken) (verifier : Text) (t : OAuthAccessToken)
    (es : List AuthEvent) : Prop :=
  ∃ fs body gs, es = fs ++ .accessTokenResponse i body :: gs ∧ CalledBack i token verifier fs ∧
    tokenOfBody body = some t

/-- The request for an access token. -/
def exchange (token : OAuthAccessToken) (verifier : Text) : Parameters :=
  [("oauth_token".toList, token.key), ("oauth_verifier".toList, verifier)]

/-- What must have happened for an authorization to wait for what it waits for. -/
def Authorization.WellFormed (i : ℕ) (observer : Option ℕ) (es : List AuthEvent)
    (a : Authorization) : Prop :=
  match a.phase with
  | .requestToken => a.calls = [] ∧ a.sent.length = 1
  | .authorizing => a.calls = [] ∧ a.sent.length = 1 ∧
      (observer = some i → ∃ token, a.token = some token ∧ Opened i token es)
  | .accessToken => a.calls = [] ∧ ∃ token verifier, CalledBack i token verifier es ∧
      a.sent.tail = [exchange token verifier]
  | .finished => ∃ c, a.calls = [c] ∧ ∀ t, c = .success t → ∃ token verifier,
      Exchanged i token verifier t es ∧ a.sent.tail = [exchange token verifier]

/-- The one that is observed waits for its callback. -/
structure AuthInv (s : AuthState) (es : List AuthEvent) : Prop where
  wellFormed : ∀ i (a : Authorization), s.authorizations[i]? = some a → a.WellFormed i s.observer es
  observed : ∀ i, s.observer = some i → ∃ a, s.authorizations[i]? = some a ∧ a.phase = .authorizing

section Events

variable {i : ℕ} {token t : OAuthAccessToken} {verifier : Text} {es : List AuthEvent}
  {a : Authorization} {observer observer' : Option ℕ}

lemma Opened.concat (h : Opened i token es) {e : AuthEvent} (he : e.Quiet) :
    Opened i token (es ++ [e]) := by
  obtain ⟨fs, body, gs, rfl, htoken, hquiet⟩ := h
  refine ⟨fs, body, gs ++ [e], by simp, htoken, fun e' he' => ?_⟩
  rcases List.mem_append.mp he' with he' | he'
  · exact hquiet e' he'
  · rw [List.mem_singleton.mp he']
    exact he

lemma CalledBack.concat (h : CalledBack i token verifier es) (e : AuthEvent) :
    CalledBack i token verifier (es ++ [e]) := by
  obtain ⟨fs, url, callbackURL, query, gs, rfl, hrest⟩ := h
  exact ⟨fs, url, callbackURL, query, gs ++ [e], by simp, hrest⟩

lemma Exchanged.concat (h : Exchanged i token verifier t es) (e : AuthEvent) :
    Exchanged i token verifier t (es ++ [e]) := by
  obtain ⟨fs, body, gs, rfl, hrest⟩ := h
  exact ⟨fs, body, gs ++ [e], by simp, hrest⟩

/-- What happens elsewhere. -/
lemma Authorization.WellFormed.concat (h : a.WellFormed i observer es) (e : AuthEvent)
    (hobserver : observer' = some i → observer = some i ∧ e.Quiet) :
    a.WellFormed i observer' (es ++ [e]) := by
  unfold Authorization.WellFormed at h ⊢
  split at h
  · exact h
  · refine ⟨h.1, h.2.1, fun hi => ?_⟩
    obtain ⟨hi', hquiet⟩ := hobserver hi
    obtain ⟨token, htoken, hopened⟩ := h.2.2 hi'
    exact ⟨token, htoken, hopened.concat hquiet⟩
  · obtain ⟨hcalls, token, verifier, hback, hsent⟩ := h
    exact ⟨hcalls, token, verifier, hback.concat e, hsent⟩
  · obtain ⟨c, hcalls, hsuccess⟩ := h
    refine ⟨c, hcalls, fun t ht => ?_⟩
    obtain ⟨token, verifier, hexchanged, hsent⟩ := hsuccess t ht
    exact ⟨token, verifier, hexchanged.concat e, hsent⟩

end Events

section Steps

variable {parse : Parser} {s s' : AuthState} {a a' : Authorization} {i : ℕ} {e : AuthEvent}
  {es : List AuthEvent}

lemma wellFormed_call_failure {observer : Option ℕ} (hcalls : a.calls = []) (error : RequestError) :
    (a.call (.failure error)).WellFormed i observer es :=
  ⟨.failure error, by simp [Authorization.call, hcalls], fun t h => nomatch h⟩

/-- A step that sets one authorization, when it is not the one observed, or is from now on, or none
is. -/
lemma AuthInv.set (h : AuthInv s es) (ha : s.authorizations[i]? = some a)
    (hwf : a'.WellFormed i s'.observer (es ++ [e]))
    (hs' : s'.authorizations = s.authorizations.set i a')
    (hobserver : s'.observer = some i ∧ a'.phase = .authorizing ∨ s'.observer = none ∨
      s'.observer = s.observer ∧ a.phase ≠ .authorizing ∧ e.Quiet) : AuthInv s' (es ++ [e]) := by
  obtain ⟨hi, -⟩ := List.getElem?_eq_some_iff.mp ha
  refine ⟨fun j b hb => ?_, fun j hj => ?_⟩
  · rw [hs'] at hb
    by_cases hij : i = j
    · subst hij
      rw [List.getElem?_set_self hi] at hb
      exact Option.some_inj.mp hb ▸ hwf
    · rw [List.getElem?_set_ne hij] at hb
      refine (h.wellFormed j b hb).concat e fun hj => ?_
      rcases hobserver with ⟨hobs, -⟩ | hnone | ⟨hsame, -, hquiet⟩
      · exact absurd (Option.some_inj.mp (hobs.symm.trans hj)) hij
      · rw [hnone] at hj
        cases hj
      · exact ⟨hsame.symm.trans hj, hquiet⟩
  · rw [hs']
    rcases hobserver with ⟨hobs, hphase⟩ | hnone | ⟨hsame, hphase, -⟩
    · obtain rfl := Option.some_inj.mp (hobs.symm.trans hj)
      exact ⟨a', List.getElem?_set_self hi, hphase⟩
    · rw [hnone] at hj
      cases hj
    · obtain ⟨b, hb, hbphase⟩ := h.observed j (hsame ▸ hj)
      have hne : i ≠ j := by
        rintro rfl
        rw [ha] at hb
        exact hphase (Option.some_inj.mp hb ▸ hbphase)
      exact ⟨b, by rw [List.getElem?_set_ne hne, hb], hbphase⟩

lemma withAuthorization_ok {f : ℕ → Authorization → Except Fault AuthState}
    (h : s.withAuthorization i f = .ok s') : ∃ a, s.authorizations[i]? = some a ∧ f i a = .ok s' := by
  unfold AuthState.withAuthorization at h
  split at h
  · rename_i a ha
    exact ⟨a, ha, h⟩
  · cases h

lemma requestTokenStep_ok {body : Data} (h : s.requestTokenStep body i a = .ok s') :
    a.phase = .requestToken ∧ ∃ token, tokenOfBody body = some token ∧ s' = s.openPage i a token := by
  unfold AuthState.requestTokenStep at h
  split at h
  · rename_i hphase
    split at h
    · rename_i token htoken
      exact ⟨hphase, token, htoken, (Except.ok.inj h).symm⟩
    · cases h
  · cases h

lemma accessTokenStep_ok {body : Data} (h : s.accessTokenStep body i a = .ok s') :
    a.phase = .accessToken ∧ ∃ token, tokenOfBody body = some token ∧ s' = s.authorized i a token := by
  unfold AuthState.accessTokenStep at h
  split at h
  · rename_i hphase
    split at h
    · rename_i token htoken
      exact ⟨hphase, token, htoken, (Except.ok.inj h).symm⟩
    · cases h
  · cases h

lemma failStep_ok {error : RequestError} (h : s.failStep error i a = .ok s') :
    (a.phase = .requestToken ∨ a.phase = .accessToken) ∧
      s' = s.setAuthorization i (a.call (.failure error)) := by
  unfold AuthState.failStep at h
  split at h
  · rename_i hphase
    exact ⟨Or.inl hphase, (Except.ok.inj h).symm⟩
  · rename_i hphase
    exact ⟨Or.inr hphase, (Except.ok.inj h).symm⟩
  · cases h

lemma rejectStep_ok {response : Response} (h : s.rejectStep parse response i a = .ok s') :
    (a.phase = .requestToken ∨ a.phase = .accessToken) ∧
      ∃ error, s' = s.setAuthorization i (a.call (.failure error)) := by
  unfold AuthState.rejectStep at h
  split at h
  · rename_i hphase
    split at h
    · cases h
    · exact ⟨Or.inl hphase, _, (Except.ok.inj h).symm⟩
    · cases h
  · rename_i hphase
    split at h
    · cases h
    · exact ⟨Or.inr hphase, _, (Except.ok.inj h).symm⟩
    · cases h
  · cases h

/-- A URL that is opened goes to the observer, if the schemes agree and there is one. -/
lemma handleOpenURL_ok {url callbackURL : OpenedURL} (h : s.handleOpenURL url callbackURL = .ok s') :
    s' = s ∧ (url.hasSameUrlScheme callbackURL = false ∨ s.observer = none) ∨
      url.hasSameUrlScheme callbackURL = true ∧ ∃ i a a', s.observer = some i ∧
        s.authorizations[i]? = some a ∧ a.postOAuthAccessTokenHelper url = some a' ∧
        s' = { s with observer := none }.setAuthorization i a' := by
  unfold AuthState.handleOpenURL at h
  split at h
  · rename_i hscheme
    split at h
    · rename_i i hobserver
      obtain ⟨a, ha, hstep⟩ := withAuthorization_ok h
      unfold AuthState.observerStep at hstep
      split at hstep
      · rename_i a' ha'
        exact Or.inr ⟨hscheme, i, a, a', hobserver, ha, ha', (Except.ok.inj hstep).symm⟩
      · cases hstep
    · rename_i hobserver
      exact Or.inl ⟨(Except.ok.inj h).symm, Or.inr hobserver⟩
  · rename_i hscheme
    exact Or.inl ⟨(Except.ok.inj h).symm, Or.inl (Bool.eq_false_iff.mpr hscheme)⟩

/-- The callback leads to the second request or to a failure. -/
lemma wellFormed_helper {url callbackURL : OpenedURL} {observer : Option ℕ}
    (hcalls : a.calls = []) (hsent : a.sent.length = 1)
    (hopened : ∃ token, a.token = some token ∧ Opened i token es)
    (hscheme : url.hasSameUrlScheme callbackURL = true)
    (h : a.postOAuthAccessTokenHelper url = some a') :
    a'.WellFormed i observer (es ++ [.handleOpenURL url callbackURL]) := by
  obtain ⟨token, htoken, h⟩ := Option.bind_eq_some_iff.mp h
  obtain ⟨query, hquery, h⟩ := Option.bind_eq_some_iff.mp h
  obtain ⟨token', htoken', hopened⟩ := hopened
  obtain rfl := Option.some_inj.mp (htoken.symm.trans htoken')
  split at h
  · obtain rfl := Option.some_inj.mp h
    exact wellFormed_call_failure hcalls _
  · rename_i verifier hverifier
    obtain rfl := Option.some_inj.mp h
    obtain ⟨parameters, hparameters⟩ := List.length_eq_one_iff.mp hsent
    refine ⟨hcalls, token, verifier, ⟨es, url, callbackURL, query, [], rfl, hopened, hscheme, hquery,
      hverifier⟩, ?_⟩
    change (a.sent ++ [exchange token verifier]).tail = _
    rw [hparameters]
    rfl

/-- A request that fails. -/
lemma AuthInv.fail (h : AuthInv s es) (ha : s.authorizations[i]? = some a)
    (hphase : a.phase = .requestToken ∨ a.phase = .accessToken) (error : RequestError)
    (hquiet : e.Quiet) : AuthInv (s.setAuthorization i (a.call (.failure error))) (es ++ [e]) := by
  have hwf := h.wellFormed i a ha
  have hcalls : a.calls = [] := by
    rcases hphase with hphase | hphase <;> rw [Authorization.WellFormed, hphase] at hwf <;>
      exact hwf.1
  refine h.set ha (wellFormed_call_failure hcalls error) rfl (Or.inr (Or.inr ⟨rfl, ?_, hquiet⟩))
  rcases hphase with hphase | hphase <;> rw [hphase] <;> exact fun h => nomatch h

/-- **Every step keeps the invariant.** -/
theorem authInv_step (hs : AuthInv s es) (h : s.step parse e = .ok s') : AuthInv s' (es ++ [e]) := by
  cases e with
  | authorize callbackURL forceLogin =>
    obtain rfl := Except.ok.inj h
    refine ⟨fun i a ha => ?_, fun i hi => ?_⟩
    · rcases Nat.lt_or_ge i s.authorizations.length with hlt | hge
      · rw [List.getElem?_append_left hlt] at ha
        exact (hs.wellFormed i a ha).concat _ fun hi => ⟨hi, trivial⟩
      · rw [List.getElem?_append_right hge, List.getElem?_singleton] at ha
        split at ha <;> cases ha
        exact ⟨rfl, rfl⟩
    · obtain ⟨a, ha, hphase⟩ := hs.observed i hi
      have hlt := (List.getElem?_eq_some_iff.mp ha).1
      exact ⟨a, by rw [List.getElem?_append_left hlt, ha], hphase⟩
  | requestTokenResponse i body =>
    obtain ⟨a, ha, h⟩ := withAuthorization_ok h
    obtain ⟨hphase, token, htoken, rfl⟩ := requestTokenStep_ok h
    have hwf := hs.wellFormed i a ha
    rw [Authorization.WellFormed, hphase] at hwf
    have hwf' : Authorization.WellFormed i (some i) (es ++ [.requestTokenResponse i body])
        { a with token := some token, phase := .authorizing } :=
      ⟨hwf.1, hwf.2, fun _ => ⟨token, rfl, es, body, [], rfl, htoken, fun _ he => by cases he⟩⟩
    exact hs.set ha hwf' rfl (Or.inl ⟨rfl, rfl⟩)
  | accessTokenResponse i body =>
    obtain ⟨a, ha, h⟩ := withAuthorization_ok h
    obtain ⟨hphase, t, ht, rfl⟩ := accessTokenStep_ok h
    have hwf := hs.wellFormed i a ha
    rw [Authorization.WellFormed, hphase] at hwf
    obtain ⟨hcalls, token, verifier, hback, hsent⟩ := hwf
    have hwf' : (a.call (.success t)).WellFormed i s.observer
        (es ++ [.accessTokenResponse i body]) := by
      refine ⟨.success t, by simp [Authorization.call, hcalls], fun t' ht' => ?_⟩
      obtain rfl := AuthCall.success.inj ht'
      exact ⟨token, verifier, ⟨es, body, [], rfl, hback, ht⟩, hsent⟩
    refine hs.set ha hwf' rfl (Or.inr (Or.inr ⟨rfl, ?_, trivial⟩))
    rw [hphase]
    exact fun h => nomatch h
  | reject i response =>
    obtain ⟨a, ha, h⟩ := withAuthorization_ok h
    obtain ⟨hphase, error, rfl⟩ := rejectStep_ok h
    exact hs.fail ha hphase error trivial
  | fail i code =>
    obtain ⟨a, ha, h⟩ := withAuthorization_ok h
    obtain ⟨hphase, rfl⟩ := failStep_ok h
    exact hs.fail ha hphase _ trivial
  | handleOpenURL url callbackURL =>
    rcases handleOpenURL_ok h with ⟨rfl, hnone⟩ | ⟨hscheme, i, a, a', hobserver, ha, hhelper, rfl⟩
    · refine ⟨fun i a ha => (hs.wellFormed i a ha).concat _ fun hi => ⟨hi, ?_⟩, hs.observed⟩
      rcases hnone with hscheme | hnone
      · exact hscheme
      · rw [hnone] at hi
        cases hi
    · obtain ⟨b, hb, hphase⟩ := hs.observed i hobserver
      obtain rfl := Option.some_inj.mp (ha.symm.trans hb)
      have hwf := hs.wellFormed i a ha
      rw [Authorization.WellFormed, hphase] at hwf
      exact hs.set ha (wellFormed_helper hwf.1 hwf.2.1 (hwf.2.2 hobserver) hscheme hhelper) rfl
        (Or.inr (Or.inl rfl))

lemma authInv_launch : AuthInv AuthState.launch [] where
  wellFormed := fun i a ha => by
    rw [show AuthState.launch.authorizations = [] from rfl, List.getElem?_nil] at ha
    cases ha
  observed := fun _ hi => by cases hi

lemma authInv_run (h : Run.run (AuthState.step parse) AuthState.launch es = .ok s) : AuthInv s es :=
  Run.run_history (fun _ _ _ _ hs => authInv_step hs) authInv_launch h

/-! ### Results -/

/-- **Success means that the page for the request token was called back with a verifier, and that the two
were exchanged for the access token.**  The callback is the first one after the page opened, and no other
page opened in between.  No authorization calls two handlers. -/
theorem success_exchanged (h : Run.run (AuthState.step parse) AuthState.launch es = .ok s)
    (ha : s.authorizations[i]? = some a) :
    a.calls.length ≤ 1 ∧ (a.phase = .finished ↔ a.calls ≠ []) ∧
      ∀ t, .success t ∈ a.calls → ∃ token verifier, Exchanged i token verifier t es ∧
        a.sent.tail = [exchange token verifier] := by
  have hwf := (authInv_run h).wellFormed i a ha
  unfold Authorization.WellFormed at hwf
  cases hphase : a.phase with
  | requestToken =>
    rw [hphase] at hwf
    simp [hwf.1]
  | authorizing =>
    rw [hphase] at hwf
    simp [hwf.1]
  | accessToken =>
    rw [hphase] at hwf
    simp [hwf.1]
  | finished =>
    rw [hphase] at hwf
    obtain ⟨c, hcalls, hsuccess⟩ := hwf
    refine ⟨by simp [hcalls], by simp [hcalls], fun t ht => hsuccess t ?_⟩
    rw [hcalls, List.mem_singleton] at ht
    exact ht.symm

def noParser : Parser := fun _ => .error "The data is not in the correct format."

/-- A user authorizes an app. -/
def authorizedRun : List AuthEvent :=
  [.authorize "app://done".toList false,
    .requestTokenResponse 0 (utf8 "oauth_token=K1&oauth_token_secret=S1".toList),
    .handleOpenURL ⟨some "app".toList, some "oauth_token=K1&oauth_verifier=V1".toList⟩
      ⟨some "App".toList, none⟩,
    .accessTokenResponse 0 (utf8 "oauth_token=K2&oauth_token_secret=S2".toList)]

theorem success_exchanged_user : ∃ s a t, Run.run (AuthState.step noParser) AuthState.launch
      authorizedRun = .ok s ∧ s.authorizations[0]? = some a ∧ .success t ∈ a.calls ∧
      ∃ token verifier, Exchanged 0 token verifier t authorizedRun ∧
        a.sent.tail = [exchange token verifier] := by
  obtain ⟨s, a, t, hrun, ha, ht⟩ : ∃ (s : AuthState) (a : Authorization) (t : OAuthAccessToken),
      Run.run (AuthState.step noParser) AuthState.launch authorizedRun = .ok s ∧
        s.authorizations[0]? = some a ∧ .success t ∈ a.calls :=
    ⟨_, _, _, rfl, rfl, List.mem_singleton_self _⟩
  exact ⟨s, a, t, hrun, ha, ht, (success_exchanged hrun ha).2.2 t ht⟩

/-- The authorization at an index is not the one observed. -/
def Abandoned (i : ℕ) (a : Authorization) (s : AuthState) : Prop :=
  s.authorizations[i]? = some a ∧ s.observer ≠ some i

/-- What waits for its callback and is not observed stays as it is. -/
lemma abandoned_step (hs : Abandoned i a s) (hphase : a.phase = .authorizing)
    (h : s.step parse e = .ok s') : Abandoned i a s' := by
  obtain ⟨ha, hobserver⟩ := hs
  have hother : ∀ j b, s.authorizations[j]? = some b → b.phase ≠ .authorizing → j ≠ i := by
    rintro j b hb hne rfl
    rw [ha] at hb
    exact hne (Option.some_inj.mp hb ▸ hphase)
  cases e with
  | authorize callbackURL forceLogin =>
    obtain rfl := Except.ok.inj h
    have hlt := (List.getElem?_eq_some_iff.mp ha).1
    exact ⟨by rw [List.getElem?_append_left hlt, ha], hobserver⟩
  | requestTokenResponse j body =>
    obtain ⟨b, hb, h⟩ := withAuthorization_ok h
    obtain ⟨hb', token, -, rfl⟩ := requestTokenStep_ok h
    have hne := hother j b hb (by rw [hb']; exact fun h => nomatch h)
    exact ⟨(List.getElem?_set_ne hne).trans ha, fun heq => hne (Option.some_inj.mp heq)⟩
  | accessTokenResponse j body =>
    obtain ⟨b, hb, h⟩ := withAuthorization_ok h
    obtain ⟨hb', token, -, rfl⟩ := accessTokenStep_ok h
    have hne := hother j b hb (by rw [hb']; exact fun h => nomatch h)
    exact ⟨(List.getElem?_set_ne hne).trans ha, hobserver⟩
  | reject j response =>
    obtain ⟨b, hb, h⟩ := withAuthorization_ok h
    obtain ⟨hb', error, rfl⟩ := rejectStep_ok h
    have hne := hother j b hb (by
      rcases hb' with hb' | hb' <;> rw [hb'] <;> exact fun h => nomatch h)
    exact ⟨(List.getElem?_set_ne hne).trans ha, hobserver⟩
  | fail j code =>
    obtain ⟨b, hb, h⟩ := withAuthorization_ok h
    obtain ⟨hb', rfl⟩ := failStep_ok h
    have hne := hother j b hb (by
      rcases hb' with hb' | hb' <;> rw [hb'] <;> exact fun h => nomatch h)
    exact ⟨(List.getElem?_set_ne hne).trans ha, hobserver⟩
  | handleOpenURL url callbackURL =>
    rcases handleOpenURL_ok h with ⟨rfl, -⟩ | ⟨-, j, b, b', hj, -, -, rfl⟩
    · exact ⟨ha, hobserver⟩
    · have hne : j ≠ i := fun heq => hobserver (heq ▸ hj)
      exact ⟨(List.getElem?_set_ne hne).trans ha, fun h => nomatch h⟩

/-- **An authorization is lost when another page opens before its callback**: whatever happens from
then on, it calls no handler. -/
theorem authorization_lost
    (h : Run.run (AuthState.step parse) AuthState.launch es = .ok s)
    (ha : s.authorizations[i]? = some a) (hphase : a.phase = .authorizing) (j : ℕ) (body : Data)
    (hopen : s.step parse (.requestTokenResponse j body) = .ok s') (es' : List AuthEvent)
    {t : AuthState} (ht : Run.run (AuthState.step parse) s' es' = .ok t) :
    t.authorizations[i]? = some a ∧ a.calls = [] := by
  have hwf := (authInv_run h).wellFormed i a ha
  rw [Authorization.WellFormed, hphase] at hwf
  refine ⟨?_, hwf.1⟩
  have hstart : Abandoned i a s' := by
    obtain ⟨b, hb, hstep⟩ := withAuthorization_ok hopen
    obtain ⟨hb', token, -, rfl⟩ := requestTokenStep_ok hstep
    have hne : j ≠ i := by
      rintro rfl
      rw [ha] at hb
      rw [Option.some_inj.mp hb, hb'] at hphase
      cases hphase
    exact ⟨(List.getElem?_set_ne hne).trans ha, fun heq => hne (Option.some_inj.mp heq)⟩
  exact (Run.run_inv (fun _ _ _ hs => abandoned_step hs hphase) hstart ht).1

/-- Two pages are opened, and the callback is for the first. -/
theorem authorization_lost_first : ∃ s a, Run.run (AuthState.step noParser) AuthState.launch
      [.authorize "app://done".toList false, .authorize "app://done".toList true,
        .requestTokenResponse 0 (utf8 "oauth_token=K1&oauth_token_secret=S1".toList),
        .requestTokenResponse 1 (utf8 "oauth_token=K2&oauth_token_secret=S2".toList),
        .handleOpenURL ⟨some "app".toList, some "oauth_token=K1&oauth_verifier=V1".toList⟩
          ⟨some "app".toList, none⟩] = .ok s ∧ s.authorizations[0]? = some a ∧ a.calls = [] := by
  have hrun : Run.run (AuthState.step noParser) AuthState.launch
      [.authorize "app://done".toList false, .authorize "app://done".toList true,
        .requestTokenResponse 0 (utf8 "oauth_token=K1&oauth_token_secret=S1".toList)] = .ok _ := rfl
  exact ⟨_, _, rfl, authorization_lost hrun rfl rfl 1
    (utf8 "oauth_token=K2&oauth_token_secret=S2".toList) rfl
    [.handleOpenURL ⟨some "app".toList, some "oauth_token=K1&oauth_verifier=V1".toList⟩
      ⟨some "app".toList, none⟩] rfl⟩

end Steps

end IosDevBootcamp.Swifter
