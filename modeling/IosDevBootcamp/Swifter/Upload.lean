import IosDevBootcamp.Lib.Run
import IosDevBootcamp.Lib.Segments
import IosDevBootcamp.Swifter.Media

/-!
# Swifter: the moves of an upload

What an upload sends follows a script: it announces its data, appends the segments in order, finalizes,
asks for the status as often as it is told to, and tweets.  What the server has received of it is always
a beginning of the script, up to the request that the upload waits for.
-/

namespace IosDevBootcamp.Swifter

open IosDevBootcamp.Lib IosDevBootcamp.Lib.Segments
open IosDevBootcamp.Twittermenti (JSON)

/-! ### Segments -/

lemma chunkSize_pos : 0 < chunkSize := by decide

/-- A segment that begins in the data or at its end can be taken, if the data is no slice or is empty. -/
lemma subData_eq {data : Data} {startIndex i : ℕ} (hstart : startIndex = 0 ∨ data = [])
    (hi : i * chunkSize ≤ data.length) :
    subData startIndex data i = some (Segments.segment chunkSize data i) := by
  rcases hstart with rfl | rfl
  · have hlocation : ((i : ℤ) * (chunkSize : ℤ)) = ((i * chunkSize : ℕ) : ℤ) := by push_cast; rfl
    unfold subData Segments.segment
    simp only [hlocation, Nat.cast_zero, sub_zero, zero_add, Int.toNat_natCast]
    have hlength : ((if data.length < chunkSize then (data.length : ℤ)
        else min ((data.length : ℤ) - ((i * chunkSize : ℕ) : ℤ)) chunkSize)) =
        ((min (data.length - i * chunkSize) chunkSize : ℕ) : ℤ) := by
      split
      · rename_i hlt
        have hzero : i * chunkSize = 0 := by
          cases i with
          | zero => exact Nat.zero_mul _
          | succ i =>
            rw [Nat.add_mul, Nat.one_mul] at hi
            omega
        rw [hzero]
        omega
      · omega
    rw [hlength, if_neg (by omega), Int.toNat_natCast]
    refine congrArg some ?_
    rw [List.take_eq_take_iff, List.length_drop]
    omega
  · simp [subData, Segments.segment, chunkSize]

/-- The first segment of a slice that is not empty cannot be taken. -/
lemma subData_slice {data : Data} {startIndex : ℕ} (hstart : startIndex ≠ 0) (hdata : data ≠ []) :
    subData startIndex data 0 = none := by
  have hpos := List.length_pos_iff.mpr hdata
  have hlength : (0 : ℤ) < if data.length < chunkSize then (data.length : ℤ)
      else min ((data.length : ℤ) - 0) chunkSize := by
    have hchunk := chunkSize_pos
    split <;> omega
  unfold subData
  simp only [Nat.cast_zero, zero_mul]
  exact if_pos (Or.inr ⟨hlength, Or.inl (by omega)⟩)

/-! ### The script -/

namespace Upload

variable (u : Upload)

/-- The requests before a segment. -/
def announced (id : String) (k : ℕ) : List MediaRequest :=
  .INIT u.data.length u.type.rawValue u.category.rawValue ::
    (numbered chunkSize u.data k).map fun p =>
      .APPEND id p.1 (u.name.getD "Swifter.media") p.2

/-- The requests up to a number of questions for the status. -/
def polled (id : String) (n : ℕ) : List MediaRequest :=
  u.announced id (count chunkSize u.data) ++ .FINALIZE id :: List.replicate n (.STATUS id)

/-- All requests, as far as they are known without an identifier. -/
def script (n : ℕ) : List MediaRequest :=
  match u.mediaId with
  | none => u.announced "" 0
  | some id =>
    match u.purpose with
    | .multipartMedia => u.polled id n
    | .tweetWithGif text => u.polled id n ++ [.tweet text id]

/-- A request is the next one after those that were received. -/
def Makes (l : List MediaRequest) : MediaRequest → Prop
  | .INIT totalBytes mediaType mediaCategory => l = [] ∧ u.mediaId = none ∧
      totalBytes = u.data.length ∧ mediaType = u.type.rawValue ∧ mediaCategory = u.category.rawValue
  | .APPEND id i name data => l = u.announced id i ∧ u.mediaId = some id ∧
      i * chunkSize ≤ u.data.length ∧ data = Segments.segment chunkSize u.data i ∧
      name = u.name.getD "Swifter.media" ∧ (u.startIndex = 0 ∨ u.data = [])
  | .FINALIZE id => l = u.announced id (count chunkSize u.data) ∧ u.mediaId = some id
  | .STATUS id => (∃ n, l = u.polled id n) ∧ u.mediaId = some id
  | .tweet status id => (∃ n, l = u.polled id n) ∧ u.mediaId = some id ∧
      u.purpose = .tweetWithGif status

/-- What the server has received is what the upload has sent before it waits. -/
def WellFormed (l : List MediaRequest) : Prop :=
  match u.phase with
  | .sent request => u.Makes l request ∧ u.calls = []
  | .answered request _ => (∃ l', l = l' ++ [request] ∧ u.Makes l' request) ∧ u.calls = []
  | .delayed id => (∃ n, l = u.polled id n) ∧ u.mediaId = some id ∧ u.calls = []
  | .finished => (∃ n, l <+: u.script n) ∧ ∃ c, u.calls = [c] ∧
      ∀ json, c = .success json → u.mediaId ≠ none ∧ ∃ n, l = u.script n

end Upload

section Script

variable {u : Upload} {l : List MediaRequest} {id : String}

lemma announced_succ (u : Upload) (id : String) (k : ℕ) :
    u.announced id (k + 1) = u.announced id k ++
      [.APPEND id k (u.name.getD "Swifter.media") (Segments.segment chunkSize u.data k)] := by
  simp [Upload.announced, numbered_succ]

lemma polled_succ (u : Upload) (id : String) (n : ℕ) :
    u.polled id (n + 1) = u.polled id n ++ [.STATUS id] := by
  simp [Upload.polled, List.replicate_succ']

lemma announced_begins (u : Upload) (id : String) {k m : ℕ} (h : k ≤ m) :
    u.announced id k <+: u.announced id m := by
  obtain ⟨n, rfl⟩ := Nat.exists_eq_add_of_le h
  induction n with
  | zero => exact List.prefix_rfl
  | succ n ih =>
    rw [← Nat.add_assoc, announced_succ]
    exact (ih (Nat.le_add_right k n)).trans (List.prefix_append _ _)

/-- What is sent before the tweet is a beginning of the script. -/
lemma polled_begins (hid : u.mediaId = some id) (n : ℕ) : u.polled id n <+: u.script n := by
  rw [Upload.script, hid]
  cases u.purpose with
  | multipartMedia => exact List.prefix_rfl
  | tweetWithGif text => exact List.prefix_append _ _

lemma announced_prefix_script (hid : u.mediaId = some id) {k : ℕ}
    (hk : k ≤ count chunkSize u.data) (n : ℕ) : u.announced id k <+: u.script n :=
  ((announced_begins u id hk).trans (List.prefix_append _ _)).trans (polled_begins hid n)

/-- A segment of the data has an index below their number. -/
lemma lt_count {i : ℕ} (hi : i * chunkSize ≤ u.data.length) : i < count chunkSize u.data :=
  Nat.lt_succ_of_le ((Nat.le_div_iff_mul_le chunkSize_pos).mpr hi)

/-- **A request that is made continues the script.** -/
lemma Upload.Makes.prefix_script {request : MediaRequest} (h : u.Makes l request) :
    ∃ n, l ++ [request] <+: u.script n := by
  cases request with
  | INIT totalBytes mediaType mediaCategory =>
    obtain ⟨rfl, hid, rfl, rfl, rfl⟩ := h
    have hscript : u.script 0 = u.announced "" 0 := by rw [Upload.script, hid]
    exact ⟨0, hscript ▸ List.prefix_rfl⟩
  | APPEND id i name data =>
    obtain ⟨rfl, hid, hi, rfl, rfl, -⟩ := h
    refine ⟨0, ?_⟩
    rw [← announced_succ]
    exact announced_prefix_script hid (lt_count hi) 0
  | FINALIZE id =>
    obtain ⟨rfl, hid⟩ := h
    exact ⟨0, polled_begins hid 0⟩
  | STATUS id =>
    obtain ⟨⟨n, rfl⟩, hid⟩ := h
    refine ⟨n + 1, ?_⟩
    rw [← polled_succ]
    exact polled_begins hid (n + 1)
  | tweet status id =>
    obtain ⟨⟨n, rfl⟩, hid, hpurpose⟩ := h
    have hscript : u.script n = u.polled id n ++ [.tweet status id] := by
      rw [Upload.script, hid, hpurpose]
    exact ⟨n, hscript ▸ List.prefix_rfl⟩

/-- What the server has received is a beginning of the script. -/
lemma Upload.WellFormed.prefix_script (h : u.WellFormed l) : ∃ n, l <+: u.script n := by
  unfold Upload.WellFormed at h
  split at h
  · obtain ⟨n, hn⟩ := h.1.prefix_script
    exact ⟨n, (List.prefix_append l _).trans hn⟩
  · obtain ⟨⟨l', rfl, hmakes⟩, -⟩ := h
    exact hmakes.prefix_script
  · obtain ⟨⟨n, rfl⟩, hid, -⟩ := h
    exact ⟨n, polled_begins hid n⟩
  · exact h.1

end Script

/-! ### Moves -/

section Moves

variable {parse : Parser} {u u' : Upload} {l : List MediaRequest} {id : String} {json : JSON}

lemma wellFormed_send {request : MediaRequest} (hmakes : u.Makes l request) (hcalls : u.calls = []) :
    (u.send request).WellFormed l :=
  ⟨by cases request <;> exact hmakes, hcalls⟩

/-- The server has received the request that was sent. -/
lemma wellFormed_answered {request : MediaRequest} (hphase : u.phase = .sent request)
    (h : u.WellFormed l) (response : Response) :
    ({ u with phase := .answered request response } : Upload).WellFormed (l ++ [request]) := by
  rw [Upload.WellFormed, hphase] at h
  exact ⟨⟨l, rfl, by cases request <;> exact h.1⟩, h.2⟩

lemma wellFormed_failure (hcalls : u.calls = []) (hscript : ∃ n, l <+: u.script n)
    (error : RequestError) : (u.call (.failure error)).WellFormed l :=
  ⟨hscript, .failure error, by simp [Upload.call, hcalls], nofun⟩

/-- The next segment is within the data, so it can be taken. -/
lemma appendUpload_eq {i : ℕ} (hstart : u.startIndex = 0 ∨ u.data = [])
    (hi : i * chunkSize ≤ u.data.length) : u.appendUpload id i = .ok (u.send
      (.APPEND id i (u.name.getD "Swifter.media") (Segments.segment chunkSize u.data i))) := by
  rw [Upload.appendUpload, subData_eq hstart hi]

lemma wellFormed_finalized {n : ℕ} (hid : u.mediaId = some id) (hcalls : u.calls = [])
    (hl : l = u.polled id n) : (u.finalized id json).WellFormed l := by
  unfold Upload.finalized
  split
  · rename_i hpurpose
    have hscript : u.script n = l := by rw [Upload.script, hid, hpurpose, hl]
    refine ⟨⟨n, hscript ▸ List.prefix_rfl⟩, .success json, by simp [Upload.call, hcalls],
      fun _ _ => ⟨?_, n, hscript.symm⟩⟩
    exact fun h => Option.some_ne_none id (hid.symm.trans h)
  · rename_i text hpurpose
    exact wellFormed_send ⟨⟨n, hl⟩, hid, hpurpose⟩ hcalls

lemma wellFormed_statusCheck {processingInfo : List (String × JSON)} {n : ℕ}
    (hid : u.mediaId = some id) (hcalls : u.calls = []) (hl : l = u.polled id n)
    (h : u.statusCheck id json processingInfo = .ok u') : u'.WellFormed l := by
  unfold Upload.statusCheck at h
  split at h
  · cases h
  · split at h
    · split at h
      · cases h
      · obtain rfl := Except.ok.inj h
        exact ⟨⟨n, hl⟩, hid, hcalls⟩
    · split at h
      · obtain rfl := Except.ok.inj h
        exact wellFormed_finalized hid hcalls hl
      · obtain rfl := Except.ok.inj h
        exact wellFormed_failure hcalls ⟨n, hl ▸ polled_begins hid n⟩ _

/-- The identifier is in the answer to `INIT`. -/
lemma wellFormed_prepared (hcalls : u.calls = []) (hmediaId : u.mediaId = none)
    (hl : l = u.announced "" 0) (h : u.prepared json = .ok u') : u'.WellFormed l := by
  have hnone : u.script 0 = l := by rw [Upload.script, hmediaId, hl]
  have hscript : ∃ n, l <+: u.script n := ⟨0, hnone ▸ List.prefix_rfl⟩
  unfold Upload.prepared at h
  split at h
  · rename_i id hid
    by_cases hstart : u.startIndex = 0 ∨ u.data = []
    · rw [appendUpload_eq (u := { u with mediaId := some id }) (i := 0) hstart (by simp)] at h
      obtain rfl := Except.ok.inj h
      exact ⟨⟨hl, rfl, by simp, rfl, rfl, hstart⟩, hcalls⟩
    · obtain ⟨hstart, hdata⟩ := not_or.mp hstart
      rw [Upload.appendUpload, subData_slice hstart hdata] at h
      cases h
  · split at h
    all_goals
      obtain rfl := Except.ok.inj h
      exact wellFormed_failure hcalls hscript _

/-- **What a success handler makes of an upload.** -/
lemma wellFormed_succeed {request : MediaRequest} {response : Response}
    (hphase : u.phase = .answered request response) (hwf : u.WellFormed l)
    (h : u.succeed json request = .ok u') : u'.WellFormed l := by
  have hscript := hwf.prefix_script
  rw [Upload.WellFormed, hphase] at hwf
  obtain ⟨⟨l', rfl, hmakes⟩, hcalls⟩ := hwf
  cases request with
  | INIT totalBytes mediaType mediaCategory =>
    obtain ⟨rfl, hid, rfl, rfl, rfl⟩ := hmakes
    exact wellFormed_prepared hcalls hid rfl h
  | APPEND id i name data =>
    obtain ⟨rfl, hid, hi, rfl, rfl, hstart⟩ := hmakes
    rw [← announced_succ]
    simp only [Upload.succeed] at h
    split at h
    · rename_i hlast
      obtain rfl := Except.ok.inj h
      rw [(eq_count_iff chunkSize_pos hi).mpr hlast]
      exact wellFormed_send ⟨rfl, hid⟩ hcalls
    · rename_i hmore
      rw [appendUpload_eq hstart (Nat.le_of_not_lt hmore)] at h
      obtain rfl := Except.ok.inj h
      exact wellFormed_send ⟨rfl, hid, Nat.le_of_not_lt hmore, rfl, rfl, hstart⟩ hcalls
  | FINALIZE id =>
    obtain ⟨rfl, hid⟩ := hmakes
    simp only [Upload.succeed] at h
    split at h
    · split at h
      · exact wellFormed_statusCheck (n := 0) hid hcalls rfl h
      · obtain rfl := Except.ok.inj h
        exact wellFormed_finalized (n := 0) hid hcalls rfl
    · obtain rfl := Except.ok.inj h
      exact wellFormed_failure hcalls hscript _
  | STATUS id =>
    obtain ⟨⟨n, rfl⟩, hid⟩ := hmakes
    simp only [Upload.succeed] at h
    split at h
    · exact wellFormed_statusCheck hid hcalls (polled_succ u id n).symm h
    · obtain rfl := Except.ok.inj h
      exact wellFormed_failure hcalls hscript _
  | tweet status id =>
    obtain ⟨⟨n, rfl⟩, hid, hpurpose⟩ := hmakes
    obtain rfl := Except.ok.inj h
    refine ⟨hscript, .success json, by simp [Upload.call, hcalls], fun _ _ => ⟨?_, n, ?_⟩⟩
    · exact fun h => Option.some_ne_none id (hid.symm.trans h)
    · change _ = u.script n
      rw [Upload.script, hid, hpurpose]

/-- **What a response makes of an upload.** -/
lemma wellFormed_respond {request : MediaRequest} {response : Response}
    (hphase : u.phase = .answered request response) (hwf : u.WellFormed l)
    (h : u.respond parse request response = .ok u') : u'.WellFormed l := by
  unfold Upload.respond at h
  split at h
  · cases h
  · obtain rfl := Except.ok.inj h
    have hcalls : u.calls = [] := by
      rw [Upload.WellFormed, hphase] at hwf
      exact hwf.2
    exact wellFormed_failure hcalls hwf.prefix_script _
  · exact wellFormed_succeed hphase hwf h

/-- A connection that fails. -/
lemma wellFormed_fail {error : RequestError} (hwf : u.WellFormed l)
    (hphase : (∃ request, u.phase = .sent request) ∨
      ∃ request response, u.phase = .answered request response) :
    (u.call (.failure error)).WellFormed l := by
  have hcalls : u.calls = [] := by
    rcases hphase with ⟨request, hphase⟩ | ⟨request, response, hphase⟩ <;>
      rw [Upload.WellFormed, hphase] at hwf <;> exact hwf.2
  exact wellFormed_failure hcalls hwf.prefix_script _

/-- The delay is over. -/
lemma wellFormed_fire (hphase : u.phase = .delayed id) (hwf : u.WellFormed l) :
    (u.send (.STATUS id)).WellFormed l := by
  rw [Upload.WellFormed, hphase] at hwf
  exact wellFormed_send ⟨hwf.1, hwf.2.1⟩ hwf.2.2

end Moves

end IosDevBootcamp.Swifter
