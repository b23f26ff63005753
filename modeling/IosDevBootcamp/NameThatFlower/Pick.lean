import IosDevBootcamp.NameThatFlower.Defs

/-!
# Which pick the screen stems from

The title follows the picks, the texts follow the responses, in the order in which they arrive, and
the image follows both.  So the parts of the view belong together when the last response that
brought a value answers the latest pick, and at no other time.
-/

namespace IosDevBootcamp.NameThatFlower

open IosDevBootcamp.Lib IosDevBootcamp.Lib.Run ViewController

variable {Image J : Type*}

/-! ### The events -/

def Event.isPick : Event Image J → Bool
  | .pick _ _ _ => true
  | .response _ _ => false

/-- The pick whose request is answered with a value. -/
def Event.success : Event Image J → Option ℕ
  | .response i (some _) => some i
  | _ => none

/-- The number of picks; the latest one is the number before. -/
def picks (es : List (Event Image J)) : ℕ := es.countP Event.isPick

/-- The picks whose requests have been answered with a value, in the order of the responses. -/
def successes (es : List (Event Image J)) : List ℕ := es.filterMap Event.success

/-- Every part of the view stems from the pick `p`. -/
structure Stems (s : ViewController Image) (p : ℕ) : Prop where
  title : s.title.pick = some p
  titleLabel : s.titleLabel.pick = some p
  descriptionLabel : s.descriptionLabel.pick = some p
  imageView : s.imageView.pick = some p

/-! ### What every run keeps -/

/-- The image stems from the last response or the latest pick, and the title from a pick that no
request and no response is newer than. -/
structure Follows (s : ViewController Image) (es : List (Event Image J)) : Prop where
  picks : s.picks = picks es
  imageView : s.imageView.pick = (successes es).getLast? ∨
    ∃ p, s.imageView.pick = some p ∧ p + 1 = s.picks
  title_lt : ∀ t, s.title.pick = some t → t < s.picks
  le_title : ∀ i, i ∈ s.requests.map Request.pick ∨ i ∈ successes es →
    ∃ t, s.title.pick = some t ∧ i ≤ t

lemma follows_launch : Follows (launch : ViewController Image) ([] : List (Event Image J)) := by
  constructor <;> simp [launch, NameThatFlower.picks, successes]

variable {L : Library J} {s s' : ViewController Image} {es : List (Event Image J)}

lemma picks_append_pick (o : Option Image) (b : Bool) (c : Classification) :
    picks (es ++ [.pick o b c]) = picks es + 1 := by
  simp [picks, Event.isPick]

lemma successes_append_pick (o : Option Image) (b : Bool) (c : Classification) :
    successes (es ++ [.pick o b c]) = successes es := by
  simp [successes, Event.success]

lemma picks_append_response (i : ℕ) (r : Option J) :
    picks (es ++ [.response i r]) = picks es := by
  simp [picks, Event.isPick]

/-- A pick that goes through shows its image, and titles the screen and sends its request when the
classification has a result. -/
lemma step_pick_cases {o : Option Image} {b : Bool} {c : Classification}
    (h : step L s (.pick o b c) = .ok s') :
    ∃ image, s' = { s with imageView := ⟨.image image, some s.picks⟩, picks := s.picks + 1 } ∨
      ∃ name q, q.pick = s.picks ∧ s' = { s with
        title := ⟨name, some s.picks⟩
        imageView := ⟨.image image, some s.picks⟩
        picks := s.picks + 1
        requests := s.requests ++ [q] } := by
  simp only [step, imagePickerController] at h
  split at h
  · cases h
  · rename_i image
    refine ⟨image, ?_⟩
    split at h
    · simp only [process] at h
      split at h
      · split at h
        · cases h
        · split at h
          · cases h
            rw [classified]
            split
            · exact .inr ⟨_, _, rfl, rfl⟩
            · exact .inl rfl
          · cases h
      · cases h
    · cases h

lemma follows_pick {o : Option Image} {b : Bool} {c : Classification} (hf : Follows s es)
    (h : step L s (.pick o b c) = .ok s') : Follows s' (es ++ [.pick o b c]) := by
  have hpicks : s.picks + 1 = picks (es ++ [.pick o b c]) := by
    rw [picks_append_pick, hf.picks]
  obtain ⟨image, rfl | ⟨name, q, hq, rfl⟩⟩ := step_pick_cases h
  · refine ⟨hpicks, .inr ⟨s.picks, rfl, rfl⟩, ?_, ?_⟩
    · intro t ht
      have hlt : t < s.picks := hf.title_lt t ht
      show t < s.picks + 1
      omega
    · rw [successes_append_pick]
      exact hf.le_title
  · refine ⟨hpicks, .inr ⟨s.picks, rfl, rfl⟩, ?_, ?_⟩
    · intro t ht
      obtain rfl : s.picks = t := Option.some.inj ht
      exact Nat.lt_succ_self _
    · intro i hi
      refine ⟨s.picks, rfl, ?_⟩
      rw [successes_append_pick, List.map_append, List.mem_append, List.map_singleton,
        List.mem_singleton, hq, or_right_comm] at hi
      rcases hi with hi | rfl
      · -- the older title bounds it, and is itself of an older pick
        obtain ⟨t, ht, hit⟩ := hf.le_title i hi
        have hlt : t < s.picks := hf.title_lt t ht
        omega
      · exact Nat.le_refl _

lemma follows_response {i : ℕ} {r : Option J} (hf : Follows s es)
    (h : step L s (.response i r) = .ok s') : Follows s' (es ++ [.response i r]) := by
  simp only [step] at h
  split at h
  · rename_i hi
    have hsub : ∀ j, j ∈ (Keyed.erase Request.pick s.requests i).map Request.pick →
        j ∈ s.requests.map Request.pick := by
      intro j hj
      rw [Keyed.map_key_erase] at hj
      exact List.mem_of_mem_filter hj
    cases r with
    | none =>
      cases h
      have hnone : successes (es ++ [.response i (none : Option J)]) = successes es := by
        simp [successes, Event.success]
      refine ⟨?_, ?_, hf.title_lt, ?_⟩
      · unfold responseJSON
        rw [picks_append_response, hf.picks]
      · rw [hnone]
        exact hf.imageView
      · intro j hj
        rw [hnone] at hj
        exact hf.le_title j (hj.imp_left (hsub j))
    | some json =>
      cases h
      have hlast : successes (es ++ [.response i (some json)]) = successes es ++ [i] := by
        simp [successes, Event.success]
      refine ⟨?_, .inl ?_, hf.title_lt, ?_⟩
      · unfold responseJSON
        rw [picks_append_response, hf.picks]
      · unfold responseJSON
        rw [hlast, List.getLast?_concat]
      · intro j hj
        rw [hlast, List.mem_append, List.mem_singleton] at hj
        rcases hj with hj | hj | rfl
        · exact hf.le_title j (.inl (hsub j hj))
        · exact hf.le_title j (.inr hj)
        · exact hf.le_title j (.inl hi)
  · cases h

/-- A response that brings a value writes both texts, and no other event touches them. -/
lemma step_texts {e : Event Image J} (h : step L s e = .ok s') :
    s'.titleLabel.pick = (e.success.map some).getD s.titleLabel.pick ∧
      s'.descriptionLabel.pick = (e.success.map some).getD s.descriptionLabel.pick := by
  cases e with
  | pick o b c => obtain ⟨image, rfl | ⟨name, q, -, rfl⟩⟩ := step_pick_cases h <;> exact ⟨rfl, rfl⟩
  | response i r =>
    simp only [step] at h
    split at h
    · cases r <;> cases h <;> exact ⟨rfl, rfl⟩
    · cases h

/-! ### Runs -/

/-- The texts stem from the last response that brought a value. -/
theorem texts_run (h : run (step L) launch es = .ok s) :
    s.titleLabel.pick = (successes es).getLast? ∧
      s.descriptionLabel.pick = (successes es).getLast? := by
  have hsome : ((successes es).getLast?.map some).getD none = (successes es).getLast? := by
    cases (successes es).getLast? <;> rfl
  have htitle := run_last_write (v := fun s => s.titleLabel.pick)
    (fun _ _ _ hs => (step_texts hs).1) h
  have hdescription := run_last_write (v := fun s => s.descriptionLabel.pick)
    (fun _ _ _ hs => (step_texts hs).2) h
  exact ⟨htitle.trans hsome, hdescription.trans hsome⟩

theorem follows_run (h : run (step L) launch es = .ok s) : Follows s es := by
  refine run_history ?_ follows_launch h
  intro s es e s' hf hs
  cases e with
  | pick o b c => exact follows_pick hf hs
  | response i r => exact follows_response hf hs

/-! ### When the screen stems from the latest pick -/

/-- **When two flowers are not mixed.**  At the end of a run, the title, both texts and the image
stem from the latest pick exactly when the last response that brought a value is the response to
its request. -/
theorem stems_iff_last_response {p : ℕ} (h : run (step L) launch es = .ok s)
    (hp : picks es = p + 1) : Stems s p ↔ (successes es).getLast? = some p := by
  have hf : Follows s es := follows_run h
  have hpicks : s.picks = p + 1 := hf.picks.trans hp
  obtain ⟨htitle, hdescription⟩ := texts_run h
  constructor
  · intro hs
    rw [← htitle]
    exact hs.titleLabel
  · intro hlast
    refine ⟨?_, htitle.trans hlast, hdescription.trans hlast, ?_⟩
    · -- the title is at least as new as the response, and nothing is newer than the latest pick
      obtain ⟨t, ht, hpt⟩ := hf.le_title p (.inr (List.mem_of_getLast? hlast))
      have htlt := hf.title_lt t ht
      obtain rfl : t = p := by omega
      exact ht
    · rcases hf.imageView with himage | ⟨t, ht, htp⟩
      · exact himage.trans hlast
      · obtain rfl : t = p := by omega
        exact ht

/-! ### Two flowers -/

/-- A JSON value given by the texts at its paths, with the empty text anywhere else. -/
def tableLibrary : Library (List (List PathElement × String)) :=
  ⟨fun json path => (json.lookup path).getD "", String.capitalize⟩

/-- An article without extract and thumbnail. -/
def article (pageid title : String) : List (List PathElement × String) :=
  [([.key "query", .key "pageids", .index 0], pageid),
    ([.key "query", .key "pages", .key pageid, .key "title"], title)]

/-- The pick of an image that is classified as the flower. -/
def pickOf (identifier : String) : Event Unit (List (List PathElement × String)) :=
  .pick (some ()) true ⟨true, some [identifier], true⟩

theorem stems_iff_last_response_tulip :
    ∃ s, run (step tableLibrary) launch [pickOf "rose", pickOf "tulip",
        .response 0 (some (article "25" "Rose")), .response 1 (some (article "52" "Tulip"))] =
          .ok s ∧
      s.title.value = "Tulip" ∧ s.titleLabel.value = "Tulip" ∧ Stems s 1 := by
  obtain ⟨s, hs, htitle, hlabel⟩ : ∃ s, run (step tableLibrary) launch [pickOf "rose",
      pickOf "tulip", .response 0 (some (article "25" "Rose")),
      .response 1 (some (article "52" "Tulip"))] = .ok s ∧
      s.title.value = "Tulip" ∧ s.titleLabel.value = "Tulip" :=
    ⟨_, rfl, by decide +kernel, by decide +kernel⟩
  exact ⟨s, hs, htitle, hlabel, (stems_iff_last_response hs rfl).mpr rfl⟩

/-- With the response to the older pick last, or with the request of the newer pick failing, the
texts of the rose stand under the title of the tulip. -/
theorem rose_under_tulip :
    (∃ s, run (step tableLibrary) launch [pickOf "rose", pickOf "tulip",
        .response 1 (some (article "52" "Tulip")), .response 0 (some (article "25" "Rose"))] =
          .ok s ∧
      s.requests = [] ∧ s.title.value = "Tulip" ∧ s.titleLabel.value = "Rose" ∧
      ¬ Stems s 1) ∧
    ∃ s, run (step tableLibrary) launch [pickOf "rose",
        .response 0 (some (article "25" "Rose")), pickOf "tulip", .response 1 none] = .ok s ∧
      s.requests = [] ∧ s.title.value = "Tulip" ∧ s.titleLabel.value = "Rose" ∧
      ¬ Stems s 1 := by
  refine ⟨⟨_, rfl, by decide +kernel, by decide +kernel, by decide +kernel, ?_⟩,
    ⟨_, rfl, by decide +kernel, by decide +kernel, by decide +kernel, ?_⟩⟩
  · intro h
    exact absurd h.titleLabel (by decide +kernel)
  · intro h
    exact absurd h.titleLabel (by decide +kernel)

end IosDevBootcamp.NameThatFlower
