import Mathlib.Tactic.Common
import IosDevBootcamp.Lib.Loop
import IosDevBootcamp.Twittermenti.Defs

/-!
# The mood on screen

The emoji comes from the mood of the response that arrived last: the sign of its positive labels
less its negative ones.  The responses arrive in any order, so this need not be the mood of the
latest search.
-/

namespace IosDevBootcamp.Twittermenti

open IosDevBootcamp.Lib IosDevBootcamp.Lib.Run JSON ViewController

/-! ### Moods -/

inductive Mood
  | positive
  | negative
  | neutral
  deriving DecidableEq, Repr

def Mood.emojis : Mood → List String
  | .positive => positiveEmojis
  | .negative => negativeEmojis
  | .neutral => neutralEmojis

/-- The texts among the first hundred results. -/
def fullTexts : JSON → List String
  | .array values => (values.take 100).filterMap fun r => (r.subscriptKey "full_text").string?
  | _ => []

def score (classifier : String → String) (results : JSON) : ℤ :=
  let labels := (fullTexts results).map classifier
  (labels.count "Pos" : ℤ) - labels.count "Neg"

def mood (classifier : String → String) (results : JSON) : Mood :=
  if 0 < score classifier results then .positive
  else if score classifier results < 0 then .negative
  else .neutral

def Shows (s : ViewController) (m : Mood) : Prop := ∃ e ∈ m.emojis, s.sentimentLabel = some e

lemma emojis_disjoint {m n : Mood} {e : String} (hm : e ∈ m.emojis) (hn : e ∈ n.emojis) :
    m = n := by
  have hall : ∀ m n : Mood, ∀ e ∈ m.emojis, e ∈ n.emojis → m = n := by
    intro m n
    cases m <;> cases n <;> decide
  exact hall m n e hm hn

lemma randomElement_mem {emojis : List String} (h : emojis ≠ []) (random : ℕ) :
    ∃ e ∈ emojis, randomElement emojis random = some e := by
  have hlt : random % emojis.length < emojis.length :=
    Nat.mod_lt _ (List.length_pos_iff.mpr h)
  exact ⟨emojis[random % emojis.length], List.getElem_mem hlt, List.getElem?_eq_getElem hlt⟩

lemma emojis_ne_nil (m : Mood) : m.emojis ≠ [] := by
  cases m <;> decide

/-! ### What one response shows -/

/-- A response that brings results, with the draw. -/
structure Answer where
  tap : ℕ
  results : JSON
  random : ℕ

def Event.answer : Event → Option Answer
  | .success tap json random => some ⟨tap, json.subscriptKey "statuses", random⟩
  | .predictPressed _ => none
  | .failure _ => none

/-- The responses that brought results, in the order in which they arrived. -/
def answers (es : List Event) : List Answer := es.filterMap Event.answer

/-- The answer to the search tapped last, among those answered. -/
structure IsLatest (es : List Event) (a : Answer) : Prop where
  mem : a ∈ answers es
  tap_le : ∀ b ∈ answers es, b.tap ≤ a.tap

variable (classifier : String → String)

/-- A classifier that labels every tweet. -/
def predictions (tweets : List String) : Option (List String) := some (tweets.map classifier)

def label (a : Answer) : Option String := randomElement (mood classifier a.results).emojis a.random

lemma tweets_eq_fullTexts (results : JSON) : tweets results = fullTexts results := by
  have hloop : tweets results = (List.range tweetCount).filterMap fun i =>
      ((results.subscriptIndex i).subscriptKey "full_text").string? := by
    refine (Loop.foldl_collect ?_ _ []).trans (List.nil_append _)
    intro acc i
    unfold appendTweet
    cases ((results.subscriptIndex i).subscriptKey "full_text").string? with
    | none => exact (List.append_nil acc).symm
    | some tweet => rfl
  have hinvalid : (JSON.invalid.subscriptKey "full_text").string? = none := rfl
  rw [hloop]
  cases results with
  | array values =>
    rw [fullTexts, ← Loop.filterMap_range_getElem?]
    apply List.filterMap_congr
    intro i _
    rw [subscriptIndex]
    split
    · rename_i hi
      rw [List.getElem?_eq_getElem hi, Option.bind_some]
    · rename_i hi
      rw [List.getElem?_eq_none (Nat.le_of_not_lt hi), Option.bind_none, hinvalid]
  | _ => simp [fullTexts, subscriptIndex, hinvalid]

lemma foldl_addSentiment (labels : List String) (n : ℤ) :
    labels.foldl addSentiment n = n + labels.count "Pos" - labels.count "Neg" := by
  induction labels generalizing n with
  | nil => simp
  | cons l labels ih =>
    rw [List.foldl_cons, ih, addSentiment, List.count_cons, List.count_cons]
    by_cases hpos : l = "Pos"
    · subst hpos
      simp
      omega
    · by_cases hneg : l = "Neg"
      · subst hneg
        simp
        omega
      · simp [hpos, hneg]

variable {classifier}
variable {s s' : ViewController} {es : List Event}

lemma analyzeSentiment_frame (P : List String → Option (List String)) (s : ViewController)
    (tweets : List String) (random : ℕ) :
    (s.analyzeSentiment P tweets random).requests = s.requests ∧
      (s.analyzeSentiment P tweets random).taps = s.taps := by
  unfold analyzeSentiment
  split
  · unfold updateUI
    split
    · exact ⟨rfl, rfl⟩
    · split <;> exact ⟨rfl, rfl⟩
  · exact ⟨rfl, rfl⟩

lemma analyzeSentiment_label (results : JSON) (random : ℕ) :
    (s.analyzeSentiment (predictions classifier) (tweets results) random).sentimentLabel =
      randomElement (mood classifier results).emojis random := by
  have hscore : ((tweets results).map classifier).foldl addSentiment 0 =
      score classifier results := by
    rw [foldl_addSentiment, tweets_eq_fullTexts, Int.zero_add, score]
  simp only [analyzeSentiment, predictions, hscore, updateUI, mood]
  split
  · rfl
  · split <;> rfl

/-- An answer writes the label, and no other event touches it. -/
lemma step_sentimentLabel {e : Event} (h : step (predictions classifier) s e = .ok s') :
    s'.sentimentLabel = (e.answer.map (label classifier)).getD s.sentimentLabel := by
  cases e with
  | predictPressed searchText =>
    cases h
    cases searchText <;> rfl
  | success tap json random =>
    simp only [step] at h
    split at h
    · cases h
      exact analyzeSentiment_label _ _
    · cases h
  | failure tap =>
    simp only [step] at h
    split at h
    · cases h
      rfl
    · cases h

/-! ### One answer to a tap -/

/-- Every search that is answered or in flight has a tap of its own. -/
structure Tapped (s : ViewController) (es : List Event) : Prop where
  nodup : ((answers es).map Answer.tap ++ s.requests.map Request.tap).Nodup
  lt : ∀ i ∈ (answers es).map Answer.tap ++ s.requests.map Request.tap, i < s.taps

variable {P : List String → Option (List String)}

/-- A tap sends a search at most; a response takes its search out of those in flight. -/
lemma step_requests {e : Event} (h : step P s e = .ok s') :
    (e.answer = none ∧ s'.requests = s.requests ∧ s'.taps = s.taps + 1) ∨
    (∃ q, e.answer = none ∧ q.tap = s.taps ∧ s'.requests = s.requests ++ [q] ∧
      s'.taps = s.taps + 1) ∨
    ∃ q ∈ s.requests, (∀ a, e.answer = some a → a.tap = q.tap) ∧
      s'.requests = Keyed.erase Request.tap s.requests q.tap ∧ s'.taps = s.taps := by
  cases e with
  | predictPressed searchText =>
    cases h
    cases searchText with
    | none => exact .inl ⟨rfl, rfl, rfl⟩
    | some query => exact .inr (.inl ⟨_, rfl, rfl, rfl, rfl⟩)
  | success tap json random =>
    simp only [step] at h
    split at h
    · rename_i hmem
      obtain ⟨q, hq, rfl⟩ := List.mem_map.mp hmem
      cases h
      refine .inr (.inr ⟨q, hq, ?_, ?_, ?_⟩)
      · intro a ha
        cases ha
        rfl
      · exact (analyzeSentiment_frame _ _ _ _).1
      · exact (analyzeSentiment_frame _ _ _ _).2
    · cases h
  | failure tap =>
    simp only [step] at h
    split at h
    · rename_i hmem
      obtain ⟨q, hq, rfl⟩ := List.mem_map.mp hmem
      cases h
      refine .inr (.inr ⟨q, hq, ?_, rfl, rfl⟩)
      intro a ha
      cases ha
    · cases h

lemma answers_concat (e : Event) : answers (es ++ [e]) = answers es ++ e.answer.toList := by
  unfold answers
  rw [List.filterMap_append]
  cases he : e.answer <;> simp [he]

lemma tapped_step {e : Event} (ht : Tapped s es) (h : step P s e = .ok s') :
    Tapped s' (es ++ [e]) := by
  rcases step_requests h with ⟨hnone, hrequests, htaps⟩ | ⟨q, hnone, hq, hrequests, htaps⟩ |
    ⟨q, hq, hanswer, hrequests, htaps⟩
  · have hanswers : answers (es ++ [e]) = answers es := by simp [answers_concat, hnone]
    constructor
    · rw [hanswers, hrequests]
      exact ht.nodup
    · rw [hanswers, hrequests]
      intro i hi
      have hlt := ht.lt i hi
      omega
  · -- the new search has a new tap
    have hanswers : answers (es ++ [e]) = answers es := by simp [answers_concat, hnone]
    constructor
    · rw [hanswers, hrequests, List.map_append, ← List.append_assoc]
      refine List.nodup_append.mpr ⟨ht.nodup, List.nodup_singleton _, ?_⟩
      intro i hi j hj hij
      have hlt := ht.lt i hi
      have hj := List.mem_singleton.mp hj
      omega
    · rw [hanswers, hrequests, List.map_append, ← List.append_assoc]
      intro i hi
      rcases List.mem_append.mp hi with hi | hi
      · have hlt := ht.lt i hi
        omega
      · have hi := List.mem_singleton.mp hi
        omega
  · -- the tap of the response is not in flight any more
    have hperm : (s.requests.map Request.tap).Perm (q.tap :: s'.requests.map Request.tap) := by
      rw [hrequests]
      exact (Keyed.perm_cons_erase (List.nodup_append.mp ht.nodup).2.1 hq).map Request.tap
    have hsub : ((answers (es ++ [e])).map Answer.tap ++ s'.requests.map Request.tap).Subperm
        ((answers es).map Answer.tap ++ s.requests.map Request.tap) := by
      rw [answers_concat]
      cases ha : e.answer with
      | none =>
        have hsublist := (List.sublist_cons_self q.tap _).subperm.trans hperm.symm.subperm
        rw [Option.toList_none, List.append_nil]
        exact (List.subperm_append_left _).mpr hsublist
      | some a =>
        have hcons : ((answers es).map Answer.tap ++ (q.tap :: s'.requests.map Request.tap)).Subperm
            ((answers es).map Answer.tap ++ s.requests.map Request.tap) :=
          (hperm.symm.append_left _).subperm
        simpa [hanswer a ha] using hcons
    obtain ⟨l, hl, hsub⟩ := hsub
    constructor
    · exact hl.nodup_iff.mp (ht.nodup.sublist hsub)
    · intro i hi
      rw [htaps]
      exact ht.lt i (hsub.subset (hl.mem_iff.mpr hi))

/-! ### Runs -/

theorem tapped_run (h : run (step P) launch es = .ok s) : Tapped s es := by
  refine run_history ?_ ?_ h
  · intro s es e s' ht hs
    exact tapped_step ht hs
  · constructor <;> simp [launch, answers]

/-- A run has one answer that is the latest. -/
theorem isLatest_unique {a b : Answer} (h : run (step P) launch es = .ok s) (ha : IsLatest es a)
    (hb : IsLatest es b) : a = b := by
  have hnodup : ((answers es).map Answer.tap).Nodup := (List.nodup_append.mp (tapped_run h).nodup).1
  have htap : a.tap = b.tap := Nat.le_antisymm (hb.tap_le a ha.mem) (ha.tap_le b hb.mem)
  exact List.inj_on_of_nodup_map hnodup ha.mem hb.mem htap

theorem sentimentLabel_run (h : run (step (predictions classifier)) launch es = .ok s) :
    s.sentimentLabel = ((answers es).getLast?.map (label classifier)).getD launch.sentimentLabel :=
  run_last_write (v := sentimentLabel) (fun _ _ _ hs => step_sentimentLabel hs) h

lemma shows_label (a : Answer) (hs : s.sentimentLabel = label classifier a) (m : Mood) :
    Shows s m ↔ mood classifier a.results = m := by
  obtain ⟨e, he, hlabel⟩ := randomElement_mem (emojis_ne_nil (mood classifier a.results)) a.random
  have hse : s.sentimentLabel = some e := hs.trans hlabel
  constructor
  · rintro ⟨e', he', hse'⟩
    obtain rfl : e = e' := Option.some.inj (hse.symm.trans hse')
    exact emojis_disjoint he he'
  · rintro rfl
    exact ⟨e, he, hse⟩

/-- **When the label shows the mood of the latest search.**  Take, among the searches that have
brought results in a run, the one tapped last.  The label shows the mood of its results exactly when
the results that arrived last have that mood. -/
theorem shows_latest_iff {a : Answer} (h : run (step (predictions classifier)) launch es = .ok s)
    (ha : IsLatest es a) :
    Shows s (mood classifier a.results) ↔ ∃ b, (answers es).getLast? = some b ∧
      mood classifier b.results = mood classifier a.results := by
  obtain ⟨b, hb⟩ : ∃ b, (answers es).getLast? = some b :=
    ⟨_, List.getLast?_eq_some_getLast (List.ne_nil_of_mem ha.mem)⟩
  have hs : s.sentimentLabel = label classifier b := by
    rw [sentimentLabel_run h, hb]
    rfl
  rw [shows_label b hs]
  constructor
  · intro hmood
    exact ⟨b, hb, hmood⟩
  · rintro ⟨b', hb', hmood⟩
    obtain rfl : b = b' := Option.some.inj (hb.symm.trans hb')
    exact hmood

/-! ### Two searches -/

/-- The results with one tweet. -/
def resultsOf (text : String) : JSON := .array [.object [("full_text", .string text)]]

def bodyOf (results : JSON) : JSON := .object [("statuses", results)]

def classifyWord (text : String) : String := if text = "great" then "Pos" else "Neg"

/-- The answer to the second of two searches, which is the negative one. -/
def awful : Answer := ⟨1, resultsOf "awful", 4⟩

/-- Two taps and the two responses, in the order of the taps or in the other one. -/
def twoSearches (inOrder : Bool) : List Event :=
  let great := .success 0 (bodyOf (resultsOf "great")) 1
  let awful := .success awful.tap (bodyOf awful.results) awful.random
  [.predictPressed (some "a"), .predictPressed (some "b")] ++
    if inOrder then [great, awful] else [awful, great]

lemma isLatest_awful (inOrder : Bool) : IsLatest (twoSearches inOrder) awful := by
  have hanswers : answers (twoSearches inOrder) =
      if inOrder then [⟨0, resultsOf "great", 1⟩, awful]
      else [awful, ⟨0, resultsOf "great", 1⟩] := by
    cases inOrder <;> rfl
  constructor
  · rw [hanswers]
    cases inOrder <;> simp
  · rw [hanswers]
    cases inOrder <;> simp [awful]

theorem shows_latest_iff_awful :
    ∃ s, run (step (predictions classifyWord)) launch (twoSearches true) = .ok s ∧
      s.requests = [] ∧ s.sentimentLabel = some "🤮" ∧
      Shows s (mood classifyWord awful.results) := by
  obtain ⟨s, hs, hrequests, hlabel⟩ : ∃ s, run (step (predictions classifyWord)) launch
      (twoSearches true) = .ok s ∧ s.requests = [] ∧ s.sentimentLabel = some "🤮" :=
    ⟨_, rfl, by decide +kernel, by decide +kernel⟩
  exact ⟨s, hs, hrequests, hlabel, (shows_latest_iff hs (isLatest_awful true)).mpr
    ⟨awful, rfl, rfl⟩⟩

/-- With the response of the older search last, the label shows a positive emoji although the mood
of the latest search is negative. -/
theorem older_mood_shown :
    ∃ s, run (step (predictions classifyWord)) launch (twoSearches false) = .ok s ∧
      s.requests = [] ∧ s.sentimentLabel = some "🥰" ∧ IsLatest (twoSearches false) awful ∧
      ¬ Shows s (mood classifyWord awful.results) := by
  obtain ⟨s, hs, hrequests, hlabel⟩ : ∃ s, run (step (predictions classifyWord)) launch
      (twoSearches false) = .ok s ∧ s.requests = [] ∧ s.sentimentLabel = some "🥰" :=
    ⟨_, rfl, by decide +kernel, by decide +kernel⟩
  refine ⟨s, hs, hrequests, hlabel, isLatest_awful false, ?_⟩
  rintro ⟨e, he, hse⟩
  obtain rfl : "🥰" = e := Option.some.inj (hlabel.symm.trans hse)
  exact absurd he (by decide +kernel)

end IosDevBootcamp.Twittermenti
