import Mathlib.Data.Int.Notation
import IosDevBootcamp.Lib.Keyed
import IosDevBootcamp.Lib.Run

/-!
# Twittermenti

A tap on Predict searches for tweets, and the response of the search is classified: the score over
its tweets chooses the group that the emoji of the label is drawn from.  The classifier is a
parameter.
-/

namespace IosDevBootcamp.Twittermenti

open IosDevBootcamp.Lib

/-! ### JSON values -/

/-- The JSON values of Swifter; `invalid` is what a subscript that finds nothing gives. -/
inductive JSON
  | string (value : String)
  | number (value : Float)
  | object (value : List (String × JSON))
  | array (value : List JSON)
  | bool (value : Bool)
  | null
  | invalid

namespace JSON

/-- The property `string`. -/
def string? : JSON → Option String
  | .string value => some value
  | _ => none

def subscriptKey (j : JSON) (key : String) : JSON :=
  match j with
  | .object dict => (dict.lookup key).getD .invalid
  | _ => .invalid

def subscriptIndex (j : JSON) (index : ℕ) : JSON :=
  match j with
  | .array values => if h : values.length > index then values[index] else .invalid
  | _ => .invalid

end JSON

/-! ### The controller -/

inductive TweetMode
  | default
  | extended
  | compat
  | other (s : String)
  deriving DecidableEq, Repr

/-- A search in flight, with the tap that sent it. -/
structure Request where
  tap : ℕ
  query : String
  lang : String
  count : ℕ
  tweetMode : TweetMode
  deriving DecidableEq, Repr

structure ViewController where
  sentimentLabel : Option String
  taps : ℕ
  requests : List Request
  deriving DecidableEq, Repr

/-- The screen of the storyboard. -/
def launch : ViewController := ⟨some "😐", 0, []⟩

inductive Fault
  /-- The event cannot happen now. -/
  | disabled
  deriving DecidableEq, Repr

inductive Event
  /-- A tap on Predict, with the text of the text field. -/
  | predictPressed (searchText : Option String)
  /-- The response to the search of a tap, with the draw of the random element. -/
  | success (tap : ℕ) (json : JSON) (random : ℕ)
  | failure (tap : ℕ)

def tweetCount : ℕ := 100

def negativeEmojis : List String := ["🤨", "🤮", "🖕🏼"]
def neutralEmojis : List String := ["🤔", "😐", "😴"]
def positiveEmojis : List String := ["🤩", "🥰", "🥳"]

def randomElement (emojis : List String) (random : ℕ) : Option String :=
  emojis[random % emojis.length]?

namespace ViewController

/-! The labels of tweets, or none when the classifier throws, are a parameter of what follows. -/

variable (predictions : List String → Option (List String)) (s : ViewController)

def updateUI (score : ℤ) (random : ℕ) : ViewController :=
  if score > 0 then { s with sentimentLabel := randomElement positiveEmojis random }
  else if score < 0 then { s with sentimentLabel := randomElement negativeEmojis random }
  else { s with sentimentLabel := randomElement neutralEmojis random }

/-- The score after a sentiment. -/
def addSentiment (sentimentScore : ℤ) (label : String) : ℤ :=
  if label = "Pos" then sentimentScore + 1
  else if label = "Neg" then sentimentScore - 1
  else sentimentScore

def analyzeSentiment (tweets : List String) (random : ℕ) : ViewController :=
  match predictions tweets with
  | some sentiments => s.updateUI (sentiments.foldl addSentiment 0) random
  | none => s

/-- The tweets after the result with an index. -/
def appendTweet (results : JSON) (tweets : List String) (i : ℕ) : List String :=
  match ((results.subscriptIndex i).subscriptKey "full_text").string? with
  | some tweet => tweets ++ [tweet]
  | none => tweets

/-- The loop of the success closure. -/
def tweets (results : JSON) : List String :=
  (List.range tweetCount).foldl (appendTweet results) []

def fetchTweets (tap : ℕ) (searchText : Option String) : ViewController :=
  match searchText with
  | none => s
  | some query =>
    { s with requests := s.requests ++ [⟨tap, query, "en", tweetCount, .extended⟩] }

def predictPressed (searchText : Option String) : ViewController :=
  { s with taps := s.taps + 1 }.fetchTweets s.taps searchText

def step : Event → Except Fault ViewController
  | .predictPressed searchText => .ok (s.predictPressed searchText)
  | .success tap json random =>
    if tap ∈ s.requests.map Request.tap then
      .ok ({ s with requests := Keyed.erase Request.tap s.requests tap }.analyzeSentiment
        predictions (tweets (json.subscriptKey "statuses")) random)
    else .error .disabled
  | .failure tap =>
    if tap ∈ s.requests.map Request.tap then
      .ok { s with requests := Keyed.erase Request.tap s.requests tap }
    else .error .disabled

end ViewController

end IosDevBootcamp.Twittermenti
