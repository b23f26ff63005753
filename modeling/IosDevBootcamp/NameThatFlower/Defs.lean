import IosDevBootcamp.Lib.Keyed
import IosDevBootcamp.Lib.Run

/-!
# NameThatFlower

A picked photo is shown and classified, the class becomes the title of the screen, and a request to
Wikipedia is sent for it; the response brings two texts and another image.  Every part of the view
carries the number of the pick that it stems from, which the app itself does not keep.
-/

namespace IosDevBootcamp.NameThatFlower

open IosDevBootcamp.Lib

/-- A step into a JSON value. -/
inductive PathElement
  | key (k : String)
  | index (i : ℕ)
  deriving DecidableEq, Repr

/-- What the app takes from libraries: the text at a path of a JSON value, as `stringValue` gives
it, and the capitalization of a text. -/
structure Library (J : Type*) where
  stringValue : J → List PathElement → String
  capitalized : String → String

/-! ### The screen -/

/-- A part of the view, with the number of the pick that it stems from. -/
structure Stemmed (α : Type*) where
  value : α
  pick : Option ℕ
  deriving DecidableEq, Repr

/-- What an image view was last told to show: an image, or the image of a URL. -/
inductive Picture (Image : Type*)
  | empty
  | image (i : Image)
  | url (s : String)
  deriving DecidableEq, Repr

/-- A request in flight, with the pick it was sent for. -/
structure Request where
  pick : ℕ
  url : String
  parameters : List (String × String)
  deriving DecidableEq, Repr

structure ViewController (Image : Type*) where
  title : Stemmed String
  titleLabel : Stemmed String
  descriptionLabel : Stemmed String
  imageView : Stemmed (Picture Image)
  picks : ℕ
  requests : List Request
  deriving DecidableEq, Repr

/-- The screen after `viewDidLoad`. -/
def launch {Image : Type*} : ViewController Image :=
  ⟨⟨"", none⟩, ⟨"", none⟩, ⟨"", none⟩, ⟨.empty, none⟩, 0, []⟩

inductive Fault
  /-- The event cannot happen now. -/
  | disabled
  | fatalError (message : String)
  deriving DecidableEq, Repr

/-- What the classification of a photo comes to: whether the model loads, the identifiers of the
observations, best one first, if these are the results, and whether the request is performed. -/
structure Classification where
  model : Bool
  results : Option (List String)
  performs : Bool
  deriving DecidableEq, Repr

inductive Event (Image J : Type*)
  /-- A pick, with the original image, whether it converts, and its classification. -/
  | pick (originalImage : Option Image) (converts : Bool) (c : Classification)
  /-- The response to the request of a pick: a JSON value, or none when it fails. -/
  | response (pick : ℕ) (result : Option J)

namespace ViewController

variable {Image J : Type*} (L : Library J) (s : ViewController Image)

def getWikiFor (pick : ℕ) (flowerName : String) : ViewController Image :=
  let wikipediaURl := "https://en.wikipedia.org/w/api.php"
  let parameters := [("format", "json"), ("action", "query"), ("prop", "extracts|pageimages"),
    ("pithumbsize", "500"), ("exintro", ""), ("explaintext", ""), ("titles", flowerName),
    ("indexpageids", ""), ("redirects", "1")]
  { s with requests := s.requests ++ [⟨pick, wikipediaURl, parameters⟩] }

/-- The closure of `responseJSON`, in the request of a pick. -/
def responseJSON (pick : ℕ) (result : Option J) : ViewController Image :=
  match result with
  | some json =>
    let pageid := L.stringValue json [.key "query", .key "pageids", .index 0]
    let title := L.stringValue json [.key "query", .key "pages", .key pageid, .key "title"]
    let extract := L.stringValue json [.key "query", .key "pages", .key pageid, .key "extract"]
    let flowerImage := L.stringValue json
      [.key "query", .key "pages", .key pageid, .key "thumbnail", .key "source"]
    { s with
      titleLabel := ⟨title, some pick⟩
      descriptionLabel := ⟨extract, some pick⟩
      imageView := ⟨.url flowerImage, some pick⟩ }
  | none => s

/-- The completion handler of the classification request. -/
def classified (pick : ℕ) (results : List String) : ViewController Image :=
  match results.head? with
  | some identifier =>
    let flowerName := L.capitalized identifier
    { s with title := ⟨flowerName, some pick⟩ }.getWikiFor pick flowerName
  | none => s

def process (pick : ℕ) (c : Classification) : Except Fault (ViewController Image) :=
  if c.model then
    match c.results with
    | none => .error (.fatalError "error getting results")
    | some results =>
      if c.performs then .ok (s.classified L pick results)
      else .error (.fatalError "could not perform request")
  else .error (.fatalError "Unable to process CIImage")

/-- `imagePickerController(_:didFinishPickingMediaWithInfo:)`. -/
def imagePickerController (originalImage : Option Image) (converts : Bool) (c : Classification) :
    Except Fault (ViewController Image) :=
  match originalImage with
  | none => .error (.fatalError "unable to get image")
  | some image =>
    if converts then
      { s with imageView := ⟨.image image, some s.picks⟩, picks := s.picks + 1 }.process L s.picks c
    else .error (.fatalError "unable to convert UIImage to CIIage")

def step : Event Image J → Except Fault (ViewController Image)
  | .pick originalImage converts c => s.imagePickerController L originalImage converts c
  | .response pick result =>
    if pick ∈ s.requests.map Request.pick then
      .ok ({ s with requests := Keyed.erase Request.pick s.requests pick }.responseJSON L pick
        result)
    else .error .disabled

end ViewController

end IosDevBootcamp.NameThatFlower
