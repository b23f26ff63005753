import IosDevBootcamp.Lib.Run
import IosDevBootcamp.Lib.TableView

/-!
# Flash Chat: the chat screen

`ChatViewController` sends the text of its field with `addDocument`, clears the field in a closure
queued on the main queue once the call has succeeded, and rebuilds `messages` from every snapshot,
with a queued closure that reloads the table and scrolls to the last row.  Completions, snapshots
and queued closures are events of their own, so they interleave with the taps and edits of the user
in any order.
-/

namespace IosDevBootcamp.FlashChat

open IosDevBootcamp.Lib

/-! ### Documents and messages -/

/-- A time since 1970 in units of `2⁻²²` seconds, the step of a `Double` of seconds from 2004 to
2038. -/
abbrev TimeInterval := ℤ

/-- A value of a document, as far as the casts of `loadMessages` tell values apart. -/
inductive Value
  | string (s : String)
  | number (t : TimeInterval)
  | other
  deriving DecidableEq, Repr

abbrev Document := String → Option Value

/-- The field names of `K.FStore`. -/
def senderField : String := "sender"
def dateField : String := "date"
def bodyField : String := "body"

structure Message where
  sender : String
  date : TimeInterval
  body : String
  deriving DecidableEq, Repr

def Value.asString : Option Value → Option String
  | some (.string s) => some s
  | _ => none

def Value.asTimeInterval : Option Value → Option TimeInterval
  | some (.number t) => some t
  | _ => none

/-- The message of a document that has all three fields. -/
def Message.ofData (data : Document) : Option Message := do
  let sender ← Value.asString (data senderField)
  let date ← Value.asTimeInterval (data dateField)
  let body ← Value.asString (data bodyField)
  return ⟨sender, date, body⟩

/-! ### The screen -/

/-- The text field.  `draft` numbers the edit that left the text; the app's own text has none. -/
structure TextField where
  text : String
  draft : Option ℕ
  deriving DecidableEq, Repr

/-- A document handed to `addDocument`, with the draft its body was read from. -/
structure Outgoing where
  message : Message
  draft : Option ℕ
  deriving DecidableEq, Repr

/-- The closures handed to `DispatchQueue.main.async`. -/
inductive Closure
  | clearText
  | reloadTable
  deriving DecidableEq, Repr

/-- The screen and what it is waiting for.  `edits`, `saved` and `erased` are the history: how many
edits there were, the documents whose `addDocument` succeeded, and the drafts a closure erased. -/
structure ChatViewController where
  messages : List Message
  messageTextfield : TextField
  tableView : TableView
  inFlight : List Outgoing
  mainQueue : List Closure
  edits : ℕ
  saved : List Outgoing
  erased : List ℕ
  deriving DecidableEq, Repr

def launch : ChatViewController := ⟨[], ⟨"", none⟩, ⟨0⟩, [], [], 0, [], []⟩

inductive Fault
  /-- The event cannot happen now. -/
  | disabled
  | indexOutOfRange
  /-- `scrollToRow` to a row the table does not have. -/
  | scrollOutOfRange
  deriving DecidableEq, Repr

structure MessageCell where
  text : String
  leftImageHidden : Bool
  rightImageHidden : Bool
  bubbleColor : String
  textColor : String
  deriving DecidableEq, Repr

/-- What can happen next. -/
inductive Event
  | edit (text : String)
  /-- A tap on Send, with the e-mail of the current user and the time. -/
  | sendPressed (currentUser : Option String) (now : TimeInterval)
  /-- The completion of one of the calls in flight, with or without an error. -/
  | complete (i : ℕ) (error : Bool)
  | snapshot (documents : Option (List Document)) (error : Bool)
  | runMain
  /-- The table asks for the cell of a row it knows. -/
  | cellForRow (row : ℕ) (currentUser : Option String)

namespace ChatViewController

def sendPressed (s : ChatViewController) (currentUser : Option String) (now : TimeInterval) :
    ChatViewController :=
  match currentUser with
  | some messageSender =>
    let messageBody := s.messageTextfield.text
    { s with inFlight :=
        s.inFlight ++ [⟨⟨messageSender, now, messageBody⟩, s.messageTextfield.draft⟩] }
  | none => s

def completion (s : ChatViewController) (o : Outgoing) (error : Bool) : ChatViewController :=
  if error then s
  else { s with saved := s.saved ++ [o], mainQueue := s.mainQueue ++ [.clearText] }

def appendDocument (messages : List Message) (data : Document) : List Message :=
  match Message.ofData data with
  | some message => messages ++ [message]
  | none => messages

/-- The snapshot listener of `loadMessages`. -/
def snapshotListener (s : ChatViewController) (documents : Option (List Document)) (error : Bool) :
    ChatViewController :=
  if error then s
  else
    match documents with
    | none => s
    | some documents =>
      { s with
        messages := documents.foldl appendDocument []
        mainQueue := s.mainQueue ++ [.reloadTable] }

def clearText (s : ChatViewController) : ChatViewController :=
  { s with
    messageTextfield := ⟨"", none⟩
    erased := s.erased ++ s.messageTextfield.draft.toList }

/-- The closure that reloads the table and scrolls to the last row. -/
def reloadTable (s : ChatViewController) : Except Fault ChatViewController :=
  let row : ℤ := (s.messages.length : ℤ) - 1
  let tableView := s.tableView.reloadData s.messages.length
  match tableView.scrollToRow row with
  | some tableView => .ok { s with tableView }
  | none => .error .scrollOutOfRange

/-- With a message to scroll to the reload succeeds. -/
lemma reloadTable_of_pos {s : ChatViewController} (h : 0 < s.messages.length) :
    s.reloadTable = .ok { s with tableView := ⟨s.messages.length⟩ } := by
  have hrow : (s.tableView.reloadData s.messages.length).scrollToRow ((s.messages.length : ℤ) - 1)
      = some ⟨s.messages.length⟩ :=
    TableView.scrollToRow_of_lt (by omega) (by simp only [TableView.reloadData]; omega)
  simp only [reloadTable, hrow]

def cellForRowAt (s : ChatViewController) (row : ℕ) (currentUser : Option String) :
    Except Fault MessageCell :=
  match s.messages[row]? with
  | none => .error .indexOutOfRange
  | some message =>
    if some message.sender = currentUser then
      .ok ⟨message.body, true, false, "BrandLightPurple", "BrandPurple"⟩
    else .ok ⟨message.body, false, true, "BrandPurple", "BrandLightPurple"⟩

def step (s : ChatViewController) : Event → Except Fault ChatViewController
  | .edit text =>
    .ok { s with messageTextfield := ⟨text, some s.edits⟩, edits := s.edits + 1 }
  | .sendPressed currentUser now => .ok (s.sendPressed currentUser now)
  | .complete i error =>
    match s.inFlight[i]? with
    | none => .error .disabled
    | some o => .ok ({ s with inFlight := s.inFlight.eraseIdx i }.completion o error)
  | .snapshot documents error => .ok (s.snapshotListener documents error)
  | .runMain =>
    match s.mainQueue with
    | [] => .error .disabled
    | .clearText :: queue => .ok { s with mainQueue := queue }.clearText
    | .reloadTable :: queue => { s with mainQueue := queue }.reloadTable
  | .cellForRow row currentUser =>
    if row < s.tableView.rows then (s.cellForRowAt row currentUser).map fun _ => s
    else .error .disabled

end ChatViewController

end IosDevBootcamp.FlashChat
