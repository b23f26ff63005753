import IosDevBootcamp.FlashChat.Firestore

/-!
# Flash Chat: several screens over one collection

Any number of screens add documents to one collection and listen to it, each with its own calls in
flight, its own snapshots and its own main queue.  What a screen shows is what its table gets for the
rows it knows.
-/

namespace IosDevBootcamp.FlashChat

open IosDevBootcamp.Lib

/-! ### What a screen shows -/

/-- The cell of a message: on the right, and light, where it is the current user's. -/
def MessageCell.of (currentUser : Option String) (message : Message) : MessageCell :=
  if some message.sender = currentUser then
    ⟨message.body, true, false, "BrandLightPurple", "BrandPurple"⟩
  else ⟨message.body, false, true, "BrandPurple", "BrandLightPurple"⟩

/-- The cells that the table gets for all of its rows. -/
def ChatViewController.cells (s : ChatViewController) (currentUser : Option String) :
    Except Fault (List MessageCell) :=
  (List.range s.tableView.rows).mapM fun row => s.cellForRowAt row currentUser

/-! ### Screens -/

/-- The dictionary handed to `addDocument`. -/
def Message.data (m : Message) : Document := fun field =>
  if field = senderField then some (.string m.sender)
  else if field = dateField then some (.number m.date)
  else if field = bodyField then some (.string m.body)
  else none

lemma Message.ofData_data (m : Message) : Message.ofData m.data = some m := rfl

/-- A screen with the documents of its calls in flight.  `saved` and `refused` are those whose calls
have ended, and `snapshot` is what the listener was told last. -/
structure Client where
  screen : ChatViewController
  writes : List Stored
  saved : List Stored
  refused : List Stored
  snapshot : List Stored

structure Chat (State : Type*) where
  database : State
  clients : List Client

inductive ChatEvent (Action : Type*)
  | database (a : Action)
  /-- Someone opens the screen. -/
  | join
  /-- An edit, a queued closure or the cell of a row. -/
  | user (i : ℕ) (e : Event)
  | sendPressed (i : ℕ) (currentUser : Option String) (now : TimeInterval)
  | complete (i j : ℕ)
  | snapshot (i : ℕ)
  | listenerError (i : ℕ)

/-- The events of one screen that are not about the database. -/
def Event.isLocal : Event → Bool
  | .edit _ => true
  | .runMain => true
  | .cellForRow _ _ => true
  | _ => false

variable {State Action : Type*} (db : Firestore State Action)

namespace Client

def launch : Client := ⟨FlashChat.launch, [], [], [], []⟩

def user (c : Client) (e : Event) : Except Fault Client :=
  if e.isLocal then (c.screen.step e).map fun screen => { c with screen } else .error .disabled

/-- A tap on Send, with what the screen hands to `addDocument`. -/
def sendPressed (c : Client) (σ : State) (i : ℕ) (currentUser : Option String)
    (now : TimeInterval) : Client × State :=
  let screen := c.screen.sendPressed currentUser now
  -- the call that the tap has put in flight, if any
  match screen.inFlight.drop c.screen.inFlight.length with
  | [] => ({ c with screen }, σ)
  | o :: _ =>
    let (id, σ') := db.addDocument σ i o.message.data
    ({ c with screen, writes := c.writes ++ [⟨id, o.message.data⟩] }, σ')

def complete (c : Client) (σ : State) (j : ℕ) : Except Fault Client :=
  match c.writes[j]? with
  | none => .error .disabled
  | some d =>
    match db.completion σ d.id with
    | none => .error .disabled
    | some error =>
      (c.screen.step (.complete j error)).map fun screen =>
        { c with
          screen
          writes := c.writes.eraseIdx j
          saved := if error then c.saved else c.saved ++ [d]
          refused := if error then c.refused ++ [d] else c.refused }

/-- The listener is told of the documents. -/
def receive (c : Client) (snapshot : List Stored) : Except Fault Client :=
  (c.screen.step (.snapshot (some (snapshot.map Stored.data)) false)).map fun screen =>
    { c with screen, snapshot }

end Client

namespace Chat

def launch (σ : State) : Chat State := ⟨σ, []⟩

def setClient (s : Chat State) (i : ℕ) (c : Client) : Chat State :=
  { s with clients := s.clients.set i c }

def withClient (s : Chat State) (i : ℕ) (f : Client → Except Fault (Chat State)) :
    Except Fault (Chat State) :=
  match s.clients[i]? with
  | some c => f c
  | none => .error .disabled

def step (s : Chat State) : ChatEvent Action → Except Fault (Chat State)
  | .database a => .ok { s with database := db.act s.database a }
  | .join => .ok { s with clients := s.clients ++ [Client.launch] }
  | .user i e => s.withClient i fun c => (c.user e).map (s.setClient i)
  | .sendPressed i currentUser now => s.withClient i fun c =>
    let (c, database) := c.sendPressed db s.database i currentUser now
    .ok ({ s with database }.setClient i c)
  | .complete i j => s.withClient i fun c => (c.complete db s.database j).map (s.setClient i)
  | .snapshot i => s.withClient i fun c =>
    (c.receive (db.snapshot s.database i dateField)).map (s.setClient i)
  | .listenerError i => s.withClient i fun c =>
    (c.screen.step (.snapshot none true)).map fun screen => s.setClient i { c with screen }

end Chat

end IosDevBootcamp.FlashChat
