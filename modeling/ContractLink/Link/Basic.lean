import ContractLink.Contract.Request
import ContractLink.Link.Call
import ContractLink.Log
/-!
A link to a manager as the engine sees it: the input not read yet, the bytes sent, how many more
the peer takes, and a journal. An exchange moves a link forward and may fail; a failed exchange
keeps what it has read, sent and noted. Main statement: a receive that yields a message leaves
less input than it found.
-/
namespace ContractLink

/-- An entry of the journal. -/
inductive Note where
  | logged (r : Log.Record)
  | invoked (request : Request)
  | stepped (step : Step) (outcome : Except LinkError step.Answer)

def Note.record? : Note → Option Log.Record
  | logged r => some r
  | _ => none

structure Link where
  incoming : Bytes
  sent : Bytes := []
  /-- How many more bytes the peer takes; no bound if absent. -/
  room : Option Nat := none
  journal : List Note := []

/-- The log records of the journal. -/
def Link.records (link : Link) : List Log.Record := link.journal.filterMap Note.record?

/-- An action on a link, and whether it succeeds. -/
def Exchange (α : Type) := Link → Except LinkError α × Link

namespace Exchange

variable {α β : Type}

def run (x : Exchange α) (link : Link) : Except LinkError α × Link := x link

/-- What an exchange does next, which is nothing once it has failed. -/
def andThen (f : α → Exchange β) : Except LinkError α × Link → Except LinkError β × Link
  | (.ok a, link) => (f a).run link
  | (.error e, link) => (.error e, link)

instance : Monad Exchange where
  pure a := fun link => (.ok a, link)
  bind x f := fun link => andThen f (x.run link)

def ofExcept (result : Except LinkError α) : Exchange α := fun link => (result, link)

def fail (e : LinkError) : Exchange α := ofExcept (.error e)

def note (entry : Note) : Exchange Unit := fun link =>
  (.ok (), { link with journal := link.journal ++ [entry] })

def log (level : Log.Level) (message : String) : Exchange Unit := note (.logged ⟨level, message⟩)

/-- Sends bytes, or as many of them as the peer takes. -/
def write (bytes : Bytes) : Exchange Unit := fun link =>
  match link.room with
  | none => (.ok (), { link with sent := link.sent ++ bytes })
  | some room =>
    let link := { link with
      sent := link.sent ++ bytes.take room
      room := some (room - bytes.length) }
    (if bytes.length ≤ room then .ok () else .error .stalled, link)

/-- The next frame, if the input has not ended. -/
def readFrame : Exchange (Option Bytes) := fun link =>
  ((Frame.read link.incoming).1.mapError .frame,
    { link with incoming := (Frame.read link.incoming).2 })

/-- Sends data as one frame, first the header and then the data. A length that no frame has is
refused before anything is sent. -/
def writeFrame (data : Bytes) : Exchange Unit := do
  let header ← ofExcept ((Frame.header data.length).mapError .frame)
  write header
  write data

/-- Sends a message as one frame. -/
def transmit (m : Message) : Exchange Unit := do
  log .debug s!"-> {m.kind.name} ({m.payload.length} bytes)"
  writeFrame (Message.format.encode m)

/-- Reads the message that a frame holds. -/
def accept (data : Bytes) : Exchange Message := do
  let m ← ofExcept ((Message.format.decodeAll data).mapError .decode)
  log .debug s!"<- {m.kind.name} ({m.payload.length} bytes)"
  return m

/-- The next message, if the input has not ended. -/
def receive : Exchange (Option Message) := do
  match ← readFrame with
  | none => return none
  | some data => return some (← accept data)

/-- The body of the next message, which must be of a kind. -/
def await (kind : MessageKind) (format : Format β) : Exchange β := do
  match ← receive with
  | none => fail .closed
  | some m =>
    if m.kind = kind then ofExcept ((m.body format).mapError .decode)
    else fail (.unexpectedMessage [kind] m.kind)

@[simp] theorem run_pure (a : α) (link : Link) : (pure a : Exchange α).run link = (.ok a, link) :=
  rfl

@[simp] theorem run_bind (x : Exchange α) (f : α → Exchange β) (link : Link) :
    (x >>= f).run link = andThen f (x.run link) := rfl

@[simp] theorem andThen_ok (f : α → Exchange β) (a : α) (link : Link) :
    andThen f (.ok a, link) = (f a).run link := rfl

@[simp] theorem andThen_error (f : α → Exchange β) (e : LinkError) (link : Link) :
    andThen f (.error e, link) = (.error e, link) := rfl

/-- The exchange does not touch the input. -/
def Keeps (x : Exchange α) : Prop := ∀ link, (x.run link).2.incoming = link.incoming

/-- The exchange only drops bytes from the front of the input. -/
def Advances (x : Exchange α) : Prop := ∀ link, (x.run link).2.incoming <:+ link.incoming

theorem Keeps.advances {x : Exchange α} (h : Keeps x) : Advances x :=
  fun link => h link ▸ List.suffix_rfl

theorem Keeps.bind {x : Exchange α} {f : α → Exchange β} (hx : Keeps x) (hf : ∀ a, Keeps (f a)) :
    Keeps (x >>= f) := by
  intro link
  have first := hx link
  rw [run_bind]
  rcases result : x.run link with ⟨_ | a, next⟩ <;> rw [result] at first
  · exact first
  · exact (hf a next).trans first

theorem Advances.bind {x : Exchange α} {f : α → Exchange β} (hx : Advances x)
    (hf : ∀ a, Advances (f a)) : Advances (x >>= f) := by
  intro link
  have first := hx link
  rw [run_bind]
  rcases result : x.run link with ⟨_ | a, next⟩ <;> rw [result] at first
  · exact first
  · exact (hf a next).trans first

theorem keeps_pure (a : α) : Keeps (pure a) := fun _ => rfl

theorem keeps_ofExcept (result : Except LinkError α) : Keeps (ofExcept result) := fun _ => rfl

theorem keeps_note (entry : Note) : Keeps (note entry) := fun _ => rfl

theorem keeps_log (level : Log.Level) (message : String) : Keeps (log level message) := fun _ => rfl

theorem keeps_write (bytes : Bytes) : Keeps (write bytes) := by
  intro link
  simp only [run, write]
  split <;> rfl

theorem keeps_writeFrame (data : Bytes) : Keeps (writeFrame data) :=
  (keeps_ofExcept _).bind fun _ => (keeps_write _).bind fun _ => keeps_write _

theorem keeps_transmit (m : Message) : Keeps (transmit m) :=
  (keeps_log _ _).bind fun _ => keeps_writeFrame _

theorem keeps_accept (data : Bytes) : Keeps (accept data) :=
  (keeps_ofExcept _).bind fun _ => (keeps_log _ _).bind fun _ => keeps_pure _

theorem advances_readFrame : Advances readFrame := fun link => Frame.read_suffix link.incoming

theorem advances_receive : Advances receive := by
  refine advances_readFrame.bind fun found => Keeps.advances ?_
  cases found with
  | none => exact keeps_pure _
  | some data => exact (keeps_accept data).bind fun _ => keeps_pure _

theorem advances_await (kind : MessageKind) (format : Format β) : Advances (await kind format) := by
  refine advances_receive.bind fun found => Keeps.advances ?_
  cases found with
  | none => exact keeps_ofExcept _
  | some m =>
    dsimp only
    split <;> exact keeps_ofExcept _

theorem run_readFrame_of_ok {link : Link} {found : Option Bytes} {rest : Bytes}
    (read : Frame.read link.incoming = (.ok found, rest)) :
    readFrame.run link = (.ok found, { link with incoming := rest }) := by
  simp only [readFrame, run, read]
  rfl

theorem run_readFrame_of_error {link : Link} {e : Frame.Error} {rest : Bytes}
    (read : Frame.read link.incoming = (.error e, rest)) :
    readFrame.run link = (.error (.frame e), { link with incoming := rest }) := by
  simp only [readFrame, run, read]
  rfl

theorem length_receive_lt {link next : Link} {m : Message}
    (h : receive.run link = (.ok (some m), next)) :
    next.incoming.length < link.incoming.length := by
  unfold receive at h
  rw [run_bind] at h
  rcases read : Frame.read link.incoming with ⟨_ | _ | data, rest⟩
  · rw [run_readFrame_of_error read, andThen_error] at h
    cases h
  · rw [run_readFrame_of_ok read, andThen_ok] at h
    cases h
  · rw [run_readFrame_of_ok read, andThen_ok] at h
    have kept := ((keeps_accept data).bind fun m => keeps_pure (some m))
      { link with incoming := rest }
    rw [h] at kept
    exact kept ▸ Frame.length_read_lt read

end Exchange

end ContractLink
