import ContractLink.Proofs.Session.Outgoing
/-!
Serving, request by request. A turn is a request and the link as it was when the request had been
read; the contract's answer says where it leads. Main statement: serving a link is a run of turns,
each on the link that the one before has left, and all but the last of them succeed.
-/
namespace ContractLink

open Exchange

/-- A request that has been read, and the link right after. -/
structure Turn (codec : Codec) (contract : Contract) where
  request : Message
  opened : Link

variable {codec : Codec} {contract : Contract}

namespace Turn

variable (turn : Turn codec contract)

/-- Whether the request is answered. -/
def outcome : Except LinkError Unit := ((contract.answer codec turn.request).run turn.opened).1

/-- The link when the request is done with. -/
def closed : Link := ((contract.answer codec turn.request).run turn.opened).2

/-- What is sent for the request. -/
def sent : Bytes := turn.closed.sent.drop turn.opened.sent.length

def notes : List Note := turn.closed.journal.drop turn.opened.journal.length

/-- The runs of the contract. -/
def invocations : List Request := turn.notes.filterMap Note.request?

/-- The calls that the contract enters, the last of which may fail. -/
def calls : List Call := turn.notes.filterMap Note.call?

/-- The frames of the calls. -/
def callbacks : List Bytes := turn.calls.filterMap (Call.frame? codec)

theorem run_answer : (contract.answer codec turn.request).run turn.opened =
    (turn.outcome, turn.closed) := rfl

variable {turn} in
theorem sent_eq {sent : Bytes} {notes : List Note}
    (gains : turn.opened.Gains turn.closed sent notes) (unlimited : turn.opened.room = none) :
    turn.sent = sent := by
  rw [Turn.sent, (gains.output unlimited).2, List.drop_left]

variable {turn} in
theorem notes_eq {sent : Bytes} {notes : List Note}
    (gains : turn.opened.Gains turn.closed sent notes) : turn.notes = notes := by
  rw [Turn.notes, gains.journal, List.drop_left]

theorem gains : turn.opened.Gains turn.closed turn.sent turn.notes := by
  obtain ⟨sent, notes, -, gains⟩ := contract.adds_answer codec turn.request turn.opened
  refine ⟨?_, fun unlimited => ?_⟩
  · rw [notes_eq gains]
    exact gains.journal
  · rw [sent_eq gains unlimited]
    exact gains.output unlimited

theorem length_closed_lt {link : Link}
    (received : receive.run link = (.ok (some turn.request), turn.opened)) :
    turn.closed.incoming.length < link.incoming.length :=
  Nat.lt_of_le_of_lt (Contract.length_answer_le turn.run_answer) (length_receive_lt received)

end Turn

namespace Contract

/-- The requests that serving the link reads, with the link at each. -/
def turns (codec : Codec) (contract : Contract) (link : Link) : List (Turn codec contract) :=
  match received : receive.run link with
  | (.ok (some m), opened) =>
    let turn : Turn codec contract := ⟨m, opened⟩
    have : turn.closed.incoming.length < link.incoming.length := turn.length_closed_lt received
    match turn.outcome with
    | .ok () => turn :: turns codec contract turn.closed
    | .error _ => [turn]
  | _ => []
termination_by link.incoming.length

variable {link rest : Link} {e : LinkError}

theorem turns_of_unread (received : receive.run link = (.error e, rest)) :
    contract.turns codec link = [] := by
  rw [turns]
  split <;> simp_all

theorem turns_of_ended (received : receive.run link = (.ok none, rest)) :
    contract.turns codec link = [] := by
  rw [turns]
  split <;> simp_all

theorem turns_of_stopped (turn : Turn codec contract)
    (received : receive.run link = (.ok (some turn.request), turn.opened))
    (failed : turn.outcome = .error e) : contract.turns codec link = [turn] := by
  rw [turns]
  split <;> simp_all

theorem turns_of_answered (turn : Turn codec contract)
    (received : receive.run link = (.ok (some turn.request), turn.opened))
    (done : turn.outcome = .ok ()) :
    contract.turns codec link = turn :: contract.turns codec turn.closed := by
  rw [turns]
  split <;> simp_all

end Contract

/-- Serving the link goes through the turns, and ends with the result and the last link. -/
inductive Serves : Link → List (Turn codec contract) → Except LinkError Unit → Link → Prop
  | unread {link rest : Link} {e : LinkError} (received : receive.run link = (.error e, rest)) :
      Serves link [] (.error e) rest
  | ended {link rest last : Link} (received : receive.run link = (.ok none, rest))
      (closes : (log .debug "service manager closed the connection").run rest = (.ok (), last)) :
      Serves link [] (.ok ()) last
  | stopped {link : Link} {turn : Turn codec contract} {e : LinkError}
      (received : receive.run link = (.ok (some turn.request), turn.opened))
      (failed : turn.outcome = .error e) : Serves link [turn] (.error e) turn.closed
  | answered {link last : Link} {turn : Turn codec contract} {turns : List (Turn codec contract)}
      {result : Except LinkError Unit}
      (received : receive.run link = (.ok (some turn.request), turn.opened))
      (done : turn.outcome = .ok ()) (later : Serves turn.closed turns result last) :
      Serves link (turn :: turns) result last

theorem Contract.serves_turns (codec : Codec) (contract : Contract) (link : Link) :
    Serves link (contract.turns codec link) ((contract.serve codec).run link).1
      ((contract.serve codec).run link).2 := by
  show Serves link (contract.turns codec link) (contract.serve codec link).1
    (contract.serve codec link).2
  fun_induction contract.serve codec link with
  | case1 link e rest received =>
    rw [turns_of_unread received]
    exact .unread received
  | case2 link rest received =>
    rw [turns_of_ended received]
    exact .ended received rfl
  | case3 link m opened received e closed answered =>
    let turn : Turn codec contract := ⟨m, opened⟩
    obtain ⟨failed, rfl⟩ : turn.outcome = .error e ∧ turn.closed = closed := Prod.mk.inj answered
    rw [turns_of_stopped turn received failed]
    exact .stopped received failed
  | case4 link m opened received closed answered _ ih =>
    let turn : Turn codec contract := ⟨m, opened⟩
    obtain ⟨done, rfl⟩ : turn.outcome = .ok () ∧ turn.closed = closed := Prod.mk.inj answered
    rw [turns_of_answered turn received done]
    exact .answered received done ih

namespace Serves

variable {link last : Link} {turns : List (Turn codec contract)} {result : Except LinkError Unit}

theorem outcome_of_ok (run : Serves link turns result last) (served : result = .ok ()) :
    ∀ turn ∈ turns, turn.outcome = .ok () := by
  induction run with
  | unread | stopped => cases served
  | ended => exact List.forall_mem_nil _
  | answered received done later ih => exact List.forall_mem_cons.mpr ⟨done, ih served⟩

/-- Only the last turn can fail. -/
theorem outcome_of_mem_dropLast (run : Serves link turns result last) :
    ∀ turn ∈ turns.dropLast, turn.outcome = .ok () := by
  induction run with
  | unread | ended | stopped => exact List.forall_mem_nil _
  | @answered _ _ turn turns _ received done later ih =>
    cases turns with
    | nil => exact List.forall_mem_nil _
    | cons next turns => exact List.forall_mem_cons.mpr ⟨done, ih⟩

/-- Serving sends and invokes what its turns do, in their order. -/
theorem gains (run : Serves link turns result last) :
    ∃ notes, link.Gains last (turns.flatMap Turn.sent) notes ∧
      notes.filterMap Note.request? = turns.flatMap Turn.invocations := by
  have reads {link rest : Link} {found : Except LinkError (Option Message)}
      (received : receive.run link = (found, rest)) :
      ∃ notes, link.Gains rest [] notes ∧ notes.filterMap Note.request? = [] := by
    have read : link.Grows Quiet rest := adds_receive.of_run received
    obtain ⟨sent, notes, ⟨rfl, logs⟩, gains⟩ := read
    exact ⟨notes, gains, logs.requests_eq⟩
  induction run with
  | unread received => exact reads received
  | ended received closes =>
    obtain ⟨notes, read, none⟩ := reads received
    obtain ⟨-, rfl⟩ := Prod.mk.inj closes
    exact ⟨_, read.trans (gains_note _ _), by rw [List.filterMap_append, none]; rfl⟩
  | @stopped _ turn _ received failed =>
    obtain ⟨notes, read, none⟩ := reads received
    refine ⟨notes ++ turn.notes, ?_, by rw [List.filterMap_append, none]; simp [Turn.invocations]⟩
    simpa using read.trans turn.gains
  | @answered _ _ turn turns _ received done later ih =>
    obtain ⟨notes, read, none⟩ := reads received
    obtain ⟨others, after, some⟩ := ih
    refine ⟨notes ++ (turn.notes ++ others), read.trans (turn.gains.trans after), ?_⟩
    rw [List.filterMap_append, List.filterMap_append, none, some]
    rfl

theorem room_opened (run : Serves link turns result last) (unlimited : link.room = none) :
    ∀ turn ∈ turns, turn.opened.room = none := by
  have reads {link : Link} {turn : Turn codec contract} (unlimited : link.room = none)
      (received : receive.run link = (.ok (some turn.request), turn.opened)) :
      turn.opened.room = none := by
    have read : link.Grows Quiet turn.opened := adds_receive.of_run received
    obtain ⟨sent, notes, -, gains⟩ := read
    exact (gains.output unlimited).1
  induction run with
  | unread | ended => exact List.forall_mem_nil _
  | stopped received failed => exact List.forall_mem_singleton.mpr (reads unlimited received)
  | answered received done later ih =>
    have opened := reads unlimited received
    exact List.forall_mem_cons.mpr ⟨opened, ih ((Turn.gains _).output opened).1⟩

end Serves

end ContractLink
