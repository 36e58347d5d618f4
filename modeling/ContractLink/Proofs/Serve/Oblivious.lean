import ContractLink.Proofs.Link.Word
import ContractLink.Proofs.Serve.Block
import ContractLink.Proofs.Session.Limited
/-!
Contracts that pay no regard to their answers. Main statement: when an invocation of such a contract
is answered, what was sent is told by the calls and the outcome alone, whatever else is in the
request, whatever the manager has answered and however many bytes it takes.
-/
namespace ContractLink

open Exchange

/-- The message that reports the outcome, if its values have encodings. -/
def Outcome.message (codec : Codec) (outcome : Outcome) : Except CodecError Message :=
  Message.ofBody .result Body.Result.format <$> outcome.toBody codec

/-- The messages of the calls, and then that of the outcome. -/
def transcript (codec : Codec) (calls : List Call) (outcome : Outcome) :
    List (Except CodecError Message) :=
  calls.map (Call.message codec) ++ [outcome.message codec]

/-- Every message could be written, and the bytes are their frames, one after another. -/
def SentAs (written : List (Except CodecError Message)) (sent : Bytes) : Prop :=
  ∃ (messages : List Message) (frames : List Bytes), written = messages.map .ok ∧
    messages.map Message.toFrame = frames.map .ok ∧ sent = frames.flatten

namespace SentAs

variable {written later : List (Except CodecError Message)} {sent more : Bytes}

theorem nil : SentAs [] [] := ⟨[], [], rfl, rfl, rfl⟩

theorem singleton {m : Message} {frame : Bytes} (framed : m.toFrame = .ok frame) :
    SentAs [.ok m] frame :=
  ⟨[m], [frame], rfl, congrArg (fun result => [result]) framed, (List.flatten_singleton).symm⟩

theorem append (first : SentAs written sent) (second : SentAs later more) :
    SentAs (written ++ later) (sent ++ more) := by
  obtain ⟨messages, frames, rfl, framed, rfl⟩ := first
  obtain ⟨others, rest, rfl, framed', rfl⟩ := second
  refine ⟨messages ++ others, frames ++ rest, ?_, ?_, ?_⟩
  · rw [List.map_append]
  · rw [List.map_append, framed, framed', List.map_append]
  · rw [List.flatten_append]

/-- The messages tell the bytes. -/
theorem unique (first : SentAs written sent) (second : SentAs written more) : sent = more := by
  obtain ⟨messages, frames, rfl, framed, rfl⟩ := first
  obtain ⟨others, rest, same, framed', rfl⟩ := second
  obtain rfl := List.map_injective_iff.mpr (fun _ _ => Except.ok.inj) same
  rw [List.map_injective_iff.mpr (fun _ _ => Except.ok.inj) (framed.symm.trans framed')]

end SentAs

theorem Outcome.kind_of_message {codec : Codec} {outcome : Outcome} {m : Message}
    (written : outcome.message codec = .ok m) : m.kind = .result := by
  obtain ⟨body, -, rfl⟩ := of_map_eq_ok written
  rfl

theorem exists_toFrame_of_map_eq {messages : List Message} {frames : List Bytes}
    (framed : messages.map Message.toFrame = frames.map .ok) {m : Message} (mem : m ∈ messages) :
    ∃ frame, m.toFrame = .ok frame := by
  have inside := List.mem_map_of_mem (f := Message.toFrame) mem
  rw [framed] at inside
  obtain ⟨frame, -, whole⟩ := List.mem_map.mp inside
  exact ⟨frame, whole.symm⟩

section

variable {codec : Codec} {calls : List Call} {outcome : Outcome} {messages : List Message}

theorem exists_of_mem_transcript (written : transcript codec calls outcome = messages.map .ok)
    {m : Message} (mem : m ∈ messages) :
    (∃ c ∈ calls, c.message codec = .ok m) ∨ outcome.message codec = .ok m := by
  have inside : .ok m ∈ transcript codec calls outcome := by
    rw [written]
    exact List.mem_map_of_mem mem
  simpa [transcript, eq_comm] using inside

theorem kinds_of_transcript (written : transcript codec calls outcome = messages.map .ok) :
    messages.map Message.kind = calls.map Call.kind ++ [.result] := by
  induction calls generalizing messages with
  | nil =>
    obtain ⟨m, rest, rfl, reported, none⟩ := List.map_eq_cons_iff.mp written.symm
    obtain rfl := List.map_eq_nil_iff.mp none
    simp [Outcome.kind_of_message reported.symm]
  | cons c calls ih =>
    obtain ⟨m, rest, rfl, called, others⟩ := List.map_eq_cons_iff.mp written.symm
    rw [List.map_cons, Call.kind_of_message called.symm, ih others.symm]
    rfl

end

theorem Call.of_run_record_ok {codec : Codec} {c : Call} {link next : Link} {answer : c.Answer}
    (unlimited : link.room = none)
    (ran : ((Step.call c).record codec).run link = (.ok answer, next)) :
    ∃ m frame, c.message codec = .ok m ∧ m.toFrame = .ok frame ∧ next.room = none ∧
      next.sent = link.sent ++ frame := by
  obtain ⟨done, rfl⟩ := Prod.mk.inj ran
  have done : ((c.perform codec).run link).1 = .ok answer := done
  cases framed : c.frame? codec with
  | none =>
    obtain ⟨e, notes, failed⟩ := run_perform_of_frame?_eq_none framed link
    rw [failed] at done
    cases done
  | some frame =>
    obtain ⟨m, written, whole⟩ := frame?_eq_some_iff.mp framed
    obtain ⟨notes, -, gains⟩ := c.gains_perform codec link
    rw [framed] at gains
    obtain ⟨still, sent⟩ := gains.output unlimited
    exact ⟨m, frame, written, whole, still, sent⟩

/-- A run that succeeds has sent the message of each call, whatever it was answered. -/
theorem Program.Makes.of_run_ok {α : Type} {codec : Codec} {program : Program α}
    {calls : List Call} {result a : α} (makes : program.Makes calls result) {link last : Link}
    (unlimited : link.room = none) (ran : (program.run codec).run link = (.ok a, last)) :
    a = result ∧ ∃ sent, SentAs (calls.map (Call.message codec)) sent ∧
      last.sent = link.sent ++ sent := by
  induction makes generalizing link with
  | done result =>
    obtain ⟨same, rfl⟩ := Prod.mk.inj ran
    exact ⟨(Except.ok.inj same).symm, [], .nil, (List.append_nil _).symm⟩
  | @log level message next calls result after ih =>
    exact @ih ((note (.logged ⟨level, message⟩)).run link).2 unlimited ran
  | @call c next calls result after ih =>
    rw [Program.run, run_bind] at ran
    rcases recorded : ((Step.call c).record codec).run link with ⟨e | answer, middle⟩
    · rw [recorded] at ran
      cases (Prod.mk.inj ran).1
    · rw [recorded, andThen_ok] at ran
      obtain ⟨m, frame, written, framed, still, sent⟩ := Call.of_run_record_ok unlimited recorded
      obtain ⟨same, more, others, rest⟩ := ih answer still ran
      refine ⟨same, frame ++ more, ?_, by rw [rest, sent, List.append_assoc]⟩
      rw [List.map_cons, written]
      exact (SentAs.singleton framed).append others

namespace Turn

variable {codec : Codec} {contract : Contract} {turn : Turn codec contract} {request : Request}
  {calls : List Call} {outcome : Outcome}

/-- The same turn with a peer that takes everything. -/
def freed (turn : Turn codec contract) : Turn codec contract :=
  ⟨turn.request, { turn.opened with room := none }⟩

/-- A turn that succeeds has not come to the end of the peer's room. -/
theorem freed_of_ok (done : turn.outcome = .ok ()) :
    turn.freed.outcome = .ok () ∧ turn.freed.sent = turn.sent := by
  cases limited : turn.opened.room with
  | none =>
    have same : turn.freed = turn := by
      rw [freed, ← limited]
    rw [same]
    exact ⟨done, rfl⟩
  | some room =>
    let limit := turn.opened.sent.length + room
    have alike : turn.opened.LimitedLike limit turn.freed.opened := by
      refine ⟨rfl, rfl, ?_, Nat.le_add_right _ _, rfl⟩
      rw [limited, Nat.add_sub_cancel_left]
    have answers : Matched (.limited limit) (contract.answer codec turn.request) :=
      contract.matched_answer codec turn.request
    cases answers.ends alike with
    | together same alike =>
      have sent : turn.closed.sent = turn.freed.closed.sent := alike.sent
      refine ⟨same.symm.trans done, ?_⟩
      rw [Turn.sent, Turn.sent, sent]
      rfl
    | parted failed apart => cases failed.symm.trans done

theorem sentAs_of_unlimited (unlimited : turn.opened.room = none)
    (asks : turn.request.Asks codec request) (makes : (contract.invoke request).Makes calls outcome)
    (done : turn.outcome = .ok ()) : SentAs (transcript codec calls outcome) turn.sent := by
  obtain ⟨r, start, entered, -, output, eq⟩ := contract.run_answerInvoke_of_asks asks turn.opened
  rw [← Contract.answer_of_invoke codec contract asks.1, turn.run_answer, done] at eq
  rcases ran : ((contract.invoke request).run codec).run start with ⟨e | reported, finish⟩
  · rw [ran] at eq
    cases (Prod.mk.inj eq).1
  · rw [ran, andThen_ok] at eq
    obtain ⟨rfl, called, calls, sent⟩ := makes.of_run_ok (entered.output unlimited).1 ran
    obtain ⟨body, frame, written, framed, closed⟩ := Outcome.of_run_report_ok eq.symm
    have reply : reported.message codec = .ok (.ofBody .result Body.Result.format body) := by
      rw [Outcome.message, written]
      rfl
    have all : turn.sent = called ++ frame := by
      rw [Turn.sent, closed, sent, output, List.append_assoc, List.drop_left]
    rw [transcript, reply, all]
    exact calls.append (.singleton framed)

/-- An invocation that is answered has sent the transcript. -/
theorem sentAs_of_ok (asks : turn.request.Asks codec request)
    (makes : (contract.invoke request).Makes calls outcome) (done : turn.outcome = .ok ()) :
    SentAs (transcript codec calls outcome) turn.sent := by
  obtain ⟨still, sent⟩ := freed_of_ok done
  rw [← sent]
  exact sentAs_of_unlimited rfl asks makes still

end Turn

end ContractLink
