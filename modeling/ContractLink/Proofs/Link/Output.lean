import ContractLink.Contract.Program
import ContractLink.Proofs.Message.Delivery
/-!
What exchanges add to a link. Every exchange adds entries to the journal, and bytes to what was sent
if the peer takes everything. Main statements: a call adds its whole frame or nothing, and a program
adds the frames of the calls that it has entered, in their order.
-/
namespace ContractLink

/-- The invocation that an entry is about. -/
def Note.request? : Note → Option Request
  | invoked request => some request
  | _ => none

/-- The call that an entry is about. -/
def Note.call? : Note → Option Call
  | stepped (.call c) _ => some c
  | _ => none

/-- The frame that a call is sent as, if its values can be written and its message fits one. -/
def Call.frame? (codec : Codec) (c : Call) : Option Bytes :=
  (c.message codec).toOption.bind fun m => m.toFrame.toOption

/-- From `link` to `next` the notes are entered, and the bytes sent if the peer takes everything. -/
structure Link.Gains (link next : Link) (sent : Bytes) (notes : List Note) : Prop where
  journal : next.journal = link.journal ++ notes
  output : link.room = none → next.room = none ∧ next.sent = link.sent ++ sent

namespace Link.Gains

variable {link middle next : Link} {sent more : Bytes} {notes others : List Note}

theorem refl (link : Link) : link.Gains link [] [] :=
  ⟨(List.append_nil _).symm, fun unlimited => ⟨unlimited, (List.append_nil _).symm⟩⟩

theorem trans (first : link.Gains middle sent notes) (second : middle.Gains next more others) :
    link.Gains next (sent ++ more) (notes ++ others) where
  journal := by rw [second.journal, first.journal, List.append_assoc]
  output unlimited := by
    obtain ⟨still, sofar⟩ := first.output unlimited
    obtain ⟨last, all⟩ := second.output still
    exact ⟨last, by rw [all, sofar, List.append_assoc]⟩

end Link.Gains

/-- The entries are log records. -/
def Logs (notes : List Note) : Prop := ∀ n ∈ notes, ∃ r, n = .logged r

/-- The sort takes in log records with nothing sent, and one addition after another. -/
class Cumulative (sort : Bytes → List Note → Prop) : Prop where
  logs : ∀ {notes}, Logs notes → sort [] notes
  append : ∀ {sent notes more others}, sort sent notes → sort more others →
    sort (sent ++ more) (notes ++ others)

/-- Nothing is sent and only log records are entered. -/
def Quiet (sent : Bytes) (notes : List Note) : Prop := sent = [] ∧ Logs notes

/-- Anything is sent and only log records are entered. -/
def Logged (_ : Bytes) (notes : List Note) : Prop := Logs notes

/-- What is sent is the frames of the calls in the notes; no invocation is among them. -/
structure Callbacks (codec : Codec) (sent : Bytes) (notes : List Note) : Prop where
  sent_eq : sent = ((notes.filterMap Note.call?).filterMap (Call.frame? codec)).flatten
  requests_eq : notes.filterMap Note.request? = []

namespace Logs

variable {notes others : List Note}

theorem nil : Logs [] := List.forall_mem_nil _

theorem singleton (r : Log.Record) : Logs [.logged r] :=
  fun _ mem => ⟨r, List.mem_singleton.mp mem⟩

theorem append (first : Logs notes) (second : Logs others) : Logs (notes ++ others) :=
  List.forall_mem_append.mpr ⟨first, second⟩

theorem calls_eq (logs : Logs notes) : notes.filterMap Note.call? = [] := by
  refine List.filterMap_eq_nil_iff.mpr fun n mem => ?_
  obtain ⟨r, rfl⟩ := logs n mem
  rfl

theorem requests_eq (logs : Logs notes) : notes.filterMap Note.request? = [] := by
  refine List.filterMap_eq_nil_iff.mpr fun n mem => ?_
  obtain ⟨r, rfl⟩ := logs n mem
  rfl

end Logs

instance : Cumulative Quiet where
  logs := fun logs => ⟨rfl, logs⟩
  append := fun first second =>
    ⟨by rw [first.1, second.1, List.append_nil], first.2.append second.2⟩

instance : Cumulative Logged where
  logs := id
  append := Logs.append

instance (codec : Codec) : Cumulative (Callbacks codec) where
  logs := fun logs => ⟨by rw [logs.calls_eq]; rfl, logs.requests_eq⟩
  append := fun first second => {
    sent_eq := by
      rw [first.sent_eq, second.sent_eq, List.filterMap_append, List.filterMap_append,
        List.flatten_append]
    requests_eq := by
      rw [List.filterMap_append, first.requests_eq, second.requests_eq, List.append_nil] }

/-- From `link` to `next` bytes and notes of the sort were added. -/
def Link.Grows (sort : Bytes → List Note → Prop) (link next : Link) : Prop :=
  ∃ sent notes, sort sent notes ∧ link.Gains next sent notes

namespace Link.Grows

variable {sort : Bytes → List Note → Prop} [Cumulative sort] {link middle next : Link}

theorem refl (link : Link) : link.Grows sort link := ⟨[], [], Cumulative.logs .nil, .refl link⟩

theorem trans (first : link.Grows sort middle) (second : middle.Grows sort next) :
    link.Grows sort next := by
  obtain ⟨sent, notes, sorted, gains⟩ := first
  obtain ⟨more, others, sorted', gains'⟩ := second
  exact ⟨sent ++ more, notes ++ others, Cumulative.append sorted sorted', gains.trans gains'⟩

end Link.Grows

namespace Exchange

variable {α β : Type} {sort : Bytes → List Note → Prop}

/-- Whatever the link, the exchange adds bytes and notes of the sort. -/
def Adds (sort : Bytes → List Note → Prop) (x : Exchange α) : Prop :=
  ∀ link : Link, link.Grows sort (x.run link).2

theorem Adds.mono {sort' : Bytes → List Note → Prop} {x : Exchange α} (h : Adds sort x)
    (into : ∀ {sent notes}, sort sent notes → sort' sent notes) : Adds sort' x := by
  intro link
  obtain ⟨sent, notes, sorted, gains⟩ := h link
  exact ⟨sent, notes, into sorted, gains⟩

theorem Adds.of_run {x : Exchange α} (h : Adds sort x) {link next : Link}
    {result : Except LinkError α} (eq : x.run link = (result, next)) : link.Grows sort next := by
  have grows := h link
  rwa [eq] at grows

theorem run_eq_of_fst_eq {x : Exchange α} {link : Link} {result : Except LinkError α}
    (h : (x.run link).1 = result) : x.run link = (result, (x.run link).2) := Prod.ext h rfl

theorem run_ofExcept_ok_bind (a : α) (f : α → Exchange β) (link : Link) :
    (ofExcept (.ok a) >>= f).run link = (f a).run link := rfl

theorem run_note_bind (entry : Note) (f : Unit → Exchange β) (link : Link) :
    (note entry >>= f).run link = (f ()).run ((note entry).run link).2 := rfl

theorem run_log_bind (level : Log.Level) (message : String) (f : Unit → Exchange β) (link : Link) :
    (log level message >>= f).run link =
      (f ()).run ((note (.logged ⟨level, message⟩)).run link).2 := rfl

theorem gains_note (entry : Note) (link : Link) :
    link.Gains ((note entry).run link).2 [] [entry] :=
  ⟨rfl, fun unlimited => ⟨unlimited, (List.append_nil _).symm⟩⟩

section

variable [Cumulative sort]

theorem Adds.bind {x : Exchange α} {f : α → Exchange β} (hx : Adds sort x)
    (hf : ∀ a, Adds sort (f a)) : Adds sort (x >>= f) := by
  intro link
  rw [run_bind]
  rcases result : x.run link with ⟨_ | a, next⟩
  · exact hx.of_run result
  · exact (hx.of_run result).trans (hf a next)

theorem adds_pure (a : α) : Adds sort (pure a) := .refl

theorem adds_ofExcept (result : Except LinkError α) : Adds sort (ofExcept result) := .refl

theorem adds_log (level : Log.Level) (message : String) : Adds sort (log level message) :=
  fun link => ⟨[], _, Cumulative.logs (.singleton ⟨level, message⟩), gains_note _ link⟩

theorem adds_readFrame : Adds sort readFrame :=
  fun _ => ⟨[], [], Cumulative.logs .nil, (List.append_nil _).symm,
    fun unlimited => ⟨unlimited, (List.append_nil _).symm⟩⟩

theorem adds_accept (data : Bytes) : Adds sort (accept data) :=
  (adds_ofExcept _).bind fun _ => (adds_log _ _).bind fun _ => adds_pure _

theorem adds_receive : Adds sort receive := by
  refine adds_readFrame.bind fun found => ?_
  cases found with
  | none => exact adds_pure _
  | some data => exact (adds_accept data).bind fun _ => adds_pure _

theorem adds_await (kind : MessageKind) (format : Format β) : Adds sort (await kind format) := by
  refine adds_receive.bind fun found => ?_
  cases found with
  | none => exact adds_ofExcept _
  | some m =>
    dsimp only
    split <;> exact adds_ofExcept _

end

theorem run_receive_of_read {link : Link} {data rest : Bytes} {m : Message}
    (read : Frame.read link.incoming = (.ok (some data), rest))
    (decoded : Message.format.decodeAll data = .ok m) : ∃ r, receive.run link = (.ok (some m),
      { link with incoming := rest, journal := link.journal ++ [.logged r] }) := by
  refine ⟨⟨.debug, s!"<- {m.kind.name} ({m.payload.length} bytes)"⟩, ?_⟩
  rw [receive, run_bind, run_readFrame_of_ok read, andThen_ok]
  simp only [accept, decoded]
  rfl

theorem run_write_of_unlimited {link : Link} (unlimited : link.room = none) (bytes : Bytes) :
    (write bytes).run link = (.ok (), { link with sent := link.sent ++ bytes }) := by
  simp only [run, write, unlimited]

theorem gains_write (bytes : Bytes) (link : Link) :
    link.Gains ((write bytes).run link).2 bytes [] where
  journal := by
    rw [List.append_nil]
    simp only [run, write]
    split <;> rfl
  output unlimited := by
    rw [run_write_of_unlimited unlimited]
    exact ⟨unlimited, rfl⟩

/-- A write that succeeds is a write of everything, whether or not the peer's room is limited. -/
theorem sent_of_run_write {bytes : Bytes} {link next : Link}
    (h : (write bytes).run link = (.ok (), next)) : next.sent = link.sent ++ bytes := by
  simp only [run, write] at h
  split at h
  · obtain ⟨-, rfl⟩ := Prod.mk.inj h
    rfl
  next room _ =>
    obtain ⟨enough, rfl⟩ := Prod.mk.inj h
    split at enough
    next fits => rw [List.take_of_length_le fits]
    next => cases enough

/-- One write does what two do, also to a peer that takes no more on the way. -/
theorem write_append (front back : Bytes) :
    write (front ++ back) = (do write front; write back) := by
  funext link
  show (write (front ++ back)).run link = (write front >>= fun _ => write back).run link
  rw [run_bind]
  cases limit : link.room with
  | none => simp [run, write, limit, andThen]
  | some room =>
    by_cases fits : front.length ≤ room
    · have both : front.length + back.length ≤ room ↔ back.length ≤ room - front.length := by omega
      simp [run, write, limit, andThen, fits, both, List.take_append, List.take_of_length_le fits,
        Nat.sub_sub]
    · have short := Nat.le_of_lt (Nat.lt_of_not_le fits)
      have both : ¬front.length + back.length ≤ room := by omega
      simp [run, write, limit, andThen, fits, both, List.take_append_of_le_length short]
      omega

/-- The header and the data are sent as one frame. -/
theorem writeFrame_eq (data : Bytes) : writeFrame data = (do
    write (← ofExcept ((Frame.encode data).mapError .frame))) := by
  unfold writeFrame Frame.encode
  cases Frame.header data.length with
  | error e => rfl
  | ok header => exact (write_append header data).symm

theorem run_transmit_of_ok {m : Message} {frame : Bytes} (framed : m.toFrame = .ok frame)
    (link : Link) : ∃ r, (transmit m).run link =
      (write frame).run { link with journal := link.journal ++ [.logged r] } := by
  refine ⟨⟨.debug, s!"-> {m.kind.name} ({m.payload.length} bytes)"⟩, ?_⟩
  rw [transmit, writeFrame_eq, ← Message.toFrame, framed]
  rfl

theorem run_transmit_of_unlimited {m : Message} {frame : Bytes} (framed : m.toFrame = .ok frame)
    {link : Link} (unlimited : link.room = none) : ∃ r, (transmit m).run link =
      (.ok (), { link with
        sent := link.sent ++ frame
        journal := link.journal ++ [.logged r] }) := by
  obtain ⟨r, eq⟩ := run_transmit_of_ok framed link
  refine ⟨r, eq.trans ?_⟩
  apply run_write_of_unlimited
  exact unlimited

theorem run_transmit_of_error {m : Message} {e : Frame.Error} (unframed : m.toFrame = .error e)
    (link : Link) : ∃ r, (transmit m).run link =
      (.error (.frame e), { link with journal := link.journal ++ [.logged r] }) := by
  refine ⟨⟨.debug, s!"-> {m.kind.name} ({m.payload.length} bytes)"⟩, ?_⟩
  rw [transmit, writeFrame_eq, ← Message.toFrame, unframed]
  rfl

theorem of_run_transmit_ok {m : Message} {link next : Link}
    (h : (transmit m).run link = (.ok (), next)) :
    ∃ frame, m.toFrame = .ok frame ∧ next.sent = link.sent ++ frame := by
  cases framed : m.toFrame with
  | ok frame =>
    obtain ⟨r, eq⟩ := run_transmit_of_ok framed link
    rw [eq] at h
    have sent := sent_of_run_write h
    exact ⟨frame, rfl, sent⟩
  | error e =>
    obtain ⟨r, eq⟩ := run_transmit_of_error framed link
    rw [eq] at h
    cases (Prod.mk.inj h).1

/-- A message is sent as its whole frame, or nothing is sent of it. -/
theorem gains_transmit (m : Message) (link : Link) : ∃ notes, Logs notes ∧
    link.Gains ((transmit m).run link).2 (m.toFrame.toOption.getD []) notes := by
  cases framed : m.toFrame with
  | ok frame =>
    obtain ⟨r, eq⟩ := run_transmit_of_ok framed link
    have logged := gains_note (.logged r) link
    exact ⟨[.logged r], .singleton r, eq ▸ logged.trans (gains_write frame _)⟩
  | error e =>
    obtain ⟨r, eq⟩ := run_transmit_of_error framed link
    exact ⟨[.logged r], .singleton r, eq ▸ gains_note (.logged r) link⟩

end Exchange

open Exchange

namespace Call

variable {codec : Codec} {c : Call}

theorem frame?_of_message_ok {m : Message} (written : c.message codec = .ok m) :
    c.frame? codec = m.toFrame.toOption := by
  rw [frame?, written]
  rfl

theorem frame?_of_message_error {e : CodecError} (unwritten : c.message codec = .error e) :
    c.frame? codec = none := by
  rw [frame?, unwritten]
  rfl

theorem frame?_eq_some_iff {frame : Bytes} :
    c.frame? codec = some frame ↔ ∃ m, c.message codec = .ok m ∧ m.toFrame = .ok frame := by
  cases written : c.message codec with
  | error e => simp [frame?_of_message_error written]
  | ok m =>
    rw [frame?_of_message_ok written]
    cases framed : m.toFrame <;> simp [Except.toOption, framed]

theorem run_perform_of_message_ok {m : Message} (written : c.message codec = .ok m) (link : Link) :
    (c.perform codec).run link = andThen (fun _ => c.answer codec) ((transmit m).run link) := by
  unfold perform
  rw [written]
  rfl

theorem run_perform_of_message_error {e : CodecError} (unwritten : c.message codec = .error e)
    (link : Link) : (c.perform codec).run link = (.error (.codec e), link) := by
  unfold perform
  rw [unwritten]
  rfl

theorem adds_answer (codec : Codec) (c : Call) : Adds Quiet (c.answer codec) := by
  cases c with
  | getValue => exact (adds_await _ _).bind fun _ => adds_pure _
  | getBalance =>
    exact (adds_await _ _).bind fun _ => (adds_ofExcept _).bind fun _ => adds_ofExcept _
  | getInfo => exact (adds_await _ _).bind fun _ => adds_ofExcept _
  | announce | setValue | sendEvent => exact adds_pure _

/-- A call sends its frame, whether or not it is answered, and nothing else. -/
theorem gains_perform (codec : Codec) (c : Call) (link : Link) : ∃ notes, Logs notes ∧
    link.Gains ((c.perform codec).run link).2 ((c.frame? codec).getD []) notes := by
  cases written : c.message codec with
  | error e =>
    rw [run_perform_of_message_error written, frame?_of_message_error written]
    exact ⟨[], .nil, .refl link⟩
  | ok m =>
    rw [run_perform_of_message_ok written, frame?_of_message_ok written]
    obtain ⟨notes, logs, gains⟩ := gains_transmit m link
    rcases result : (transmit m).run link with ⟨_ | u, next⟩ <;> rw [result] at gains
    · exact ⟨notes, logs, gains⟩
    · obtain ⟨sent, others, ⟨rfl, more⟩, answered⟩ := adds_answer codec c next
      have both := gains.trans answered
      rw [List.append_nil] at both
      exact ⟨notes ++ others, logs.append more, both⟩

end Call

/-- A step enters itself, and sends the frame of its call if it is one. -/
theorem Step.adds_record (codec : Codec) (s : Step) : Adds (Callbacks codec) (s.record codec) := by
  intro link
  have noted := gains_note (.stepped s ((s.perform codec).run link).1)
    ((s.perform codec).run link).2
  cases s with
  | call c =>
    obtain ⟨notes, logs, gains⟩ := c.gains_perform codec link
    refine ⟨_, _, ?_, gains.trans noted⟩
    have before : Callbacks codec [] notes := Cumulative.logs logs
    have own : Callbacks codec ((c.frame? codec).getD [])
        [.stepped (.call c) ((c.perform codec).run link).1] := by
      refine ⟨?_, rfl⟩
      cases framed : c.frame? codec <;> simp [Note.call?, framed]
    rw [List.append_nil]
    exact Cumulative.append before own
  | parseAddress | checkApi => exact ⟨[], _, ⟨rfl, rfl⟩, noted⟩

theorem Program.adds_run {α : Type} (codec : Codec) (program : Program α) :
    Adds (Callbacks codec) (program.run codec) := by
  induction program with
  | done result => exact adds_pure result
  | log level message next ih => exact (adds_log level message).bind fun _ => ih
  | step s next ih => exact (s.adds_record codec).bind ih

end ContractLink
