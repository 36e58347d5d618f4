import ContractLink.Session
import ContractLink.Proofs.Link.Output
import ContractLink.Proofs.Traversal
/-!
What an engine sends. Main statement: whatever it is told to do, and whether or not it succeeds, it
sends whole frames, each with a message of a kind that engines send and a body of that kind; and a
call is sent as one frame, or nothing is sent and nothing read for it.
-/
namespace ContractLink

open Exchange

/-- The message is of a kind that an engine sends, and its whole payload is a body of that kind. -/
def Message.IsOutgoing (m : Message) : Prop :=
  match m.kind with
  | .version => ∃ body, m.body Body.Version.format = .ok body
  | .result => ∃ body, m.body Body.Result.format = .ok body
  | .getValue => ∃ body, m.body Body.GetValueRequest.format = .ok body
  | .setValue => ∃ body, m.body Body.SetValue.format = .ok body
  | .event => ∃ body, m.body Body.Event.format = .ok body
  | .getBalance => ∃ body, m.body Body.GetBalanceRequest.format = .ok body
  | .getApi => ∃ body, m.body Body.GetApiResponse.format = .ok body
  | .getInfo => m.payload = []
  | .invoke | .call => False

/-- The bytes are a whole frame that holds an outgoing message. -/
def OutgoingFrame (frame : Bytes) : Prop :=
  ∃ data m, Frame.Fits data.length ∧ frame = Frame.wrap data ∧
    Message.format.decodeAll data = .ok m ∧ m.IsOutgoing

theorem Message.IsOutgoing.frame {m : Message} {frame : Bytes} (outgoing : m.IsOutgoing)
    (framed : m.toFrame = .ok frame) : OutgoingFrame frame := by
  obtain ⟨fits, eq⟩ := Frame.encode_eq_ok_iff.mp framed
  exact ⟨format.encode m, m, fits, eq, decodeAll_of_toFrame framed, outgoing⟩

namespace Call

variable {codec : Codec} {c : Call} {m : Message}

/-- The values that are encoded for the call. -/
def values : Call → List Value
  | getBalance account => [.address account]
  | sendEvent indexed data => indexed ++ data
  | announce _ | getValue _ | setValue .. | getInfo => []

/-- A value of the call has no encoding, or its message is too long for a frame. -/
def Unsendable (codec : Codec) (c : Call) : Prop :=
  (∃ v ∈ c.values, ∃ e, codec.encode v = .error e) ∨
    ∃ m, c.message codec = .ok m ∧ Frame.maxSize < (Message.format.encode m).length

theorem message_getBalance (codec : Codec) (account : Address) :
    (getBalance account).message codec = (fun typed =>
      .ofBody .getBalance Body.GetBalanceRequest.format ⟨typed⟩) <$>
        codec.encode (.address account) := by
  simp only [message, payload]
  cases codec.encode (.address account) <;> rfl

theorem message_sendEvent (codec : Codec) (indexed data : List Value) :
    (sendEvent indexed data).message codec = codec.encodeItems indexed >>= fun indexed =>
      (fun data => .ofBody .event Body.Event.format ⟨indexed, data⟩) <$>
        codec.encodeItems data := by
  simp only [message, payload]
  cases codec.encodeItems indexed with
  | error e => rfl
  | ok indexed => cases codec.encodeItems data <;> rfl

/-- A call has no message exactly when one of its values has no encoding. -/
theorem exists_message_eq_error_iff :
    (∃ e, c.message codec = .error e) ↔ ∃ v ∈ c.values, ∃ e, codec.encode v = .error e := by
  cases c with
  | getBalance account =>
    rw [message_getBalance, exists_map_eq_error_iff]
    simp [values]
  | sendEvent indexed data =>
    simp only [values, List.mem_append, or_and_right, exists_or]
    rw [message_sendEvent, ← exists_mapM_eq_error_iff, ← exists_mapM_eq_error_iff,
      ← Codec.encodeItems, ← Codec.encodeItems]
    cases codec.encodeItems indexed with
    | error e => simp [bind, Except.bind]
    | ok indexed => exact exists_map_eq_error_iff.trans (by simp)
  | announce | getValue | setValue | getInfo =>
    simp [values, message, payload, Functor.map, Except.map]

theorem isOutgoing_of_message {frame : Bytes} (written : c.message codec = .ok m)
    (framed : m.toFrame = .ok frame) : m.IsOutgoing := by
  cases c with
  | announce identity =>
    obtain rfl := Except.ok.inj written
    exact ⟨identity, Message.body_of_toFrame Body.Version.lawful_format framed⟩
  | getValue key =>
    obtain rfl := Except.ok.inj written
    exact ⟨⟨key⟩, Message.body_of_toFrame Body.GetValueRequest.lawful_format framed⟩
  | setValue key value? =>
    obtain rfl := Except.ok.inj written
    exact ⟨⟨key, value?⟩, Message.body_of_toFrame Body.SetValue.lawful_format framed⟩
  | getBalance account =>
    rw [message_getBalance] at written
    obtain ⟨typed, -, rfl⟩ := of_map_eq_ok written
    exact ⟨⟨typed⟩, Message.body_of_toFrame Body.GetBalanceRequest.lawful_format framed⟩
  | sendEvent indexed data =>
    rw [message_sendEvent] at written
    obtain ⟨indexed, -, written⟩ := of_bind_eq_ok written
    obtain ⟨data, -, rfl⟩ := of_map_eq_ok written
    exact ⟨⟨indexed, data⟩, Message.body_of_toFrame Body.Event.lawful_format framed⟩
  | getInfo =>
    obtain rfl := Except.ok.inj written
    rfl

theorem outgoingFrame_of_frame? {frame : Bytes} (framed : c.frame? codec = some frame) :
    OutgoingFrame frame := by
  obtain ⟨m, written, whole⟩ := frame?_eq_some_iff.mp framed
  exact (isOutgoing_of_message written whole).frame whole

/-- A message is never empty, so only its length can keep it out of a frame. -/
theorem frame?_eq_none_iff : c.frame? codec = none ↔ c.Unsendable codec := by
  unfold Unsendable
  rw [← exists_message_eq_error_iff]
  cases written : c.message codec with
  | error e => simp [frame?_of_message_error written]
  | ok m =>
    rw [frame?_of_message_ok written]
    have long : (∃ frame, m.toFrame = .ok frame) ↔ ¬Frame.maxSize < _ :=
      Message.exists_toFrame_iff.trans Nat.not_lt.symm
    cases framed : m.toFrame <;> simp_all [Except.toOption]

/-- A call without a frame fails before it sends or reads anything. -/
theorem run_perform_of_frame?_eq_none (unsent : c.frame? codec = none) (link : Link) :
    ∃ e notes, (c.perform codec).run link =
      (.error e, { link with journal := link.journal ++ notes }) := by
  cases written : c.message codec with
  | error e => exact ⟨.codec e, [], by simp [run_perform_of_message_error written]⟩
  | ok m =>
    rw [frame?_of_message_ok written] at unsent
    cases framed : m.toFrame with
    | ok frame => simp [framed, Except.toOption] at unsent
    | error e =>
      obtain ⟨r, eq⟩ := run_transmit_of_error framed link
      exact ⟨.frame e, [.logged r], by rw [run_perform_of_message_ok written, eq, andThen_error]⟩

end Call

/-- What is sent is outgoing frames, one after another. -/
def Outgoing (sent : Bytes) (_ : List Note) : Prop :=
  ∃ frames : List Bytes, (∀ frame ∈ frames, OutgoingFrame frame) ∧ sent = frames.flatten

theorem outgoing_nil (notes : List Note) : Outgoing [] notes := ⟨[], List.forall_mem_nil _, rfl⟩

theorem outgoing_singleton {frame : Bytes} (whole : OutgoingFrame frame) (notes : List Note) :
    Outgoing frame notes :=
  ⟨[frame], List.forall_mem_singleton.mpr whole, (List.append_nil frame).symm⟩

instance : Cumulative Outgoing where
  logs := fun _ => outgoing_nil _
  append := by
    rintro _ _ _ _ ⟨before, whole, rfl⟩ ⟨after, whole', rfl⟩
    exact ⟨before ++ after, List.forall_mem_append.mpr ⟨whole, whole'⟩, List.flatten_append.symm⟩

theorem Callbacks.outgoing {codec : Codec} {sent : Bytes} {notes : List Note}
    (callbacks : Callbacks codec sent notes) : Outgoing sent notes := by
  refine ⟨_, fun frame mem => ?_, callbacks.sent_eq⟩
  obtain ⟨c, -, framed⟩ := List.mem_filterMap.mp mem
  exact c.outgoingFrame_of_frame? framed

theorem Exchange.adds_transmit {m : Message}
    (outgoing : ∀ frame, m.toFrame = .ok frame → m.IsOutgoing) : Adds Outgoing (transmit m) := by
  intro link
  obtain ⟨notes, -, gains⟩ := gains_transmit m link
  refine ⟨_, notes, ?_, gains⟩
  cases framed : m.toFrame with
  | error e => exact outgoing_nil notes
  | ok frame => exact outgoing_singleton ((outgoing frame framed).frame framed) notes

theorem Exchange.adds_note (entry : Note) : Adds Outgoing (note entry) :=
  fun link => ⟨[], [entry], outgoing_nil _, gains_note entry link⟩

theorem Outcome.adds_report (codec : Codec) (outcome : Outcome) :
    Adds Outgoing (outcome.report codec) :=
  (adds_ofExcept _).bind fun result => adds_transmit fun _ framed =>
    ⟨result, Message.body_of_toFrame Body.Result.lawful_format framed⟩

namespace Contract

variable (codec : Codec) (contract : Contract)

theorem adds_answerInvoke (m : Message) : Adds Outgoing (contract.answerInvoke codec m) :=
  (adds_ofExcept _).bind fun _ => (adds_ofExcept _).bind fun request =>
    (adds_log _ _).bind fun _ => (adds_note _).bind fun _ =>
    ((contract.invoke request).adds_run codec |>.mono Callbacks.outgoing).bind fun outcome =>
    outcome.adds_report codec

theorem adds_warnMissing {sort : Bytes → List Note → Prop} [Cumulative sort] (code : String) :
    Adds sort (contract.warnMissing code) := by
  unfold warnMissing
  split
  · exact adds_ofExcept _
  · exact adds_log _ _

theorem adds_answerApi (m : Message) : Adds Outgoing (contract.answerApi m) :=
  (adds_ofExcept _).bind fun request => (contract.adds_warnMissing request.code).bind fun _ =>
    adds_transmit fun _ framed =>
      ⟨_, Message.body_of_toFrame Body.GetApiResponse.lawful_format framed⟩

theorem adds_answer (m : Message) : Adds Outgoing (contract.answer codec m) := by
  unfold answer
  split
  · exact contract.adds_answerInvoke codec m
  · exact contract.adds_answerApi m
  · exact adds_ofExcept _

theorem adds_serve : Adds Outgoing (contract.serve codec) := by
  intro link
  show link.Grows Outgoing (contract.serve codec link).2
  fun_induction contract.serve codec link with
  | case1 link e rest received => exact adds_receive.of_run received
  | case2 link rest received => exact (adds_receive.of_run received).trans (adds_log _ _ rest)
  | case3 link m opened received e closed answered =>
    exact (adds_receive.of_run received).trans ((contract.adds_answer codec m).of_run answered)
  | case4 link m opened received closed answered shorter ih =>
    have opens : link.Grows Outgoing opened := adds_receive.of_run received
    exact (opens.trans ((contract.adds_answer codec m).of_run answered)).trans ih

end Contract

namespace Session

theorem Act.adds_perform (codec : Codec) (act : Act) : Adds Outgoing (act.perform codec) := by
  cases act with
  | serve contract => exact contract.adds_serve codec
  | step s =>
    cases s with
    | call c =>
      intro link
      obtain ⟨notes, -, gains⟩ := c.gains_perform codec link
      refine ⟨_, notes, ?_, gains⟩
      cases framed : c.frame? codec with
      | none => exact outgoing_nil notes
      | some frame => exact outgoing_singleton (c.outgoingFrame_of_frame? framed) notes
    | parseAddress | checkApi => exact adds_ofExcept _

theorem grows_run (codec : Codec) (acts : List Act) (link : Link) :
    link.Grows Outgoing (run codec acts link).2 := by
  induction acts generalizing link with
  | nil => exact .refl link
  | cons act rest ih => exact (act.adds_perform codec link).trans (ih _)

/-- Whatever the engine does and reads, it sends whole outgoing frames only. Of a call it sends one
frame; it sends none exactly when a value or the message cannot be written, and then reads
nothing. -/
theorem sent_eq_flatten (codec : Codec) :
    (∀ (acts : List Act) (incoming : Bytes), ∃ frames : List Bytes,
      (∀ frame ∈ frames, OutgoingFrame frame) ∧
        (run codec acts { incoming }).2.sent = frames.flatten) ∧
    ∀ (c : Call) (link : Link), link.room = none →
      (c.Unsendable codec → ∃ e next, (c.perform codec).run link = (.error e, next) ∧
        next.sent = link.sent ∧ next.incoming = link.incoming) ∧
      (¬c.Unsendable codec → ∃ frame, OutgoingFrame frame ∧
        ((c.perform codec).run link).2.sent = link.sent ++ frame) := by
  constructor
  · intro acts incoming
    obtain ⟨sent, notes, ⟨frames, whole, rfl⟩, gains⟩ := grows_run codec acts { incoming }
    exact ⟨frames, whole, (gains.output rfl).2⟩
  · intro c link unlimited
    rw [← Call.frame?_eq_none_iff]
    constructor
    · intro unsent
      obtain ⟨e, notes, eq⟩ := Call.run_perform_of_frame?_eq_none unsent link
      exact ⟨e, _, eq, rfl, rfl⟩
    · intro sendable
      obtain ⟨frame, framed⟩ := Option.ne_none_iff_exists'.mp sendable
      obtain ⟨notes, -, gains⟩ := c.gains_perform codec link
      refine ⟨frame, c.outgoingFrame_of_frame? framed, ?_⟩
      rw [(gains.output unlimited).2, framed, Option.getD_some]

/-- The standard registry has no handler for the second value of the event. -/
theorem sent_eq_flatten_event :
    let codec : Codec := Registry.standard
    let event : Call := .sendEvent [.text "Moved(int)", .custom 200 [1]] []
    let query : Call := .getValue [104]
    let link : Link := { incoming := [1, 2] }
    event.Unsendable codec ∧ ¬query.Unsendable codec ∧
      (∃ e next, (event.perform codec).run link = (.error e, next) ∧ next.sent = [] ∧
        next.incoming = [1, 2]) ∧
      ∃ frame, OutgoingFrame frame ∧ ((query.perform codec).run link).2.sent = frame := by
  intro codec event query link
  have custom : Value.custom 200 [1] ∈ event.values := .tail _ (.head _)
  have unsendable : event.Unsendable codec := .inl ⟨_, custom, _, rfl⟩
  have framed : query.frame? codec ≠ none := by decide +kernel
  have sendable : ¬query.Unsendable codec := fun h => framed (Call.frame?_eq_none_iff.mpr h)
  obtain ⟨-, calls⟩ := sent_eq_flatten codec
  obtain ⟨failed, -⟩ := calls event link rfl
  obtain ⟨-, sends⟩ := calls query link rfl
  exact ⟨unsendable, sendable, failed unsendable, sends sendable⟩

end Session

end ContractLink
