import ContractLink.CommandLine.Basic
import ContractLink.Proofs.Contract.Probe
/-!
The language of the program: what a manager can hear from it, whatever the manager sends. Main
statement: the engine announces itself, then answers requests with one of two words each; only a
failure leaves a word unfinished, and then right after a call that the manager should have answered.
-/
namespace ContractLink

open Exchange

theorem Answers.spoken {kind : MessageKind} {result : Except LinkError Unit} {sent : Bytes}
    (answers : Answers (some kind) result sent) :
    ∃ part, Spoken [kind] (· = []) result part ∧ Spells part sent := by
  cases answers with
  | replied kind_eq framed =>
    obtain rfl := Option.some.inj kind_eq
    exact ⟨_, .whole (), .singleton framed⟩
  | failed e => exact ⟨[], .cut rfl, .nil⟩

theorem Exchange.Replies.speaks {kind : MessageKind} {x : Exchange Unit}
    (replies : Replies kind x) : Speaks [kind] (· = []) x := by
  intro link unlimited
  obtain ⟨sent, notes, answers, -, gains⟩ := replies link unlimited
  obtain ⟨part, spoken, spells⟩ := answers.spoken
  exact ⟨part, sent, notes, spoken, spells, gains⟩

theorem Outcome.speaks_report {codec : Codec} {outcome : Outcome} {body : Body.Result}
    {frame : Bytes} (written : outcome.toBody codec = .ok body)
    (framed : (Message.ofBody .result Body.Result.format body).toFrame = .ok frame) :
    Speaks [.result] (fun _ => False) (outcome.report codec) := by
  have sends : Speaks [.result] (fun _ => False)
      (transmit (.ofBody .result Body.Result.format body)) := by
    apply (speaks_transmit (.ofBody .result Body.Result.format body)).mono
    rintro part ⟨-, e, unframed⟩
    rw [framed] at unframed
    cases unframed
  unfold report
  rw [written]
  exact sends

namespace Contract

variable {codec : Codec} {contract : Contract} {word : List MessageKind}
  {Cut : List MessageKind → Prop}

/-- Before the contract is invoked nothing is sent. -/
theorem speaks_answerInvoke (empty : Cut [])
    (runs : ∀ request, Speaks word Cut
      ((contract.invoke request).run codec >>= fun outcome => outcome.report codec))
    (m : Message) : Speaks word Cut (contract.answerInvoke codec m) := by
  refine Speaks.bind_quiet (adds_ofExcept _) (fun body => ?_) empty
  refine Speaks.bind_quiet (adds_ofExcept _) (fun request => ?_) empty
  exact speaks_note_bind _ (speaks_note_bind _ (runs request))

end Contract

theorem Turn.spoken {codec : Codec} {contract : Contract} {turn : Turn codec contract}
    {word : List MessageKind} {Cut : List MessageKind → Prop}
    (answers : Speaks word Cut (contract.answer codec turn.request))
    (unlimited : turn.opened.room = none) :
    ∃ part, Spoken word Cut turn.outcome part ∧ Spells part turn.sent := by
  obtain ⟨part, sent, notes, spoken, spells, gains⟩ := answers turn.opened unlimited
  refine ⟨part, spoken, ?_⟩
  rwa [Turn.sent_eq gains unlimited]

/-- The requests that are answered. -/
def Turn.answered {codec : Codec} {contract : Contract} (turns : List (Turn codec contract)) :
    List Message :=
  (turns.filter fun turn => turn.outcome.isOk).map Turn.request

/-- Serving sends a whole word for each request that is answered, and perhaps a cut for the one that
is not. A request has a word of its own if it can be answered. -/
theorem Serves.spells {codec : Codec} {contract : Contract} {link last : Link}
    {turns : List (Turn codec contract)} {result : Except LinkError Unit}
    {Word : Message → List MessageKind → Prop} {Cut : List MessageKind → Prop}
    (run : Serves link turns result last) (opened : ∀ turn ∈ turns, turn.opened.room = none)
    (empty : Cut [])
    (answers : ∀ m, ∃ word, Speaks word Cut (contract.answer codec m) ∧
      (Yields (contract.answer codec m) () → Word m word)) :
    ∃ (words : List (List MessageKind)) (tail : List MessageKind),
      Spells (words.flatten ++ tail) (turns.flatMap Turn.sent) ∧
        List.Forall₂ Word (Turn.answered turns) words ∧ Cut tail ∧
        (tail ≠ [] → ∃ e, result = .error e) := by
  induction run with
  | unread | ended => exact ⟨[], [], .nil, .nil, empty, fun h => absurd rfl h⟩
  | @stopped link turn e received failed =>
    obtain ⟨word, speaks, -⟩ := answers turn.request
    obtain ⟨part, spoken, spells⟩ := Turn.spoken speaks (opened turn (List.mem_singleton_self turn))
    have none : Turn.answered [turn] = [] := by
      simp [Turn.answered, failed, Except.isOk, Except.toBool]
    rw [failed] at spoken
    cases spoken with
    | cut short =>
      refine ⟨[], part, ?_, none ▸ .nil, short, fun _ => ⟨e, rfl⟩⟩
      simpa using spells
  | @answered link last turn turns result received done later ih =>
    obtain ⟨own, others⟩ := List.forall_mem_cons.mp opened
    obtain ⟨word, speaks, valid⟩ := answers turn.request
    obtain ⟨part, spoken, spells⟩ := Turn.spoken speaks own
    obtain ⟨words, tail, after, whole, short, failed⟩ := ih others
    have first : Turn.answered (turn :: turns) = turn.request :: Turn.answered turns := by
      simp [Turn.answered, done, Except.isOk, Except.toBool]
    rw [done] at spoken
    cases spoken with
    | whole =>
      have yields : Word turn.request word := valid ⟨turn.opened, done⟩
      refine ⟨word :: words, tail, ?_, first ▸ .cons yields whole, short, failed⟩
      rw [List.flatten_cons, List.append_assoc]
      exact spells.append after

namespace Probe

/-- What is sent for a request that is answered. -/
def Answered (word : List MessageKind) : Prop := word = [.getApi] ∨ word = invocation

/-- What is sent for a request of a kind, if it is answered. No other kind is. -/
def word? : MessageKind → Option (List MessageKind)
  | .getApi => some [.getApi]
  | .invoke => some invocation
  | _ => none

theorem answered_of_word? {kind : MessageKind} {word : List MessageKind}
    (h : word? kind = some word) : Answered word := by
  cases kind with
  | getApi => exact .inl (Option.some.inj h).symm
  | invoke => exact .inr (Option.some.inj h).symm
  | _ => cases h

/-- What is sent for a request that is not answered: nothing, or an invocation up to a call that
asks for something. -/
def Abandoned (part : List MessageKind) : Prop :=
  part = [] ∨ part <+: invocation ∧
    ∃ before, ∃ kind ∈ [MessageKind.getInfo, .getValue, .getBalance], part = before ++ [kind]

/-- The calls but the event have frames, and the event asks for nothing. -/
theorem abandoned_of_cut {request : Request} {part : List MessageKind}
    (cut : Call.Cut Registry.standard (calls request) part) : Abandoned part := by
  right
  let front : List Call := [.getInfo, .setValue hello (some world), .getValue hello,
    .setValue foo none, .getValue foo, .getBalance balanceAccount]
  have framed : ∀ c ∈ front, c.frame? Registry.standard ≠ none := by decide +kernel
  have calls_eq : calls request = front ++ [.sendEvent (indexed request) data] := rfl
  rw [calls_eq] at cut
  rcases cut.of_append framed with ⟨before, c, first, asks, rfl⟩ | ⟨rest, behind, rfl⟩
  · constructor
    · have kinds : front.map Call.kind <+: invocation := by decide
      exact (first.map Call.kind).trans kinds
    · refine ⟨before.map Call.kind, c.kind, Call.kind_of_asks asks, ?_⟩
      rw [List.map_append, List.map_singleton]
  · have none : rest = [] := by
      cases behind with
      | unsent => rfl
      | unanswered asks => cases asks
      | later later => cases later
    rw [none]
    constructor
    · decide
    · exact ⟨[.getInfo, .setValue, .getValue, .setValue, .getValue], .getBalance, by decide, rfl⟩

theorem exists_frame_outcome : ∃ body frame, outcome.toBody Registry.standard = .ok body ∧
    (Message.ofBody .result Body.Result.format body).toFrame = .ok frame := by
  have written : ∃ body, outcome.toBody Registry.standard = .ok body ∧
      (Message.format.encode (.ofBody .result Body.Result.format body)).length ≤ Frame.maxSize :=
    ⟨_, rfl, by decide +kernel⟩
  obtain ⟨body, written, short⟩ := written
  obtain ⟨frame, framed⟩ := Message.exists_toFrame_iff.mpr short
  exact ⟨body, frame, written, framed⟩

theorem speaks_answerInvoke (m : Message) :
    Speaks invocation Abandoned (contract.answerInvoke Registry.standard m) := by
  apply Contract.speaks_answerInvoke (.inl rfl)
  intro request
  have runs : Speaks ((calls request).map Call.kind) (Call.Cut Registry.standard (calls request))
      ((contract.invoke request).run Registry.standard) := (makes_invoke request).speaks
  obtain ⟨body, frame, written, framed⟩ := exists_frame_outcome
  have reports (a : Outcome) (yields : Yields ((contract.invoke request).run Registry.standard) a) :
      Speaks [.result] (fun _ => False) (a.report Registry.standard) := by
    rw [(makes_invoke request).eq_of_yields yields]
    exact Outcome.speaks_report written framed
  apply (runs.bind reports).mono
  rintro part (cut | ⟨rest, never, -⟩)
  · exact abandoned_of_cut cut
  · exact never.elim

theorem speaks_answer (m : Message) : ∃ word,
    Speaks word Abandoned (contract.answer Registry.standard m) ∧
      (Yields (contract.answer Registry.standard m) () → word? m.kind = some word) := by
  unfold Contract.answer
  split
  next kind =>
    refine ⟨invocation, speaks_answerInvoke m, fun _ => ?_⟩
    rw [kind]
    rfl
  next kind =>
    refine ⟨[.getApi], (contract.replies_answerApi m).speaks.mono fun _ => .inl, fun _ => ?_⟩
    rw [kind]
    rfl
  next => exact ⟨[], speaks_ofExcept_error (.inl rfl), fun ⟨_, answered⟩ => nomatch answered⟩

end Probe

namespace CommandLine

/-- The announcement always fits a frame, so it is always sent. -/
theorem exists_frame_announce (processId : UInt32) :
    ∃ frame, (Message.ofBody .version Body.Version.format (identity processId)).toFrame =
      .ok frame := by
  apply Message.exists_toFrame_iff.mpr
  have name : (Bytes.ofText "rust").length = 4 := by decide
  have payload : (Body.Version.format.encode (identity processId)).length = 18 := by
    simp [Body.Version.format, identity, Format.encode_text, Format.u16, Format.u32, Format.u64,
      name]
  rw [Message.length_encode, Message.ofBody, payload]
  decide

theorem run_register (processId : UInt32) {link : Link} (unlimited : link.room = none) :
    ∃ frame notes, Spells [.version] frame ∧ (register processId).run link =
      (.ok (), { link with sent := link.sent ++ frame, journal := link.journal ++ notes }) := by
  obtain ⟨frame, framed⟩ := exists_frame_announce processId
  obtain ⟨r, sends⟩ := run_transmit_of_unlimited framed unlimited
  have written : (Call.announce (identity processId)).message Registry.standard =
      .ok (.ofBody .version Body.Version.format (identity processId)) := rfl
  have announces := Call.run_perform_of_message_ok written link
  rw [sends] at announces
  have logs : ∃ message, (register processId).run link = (log .info message).run
      { link with sent := link.sent ++ frame, journal := link.journal ++ [.logged r] } := by
    unfold register
    rw [run_bind, announces]
    exact ⟨_, rfl⟩
  obtain ⟨message, eq⟩ := logs
  refine ⟨frame, [.logged r] ++ [.logged ⟨.info, message⟩], .singleton framed, eq.trans ?_⟩
  rw [← List.append_assoc]
  rfl

/-- To a manager that takes everything the engine announces itself, and then sends one word for each
request it answers, that of the request's kind. What is behind the last of these is an invocation
that has failed, cut after a call that asks for something. -/
theorem engage_spells (processId : UInt32) (incoming : Bytes) (journal : List Note) :
    let start : Link := { incoming, journal }
    let registered := ((register processId).run start).2
    let answered := Turn.answered (Probe.contract.turns Registry.standard registered)
    let ended := (engage processId).run start
    ∃ (words : List (List MessageKind)) (tail : List MessageKind),
      registered.incoming = incoming ∧
        (Probe.contract.serve Registry.standard).run registered = ended ∧
        Spells (.version :: words.flatten ++ tail) ended.2.sent ∧
        List.Forall₂ (fun m word => Probe.word? m.kind = some word) answered words ∧
        (∀ word ∈ words, Probe.Answered word) ∧ Probe.Abandoned tail ∧
        (tail ≠ [] → ∃ e, ended.1 = .error e) := by
  intro start registered answered ended
  have unlimited : start.room = none := rfl
  obtain ⟨frame, notes, version, registers⟩ := run_register processId unlimited
  have goes : ended = (Probe.contract.serve Registry.standard).run registered := by
    simp only [ended, registered, engage, run_bind, registers, andThen_ok]
  have opened : registered.incoming = incoming ∧ registered.sent = frame ∧
      registered.room = none := by
    simp only [registered, registers]
    exact ⟨rfl, rfl, rfl⟩
  obtain ⟨input, announced, unlimited⟩ := opened
  have run := Probe.contract.serves_turns Registry.standard registered
  rw [← goes] at run
  obtain ⟨words, tail, spells, kinds, abandoned, failed⟩ :=
    run.spells (run.room_opened unlimited) (.inl rfl) Probe.speaks_answer
  obtain ⟨_, gains, -⟩ := run.gains
  have sent := (gains.output unlimited).2
  have whole : ∀ word ∈ words, Probe.Answered word := by
    intro word mem
    obtain ⟨m, -, own⟩ := exists_of_forall₂ kinds word mem
    exact Probe.answered_of_word? own
  refine ⟨words, tail, input, goes.symm, ?_, kinds, whole, abandoned, failed⟩
  rw [sent, announced]
  exact version.append spells

/-- Once connected, the program sends what the engine does, and tells whether it has failed. -/
theorem run_of_connect {host : Host} {arguments : List String} {socket : String} {incoming : Bytes}
    (command : Command.ofArguments arguments = .connect socket)
    (connected : host.connect socket = .ok incoming) :
    let start : Link := { incoming, journal := [.logged ⟨.info, s!"connect({socket})"⟩] }
    let ended := (engage host.processId).run start
    (run host arguments).sent? = some ended.2.sent ∧
      ((run host arguments).exitCode = 0 ↔ ended.1 = .ok ()) := by
  intro start ended
  unfold run
  rw [command]
  dsimp only
  rw [connected]
  dsimp only
  simp only [ended]
  rcases (engage host.processId).run start with ⟨_ | _, last⟩
  · exact ⟨rfl, by simp⟩
  · exact ⟨rfl, by simp⟩

/-- A manager in the working directory asks for the API, invokes the engine and answers what it is
asked. -/
theorem engage_spells_session :
    let account : Address := ⟨false, List.replicate 20 7, rfl⟩
    let body : Body.Invoke := ⟨"code", (Value.address account).typed, (Value.address account).typed,
      (Value.integer 3).typed, (Value.integer 9).typed, "run", Value.nil.typed⟩
    let asks : Message := .ofBody .getApi Body.GetApiRequest.format ⟨"code"⟩
    let invokes : Message := .ofBody .invoke Body.Invoke.format body
    let messages : List Message := [asks, invokes,
      .ofBody .getInfo Body.GetInfoResponse.format ⟨Value.nil.typed⟩,
      .ofBody .getValue Body.GetValueResponse.format ⟨some Probe.world⟩,
      .ofBody .getValue Body.GetValueResponse.format ⟨none⟩,
      .ofBody .getBalance Body.GetBalanceResponse.format ⟨(Value.integer 5).typed⟩]
    let incoming := messages.flatMap fun m => Frame.wrap (Message.format.encode m)
    let host : Host := {
      logSetting? := none
      processId := 7
      connect := SocketPath.connect [("run", .directory [("ee.sock", .socket incoming)])] }
    (run host ["./run/ee.sock"]).exitCode = 0 ∧ ∃ sent,
      (run host ["./run/ee.sock"]).sent? = some sent ∧
        Spells ([.version, .getApi] ++ Probe.invocation) sent := by
  intro account body asks invokes messages incoming host
  have command : Command.ofArguments ["./run/ee.sock"] = .connect "./run/ee.sock" := rfl
  have connected : host.connect "./run/ee.sock" = .ok incoming := by decide +kernel
  let start : Link := { incoming, journal := [.logged ⟨.info, "connect(./run/ee.sock)"⟩] }
  let registered : Link := ((register 7).run start).2
  let first : Turn Registry.standard Probe.contract := ⟨asks, (receive.run registered).2⟩
  let second : Turn Registry.standard Probe.contract := ⟨invokes, (receive.run first.closed).2⟩
  have received : receive.run registered = (.ok (some asks), first.opened) :=
    run_eq_of_fst_eq (by decide +kernel)
  have done : first.outcome = .ok () := by decide +kernel
  have received' : receive.run first.closed = (.ok (some invokes), second.opened) :=
    run_eq_of_fst_eq (by decide +kernel)
  have done' : second.outcome = .ok () := by decide +kernel
  have ended : (receive.run second.closed).1 = .ok none := by decide +kernel
  have turns : Probe.contract.turns Registry.standard registered = [first, second] := by
    rw [Contract.turns_of_answered first received done,
      Contract.turns_of_answered second received' done',
      Contract.turns_of_ended (run_eq_of_fst_eq ended)]
  have answered : Turn.answered [first, second] = [asks, invokes] := by
    simp [Turn.answered, done, done', Except.isOk, Except.toBool, first, second]
  have answers (turn : Turn Registry.standard Probe.contract) (done : turn.outcome = .ok ()) :
      (Probe.contract.answer Registry.standard turn.request).run turn.opened =
        (.ok (), turn.closed) := done ▸ turn.run_answer
  obtain ⟨words, tail, -, goes, spells, kinds, -, -, failed⟩ :=
    engage_spells 7 incoming start.journal
  obtain ⟨sent, exits⟩ := run_of_connect command connected
  have fine : ((engage 7).run start).1 = .ok () := by
    rw [← goes, Contract.run_serve_of_answered received (answers first done),
      Contract.run_serve_of_answered received' (answers second done')]
    exact (Contract.served_of_ended (run_eq_of_fst_eq ended)).1
  have whole : tail = [] := by
    by_contra more
    obtain ⟨e, failed⟩ := failed more
    rw [fine] at failed
    cases failed
  rw [turns, answered] at kinds
  rcases kinds with _ | ⟨api, _ | ⟨invocation, ⟨⟩⟩⟩
  obtain rfl := Option.some.inj api
  obtain rfl := Option.some.inj invocation
  rw [whole] at spells
  exact ⟨exits.mpr fine, _, sent, spells⟩

end CommandLine

end ContractLink
