import ContractLink.Proofs.Serve.Turn
/-!
What serving sends for each request. Main statement: what is sent falls into one block a request, in
the order in which the requests are read; a block is the frames of the calls that the contract makes
and then one reply, and the contract runs for an invocation that can be read, once, and for nothing
else.
-/
namespace ContractLink

open Exchange

/-- The kind of message that a request of the kind is answered by. -/
def MessageKind.reply? : MessageKind → Option MessageKind
  | invoke => some result
  | getApi => some getApi
  | _ => none

/-- The codec reads the fields of the body as those of the request. -/
structure Body.Invoke.Carries (codec : Codec) (body : Body.Invoke) (request : Request) : Prop where
  code : body.code = request.code
  sender : codec.decode body.sender = .ok (.address request.sender)
  recipient : codec.decode body.recipient = .ok (.address request.recipient)
  value : codec.decode body.value = .ok (.integer request.value)
  limit : codec.decode body.limit = .ok (.integer request.limit)
  method : body.method = request.method
  params : codec.decode body.params = .ok request.params

/-- The message is an invocation that can be read, of the request. -/
def Message.Asks (codec : Codec) (m : Message) (request : Request) : Prop :=
  m.kind = .invoke ∧ ∃ body, m.body Body.Invoke.format = .ok body ∧ body.Carries codec request

/-- The invocations in the journal. -/
def Link.requests (link : Link) : List Request := link.journal.filterMap Note.request?

namespace Field

variable {α : Type} {codec : Codec} {field : Field} {typed : TypedBytes} {b : α}

theorem of_read_address_ok {next : Address → Except LinkError α}
    (h : ((codec.decode typed).mapError LinkError.codec >>= fun value =>
      field.address value >>= next) = .ok b) :
    ∃ a, codec.decode typed = .ok (.address a) ∧ next a = .ok b := by
  obtain ⟨value, read, rest⟩ := of_bind_mapError_ok h
  obtain ⟨a, taken, rest⟩ := of_bind_eq_ok rest
  exact ⟨a, address_eq_ok_iff.mp taken ▸ read, rest⟩

theorem of_read_integer_ok {next : Int128 → Except LinkError α}
    (h : ((codec.decode typed).mapError LinkError.codec >>= fun value =>
      field.integer value >>= next) = .ok b) :
    ∃ v, codec.decode typed = .ok (.integer v) ∧ next v = .ok b := by
  obtain ⟨value, read, rest⟩ := of_bind_mapError_ok h
  obtain ⟨v, taken, rest⟩ := of_bind_eq_ok rest
  exact ⟨v, integer_eq_ok_iff.mp taken ▸ read, rest⟩

end Field

theorem Request.ofBody_eq_ok_iff {codec : Codec} {body : Body.Invoke} {request : Request} :
    ofBody codec body = .ok request ↔ body.Carries codec request := by
  constructor
  · intro h
    obtain ⟨sender, sent, h⟩ := Field.of_read_address_ok h
    obtain ⟨recipient, received, h⟩ := Field.of_read_address_ok h
    obtain ⟨value, valued, h⟩ := Field.of_read_integer_ok h
    obtain ⟨limit, limited, h⟩ := Field.of_read_integer_ok h
    obtain ⟨params, read, h⟩ := of_bind_mapError_ok h
    obtain rfl := Except.ok.inj h
    exact ⟨rfl, sent, received, valued, limited, rfl, read⟩
  · intro h
    obtain ⟨code, sender, recipient, value, limit, method, params⟩ := request
    obtain ⟨rfl, sent, received, valued, limited, rfl, read⟩ := h
    simp only [ofBody, sent, received, valued, limited, read]
    rfl

/-- The request is what the fields are read as, so there is only one. -/
theorem Message.Asks.unique {codec : Codec} {m : Message} {request other : Request}
    (asks : m.Asks codec request) (again : m.Asks codec other) : request = other := by
  obtain ⟨-, body, parsed, carries⟩ := asks
  obtain ⟨-, body', parsed', carries'⟩ := again
  obtain rfl := Except.ok.inj (parsed.symm.trans parsed')
  have read := Request.ofBody_eq_ok_iff.mpr carries
  exact Except.ok.inj (read.symm.trans (Request.ofBody_eq_ok_iff.mpr carries'))

/-- A request is answered by one frame, of a message of the kind, or fails and sends no reply. -/
inductive Answers (kind? : Option MessageKind) : Except LinkError Unit → Bytes → Prop
  | replied {reply : Message} {frame : Bytes} (kind_eq : kind? = some reply.kind)
      (framed : reply.toFrame = .ok frame) : Answers kind? (.ok ()) frame
  | failed (e : LinkError) : Answers kind? (.error e) []

namespace Exchange

variable {α : Type} {kind : MessageKind}

/-- To a peer that takes everything the exchange sends a reply, unless it fails. -/
def Replies (kind : MessageKind) (x : Exchange Unit) : Prop :=
  ∀ link : Link, link.room = none → ∃ sent notes, Answers (some kind) (x.run link).1 sent ∧
    Logs notes ∧ link.Gains (x.run link).2 sent notes

theorem Replies.bind {x : Exchange α} {f : α → Exchange Unit} (hx : Adds Quiet x)
    (hf : ∀ a, Replies kind (f a)) : Replies kind (x >>= f) := by
  intro link unlimited
  obtain ⟨sent, notes, ⟨rfl, logs⟩, gains⟩ := hx link
  rw [run_bind]
  rcases result : x.run link with ⟨e | a, next⟩ <;> rw [result] at gains
  · exact ⟨[], notes, .failed e, logs, gains⟩
  · obtain ⟨reply, others, answers, more, gains'⟩ := hf a next (gains.output unlimited).1
    exact ⟨reply, notes ++ others, answers, logs.append more, gains.trans gains'⟩

theorem replies_transmit (m : Message) : Replies m.kind (transmit m) := by
  intro link unlimited
  cases framed : m.toFrame with
  | ok frame =>
    obtain ⟨r, eq⟩ := run_transmit_of_unlimited framed unlimited
    rw [eq]
    exact ⟨frame, [.logged r], .replied rfl framed, .singleton r, rfl, fun _ => ⟨unlimited, rfl⟩⟩
  | error e =>
    obtain ⟨r, eq⟩ := run_transmit_of_error framed link
    rw [eq]
    exact ⟨[], [.logged r], .failed _, .singleton r, gains_note (.logged r) link⟩

end Exchange

theorem Outcome.replies_report (codec : Codec) (outcome : Outcome) :
    Replies .result (outcome.report codec) :=
  .bind (adds_ofExcept _) fun result => replies_transmit (.ofBody .result Body.Result.format result)

theorem Outcome.of_run_report_ok {codec : Codec} {outcome : Outcome} {link next : Link}
    (reported : (outcome.report codec).run link = (.ok (), next)) :
    ∃ body frame, outcome.toBody codec = .ok body ∧
      (Message.ofBody .result Body.Result.format body).toFrame = .ok frame ∧
      next.sent = link.sent ++ frame := by
  cases written : outcome.toBody codec with
  | error e =>
    rw [report, written] at reported
    cases (Prod.mk.inj reported).1
  | ok body =>
    rw [report, written] at reported
    have transmitted : (transmit (.ofBody .result Body.Result.format body)).run link =
        (.ok (), next) := reported
    obtain ⟨frame, framed, sent⟩ := of_run_transmit_ok transmitted
    exact ⟨body, frame, rfl, framed, sent⟩

/-- A report is not entered in the journal, but for log records. -/
theorem Outcome.adds_logged_report (codec : Codec) (outcome : Outcome) :
    Adds Logged (outcome.report codec) := by
  refine (adds_ofExcept _).bind fun result link => ?_
  obtain ⟨notes, logs, gains⟩ := gains_transmit (.ofBody .result Body.Result.format result) link
  exact ⟨_, notes, logs, gains⟩

namespace Contract

variable {codec : Codec} {contract : Contract} {m : Message} {request : Request}

theorem replies_answerApi (contract : Contract) (m : Message) :
    Replies .getApi (contract.answerApi m) :=
  .bind (adds_ofExcept _) fun request => .bind (contract.adds_warnMissing request.code) fun _ =>
    replies_transmit <| .ofBody .getApi Body.GetApiResponse.format <|
      contract.description request.code

theorem answer_of_invoke (codec : Codec) (contract : Contract) (kind : m.kind = .invoke) :
    contract.answer codec m = contract.answerInvoke codec m := by
  rw [answer, kind]

theorem answer_of_getApi (codec : Codec) (contract : Contract) (kind : m.kind = .getApi) :
    contract.answer codec m = contract.answerApi m := by
  rw [answer, kind]

/-- A message that is no request ends the serving. -/
theorem answer_of_other (codec : Codec) (contract : Contract) (other : m.kind.reply? = none) :
    contract.answer codec m = fail (.unexpectedMessage [.invoke, .getApi] m.kind) := by
  unfold answer
  split
  next kind => simp [kind, MessageKind.reply?] at other
  next kind => simp [kind, MessageKind.reply?] at other
  next => rfl

/-- An invocation that can be read is entered, and the contract is run. -/
theorem run_answerInvoke_of_asks (asks : m.Asks codec request) (link : Link) :
    ∃ r start, link.Gains start [] [.logged r, .invoked request] ∧
      start.incoming = link.incoming ∧ start.sent = link.sent ∧
      (contract.answerInvoke codec m).run link =
        andThen (fun outcome => outcome.report codec)
          (((contract.invoke request).run codec).run start) := by
  obtain ⟨-, body, parsed, carries⟩ := asks
  have parses : (m.body Body.Invoke.format).mapError LinkError.decode = .ok body := by
    rw [parsed]
    rfl
  have read := Request.ofBody_eq_ok_iff.mpr carries
  have runs : ∃ r, (contract.answerInvoke codec m).run link =
      andThen (fun outcome => outcome.report codec) (((contract.invoke request).run codec).run
        ((note (.invoked request)).run ((note (.logged r)).run link).2).2) := by
    apply Exists.intro
    rw [answerInvoke, parses, run_ofExcept_ok_bind, read, run_ofExcept_ok_bind, run_log_bind,
      run_note_bind, run_bind]
  obtain ⟨r, eq⟩ := runs
  exact ⟨r, _, (gains_note (.logged r) link).trans (gains_note (.invoked request) _), rfl, rfl, eq⟩

/-- Any other invocation fails before anything is done. -/
theorem run_answerInvoke_of_not_asks (kind : m.kind = .invoke)
    (unasked : ¬∃ request, m.Asks codec request) (link : Link) :
    ∃ e, (contract.answerInvoke codec m).run link = (.error e, link) := by
  unfold answerInvoke
  cases parsed : m.body Body.Invoke.format with
  | error e => exact ⟨.decode e, rfl⟩
  | ok body =>
    cases read : Request.ofBody codec body with
    | error e =>
      refine ⟨e, ?_⟩
      show ((ofExcept (Request.ofBody codec body)) >>= _).run link = _
      rw [read]
      rfl
    | ok request =>
      exact absurd ⟨request, kind, body, parsed, Request.ofBody_eq_ok_iff.mp read⟩ unasked

end Contract

namespace Turn

variable {codec : Codec} {contract : Contract} {turn : Turn codec contract} {request : Request}

/-- The contract is run for the request, with the input and the output of the link as it was opened,
and sends the callbacks; its outcome is then reported. -/
def Runs (turn : Turn codec contract) (request : Request) : Prop :=
  ∃ start finish result notes, ((contract.invoke request).run codec).run start = (result, finish) ∧
    start.incoming = turn.opened.incoming ∧ start.sent = turn.opened.sent ∧
    turn.opened.Gains finish turn.callbacks.flatten notes ∧
    (turn.outcome, turn.closed) = andThen (fun outcome => outcome.report codec) (result, finish)

/-- What is sent for the request is one block, and the contract is run as the request asks. -/
structure IsBlock (turn : Turn codec contract) : Prop where
  /-- The callbacks come first; then the reply, if the request is answered. -/
  sent_eq : ∃ reply, Answers turn.request.kind.reply? turn.outcome reply ∧
    turn.sent = turn.callbacks.flatten ++ reply
  /-- No callback is a reply. -/
  callback : ∀ frame ∈ turn.callbacks, ∃ m : Message, m.toFrame = .ok frame ∧
    m.kind ≠ .result ∧ m.kind ≠ .getApi
  invoked : ∀ request, turn.request.Asks codec request →
    turn.invocations = [request] ∧ turn.Runs request
  /-- Nothing else makes the contract run. -/
  idle : (¬∃ request, turn.request.Asks codec request) → turn.invocations = [] ∧ turn.calls = []
  rejected : turn.request.kind = .invoke → (¬∃ request, turn.request.Asks codec request) →
    turn.outcome ≠ .ok () ∧ turn.sent = []

theorem kind_of_mem_callbacks (turn : Turn codec contract) :
    ∀ frame ∈ turn.callbacks, ∃ m : Message, m.toFrame = .ok frame ∧
      m.kind ≠ .result ∧ m.kind ≠ .getApi := by
  intro frame mem
  obtain ⟨c, -, framed⟩ := List.mem_filterMap.mp mem
  obtain ⟨m, written, whole⟩ := Call.frame?_eq_some_iff.mp framed
  obtain ⟨payload, -, rfl⟩ := of_map_eq_ok written
  exact ⟨_, whole, by cases c <;> simp [Call.kind], by cases c <;> simp [Call.kind]⟩

theorem outcome_of_not_asks (kind : turn.request.kind = .invoke)
    (unasked : ¬∃ request, turn.request.Asks codec request) :
    ∃ e, turn.outcome = .error e ∧ turn.closed = turn.opened := by
  obtain ⟨e, failed⟩ := contract.run_answerInvoke_of_not_asks kind unasked turn.opened
  rw [← Contract.answer_of_invoke codec contract kind, turn.run_answer] at failed
  exact ⟨e, Prod.mk.inj failed⟩

/-- A turn without an invocation that can be read makes no calls, and may be answered. -/
theorem answers_of_not_asks (unlimited : turn.opened.room = none)
    (unasked : ¬∃ request, turn.request.Asks codec request) :
    ∃ reply notes, Answers turn.request.kind.reply? turn.outcome reply ∧ Logs notes ∧
      turn.opened.Gains turn.closed reply notes := by
  have answered := turn.run_answer
  cases kind : turn.request.kind with
  | invoke =>
    obtain ⟨e, failed, same⟩ := outcome_of_not_asks kind unasked
    rw [failed, same]
    exact ⟨[], [], .failed e, .nil, .refl _⟩
  | getApi =>
    rw [Contract.answer_of_getApi codec contract kind] at answered
    obtain ⟨reply, notes, answers, logs, gains⟩ :=
      contract.replies_answerApi turn.request turn.opened unlimited
    rw [answered] at answers gains
    exact ⟨reply, notes, answers, logs, gains⟩
  | _ =>
    rw [Contract.answer_of_other codec contract (by rw [kind]; rfl)] at answered
    obtain ⟨failed, same⟩ := Prod.mk.inj answered
    rw [← failed, ← same]
    exact ⟨[], [], .failed _, .nil, .refl _⟩

theorem isBlock_of_not_asks (unlimited : turn.opened.room = none)
    (unasked : ¬∃ request, turn.request.Asks codec request) : turn.IsBlock := by
  obtain ⟨reply, notes, answers, logs, gains⟩ := answers_of_not_asks unlimited unasked
  have calls : turn.calls = [] := by rw [Turn.calls, notes_eq gains, logs.calls_eq]
  have sent : turn.sent = turn.callbacks.flatten ++ reply := by
    rw [sent_eq gains unlimited, callbacks, calls]
    rfl
  refine ⟨⟨reply, answers, sent⟩, turn.kind_of_mem_callbacks, ?_, ?_, ?_⟩
  · exact fun request asks => absurd ⟨request, asks⟩ unasked
  · exact fun _ => ⟨by rw [invocations, notes_eq gains, logs.requests_eq], calls⟩
  · intro kind _
    obtain ⟨e, failed, same⟩ := outcome_of_not_asks kind unasked
    refine ⟨by simp [failed], ?_⟩
    rw [Turn.sent, same, List.drop_length]

/-- The contract is invoked once for an invocation that can be read. -/
theorem runs_of_asks (asks : turn.request.Asks codec request) :
    turn.invocations = [request] ∧ turn.Runs request := by
  obtain ⟨r, start, entered, input, output, eq⟩ :=
    contract.run_answerInvoke_of_asks asks turn.opened
  rcases ran : ((contract.invoke request).run codec).run start with ⟨result, finish⟩
  rw [← Contract.answer_of_invoke codec contract asks.1, turn.run_answer, ran] at eq
  obtain ⟨sent, notes, callbacks, made⟩ := (Program.adds_run codec _).of_run ran
  have before := entered.trans made
  have reported : finish.Grows Logged turn.closed := by
    cases result with
    | error e =>
      obtain ⟨-, same⟩ := Prod.mk.inj eq
      rw [same]
      exact .refl finish
    | ok outcome => exact (outcome.adds_logged_report codec).of_run eq.symm
  obtain ⟨more, others, logs, after⟩ := reported
  have notes_eq := notes_eq (before.trans after)
  have calls : turn.calls = notes.filterMap Note.call? := by
    rw [Turn.calls, notes_eq, List.filterMap_append, List.filterMap_append, logs.calls_eq,
      List.append_nil]
    rfl
  have made_eq : sent = turn.callbacks.flatten := by
    rw [Turn.callbacks, calls]
    exact callbacks.sent_eq
  constructor
  · rw [invocations, notes_eq, List.filterMap_append, List.filterMap_append,
      callbacks.requests_eq, logs.requests_eq]
    rfl
  · rw [List.nil_append, made_eq] at before
    exact ⟨start, finish, result, _, ran, input, output, before, eq⟩

theorem isBlock_of_asks (unlimited : turn.opened.room = none)
    (asks : turn.request.Asks codec request) : turn.IsBlock := by
  obtain ⟨-, start, finish, result, notes, -, -, -, before, eq⟩ := runs_of_asks asks
  have reported : ∃ reply others, Answers (some .result) turn.outcome reply ∧
      finish.Gains turn.closed reply others := by
    cases result with
    | error e =>
      obtain ⟨failed, same⟩ := Prod.mk.inj eq
      rw [failed, same]
      exact ⟨[], [], .failed e, .refl finish⟩
    | ok outcome =>
      obtain ⟨reply, others, answers, -, after⟩ :=
        outcome.replies_report codec finish (before.output unlimited).1
      rw [andThen_ok] at eq
      rw [← eq] at answers after
      exact ⟨reply, others, answers, after⟩
  obtain ⟨reply, others, answers, after⟩ := reported
  have kind : turn.request.kind.reply? = some .result := by
    rw [asks.1]
    rfl
  refine ⟨⟨reply, kind ▸ answers, sent_eq (before.trans after) unlimited⟩,
    turn.kind_of_mem_callbacks, ?_, ?_, ?_⟩
  · intro other again
    obtain rfl := asks.unique again
    exact runs_of_asks asks
  · exact fun unasked => absurd ⟨request, asks⟩ unasked
  · exact fun _ unasked => absurd ⟨request, asks⟩ unasked

theorem isBlock (turn : Turn codec contract) (unlimited : turn.opened.room = none) :
    turn.IsBlock := by
  by_cases asks : ∃ request, turn.request.Asks codec request
  · obtain ⟨request, asks⟩ := asks
    exact isBlock_of_asks unlimited asks
  · exact isBlock_of_not_asks unlimited asks

end Turn

namespace Contract

/-- What serving sends is the blocks of the requests that it reads, in their order. All requests are
answered when serving ends well, and all but the last when it fails. The contract runs for the
invocations that can be read, once for each and in their order, and for nothing else. -/
theorem serve_blocks (codec : Codec) (contract : Contract) (link : Link)
    (unlimited : link.room = none) :
    let turns := contract.turns codec link
    let (result, last) := (contract.serve codec).run link
    Serves link turns result last ∧ (∀ turn ∈ turns, turn.IsBlock) ∧
      last.sent = link.sent ++ turns.flatMap Turn.sent ∧
      last.requests = link.requests ++ turns.flatMap Turn.invocations ∧
      (result = .ok () → ∀ turn ∈ turns, turn.outcome = .ok ()) ∧
      ∀ turn ∈ turns.dropLast, turn.outcome = .ok () := by
  intro turns
  have run := serves_turns codec contract link
  rcases served : (contract.serve codec).run link with ⟨result, last⟩
  rw [served] at run
  obtain ⟨notes, gains, invoked⟩ := run.gains
  refine ⟨run, ?_, (gains.output unlimited).2, ?_, run.outcome_of_ok, run.outcome_of_mem_dropLast⟩
  · exact fun turn mem => turn.isBlock (run.room_opened unlimited turn mem)
  · rw [Link.requests, gains.journal, List.filterMap_append, invoked]
    rfl

/-- A contract that sets a key, invoked once before the manager closes the link. -/
theorem serve_blocks_script :
    let codec : Codec := Registry.standard
    let script : Script := { steps := [.call (.setValue [1] none)], outcome := ⟨0, 5, .nil⟩ }
    let account : Address := ⟨false, List.replicate 20 7, rfl⟩
    let request : Request := ⟨"code", account, account, 3, 9, "run", .nil⟩
    let body : Body.Invoke := ⟨"code", ⟨10, account.toBytes⟩, ⟨10, account.toBytes⟩, ⟨11, [3]⟩,
      ⟨11, [9]⟩, "run", ⟨0, []⟩⟩
    let m : Message := .ofBody .invoke Body.Invoke.format body
    let link : Link := { incoming := Frame.wrap (Message.format.encode m) }
    link.room = none ∧ ∃ turn : Turn codec script.contract,
      script.contract.turns codec link = [turn] ∧ turn.IsBlock ∧ turn.outcome = .ok () ∧
        turn.invocations = [request] ∧
        ((script.contract.serve codec).run link).2.sent = turn.sent := by
  intro codec script account request body m link
  let turn : Turn codec script.contract := ⟨m, (receive.run link).2⟩
  have received : receive.run link = (.ok (some m), turn.opened) :=
    run_eq_of_fst_eq (by decide +kernel)
  have done : turn.outcome = .ok () := by decide +kernel
  have ended : (receive.run turn.closed).1 = .ok none := by decide +kernel
  have turns : script.contract.turns codec link = [turn] := by
    rw [turns_of_answered turn received done, turns_of_ended (run_eq_of_fst_eq ended)]
  have carries : body.Carries codec request := by
    constructor <;> decide +kernel
  have asks : turn.request.Asks codec request := ⟨rfl, body, by decide +kernel, carries⟩
  have facts := serve_blocks codec script.contract link rfl
  rcases served : (script.contract.serve codec).run link with ⟨result, last⟩
  rw [served, turns] at facts
  obtain ⟨-, blocks, sent, -⟩ := facts
  have block := blocks turn (List.mem_singleton_self turn)
  refine ⟨rfl, turn, turns, block, done, (block.invoked request asks).1, ?_⟩
  simpa [link] using sent

end Contract

end ContractLink
