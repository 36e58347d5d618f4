import ContractLink.Proofs.Message.Fields
import ContractLink.Proofs.Serve.Block
/-!
Invocations and outcomes on their way. What fits a frame is short enough for every limit on the way
but that of nesting. Main statement: the contract is invoked with the request that the manager has
written, and the manager reads the outcome that the contract has given.
-/
namespace ContractLink

open Exchange

/-- What the manager writes for a request: the typed fields in the order of the body. -/
def Request.toBody (codec : Codec) (request : Request) : Except CodecError Body.Invoke := do
  let sender ← codec.encode (.address request.sender)
  let recipient ← codec.encode (.address request.recipient)
  let value ← codec.encode (.integer request.value)
  let limit ← codec.encode (.integer request.limit)
  let params ← codec.encode request.params
  return ⟨request.code, sender, recipient, value, limit, request.method, params⟩

/-- Whatever comes behind the frame, it is read, and the codec reads its fields as the outcome. -/
def Outcome.Reaches (codec : Codec) (outcome : Outcome) (frame : Bytes) : Prop :=
  ∀ rest, ∃ data m body, Frame.read (frame ++ rest) = (.ok (some data), rest) ∧
    Message.format.decodeAll data = .ok m ∧ m.kind = .result ∧
    m.body Body.Result.format = .ok body ∧ body.status = outcome.status ∧
    codec.decode body.stepUsed = .ok (.integer outcome.stepUsed) ∧
    codec.decode body.result = .ok outcome.result

section

variable {registry : Registry}

/-- The limits of the body are those of the registry, so what is read as a field is read on. -/
theorem Registry.decode_of_readable {value : Value} {typed : TypedBytes}
    (written : registry.encode value = .ok typed) (readable : TypedBytes.format.Readable typed)
    (ordered : value.Ordered) (shallow : value.nesting ≤ maxNesting) :
    registry.decode typed = .ok value :=
  (settles_decode_of_length_data_le written ordered (typed.readable_iff.mp readable)).ok shallow

theorem Request.carries_of_toBody {request : Request} {body : Body.Invoke}
    (written : request.toBody registry = .ok body) (readable : Body.Invoke.format.Readable body)
    (ordered : request.params.Ordered) (shallow : request.params.nesting ≤ Registry.maxNesting) :
    body.Carries registry request := by
  obtain ⟨sender, sends, written⟩ := of_bind_eq_ok written
  obtain ⟨recipient, receives, written⟩ := of_bind_eq_ok written
  obtain ⟨value, values, written⟩ := of_bind_eq_ok written
  obtain ⟨limit, limits, written⟩ := of_bind_eq_ok written
  obtain ⟨params, passes, written⟩ := of_bind_eq_ok written
  obtain rfl := Except.ok.inj written
  have fields := Body.Invoke.readable_typedFields readable
  simp only [Body.Invoke.typedFields, List.forall_mem_cons] at fields
  obtain ⟨senderReadable, recipientReadable, valueReadable, limitReadable, paramsReadable, -⟩ :=
    fields
  exact {
    code := rfl
    sender := Registry.decode_of_readable sends senderReadable trivial (Nat.zero_le _)
    recipient := Registry.decode_of_readable receives recipientReadable trivial (Nat.zero_le _)
    value := Registry.decode_of_readable values valueReadable trivial (Nat.zero_le _)
    limit := Registry.decode_of_readable limits limitReadable trivial (Nat.zero_le _)
    method := rfl
    params := Registry.decode_of_readable passes paramsReadable ordered shallow }

/-- An outcome that is reported reaches the manager. -/
theorem Outcome.exists_frame_of_report {outcome : Outcome} {link next : Link}
    (reported : (outcome.report registry).run link = (.ok (), next)) :
    ∃ frame, next.sent = link.sent ++ frame ∧
      (outcome.result.Ordered → outcome.result.nesting ≤ Registry.maxNesting →
        outcome.Reaches registry frame) := by
  obtain ⟨body, frame, written, framed, sent⟩ := outcome.of_run_report_ok reported
  obtain ⟨stepUsed, steps, written⟩ := of_bind_eq_ok written
  obtain ⟨result, results, written⟩ := of_bind_eq_ok written
  obtain rfl := Except.ok.inj written
  have fields := Body.Result.readable_typedFields
    (Message.readable_of_toFrame Body.Result.lawful_format framed)
  simp only [Body.Result.typedFields, List.forall_mem_cons] at fields
  obtain ⟨stepsReadable, resultReadable, -⟩ := fields
  refine ⟨frame, sent, fun ordered shallow rest => ?_⟩
  exact ⟨_, _, _, Message.read_of_toFrame framed rest, Message.decodeAll_of_toFrame framed, rfl,
    Message.body_of_toFrame Body.Result.lawful_format framed, rfl,
    Registry.decode_of_readable steps stepsReadable trivial (Nat.zero_le _),
    Registry.decode_of_readable results resultReadable ordered shallow⟩

end

theorem Exchange.run_receive_of_toFrame {m : Message} {frame rest : Bytes} {link : Link}
    (framed : m.toFrame = .ok frame) (next : link.incoming = frame ++ rest) :
    ∃ r, receive.run link = (.ok (some m),
      { link with incoming := rest, journal := link.journal ++ [.logged r] }) := by
  have read := Message.read_of_toFrame framed rest
  rw [← next] at read
  exact run_receive_of_read read (Message.decodeAll_of_toFrame framed)

namespace Contract

theorem exists_turns_eq_cons {codec : Codec} {contract : Contract} {link : Link}
    (turn : Turn codec contract)
    (received : receive.run link = (.ok (some turn.request), turn.opened)) :
    ∃ later, contract.turns codec link = turn :: later := by
  cases answered : turn.outcome with
  | error e => exact ⟨[], turns_of_stopped turn received answered⟩
  | ok u => exact ⟨_, turns_of_answered turn received answered⟩

/-- If the next frame is an invocation that a manager has written, the contract is invoked once,
with the request that it was written for. Each invocation that is answered is answered by a frame
that gives the outcome of the contract. No length needs a bound but that of the frame. -/
theorem serve_lossless (registry : Registry) (contract : Contract) (link : Link) :
    let turns := contract.turns registry link
    let (result, last) := (contract.serve registry).run link
    Serves link turns result last ∧
      (∀ (request : Request) (body : Body.Invoke) (rest : Bytes),
        request.params.Ordered → request.params.nesting ≤ Registry.maxNesting →
        request.toBody registry = .ok body →
        let m : Message := .ofBody .invoke Body.Invoke.format body
        (Message.format.encode m).length ≤ Frame.maxSize →
        link.incoming = Frame.wrap (Message.format.encode m) ++ rest →
        ∃ turn later, turns = turn :: later ∧ turn.request = m ∧ turn.opened.incoming = rest ∧
          turn.opened.sent = link.sent ∧ turn.invocations = [request] ∧ turn.Runs request) ∧
      ∀ turn ∈ turns, turn.request.kind = .invoke → turn.outcome = .ok () →
        ∃ request outcome start finish frame, turn.invocations = [request] ∧
          start.incoming = turn.opened.incoming ∧ start.sent = turn.opened.sent ∧
          ((contract.invoke request).run registry).run start = (.ok outcome, finish) ∧
          turn.closed.sent = finish.sent ++ frame ∧
          (outcome.result.Ordered → outcome.result.nesting ≤ Registry.maxNesting →
            outcome.Reaches registry frame) := by
  intro turns
  refine ⟨serves_turns registry contract link, ?_, ?_⟩
  · intro request body rest ordered shallow written m short next
    obtain ⟨frame, framed⟩ := Message.exists_toFrame_iff.mpr short
    rw [← Message.eq_wrap_of_toFrame framed] at next
    obtain ⟨r, received⟩ := run_receive_of_toFrame framed next
    let turn : Turn registry contract :=
      ⟨m, { link with incoming := rest, journal := link.journal ++ [.logged r] }⟩
    obtain ⟨later, eq⟩ := exists_turns_eq_cons turn received
    have readable := Message.readable_of_toFrame Body.Invoke.lawful_format framed
    have parsed := Message.body_of_toFrame Body.Invoke.lawful_format framed
    have carries := Request.carries_of_toBody written readable ordered shallow
    have asks : turn.request.Asks registry request := ⟨rfl, body, parsed, carries⟩
    obtain ⟨invoked, runs⟩ := Turn.runs_of_asks asks
    exact ⟨turn, later, eq, rfl, rfl, rfl, invoked, runs⟩
  · intro turn _ kind answered
    by_cases asks : ∃ request, turn.request.Asks registry request
    · obtain ⟨request, asks⟩ := asks
      obtain ⟨invoked, start, finish, result, -, ran, input, output, -, eq⟩ :=
        Turn.runs_of_asks asks
      rw [answered] at eq
      cases result with
      | error e => cases (Prod.mk.inj eq).1
      | ok outcome =>
        obtain ⟨frame, sent, reaches⟩ := outcome.exists_frame_of_report eq.symm
        exact ⟨request, outcome, start, finish, frame, invoked, input, output, ran, sent, reaches⟩
    · obtain ⟨e, failed, -⟩ := Turn.outcome_of_not_asks kind asks
      rw [answered] at failed
      cases failed

/-- A contract that takes no steps; it is given a dictionary and gives a list. -/
theorem serve_lossless_script :
    let script : Script := { steps := [], outcome := ⟨3, .ofInt (-5), .list [.nil]⟩ }
    let account : Address := ⟨true, List.replicate 20 7, rfl⟩
    let request : Request := ⟨"code", account, account, 3, 9, "run", .dict [("a", .integer 300)]⟩
    let body : Body.Invoke := ⟨"code", (Value.address account).typed, (Value.address account).typed,
      (Value.integer 3).typed, (Value.integer 9).typed, "run", request.params.typed⟩
    let m : Message := .ofBody .invoke Body.Invoke.format body
    let link : Link := { incoming := Frame.wrap (Message.format.encode m) }
    request.toBody Registry.standard = .ok body ∧
      ∃ turn later, script.contract.turns Registry.standard link = turn :: later ∧
        turn.invocations = [request] ∧ turn.outcome = .ok () ∧
        script.outcome.Reaches Registry.standard turn.closed.sent := by
  intro script account request body m link
  have written : request.toBody Registry.standard = .ok body := rfl
  have ordered : request.params.Ordered := ⟨List.pairwise_singleton _ _, trivial, trivial⟩
  have short : (Message.format.encode m).length ≤ Frame.maxSize := by decide +kernel
  have facts := serve_lossless Registry.standard script.contract link
  rcases served : (script.contract.serve Registry.standard).run link with ⟨result, last⟩
  rw [served] at facts
  obtain ⟨-, invokes, answers⟩ := facts
  obtain ⟨turn, later, turns, asked, -, opened, invoked, -⟩ :=
    invokes request body [] ordered (by decide) written short (List.append_nil _).symm
  have received : (receive.run link).1 = .ok (some m) := by decide +kernel
  obtain ⟨_, others⟩ := exists_turns_eq_cons
    (⟨m, (receive.run link).2⟩ : Turn Registry.standard script.contract) (run_eq_of_fst_eq received)
  have first : turn = ⟨m, (receive.run link).2⟩ := (List.cons.inj (turns.symm.trans others)).1
  have done : turn.outcome = .ok () := by
    rw [first]
    decide +kernel
  have kind : turn.request.kind = .invoke := by
    rw [asked]
    rfl
  have mem : turn ∈ script.contract.turns Registry.standard link := turns ▸ List.mem_cons_self
  obtain ⟨_, outcome, start, finish, frame, -, -, sent, ran, reply, reaches⟩ :=
    answers turn mem kind done
  obtain ⟨same, rfl⟩ := Prod.mk.inj ran
  obtain rfl := Except.ok.inj same
  refine ⟨written, turn, later, turns, invoked, done, ?_⟩
  rw [reply, sent, opened]
  exact reaches ⟨trivial, trivial⟩ (by decide)

end Contract

end ContractLink
