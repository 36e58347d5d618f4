import ContractLink.Contract.Basic
/-!
Serving requests until the manager closes the link. An invocation runs the contract and reports its
outcome; an API request is answered with the contract's API or with a failure status. Main
statement: each request leaves less input, so serving ends.
-/
namespace ContractLink

open Exchange

/-- Every value is encoded before anything is sent. -/
def Outcome.report (codec : Codec) (outcome : Outcome) : Exchange Unit := do
  let result ← ofExcept ((outcome.toBody codec).mapError .codec)
  transmit (.ofBody .result Body.Result.format result)

theorem Outcome.keeps_report (codec : Codec) (outcome : Outcome) : Keeps (outcome.report codec) :=
  (keeps_ofExcept _).bind fun _ => keeps_transmit _

namespace Contract

def answerInvoke (codec : Codec) (contract : Contract) (m : Message) : Exchange Unit := do
  let body ← ofExcept ((m.body Body.Invoke.format).mapError .decode)
  let request ← ofExcept (Request.ofBody codec body)
  log .info (s!"invoke {request.method} on {request.recipient} from {request.sender} " ++
    s!"(value={request.value}, limit={request.limit})")
  note (.invoked request)
  let outcome ← (contract.invoke request).run codec
  outcome.report codec

/-- What the contract is described by to a manager. -/
def description (contract : Contract) (code : String) : Body.GetApiResponse :=
  match contract.api code with
  | .ok api => ⟨Status.success, some api.serialize⟩
  | .error _ => ⟨Status.failure, none⟩

/-- Logs that there is no API, if so. -/
def warnMissing (contract : Contract) (code : String) : Exchange Unit :=
  match contract.api code with
  | .ok _ => return ()
  | .error e => log .warn s!"no api for {code}: {e.message}"

theorem keeps_warnMissing (contract : Contract) (code : String) :
    Keeps (contract.warnMissing code) := by
  unfold warnMissing
  split
  · exact keeps_pure ()
  · exact keeps_log _ _

/-- A contract that cannot be described does not end the link. -/
def answerApi (contract : Contract) (m : Message) : Exchange Unit := do
  let request ← ofExcept ((m.body Body.GetApiRequest.format).mapError .decode)
  contract.warnMissing request.code
  transmit (.ofBody .getApi Body.GetApiResponse.format (contract.description request.code))

def answer (codec : Codec) (contract : Contract) (m : Message) : Exchange Unit :=
  match m.kind with
  | .invoke => contract.answerInvoke codec m
  | .getApi => contract.answerApi m
  | got => fail (.unexpectedMessage [.invoke, .getApi] got)

theorem advances_answer (codec : Codec) (contract : Contract) (m : Message) :
    Advances (contract.answer codec m) := by
  unfold answer
  split
  · exact (keeps_ofExcept _).advances.bind fun _ => (keeps_ofExcept _).advances.bind fun _ =>
      (keeps_log _ _).advances.bind fun _ => (keeps_note _).advances.bind fun _ =>
      (Program.advances_run codec _).bind fun outcome => (outcome.keeps_report codec).advances
  · exact (keeps_ofExcept _).advances.bind fun request =>
      (contract.keeps_warnMissing request.code).advances.bind fun _ => (keeps_transmit _).advances
  · exact (keeps_ofExcept _).advances

theorem length_answer_le {codec : Codec} {contract : Contract} {m : Message}
    {link next : Link} {result : Except LinkError Unit}
    (h : (contract.answer codec m).run link = (result, next)) :
    next.incoming.length ≤ link.incoming.length := by
  have advanced := (contract.advances_answer codec m link).length_le
  rwa [h] at advanced

/-- Answers requests up to the end of the input or the first failure. -/
def serve (codec : Codec) (contract : Contract) : Exchange Unit := fun link =>
  match received : receive.run link with
  | (.error e, rest) => (.error e, rest)
  | (.ok none, rest) => (log .debug "service manager closed the connection").run rest
  | (.ok (some m), rest) =>
    match answered : (contract.answer codec m).run rest with
    | (.error e, next) => (.error e, next)
    | (.ok (), next) =>
      have : next.incoming.length < link.incoming.length :=
        Nat.lt_of_le_of_lt (length_answer_le answered) (length_receive_lt received)
      serve codec contract next
termination_by link => link.incoming.length

/-- What serving does about the next message, if the input has not ended. -/
def proceed (codec : Codec) (contract : Contract) : Option Message → Exchange Unit
  | none => log .debug "service manager closed the connection"
  | some m => do
    contract.answer codec m
    contract.serve codec

theorem run_serve (codec : Codec) (contract : Contract) (link : Link) :
    (contract.serve codec).run link = andThen (contract.proceed codec) (receive.run link) := by
  show contract.serve codec link = _
  fun_cases contract.serve codec link with
  | case1 e rest received => rw [received, andThen_error]
  | case2 rest received =>
    rw [received, andThen_ok]
    rfl
  | case3 m opened received e closed answered =>
    rw [received, andThen_ok, proceed, run_bind, answered, andThen_error]
  | case4 m opened received closed answered shorter =>
    rw [received, andThen_ok, proceed, run_bind, answered, andThen_ok]
    rfl

/-- A request that is answered leaves the serving of what is behind it. -/
theorem run_serve_of_answered {codec : Codec} {contract : Contract} {m : Message}
    {link opened closed : Link} (received : receive.run link = (.ok (some m), opened))
    (answered : (contract.answer codec m).run opened = (.ok (), closed)) :
    (contract.serve codec).run link = (contract.serve codec).run closed := by
  rw [run_serve, received, andThen_ok, proceed, run_bind, answered, andThen_ok]

/-- At the end of the input nothing more is sent. -/
theorem served_of_ended {codec : Codec} {contract : Contract} {link rest : Link}
    (ended : receive.run link = (.ok none, rest)) :
    ((contract.serve codec).run link).1 = .ok () ∧
      ((contract.serve codec).run link).2.sent = rest.sent := by
  rw [run_serve, ended]
  exact ⟨rfl, rfl⟩

end Contract

end ContractLink
