import ContractLink.Contract.Probe
import ContractLink.Proofs.Serve.Oblivious
import ContractLink.Proofs.Value.Tree
/-!
What the probe reveals. It makes the same calls whatever it is answered, and all that it takes from
a request is the first parameter, for its event. Main statement: for two invocations that are
answered and have the first parameter in common it sends the same bytes.
-/
namespace ContractLink

namespace Probe

variable {codec : Codec}

theorem ofText_balanceAccountText : Address.ofText balanceAccountText = .ok balanceAccount := by
  decide +kernel

theorem ofText_eventAddressText : Address.ofText eventAddressText = .ok eventAddress := by
  decide +kernel

/-- What the probe does when it is invoked. -/
def calls (request : Request) : List Call :=
  [.getInfo, .setValue hello (some world), .getValue hello, .setValue foo none, .getValue foo,
    .getBalance balanceAccount, .sendEvent (indexed request) data]

theorem makes_invoke (request : Request) : (invoke request).Makes (calls request) outcome := by
  unfold invoke
  apply Program.Makes.log
  apply Program.Makes.call
  intro info
  apply Program.Makes.log
  apply Program.Makes.log
  apply Program.Makes.call
  intro _
  apply Program.Makes.call
  intro value?
  apply Program.Makes.log
  apply Program.Makes.log
  apply Program.Makes.call
  intro _
  apply Program.Makes.call
  intro value?
  apply Program.Makes.log
  apply Program.Makes.call
  intro balance
  apply Program.Makes.log
  apply Program.Makes.log
  apply Program.Makes.call
  intro _
  exact Program.Makes.done outcome

/-- What is sent for an invocation. -/
def invocation : List MessageKind :=
  [.getInfo, .setValue, .getValue, .setValue, .getValue, .getBalance, .event, .result]

theorem calls_eq_of_firstParam_eq {request other : Request}
    (same : firstParam request.params = firstParam other.params) : calls request = calls other := by
  unfold calls indexed
  rw [same]

theorem eq_sendEvent_of_mem_calls {request : Request} {c : Call} (mem : c ∈ calls request)
    (kind : c.kind = .event) : c = .sendEvent (indexed request) data := by
  simp only [calls, List.mem_cons, List.not_mem_nil, or_false] at mem
  rcases mem with rfl | rfl | rfl | rfl | rfl | rfl | rfl
  all_goals first | rfl | cases kind

/-- The event has the encoding of the first parameter for its third indexed value. -/
theorem exists_indexed_firstParam {request : Request} {m : Message} {frame : Bytes}
    (written : (Call.sendEvent (indexed request) data).message codec = .ok m)
    (framed : m.toFrame = .ok frame) :
    ∃ event typed, m.body Body.Event.format = .ok event ∧ event.indexed[2]? = some typed ∧
      codec.encode (firstParam request.params) = .ok typed := by
  rw [Call.message_sendEvent] at written
  obtain ⟨indexed, encoded, written⟩ := of_bind_eq_ok written
  obtain ⟨data, -, rfl⟩ := of_map_eq_ok written
  rcases forall₂_of_mapM_ok encoded with _ | ⟨-, _ | ⟨-, _ | ⟨third, none⟩⟩⟩
  exact ⟨_, _, Message.body_of_toFrame Body.Event.lawful_format framed, rfl, third⟩

/-- An invocation that is answered has sent eight messages, one frame each; the event among them has
the first parameter, or nil when there is none, for its third indexed value. The first parameter
tells all that is sent, byte for byte: nothing else in the request makes a difference, nor do the
answers of the manager, nor how many bytes it takes. -/
theorem reveals_first_param (codec : Codec) :
    (∀ (turn : Turn codec contract) (request : Request), turn.request.Asks codec request →
      turn.outcome = .ok () → ∃ (messages : List Message) (frames : List Bytes),
        turn.sent = frames.flatten ∧ messages.map Message.toFrame = frames.map .ok ∧
        messages.map Message.kind = invocation ∧
        ∀ m ∈ messages, m.kind = .event → ∃ event typed,
          m.body Body.Event.format = .ok event ∧ event.indexed[2]? = some typed ∧
            codec.encode (firstParam request.params) = .ok typed) ∧
    ∀ (turn turn' : Turn codec contract) (request request' : Request),
      turn.request.Asks codec request → turn'.request.Asks codec request' →
      turn.outcome = .ok () → turn'.outcome = .ok () →
      firstParam request.params = firstParam request'.params → turn.sent = turn'.sent := by
  constructor
  · intro turn request asks done
    obtain ⟨messages, frames, written, framed, sent⟩ :=
      Turn.sentAs_of_ok asks (makes_invoke request) done
    refine ⟨messages, frames, sent, framed, kinds_of_transcript written, fun m mem event => ?_⟩
    obtain ⟨frame, whole⟩ := exists_toFrame_of_map_eq framed mem
    rcases exists_of_mem_transcript written mem with ⟨c, made, called⟩ | reported
    · have kind : c.kind = .event := (Call.kind_of_message called).symm.trans event
      obtain rfl := eq_sendEvent_of_mem_calls made kind
      exact exists_indexed_firstParam called whole
    · rw [Outcome.kind_of_message reported] at event
      cases event
  · intro turn turn' request request' asks asks' done done' same
    have sent := Turn.sentAs_of_ok asks (makes_invoke request) done
    rw [calls_eq_of_firstParam_eq same] at sent
    exact sent.unique (Turn.sentAs_of_ok asks' (makes_invoke request') done')

/-- Two invocations have only the first of their parameters in common, and are answered differently.
The second peer takes no more than it is sent. -/
theorem reveals_first_param_two_peers :
    let codec : Codec := Registry.standard
    let account : Address := ⟨false, List.replicate 20 7, rfl⟩
    let other : Address := ⟨true, List.replicate 20 9, rfl⟩
    let request : Request := ⟨"code", account, other, 3, 9, "run", .list [.integer 5]⟩
    let request' : Request := ⟨"", other, account, 0, 1, "", .list [.integer 5, .text "key"]⟩
    let body (r : Request) : Body.Invoke :=
      ⟨r.code, (Value.address r.sender).typed, (Value.address r.recipient).typed,
        (Value.integer r.value).typed, (Value.integer r.limit).typed, r.method, r.params.typed⟩
    let answers (info : Value) (value? : Option Bytes) (balance : Int128) : List Message :=
      [.ofBody .getInfo Body.GetInfoResponse.format ⟨info.typed⟩,
        .ofBody .getValue Body.GetValueResponse.format ⟨value?⟩,
        .ofBody .getValue Body.GetValueResponse.format ⟨none⟩,
        .ofBody .getBalance Body.GetBalanceResponse.format ⟨(Value.integer balance).typed⟩]
    let input (messages : List Message) : Bytes :=
      messages.flatMap fun m => Frame.wrap (Message.format.encode m)
    let turn : Turn codec contract := ⟨.ofBody .invoke Body.Invoke.format (body request),
      { incoming := input (answers (.dict [("height", .integer 1)]) (some world) 300) }⟩
    let turn' : Turn codec contract := ⟨.ofBody .invoke Body.Invoke.format (body request'),
      { incoming := input (answers .nil none 0), room := some turn.sent.length }⟩
    turn.request.Asks codec request ∧ turn'.request.Asks codec request' ∧
      turn.outcome = .ok () ∧ turn'.outcome = .ok () ∧ turn.sent = turn'.sent ∧
      ∃ (messages : List Message) (frames : List Bytes), turn.sent = frames.flatten ∧
        messages.map Message.toFrame = frames.map .ok ∧ ∃ m ∈ messages, ∃ event,
          m.body Body.Event.format = .ok event ∧ event.indexed[2]? = some ⟨11, [5]⟩ := by
  intro codec account other request request' body answers input turn turn'
  have asks : turn.request.Asks codec request :=
    ⟨rfl, body request, by decide +kernel, by constructor <;> decide +kernel⟩
  have asks' : turn'.request.Asks codec request' :=
    ⟨rfl, body request', by decide +kernel, by constructor <;> decide +kernel⟩
  have done : turn.outcome = .ok () := by decide +kernel
  have done' : turn'.outcome = .ok () := by decide +kernel
  obtain ⟨reveals, same⟩ := reveals_first_param codec
  obtain ⟨messages, frames, sent, framed, kinds, events⟩ := reveals turn request asks done
  have third : codec.encode (firstParam request.params) = .ok ⟨11, [5]⟩ := by decide +kernel
  have event : MessageKind.event ∈ messages.map Message.kind := kinds ▸ by decide
  obtain ⟨m, mem, kind⟩ := List.mem_map.mp event
  obtain ⟨event, typed, parsed, indexed, encoded⟩ := events m mem kind
  obtain rfl := Except.ok.inj (third.symm.trans encoded)
  exact ⟨asks, asks', done, done', same turn turn' request request' asks asks' done done' rfl,
    messages, frames, sent, framed, m, mem, event, parsed, indexed⟩

end Probe

end ContractLink
