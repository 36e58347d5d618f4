import ContractLink.Contract.Probe
import ContractLink.Proofs.Api.Serialized
import ContractLink.Proofs.Serve.Block
import ContractLink.Proofs.Serve.Input
/-!
Requests for an API. Main statement: unless the reply is too long for a frame, what is sent for such
a request and what is behind it is one frame and what is sent for the rest alone, whether or not
there is an API; and from the reply the manager reads just the API that the contract has.
-/
namespace ContractLink

open Exchange

/-- Whatever is behind it, the manager reads the frame as the response. -/
def Body.GetApiResponse.Reaches (response : Body.GetApiResponse) (frame : Bytes) : Prop :=
  ∀ rest, ∃ data m, Frame.read (frame ++ rest) = (.ok (some data), rest) ∧
    Message.format.decodeAll data = .ok m ∧ m.kind = .getApi ∧
    m.body Body.GetApiResponse.format = .ok response

/-- The message that carries a response. -/
def Body.GetApiResponse.message (response : Body.GetApiResponse) : Message :=
  .ofBody .getApi Body.GetApiResponse.format response

namespace Body.GetApiResponse

variable {response : Body.GetApiResponse} {frame : Bytes}

theorem reaches (framed : response.message.toFrame = .ok frame) : response.Reaches frame := by
  intro rest
  exact ⟨_, _, Message.read_of_toFrame framed rest, Message.decodeAll_of_toFrame framed, rfl,
    Message.body_of_toFrame lawful_format framed⟩

/-- No length in the API is above that of the frame, so all of them are read. -/
theorem deserialize_info {api : Api} (formed : api.WellFormed)
    (framed : (message ⟨Status.success, some api.serialize⟩).toFrame = .ok frame) :
    Api.deserialize api.serialize = .ok api := by
  have fields := Message.readable_of_toFrame lawful_format framed
  obtain ⟨-, info⟩ := (Format.readable_pair .u32 (.option .blob)
    (Status.success, some api.serialize)).mp fields
  have blob := (Format.readable_option .blob (some api.serialize)).mp info _ rfl
  have short : api.serialize.length ≤ Format.maxLength := (Format.readable_blob _).mp blob
  have readable := Api.lawful_format.readable_of_length_le short
  rw [Api.deserialize_serialize (api.readable_iff.mp readable)]
  exact api.settles_validated.ok formed

end Body.GetApiResponse

namespace Contract

variable {contract : Contract} {code : String}

theorem description_of_ok {api : Api} (found : contract.api code = .ok api) :
    contract.description code = ⟨Status.success, some api.serialize⟩ := by
  rw [description, found]

theorem description_of_error {e : ApiError} (missing : contract.api code = .error e) :
    contract.description code = ⟨Status.failure, none⟩ := by
  rw [description, missing]

/-- The reply that there is no API is short. -/
theorem fits_of_error {e : ApiError} (missing : contract.api code = .error e) :
    (Message.format.encode (contract.description code).message).length ≤ Frame.maxSize := by
  rw [description_of_error missing]
  decide +kernel

theorem run_warnMissing (contract : Contract) (code : String) (link : Link) :
    ∃ notes, (contract.warnMissing code).run link =
      (.ok (), { link with journal := link.journal ++ notes }) := by
  unfold warnMissing
  split
  · exact ⟨[], by rw [run_pure, List.append_nil]⟩
  · exact ⟨[_], rfl⟩

/-- The reply is sent whether or not there is an API, which is only logged. -/
theorem run_answerApi {m : Message} (asked : m.body Body.GetApiRequest.format = .ok ⟨code⟩)
    (link : Link) : ∃ notes, (contract.answerApi m).run link =
      (transmit (contract.description code).message).run
        { link with journal := link.journal ++ notes } := by
  obtain ⟨notes, warned⟩ := contract.run_warnMissing code link
  refine ⟨notes, ?_⟩
  unfold answerApi
  rw [asked]
  refine (run_ofExcept_ok_bind _ _ link).trans ?_
  rw [run_bind, warned, andThen_ok]
  rfl

theorem run_answerApi_of_toFrame {m : Message} {frame : Bytes}
    (asked : m.body Body.GetApiRequest.format = .ok ⟨code⟩)
    (framed : (contract.description code).message.toFrame = .ok frame) {link : Link}
    (unlimited : link.room = none) : ∃ notes, (contract.answerApi m).run link =
      (.ok (), { link with sent := link.sent ++ frame, journal := link.journal ++ notes }) := by
  obtain ⟨notes, answers⟩ := contract.run_answerApi asked link
  let noted : Link := { link with journal := link.journal ++ notes }
  have still : noted.room = none := unlimited
  obtain ⟨r, sends⟩ := run_transmit_of_unlimited framed still
  refine ⟨notes ++ [.logged r], ?_⟩
  rw [answers, sends, ← List.append_assoc]

/-- A request for the API at a code path is answered by one frame, and the rest is served as if it
were all the input, unless the reply is too long for a frame; the reply that there is no API is not.
An API that was built is what the manager reads from the reply. -/
theorem serve_describes (codec : Codec) (contract : Contract) {link : Link} {data rest : Bytes}
    {m : Message} {code : String} (unlimited : link.room = none)
    (read : Frame.read link.incoming = (.ok (some data), rest))
    (decoded : Message.format.decodeAll data = .ok m) (kind : m.kind = .getApi)
    (asked : m.body Body.GetApiRequest.format = .ok ⟨code⟩) :
    let reply := contract.description code
    let served := (contract.serve codec).run link
    let later := (contract.serve codec).run { incoming := rest }
    ((Message.format.encode reply.message).length ≤ Frame.maxSize →
      ∃ frame next, next.incoming = rest ∧ next.room = none ∧ next.sent = link.sent ++ frame ∧
        served = (contract.serve codec).run next ∧ reply.Reaches frame ∧
        served.2.sent = link.sent ++ frame ++ later.2.sent ∧ served.1 = later.1 ∧
        ∀ edits, contract.api code = .ok (Api.edited edits) →
          ∃ info, reply = ⟨0, some info⟩ ∧ Api.deserialize info = .ok (Api.edited edits)) ∧
      ∀ e, contract.api code = .error e →
        reply = ⟨1, none⟩ ∧ (Message.format.encode reply.message).length ≤ Frame.maxSize := by
  intro reply served later
  constructor
  · intro short
    obtain ⟨frame, framed⟩ := Message.exists_toFrame_iff.mpr short
    obtain ⟨r, received⟩ := run_receive_of_read read decoded
    let opened : Link := { link with
      incoming := rest
      journal := link.journal ++ [.logged r] }
    have still : opened.room = none := unlimited
    obtain ⟨notes, answers⟩ := contract.run_answerApi_of_toFrame asked framed still
    rw [← answer_of_getApi codec contract kind] at answers
    let closed : Link := { opened with
      sent := opened.sent ++ frame
      journal := opened.journal ++ notes }
    have goes : served = (contract.serve codec).run closed := run_serve_of_answered received answers
    have resumed : closed.room = none := unlimited
    obtain ⟨same, sent⟩ := contract.serve_resumed codec resumed
    rw [← goes] at same sent
    refine ⟨frame, closed, rfl, unlimited, rfl, goes, Body.GetApiResponse.reaches framed, sent,
      same, ?_⟩
    intro edits built
    have formed : (Api.edited edits).WellFormed :=
      Api.wellFormed_foldl_next Api.wellFormed_empty edits
    have described := description_of_ok built
    refine ⟨(Api.edited edits).serialize, described, ?_⟩
    simp only [reply, described] at framed
    exact Body.GetApiResponse.deserialize_info formed framed
  · intro e missing
    exact ⟨description_of_error missing, fits_of_error missing⟩

/-- The probe is asked for its API twice, at a path that it knows nothing of, and answers twice. -/
theorem serve_describes_probe :
    let m : Message := .ofBody .getApi Body.GetApiRequest.format ⟨"code"⟩
    let request := Frame.wrap (Message.format.encode m)
    let api := Api.edited [.addFunction "hello" 0 [("msg", .text)] [.text],
      .addEvent "LogEvent" 0 2 [("id", .integer), ("msg", .text), ("addr", .address)]]
    let served := (Probe.contract.serve Registry.standard).run { incoming := request ++ request }
    Probe.contract.api "code" = .ok api ∧ ∃ info first second,
      (Body.GetApiResponse.mk 0 (some info)).Reaches first ∧
        (Body.GetApiResponse.mk 0 (some info)).Reaches second ∧ Api.deserialize info = .ok api ∧
        served.2.sent = first ++ second ∧ served.1 = .ok () := by
  intro m request api served
  have built : Probe.contract.api "code" = .ok api := by decide +kernel
  let link (rest : Bytes) : Link := { incoming := request ++ rest }
  have read (rest : Bytes) :
      Frame.read (link rest).incoming = (.ok (some (Message.format.encode m)), rest) :=
    Frame.read_wrap_append (by decide +kernel) rest
  have decoded : Message.format.decodeAll (Message.format.encode m) = .ok m := by decide +kernel
  have asked : m.body Body.GetApiRequest.format = .ok ⟨"code"⟩ := by decide +kernel
  have short : (Message.format.encode (Probe.contract.description "code").message).length ≤
      Frame.maxSize := by decide +kernel
  have answers (rest : Bytes) :=
    (serve_describes Registry.standard Probe.contract rfl (read rest) decoded rfl asked).1 short
  obtain ⟨first, -, -, -, -, -, reaches, sent, same, described⟩ := answers request
  obtain ⟨second, -, -, -, -, -, reaches', sent', same', -⟩ := answers []
  obtain ⟨info, whole, back⟩ := described _ built
  rw [whole] at reaches reaches'
  simp only [link, List.append_nil] at sent' same'
  have ended : receive.run { incoming := [] } = (.ok none, { incoming := [] }) := rfl
  obtain ⟨done, silent⟩ : ((Probe.contract.serve Registry.standard).run { incoming := [] }).1 =
      .ok () ∧ ((Probe.contract.serve Registry.standard).run { incoming := [] }).2.sent = [] :=
    served_of_ended ended
  refine ⟨built, info, first, second, reaches, reaches', back, sent.trans ?_, same.trans ?_⟩
  · rw [sent', silent]
    exact congrArg (first ++ ·) (List.append_nil second)
  · rw [same', done]

end Contract

end ContractLink
