import ContractLink.Link.Basic
/-!
Carrying out calls and steps on a link. A call sends one frame and, if it asks for something, reads
the next one. Main statement: no step puts input back.
-/
namespace ContractLink

open Exchange

namespace Call

/-- What the manager answers; nothing is read for a call that only tells. -/
def answer (codec : Codec) : (c : Call) → Exchange c.Answer
  | getValue _ => do return (← await .getValue Body.GetValueResponse.format).value?
  | getBalance _ => do
    let response ← await .getBalance Body.GetBalanceResponse.format
    let balance ← ofExcept ((codec.decode response.balance).mapError .codec)
    ofExcept (Field.balance.integer balance)
  | getInfo => do
    let response ← await .getInfo Body.GetInfoResponse.format
    ofExcept ((codec.decode response.info).mapError .codec)
  | announce _ | setValue .. | sendEvent .. => return ()

def perform (codec : Codec) (c : Call) : Exchange c.Answer := do
  transmit (← ofExcept ((c.message codec).mapError .codec))
  c.answer codec

theorem advances_answer (codec : Codec) (c : Call) : Advances (c.answer codec) := by
  cases c with
  | getValue => exact (advances_await _ _).bind fun _ => (keeps_pure _).advances
  | getBalance =>
    exact (advances_await _ _).bind fun _ => (keeps_ofExcept _).advances.bind fun _ =>
      (keeps_ofExcept _).advances
  | getInfo => exact (advances_await _ _).bind fun _ => (keeps_ofExcept _).advances
  | announce | setValue | sendEvent => exact (keeps_pure _).advances

theorem advances_perform (codec : Codec) (c : Call) : Advances (c.perform codec) :=
  (keeps_ofExcept _).advances.bind fun _ =>
    (keeps_transmit _).advances.bind fun _ => c.advances_answer codec

end Call

namespace Step

def perform (codec : Codec) : (s : Step) → Exchange s.Answer
  | call c => c.perform codec
  | parseAddress text => ofExcept ((Address.ofTextStrict text).mapError .address)
  | checkApi data => ofExcept ((Api.deserialize data).mapError .api)

/-- Enters the outcome in the journal, whether or not the step fails. -/
def record (codec : Codec) (s : Step) : Exchange s.Answer := fun link =>
  let (outcome, next) := (s.perform codec).run link
  (outcome, ((note (.stepped s outcome)).run next).2)

theorem advances_perform (codec : Codec) (s : Step) : Advances (s.perform codec) := by
  cases s with
  | call c => exact c.advances_perform codec
  | parseAddress | checkApi => exact (keeps_ofExcept _).advances

theorem advances_record (codec : Codec) (s : Step) : Advances (s.record codec) :=
  fun link => s.advances_perform codec link

end Step

end ContractLink
