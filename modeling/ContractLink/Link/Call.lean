import ContractLink.Message.Body
import ContractLink.Codec
import ContractLink.Api.Basic
/-!
Calls: what the engine asks or tells the manager, the message of each, and what it is answered.
-/
namespace ContractLink

inductive Call where
  | announce (identity : Body.Version)
  | getValue (key : Bytes)
  /-- No value deletes the key. -/
  | setValue (key : Bytes) (value? : Option Bytes)
  | getBalance (account : Address)
  /-- The first indexed value is the signature of the event. -/
  | sendEvent (indexed data : List Value)
  /-- Asks for the chain and the transaction of the running invocation. -/
  | getInfo

namespace Call

/-- What the caller is given back. -/
abbrev Answer : Call → Type
  | getValue _ => Option Bytes
  | getBalance _ => Int128
  | getInfo => Value
  | announce _ | setValue .. | sendEvent .. => Unit

def kind : Call → MessageKind
  | announce _ => .version
  | getValue _ => .getValue
  | setValue .. => .setValue
  | getBalance _ => .getBalance
  | sendEvent .. => .event
  | getInfo => .getInfo

/-- The encoded body. Every value is encoded before anything is sent. -/
def payload (codec : Codec) : Call → Except CodecError Bytes
  | announce identity => .ok (Body.Version.format.encode identity)
  | getValue key => .ok (Body.GetValueRequest.format.encode ⟨key⟩)
  | setValue key value? => .ok (Body.SetValue.format.encode ⟨key, value?⟩)
  | getBalance account => do
    return Body.GetBalanceRequest.format.encode ⟨← codec.encode (.address account)⟩
  | sendEvent indexed data => do
    let indexed ← codec.encodeItems indexed
    let data ← codec.encodeItems data
    return Body.Event.format.encode ⟨indexed, data⟩
  | getInfo => .ok []

def message (codec : Codec) (c : Call) : Except CodecError Message := do
  return ⟨c.kind, ← c.payload codec⟩

end Call

/-- What a contract does between two of its own decisions: a call, or a check that sends nothing. -/
inductive Step where
  | call (c : Call)
  | parseAddress (text : String)
  | checkApi (data : Bytes)

/-- What the step yields. -/
abbrev Step.Answer : Step → Type
  | call c => c.Answer
  | parseAddress _ => Address
  | checkApi _ => Api

end ContractLink
