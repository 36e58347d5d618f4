import ContractLink.Link.Error
import ContractLink.Message.Body
import ContractLink.Codec
/-!
Invocations: what a contract is asked to run, and the outcome it reports.
-/
namespace ContractLink

namespace Status

/-- What answers report: all went well, or there is no contract to describe. -/
def success : UInt32 := 0
def failure : UInt32 := 1

end Status

structure Request where
  /-- Where the contract's code is. -/
  code : String
  sender : Address
  recipient : Address
  value : Int128
  limit : Int128
  method : String
  params : Value

structure Outcome where
  status : UInt32
  stepUsed : Int128
  result : Value

namespace Field

def address (field : Field) (value : Value) : Except LinkError Address :=
  match value.asAddress? with
  | some a => .ok a
  | none => .error (.unexpectedValue field value.kind)

def integer (field : Field) (value : Value) : Except LinkError Int128 :=
  match value.asInteger? with
  | some v => .ok v
  | none => .error (.unexpectedValue field value.kind)

theorem address_eq_ok_iff {field : Field} {value : Value} {a : Address} :
    field.address value = .ok a ↔ value = .address a := by
  cases value <;> simp [address, Value.asAddress?]

theorem integer_eq_ok_iff {field : Field} {value : Value} {v : Int128} :
    field.integer value = .ok v ↔ value = .integer v := by
  cases value <;> simp [integer, Value.asInteger?]

end Field

/-- Reads the typed fields in the order of the body; each must be of its field's kind. -/
def Request.ofBody (codec : Codec) (body : Body.Invoke) : Except LinkError Request := do
  let read (typed : TypedBytes) := (codec.decode typed).mapError LinkError.codec
  let sender ← Field.sender.address (← read body.sender)
  let recipient ← Field.recipient.address (← read body.recipient)
  let value ← Field.value.integer (← read body.value)
  let limit ← Field.limit.integer (← read body.limit)
  let params ← read body.params
  return { code := body.code, sender, recipient, value, limit, method := body.method, params }

/-- Encodes the steps used, then the result. -/
def Outcome.toBody (codec : Codec) (outcome : Outcome) : Except CodecError Body.Result := do
  let stepUsed ← codec.encode (.integer outcome.stepUsed)
  let result ← codec.encode outcome.result
  return { status := outcome.status, stepUsed, result }

end ContractLink
