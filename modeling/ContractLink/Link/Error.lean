import ContractLink.Frame
import ContractLink.Message.Basic
import ContractLink.Api.Basic
import ContractLink.Registry.Error
/-!
Why an exchange over a link fails.
-/
namespace ContractLink

/-- The typed fields of message bodies that take values of one kind only. -/
inductive Field where
  | sender
  | recipient
  | value
  | limit
  | balance
  deriving DecidableEq, Repr

namespace Field

def name : Field → String
  | sender => "from"
  | recipient => "to"
  | value => "value"
  | limit => "limit"
  | balance => "balance"

/-- The kind that the field takes. -/
def type : Field → TypeTag
  | sender | recipient => .address
  | value | limit | balance => .integer

end Field

inductive LinkError where
  | frame (e : Frame.Error)
  /-- The peer takes no more bytes. -/
  | stalled
  | decode (e : DecodeError)
  | codec (e : CodecError)
  | api (e : ApiError)
  | address (e : AddressError)
  /-- The message does not fit the exchange. -/
  | unexpectedMessage (expected : List MessageKind) (got : MessageKind)
  | unexpectedValue (field : Field) (got : Kind)
  /-- The input ends where an answer is due. -/
  | closed
  deriving DecidableEq, Repr

namespace LinkError

def message : LinkError → String
  | frame e => e.message
  | stalled => "i/o: write zero"
  | decode e => s!"malformed message: {e.message}"
  | codec e => e.message
  | api e => e.message
  | address e => e.message
  | unexpectedMessage expected got =>
    let titles := " or ".intercalate (expected.map MessageKind.title)
    s!"expected {titles} message, got {got.name}"
  | unexpectedValue field got =>
    s!"field {field.name}: expected {field.type.name}, got {got.name}"
  | closed => "connection closed"

end LinkError

end ContractLink
