import ContractLink.Value.Basic
import ContractLink.Value.Inspect
import ContractLink.Text.Utf8
/-!
Why a value is not written or a payload not read.
-/
namespace ContractLink

/-- What is wrong with a payload. -/
inductive PayloadFault where
  | notEmpty (count : Nat)
  | integerTooWide (count : Nat)
  | notText (fault : Utf8.Fault)
  | notFlag (data : Bytes)
  | wrongWidth (expected actual : Nat)
  | duplicateKey (key : String)
  | tooDeep (limit : Nat)
  deriving DecidableEq, Repr

namespace PayloadFault

def message : PayloadFault → String
  | notEmpty count => s!"nil with {count} payload bytes"
  | integerTooWide count => s!"{count}-byte integer overflows i128"
  | notText fault => fault.message
  | notFlag data => "bool payload " ++ Text.bracketed (data.map fun b => Bytes.toHex [b])
  | wrongWidth expected actual => s!"expected {expected} bytes, got {actual}"
  | duplicateKey key => "duplicate key " ++ Text.quoteText key
  | tooDeep limit => s!"nested deeper than {limit} levels"

end PayloadFault

inductive CodecError where
  | unsupported (kind : Kind)
  | unknownTag (tag : UInt8)
  | invalidPayload (tag : UInt8) (fault : PayloadFault)
  | address (e : AddressError)
  /-- The payload of a list or dictionary is not in the binary format. -/
  | nested (e : DecodeError)
  deriving DecidableEq, Repr

namespace CodecError

def message : CodecError → String
  | unsupported kind => s!"unsupported value type {kind.name}"
  | unknownTag tag => s!"unknown type tag {tag}"
  | invalidPayload tag fault => s!"invalid payload for tag {tag}: {fault.message}"
  | address e => e.message
  | nested e => s!"nested payload: {e.message}"

end CodecError

end ContractLink
