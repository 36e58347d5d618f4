import ContractLink.Wire.Format
/-!
Typed bytes: how a value travels, its tag and its payload.
-/
namespace ContractLink

structure TypedBytes where
  tag : UInt8
  data : Bytes
  deriving DecidableEq, Repr

def TypedBytes.format : Format TypedBytes :=
  (Format.u8.pair .blob).via (fun (tag, data) => ⟨tag, data⟩) fun t => (t.tag, t.data)

end ContractLink
