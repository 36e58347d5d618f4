import ContractLink.Registry.Basic
/-!
Codecs: how values are written for a link and read from it, whatever the rules. A registry of
handlers is one.
-/
namespace ContractLink

structure Codec where
  encode : Value → Except CodecError TypedBytes
  decode : TypedBytes → Except CodecError Value

/-- The typed bytes of each value in order, up to the first that has none. -/
def Codec.encodeItems (codec : Codec) (values : List Value) :
    Except CodecError (List TypedBytes) :=
  values.mapM codec.encode

def Registry.codec (registry : Registry) : Codec := ⟨registry.encode, registry.decode⟩

instance : Coe Registry Codec := ⟨Registry.codec⟩

end ContractLink
