import ContractLink.Bytes.Basic
/-!
Signed 128-bit integers and their shortest big-endian two's complement bytes.
-/
namespace ContractLink

structure Int128 where
  ofBitVec ::
  toBitVec : BitVec 128
  deriving DecidableEq, Repr

namespace Int128

/-- Most bytes that an integer is read from. -/
def maxBytes : Nat := 16

def toInt (v : Int128) : Int := v.toBitVec.toInt

def ofInt (n : Int) : Int128 := ⟨BitVec.ofInt 128 n⟩

instance (n : Nat) : OfNat Int128 n := ⟨ofInt n⟩

instance : ToString Int128 := ⟨fun v => toString v.toInt⟩

/-- Whether the sign bit is set. -/
def isNegative (byte : UInt8) : Bool := 0x80 ≤ byte

/-- Drops leading bytes that only repeat the sign of the byte after them. -/
def trimSign : Bytes → Bytes
  | first :: second :: rest =>
    if first = (if isNegative second then 0xFF else 0x00) then trimSign (second :: rest)
    else first :: second :: rest
  | bytes => bytes

/-- The fewest bytes that keep the sign, never none. -/
def toBytes (v : Int128) : Bytes := trimSign (Bytes.bigEndian maxBytes v.toBitVec.toNat)

/-- The sign of the first byte; positive when there is none. -/
def signByte : Bytes → UInt8
  | [] => 0x00
  | first :: _ => if isNegative first then 0xFF else 0x00

/-- Reads two's complement bytes of any length up to sixteen; no bytes are zero. -/
def ofBytes? (data : Bytes) : Option Int128 :=
  if maxBytes < data.length then none
  else
    let extended := List.replicate (maxBytes - data.length) (signByte data) ++ data
    some ⟨BitVec.ofNat 128 (Bytes.ofBigEndian extended)⟩

end Int128

end ContractLink
