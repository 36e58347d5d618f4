import ContractLink.Wire.Format
/-!
Addresses of accounts and contracts: a prefix byte, 0 for an account and 1 for a contract, and a
body of twenty bytes.
-/
namespace ContractLink

structure Address where
  contract : Bool
  body : Bytes
  length_body : body.length = 20
  deriving DecidableEq, Repr

inductive AddressError where
  | wrongSize (count : Nat)
  | unknownPrefix (byte : UInt8)
  | wrongTextSize (count : Nat)
  /-- The marker's second byte is inside a character. -/
  | splitMarker (text : String)
  | unknownMarker (marker : String)
  | badDigit (byte : UInt8) (position : Nat)
  | oddDigits
  | wrongDigitCount
  deriving DecidableEq, Repr

namespace Address

def bodySize : Nat := 20

/-- Bytes of the binary form. -/
def size : Nat := bodySize + 1

/-- Characters of the text form. -/
def textSize : Nat := 2 + 2 * bodySize

def toBytes (a : Address) : Bytes := (if a.contract then 1 else 0) :: a.body

def ofBytes (bytes : Bytes) : Except AddressError Address :=
  if h : bytes.length = size then
    match bytes, h with
    | prefixByte :: body, h =>
      if 1 < prefixByte then .error (.unknownPrefix prefixByte)
      else .ok ⟨prefixByte = 1, body, Nat.succ.inj h⟩
  else .error (.wrongSize bytes.length)

/-- The conversion that a slice of bytes has by its type. -/
def ofSlice (bytes : Bytes) : Except AddressError Address := ofBytes bytes

@[simp] theorem length_toBytes (a : Address) : a.toBytes.length = size := by
  simp [toBytes, a.length_body, size, bodySize]

/-- Ordered as their binary forms are. -/
def le (a b : Address) : Bool := decide (a.toBytes ≤ b.toBytes)

/-- Removes each element equal to the one before it. -/
def dropRepeats : List Address → List Address
  | a :: b :: rest => if a = b then dropRepeats (b :: rest) else a :: dropRepeats (b :: rest)
  | addresses => addresses

/-- In order, each once. -/
def sortDistinct (addresses : List Address) : List Address :=
  dropRepeats (addresses.mergeSort le)

/-- The binary form with nothing before it. -/
def format : Format Address :=
  (Format.bytes size).refine (fun bytes => (ofBytes bytes).toOption) toBytes

end Address

end ContractLink
