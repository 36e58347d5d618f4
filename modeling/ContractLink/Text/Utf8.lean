import ContractLink.Bytes.Basic
/-!
Where a byte string stops being UTF-8. A fault is the length of the longest well-formed beginning
and, unless the string ends inside a character, the length of the ill-formed sequence after it:
the longest beginning of a well-formed character there, or one byte.
-/
namespace ContractLink

namespace Utf8

structure Fault where
  validLength : Nat
  /-- Absent when the string ends before the character does. -/
  badLength : Option Nat
  deriving DecidableEq, Repr

namespace Fault

def message (fault : Fault) : String :=
  match fault.badLength with
  | some n => s!"invalid utf-8 sequence of {n} bytes from index {fault.validLength}"
  | none => s!"incomplete utf-8 byte sequence from index {fault.validLength}"

end Fault

/-- How many continuation bytes follow a leading byte, and the bounds of the first of them. -/
def lead? (b : UInt8) : Option (Nat × UInt8 × UInt8) :=
  if b < 0x80 then some (0, 0x80, 0xBF)
  else if b < 0xC2 then none
  else if b < 0xE0 then some (1, 0x80, 0xBF)
  else if b = 0xE0 then some (2, 0xA0, 0xBF)
  else if b = 0xED then some (2, 0x80, 0x9F)
  else if b < 0xF0 then some (2, 0x80, 0xBF)
  else if b = 0xF0 then some (3, 0x90, 0xBF)
  else if b < 0xF4 then some (3, 0x80, 0xBF)
  else if b = 0xF4 then some (3, 0x80, 0x8F)
  else none

/-- Between two characters, or inside one with the bounds of its next byte. -/
inductive Pending where
  | between
  | inside (seen wanted : Nat) (low high : UInt8)
  deriving DecidableEq, Repr

/-- The first fault of the bytes that follow `valid` well-formed ones; at a well-formed end, the
end. -/
def faultFrom (valid : Nat) : Pending → Bytes → Fault
  | _, [] => ⟨valid, none⟩
  | .between, b :: rest =>
    match lead? b with
    | none => ⟨valid, some 1⟩
    | some (0, _) => faultFrom (valid + 1) .between rest
    | some (wanted, low, high) => faultFrom valid (.inside 1 wanted low high) rest
  | .inside seen wanted low high, b :: rest =>
    if low ≤ b ∧ b ≤ high then
      if wanted ≤ 1 then faultFrom (valid + seen + 1) .between rest
      else faultFrom valid (.inside (seen + 1) (wanted - 1) 0x80 0xBF) rest
    else ⟨valid, some seen⟩

/-- The text of a byte string, or why it has none. -/
def decode (bytes : Bytes) : Except Fault String :=
  match Bytes.toText? bytes with
  | some text => .ok text
  | none => .error (faultFrom 0 .between bytes)

theorem decode_ofText (text : String) : decode (Bytes.ofText text) = .ok text := by
  simp [decode, Bytes.toText?_ofText]

end Utf8

end ContractLink
