import ContractLink.Bytes.Basic
/-!
Hexadecimal text. Writing uses lower-case digits; reading takes digits of either case, checks how
many there are, and names the first byte that is not one.
-/
namespace ContractLink

namespace Hex

/-- The lower-case digit of a number below sixteen. -/
def digit (n : Nat) : Char :=
  if n < 10 then Char.ofNat (n + 48) else Char.ofNat (n + 87)

/-- The value of an ASCII digit of either case. -/
def value? (c : UInt8) : Option Nat :=
  let n := c.toNat
  if 48 ≤ n ∧ n ≤ 57 then some (n - 48)
  else if 97 ≤ n ∧ n ≤ 102 then some (n - 87)
  else if 65 ≤ n ∧ n ≤ 70 then some (n - 55)
  else none

/-- A byte that is no hexadecimal digit, and where it stands. -/
structure BadDigit where
  byte : UInt8
  position : Nat
  deriving DecidableEq, Repr

/-- The values of the digits, or the first byte that is not one. -/
def digits (text : Bytes) : Except BadDigit (List Nat) :=
  text.zipIdx.mapM fun (c, position) =>
    match value? c with
    | some d => .ok d
    | none => .error ⟨c, position⟩

/-- Each two digits are one byte, the high digit first. -/
def pack : List Nat → Bytes
  | high :: low :: rest => UInt8.ofNat (16 * high + low) :: pack rest
  | _ => []

/-- Reads a text with an even number of digits. -/
def decode (text : Bytes) : Except BadDigit Bytes := do
  return pack (← digits text)

/-- Why a text is not read. -/
inductive Fault where
  | badDigit (bad : BadDigit)
  | oddLength
  | wrongLength
  deriving DecidableEq, Repr

theorem length_pack (ds : List Nat) : (pack ds).length = ds.length / 2 := by
  fun_induction pack ds with
  | case1 high low rest ih =>
    simp only [List.length_cons, ih]
    omega
  | case2 ds short =>
    obtain _ | ⟨high, _ | ⟨low, rest⟩⟩ := ds
    · rfl
    · simp
    · exact absurd rfl (short high low rest)

theorem length_of_mapM {ε α β : Type} {f : α → Except ε β} {xs : List α} {ys : List β}
    (h : xs.mapM f = .ok ys) : ys.length = xs.length := by
  induction xs generalizing ys with
  | nil =>
    obtain rfl := Except.ok.inj h
    rfl
  | cons x xs ih =>
    rw [List.mapM_cons] at h
    cases first : f x with
    | error e =>
      rw [first] at h
      cases h
    | ok y =>
      cases rest : xs.mapM f with
      | error e =>
        rw [first, rest] at h
        cases h
      | ok ys =>
        rw [first, rest] at h
        obtain rfl := Except.ok.inj h
        rw [List.length_cons, List.length_cons, ih rest]

theorem length_of_digits {text : Bytes} {ds : List Nat} (h : digits text = .ok ds) :
    ds.length = text.length :=
  (length_of_mapM h).trans List.length_zipIdx

theorem length_of_decode {text bytes : Bytes} (h : decode text = .ok bytes) :
    bytes.length = text.length / 2 := by
  unfold decode at h
  cases read : digits text with
  | error bad =>
    rw [read] at h
    cases h
  | ok ds =>
    rw [read] at h
    obtain rfl := Except.ok.inj h
    rw [length_pack, length_of_digits read]

/-- Reads just so many bytes. How many digits there are is checked before any of them is read. -/
def decodeExact (count : Nat) (text : Bytes) :
    Except Fault { bytes : Bytes // bytes.length = count } :=
  if text.length % 2 ≠ 0 then .error .oddLength
  else if size : text.length / 2 = count then
    match read : decode text with
    | .error bad => .error (.badDigit bad)
    | .ok bytes => .ok ⟨bytes, (length_of_decode read).trans size⟩
  else .error .wrongLength

end Hex

namespace Bytes

/-- Two lower-case hexadecimal digits for each byte. -/
def toHex (bytes : Bytes) : String :=
  String.ofList (bytes.flatMap fun b => [Hex.digit (b.toNat / 16), Hex.digit (b.toNat % 16)])

def ofHex? (text : String) : Option Bytes :=
  (Hex.decodeExact (text.utf8ByteSize / 2) (ofText text)).toOption.map (·.val)

end Bytes

end ContractLink
