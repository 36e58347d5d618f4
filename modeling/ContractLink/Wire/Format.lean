import ContractLink.Int128
/-!
Binary formats. A format says which byte strings writing a value produces, one after another, how
a value is read from the front of an input, and which sequence lengths its encoding carries.
Integers are little-endian of fixed width, sequences carry an eight-byte length, an option a flag.
-/
namespace ContractLink

inductive DecodeError where
  | unexpectedEnd
  | invalidValue
  | lengthOverflow
  | trailingBytes (count : Nat)
  deriving DecidableEq, Repr

def DecodeError.message : DecodeError → String
  | unexpectedEnd => "unexpected end of input"
  | invalidValue => "invalid value"
  | lengthOverflow => "length prefix too large"
  | trailingBytes count => s!"{count} trailing bytes"

/-- Reads a value from the front of an input and leaves the rest. -/
abbrev Decoder := StateT Bytes (Except DecodeError)

namespace Decoder

/-- Exactly `n` bytes. -/
def take (n : Nat) : Decoder Bytes := fun input =>
  let front := input.take n
  if front.length < n then .error .unexpectedEnd else .ok (front, input.drop n)

/-- `count` values in order, put behind those already read, which are in reverse. -/
def repeatInto {α : Type} (item : Decoder α) : Nat → List α → Decoder (List α)
  | 0, done => fun input => .ok (done.reverse, input)
  | count + 1, done => fun input =>
    match item input with
    | .ok (value, rest) => repeatInto item count (value :: done) rest
    | .error e => .error e

def replicate {α : Type} (count : Nat) (item : Decoder α) : Decoder (List α) :=
  repeatInto item count []

/-- A value that is the whole input. -/
def all {α : Type} (item : Decoder α) (input : Bytes) : Except DecodeError α :=
  match item input with
  | .ok (value, []) => .ok value
  | .ok (_, rest) => .error (.trailingBytes rest.length)
  | .error e => .error e

end Decoder

/-- Where the writes of an encoding go. -/
structure Sink (σ : Type) where
  write : σ → Bytes → σ

namespace Sink

/-- Keeps the bytes. -/
def buffer : Sink (Array UInt8) := ⟨fun out bytes => out ++ bytes.toArray⟩

/-- Keeps their number only. -/
def counter : Sink Nat := ⟨fun count bytes => count + bytes.length⟩

end Sink

structure Format (α : Type) where
  /-- The byte strings written for a value, in order. -/
  writes : α → List Bytes
  decode : Decoder α
  /-- The lengths of the sequences and texts in an encoding, each before what it counts. -/
  lengths : α → List Nat

namespace Format

variable {α β : Type}

def emit {σ : Type} (format : Format α) (sink : Sink σ) (value : α) (out : σ) : σ :=
  (format.writes value).foldl sink.write out

def encode (format : Format α) (value : α) : Bytes := (format.writes value).flatten

/-- The length of an encoding, without the encoding. -/
def size (format : Format α) (value : α) : Nat := format.emit .counter value 0

def decodeAll (format : Format α) (input : Bytes) : Except DecodeError α :=
  format.decode.all input

/-- Longest sequence or text that is read. -/
def maxLength : Nat := 1 <<< 24

/-- Every length in the encoding is one that is read. -/
def Readable (format : Format α) (value : α) : Prop := ∀ n ∈ format.lengths value, n ≤ maxLength

instance (format : Format α) (value : α) : Decidable (format.Readable value) :=
  inferInstanceAs (Decidable (∀ n ∈ _, _))

/-- The same bytes for another type, with a reading that may refuse a value. -/
def refine (format : Format α) (check : α → Option β) (raw : β → α) : Format β where
  writes value := format.writes (raw value)
  decode := do
    let value ← format.decode
    match check value with
    | some value => return value
    | none => throw .invalidValue
  lengths value := format.lengths (raw value)

/-- The same bytes for another type with the same values. -/
def via (format : Format α) (build : α → β) (raw : β → α) : Format β where
  writes value := format.writes (raw value)
  decode := build <$> format.decode
  lengths value := format.lengths (raw value)

/-- A number of `width` bytes. -/
def word (width : Nat) (toNat : α → Nat) (ofNat : Nat → α) : Format α where
  writes value := [Bytes.littleEndian width (toNat value)]
  decode := do return ofNat (Bytes.ofLittleEndian (← Decoder.take width))
  lengths _ := []

def u8 : Format UInt8 := word 1 UInt8.toNat UInt8.ofNat
def u16 : Format UInt16 := word 2 UInt16.toNat UInt16.ofNat
def u32 : Format UInt32 := word 4 UInt32.toNat UInt32.ofNat
def u64 : Format UInt64 := word 8 UInt64.toNat UInt64.ofNat
def i32 : Format Int32 := word 4 (·.toBitVec.toNat) fun n => .ofBitVec (.ofNat 32 n)
def i64 : Format Int64 := word 8 (·.toBitVec.toNat) fun n => .ofBitVec (.ofNat 64 n)
def i128 : Format Int128 := word 16 (·.toBitVec.toNat) fun n => .ofBitVec (.ofNat 128 n)

def bool : Format Bool :=
  u8.refine (fun flag => if flag = 0 then some false else if flag = 1 then some true else none)
    fun value => if value then 1 else 0

/-- Exactly `n` bytes with no length before them. -/
def bytes (n : Nat) : Format Bytes where
  writes value := [value]
  decode := Decoder.take n
  lengths _ := []

def pair (first : Format α) (second : Format β) : Format (α × β) where
  writes value := first.writes value.1 ++ second.writes value.2
  decode := do return (← first.decode, ← second.decode)
  lengths value := first.lengths value.1 ++ second.lengths value.2

def option (format : Format α) : Format (Option α) where
  writes
    | none => u8.writes 0
    | some value => u8.writes 1 ++ format.writes value
  decode := do
    let flag ← u8.decode
    if flag = 0 then return none
    else if flag = 1 then return some (← format.decode)
    else throw .invalidValue
  lengths
    | none => []
    | some value => format.lengths value

/-- A length prefix. -/
def decodeLength : Decoder Nat := do
  let n ← u64.decode
  if maxLength < n.toNat then throw .lengthOverflow else return n.toNat

def list (format : Format α) : Format (List α) where
  writes values := u64.writes (.ofNat values.length) ++ values.flatMap format.writes
  decode := do Decoder.replicate (← decodeLength) format.decode
  lengths values := values.length :: values.flatMap format.lengths

/-- A text is the sequence of its UTF-8 bytes. -/
def text : Format String where
  writes value :=
    let utf8 := Bytes.ofText value
    u64.writes (.ofNat utf8.length) ++ [utf8]
  decode := do
    let utf8 ← Decoder.take (← decodeLength)
    match Bytes.toText? utf8 with
    | some value => return value
    | none => throw .invalidValue
  lengths value := [(Bytes.ofText value).length]

/-- A byte string of any length. -/
def blob : Format Bytes := u8.list

end Format

end ContractLink
