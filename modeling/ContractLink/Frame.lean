import ContractLink.Bytes.Basic
/-!
Frames: a length of four bytes, least significant first, and that many bytes. A frame holds at
least one byte and at most sixteen mebibytes.
-/
namespace ContractLink

namespace Frame

inductive Error where
  | invalidLength (length : Nat)
  /-- The input ends inside the frame's bytes. -/
  | cutShort
  deriving DecidableEq, Repr

def Error.message : Error → String
  | invalidLength length => s!"invalid frame length {length}"
  | cutShort => "i/o: early eof"

def headerSize : Nat := 4

def maxSize : Nat := 16 * 1024 * 1024

def Fits (length : Nat) : Prop := 0 < length ∧ length ≤ maxSize

instance (length : Nat) : Decidable (Fits length) := inferInstanceAs (Decidable (_ ∧ _))

/-- What stands before data of a length. -/
def header (length : Nat) : Except Error Bytes :=
  if Fits length then .ok (Bytes.littleEndian headerSize length) else .error (.invalidLength length)

def encode (data : Bytes) : Except Error Bytes :=
  (header data.length).map (· ++ data)

/-- Takes so many bytes off the front of an input. An input with fewer is used up all the same. -/
def readExact (count : Nat) (input : Bytes) : Option Bytes × Bytes :=
  let taken := input.take count
  if taken.length < count then (none, []) else (some taken, input.drop count)

theorem readExact_of_short {count : Nat} {input : Bytes} (short : input.length < count) :
    readExact count input = (none, []) :=
  if_pos (Nat.lt_of_le_of_lt (List.length_take_le' count input) short)

theorem readExact_of_le {count : Nat} {input : Bytes} (enough : count ≤ input.length) :
    readExact count input = (some (input.take count), input.drop count) := by
  have taken : (input.take count).length = count := List.length_take_of_le enough
  exact if_neg (Nat.not_lt_of_le (Nat.le_of_eq taken.symm))

theorem of_readExact_eq_some {count : Nat} {input data rest : Bytes}
    (h : readExact count input = (some data, rest)) :
    data.length = count ∧ input = data ++ rest := by
  unfold readExact at h
  dsimp only at h
  split at h
  · simp at h
  next whole =>
    obtain ⟨taken, rfl⟩ := Prod.mk.inj h
    obtain rfl := Option.some.inj taken
    exact ⟨Nat.le_antisymm (List.length_take_le _ _) (Nat.le_of_not_lt whole),
      (List.take_append_drop count input).symm⟩

theorem readExact_suffix (count : Nat) (input : Bytes) : (readExact count input).2 <:+ input := by
  unfold readExact
  dsimp only
  split
  · exact List.nil_suffix
  · exact List.drop_suffix count input

/-- Reads a frame from the front of an input and leaves the rest. An input that ends before the
length is complete has no further frame, and nothing is left of it. A length that no frame has is
read, the bytes after it are not. -/
def read (input : Bytes) : Except Error (Option Bytes) × Bytes :=
  match readExact headerSize input with
  | (none, rest) => (.ok none, rest)
  | (some header, rest) =>
    let length := Bytes.ofLittleEndian header
    if Fits length then
      match readExact length rest with
      | (none, rest) => (.error .cutShort, rest)
      | (some data, rest) => (.ok (some data), rest)
    else (.error (.invalidLength length), rest)

/-- The end of the input is no error while the header is read. -/
theorem read_of_short {input : Bytes} (short : input.length < headerSize) :
    read input = (.ok none, []) := by
  rw [read, readExact_of_short short]

/-- What follows a whole header depends on the length that it gives. -/
theorem read_of_header {input : Bytes} (full : headerSize ≤ input.length) :
    read input =
      let length := Bytes.ofLittleEndian (input.take headerSize)
      let rest := input.drop headerSize
      if Fits length then
        if rest.length < length then (.error .cutShort, [])
        else (.ok (some (rest.take length)), rest.drop length)
      else (.error (.invalidLength length), rest) := by
  rw [read, readExact_of_le full]
  dsimp only
  by_cases cut : (input.drop headerSize).length < Bytes.ofLittleEndian (input.take headerSize)
  · rw [readExact_of_short cut, if_pos cut]
  · rw [readExact_of_le (Nat.le_of_not_lt cut), if_neg cut]

/-- An input without a further frame ends before the header does. -/
theorem short_of_read_eq_none {input rest : Bytes} (h : read input = (.ok none, rest)) :
    input.length < headerSize := by
  apply Nat.lt_of_not_le
  intro full
  rw [read_of_header full] at h
  dsimp only at h
  split at h
  · split at h <;> simp at h
  · simp at h

/-- A frame takes a header off the input, and as many bytes as that says. -/
theorem exists_header_of_read {input data rest : Bytes} (h : read input = (.ok (some data), rest)) :
    ∃ header : Bytes, header.length = headerSize ∧ Bytes.ofLittleEndian header = data.length ∧
      Fits data.length ∧ input = header ++ (data ++ rest) := by
  unfold read at h
  split at h
  · simp at h
  next header rest' opened =>
    obtain ⟨width, rfl⟩ := of_readExact_eq_some opened
    dsimp only at h
    split at h
    next fits =>
      split at h
      · simp at h
      next data' rest'' body =>
        obtain ⟨length, rfl⟩ := of_readExact_eq_some body
        obtain ⟨found, rfl⟩ := Prod.mk.inj h
        obtain rfl := Option.some.inj (Except.ok.inj found)
        exact ⟨header, width, length.symm, length ▸ fits, rfl⟩
    next => simp at h

theorem length_read_lt {input rest data : Bytes} (h : read input = (.ok (some data), rest)) :
    rest.length < input.length := by
  obtain ⟨header, -, -, fits, rfl⟩ := exists_header_of_read h
  have some := fits.1
  simp only [List.length_append]
  omega

/-- Reading only ever drops bytes from the front. -/
theorem read_suffix (input : Bytes) : (read input).2 <:+ input := by
  have header := readExact_suffix headerSize input
  unfold read
  split
  next same => rwa [same] at header
  next same =>
    rw [same] at header
    dsimp only
    split
    · split
      next body => exact (body ▸ readExact_suffix _ _ :).trans header
      next body => exact (body ▸ readExact_suffix _ _ :).trans header
    · exact header

end Frame

end ContractLink
