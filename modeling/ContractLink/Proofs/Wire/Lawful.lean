import ContractLink.Wire.Format
import ContractLink.Proofs.Wire.Digits
/-!
Lawful formats: what is written is read back from the front of any input, and nothing else is
read. The only thing that may stop the reading of an encoding is a length above the limit. Each
combinator of formats keeps the law.
-/
namespace ContractLink

namespace Decoder

variable {α β : Type} {input middle rest : Bytes}

@[simp] theorem pure_apply (a : α) (input : Bytes) : (pure a : Decoder α) input = .ok (a, input) :=
  rfl

@[simp] theorem throw_apply (e : DecodeError) (input : Bytes) :
    (throw e : Decoder α) input = .error e := rfl

theorem bind_of_ok {x : Decoder α} {a : α} (f : α → Decoder β) (h : x input = .ok (a, middle)) :
    (x >>= f) input = f a middle := by
  show (x input >>= fun p => f p.1 p.2) = f a middle
  rw [h]
  rfl

theorem bind_of_error {x : Decoder α} {e : DecodeError} (f : α → Decoder β)
    (h : x input = .error e) : (x >>= f) input = .error e := by
  show (x input >>= fun p => f p.1 p.2) = .error e
  rw [h]
  rfl

/-- A sequence of two readings succeeds only through both. -/
theorem of_bind_ok {x : Decoder α} {f : α → Decoder β} {b : β}
    (h : (x >>= f) input = .ok (b, rest)) :
    ∃ a middle, x input = .ok (a, middle) ∧ f a middle = .ok (b, rest) := by
  cases first : x input with
  | error e =>
    rw [bind_of_error f first] at h
    cases h
  | ok found =>
    obtain ⟨a, middle⟩ := found
    rw [bind_of_ok f first] at h
    exact ⟨a, middle, rfl, h⟩

theorem take_append (front rest : Bytes) :
    take front.length (front ++ rest) = .ok (front, rest) := by
  simp [take]

theorem of_take_ok {n : Nat} {front : Bytes} (h : take n input = .ok (front, rest)) :
    front.length = n ∧ input = front ++ rest := by
  unfold take at h
  dsimp only at h
  split at h
  · cases h
  next enough =>
    obtain ⟨rfl, rfl⟩ : input.take n = front ∧ input.drop n = rest := by simpa using h
    have short : (input.take n).length ≤ n := List.length_take_le n input
    exact ⟨by omega, (List.take_append_drop n input).symm⟩

theorem repeatInto_of_ok {item : Decoder α} {a : α} (count : Nat) (done : List α)
    (h : item input = .ok (a, rest)) :
    repeatInto item (count + 1) done input = repeatInto item count (a :: done) rest := by
  simp [repeatInto, h]

theorem repeatInto_of_error {item : Decoder α} {e : DecodeError} (count : Nat) (done : List α)
    (h : item input = .error e) : repeatInto item (count + 1) done input = .error e := by
  simp [repeatInto, h]

/-- Reading a whole input is reading from its front with nothing left. -/
theorem all_eq_ok {item : Decoder α} {a : α} :
    item.all input = .ok a ↔ item input = .ok (a, []) := by
  unfold all
  cases item input with
  | error e => simp
  | ok found =>
    obtain ⟨b, rest⟩ := found
    cases rest <;> simp

theorem all_of_rest {item : Decoder α} {a : α} (h : item input = .ok (a, rest)) (left : rest ≠ []) :
    item.all input = .error (.trailingBytes rest.length) := by
  obtain ⟨byte, tail, rfl⟩ := List.exists_cons_of_ne_nil left
  simp [all, h]

theorem all_of_error {item : Decoder α} {e : DecodeError} (h : item input = .error e) :
    item.all input = .error e := by
  simp [all, h]

end Decoder

namespace Format

variable {α β : Type}

/-- Every length in the encoding fits the eight bytes that are written for it. -/
def Expressible (format : Format α) (value : α) : Prop := ∀ n ∈ format.lengths value, n < 2 ^ 64

theorem Readable.expressible {format : Format α} {value : α} (h : format.Readable value) :
    format.Expressible value := by
  intro n mem
  have small := h n mem
  unfold maxLength at small
  omega

structure Lawful (format : Format α) : Prop where
  /-- An encoding is read back from the front of an input, unless it has a length that is not
  read. -/
  decode_encode : ∀ {value : α} (rest : Bytes), format.Expressible value →
    format.decode (format.encode value ++ rest) =
      if format.Readable value then .ok (value, rest) else .error .lengthOverflow
  /-- Nothing but an encoding is read. -/
  of_decode_ok : ∀ {input rest : Bytes} {value : α}, format.decode input = .ok (value, rest) →
    format.Readable value ∧ input = format.encode value ++ rest
  encode_ne_nil : ∀ value : α, format.encode value ≠ []
  /-- No length is above the size of what it is part of. -/
  le_length_encode : ∀ {value : α} {n : Nat}, n ∈ format.lengths value →
    n ≤ (format.encode value).length

namespace Lawful

variable {format : Format α} {value : α}

theorem decode_readable (law : format.Lawful) (rest : Bytes) (h : format.Readable value) :
    format.decode (format.encode value ++ rest) = .ok (value, rest) := by
  rw [law.decode_encode rest h.expressible, if_pos h]

/-- An encoding read on behalf of another type. -/
theorem decode_map (law : format.Lawful) (build : α → β) (rest : Bytes)
    (h : format.Expressible value) :
    (format.decode >>= fun a => pure (build a)) (format.encode value ++ rest) =
      if format.Readable value then .ok (build value, rest) else .error .lengthOverflow := by
  have read := law.decode_encode rest h
  split at read
  next readable => rw [if_pos readable, Decoder.bind_of_ok _ read, Decoder.pure_apply]
  next unreadable => rw [if_neg unreadable, Decoder.bind_of_error _ read]

theorem of_decode_map_ok (law : format.Lawful) {build : α → β} {input rest : Bytes} {b : β}
    (h : (format.decode >>= fun a => pure (build a)) input = .ok (b, rest)) :
    ∃ a, build a = b ∧ format.Readable a ∧ input = format.encode a ++ rest := by
  obtain ⟨a, middle, read, eq⟩ := Decoder.of_bind_ok h
  obtain ⟨rfl, rfl⟩ : build a = b ∧ middle = rest := by simpa using eq
  obtain ⟨readable, rfl⟩ := law.of_decode_ok read
  exact ⟨a, rfl, readable, rfl⟩

theorem decodeAll_encode (law : format.Lawful) (h : format.Expressible value) :
    format.decodeAll (format.encode value) =
      if format.Readable value then .ok value else .error .lengthOverflow := by
  have read := law.decode_encode [] h
  rw [List.append_nil] at read
  split at read
  next readable => rw [if_pos readable]; exact Decoder.all_eq_ok.mpr read
  next unreadable => rw [if_neg unreadable]; exact Decoder.all_of_error read

theorem of_decodeAll_ok (law : format.Lawful) {input : Bytes}
    (h : format.decodeAll input = .ok value) :
    format.Readable value ∧ format.encode value = input := by
  obtain ⟨readable, eq⟩ := law.of_decode_ok (Decoder.all_eq_ok.mp h)
  exact ⟨readable, by simpa using eq.symm⟩

/-- An encoding that is not too long is written for one value only. -/
theorem encode_eq_encode_iff (law : format.Lawful) {other : α} (readable : format.Readable value)
    (fits : (format.encode value).length < 2 ^ 64) :
    format.encode other = format.encode value ↔ other = value := by
  refine ⟨fun same => ?_, fun same => same ▸ rfl⟩
  have expressible : format.Expressible other := fun n mem =>
    Nat.lt_of_le_of_lt (law.le_length_encode mem) (same ▸ fits)
  have read := law.decodeAll_encode expressible
  rw [same, law.decodeAll_encode readable.expressible, if_pos readable] at read
  split at read
  · exact (Except.ok.inj read).symm
  · cases read

end Lawful

@[simp] theorem encode_word (width : Nat) (toNat : α → Nat) (ofNat : Nat → α) (value : α) :
    (word width toNat ofNat).encode value = Bytes.littleEndian width (toNat value) := by
  simp [word, encode]

@[simp] theorem readable_word (width : Nat) (toNat : α → Nat) (ofNat : Nat → α) (value : α) :
    (word width toNat ofNat).Readable value := by
  simp [Readable, word]

/-- A number is lawful when its width holds exactly the numbers of the type. -/
theorem lawful_word {width : Nat} {toNat : α → Nat} {ofNat : Nat → α} (pos : 0 < width)
    (small : ∀ value, toNat value < 256 ^ width)
    (ofNat_toNat : ∀ value, ofNat (toNat value) = value)
    (toNat_ofNat : ∀ n < 256 ^ width, toNat (ofNat n) = n) :
    (word width toNat ofNat).Lawful where
  decode_encode {value} rest _ := by
    rw [if_pos (readable_word width toNat ofNat value), encode_word]
    have read := Decoder.take_append (Bytes.littleEndian width (toNat value)) rest
    rw [Bytes.length_littleEndian] at read
    apply (Decoder.bind_of_ok _ read).trans
    rw [Bytes.ofLittleEndian_littleEndian (small value), ofNat_toNat]
    rfl
  of_decode_ok {input rest value} h := by
    obtain ⟨front, middle, taken, eq⟩ := Decoder.of_bind_ok h
    obtain ⟨length, rfl⟩ := Decoder.of_take_ok taken
    obtain ⟨rfl, rfl⟩ : ofNat (Bytes.ofLittleEndian front) = value ∧ middle = rest := by
      simpa using eq
    have bound := Bytes.ofLittleEndian_lt front
    rw [length] at bound
    refine ⟨readable_word width toNat ofNat _, ?_⟩
    rw [encode_word, toNat_ofNat _ bound, ← length, Bytes.littleEndian_ofLittleEndian]
  encode_ne_nil value := by
    rw [encode_word, ← List.length_pos_iff]
    simpa using pos
  le_length_encode mem := by simp [word] at mem

theorem lawful_u8 : u8.Lawful :=
  lawful_word (by decide) UInt8.toNat_lt (fun _ => UInt8.ofNat_toNat)
    fun _ h => UInt8.toNat_ofNat_of_lt' h

theorem lawful_u16 : u16.Lawful :=
  lawful_word (by decide) UInt16.toNat_lt (fun _ => UInt16.ofNat_toNat)
    fun _ h => UInt16.toNat_ofNat_of_lt' h

theorem lawful_u32 : u32.Lawful :=
  lawful_word (by decide) UInt32.toNat_lt (fun _ => UInt32.ofNat_toNat)
    fun _ h => UInt32.toNat_ofNat_of_lt' h

theorem lawful_u64 : u64.Lawful :=
  lawful_word (by decide) UInt64.toNat_lt (fun _ => UInt64.ofNat_toNat)
    fun _ h => UInt64.toNat_ofNat_of_lt' h

theorem lawful_i32 : i32.Lawful :=
  lawful_word (by decide) (fun value => value.toBitVec.isLt) (fun value => by simp)
    fun n h => by simpa using Nat.mod_eq_of_lt h

theorem lawful_i64 : i64.Lawful :=
  lawful_word (by decide) (fun value => value.toBitVec.isLt) (fun value => by simp)
    fun n h => by simpa using Nat.mod_eq_of_lt h

theorem lawful_i128 : i128.Lawful :=
  lawful_word (by decide) (fun value => value.toBitVec.isLt) (fun value => by simp)
    fun n h => by simpa using Nat.mod_eq_of_lt h

@[simp] theorem encode_refine (format : Format α) (check : α → Option β) (raw : β → α) (value : β) :
    (format.refine check raw).encode value = format.encode (raw value) := rfl

@[simp] theorem encode_bytes (n : Nat) (value : Bytes) : (bytes n).encode value = value := by
  simp [bytes, encode]

@[simp] theorem encode_via (format : Format α) (build : α → β) (raw : β → α) (value : β) :
    (format.via build raw).encode value = format.encode (raw value) := rfl

namespace Lawful

/-- A refinement is lawful when the check accepts exactly what is written. -/
theorem refine {format : Format α} (law : format.Lawful) {check : α → Option β} {raw : β → α}
    (check_eq_some : ∀ a b, check a = some b ↔ raw b = a) : (format.refine check raw).Lawful where
  decode_encode {value} rest expressible := by
    have accepted : check (raw value) = some value := (check_eq_some _ _).mpr rfl
    have read := law.decode_encode rest expressible
    by_cases readable : format.Readable (raw value)
    · rw [if_pos readable] at read
      rw [if_pos (show (format.refine check raw).Readable value from readable)]
      apply (Decoder.bind_of_ok _ read).trans
      simp [accepted]
    · rw [if_neg readable] at read
      rw [if_neg (show ¬(format.refine check raw).Readable value from readable)]
      exact Decoder.bind_of_error _ read
  of_decode_ok h := by
    obtain ⟨a, middle, read, eq⟩ := Decoder.of_bind_ok h
    cases checked : check a with
    | none => simp [checked] at eq
    | some b =>
      obtain ⟨rfl, rfl⟩ : b = _ ∧ middle = _ := by simpa [checked] using eq
      obtain rfl := (check_eq_some _ _).mp checked
      exact law.of_decode_ok read
  encode_ne_nil value := law.encode_ne_nil (raw value)
  le_length_encode mem := law.le_length_encode mem

/-- Another representation of the same values is lawful. -/
theorem via {format : Format α} (law : format.Lawful) {build : α → β} {raw : β → α}
    (build_raw : ∀ b, build (raw b) = b) (raw_build : ∀ a, raw (build a) = a) :
    (format.via build raw).Lawful where
  decode_encode {value} rest expressible := by
    have read := law.decode_map build rest expressible
    rwa [build_raw] at read
  of_decode_ok h := by
    obtain ⟨a, rfl, readable, rfl⟩ := law.of_decode_map_ok h
    rw [encode_via, raw_build]
    refine ⟨?_, rfl⟩
    show format.Readable (raw (build a))
    rwa [raw_build]
  encode_ne_nil value := law.encode_ne_nil (raw value)
  le_length_encode mem := law.le_length_encode mem

end Lawful

/-- Byte strings of one length need no length before them. -/
theorem lawful_bytes_refine {n : Nat} {check : Bytes → Option β} {raw : β → Bytes} (pos : 0 < n)
    (length_raw : ∀ b, (raw b).length = n) (check_eq_some : ∀ a b, check a = some b ↔ raw b = a) :
    ((bytes n).refine check raw).Lawful where
  decode_encode {value} rest _ := by
    have taken := Decoder.take_append (raw value) rest
    rw [length_raw] at taken
    rw [if_pos (show ((bytes n).refine check raw).Readable value by simp [Readable, refine, bytes])]
    rw [encode_refine, encode_bytes]
    apply (Decoder.bind_of_ok _ taken).trans
    simp [(check_eq_some _ _).mpr rfl]
  of_decode_ok h := by
    obtain ⟨a, middle, taken, eq⟩ := Decoder.of_bind_ok h
    cases checked : check a with
    | none => simp [checked] at eq
    | some b =>
      obtain ⟨rfl, rfl⟩ : b = _ ∧ middle = _ := by simpa [checked] using eq
      obtain rfl := (check_eq_some _ _).mp checked
      rw [encode_refine, encode_bytes]
      exact ⟨by simp [Readable, refine, bytes], (Decoder.of_take_ok taken).2⟩
  encode_ne_nil value := by
    rw [encode_refine, encode_bytes, ← List.length_pos_iff, length_raw]
    exact pos
  le_length_encode mem := by simp [refine, bytes] at mem

/-- A choice of named values is lawful when the code of each finds it again. -/
theorem lawful_enum {all : List β} {code : β → UInt8}
    (find?_code : ∀ b, all.find? (code · = code b) = some b) :
    (u8.refine (fun flag => all.find? (code · = flag)) code).Lawful := by
  refine lawful_u8.refine fun flag b => ⟨fun h => ?_, fun h => h ▸ find?_code b⟩
  simpa using List.find?_some h

theorem bool_check_eq_some (flag : UInt8) (value : Bool) :
    (if flag = 0 then some false else if flag = 1 then some true else none) = some value ↔
      (if value then 1 else 0) = flag := by
  by_cases zero : flag = 0
  · cases value <;> simp [zero]
  · by_cases one : flag = 1
    · cases value <;> simp [one]
    · cases value <;> simp [zero, one, Ne.symm zero, Ne.symm one]

theorem lawful_bool : bool.Lawful := lawful_u8.refine bool_check_eq_some

end Format

end ContractLink
