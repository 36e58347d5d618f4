import ContractLink.Proofs.Integer
/-!
The number that bytes stand for in two's complement. Repeating the sign in front of bytes keeps
their number, and at the full width it is the number of the word. Main statement: an integer has
just one shortest payload, every other one ends in it, and what is read is the number of the bytes.
-/
namespace ContractLink

namespace Bytes

/-- The number that bytes stand for, most significant first: the first byte counts with its sign,
the others follow it as digits. No bytes are zero. -/
def signed : Bytes → Int
  | [] => 0
  | first :: rest => rest.foldl (fun number byte => 256 * number + byte.toNat) first.toInt8.toInt

theorem foldl_digits (rest : Bytes) (start : Int) :
    rest.foldl (fun number (byte : UInt8) => 256 * number + (byte.toNat : Int)) start =
      256 ^ rest.length * start + ofBigEndian rest := by
  induction rest generalizing start with
  | nil => simp [ofBigEndian, ofLittleEndian]
  | cons byte rest ih =>
    rw [List.foldl_cons, ih, ofBigEndian_cons, List.length_cons, pow_succ]
    push_cast
    ring

theorem signed_cons (first : UInt8) (rest : Bytes) :
    signed (first :: rest) = 256 ^ rest.length * first.toInt8.toInt + ofBigEndian rest :=
  foldl_digits rest _

end Bytes

namespace Int128

open Bytes

theorem isNegative_iff {byte : UInt8} : isNegative byte = true ↔ 128 ≤ byte.toNat := by
  simp [isNegative, UInt8.le_iff_toNat_le]

theorem toInt_toInt8 (byte : UInt8) :
    byte.toInt8.toInt = if isNegative byte then (byte.toNat : Int) - 256 else byte.toNat := by
  have small := byte.toNat_lt
  have number : byte.toInt8.toInt =
      if 2 * byte.toNat < 2 ^ 8 then (byte.toNat : Int) else byte.toNat - 2 ^ 8 :=
    BitVec.toInt_eq_toNat_cond byte.toBitVec
  simp only [number, isNegative_iff]
  split <;> split <;> omega

theorem signed_signByte_cons (data : Bytes) : signed (signByte data :: data) = signed data := by
  cases data with
  | nil => rfl
  | cons first rest =>
    have sign : 256 * (signByte (first :: rest)).toInt8.toInt + first.toNat = first.toInt8.toInt := by
      have minus : (0xFF : UInt8).toInt8.toInt = -1 := rfl
      have zero : (0x00 : UInt8).toInt8.toInt = 0 := rfl
      rw [toInt_toInt8 first, signByte]
      split
      · rw [minus]
        omega
      · rw [zero]
        omega
    simp only [signed, List.foldl_cons, sign]

theorem signed_extend (data : Bytes) : signed (extend data) = signed data := by
  unfold extend
  generalize maxBytes - data.length = k
  induction k with
  | zero => rfl
  | succ k ih =>
    have step := signed_signByte_cons (List.replicate k (signByte data) ++ data)
    rw [signByte_replicate_append, ih] at step
    rwa [List.replicate_succ, List.cons_append]

/-- At the full width the bytes are those of the word, so they stand for its number. -/
theorem toInt_eq_signed (v : Int128) : v.toInt = signed (bigEndian maxBytes v.toBitVec.toNat) := by
  have number : ofBigEndian (bigEndian maxBytes v.toBitVec.toNat) = v.toBitVec.toNat :=
    ofBigEndian_bigEndian v.toBitVec.isLt
  have width := length_bigEndian maxBytes v.toBitVec.toNat
  generalize bigEndian maxBytes v.toBitVec.toNat = data at number width
  cases data with
  | nil => cases width
  | cons first rest =>
    have fifteen : rest.length = 15 := Nat.succ.inj width
    have low := ofBigEndian_lt rest
    rw [ofBigEndian_cons] at number
    rw [toInt, BitVec.toInt_eq_toNat_cond, signed_cons, ← number, toInt_toInt8]
    simp only [fifteen, isNegative_iff] at low ⊢
    split <;> split <;> omega

theorem toInt_of_ofBytes? {data : Bytes} {v : Int128} (h : ofBytes? data = some v) :
    v.toInt = signed data := by
  obtain ⟨-, full⟩ := ofBytes?_eq_some_iff.mp h
  rw [toInt_eq_signed, full, signed_extend]

theorem ofBytes?_eq_none_iff {data : Bytes} : ofBytes? data = none ↔ maxBytes < data.length := by
  simp [ofBytes?]

/-- An integer is written in at least one and at most sixteen bytes, which are read back. Every
payload of it but the empty one ends in these bytes, and none but these is as short. Bytes are
refused only when there are more than sixteen, and else read as the number that they stand for. -/
theorem payload_exact (v : Int128) (data : Bytes) :
    (1 ≤ v.toBytes.length ∧ v.toBytes.length ≤ maxBytes) ∧ ofBytes? v.toBytes = some v ∧
      (data ≠ [] → ofBytes? data = some v →
        v.toBytes <:+ data ∧ (data.length ≤ v.toBytes.length → data = v.toBytes)) ∧
      (ofBytes? data = none ↔ maxBytes < data.length) ∧
      (data.length ≤ maxBytes → ∃ w, ofBytes? data = some w ∧ w.toInt = signed data) := by
  have nonempty : 1 ≤ v.toBytes.length := List.length_pos_iff.mpr (toBytes_ne_nil v)
  refine ⟨⟨nonempty, length_toBytes_le v⟩, ofBytes?_toBytes v, fun given read => ?_,
    ofBytes?_eq_none_iff, fun fits => ?_⟩
  · have suffix := toBytes_suffix_of_ofBytes? given read
    exact ⟨suffix, fun short => (suffix.eq_of_length_le short).symm⟩
  · cases read : ofBytes? data with
    | none => exact absurd (ofBytes?_eq_none_iff.mp read) (Nat.not_lt.mpr fits)
    | some w => exact ⟨w, rfl, toInt_of_ofBytes? read⟩

theorem payload_exact_negative :
    let v : Int128 := ofInt (-129)
    let data : Bytes := [0xFF, 0xFF, 0x7F]
    v.toBytes = [0xFF, 0x7F] ∧ ofBytes? data = some v ∧ v.toBytes <:+ data ∧
      ∃ w, ofBytes? data = some w ∧ w.toInt = -129 := by
  intro v data
  have read : ofBytes? data = some v := by decide
  obtain ⟨-, -, ends, -, number⟩ := payload_exact v data
  exact ⟨by decide, read, (ends (by decide) read).1, number (by decide)⟩

/-- At the two ends of the range all sixteen bytes are needed. -/
example : (ofInt (2 ^ 127 - 1)).toBytes = 0x7F :: List.replicate 15 0xFF ∧
    (ofInt (-2 ^ 127)).toBytes = 0x80 :: List.replicate 15 0x00 := by decide

end Int128

end ContractLink
