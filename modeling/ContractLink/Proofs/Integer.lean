import ContractLink.Int128
import ContractLink.Proofs.Wire.Digits
/-!
The bytes of an integer: they are read back, and every other payload of the integer but the empty
one is longer and ends in them.
-/
namespace ContractLink

namespace Int128

theorem trimSign_suffix (bytes : Bytes) : trimSign bytes <:+ bytes := by
  fun_induction trimSign bytes with
  | case1 second rest ih => exact ih.trans (List.suffix_cons _ _)
  | case2 => exact List.suffix_rfl
  | case3 => exact List.suffix_rfl

theorem trimSign_ne_nil {bytes : Bytes} (h : bytes ≠ []) : trimSign bytes ≠ [] := by
  fun_induction trimSign bytes with
  | case1 second rest ih => exact ih (List.cons_ne_nil _ _)
  | case2 => exact List.cons_ne_nil _ _
  | case3 => exact h

theorem signByte_signByte_cons (bytes rest : Bytes) :
    signByte (signByte bytes :: rest) = signByte bytes := by
  cases bytes with
  | nil => rfl
  | cons first _ =>
    have full : isNegative 0xFF = true := rfl
    have zero : isNegative 0x00 = false := rfl
    by_cases negative : isNegative first = true
    · simp [signByte, negative, full]
    · simp [signByte, negative, zero]

theorem signByte_replicate_append (bytes : Bytes) (k : Nat) :
    signByte (List.replicate k (signByte bytes) ++ bytes) = signByte bytes := by
  cases k with
  | zero => rfl
  | succ k => rw [List.replicate_succ, List.cons_append, signByte_signByte_cons]

/-- Only repetitions of the sign are dropped. -/
theorem exists_replicate_trimSign (bytes : Bytes) :
    ∃ k, bytes = List.replicate k (signByte (trimSign bytes)) ++ trimSign bytes := by
  fun_induction trimSign bytes with
  | case1 second rest ih =>
    obtain ⟨k, eq⟩ := ih
    refine ⟨k + 1, ?_⟩
    have sign : signByte (second :: rest) = signByte (trimSign (second :: rest)) := by
      cases k with
      | zero => exact congrArg signByte eq
      | succ k =>
        have step := congrArg signByte eq
        rwa [List.replicate_succ, List.cons_append, signByte_signByte_cons] at step
    rw [List.replicate_succ, List.cons_append, ← eq, ← sign]
    rfl
  | case2 first second rest _ => exact ⟨0, rfl⟩
  | case3 => exact ⟨0, rfl⟩

theorem trimSign_signByte_cons {bytes : Bytes} (h : bytes ≠ []) :
    trimSign (signByte bytes :: bytes) = trimSign bytes := by
  cases bytes with
  | nil => exact absurd rfl h
  | cons first rest => simp only [trimSign, signByte, if_true]

theorem trimSign_replicate_append {bytes : Bytes} (h : bytes ≠ []) (k : Nat) :
    trimSign (List.replicate k (signByte bytes) ++ bytes) = trimSign bytes := by
  induction k with
  | zero => rfl
  | succ k ih =>
    have step := trimSign_signByte_cons
      (List.append_ne_nil_of_right_ne_nil (List.replicate k (signByte bytes)) h)
    rw [signByte_replicate_append, ih] at step
    rwa [List.replicate_succ, List.cons_append]

/-- The payload with its sign repeated up to the full width. -/
def extend (data : Bytes) : Bytes :=
  List.replicate (maxBytes - data.length) (signByte data) ++ data

theorem length_extend {data : Bytes} (h : data.length ≤ maxBytes) :
    (extend data).length = maxBytes := by
  simp only [extend, List.length_append, List.length_replicate]
  omega

theorem ofBytes?_eq_some_iff {data : Bytes} {v : Int128} :
    ofBytes? data = some v ↔
      data.length ≤ maxBytes ∧ Bytes.bigEndian maxBytes v.toBitVec.toNat = extend data := by
  unfold ofBytes?
  by_cases wide : maxBytes < data.length
  · simp [wide, Nat.not_le.mpr wide]
  have fits : data.length ≤ maxBytes := Nat.le_of_not_lt wide
  have bound : Bytes.ofBigEndian (extend data) < 2 ^ 128 := by
    have bound := Bytes.ofBigEndian_lt (extend data)
    rwa [length_extend fits] at bound
  have digits := Bytes.bigEndian_ofBigEndian (extend data)
  rw [length_extend fits] at digits
  rw [if_neg wide]
  show some (ofBitVec (BitVec.ofNat 128 (Bytes.ofBigEndian (extend data)))) = some v ↔ _
  constructor
  · intro h
    obtain rfl := Option.some.inj h
    refine ⟨fits, ?_⟩
    rw [BitVec.toNat_ofNat, Nat.mod_eq_of_lt bound]
    exact digits
  · rintro ⟨-, eq⟩
    have number := congrArg Bytes.ofBigEndian eq
    rw [Bytes.ofBigEndian_bigEndian v.toBitVec.isLt] at number
    rw [← number, BitVec.ofNat_toNat, BitVec.setWidth_eq]

theorem toBytes_ne_nil (v : Int128) : v.toBytes ≠ [] := by
  apply trimSign_ne_nil
  intro empty
  have length := congrArg List.length empty
  simp [maxBytes] at length

theorem length_toBytes_le (v : Int128) : v.toBytes.length ≤ maxBytes := by
  have length := (trimSign_suffix (Bytes.bigEndian maxBytes v.toBitVec.toNat)).length_le
  rwa [Bytes.length_bigEndian] at length

theorem ofBytes?_toBytes (v : Int128) : ofBytes? v.toBytes = some v := by
  refine ofBytes?_eq_some_iff.mpr ⟨length_toBytes_le v, ?_⟩
  obtain ⟨k, eq⟩ := exists_replicate_trimSign (Bytes.bigEndian maxBytes v.toBitVec.toNat)
  have count := congrArg List.length eq
  rw [Bytes.length_bigEndian, List.length_append, List.length_replicate] at count
  have k_eq : maxBytes - v.toBytes.length = k := by
    unfold toBytes
    omega
  unfold extend
  rw [k_eq]
  exact eq

theorem toBytes_injective {v w : Int128} (same : v.toBytes = w.toBytes) : v = w := by
  have read := ofBytes?_toBytes v
  rw [same, ofBytes?_toBytes] at read
  exact (Option.some.inj read).symm

/-- Every payload of an integer but the empty one ends in the bytes that are written for it. -/
theorem toBytes_suffix_of_ofBytes? {data : Bytes} {v : Int128} (nonempty : data ≠ [])
    (h : ofBytes? data = some v) : v.toBytes <:+ data := by
  obtain ⟨-, eq⟩ := ofBytes?_eq_some_iff.mp h
  unfold toBytes
  rw [eq, extend, trimSign_replicate_append nonempty]
  exact trimSign_suffix data

/-- No other payload but the empty one is as short and is read as the same integer. -/
def Shortest (data : Bytes) : Prop :=
  data ≠ [] ∧ ∀ other, other ≠ [] → ofBytes? other = ofBytes? data → data.length ≤ other.length

theorem shortest_iff {data : Bytes} {v : Int128} (h : ofBytes? data = some v) :
    Shortest data ↔ v.toBytes = data := by
  constructor
  · rintro ⟨nonempty, least⟩
    have suffix := toBytes_suffix_of_ofBytes? nonempty h
    have short := least v.toBytes (toBytes_ne_nil v) (by rw [ofBytes?_toBytes, h])
    exact suffix.eq_of_length_le short
  · rintro rfl
    refine ⟨toBytes_ne_nil v, fun other nonempty same => ?_⟩
    rw [h] at same
    exact (toBytes_suffix_of_ofBytes? nonempty same).length_le

end Int128

end ContractLink
