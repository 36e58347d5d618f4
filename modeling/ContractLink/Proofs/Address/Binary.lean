import ContractLink.Address.Basic
import ContractLink.Proofs.Traversal
import ContractLink.Proofs.Wire.Composite
/-!
The binary form of an address: twenty-one bytes, the first of them 0 or 1, and every such string
is the form of one address.
-/
namespace ContractLink

namespace Address

theorem ofBytes_toBytes (a : Address) : ofBytes a.toBytes = .ok a := by
  have known : ¬1 < if a.contract then (1 : UInt8) else 0 := by cases a.contract <;> decide
  have same : decide ((if a.contract then (1 : UInt8) else 0) = 1) = a.contract := by
    cases a.contract <;> decide
  unfold ofBytes
  rw [dif_pos a.length_toBytes]
  simp only [toBytes, if_neg known, same]

theorem toBytes_injective {a b : Address} (same : a.toBytes = b.toBytes) : a = b := by
  apply eq_of_reads_back ofBytes_toBytes
  rw [same]

theorem eq_zero_or_one {first : UInt8} (known : ¬1 < first) : first = 0 ∨ first = 1 := by
  have bound : first.toNat ≤ 1 := UInt8.le_iff_toNat_le.mp (UInt8.not_lt.mp known)
  rcases Nat.le_one_iff_eq_zero_or_eq_one.mp bound with zero | one
  · exact .inl (UInt8.toNat_inj.mp zero)
  · exact .inr (UInt8.toNat_inj.mp one)

theorem toBytes_of_ofBytes {bytes : Bytes} {a : Address} (h : ofBytes bytes = .ok a) :
    a.toBytes = bytes := by
  unfold ofBytes at h
  split at h
  next size =>
    cases bytes with
    | nil => cases size
    | cons first body =>
      dsimp only at h
      split at h
      · cases h
      next known =>
        obtain rfl := Except.ok.inj h
        rcases eq_zero_or_one known with rfl | rfl <;> rfl
  next => cases h

theorem ofBytes_eq_ok_iff {bytes : Bytes} {a : Address} :
    ofBytes bytes = .ok a ↔ a.toBytes = bytes :=
  ⟨toBytes_of_ofBytes, fun h => h ▸ ofBytes_toBytes a⟩

theorem exists_ofBytes_eq_ok_iff {bytes : Bytes} : (∃ a, ofBytes bytes = .ok a) ↔
    bytes.length = 21 ∧ ∀ first ∈ bytes.head?, first ≤ 1 := by
  simp only [ofBytes_eq_ok_iff]
  constructor
  · rintro ⟨a, rfl⟩
    refine ⟨a.length_toBytes, ?_⟩
    cases contract : a.contract <;> simp [toBytes, contract]
  · rintro ⟨size, known⟩
    cases bytes with
    | nil => cases size
    | cons first body =>
      have length : body.length = 20 := Nat.succ.inj size
      rcases eq_zero_or_one (UInt8.not_lt.mpr (known first rfl)) with rfl | rfl
      · exact ⟨⟨false, body, length⟩, rfl⟩
      · exact ⟨⟨true, body, length⟩, rfl⟩

theorem toOption_ofBytes_eq_some (bytes : Bytes) (a : Address) :
    (ofBytes bytes).toOption = some a ↔ a.toBytes = bytes := by
  rw [← ofBytes_eq_ok_iff]
  cases ofBytes bytes <;> simp [Except.toOption]

theorem lawful_format : format.Lawful :=
  Format.lawful_bytes_refine (by decide) length_toBytes toOption_ofBytes_eq_some

theorem encode_format (a : Address) : format.encode a = a.toBytes := by
  simp [format]

theorem readable_format (a : Address) : format.Readable a :=
  fun _ mem => absurd mem List.not_mem_nil

/-- As a value in the binary format an address is its binary form. -/
theorem decodeAll_eq_ok_iff {bytes : Bytes} {a : Address} :
    format.decodeAll bytes = .ok a ↔ ofBytes bytes = .ok a := by
  rw [ofBytes_eq_ok_iff]
  constructor
  · intro read
    have same := (lawful_format.of_decodeAll_ok read).2
    rwa [encode_format] at same
  · rintro rfl
    rw [← encode_format, lawful_format.decodeAll_encode a.readable_format.expressible,
      if_pos a.readable_format]

end Address

end ContractLink
