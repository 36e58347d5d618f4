import ContractLink.Proofs.Address.Binary
import ContractLink.Proofs.Address.Text
import ContractLink.Proofs.Registry.Decode
/-!
The forms of an address: binary, as text, and as the payload of a value. Main statement: an address
is read back from each form that it is written in, and every reader of bytes accepts the same bytes
as the same address.
-/
namespace ContractLink

namespace Registry

/-- Under its own tag an address is read from its binary form, and nothing else is. -/
theorem standard_decode_address_eq_ok_iff {bytes : Bytes} {value : Value} :
    standard.decode ⟨TypeTag.address.code, bytes⟩ = .ok value ↔
      ∃ a, Address.ofBytes bytes = .ok a ∧ value = .address a := by
  have found : standard.handler? TypeTag.address.code = some .address := rfl
  show standard.decodeWithin (maxNesting + 1) TypeTag.address.code bytes = .ok value ↔ _
  rw [decodeWithin_of_found found]
  unfold Handler.decode
  cases Address.ofBytes bytes with
  | error e => simp [Except.mapError, Functor.map, Except.map]
  | ok a => simp [Except.mapError, Functor.map, Except.map, eq_comm]

end Registry

namespace Address

theorem toText_injective {a b : Address} (same : a.toText = b.toText) : a = b := by
  apply eq_of_reads_back ofText_toText
  rw [same]

theorem length_toText (a : Address) : a.toText.length = 42 := by
  have marker : (if a.contract then "cx" else "hx").length = 2 := by
    cases a.contract <;> rfl
  rw [toText_eq, String.length_append, marker, length_toHex_body]

/-- An address has twenty-one bytes, the first of them 0 or 1, and a text of forty-two characters,
which no other address has. It is read back from its bytes, from its text by every reader, and from
its encoding, which is its bytes again. A byte string is accepted as an address for its size and its
first byte alone, in every place where an address is read from bytes, and as the same address. -/
theorem forms_agree :
    (∀ a : Address, a.toBytes.length = 21 ∧
      (∃ first body, a.toBytes = first :: body ∧ (first = 0 ∨ first = 1)) ∧
      a.toText.length = 42 ∧ format.encode a = a.toBytes ∧
      ofBytes a.toBytes = .ok a ∧ ofText a.toText = .ok a ∧ ofTextStrict a.toText = .ok a ∧
      format.decodeAll (format.encode a) = .ok a ∧
      ofSlice a.toBytes = .ok a ∧ parse a.toText = .ok a) ∧
    (∀ a b : Address, a.toText = b.toText → a = b) ∧
    ∀ bytes : Bytes,
      ((∃ a, ofBytes bytes = .ok a) ↔ bytes.length = 21 ∧ ∀ first ∈ bytes.head?, first ≤ 1) ∧
      ofSlice bytes = ofBytes bytes ∧
      (∀ a, format.decodeAll bytes = .ok a ↔ ofBytes bytes = .ok a) ∧
      ∀ value, Registry.standard.decode ⟨TypeTag.address.code, bytes⟩ = .ok value ↔
        ∃ a, ofBytes bytes = .ok a ∧ value = .address a := by
  refine ⟨fun a => ?_, fun a b => toText_injective, fun bytes => ?_⟩
  · have first : ∃ first body, a.toBytes = first :: body ∧ (first = 0 ∨ first = 1) := by
      refine ⟨_, a.body, rfl, ?_⟩
      cases a.contract <;> simp
    have decoded : format.decodeAll (format.encode a) = .ok a := by
      rw [decodeAll_eq_ok_iff, encode_format, ofBytes_toBytes]
    exact ⟨a.length_toBytes, first, a.length_toText, a.encode_format, ofBytes_toBytes a,
      ofText_toText a, ofTextStrict_toText a, decoded, ofBytes_toBytes a, ofText_toText a⟩
  · exact ⟨exists_ofBytes_eq_ok_iff, rfl, fun a => decodeAll_eq_ok_iff,
      fun value => Registry.standard_decode_address_eq_ok_iff⟩

/-- A contract's address in all of its forms, and bytes that no reader takes for one. -/
theorem forms_agree_contract :
    let bytes : Bytes := 1 :: List.replicate 20 0xAB
    let a : Address := ⟨true, List.replicate 20 0xAB, rfl⟩
    let unknown : Bytes := 2 :: List.replicate 20 0xAB
    ofBytes bytes = .ok a ∧ format.decodeAll bytes = .ok a ∧
      Registry.standard.decode ⟨TypeTag.address.code, bytes⟩ = .ok (.address a) ∧
      (∀ b : Address, b.toText = "cxabababababababababababababababababababab" → b = a) ∧
      ¬∃ a, format.decodeAll unknown = .ok a := by
  intro bytes a unknown
  obtain ⟨forms, unique, readers⟩ := forms_agree
  obtain ⟨-, -, -, -, read, -⟩ := forms a
  obtain ⟨-, -, decoded, standard⟩ := readers bytes
  obtain ⟨accepted, -, same, -⟩ := readers unknown
  have text : a.toText = "cxabababababababababababababababababababab" := by decide +kernel
  refine ⟨read, (decoded a).mpr read, (standard _).mpr ⟨a, read, rfl⟩, ?_, ?_⟩
  · exact fun b written => unique b a (written.trans text.symm)
  · rintro ⟨b, found⟩
    have known := (accepted.mp ⟨b, (same b).mp found⟩).2 2 rfl
    exact absurd known (by decide)

end Address

end ContractLink
