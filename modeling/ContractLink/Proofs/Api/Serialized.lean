import ContractLink.Proofs.Api.WellFormed
import ContractLink.Proofs.Wire.Types
/-!
The bytes of an API. What is serialized is read back as it was if it can be built, and is refused
for a descriptor if it cannot. Main statement: the bytes that are read are those of the APIs that
can be built, each with bytes of its own.
-/
namespace ContractLink

/-- The name and the payload of the default are no longer than what is read. -/
def Param.Short (p : Param) : Prop :=
  (Bytes.ofText p.name).length ≤ Format.maxLength ∧
    ∀ typed ∈ p.default?, typed.data.length ≤ Format.maxLength

def FunctionDecl.Short (f : FunctionDecl) : Prop :=
  (Bytes.ofText f.name).length ≤ Format.maxLength ∧
    (f.inputs.length ≤ Format.maxLength ∧ ∀ p ∈ f.inputs, p.Short) ∧
    f.outputs.length ≤ Format.maxLength

def EventDecl.Short (e : EventDecl) : Prop :=
  (Bytes.ofText e.name).length ≤ Format.maxLength ∧
    e.params.length ≤ Format.maxLength ∧ ∀ p ∈ e.params, p.Short

def Method.Short : Method → Prop
  | function f => f.Short
  | fallback _ => True
  | event e => e.Short

/-- Names, lists and the payloads of defaults are no longer than what is read. -/
def Api.Short (api : Api) : Prop :=
  api.methods.length ≤ Format.maxLength ∧ ∀ m ∈ api.methods, m.Short

theorem TypeTag.readable (t : TypeTag) : format.Readable t :=
  Format.readable_word 1 UInt8.toNat UInt8.ofNat t.code

theorem Param.readable_iff (p : Param) : format.Readable p ↔ p.Short := by
  refine (Format.readable_pair .text (TypeTag.format.pair TypedBytes.format.option)
    (p.name, p.type, p.default?)).trans ?_
  simp only [Format.readable_pair, Format.readable_text, Format.readable_option,
    TypedBytes.readable_iff, TypeTag.readable, true_and, Short]

theorem FunctionDecl.readable_iff (f : FunctionDecl) : format.Readable f ↔ f.Short := by
  refine (Format.readable_pair .text
    (Format.u32.pair (Param.format.list.pair TypeTag.format.list))
    (f.name, f.flags, f.inputs, f.outputs)).trans ?_
  simp [Format.readable_pair, Format.readable_text, Format.readable_list, Format.u32,
    Param.readable_iff, TypeTag.readable, Short]

theorem EventDecl.readable_iff (e : EventDecl) : format.Readable e ↔ e.Short := by
  refine (Format.readable_pair .text (Format.u32.pair (Format.u64.pair Param.format.list))
    (e.name, e.flags, e.indexed, e.params)).trans ?_
  simp [Format.readable_pair, Format.readable_text, Format.readable_list, Format.u32, Format.u64,
    Param.readable_iff, Short]

theorem Method.readable_iff (m : Method) : format.Readable m ↔ m.Short := by
  cases m with
  | function f => exact f.readable_iff
  | fallback flags => exact iff_of_true (fun _ mem => absurd mem List.not_mem_nil) trivial
  | event e => exact e.readable_iff

namespace Api

theorem readable_iff (api : Api) : format.Readable api ↔ api.Short := by
  refine (Format.readable_list Method.format api.methods).trans ?_
  simp only [Method.readable_iff, Short]

theorem deserialize_of_decodeAll_ok {bytes : Bytes} {api : Api}
    (h : format.decodeAll bytes = .ok api) : deserialize bytes = api.validated := by
  rw [deserialize, h]
  rfl

/-- The methods are read as they were written, and then added one by one. -/
theorem deserialize_serialize {api : Api} (short : api.Short) :
    deserialize api.serialize = ofMethods api.methods := by
  have readable := api.readable_iff.mpr short
  apply deserialize_of_decodeAll_ok
  rw [serialize, lawful_format.decodeAll_encode readable.expressible, if_pos readable]

theorem of_deserialize_ok {bytes : Bytes} {api : Api} (h : deserialize bytes = .ok api) :
    api.Short ∧ api.WellFormed ∧ api.serialize = bytes := by
  obtain ⟨raw, parsed, checked⟩ := of_bind_mapError_ok h
  have formed := raw.settles_validated
  by_cases sound : raw.WellFormed
  · obtain rfl := Except.ok.inj ((formed.ok sound).symm.trans checked)
    obtain ⟨readable, same⟩ := lawful_format.of_decodeAll_ok parsed
    exact ⟨raw.readable_iff.mp readable, sound, same⟩
  · obtain ⟨e, refused, -⟩ := formed.error sound
    rw [refused] at checked
    cases checked

/-- An API that can be built is read back from its bytes, in the order of its methods. From the
bytes of methods that cannot be added one by one nothing is read, for the same fault. And whatever
is read can be built, and has just the bytes that it was read from. -/
theorem deserialize_exact :
    (∀ api : Api, api.Short → api.WellFormed → deserialize api.serialize = .ok api) ∧
    (∀ (api : Api) (e : ApiError), api.Short → ofMethods api.methods = .error e →
      deserialize api.serialize = .error e ∧ ∃ fault, e = .invalid fault) ∧
    ∀ (bytes : Bytes) (api : Api), deserialize bytes = .ok api →
      ofMethods api.methods = .ok api ∧ api.Short ∧ api.WellFormed ∧ api.serialize = bytes := by
  refine ⟨fun api short formed => ?_, fun api e short refused => ?_, fun bytes api read => ?_⟩
  · rw [deserialize_serialize short]
    exact api.settles_validated.ok formed
  · rw [deserialize_serialize short]
    exact ⟨refused, (api.settles_validated.of_eq_error refused).2⟩
  · obtain ⟨short, formed, same⟩ := of_deserialize_ok read
    exact ⟨api.settles_validated.ok formed, short, formed, same⟩

/-- An input with a default is read behind a required one; the other way round it is refused. -/
theorem deserialize_exact_optional :
    let account : Param := { name := "to", type := .address }
    let amount : Param := { name := "amount", type := .integer, default? := some ⟨11, [5]⟩ }
    let api : Api := ⟨[.function ⟨"mint", 2, [account, amount], [.bool]⟩, .fallback 4]⟩
    let forged : Api := ⟨[.fallback 4, .function ⟨"mint", 2, [amount, account], [.bool]⟩]⟩
    api.Short ∧ api.WellFormed ∧ deserialize api.serialize = .ok api ∧
      ofMethods api.methods = .ok api ∧ forged.Short ∧
      deserialize forged.serialize =
        .error (.invalid (.requiredAfterOptional "mint" "amount")) := by
  intro account amount api forged
  obtain ⟨sound, refused, exact⟩ := deserialize_exact
  have short : api.Short := api.readable_iff.mp (by decide)
  have formed : api.WellFormed := api.settles_validated.eq_ok_iff.mp (by decide +kernel)
  have read := sound api short formed
  have forgedShort : forged.Short := forged.readable_iff.mp (by decide)
  have fault : ofMethods forged.methods =
      .error (.invalid (.requiredAfterOptional "mint" "amount")) := by decide +kernel
  exact ⟨short, formed, read, (exact _ _ read).1, forgedShort,
    (refused forged _ forgedShort fault).1⟩

end Api

end ContractLink
