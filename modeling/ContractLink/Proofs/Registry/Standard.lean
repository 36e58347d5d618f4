import ContractLink.Proofs.Registry.Decode
/-!
The standard registry: each built-in kind has its own handler, under its own tag. What it reads it
can write, under the tag it was read from.
-/
namespace ContractLink

theorem TypeTag.code_injective {a b : TypeTag} (same : a.code = b.code) : a = b := by
  have found := ofCode?_code a
  rw [same, ofCode?_code] at found
  exact (Option.some.inj found).symm

namespace Handler

/-- The built-in kind whose values a handler reads. -/
def kind? : Handler → Option TypeTag
  | nil => some .nil
  | integer => some .integer
  | bytes => some .bytes
  | text => some .text
  | bool => some .bool
  | address => some .address
  | list => some .list
  | dict => some .dict
  | custom _ => none

theorem Suits.kind_eq {handler : Handler} {value : Value} (suits : handler.Suits value)
    {kind : TypeTag} (builtin : handler.kind? = some kind) : value.kind = .builtin kind := by
  cases handler <;> cases value <;> try cases suits
  all_goals cases builtin <;> rfl

end Handler

namespace Registry

variable {levels : Nat} {tag : UInt8} {data : Bytes} {value : Value} {handler : Handler}

/-- Every handler stands under the tag of a built-in kind and is one for that kind. -/
def Builtin (registry : Registry) : Prop :=
  ∀ tag handler, registry.handler? tag = some handler →
    ∃ kind, handler.kind? = some kind ∧ kind.code = tag

theorem Builtin.register {registry : Registry} (builtin : registry.Builtin) {kind : TypeTag}
    (own : handler.kind? = some kind) : (registry.register kind.code handler).Builtin := by
  intro tag other found
  simp only [Registry.register] at found
  split at found
  next same =>
    obtain rfl := Option.some.inj found
    exact ⟨kind, own, same.symm⟩
  next => exact builtin tag other found

theorem standard_builtin : standard.Builtin := by
  have none : empty.Builtin := nofun
  exact none.register rfl |>.register rfl |>.register rfl |>.register rfl |>.register rfl
    |>.register rfl |>.register rfl |>.register rfl

theorem standard_handler? (kind : TypeTag) :
    ∃ handler, standard.handler? kind.code = some handler ∧ handler.kind? = some kind := by
  cases kind <;> exact ⟨_, rfl, rfl⟩

theorem kind_tag_of_standard_reads {element : UInt8 → Bytes → Except CodecError Value}
    (found : standard.handler? tag = some handler)
    (reads : Handler.Reads element tag handler data value) : value.kind.tag = tag := by
  obtain ⟨kind, builtin, rfl⟩ := standard_builtin _ _ found
  rw [reads.suits.kind_eq builtin]
  rfl

theorem kind_tag_of_standard_decodeWithin_ok
    (h : standard.decodeWithin levels tag data = .ok value) : value.kind.tag = tag := by
  obtain ⟨_, handler, -, found, reads⟩ := of_decodeWithin_ok h
  exact kind_tag_of_standard_reads found reads

theorem covers_of_standard_decodeWithin_ok
    (h : standard.decodeWithin levels tag data = .ok value) : standard.Covers value := by
  induction levels generalizing tag data value with
  | zero => cases h
  | succ levels ih =>
    obtain ⟨_, handler, ⟨⟩, found, reads⟩ := of_decodeWithin_ok h
    have same := kind_tag_of_standard_reads found reads
    refine .node (same ▸ found) reads.suits fun c mem => ?_
    obtain ⟨inner, read⟩ := reads.children c mem
    exact ih read

end Registry

end ContractLink
