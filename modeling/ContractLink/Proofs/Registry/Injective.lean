import ContractLink.Proofs.Registry.Encode
import ContractLink.Proofs.Integer
import ContractLink.Proofs.Wire.SelfDelimiting
/-!
No two values have one wire form. The tag settles the handler and with it the kind of the value, so
a custom value is never taken for a built-in one; the payload then settles the value, at any depth
of nesting and for every length that can be written at all.
-/
namespace ContractLink

namespace Handler

/-- Two values of one handler and one tag are the same when their payloads are, as far as this holds
of their children. -/
theorem eq_of_payload_eq {handler : Handler} {v w : Value} (suits : handler.Suits v)
    (suits' : handler.Suits w) (tags : v.kind.tag = w.kind.tag)
    (fits : ∀ n ∈ v.ownLengths, n < 2 ^ 64) (fits' : ∀ n ∈ w.ownLengths, n < 2 ^ 64)
    (each : ∀ c ∈ v.children, ∀ d ∈ w.children, c.typed = d.typed → c = d)
    (same : v.payload = w.payload) : v = w := by
  cases handler <;> cases v <;> (try cases suits) <;> cases w <;> try cases suits'
  case nil => rfl
  case integer v w => rw [Int128.toBytes_injective same]
  case bytes d e => exact congrArg Value.bytes same
  case text s t => rw [Bytes.ofText_injective same]
  case bool b c => cases b <;> cases c <;> first | rfl | cases same
  case address a b => rw [Address.toBytes_injective same]
  case list items others =>
    rw [Value.payload_list, Value.payload_list] at same
    have elements := selfDelimiting_listFormat.eq_of_encode_eq fits fits' same
    rw [eq_of_map_eq_map elements each]
  case dict entries others =>
    rw [Value.payload_dict, Value.payload_dict] at same
    have elements := selfDelimiting_dictFormat.eq_of_encode_eq fits fits' same
    congr 1
    refine eq_of_map_eq_map elements fun e mem f mem' equal => ?_
    obtain ⟨keys, typed⟩ := Prod.mk.inj equal
    exact Prod.ext keys (each _ (List.mem_map_of_mem mem) _ (List.mem_map_of_mem mem') typed)
  case custom width tag data other more =>
    obtain rfl : tag = other := tags
    exact congrArg (Value.custom tag) same

end Handler

namespace Registry

variable {registry : Registry}

/-- Values covered by one registry are the same when they travel as the same bytes. -/
theorem eq_of_typed_eq {v w : Value} (covers : registry.Covers v) (covers' : registry.Covers w)
    (fits : v.Expressible) (fits' : w.Expressible) (same : v.typed = w.typed) : v = w := by
  induction v using Value.childInduction generalizing w with
  | step v ih =>
    obtain ⟨tags, payloads⟩ := TypedBytes.mk.inj same
    obtain ⟨found, suits, children⟩ := covers
    obtain ⟨found', suits', children'⟩ := covers'
    rw [tags, found'] at found
    obtain rfl := Option.some.inj found
    obtain ⟨own, inner⟩ := Value.forall_mem_lengths.mp fits
    obtain ⟨own', inner'⟩ := Value.forall_mem_lengths.mp fits'
    have each : ∀ c ∈ v.children, ∀ d ∈ w.children, c.typed = d.typed → c = d :=
      fun c mem d mem' => ih c mem (children c mem) (children' d mem') (inner c mem) (inner' d mem')
    exact Handler.eq_of_payload_eq suits suits' tags own own' each payloads

/-- Of two different values that a registry writes, nested at any depth and with lengths up to the
size of a machine word, the tags differ or the payloads do. -/
theorem encode_distinct (registry : Registry) (v w : Value) (different : v ≠ w)
    (fits : v.Expressible) (fits' : w.Expressible) (t u : TypedBytes)
    (written : registry.encode v = .ok t) (written' : registry.encode w = .ok u) :
    t.tag ≠ u.tag ∨ t.data ≠ u.data := by
  obtain ⟨covers, rfl⟩ := encode_eq_ok_iff.mp written
  obtain ⟨covers', rfl⟩ := encode_eq_ok_iff.mp written'
  by_contra same
  obtain ⟨tags, payloads⟩ := not_or.mp same
  have typed : v.typed = w.typed :=
    TypedBytes.mk.injEq .. ▸ ⟨not_not.mp tags, not_not.mp payloads⟩
  exact different (eq_of_typed_eq covers covers' fits fits' typed)

end Registry

namespace Value

/-- The value inside that many lists of one element. -/
def enclosed : Nat → Value → Value
  | 0, value => value
  | levels + 1, value => list [enclosed levels value]

theorem length_payload_singleton (value : Value) :
    (list [value]).payload.length = 17 + value.payload.length := by
  have typed : (TypedBytes.format.encode value.typed).length = 9 + value.payload.length := by
    simp only [TypedBytes.format, Value.typed, Format.encode_via, Format.encode_pair, Format.u8,
      Format.encode_word, List.length_append, Bytes.length_littleEndian, Format.length_encode_blob]
    omega
  simp only [payload_list, Handler.listFormat, Format.encode_list, Format.encode_u64, List.map_cons,
    List.map_nil, List.flatMap_singleton, List.length_append, Bytes.length_littleEndian, typed]
  omega

theorem length_payload_enclosed (levels : Nat) (value : Value) :
    (value.enclosed levels).payload.length = 17 * levels + value.payload.length := by
  induction levels with
  | zero => simp [enclosed]
  | succ levels ih =>
    rw [enclosed, length_payload_singleton, ih]
    omega

theorem expressible_enclosed {levels : Nat} {value : Value}
    (short : 17 * levels + value.payload.length ≤ Format.maxLength) :
    (value.enclosed levels).Expressible := by
  rw [← length_payload_enclosed] at short
  exact (readable_of_length_payload_le short).expressible

end Value

namespace Registry

theorem Covers.enclosed {registry : Registry} {value : Value} (covers : registry.Covers value)
    (found : registry.handler? TypeTag.list.code = some .list) (levels : Nat) :
    registry.Covers (value.enclosed levels) := by
  induction levels with
  | zero => exact covers
  | succ levels ih => exact .node found trivial (List.forall_mem_singleton.mpr ih)

/-- Lists nested deeper than what is read, with different values at the bottom. -/
theorem encode_distinct_deep :
    let v := Value.nil.enclosed 70
    let w := (Value.bool true).enclosed 70
    maxNesting < v.nesting ∧ standard.encode v = .ok v.typed ∧ standard.encode w = .ok w.typed ∧
      (v.typed.tag ≠ w.typed.tag ∨ v.typed.data ≠ w.typed.data) := by
  have nil : standard.Covers .nil := @Covers.node _ _ .nil rfl trivial nofun
  have bool : standard.Covers (.bool true) := @Covers.node _ _ .bool rfl trivial nofun
  have written := encode_eq_ok_iff.mpr ⟨nil.enclosed rfl 70, rfl⟩
  have written' := encode_eq_ok_iff.mpr ⟨bool.enclosed rfl 70, rfl⟩
  have different : Value.nil.enclosed 70 ≠ (Value.bool true).enclosed 70 := by decide +kernel
  refine ⟨by decide +kernel, written, written', ?_⟩
  exact encode_distinct standard _ _ different (Value.expressible_enclosed (by decide))
    (Value.expressible_enclosed (by decide)) _ _ written written'

end Registry

end ContractLink
