import ContractLink.Registry.Basic
import ContractLink.Proofs.Traversal
import ContractLink.Proofs.Value.Tree
/-!
What a registry writes. A value is written exactly when each of its nodes has, under the tag of its
kind, a handler of that kind, and the payload is then the same for every registry.
-/
namespace ContractLink

namespace Handler

theorem checkWidth_eq_ok_iff {width : Option Nat} {tag : UInt8} {data : Bytes} {u : Unit} :
    checkWidth width tag data = .ok u ↔ ∀ w ∈ width, data.length = w := by
  cases width with
  | none => simp [checkWidth]
  | some w => simp [checkWidth]

/-- The handler is one for the kind of the value, and of its width. -/
def Suits : Handler → Value → Prop
  | .nil, .nil => True
  | .integer, .integer _ => True
  | .bytes, .bytes _ => True
  | .text, .text _ => True
  | .bool, .bool _ => True
  | .address, .address _ => True
  | .list, .list _ => True
  | .dict, .dict _ => True
  | .custom width, .custom _ data => ∀ w ∈ width, data.length = w
  | _, _ => False

end Handler

namespace Registry

variable {registry : Registry}

/-- Every node of the value has a handler that suits it. -/
inductive Covers (registry : Registry) : Value → Prop
  | node {value : Value} {handler : Handler}
      (found : registry.handler? value.kind.tag = some handler)
      (suits : handler.Suits value) (children : ∀ c ∈ value.children, Covers registry c) :
      Covers registry value

theorem encodeItems_eq_mapM (registry : Registry) (items : List Value) :
    registry.encodeItems items = items.mapM registry.encode := by
  induction items with
  | nil => rfl
  | cons value rest ih => rw [encodeItems_cons, ih, List.mapM_cons]

theorem encodeEntries_eq_mapM (registry : Registry) (entries : List (String × Value)) :
    registry.encodeEntries entries =
      entries.mapM fun e => (fun typed => (e.1, typed)) <$> registry.encode e.2 := by
  induction entries with
  | nil => rfl
  | cons entry rest ih =>
    rw [encodeEntries_cons, ih, List.mapM_cons]
    cases registry.encode entry.2 <;> rfl

theorem encode_of_found {value : Value} {handler : Handler}
    (found : registry.handler? value.kind.tag = some handler) :
    registry.encode value =
      (fun data => ⟨value.kind.tag, data⟩) <$> registry.payload handler value := by
  simp only [encode, found]
  cases registry.payload handler value <;> rfl

/-- Only a handler that suits the value makes a payload of it. -/
theorem suits_of_payload {handler : Handler} {value : Value} {data : Bytes}
    (h : registry.payload handler value = .ok data) : handler.Suits value := by
  cases handler <;> cases value <;> simp only [payload, Handler.Suits] at h ⊢ <;> try cases h
  case custom width tag bytes =>
    cases checked : Handler.checkWidth width tag bytes with
    | error e => rw [checked] at h; cases h
    | ok u => exact Handler.checkWidth_eq_ok_iff.mp checked

/-- A payload contains every element of the value. -/
theorem encode_children_of_payload {handler : Handler} {value : Value} {data : Bytes}
    (h : registry.payload handler value = .ok data) :
    ∀ c ∈ value.children, ∃ t, registry.encode c = .ok t := by
  have suits := suits_of_payload h
  cases value with
  | list items =>
    cases handler <;> try cases suits
    simp only [payload, encodeItems_eq_mapM] at h
    obtain ⟨typed, written, -⟩ := of_map_eq_ok h
    exact exists_ok_of_mapM_ok written
  | dict entries =>
    cases handler <;> try cases suits
    simp only [payload, encodeEntries_eq_mapM] at h
    obtain ⟨typed, written, -⟩ := of_map_eq_ok h
    intro c mem
    obtain ⟨entry, inside, rfl⟩ := List.mem_map.mp mem
    obtain ⟨_, encoded⟩ := exists_ok_of_mapM_ok written entry inside
    obtain ⟨t, encoded, -⟩ := of_map_eq_ok encoded
    exact ⟨t, encoded⟩
  | _ => exact fun c mem => absurd mem List.not_mem_nil

/-- A handler that suits the value makes the payload of it, if every element is written. -/
theorem payload_of_suits {handler : Handler} {value : Value} (suits : handler.Suits value)
    (children : ∀ c ∈ value.children, registry.encode c = .ok c.typed) :
    registry.payload handler value = .ok value.payload := by
  cases value with
  | list items =>
    cases handler <;> try cases suits
    have written : registry.encodeItems items = .ok (items.map Value.typed) := by
      rw [encodeItems_eq_mapM]
      exact mapM_eq_ok_map children
    simp only [payload, written, Value.payload_list]
    rfl
  | dict entries =>
    cases handler <;> try cases suits
    have written : registry.encodeEntries entries = .ok (entries.map Value.typedEntry) := by
      rw [encodeEntries_eq_mapM]
      apply mapM_eq_ok_map
      intro e mem
      rw [children e.2 (List.mem_map_of_mem mem)]
      rfl
    simp only [payload, written, Value.payload_dict]
    rfl
  | custom tag data =>
    cases handler <;> try cases suits
    next width =>
      have checked : Handler.checkWidth width tag data = .ok () :=
        Handler.checkWidth_eq_ok_iff.mpr suits
      simp only [payload, checked, Value.payload]
      rfl
  | _ =>
    cases handler <;> try cases suits
    rfl

/-- A value is written exactly when the registry covers it, as every such registry writes it. -/
theorem encode_eq_ok_iff {value : Value} {t : TypedBytes} :
    registry.encode value = .ok t ↔ registry.Covers value ∧ t = value.typed := by
  induction value using Value.childInduction generalizing t with
  | step value ih =>
    constructor
    · intro h
      cases found : registry.handler? value.kind.tag with
      | none => simp [encode, found] at h
      | some handler =>
        rw [encode_of_found found] at h
        obtain ⟨data, written, rfl⟩ := of_map_eq_ok h
        have suits := suits_of_payload written
        have children : ∀ c ∈ value.children,
            registry.Covers c ∧ registry.encode c = .ok c.typed := by
          intro c mem
          obtain ⟨t, encoded⟩ := encode_children_of_payload written c mem
          obtain ⟨covers, rfl⟩ := (ih c mem).mp encoded
          exact ⟨covers, encoded⟩
        have same := payload_of_suits suits fun c mem => (children c mem).2
        rw [written] at same
        exact ⟨.node found suits fun c mem => (children c mem).1,
          congrArg _ (Except.ok.inj same)⟩
    · rintro ⟨covers, rfl⟩
      cases covers with
      | node found suits children =>
        rw [encode_of_found found,
          payload_of_suits suits fun c mem => (ih c mem).mpr ⟨children c mem, rfl⟩]
        rfl

end Registry

end ContractLink
