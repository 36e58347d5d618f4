import ContractLink.Proofs.Integer
import ContractLink.Proofs.Registry.Encode
import ContractLink.Proofs.Value.Dict
/-!
What reading a payload can give. Each handler reads values of its own kind only, and every child of
the value is read from one of the payloads inside; so a registry reads nothing nested too deep, and
no dictionary out of order.
-/
namespace ContractLink

namespace Handler

variable {element : UInt8 → Bytes → Except CodecError Value} {tag : UInt8} {handler : Handler}
  {data : Bytes} {value : Value}

theorem lawful_listFormat : listFormat.Lawful := TypedBytes.lawful_format.list

theorem lawful_dictFormat : dictFormat.Lawful :=
  (Format.lawful_text.pair TypedBytes.lawful_format).list

theorem decode_list (element : UInt8 → Bytes → Except CodecError Value) (tag : UInt8)
    (data : Bytes) :
    list.decode element tag data = (listFormat.decodeAll data).mapError .nested >>= fun items =>
      Value.list <$> items.mapM fun item => element item.tag item.data := by
  unfold decode
  congr 1

theorem decode_dict (element : UInt8 → Bytes → Except CodecError Value) (tag : UInt8)
    (data : Bytes) :
    dict.decode element tag data = (dictFormat.decodeAll data).mapError .nested >>= fun entries =>
      Value.dict <$> entries.foldlM (addEntry element tag) [] := by
  unfold decode
  congr 1

/-- What a handler makes of a payload it accepts. -/
inductive Reads (element : UInt8 → Bytes → Except CodecError Value) (tag : UInt8) :
    Handler → Bytes → Value → Prop
  | nil : Reads element tag nil [] .nil
  | integer {data : Bytes} {v : Int128} (read : Int128.ofBytes? data = some v) :
      Reads element tag integer data (.integer v)
  | bytes (data : Bytes) : Reads element tag bytes data (.bytes data)
  | text (s : String) : Reads element tag text (Bytes.ofText s) (.text s)
  | bool (b : Bool) : Reads element tag bool [if b then 1 else 0] (.bool b)
  | address (a : Address) : Reads element tag address a.toBytes (.address a)
  | list {data : Bytes} {items : List TypedBytes} {values : List Value}
      (parsed : listFormat.decodeAll data = .ok items)
      (read : List.Forall₂ (fun item v => element item.tag item.data = .ok v) items values) :
      Reads element tag list data (.list values)
  | dict {data : Bytes} {entries : List (String × TypedBytes)} {read : List (String × Value)}
      (parsed : dictFormat.decodeAll data = .ok entries)
      (reads : List.Forall₂ (fun entry found => readEntry element entry = .ok found) entries read) :
      Reads element tag dict data (.dict (Dict.ofList read))
  | custom {width : Option Nat} {data : Bytes} (wide : ∀ w ∈ width, data.length = w) :
      Reads element tag (custom width) data (.custom tag data)

theorem reads_of_decode_ok (h : handler.decode element tag data = .ok value) :
    Reads element tag handler data value := by
  cases handler with
  | nil =>
    by_cases empty : data = []
    · obtain rfl : Value.nil = value := by simpa [decode, empty] using h
      exact empty ▸ .nil
    · simp [decode, empty] at h
  | integer =>
    cases read : Int128.ofBytes? data with
    | none => simp [decode, read] at h
    | some v =>
      obtain rfl : Value.integer v = value := by simpa [decode, read] using h
      exact .integer read
  | bytes =>
    obtain rfl := Except.ok.inj h
    exact .bytes data
  | text =>
    cases read : Bytes.toText? data with
    | none => simp [decode, Utf8.decode, read] at h
    | some s =>
      obtain rfl : Value.text s = value := by simpa [decode, Utf8.decode, read] using h
      obtain rfl := Bytes.ofText_of_toText? read
      exact .text s
  | bool =>
    by_cases zero : data = [0]
    · obtain rfl : Value.bool false = value := by simpa [decode, zero] using h
      exact zero ▸ .bool false
    by_cases one : data = [1]
    · obtain rfl : Value.bool true = value := by simpa [decode, one] using h
      exact one ▸ .bool true
    · simp [decode, zero, one] at h
  | address =>
    obtain ⟨a, read, rfl⟩ := of_map_eq_ok h
    cases found : Address.ofBytes data with
    | error e => rw [found] at read; cases read
    | ok b =>
      rw [found] at read
      obtain rfl := Except.ok.inj read
      exact Address.toBytes_of_ofBytes found ▸ .address b
  | list =>
    rw [decode_list] at h
    obtain ⟨items, parsed, rest⟩ := of_bind_mapError_ok h
    obtain ⟨values, traversed, rfl⟩ := of_map_eq_ok rest
    exact .list parsed (forall₂_of_mapM_ok traversed)
  | dict =>
    rw [decode_dict] at h
    obtain ⟨entries, parsed, rest⟩ := of_bind_mapError_ok h
    obtain ⟨dict, built, rfl⟩ := of_map_eq_ok rest
    obtain ⟨-, read, traversed, rfl⟩ := of_foldlM_addEntry_ok built
    exact .dict parsed (forall₂_of_mapM_ok traversed)
  | custom width =>
    cases checked : checkWidth width tag data with
    | error e =>
      simp only [decode, checked] at h
      cases h
    | ok u =>
      simp only [decode, checked] at h
      obtain rfl := Except.ok.inj h
      exact .custom (checkWidth_eq_ok_iff.mp checked)

namespace Reads

theorem suits (h : Reads element tag handler data value) : handler.Suits value := by
  cases h with
  | custom wide => exact wide
  | _ => exact trivial

/-- Each child of the value is read from a payload inside. -/
theorem children (h : Reads element tag handler data value) :
    ∀ c ∈ value.children, ∃ inner : TypedBytes, element inner.tag inner.data = .ok c := by
  intro c mem
  cases h with
  | list parsed read =>
    obtain ⟨item, -, read⟩ := exists_of_forall₂ read c mem
    exact ⟨item, read⟩
  | dict parsed reads =>
    obtain ⟨e, inside, rfl⟩ := List.mem_map.mp mem
    obtain ⟨entry, -, found⟩ := exists_of_forall₂ reads e (Dict.mem_of_mem_ofList inside)
    obtain ⟨value, read, rfl⟩ := of_map_eq_ok found
    exact ⟨entry.2, read⟩
  | _ => exact absurd mem List.not_mem_nil

theorem ordered (h : Reads element tag handler data value)
    (children : ∀ c ∈ value.children, c.Ordered) : value.Ordered := by
  cases h with
  | list => exact Value.orderedItems_iff.mpr children
  | dict => exact ⟨Dict.increasing_ofList _, Value.orderedEntries_iff.mpr children⟩
  | _ => exact trivial

end Reads

end Handler

namespace Registry

variable {registry : Registry} {levels : Nat} {tag : UInt8} {data : Bytes} {value : Value}

theorem decodeWithin_of_found {handler : Handler} (found : registry.handler? tag = some handler) :
    registry.decodeWithin (levels + 1) tag data =
      handler.decode (registry.decodeWithin levels) tag data := by
  simp only [decodeWithin, found]

/-- A value is read by the handler of its tag, its children at one level less. -/
theorem of_decodeWithin_ok (h : registry.decodeWithin levels tag data = .ok value) :
    ∃ inner handler, levels = inner + 1 ∧ registry.handler? tag = some handler ∧
      Handler.Reads (registry.decodeWithin inner) tag handler data value := by
  cases levels with
  | zero => cases h
  | succ inner =>
    cases found : registry.handler? tag with
    | none => simp [decodeWithin, found] at h
    | some handler =>
      rw [decodeWithin_of_found found] at h
      exact ⟨inner, handler, rfl, rfl, Handler.reads_of_decode_ok h⟩

theorem nesting_lt_of_decodeWithin_ok (h : registry.decodeWithin levels tag data = .ok value) :
    value.nesting < levels := by
  induction levels generalizing tag data value with
  | zero => cases h
  | succ levels ih =>
    obtain ⟨_, handler, ⟨⟩, found, reads⟩ := of_decodeWithin_ok h
    refine Nat.lt_succ_of_le (Value.nesting_le_iff.mpr fun c mem => ?_)
    obtain ⟨inner, read⟩ := reads.children c mem
    exact ih read

theorem ordered_of_decodeWithin_ok (h : registry.decodeWithin levels tag data = .ok value) :
    value.Ordered := by
  induction levels generalizing tag data value with
  | zero => cases h
  | succ levels ih =>
    obtain ⟨_, handler, ⟨⟩, found, reads⟩ := of_decodeWithin_ok h
    apply reads.ordered
    intro c mem
    obtain ⟨inner, read⟩ := reads.children c mem
    exact ih read

end Registry

end ContractLink
