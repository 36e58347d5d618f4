import ContractLink.Proofs.Registry.RoundTrip
import ContractLink.Proofs.Registry.Standard
import ContractLink.Proofs.Text.Order
/-!
Normal payloads. The standard registry reads more than it writes: an integer may repeat its sign or
have no bytes at all, and the entries of a dictionary may come in any order. A payload is normal
when it does neither anywhere inside, and just the normal payloads are written again as they were.
-/
namespace ContractLink

namespace TypedBytes

/-- Every integer inside is as short as it can be, and the keys of every dictionary inside increase
in the order of their UTF-8 bytes. -/
inductive Normal : TypedBytes → Prop
  | node {typed : TypedBytes}
      (integer : typed.tag = TypeTag.integer.code → Int128.Shortest typed.data)
      (items : typed.tag = TypeTag.list.code → ∀ items,
        Handler.listFormat.decodeAll typed.data = .ok items → ∀ item ∈ items, Normal item)
      (keys : typed.tag = TypeTag.dict.code → ∀ entries,
        Handler.dictFormat.decodeAll typed.data = .ok entries →
          entries.Pairwise fun e f => Bytes.ofText e.1 < Bytes.ofText f.1)
      (entries : typed.tag = TypeTag.dict.code → ∀ entries,
        Handler.dictFormat.decodeAll typed.data = .ok entries → ∀ e ∈ entries, Normal e.2) :
      Normal typed

variable {data : Bytes}

theorem normal_iff {kind : TypeTag} :
    Normal ⟨kind.code, data⟩ ↔
      (kind = .integer → Int128.Shortest data) ∧
      (kind = .list → ∀ items, Handler.listFormat.decodeAll data = .ok items →
        ∀ item ∈ items, item.Normal) ∧
      (kind = .dict → ∀ entries, Handler.dictFormat.decodeAll data = .ok entries →
        Dict.Increasing entries ∧ ∀ e ∈ entries, e.2.Normal) := by
  have order : ∀ entries : List (String × TypedBytes), Dict.Increasing entries ↔
      entries.Pairwise fun e f => Bytes.ofText e.1 < Bytes.ofText f.1 := fun entries => by
    simp only [Bytes.ofText_lt_ofText_iff, Dict.Increasing]
  simp only [order]
  constructor
  · rintro ⟨integer, inside, keys, entries⟩
    refine ⟨?_, ?_, ?_⟩ <;> rintro rfl
    · exact integer rfl
    · exact inside rfl
    · exact fun found parsed => ⟨keys rfl found parsed, entries rfl found parsed⟩
  · rintro ⟨integer, inside, dict⟩
    refine .node (fun same => integer (TypeTag.code_injective same))
      (fun same => inside (TypeTag.code_injective same)) ?_ ?_
    · exact fun same found parsed => (dict (TypeTag.code_injective same) found parsed).1
    · exact fun same found parsed => (dict (TypeTag.code_injective same) found parsed).2

theorem normal_integer_iff : Normal ⟨TypeTag.integer.code, data⟩ ↔ Int128.Shortest data := by
  simp [normal_iff]

theorem normal_list_iff {items : List TypedBytes}
    (parsed : Handler.listFormat.decodeAll data = .ok items) :
    Normal ⟨TypeTag.list.code, data⟩ ↔ ∀ item ∈ items, item.Normal := by
  simp [normal_iff, parsed]

theorem normal_dict_iff {entries : List (String × TypedBytes)}
    (parsed : Handler.dictFormat.decodeAll data = .ok entries) :
    Normal ⟨TypeTag.dict.code, data⟩ ↔
      Dict.Increasing entries ∧ ∀ e ∈ entries, e.2.Normal := by
  simp [normal_iff, parsed]

end TypedBytes

namespace Handler

theorem length_encode_typedBytes_le {typed : TypedBytes}
    (readable : TypedBytes.format.Readable typed) :
    (TypedBytes.format.encode typed).length ≤ 9 + Format.maxLength := by
  obtain ⟨-, readable⟩ := (Format.readable_pair .u8 .blob (typed.tag, typed.data)).mp readable
  have data := Format.length_encode_blob_le readable
  have tag : (Format.u8.encode typed.tag).length = 1 := by simp [Format.u8]
  show ((Format.u8.pair .blob).encode (typed.tag, typed.data)).length ≤ _
  rw [Format.encode_pair, List.length_append]
  dsimp only at data ⊢
  omega

theorem length_encode_entry_le {entry : String × TypedBytes}
    (readable : (Format.text.pair TypedBytes.format).Readable entry) :
    ((Format.text.pair TypedBytes.format).encode entry).length ≤ 17 + 2 * Format.maxLength := by
  obtain ⟨key, typed⟩ := (Format.readable_pair ..).mp readable
  have key := Format.length_encode_text_le key
  have typed := length_encode_typedBytes_le typed
  rw [Format.encode_pair, List.length_append]
  omega

theorem length_encode_listFormat_lt {items : List TypedBytes}
    (readable : listFormat.Readable items) : (listFormat.encode items).length < 2 ^ 64 :=
  Format.length_encode_list_lt readable (fun _ => length_encode_typedBytes_le) (by decide)

theorem length_encode_dictFormat_lt {entries : List (String × TypedBytes)}
    (readable : dictFormat.Readable entries) : (dictFormat.encode entries).length < 2 ^ 64 :=
  Format.length_encode_list_lt readable (fun _ => length_encode_entry_le) (by decide)

end Handler

namespace Registry

variable {levels : Nat}

theorem typed_eq_iff {value : Value} {typed : TypedBytes} (same : value.kind.tag = typed.tag) :
    value.typed = typed ↔ value.payload = typed.data := by
  cases typed
  simp only [Value.typed, TypedBytes.mk.injEq, same, true_and]

/-- Entries that are put in order stay as they were only when they were in order. -/
theorem ofList_map_typedEntry_eq_iff {entries : List (String × TypedBytes)}
    {found : List (String × Value)} (keys : found.map (·.1) = entries.map (·.1)) :
    (Dict.ofList found).map Value.typedEntry = entries ↔
      Dict.Increasing entries ∧ found.map Value.typedEntry = entries := by
  have order : Dict.Increasing found ↔ Dict.Increasing entries := by
    rw [Dict.increasing_iff_keys, keys, Dict.increasing_iff_keys]
  constructor
  · intro same
    have increasing : Dict.Increasing entries := by
      rw [← same]
      exact List.pairwise_map.mpr (Dict.increasing_ofList found)
    rw [Dict.ofList_of_increasing (order.mpr increasing)] at same
    exact ⟨increasing, same⟩
  · rintro ⟨increasing, same⟩
    rw [Dict.ofList_of_increasing (order.mpr increasing)]
    exact same

/-- A payload read by the standard registry is the payload of its value when it is normal. -/
theorem payload_eq_iff_normal {typed : TypedBytes} {value : Value}
    (h : standard.decodeWithin levels typed.tag typed.data = .ok value) :
    value.payload = typed.data ↔ typed.Normal := by
  induction levels generalizing typed value with
  | zero => cases h
  | succ levels ih =>
    have child : ∀ (inner : TypedBytes) (value : Value),
        standard.decodeWithin levels inner.tag inner.data = .ok value →
          (value.typed = inner ↔ inner.Normal) := fun inner value read =>
      (typed_eq_iff (kind_tag_of_standard_decodeWithin_ok read)).trans (ih read)
    obtain ⟨_, handler, ⟨⟩, found, reads⟩ := of_decodeWithin_ok h
    obtain ⟨kind, builtin, code⟩ := standard_builtin _ _ found
    obtain ⟨tag, data⟩ := typed
    dsimp only at code reads ⊢
    subst code
    cases reads with
    | @integer data v read =>
      cases builtin
      rw [Value.payload, TypedBytes.normal_integer_iff, Int128.shortest_iff read]
    | @list data items values parsed read =>
      cases builtin
      obtain ⟨readable, rfl⟩ := Handler.lawful_listFormat.of_decodeAll_ok parsed
      rw [Value.payload_list, TypedBytes.normal_list_iff parsed,
        Handler.lawful_listFormat.encode_eq_encode_iff readable
          (Handler.length_encode_listFormat_lt readable)]
      exact map_eq_iff_of_forall₂ read child
    | @dict data entries pairs parsed reads =>
      cases builtin
      obtain ⟨readable, rfl⟩ := Handler.lawful_dictFormat.of_decodeAll_ok parsed
      rw [Value.payload_dict, TypedBytes.normal_dict_iff parsed,
        Handler.lawful_dictFormat.encode_eq_encode_iff readable
          (Handler.length_encode_dictFormat_lt readable),
        ofList_map_typedEntry_eq_iff (Handler.keys_of_forall₂_readEntry reads)]
      refine and_congr_right' (map_eq_iff_of_forall₂ reads fun entry pair read => ?_)
      obtain ⟨value, found, rfl⟩ := of_map_eq_ok read
      rw [← child entry.2 value found]
      simp [Value.typedEntry, Prod.ext_iff]
    | custom => cases builtin
    | _ =>
      cases builtin
      exact iff_of_true rfl (by simp [TypedBytes.normal_iff])

/-- What the standard registry reads it writes again under the same tag. The payload is the same
exactly when it was normal; a new payload is read as the same value, as long as its lengths are
within the limit. -/
theorem encode_of_standard_decode (typed : TypedBytes) (value : Value)
    (read : standard.decode typed = .ok value) :
    ∃ again, standard.encode value = .ok again ∧ again.tag = typed.tag ∧
      (again.data = typed.data ↔ typed.Normal) ∧
      (value.Readable → standard.decode again = .ok value) := by
  have covers := covers_of_standard_decodeWithin_ok read
  have written : standard.encode value = .ok value.typed := encode_eq_ok_iff.mpr ⟨covers, rfl⟩
  refine ⟨value.typed, written, kind_tag_of_standard_decodeWithin_ok read,
    payload_eq_iff_normal read, fun readable => ?_⟩
  have ordered := ordered_of_decodeWithin_ok read
  have shallow := nesting_lt_of_decodeWithin_ok read
  exact (decodeWithin_payload covers ordered readable.expressible _).ok ⟨shallow, readable⟩

/-- The keys come in the wrong order; of the integers, one has no bytes and one a sign byte too
many. -/
theorem encode_of_standard_decode_sloppy :
    let typed : TypedBytes :=
      ⟨1, Handler.dictFormat.encode
        [("b", ⟨11, []⟩), ("a", ⟨2, Handler.listFormat.encode [⟨11, [0, 5]⟩]⟩)]⟩
    let value : Value := .dict [("a", .list [.integer 5]), ("b", .integer 0)]
    standard.decode typed = .ok value ∧ ¬typed.Normal ∧
      ∃ again, standard.encode value = .ok again ∧ again.tag = 1 ∧ again.data ≠ typed.data ∧
        standard.decode again = .ok value := by
  intro typed value
  have read : standard.decode typed = .ok value := by decide +kernel
  have readable : value.Readable := by decide
  obtain ⟨again, written, tag, same, back⟩ := encode_of_standard_decode typed value read
  have new : again = value.typed := Except.ok.inj written.symm
  have changed : again.data ≠ typed.data := by
    subst new
    decide +kernel
  exact ⟨read, fun normal => changed (same.mpr normal), again, written, tag, changed, back readable⟩

end Registry

end ContractLink
