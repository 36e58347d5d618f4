import ContractLink.Proofs.Registry.Decode
/-!
Reading what a registry writes. A value comes back exactly when it is nested no deeper than the
limit and every length in its payload is one that is read; else reading fails, for one of the two.
-/
namespace ContractLink

/-- The error says that a payload is nested deeper than what is read. -/
def CodecError.IsTooDeep (e : CodecError) : Prop :=
  ∃ tag, e = .invalidPayload tag (.tooDeep Registry.maxNesting)

/-- The error says that a limit of reading is passed. -/
def CodecError.IsLimit (e : CodecError) : Prop :=
  (∃ tag, e = .invalidPayload tag (.tooDeep Registry.maxNesting)) ∨ e = .nested .lengthOverflow

theorem Format.Lawful.settles {α : Type} {format : Format α} (law : format.Lawful) {value : α}
    (expressible : format.Expressible value) :
    Settles (format.Readable value) (fun e => ¬format.Readable value ∧ e = .lengthOverflow) value
      (format.decodeAll (format.encode value)) where
  ok readable := by rw [law.decodeAll_encode expressible, if_pos readable]
  error unreadable := by
    rw [law.decodeAll_encode expressible, if_neg unreadable]
    exact ⟨_, rfl, unreadable, rfl⟩

namespace Handler

variable {element : UInt8 → Bytes → Except CodecError Value} {tag : UInt8}
  {sort : CodecError → Prop}

/-- A scalar or custom payload is read back. -/
theorem decode_payload {handler : Handler} {value : Value} (suits : handler.Suits value)
    (noList : ∀ items, value ≠ .list items) (noDict : ∀ entries, value ≠ .dict entries) :
    handler.decode element value.kind.tag value.payload = .ok value := by
  cases value with
  | list items => exact absurd rfl (noList items)
  | dict entries => exact absurd rfl (noDict entries)
  | nil =>
    cases handler <;> try cases suits
    rfl
  | integer v =>
    cases handler <;> try cases suits
    simp only [decode, Value.payload, Int128.ofBytes?_toBytes]
  | bytes data =>
    cases handler <;> try cases suits
    rfl
  | text s =>
    cases handler <;> try cases suits
    simp only [decode, Value.payload, Utf8.decode_ofText]
  | bool b =>
    cases handler <;> try cases suits
    cases b <;> rfl
  | address a =>
    cases handler <;> try cases suits
    simp only [decode, Value.payload, Address.ofBytes_toBytes]
    rfl
  | custom tag data =>
    cases handler <;> try cases suits
    next width =>
      have checked : checkWidth width tag data = .ok () := checkWidth_eq_ok_iff.mpr suits
      simp only [decode, Value.payload, Value.kind, Kind.tag, checked]
      rfl

/-- A list is read back when the lengths of its own payload are read and each item is read back. -/
theorem settles_list {items : List Value} (holds : Value → Prop)
    (expressible : listFormat.Expressible (items.map Value.typed))
    (long : ¬listFormat.Readable (items.map Value.typed) → sort (.nested .lengthOverflow))
    (each : ∀ c ∈ items, Settles (holds c) sort c (element c.kind.tag c.payload)) :
    Settles (listFormat.Readable (items.map Value.typed) ∧ ∀ c ∈ items, holds c) sort
      (.list items) (list.decode element tag (listFormat.encode (items.map Value.typed))) := by
  rw [decode_list]
  have into : ∀ e, ¬listFormat.Readable (items.map Value.typed) ∧ e = .lengthOverflow →
      sort (.nested e) :=
    fun _ ⟨unreadable, overflow⟩ => overflow ▸ long unreadable
  have parsed := (lawful_listFormat.settles expressible).mapError into
  apply parsed.bind
  rw [List.mapM_map]
  have read := (Settles.mapM (g := id) each).map Value.list
  rwa [List.map_id] at read

/-- The keys of a dictionary increase, so none of them is found twice when it is read back. -/
theorem settles_dict {entries : List (String × Value)} (holds : Value → Prop)
    (increasing : Dict.Increasing entries)
    (expressible : dictFormat.Expressible (entries.map Value.typedEntry))
    (long : ¬dictFormat.Readable (entries.map Value.typedEntry) → sort (.nested .lengthOverflow))
    (each : ∀ c ∈ entries.map (·.2), Settles (holds c) sort c (element c.kind.tag c.payload)) :
    Settles (dictFormat.Readable (entries.map Value.typedEntry) ∧
        ∀ c ∈ entries.map (·.2), holds c) sort (.dict entries)
      (dict.decode element tag (dictFormat.encode (entries.map Value.typedEntry))) := by
  rw [decode_dict]
  have into : ∀ e, ¬dictFormat.Readable (entries.map Value.typedEntry) ∧ e = .lengthOverflow →
      sort (.nested e) :=
    fun _ ⟨unreadable, overflow⟩ => overflow ▸ long unreadable
  have parsed := (lawful_dictFormat.settles expressible).mapError into
  apply parsed.bind
  have keys : (entries.map Value.typedEntry).map (·.1) = entries.map (·.1) := List.map_map
  have nodup : ((entries.map Value.typedEntry).map (·.1)).Nodup := by
    rw [keys]
    exact Dict.nodup_keys increasing
  rw [foldlM_addEntry nodup fun k _ inside => absurd inside List.not_mem_nil, List.mapM_map]
  have steps : ∀ e ∈ entries, Settles (holds e.2) sort e
      (readEntry element (Value.typedEntry e)) :=
    fun e mem => (each e.2 (List.mem_map_of_mem mem)).map fun value => (e.1, value)
  have read := ((Settles.mapM (g := id) steps).map Dict.ofList).map Value.dict
  rw [List.map_id, Dict.ofList_of_increasing increasing] at read
  exact read.congr List.forall_mem_map.symm

end Handler

namespace Registry

variable {registry : Registry}

/-- One level for the value itself, the others for its children. -/
theorem within_succ_iff {value : Value} {levels : Nat} :
    value.nesting < levels + 1 ∧ value.Readable ↔
      (∀ n ∈ value.ownLengths, n ≤ Format.maxLength) ∧
        ∀ c ∈ value.children, c.nesting < levels ∧ c.Readable := by
  unfold Value.Readable
  rw [Nat.lt_succ_iff, Value.nesting_le_iff, Value.forall_mem_lengths]
  constructor
  · rintro ⟨shallow, own, readable⟩
    exact ⟨own, fun c mem => ⟨shallow c mem, readable c mem⟩⟩
  · rintro ⟨own, children⟩
    exact ⟨fun c mem => (children c mem).1, own, fun c mem => (children c mem).2⟩

/-- The payload of a value is read back when the value has room in the levels and every length in
the payload is read. It is refused for the nesting or for a length, and for a length only if there
is one that is not read. The children are written without regard to levels, but read with one level
less. -/
theorem settles_decodeWithin {sort : CodecError → Prop}
    (deep : ∀ tag, sort (.invalidPayload tag (.tooDeep maxNesting))) {value : Value}
    (long : ¬value.Readable → sort (.nested .lengthOverflow)) (covers : registry.Covers value)
    (ordered : value.Ordered) (expressible : value.Expressible) (levels : Nat) :
    Settles (value.nesting < levels ∧ value.Readable) sort value
      (registry.decodeWithin levels value.kind.tag value.payload) := by
  induction value using Value.childInduction generalizing levels with
  | step value ih =>
    cases levels with
    | zero =>
      refine ⟨fun good => absurd good.1 (Nat.not_lt_zero _), fun _ => ?_⟩
      exact ⟨.invalidPayload value.kind.tag (.tooDeep maxNesting), rfl, deep _⟩
    | succ levels =>
      obtain ⟨own, inner⟩ := Value.forall_mem_lengths.mp expressible
      have ownLong : ¬(∀ n ∈ value.ownLengths, n ≤ Format.maxLength) →
          sort (.nested .lengthOverflow) :=
        fun unreadable => long fun readable => unreadable (Value.forall_mem_lengths.mp readable).1
      cases covers with
      | @node _ handler found suits children =>
        have each : ∀ c ∈ value.children, Settles (c.nesting < levels ∧ c.Readable) sort c
            (registry.decodeWithin levels c.kind.tag c.payload) := by
          intro c mem
          refine ih c mem (fun unreadable => long fun readable => unreadable ?_) (children c mem)
            (ordered.children c mem) (inner c mem) levels
          exact (Value.forall_mem_lengths.mp readable).2 c mem
        refine Settles.congr ?_ within_succ_iff.symm
        rw [decodeWithin_of_found found]
        cases value with
        | list items =>
          cases handler <;> try cases suits
          rw [Value.payload_list]
          exact Handler.settles_list _ own ownLong each
        | dict entries =>
          cases handler <;> try cases suits
          rw [Value.payload_dict]
          exact Handler.settles_dict _ ordered.1 own ownLong each
        | _ =>
          rw [Handler.decode_payload suits (fun _ => nofun) fun _ => nofun]
          exact ⟨fun _ => rfl, fun fails => absurd ⟨nofun, nofun⟩ fails⟩

theorem decodeWithin_payload {value : Value} (covers : registry.Covers value)
    (ordered : value.Ordered) (expressible : value.Expressible) (levels : Nat) :
    Settles (value.nesting < levels ∧ value.Readable) CodecError.IsLimit value
      (registry.decodeWithin levels value.kind.tag value.payload) :=
  settles_decodeWithin (fun tag => .inl ⟨tag, rfl⟩) (fun _ => .inr rfl) covers ordered expressible
    levels

/-- A payload no longer than the limit of lengths has no length above it, so only the nesting of the
value can keep it from being read back. -/
theorem settles_decode_of_length_data_le {value : Value} {typed : TypedBytes}
    (written : registry.encode value = .ok typed) (ordered : value.Ordered)
    (short : typed.data.length ≤ Format.maxLength) :
    Settles (value.nesting ≤ maxNesting) CodecError.IsTooDeep value (registry.decode typed) := by
  obtain ⟨covers, rfl⟩ := encode_eq_ok_iff.mp written
  have readable : value.Readable := Value.readable_of_length_payload_le short
  have deep : ∀ tag, CodecError.IsTooDeep (.invalidPayload tag (.tooDeep maxNesting)) :=
    fun tag => ⟨tag, rfl⟩
  have read := settles_decodeWithin deep (absurd readable) covers ordered readable.expressible
    (maxNesting + 1)
  exact read.congr (by rw [Nat.lt_succ_iff, and_iff_left readable])

/-- What a registry writes it reads back exactly when the value is nested no deeper than the limit
and every length in the payload is within the limit of lengths. Any other value that it writes is
refused, for one of the two limits, and never read as something else. -/
theorem decode_encode_eq_ok_iff (registry : Registry) (value : Value) (ordered : value.Ordered)
    (expressible : value.Expressible) (typed : TypedBytes)
    (written : registry.encode value = .ok typed) :
    typed.tag = value.kind.tag ∧
      (registry.decode typed = .ok value ↔ value.nesting ≤ maxNesting ∧ value.Readable) ∧
      (¬(value.nesting ≤ maxNesting ∧ value.Readable) →
        ∃ e, registry.decode typed = .error e ∧ e.IsLimit) := by
  obtain ⟨covers, rfl⟩ := encode_eq_ok_iff.mp written
  have read := decodeWithin_payload covers ordered expressible (maxNesting + 1)
  rw [Nat.lt_succ_iff] at read
  exact ⟨rfl, read.eq_ok_iff, read.error⟩

theorem decode_encode_eq_ok_iff_mixed :
    let registry := standard.register 12 (.custom (some 2))
    let value : Value := .dict [("a", .list [.integer 300, .custom 12 [1, 2]]), ("b", .nil)]
    value.Ordered ∧ value.Expressible ∧ registry.encode value = .ok value.typed ∧
      registry.decode value.typed = .ok value := by
  intro registry value
  have keys : "a" < "b" := by decide
  have ordered : value.Ordered :=
    ⟨List.pairwise_pair.mpr keys, ⟨trivial, trivial, trivial⟩, trivial, trivial⟩
  have readable : value.Readable := by decide
  have expressible : value.Expressible := readable.expressible
  have written : registry.encode value = .ok value.typed := rfl
  refine ⟨ordered, expressible, written, ?_⟩
  obtain ⟨-, read, -⟩ :=
    decode_encode_eq_ok_iff registry value ordered expressible value.typed written
  exact read.mpr ⟨by decide, readable⟩

end Registry

end ContractLink
