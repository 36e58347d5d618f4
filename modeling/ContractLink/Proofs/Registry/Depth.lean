import ContractLink.Proofs.Registry.RoundTrip
/-!
Reading inside a value. The depth at which a payload is found counts towards the limit of nesting
and matters in no other way. Main statement: what is read at the top is read at every depth that
leaves room for its nesting, and refused as nested too deep at the others; counting the depth in a
machine word never overflows.
-/
namespace ContractLink

namespace Handler

variable {element other : UInt8 → Bytes → Except CodecError Value} {tag : UInt8}
  {handler : Handler} {data : Bytes} {value : Value} {sort : CodecError → Prop}

/-- When the elements of a payload that was read are read by another reader, the payload is read by
it just when each of them is. -/
theorem settles_decode_of_ok {holds : Value → Prop}
    (each : ∀ tag data value, element tag data = .ok value →
      Settles (holds value) sort value (other tag data))
    (read : handler.decode element tag data = .ok value) :
    Settles (∀ c ∈ value.children, holds c) sort value (handler.decode other tag data) := by
  cases handler with
  | list =>
    rw [decode_list] at read ⊢
    obtain ⟨items, parsed, rest⟩ := of_bind_mapError_ok read
    obtain ⟨values, traversed, rfl⟩ := of_map_eq_ok rest
    rw [parsed]
    have again : List.Forall₂ (fun (item : TypedBytes) value =>
        Settles (holds value) sort value (other item.tag item.data)) items values := by
      refine (forall₂_of_mapM_ok traversed).imp fun item value read => ?_
      exact each item.tag item.data value read
    exact (Settles.mapM_of_forall₂ again).map Value.list
  | dict =>
    rw [decode_dict] at read ⊢
    obtain ⟨entries, parsed, rest⟩ := of_bind_mapError_ok read
    obtain ⟨dict, built, rfl⟩ := of_map_eq_ok rest
    obtain ⟨nodup, found, traversed, rfl⟩ := of_foldlM_addEntry_ok built
    have pairs := forall₂_of_mapM_ok traversed
    have keys : (found.map (·.1)).Nodup := keys_of_forall₂_readEntry pairs ▸ nodup
    rw [parsed]
    show Settles _ sort _ (Value.dict <$> entries.foldlM (addEntry other tag) [])
    rw [foldlM_addEntry nodup fun k _ inside => absurd inside List.not_mem_nil]
    have again : List.Forall₂ (fun entry pair => Settles (holds pair.2) sort pair
        (readEntry other entry)) entries found := by
      refine pairs.imp fun entry pair read => ?_
      obtain ⟨value, inner, rfl⟩ := of_map_eq_ok read
      exact (each entry.2.tag entry.2.data value inner).map (entry.1, ·)
    have settled := ((Settles.mapM_of_forall₂ again).map Dict.ofList).map Value.dict
    refine settled.congr (List.forall_mem_map.trans ?_).symm
    exact forall_congr' fun pair => imp_congr_left (Dict.ofList_perm keys).mem_iff
  | _ =>
    have scalar := reads_of_decode_ok read
    cases scalar
    exact ⟨fun _ => read, fun fails => absurd (List.forall_mem_nil _) fails⟩

end Handler

namespace Registry

variable {registry : Registry} {levels depth : Nat} {tag : UInt8} {data : Bytes} {value : Value}

/-- A payload that was read within some levels is read within any that its value fits in. -/
theorem settles_decodeWithin_of_ok (read : registry.decodeWithin levels tag data = .ok value)
    (other : Nat) :
    Settles (value.nesting < other) CodecError.IsTooDeep value
      (registry.decodeWithin other tag data) := by
  induction levels generalizing other tag data value with
  | zero => cases read
  | succ levels ih =>
    cases other with
    | zero => exact ⟨fun none => absurd none (Nat.not_lt_zero _), fun _ => ⟨_, rfl, tag, rfl⟩⟩
    | succ other =>
      cases found : registry.handler? tag with
      | none => simp [decodeWithin, found] at read
      | some handler =>
        rw [decodeWithin_of_found found] at read ⊢
        have each := fun t d v (inner : registry.decodeWithin levels t d = .ok v) => ih inner other
        refine (Handler.settles_decode_of_ok each read).congr ?_
        rw [Nat.lt_succ_iff, Value.nesting_le_iff]

theorem decodeAt_of_deep (deep : maxNesting < depth) :
    registry.decodeAt depth tag data = .error (.invalidPayload tag (.tooDeep maxNesting)) := by
  have none : maxNesting + 1 - depth = 0 := Nat.sub_eq_zero_of_le deep
  rw [decodeAt, none, decodeWithin]

/-- Within the limit, the elements of a payload are read one level further down. -/
theorem decodeAt_of_le (shallow : depth ≤ maxNesting) :
    registry.decodeAt depth tag data =
      match registry.handler? tag with
      | none => .error (.unknownTag tag)
      | some handler => registry.decodeWith handler depth tag data := by
  have more : maxNesting + 1 - depth = maxNesting + 1 - (depth + 1) + 1 := by omega
  rw [decodeAt, more, decodeWithin]
  rfl

theorem decodeAt_of_list (found : registry.handler? tag = some .list)
    (shallow : depth ≤ maxNesting) : registry.decodeAt depth tag data = (do
      let items ← (Handler.listFormat.decodeAll data).mapError .nested
      return .list (← registry.decodeItemsAt (depth + 1) items)) := by
  rw [decodeAt_of_le shallow, found]
  exact registry.decodeWith_list depth tag data

theorem toNat_add_one {word : UInt64} (fits : word.toNat + 1 < 2 ^ 64) :
    (word + 1).toNat = word.toNat + 1 := by
  rw [UInt64.toNat_add]
  exact Nat.mod_eq_of_lt fits

/-- Reads a payload with the depth counted in a machine word. Where the next depth does not fit the
word, the elements are read by `overflowed` instead. -/
def decodeCounted (registry : Registry) (overflowed : UInt8 → Bytes → Except CodecError Value)
    (depth : UInt64) (tag : UInt8) (data : Bytes) : Except CodecError Value :=
  if maxNesting < depth.toNat then .error (.invalidPayload tag (.tooDeep maxNesting))
  else
    match registry.handler? tag with
    | none => .error (.unknownTag tag)
    | some handler =>
      if fits : depth.toNat + 1 < 2 ^ 64 then
        handler.decode (fun t d => registry.decodeCounted overflowed (depth + 1) t d) tag data
      else handler.decode overflowed tag data
termination_by maxNesting + 1 - depth.toNat
decreasing_by
  have next : (depth + 1).toNat = depth.toNat + 1 := toNat_add_one fits
  omega

/-- The word never overflows: the count stops at the limit, so the reader that stands for an
overflow is not asked. The induction is on the levels that are left. -/
theorem decodeCounted_eq (registry : Registry)
    (overflowed : UInt8 → Bytes → Except CodecError Value) (depth : UInt64) :
    registry.decodeCounted overflowed depth = registry.decodeAt depth.toNat := by
  induction left : maxNesting + 1 - depth.toNat generalizing depth with
  | zero =>
    have deep : maxNesting < depth.toNat := Nat.sub_eq_zero_iff_le.mp left
    funext tag data
    rw [decodeCounted, if_pos deep, decodeAt_of_deep deep]
  | succ levels ih =>
    have shallow : depth.toNat ≤ maxNesting := by omega
    have fits : depth.toNat + 1 < 2 ^ 64 :=
      Nat.lt_of_le_of_lt (Nat.succ_le_succ shallow) (by decide)
    have next : (depth + 1).toNat = depth.toNat + 1 := toNat_add_one fits
    have below := ih (depth + 1) (by omega)
    funext tag data
    rw [decodeCounted, if_neg (Nat.not_lt.mpr shallow), decodeAt_of_le shallow]
    cases registry.handler? tag with
    | none => rfl
    | some handler =>
      simp only [dif_pos fits, below, next]
      rfl

/-- A payload read at the top is read at every depth that leaves room for its nesting, to the same
value, and refused as nested too deep at the others; no depth reads a payload the top does not.
Depths are counted in a machine word without an overflow. -/
theorem decodeAt_every_depth (registry : Registry) (tag : UInt8) (data : Bytes) :
    (∀ depth value, registry.decodeAt depth tag data = .ok value ↔
      registry.decodeAt 0 tag data = .ok value ∧ depth + value.nesting ≤ maxNesting) ∧
    (∀ depth value, registry.decodeAt 0 tag data = .ok value →
      maxNesting < depth + value.nesting → ∃ inner,
        registry.decodeAt depth tag data = .error (.invalidPayload inner (.tooDeep maxNesting))) ∧
    (∀ (depth : UInt64) (overflowed : UInt8 → Bytes → Except CodecError Value),
      registry.decodeCounted overflowed depth tag data =
        registry.decodeAt depth.toNat tag data) := by
  refine ⟨fun depth value => ⟨fun read => ⟨?_, ?_⟩, fun ⟨top, room⟩ => ?_⟩,
    fun depth value top deep => ?_, fun depth overflowed => ?_⟩
  · have shallow : value.nesting < maxNesting + 1 - depth := nesting_lt_of_decodeWithin_ok read
    exact (settles_decodeWithin_of_ok read (maxNesting + 1)).ok (by omega)
  · have shallow : value.nesting < maxNesting + 1 - depth := nesting_lt_of_decodeWithin_ok read
    omega
  · exact (settles_decodeWithin_of_ok top (maxNesting + 1 - depth)).ok (by omega)
  · obtain ⟨e, refused, inner, rfl⟩ :=
      (settles_decodeWithin_of_ok top (maxNesting + 1 - depth)).error (by omega)
    exact ⟨inner, refused⟩
  · rw [decodeCounted_eq]

theorem decodeAt_every_depth_two_levels :
    let value : Value := .dict [("a", .list [.nil]), ("b", .list [])]
    let ⟨tag, data⟩ := value.typed
    standard.decodeAt 0 tag data = .ok value ∧ standard.decodeAt 62 tag data = .ok value ∧
      (∃ inner, standard.decodeAt 63 tag data =
        .error (.invalidPayload inner (.tooDeep maxNesting))) ∧
      standard.decodeCounted (fun _ _ => .ok .nil) 62 tag data = .ok value := by
  intro value
  have top : standard.decodeAt 0 value.typed.tag value.typed.data = .ok value := by decide +kernel
  obtain ⟨read, refused, counted⟩ :=
    decodeAt_every_depth standard value.typed.tag value.typed.data
  have fits : standard.decodeAt 62 value.typed.tag value.typed.data = .ok value :=
    (read 62 value).mpr ⟨top, by decide⟩
  exact ⟨top, fits, refused 63 value top (by decide), (counted 62 _).trans fits⟩

end Registry

end ContractLink
