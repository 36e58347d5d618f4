import ContractLink.Proofs.Registry.Decode
/-!
A registry with one more handler. Main statement: under a tag that had no handler before, a handler
changes only what failed for the want of one, for values and payloads nested in any way.
-/
namespace ContractLink

namespace Handler

variable {element other : UInt8 → Bytes → Except CodecError Value} {excused : CodecError → Prop}

/-- A handler passes the first error of an element on as it is. -/
theorem follows_decode (each : ∀ tag data, Follows excused (element tag data) (other tag data))
    (handler : Handler) (tag : UInt8) (data : Bytes) :
    Follows excused (handler.decode element tag data) (handler.decode other tag data) := by
  cases handler with
  | list =>
    rw [decode_list, decode_list]
    refine (Follows.refl _).bind fun items => Follows.map ?_ Value.list
    exact Follows.mapM fun item _ => each item.tag item.data
  | dict =>
    rw [decode_dict, decode_dict]
    refine (Follows.refl _).bind fun entries => Follows.map ?_ Value.dict
    refine Follows.foldlM (fun dict entry => ?_) [] entries
    exact (each entry.2.tag entry.2.data).bind fun value => .refl _
  | _ => exact .refl _

end Handler

namespace Registry

variable {registry other : Registry} {tag : UInt8} {handler : Handler}
  {excused : CodecError → Prop}

theorem handler?_register_of_ne (registry : Registry) (handler : Handler) {t : UInt8}
    (ne : t ≠ tag) : (registry.register tag handler).handler? t = registry.handler? t := if_neg ne

/-- A payload differs no more than the elements in it do. -/
theorem follows_payload {value : Value}
    (children : ∀ c ∈ value.children, Follows excused (other.encode c) (registry.encode c))
    (handler : Handler) :
    Follows excused (other.payload handler value) (registry.payload handler value) := by
  cases value with
  | list items =>
    cases handler with
    | list =>
      simp only [payload, encodeItems_eq_mapM]
      exact (Follows.mapM children).bind fun typed => .refl _
    | _ => exact .refl _
  | dict entries =>
    cases handler with
    | dict =>
      simp only [payload, encodeEntries_eq_mapM]
      refine (Follows.mapM fun e mem => ?_).bind fun typed => .refl _
      exact (children e.2 (List.mem_map_of_mem mem)).map _
    | _ => exact .refl _
  | _ => cases handler <;> exact .refl _

theorem follows_encode (absent : registry.handler? tag = none) (value : Value) :
    Follows (fun e => ∃ kind, e = .unsupported kind ∧ kind.tag = tag)
      ((registry.register tag handler).encode value) (registry.encode value) := by
  induction value using Value.childInduction with
  | step value ih =>
    by_cases own : value.kind.tag = tag
    · have missing : registry.encode value = .error (.unsupported value.kind) := by
        simp [encode, own, absent]
      exact .inr ⟨_, missing, value.kind, rfl, own⟩
    have same := registry.handler?_register_of_ne handler own
    cases found : registry.handler? value.kind.tag with
    | none =>
      left
      simp [encode, same, found]
    | some suited =>
      rw [encode_of_found found, encode_of_found (same.trans found)]
      exact (follows_payload ih suited).map _

theorem follows_decodeWithin (absent : registry.handler? tag = none) (levels : Nat) (t : UInt8)
    (data : Bytes) :
    Follows (· = .unknownTag tag) ((registry.register tag handler).decodeWithin levels t data)
      (registry.decodeWithin levels t data) := by
  induction levels generalizing t data with
  | zero => exact .refl _
  | succ levels ih =>
    by_cases own : t = tag
    · have missing : registry.decodeWithin (levels + 1) t data = .error (.unknownTag tag) := by
        simp [decodeWithin, own, absent]
      exact .inr ⟨_, missing, rfl⟩
    have same := registry.handler?_register_of_ne handler own
    cases found : registry.handler? t with
    | none =>
      left
      simp [decodeWithin, same, found]
    | some reader =>
      rw [decodeWithin_of_found found, decodeWithin_of_found (same.trans found)]
      exact Handler.follows_decode ih reader t data

/-- A handler under a tag that had none changes nothing but what failed for the want of it: no value
that is written, no payload that is read and no other error, at any depth. -/
theorem register_conservative (registry : Registry) (tag : UInt8) (handler : Handler)
    (absent : registry.supports tag = false) :
    let extended := registry.register tag handler
    (∀ value, (∀ kind, registry.encode value = .error (.unsupported kind) → kind.tag ≠ tag) →
        extended.encode value = registry.encode value) ∧
      ∀ depth t data, registry.decodeAt depth t data ≠ .error (.unknownTag tag) →
        extended.decodeAt depth t data = registry.decodeAt depth t data := by
  intro extended
  have none : registry.handler? tag = none := by simpa [supports] using absent
  constructor
  · intro value other
    refine (follows_encode none value).eq ?_
    rintro e failed ⟨kind, rfl, own⟩
    exact other kind failed own
  · intro depth t data other
    refine (follows_decodeWithin none _ t data).eq ?_
    rintro e failed rfl
    exact other failed

/-- Behind an element that no handler has, an element of the new kind is not looked at. What failed
for the new kind alone is written and read. -/
theorem register_conservative_custom :
    let extended := standard.register 12 (.custom (some 2))
    let late : Value := .list [.dict [("k", .custom 13 [])], .custom 12 [1, 2]]
    let payload := Handler.listFormat.encode [⟨11, [5]⟩, ⟨13, []⟩, ⟨12, [1, 2]⟩]
    let own : Value := .list [.custom 12 [1, 2]]
    standard.supports 12 = false ∧ extended.encode late = .error (.unsupported (.custom 13)) ∧
      extended.decodeAt 3 2 payload = .error (.unknownTag 13) ∧
      standard.encode own = .error (.unsupported (.custom 12)) ∧
      extended.encode own = .ok own.typed ∧ extended.decode own.typed = .ok own := by
  intro extended late payload own
  have absent : standard.supports 12 = false := rfl
  obtain ⟨encodes, decodes⟩ := register_conservative standard 12 (.custom (some 2)) absent
  have unwritten : standard.encode late = .error (.unsupported (.custom 13)) := rfl
  have unread : standard.decodeAt 3 2 payload = .error (.unknownTag 13) := by decide +kernel
  refine ⟨absent, ?_, ?_, rfl, rfl, by decide +kernel⟩
  · rw [encodes late, unwritten]
    intro kind failed
    rw [unwritten] at failed
    cases failed
    decide
  · rw [decodes 3 2 payload, unread]
    rw [unread]
    decide

end Registry

end ContractLink
