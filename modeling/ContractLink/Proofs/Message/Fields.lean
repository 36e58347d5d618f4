import ContractLink.Proofs.Message.Delivery
import ContractLink.Proofs.Registry.RoundTrip
/-!
Typed fields of what crosses the link. Reading a value limits the payload of every typed field in
it. Main statement: what fits a frame is read from it at every layer, down to the values of the
typed fields, and no length inside is ever too large.
-/
namespace ContractLink

def Param.typedFields (p : Param) : List TypedBytes := p.default?.toList

def FunctionDecl.typedFields (f : FunctionDecl) : List TypedBytes :=
  f.inputs.flatMap (·.typedFields)

def EventDecl.typedFields (e : EventDecl) : List TypedBytes := e.params.flatMap (·.typedFields)

def Method.typedFields : Method → List TypedBytes
  | function f => f.typedFields
  | fallback _ => []
  | event e => e.typedFields

def Body.Invoke.typedFields (b : Body.Invoke) : List TypedBytes :=
  [b.sender, b.recipient, b.value, b.limit, b.params]

def Body.Result.typedFields (b : Body.Result) : List TypedBytes := [b.stepUsed, b.result]

def Body.Event.typedFields (b : Body.Event) : List TypedBytes := b.indexed ++ b.data

/-- The typed bytes in a value of a type, in the order in which they are written. -/
def WireType.typedFields : (type : WireType) → type.Carrier → List TypedBytes
  | option item, value? => (Option.toList value?).flatMap item.typedFields
  | list item, values => List.flatMap item.typedFields values
  | pair first second, value => first.typedFields value.1 ++ second.typedFields value.2
  | typedBytes, typed => [typed]
  | param, p => p.typedFields
  | function, f => f.typedFields
  | event, e => e.typedFields
  | method, m => m.typedFields
  | api, description => description.methods.flatMap (·.typedFields)
  | invokeBody, body => body.typedFields
  | resultBody, body => body.typedFields
  | eventBody, body => body.typedFields
  | getInfoResponse, body => [body.info]
  | getBalanceRequest, body => [body.address]
  | getBalanceResponse, body => [body.balance]
  | _, _ => []

theorem Param.readable_typedFields {p : Param} (readable : format.Readable p) :
    ∀ t ∈ p.typedFields, TypedBytes.format.Readable t := by
  obtain ⟨-, rest⟩ := (Format.readable_pair ..).mp readable
  obtain ⟨-, default⟩ := (Format.readable_pair ..).mp rest
  exact fun t mem => (Format.readable_option ..).mp default t (Option.mem_toList.mp mem)

theorem Param.readable_flatMap_typedFields {params : List Param}
    (readable : format.list.Readable params) :
    ∀ t ∈ params.flatMap typedFields, TypedBytes.format.Readable t :=
  List.forall_mem_flatMap.mpr fun p mem =>
    readable_typedFields (((Format.readable_list ..).mp readable).2 p mem)

theorem FunctionDecl.readable_typedFields {f : FunctionDecl} (readable : format.Readable f) :
    ∀ t ∈ f.typedFields, TypedBytes.format.Readable t := by
  obtain ⟨-, rest⟩ := (Format.readable_pair ..).mp readable
  obtain ⟨-, rest⟩ := (Format.readable_pair ..).mp rest
  obtain ⟨inputs, -⟩ := (Format.readable_pair ..).mp rest
  exact Param.readable_flatMap_typedFields inputs

theorem EventDecl.readable_typedFields {e : EventDecl} (readable : format.Readable e) :
    ∀ t ∈ e.typedFields, TypedBytes.format.Readable t := by
  obtain ⟨-, rest⟩ := (Format.readable_pair ..).mp readable
  obtain ⟨-, rest⟩ := (Format.readable_pair ..).mp rest
  obtain ⟨-, params⟩ := (Format.readable_pair ..).mp rest
  exact Param.readable_flatMap_typedFields params

theorem Method.readable_typedFields {m : Method} (readable : format.Readable m) :
    ∀ t ∈ m.typedFields, TypedBytes.format.Readable t := by
  cases m with
  | function f => exact FunctionDecl.readable_typedFields readable
  | fallback flags => exact List.forall_mem_nil _
  | event e => exact EventDecl.readable_typedFields readable

theorem Body.Invoke.readable_typedFields {body : Body.Invoke} (readable : format.Readable body) :
    ∀ t ∈ body.typedFields, TypedBytes.format.Readable t := by
  obtain ⟨-, fields⟩ := (Format.readable_pair ..).mp readable
  obtain ⟨sender, fields⟩ := (Format.readable_pair ..).mp fields
  obtain ⟨recipient, fields⟩ := (Format.readable_pair ..).mp fields
  obtain ⟨value, fields⟩ := (Format.readable_pair ..).mp fields
  obtain ⟨limit, fields⟩ := (Format.readable_pair ..).mp fields
  obtain ⟨-, params⟩ := (Format.readable_pair ..).mp fields
  simp [typedFields, sender, recipient, value, limit, params]

theorem Body.Result.readable_typedFields {body : Body.Result} (readable : format.Readable body) :
    ∀ t ∈ body.typedFields, TypedBytes.format.Readable t := by
  obtain ⟨-, fields⟩ := (Format.readable_pair ..).mp readable
  obtain ⟨stepUsed, result⟩ := (Format.readable_pair ..).mp fields
  simp [typedFields, stepUsed, result]

theorem Body.Event.readable_typedFields {body : Body.Event} (readable : format.Readable body) :
    ∀ t ∈ body.typedFields, TypedBytes.format.Readable t := by
  obtain ⟨indexed, data⟩ := (Format.readable_pair ..).mp readable
  exact List.forall_mem_append.mpr
    ⟨((Format.readable_list ..).mp indexed).2, ((Format.readable_list ..).mp data).2⟩

/-- What is read of a value is short enough for the payload of every typed field in it. -/
theorem WireType.readable_typedFields {type : WireType} {value : type.Carrier}
    (readable : type.format.Readable value) :
    ∀ t ∈ type.typedFields value, TypedBytes.format.Readable t := by
  induction type with
  | option item ih =>
    have inside := (Format.readable_option ..).mp readable
    exact List.forall_mem_flatMap.mpr fun v mem => ih (inside v (Option.mem_toList.mp mem))
  | list item ih =>
    have inside := ((Format.readable_list ..).mp readable).2
    exact List.forall_mem_flatMap.mpr fun v mem => ih (inside v mem)
  | pair first second ih₁ ih₂ =>
    obtain ⟨left, right⟩ := (Format.readable_pair ..).mp readable
    exact List.forall_mem_append.mpr ⟨ih₁ left, ih₂ right⟩
  | typedBytes => exact List.forall_mem_singleton.mpr readable
  | param => exact Param.readable_typedFields readable
  | function => exact FunctionDecl.readable_typedFields readable
  | event => exact EventDecl.readable_typedFields readable
  | method => exact Method.readable_typedFields readable
  | api =>
    have inside := ((Format.readable_list Method.format value.methods).mp readable).2
    exact List.forall_mem_flatMap.mpr fun m mem => Method.readable_typedFields (inside m mem)
  | invokeBody => exact Body.Invoke.readable_typedFields readable
  | resultBody => exact Body.Result.readable_typedFields readable
  | eventBody => exact Body.Event.readable_typedFields readable
  | getInfoResponse => exact List.forall_mem_singleton.mpr readable
  | getBalanceRequest => exact List.forall_mem_singleton.mpr readable
  | getBalanceResponse => exact List.forall_mem_singleton.mpr readable
  | _ => exact List.forall_mem_nil _

/-- Whatever body a message carries: if the message is sent as a frame, then the frame is read in
front of whatever comes behind it, the message is read from the frame and the body from the message.
A typed field that a registry has written has no length too large for that registry, and is read
back unless its value is nested too deep. -/
theorem Message.delivered (kind : MessageKind) (type : WireType) (body : type.Carrier)
    (frame : Bytes) (framed : (ofBody kind type.format body).toFrame = .ok frame) :
    let m := ofBody kind type.format body
    (∀ rest, Frame.read (frame ++ rest) = (.ok (some (format.encode m)), rest)) ∧
      format.decodeAll (format.encode m) = .ok m ∧ m.body type.format = .ok body ∧
      ∀ typed ∈ type.typedFields body, ∀ (registry : Registry) (value : Value), value.Ordered →
        registry.encode value = .ok typed →
          registry.decode typed ≠ .error (.nested .lengthOverflow) ∧
          (value.nesting ≤ Registry.maxNesting → registry.decode typed = .ok value) := by
  intro m
  refine ⟨read_of_toFrame framed, decodeAll_of_toFrame framed,
    body_of_toFrame type.lawful_format framed, ?_⟩
  intro typed field registry value ordered written
  have readable := WireType.readable_typedFields
    (readable_of_toFrame type.lawful_format framed) typed field
  have read := Registry.settles_decode_of_length_data_le written ordered
    (typed.readable_iff.mp readable)
  refine ⟨fun overflow => ?_, read.ok⟩
  obtain ⟨-, tag, deep⟩ := read.of_eq_error overflow
  cases deep

/-- An event whose data is a dictionary with a list in it, in front of two bytes more. -/
theorem Message.delivered_event :
    let value : Value := .dict [("list", .list [.integer 300, .text "né"])]
    let body : Body.Event := ⟨[], [value.typed]⟩
    let m : Message := ofBody .event Body.Event.format body
    let frame := Frame.wrap (format.encode m)
    m.toFrame = .ok frame ∧ Frame.read (frame ++ [7, 0]) = (.ok (some (format.encode m)), [7, 0]) ∧
      m.body Body.Event.format = .ok body ∧ Registry.standard.decode value.typed = .ok value := by
  intro value body m frame
  have fits : Frame.Fits (format.encode m).length := by decide +kernel
  have framed : m.toFrame = .ok frame := Frame.encode_of_fits fits
  obtain ⟨read, -, opened, fields⟩ := delivered .event .eventBody body frame framed
  have ordered : value.Ordered :=
    ⟨List.pairwise_singleton _ _, ⟨trivial, trivial, trivial⟩, trivial⟩
  have written : Registry.standard.encode value = .ok value.typed := rfl
  have field := fields value.typed List.mem_cons_self .standard value ordered written
  exact ⟨framed, read [7, 0], opened, field.2 (by decide)⟩

end ContractLink
