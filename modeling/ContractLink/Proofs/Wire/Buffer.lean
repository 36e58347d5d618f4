import ContractLink.Proofs.Wire.Types
/-!
Buffers with room set aside. The room for an encoding is counted before it is written, and the room
for a sequence is set aside before its items are read. Main statements: an encoding fills the room
that was counted for it, and as every item of a sequence takes a byte at least, a sequence that is
read fills the room that was set aside for it, however many items it promised.
-/
namespace ContractLink

/-- The items of a growing array, and how many it has room for. -/
structure Buffer (α : Type) where
  items : List α
  room : Nat

namespace Buffer

variable {α : Type} {grow : Nat → Nat → Nat} {buffer : Buffer α} {more : List α}

/-- No items yet. -/
def reserve (room : Nat) : Buffer α := ⟨[], room⟩

/-- No room for another item. -/
def full (items : List α) : Buffer α := ⟨items, items.length⟩

/-- Puts items behind the others. If there is no room for them it is made, and how much of it is
left open. -/
def append (grow : Nat → Nat → Nat) (buffer : Buffer α) (more : List α) : Buffer α :=
  let count := buffer.items.length + more.length
  ⟨buffer.items ++ more, if count ≤ buffer.room then buffer.room else grow buffer.room count⟩

theorem append_of_fits (fits : buffer.items.length + more.length ≤ buffer.room) :
    buffer.append grow more = ⟨buffer.items ++ more, buffer.room⟩ := by
  simp only [append, if_pos fits]

end Buffer

namespace Sink

variable {σ : Type}

/-- Bytes go into a growing array. -/
def growing (grow : Nat → Nat → Nat) : Sink (Buffer UInt8) := ⟨Buffer.append grow⟩

/-- The sink cannot tell where one write ends and the next begins. -/
structure Seamless (sink : Sink σ) : Prop where
  nil : ∀ out, sink.write out [] = out
  append : ∀ out front back, sink.write (sink.write out front) back = sink.write out (front ++ back)

theorem seamless_buffer : buffer.Seamless where
  nil out := by simp [buffer]
  append out front back := by simp [buffer]

theorem seamless_counter : counter.Seamless where
  nil count := rfl
  append count front back := by simp [counter, Nat.add_assoc]

/-- The writes of an encoding are as good as one. -/
theorem Seamless.emit {α : Type} {sink : Sink σ} (seamless : sink.Seamless) (format : Format α)
    (value : α) (out : σ) : format.emit sink value out = sink.write out (format.encode value) := by
  unfold Format.emit Format.encode
  induction format.writes value generalizing out with
  | nil => exact (seamless.nil out).symm
  | cons bytes rest ih => rw [List.foldl_cons, ih, seamless.append, List.flatten_cons]

end Sink

namespace Format

variable {α : Type} {grow : Nat → Nat → Nat}

theorem size_eq_length_encode (format : Format α) (value : α) :
    format.size value = (format.encode value).length := by
  rw [size, Sink.seamless_counter.emit]
  exact Nat.zero_add _

/-- Where there is room for an encoding none is made. -/
theorem emit_growing_of_fits (format : Format α) (value : α) {buffer : Buffer UInt8}
    (fits : buffer.items.length + (format.encode value).length ≤ buffer.room) :
    format.emit (.growing grow) value buffer =
      ⟨buffer.items ++ format.encode value, buffer.room⟩ := by
  unfold emit
  unfold encode at fits ⊢
  generalize format.writes value = writes at fits ⊢
  induction writes generalizing buffer with
  | nil => simp
  | cons bytes rest ih =>
    rw [List.flatten_cons, List.length_append, ← Nat.add_assoc] at fits
    have first : (Sink.growing grow).write buffer bytes = ⟨buffer.items ++ bytes, buffer.room⟩ :=
      Buffer.append_of_fits (Nat.le_of_add_right_le fits)
    rw [List.foldl_cons, first, ih (by simpa using fits), List.flatten_cons, List.append_assoc]

variable {β σ : Type} (sink : Sink σ) (out : σ)

theorem emit_text (value : String) : text.emit sink value out =
    sink.write (u64.emit sink (.ofNat (Bytes.ofText value).length) out) (Bytes.ofText value) := rfl

theorem emit_pair (first : Format α) (second : Format β) (value : α × β) :
    (first.pair second).emit sink value out =
      second.emit sink value.2 (first.emit sink value.1 out) := List.foldl_append

theorem emit_none (format : Format α) :
    format.option.emit sink none out = u8.emit sink 0 out := rfl

theorem emit_some (format : Format α) (value : α) :
    format.option.emit sink (some value) out = format.emit sink value (u8.emit sink 1 out) := rfl

theorem emit_list (format : Format α) (values : List α) : format.list.emit sink values out =
    values.foldl (fun out value => format.emit sink value out)
      (u64.emit sink (.ofNat values.length) out) :=
  List.foldl_append.trans List.foldl_flatMap

end Format

namespace WireType

variable {σ : Type} (sink : Sink σ)

/-- Writes a value into a sink part by part: the flag of an option before its value, and the length
of a text or a sequence before its bytes or its items, which follow one after another. -/
def emit : (type : WireType) → type.Carrier → σ → σ
  | text, (value : String), out =>
    sink.write (Format.u64.emit sink (.ofNat (Bytes.ofText value).length) out) (Bytes.ofText value)
  | option item, (value? : Option item.Carrier), out =>
    match value? with
    | none => Format.u8.emit sink 0 out
    | some value => item.emit value (Format.u8.emit sink 1 out)
  | list item, (values : List item.Carrier), out =>
    values.foldl (fun out value => item.emit value out)
      (Format.u64.emit sink (.ofNat values.length) out)
  | pair first second, (value : first.Carrier × second.Carrier), out =>
    second.emit value.2 (first.emit value.1 out)
  | type, value, out => type.format.emit sink value out

theorem emit_eq (type : WireType) (value : type.Carrier) (out : σ) :
    type.emit sink value out = type.format.emit sink value out := by
  induction type generalizing out with
  | text => exact (Format.emit_text sink out value).symm
  | option item ih =>
    cases value with
    | none => exact (Format.emit_none sink out item.format).symm
    | some value => exact (ih value _).trans (Format.emit_some sink out item.format value).symm
  | list item ih =>
    simp only [emit, ih]
    exact (Format.emit_list sink out item.format value).symm
  | pair first second ih₁ ih₂ =>
    simp only [emit, ih₁, ih₂]
    exact (Format.emit_pair sink out first.format second.format value).symm
  | _ => rfl

end WireType

/-- Into every sink a value is written part by part. Written behind what is there already, it leaves
that as it is and adds its encoding, of as many bytes as are counted for it. So room that is set
aside for the bytes counted is filled by the encoding, and none is left or made. -/
theorem WireType.encode_fills (type : WireType) (value : type.Carrier) :
    (∀ {σ : Type} (sink : Sink σ) (out : σ),
      type.format.emit sink value out = type.emit sink value out) ∧
    (∀ out, type.format.emit .buffer value out = out ++ (type.format.encode value).toArray) ∧
    (∀ out, (type.format.emit .buffer value out).size = out.size + type.format.size value) ∧
    (∀ count, type.format.emit .counter value count = count + type.format.size value) ∧
    ∀ grow, type.format.emit (.growing grow) value (.reserve (type.format.size value)) =
      .full (type.format.encode value) := by
  have counted := type.format.size_eq_length_encode value
  have written := Sink.seamless_buffer.emit type.format value
  refine ⟨fun sink out => (type.emit_eq sink value out).symm, written, fun out => ?_,
    fun count => ?_, fun grow => ?_⟩
  · rw [written, counted]
    exact Array.size_append
  · rw [Sink.seamless_counter.emit, counted]
    rfl
  · rw [counted, Format.emit_growing_of_fits]
    · rfl
    · exact Nat.le_of_eq (Nat.zero_add _)

namespace Decoder

variable {α : Type} {grow : Nat → Nat → Nat} {item : Decoder α} {input : Bytes}

/-- `count` values in order, put behind those of a buffer. -/
def fill (grow : Nat → Nat → Nat) (item : Decoder α) : Nat → Buffer α → Decoder (Buffer α)
  | 0, buffer => pure buffer
  | count + 1, buffer => do
    let value ← item
    fill grow item count (buffer.append grow [value])

/-- A value is read from a byte at least. -/
def Consumes (item : Decoder α) : Prop :=
  ∀ ⦃input rest : Bytes⦄ ⦃a : α⦄, item input = .ok (a, rest) → rest.length < input.length

/-- With room for the items that are to come, or for as many as there are bytes left, none is made
for any of them, whether or not the reading ends well. -/
theorem fill_of_fits (consumes : item.Consumes) (count : Nat) {buffer : Buffer α}
    (fits : buffer.items.length + min count input.length ≤ buffer.room) :
    fill grow item count buffer input =
      (repeatInto item count buffer.items.reverse input).map
        fun found => (⟨found.1, buffer.room⟩, found.2) := by
  induction count generalizing buffer input with
  | zero => simp [fill, repeatInto, Except.map]
  | succ count ih =>
    cases head : item input with
    | error e =>
      rw [repeatInto_of_error _ _ head]
      exact bind_of_error _ head
    | ok found =>
      obtain ⟨value, rest⟩ := found
      have shorter := consumes head
      have added : buffer.append grow [value] = ⟨buffer.items ++ [value], buffer.room⟩ := by
        apply Buffer.append_of_fits
        rw [List.length_singleton]
        omega
      rw [repeatInto_of_ok _ _ head]
      apply (bind_of_ok _ head).trans
      have fits : (buffer.items ++ [value]).length + min count rest.length ≤ buffer.room := by
        rw [List.length_append, List.length_singleton]
        omega
      rw [added, ih fits, List.reverse_append]
      rfl

end Decoder

namespace Format

variable {α : Type} {format : Format α} {input behind rest : Bytes} {values : List α}

/-- A sequence read into a buffer. Room is set aside for the items declared, but for no more than
there are bytes left. -/
def decodeReserving (grow : Nat → Nat → Nat) (format : Format α) : Decoder (Buffer α) := do
  let declared ← decodeLength
  let behind ← get
  Decoder.fill grow format.decode declared (.reserve (min declared behind.length))

theorem Lawful.consumes (law : format.Lawful) : format.decode.Consumes := by
  intro input rest value read
  obtain ⟨-, rfl⟩ := law.of_decode_ok read
  have pos := List.length_pos_iff.mpr (law.encode_ne_nil value)
  rw [List.length_append]
  omega

/-- As many items are read as are declared, and there are as many bytes for them. -/
theorem Lawful.length_of_decode_list_ok (law : format.Lawful)
    (read : format.list.decode input = .ok (values, rest)) :
    ∃ behind, decodeLength input = .ok (values.length, behind) ∧ values.length ≤ behind.length := by
  obtain ⟨count, behind, length, repeated⟩ := Decoder.of_bind_ok read
  obtain ⟨_, rfl, rfl, -, rfl⟩ := of_repeatInto_ok law repeated
  refine ⟨_, length, ?_⟩
  rw [List.length_append]
  exact Nat.le_add_right_of_le (length_le_length_flatMap law _)

/-- What is read into a buffer is what is read without one, and the buffer is full of it. -/
theorem Lawful.decodeReserving_eq (law : format.Lawful) (grow : Nat → Nat → Nat) (input : Bytes) :
    format.decodeReserving grow input =
      (format.list.decode input).map fun found => (.full found.1, found.2) := by
  cases length : decodeLength input with
  | error e =>
    have failed : format.list.decode input = .error e := Decoder.bind_of_error _ length
    rw [failed]
    exact Decoder.bind_of_error _ length
  | ok found =>
    obtain ⟨declared, behind⟩ := found
    have items : format.list.decode input = Decoder.repeatInto format.decode declared [] behind :=
      Decoder.bind_of_ok _ length
    have filled : format.decodeReserving grow input = Decoder.fill grow format.decode declared
        (.reserve (min declared behind.length)) behind := Decoder.bind_of_ok _ length
    rw [filled, Decoder.fill_of_fits law.consumes declared (Nat.le_of_eq (Nat.zero_add _)), items]
    cases read : Decoder.repeatInto format.decode declared [] behind with
    | error e => exact congrArg _ read
    | ok found =>
      obtain ⟨_, same, enough⟩ := law.length_of_decode_list_ok (items.trans read)
      obtain ⟨rfl, rfl⟩ := Prod.mk.inj (Except.ok.inj (length.symm.trans same))
      rw [show (Buffer.reserve _ : Buffer α).items.reverse = [] from rfl, read]
      simp only [Except.map, Buffer.full, Buffer.reserve, Nat.min_eq_left enough]

/-- The length that is read first is the number of items, or nothing is read. -/
theorem Lawful.decode_list_of_declared (law : format.Lawful) {declared : UInt64}
    (prefixed : u64.decode input = .ok (declared, behind))
    (read : format.list.decode input = .ok (values, rest)) :
    values.length = declared.toNat ∧ declared.toNat ≤ behind.length := by
  obtain ⟨_, same, enough⟩ := law.length_of_decode_list_ok read
  obtain ⟨word, _, first, limited⟩ := Decoder.of_bind_ok same
  obtain ⟨rfl, rfl⟩ := Prod.mk.inj (Except.ok.inj (first.symm.trans prefixed))
  split at limited
  · simp at limited
  · obtain ⟨length, rfl⟩ : word.toNat = values.length ∧ _ = _ := by simpa using limited
    exact ⟨length.symm, length ▸ enough⟩

end Format

/-- A value takes a byte at least. So a sequence that declares more items than there are bytes
behind its length is not read, and one that is read has just the items it declares. The room set
aside for it, for the items declared or for as many as there are bytes if these are fewer, is then
filled by the items, and none is left or made. -/
theorem WireType.decode_list_fills (type : WireType) :
    (∀ input value rest, type.format.decode input = .ok (value, rest) →
      ∃ front, front ≠ [] ∧ input = front ++ rest) ∧
    (∀ input declared behind, Format.u64.decode input = .ok (declared, behind) →
      (behind.length < declared.toNat → ∃ e, type.format.list.decode input = .error e) ∧
      ∀ values rest, type.format.list.decode input = .ok (values, rest) →
        values.length = declared.toNat ∧ declared.toNat ≤ behind.length ∧
          min declared.toNat behind.length = values.length) ∧
    ∀ grow input, type.format.decodeReserving grow input =
      (type.format.list.decode input).map fun found => (.full found.1, found.2) := by
  have law := type.lawful_format
  refine ⟨fun input value rest read => ?_, fun input declared behind prefixed => ⟨fun many => ?_,
    fun values rest read => ?_⟩, law.decodeReserving_eq⟩
  · exact ⟨_, law.encode_ne_nil value, (law.of_decode_ok read).2⟩
  · cases read : type.format.list.decode input with
    | error e => exact ⟨e, rfl⟩
    | ok found =>
      have enough := (law.decode_list_of_declared prefixed read).2
      omega
  · obtain ⟨length, enough⟩ := law.decode_list_of_declared prefixed read
    exact ⟨length, enough, by omega⟩

/-- Two items in three bytes, with one byte left over, and the most items that can be declared with
two bytes behind. -/
theorem WireType.decode_list_fills_options :
    let format := Format.u8.option
    let input : Bytes := [2, 0, 0, 0, 0, 0, 0, 0, 0, 1, 7, 9]
    let greedy : Bytes := [0, 0, 0, 1, 0, 0, 0, 0, 0, 0]
    format.decode [1, 7, 9] = .ok (some 7, [9]) ∧
      (∃ front : Bytes, front ≠ [] ∧ [1, 7, 9] = front ++ [9]) ∧
      format.list.decode input = .ok ([none, some 7], [9]) ∧ min 2 4 = [none, some 7].length ∧
      (∀ grow, format.decodeReserving grow input = .ok (⟨[none, some 7], 2⟩, [9])) ∧
      Format.u64.decode greedy = .ok (.ofNat Format.maxLength, [0, 0]) ∧
      ∃ e, format.list.decode greedy = .error e := by
  intro format input greedy
  obtain ⟨consumes, declares, reserves⟩ := decode_list_fills (option u8)
  have item : format.decode [1, 7, 9] = .ok (some 7, [9]) := rfl
  have read : format.list.decode input = .ok ([none, some 7], [9]) := rfl
  have two : Format.u64.decode input = .ok (2, [0, 1, 7, 9]) := rfl
  have most : Format.u64.decode greedy = .ok (.ofNat Format.maxLength, [0, 0]) := rfl
  exact ⟨item, consumes _ _ _ item, read, ((declares _ _ _ two).2 _ _ read).2.2,
    fun grow => (reserves grow input).trans (congrArg _ read), most,
    (declares _ _ _ most).1 (by decide)⟩

end ContractLink
