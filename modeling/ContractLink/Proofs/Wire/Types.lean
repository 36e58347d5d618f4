import ContractLink.Api.Basic
import ContractLink.Message.Body
import ContractLink.Proofs.Address.Binary
/-!
The types that cross the link, as one family closed under options, sequences and pairs. For each of
them the binary format is lawful: every value whose lengths are within the limit is read back in
front of any bytes, and only what writing produces is read.
-/
namespace ContractLink

theorem TypeTag.lawful_format : TypeTag.format.Lawful := Format.lawful_enum TypeTag.ofCode?_code

theorem MessageKind.lawful_format : MessageKind.format.Lawful :=
  Format.lawful_enum MessageKind.ofCode?_code

theorem TypedBytes.lawful_format : TypedBytes.format.Lawful :=
  (Format.lawful_u8.pair Format.lawful_blob).via (fun _ => rfl) fun _ => rfl

theorem TypedBytes.readable_iff (t : TypedBytes) :
    format.Readable t ↔ t.data.length ≤ Format.maxLength := by
  refine (Format.readable_pair .u8 .blob (t.tag, t.data)).trans ?_
  simp [Format.readable_blob, Format.u8]

theorem TypedBytes.length_data_mem_lengths (t : TypedBytes) :
    t.data.length ∈ format.lengths t := List.mem_append_right _ List.mem_cons_self

theorem Param.lawful_format : Param.format.Lawful :=
  (Format.lawful_text.pair (TypeTag.lawful_format.pair TypedBytes.lawful_format.option)).via
    (fun _ => rfl) fun _ => rfl

theorem FunctionDecl.lawful_format : FunctionDecl.format.Lawful :=
  (Format.lawful_text.pair (Format.lawful_u32.pair
    (Param.lawful_format.list.pair TypeTag.lawful_format.list))).via (fun _ => rfl) fun _ => rfl

theorem EventDecl.lawful_format : EventDecl.format.Lawful :=
  (Format.lawful_text.pair (Format.lawful_u32.pair
    (Format.lawful_u64.pair Param.lawful_format.list))).via (fun _ => rfl) fun _ => rfl

namespace Method

theorem encode_function (f : FunctionDecl) :
    format.encode (function f) = 0 :: FunctionDecl.format.encode f := by
  simp [format, Format.encode, Format.u8, Format.word, Bytes.littleEndian]

theorem encode_fallback (flags : UInt32) :
    format.encode (fallback flags) = 1 :: Format.u32.encode flags := by
  simp [format, Format.encode, Format.u8, Format.word, Bytes.littleEndian]

theorem encode_event (e : EventDecl) :
    format.encode (event e) = 2 :: EventDecl.format.encode e := by
  simp [format, Format.encode, Format.u8, Format.word, Bytes.littleEndian]

/-- The three tags differ, so each method is read by the branch of its own kind. -/
theorem lawful_format : format.Lawful where
  decode_encode {method} rest expressible := by
    cases method with
    | function f =>
      rw [encode_function]
      apply (Decoder.bind_of_ok _ (Format.decode_u8 0 _)).trans
      exact FunctionDecl.lawful_format.decode_map function rest expressible
    | fallback flags =>
      rw [encode_fallback]
      apply (Decoder.bind_of_ok _ (Format.decode_u8 1 _)).trans
      exact Format.lawful_u32.decode_map fallback rest expressible
    | event e =>
      rw [encode_event]
      apply (Decoder.bind_of_ok _ (Format.decode_u8 2 _)).trans
      exact EventDecl.lawful_format.decode_map event rest expressible
  of_decode_ok h := by
    obtain ⟨kind, middle, read, branch⟩ := Decoder.of_bind_ok h
    obtain rfl := Format.of_decode_u8_ok read
    by_cases isFunction : kind = 0
    · subst isFunction
      obtain ⟨f, rfl, readable, rfl⟩ := FunctionDecl.lawful_format.of_decode_map_ok branch
      exact ⟨readable, by simp [encode_function]⟩
    by_cases isFallback : kind = 1
    · subst isFallback
      obtain ⟨flags, rfl, readable, rfl⟩ := Format.lawful_u32.of_decode_map_ok branch
      exact ⟨readable, by simp [encode_fallback]⟩
    by_cases isEvent : kind = 2
    · subst isEvent
      obtain ⟨e, rfl, readable, rfl⟩ := EventDecl.lawful_format.of_decode_map_ok branch
      exact ⟨readable, by simp [encode_event]⟩
    simp [isFunction, isFallback, isEvent] at branch
  encode_ne_nil method := by
    cases method <;> simp [encode_function, encode_fallback, encode_event]
  le_length_encode {method n} mem := by
    cases method with
    | function f =>
      rw [encode_function, List.length_cons]
      exact Nat.le_succ_of_le (FunctionDecl.lawful_format.le_length_encode mem)
    | fallback flags => cases mem
    | event e =>
      rw [encode_event, List.length_cons]
      exact Nat.le_succ_of_le (EventDecl.lawful_format.le_length_encode mem)

end Method

theorem Api.lawful_format : Api.format.Lawful :=
  Method.lawful_format.list.via (fun _ => rfl) fun _ => rfl

theorem Message.lawful_format : Message.format.Lawful :=
  (MessageKind.lawful_format.pair Format.lawful_blob).via (fun _ => rfl) fun _ => rfl

namespace Body

theorem Version.lawful_format : Version.format.Lawful :=
  (Format.lawful_u16.pair (Format.lawful_u32.pair Format.lawful_text)).via
    (fun _ => rfl) fun _ => rfl

theorem Invoke.lawful_format : Invoke.format.Lawful :=
  (Format.lawful_text.pair (TypedBytes.lawful_format.pair (TypedBytes.lawful_format.pair
    (TypedBytes.lawful_format.pair (TypedBytes.lawful_format.pair
      (Format.lawful_text.pair TypedBytes.lawful_format)))))).via (fun _ => rfl) fun _ => rfl

theorem Result.lawful_format : Result.format.Lawful :=
  (Format.lawful_u32.pair (TypedBytes.lawful_format.pair TypedBytes.lawful_format)).via
    (fun _ => rfl) fun _ => rfl

theorem GetValueRequest.lawful_format : GetValueRequest.format.Lawful :=
  Format.lawful_blob.via (fun _ => rfl) fun _ => rfl

theorem GetValueResponse.lawful_format : GetValueResponse.format.Lawful :=
  Format.lawful_blob.option.via (fun _ => rfl) fun _ => rfl

theorem SetValue.lawful_format : SetValue.format.Lawful :=
  (Format.lawful_blob.pair Format.lawful_blob.option).via (fun _ => rfl) fun _ => rfl

theorem Event.lawful_format : Event.format.Lawful :=
  (TypedBytes.lawful_format.list.pair TypedBytes.lawful_format.list).via
    (fun _ => rfl) fun _ => rfl

theorem GetInfoResponse.lawful_format : GetInfoResponse.format.Lawful :=
  TypedBytes.lawful_format.via (fun _ => rfl) fun _ => rfl

theorem GetBalanceRequest.lawful_format : GetBalanceRequest.format.Lawful :=
  TypedBytes.lawful_format.via (fun _ => rfl) fun _ => rfl

theorem GetBalanceResponse.lawful_format : GetBalanceResponse.format.Lawful :=
  TypedBytes.lawful_format.via (fun _ => rfl) fun _ => rfl

theorem GetApiRequest.lawful_format : GetApiRequest.format.Lawful :=
  Format.lawful_text.via (fun _ => rfl) fun _ => rfl

theorem GetApiResponse.lawful_format : GetApiResponse.format.Lawful :=
  (Format.lawful_u32.pair Format.lawful_blob.option).via (fun _ => rfl) fun _ => rfl

end Body

/-- Names of the types that cross the link. -/
inductive WireType where
  | u8
  | u16
  | u32
  | u64
  /-- A count, written as `u64` is. -/
  | size
  | i32
  | i64
  | i128
  | bool
  | text
  | option (item : WireType)
  | list (item : WireType)
  | pair (first second : WireType)
  | address
  | typeTag
  | typedBytes
  | param
  | function
  | event
  | method
  | api
  | messageKind
  | message
  | versionBody
  | invokeBody
  | resultBody
  | getValueRequest
  | getValueResponse
  | setValueBody
  | eventBody
  | getInfoResponse
  | getBalanceRequest
  | getBalanceResponse
  | getApiRequest
  | getApiResponse
  deriving DecidableEq, Repr

namespace WireType

/-- The values of a type. -/
def Carrier : WireType → Type
  | u8 => UInt8
  | u16 => UInt16
  | u32 => UInt32
  | u64 => UInt64
  | size => UInt64
  | i32 => Int32
  | i64 => Int64
  | i128 => Int128
  | bool => Bool
  | text => String
  | option item => Option item.Carrier
  | list item => List item.Carrier
  | pair first second => first.Carrier × second.Carrier
  | address => Address
  | typeTag => TypeTag
  | typedBytes => TypedBytes
  | param => Param
  | function => FunctionDecl
  | event => EventDecl
  | method => Method
  | api => Api
  | messageKind => MessageKind
  | message => Message
  | versionBody => Body.Version
  | invokeBody => Body.Invoke
  | resultBody => Body.Result
  | getValueRequest => Body.GetValueRequest
  | getValueResponse => Body.GetValueResponse
  | setValueBody => Body.SetValue
  | eventBody => Body.Event
  | getInfoResponse => Body.GetInfoResponse
  | getBalanceRequest => Body.GetBalanceRequest
  | getBalanceResponse => Body.GetBalanceResponse
  | getApiRequest => Body.GetApiRequest
  | getApiResponse => Body.GetApiResponse

/-- The binary format of a type. -/
def format : (type : WireType) → Format type.Carrier
  | u8 => Format.u8
  | u16 => Format.u16
  | u32 => Format.u32
  | u64 => Format.u64
  | size => Format.u64
  | i32 => Format.i32
  | i64 => Format.i64
  | i128 => Format.i128
  | bool => Format.bool
  | text => Format.text
  | option item => item.format.option
  | list item => item.format.list
  | pair first second => first.format.pair second.format
  | address => Address.format
  | typeTag => TypeTag.format
  | typedBytes => TypedBytes.format
  | param => Param.format
  | function => FunctionDecl.format
  | event => EventDecl.format
  | method => Method.format
  | api => Api.format
  | messageKind => MessageKind.format
  | message => Message.format
  | versionBody => Body.Version.format
  | invokeBody => Body.Invoke.format
  | resultBody => Body.Result.format
  | getValueRequest => Body.GetValueRequest.format
  | getValueResponse => Body.GetValueResponse.format
  | setValueBody => Body.SetValue.format
  | eventBody => Body.Event.format
  | getInfoResponse => Body.GetInfoResponse.format
  | getBalanceRequest => Body.GetBalanceRequest.format
  | getBalanceResponse => Body.GetBalanceResponse.format
  | getApiRequest => Body.GetApiRequest.format
  | getApiResponse => Body.GetApiResponse.format

theorem lawful_format (type : WireType) : type.format.Lawful := by
  induction type with
  | u8 => exact Format.lawful_u8
  | u16 => exact Format.lawful_u16
  | u32 => exact Format.lawful_u32
  | u64 => exact Format.lawful_u64
  | size => exact Format.lawful_u64
  | i32 => exact Format.lawful_i32
  | i64 => exact Format.lawful_i64
  | i128 => exact Format.lawful_i128
  | bool => exact Format.lawful_bool
  | text => exact Format.lawful_text
  | option item law => exact law.option
  | list item law => exact law.list
  | pair first second law₁ law₂ => exact law₁.pair law₂
  | address => exact Address.lawful_format
  | typeTag => exact TypeTag.lawful_format
  | typedBytes => exact TypedBytes.lawful_format
  | param => exact Param.lawful_format
  | function => exact FunctionDecl.lawful_format
  | event => exact EventDecl.lawful_format
  | method => exact Method.lawful_format
  | api => exact Api.lawful_format
  | messageKind => exact MessageKind.lawful_format
  | message => exact Message.lawful_format
  | versionBody => exact Body.Version.lawful_format
  | invokeBody => exact Body.Invoke.lawful_format
  | resultBody => exact Body.Result.lawful_format
  | getValueRequest => exact Body.GetValueRequest.lawful_format
  | getValueResponse => exact Body.GetValueResponse.lawful_format
  | setValueBody => exact Body.SetValue.lawful_format
  | eventBody => exact Body.Event.lawful_format
  | getInfoResponse => exact Body.GetInfoResponse.lawful_format
  | getBalanceRequest => exact Body.GetBalanceRequest.lawful_format
  | getBalanceResponse => exact Body.GetBalanceResponse.lawful_format
  | getApiRequest => exact Body.GetApiRequest.lawful_format
  | getApiResponse => exact Body.GetApiResponse.lawful_format

/-- A value whose lengths are within the limit is read back in front of any bytes, which are left;
as a whole input it is read only when nothing is left. -/
theorem decode_encode_append (type : WireType) (value : type.Carrier)
    (readable : type.format.Readable value) :
    (∀ rest, type.format.decode (type.format.encode value ++ rest) = .ok (value, rest)) ∧
      type.format.decodeAll (type.format.encode value) = .ok value ∧
      ∀ rest, rest ≠ [] → type.format.decodeAll (type.format.encode value ++ rest) =
        .error (.trailingBytes rest.length) := by
  have law := type.lawful_format
  refine ⟨fun rest => law.decode_readable rest readable, ?_, fun rest left => ?_⟩
  · rw [law.decodeAll_encode readable.expressible, if_pos readable]
  · exact Decoder.all_of_rest (law.decode_readable rest readable) left

theorem decode_encode_append_nested :
    let format := (pair text (list (option i32))).format
    let value : String × List (Option Int32) := ("né", [none, some (-2)])
    format.Readable value ∧
      (∀ rest, format.decode (format.encode value ++ rest) = .ok (value, rest)) ∧
      format.decodeAll (format.encode value) = .ok value ∧
      ∀ rest, rest ≠ [] → format.decodeAll (format.encode value ++ rest) =
        .error (.trailingBytes rest.length) := by
  intro format value
  have readable : (Format.text.pair Format.i32.option.list).Readable value := by decide
  exact ⟨readable, decode_encode_append (pair text (list (option i32))) value readable⟩

/-- Only what writing produces is read, so no two inputs are read as one value. -/
theorem encode_of_decode (type : WireType) (input : Bytes) :
    (∀ value rest, type.format.decode input = .ok (value, rest) →
        input = type.format.encode value ++ rest) ∧
      (∀ value, type.format.decodeAll input = .ok value → type.format.encode value = input) ∧
      ∀ other value, type.format.decodeAll input = .ok value →
        type.format.decodeAll other = .ok value → input = other := by
  have law := type.lawful_format
  refine ⟨fun value rest read => (law.of_decode_ok read).2,
    fun value read => (law.of_decodeAll_ok read).2, fun other value read readOther => ?_⟩
  rw [← (law.of_decodeAll_ok read).2, ← (law.of_decodeAll_ok readOther).2]

theorem encode_of_decode_message :
    let input : Bytes := [9, 2, 0, 0, 0, 0, 0, 0, 0, 1, 2, 7]
    message.format.decode input = .ok (⟨.getApi, [1, 2]⟩, [7]) ∧
      input = message.format.encode ⟨.getApi, [1, 2]⟩ ++ [7] := by
  intro input
  have read : message.format.decode input = .ok (⟨.getApi, [1, 2]⟩, [7]) := rfl
  exact ⟨read, (encode_of_decode message input).1 _ _ read⟩

end WireType

end ContractLink
