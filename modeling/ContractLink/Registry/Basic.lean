import ContractLink.Registry.Handler
/-!
Registries of handlers. Writing a value looks its handler up under the tag of its kind, for every
node of the value; reading does the same for every tag and counts how deep a payload is nested.
-/
namespace ContractLink

/-- At most one handler for each tag. -/
structure Registry where
  handler? : UInt8 → Option Handler

namespace Registry

/-- Deepest nesting of lists and dictionaries that is read. -/
def maxNesting : Nat := 64

def empty : Registry := ⟨fun _ => none⟩

/-- Puts a handler under a tag, in place of one already there. -/
def register (registry : Registry) (tag : UInt8) (handler : Handler) : Registry :=
  ⟨fun t => if t = tag then some handler else registry.handler? t⟩

/-- Every built-in kind under its own tag. -/
def standard : Registry :=
  empty
    |>.register TypeTag.nil.code .nil
    |>.register TypeTag.integer.code .integer
    |>.register TypeTag.bytes.code .bytes
    |>.register TypeTag.text.code .text
    |>.register TypeTag.bool.code .bool
    |>.register TypeTag.address.code .address
    |>.register TypeTag.list.code .list
    |>.register TypeTag.dict.code .dict

def supports (registry : Registry) (tag : UInt8) : Bool := (registry.handler? tag).isSome

/-- The tags with a handler, in increasing order. -/
def tags (registry : Registry) : List UInt8 :=
  ((List.range 256).map UInt8.ofNat).filter registry.supports

/-- The constructor view of a registry. -/
def inspect (registry : Registry) : String :=
  "Codec \x7b tags: " ++ Text.bracketed (registry.tags.map toString) ++ " \x7d"

mutual

/-- The payload that a handler makes of a value; it refuses a value of a foreign kind. -/
def payload (registry : Registry) (handler : Handler) (value : Value) : Except CodecError Bytes :=
  match handler, value with
  | .nil, .nil => .ok []
  | .integer, .integer v => .ok v.toBytes
  | .bytes, .bytes data => .ok data
  | .text, .text s => .ok (Bytes.ofText s)
  | .bool, .bool b => .ok [if b then 1 else 0]
  | .address, .address a => .ok a.toBytes
  | .list, .list items => do return Handler.listFormat.encode (← registry.encodeItems items)
  | .dict, .dict entries => do return Handler.dictFormat.encode (← registry.encodeEntries entries)
  | .custom width, .custom tag data => do
    Handler.checkWidth width tag data
    return data
  | _, value => .error (.unsupported value.kind)

/-- The typed bytes of each value in order, up to the first that has none. -/
def encodeItems (registry : Registry) : List Value → Except CodecError (List TypedBytes)
  | [] => .ok []
  | value :: rest =>
    match registry.handler? value.kind.tag with
    | none => .error (.unsupported value.kind)
    | some handler => do
      let data ← registry.payload handler value
      return ⟨value.kind.tag, data⟩ :: (← registry.encodeItems rest)

/-- The same for the values of a dictionary. -/
def encodeEntries (registry : Registry) :
    List (String × Value) → Except CodecError (List (String × TypedBytes))
  | [] => .ok []
  | (key, value) :: rest =>
    match registry.handler? value.kind.tag with
    | none => .error (.unsupported value.kind)
    | some handler => do
      let data ← registry.payload handler value
      return (key, ⟨value.kind.tag, data⟩) :: (← registry.encodeEntries rest)

end

def encode (registry : Registry) (value : Value) : Except CodecError TypedBytes :=
  match registry.handler? value.kind.tag with
  | none => .error (.unsupported value.kind)
  | some handler => do return ⟨value.kind.tag, ← registry.payload handler value⟩

theorem encodeItems_cons (registry : Registry) (value : Value) (rest : List Value) :
    registry.encodeItems (value :: rest) = do
      let typed ← registry.encode value
      return typed :: (← registry.encodeItems rest) := by
  simp only [encodeItems, encode]
  cases registry.handler? value.kind.tag with
  | none => rfl
  | some handler => simp only; cases registry.payload handler value <;> rfl

theorem encodeEntries_cons (registry : Registry) (key : String) (value : Value)
    (rest : List (String × Value)) :
    registry.encodeEntries ((key, value) :: rest) = do
      let typed ← registry.encode value
      return (key, typed) :: (← registry.encodeEntries rest) := by
  simp only [encodeEntries, encode]
  cases registry.handler? value.kind.tag with
  | none => rfl
  | some handler => simp only; cases registry.payload handler value <;> rfl

/-- Reads a payload that may hold payloads `levels - 1` levels deep; none at all at level zero. -/
def decodeWithin (registry : Registry) : Nat → UInt8 → Bytes → Except CodecError Value
  | 0, tag, _ => .error (.invalidPayload tag (.tooDeep maxNesting))
  | levels + 1, tag, data =>
    match registry.handler? tag with
    | none => .error (.unknownTag tag)
    | some handler => handler.decode (registry.decodeWithin levels) tag data

/-- Reads a payload found `depth` levels inside a value. -/
def decodeAt (registry : Registry) (depth : Nat) (tag : UInt8) (data : Bytes) :
    Except CodecError Value :=
  registry.decodeWithin (maxNesting + 1 - depth) tag data

def decode (registry : Registry) (typed : TypedBytes) : Except CodecError Value :=
  registry.decodeAt 0 typed.tag typed.data

def decodeItemsAt (registry : Registry) (depth : Nat) (items : List TypedBytes) :
    Except CodecError (List Value) :=
  items.mapM fun item => registry.decodeAt depth item.tag item.data

/-- What a handler at `depth` makes of a payload, whether or not it is the registered one. -/
def decodeWith (registry : Registry) (handler : Handler) (depth : Nat) (tag : UInt8)
    (data : Bytes) : Except CodecError Value :=
  handler.decode (registry.decodeAt (depth + 1)) tag data

/-- The elements of a list are read together. -/
theorem decodeWith_list (registry : Registry) (depth : Nat) (tag : UInt8) (data : Bytes) :
    registry.decodeWith .list depth tag data = (do
      let items ← (Handler.listFormat.decodeAll data).mapError .nested
      return .list (← registry.decodeItemsAt (depth + 1) items)) := rfl

end Registry

end ContractLink
