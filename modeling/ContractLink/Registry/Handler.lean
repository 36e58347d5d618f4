import ContractLink.Registry.Error
import ContractLink.Value.Typed
/-!
Handlers: the rule of one kind of payload. A list or dictionary payload is the binary encoding of
the typed bytes of its elements; how an element is read is the caller's.
-/
namespace ContractLink

inductive Handler where
  | nil
  | integer
  | bytes
  | text
  | bool
  | address
  | list
  | dict
  /-- Passes the payload of a custom value through, of the given width if there is one. -/
  | custom (width : Option Nat)
  deriving DecidableEq, Repr

namespace Handler

def listFormat : Format (List TypedBytes) := TypedBytes.format.list

def dictFormat : Format (List (String × TypedBytes)) := (Format.text.pair TypedBytes.format).list

/-- Refuses a payload that is not of the wanted width. -/
def checkWidth (width : Option Nat) (tag : UInt8) (data : Bytes) : Except CodecError Unit :=
  match width with
  | some w =>
    if data.length = w then .ok () else .error (.invalidPayload tag (.wrongWidth w data.length))
  | none => .ok ()

/-- Reads the value of an entry before it looks whether the key is new. -/
def addEntry (element : UInt8 → Bytes → Except CodecError Value) (tag : UInt8)
    (dict : List (String × Value)) (entry : String × TypedBytes) :
    Except CodecError (List (String × Value)) := do
  let value ← element entry.2.tag entry.2.data
  if (Dict.find? entry.1 dict).isSome then throw (.invalidPayload tag (.duplicateKey entry.1))
  else return Dict.insert entry.1 value dict

/-- Reads a payload that stands under `tag`. -/
def decode (handler : Handler) (element : UInt8 → Bytes → Except CodecError Value) (tag : UInt8)
    (data : Bytes) : Except CodecError Value :=
  match handler with
  | nil =>
    if data = [] then .ok .nil else .error (.invalidPayload tag (.notEmpty data.length))
  | integer =>
    match Int128.ofBytes? data with
    | some v => .ok (.integer v)
    | none => .error (.invalidPayload tag (.integerTooWide data.length))
  | bytes => .ok (.bytes data)
  | text =>
    match Utf8.decode data with
    | .ok s => .ok (.text s)
    | .error fault => .error (.invalidPayload tag (.notText fault))
  | bool =>
    if data = [0] then .ok (.bool false)
    else if data = [1] then .ok (.bool true)
    else .error (.invalidPayload tag (.notFlag data))
  | address => .address <$> (Address.ofBytes data).mapError .address
  | list => do
    let items ← (listFormat.decodeAll data).mapError .nested
    return .list (← items.mapM fun item => element item.tag item.data)
  | dict => do
    let entries ← (dictFormat.decodeAll data).mapError .nested
    return .dict (← entries.foldlM (addEntry element tag) [])
  | custom width => do
    checkWidth width tag data
    return .custom tag data

end Handler

end ContractLink
