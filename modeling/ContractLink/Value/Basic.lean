import ContractLink.Value.Tag
import ContractLink.Value.Dict
import ContractLink.Address.Basic
/-!
Values that cross the link, and their kinds.
-/
namespace ContractLink

/-- A dictionary is the list of its entries; `Value.Ordered` says that their keys increase. -/
inductive Value where
  | nil
  | integer (v : Int128)
  | bytes (data : Bytes)
  | text (s : String)
  | bool (b : Bool)
  | address (a : Address)
  | list (items : List Value)
  | dict (entries : List (String × Value))
  /-- A kind that is not built in, under a tag chosen by the engine. -/
  | custom (tag : UInt8) (data : Bytes)
  deriving Repr, Inhabited

/-- What selects the handler of a value. -/
inductive Kind where
  | builtin (tag : TypeTag)
  | custom (tag : UInt8)
  deriving DecidableEq, Repr

namespace Kind

def tag : Kind → UInt8
  | builtin tag => tag.code
  | custom tag => tag

def name : Kind → String
  | builtin tag => tag.name
  | custom tag => s!"custom({tag})"

end Kind

namespace Value

def kind : Value → Kind
  | nil => .builtin .nil
  | integer _ => .builtin .integer
  | bytes _ => .builtin .bytes
  | text _ => .builtin .text
  | bool _ => .builtin .bool
  | address _ => .builtin .address
  | list _ => .builtin .list
  | dict _ => .builtin .dict
  | custom tag _ => .custom tag

def asInteger? : Value → Option Int128
  | integer v => some v
  | _ => none

def asAddress? : Value → Option Address
  | address a => some a
  | _ => none

def asText? : Value → Option String
  | text s => some s
  | _ => none

def asList? : Value → Option (List Value)
  | list items => some items
  | _ => none

/-- An absent value is nil. -/
def ofOption : Option Value → Value
  | some value => value
  | none => nil

mutual

/-- Every dictionary in the value has increasing keys. -/
def Ordered : Value → Prop
  | list items => OrderedItems items
  | dict entries => Dict.Increasing entries ∧ OrderedEntries entries
  | _ => True

def OrderedItems : List Value → Prop
  | [] => True
  | value :: rest => Ordered value ∧ OrderedItems rest

def OrderedEntries : List (String × Value) → Prop
  | [] => True
  | (_, value) :: rest => Ordered value ∧ OrderedEntries rest

end

mutual

def same : Value → Value → Bool
  | nil, nil => true
  | integer v, integer w => v = w
  | bytes d, bytes e => d = e
  | text s, text t => s = t
  | bool b, bool c => b = c
  | address a, address b => a = b
  | list xs, list ys => sameItems xs ys
  | dict xs, dict ys => sameEntries xs ys
  | custom t d, custom u e => t = u && d = e
  | _, _ => false

def sameItems : List Value → List Value → Bool
  | [], [] => true
  | x :: xs, y :: ys => same x y && sameItems xs ys
  | _, _ => false

def sameEntries : List (String × Value) → List (String × Value) → Bool
  | [], [] => true
  | (k, x) :: xs, (l, y) :: ys => k = l && same x y && sameEntries xs ys
  | _, _ => false

end

mutual

theorem same_iff : ∀ a b : Value, same a b = true ↔ a = b
  | nil, b | integer _, b | bytes _, b | text _, b | bool _, b | address _, b | custom .., b => by
    cases b <;> simp [same]
  | list xs, b => by cases b <;> simp [same, sameItems_iff xs]
  | dict xs, b => by cases b <;> simp [same, sameEntries_iff xs]

theorem sameItems_iff : ∀ xs ys : List Value, sameItems xs ys = true ↔ xs = ys
  | [], ys => by cases ys <;> simp [sameItems]
  | x :: xs, ys => by cases ys <;> simp [sameItems, same_iff x, sameItems_iff xs]

theorem sameEntries_iff : ∀ xs ys : List (String × Value), sameEntries xs ys = true ↔ xs = ys
  | [], ys => by cases ys <;> simp [sameEntries]
  | (k, x) :: xs, ys => by
    rcases ys with _ | ⟨⟨l, y⟩, ys⟩ <;>
      simp [sameEntries, same_iff x, sameEntries_iff xs]

end

instance : DecidableEq Value := fun a b => decidable_of_iff _ (same_iff a b)

end Value

end ContractLink
