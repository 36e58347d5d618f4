import ContractLink.Value.Tag
import ContractLink.Value.Typed
/-!
What a contract declares: functions, events and a fallback, with their parameters.
-/
namespace ContractLink

namespace Flag

def readonly : UInt32 := 1

def payable : UInt32 := 4

end Flag

/-- A parameter with a default may be left out of a call. -/
structure Param where
  name : String
  type : TypeTag
  default? : Option TypedBytes := none
  deriving DecidableEq, Repr

namespace Param

def isOptional (p : Param) : Bool := p.default?.isSome

def format : Format Param :=
  (Format.text.pair (TypeTag.format.pair TypedBytes.format.option)).via
    (fun (name, type, default?) => ⟨name, type, default?⟩) fun p => (p.name, p.type, p.default?)

end Param

structure FunctionDecl where
  name : String
  flags : UInt32
  inputs : List Param
  outputs : List TypeTag
  deriving DecidableEq, Repr

namespace FunctionDecl

def isReadonly (f : FunctionDecl) : Bool := f.flags &&& Flag.readonly ≠ 0

def isPayable (f : FunctionDecl) : Bool := f.flags &&& Flag.payable ≠ 0

/-- How many inputs at the end may be left out. -/
def optionalCount (f : FunctionDecl) : Nat := (f.inputs.reverse.takeWhile Param.isOptional).length

def format : Format FunctionDecl :=
  (Format.text.pair (Format.u32.pair (Param.format.list.pair TypeTag.format.list))).via
    (fun (name, flags, inputs, outputs) => ⟨name, flags, inputs, outputs⟩)
    fun f => (f.name, f.flags, f.inputs, f.outputs)

end FunctionDecl

/-- The first `indexed` parameters are indexed. -/
structure EventDecl where
  name : String
  flags : UInt32
  indexed : UInt64
  params : List Param
  deriving DecidableEq, Repr

namespace EventDecl

def indexedParams (e : EventDecl) : List Param := e.params.take e.indexed.toNat

def dataParams (e : EventDecl) : List Param := e.params.drop e.indexed.toNat

/-- What peers know the event by: its name and the types of its parameters. -/
def signature (e : EventDecl) : String :=
  e.name ++ "(" ++ ",".intercalate (e.params.map (·.type.name)) ++ ")"

def format : Format EventDecl :=
  (Format.text.pair (Format.u32.pair (Format.u64.pair Param.format.list))).via
    (fun (name, flags, indexed, params) => ⟨name, flags, indexed, params⟩)
    fun e => (e.name, e.flags, e.indexed, e.params)

end EventDecl

inductive Method where
  | function (f : FunctionDecl)
  /-- Invoked when a call names no method. -/
  | fallback (flags : UInt32)
  | event (e : EventDecl)
  deriving DecidableEq, Repr

namespace Method

/-- A tag for the kind of the method stands before its descriptor. -/
def format : Format Method where
  writes
    | function f => Format.u8.writes 0 ++ FunctionDecl.format.writes f
    | fallback flags => Format.u8.writes 1 ++ Format.u32.writes flags
    | event e => Format.u8.writes 2 ++ EventDecl.format.writes e
  decode := do
    let kind ← Format.u8.decode
    if kind = 0 then return function (← FunctionDecl.format.decode)
    else if kind = 1 then return fallback (← Format.u32.decode)
    else if kind = 2 then return event (← EventDecl.format.decode)
    else throw .invalidValue
  lengths
    | function f => FunctionDecl.format.lengths f
    | fallback flags => Format.u32.lengths flags
    | event e => EventDecl.format.lengths e

end Method

end ContractLink
