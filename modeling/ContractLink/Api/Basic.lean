import ContractLink.Api.Descriptor
/-!
The API of a contract: its methods in the order of their declaration. A method is added only if
nothing is wrong with it and nothing before it clashes with it.
-/
namespace ContractLink

/-- What is wrong with a method or with its place among others. -/
inductive DescriptorFault where
  | emptyName
  | duplicateParam (owner param : String)
  | requiredAfterOptional (function input : String)
  | defaultType (function input : String) (type : TypeTag)
  | duplicateFunction (function : String)
  | tooManyIndexed (event : String) (indexed : UInt64) (declared : Nat)
  | eventDefault (event param : String)
  | duplicateEvent (event : String)
  | duplicateFallback
  deriving DecidableEq, Repr

namespace DescriptorFault

def message : DescriptorFault → String
  | emptyName => "empty method name"
  | duplicateParam owner param => s!"{owner}: duplicate parameter {param}"
  | requiredAfterOptional function input =>
    s!"function {function}: required input after optional input {input}"
  | defaultType function input type =>
    s!"function {function}: default for {input} is not of type {type.name}"
  | duplicateFunction function => s!"duplicate function {function}"
  | tooManyIndexed event indexed declared =>
    s!"event {event}: {indexed} indexed parameters but only {declared} declared"
  | eventDefault event param => s!"event {event}: parameter {param} cannot have a default"
  | duplicateEvent event => s!"duplicate event {event}"
  | duplicateFallback => "duplicate fallback"

end DescriptorFault

inductive ApiError where
  | invalid (fault : DescriptorFault)
  /-- No contract to describe. -/
  | missing (code : String)
  | decode (e : DecodeError)
  deriving DecidableEq, Repr

namespace ApiError

def message : ApiError → String
  | invalid fault => s!"invalid descriptor: {fault.message}"
  | missing code => s!"invalid descriptor: no contract at {code}"
  | decode e => s!"malformed api info: {e.message}"

end ApiError

/-- The first name that one before it has too. -/
def firstRepeat? (seen : List String) : List String → Option String
  | [] => none
  | name :: rest => if name ∈ seen then some name else firstRepeat? (name :: seen) rest

namespace FunctionDecl

/-- The first input with a default, when one without comes after it. -/
def misplacedOptional? (f : FunctionDecl) : Option Param :=
  match f.inputs.dropWhile (!·.isOptional) with
  | [] => none
  | first :: rest => if rest.all Param.isOptional then none else some first

/-- Whether a default is not under the tag of its parameter's type. -/
def wrongDefault (p : Param) : Bool :=
  match p.default? with
  | some typed => typed.tag ≠ p.type.code
  | none => false

def fault? (f : FunctionDecl) : Option DescriptorFault :=
  if f.name = "" then some .emptyName
  else (firstRepeat? [] (f.inputs.map (·.name))).map (.duplicateParam f.name)
    <|> f.misplacedOptional?.map (fun p => .requiredAfterOptional f.name p.name)
    <|> (f.inputs.find? wrongDefault).map (fun p => .defaultType f.name p.name p.type)

end FunctionDecl

namespace EventDecl

def fault? (e : EventDecl) : Option DescriptorFault :=
  if e.name = "" then some .emptyName
  else (firstRepeat? [] (e.params.map (·.name))).map (.duplicateParam e.name)
    <|> (if e.params.length < e.indexed.toNat then
        some (.tooManyIndexed e.name e.indexed e.params.length) else none)
    <|> (e.params.find? Param.isOptional).map (fun p => .eventDefault e.name p.name)

end EventDecl

namespace Method

def fault? : Method → Option DescriptorFault
  | function f => f.fault?
  | fallback _ => none
  | event e => e.fault?

def function? : Method → Option FunctionDecl
  | function f => some f
  | _ => none

def event? : Method → Option EventDecl
  | event e => some e
  | _ => none

def fallback? : Method → Option UInt32
  | fallback flags => some flags
  | _ => none

end Method

structure Api where
  methods : List Method := []
  deriving DecidableEq, Repr

namespace Api

def functions (api : Api) : List FunctionDecl := api.methods.filterMap Method.function?

def events (api : Api) : List EventDecl := api.methods.filterMap Method.event?

/-- The flags of the fallback. -/
def fallback? (api : Api) : Option UInt32 := api.methods.findSome? Method.fallback?

def function? (api : Api) (name : String) : Option FunctionDecl :=
  api.functions.find? (·.name = name)

def event? (api : Api) (name : String) : Option EventDecl := api.events.find? (·.name = name)

/-- Functions and events have names of their own among themselves, and there is one fallback. -/
def clash? (api : Api) : Method → Option DescriptorFault
  | .function f => if (api.function? f.name).isSome then some (.duplicateFunction f.name) else none
  | .event e => if (api.event? e.name).isSome then some (.duplicateEvent e.name) else none
  | .fallback _ => if api.fallback?.isSome then some .duplicateFallback else none

/-- A change of an API in place. Also a change that is refused leaves an API. -/
abbrev Change := EStateM ApiError Api Unit

/-- What a change that is not refused makes of an API. -/
def Change.result (change : Change) (api : Api) : Except ApiError Api :=
  match change.run api with
  | .ok () changed => .ok changed
  | .error e _ => .error e

/-- The API after a change, whether or not it is refused. -/
def Change.left (change : Change) (api : Api) : Api :=
  match change.run api with
  | .ok () changed => changed
  | .error _ left => left

/-- Adds a method behind the others. -/
def insert (method : Method) : Change := do
  let api ← get
  match method.fault? <|> api.clash? method with
  | some fault => throw (.invalid fault)
  | none => set (⟨api.methods ++ [method]⟩ : Api)

/-- A parameter that must be given. -/
def required (param : String × TypeTag) : Param := { name := param.1, type := param.2 }

def insertFunction (name : String) (flags : UInt32) (inputs : List (String × TypeTag))
    (outputs : List TypeTag) : Change :=
  insert (.function ⟨name, flags, inputs.map required, outputs⟩)

def insertEvent (name : String) (flags : UInt32) (indexed : UInt64)
    (params : List (String × TypeTag)) : Change :=
  insert (.event ⟨name, flags, indexed, params.map required⟩)

def insertFallback (flags : UInt32) : Change := insert (.fallback flags)

def push (api : Api) (method : Method) : Except ApiError Api := (insert method).result api

def addFunction (api : Api) (name : String) (flags : UInt32) (inputs : List (String × TypeTag))
    (outputs : List TypeTag) : Except ApiError Api :=
  (insertFunction name flags inputs outputs).result api

def addEvent (api : Api) (name : String) (flags : UInt32) (indexed : UInt64)
    (params : List (String × TypeTag)) : Except ApiError Api :=
  (insertEvent name flags indexed params).result api

def addFallback (api : Api) (flags : UInt32) : Except ApiError Api :=
  (insertFallback flags).result api

/-- Adds the methods one by one. -/
def ofMethods (methods : List Method) : Except ApiError Api := methods.foldlM push {}

/-- The same methods, if they can be added one by one. -/
def validated (api : Api) : Except ApiError Api := ofMethods api.methods

def format : Format Api := Method.format.list.via (⟨·⟩) (·.methods)

def serialize (api : Api) : Bytes := format.encode api

/-- Reads only what can be built. -/
def deserialize (bytes : Bytes) : Except ApiError Api := do
  let api ← (format.decodeAll bytes).mapError .decode
  api.validated

end Api

end ContractLink
