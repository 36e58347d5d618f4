import ContractLink.Wire.Format
/-!
The built-in kinds of values and their tags on the wire.
-/
namespace ContractLink

inductive TypeTag where
  | nil
  | dict
  | list
  | bytes
  | text
  | bool
  | address
  | integer
  deriving DecidableEq, Repr

namespace TypeTag

def code : TypeTag → UInt8
  | nil => 0
  | dict => 1
  | list => 2
  | bytes => 3
  | text => 4
  | bool => 5
  | address => 10
  | integer => 11

/-- Every built-in tag in the order of the codes. -/
def all : List TypeTag := [nil, dict, list, bytes, text, bool, address, integer]

def ofCode? (code : UInt8) : Option TypeTag := all.find? (·.code = code)

theorem ofCode?_code (t : TypeTag) : ofCode? t.code = some t := by cases t <;> rfl

/-- First code of the kinds that belong to one engine. -/
def firstCustom : UInt8 := 10

/-- The name used in event signatures. -/
def name : TypeTag → String
  | nil => "nil"
  | dict => "dict"
  | list => "list"
  | bytes => "bytes"
  | text => "str"
  | bool => "bool"
  | address => "Address"
  | integer => "int"

/-- The name of the constructor in the view of a value. -/
def constructorName : TypeTag → String
  | nil => "Nil"
  | dict => "Dict"
  | list => "List"
  | bytes => "Bytes"
  | text => "String"
  | bool => "Bool"
  | address => "Address"
  | integer => "Integer"

/-- Kinds whose payload holds further tagged values. -/
def isComposite : TypeTag → Bool
  | list | dict => true
  | _ => false

def format : Format TypeTag := Format.u8.refine ofCode? code

end TypeTag

end ContractLink
