import ContractLink.Value.Basic
import ContractLink.Address.Text
/-!
The constructor view of a value: what it is made of, on one line.
-/
namespace ContractLink

namespace Text

/-- Items between brackets. -/
def bracketed (items : List String) : String := "[" ++ ", ".intercalate items ++ "]"

/-- The numbers of a byte string. -/
def inspectBytes (data : Bytes) : String := bracketed (data.map toString)

/-- The constructor view of an optional byte string. -/
def inspectOption : Option Bytes → String
  | none => "None"
  | some data => "Some(" ++ inspectBytes data ++ ")"

end Text

namespace Value

mutual

def inspect : Value → String
  | nil => "Nil"
  | integer v => s!"Integer({v})"
  | bytes data => "Bytes(" ++ Text.inspectBytes data ++ ")"
  | text s => "String(" ++ Text.quoteText s ++ ")"
  | bool b => s!"Bool({b})"
  | address a => "Address(" ++ a.inspect ++ ")"
  | list items => "List(" ++ Text.bracketed (inspectItems items) ++ ")"
  | dict entries => "Dict(\x7b" ++ ", ".intercalate (inspectEntries entries) ++ "\x7d)"
  | custom tag data =>
    s!"Custom \x7b tag: {tag}, data: " ++ Text.inspectBytes data ++ " \x7d"

def inspectItems : List Value → List String
  | [] => []
  | value :: rest => inspect value :: inspectItems rest

def inspectEntries : List (String × Value) → List String
  | [] => []
  | (key, value) :: rest => (Text.quoteText key ++ ": " ++ inspect value) :: inspectEntries rest

end

end Value

end ContractLink
