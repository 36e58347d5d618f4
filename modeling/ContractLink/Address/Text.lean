import ContractLink.Address.Basic
import ContractLink.Bytes.Hex
import ContractLink.Text.Quoted
/-!
The text form of an address: the marker `hx` or `cx` and forty hexadecimal digits. A text is
measured in UTF-8 bytes. The lenient reader takes every marker but `cx` for `hx`, the strict one
refuses what is neither.
-/
namespace ContractLink

namespace AddressError

/-- Two hexadecimal digits after `0x`. -/
def prefixNumeral (byte : UInt8) : String := "0x" ++ Bytes.toHex [byte]

def message : AddressError → String
  | wrongSize count =>
    s!"illegal address format: expected 21 bytes, got {count}"
  | unknownPrefix byte => "illegal address format: unknown prefix byte " ++ prefixNumeral byte
  | wrongTextSize count =>
    s!"illegal address format: expected 42 characters, got {count}"
  | splitMarker text =>
    "illegal address format: non-ascii address marker in " ++ Text.quoteText text
  | unknownMarker marker =>
    "illegal address format: unknown address marker " ++ Text.quoteText marker
  | badDigit byte position =>
    "invalid address hex: Invalid character " ++ Text.quoteChar (Char.ofNat byte.toNat) ++
      s!" at position {position}"
  | oddDigits => "invalid address hex: Odd number of digits"
  | wrongDigitCount => "invalid address hex: Invalid string length"

def ofHexFault : Hex.Fault → AddressError
  | .badDigit bad => badDigit bad.byte bad.position
  | .oddLength => oddDigits
  | .wrongLength => wrongDigitCount

end AddressError

namespace Address

def accountMarker : String := "hx"

def contractMarker : String := "cx"

/-- The canonical text: its marker and lower-case digits. -/
def toText (a : Address) : String :=
  (if a.contract then contractMarker else accountMarker) ++ Bytes.toHex a.body

instance : ToString Address := ⟨toText⟩

/-- The constructor view of an address. -/
def inspect (a : Address) : String := "Address(\"" ++ a.toText ++ "\")"

/-- The marker and the forty bytes after it. -/
def splitText (text : String) : Except AddressError (String × Bytes) :=
  let utf8 := Bytes.ofText text
  if utf8.length ≠ textSize then .error (.wrongTextSize utf8.length)
  else
    match Bytes.toText? (utf8.take 2) with
    | none => .error (.splitMarker text)
    | some marker => .ok (marker, utf8.drop 2)

/-- An address with the given digits as its body. -/
def ofDigits (contract : Bool) (digits : Bytes) : Except AddressError Address :=
  match Hex.decodeExact bodySize digits with
  | .error fault => .error (.ofHexFault fault)
  | .ok body => .ok ⟨contract, body, body.property⟩

def ofText (text : String) : Except AddressError Address := do
  let (marker, digits) ← splitText text
  ofDigits (marker = contractMarker) digits

def ofTextStrict (text : String) : Except AddressError Address := do
  let (marker, digits) ← splitText text
  if marker = contractMarker then ofDigits true digits
  else if marker = accountMarker then ofDigits false digits
  else throw (.unknownMarker marker)

/-- The reader that a text has by its type is the lenient one. -/
def parse (text : String) : Except AddressError Address := ofText text

/-- What the lenient reader remarks on a marker that it replaces, whether or not the digits are
good. -/
def markerWarning? (text : String) : Option String :=
  match splitText text with
  | .ok (marker, _) =>
    if marker = contractMarker ∨ marker = accountMarker then none
    else some ("address marker " ++ Text.quoteText marker ++ " is not hx/cx; treating " ++ text ++
      " as hx")
  | .error _ => none

end Address

end ContractLink
