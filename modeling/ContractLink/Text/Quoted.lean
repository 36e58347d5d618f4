import ContractLink.Text.Visible
/-!
Quoted text. A backslash stands before the quote in use, a backslash, and the letters of NUL, tab,
line feed and carriage return; every other character that is not visible is written by its code
point. A text is quoted by `"`, a single character by `'`.
-/
namespace ContractLink

namespace Text

def hexNumeral (n : Nat) : String := String.ofList (Nat.toDigits 16 n)

def escape (quote c : Char) : String :=
  if c = '\x00' then "\\0"
  else if c = '\t' then "\\t"
  else if c = '\n' then "\\n"
  else if c = '\r' then "\\r"
  else if c = '\\' then "\\\\"
  else if c = quote then String.ofList ['\\', c]
  else if isVisible c then String.singleton c
  else "\\u\x7b" ++ hexNumeral c.toNat ++ "\x7d"

def quoteText (text : String) : String :=
  "\"" ++ String.join (text.toList.map (escape '"')) ++ "\""

def quoteChar (c : Char) : String := "'" ++ escape '\'' c ++ "'"

end Text

end ContractLink
