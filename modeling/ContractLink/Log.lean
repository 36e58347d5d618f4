import ContractLink.Text.Blank
import ContractLink.Text.Layout
/-!
Log records and their levels.
-/
namespace ContractLink

namespace Log

inductive Level where
  | debug
  | info
  | warn
  | error
  deriving DecidableEq, Repr

namespace Level

def rank : Level → Nat
  | debug => 0
  | info => 1
  | warn => 2
  | error => 3

def name : Level → String
  | debug => "DEBUG"
  | info => "INFO"
  | warn => "WARN"
  | error => "ERROR"

/-- Reads a level's name in either case, blanks around it aside; `warning` is `warn`. -/
def ofName? (name : String) : Option Level :=
  match (Text.trim name).map Char.toLower with
  | "debug" => some debug
  | "info" => some info
  | "warn" => some warn
  | "warning" => some warn
  | "error" => some error
  | _ => none

/-- The least level that is shown, from its setting. -/
def ofSetting (setting? : Option String) : Level := (setting?.bind ofName?).getD info

/-- The name laid out between brackets. -/
def bracketed (layout : Text.Layout) (level : Level) : String :=
  "[" ++ layout.apply level.name ++ "]"

end Level

structure Record where
  level : Level
  message : String
  deriving DecidableEq, Repr

namespace Record

/-- One line, unless the message holds line breaks. -/
def render (r : Record) : String :=
  r.level.bracketed { width := 5 } ++ " " ++ r.message ++ "\n"

/-- Whether records of the least level `least` include this one. -/
def isShown (least : Level) (r : Record) : Bool := least.rank ≤ r.level.rank

end Record

/-- The text of the records shown from a level on. -/
def render (least : Level) (records : List Record) : String :=
  String.join ((records.filter (·.isShown least)).map Record.render)

end Log

end ContractLink
