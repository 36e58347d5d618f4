/-!
Laying a text out in a field: cut to a greatest length, then filled to a least one.
-/
namespace ContractLink

namespace Text

inductive Side where
  | left
  | right
  | center
  deriving DecidableEq, Repr

/-- How a text stands in its field. A centered text has the odd filling character on its right. -/
structure Layout where
  side : Side := .left
  fill : Char := ' '
  width : Nat := 0
  limit : Option Nat := none
  deriving DecidableEq, Repr

namespace Layout

def apply (layout : Layout) (text : String) : String :=
  let shown := match layout.limit with
    | some n => text.toList.take n
    | none => text.toList
  let missing := layout.width - shown.length
  let before := match layout.side with
    | .left => 0
    | .right => missing
    | .center => missing / 2
  String.ofList
    (List.replicate before layout.fill ++ shown ++ List.replicate (missing - before) layout.fill)

end Layout

end Text

end ContractLink
