import ContractLink.Link.Serve
/-!
Sessions: one link, used step after step. A step that fails does not end the session.
-/
namespace ContractLink

namespace Session

inductive Act where
  | step (s : Step)
  /-- Serves requests until the manager closes the link. -/
  | serve (contract : Contract)

abbrev Act.Answer : Act → Type
  | step s => s.Answer
  | serve _ => Unit

def Act.perform (codec : Codec) : (a : Act) → Exchange a.Answer
  | step s => s.perform codec
  | serve contract => contract.serve codec

/-- What an act led to, with the bytes it sent and what it noted. -/
structure Report where
  act : Act
  outcome : Except LinkError act.Answer
  sent : Bytes
  notes : List Note

def report (codec : Codec) (act : Act) (link : Link) : Report × Link :=
  let (outcome, next) := (act.perform codec).run link
  let sent := next.sent.drop link.sent.length
  let notes := next.journal.drop link.journal.length
  (⟨act, outcome, sent, notes⟩, next)

def run (codec : Codec) : List Act → Link → List Report × Link
  | [], link => ([], link)
  | act :: rest, link =>
    let (first, next) := report codec act link
    let (reports, last) := run codec rest next
    (first :: reports, last)

end Session

end ContractLink
