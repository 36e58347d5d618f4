import ContractLink.Link.Perform
/-!
Programs: what a contract does while it is invoked, as a tree that branches on the answers of its
steps. A run stops at the first step that fails.
-/
namespace ContractLink

inductive Program (α : Type) where
  | done (result : α)
  | log (level : Log.Level) (message : String) (next : Program α)
  | step (s : Step) (next : s.Answer → Program α)

namespace Program

variable {α : Type}

def run (codec : Codec) : Program α → Exchange α
  | done result => pure result
  | log level message next => do
    Exchange.log level message
    next.run codec
  | step s next => do
    let answer ← s.record codec
    (next answer).run codec

theorem advances_run (codec : Codec) (program : Program α) :
    Exchange.Advances (program.run codec) := by
  induction program with
  | done => exact (Exchange.keeps_pure _).advances
  | log _ _ _ ih => exact (Exchange.keeps_log _ _).advances.bind fun _ => ih
  | step s _ ih => exact (s.advances_record codec).bind fun answer => ih answer

end Program

end ContractLink
