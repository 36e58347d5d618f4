import ContractLink.Contract.Program
/-!
Contracts: what runs when one is invoked, and the API it declares at a code path. A script is a
contract that takes the same steps whatever it is asked.
-/
namespace ContractLink

structure Contract where
  invoke : Request → Program Outcome
  api : String → Except ApiError Api

structure Script where
  steps : List Step
  outcome : Outcome
  /-- The declared methods, if there is a contract to describe. -/
  methods? : Option (List Method) := none

namespace Script

/-- Takes the steps in order, then reports the outcome. -/
def program (steps : List Step) (outcome : Outcome) : Program Outcome :=
  match steps with
  | [] => .done outcome
  | s :: rest => .step s fun _ => program rest outcome

def contract (script : Script) : Contract where
  invoke _ := program script.steps script.outcome
  api code :=
    match script.methods? with
    | some methods => Api.ofMethods methods
    | none => .error (.missing code)

end Script

end ContractLink
