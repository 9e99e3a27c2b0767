import AdminPolicy.Host.Program
import AdminPolicy.PolicyError

/-!
# Actions

Programs that may give up with a `PolicyError`. `Action.attempt` makes a call and gives up if it fails, naming what
was attempted.
-/

namespace AdminPolicy

/-- A program that may give up. -/
abbrev Action (α : Type) := ExceptT PolicyError Program α

namespace Action

variable {α : Type}

/-- The action of a program that gives up by its result. -/
def of (p : Program (Except PolicyError α)) : Action α := p

def program (a : Action α) : Program (Except PolicyError α) := a

/-- Report an event. -/
def emit (e : Event) : Action Unit := of (.report e (.done (.ok ())))

def fail (e : PolicyError) : Action α := of (.done (.error e))

/-- Make a call and give up if it fails, naming the operation and the path. -/
def attempt (operation : FileOperation) (path : HostPath) (c : HostCall) : Action c.Reply :=
  of <| .request c fun
    | .ok reply => .done (.ok reply)
    | .error e => .done (.error (.io operation path e))

end Action

end AdminPolicy
