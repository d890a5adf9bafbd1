import CilGraph.Definition
import CilGraph.Error

namespace CilGraph

/-!
# Attempts

Lowering a body also discovers what the body refers to.  Discoveries count
even if the lowering fails afterwards, because whoever follows them may fail
at an earlier one, and the earlier failure is the one to report.  An attempt
therefore has a list of discoveries beside its result.

The result never depends on what is done with a discovery.
-/

/-- Something that a body refers to. -/
inductive Discovery where
  /-- A callable of the program that is called, constructed or named. -/
  | callable (callable : Callable)
  /-- A type that is named, or that declares a field which is used. -/
  | type (token : Token)
  /-- An external symbol that is called under a mangled name. -/
  | native (name symbol : String)
deriving DecidableEq, Repr

/-- A result together with the discoveries on the way to it. -/
structure Attempt (Value : Type) where
  discoveries : List Discovery
  result : Result Value

namespace Attempt

/-- Succeed without a discovery. -/
def done {Value : Type} (value : Value) : Attempt Value :=
  ⟨[], .ok value⟩

/-- Fail without a discovery. -/
def fail {Value : Type} (error : Error) : Attempt Value :=
  ⟨[], .error error⟩

/-- A result without a discovery. -/
def lift {Value : Type} (result : Result Value) : Attempt Value :=
  ⟨[], result⟩

/-- Report a discovery. -/
def discover (discovery : Discovery) : Attempt Unit :=
  ⟨[discovery], .ok ()⟩

/-- Go on from a result.  Nothing is discovered after a failure. -/
def andThen {Value Other : Type} (attempt : Attempt Value) (next : Value -> Attempt Other) :
    Attempt Other :=
  match attempt.result with
  | .error error => ⟨attempt.discoveries, .error error⟩
  | .ok value =>
    let following := next value
    ⟨attempt.discoveries ++ following.discoveries, following.result⟩

instance : Monad Attempt where
  pure := done
  bind := andThen

instance : MonadLift Result Attempt where
  monadLift := lift

/-- Change the error of a failure. -/
def mapError {Value : Type} (attempt : Attempt Value) (change : Error -> Error) : Attempt Value :=
  ⟨attempt.discoveries, attempt.result.mapError change⟩

end Attempt
end CilGraph
