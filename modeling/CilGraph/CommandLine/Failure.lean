import CilGraph.Error

namespace CilGraph
namespace CommandLine

/-!
# Failures

A failure says what could not be done and lists the causes, the outermost
first.  A single cause is indented by four blanks.  Several causes are
numbered from zero, and the further lines of a cause stand below its first.
-/

/-- Why a request has no answer. -/
structure Failure where
  summary : String
  causes : List String
deriving DecidableEq, Repr

namespace Failure

/-- The failure of an error, with nothing in front of it. -/
def ofError (error : Error) : Failure :=
  match error.causes with
  | [] => ⟨error.message, []⟩
  | summary :: causes => ⟨summary, causes⟩

/-- The failure of something that an error has prevented. -/
def because (summary : String) (error : Error) : Failure :=
  ⟨summary, error.causes⟩

/-- Put a margin in front of every line after the first. -/
def hang (margin text : String) : String :=
  String.intercalate ("\n" ++ margin)
    ((text.toList.splitOnP (· == '\n')).map String.ofList)

/-- A cause with its number. -/
def numbered (cause : String) (index : Nat) : String :=
  let label := String.ofList (Text.padLeft ' ' 5 (toString index).toList)
  label ++ ": " ++ hang "       " cause

/-- The causes of a failure, each from a line of its own on. -/
def causeLines : List String -> List String
  | [cause] => ["    " ++ hang "    " cause]
  | causes => causes.zipIdx.map (fun cause => numbered cause.1 cause.2)

/-- The report on a failure. -/
def report (failure : Failure) : String :=
  let causes := match failure.causes with
    | [] => []
    | causes => "" :: "Caused by:" :: causeLines causes
  String.join ((("Error: " ++ failure.summary) :: causes).map (· ++ "\n"))

end Failure
end CommandLine
end CilGraph
