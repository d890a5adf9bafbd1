import CilGraph.CommandLine

namespace CilGraph
namespace CommandLine

/-!
# The program

Everything that touches files and streams.  The files that a request names are
read first, then the request is answered, and at last its image is written.
-/

/-- The fault that the system reports. -/
def faultOf : IO.Error -> FileFault
  | .noFileOrDirectory .. => .notFound
  | .inappropriateType _ _ details =>
    if details.toLower = "not a directory" then .notDirectory else .isDirectory
  | .invalidArgument _ _ "name too long" => .nameTooLong
  | .invalidArgument _ _ "File name too long" => .nameTooLong
  | error => .other error.toString

/-- Perform an action on a file. -/
def attempt {Value : Type} (action : IO Value) : IO (Except FileFault Value) := do
  try
    return .ok (← action)
  catch error =>
    return .error (faultOf error)

/-- Read a file. -/
def readFile (path : String) : IO (String × Except FileFault (List UInt8)) := do
  let contents ← attempt (IO.FS.readBinFile path)
  return (path, contents.map (fun bytes => bytes.toList))

/-- Give access to files that have been read. -/
def accessTo (files : List (String × Except FileFault (List UInt8))) : FileAccess :=
  fun path => (files.lookup path).getD (.error .notFound)

/-- Carry out what the arguments ask for. -/
def perform (arguments : List String) : IO Outcome := do
  match Invocation.read arguments with
  | .error halt => return halt.outcome
  | .ok invocation =>
    let files ← invocation.request.inputs.mapM readFile
    match answer (accessTo files) invocation.structured invocation.request with
    | .error failure => return failure.outcome
    | .ok answer =>
      match answer.image with
      | none => return answer.outcome (.ok ())
      | some (path, image) =>
        let written ← attempt (IO.FS.writeBinFile path ⟨image.toArray⟩)
        return answer.outcome written

end CommandLine
end CilGraph

/-- Run the program with the given arguments. -/
def main (arguments : List String) : IO UInt32 := do
  let outcome ← CilGraph.CommandLine.perform arguments
  (← IO.getStdout).putStr outcome.text
  (← IO.getStderr).putStr outcome.complaint
  return UInt32.ofNat outcome.code
