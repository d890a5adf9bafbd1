import CilGraph.CommandLine.Failure
import CilGraph.CommandLine.Folder
import CilGraph.CommandLine.Request
import CilGraph.Image.Reader
import CilGraph.Program.Description
import CilGraph.Report.Contents
import CilGraph.Report.Layout
import CilGraph.Report.Summary

namespace CilGraph
namespace CommandLine

/-!
# The command line

A run reads its arguments, answers the request that they make, and ends with a
code: zero if there is an answer, one if there is a failure, and two if the
arguments make no request.

The answer is a function of the arguments and of the files that the request
names.  An image is written last, and the report on it is given only if that
succeeds.
-/

/-- How the contents of a path are had. -/
abbrev FileAccess : Type :=
  String -> Except FileFault (List UInt8)

/-- The result of an operation whose error is a failure. -/
abbrev Attempted (Value : Type) : Type :=
  Except Failure Value

/-- What a request produces: a report, and an image to be written before it. -/
structure Answer where
  text : String
  image : Option (String × List UInt8) := none
deriving DecidableEq, Repr

/-- How a run ends. -/
structure Outcome where
  code : Nat
  /-- What goes to the output. -/
  text : String
  /-- What goes to where errors are shown. -/
  complaint : String
deriving DecidableEq, Repr

/-! ## Inputs -/

/-- Give a summary to an error. -/
def explain {Value : Type} (summary : String) (result : Result Value) : Attempted Value :=
  result.mapError (Failure.because summary)

/-- Take over an error as it is. -/
def plainly {Value : Type} (result : Result Value) : Attempted Value :=
  result.mapError Failure.ofError

/-- The text of a file. -/
def readText (access : FileAccess) (path : String) : Result String := do
  let bytes ← (access path).mapError Error.file
  match String.fromUTF8? ⟨bytes.toArray⟩ with
  | some text => .ok text
  | none => .error (.file .notText)

/-- The bytes of a file that is mapped into memory, which a directory cannot
be. -/
def readMapped (access : FileAccess) (path : String) : Result (List UInt8) :=
  match access path with
  | .ok bytes => .ok bytes
  | .error .isDirectory => .error (.file .noDevice)
  | .error fault => .error (.file fault)

/-- The program of a description. -/
def loadProgram (access : FileAccess) (path : String) : Attempted Program :=
  explain s!"failed to load program: {path}" do
    Program.ofDescription (← readText access path)

/-- The configuration at a path, or the empty one. -/
def loadSettings (access : FileAccess) : Option String -> Attempted Settings
  | none => .ok (Settings.ofList [])
  | some path =>
    explain s!"failed to load resolver config: {path}" do
      Settings.ofDocument (← readText access path)

/-- Divide a text at the first two colons. -/
def divideEntry (typeName : List Char) : List Char -> Option (String × String)
  | ':' :: ':' :: method => some (String.ofList typeName.reverse, String.ofList method)
  | c :: rest => divideEntry (c :: typeName) rest
  | [] => none

/-- Add an entry that is written as a type and a method with two colons between
them, or as a token. -/
def addEntry (job : Compilation.Job) (entry : String) : Result Compilation.Job :=
  match divideEntry [] entry.toList with
  | some (typeName, method) => job.addEntryNamed typeName method
  | none => do
    let token ← ProgramDescription.readToken entry
    job.addEntry token

/-- Add entries in order, up to the first that cannot be added. -/
def addEntries : Compilation.Job -> List String -> Attempted Compilation.Job
  | job, [] => .ok job
  | job, entry :: rest => do
    let job ← explain s!"invalid entry '{entry}'" (addEntry job entry)
    addEntries job rest

/-- Prepare a compilation. -/
def prepare (access : FileAccess) (source : Source) : Attempted Compilation.Job := do
  let program ← loadProgram access source.program
  let settings ← loadSettings access source.settings
  let job ← plainly (Compilation.Job.new program settings source.options)
  addEntries job source.entries

/-! ## Answers -/

/-- A report in the form that is asked for. -/
def present (structured : Bool) (json : Report.Json) (text : String) : String :=
  if structured then json.render else text

/-- The lines of a report, each with its end. -/
def unlines (lines : List String) : String :=
  String.join (lines.map (· ++ "\n"))

/-- The tables that a listing shows. -/
def chosenTables (compilation : Compilation) : Option String -> Attempted (List Dispatch.Table)
  | none => .ok compilation.tables
  | some name =>
    match compilation.table? name with
    | some table => .ok [table]
    | none => .error ⟨s!"no vtable for type '{name}'", []⟩

/-- Answer a request. -/
def answer (access : FileAccess) (structured : Bool) : Request -> Attempted Answer
  | .compile source output => do
    let job ← prepare access source
    let compilation ← plainly job.compile
    let image := Image.write compilation.records
    let summary := Report.Summary.ofCompilation output compilation image
    .ok ⟨present structured summary.toJson summary.toText, some (output, image)⟩
  | .dump path part showsNodes => do
    let records ← explain s!"failed to read image: {path}" do
      Image.read (← readMapped access path)
    let contents := Report.Contents.ofRecords records part showsNodes
    .ok { text := present structured contents.toJson (unlines contents.lines) }
  | .tables source type => do
    let job ← prepare access source
    let compilation ← plainly job.compile
    let tables ← chosenTables compilation type
    let layout : Report.Layout := {
      pointerSize := source.options.pointerSize
      tables := tables.map (Report.TableLayout.ofTable job.linkage.program) }
    .ok { text := present structured layout.toJson (unlines layout.lines) }

/-! ## Outcomes -/

/-- The name and the version of the program. -/
def versionText : String := "cardinal 0.1.0\n"

/-- How the program is called. -/
def helpText : String := unlines [
  "Usage: cardinal [--json] [--verbose] COMMAND",
  "",
  "Commands:",
  "  compile PROGRAM --entry ENTRY... --output FILE [--config FILE] [--pointer-size N]",
  "          [--no-dispatch]",
  "  dump IMAGE [--method NAME] [--tokens]",
  "  vtables PROGRAM --entry ENTRY... [--config FILE] [--pointer-size N] [--type NAME]"]

/-- The outcome of arguments that make no request. -/
def Halt.outcome : Halt -> Outcome
  | .version => ⟨0, versionText, ""⟩
  | .help => ⟨0, helpText, ""⟩
  | .misuse fault => ⟨2, "", s!"error: {fault.message}\n\n{helpText}"⟩

/-- The outcome of a failure. -/
def Failure.outcome (failure : Failure) : Outcome :=
  ⟨1, "", failure.report⟩

/-- The outcome of an answer, once its image has been written or not. -/
def Answer.outcome (answer : Answer) (written : Except FileFault Unit) : Outcome :=
  match written, answer.image with
  | .error fault, some (path, _) =>
    (Failure.because s!"failed to write image: {path}" (.file fault)).outcome
  | _, _ => ⟨0, answer.text, ""⟩

/-- The files that a request reads. -/
def Request.inputs : Request -> List String
  | .compile source _ => source.program :: source.settings.toList
  | .dump path _ _ => [path]
  | .tables source _ => source.program :: source.settings.toList

/-- Run the program in a folder. -/
def Folder.run (folder : Folder) (arguments : List String) : Folder × Outcome :=
  match Invocation.read arguments with
  | .error halt => (folder, halt.outcome)
  | .ok invocation =>
    match answer folder.read invocation.structured invocation.request with
    | .error failure => (folder, failure.outcome)
    | .ok answer =>
      match answer.image with
      | none => (folder, answer.outcome (.ok ()))
      | some (path, image) =>
        match folder.write path image with
        | .ok changed => (changed, answer.outcome (.ok ()))
        | .error fault => (folder, answer.outcome (.error fault))

/-- Run the program several times, each time in the folder that the run before
has left. -/
def Folder.runAll (folder : Folder) : List (List String) -> Folder × List Outcome
  | [] => (folder, [])
  | arguments :: rest =>
    let (folder, first) := folder.run arguments
    let (folder, others) := folder.runAll rest
    (folder, first :: others)

end CommandLine
end CilGraph
