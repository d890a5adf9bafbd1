import CilGraph.CommandLine.Argument
import CilGraph.Compilation

namespace CilGraph
namespace CommandLine

/-!
# Requests

The commands of the program and how they are written.  Options that concern
the output only stand before or behind the name of the command; each of the
two places takes an option once.
-/

/-- What a compilation starts from. -/
structure Source where
  /-- The path of the program description. -/
  program : String
  /-- The entries, by name or by token. -/
  entries : List String
  /-- The path of the configuration. -/
  settings : Option String
  options : Compilation.Options
deriving DecidableEq, Repr

/-- A command with its arguments. -/
inductive Request where
  /-- Compile a program and write its image. -/
  | compile (source : Source) (output : String)
  /-- List the contents of an image, for the methods whose name contains a text. -/
  | dump (image : String) (part : Option String) (showsNodes : Bool)
  /-- List the dispatch tables of a program, or the one of a type. -/
  | tables (source : Source) (type : Option String)
deriving DecidableEq, Repr

/-- A request and the form of its answer. -/
structure Invocation where
  request : Request
  /-- Whether the answer is a structured report. -/
  structured : Bool
deriving DecidableEq, Repr

/-! ## Forms -/

/-- The options of every command.  Notes on progress, for which `verbose` asks,
are no part of an answer. -/
def sharedForms : List OptionForm := [
  { name := "json", letter := none, value := .absent },
  { name := "verbose", letter := some 'v', value := .absent },
  { name := "help", letter := some 'h', value := .absent }]

/-- The options in front of a command. -/
def leadingForms : List OptionForm :=
  sharedForms ++ [{ name := "version", letter := some 'V', value := .absent }]

/-- The options of a command that compiles. -/
def sourceForms : List OptionForm := [
  { name := "entry", letter := some 'e', value := .text, repeats := true },
  { name := "config", letter := some 'c', value := .path },
  { name := "pointer-size", letter := none, value := .number }]

/-- The options of `compile`. -/
def compileForms : List OptionForm :=
  sharedForms ++ sourceForms ++ [
    { name := "no-dispatch", letter := none, value := .absent },
    { name := "output", letter := some 'o', value := .path }]

/-- The options of `dump`. -/
def dumpForms : List OptionForm :=
  sharedForms ++ [
    { name := "method", letter := none, value := .text },
    { name := "tokens", letter := none, value := .absent }]

/-- The options of `vtables`. -/
def tableForms : List OptionForm :=
  sharedForms ++ sourceForms ++ [{ name := "type", letter := none, value := .text }]

/-! ## Reading -/

/-- The operand of a command, a path. -/
def operandOf (found : Matches) (name : String) : Except Halt String :=
  match found.operands with
  | [] => .error (.misuse (.missingOperand name))
  | path :: _ => .ok path

/-- What a compilation starts from. -/
def sourceOf (found : Matches) : Except Halt Source := do
  let program ← operandOf found "PROGRAM"
  let entries := found.values "entry"
  if entries.isEmpty then .error (.misuse (.missingOption "entry"))
  else
    let size := (found.value? "pointer-size").bind readNumber?
    .ok {
      program := program
      entries := entries
      settings := found.value? "config"
      options := {
        pointerSize := size.getD 8
        followSlots := !found.has "no-dispatch" } }

/-- The request that a command makes. -/
def requestOf (command : String) (arguments : List String) :
    Except Halt (Request × Matches) := do
  match command with
  | "compile" =>
    let found ← Matches.read compileForms {} none arguments
    let source ← sourceOf found
    match found.value? "output" with
    | none => .error (.misuse (.missingOption "output"))
    | some output => .ok (.compile source output, found)
  | "dump" =>
    let found ← Matches.read dumpForms {} none arguments
    let image ← operandOf found "IMAGE"
    .ok (.dump image (found.value? "method") (found.has "tokens"), found)
  | "vtables" =>
    let found ← Matches.read tableForms {} none arguments
    let source ← sourceOf found
    .ok (.tables source (found.value? "type"), found)
  | other => .error (.misuse (.unknownCommand other))

/-- The names of the commands. -/
def commands : List String := ["compile", "dump", "vtables"]

/-- What `help` asks for: the whole program, or one command of it.  Commands
have no parts on which there would be help. -/
def helpOn (topics : List String) : Halt :=
  match topics with
  | [] => .help
  | topic :: rest =>
    if !(commands.contains topic || topic == "help") then .misuse (.unknownCommand topic)
    else
      match rest with
      | [] => .help
      | part :: _ => .misuse (.unknownCommand part)

/-- Read all arguments of the program: options, then a command and what belongs
to it. -/
def readFrom (leading : Matches) : List String -> Except Halt Invocation
  | [] => .error (.misuse .noCommand)
  | argument :: rest =>
    match Argument.ofText argument with
    | .stop => .error (.misuse .noCommand)
    | .operand "help" => .error (helpOn rest)
    | .operand command => do
      let (request, found) ← requestOf command rest
      .ok ⟨request, leading.has "json" || found.has "json"⟩
    | .long name value => do
      let (leading, _) ← Matches.addLong leadingForms leading name value
      readFrom leading rest
    | .letters cluster => do
      let (leading, _) ← Matches.addLetters leadingForms leading cluster
      readFrom leading rest

/-- Read the arguments of the program. -/
def Invocation.read (arguments : List String) : Except Halt Invocation :=
  readFrom {} arguments

end CommandLine
end CilGraph
