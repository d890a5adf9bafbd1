import CilGraph.Compilation.Session

namespace CilGraph

/-!
# Compilation

A compilation starts from entry methods and produces the records and the
dispatch tables of everything that they need.
-/

/-- What a compilation produces: the records, and the finished tables in the
order of their type names. -/
structure Compilation where
  records : Records
  tables : List Dispatch.Table

namespace Compilation

/-- The table of a type name. -/
def table? (compilation : Compilation) (name : String) : Option Dispatch.Table :=
  (Ordered.search (fun table => compare table.name name) compilation.tables).map
    compilation.tables.get

/-- The choices of a compilation. -/
structure Options where
  /-- The size of a pointer in bytes. -/
  pointerSize : UInt32 := 8
  /-- Whether methods are compiled that are reached through slots only. -/
  followSlots : Bool := true
deriving DecidableEq, Repr

/-- A compilation that is being prepared. -/
structure Job where
  linkage : Linkage
  options : Options
  /-- The entry methods, each once. -/
  entries : List Callable

namespace Job

/-- Prepare a compilation.  Pointers have four or eight bytes. -/
def new (program : Program) (settings : Settings) (options : Options) : Result Job := do
  if options.pointerSize = 4 ∨ options.pointerSize = 8 then
    let linkage ← Linkage.ofSettings program settings
    .ok ⟨linkage, options, []⟩
  else .error (.ofRequest (.pointerSize options.pointerSize))

/-- Add an entry unless it is there. -/
def push (job : Job) (callable : Callable) : Job :=
  if job.entries.any (fun entry => entry.token == callable.token) then job
  else { job with entries := job.entries ++ [callable] }

/-- Add the callable with a token. -/
def addEntry (job : Job) (token : Token) : Result Job := do
  let callable ← job.linkage.program.callable token
  .ok (job.push callable)

/-- Add the callable with a name, which must be the only one of its type. -/
def addEntryNamed (job : Job) (typeName method : String) : Result Job := do
  let program := job.linkage.program
  match program.findType? typeName with
  | none => .error (.ofRequest (.unknownEntryType typeName))
  | some type =>
    let methods ← program.declaredMethods type
    let constructors ← program.declaredConstructors type
    let candidates := (methods.map Callable.method ++ constructors.map Callable.constructor).filter
      (fun candidate => candidate.name == method)
    match candidates with
    | [] => .error (.ofRequest (.unknownEntryMethod typeName method))
    | [callable] => .ok (job.push callable)
    | _ => .error (.ofRequest (.ambiguousEntry typeName method candidates.length))

/-- Carry out a compilation. -/
def compile (job : Job) : Result Compilation := do
  if job.entries.isEmpty then .error (.ofRequest .noEntries)
  else
    let ((), session) ←
      Session.close job.linkage job.options.followSlots job.entries {}
    .ok ⟨session.records, session.registry.compile job.options.pointerSize⟩

end Job
end Compilation
end CilGraph
