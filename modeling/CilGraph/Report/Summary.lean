import CilGraph.Compilation
import CilGraph.Image.Writer
import CilGraph.Report.Json

namespace CilGraph
namespace Report

/-!
# The summary of a compilation

What is said about a compilation once its image has been written.
-/

/-- What a compilation has produced, in numbers. -/
structure Summary where
  /-- Where the image is. -/
  output : String
  methods : Nat
  types : Nat
  natives : Nat
  tables : Nat
  /-- The size of the image. -/
  bytes : Nat
deriving DecidableEq, Repr

namespace Summary

/-- Count what a compilation has produced. -/
def ofCompilation (output : String) (compilation : Compilation) (image : List UInt8) :
    Summary where
  output := output
  methods := compilation.records.methods.length
  types := compilation.records.types.length
  natives := compilation.records.natives.length
  tables := compilation.tables.length
  bytes := image.length

/-- The summary as a structured report. -/
def toJson (summary : Summary) : Json :=
  .record [
    ("output", .text summary.output),
    ("methods", .number summary.methods),
    ("types", .number summary.types),
    ("natives", .number summary.natives),
    ("vtables", .number summary.tables),
    ("bytes", .number summary.bytes)]

/-- The summary in one sentence. -/
def toText (summary : Summary) : String :=
  let counts := [
    s!"{summary.methods} method(s)",
    s!"{summary.types} type record(s)",
    s!"{summary.natives} native(s)",
    s!"{summary.tables} vtable(s)"]
  s!"Wrote {summary.output} ({summary.bytes} bytes): " ++ String.intercalate ", " counts ++ ".\n"

end Summary
end Report
end CilGraph
