import CilGraph.Record
import CilGraph.Report.Grid
import CilGraph.Report.Json

namespace CilGraph
namespace Report

/-!
# The contents of an image

A listing of the records of an image.  Types and native methods are always
listed; methods can be restricted to those whose name contains a text, and the
nodes of their bodies are listed on demand.
-/

/-- Whether a text occurs in another. -/
def occursIn (part : List Char) : List Char -> Bool
  | [] => part.isEmpty
  | c :: rest => part.isPrefixOf (c :: rest) || occursIn part rest

/-- What a listing shows. -/
structure Contents where
  types : List TypeRecord
  methods : List MethodRecord
  natives : List (String × String)
  /-- Whether the nodes of the methods are listed. -/
  showsNodes : Bool
deriving DecidableEq, Repr

namespace Contents

/-- Select what a listing shows. -/
def ofRecords (records : Records) (part : Option String) (showsNodes : Bool) : Contents where
  types := records.types
  methods := match part with
    | none => records.methods
    | some part =>
      records.methods.filter (fun method => occursIn part.toList method.name.toList)
  natives := records.natives
  showsNodes := showsNodes

/-- The nodes of a method that a listing shows. -/
def shownNodes (contents : Contents) (method : MethodRecord) : List Node :=
  if contents.showsNodes then method.nodes else []

/-! ## Structured -/

/-- A node as a record.  The text is left out if there is none. -/
def nodeJson (node : Node) : Json :=
  let text := match node.text with
    | none => []
    | some text => [("string", Json.text text)]
  .record ([
    ("id", .number node.id.toNat),
    ("offset", .number node.offset.toNat),
    ("operation", .text node.operation.name),
    ("parameters", .list (node.inputs.map (fun input => .number input.toNat))),
    ("constants", .list (node.constants.map (fun value => .number value.toNat)))] ++ text)

/-- A method as a record.  The nodes are left out if there are none to show. -/
def methodJson (contents : Contents) (method : MethodRecord) : Json :=
  let nodes := match contents.shownNodes method with
    | [] => []
    | nodes => [("tokens", Json.list (nodes.map nodeJson))]
  .record ([
    ("name", .text method.name),
    ("is_static", .truth method.isStatic),
    ("is_constructor", .truth method.isConstructor),
    ("max_stack", .number method.maxStack.toNat),
    ("token_count", .number method.nodes.length),
    ("strings", .texts method.strings)] ++ nodes)

/-- A type as a record. -/
def typeJson (type : TypeRecord) : Json :=
  .record [
    ("name", .text type.name),
    ("is_static", .truth type.isStatic),
    ("fields", .list (type.fields.map (fun field => .texts [field.1, field.2])))]

/-- A native method as a record. -/
def nativeJson (native : String × String) : Json :=
  .record [("name", .text native.1), ("symbol", .text native.2)]

/-- The listing as a structured report. -/
def toJson (contents : Contents) : Json :=
  .record [
    ("types", .list (contents.types.map typeJson)),
    ("methods", .list (contents.methods.map contents.methodJson)),
    ("natives", .list (contents.natives.map nativeJson))]

/-! ## As text -/

/-- A type and its fields. -/
def typeLines (type : TypeRecord) : List String :=
  let kind := if type.isStatic then "static" else "instance"
  s!"  {type.name} [{kind}]" :: type.fields.map (fun field => s!"    {field.1} {field.2}")

/-- The word for the kind of a method. -/
def methodKind (method : MethodRecord) : String :=
  match method.isConstructor, method.isStatic with
  | true, true => "cctor"
  | true, false => "ctor"
  | false, true => "static"
  | false, false => "instance"

/-- The table of methods. -/
def methodGrid (contents : Contents) : Grid where
  columns := [
    ⟨"Name", .left⟩, ⟨"Kind", .left⟩, ⟨"Stack", .right⟩, ⟨"Tokens", .right⟩, ⟨"Strings", .right⟩]
  rows := contents.methods.map (fun method => [
    method.name,
    methodKind method,
    toString method.maxStack.toNat,
    toString method.nodes.length,
    toString method.strings.length])

/-- The name of a node in a table. -/
def nodeName (id : UInt32) : String :=
  s!"%{id.toNat}"

/-- The table of the nodes of a method. -/
def nodeGrid (nodes : List Node) : Grid where
  columns := [
    ⟨"Id", .right⟩, ⟨"Offset", .left⟩, ⟨"Operation", .left⟩, ⟨"Inputs", .left⟩,
    ⟨"Constants", .left⟩, ⟨"String", .left⟩]
  rows := nodes.map (fun node => [
    nodeName node.id,
    "IL_" ++ Text.hexLower 4 node.offset.toNat,
    node.operation.name,
    String.intercalate ", " (node.inputs.map nodeName),
    String.intercalate ", " (node.constants.map (fun value => "0x" ++ Text.hexLower 1 value.toNat)),
    node.text.getD ""])

/-- The nodes of a method under its name, or nothing if none are shown. -/
def nodeLines (contents : Contents) (method : MethodRecord) : List String :=
  match contents.shownNodes method with
  | [] => []
  | nodes => "" :: s!"{method.name}:" :: (nodeGrid nodes).lines

/-- The native methods, or nothing if there are none. -/
def nativeLines (contents : Contents) : List String :=
  match contents.natives with
  | [] => []
  | natives =>
    "" :: s!"Natives ({natives.length}):" ::
      natives.map (fun native => s!"  {native.1} -> {native.2}")

/-- The lines of the listing. -/
def lines (contents : Contents) : List String :=
  s!"Types ({contents.types.length}):" :: contents.types.flatMap typeLines
    ++ "" :: s!"Methods ({contents.methods.length}):" :: contents.methodGrid.lines
    ++ contents.methods.flatMap contents.nodeLines
    ++ contents.nativeLines

end Contents
end Report
end CilGraph
