import CilGraph.Compilation
import CilGraph.Report.Grid
import CilGraph.Report.Json

namespace CilGraph
namespace Report

/-!
# The layout of dispatch tables

A listing of finished dispatch tables with the names of their slots.  The
regions of a table are paired in order with its parts: the table itself, its
chain of base tables, and its interfaces.  An interface that has a base table
of its own takes two regions, so from there on a region is listed with the
slots of a later part, and regions without a partner are left out.
-/

/-- A region with the names of the slots that are listed in it. -/
structure RegionLayout where
  region : Dispatch.Region
  slots : List String
deriving DecidableEq, Repr

/-- A dispatch table as it is listed. -/
structure TableLayout where
  name : String
  conversionOffset : UInt32
  regions : List RegionLayout
  conversions : List (String × UInt32)
deriving DecidableEq, Repr

/-- What a listing of dispatch tables shows. -/
structure Layout where
  pointerSize : UInt32
  tables : List TableLayout
deriving DecidableEq, Repr

/-- The name of a slot: the mangled name, or the plain one if a type of the
signature is unknown. -/
def slotName (program : Program) (slot : MethodDef) : String :=
  match program.mangle (.method slot) with
  | .ok name => name
  | .error _ => slot.name

mutual

/-- A table and its chain of base tables. -/
def chain : Dispatch.Table -> List Dispatch.Table
  | ⟨type, resolved, name, members, base, interfaces, offset, regionSize, conversionOffset,
      conversions⟩ =>
    ⟨type, resolved, name, members, base, interfaces, offset, regionSize, conversionOffset,
      conversions⟩ :: chainOfBase base

/-- The chain that begins with a base table. -/
def chainOfBase : Option Dispatch.Table -> List Dispatch.Table
  | none => []
  | some base => chain base

end

/-- List a table. -/
def TableLayout.ofTable (program : Program) (table : Dispatch.Table) : TableLayout where
  name := table.name
  conversionOffset := table.conversionOffset
  regions := List.zipWith
    (fun region part => ⟨region, part.members.map (slotName program)⟩)
    table.regions (chain table ++ table.interfaces)
  conversions := table.conversions

namespace Layout

/-- A number as an offset. -/
def offsetText (offset : UInt32) : String :=
  "0x" ++ Text.hexLower 1 offset.toNat

/-! ## Structured -/

/-- A region as a record. -/
def regionJson (layout : RegionLayout) : Json :=
  .record [
    ("type_name", .text layout.region.name),
    ("offset", .number layout.region.offset.toNat),
    ("size", .number layout.region.size.toNat),
    ("slots", .texts layout.slots)]

/-- A table as a record. -/
def tableJson (table : TableLayout) : Json :=
  .record [
    ("type_name", .text table.name),
    ("conversion_table_offset", .number table.conversionOffset.toNat),
    ("regions", .list (table.regions.map regionJson)),
    ("conversions", .list (table.conversions.map
      (fun entry => .list [.text entry.1, .number entry.2.toNat])))]

/-- The listing as a structured report. -/
def toJson (layout : Layout) : Json :=
  .record [
    ("pointer_size", .number layout.pointerSize.toNat),
    ("vtables", .list (layout.tables.map tableJson))]

/-! ## As text -/

/-- The rows of slots, each one pointer further on. -/
def slotRows (pointerSize : UInt32) : UInt32 -> List String -> List (List String)
  | _, [] => []
  | offset, slot :: rest =>
    [offsetText offset, "", slot] :: slotRows pointerSize (offset + pointerSize) rest

/-- The rows of a region: its header, and behind it its slots. -/
def regionRows (pointerSize : UInt32) (layout : RegionLayout) : List (List String) :=
  [offsetText layout.region.offset, layout.region.name, "<parent offset>"] ::
    slotRows pointerSize (layout.region.offset + pointerSize) layout.slots

/-- The table of regions and slots. -/
def tableGrid (pointerSize : UInt32) (table : TableLayout) : Grid where
  columns := [⟨"Offset", .right⟩, ⟨"Region", .left⟩, ⟨"Slot", .left⟩]
  rows := table.regions.flatMap (regionRows pointerSize)

/-- The lines of a table. -/
def tableLines (pointerSize : UInt32) (table : TableLayout) : List String :=
  s!"{table.name} (conversion table at {offsetText table.conversionOffset})" ::
    (tableGrid pointerSize table).lines
    ++ table.conversions.map (fun entry => s!"  as {entry.1} -> {offsetText entry.2}")
    ++ [""]

/-- The lines of the listing. -/
def lines (layout : Layout) : List String :=
  layout.tables.flatMap (tableLines layout.pointerSize)

end Layout
end Report
end CilGraph
