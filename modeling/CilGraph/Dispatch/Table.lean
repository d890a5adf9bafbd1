import CilGraph.Inheritance
import CilGraph.Linkage
import CilGraph.MangledName

namespace CilGraph
namespace Dispatch

/-!
# Dispatch tables

The dispatch table of a type is a tree.  Its root holds the slots of the type
itself, below it hangs the table of the base type, and beside that the tables
of the interfaces.  A table owns its parts: a slot that a derived type takes
over is changed in the copy below that type only.

Placing a table assigns to each part a region of memory, one pointer for a
header and one for every slot.  The regions lie one after another: the root,
its chain of base tables, and then each interface with its own chain.  Below
the root interfaces have no regions and are dropped.  Behind the regions lies
the conversion table, which gives for a type the region of its part.
-/

/-- A dispatch table.  All offsets are zero until it is placed. -/
structure Table where
  type : Token
  /-- The type that is used in place of `type`. -/
  resolved : Token
  name : String
  /-- The slots: virtual methods and then abstract ones. -/
  members : List MethodDef
  base : Option Table
  interfaces : List Table
  /-- Where the region of this part begins. -/
  offset : UInt32
  /-- The size of the region of this part. -/
  regionSize : UInt32
  /-- Where the regions of this part and of all below it end. -/
  conversionOffset : UInt32
  /-- The regions by type name, the root first.  Empty below the root. -/
  conversions : List (String × UInt32)
deriving Repr

/-- The place of the slots of one part. -/
structure Region where
  name : String
  offset : UInt32
  size : UInt32
deriving DecidableEq, Repr

/-- The first byte after a region. -/
def Region.stop (region : Region) : UInt32 :=
  region.offset + region.size

namespace Table

/-- A table without a place. -/
def unplaced (type : TypeDef) (resolved : Token) (members : List MethodDef)
    (base : Option Table) (interfaces : List Table) : Table where
  type := type.token
  resolved := resolved
  name := type.recordName false
  members := members
  base := base
  interfaces := interfaces
  offset := 0
  regionSize := 0
  conversionOffset := 0
  conversions := []

/-! ## Slots -/

/-- The type that declared the root of a method's slot, after replacement. -/
def rootType (linkage : Linkage) (method : MethodDef) : Result Token := do
  let root ← linkage.program.rootDeclaration method
  .ok (linkage.resolveType root.declaring)

/-- Replace the first slot that descends from `root` and has the signature of
`method`.  Tells whether there was one. -/
def replaceSlot (linkage : Linkage) (method : MethodDef) (root : Token) :
    List MethodDef -> Result (List MethodDef × Bool)
  | [] => .ok ([], false)
  | slot :: rest => do
    let slotRoot ← rootType linkage slot
    if slotRoot = root ∧ slot.sameSignature method = true then .ok (method :: rest, true)
    else
      let (rest, replaced) ← replaceSlot linkage method root rest
      .ok (slot :: rest, replaced)

/-- Replace slots along the chain of base tables, up to the table of the type
that declared the root. -/
def replaceSlots (linkage : Linkage) (method : MethodDef) (root : Token) :
    Table -> Result (Table × Bool)
  | ⟨type, resolved, name, members, base, interfaces, offset, regionSize, conversionOffset,
      conversions⟩ => do
    let (members, replaced) ← replaceSlot linkage method root members
    let (base, replacedBelow) ←
      if root = resolved then .ok (base, false) else replaceBase base
    .ok (⟨type, resolved, name, members, base, interfaces, offset, regionSize,
      conversionOffset, conversions⟩, replaced || replacedBelow)
where
  /-- Replace slots in the base table, if there is one. -/
  replaceBase : Option Table -> Result (Option Table × Bool)
    | none => .ok (none, false)
    | some base => do
      let (base, replaced) ← replaceSlots linkage method root base
      .ok (some base, replaced)

/-- Put a method into the slots that it overrides.  With `expectMatch` it is an
error if there is none. -/
def override (linkage : Linkage) (method : MethodDef) (expectMatch : Bool) (table : Table) :
    Result Table := do
  let root ← rootType linkage method
  let (table, replaced) ← replaceSlots linkage method root table
  if !replaced && expectMatch then
    let type := match linkage.program.typeName method.declaring with
      | .ok name => name
      | .error _ => method.declaring.toText
    .error (.unresolvedOverride type method.name)
  else .ok table

/-- Replace the first method with a given token. -/
def replaceToken (token : Token) (replacement : MethodDef) : List MethodDef -> List MethodDef
  | [] => []
  | slot :: rest =>
    if slot.token = token then replacement :: rest
    else slot :: replaceToken token replacement rest

/-- Put a method into the slot that holds an interface method. -/
def implement (table : Table) (slot replacement : MethodDef) : Table :=
  { table with members := replaceToken slot.token replacement table.members }

mutual

/-- All slots of a table: its own, those of its base tables and those of its
interfaces. -/
def slots : Table -> List MethodDef
  | ⟨_, _, _, members, base, interfaces, _, _, _, _⟩ =>
    members ++ slotsOfBase base ++ slotsOfList interfaces

/-- All slots of a base table. -/
def slotsOfBase : Option Table -> List MethodDef
  | none => []
  | some base => slots base

/-- All slots of several tables. -/
def slotsOfList : List Table -> List MethodDef
  | [] => []
  | table :: rest => slots table ++ slotsOfList rest

end

/-! ## Places -/

mutual

/-- Place a table that is not the root, from an offset on.  Returns where its
regions end. -/
def placeBelow (pointerSize offset : UInt32) : Table -> Table × UInt32
  | ⟨type, resolved, name, members, base, _, _, _, _, conversions⟩ =>
    let size := (UInt32.ofNat members.length + 1) * pointerSize
    let (base, stop) := placeBase pointerSize (offset + size) base
    (⟨type, resolved, name, members, base, [], offset, size, stop, conversions⟩, stop)

/-- Place a base table. -/
def placeBase (pointerSize offset : UInt32) : Option Table -> Option Table × UInt32
  | none => (none, offset)
  | some base =>
    let (base, stop) := placeBelow pointerSize offset base
    (some base, stop)

end

/-- Place tables one after another. -/
def placeEach (pointerSize : UInt32) : UInt32 -> List Table -> List Table × UInt32
  | offset, [] => ([], offset)
  | offset, table :: rest =>
    let (table, stop) := placeBelow pointerSize offset table
    let (rest, stop) := placeEach pointerSize stop rest
    (table :: rest, stop)

/-- Place a whole table, from its own offset on. -/
def place (pointerSize : UInt32) (table : Table) : Table :=
  let size := (UInt32.ofNat table.members.length + 1) * pointerSize
  let (base, stop) := placeBase pointerSize (table.offset + size) table.base
  let (interfaces, stop) := placeEach pointerSize stop table.interfaces
  { table with
    base := base
    interfaces := interfaces
    regionSize := size
    conversionOffset := stop }

mutual

/-- The regions of a table in the order in which they lie. -/
def regions : Table -> List Region
  | ⟨_, _, name, _, base, interfaces, offset, regionSize, _, _⟩ =>
    ⟨name, offset, regionSize⟩ :: (regionsOfBase base ++ regionsOfList interfaces)

/-- The regions of a base table. -/
def regionsOfBase : Option Table -> List Region
  | none => []
  | some base => regions base

/-- The regions of several tables. -/
def regionsOfList : List Table -> List Region
  | [] => []
  | table :: rest => regions table ++ regionsOfList rest

end

/-! ## Conversions -/

/-- Enter a region unless its name is there. -/
def enter (entries : List (String × UInt32)) (name : String) (offset : UInt32) :
    List (String × UInt32) :=
  if entries.any (fun entry => entry.1 == name) then entries else entries ++ [(name, offset)]

mutual

/-- Enter the regions of a table, of its base tables, and of the interfaces
beside each of them. -/
def collectConversions (entries : List (String × UInt32)) : Table -> List (String × UInt32)
  | ⟨_, _, name, _, base, interfaces, offset, _, _, _⟩ =>
    interfaces.foldl (fun entries interface => enter entries interface.name interface.offset)
      (collectBase (enter entries name offset) base)

/-- Enter the regions of a base table. -/
def collectBase (entries : List (String × UInt32)) : Option Table -> List (String × UInt32)
  | none => entries
  | some base => collectConversions entries base

end

/-- Fill the conversion table from the places of the parts. -/
def convert (table : Table) : Table :=
  { table with conversions := collectConversions [] table }

/-- The region to which a value is converted for a type. -/
def conversion? (table : Table) (name : String) : Option UInt32 :=
  table.conversions.lookup name

mutual

/-- The number of tables in the chain of base tables, this one included. -/
def depth : Table -> Nat
  | ⟨_, _, _, _, base, _, _, _, _, _⟩ => 1 + depthOfBase base

/-- The depth of a base table. -/
def depthOfBase : Option Table -> Nat
  | none => 0
  | some base => depth base

end

end Table
end Dispatch
end CilGraph
