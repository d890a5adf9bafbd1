import CilGraph.Dispatch.Table

namespace CilGraph
namespace Dispatch

/-!
# Layouts

The layout of a type sorts the instance methods that are visible on it.  A
method with a slot is virtual or abstract; a method without one is kept only if
the type declares it itself.  A method that overrides an inherited one takes
over its slots in the table of the base type, and a final one gets no slot of
its own.

All methods are those of the type that is used in place of the declared one,
whereas the base type is that of the declared one.
-/

/-- The sorted methods of a type with the tables that it builds on. -/
structure Layout where
  type : TypeDef
  resolved : Token
  virtuals : List MethodDef
  abstracts : List MethodDef
  nonVirtuals : List MethodDef
  base : Option Table
  interfaces : List Table

namespace Layout

/-- A layout before any method is sorted. -/
def start (type : TypeDef) (resolved : Token) (base : Option Table) (interfaces : List Table) :
    Layout :=
  ⟨type, resolved, [], [], [], base, interfaces⟩

def addVirtual (layout : Layout) (method : MethodDef) : Layout :=
  { layout with virtuals := layout.virtuals ++ [method] }

def addAbstract (layout : Layout) (method : MethodDef) : Layout :=
  { layout with abstracts := layout.abstracts ++ [method] }

def addNonVirtual (layout : Layout) (method : MethodDef) : Layout :=
  { layout with nonVirtuals := layout.nonVirtuals ++ [method] }

/-- Put an overriding method into the table of the base type. -/
def override (linkage : Linkage) (method : MethodDef) (layout : Layout) : Result Layout := do
  let base ← layout.base.mapM (Table.override linkage method true)
  .ok { layout with base := base }

/-- Sort one method. -/
def addMethod (linkage : Linkage) (layout : Layout) (method : MethodDef) : Result Layout := do
  let root ← linkage.program.rootDeclaration method
  let own := method.declaring == layout.resolved
  if method.isAbstract then .ok (layout.addAbstract method)
  else if own && method.isVirtual && root.token != method.token then
    let layout ← layout.override linkage method
    .ok (if method.isFinal then layout.addNonVirtual method else layout.addVirtual method)
  else if method.isVirtual && !method.isFinal then .ok (layout.addVirtual method)
  else if own then .ok (layout.addNonVirtual method)
  else .ok layout

/-- The table of an interface with the methods of a type in its slots.  A type
that is itself an interface implements nothing. -/
def implementInterface (linkage : Linkage) (type : TypeDef) (interface : Token) (table : Table) :
    Result Table := do
  if type.isInterface then .ok table
  else
    let pairs ← linkage.program.interfaceMap type interface
    .ok (pairs.foldl (fun table pair => table.implement pair.1 pair.2) table)

/-- Sort all methods. -/
def addMethods (linkage : Linkage) (layout : Layout) : Result Layout := do
  let methods ← linkage.program.instanceMethods layout.resolved
  methods.foldlM (addMethod linkage) layout

/-- The table of a layout. -/
def table (layout : Layout) : Table :=
  Table.unplaced layout.type layout.resolved (layout.virtuals ++ layout.abstracts) layout.base
    layout.interfaces

end Layout
end Dispatch
end CilGraph
