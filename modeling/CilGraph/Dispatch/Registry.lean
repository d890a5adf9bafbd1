import CilGraph.Dispatch.Catalog
import CilGraph.Dispatch.Layout
import CilGraph.Ordered

namespace CilGraph
namespace Dispatch

/-!
# Registry of layouts

A registry makes the layout of each type once.  The layout of a type needs the
tables of its base type and of its interfaces, so their layouts are made first
and stand before it.  An array type has the layout of its innermost element.

Types may name interfaces in a circle.  While a layout is made, the types whose
layouts wait for it are remembered, and a type that is met again among them is
an error.  What was registered before a failure stays registered.
-/

/-- The layouts in the order in which they were finished, and the records of
the fields. -/
structure Registry where
  layouts : List (Token × Layout) := []
  catalog : Catalog := {}

namespace Registry

/-- An action on a registry, which may change it also when it fails. -/
abbrev Action (Value : Type) : Type :=
  Stateful Registry Value

/-- The layout of a type, if it is registered. -/
def layout? (registry : Registry) (type : Token) : Option Layout :=
  registry.layouts.lookup type

/-- The registered types, in the order of their layouts. -/
def types (registry : Registry) : List Token :=
  registry.layouts.map Prod.fst

/-- The table of a registered type. -/
def tableOf (linkage : Linkage) (token : Token) : Action Table := do
  let type ← linkage.program.innermost token
  match (← get).layout? type with
  | some layout => return layout.table
  | none => throw (.unknownToken type)

section Making

variable {Monadic : Type -> Type} [Monad Monadic] [MonadLift Result Monadic]

/-- The table of an interface as it is seen from a type. -/
def interfaceTable (linkage : Linkage) (obtain : Token -> Monadic Table) (type : TypeDef)
    (interface : Token) : Monadic Table := do
  let table ← obtain interface
  Layout.implementInterface linkage type interface table

/-- Make the layout of a type, where `obtain` gives the tables of other types. -/
def makeLayout (linkage : Linkage) (obtain : Token -> Monadic Table) (token : Token) :
    Monadic Layout := do
  let type ← linkage.program.typeDef token
  let resolved ← linkage.program.typeDef (linkage.resolveType token)
  let base ← type.base.mapM obtain
  let interfaces ← linkage.program.interfaces resolved.token
  let tables ← interfaces.mapM (interfaceTable linkage obtain resolved)
  (Layout.start type resolved.token base tables).addMethods linkage

end Making

/-- Enter a finished layout. -/
def enter (linkage : Linkage) (type : Token) (layout : Layout) : Action Unit := do
  let registry ← get
  let catalog ← registry.catalog.add linkage type
  set (⟨registry.layouts ++ [(type, layout)], catalog⟩ : Registry)

/-- The error that a layout needs itself. -/
def cyclic {Value : Type} (linkage : Linkage) (type : Token) : Action Value := do
  let name ← linkage.program.typeName type
  throw (.ofRequest (.cyclicLayout name))

/-- Register a type, where the layouts of the types in `waiting` wait for it.
These are different types, so there are never more of them than types. -/
def addWith (linkage : Linkage) : Nat -> List Token -> Token -> Action Unit
  | 0, _, token => cyclic linkage token
  | fuel + 1, waiting, token => do
    let type ← linkage.program.innermost token
    if ((← get).layout? type).isSome then return ()
    else if waiting.contains type then cyclic linkage type
    else
      let obtain (other : Token) : Action Table := do
        addWith linkage fuel (type :: waiting) other
        tableOf linkage other
      let layout ← makeLayout linkage obtain type
      enter linkage type layout

/-- Register a type. -/
def add (linkage : Linkage) (token : Token) : Action Unit :=
  addWith linkage (linkage.program.types.length + 1) [] token

/-- The table of a type, which is registered if need be. -/
def table (linkage : Linkage) (token : Token) : Action Table := do
  add linkage token
  tableOf linkage token

/-- Enter the field records of a type and its base types. -/
def addFields (linkage : Linkage) (token : Token) : Action Unit := do
  let registry ← get
  let catalog ← registry.catalog.add linkage token
  set { registry with catalog := catalog }

/-- The finished tables of all registered types, in the order of their names. -/
def compile (registry : Registry) (pointerSize : UInt32) : List Table :=
  Ordered.sortBy (fun first second => decide (first.name < second.name))
    (registry.layouts.map (fun entry => (entry.2.table.place pointerSize).convert))

end Registry
end Dispatch
end CilGraph
