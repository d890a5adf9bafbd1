import CilGraph.Dispatch.Registry
import CilGraph.Proofs.Dispatch.Slots

namespace CilGraph

/-!
# Failures that are nobody's fault

Making a layout can fail in many places.  A token may have no definition, a
method may override nothing, an interface may lack an implementation.  None of
these is a fault of the configuration, which is what the error is called that a
type inherits from itself.  So that error has one origin only.

The statements follow the definitions: a computation is blameless if its parts
are.
-/

namespace Result

/-- A result that is not a fault of the configuration. -/
def Blameless {Value : Type} (result : Result Value) : Prop :=
  forall fault, result ≠ .error (.configuration fault)

variable {Item Value Other : Type}

theorem blameless_ok (value : Value) : Blameless (.ok value : Result Value) :=
  fun _ impossible => nomatch impossible

theorem Blameless.bind {result : Result Value} {next : Value -> Result Other}
    (first : result.Blameless) (second : forall value, (next value).Blameless) :
    (result >>= next).Blameless := by
  intro fault
  cases result with
  | error error => exact fun failed => first fault (congrArg Except.error (Except.error.inj failed))
  | ok value => exact second value fault

theorem Blameless.map {result : Result Value} (first : result.Blameless)
    (change : Value -> Other) : Blameless (result.map change) := by
  intro fault
  cases result with
  | error error => exact fun failed => first fault (congrArg Except.error (Except.error.inj failed))
  | ok value => exact fun impossible => nomatch impossible

theorem blameless_mapM {action : Item -> Result Value}
    (each : forall item, (action item).Blameless) (items : List Item) :
    (items.mapM action).Blameless := by
  induction items with
  | nil =>
      rw [List.mapM_nil]
      exact blameless_ok []
  | cons item items inductionHypothesis =>
      rw [List.mapM_cons]
      exact (each item).bind (fun _ => inductionHypothesis.bind (fun _ => blameless_ok _))

theorem blameless_foldlM {action : Value -> Item -> Result Value}
    (each : forall value item, (action value item).Blameless) (items : List Item)
    (value : Value) : (items.foldlM action value).Blameless := by
  induction items generalizing value with
  | nil => exact blameless_ok value
  | cons item items inductionHypothesis =>
      rw [List.foldlM_cons]
      exact (each value item).bind (fun next => inductionHypothesis next)

theorem blameless_findSomeM? {action : Item -> Result (Option Value)}
    (each : forall item, (action item).Blameless) (items : List Item) :
    (items.findSomeM? action).Blameless := by
  induction items with
  | nil => exact blameless_ok none
  | cons item items inductionHypothesis =>
      refine (each item).bind (fun found => ?_)
      cases found with
      | some value => exact blameless_ok _
      | none => exact inductionHypothesis

end Result

open Result

/-! ## Looking things up -/

namespace Program

variable {program : Program}

theorem blameless_typeDef (token : Token) : (program.typeDef token).Blameless := by
  unfold typeDef
  split
  · exact blameless_ok _
  · exact fun _ impossible => nomatch impossible

theorem blameless_typeName (token : Token) : (program.typeName token).Blameless :=
  (blameless_typeDef token).map _

theorem blameless_field (token : Token) : (program.field token).Blameless := by
  unfold field
  split
  · exact blameless_ok _
  · exact fun _ impossible => nomatch impossible

theorem blameless_method (token : Token) : (program.method token).Blameless := by
  have ofCallable : (program.callable token).Blameless := by
    unfold callable
    split
    · exact blameless_ok _
    · exact fun _ impossible => nomatch impossible
  refine ofCallable.bind (fun found => ?_)
  cases found with
  | method method => exact blameless_ok _
  | constructor constructor => exact fun _ impossible => nomatch impossible

theorem blameless_declaredMethods (type : TypeDef) : (program.declaredMethods type).Blameless :=
  blameless_mapM blameless_method _

theorem blameless_declaredFields (type : TypeDef) : (program.declaredFields type).Blameless :=
  blameless_mapM blameless_field _

theorem blameless_lineage (token : Token) : (program.lineage token).Blameless := by
  unfold lineage
  generalize program.types.length + 1 = fuel
  induction fuel generalizing token with
  | zero => exact blameless_ok []
  | succ fuel inductionHypothesis =>
      refine (blameless_typeDef token).bind (fun type => ?_)
      cases type.base with
      | none => exact blameless_ok _
      | some base => exact (inductionHypothesis base).bind (fun _ => blameless_ok _)

theorem blameless_innermost (token : Token) : (program.innermost token).Blameless := by
  unfold innermost
  generalize program.types.length + 1 = fuel
  induction fuel generalizing token with
  | zero => exact fun _ impossible => nomatch impossible
  | succ fuel inductionHypothesis =>
      refine (blameless_typeDef token).bind (fun type => ?_)
      cases type.element with
      | none => exact blameless_ok _
      | some element => exact inductionHypothesis element

/-! ## Inheritance -/

theorem blameless_overridden? (method : MethodDef) : (program.overridden? method).Blameless := by
  refine (blameless_lineage _).bind (fun lineage => ?_)
  refine blameless_findSomeM? (fun level => ?_) _
  exact (blameless_declaredMethods level).bind (fun _ => blameless_ok _)

theorem blameless_rootDeclaration (method : MethodDef) :
    (program.rootDeclaration method).Blameless := by
  unfold rootDeclaration
  generalize program.types.length = fuel
  induction fuel generalizing method with
  | zero => exact blameless_ok _
  | succ fuel inductionHypothesis =>
      unfold rootDeclarationWith
      split
      · exact blameless_ok _
      · refine (blameless_overridden? method).bind (fun overridden => ?_)
        cases overridden with
        | none => exact blameless_ok _
        | some next => exact inductionHypothesis next

theorem blameless_instanceMethods (token : Token) :
    (program.instanceMethods token).Blameless := by
  have ofLevel : forall own level, (program.contributed own level).Blameless :=
    fun own level => (blameless_declaredMethods level).bind (fun _ => blameless_ok _)
  refine (blameless_lineage token).bind (fun lineage => ?_)
  cases lineage with
  | nil => exact blameless_ok _
  | cons own ancestors =>
      refine (ofLevel true own).bind (fun declared => ?_)
      exact (blameless_mapM (ofLevel false) ancestors).bind (fun _ => blameless_ok _)

theorem blameless_collectInterfacesWith (fuel : Nat) (pending found : List Token) :
    (program.collectInterfacesWith fuel pending found).Blameless := by
  induction fuel generalizing pending found with
  | zero => exact blameless_ok _
  | succ fuel inductionHypothesis =>
      cases pending with
      | nil => exact blameless_ok _
      | cons interface pending =>
          unfold collectInterfacesWith
          split
          · exact inductionHypothesis pending found
          · exact (blameless_typeDef interface).bind (fun type => inductionHypothesis _ _)

theorem blameless_interfaces (token : Token) : (program.interfaces token).Blameless :=
  (blameless_lineage token).bind (fun lineage =>
    blameless_foldlM (fun _ _ => blameless_collectInterfacesWith _ _ _) lineage [])

theorem blameless_interfaceMap (type : TypeDef) (interface : Token) :
    (program.interfaceMap type interface).Blameless := by
  refine (blameless_typeDef interface).bind (fun definition => ?_)
  refine (blameless_instanceMethods type.token).bind (fun candidates => ?_)
  refine (blameless_declaredMethods definition).bind (fun declared => ?_)
  refine blameless_mapM (fun slot => ?_) _
  unfold implementation
  split
  · exact blameless_ok _
  · exact fun _ impossible => nomatch impossible

end Program

/-! ## Tables and layouts -/

namespace Dispatch

section Tables

variable {linkage : Linkage} {method : MethodDef} {root : Token}

theorem Table.blameless_rootType (slot : MethodDef) : (rootType linkage slot).Blameless :=
  (Program.blameless_rootDeclaration slot).bind (fun _ => blameless_ok _)

theorem Table.blameless_replaceSlot (slots : List MethodDef) :
    (replaceSlot linkage method root slots).Blameless := by
  induction slots with
  | nil => exact blameless_ok _
  | cons slot rest inductionHypothesis =>
      refine (blameless_rootType slot).bind (fun slotRoot => ?_)
      split
      · exact blameless_ok _
      · exact inductionHypothesis.bind (fun _ => blameless_ok _)

theorem Table.blameless_replaceSlots (table : Table) :
    (replaceSlots linkage method root table).Blameless := by
  induction table using baseInduction with
  | step table inductionHypothesis =>
      cases table
      rename_i type resolved name slots base interfaces offset regionSize conversionOffset
        conversions
      unfold replaceSlots
      refine (blameless_replaceSlot slots).bind (fun replacing => ?_)
      rcases replacing with ⟨members, here⟩
      by_cases reached : root = resolved
      · simp only [if_pos reached]
        exact blameless_ok _
      · simp only [if_neg reached]
        refine Blameless.bind ?_ (fun _ => blameless_ok _)
        cases base with
        | none => exact blameless_ok _
        | some base => exact (inductionHypothesis base rfl).bind (fun _ => blameless_ok _)

theorem Table.blameless_override (table : Table) (expectMatch : Bool) :
    (override linkage method expectMatch table).Blameless := by
  refine (blameless_rootType method).bind (fun root => ?_)
  refine (blameless_replaceSlots table).bind (fun changed => ?_)
  rcases changed with ⟨changed, replaced⟩
  dsimp only
  split
  · exact fun _ impossible => nomatch impossible
  · exact blameless_ok _

theorem Layout.blameless_addMethod (layout : Layout) (method : MethodDef) :
    (addMethod linkage layout method).Blameless := by
  have overrides : (override linkage method layout).Blameless := by
    refine Blameless.bind ?_ (fun _ => blameless_ok _)
    cases layout.base with
    | none => exact blameless_ok none
    | some base => exact (Table.blameless_override base true).bind (fun _ => blameless_ok _)
  refine (Program.blameless_rootDeclaration method).bind (fun root => ?_)
  dsimp only
  split
  · exact blameless_ok _
  · split
    · exact overrides.bind (fun _ => blameless_ok _)
    · split
      · exact blameless_ok _
      · split
        · exact blameless_ok _
        · exact blameless_ok _

theorem Layout.blameless_addMethods (layout : Layout) : (layout.addMethods linkage).Blameless :=
  (Program.blameless_instanceMethods _).bind (fun methods =>
    blameless_foldlM blameless_addMethod methods layout)

theorem Layout.blameless_implementInterface (type : TypeDef) (interface : Token) (table : Table) :
    (implementInterface linkage type interface table).Blameless := by
  unfold implementInterface
  split
  · exact blameless_ok _
  · exact (Program.blameless_interfaceMap type interface).bind (fun _ => blameless_ok _)

end Tables

/-! ## Records of fields -/

namespace Catalog

variable {linkage : Linkage}

theorem blameless_describeFields (program : Program) (isStatic : Bool) (fields : List FieldDef) :
    (describeFields program isStatic fields).Blameless := by
  refine blameless_mapM (fun field => ?_) _
  exact (Program.blameless_typeName field.fieldType).bind (fun _ => blameless_ok _)

theorem blameless_recordsOf (type : TypeDef) : (recordsOf linkage type).Blameless := by
  refine (Program.blameless_typeDef _).bind (fun resolved => ?_)
  refine (Program.blameless_declaredFields resolved).bind (fun fields => ?_)
  refine (blameless_describeFields _ false fields).bind (fun instanceFields => ?_)
  exact (blameless_describeFields _ true fields).bind (fun _ => blameless_ok _)

theorem blameless_addEach (catalog : Catalog) (chain : List TypeDef) :
    (addEach linkage catalog chain).Blameless := by
  induction chain generalizing catalog with
  | nil => exact blameless_ok _
  | cons type ancestors inductionHypothesis =>
      unfold addEach
      split
      · exact blameless_ok _
      · exact (blameless_recordsOf type).bind (fun _ => inductionHypothesis _)

theorem blameless_add (catalog : Catalog) (type : Token) :
    (catalog.add linkage type).Blameless := by
  unfold add
  split
  · exact blameless_ok _
  · exact (Program.blameless_lineage type).bind (fun lineage => blameless_addEach catalog lineage)

end Catalog
end Dispatch
end CilGraph
