import CilGraph.Dispatch.Registry
import CilGraph.Proofs.Result
import CilGraph.Proofs.Stateful

namespace CilGraph
namespace Dispatch
namespace Registry

open Stateful

/-!
# Making layouts

The layout of a type is made from the tables of its base type and of its interfaces,
and a layout that was made is entered.  What happens on the way is opened here and
nowhere else: once for making, for two runs that get the tables in different ways, and
once for a round of registering.  Everything that is said about registering a type, be
it how a registry may change, that two registries give the same answer, or which types
an error can be blamed on, is an instance of these rules.
-/

/-- The table that a registry gives for a type. -/
def Tabled (linkage : Linkage) (registry : Registry) (token : Token) (table : Table) : Prop :=
  exists type layout, linkage.program.innermost token = .ok type ∧
    registry.layout? type = some layout ∧ table = layout.table

/-- What the layout of a type is made from. -/
inductive Needs (linkage : Linkage) (token other : Token) : Prop
  | base {type : TypeDef} (declared : linkage.program.typeDef token = .ok type)
      (isBase : type.base = some other) : Needs linkage token other
  | interface {resolved : TypeDef} {interfaces : List Token}
      (resolves : linkage.program.typeDef (linkage.resolveType token) = .ok resolved)
      (listed : linkage.program.interfaces resolved.token = .ok interfaces)
      (among : other ∈ interfaces) : Needs linkage token other

/-- The parts of a layout, where `tabled` says which tables types have. -/
structure Parts (linkage : Linkage) (tabled : Token -> Table -> Prop) (token : Token)
    (type resolved : TypeDef) (base : Option Table) (interfaces : List Token)
    (tables : List Table) : Prop where
  declared : linkage.program.typeDef token = .ok type
  resolves : linkage.program.typeDef (linkage.resolveType token) = .ok resolved
  onBase : Option.Rel tabled type.base base
  listed : linkage.program.interfaces resolved.token = .ok interfaces
  onInterfaces : List.Forall₂ (fun interface table => exists plain, tabled interface plain ∧
    Layout.implementInterface linkage resolved interface plain = .ok table) interfaces tables

/-- A layout was made by sorting the methods of a type into its parts. -/
def MadeOf (linkage : Linkage) (tabled : Token -> Table -> Prop) (token : Token)
    (layout : Layout) : Prop :=
  exists type resolved base interfaces tables,
    Parts linkage tabled token type resolved base interfaces tables ∧
      (Layout.start type resolved.token base tables).addMethods linkage = .ok layout

/-- What goes wrong while a layout is made, other than that a table cannot be had. -/
inductive Hinders (linkage : Linkage) (tabled : Token -> Table -> Prop) (token : Token)
    (error : Error) : Prop
  | type (undeclared : linkage.program.typeDef token = .error error) :
      Hinders linkage tabled token error
  | resolved (unresolved : linkage.program.typeDef (linkage.resolveType token) = .error error) :
      Hinders linkage tabled token error
  | interfaces {resolved : TypeDef}
      (resolves : linkage.program.typeDef (linkage.resolveType token) = .ok resolved)
      (unlisted : linkage.program.interfaces resolved.token = .error error) :
      Hinders linkage tabled token error
  | implementing {resolved : TypeDef} {interfaces : List Token} {interface : Token}
      {plain : Table}
      (resolves : linkage.program.typeDef (linkage.resolveType token) = .ok resolved)
      (listed : linkage.program.interfaces resolved.token = .ok interfaces)
      (among : interface ∈ interfaces) (isTable : tabled interface plain)
      (unimplemented : Layout.implementInterface linkage resolved interface plain =
        .error error) : Hinders linkage tabled token error
  | sorting {type resolved : TypeDef} {base : Option Table} {interfaces : List Token}
      {tables : List Table}
      (parts : Parts linkage tabled token type resolved base interfaces tables)
      (unsorted : (Layout.start type resolved.token base tables).addMethods linkage =
        .error error) : Hinders linkage tabled token error

/-! ## The parts of a layout -/

theorem rel_imp {Item Value : Type} {related implied : Item -> Value -> Prop}
    {item : Option Item} {value : Option Value} (paired : Option.Rel related item value)
    (each : forall item value, related item value -> implied item value) :
    Option.Rel implied item value := by
  cases paired with
  | none => exact .none
  | some isRelated => exact .some (each _ _ isRelated)

section Parts

variable {linkage : Linkage} {tabled : Token -> Table -> Prop} {token : Token}
  {type resolved : TypeDef} {base : Option Table} {interfaces : List Token} {tables : List Table}

theorem Parts.imp {other : Token -> Table -> Prop}
    (parts : Parts linkage tabled token type resolved base interfaces tables)
    (implied : forall token table, tabled token table -> other token table) :
    Parts linkage other token type resolved base interfaces tables := by
  refine ⟨parts.declared, parts.resolves, rel_imp parts.onBase implied, parts.listed,
    parts.onInterfaces.imp ?_⟩
  rintro interface table ⟨plain, isTable, implemented⟩
  exact ⟨plain, implied _ _ isTable, implemented⟩

/-- Where types have one table each, the parts of a layout are determined. -/
theorem Parts.unique {rival : Token -> Table -> Prop}
    (parts : Parts linkage tabled token type resolved base interfaces tables)
    {type' resolved' : TypeDef} {base' : Option Table} {interfaces' : List Token}
    {tables' : List Table}
    (others : Parts linkage rival token type' resolved' base' interfaces' tables')
    (agreeing : forall token table other, tabled token table -> rival token other ->
      table = other) :
    type = type' ∧ resolved = resolved' ∧ base = base' ∧ tables = tables' := by
  have sameType := parts.declared.symm.trans others.declared
  have sameResolved := parts.resolves.symm.trans others.resolves
  cases sameType
  cases sameResolved
  have sameInterfaces := parts.listed.symm.trans others.listed
  cases sameInterfaces
  refine ⟨rfl, rfl, ?_, ?_⟩
  · have onBase := parts.onBase
    have onBase' := others.onBase
    generalize type.base = parent at onBase onBase'
    cases onBase with
    | none =>
        cases onBase'
        rfl
    | some isTable =>
        cases onBase' with
        | some isOther => exact congrArg some (agreeing _ _ _ isTable isOther)
  · have onInterfaces := parts.onInterfaces
    have onInterfaces' := others.onInterfaces
    clear parts others
    induction onInterfaces generalizing tables' with
    | nil =>
        cases onInterfaces'
        rfl
    | cons related _ inductionHypothesis =>
        cases onInterfaces' with
        | cons related' rest =>
            rcases related with ⟨plain, isTable, implemented⟩
            rcases related' with ⟨plain', isOther, implemented'⟩
            rw [agreeing _ _ _ isTable isOther, implemented'] at implemented
            rw [Except.ok.inj implemented, inductionHypothesis rest]

/-- All that a layout needs has a table among the parts. -/
theorem Parts.exists_tabled
    (parts : Parts linkage tabled token type resolved base interfaces tables) {other : Token}
    (needs : Needs linkage token other) : exists table, tabled other table := by
  cases needs with
  | base declared isBase =>
      have sameType := parts.declared.symm.trans declared
      cases sameType
      have onBase := parts.onBase
      rw [isBase] at onBase
      cases onBase with
      | some isTable => exact ⟨_, isTable⟩
  | interface resolves listed among =>
      have sameResolved := parts.resolves.symm.trans resolves
      cases sameResolved
      have sameInterfaces := parts.listed.symm.trans listed
      cases sameInterfaces
      rcases Result.exists_of_mem_left parts.onInterfaces among with ⟨_, _, plain, isTable, _⟩
      exact ⟨plain, isTable⟩

/-- Where all parts are there, only sorting can go wrong. -/
theorem Hinders.unsorted {error : Error} (hinders : Hinders linkage tabled token error)
    (parts : Parts linkage tabled token type resolved base interfaces tables)
    (unique : forall other table rival, tabled other table -> tabled other rival ->
      table = rival) :
    (Layout.start type resolved.token base tables).addMethods linkage = .error error := by
  cases hinders with
  | type undeclared => cases parts.declared.symm.trans undeclared
  | resolved unresolved => cases parts.resolves.symm.trans unresolved
  | interfaces resolves unlisted =>
      cases parts.resolves.symm.trans resolves
      cases parts.listed.symm.trans unlisted
  | implementing resolves listed among isTable unimplemented =>
      cases parts.resolves.symm.trans resolves
      cases parts.listed.symm.trans listed
      rcases Result.exists_of_mem_left parts.onInterfaces among with
        ⟨_, _, plain, isPlain, implemented⟩
      rw [unique _ _ _ isPlain isTable, unimplemented] at implemented
      cases implemented
  | sorting others failed =>
      rcases parts.unique others unique with ⟨rfl, rfl, rfl, rfl⟩
      exact failed

end Parts

/-! ## Making a layout -/

/-- Two runs that get the same tables make the same layout. -/
theorem abreast_makeLayout {First Second : Type} {linkage : Linkage} {token : Token}
    {terms : Terms First Second} {kept : First -> Second -> Prop}
    {tabled : First -> Second -> Token -> Table -> Prop} {obtain : Token -> Stateful First Table}
    {obtain' : Token -> Stateful Second Table}
    (stable : forall first second later last other table, terms.may first second later last ->
      tabled first second other table -> tabled later last other table)
    (obtains : forall other, Needs linkage token other ->
      Abreast terms kept (obtain other) (obtain' other)
        (fun table first second => tabled first second other table ∧ kept first second))
    (excused : forall error first second, Hinders linkage (tabled first second) token error ->
      kept first second -> terms.failed error first second) :
    Abreast terms kept (makeLayout linkage obtain token) (makeLayout linkage obtain' token)
      (fun layout first second =>
        MadeOf linkage (tabled first second) token layout ∧ kept first second) := by
  unfold makeLayout
  refine abreast_lift_bind (fun error first second undeclared =>
    excused error first second (.type undeclared)) (fun type declared => ?_)
  refine abreast_lift_bind (fun error first second unresolved =>
    excused error first second (.resolved unresolved)) (fun resolved resolves => ?_)
  have onBase := abreast_mapM_option
    (fun other isBase => obtains other (.base declared isBase))
  refine abreast_bind onBase (fun base => ?_)
  refine abreast_lift_bind (fun error first second unlisted given =>
    excused error first second (.interfaces resolves unlisted) given.2)
    (fun interfaces listed => ?_)
  have onInterface : forall interface, interface ∈ interfaces -> Abreast terms kept
      (interfaceTable linkage obtain resolved interface)
      (interfaceTable linkage obtain' resolved interface)
      (fun table first second => (exists plain, tabled first second interface plain ∧
        Layout.implementInterface linkage resolved interface plain = .ok table) ∧
          kept first second) := by
    intro interface among
    refine abreast_bind (obtains interface (.interface resolves listed among)) (fun plain => ?_)
    refine (abreast_lift ?_).weaken ?_
    · rintro error first second unimplemented ⟨isTable, holds⟩
      exact excused error first second
        (.implementing resolves listed among isTable unimplemented) holds
    · rintro table first second ⟨implemented, isTable, holds⟩
      exact ⟨⟨plain, isTable, implemented⟩, holds⟩
  have onInterfaces := abreast_mapM_list
    (fun first second later last interface table may holds => by
      rcases holds with ⟨plain, isTable, implemented⟩
      exact ⟨plain, stable _ _ _ _ _ _ may isTable, implemented⟩) onInterface
  refine abreast_bind (onInterfaces.keeping ?_) (fun tables => ?_)
  · intro first second later last may isTable
    exact rel_imp isTable (fun other table => stable _ _ _ _ other table may)
  · have parts : forall first second,
        Option.Rel (tabled first second) type.base base ∧
          List.Forall₂ (fun interface table => exists plain, tabled first second interface plain ∧
            Layout.implementInterface linkage resolved interface plain = .ok table) interfaces
              tables ∧ kept first second ->
        Parts linkage (tabled first second) token type resolved base interfaces tables :=
      fun first second given => ⟨declared, resolves, given.1, listed, given.2.1⟩
    refine (abreast_lift ?_).weaken ?_
    · intro error first second unsorted given
      exact excused error first second (.sorting (parts first second given) unsorted) given.2.2
    · rintro layout first second ⟨sorted, given⟩
      exact ⟨⟨_, _, _, _, _, parts first second given, sorted⟩, given.2.2⟩

/-- What is kept whenever a table is got is kept when a layout is made. -/
theorem abreast_makeLayout_of_kept {First Second : Type} {linkage : Linkage} {token : Token}
    {terms : Terms First Second} {kept : First -> Second -> Prop}
    {obtain : Token -> Stateful First Table} {obtain' : Token -> Stateful Second Table}
    (obtains : forall other, Needs linkage token other ->
      Abreast terms kept (obtain other) (obtain' other) (fun _ => kept))
    (excused : forall error first second, Hinders linkage (fun _ _ => True) token error ->
      kept first second -> terms.failed error first second) :
    Abreast terms kept (makeLayout linkage obtain token) (makeLayout linkage obtain' token)
      (fun _ => kept) := by
  have gets : forall other, Needs linkage token other ->
      Abreast terms kept (obtain other) (obtain' other)
        (fun _ first second => True ∧ kept first second) :=
    fun other needs => (obtains other needs).weaken (fun _ _ _ holds => ⟨trivial, holds⟩)
  have makes := abreast_makeLayout (fun _ _ _ _ _ _ _ isTable => isTable) gets excused
  exact makes.weaken (fun _ _ _ made => made.2)

/-- One run makes a layout from the tables that it gets. -/
theorem holds_makeLayout {State : Type} {linkage : Linkage} {token : Token}
    {course : Course State} {kept : State -> Prop} {tabled : State -> Token -> Table -> Prop}
    {obtain : Token -> Stateful State Table}
    (stable : forall state later other table, course.may state later ->
      tabled state other table -> tabled later other table)
    (obtains : forall other, Needs linkage token other -> Holds course kept (obtain other)
      (fun table state => tabled state other table ∧ kept state))
    (excused : forall error state, Hinders linkage (tabled state) token error -> kept state ->
      course.failed error state) :
    Holds course kept (makeLayout linkage obtain token)
      (fun layout state => MadeOf linkage (tabled state) token layout ∧ kept state) := by
  have made := abreast_makeLayout
    (fun state _ later _ other table may isTable => stable state later other table may isTable)
    (fun other needs => (holds_iff_abreast.mp (obtains other needs)).weaken
      (fun table state another given => ⟨given.2.1, given.1, given.2.2⟩))
    (fun error state _ hinders given => excused error state hinders given.2)
  exact holds_iff_abreast.mpr (made.weaken
    (fun layout state another given => ⟨given.2.1, given.1, given.2.2⟩))

theorem holds_makeLayout_of_kept {State : Type} {linkage : Linkage} {token : Token}
    {course : Course State} {kept : State -> Prop} {obtain : Token -> Stateful State Table}
    (obtains : forall other, Needs linkage token other ->
      Holds course kept (obtain other) (fun _ => kept))
    (excused : forall error state, Hinders linkage (fun _ _ => True) token error -> kept state ->
      course.failed error state) :
    Holds course kept (makeLayout linkage obtain token) (fun _ => kept) :=
  holds_iff_abreast.mpr (abreast_makeLayout_of_kept
    (fun other needs => holds_iff_abreast.mp (obtains other needs))
    (fun error state _ hinders given => excused error state hinders given.2))

/-- Wherever the tables come from, a layout that can be made is made of parts. -/
theorem madeOf_of_makeLayout {State : Type} {linkage : Linkage}
    {obtain : Token -> Stateful State Table} {token : Token} {state later : State}
    {layout : Layout} (made : makeLayout linkage obtain token state = (.ok layout, later)) :
    MadeOf linkage (fun _ _ => True) token layout := by
  have obtains : forall other, Needs linkage token other ->
      Holds (.failing (fun _ _ => True)) (fun _ => True) (obtain other)
        (fun _ _ => True ∧ True) :=
    fun _ _ _ _ => ⟨trivial, fun _ _ => ⟨trivial, trivial⟩, fun _ _ => trivial⟩
  have makes := holds_makeLayout (fun _ _ _ _ _ isTable => isTable) obtains
    (fun _ _ _ _ => trivial)
  exact ((makes state trivial).2.1 layout (congrArg Prod.fst made)).1

/-! ## Running actions -/

section Running

variable {linkage : Linkage} {registry : Registry} {token type : Token} {layout : Layout}
  {fuel : Nat} {waiting : List Token}

/-- The refusal of a type leaves the registry alone. -/
theorem cyclic_apply {Value : Type} (linkage : Linkage) (type : Token) (registry : Registry) :
    (cyclic linkage type : Action Value) registry = (do
      let name ← linkage.program.typeName type
      .error (.ofRequest (.cyclicLayout name)), registry) := by
  unfold cyclic
  rw [bind_apply]
  cases linkage.program.typeName type with
  | error error => rfl
  | ok name => rfl

theorem tableOf_of_layout (canonical : linkage.program.innermost token = .ok type)
    (found : registry.layout? type = some layout) :
    tableOf linkage token registry = (.ok layout.table, registry) := by
  have read : (get : Action Registry) registry = (.ok registry, registry) := rfl
  unfold tableOf
  rw [bind_apply, lift_apply canonical]
  dsimp only
  rw [bind_apply, read]
  dsimp only
  rw [found]
  rfl

/-- A layout is entered together with the records of its type. -/
theorem enter_apply (linkage : Linkage) (type : Token) (layout : Layout) (registry : Registry) :
    enter linkage type layout registry = match registry.catalog.add linkage type with
      | .ok catalog => (.ok (), ⟨registry.layouts ++ [(type, layout)], catalog⟩)
      | .error error => (.error error, registry) := by
  have read : (get : Action Registry) registry = (.ok registry, registry) := rfl
  unfold enter
  rw [bind_apply, read]
  dsimp only
  rw [bind_apply]
  cases registry.catalog.add linkage type with
  | error error => rfl
  | ok catalog => rfl

theorem enter_of_add {catalog : Catalog}
    (entered : registry.catalog.add linkage type = .ok catalog) :
    enter linkage type layout registry =
      (.ok (), ⟨registry.layouts ++ [(type, layout)], catalog⟩) := by
  rw [enter_apply, entered]

/-- An array whose elements lead nowhere is not registered. -/
theorem addWith_of_error {error : Error}
    (astray : linkage.program.innermost token = .error error) :
    addWith linkage (fuel + 1) waiting token registry = (.error error, registry) := by
  unfold addWith
  rw [astray]
  rfl

/-- A registered type is not registered again. -/
theorem addWith_of_layout (canonical : linkage.program.innermost token = .ok type)
    (found : registry.layout? type = some layout) :
    addWith linkage (fuel + 1) waiting token registry = (.ok (), registry) := by
  unfold addWith
  rw [bind_apply, lift_apply canonical]
  change (if (registry.layout? type).isSome then (pure () : Action Unit) else _) registry = _
  rw [found]
  rfl

/-- A type that is not registered and does not wait gets a layout. -/
theorem addWith_of_missing (canonical : linkage.program.innermost token = .ok type)
    (missing : registry.layout? type = none) (idle : type ∉ waiting) :
    addWith linkage (fuel + 1) waiting token registry =
      (makeLayout linkage (fun other => do
          addWith linkage fuel (type :: waiting) other
          tableOf linkage other) type >>= enter linkage type) registry := by
  rw [addWith, bind_apply, lift_apply canonical]
  change (if (registry.layout? type).isSome then (pure () : Action Unit)
    else if waiting.contains type then cyclic linkage type else _) registry = _
  rw [missing, if_neg (fun impossible => nomatch impossible),
    if_neg (fun waits => idle (List.contains_iff_mem.mp waits))]

/-- A type that waits is refused, unless it is registered. -/
theorem addWith_of_waiting (canonical : linkage.program.innermost token = .ok type)
    (missing : registry.layout? type = none) (waits : type ∈ waiting) :
    addWith linkage (fuel + 1) waiting token registry = cyclic linkage type registry := by
  rw [addWith, bind_apply, lift_apply canonical]
  change (if (registry.layout? type).isSome then (pure () : Action Unit)
    else if waiting.contains type then cyclic linkage type else _) registry = _
  rw [missing, if_neg (fun impossible => nomatch impossible),
    if_pos (List.contains_iff_mem.mpr waits)]

theorem table_of_layout (canonical : linkage.program.innermost token = .ok token)
    (found : registry.layout? token = some layout) :
    Registry.table linkage token registry = (.ok layout.table, registry) := by
  have added : Registry.add linkage token registry = (.ok (), registry) :=
    addWith_of_layout canonical found
  unfold Registry.table
  rw [bind_apply, added]
  exact tableOf_of_layout canonical found

end Running

/-! ## A round of registering -/

section Rounds

variable {Value : Type} {linkage : Linkage} {course : Course Registry} {kept : Registry -> Prop}
  {token : Token}

/-- A refusal is an error. -/
theorem holds_cyclic {after : Value -> Registry -> Prop}
    (excused : forall error registry, kept registry -> course.failed error registry) :
    Holds course kept (cyclic linkage token : Action Value) after :=
  holds_lift_bind (fun error registry _ => excused error registry)
    (fun _ _ => holds_throw (excused _))

theorem holds_tableOf
    (astray : forall error registry, linkage.program.innermost token = .error error ->
      kept registry -> course.failed error registry)
    (missing : forall type registry, linkage.program.innermost token = .ok type ->
      registry.layout? type = none -> kept registry ->
        course.failed (.unknownToken type) registry) :
    Holds course kept (tableOf linkage token)
      (fun table registry => Tabled linkage registry token table ∧ kept registry) := by
  unfold tableOf
  refine holds_lift_bind astray (fun type canonical => holds_get_bind (fun registry holds => ?_))
  cases found : registry.layout? type with
  | none =>
      refine holds_throw (fun current same => ?_)
      rw [same]
      exact missing type registry canonical found holds
  | some layout =>
      refine holds_pure (fun current same => ?_)
      rw [same]
      exact ⟨⟨type, layout, canonical, found, rfl⟩, holds⟩

theorem holds_enter {layout : Layout} {after : Registry -> Prop}
    (excused : forall error registry, registry.catalog.add linkage token = .error error ->
      kept registry -> course.failed error registry)
    (entered : forall registry catalog, kept registry ->
      registry.catalog.add linkage token = .ok catalog ->
        course.may registry ⟨registry.layouts ++ [(token, layout)], catalog⟩ ∧
          after ⟨registry.layouts ++ [(token, layout)], catalog⟩) :
    Holds course kept (enter linkage token layout) (fun _ => after) := by
  intro registry holds
  rw [enter_apply]
  cases outcome : registry.catalog.add linkage token with
  | error error =>
      exact ⟨course.refl registry, fun _ impossible => (nomatch impossible), fun _ same =>
        Except.error.inj same ▸ excused error registry outcome holds⟩
  | ok catalog =>
      rcases entered registry catalog holds outcome with ⟨may, final⟩
      exact ⟨may, fun _ _ => final, fun _ impossible => nomatch impossible⟩

/-- In a round of registering, the elements of an array lead nowhere, the type is
registered, it waits already, or its layout is made and entered. -/
theorem holds_addWith {fuel : Nat} {waiting : List Token} {after : Registry -> Prop}
    (astray : forall error registry, linkage.program.innermost token = .error error ->
      kept registry -> course.failed error registry)
    (registered : forall type layout registry, linkage.program.innermost token = .ok type ->
      registry.layout? type = some layout -> kept registry -> after registry)
    (circular : forall type error registry, linkage.program.innermost token = .ok type ->
      type ∈ waiting -> kept registry -> course.failed error registry)
    (making : forall type, linkage.program.innermost token = .ok type -> type ∉ waiting ->
      Holds course (fun registry => registry.layout? type = none ∧ kept registry)
        (makeLayout linkage (fun other => do
            addWith linkage fuel (type :: waiting) other
            tableOf linkage other) type >>= enter linkage type) (fun _ => after)) :
    Holds course kept (addWith linkage (fuel + 1) waiting token) (fun _ => after) := by
  intro registry holds
  cases canonical : linkage.program.innermost token with
  | error error =>
      rw [addWith_of_error canonical]
      exact ⟨course.refl registry, fun _ impossible => (nomatch impossible), fun _ same =>
        Except.error.inj same ▸ astray error registry canonical holds⟩
  | ok type =>
      cases found : registry.layout? type with
      | some layout =>
          rw [addWith_of_layout canonical found]
          exact ⟨course.refl registry, fun _ _ => registered type layout registry canonical found
            holds, fun _ impossible => nomatch impossible⟩
      | none =>
          by_cases waits : type ∈ waiting
          · rw [addWith_of_waiting canonical found waits]
            exact holds_cyclic (fun error current given =>
              circular type error current canonical waits given) registry holds
          · rw [addWith_of_missing canonical found waits]
            exact making type canonical waits registry ⟨found, holds⟩

end Rounds

end Registry
end Dispatch
end CilGraph
