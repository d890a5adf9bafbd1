import CilGraph.Compilation
import CilGraph.Proofs.Dispatch.Fields
import CilGraph.Proofs.Ordered
import Mathlib.Data.Finset.Card

namespace CilGraph

/-!
# Taking in types

A session takes in a type together with all that its layout leads to.  When it
is done with a type, the type is complete: it has a layout and both records, and
so has every type that it leads to.  Of a type that is used through static
members only, the static record and the types of the static fields are there.

On the way the session looks at types whose own neighbours are still to come.
`TypesOnly` says what holds of every step on the way, `Takes` what holds once
nothing is left to look at.  The number of types to look at has a bound, and the
bound suffices because every type is taken in once and leads to no more than the
widest type does.

What is registered and recorded depends on the types alone.  The records are
those that the fields give, each name is recorded once, and the registry does not
leave a set of types that contains the types which were taken in and all that
their layouts need.
-/

/-! ## Type records -/

namespace Records

/-- Every name of a type record is recorded once, and the sets of names are in
order. -/
structure Indexed (records : Records) : Prop where
  distinct : (records.types.map TypeRecord.name).Nodup
  names : forall name, name ∈ records.typeNames ↔ name ∈ records.types.map TypeRecord.name
  ascending : Ordered.Ascending records.typeNames
  natives : Ordered.AscendingEntries records.natives

theorem indexed_empty : Indexed {} :=
  ⟨List.nodup_nil, fun _ => Iff.rfl, List.Pairwise.nil, List.Pairwise.nil⟩

section Adding

variable {records : Records} {record other : TypeRecord} {name : String}

theorem mem_typeNames_addType :
    name ∈ (records.addType record).2.typeNames ↔
      name = record.name ∨ name ∈ records.typeNames := by
  unfold addType
  split
  · rename_i taken
    constructor
    · exact Or.inr
    · rintro (same | earlier)
      · rw [same]
        exact List.contains_iff_mem.mp taken
      · exact earlier
  · exact Ordered.mem_insertName _ _ _

theorem mem_types_addType (member : other ∈ (records.addType record).2.types) :
    other = record ∨ other ∈ records.types := by
  unfold addType at member
  split at member
  · exact Or.inr member
  · rcases List.mem_append.mp member with earlier | added
    · exact Or.inr earlier
    · exact Or.inl (List.mem_singleton.mp added)

theorem methods_addType : (records.addType record).2.methods = records.methods := by
  unfold addType
  split <;> rfl

theorem methodNames_addType : (records.addType record).2.methodNames = records.methodNames := by
  unfold addType
  split <;> rfl

theorem natives_addType : (records.addType record).2.natives = records.natives := by
  unfold addType
  split <;> rfl

theorem Indexed.indexes (indexed : records.Indexed) :
    Ordered.Indexes TypeRecord.name records.types records.typeNames :=
  ⟨indexed.distinct, indexed.names, indexed.ascending⟩

theorem Indexed.addType (indexed : records.Indexed) (record : TypeRecord) :
    (records.addType record).2.Indexed := by
  unfold Records.addType
  split
  · exact indexed
  · rename_i fresh
    have indexes := indexed.indexes.append (fun taken => fresh (List.contains_iff_mem.mpr taken))
    exact ⟨indexes.distinct, indexes.members, indexes.ascending, indexed.natives⟩

end Adding

end Records

namespace Compilation
namespace Session

/-! ## Steps that succeed -/

section Success

variable {Value Other : Type} {before after : Session}

theorem bind_eq_ok {step : Step Value} {next : Value -> Step Other} {other : Other}
    (succeeded : (step >>= next) before = .ok (other, after)) :
    exists value between, step before = .ok (value, between) ∧
      next value between = .ok (other, after) := by
  change (step before >>= fun reached => next reached.1 reached.2) = _ at succeeded
  rcases Result.bind_eq_ok.mp succeeded with ⟨⟨value, between⟩, first, second⟩
  exact ⟨value, between, first, second⟩

theorem lift_eq_ok {result : Result Value} {value : Value}
    (succeeded : (liftM result : Step Value) before = .ok (value, after)) :
    result = .ok value ∧ after = before := by
  rcases Result.map_eq_ok.mp succeeded with ⟨found, obtained, same⟩
  cases same
  exact ⟨obtained, rfl⟩

theorem lift_bind_eq_ok {result : Result Value} {next : Value -> Step Other} {other : Other}
    (succeeded : ((liftM result : Step Value) >>= next) before = .ok (other, after)) :
    exists value, result = .ok value ∧ next value before = .ok (other, after) := by
  rcases bind_eq_ok succeeded with ⟨value, between, lifted, continued⟩
  rcases lift_eq_ok lifted with ⟨obtained, same⟩
  rw [same] at continued
  exact ⟨value, obtained, continued⟩

/-- A loop that succeeds has succeeded for one item after another. -/
theorem forIn_induction {Item : Type} {action : Item -> Step PUnit} {items : List Item}
    {result : PUnit} (holds : List Item -> Session -> Prop)
    (succeeded : (forIn items PUnit.unit fun item _ => do
      action item
      pure (ForInStep.yield PUnit.unit)) before = .ok (result, after))
    (start : holds [] before)
    (each : forall (finished : List Item) (item : Item) (first second : Session), item ∈ items ->
      holds finished first -> action item first = .ok (PUnit.unit, second) ->
      holds (finished ++ [item]) second) :
    holds items after := by
  induction items generalizing before holds with
  | nil =>
      cases succeeded
      exact start
  | cons item items inductionHypothesis =>
      rw [List.forIn_cons] at succeeded
      rcases bind_eq_ok succeeded with ⟨outcome, between, acted, continued⟩
      rcases bind_eq_ok acted with ⟨_, reached, now, yielded⟩
      cases yielded
      refine inductionHypothesis (fun finished session => holds (item :: finished) session)
        continued ?_ ?_
      · exact each [] item before _ List.mem_cons_self start now
      · intro finished other first second member given next
        exact each (item :: finished) other first second (List.mem_cons_of_mem item member) given
          next

end Success

/-! ## Types -/

/-- A type was taken in, whole or for its static part. -/
def Touches (session : Session) (type : Token) : Prop :=
  type ∈ session.wholeTypes ∨ type ∈ session.staticTypes

/-- A type was taken in whole or, if that is enough, for its static part. -/
def Covers (session : Session) (isStatic : Bool) (type : Token) : Prop :=
  type ∈ session.wholeTypes ∨ (isStatic = true ∧ type ∈ session.staticTypes)

/-- A token leads to a type that was taken in whole. -/
def Holds (program : Program) (session : Session) (token : Token) : Prop :=
  exists type, program.innermost token = .ok type ∧ type ∈ session.wholeTypes

/-- A type owns its name. -/
def OwnsName (program : Program) (session : Session) (type : Token) : Prop :=
  exists name, program.typeName type = .ok name ∧ session.typeOwners.lookup name = some type

/-- Nothing that was taken in, entered or registered is given up. -/
structure Widens (linkage : Linkage) (before after : Session) : Prop where
  wholes : before.wholeTypes ⊆ after.wholeTypes
  statics : before.staticTypes ⊆ after.staticTypes
  typeNames : before.records.typeNames ⊆ after.records.typeNames
  catalog : Dispatch.Catalog.Extends before.registry.catalog after.registry.catalog
  registry : Dispatch.Registry.Grows linkage before.registry after.registry

/-- A type record describes the fields of a type that was taken in. -/
def Describes (linkage : Linkage) (session : Session) (record : TypeRecord) : Prop :=
  exists token type fields isStatic, linkage.program.typeDef token = .ok type ∧
    Dispatch.Catalog.recordsOf linkage type = .ok fields ∧ record = fields.select isStatic ∧
    session.Covers isStatic token

/-- What the registry and the type records of a session hold is what the types
give that were taken in.  The registered types are in a set. -/
structure Orderly (linkage : Linkage) (inside : Token -> Prop) (session : Session) : Prop where
  stocked : Dispatch.Registry.Stocked linkage session.registry
  indexed : session.records.Indexed
  described : forall record, record ∈ session.records.types -> session.Describes linkage record
  confined : forall type, type ∈ session.registry.types -> inside type

/-- Types were taken in, each under a name of its own, and nothing else has
changed. -/
structure TypesOnly (linkage : Linkage) (before after : Session) : Prop
    extends Widens linkage before after where
  pending : after.pending = before.pending
  callables : after.callables = before.callables
  methods : after.records.methods = before.records.methods
  methodNames : after.records.methodNames = before.records.methodNames
  natives : after.records.natives = before.records.natives
  dispatched : after.dispatched = before.dispatched
  owners : forall name type, before.typeOwners.lookup name = some type ->
    after.typeOwners.lookup name = some type
  touched : forall type, after.Touches type ->
    before.Touches type ∨ after.OwnsName linkage.program type
  orderly : linkage.program.WellFormed -> forall inside,
    Dispatch.Registry.Sufficient linkage inside ->
    (forall type, type ∈ after.wholeTypes -> inside type) ->
    Orderly linkage inside before -> Orderly linkage inside after

section Types

variable {linkage : Linkage} {first second third : Session}

theorem OwnsName.mono {program : Program} {type : Token} (owns : first.OwnsName program type)
    (kept : forall name type, first.typeOwners.lookup name = some type ->
      second.typeOwners.lookup name = some type) : second.OwnsName program type := by
  rcases owns with ⟨name, named, owned⟩
  exact ⟨name, named, kept name type owned⟩

theorem Covers.mono {isStatic : Bool} {type : Token} (covers : first.Covers isStatic type)
    (wholes : first.wholeTypes ⊆ second.wholeTypes)
    (statics : first.staticTypes ⊆ second.staticTypes) : second.Covers isStatic type := by
  rcases covers with whole | ⟨enough, partly⟩
  · exact Or.inl (wholes whole)
  · exact Or.inr ⟨enough, statics partly⟩

theorem Holds.mono {program : Program} {token : Token} (held : first.Holds program token)
    (wholes : first.wholeTypes ⊆ second.wholeTypes) : second.Holds program token := by
  rcases held with ⟨type, canonical, whole⟩
  exact ⟨type, canonical, wholes whole⟩

/-- What was taken in is as it was. -/
theorem Widens.of_eq (registry : second.registry = first.registry)
    (typeNames : second.records.typeNames = first.records.typeNames)
    (wholes : second.wholeTypes = first.wholeTypes)
    (statics : second.staticTypes = first.staticTypes) : Widens linkage first second := by
  refine ⟨?_, ?_, ?_, ?_, ?_⟩
  · rw [wholes]
    exact List.Subset.refl _
  · rw [statics]
    exact List.Subset.refl _
  · rw [typeNames]
    exact List.Subset.refl _
  · rw [registry]
    exact .refl _
  · rw [registry]
    exact .refl

theorem Widens.trans (early : Widens linkage first second) (late : Widens linkage second third) :
    Widens linkage first third where
  wholes := List.Subset.trans early.wholes late.wholes
  statics := List.Subset.trans early.statics late.statics
  typeNames := List.Subset.trans early.typeNames late.typeNames
  catalog := early.catalog.trans late.catalog
  registry := early.registry.trans late.registry

/-- Neither the registry nor the type records have changed, and no type is
covered less than before. -/
theorem Orderly.unchanged {inside : Token -> Prop} (orderly : Orderly linkage inside first)
    (registry : second.registry = first.registry)
    (types : second.records.types = first.records.types)
    (typeNames : second.records.typeNames = first.records.typeNames)
    (natives : Ordered.AscendingEntries second.records.natives)
    (wholes : first.wholeTypes ⊆ second.wholeTypes)
    (statics : first.staticTypes ⊆ second.staticTypes) : Orderly linkage inside second := by
  refine ⟨?_, ⟨?_, ?_, ?_, natives⟩, ?_, ?_⟩
  · rw [registry]
    exact orderly.stocked
  · rw [types]
    exact orderly.indexed.distinct
  · rw [types, typeNames]
    exact orderly.indexed.names
  · rw [typeNames]
    exact orderly.indexed.ascending
  · intro record member
    rw [types] at member
    rcases orderly.described record member with
      ⟨token, type, fields, isStatic, declared, made, same, covers⟩
    exact ⟨token, type, fields, isStatic, declared, made, same, covers.mono wholes statics⟩
  · rw [registry]
    exact orderly.confined

/-- Neither the registry nor the records of types have a part in who owns a
name. -/
theorem typesOnly_of_records {records : Records} {registry : Dispatch.Registry}
    (methods : records.methods = first.records.methods)
    (methodNames : records.methodNames = first.records.methodNames)
    (natives : records.natives = first.records.natives)
    (widens : Widens linkage first { first with records := records, registry := registry })
    (orderly : linkage.program.WellFormed -> forall inside,
      Dispatch.Registry.Sufficient linkage inside ->
      (forall type, type ∈ first.wholeTypes -> inside type) ->
      Orderly linkage inside first ->
      Orderly linkage inside { first with records := records, registry := registry }) :
    TypesOnly linkage first { first with records := records, registry := registry } :=
  ⟨widens, rfl, rfl, methods, methodNames, natives, rfl, fun _ _ owned => owned,
    fun _ touched => Or.inl touched, orderly⟩

theorem TypesOnly.refl (session : Session) : TypesOnly linkage session session :=
  typesOnly_of_records rfl rfl rfl (.of_eq rfl rfl rfl rfl) (fun _ _ _ _ orderly => orderly)

theorem TypesOnly.trans (early : TypesOnly linkage first second)
    (late : TypesOnly linkage second third) : TypesOnly linkage first third where
  toWidens := early.toWidens.trans late.toWidens
  pending := late.pending.trans early.pending
  callables := late.callables.trans early.callables
  methods := late.methods.trans early.methods
  methodNames := late.methodNames.trans early.methodNames
  natives := late.natives.trans early.natives
  dispatched := late.dispatched.trans early.dispatched
  owners := fun name type owned => late.owners name type (early.owners name type owned)
  touched := by
    intro type touched
    rcases late.touched type touched with earlier | owns
    · rcases early.touched type earlier with first | owned
      · exact Or.inl first
      · exact Or.inr (owned.mono late.owners)
    · exact Or.inr owns
  orderly := fun wellFormed inside sufficient whole orderly =>
    late.orderly wellFormed inside sufficient whole
      (early.orderly wellFormed inside sufficient
        (fun type member => whole type (late.wholes member)) orderly)

/-- Giving away a fresh name takes no name from its owner. -/
theorem lookup_cons_of_fresh {name other : String} {token owner : Token}
    {owners : List (String × Token)} (fresh : owners.lookup name = none)
    (owned : owners.lookup other = some owner) :
    ((name, token) :: owners).lookup other = some owner := by
  have differs : (other == name) = false := by
    rw [beq_eq_false_iff_ne]
    intro same
    rw [same, fresh] at owned
    cases owned
  rw [List.lookup_cons, differs]
  exact owned

/-- Whoever has claimed a name owns it, and no owner has lost a name. -/
theorem claim_eq_ok {name : String} {token : Token} {owners next : List (String × Token)}
    (claimed : claim name token owners = .ok next) :
    next.lookup name = some token ∧ forall other owner, owners.lookup other = some owner ->
      next.lookup other = some owner := by
  unfold claim at claimed
  cases owned : owners.lookup name with
  | none =>
      rw [owned] at claimed
      cases claimed
      exact ⟨List.lookup_cons_self, fun _ _ held => lookup_cons_of_fresh owned held⟩
  | some owner =>
      rw [owned] at claimed
      simp only at claimed
      split at claimed
      · rename_i same
        cases claimed
        rw [← same]
        exact ⟨owned, fun _ _ held => held⟩
      · cases claimed

theorem claimType_eq_ok {type : Token}
    (claimed : claimType linkage type first = .ok ((), second)) :
    exists name owners, linkage.program.typeName type = .ok name ∧
      claim name type first.typeOwners = .ok owners ∧
      second = { first with typeOwners := owners } := by
  rcases lift_bind_eq_ok claimed with ⟨name, named, reading⟩
  rcases bind_eq_ok reading with ⟨session, between, got, claiming⟩
  cases got
  rcases lift_bind_eq_ok claiming with ⟨owners, owned, written⟩
  cases written
  exact ⟨name, owners, named, owned, rfl⟩

/-- A type that was not taken in is marked, and then its name is claimed. -/
theorem claimType_typesOnly {type : Token} {wholeTypes staticTypes : List Token}
    (wholes : first.wholeTypes ⊆ wholeTypes) (statics : first.staticTypes ⊆ staticTypes)
    (marks : forall other, other ∈ wholeTypes ∨ other ∈ staticTypes ->
      other = type ∨ first.Touches other)
    (claimed : claimType linkage type
      { first with wholeTypes := wholeTypes, staticTypes := staticTypes } = .ok ((), second)) :
    TypesOnly linkage first second := by
  rcases claimType_eq_ok claimed with ⟨name, owners, named, owned, same⟩
  rcases claim_eq_ok owned with ⟨owns, kept⟩
  rw [same]
  refine ⟨⟨wholes, statics, List.Subset.refl _, .refl _, .refl⟩, rfl, rfl, rfl, rfl, rfl, rfl,
    kept, ?_, ?_⟩
  · intro other touched
    rcases marks other touched with isNew | earlier
    · rw [isNew]
      exact Or.inr ⟨name, named, owns⟩
    · exact Or.inl earlier
  · intro _ inside _ _ orderly
    exact orderly.unchanged rfl rfl rfl orderly.indexed.natives wholes statics

/-- An action on the registry that lets it grow. -/
theorem onRegistry_eq_ok {Value : Type} {action : Dispatch.Registry.Action Value} {value : Value}
    (acted : onRegistry action first = .ok (value, second)) :
    (action first.registry).1 = .ok value ∧
      second = { first with registry := (action first.registry).2 } := by
  unfold onRegistry at acted
  generalize action first.registry = outcome at acted ⊢
  rcases outcome with ⟨result, registry⟩
  cases result with
  | error error => cases acted
  | ok found =>
      cases acted
      exact ⟨rfl, rfl⟩

/-- Registering a type that was marked as taken in whole. -/
theorem register_typesOnly {type : Token}
    (canonical : linkage.program.innermost type = .ok type) (marked : type ∈ first.wholeTypes)
    (added : onRegistry (Dispatch.Registry.add linkage type) first = .ok ((), second)) :
    TypesOnly linkage first second ∧ type ∈ second.registry.types := by
  rcases onRegistry_eq_ok added with ⟨succeeded, same⟩
  rcases Dispatch.Registry.ensures_add linkage type first.registry trivial with ⟨grows, reached⟩
  rcases reached () succeeded with ⟨plain, layout, found, registered⟩
  rw [canonical] at found
  rw [← Except.ok.inj found] at registered
  have kept := Dispatch.Registry.extends_catalog_add canonical succeeded
  rw [same]
  refine ⟨typesOnly_of_records rfl rfl rfl
    ⟨List.Subset.refl _, List.Subset.refl _, List.Subset.refl _, kept, grows⟩ ?_,
    Dispatch.Registry.mem_types_iff.mpr ⟨layout, registered⟩⟩
  intro wellFormed inside sufficient whole orderly
  refine ⟨orderly.stocked.add wellFormed canonical succeeded, orderly.indexed, orderly.described,
    ?_⟩
  exact Dispatch.Registry.kept_add sufficient Dispatch.Registry.confined_preserved canonical
    (whole type marked) orderly.confined succeeded

/-- Entering the fields of a type and of its base types. -/
theorem enterFields_typesOnly {type : Token} {definition : TypeDef}
    (declared : linkage.program.typeDef type = .ok definition)
    (entered : onRegistry (Dispatch.Registry.addFields linkage type) first = .ok ((), second)) :
    TypesOnly linkage first second := by
  rcases onRegistry_eq_ok entered with ⟨succeeded, same⟩
  have grows := Dispatch.Registry.grows_addFields linkage type first.registry
  rw [Dispatch.Registry.addFields_apply] at succeeded same grows
  cases added : first.registry.catalog.add linkage type with
  | error error =>
      rw [added] at succeeded
      cases succeeded
  | ok catalog =>
      rw [added] at same grows
      rw [same]
      refine typesOnly_of_records rfl rfl rfl ⟨List.Subset.refl _, List.Subset.refl _,
        List.Subset.refl _, Dispatch.Catalog.extends_add added, grows⟩ ?_
      intro wellFormed inside _ _ orderly
      exact ⟨orderly.stocked.catalog wellFormed declared added, orderly.indexed,
        orderly.described, orderly.confined⟩

/-- A record of fields was added for a type of the catalogue. -/
theorem recordFields_eq_ok {type : Token} {isStatic : Bool}
    (recorded : recordFields type isStatic first = .ok ((), second)) :
    exists fields, first.registry.catalog.get? type = some fields ∧
      second = { first with records := (first.records.addType (fields.select isStatic)).2 } := by
  rcases bind_eq_ok recorded with ⟨session, between, got, continued⟩
  cases got
  cases entered : first.registry.catalog.get? type with
  | none =>
      simp only [entered] at continued
      cases continued
  | some fields =>
      simp only [entered] at continued
      cases continued
      exact ⟨fields, rfl, rfl⟩

theorem recordFields_typesOnly {type : Token} {isStatic : Bool}
    (covers : first.Covers isStatic type)
    (recorded : recordFields type isStatic first = .ok ((), second)) :
    TypesOnly linkage first second := by
  rcases recordFields_eq_ok recorded with ⟨fields, entered, same⟩
  rw [same]
  have typeNames : first.records.typeNames ⊆
      (first.records.addType (fields.select isStatic)).2.typeNames :=
    fun _ member => Records.mem_typeNames_addType.mpr (Or.inr member)
  refine typesOnly_of_records Records.methods_addType Records.methodNames_addType
    Records.natives_addType
    ⟨List.Subset.refl _, List.Subset.refl _, typeNames, .refl _, .refl⟩ ?_
  intro _ inside _ _ orderly
  refine ⟨orderly.stocked, orderly.indexed.addType _, ?_, orderly.confined⟩
  intro record member
  rcases Records.mem_types_addType member with isNew | earlier
  · rcases orderly.stocked.faithful.describes type fields entered with ⟨definition, declared, made⟩
    exact ⟨type, definition, fields, isStatic, declared, made, isNew, covers⟩
  · exact orderly.described record earlier

/-- Everything about a type is there: its layout, its records and all that its
layout leads to. -/
structure Complete (linkage : Linkage) (session : Session) (type : Token) : Prop where
  canonical : linkage.program.innermost type = .ok type
  registered : type ∈ session.registry.types
  recorded : exists fields, session.registry.catalog.get? type = some fields ∧
    forall isStatic, (fields.select isStatic).name ∈ session.records.typeNames
  led : exists next, neighbours linkage type = .ok next ∧
    forall token, token ∈ next -> session.Holds linkage.program token

/-- The static part of a type is there: its record and the types of its static
fields. -/
structure CompleteStatics (linkage : Linkage) (session : Session) (type : Token) : Prop where
  canonical : linkage.program.innermost type = .ok type
  recorded : exists fields, session.registry.catalog.get? type = some fields ∧
    (fields.select true).name ∈ session.records.typeNames
  led : exists resolved fields, linkage.program.typeDef (linkage.resolveType type) = .ok resolved ∧
    linkage.program.declaredFields resolved = .ok fields ∧
    forall field, field ∈ fields.filter FieldDef.isStatic ->
      session.Holds linkage.program field.fieldType

theorem mem_types_grows {before after : Dispatch.Registry}
    (grows : Dispatch.Registry.Grows linkage before after) {type : Token}
    (registered : type ∈ before.types) : type ∈ after.types := by
  rcases Dispatch.Registry.mem_types_iff.mp registered with ⟨layout, found⟩
  exact Dispatch.Registry.mem_types_iff.mpr ⟨layout, grows.layout? found⟩

theorem Complete.widens {type : Token} (complete : Complete linkage first type)
    (widens : Widens linkage first second) : Complete linkage second type := by
  rcases complete.recorded with ⟨fields, entered, named⟩
  rcases complete.led with ⟨next, listed, held⟩
  exact ⟨complete.canonical, mem_types_grows widens.registry complete.registered,
    ⟨fields, widens.catalog _ _ entered, fun isStatic => widens.typeNames (named isStatic)⟩,
    next, listed, fun token member => (held token member).mono widens.wholes⟩

theorem CompleteStatics.widens {type : Token} (complete : CompleteStatics linkage first type)
    (widens : Widens linkage first second) : CompleteStatics linkage second type := by
  rcases complete.recorded with ⟨fields, entered, named⟩
  rcases complete.led with ⟨resolved, declared, resolves, listed, held⟩
  exact ⟨complete.canonical, ⟨fields, widens.catalog _ _ entered, widens.typeNames named⟩,
    resolved, declared, resolves, listed,
    fun field member => (held field member).mono widens.wholes⟩

/-- Types were taken in with all that they lead to. -/
structure Takes (linkage : Linkage) (before after : Session) : Prop
    extends TypesOnly linkage before after where
  completed : forall type, type ∈ after.wholeTypes ->
    type ∈ before.wholeTypes ∨ Complete linkage after type
  completedStatics : forall type, type ∈ after.staticTypes ->
    type ∈ before.staticTypes ∨ CompleteStatics linkage after type

/-- Nothing was taken in. -/
theorem TypesOnly.takes (only : TypesOnly linkage first second)
    (wholes : second.wholeTypes = first.wholeTypes)
    (statics : second.staticTypes = first.staticTypes) : Takes linkage first second :=
  ⟨only, fun _ member => Or.inl (wholes ▸ member), fun _ member => Or.inl (statics ▸ member)⟩

theorem Takes.refl (session : Session) : Takes linkage session session :=
  (TypesOnly.refl session).takes rfl rfl

theorem Takes.trans (early : Takes linkage first second) (late : Takes linkage second third) :
    Takes linkage first third where
  toTypesOnly := early.toTypesOnly.trans late.toTypesOnly
  completed := by
    intro type whole
    rcases late.completed type whole with earlier | complete
    · exact (early.completed type earlier).imp_right (fun complete => complete.widens late.toWidens)
    · exact Or.inr complete
  completedStatics := by
    intro type partly
    rcases late.completedStatics type partly with earlier | complete
    · exact (early.completedStatics type earlier).imp_right
        (fun complete => complete.widens late.toWidens)
    · exact Or.inr complete

/-- One type was taken in, and what it leads to is listed. -/
structure TakesIn (linkage : Linkage) (type : Token) (before after : Session)
    (next : List Token) : Prop where
  only : TypesOnly linkage before after
  wholes : after.wholeTypes = type :: before.wholeTypes
  statics : after.staticTypes = before.staticTypes
  registered : type ∈ after.registry.types
  recorded : exists fields, after.registry.catalog.get? type = some fields ∧
    forall isStatic, (fields.select isStatic).name ∈ after.records.typeNames
  listed : neighbours linkage type = .ok next

theorem takeIn_eq_ok {type : Token} {next : List Token}
    (canonical : linkage.program.innermost type = .ok type)
    (taken : takeIn linkage type first = .ok (next, second)) :
    TakesIn linkage type first second next := by
  rcases bind_eq_ok taken with ⟨_, marked, marking, claiming⟩
  cases marking
  rcases bind_eq_ok claiming with ⟨_, named, claimed, adding⟩
  rcases bind_eq_ok adding with ⟨_, registered, added, recording⟩
  rcases bind_eq_ok recording with ⟨_, withStatics, recordedStatics, recordingInstance⟩
  rcases bind_eq_ok recordingInstance with ⟨_, withInstance, recordedInstance, listing⟩
  rcases lift_eq_ok listing with ⟨listed, same⟩
  -- The mark comes before the claim, so only both together leave every marked type with a name.
  have marks : forall other, other ∈ type :: first.wholeTypes ∨ other ∈ first.staticTypes ->
      other = type ∨ first.Touches other := by
    rintro other (whole | isStatic)
    · exact (List.mem_cons.mp whole).imp_right Or.inl
    · exact Or.inr (Or.inr isStatic)
  have onClaim := claimType_typesOnly (List.subset_cons_self _ _) (List.Subset.refl _) marks claimed
  rcases claimType_eq_ok claimed with ⟨name, owners, _, _, isNamed⟩
  rcases onRegistry_eq_ok added with ⟨_, isRegistered⟩
  rcases recordFields_eq_ok recordedStatics with ⟨fields, entered, isWithStatics⟩
  rcases recordFields_eq_ok recordedInstance with ⟨again, enteredAgain, isWithInstance⟩
  have wholes : named.wholeTypes = type :: first.wholeTypes := by rw [isNamed]
  have marked : type ∈ named.wholeTypes := wholes ▸ List.mem_cons_self
  rcases register_typesOnly canonical marked added with ⟨onRegister, inRegistry⟩
  have onStatics : TypesOnly linkage registered withStatics :=
    recordFields_typesOnly (Or.inl (onRegister.wholes marked)) recordedStatics
  have onInstance : TypesOnly linkage withStatics withInstance :=
    recordFields_typesOnly (Or.inl (onStatics.wholes (onRegister.wholes marked))) recordedInstance
  have sameFields : again = fields := by
    rw [isWithStatics] at enteredAgain
    exact Option.some.inj (enteredAgain.symm.trans entered)
  rw [same]
  refine ⟨onClaim.trans (onRegister.trans (onStatics.trans onInstance)), ?_, ?_, ?_,
    ⟨fields, ?_, ?_⟩, listed⟩
  · rw [isWithInstance, isWithStatics, isRegistered]
    exact wholes
  · rw [isWithInstance, isWithStatics, isRegistered, isNamed]
  · rw [isWithInstance, isWithStatics]
    exact inRegistry
  · rw [isWithInstance, isWithStatics]
    exact entered
  · intro isStatic
    cases isStatic with
    | true =>
        apply onInstance.typeNames
        rw [isWithStatics]
        exact Records.mem_typeNames_addType.mpr (Or.inl rfl)
    | false =>
        rw [isWithInstance, sameFields]
        exact Records.mem_typeNames_addType.mpr (Or.inl rfl)

/-! Every type is taken in once, so the types to look at are bounded. -/

/-- The types of a program that are not in a list. -/
def unseen (program : Program) (seen : List Token) : Finset Token :=
  (program.types.map TypeDef.token).toFinset \ seen.toFinset

theorem card_unseen_le (program : Program) (seen : List Token) :
    (unseen program seen).card ≤ program.types.length := by
  refine (Finset.card_le_card Finset.sdiff_subset).trans ?_
  rw [← List.length_map (f := TypeDef.token)]
  exact List.toFinset_card_le _

theorem card_unseen_lt {program : Program} {seen later : List Token} {type : Token}
    (kept : seen ⊆ later) (ofProgram : type ∈ program.types.map TypeDef.token)
    (fresh : type ∉ seen) (now : type ∈ later) :
    (unseen program later).card < (unseen program seen).card := by
  refine Finset.card_lt_card (Finset.ssubset_iff_of_subset ?_ |>.mpr ⟨type, ?_, ?_⟩)
  · refine Finset.sdiff_subset_sdiff (Finset.Subset.refl _) ?_
    intro other among
    exact List.mem_toFinset.mpr (kept (List.mem_toFinset.mp among))
  · refine Finset.mem_sdiff.mpr ⟨List.mem_toFinset.mpr ofProgram, ?_⟩
    exact fun among => fresh (List.mem_toFinset.mp among)
  · intro still
    exact (Finset.mem_sdiff.mp still).2 (List.mem_toFinset.mpr now)

theorem length_le_flatMap {types : List TypeDef} {type : TypeDef} (member : type ∈ types)
    (tokens : TypeDef -> List Token) :
    (tokens type).length ≤ (types.flatMap tokens).length := by
  rcases List.append_of_mem member with ⟨front, back, split⟩
  rw [split, List.flatMap_append, List.flatMap_cons, List.length_append, List.length_append]
  omega

/-- The most that the layout of a type leads to. -/
def widest (program : Program) : Nat :=
  1 + program.interfaceCount + (program.types.flatMap TypeDef.fields).length

theorem length_neighbours {type : Token} {next : List Token}
    (listed : neighbours linkage type = .ok next) : next.length ≤ widest linkage.program := by
  rcases Result.bind_eq_ok.mp listed with ⟨declared, _, resolving⟩
  rcases Result.bind_eq_ok.mp resolving with ⟨resolved, resolves, listing⟩
  rcases Result.bind_eq_ok.mp listing with ⟨fields, ofFields, assembled⟩
  cases assembled
  have member := (Program.token_of_typeDef resolves).1
  have base : declared.base.toList.length ≤ 1 := by
    cases declared.base with
    | none => exact Nat.zero_le 1
    | some parent => exact Nat.le_refl 1
  have interfaces := length_le_flatMap member TypeDef.interfaces
  have listedFields := length_le_flatMap member TypeDef.fields
  have sameLength := (Result.mapM_eq_ok ofFields).length_eq
  rw [List.length_append, List.length_append, List.length_map, ← sameLength, widest,
    Program.interfaceCount]
  omega

/-- A type that is taken in pays for what it leads to. -/
theorem takeIn_pays {token type : Token} {next : List Token}
    (canonical : linkage.program.innermost token = .ok type) (isNew : type ∉ first.wholeTypes)
    (taken : takeIn linkage type first = .ok (next, second)) :
    next.length + (unseen linkage.program second.wholeTypes).card * widest linkage.program ≤
      (unseen linkage.program first.wholeTypes).card * widest linkage.program := by
  have takesIn := takeIn_eq_ok (Program.innermost_innermost canonical) taken
  rcases Program.plain_of_innermostWith canonical with ⟨definition, declared, _⟩
  rcases Program.token_of_typeDef declared with ⟨among, isToken⟩
  have fewer : (unseen linkage.program second.wholeTypes).card <
      (unseen linkage.program first.wholeTypes).card :=
    card_unseen_lt takesIn.only.wholes (List.mem_map.mpr ⟨definition, among, isToken⟩) isNew
      (takesIn.wholes ▸ List.mem_cons_self)
  have short := length_neighbours takesIn.listed
  have product := Nat.mul_le_mul_right (widest linkage.program) fewer
  rw [Nat.succ_mul] at product
  omega

theorem lt_discoveryBound (program : Program) (seen : List Token) :
    1 + (unseen program seen).card * widest program < discoveryBound program := by
  have bound := Nat.mul_le_mul_right (widest program) (card_unseen_le program seen)
  have widened : program.types.length * widest program ≤
      program.types.length * (2 + program.interfaceCount +
        (program.types.flatMap TypeDef.fields).length) := by
    refine Nat.mul_le_mul_left _ ?_
    unfold widest
    omega
  unfold discoveryBound
  omega

/-- Taking in types ends because no type is left to look at. -/
theorem discoverWith_takes {fuel : Nat} {types : List Token}
    (enough : types.length +
      (unseen linkage.program first.wholeTypes).card * widest linkage.program ≤ fuel)
    (discovered : discoverWith linkage fuel types first = .ok ((), second)) :
    Takes linkage first second ∧
      forall token, token ∈ types -> second.Holds linkage.program token := by
  induction fuel generalizing types first with
  | zero =>
      have empty : types = [] := List.eq_nil_of_length_eq_zero (by omega)
      cases discovered
      rw [empty]
      exact ⟨Takes.refl _, fun token member => absurd member List.not_mem_nil⟩
  | succ fuel inductionHypothesis =>
      cases types with
      | nil =>
          cases discovered
          exact ⟨Takes.refl _, fun token member => absurd member List.not_mem_nil⟩
      | cons token rest =>
          rw [List.length_cons] at enough
          rcases lift_bind_eq_ok discovered with ⟨type, canonical, looking⟩
          rcases bind_eq_ok looking with ⟨session, between, got, continued⟩
          cases got
          split at continued
          · rename_i isKnown
            rcases inductionHypothesis (by omega) continued with ⟨takes, held⟩
            refine ⟨takes, ?_⟩
            intro other member
            rcases List.mem_cons.mp member with isToken | later
            · rw [isToken]
              exact ⟨type, canonical, takes.wholes (List.contains_iff_mem.mp isKnown)⟩
            · exact held other later
          · rename_i isNew
            rcases bind_eq_ok continued with ⟨next, reached, taken, later⟩
            have plain := Program.innermost_innermost canonical
            have takesIn := takeIn_eq_ok plain taken
            have paid := takeIn_pays canonical
              (fun member => isNew (List.contains_iff_mem.mpr member)) taken
            have enoughThen : (next ++ rest).length +
                (unseen linkage.program reached.wholeTypes).card * widest linkage.program ≤
                  fuel := by
              rw [List.length_append]
              omega
            rcases inductionHypothesis enoughThen later with ⟨takes, held⟩
            have complete : Complete linkage second type := by
              rcases takesIn.recorded with ⟨fields, entered, named⟩
              exact ⟨plain, mem_types_grows takes.registry takesIn.registered,
                ⟨fields, takes.catalog _ _ entered, fun isStatic =>
                  takes.typeNames (named isStatic)⟩,
                next, takesIn.listed, fun other member =>
                  held other (List.mem_append_left rest member)⟩
            have isWhole : type ∈ second.wholeTypes :=
              takes.wholes (takesIn.wholes ▸ List.mem_cons_self)
            refine ⟨⟨takesIn.only.trans takes.toTypesOnly, ?_, ?_⟩, ?_⟩
            · intro other whole
              rcases takes.completed other whole with earlier | completed
              · rw [takesIn.wholes] at earlier
                rcases List.mem_cons.mp earlier with isType | before
                · rw [isType]
                  exact Or.inr complete
                · exact Or.inl before
              · exact Or.inr completed
            · intro other partly
              rcases takes.completedStatics other partly with earlier | completed
              · rw [takesIn.statics] at earlier
                exact Or.inl earlier
              · exact Or.inr completed
            · intro other member
              rcases List.mem_cons.mp member with isToken | among
              · rw [isToken]
                exact ⟨type, canonical, isWhole⟩
              · exact held other (List.mem_append_right next among)

theorem discoverType_takes {token : Token}
    (discovered : discoverType linkage token first = .ok ((), second)) :
    Takes linkage first second ∧ second.Holds linkage.program token := by
  have enough := Nat.le_of_lt (lt_discoveryBound linkage.program first.wholeTypes)
  rcases discoverWith_takes enough discovered with ⟨takes, held⟩
  exact ⟨takes, held token List.mem_cons_self⟩

/-- A loop over types takes them all in. -/
theorem forIn_takes {Item : Type} {typeOf : Item -> Token} {items : List Item}
    {result : PUnit}
    (succeeded : (forIn items PUnit.unit fun item _ => do
      discoverType linkage (typeOf item)
      pure (ForInStep.yield PUnit.unit)) first = .ok (result, second)) :
    Takes linkage first second ∧
      forall item, item ∈ items -> second.Holds linkage.program (typeOf item) := by
  refine forIn_induction (fun finished session => Takes linkage first session ∧
    forall item, item ∈ finished -> session.Holds linkage.program (typeOf item)) succeeded
    ⟨Takes.refl first, fun item member => absurd member List.not_mem_nil⟩ ?_
  rintro finished item earlier later _ ⟨given, held⟩ discovered
  rcases discoverType_takes discovered with ⟨takes, now⟩
  refine ⟨given.trans takes, ?_⟩
  intro other member
  rcases List.mem_append.mp member with before | isItem
  · exact (held other before).mono takes.wholes
  · rw [List.mem_singleton.mp isItem]
    exact now

theorem discoverStatics_takes {token : Token}
    (discovered : discoverStatics linkage token first = .ok ((), second)) :
    Takes linkage first second ∧
      exists type, linkage.program.innermost token = .ok type ∧ second.Covers true type := by
  rcases lift_bind_eq_ok discovered with ⟨type, canonical, looking⟩
  rcases bind_eq_ok looking with ⟨session, between, got, continued⟩
  cases got
  split at continued
  · rename_i isKnown
    cases continued
    refine ⟨Takes.refl _, type, canonical, ?_⟩
    rcases Bool.or_eq_true_iff.mp isKnown with whole | partly
    · exact Or.inl (List.contains_iff_mem.mp whole)
    · exact Or.inr ⟨rfl, List.contains_iff_mem.mp partly⟩
  · rcases bind_eq_ok continued with ⟨_, marked, marking, claiming⟩
    cases marking
    rcases bind_eq_ok claiming with ⟨_, named, claimed, adding⟩
    rcases bind_eq_ok adding with ⟨_, registered, added, recording⟩
    rcases bind_eq_ok recording with ⟨_, withStatics, recorded, resolving⟩
    rcases lift_bind_eq_ok resolving with ⟨resolved, resolves, listing⟩
    rcases lift_bind_eq_ok listing with ⟨fields, listed, looping⟩
    rcases bind_eq_ok looping with ⟨_, looped, loop, ending⟩
    cases ending
    have marks : forall other, other ∈ first.wholeTypes ∨ other ∈ type :: first.staticTypes ->
        other = type ∨ first.Touches other := by
      rintro other (whole | isStatic)
      · exact Or.inr (Or.inl whole)
      · exact (List.mem_cons.mp isStatic).imp_right Or.inr
    have onClaim :=
      claimType_typesOnly (List.Subset.refl _) (List.subset_cons_self _ _) marks claimed
    rcases Program.plain_of_innermostWith canonical with ⟨definition, declared, _⟩
    have onFields := enterFields_typesOnly declared added
    rcases claimType_eq_ok claimed with ⟨name, owners, _, _, isNamed⟩
    rcases onRegistry_eq_ok added with ⟨_, isRegistered⟩
    rcases recordFields_eq_ok recorded with ⟨records, entered, isWithStatics⟩
    have partly : type ∈ registered.staticTypes := by
      rw [isRegistered, isNamed]
      exact List.mem_cons_self
    have onStatics : TypesOnly linkage registered withStatics :=
      recordFields_typesOnly (Or.inr ⟨rfl, partly⟩) recorded
    rcases forIn_takes loop with ⟨takes, held⟩
    have complete : CompleteStatics linkage second type := by
      refine ⟨Program.innermost_innermost canonical, ⟨records, takes.catalog _ _ ?_,
        takes.typeNames ?_⟩, resolved, fields, resolves, listed, held⟩
      · rw [isWithStatics]
        exact entered
      · rw [isWithStatics]
        exact Records.mem_typeNames_addType.mpr (Or.inl rfl)
    refine ⟨⟨onClaim.trans (onFields.trans (onStatics.trans takes.toTypesOnly)), ?_, ?_⟩, type,
      canonical, Or.inr ⟨rfl, takes.statics (onStatics.statics partly)⟩⟩
    · intro other whole
      refine (takes.completed other whole).imp_left (fun earlier => ?_)
      rw [isWithStatics, isRegistered, isNamed] at earlier
      exact earlier
    · intro other taken
      rcases takes.completedStatics other taken with earlier | completed
      · rw [isWithStatics, isRegistered, isNamed] at earlier
        rcases List.mem_cons.mp earlier with isType | before
        · rw [isType]
          exact Or.inr complete
        · exact Or.inl before
      · exact Or.inr completed

/-- The types in the signature of a callable have been taken in. -/
structure Declared (program : Program) (session : Session) (callable : Callable) : Prop where
  declaring : exists type, program.innermost callable.declaring = .ok type ∧
    session.Covers callable.isStatic type
  params : forall param, param ∈ callable.params -> session.Holds program param.type
  returns : forall type, type ∈ callable.returns.toList -> session.Holds program type

theorem Declared.widens {callable : Callable} (declared : Declared linkage.program first callable)
    (widens : Widens linkage first second) : Declared linkage.program second callable := by
  rcases declared.declaring with ⟨type, canonical, covers⟩
  exact ⟨⟨type, canonical, covers.mono widens.wholes widens.statics⟩,
    fun param member => (declared.params param member).mono widens.wholes,
    fun type member => (declared.returns type member).mono widens.wholes⟩

theorem discoverSignature_takes {callable : Callable}
    (discovered : discoverSignature linkage callable first = .ok ((), second)) :
    Takes linkage first second ∧ Declared linkage.program second callable := by
  have looping : forall {between : Session}, Takes linkage first between ->
      (exists type, linkage.program.innermost callable.declaring = .ok type ∧
        between.Covers callable.isStatic type) ->
      (do
        forIn callable.params PUnit.unit fun param _ => do
          discoverType linkage param.type
          pure (ForInStep.yield PUnit.unit)
        forIn callable.returns.toList PUnit.unit fun type _ => do
          discoverType linkage type
          pure (ForInStep.yield PUnit.unit)
        pure () : Step Unit) between = .ok ((), second) ->
      Takes linkage first second ∧ Declared linkage.program second callable := by
    rintro between takes ⟨type, canonical, covers⟩ looped
    rcases bind_eq_ok looped with ⟨_, withParams, overParams, continued⟩
    rcases bind_eq_ok continued with ⟨_, withReturns, overReturns, ending⟩
    cases ending
    rcases forIn_takes overParams with ⟨takesParams, heldParams⟩
    rcases forIn_takes overReturns with ⟨takesReturns, heldReturns⟩
    have later := takesParams.trans takesReturns
    exact ⟨takes.trans later, ⟨type, canonical, covers.mono later.wholes later.statics⟩,
      fun param member => (heldParams param member).mono takesReturns.wholes, heldReturns⟩
  unfold discoverSignature at discovered
  split at discovered
  · rename_i isStatic
    rcases bind_eq_ok discovered with ⟨_, declaring, ofDeclaring, continued⟩
    rcases discoverStatics_takes ofDeclaring with ⟨takes, type, canonical, covers⟩
    exact looping takes ⟨type, canonical, isStatic ▸ covers⟩ continued
  · rcases bind_eq_ok discovered with ⟨_, declaring, ofDeclaring, continued⟩
    rcases discoverType_takes ofDeclaring with ⟨takes, type, canonical, whole⟩
    exact looping takes ⟨type, canonical, Or.inl whole⟩ continued

end Types

end Session
end Compilation
end CilGraph
