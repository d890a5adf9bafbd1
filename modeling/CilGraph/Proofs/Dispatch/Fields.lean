import CilGraph.Proofs.Dispatch.Growth
import CilGraph.Proofs.Program.Built

namespace CilGraph
namespace Dispatch

/-!
# The field catalogue

A type is entered in the catalogue together with its base types.  What is there
for a type is what its fields give, whatever was entered before.  Whether a type
can be entered does not depend on the catalogue either: it can if the records of
its whole lineage can be made, which is `Describable`.  The catalogue only saves
the work of making records a second time.

Entering stops at the first base type that is there.  Its own base types were
entered before, so nothing above it is missed.
-/

namespace Catalog

/-- Whatever the first catalogue has, the second has as well. -/
def Extends (first second : Catalog) : Prop :=
  forall token fields, first.get? token = some fields -> second.get? token = some fields

theorem Extends.refl (catalog : Catalog) : Extends catalog catalog :=
  fun _ _ found => found

theorem Extends.trans {first second third : Catalog} (early : Extends first second)
    (late : Extends second third) : Extends first third :=
  fun token fields found => late token fields (early token fields found)

/-- The records of a type and of all its base types can be made. -/
def Describable (linkage : Linkage) (token : Token) : Prop :=
  exists chain, Program.Lineage linkage.program token chain ∧
    forall type, type ∈ chain -> exists fields, recordsOf linkage type = .ok fields

/-- A catalogue holds what the fields of types give. -/
structure Faithful (linkage : Linkage) (catalog : Catalog) : Prop where
  describes : forall token fields, catalog.get? token = some fields ->
    exists type, linkage.program.typeDef token = .ok type ∧ recordsOf linkage type = .ok fields
  describable : forall token fields, catalog.get? token = some fields ->
    Describable linkage token

theorem faithful_empty (linkage : Linkage) : Faithful linkage {} :=
  ⟨fun _ _ impossible => (nomatch impossible), fun _ _ impossible => (nomatch impossible)⟩

theorem contains_iff {catalog : Catalog} {token : Token} :
    catalog.contains token = true ↔ exists fields, catalog.get? token = some fields :=
  Option.isSome_iff_exists

theorem get?_cons (token other : Token) (fields : FieldRecords)
    (entries : List (Token × FieldRecords)) :
    (⟨(token, fields) :: entries⟩ : Catalog).get? other =
      if other = token then some fields else (⟨entries⟩ : Catalog).get? other := by
  unfold get?
  rw [List.lookup_cons]
  by_cases same : other = token
  · rw [if_pos same, same, beq_self_eq_true]
  · rw [if_neg same, beq_eq_false_iff_ne.mpr same]

section Entering

variable {linkage : Linkage} {catalog next : Catalog} {token : Token} {chain : List TypeDef}

theorem Describable.of_mem (describable : Describable linkage token)
    (lineage : Program.Lineage linkage.program token chain) {type : TypeDef}
    (member : type ∈ chain) : Describable linkage type.token := by
  rcases describable with ⟨again, sameLineage, records⟩
  rw [← lineage.eq sameLineage] at records
  rcases List.append_of_mem member with ⟨front, back, split⟩
  refine ⟨type :: back, lineage.suffix split, ?_⟩
  intro other among
  apply records other
  rw [split]
  exact List.mem_append_right front among

theorem extends_addEach (added : addEach linkage catalog chain = .ok next) :
    Extends catalog next := by
  induction chain generalizing catalog with
  | nil =>
      cases added
      exact Extends.refl _
  | cons type ancestors inductionHypothesis =>
      unfold addEach at added
      split at added
      · cases added
        exact Extends.refl _
      · rename_i missing
        rcases Result.bind_eq_ok.mp added with ⟨fields, _, continued⟩
        refine Extends.trans ?_ (inductionHypothesis continued)
        intro other found has
        rw [get?_cons, if_neg]
        · exact has
        · intro same
          exact missing (contains_iff.mpr ⟨found, same ▸ has⟩)

/-- What was entered was made from a type of the lineage. -/
theorem get?_addEach (added : addEach linkage catalog chain = .ok next) {other : Token}
    {fields : FieldRecords} (found : next.get? other = some fields) :
    catalog.get? other = some fields ∨
      exists type, type ∈ chain ∧ type.token = other ∧ recordsOf linkage type = .ok fields := by
  induction chain generalizing catalog with
  | nil =>
      cases added
      exact Or.inl found
  | cons type ancestors inductionHypothesis =>
      unfold addEach at added
      split at added
      · cases added
        exact Or.inl found
      · rcases Result.bind_eq_ok.mp added with ⟨records, made, continued⟩
        rcases inductionHypothesis continued with earlier | ⟨above, among, sameToken, ofAbove⟩
        · rw [get?_cons] at earlier
          split at earlier
          · rename_i same
            cases earlier
            exact Or.inr ⟨type, List.mem_cons_self, same.symm, made⟩
          · exact Or.inl earlier
        · exact Or.inr ⟨above, List.mem_cons_of_mem type among, sameToken, ofAbove⟩

/-- A lineage that could be entered can be described.  Where entering stopped,
the rest was known to be describable. -/
theorem describable_of_addEach (lineage : Program.Lineage linkage.program token chain)
    (known : forall type, type ∈ chain -> catalog.contains type.token = true ->
      Describable linkage type.token)
    (added : addEach linkage catalog chain = .ok next) : Describable linkage token := by
  induction lineage generalizing catalog with
  | @root token type found noBase =>
      unfold addEach at added
      split at added
      · rename_i present
        rw [← (Program.token_of_typeDef found).2]
        exact known type List.mem_cons_self present
      · rcases Result.bind_eq_ok.mp added with ⟨fields, made, _⟩
        refine ⟨[type], .root found noBase, ?_⟩
        intro other member
        rw [List.mem_singleton.mp member]
        exact ⟨fields, made⟩
  | @derived token base type ancestors found hasBase above inductionHypothesis =>
      unfold addEach at added
      split at added
      · rename_i present
        rw [← (Program.token_of_typeDef found).2]
        exact known type List.mem_cons_self present
      · rcases Result.bind_eq_ok.mp added with ⟨fields, made, continued⟩
        have distinct := (Program.Lineage.derived found hasBase above).nodup
        have knownAbove : forall other, other ∈ ancestors ->
            (⟨(type.token, fields) :: catalog.entries⟩ : Catalog).contains other.token = true ->
            Describable linkage other.token := by
          intro other among present
          rcases contains_iff.mp present with ⟨records, has⟩
          have differs : other.token ≠ type.token := by
            intro same
            apply (List.nodup_cons.mp distinct).1
            rw [← same]
            exact List.mem_map_of_mem among
          rw [get?_cons, if_neg differs] at has
          exact known other (List.mem_cons_of_mem type among) (contains_iff.mpr ⟨records, has⟩)
        rcases inductionHypothesis knownAbove continued with ⟨rest, restLineage, records⟩
        refine ⟨type :: rest, .derived found hasBase restLineage, ?_⟩
        intro other member
        rcases List.mem_cons.mp member with same | among
        · rw [same]
          exact ⟨fields, made⟩
        · exact records other among

theorem addEach_of_records (catalog : Catalog)
    (records : forall type, type ∈ chain -> exists fields, recordsOf linkage type = .ok fields) :
    exists next, addEach linkage catalog chain = .ok next := by
  induction chain generalizing catalog with
  | nil => exact ⟨catalog, rfl⟩
  | cons type ancestors inductionHypothesis =>
      unfold addEach
      split
      · exact ⟨catalog, rfl⟩
      · rcases records type List.mem_cons_self with ⟨fields, made⟩
        rcases inductionHypothesis ⟨(type.token, fields) :: catalog.entries⟩
          (fun other member => records other (List.mem_cons_of_mem type member)) with ⟨next, added⟩
        exact ⟨next, Result.bind_eq_ok.mpr ⟨fields, made, added⟩⟩

/-- Whether a type can be entered does not depend on what is there. -/
theorem add_of_describable (describable : Describable linkage token) (catalog : Catalog) :
    exists next, catalog.add linkage token = .ok next := by
  unfold add
  split
  · exact ⟨catalog, rfl⟩
  · rcases describable with ⟨chain, lineage, records⟩
    rcases addEach_of_records catalog records with ⟨next, added⟩
    exact ⟨next, Result.bind_eq_ok.mpr ⟨chain, lineage.lineage_eq, added⟩⟩

/-- What entering a type of the program comes down to. -/
theorem add_eq_ok {type : TypeDef} (wellFormed : linkage.program.WellFormed)
    (declared : linkage.program.typeDef token = .ok type)
    (added : catalog.add linkage token = .ok next) :
    (catalog.contains token = true ∧ next = catalog) ∨
      exists chain, Program.Lineage linkage.program token chain ∧
        addEach linkage catalog chain = .ok next := by
  unfold add at added
  split at added
  · rename_i present
    cases added
    exact Or.inl ⟨present, rfl⟩
  · rcases Result.bind_eq_ok.mp added with ⟨found, listed, continued⟩
    rcases wellFormed.lineages token type declared with ⟨chain, lineage⟩
    rw [lineage.lineage_eq] at listed
    cases listed
    exact Or.inr ⟨_, lineage, continued⟩

theorem extends_add (added : catalog.add linkage token = .ok next) : Extends catalog next := by
  unfold add at added
  split at added
  · cases added
    exact Extends.refl catalog
  · rcases Result.bind_eq_ok.mp added with ⟨chain, _, continued⟩
    exact extends_addEach continued

/-- A type that was entered is there. -/
theorem get?_add {type : TypeDef} (wellFormed : linkage.program.WellFormed)
    (declared : linkage.program.typeDef token = .ok type)
    (added : catalog.add linkage token = .ok next) :
    exists fields, next.get? token = some fields := by
  rcases add_eq_ok wellFormed declared added with ⟨present, same⟩ | ⟨chain, lineage, entered⟩
  · rw [same]
    exact contains_iff.mp present
  · rcases lineage.exists_cons with ⟨first, ancestors, split, found⟩
    rw [declared] at found
    cases found
    rw [split] at entered
    unfold addEach at entered
    rw [(Program.token_of_typeDef declared).2] at entered
    split at entered
    · rename_i present
      cases entered
      exact contains_iff.mp present
    · rcases Result.bind_eq_ok.mp entered with ⟨fields, _, continued⟩
      refine ⟨fields, extends_addEach continued token fields ?_⟩
      rw [get?_cons, if_pos rfl]

theorem describable_of_add {type : TypeDef} (wellFormed : linkage.program.WellFormed)
    (faithful : Faithful linkage catalog) (declared : linkage.program.typeDef token = .ok type)
    (added : catalog.add linkage token = .ok next) : Describable linkage token := by
  have known : forall other, catalog.contains other = true -> Describable linkage other := by
    intro other present
    rcases contains_iff.mp present with ⟨fields, has⟩
    exact faithful.describable other fields has
  rcases add_eq_ok wellFormed declared added with ⟨present, _⟩ | ⟨chain, lineage, entered⟩
  · exact known token present
  · exact describable_of_addEach lineage (fun type _ present => known type.token present) entered

theorem Faithful.add {type : TypeDef} (wellFormed : linkage.program.WellFormed)
    (faithful : Faithful linkage catalog) (declared : linkage.program.typeDef token = .ok type)
    (added : catalog.add linkage token = .ok next) : Faithful linkage next := by
  have describable := describable_of_add wellFormed faithful declared added
  rcases add_eq_ok wellFormed declared added with ⟨_, same⟩ | ⟨chain, lineage, entered⟩
  · rw [same]
    exact faithful
  · constructor
    · intro other fields found
      rcases get?_addEach entered found with earlier | ⟨level, among, sameToken, made⟩
      · exact faithful.describes other fields earlier
      · rw [← sameToken]
        exact ⟨level, lineage.typeDef_of_mem among, made⟩
    · intro other fields found
      rcases get?_addEach entered found with earlier | ⟨level, among, sameToken, _⟩
      · exact faithful.describable other fields earlier
      · rw [← sameToken]
        exact describable.of_mem lineage among

end Entering

/-- A record carries the name and the kind that it is looked up by. -/
theorem select_of_recordsOf {linkage : Linkage} {type : TypeDef} {fields : FieldRecords}
    (made : recordsOf linkage type = .ok fields) (isStatic : Bool) :
    exists resolved declared described,
      linkage.program.typeDef (linkage.resolveType type.token) = .ok resolved ∧
      linkage.program.declaredFields resolved = .ok declared ∧
      describeFields linkage.program isStatic declared = .ok described ∧
      fields.select isStatic = ⟨type.recordName isStatic, isStatic, described⟩ := by
  rcases Result.bind_eq_ok.mp made with ⟨resolved, resolves, listing⟩
  rcases Result.bind_eq_ok.mp listing with ⟨declared, listed, ofInstance⟩
  rcases Result.bind_eq_ok.mp ofInstance with ⟨instanceFields, describedInstance, ofStatic⟩
  rcases Result.bind_eq_ok.mp ofStatic with ⟨staticFields, describedStatic, assembled⟩
  cases assembled
  cases isStatic with
  | false => exact ⟨resolved, declared, instanceFields, resolves, listed, describedInstance, rfl⟩
  | true => exact ⟨resolved, declared, staticFields, resolves, listed, describedStatic, rfl⟩

end Catalog

/-! ## The catalogue of a registry -/

namespace Registry

/-- The catalogue of a registry is faithful, and all registered types are in it. -/
structure Stocked (linkage : Linkage) (registry : Registry) : Prop where
  faithful : Catalog.Faithful linkage registry.catalog
  registered : forall type, type ∈ registry.types ->
    exists fields, registry.catalog.get? type = some fields

theorem stocked_empty (linkage : Linkage) : Stocked linkage {} :=
  ⟨Catalog.faithful_empty linkage, fun _ member => absurd member List.not_mem_nil⟩

theorem Stocked.describable {linkage : Linkage} {registry : Registry}
    (stocked : Stocked linkage registry) {type : Token} (registered : type ∈ registry.types) :
    Catalog.Describable linkage type := by
  rcases stocked.registered type registered with ⟨fields, found⟩
  exact stocked.faithful.describable type fields found

section Stock

variable {linkage : Linkage} {registry : Registry} {token type : Token}

theorem stocked_preserved (wellFormed : linkage.program.WellFormed) :
    Preserved linkage (fun _ => True) (Stocked linkage) := by
  intro registry type layout catalog stocked _ _ made entered
  rcases made with ⟨definition, resolved, base, interfaces, tables, origin⟩
  refine ⟨stocked.faithful.add wellFormed origin.declared entered, ?_⟩
  intro other registered
  rw [types_enter] at registered
  rcases List.mem_append.mp registered with earlier | added
  · rcases stocked.registered other earlier with ⟨fields, found⟩
    exact ⟨fields, Catalog.extends_add entered other fields found⟩
  · rw [List.mem_singleton.mp added]
    exact Catalog.get?_add wellFormed origin.declared entered

theorem Stocked.catalog {catalog : Catalog} {definition : TypeDef}
    (stocked : Stocked linkage registry) (wellFormed : linkage.program.WellFormed)
    (declared : linkage.program.typeDef type = .ok definition)
    (entered : registry.catalog.add linkage type = .ok catalog) :
    Stocked linkage { registry with catalog := catalog } := by
  refine ⟨stocked.faithful.add wellFormed declared entered, ?_⟩
  intro other registered
  rcases stocked.registered other registered with ⟨fields, found⟩
  exact ⟨fields, Catalog.extends_add entered other fields found⟩

theorem Stocked.add (wellFormed : linkage.program.WellFormed) (stocked : Stocked linkage registry)
    (canonical : linkage.program.innermost token = .ok type)
    (added : (Registry.add linkage token registry).1 = .ok ()) :
    Stocked linkage (Registry.add linkage token registry).2 :=
  kept_add (sufficient_everything linkage) (stocked_preserved wellFormed) canonical trivial stocked
    added

theorem extends_catalog_add (canonical : linkage.program.innermost token = .ok type)
    (added : (Registry.add linkage token registry).1 = .ok ()) :
    Catalog.Extends registry.catalog (Registry.add linkage token registry).2.catalog := by
  have preserved : Preserved linkage (fun _ => True)
      (fun later => Catalog.Extends registry.catalog later.catalog) :=
    fun _ _ _ _ earlier _ _ _ entered => earlier.trans (Catalog.extends_add entered)
  exact kept_add (sufficient_everything linkage) preserved canonical trivial
    (Catalog.Extends.refl registry.catalog) added

theorem addFields_apply (linkage : Linkage) (token : Token) (registry : Registry) :
    addFields linkage token registry = match registry.catalog.add linkage token with
      | .ok catalog => (.ok (), { registry with catalog := catalog })
      | .error error => (.error error, registry) := by
  have read : (get : Action Registry) registry = (.ok registry, registry) := rfl
  unfold addFields
  rw [Stateful.bind_apply, read]
  dsimp only
  rw [Stateful.bind_apply]
  cases entered : registry.catalog.add linkage token with
  | error error => rfl
  | ok catalog => rfl

end Stock

end Registry
end Dispatch
end CilGraph
