import CilGraph.Proofs.Dispatch.Finished
import CilGraph.Proofs.Program.Connected

namespace CilGraph
namespace Dispatch

/-!
# A registry only remembers

What a registry answers does not depend on what it was asked before.  A layout
that is there is the one that would be made now, and a layout that cannot be
made now could not have been made before.  This includes failures: what a
failing request registered on the way is no more than what any later request
would register itself.

The proof runs one action in two registries.  Both have grown from nothing and
lack the types that wait, and this is all that they share.  If neither has the
layout of a type, both make it, from tables that agree.  If only one has it,
that registry shows that the other can make it, see `yields_addWith`.  The bound
on the types that wait is never what decides, as they are different types of the
program.

A layout is entered together with the records of its fields.  In a program that
was built these can always be made, so entering a layout does not fail.
-/

/-! ## Records can be made -/

namespace Catalog

variable {linkage : Linkage}

theorem exists_describeFields {program : Program} (connected : program.Connected)
    {fields : List FieldDef} (known : forall field, field ∈ fields -> field ∈ program.fields)
    (isStatic : Bool) :
    exists described, describeFields program isStatic fields = .ok described := by
  refine Result.exists_mapM (fun field member => ?_)
  rcases connected.fieldTypes field (known field (List.mem_filter.mp member).1) with
    ⟨type, declared⟩
  have named : program.typeName field.fieldType = .ok type.fullName :=
    Result.map_eq_ok.mpr ⟨type, declared, rfl⟩
  exact ⟨(type.fullName, field.name), Result.bind_eq_ok.mpr ⟨type.fullName, named, rfl⟩⟩

theorem exists_recordsOf (grounded : linkage.Grounded) {type : TypeDef}
    (declared : linkage.program.typeDef type.token = .ok type) :
    exists fields, recordsOf linkage type = .ok fields := by
  rcases grounded.replaces type.token type declared with ⟨resolved, resolves⟩
  rcases grounded.connected.fields resolved (Program.token_of_typeDef resolves).1 with
    ⟨fields, listed⟩
  have known : forall field, field ∈ fields -> field ∈ linkage.program.fields := by
    intro field member
    rcases Result.exists_of_mem_mapM listed member with ⟨_, _, found⟩
    exact Program.mem_fields_of_field found
  rcases exists_describeFields grounded.connected known false with ⟨instanceFields, ofInstances⟩
  rcases exists_describeFields grounded.connected known true with ⟨staticFields, ofStatics⟩
  exact ⟨_, Result.bind_eq_ok.mpr ⟨resolved, resolves, Result.bind_eq_ok.mpr ⟨fields, listed,
    Result.bind_eq_ok.mpr ⟨instanceFields, ofInstances,
      Result.bind_eq_ok.mpr ⟨staticFields, ofStatics, rfl⟩⟩⟩⟩⟩

/-- Every type of a program that was built can be entered. -/
theorem describable_of_grounded (grounded : linkage.Grounded) {token : Token} {type : TypeDef}
    (declared : linkage.program.typeDef token = .ok type) : Describable linkage token := by
  rcases grounded.wellFormed.lineages token type declared with ⟨chain, lineage⟩
  exact ⟨chain, lineage, fun level member =>
    exists_recordsOf grounded (lineage.typeDef_of_mem member)⟩

end Catalog

namespace Registry

open Stateful

/-! ## One action in two registries -/

/-- An action gives the same answer in all registries with a property, and keeps
the property where it succeeds. -/
structure Uniform {Value : Type} (kept : Registry -> Prop) (action : Action Value) : Prop where
  alike : forall first second, kept first -> kept second -> (action first).1 = (action second).1
  keeps : forall registry value, kept registry -> (action registry).1 = .ok value ->
    kept (action registry).2

theorem uniform_iff_abreast {Value : Type} {kept : Registry -> Prop} {action : Action Value} :
    Uniform kept action ↔
      Abreast (.failing (fun _ _ _ => True)) (fun first second => kept first ∧ kept second)
        action action (fun _ first second => kept first ∧ kept second) := by
  constructor
  · rintro uniform first second ⟨holdsFirst, holdsSecond⟩
    have same := uniform.alike first second holdsFirst holdsSecond
    refine ⟨same, trivial, fun value succeeded => ?_, fun _ _ => trivial⟩
    exact ⟨uniform.keeps first value holdsFirst succeeded,
      uniform.keeps second value holdsSecond (same.symm.trans succeeded)⟩
  · intro abreast
    constructor
    · exact fun first second holdsFirst holdsSecond =>
        (abreast first second ⟨holdsFirst, holdsSecond⟩).1
    · intro registry value holds succeeded
      rcases abreast registry registry ⟨holds, holds⟩ with ⟨_, _, onSuccess, _⟩
      exact (onSuccess value succeeded).1

theorem uniform_makeLayout {kept : Registry -> Prop} {linkage : Linkage}
    {obtain : Token -> Action Table} (obtains : forall other, Uniform kept (obtain other))
    (token : Token) : Uniform kept (makeLayout linkage obtain token) :=
  uniform_iff_abreast.mpr (abreast_makeLayout_of_kept
    (fun other _ => uniform_iff_abreast.mp (obtains other)) (fun _ _ _ _ _ => trivial))

section Registering

variable {linkage : Linkage} {waiting : List Token} {registry : Registry}

/-- Registered types and types that wait are different types of the program. -/
theorem Ready.length_le (ready : Ready linkage waiting registry) (distinct : waiting.Nodup)
    (among : waiting ⊆ linkage.program.types.map TypeDef.token) :
    registry.layouts.length + waiting.length ≤ linkage.program.types.length := by
  have apart : (registry.types ++ waiting).Nodup := by
    refine List.Nodup.append (ready.1.nodup_types List.nodup_nil) distinct ?_
    intro type registered waits
    exact layout?_eq_none_iff.mp (ready.2 type waits) registered
  have included : registry.types ++ waiting ⊆ linkage.program.types.map TypeDef.token :=
    List.append_subset.mpr ⟨fun type registered => ready.1.mem_types registered, among⟩
  have bound := (apart.subperm included).length_le
  rw [List.length_append, types, List.length_map, List.length_map] at bound
  exact bound

/-- Where a type is registered in both registries, both give the same table. -/
theorem uniform_obtain {token : Token} {fuel : Nat}
    (adds : Uniform (Ready linkage waiting) (addWith linkage fuel waiting token)) :
    Uniform (Ready linkage waiting) (do
      addWith linkage fuel waiting token
      tableOf linkage token) := by
  have registers : Abreast (.failing (fun _ _ _ => True))
      (fun first second => Ready linkage waiting first ∧ Ready linkage waiting second)
      (addWith linkage fuel waiting token) (addWith linkage fuel waiting token)
      (fun _ first second => Ready linkage waiting first ∧ Ready linkage waiting second ∧
        exists type layout rival, linkage.program.innermost token = .ok type ∧
          first.layout? type = some layout ∧ second.layout? type = some rival) := by
    intro first second ready
    rcases uniform_iff_abreast.mp adds first second ready with ⟨same, may, _, failed⟩
    refine ⟨same, may, fun value succeeded => ?_, failed⟩
    rcases ready_of_addWith ready.1 (Prod.ext succeeded rfl) with
      ⟨readyFirst, type, layout, canonical, found⟩
    rcases ready_of_addWith ready.2 (Prod.ext (same.symm.trans succeeded) rfl) with
      ⟨readySecond, _, rival, sameCanonical, rivalFound⟩
    rw [canonical] at sameCanonical
    cases sameCanonical
    exact ⟨readyFirst, readySecond, type, layout, rival, canonical, found, rivalFound⟩
  refine uniform_iff_abreast.mpr (abreast_bind registers (fun _ => ?_))
  rintro first second ⟨readyFirst, readySecond, type, layout, rival, canonical, found, rivalFound⟩
  rw [tableOf_of_layout canonical found, tableOf_of_layout canonical rivalFound,
    readyFirst.1.agree readySecond.1 found rivalFound]
  exact ⟨rfl, trivial, fun _ _ => ⟨readyFirst, readySecond⟩, fun _ impossible => nomatch impossible⟩

/-- Entering a layout does not fail, so whether a type is registered is decided
by whether its layout can be made. -/
theorem alike_bind_enter {kept : Registry -> Prop} {action : Action Layout} {type : Token}
    {left right : Registry} (making : Uniform kept action)
    (describable : Catalog.Describable linkage type) (holdsLeft : kept left)
    (holdsRight : kept right) :
    ((action >>= enter linkage type) left).1 = ((action >>= enter linkage type) right).1 := by
  have enters : forall layout, Abreast (.failing (fun _ _ _ => True)) (fun _ _ => True)
      (enter linkage type layout) (enter linkage type layout) (fun _ _ _ => True) := by
    intro layout first second _
    rcases Catalog.add_of_describable describable first.catalog with ⟨_, entered⟩
    rcases Catalog.add_of_describable describable second.catalog with ⟨_, enteredAlso⟩
    rw [enter_of_add entered, enter_of_add enteredAlso]
    exact ⟨rfl, trivial, fun _ _ => trivial, fun _ _ => trivial⟩
  have makes := (uniform_iff_abreast.mp making).weaken (fun _ _ _ _ => trivial)
  exact (abreast_bind makes enters left right ⟨holdsLeft, holdsRight⟩).1

theorem Ready.addWith {fuel : Nat} {token : Token} {value : Unit}
    (ready : Ready linkage waiting registry)
    (added : (Registry.addWith linkage fuel waiting token registry).1 = .ok value) :
    Ready linkage waiting (Registry.addWith linkage fuel waiting token registry).2 :=
  (ready_of_addWith ready (Prod.ext added rfl)).1

/-- A registry that has the layout of a type shows that any other can make it. -/
theorem addWith_of_layout_elsewhere (grounded : linkage.Grounded) {fuel : Nat}
    {token type : Token} {model : Registry} {layout : Layout} (distinct : waiting.Nodup)
    (among : waiting ⊆ linkage.program.types.map TypeDef.token)
    (enough : linkage.program.types.length < fuel + waiting.length)
    (canonical : linkage.program.innermost token = .ok type)
    (readyModel : Ready linkage waiting model) (found : model.layout? type = some layout)
    (ready : Ready linkage waiting registry) :
    (addWith linkage fuel waiting token registry).1 = .ok () := by
  have registered : type ∈ model.types := mem_types_iff.mpr ⟨layout, found⟩
  have describable : forall other, other ∈ model.types -> Catalog.Describable linkage other := by
    intro other member
    rcases mem_types_iff.mp member with ⟨own, ownFound⟩
    rcases readyModel.1.made ownFound with ⟨_, _, _, _, _, origin⟩
    exact Catalog.describable_of_grounded grounded origin.declared
  have bound := readyModel.length_le distinct among
  rcases yields_addWith readyModel.1 describable canonical registered readyModel.2
    (Nat.lt_of_add_lt_add_right (Nat.lt_of_le_of_lt bound enough)) registry ready with
    ⟨later, added, _⟩
  rw [added]

/-- Whether a type can be registered, and why not, does not depend on what is
registered. -/
theorem uniform_addWith (grounded : linkage.Grounded) {fuel : Nat} (token : Token)
    (distinct : waiting.Nodup) (among : waiting ⊆ linkage.program.types.map TypeDef.token)
    (enough : linkage.program.types.length < fuel + waiting.length) :
    Uniform (Ready linkage waiting) (addWith linkage fuel waiting token) := by
  induction fuel generalizing waiting token with
  | zero =>
      refine ⟨?_, fun _ _ ready added => ready.addWith added⟩
      intro first second _ _
      unfold addWith
      rw [cyclic_apply, cyclic_apply]
  | succ fuel inductionHypothesis =>
      refine ⟨?_, fun _ _ ready added => ready.addWith added⟩
      intro first second readyFirst readySecond
      cases canonical : linkage.program.innermost token with
      | error error =>
          rw [addWith_of_error canonical, addWith_of_error canonical]
      | ok type =>
          have elsewhere : forall {model registry : Registry} {layout : Layout},
              Ready linkage waiting model -> model.layout? type = some layout ->
              Ready linkage waiting registry ->
              (addWith linkage (fuel + 1) waiting token registry).1 = .ok () :=
            fun readyModel found ready => addWith_of_layout_elsewhere grounded distinct among
              enough canonical readyModel found ready
          -- What one registry has, the other can register, so only a type that both miss has to
          -- be followed further.
          cases foundFirst : first.layout? type with
          | some layout =>
              rw [elsewhere readyFirst foundFirst readyFirst,
                elsewhere readyFirst foundFirst readySecond]
          | none =>
              cases foundSecond : second.layout? type with
              | some layout =>
                  rw [elsewhere readySecond foundSecond readyFirst,
                    elsewhere readySecond foundSecond readySecond]
              | none =>
                  by_cases waits : type ∈ waiting
                  · rw [addWith_of_waiting canonical foundFirst waits,
                      addWith_of_waiting canonical foundSecond waits, cyclic_apply, cyclic_apply]
                  · rw [addWith_of_missing canonical foundFirst waits,
                      addWith_of_missing canonical foundSecond waits]
                    rcases Program.plain_of_innermostWith canonical with ⟨definition, declared, _⟩
                    have isMember := Program.mem_tokens_of_typeDef declared
                    have enoughStill : linkage.program.types.length <
                        fuel + (type :: waiting).length := by
                      rw [List.length_cons]
                      omega
                    have obtains := fun other => uniform_obtain (inductionHypothesis other
                      (List.nodup_cons.mpr ⟨waits, distinct⟩)
                      (List.cons_subset.mpr ⟨isMember, among⟩) enoughStill)
                    exact alike_bind_enter (uniform_makeLayout obtains type)
                      (Catalog.describable_of_grounded grounded declared)
                      ⟨readyFirst.1, List.forall_mem_cons.mpr ⟨foundFirst, readyFirst.2⟩⟩
                      ⟨readySecond.1, List.forall_mem_cons.mpr ⟨foundSecond, readySecond.2⟩⟩

/-- A table, or the reason why there is none, is the same in all registries that
have grown from nothing. -/
theorem table_alike (grounded : linkage.Grounded) {first second : Registry}
    (grownFirst : Grows linkage {} first) (grownSecond : Grows linkage {} second)
    (token : Token) :
    (Registry.table linkage token first).1 = (Registry.table linkage token second).1 := by
  have noneWaits : forall registry : Registry, Spares [] registry :=
    fun _ _ member => absurd member List.not_mem_nil
  have adds : Uniform (Ready linkage []) (add linkage token) :=
    uniform_addWith grounded token List.nodup_nil (List.nil_subset _) (Nat.lt_succ_self _)
  exact (uniform_obtain adds).alike first second ⟨grownFirst, noneWaits first⟩
    ⟨grownSecond, noneWaits second⟩

end Registering

/-! ## Requests -/

/-- What the user of a registry can do.  The tables that were handed out belong
to the user, who may alter them. -/
inductive Request where
  | add (token : Token)
  | table (token : Token)
  | fields (token : Token)
  | compile (pointerSize : UInt32)
  | alter (index : Nat) (change : Table -> Table)

/-- Whether a request is addressed to the registry. -/
def Request.asks : Request -> Bool
  | .alter _ _ => false
  | _ => true

/-- What a registry answers. -/
inductive Answer where
  | done (result : Result Unit)
  | table (result : Result Table)
  | tables (tables : List Table)

def Answer.succeeds : Answer -> Bool
  | .done result => result.isOk
  | .table result => result.isOk
  | .tables _ => true

/-- A registry and the tables that its user holds. -/
structure Desk where
  registry : Registry := {}
  held : List Table := []

/-- Serve a request. -/
def serve (linkage : Linkage) (desk : Desk) : Request -> List Answer × Desk
  | .add token =>
    let (result, registry) := Registry.add linkage token desk.registry
    ([.done result], ⟨registry, desk.held⟩)
  | .table token =>
    let (result, registry) := Registry.table linkage token desk.registry
    ([.table result], ⟨registry, desk.held ++ result.toOption.toList⟩)
  | .fields token =>
    let (result, registry) := Registry.addFields linkage token desk.registry
    ([.done result], ⟨registry, desk.held⟩)
  | .compile pointerSize =>
    let tables := desk.registry.compile pointerSize
    ([.tables tables], ⟨desk.registry, desk.held ++ tables⟩)
  | .alter index change => ([], ⟨desk.registry, desk.held.modify index change⟩)

/-- Serve requests one after the other. -/
def serveAll (linkage : Linkage) (desk : Desk) : List Request -> List Answer × Desk
  | [] => ([], desk)
  | request :: rest =>
    let (answers, desk) := serve linkage desk request
    let (later, desk) := serveAll linkage desk rest
    (answers ++ later, desk)

section Requests

variable {linkage : Linkage} {desk other : Desk}

theorem grows_serve (desk : Desk) (request : Request) :
    Grows linkage desk.registry (serve linkage desk request).2.registry := by
  cases request with
  | add token => exact grows_add linkage token desk.registry
  | table token => exact (ensures_table linkage token desk.registry trivial).1
  | fields token => exact grows_addFields linkage token desk.registry
  | compile pointerSize => exact .refl
  | alter index change => exact .refl

theorem grows_serveAll (desk : Desk) (requests : List Request) :
    Grows linkage desk.registry (serveAll linkage desk requests).2.registry := by
  induction requests generalizing desk with
  | nil => exact .refl
  | cons request rest inductionHypothesis =>
      exact (grows_serve desk request).trans (inductionHypothesis _)

/-- What the user holds has no part in an answer. -/
theorem serve_congr (linkage : Linkage) (same : desk.registry = other.registry)
    (request : Request) :
    (serve linkage desk request).1 = (serve linkage other request).1 ∧
      (serve linkage desk request).2.registry = (serve linkage other request).2.registry := by
  rcases desk with ⟨registry, held⟩
  rcases other with ⟨registry', held'⟩
  cases same
  cases request with
  | add token => exact ⟨rfl, rfl⟩
  | table token => exact ⟨rfl, rfl⟩
  | fields token => exact ⟨rfl, rfl⟩
  | compile pointerSize => exact ⟨rfl, rfl⟩
  | alter index change => exact ⟨rfl, rfl⟩

/-- Requests that are not addressed to the registry may be left out. -/
theorem serveAll_filter (linkage : Linkage) (same : desk.registry = other.registry)
    (requests : List Request) :
    (serveAll linkage desk (requests.filter Request.asks)).1 =
        (serveAll linkage other requests).1 ∧
      (serveAll linkage desk (requests.filter Request.asks)).2.registry =
        (serveAll linkage other requests).2.registry := by
  induction requests generalizing desk other with
  | nil => exact ⟨rfl, same⟩
  | cons request rest inductionHypothesis =>
      by_cases asks : request.asks = true
      · rw [List.filter_cons_of_pos asks]
        rcases serve_congr linkage same request with ⟨answers, registries⟩
        rcases inductionHypothesis registries with ⟨later, final⟩
        exact ⟨congrArg₂ (· ++ ·) answers later, final⟩
      · rw [List.filter_cons_of_neg asks]
        cases request with
        | alter index change => exact inductionHypothesis same
        | add token => exact absurd rfl asks
        | table token => exact absurd rfl asks
        | fields token => exact absurd rfl asks
        | compile pointerSize => exact absurd rfl asks

/-- The finished tables are those that the registered types have in a new
registry. -/
theorem mem_compile_iff_fresh (grounded : linkage.Grounded) {registry : Registry}
    (grown : Grows linkage {} registry) {pointerSize : UInt32} {table : Table} :
    table ∈ registry.compile pointerSize ↔ exists type fresh, type ∈ registry.types ∧
      (Registry.table linkage type {}).1 = .ok fresh ∧
        table = (fresh.place pointerSize).convert := by
  have fresh : forall {type : Token} {layout : Layout}, registry.layout? type = some layout ->
      (Registry.table linkage type {}).1 = .ok layout.table := by
    intro type layout found
    rcases grown.made found with ⟨_, _, _, _, _, origin⟩
    rw [← table_alike grounded grown .refl type, table_of_layout origin.plain found]
  rw [mem_compile]
  constructor
  · rintro ⟨type, layout, member, isTable⟩
    have found := grown.layout?_of_mem member
    exact ⟨type, layout.table, mem_types_iff.mpr ⟨layout, found⟩, fresh found, isTable.symm⟩
  · rintro ⟨type, table, registered, isFresh, isTable⟩
    rcases mem_types_iff.mp registered with ⟨layout, found⟩
    rw [fresh found] at isFresh
    cases isFresh
    exact ⟨type, layout, mem_layouts_of_layout? found, isTable.symm⟩

end Requests

/-- Whatever a registry was asked before, also in vain, it gives the table of a
type or the reason why there is none as a new registry does, and its finished
tables are made from these.  What the user does to tables that were handed out
changes none of its answers. -/
theorem serveAll_transparent {steps : List DraftStep} {program : Program} {settings : Settings}
    {linkage : Linkage} (built : (Draft.ofSteps steps).build = .ok program)
    (applied : Linkage.ofSettings program settings = .ok linkage) (requests : List Request) :
    (forall token,
      (Registry.table linkage token (serveAll linkage {} requests).2.registry).1 =
        (Registry.table linkage token {}).1) ∧
    (forall pointerSize table,
      table ∈ (serveAll linkage {} requests).2.registry.compile pointerSize ↔
        exists type fresh, type ∈ (serveAll linkage {} requests).2.registry.types ∧
          (Registry.table linkage type {}).1 = .ok fresh ∧
            table = (fresh.place pointerSize).convert) ∧
    (serveAll linkage {} (requests.filter Request.asks)).1 = (serveAll linkage {} requests).1 ∧
    (serveAll linkage {} (requests.filter Request.asks)).2.registry =
      (serveAll linkage {} requests).2.registry := by
  have grounded := Linkage.grounded_of_build built applied
  have grown : Grows linkage {} (serveAll linkage {} requests).2.registry :=
    grows_serveAll {} requests
  exact ⟨fun token => table_alike grounded grown .refl token,
    fun _ _ => mem_compile_iff_fresh grounded grown, serveAll_filter linkage rfl requests⟩

/-- A dog is an animal that speaks in its own way, and two interfaces name each
other. -/
def sampleRingSteps : List DraftStep := [
  .type none "Demo" "Animal" TypeAttributes.exported none,
  .method none ⟨0x02000001⟩ "Speak" ⟨6, 0x0040, 0x0100⟩ none [] (some ⟨8, true, [0x2A]⟩),
  .type none "Demo" "Dog" TypeAttributes.exported (some ⟨0x02000001⟩),
  .method none ⟨0x02000002⟩ "Speak" ⟨6, 0x0040, 0⟩ none [] (some ⟨8, true, [0x2A]⟩),
  .type none "Demo" "Left" TypeAttributes.interface none,
  .type none "Demo" "Right" TypeAttributes.interface none,
  .interface ⟨0x02000003⟩ ⟨0x02000004⟩,
  .interface ⟨0x02000004⟩ ⟨0x02000003⟩]

def sampleRing : Program :=
  (Draft.ofSteps sampleRingSteps).build.toOption.getD ⟨[], [], [], [], []⟩

theorem build_sampleRing : (Draft.ofSteps sampleRingSteps).build = .ok sampleRing :=
  Result.eq_ok_getD (by decide +kernel) _

def sampleRingLinkage : Linkage :=
  (Linkage.ofSettings sampleRing {}).toOption.getD ⟨sampleRing, [], []⟩

theorem link_sampleRing : Linkage.ofSettings sampleRing {} = .ok sampleRingLinkage :=
  Result.eq_ok_getD (by decide +kernel) _

/-- The table of the dog is asked for and finished by hand, one interface fails
twice, and its fields are entered in between. -/
def sampleRingRequests : List Request := [
  .table ⟨0x02000002⟩, .alter 0 (fun table => (table.place 4).convert), .table ⟨0x02000003⟩,
  .fields ⟨0x02000003⟩, .compile 8, .add ⟨0x02000003⟩]

theorem sampleRing_transparent :
    (serveAll sampleRingLinkage {} sampleRingRequests).1.map Answer.succeeds =
      [true, false, true, true, false] ∧
    (Registry.table sampleRingLinkage ⟨0x02000002⟩
      (serveAll sampleRingLinkage {} sampleRingRequests).2.registry).1 =
        (Registry.table sampleRingLinkage ⟨0x02000002⟩ {}).1 ∧
    (Registry.table sampleRingLinkage ⟨0x02000004⟩
      (serveAll sampleRingLinkage {} sampleRingRequests).2.registry).1 =
        (Registry.table sampleRingLinkage ⟨0x02000004⟩ {}).1 := by
  have transparent :=
    (serveAll_transparent build_sampleRing link_sampleRing sampleRingRequests).1
  exact ⟨by decide +kernel, transparent ⟨0x02000002⟩, transparent ⟨0x02000004⟩⟩

end Registry
end Dispatch
end CilGraph
