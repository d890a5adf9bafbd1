import CilGraph.Proofs.Compilation.TypeClosure
import CilGraph.Proofs.Linkage.Effects
import CilGraph.Proofs.Linkage.Stability
import CilGraph.Proofs.Lowering.Objects
import CilGraph.Proofs.Program.Connected

namespace CilGraph

/-!
# Types that are shown and not described

A type with a table should have records, and so should a type of which a node makes
an object.  With replacements neither is certain, because three parts of a
compilation look at different types.

Discovery goes from a type to its declared base type and to the interfaces and
fields that its replacement declares itself.  The layout needs the declared base
type too, but it needs all interfaces of the replacement, also those that come from
its base types and from its interfaces.  So an interface can have a table and no
record; the interfaces of an array type that is a base type are missed likewise.  A
node that makes an object shows the declared type, whereas the constructor of the
replacement is asked for and takes in the replacement only.  So the declared type can
be without record and table.  `samplePorch` shows both.

Where discovery comes by all that is needed, everything is described.  `Surveys`
says this of a type and the interfaces of its replacement.  For a node it is enough
that the declared type is reached from its replacement, for instance as its base
type; a type that is not replaced reaches itself.
-/

namespace Linkage

/-- One type is taken in on account of another: it is the innermost element of the
declared base type, or of an interface or a field type of the replacement. -/
inductive Leads (linkage : Linkage) (type inner : Token) : Prop
  | base {definition : TypeDef} {other : Token}
      (declared : linkage.program.typeDef type = .ok definition)
      (isBase : definition.base = some other)
      (canonical : linkage.program.innermost other = .ok inner) : Leads linkage type inner
  | interface {resolved : TypeDef} {other : Token}
      (resolves : linkage.program.typeDef (linkage.resolveType type) = .ok resolved)
      (among : other ∈ resolved.interfaces)
      (canonical : linkage.program.innermost other = .ok inner) : Leads linkage type inner
  | field {resolved : TypeDef} {fields : List FieldDef} {field : FieldDef}
      (resolves : linkage.program.typeDef (linkage.resolveType type) = .ok resolved)
      (listed : linkage.program.declaredFields resolved = .ok fields) (among : field ∈ fields)
      (canonical : linkage.program.innermost field.fieldType = .ok inner) :
      Leads linkage type inner

/-- A type is taken in, step by step, when a token is asked for. -/
def Reaches (linkage : Linkage) (token type : Token) : Prop :=
  exists start, linkage.program.innermost token = .ok start ∧
    Relation.ReflTransGen linkage.Leads start type

/-- Every interface of the replacement of a type, also one that is inherited, is
taken in on account of the type. -/
def Surveys (linkage : Linkage) (type : Token) : Prop :=
  forall resolved interfaces other inner,
    linkage.program.typeDef (linkage.resolveType type) = .ok resolved ->
    linkage.program.interfaces resolved.token = .ok interfaces -> other ∈ interfaces ->
    linkage.program.innermost other = .ok inner -> Relation.ReflTransGen linkage.Leads type inner

/-! ## A test for surveys -/

/-- The types to which a type leads directly. -/
def led (linkage : Linkage) (type : Token) : List Token :=
  match Compilation.Session.neighbours linkage type with
  | .ok next => next.filterMap (fun other => (linkage.program.innermost other).toOption)
  | .error _ => []

/-- The types to which a type leads in a number of rounds. -/
def ledWithin (linkage : Linkage) : Nat -> Token -> List Token
  | 0, type => [type]
  | rounds + 1, type => type :: (linkage.led type).flatMap (linkage.ledWithin rounds)

/-- Whether the interfaces of the replacement of a type are met in a number of
rounds. -/
def surveysWithin (linkage : Linkage) (rounds : Nat) (type : Token) : Bool :=
  match (do
    let resolved ← linkage.program.typeDef (linkage.resolveType type)
    linkage.program.interfaces resolved.token : Result (List Token)) with
  | .ok interfaces => interfaces.all (fun other =>
      match linkage.program.innermost other with
      | .ok inner => (linkage.ledWithin rounds type).contains inner
      | .error _ => true)
  | .error _ => true

section Surveying

variable {linkage : Linkage} {type inner : Token}

/-- What a type leads to is what discovery comes by next. -/
theorem leads_iff_neighbour {next : List Token}
    (listed : Compilation.Session.neighbours linkage type = .ok next) :
    linkage.Leads type inner ↔
      exists other, other ∈ next ∧ linkage.program.innermost other = .ok inner := by
  rcases Result.bind_eq_ok.mp listed with ⟨definition, declared, resolving⟩
  rcases Result.bind_eq_ok.mp resolving with ⟨resolved, resolves, listing⟩
  rcases Result.bind_eq_ok.mp listing with ⟨fields, ofFields, assembled⟩
  cases assembled
  constructor
  · intro leads
    cases leads with
    | base again isBase canonical =>
        rw [declared] at again
        cases again
        have among := Option.mem_toList.mpr isBase
        exact ⟨_, List.mem_append_left _ (List.mem_append_left _ among), canonical⟩
    | interface again among canonical =>
        rw [resolves] at again
        cases again
        exact ⟨_, List.mem_append_left _ (List.mem_append_right _ among), canonical⟩
    | field again ofFieldsAgain among canonical =>
        rw [resolves] at again
        cases again
        rw [ofFields] at ofFieldsAgain
        cases ofFieldsAgain
        exact ⟨_, List.mem_append_right _ (List.mem_map_of_mem among), canonical⟩
  · rintro ⟨other, among, canonical⟩
    rcases List.mem_append.mp among with isParent | isFieldType
    · rcases List.mem_append.mp isParent with isBase | isInterface
      · exact .base declared (Option.mem_toList.mp isBase) canonical
      · exact .interface resolves isInterface canonical
    · rcases List.mem_map.mp isFieldType with ⟨field, isField, same⟩
      rw [← same] at canonical
      exact .field resolves ofFields isField canonical

theorem leads_of_mem_led (member : inner ∈ linkage.led type) : linkage.Leads type inner := by
  unfold led at member
  split at member
  · rename_i next listed
    rcases List.mem_filterMap.mp member with ⟨other, among, found⟩
    refine (leads_iff_neighbour listed).mpr ⟨other, among, ?_⟩
    cases canonical : linkage.program.innermost other with
    | error _ =>
        rw [canonical] at found
        cases found
    | ok _ =>
        rw [canonical] at found
        cases found
        rfl
  · cases member

theorem reached_of_mem_ledWithin {rounds : Nat} (member : inner ∈ linkage.ledWithin rounds type) :
    Relation.ReflTransGen linkage.Leads type inner := by
  induction rounds generalizing type with
  | zero =>
      rw [List.mem_singleton.mp member]
  | succ rounds inductionHypothesis =>
      rcases List.mem_cons.mp member with same | further
      · rw [same]
      · rcases List.mem_flatMap.mp further with ⟨between, isLed, reached⟩
        exact .head (leads_of_mem_led isLed) (inductionHypothesis reached)

theorem surveys_of_surveysWithin {rounds : Nat}
    (passes : linkage.surveysWithin rounds type = true) : linkage.Surveys type := by
  intro resolved interfaces other inner resolves listed among canonical
  have found : (do
      let resolved ← linkage.program.typeDef (linkage.resolveType type)
      linkage.program.interfaces resolved.token : Result (List Token)) = .ok interfaces :=
    Result.bind_eq_ok.mpr ⟨resolved, resolves, listed⟩
  unfold surveysWithin at passes
  rw [found] at passes
  have met := List.all_eq_true.mp passes other among
  rw [canonical] at met
  exact reached_of_mem_ledWithin (List.contains_iff_mem.mp met)

end Surveying

end Linkage

namespace Compilation

/-- Whatever a compilation lays out or makes is described by records.  Of a node that
makes an object this is said if its constructor takes in the type that it shows. -/
structure Described (linkage : Linkage) (compilation : Compilation) : Prop where
  tables : forall table, table ∈ compilation.tables -> exists type,
    type ∈ linkage.program.types ∧ type.token = table.type ∧ type.fullName = table.name ∧
      forall isStatic, compilation.HasRecord isStatic type
  objects : forall record, record ∈ compilation.records.methods -> forall node,
    node ∈ record.nodes -> node.operation = .newObject -> exists constructor type,
      node.Makes linkage.program constructor type ∧
      (constructor.isStatic = false ->
        linkage.Reaches (linkage.resolveType constructor.declaring) constructor.declaring ->
        compilation.HasRecord false type ∧
          exists table, compilation.table? type.fullName = some table ∧ table.type = type.token)

namespace Session

variable {linkage : Linkage} {session : Session}

/-! ## What is taken in -/

/-- What a type leads to was taken in with it. -/
theorem Rounded.mem_of_leads (rounded : Rounded linkage session) {type inner : Token}
    (whole : type ∈ session.wholeTypes) (leads : linkage.Leads type inner) :
    inner ∈ session.wholeTypes := by
  rcases (rounded.wholes type whole).led with ⟨next, listed, held⟩
  rcases (Linkage.leads_iff_neighbour listed).mp leads with ⟨other, among, canonical⟩
  rcases held other among with ⟨found, isFound, isWhole⟩
  rw [canonical] at isFound
  rw [Except.ok.inj isFound]
  exact isWhole

theorem Rounded.mem_of_reached (rounded : Rounded linkage session) {type inner : Token}
    (whole : type ∈ session.wholeTypes) (reached : Relation.ReflTransGen linkage.Leads type inner) :
    inner ∈ session.wholeTypes := by
  induction reached with
  | refl => exact whole
  | tail _ leads inductionHypothesis => exact rounded.mem_of_leads inductionHypothesis leads

/-- If the types that were taken in are surveyed, they include all that their layouts
need. -/
theorem Rounded.sufficient_of_surveys (rounded : Rounded linkage session)
    (surveys : forall type, type ∈ session.wholeTypes -> linkage.Surveys type) :
    Dispatch.Registry.Sufficient linkage (fun type => type ∈ session.wholeTypes) := by
  intro token other type whole needs canonical
  cases needs with
  | base declared isBase => exact rounded.mem_of_leads whole (.base declared isBase canonical)
  | interface resolves listed among =>
      exact rounded.mem_of_reached whole
        (surveys token whole _ _ other type resolves listed among canonical)

/-- A type is taken in when one of its constructors is asked for, or with it. -/
theorem Rounded.mem_of_constructor (rounded : Rounded linkage session) {constructor : Callable}
    {type : Token} (known : linkage.program.Known constructor)
    (asked : Asked linkage.program session constructor) (isInstance : constructor.isStatic = false)
    (reaches : linkage.Reaches constructor.declaring type) : type ∈ session.wholeTypes := by
  rcases (rounded.declared constructor known asked).declaring with ⟨start, canonical, covers⟩
  rcases reaches with ⟨again, canonicalAgain, reached⟩
  rw [canonical] at canonicalAgain
  cases canonicalAgain
  rw [isInstance] at covers
  rcases covers with whole | ⟨impossible, _⟩
  · exact rounded.mem_of_reached whole reached
  · cases impossible

/-! ## What is described -/

section Compiled

variable {pointerSize : UInt32} {compilation : Compilation} {inside : Token -> Prop}

/-- A type that was taken in has records and a table of its name. -/
theorem Accounted.describes (accounted : Accounted linkage inside session)
    (records : compilation.records = session.records)
    (tables : compilation.tables = session.registry.compile pointerSize) {type : TypeDef}
    (ofProgram : type ∈ linkage.program.types) (whole : type.token ∈ session.wholeTypes) :
    (forall isStatic, compilation.HasRecord isStatic type) ∧
      exists table, compilation.table? type.fullName = some table ∧ table.type = type.token := by
  refine ⟨fun isStatic => (accounted.hasRecord_iff ofProgram records).mpr (Or.inl whole), ?_⟩
  have registered := (accounted.rounded.wholes _ whole).registered
  rcases (accounted.hasTable_iff tables).mpr registered with ⟨table, member, isToken⟩
  rcases accounted.typeOf_table tables member with ⟨own, ownOfProgram, ownToken, ownName⟩
  have same := accounted.apart.tokens own type ownOfProgram ofProgram (ownToken.trans isToken)
  rw [same] at ownName
  refine ⟨table, ?_, isToken⟩
  rw [ownName]
  exact accounted.table?_of_mem tables member

/-- A node that makes an object, in a record of a session. -/
theorem Settled.makes {followSlots : Bool} {entries : List Callable}
    (settled : Settled linkage followSlots entries session) {record : MethodRecord}
    (member : record ∈ session.records.methods) {node : Node} (among : node ∈ record.nodes)
    (isNew : node.operation = .newObject) : exists declared resolved type,
      node.Makes linkage.program declared type ∧
      linkage.resolveCallable declared = .ok resolved ∧ linkage.program.Known resolved ∧
      Asked linkage.program session resolved := by
  rcases settled.progresses.traced.recorded record member with
    ⟨callable, _, _, _, ⟨name, body, lowered, mangles, hasBody, succeeds, same⟩, explored⟩
  rw [same] at among
  rcases Lowering.madeBy_of_lower succeeds among isNew with
    ⟨declared, resolved, type, makes, resolves, discovered⟩
  rcases Lowering.known_of_lower succeeds discovered with ⟨known, shown, isShown⟩
  have met := explored name body mangles hasBody _ discovered
  exact ⟨declared, resolved, type, makes, resolves, known, shown, isShown, met shown isShown⟩

end Compiled

end Session

/-- If the types that have records are surveyed, whatever is laid out or made is
described. -/
theorem compile_describes {steps : List DraftStep} {program : Program} {settings : Settings}
    {options : Options} {job : Job} {compilation : Compilation}
    (built : (Draft.ofSteps steps).build = .ok program) (unmarked : program.Unmarked)
    (prepared : Job.Prepared program settings options job)
    (compiled : job.compile = .ok compilation)
    (surveys : forall type, type ∈ program.types -> compilation.HasRecord false type ->
      job.linkage.Surveys type.token) : Described job.linkage compilation := by
  rcases prepared.known with ⟨same, known⟩
  have wellFormed := Draft.wellFormed_of_build (Draft.listsOwn_ofSteps steps) built
  have apart := Draft.tellsApart_of_build built
  have declares := Draft.declaresMembers_of_build built
  rcases Job.compile_eq_ok compiled with ⟨session, closed, isCompilation⟩
  rw [← same] at unmarked known wellFormed apart declares surveys
  have settled := Session.close_settled known closed
  have records : compilation.records = session.records := by rw [isCompilation]
  have tables : compilation.tables = session.registry.compile job.options.pointerSize := by
    rw [isCompilation]
  have loosely := settled.accounted wellFormed apart unmarked
    (Dispatch.Registry.sufficient_everything job.linkage) (fun _ _ => trivial)
  -- Only now is it known which types have records, and that these are all.
  have surveyed : forall type, type ∈ session.wholeTypes -> job.linkage.Surveys type := by
    intro type whole
    rcases Program.plain_of_innermostWith (settled.rounded.wholes type whole).canonical with
      ⟨definition, declared, _⟩
    rcases Program.token_of_typeDef declared with ⟨ofProgram, isToken⟩
    rw [← isToken] at whole ⊢
    exact surveys definition ofProgram ((loosely.describes records tables ofProgram whole).1 false)
  have accounted := settled.accounted wellFormed apart unmarked
    (settled.rounded.sufficient_of_surveys surveyed) (fun _ whole => whole)
  constructor
  · intro table member
    rcases accounted.typeOf_table tables member with ⟨type, ofProgram, isToken, isName⟩
    have registered := (accounted.hasTable_iff tables).mp ⟨table, member, isToken.symm⟩
    have whole := accounted.orderly.confined _ registered
    exact ⟨type, ofProgram, isToken, isName, (accounted.describes records tables ofProgram whole).1⟩
  · intro record member node among isNew
    rw [records] at member
    rcases settled.makes member among isNew with
      ⟨declared, resolved, type, makes, resolves, resolvedKnown, asked⟩
    refine ⟨declared, type, makes, ?_⟩
    intro isInstance reaches
    have sameEffect := (Linkage.effect_of_resolveCallable resolves).2.2 makes.isConstructor
    rw [← Linkage.declaring_of_resolveCallable declares resolves] at reaches
    have whole := settled.rounded.mem_of_constructor resolvedKnown asked
      (sameEffect.isStatic.trans isInstance) reaches
    rcases Program.token_of_typeDef makes.declared with ⟨ofProgram, isToken⟩
    rw [← isToken] at whole
    rcases accounted.describes records tables ofProgram whole with ⟨hasRecords, hasTable⟩
    exact ⟨hasRecords false, hasTable⟩

/-- A porch takes a window and makes a door.  A sliding door is a door, a gate is
not.  A frame can be opened, and so can a hatch because it is a frame. -/
def samplePorchSteps : List DraftStep := [
  .type none "Demo" "Porch" TypeAttributes.exported none,
  .type none "Demo" "Door" TypeAttributes.exported none,
  .type none "Demo" "Gate" TypeAttributes.exported none,
  .type none "Demo" "SlidingDoor" TypeAttributes.exported (some ⟨0x02000002⟩),
  .type none "Demo" "Window" TypeAttributes.exported none,
  .type none "Demo" "Movable" TypeAttributes.interface none,
  .type none "Demo" "Openable" TypeAttributes.interface none,
  .type none "Demo" "Frame" TypeAttributes.exported none,
  .type none "Demo" "Hatch" TypeAttributes.exported (some ⟨0x02000008⟩),
  .interface ⟨0x02000007⟩ ⟨0x02000006⟩,
  .interface ⟨0x02000008⟩ ⟨0x02000007⟩,
  .method none ⟨0x02000001⟩ "Main" ⟨6, 0x0010, 0⟩ none [⟨⟨0x02000005⟩, ⟨0⟩⟩]
    (some ⟨8, true, [0x73, 0x02, 0x00, 0x00, 0x06, 0x26, 0x2A]⟩),
  .constructor none ⟨0x02000002⟩ false [] (some ⟨8, true, [0x2A]⟩),
  .constructor none ⟨0x02000003⟩ false [] (some ⟨8, true, [0x2A]⟩),
  .constructor none ⟨0x02000004⟩ false [] (some ⟨8, true, [0x2A]⟩)]

def samplePorch : Program :=
  (Draft.ofSteps samplePorchSteps).build.toOption.getD ⟨[], [], [], [], []⟩

theorem build_samplePorch : (Draft.ofSteps samplePorchSteps).build = .ok samplePorch :=
  Result.eq_ok_getD (by decide +kernel) _

theorem samplePorch_unmarked : samplePorch.Unmarked :=
  Program.unmarked_of_getLast? (by decide +kernel)

/-- What takes the place of the door and of the window. -/
def samplePorchSettings (door window : String) : Settings where
  substitutions := [⟨"Demo.Door", door⟩, ⟨"Demo.Window", window⟩]

def samplePorchRequest (door window : String) : Result Job := do
  let job ← Job.new samplePorch (samplePorchSettings door window) {}
  job.addEntry ⟨0x06000001⟩

def samplePorchJob (door window : String) : Job :=
  (samplePorchRequest door window).toOption.getD ⟨⟨samplePorch, [], []⟩, {}, []⟩

theorem samplePorchJob_prepared {door window : String}
    (requested : samplePorchRequest door window = .ok (samplePorchJob door window)) :
    Job.Prepared samplePorch (samplePorchSettings door window) {} (samplePorchJob door window) := by
  rcases Result.bind_eq_ok.mp requested with ⟨job, isNew, added⟩
  exact .addEntry (.new isNew) added

def samplePorchCompilation (door window : String) : Compilation :=
  (samplePorchJob door window).compile.toOption.getD ⟨{}, []⟩

/-- The names of the types of which objects are made. -/
def madeNames (compilation : Compilation) : List String :=
  compilation.records.methods.flatMap (fun record => record.nodes.filterMap (fun node =>
    if node.operation = .newObject then node.text else none))

/-- A sliding door leads to the door in whose place it is made, and a frame leads to
all its interfaces. -/
theorem samplePorch_describes :
    samplePorchRequest "Demo.SlidingDoor" "Demo.Frame" =
      .ok (samplePorchJob "Demo.SlidingDoor" "Demo.Frame") ∧
    (samplePorchJob "Demo.SlidingDoor" "Demo.Frame").compile =
      .ok (samplePorchCompilation "Demo.SlidingDoor" "Demo.Frame") ∧
    (samplePorchCompilation "Demo.SlidingDoor" "Demo.Frame").tables.map Dispatch.Table.name =
      ["Demo.Door", "Demo.Movable", "Demo.Openable", "Demo.SlidingDoor", "Demo.Window"] ∧
    madeNames (samplePorchCompilation "Demo.SlidingDoor" "Demo.Frame") = ["Demo.Door"] ∧
    (samplePorchJob "Demo.SlidingDoor" "Demo.Frame").linkage.Reaches ⟨0x02000004⟩ ⟨0x02000002⟩ ∧
    Described (samplePorchJob "Demo.SlidingDoor" "Demo.Frame").linkage
      (samplePorchCompilation "Demo.SlidingDoor" "Demo.Frame") := by
  have requested : samplePorchRequest "Demo.SlidingDoor" "Demo.Frame" =
      .ok (samplePorchJob "Demo.SlidingDoor" "Demo.Frame") :=
    Result.eq_ok_getD (by decide +kernel) _
  have compiled : (samplePorchJob "Demo.SlidingDoor" "Demo.Frame").compile =
      .ok (samplePorchCompilation "Demo.SlidingDoor" "Demo.Frame") :=
    Result.eq_ok_getD (by decide +kernel) _
  have reached : ⟨0x02000002⟩ ∈
      (samplePorchJob "Demo.SlidingDoor" "Demo.Frame").linkage.ledWithin 1 ⟨0x02000004⟩ := by
    decide +kernel
  have surveyed : forall type, type ∈ samplePorch.types ->
      (samplePorchJob "Demo.SlidingDoor" "Demo.Frame").linkage.surveysWithin 3 type.token =
        true := by
    decide +kernel
  refine ⟨requested, compiled, by decide +kernel, by decide +kernel,
    ⟨_, by decide +kernel, Linkage.reached_of_mem_ledWithin reached⟩, ?_⟩
  exact compile_describes build_samplePorch samplePorch_unmarked
    (samplePorchJob_prepared requested) compiled
    (fun type member _ => Linkage.surveys_of_surveysWithin (surveyed type member))

/-- A hatch does not lead to the interfaces of its base type, and a gate does not
lead to the door in whose place it is made. -/
theorem samplePorch_undescribed :
    (Draft.ofSteps samplePorchSteps).build = .ok samplePorch ∧
    samplePorchRequest "Demo.Gate" "Demo.Hatch" =
      .ok (samplePorchJob "Demo.Gate" "Demo.Hatch") ∧
    (samplePorchJob "Demo.Gate" "Demo.Hatch").compile =
      .ok (samplePorchCompilation "Demo.Gate" "Demo.Hatch") ∧
    (exists table, table ∈ (samplePorchCompilation "Demo.Gate" "Demo.Hatch").tables ∧
      table.name = "Demo.Openable") ∧
    "Demo.Door" ∈ madeNames (samplePorchCompilation "Demo.Gate" "Demo.Hatch") ∧
    (samplePorchCompilation "Demo.Gate" "Demo.Hatch").table? "Demo.Door" = none ∧
    forall record, record ∈ (samplePorchCompilation "Demo.Gate" "Demo.Hatch").records.types ->
      record.name ≠ "Demo.Openable" ∧ record.name ≠ "Demo.Openable_static" ∧
        record.name ≠ "Demo.Door" := by
  refine ⟨build_samplePorch, Result.eq_ok_getD (by decide +kernel) _,
    Result.eq_ok_getD (by decide +kernel) _, ?_⟩
  decide +kernel

end Compilation
end CilGraph
