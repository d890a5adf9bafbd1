import CilGraph.Proofs.Compilation.Settled
import CilGraph.Proofs.Dispatch.Compatibility
import CilGraph.Proofs.Dispatch.Finished

namespace CilGraph

/-!
# The types of a compilation

Types come into a compilation in two ways.  A session takes them in one after
another, with their records, and follows base types, interfaces and the types of
fields.  The registry makes layouts, and for a layout it registers the base type
and all interfaces, also those of base types and of interfaces.  Without
replacements the two ways end at the same set of types: the types that were taken
in contain with every type all that its layout needs, so the registry has nothing
to add.

Arrays are taken in as their innermost elements, whereas an array type that is a
base type or an interface hands on its own interfaces, which nobody takes in.  And
if the full name of a type ends in the mark of a record of static fields, its
record can be missing, see `sampleTwins`.  Both are excluded here.
-/

/-! ## Programs without confusion -/

namespace Program

/-- No array type is the base type or an interface of a type. -/
def PlainParents (program : Program) : Prop :=
  forall type, type ∈ program.types -> forall parent, parent ∈ program.types ->
    parent.token ∈ type.base.toList ++ type.interfaces -> parent.isArray = false

/-- No full name ends in the mark of a record of static fields. -/
def Unmarked (program : Program) : Prop :=
  forall type, type ∈ program.types -> forall stem, type.fullName ≠ stem ++ "_static"

theorem unmarked_of_getLast? {program : Program}
    (ends : forall type, type ∈ program.types -> type.fullName.toList.getLast? ≠ some 'c') :
    program.Unmarked := by
  intro type member stem same
  refine ends type member ?_
  rw [same, String.toList_append, List.getLast?_append]
  rfl

/-- Only a record of the same kind has the name of a record. -/
theorem Unmarked.kind_of_recordName {program : Program} (unmarked : program.Unmarked)
    {first second : TypeDef} (isFirst : first ∈ program.types) (isSecond : second ∈ program.types)
    {isStatic other : Bool} (same : first.recordName isStatic = second.recordName other) :
    isStatic = other := by
  cases isStatic with
  | false =>
      cases other with
      | false => rfl
      | true => exact absurd same (unmarked first isFirst second.fullName)
  | true =>
      cases other with
      | false => exact absurd same.symm (unmarked second isSecond first.fullName)
      | true => rfl

theorem typeDef_of_innermost {program : Program} {token type : Token}
    (found : program.innermost token = .ok type) :
    exists definition, program.typeDef token = .ok definition := by
  rcases Result.bind_eq_ok.mp found with ⟨definition, declared, _⟩
  exact ⟨definition, declared⟩

end Program

namespace Records

/-- A record is the only one of its name. -/
theorem Indexed.filter_name {records : Records} (indexed : records.Indexed) {record : TypeRecord}
    (member : record ∈ records.types) :
    records.types.filter (fun other => other.name == record.name) = [record] := by
  rcases List.append_of_mem member with ⟨front, back, split⟩
  have distinct := indexed.distinct
  rw [split, List.map_append, List.map_cons] at distinct
  rcases List.nodup_append.mp distinct with ⟨_, ofBack, apart⟩
  have noneBefore : front.filter (fun other => other.name == record.name) = [] := by
    refine List.filter_eq_nil_iff.mpr ?_
    intro other among same
    exact apart other.name (List.mem_map_of_mem among) record.name List.mem_cons_self
      (eq_of_beq same)
  have noneAfter : back.filter (fun other => other.name == record.name) = [] := by
    refine List.filter_eq_nil_iff.mpr ?_
    intro other among same
    apply (List.nodup_cons.mp ofBack).1
    rw [← eq_of_beq same]
    exact List.mem_map_of_mem among
  rw [split, List.filter_append, noneBefore, List.nil_append, List.filter_cons, beq_self_eq_true,
    if_pos rfl, noneAfter]

end Records

namespace Compilation

/-! ## What a compilation holds of a type -/

/-- A type has a finished table. -/
def HasTable (compilation : Compilation) (type : TypeDef) : Prop :=
  exists table, table ∈ compilation.tables ∧ table.type = type.token

/-- A type has a record of its instance fields or of its static fields. -/
def HasRecord (compilation : Compilation) (isStatic : Bool) (type : TypeDef) : Prop :=
  exists record, record ∈ compilation.records.types ∧
    record.name = type.recordName isStatic ∧ record.isStatic = isStatic

/-- The record of one kind is there once, and it lists the fields of that kind in
the order of their declaration, each with the name of its type. -/
def RecordsFields (program : Program) (compilation : Compilation) (isStatic : Bool)
    (type : TypeDef) : Prop :=
  exists fields entries, program.declaredFields type = .ok fields ∧
    List.Forall₂ (fun field entry => program.typeName field.fieldType = .ok entry.1 ∧
      entry.2 = field.name) (fields.filter (fun field => field.isStatic == isStatic)) entries ∧
    compilation.records.types.filter (fun record => record.name == type.recordName isStatic) =
      [⟨type.recordName isStatic, isStatic, entries⟩]

/-- A token leads, from element to element, to a type with a table. -/
def LeadsToTable (program : Program) (compilation : Compilation) (token : Token) : Prop :=
  exists inner type, program.innermost token = .ok inner ∧ program.typeDef inner = .ok type ∧
    compilation.HasTable type

/-- The types of a compilation are closed under what they lead to, and their
tables and records are there without repetition. -/
structure TypeClosed (program : Program) (compilation : Compilation) : Prop where
  owned : forall table, table ∈ compilation.tables ->
    exists type, type ∈ program.types ∧ type.token = table.type
  tables : forall type, type ∈ program.types ->
    (compilation.HasTable type ↔ type.isArray = false ∧ compilation.HasRecord false type)
  records : forall type, type ∈ program.types -> compilation.HasTable type ->
    forall isStatic, RecordsFields program compilation isStatic type
  parents : forall type, type ∈ program.types -> compilation.HasTable type ->
    forall parent, parent ∈ type.base.toList ++ type.interfaces -> exists definition,
      program.typeDef parent = .ok definition ∧ compilation.HasTable definition
  fields : forall type, type ∈ program.types -> compilation.HasTable type ->
    exists fields, program.declaredFields type = .ok fields ∧ forall field, field ∈ fields ->
      LeadsToTable program compilation field.fieldType
  statics : forall type, type ∈ program.types -> compilation.HasRecord true type ->
    exists fields, program.declaredFields type = .ok fields ∧ forall field, field ∈ fields ->
      field.isStatic = true -> LeadsToTable program compilation field.fieldType
  named : forall type, type ∈ program.types -> forall table, table ∈ compilation.tables ->
    table.type = type.token -> compilation.table? (type.recordName false) = some table
  unnamed : forall name, (forall type, type ∈ program.types -> compilation.HasTable type ->
    type.recordName false ≠ name) -> compilation.table? name = none

namespace Session

variable {linkage : Linkage} {session : Session}

/-! ## Records and tables of a session -/

/-- A type that was taken in for a kind has a record under its name for that kind. -/
theorem exists_record_of_covers {inside : Token -> Prop} (rounded : Rounded linkage session)
    (orderly : Orderly linkage inside session) {type : Token} {definition : TypeDef}
    (declared : linkage.program.typeDef type = .ok definition) {isStatic : Bool}
    (covers : session.Covers isStatic type) : exists record,
      record ∈ session.records.types ∧ record.name = definition.recordName isStatic := by
  have entered : exists fields, session.registry.catalog.get? type = some fields ∧
      (fields.select isStatic).name ∈ session.records.typeNames := by
    rcases covers with whole | ⟨onlyStatic, partly⟩
    · rcases (rounded.wholes _ whole).recorded with ⟨fields, found, named⟩
      exact ⟨fields, found, named isStatic⟩
    · rcases (rounded.statics _ partly).recorded with ⟨fields, found, named⟩
      rw [onlyStatic]
      exact ⟨fields, found, named⟩
  rcases entered with ⟨fields, found, named⟩
  rcases orderly.stocked.faithful.describes _ fields found with ⟨again, declaredAgain, made⟩
  rw [declared] at declaredAgain
  cases declaredAgain
  rcases Dispatch.Catalog.select_of_recordsOf made isStatic with ⟨_, _, _, _, _, _, selected⟩
  rcases List.mem_map.mp ((orderly.indexed.names _).mp named) with ⟨record, member, sameName⟩
  refine ⟨record, member, ?_⟩
  rw [sameName, selected]

theorem hasTable_iff_registered {pointerSize : UInt32} {compilation : Compilation} {type : TypeDef}
    (grown : Dispatch.Registry.Grows linkage {} session.registry)
    (tables : compilation.tables = session.registry.compile pointerSize) :
    compilation.HasTable type ↔ type.token ∈ session.registry.types := by
  unfold HasTable
  rw [tables]
  constructor
  · rintro ⟨table, member, sameType⟩
    rcases Dispatch.Registry.mem_compile.mp member with ⟨token, layout, among, finished⟩
    have isToken := (Program.token_of_typeDef (grown.typeDef_of_mem among)).2
    rw [← sameType, ← finished, Dispatch.Layout.type_finished, isToken]
    exact List.mem_map.mpr ⟨(token, layout), among, rfl⟩
  · intro registered
    rcases List.mem_map.mp registered with ⟨⟨token, layout⟩, among, isToken⟩
    refine ⟨layout.finished pointerSize, Dispatch.Registry.mem_compile.mpr
      ⟨token, layout, among, rfl⟩, ?_⟩
    rw [Dispatch.Layout.type_finished,
      (Program.token_of_typeDef (grown.typeDef_of_mem among)).2]
    exact isToken

/-! ## Sessions that can be read back -/

/-- A session at its end, for a program whose names cause no confusion.  All that is
registered lies inside a set of types. -/
structure Accounted (linkage : Linkage) (inside : Token -> Prop) (session : Session) : Prop where
  apart : linkage.program.TellsApart
  unmarked : linkage.program.Unmarked
  rounded : Rounded linkage session
  grown : Dispatch.Registry.Grows linkage {} session.registry
  orderly : Orderly linkage inside session

theorem Settled.accounted {followSlots : Bool} {entries : List Callable} {inside : Token -> Prop}
    (settled : Settled linkage followSlots entries session)
    (wellFormed : linkage.program.WellFormed) (apart : linkage.program.TellsApart)
    (unmarked : linkage.program.Unmarked)
    (sufficient : Dispatch.Registry.Sufficient linkage inside)
    (whole : forall type, type ∈ session.wholeTypes -> inside type) :
    Accounted linkage inside session where
  apart := apart
  unmarked := unmarked
  rounded := settled.rounded
  grown := settled.grown
  orderly := settled.progresses.orderly wellFormed sufficient whole

namespace Accounted

variable {inside : Token -> Prop}

/-- A record of a type's name was made from the fields of that type. -/
theorem record_of_name (accounted : Accounted linkage inside session) {type : TypeDef}
    (ofProgram : type ∈ linkage.program.types) {isStatic : Bool} {record : TypeRecord}
    (member : record ∈ session.records.types) (named : record.name = type.recordName isStatic) :
    exists fields, Dispatch.Catalog.recordsOf linkage type = .ok fields ∧
      record = fields.select isStatic ∧ session.Covers isStatic type.token := by
  rcases accounted.orderly.described record member with
    ⟨token, definition, fields, kind, declared, made, isRecord, covers⟩
  rcases Program.token_of_typeDef declared with ⟨among, isToken⟩
  rcases Dispatch.Catalog.select_of_recordsOf made kind with ⟨_, _, described, _, _, _, selected⟩
  have sameName : type.recordName isStatic = definition.recordName kind := by
    rw [← named, isRecord, selected]
  have sameKind := accounted.unmarked.kind_of_recordName ofProgram among sameName
  rw [← sameKind] at sameName isRecord covers
  have same := accounted.apart.names type definition ofProgram among
    (fullName_of_recordName sameName)
  rw [same, isToken]
  exact ⟨fields, made, isRecord, covers⟩

/-- A type has a record of a kind if it was taken in for that kind. -/
theorem exists_record (accounted : Accounted linkage inside session) {type : TypeDef}
    (ofProgram : type ∈ linkage.program.types) {isStatic : Bool}
    (covers : session.Covers isStatic type.token) :
    exists record, record ∈ session.records.types ∧ record.name = type.recordName isStatic :=
  exists_record_of_covers accounted.rounded accounted.orderly
    (accounted.apart.typeDef_of_mem ofProgram) covers

section Compiled

variable {pointerSize : UInt32} {compilation : Compilation} {type : TypeDef}

theorem hasRecord_iff (accounted : Accounted linkage inside session)
    (ofProgram : type ∈ linkage.program.types)
    (records : compilation.records = session.records) {isStatic : Bool} :
    compilation.HasRecord isStatic type ↔ session.Covers isStatic type.token := by
  unfold HasRecord
  rw [records]
  constructor
  · rintro ⟨record, member, named, _⟩
    rcases accounted.record_of_name ofProgram member named with ⟨_, _, _, covers⟩
    exact covers
  · intro covers
    rcases accounted.exists_record ofProgram covers with ⟨record, member, named⟩
    rcases accounted.record_of_name ofProgram member named with ⟨fields, made, isRecord, _⟩
    rcases Dispatch.Catalog.select_of_recordsOf made isStatic with ⟨_, _, _, _, _, _, selected⟩
    refine ⟨record, member, named, ?_⟩
    rw [isRecord, selected]

theorem hasTable_iff (accounted : Accounted linkage inside session)
    (tables : compilation.tables = session.registry.compile pointerSize) :
    compilation.HasTable type ↔ type.token ∈ session.registry.types :=
  hasTable_iff_registered accounted.grown tables

/-- A table is found under the name of its type. -/
theorem table?_of_mem (accounted : Accounted linkage inside session)
    (tables : compilation.tables = session.registry.compile pointerSize) {table : Dispatch.Table}
    (member : table ∈ compilation.tables) : compilation.table? table.name = some table := by
  unfold table?
  rw [tables] at member ⊢
  exact Ordered.search_nameOf (Dispatch.Registry.pairwise_compile _ _)
    (accounted.grown.nodup_compile accounted.apart pointerSize) member

/-- Nothing is found under a name that no table has. -/
theorem table?_eq_none_iff (tables : compilation.tables = session.registry.compile pointerSize)
    {name : String} :
    compilation.table? name = none ↔
      forall table, table ∈ compilation.tables -> table.name ≠ name := by
  unfold table?
  rw [tables, Option.map_eq_none_iff]
  exact Ordered.search_eq_none_iff (Dispatch.Registry.pairwise_compile _ _)

/-- Every table is that of a type of the program and carries its name. -/
theorem typeOf_table (accounted : Accounted linkage inside session)
    (tables : compilation.tables = session.registry.compile pointerSize) {table : Dispatch.Table}
    (member : table ∈ compilation.tables) : exists type, type ∈ linkage.program.types ∧
      type.token = table.type ∧ type.fullName = table.name := by
  rw [tables] at member
  rcases Dispatch.Registry.mem_compile.mp member with ⟨token, layout, among, finished⟩
  rw [← finished]
  exact ⟨layout.type, (Program.token_of_typeDef (accounted.grown.typeDef_of_mem among)).1, rfl,
    rfl⟩

end Compiled

end Accounted

/-! ## Two ways to the same types -/

section Unreplaced

/-- Without replacements a type leads to what it declares itself. -/
theorem neighbours_eq_ok {type : Token} {next : List Token}
    (unreplaced : linkage.substitutions = []) (listed : neighbours linkage type = .ok next) :
    exists definition fields, linkage.program.typeDef type = .ok definition ∧
      linkage.program.declaredFields definition = .ok fields ∧
      next = definition.base.toList ++ definition.interfaces ++ fields.map FieldDef.fieldType := by
  rcases Result.bind_eq_ok.mp listed with ⟨definition, declared, resolving⟩
  rcases Result.bind_eq_ok.mp resolving with ⟨resolved, resolves, listing⟩
  rcases Result.bind_eq_ok.mp listing with ⟨fields, ofFields, assembled⟩
  cases assembled
  rw [Dispatch.resolveType_of_unreplaced unreplaced, declared] at resolves
  cases resolves
  exact ⟨definition, fields, declared, ofFields, rfl⟩

theorem Rounded.mem_parent (rounded : Rounded linkage session)
    (unreplaced : linkage.substitutions = []) (plain : linkage.program.PlainParents)
    {type parent : Token} {definition : TypeDef} (whole : type ∈ session.wholeTypes)
    (declared : linkage.program.typeDef type = .ok definition)
    (isParent : parent ∈ definition.base.toList ++ definition.interfaces) :
    parent ∈ session.wholeTypes := by
  rcases (rounded.wholes type whole).led with ⟨next, listed, held⟩
  rcases neighbours_eq_ok unreplaced listed with ⟨again, fields, declaredAgain, _, isNext⟩
  rw [declared] at declaredAgain
  cases declaredAgain
  rw [isNext] at held
  rcases held parent (List.mem_append_left _ isParent) with ⟨inner, canonical, isWhole⟩
  rcases Program.typeDef_of_innermost canonical with ⟨found, parentDeclared⟩
  rcases Program.token_of_typeDef parentDeclared with ⟨among, isToken⟩
  have isPlain := plain definition (Program.token_of_typeDef declared).1 found among
    (isToken ▸ isParent)
  rw [Dispatch.innermost_of_not_isArray parentDeclared isPlain] at canonical
  rw [Except.ok.inj canonical]
  exact isWhole

theorem Rounded.upwardClosed (rounded : Rounded linkage session)
    (unreplaced : linkage.substitutions = []) (plain : linkage.program.PlainParents) :
    linkage.program.UpwardClosed (fun type => type ∈ session.wholeTypes) := by
  constructor
  · intro token type base whole declared hasBase
    refine rounded.mem_parent unreplaced plain whole declared (List.mem_append_left _ ?_)
    rw [hasBase]
    exact List.mem_cons_self
  · intro token type interface whole declared named
    exact rounded.mem_parent unreplaced plain whole declared (List.mem_append_right _ named)

/-- The types that were taken in include all that their layouts need. -/
theorem Rounded.sufficient (rounded : Rounded linkage session)
    (unreplaced : linkage.substitutions = []) (plain : linkage.program.PlainParents) :
    Dispatch.Registry.Sufficient linkage (fun type => type ∈ session.wholeTypes) := by
  intro token other type whole needs canonical
  have closed := rounded.upwardClosed unreplaced plain
  have otherWhole : other ∈ session.wholeTypes := by
    cases needs with
    | base declared isBase => exact closed.base token _ other whole declared isBase
    | interface resolves listed among =>
        rw [Dispatch.resolveType_of_unreplaced unreplaced] at resolves
        rw [(Program.token_of_typeDef resolves).2] at listed
        exact closed.mem_interfaces whole listed other among
  rw [(rounded.wholes other otherWhole).canonical] at canonical
  rw [← Except.ok.inj canonical]
  exact otherWhole

end Unreplaced

/-- A session at its end, for a program without confusion and without
replacements. -/
structure Surveyed (linkage : Linkage) (session : Session) : Prop where
  apart : linkage.program.TellsApart
  unmarked : linkage.program.Unmarked
  plain : linkage.program.PlainParents
  unreplaced : linkage.substitutions = []
  rounded : Rounded linkage session
  grown : Dispatch.Registry.Grows linkage {} session.registry
  orderly : Orderly linkage (fun type => type ∈ session.wholeTypes) session

theorem Settled.surveyed {followSlots : Bool} {entries : List Callable}
    (settled : Settled linkage followSlots entries session)
    (wellFormed : linkage.program.WellFormed) (apart : linkage.program.TellsApart)
    (unmarked : linkage.program.Unmarked) (plain : linkage.program.PlainParents)
    (unreplaced : linkage.substitutions = []) : Surveyed linkage session where
  apart := apart
  unmarked := unmarked
  plain := plain
  unreplaced := unreplaced
  rounded := settled.rounded
  grown := settled.grown
  orderly := settled.progresses.orderly wellFormed
    (settled.rounded.sufficient unreplaced plain) (fun _ whole => whole)

namespace Surveyed

theorem accounted (surveyed : Surveyed linkage session) :
    Accounted linkage (fun type => type ∈ session.wholeTypes) session :=
  ⟨surveyed.apart, surveyed.unmarked, surveyed.rounded, surveyed.grown, surveyed.orderly⟩

theorem mem_registry_iff (surveyed : Surveyed linkage session) {type : Token} :
    type ∈ session.registry.types ↔ type ∈ session.wholeTypes :=
  ⟨surveyed.orderly.confined type,
    fun whole => (surveyed.rounded.wholes type whole).registered⟩

section Compiled

variable {pointerSize : UInt32} {compilation : Compilation} {type : TypeDef}

theorem recordsFields (surveyed : Surveyed linkage session)
    (ofProgram : type ∈ linkage.program.types)
    (records : compilation.records = session.records) {isStatic : Bool}
    (covers : session.Covers isStatic type.token) :
    RecordsFields linkage.program compilation isStatic type := by
  rcases surveyed.accounted.exists_record ofProgram covers with ⟨record, member, named⟩
  rcases surveyed.accounted.record_of_name ofProgram member named with ⟨fields, made, isRecord, _⟩
  rcases Dispatch.Catalog.select_of_recordsOf made isStatic with
    ⟨resolved, declared, described, resolves, ofFields, describes, selected⟩
  rw [Dispatch.resolveType_of_unreplaced surveyed.unreplaced,
    surveyed.apart.typeDef_of_mem ofProgram] at resolves
  cases resolves
  refine ⟨declared, described, ofFields, (Result.mapM_eq_ok describes).imp ?_, ?_⟩
  · intro field entry shown
    rcases Result.bind_eq_ok.mp shown with ⟨name, typed, assembled⟩
    cases assembled
    exact ⟨typed, rfl⟩
  · rw [records, ← named, surveyed.orderly.indexed.filter_name member, named, isRecord, selected]

/-! ## Tables -/

theorem hasTable_iff (surveyed : Surveyed linkage session)
    (tables : compilation.tables = session.registry.compile pointerSize) :
    compilation.HasTable type ↔ type.token ∈ session.wholeTypes :=
  (surveyed.accounted.hasTable_iff tables).trans surveyed.mem_registry_iff

theorem leadsToTable (surveyed : Surveyed linkage session)
    (tables : compilation.tables = session.registry.compile pointerSize) {token : Token}
    (held : session.Holds linkage.program token) :
    LeadsToTable linkage.program compilation token := by
  rcases held with ⟨inner, canonical, whole⟩
  rcases Program.plain_of_innermostWith canonical with ⟨definition, declared, _⟩
  refine ⟨inner, definition, canonical, declared, (surveyed.hasTable_iff tables).mpr ?_⟩
  rw [(Program.token_of_typeDef declared).2]
  exact whole

/-! ## What types lead to -/

theorem isArray_of_whole (surveyed : Surveyed linkage session)
    (ofProgram : type ∈ linkage.program.types) (whole : type.token ∈ session.wholeTypes) :
    type.isArray = false := by
  rcases Program.plain_of_innermostWith (surveyed.rounded.wholes _ whole).canonical with
    ⟨again, declared, noElement⟩
  rw [surveyed.apart.typeDef_of_mem ofProgram] at declared
  cases declared
  unfold TypeDef.isArray
  rw [noElement]
  rfl

theorem parents_lead (surveyed : Surveyed linkage session)
    (tables : compilation.tables = session.registry.compile pointerSize)
    (ofProgram : type ∈ linkage.program.types) (whole : type.token ∈ session.wholeTypes)
    {parent : Token} (isParent : parent ∈ type.base.toList ++ type.interfaces) :
    exists definition, linkage.program.typeDef parent = .ok definition ∧
      compilation.HasTable definition := by
  have parentWhole := surveyed.rounded.mem_parent surveyed.unreplaced surveyed.plain whole
    (surveyed.apart.typeDef_of_mem ofProgram) isParent
  rcases Program.plain_of_innermostWith (surveyed.rounded.wholes _ parentWhole).canonical with
    ⟨definition, declared, _⟩
  refine ⟨definition, declared, (surveyed.hasTable_iff tables).mpr ?_⟩
  rw [(Program.token_of_typeDef declared).2]
  exact parentWhole

theorem fields_lead (surveyed : Surveyed linkage session)
    (tables : compilation.tables = session.registry.compile pointerSize)
    (ofProgram : type ∈ linkage.program.types) (whole : type.token ∈ session.wholeTypes) :
    exists fields, linkage.program.declaredFields type = .ok fields ∧
      forall field, field ∈ fields -> LeadsToTable linkage.program compilation field.fieldType := by
  rcases (surveyed.rounded.wholes _ whole).led with ⟨next, listed, held⟩
  rcases neighbours_eq_ok surveyed.unreplaced listed with ⟨again, fields, declared, ofFields, isNext⟩
  rw [surveyed.apart.typeDef_of_mem ofProgram] at declared
  cases declared
  refine ⟨fields, ofFields, ?_⟩
  intro field member
  refine surveyed.leadsToTable tables (held field.fieldType ?_)
  rw [isNext]
  exact List.mem_append_right _ (List.mem_map_of_mem member)

theorem staticFields_lead (surveyed : Surveyed linkage session)
    (tables : compilation.tables = session.registry.compile pointerSize)
    (ofProgram : type ∈ linkage.program.types) (partly : type.token ∈ session.staticTypes) :
    exists fields, linkage.program.declaredFields type = .ok fields ∧
      forall field, field ∈ fields -> field.isStatic = true ->
        LeadsToTable linkage.program compilation field.fieldType := by
  rcases (surveyed.rounded.statics _ partly).led with ⟨resolved, fields, resolves, ofFields, held⟩
  rw [Dispatch.resolveType_of_unreplaced surveyed.unreplaced,
    surveyed.apart.typeDef_of_mem ofProgram] at resolves
  cases resolves
  refine ⟨fields, ofFields, ?_⟩
  intro field member isStatic
  exact surveyed.leadsToTable tables (held field (List.mem_filter.mpr ⟨member, isStatic⟩))

/-- The types that a session took in are those of the compilation. -/
theorem typeClosed (surveyed : Surveyed linkage session)
    (records : compilation.records = session.records)
    (tables : compilation.tables = session.registry.compile pointerSize) :
    TypeClosed linkage.program compilation := by
  refine ⟨?_, ?_, ?_, ?_, ?_, ?_, ?_, ?_⟩
  · intro table member
    rcases surveyed.accounted.typeOf_table tables member with ⟨type, ofProgram, sameToken, _⟩
    exact ⟨type, ofProgram, sameToken⟩
  · intro type ofProgram
    rw [surveyed.hasTable_iff tables, surveyed.accounted.hasRecord_iff ofProgram records]
    constructor
    · exact fun whole => ⟨surveyed.isArray_of_whole ofProgram whole, Or.inl whole⟩
    · rintro ⟨_, whole | ⟨impossible, _⟩⟩
      · exact whole
      · cases impossible
  · intro type ofProgram hasTable isStatic
    exact surveyed.recordsFields ofProgram records
      (Or.inl ((surveyed.hasTable_iff tables).mp hasTable))
  · intro type ofProgram hasTable parent isParent
    exact surveyed.parents_lead tables ofProgram ((surveyed.hasTable_iff tables).mp hasTable)
      isParent
  · intro type ofProgram hasTable
    exact surveyed.fields_lead tables ofProgram ((surveyed.hasTable_iff tables).mp hasTable)
  · intro type ofProgram hasRecord
    rcases (surveyed.accounted.hasRecord_iff ofProgram records).mp hasRecord with whole | ⟨_, partly⟩
    · rcases surveyed.fields_lead tables ofProgram whole with ⟨fields, ofFields, lead⟩
      exact ⟨fields, ofFields, fun field member _ => lead field member⟩
    · exact surveyed.staticFields_lead tables ofProgram partly
  · intro type ofProgram table member sameToken
    rcases surveyed.accounted.typeOf_table tables member with ⟨own, ownOfProgram, ownToken, ownName⟩
    have same := surveyed.apart.tokens own type ownOfProgram ofProgram (ownToken.trans sameToken)
    have isName : type.recordName false = table.name := by
      rw [← ownName, same]
      rfl
    rw [isName]
    exact surveyed.accounted.table?_of_mem tables member
  · intro name unused
    refine (Accounted.table?_eq_none_iff tables).mpr ?_
    intro table member isNamed
    rcases surveyed.accounted.typeOf_table tables member with ⟨own, ofProgram, ownToken, ownName⟩
    exact unused own ofProgram ⟨table, member, ownToken.symm⟩ (ownName.trans isNamed)

end Compiled

end Surveyed
end Session

/-- Without replacements, the types of a compilation are closed, and their tables
and records are complete. -/
theorem compile_typeClosed {steps : List DraftStep} {program : Program} {settings : Settings}
    {options : Options} {job : Job} {compilation : Compilation}
    (built : (Draft.ofSteps steps).build = .ok program) (plain : program.PlainParents)
    (unmarked : program.Unmarked) (unreplaced : settings.substitutions = [])
    (prepared : Job.Prepared program settings options job)
    (compiled : job.compile = .ok compilation) : TypeClosed program compilation := by
  rcases prepared.known with ⟨same, known⟩
  have noReplacement : job.linkage.substitutions = [] := by
    rcases Result.bind_eq_ok.mp prepared.linkage with ⟨substitutions, folded, binding⟩
    rcases Result.bind_eq_ok.mp binding with ⟨natives, _, assembled⟩
    rw [unreplaced] at folded
    cases folded
    rw [← Except.ok.inj assembled]
  rcases Job.compile_eq_ok compiled with ⟨session, closed, isCompilation⟩
  rw [← same] at built plain unmarked known ⊢
  have settled := Session.close_settled known closed
  have surveyed := settled.surveyed
    (Draft.wellFormed_of_build (Draft.listsOwn_ofSteps steps) built)
    (Draft.tellsApart_of_build built) unmarked plain noReplacement
  exact surveyed.typeClosed (congrArg Compilation.records isCompilation)
    (congrArg Compilation.tables isCompilation)

/-- A keeper has a static log and takes dogs.  A dog is an animal that speaks, and
it has a litter of dogs. -/
def sampleKennelSteps : List DraftStep := [
  .type none "Demo" "Keeper" TypeAttributes.exported none,
  .type none "Demo" "Speaking" TypeAttributes.interface none,
  .type none "Demo" "Animal" TypeAttributes.exported none,
  .type none "Demo" "Dog" TypeAttributes.exported (some ⟨0x02000003⟩),
  .arrayType none ⟨0x02000004⟩ none,
  .type none "Demo" "Log" TypeAttributes.exported none,
  .interface ⟨0x02000004⟩ ⟨0x02000002⟩,
  .field none ⟨0x02000001⟩ "log" ⟨0x02000006⟩ true,
  .field none ⟨0x02000001⟩ "spare" ⟨0x02000001⟩ false,
  .field none ⟨0x02000004⟩ "litter" ⟨0x02000005⟩ false,
  .field none ⟨0x02000004⟩ "births" ⟨0x02000006⟩ true,
  .method none ⟨0x02000001⟩ "Feed" ⟨6, 0x0010, 0⟩ none [⟨⟨0x02000005⟩, ⟨0⟩⟩]
    (some ⟨8, true, [0x2A]⟩)]

def sampleKennel : Program :=
  (Draft.ofSteps sampleKennelSteps).build.toOption.getD ⟨[], [], [], [], []⟩

theorem build_sampleKennel : (Draft.ofSteps sampleKennelSteps).build = .ok sampleKennel :=
  Result.eq_ok_getD (by decide +kernel) _

def sampleKennelJob : Job :=
  (do
    let job ← Job.new sampleKennel {} {}
    job.addEntry ⟨0x06000001⟩ : Result Job).toOption.getD ⟨⟨sampleKennel, [], []⟩, {}, []⟩

theorem sampleKennelJob_prepared : Job.Prepared sampleKennel {} {} sampleKennelJob := by
  have made : (do
      let job ← Job.new sampleKennel {} {}
      job.addEntry ⟨0x06000001⟩ : Result Job) = .ok sampleKennelJob :=
    Result.eq_ok_getD (by decide +kernel) _
  rcases Result.bind_eq_ok.mp made with ⟨job, isNew, added⟩
  exact .addEntry (.new isNew) added

def sampleKennelCompilation : Compilation :=
  sampleKennelJob.compile.toOption.getD ⟨{}, []⟩

theorem compile_sampleKennelJob : sampleKennelJob.compile = .ok sampleKennelCompilation :=
  Result.eq_ok_getD (by decide +kernel) _

theorem sampleKennel_plainParents : sampleKennel.PlainParents := by
  unfold Program.PlainParents
  decide +kernel

theorem sampleKennel_unmarked : sampleKennel.Unmarked :=
  Program.unmarked_of_getLast? (by decide +kernel)

/-- The keeper is used through a static method only, so it has no table and its
instance field is in no record. -/
theorem sampleKennelCompilation_typeClosed :
    sampleKennelCompilation.tables.map (fun table => (table.name, table.type)) =
      [("Demo.Animal", ⟨0x02000003⟩), ("Demo.Dog", ⟨0x02000004⟩), ("Demo.Log", ⟨0x02000006⟩),
        ("Demo.Speaking", ⟨0x02000002⟩)] ∧
    sampleKennelCompilation.records.types.filter (fun record => !record.fields.isEmpty) =
      [⟨"Demo.Keeper_static", true, [("Demo.Log", "log")]⟩,
        ⟨"Demo.Dog_static", true, [("Demo.Log", "births")]⟩,
        ⟨"Demo.Dog", false, [("Demo.Dog[]", "litter")]⟩] ∧
    TypeClosed sampleKennel sampleKennelCompilation :=
  ⟨by decide +kernel, by decide +kernel,
    compile_typeClosed build_sampleKennel sampleKennel_plainParents sampleKennel_unmarked rfl
      sampleKennelJob_prepared compile_sampleKennelJob⟩

end Compilation
end CilGraph
