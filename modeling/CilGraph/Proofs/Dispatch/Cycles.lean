import CilGraph.Proofs.Dispatch.Blameless
import CilGraph.Proofs.Dispatch.Workshop
import CilGraph.Proofs.Program.Walks
import Mathlib.Logic.Relation

namespace CilGraph
namespace Dispatch

/-!
# Order and circles

The layout of a type depends on the layouts of its base type and of its
interfaces.  In a registry every type stands behind all that it depends on, so a
registered type does not lead to a circle of dependencies.  Conversely a type is
said to inherit from itself only if it leads to a circle: each type that waits
depends on the next, and the last one depends on one that waits.

All this survives failures.  A registry also grows while an action fails, and
whatever entering one layout maintains an action maintains, whether it succeeds
or not.
-/

/-! ## Whole catalogues -/

namespace Catalog

/-- With a type its base type is there. -/
def Whole (program : Program) (catalog : Catalog) : Prop :=
  forall token type base, catalog.contains token = true -> program.typeDef token = .ok type ->
    type.base = some base -> catalog.contains base = true

/-- With a type its base type is there, unless that is a given type. -/
def WholeBut (program : Program) (missing : Token) (catalog : Catalog) : Prop :=
  forall token type base, catalog.contains token = true -> program.typeDef token = .ok type ->
    type.base = some base -> catalog.contains base = true ∨ base = missing

section Whole

variable {linkage : Linkage} {catalog next : Catalog} {token : Token} {chain : List TypeDef}

theorem contains_cons (type other : Token) (fields : FieldRecords)
    (entries : List (Token × FieldRecords)) :
    (⟨(type, fields) :: entries⟩ : Catalog).contains other = true ↔
      other = type ∨ (⟨entries⟩ : Catalog).contains other = true := by
  unfold contains
  rw [get?_cons]
  by_cases same : other = type
  · simp [same]
  · simp [same]

theorem WholeBut.whole (but : WholeBut linkage.program token catalog)
    (present : catalog.contains token = true) : Whole linkage.program catalog := by
  intro other type base isThere declared hasBase
  rcases but other type base isThere declared hasBase with covered | isGap
  · exact covered
  · rw [isGap]
    exact present

/-- Entering the missing type leaves at most its own base type missing. -/
theorem WholeBut.cons {type : TypeDef} (but : WholeBut linkage.program token catalog)
    (found : linkage.program.typeDef token = .ok type) (fields : FieldRecords)
    {other base : Token} {definition : TypeDef}
    (isThere : (⟨(token, fields) :: catalog.entries⟩ : Catalog).contains other = true)
    (declared : linkage.program.typeDef other = .ok definition)
    (hasBase : definition.base = some base) :
    (⟨(token, fields) :: catalog.entries⟩ : Catalog).contains base = true ∨
      type.base = some base := by
  rcases (contains_cons token other fields catalog.entries).mp isThere with isNew | earlier
  · rw [isNew, found] at declared
    cases declared
    exact Or.inr hasBase
  · refine Or.inl ((contains_cons token base fields catalog.entries).mpr ?_)
    exact (but other definition base earlier declared hasBase).symm

/-- Entering a lineage closes the gap that its first type may have left. -/
theorem whole_addEach (lineage : Program.Lineage linkage.program token chain)
    (but : WholeBut linkage.program token catalog)
    (added : addEach linkage catalog chain = .ok next) : Whole linkage.program next := by
  induction lineage generalizing catalog with
  | @root token type found noBase =>
      unfold addEach at added
      rw [(Program.token_of_typeDef found).2] at added
      split at added
      · rename_i present
        cases added
        exact but.whole present
      · rcases Result.bind_eq_ok.mp added with ⟨fields, _, continued⟩
        cases continued
        intro other definition base isThere declared hasBase
        rcases but.cons found fields isThere declared hasBase with covered | isBase
        · exact covered
        · rw [noBase] at isBase
          cases isBase
  | @derived token parent type ancestors found isParent above inductionHypothesis =>
      unfold addEach at added
      rw [(Program.token_of_typeDef found).2] at added
      split at added
      · rename_i present
        cases added
        exact but.whole present
      · rcases Result.bind_eq_ok.mp added with ⟨fields, _, continued⟩
        -- The gap moves up to the base type, which is entered next.
        refine inductionHypothesis ?_ continued
        intro other definition base isThere declared hasBase
        rcases but.cons found fields isThere declared hasBase with covered | isBase
        · exact Or.inl covered
        · rw [isParent] at isBase
          exact Or.inr (Option.some.inj isBase).symm

theorem Whole.add {type : TypeDef} (whole : Whole linkage.program catalog)
    (wellFormed : linkage.program.WellFormed) (declared : linkage.program.typeDef token = .ok type)
    (added : catalog.add linkage token = .ok next) : Whole linkage.program next := by
  rcases add_eq_ok wellFormed declared added with ⟨_, same⟩ | ⟨chain, lineage, entered⟩
  · rw [same]
    exact whole
  · exact whole_addEach lineage (fun other type base present found hasBase =>
      Or.inl (whole other type base present found hasBase)) entered

/-- The records of a whole lineage are there with those of its first type. -/
theorem Whole.lineage (whole : Whole linkage.program catalog)
    (lineage : Program.Lineage linkage.program token chain)
    (present : catalog.contains token = true) :
    forall level, level ∈ chain -> exists fields, catalog.get? level.token = some fields := by
  induction lineage with
  | @root token type found _ =>
      intro level member
      rw [List.mem_singleton.mp member, (Program.token_of_typeDef found).2]
      exact contains_iff.mp present
  | @derived token parent type ancestors found isParent above inductionHypothesis =>
      intro level member
      rcases List.mem_cons.mp member with isFirst | among
      · rw [isFirst, (Program.token_of_typeDef found).2]
        exact contains_iff.mp present
      · exact inductionHypothesis (whole token type parent present found isParent) level among

end Whole

end Catalog

namespace Registry

open Stateful

/-! ## What survives failures -/

/-- An action keeps a property of registries, whether it succeeds or not. -/
def Maintains {Value : Type} (kept : Registry -> Prop) (action : Action Value) : Prop :=
  forall registry, kept registry -> kept (action registry).2

theorem maintains_iff_holds {Value : Type} {kept : Registry -> Prop} {action : Action Value} :
    Maintains kept action ↔
      Holds (.keeping kept) (fun _ => True) action (fun _ _ => True) :=
  ⟨fun maintains registry _ => ⟨maintains registry, fun _ _ => trivial, fun _ _ => trivial⟩,
    fun holds registry => (holds registry trivial).1⟩

section Registering

variable {kept : Registry -> Prop} {linkage : Linkage}

/-- Once a type is registered, reading its table changes nothing. -/
theorem maintains_obtain (linkage : Linkage) (token : Token) {adds : Action Unit}
    (maintains : Maintains kept adds) :
    Maintains kept (do
      adds
      tableOf linkage token) := by
  have reads : Holds (.keeping kept) (fun _ => True) (tableOf linkage token) _ :=
    holds_tableOf (fun _ _ _ _ => trivial) (fun _ _ _ _ _ => trivial)
  exact maintains_iff_holds.mpr (holds_bind (maintains_iff_holds.mp maintains)
    (fun _ => reads.weaken (fun _ _ _ => trivial)))

theorem maintains_makeLayout {obtain : Token -> Action Table} {token : Token}
    (obtains : forall other, Maintains kept (obtain other)) :
    Maintains kept (makeLayout linkage obtain token) :=
  maintains_iff_holds.mpr (holds_makeLayout_of_kept
    (fun other _ => maintains_iff_holds.mp (obtains other)) (fun _ _ _ _ => trivial))

/-- What entering a layout maintains, registering a type maintains. -/
theorem maintains_addWith
    (enters : forall type definition layout, linkage.program.typeDef type = .ok definition ->
      Maintains kept (enter linkage type layout)) (fuel : Nat) (waiting : List Token)
    (token : Token) : Maintains kept (addWith linkage fuel waiting token) := by
  induction fuel generalizing waiting token with
  | zero => exact maintains_iff_holds.mpr (holds_cyclic (fun _ _ _ => trivial))
  | succ fuel inductionHypothesis =>
      refine maintains_iff_holds.mpr (holds_addWith (fun _ _ _ _ => trivial)
        (fun _ _ _ _ _ _ => trivial) (fun _ _ _ _ _ _ => trivial) (fun type canonical _ => ?_))
      rcases Program.plain_of_innermostWith canonical with ⟨definition, declared, _⟩
      have makes : Maintains kept (makeLayout linkage _ type) :=
        maintains_makeLayout (fun other =>
          maintains_obtain linkage other (inductionHypothesis (type :: waiting) other))
      exact holds_bind ((maintains_iff_holds.mp makes).strengthen (fun _ _ => trivial))
        (fun layout => maintains_iff_holds.mp (enters type definition layout declared))

end Registering

/-- All registered types are in the catalogue, and with a type its base type. -/
structure Recorded (linkage : Linkage) (registry : Registry) : Prop where
  registered : forall type, type ∈ registry.types -> registry.catalog.contains type = true
  whole : registry.catalog.Whole linkage.program

section Recorded

variable {linkage : Linkage} {registry : Registry}

theorem recorded_empty (linkage : Linkage) : Recorded linkage {} :=
  ⟨fun _ member => absurd member List.not_mem_nil, fun _ _ _ impossible => nomatch impossible⟩

theorem maintains_enter (wellFormed : linkage.program.WellFormed) {type : Token}
    {definition : TypeDef} (declared : linkage.program.typeDef type = .ok definition)
    (layout : Layout) : Maintains (Recorded linkage) (enter linkage type layout) := by
  intro registry recorded
  rw [enter_apply]
  cases entered : registry.catalog.add linkage type with
  | error error => exact recorded
  | ok catalog =>
      refine ⟨?_, recorded.whole.add wellFormed declared entered⟩
      intro other registered
      refine Catalog.contains_iff.mpr ?_
      rcases List.mem_append.mp ((types_enter registry type layout catalog) ▸ registered) with
        earlier | isNew
      · rcases Catalog.contains_iff.mp (recorded.registered other earlier) with ⟨fields, found⟩
        exact ⟨fields, Catalog.extends_add entered other fields found⟩
      · rw [List.mem_singleton.mp isNew]
        exact Catalog.get?_add wellFormed declared entered

theorem maintains_add (wellFormed : linkage.program.WellFormed) (token : Token) :
    Maintains (Recorded linkage) (Registry.add linkage token) :=
  maintains_addWith (fun _ _ layout declared => maintains_enter wellFormed declared layout) _ []
    token

theorem maintains_table (wellFormed : linkage.program.WellFormed) (token : Token) :
    Maintains (Recorded linkage) (Registry.table linkage token) :=
  maintains_obtain linkage token (maintains_add wellFormed token)

end Recorded

/-! ## Dependencies -/

/-- The layout of one type is made from the layout of the other. -/
def Depends (linkage : Linkage) (token type : Token) : Prop :=
  exists other, Needs linkage token other ∧ linkage.program.innermost other = .ok type

/-- A type leads to a circle of dependencies. -/
def Circular (linkage : Linkage) (token : Token) : Prop :=
  exists start type, linkage.program.innermost token = .ok start ∧
    Relation.ReflTransGen (Depends linkage) start type ∧
    Relation.TransGen (Depends linkage) type type

section Order

variable {linkage : Linkage} {registry : Registry}

/-- Whatever a registered type depends on stands before it. -/
theorem Grows.mem_front (grown : Grows linkage {} registry) {front back : List Token}
    {type other : Token} (split : registry.types = front ++ type :: back)
    (depends : Depends linkage type other) : other ∈ front := by
  induction grown generalizing back with
  | refl => exact absurd split (by simp [types])
  | catalog catalog _ inductionHypothesis => exact inductionHypothesis split
  | @enter earlier entered layout catalog _ fresh made inductionHypothesis =>
      rw [types_enter] at split
      -- A type is entered at the end, so it is the one in question or stands behind it.
      rcases List.eq_nil_or_concat back with isLast | ⟨between, last, isBack⟩
      · rw [isLast] at split
        rcases List.append_inj' split rfl with ⟨isFront, isType⟩
        cases isType
        rcases depends with ⟨needed, needs, canonical⟩
        rw [← isFront]
        exact made.mem_types needs canonical
      · rw [isBack, List.concat_eq_append, ← List.cons_append, ← List.append_assoc] at split
        exact inductionHypothesis (List.append_inj' split rfl).1

/-- Along a dependency the position goes down. -/
theorem Grows.idxOf_lt (grown : Grows linkage {} registry) {type other : Token}
    (registered : type ∈ registry.types) (depends : Depends linkage type other) :
    other ∈ registry.types ∧ registry.types.idxOf other < registry.types.idxOf type := by
  rcases List.append_of_mem registered with ⟨front, back, split⟩
  have before := grown.mem_front split depends
  have distinct := grown.nodup_types List.nodup_nil
  rw [split] at distinct ⊢
  have isFirst : type ∉ front := by
    intro earlier
    exact (List.disjoint_of_nodup_append distinct) earlier List.mem_cons_self
  refine ⟨List.mem_append_left _ before, ?_⟩
  rw [List.idxOf_append_of_mem before, List.idxOf_append_of_notMem isFirst]
  exact Nat.lt_of_lt_of_le (List.idxOf_lt_length_of_mem before) (Nat.le_add_right _ _)

theorem Grows.idxOf_lt_of_transGen (grown : Grows linkage {} registry) {type other : Token}
    (registered : type ∈ registry.types)
    (leads : Relation.TransGen (Depends linkage) type other) :
    other ∈ registry.types ∧ registry.types.idxOf other < registry.types.idxOf type := by
  induction leads with
  | single depends => exact grown.idxOf_lt registered depends
  | tail _ depends inductionHypothesis =>
      rcases inductionHypothesis with ⟨between, lower⟩
      rcases grown.idxOf_lt between depends with ⟨there, lowest⟩
      exact ⟨there, Nat.lt_trans lowest lower⟩

/-- A registered type does not lead to a circle. -/
theorem Grows.not_circular (grown : Grows linkage {} registry) {token start : Token}
    (canonical : linkage.program.innermost token = .ok start)
    (registered : start ∈ registry.types) : ¬ Circular linkage token := by
  rintro ⟨first, type, sameCanonical, leads, circle⟩
  rw [canonical] at sameCanonical
  cases sameCanonical
  have isThere : type ∈ registry.types := by
    rcases Relation.reflTransGen_iff_eq_or_transGen.mp leads with same | further
    · rw [same]
      exact registered
    · exact (grown.idxOf_lt_of_transGen registered further).1
  exact Nat.lt_irrefl _ (grown.idxOf_lt_of_transGen isThere circle).2

theorem not_circular_of_add (grown : Grows linkage {} registry) {token : Token}
    (added : (Registry.add linkage token registry).1 = .ok ()) : ¬ Circular linkage token := by
  rcases ensures_add linkage token registry trivial with ⟨grows, reached⟩
  rcases reached () added with ⟨start, layout, canonical, found⟩
  exact (grown.trans grows).not_circular canonical (mem_types_iff.mpr ⟨layout, found⟩)

end Order

/-! ## Circles -/

/-- An action finds fault with the configuration for one reason only. -/
def Blames {Value : Type} (reason : Prop) (action : Action Value) : Prop :=
  forall registry fault, (action registry).1 = .error (.configuration fault) -> reason

section Blame

variable {Value : Type} {reason : Prop} {linkage : Linkage}

theorem blames_iff_holds {action : Action Value} :
    Blames reason action ↔
      Holds (.failing (fun error _ => forall fault, error = .configuration fault -> reason))
        (fun _ => True) action (fun _ _ => True) := by
  constructor
  · intro blames registry _
    refine ⟨trivial, fun _ _ => trivial, ?_⟩
    rintro error failed fault rfl
    exact blames registry fault failed
  · exact fun holds registry fault failed => (holds registry trivial).2.2 _ failed fault rfl

/-- An error of a result that finds no fault. -/
theorem reason_of_blameless {result : Result Value} {error : Error} {fault : ConfigurationFault}
    (blameless : result.Blameless) (failed : result = .error error)
    (isFault : error = .configuration fault) : reason := by
  rw [isFault] at failed
  exact absurd failed (blameless fault)

/-- Making a layout finds no fault, unless getting a table does. -/
theorem reason_of_hinders {tabled : Token -> Table -> Prop} {token : Token} {error : Error}
    {fault : ConfigurationFault} (hinders : Hinders linkage tabled token error)
    (isFault : error = .configuration fault) : reason := by
  cases hinders with
  | type undeclared =>
      exact reason_of_blameless (Program.blameless_typeDef _) undeclared isFault
  | resolved unresolved =>
      exact reason_of_blameless (Program.blameless_typeDef _) unresolved isFault
  | interfaces _ unlisted =>
      exact reason_of_blameless (Program.blameless_interfaces _) unlisted isFault
  | implementing _ _ _ _ unimplemented =>
      exact reason_of_blameless (Layout.blameless_implementInterface _ _ _) unimplemented isFault
  | sorting _ unsorted =>
      exact reason_of_blameless (Layout.blameless_addMethods _) unsorted isFault

/-- Once a type is registered, reading its table finds no fault. -/
theorem blames_obtain (linkage : Linkage) (token : Token) {adds : Action Unit}
    (blames : Blames reason adds) :
    Blames reason (do
      adds
      tableOf linkage token) := by
  refine blames_iff_holds.mpr (holds_bind (blames_iff_holds.mp blames)
    (fun _ => (holds_tableOf ?_ ?_).weaken (fun _ _ _ => trivial)))
  · exact fun error registry astray _ fault isFault =>
      reason_of_blameless (Program.blameless_innermost _) astray isFault
  · exact fun type registry _ _ _ fault impossible => nomatch impossible

/-- Making a layout is to blame only for what it needs. -/
theorem blames_makeLayout {obtain : Token -> Action Table} {token : Token}
    (obtains : forall other, Needs linkage token other -> Blames reason (obtain other)) :
    Blames reason (makeLayout linkage obtain token) :=
  blames_iff_holds.mpr (holds_makeLayout_of_kept
    (fun other needs => blames_iff_holds.mp (obtains other needs))
    (fun _ _ hinders _ _ isFault => reason_of_hinders hinders isFault))

/-- A type leads to a circle or to one of the types that wait for it. -/
def Implicated (linkage : Linkage) (waiting : List Token) (token : Token) : Prop :=
  exists type, linkage.program.innermost token = .ok type ∧
    ((exists other, other ∈ waiting ∧ Relation.ReflTransGen (Depends linkage) type other) ∨
      exists other, Relation.ReflTransGen (Depends linkage) type other ∧
        Relation.TransGen (Depends linkage) other other)

theorem Implicated.of_needs {waiting : List Token} {token type other : Token}
    (canonical : linkage.program.innermost token = .ok type) (needs : Needs linkage type other)
    (implicated : Implicated linkage (type :: waiting) other) :
    Implicated linkage waiting token := by
  rcases implicated with ⟨inner, innerCanonical, reason⟩
  have depends : Depends linkage type inner := ⟨other, needs, innerCanonical⟩
  refine ⟨type, canonical, ?_⟩
  rcases reason with ⟨awaited, among, leads⟩ | ⟨circular, leads, circle⟩
  · rcases List.mem_cons.mp among with isType | waits
    · rw [isType] at leads
      exact Or.inr ⟨type, .refl, Relation.TransGen.head' depends leads⟩
    · exact Or.inl ⟨awaited, waits, .head depends leads⟩
  · exact Or.inr ⟨circular, .head depends leads, circle⟩

/-- Fault is found only with a type that leads to a circle, or to a type that
waits for it.  The bound is not reached, since the types that wait differ. -/
theorem blames_addWith {fuel : Nat} {waiting : List Token} (token : Token)
    (distinct : waiting.Nodup) (among : waiting ⊆ linkage.program.types.map TypeDef.token)
    (enough : linkage.program.types.length < fuel + waiting.length) :
    Blames (Implicated linkage waiting token) (addWith linkage fuel waiting token) := by
  induction fuel generalizing waiting token with
  | zero =>
      have bound := Workshop.length_le_types distinct among
      omega
  | succ fuel inductionHypothesis =>
      refine blames_iff_holds.mpr (holds_addWith ?astray (fun _ _ _ _ _ _ => trivial) ?circular
        ?making)
      case astray =>
        exact fun error registry astray _ fault isFault =>
          reason_of_blameless (Program.blameless_innermost _) astray isFault
      case circular =>
        exact fun type error registry canonical waits _ fault isFault =>
          ⟨type, canonical, Or.inl ⟨type, waits, .refl⟩⟩
      case making =>
        intro type canonical idle
        rcases Program.plain_of_innermostWith canonical with ⟨_, declared, _⟩
        have enoughThen : linkage.program.types.length < fuel + (type :: waiting).length := by
          rw [List.length_cons]
          omega
        have adds := fun other => inductionHypothesis other (List.nodup_cons.mpr ⟨idle, distinct⟩)
          (List.cons_subset.mpr ⟨Program.mem_tokens_of_typeDef declared, among⟩) enoughThen
        have makes : Blames (Implicated linkage waiting token) (makeLayout linkage _ type) :=
          blames_makeLayout (fun other needs => blames_obtain linkage other
            (fun registry fault failed =>
              (adds other registry fault failed).of_needs canonical needs))
        refine holds_bind ((blames_iff_holds.mp makes).strengthen (fun _ _ => trivial))
          (fun layout => ?_)
        refine holds_enter ?_ (fun _ _ _ _ => ⟨trivial, trivial⟩)
        exact fun error registry unentered _ fault isFault =>
          reason_of_blameless (Catalog.blameless_add _ _) unentered isFault

theorem blames_add (token : Token) : Blames (Circular linkage token) (add linkage token) := by
  intro registry fault failed
  rcases blames_addWith token List.nodup_nil (List.nil_subset _) (Nat.lt_succ_self _) registry
    fault failed with ⟨start, canonical, reason⟩
  rcases reason with ⟨_, impossible, _⟩ | ⟨type, leads, circle⟩
  · cases impossible
  · exact ⟨start, type, canonical, leads, circle⟩

theorem blames_table (token : Token) :
    Blames (Circular linkage token) (Registry.table linkage token) :=
  blames_obtain linkage token (blames_add token)

end Blame

/-! ## Calls -/

/-- What is asked of a registry from outside. -/
inductive Call where
  | add (token : Token)
  | table (token : Token)

/-- The registry after a call, which may have failed. -/
def call (linkage : Linkage) (registry : Registry) : Call -> Registry
  | .add token => (Registry.add linkage token registry).2
  | .table token => (Registry.table linkage token registry).2

/-- The registry after calls. -/
def after (linkage : Linkage) (calls : List Call) : Registry :=
  calls.foldl (call linkage) {}

/-- A registry lists each type once, behind all that it depends on, and has the
records of its whole lineage. -/
structure InOrder (linkage : Linkage) (registry : Registry) : Prop where
  distinct : registry.types.Nodup
  listed : forall type, type ∈ registry.types ↔
    exists layout, registry.layout? type = some layout
  ordered : forall front type back other, registry.types = front ++ type :: back ->
    Depends linkage type other -> other ∈ front
  recorded : forall type, type ∈ registry.types -> exists chain,
    Program.Lineage linkage.program type chain ∧
      forall level, level ∈ chain -> exists fields,
        registry.catalog.get? level.token = some fields

section Calls

variable {linkage : Linkage} {registry : Registry}

theorem grows_call (registry : Registry) (request : Call) :
    Grows linkage registry (call linkage registry request) := by
  cases request with
  | add token => exact grows_add linkage token registry
  | table token => exact (ensures_table linkage token registry trivial).1

theorem recorded_call (wellFormed : linkage.program.WellFormed)
    (recorded : Recorded linkage registry) (request : Call) :
    Recorded linkage (call linkage registry request) := by
  cases request with
  | add token => exact maintains_add wellFormed token registry recorded
  | table token => exact maintains_table wellFormed token registry recorded

theorem after_induction {holds : Registry -> Prop} (start : holds {})
    (step : forall registry request, holds registry -> holds (call linkage registry request))
    (calls : List Call) : holds (after linkage calls) := by
  unfold after
  generalize ({} : Registry) = registry at start
  induction calls generalizing registry with
  | nil => exact start
  | cons request calls inductionHypothesis =>
      exact inductionHypothesis _ (step registry request start)

theorem inOrder_of_grows (grown : Grows linkage {} registry)
    (wellFormed : linkage.program.WellFormed) (recorded : Recorded linkage registry) :
    InOrder linkage registry where
  distinct := grown.nodup_types List.nodup_nil
  listed := fun _ => mem_types_iff
  ordered := fun _ _ _ _ split depends => grown.mem_front split depends
  recorded := by
    intro type registered
    rcases mem_types_iff.mp registered with ⟨layout, found⟩
    rcases grown.made found with ⟨definition, _, _, _, _, origin⟩
    rcases wellFormed.lineages type definition origin.declared with ⟨chain, lineage⟩
    exact ⟨chain, lineage, recorded.whole.lineage lineage (recorded.registered type registered)⟩

end Calls

end Registry

namespace Workshop

/-- The workshop after a call. -/
def call (linkage : Linkage) (beyond : Token -> Task Unit) (depth : Nat) (workshop : Workshop) :
    Registry.Call -> Workshop
  | .add token => (addWith linkage beyond depth token workshop).2
  | .table token => (table linkage beyond depth token workshop).2

/-- The workshop after calls. -/
def after (linkage : Linkage) (beyond : Token -> Task Unit) (depth : Nat)
    (calls : List Registry.Call) : Workshop :=
  calls.foldl (call linkage beyond depth) {}

/-- After any calls nothing is in progress. -/
theorem after_eq {linkage : Linkage} {beyond : Token -> Task Unit} {depth : Nat}
    (deep : linkage.program.types.length < depth) (calls : List Registry.Call) :
    after linkage beyond depth calls = ⟨Registry.after linkage calls, []⟩ := by
  have step : forall registry request, call linkage beyond depth ⟨registry, []⟩ request =
      ⟨Registry.call linkage registry request, []⟩ := by
    intro registry request
    cases request with
    | add token => exact congrArg Prod.snd (addWith_eq_add deep token registry)
    | table token => exact congrArg Prod.snd (table_eq_table deep token registry)
  unfold after Registry.after
  change calls.foldl (call linkage beyond depth) ⟨{}, []⟩ = _
  generalize ({} : Registry) = registry
  induction calls generalizing registry with
  | nil => rfl
  | cons request calls inductionHypothesis =>
      rw [List.foldl_cons, List.foldl_cons, step]
      exact inductionHypothesis _

end Workshop

namespace Registry

/-- Calls end, whatever was called before and whether it failed: no walk along
definitions is cut short, and calls nested deeper than there are types are never
made.  Then nothing is in progress and the registry is in order.  A type that
leads to a circle is not registered, and only such a type is said to inherit
from itself. -/
theorem after_inOrder {steps : List DraftStep} {program : Program} {settings : Settings}
    {linkage : Linkage} (built : (Draft.ofSteps steps).build = .ok program)
    (ends : program.ArraysEnd) (applied : Linkage.ofSettings program settings = .ok linkage)
    (calls : List Call) :
    program.WalksEnd ∧
    (forall beyond depth, program.types.length < depth ->
      Workshop.after linkage beyond depth calls = ⟨after linkage calls, []⟩ ∧
      forall token,
        (Workshop.addWith linkage beyond depth token ⟨after linkage calls, []⟩).1 =
          (add linkage token (after linkage calls)).1 ∧
        (Workshop.table linkage beyond depth token ⟨after linkage calls, []⟩).1 =
          (Registry.table linkage token (after linkage calls)).1) ∧
    InOrder linkage (after linkage calls) ∧
    forall token,
      ((add linkage token (after linkage calls)).1 = .ok () -> ¬ Circular linkage token) ∧
      forall name,
        (add linkage token (after linkage calls)).1 = .error (.ofRequest (.cyclicLayout name)) ∨
        (Registry.table linkage token (after linkage calls)).1 =
          .error (.ofRequest (.cyclicLayout name)) -> Circular linkage token := by
  have grounded := Linkage.grounded_of_build built applied
  have same := Linkage.program_of_ofSettings applied
  rw [← same] at ends ⊢
  have grown : Grows linkage {} (after linkage calls) :=
    after_induction .refl (fun registry request earlier =>
      earlier.trans (grows_call registry request)) calls
  have recorded : Recorded linkage (after linkage calls) :=
    after_induction (recorded_empty linkage) (fun _ request earlier =>
      recorded_call grounded.wellFormed earlier request) calls
  refine ⟨Program.walksEnd grounded.wellFormed grounded.connected ends, ?_,
    inOrder_of_grows grown grounded.wellFormed recorded, ?_⟩
  · intro beyond depth deep
    refine ⟨Workshop.after_eq deep calls, fun token => ?_⟩
    rw [Workshop.addWith_eq_add deep, Workshop.table_eq_table deep]
    exact ⟨rfl, rfl⟩
  · intro token
    refine ⟨not_circular_of_add grown, ?_⟩
    rintro name (failed | failed)
    · exact blames_add token _ _ failed
    · exact blames_table token _ _ failed

/-- A plug has a port, and there are arrays of lamps. -/
def sampleSocketSteps : List DraftStep := [
  .type none "Demo" "Port" TypeAttributes.interface none,
  .type none "Demo" "Plug" TypeAttributes.exported none,
  .interface ⟨0x02000002⟩ ⟨0x02000001⟩,
  .type none "Demo" "Lamp" TypeAttributes.exported none,
  .arrayType none ⟨0x02000003⟩ none]

def sampleSocket : Program :=
  (Draft.ofSteps sampleSocketSteps).build.toOption.getD ⟨[], [], [], [], []⟩

theorem build_sampleSocket : (Draft.ofSteps sampleSocketSteps).build = .ok sampleSocket :=
  Result.eq_ok_getD (by decide +kernel) _

theorem sampleSocket_arraysEnd : sampleSocket.ArraysEnd :=
  Program.arraysEnd_of_rank (fun token => if token = ⟨0x02000004⟩ then 1 else 0)
    (by decide +kernel)

/-- The plug takes the place of the port, so the port has itself as interface. -/
def sampleSocketSettings : Settings :=
  ⟨[⟨"Demo.Port", "Demo.Plug"⟩], []⟩

def sampleSocketLinkage : Linkage :=
  (Linkage.ofSettings sampleSocket sampleSocketSettings).toOption.getD ⟨sampleSocket, [], []⟩

theorem link_sampleSocket :
    Linkage.ofSettings sampleSocket sampleSocketSettings = .ok sampleSocketLinkage :=
  Result.eq_ok_getD (by decide +kernel) _

/-- Two calls that fail, and one for an array in between. -/
def sampleSocketCalls : List Call :=
  [.add ⟨0x02000001⟩, .table ⟨0x02000004⟩, .table ⟨0x02000002⟩]

/-- The replacement makes a circle.  The array is registered under its elements. -/
theorem sampleSocket_inOrder :
    (after sampleSocketLinkage sampleSocketCalls).types = [⟨0x02000003⟩] ∧
    InOrder sampleSocketLinkage (after sampleSocketLinkage sampleSocketCalls) ∧
    Circular sampleSocketLinkage ⟨0x02000002⟩ ∧ ¬ Circular sampleSocketLinkage ⟨0x02000004⟩ := by
  rcases after_inOrder build_sampleSocket sampleSocket_arraysEnd link_sampleSocket
    sampleSocketCalls with ⟨_, _, inOrder, answers⟩
  have refused : (add sampleSocketLinkage ⟨0x02000002⟩
      (after sampleSocketLinkage sampleSocketCalls)).1 =
        .error (.ofRequest (.cyclicLayout "Demo.Port")) := by
    decide +kernel
  have added : (add sampleSocketLinkage ⟨0x02000004⟩
      (after sampleSocketLinkage sampleSocketCalls)).1 = .ok () := by
    decide +kernel
  exact ⟨by decide +kernel, inOrder, (answers ⟨0x02000002⟩).2 "Demo.Port" (Or.inl refused),
    (answers ⟨0x02000004⟩).1 added⟩

end Registry
end Dispatch
end CilGraph
