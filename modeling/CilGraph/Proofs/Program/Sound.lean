import CilGraph.MangledName
import CilGraph.Proofs.Program.Walks

namespace CilGraph

/-!
# Programs without loose ends

A draft takes steps in any order, with any tokens, and refuses none of them.  What
makes a program out of it is checked once, in parts that do not know of each
other: the index of type names, the tokens that are in use, and then one
definition after the other.  `Program.Sound` says what the parts add up to.

Every reference of a definition leads to a type, and a token stands for one
definition only, whatever its kind.  A type is found under its token and under its
full name.  It finds all members that it lists, and declares them.  From this it
follows that no question about the types and callables of a program can fail: the
root declaration of a method, the methods and the interfaces of a type and the
mangled name of a callable are always there.

Members are the part that is not checked.  A draft enters a member in a type when
it is added and at no other time, so what a type lists was added, and since no
token is used twice, what is found under the token is what was added.
-/

namespace Program

/-- The tokens of all definitions of a program. -/
def definedTokens (program : Program) : List Token :=
  program.types.map TypeDef.token ++ program.fields.map FieldDef.token ++
    program.callables.map Callable.token ++ program.strings.map Prod.fst

/-- A definition of a program refers to a type. -/
inductive RefersTo (program : Program) (token : Token) : Prop
  | type {type : TypeDef} (among : type ∈ program.types)
      (named : token ∈ type.base.toList ++ type.element.toList ++ type.interfaces) :
      RefersTo program token
  | field {field : FieldDef} (among : field ∈ program.fields)
      (named : token ∈ [field.declaring, field.fieldType]) : RefersTo program token
  | callable {callable : Callable} (among : callable ∈ program.callables)
      (named : token ∈ callable.declaring :: callable.params.map Param.type ++
        callable.returns.toList) : RefersTo program token

/-- The members of all kinds that a type lists are there, and the type declares
them. -/
structure OwnsMembers (program : Program) (type : TypeDef) : Prop where
  fields : exists fields, program.declaredFields type = .ok fields ∧
    forall field, field ∈ fields -> field.declaring = type.token
  methods : exists methods, program.declaredMethods type = .ok methods ∧
    forall method, method ∈ methods -> method.declaring = type.token
  constructors : exists constructors, program.declaredConstructors type = .ok constructors ∧
    forall constructor, constructor ∈ constructors -> constructor.declaring = type.token

/-- The walk through the interfaces of one level after the other. -/
inductive CollectsLevels (program : Program) : List TypeDef -> List Token -> List Token -> Prop
  | done {found : List Token} : CollectsLevels program [] found found
  | level {level : TypeDef} {levels : List TypeDef} {found next all : List Token}
      (collects : Collects program level.interfaces found next)
      (walks : CollectsLevels program levels next all) :
      CollectsLevels program (level :: levels) found all

/-- Nothing in a program leads nowhere. -/
structure Sound (program : Program) : Prop where
  references : forall token, program.RefersTo token -> exists type,
    program.typeDef token = .ok type
  tokens : program.definedTokens.Nodup
  names : (program.types.map TypeDef.fullName).Nodup
  found : forall type, type ∈ program.types ->
    program.typeDef type.token = .ok type ∧ program.findType? type.fullName = some type
  members : forall type, type ∈ program.types -> program.OwnsMembers type
  chains : forall type, type ∈ program.types -> exists chain, Lineage program type.token chain
  /-- The walk to the root declaration ends at a method. -/
  roots : forall method, Callable.method method ∈ program.callables -> exists root,
    Rooted program method (.ok root) ∧ program.rootDeclaration method = .ok root
  instances : forall type, type ∈ program.types -> exists methods,
    program.instanceMethods type.token = .ok methods
  /-- The walk through the interfaces of all levels ends. -/
  interfaces : forall type, type ∈ program.types -> exists chain interfaces,
    Lineage program type.token chain ∧ CollectsLevels program chain [] interfaces ∧
      program.interfaces type.token = .ok interfaces
  mangled : forall callable, callable ∈ program.callables -> exists name,
    program.mangle callable = .ok name

/-! ## References -/

section References

variable {program : Program} {token : Token}

theorem checkCallable_references {callable : Callable}
    (checked : program.checkCallable callable = .ok ())
    (named : token ∈ callable.declaring :: callable.params.map Param.type ++
      callable.returns.toList) : exists type, program.typeDef token = .ok type := by
  rcases Result.bind_eq_ok.mp checked with ⟨_, ofDeclaring, checkingParams⟩
  rcases Result.bind_eq_ok.mp checkingParams with ⟨_, ofParams, ofResult⟩
  rcases List.mem_append.mp named with isInput | isResult
  · rcases List.mem_cons.mp isInput with isDeclaring | isParam
    · rw [isDeclaring]
      exact typeDef_of_checkReference ofDeclaring
    · rcases List.mem_map.mp isParam with ⟨param, among, same⟩
      rw [← same]
      exact typeDef_of_checkReference (Result.forIn_eq_ok ofParams among)
  · rw [Option.mem_toList.mp isResult] at ofResult
    exact typeDef_of_checkReference ofResult

/-- The checks of a program cover every reference of its definitions. -/
theorem typeDef_of_refersTo (checked : program.check = .ok ()) (refers : program.RefersTo token) :
    exists type, program.typeDef token = .ok type := by
  rcases Result.bind_eq_ok.mp checked with ⟨_, ofTypes, checkingMembers⟩
  rcases Result.bind_eq_ok.mp checkingMembers with ⟨_, ofFields, ofCallables⟩
  cases refers with
  | type among named =>
      rcases Result.bind_eq_ok.mp (Result.forM_eq_ok ofTypes among) with ⟨_, references, _⟩
      exact typeDef_of_checkReference (Result.forIn_eq_ok references named)
  | field among named =>
      rcases Result.bind_eq_ok.mp (Result.forM_eq_ok ofFields among) with
        ⟨_, ofDeclaring, ofType⟩
      rcases List.mem_cons.mp named with isDeclaring | isType
      · rw [isDeclaring]
        exact typeDef_of_checkReference ofDeclaring
      · rw [List.mem_singleton.mp isType]
        exact typeDef_of_checkReference ofType
  | callable among named =>
      exact checkCallable_references (Result.forM_eq_ok ofCallables among) named

theorem references_of_build {draft : Draft} (built : draft.build = .ok program)
    (token : Token) (refers : program.RefersTo token) : exists type,
    program.typeDef token = .ok type := by
  rcases Draft.exists_completed built with ⟨names, rfl, completed⟩
  exact typeDef_of_refersTo completed.references refers

end References

/-! ## Tokens and names -/

theorem find?_of_nodup {Item : Type} {tokenOf : Item -> Token} {items : List Item}
    (distinct : (items.map tokenOf).Nodup) {item : Item} (member : item ∈ items) :
    items.find? (fun other => tokenOf other == tokenOf item) = some item := by
  cases found : items.find? (fun other => tokenOf other == tokenOf item) with
  | none =>
      have differs := List.find?_eq_none.mp found item member
      simp at differs
  | some other =>
      have selected := List.find?_some found
      rw [List.inj_on_of_nodup_map distinct (List.mem_of_find?_eq_some found) member
        (eq_of_beq selected)]

section Tokens

variable {program : Program} (distinct : program.definedTokens.Nodup)

include distinct

theorem field_eq_of_mem {field : FieldDef} (member : field ∈ program.fields) :
    program.field field.token = .ok field := by
  have ofFields : (program.fields.map FieldDef.token).Nodup := by
    have front := (List.nodup_append.mp (List.nodup_append.mp distinct).1).1
    exact (List.nodup_append.mp front).2.1
  unfold Program.field
  rw [find?_of_nodup ofFields member]

theorem callable_eq_of_mem {callable : Callable} (member : callable ∈ program.callables) :
    program.callable callable.token = .ok callable := by
  have ofCallables : (program.callables.map Callable.token).Nodup :=
    (List.nodup_append.mp (List.nodup_append.mp distinct).1).2.1
  unfold Program.callable
  rw [find?_of_nodup ofCallables member]

theorem method_eq_of_mem {method : MethodDef} (member : .method method ∈ program.callables) :
    program.method method.token = .ok method :=
  Result.bind_eq_ok.mpr ⟨.method method, callable_eq_of_mem distinct member, rfl⟩

theorem constructor_eq_of_mem {constructor : ConstructorDef}
    (member : .constructor constructor ∈ program.callables) :
    program.constructor constructor.token = .ok constructor :=
  Result.bind_eq_ok.mpr ⟨.constructor constructor, callable_eq_of_mem distinct member, rfl⟩

end Tokens

end Program

namespace Draft

/-- The index holds every type under its full name. -/
theorem indexTypes_eq_ok {index names : List (String × Token)} {types : List TypeDef}
    (indexed : indexTypes index types = .ok names) :
    names = index ++ types.map (fun type => (type.fullName, type.token)) := by
  induction types generalizing index with
  | nil =>
      cases indexed
      exact (List.append_nil _).symm
  | cons type rest inductionHypothesis =>
      unfold indexTypes at indexed
      split at indexed
      · cases indexed
      · split at indexed
        · cases indexed
        · rw [inductionHypothesis indexed, List.append_assoc]
          rfl

theorem lookup_index {types : List TypeDef} (distinct : (types.map TypeDef.fullName).Nodup)
    {type : TypeDef} (member : type ∈ types) :
    (types.map (fun type => (type.fullName, type.token))).lookup type.fullName =
      some type.token := by
  induction types with
  | nil => cases member
  | cons first rest inductionHypothesis =>
      rcases List.nodup_cons.mp distinct with ⟨isNew, distinctRest⟩
      rw [List.map_cons, List.lookup_cons]
      rcases List.mem_cons.mp member with same | later
      · rw [same, beq_self_eq_true]
      · have differs : (type.fullName == first.fullName) = false := by
          apply beq_eq_false_iff_ne.mpr
          intro same
          exact isNew (same ▸ List.mem_map_of_mem later)
        rw [differs]
        exact inductionHypothesis distinctRest later

/-- What is arranged is what was collected, so no token is used twice. -/
theorem nodup_definedTokens {draft : Draft} {names : List (String × Token)}
    (ofTypes : (draft.types.map TypeDef.token).Nodup)
    (checked : checkTokens (draft.types.map TypeDef.token) draft.memberTokens = .ok ()) :
    (draft.arrange names).definedTokens.Nodup := by
  rcases checkTokens_eq_ok checked with ⟨ofMembers, unused⟩
  have collected : (draft.types.map TypeDef.token ++ draft.memberTokens).Nodup := by
    refine List.Nodup.append ofTypes ofMembers ?_
    intro token isType isMember
    exact unused token isMember isType
  have callableTokens : draft.callables.map Callable.token =
      draft.methods.map MethodDef.token ++ draft.constructors.map ConstructorDef.token := by
    simp only [callables, List.map_append, List.map_map]
    rfl
  have regrouped : draft.types.map TypeDef.token ++ draft.fields.map FieldDef.token ++
      draft.callables.map Callable.token ++ draft.strings.map Prod.fst =
      draft.types.map TypeDef.token ++ draft.memberTokens := by
    rw [callableTokens]
    unfold memberTokens
    simp only [List.append_assoc]
  have arranged : (draft.arrange names).definedTokens.Perm
      (draft.types.map TypeDef.token ++ draft.fields.map FieldDef.token ++
        draft.callables.map Callable.token ++ draft.strings.map Prod.fst) := by
    refine List.Perm.append (List.Perm.append (List.Perm.append ?_ ?_) ?_) ?_
    · exact (Ordered.sortBy_perm _ draft.types).map TypeDef.token
    · exact (Ordered.sortBy_perm _ draft.fields).map FieldDef.token
    · exact (Ordered.sortBy_perm _ draft.callables).map Callable.token
    · exact (Ordered.sortBy_perm _ draft.strings).map Prod.fst
  rw [arranged.nodup_iff, regrouped]
  exact collected

/-- What a type lists was added with that type as its declaring type, and is found
under its token. -/
theorem ownsMembers_arrange {steps : List DraftStep} {names : List (String × Token)}
    (distinct : ((ofSteps steps).arrange names).definedTokens.Nodup) {type : TypeDef}
    (member : type ∈ ((ofSteps steps).arrange names).types) :
    ((ofSteps steps).arrange names).OwnsMembers type := by
  have added : type ∈ (ofSteps steps).types := Ordered.mem_sortBy.mp member
  refine ⟨?_, ?_, ?_⟩
  · refine Result.exists_mapM_forall (fun token listed => ?_)
    rcases List.mem_map.mp (listsMembers_ofSteps steps .field type added token listed) with
      ⟨field, among, same⟩
    rcases Prod.mk.inj same with ⟨isToken, declares⟩
    rw [← isToken]
    exact ⟨field, Program.field_eq_of_mem distinct (Ordered.mem_sortBy.mpr among), declares⟩
  · refine Result.exists_mapM_forall (fun token listed => ?_)
    rcases List.mem_map.mp (listsMembers_ofSteps steps .method type added token listed) with
      ⟨method, among, same⟩
    rcases Prod.mk.inj same with ⟨isToken, declares⟩
    rw [← isToken]
    have isCallable : Callable.method method ∈ (ofSteps steps).callables :=
      List.mem_append_left _ (List.mem_map_of_mem among)
    exact ⟨method, Program.method_eq_of_mem distinct (Ordered.mem_sortBy.mpr isCallable),
      declares⟩
  · refine Result.exists_mapM_forall (fun token listed => ?_)
    rcases List.mem_map.mp (listsMembers_ofSteps steps .constructor type added token listed) with
      ⟨constructor, among, same⟩
    rcases Prod.mk.inj same with ⟨isToken, declares⟩
    rw [← isToken]
    have isCallable : Callable.constructor constructor ∈ (ofSteps steps).callables :=
      List.mem_append_right _ (List.mem_map_of_mem among)
    exact ⟨constructor,
      Program.constructor_eq_of_mem distinct (Ordered.mem_sortBy.mpr isCallable), declares⟩

end Draft

/-! ## Questions that cannot fail -/

namespace Program

section Questions

variable {program : Program}

/-- Every type finds the methods that it lists. -/
def ListsMethods (program : Program) : Prop :=
  forall type, type ∈ program.types -> exists methods, program.declaredMethods type = .ok methods

theorem listsMethods_of_build {steps : List DraftStep}
    (built : (Draft.ofSteps steps).build = .ok program) : program.ListsMethods := by
  rcases Draft.exists_completed built with ⟨names, rfl, completed⟩
  intro type member
  have distinct : ((Draft.ofSteps steps).arrange names).definedTokens.Nodup :=
    Draft.nodup_definedTokens completed.typeTokens completed.tokens
  rcases (Draft.ownsMembers_arrange distinct member).methods with ⟨methods, listed, _⟩
  exact ⟨methods, listed⟩

/-- What the answers to questions about types and methods rest on. -/
structure Founded (program : Program) : Prop where
  wellFormed : program.WellFormed
  connected : program.Connected
  apart : program.TellsApart
  lists : program.ListsMethods

theorem founded_of_build {steps : List DraftStep}
    (built : (Draft.ofSteps steps).build = .ok program) : program.Founded where
  wellFormed := Draft.wellFormed_of_build (Draft.listsOwn_ofSteps steps) built
  connected := Draft.connected_of_build (Draft.listsFields_ofSteps steps) built
  apart := Draft.tellsApart_of_build built
  lists := listsMethods_of_build built

theorem Founded.exists_lineage (founded : program.Founded) {token : Token} {type : TypeDef}
    (declared : program.typeDef token = .ok type) : exists ancestors,
      Lineage program token (type :: ancestors) := by
  rcases founded.wellFormed.lineages token type declared with ⟨chain, lineage⟩
  rcases lineage.exists_cons with ⟨own, ancestors, split, found⟩
  cases declared.symm.trans found
  exact ⟨ancestors, split ▸ lineage⟩

theorem exists_overridden? (wellFormed : program.WellFormed) (lists : program.ListsMethods)
    {method : MethodDef} {type : TypeDef}
    (declared : program.typeDef method.declaring = .ok type) :
    exists found, program.overridden? method = .ok found := by
  rcases wellFormed.lineages method.declaring type declared with ⟨chain, lineage⟩
  have searched : forall level, level ∈ chain.tail -> exists found,
      (do
        let declared ← program.declaredMethods level
        .ok (declared.find? (fun candidate =>
          candidate.isVirtual && candidate.sameSignature method)) : Result (Option MethodDef)) =
        .ok found := by
    intro level member
    rcases lists level (lineage.mem_types (List.mem_of_mem_tail member)) with ⟨methods, listed⟩
    exact ⟨_, Result.bind_eq_ok.mpr ⟨methods, listed, rfl⟩⟩
  rcases Result.exists_findSomeM? searched with ⟨found, ends⟩
  exact ⟨found, Result.bind_eq_ok.mpr ⟨chain, lineage.lineage_eq, ends⟩⟩

/-- The walk to a root declaration does not fail on the way.  Each step leads to a
method whose declaring type is known again. -/
theorem Rooted.exists_root (wellFormed : program.WellFormed) (lists : program.ListsMethods)
    {method : MethodDef} {result : Result MethodDef} (rooted : Rooted program method result)
    {type : TypeDef} (declared : program.typeDef method.declaring = .ok type) :
    exists root, result = .ok root := by
  induction rooted generalizing type with
  | own starts => exact ⟨_, rfl⟩
  | first overrides searched => exact ⟨_, rfl⟩
  | fails overrides searched =>
      rcases exists_overridden? wellFormed lists declared with ⟨found, succeeds⟩
      rw [searched] at succeeds
      cases succeeds
  | follows overrides searched walks inductionHypothesis =>
      rcases wellFormed.lineages _ type declared with ⟨chain, lineage⟩
      rcases lineage.exists_cons with ⟨own, ancestors, split, _⟩
      rw [split] at lineage
      rcases declaring_of_overridden? wellFormed lineage searched with
        ⟨level, isAncestor, declares⟩
      have declaredThen := lineage.typeDef_of_mem (List.mem_cons_of_mem own isAncestor)
      rw [← declares] at declaredThen
      exact inductionHypothesis declaredThen

theorem exists_rootDeclaration (wellFormed : program.WellFormed)
    (connected : program.Connected) (lists : program.ListsMethods) {method : MethodDef}
    (known : program.Known (.method method)) :
    exists root, program.rootDeclaration method = .ok root := by
  rcases connected.declaring _ known.mem_callables with ⟨type, declared⟩
  exact (rooted_rootDeclaration wellFormed declared).exists_root wellFormed lists declared

theorem exists_instanceMethods (wellFormed : program.WellFormed) (lists : program.ListsMethods)
    {token : Token} {type : TypeDef} (declared : program.typeDef token = .ok type) :
    exists methods, program.instanceMethods token = .ok methods := by
  rcases wellFormed.lineages token type declared with ⟨chain, lineage⟩
  rcases lineage.exists_cons with ⟨own, ancestors, split, _⟩
  rw [split] at lineage
  have contributes : forall isOwn level, level ∈ own :: ancestors -> exists methods,
      program.contributed isOwn level = .ok methods := by
    intro isOwn level member
    rcases lists level (lineage.mem_types member) with ⟨methods, listed⟩
    exact ⟨_, Result.bind_eq_ok.mpr ⟨methods, listed, rfl⟩⟩
  rcases contributes true own List.mem_cons_self with ⟨shown, ofOwn⟩
  rcases Result.exists_mapM (fun level member =>
    contributes false level (List.mem_cons_of_mem own member)) with ⟨inherited, ofAncestors⟩
  refine ⟨inherited.foldl addVisible (addVisible [] shown), ?_⟩
  refine Result.bind_eq_ok.mpr ⟨own :: ancestors, lineage.lineage_eq, ?_⟩
  exact Result.bind_eq_ok.mpr ⟨shown, ofOwn, Result.bind_eq_ok.mpr ⟨inherited, ofAncestors, rfl⟩⟩

theorem exists_collectsLevels (connected : program.Connected) {chain : List TypeDef}
    (ofProgram : forall level, level ∈ chain -> level ∈ program.types) (found : List Token) :
    exists all, CollectsLevels program chain found all ∧
      chain.foldlM program.collectInterfaces found = .ok all := by
  induction chain generalizing found with
  | nil => exact ⟨found, .done, rfl⟩
  | cons level levels inductionHypothesis =>
      rcases List.forall_mem_cons.mp ofProgram with ⟨ofLevel, ofLevels⟩
      rcases exists_collectInterfaces connected ofLevel found with ⟨next, collects, collected⟩
      rcases inductionHypothesis ofLevels next with ⟨all, walks, walked⟩
      refine ⟨all, .level collects walks, ?_⟩
      rw [List.foldlM_cons]
      exact Result.bind_eq_ok.mpr ⟨next, collected, walked⟩

theorem exists_interfaces (wellFormed : program.WellFormed) (connected : program.Connected)
    {token : Token} {type : TypeDef} (declared : program.typeDef token = .ok type) :
    exists chain interfaces, Lineage program token chain ∧
      CollectsLevels program chain [] interfaces ∧ program.interfaces token = .ok interfaces := by
  rcases wellFormed.lineages token type declared with ⟨chain, lineage⟩
  rcases exists_collectsLevels connected (fun _ member => lineage.mem_types member) [] with
    ⟨interfaces, walks, walked⟩
  exact ⟨chain, interfaces, lineage, walks,
    Result.bind_eq_ok.mpr ⟨chain, lineage.lineage_eq, walked⟩⟩

theorem exists_mangle
    (references : forall token, program.RefersTo token -> exists type,
      program.typeDef token = .ok type) {callable : Callable}
    (among : callable ∈ program.callables) : exists name, program.mangle callable = .ok name := by
  have named : forall token, token ∈ callable.declaring :: callable.params.map Param.type ++
      callable.returns.toList -> exists name, program.typeName token = .ok name := by
    intro token member
    rcases references token (.callable among member) with ⟨type, declared⟩
    exact ⟨type.fullName, Result.map_eq_ok.mpr ⟨type, declared, rfl⟩⟩
  have ofResult : exists name, program.resultName callable = .ok name := by
    unfold resultName
    cases isResult : callable.returns with
    | none => exact ⟨voidName, rfl⟩
    | some token =>
        refine named token (List.mem_append_right _ ?_)
        rw [isResult]
        exact List.mem_cons_self
  have ofParams : exists names,
      callable.params.mapM (fun param => program.typeName param.type) = .ok names := by
    refine Result.exists_mapM (fun param member => named param.type ?_)
    exact List.mem_append_left _ (List.mem_cons_of_mem _ (List.mem_map_of_mem member))
  rcases ofResult with ⟨result, isResult⟩
  rcases ofParams with ⟨params, areParams⟩
  rcases named callable.declaring List.mem_cons_self with ⟨declaring, isDeclaring⟩
  exact ⟨_, Result.bind_eq_ok.mpr ⟨result, isResult, Result.bind_eq_ok.mpr ⟨params, areParams,
    Result.bind_eq_ok.mpr ⟨declaring, isDeclaring, rfl⟩⟩⟩⟩

end Questions

/-- A program that was built has no loose ends, whatever steps led to it. -/
theorem sound_of_build {steps : List DraftStep} {program : Program}
    (built : (Draft.ofSteps steps).build = .ok program) : program.Sound := by
  have wellFormed := Draft.wellFormed_of_build (Draft.listsOwn_ofSteps steps) built
  have connected := Draft.connected_of_build (Draft.listsFields_ofSteps steps) built
  have apart := Draft.tellsApart_of_build built
  have references := references_of_build built
  rcases Result.bind_eq_ok.mp built with ⟨names, indexed, checkingTokens⟩
  rcases Result.bind_eq_ok.mp checkingTokens with ⟨_, tokensChecked, checking⟩
  rcases Result.bind_eq_ok.mp checking with ⟨_, _, assembled⟩
  cases assembled
  have noNames : (([] : List (String × Token)).map Prod.fst).Nodup := List.nodup_nil
  have noTokens : (([] : List (String × Token)).map Prod.snd).Nodup := List.nodup_nil
  rcases Draft.nodup_of_indexTypes noNames noTokens indexed with ⟨distinctNames, distinctTokens⟩
  have distinct : ((Draft.ofSteps steps).arrange names).definedTokens.Nodup :=
    Draft.nodup_definedTokens distinctTokens tokensChecked
  have owns : forall type, type ∈ ((Draft.ofSteps steps).arrange names).types ->
      ((Draft.ofSteps steps).arrange names).OwnsMembers type :=
    fun type member => Draft.ownsMembers_arrange distinct member
  have lists : ((Draft.ofSteps steps).arrange names).ListsMethods := by
    intro type member
    rcases (owns type member).methods with ⟨methods, listed, _⟩
    exact ⟨methods, listed⟩
  refine ⟨references, distinct, ?_, ?_, owns, ?_, ?_, ?_, ?_, ?_⟩
  · exact ((Ordered.sortBy_perm _ (Draft.ofSteps steps).types).map _).nodup_iff.mpr distinctNames
  · intro type member
    have declared := apart.typeDef_of_mem member
    refine ⟨declared, Option.bind_eq_some_iff.mpr ⟨type.token, ?_, ?_⟩⟩
    · change names.lookup type.fullName = some type.token
      rw [Draft.indexTypes_eq_ok indexed, List.nil_append]
      exact Draft.lookup_index distinctNames (Ordered.mem_sortBy.mp member)
    · exact find?_of_nodup
        ((List.Perm.map TypeDef.token (Ordered.sortBy_perm _ _)).nodup_iff.mpr distinctTokens) member
  · exact fun type member => wellFormed.lineages type.token type (apart.typeDef_of_mem member)
  · intro method among
    rcases references method.declaring (.callable among List.mem_cons_self) with ⟨type, declared⟩
    have rooted := rooted_rootDeclaration wellFormed declared
    rcases rooted.exists_root wellFormed lists declared with ⟨root, ends⟩
    rw [ends] at rooted
    exact ⟨root, rooted, ends⟩
  · exact fun type member =>
      exists_instanceMethods wellFormed lists (apart.typeDef_of_mem member)
  · exact fun type member => exists_interfaces wellFormed connected (apart.typeDef_of_mem member)
  · exact fun callable among => exists_mangle references among

/-- A novel is defined before the book that it derives from.  A book is shelved, and
what is shelved and what is listed name each other. -/
def sampleLibrarySteps : List DraftStep := [
  .type (some ⟨0x02000005⟩) "Demo" "Novel" TypeAttributes.exported (some ⟨0x02000001⟩),
  .type (some ⟨0x02000001⟩) "Demo" "Book" TypeAttributes.exported none,
  .type none "Demo" "Shelved" TypeAttributes.interface none,
  .type none "Demo" "Listed" TypeAttributes.interface none,
  .interface ⟨0x02000006⟩ ⟨0x02000007⟩,
  .interface ⟨0x02000007⟩ ⟨0x02000006⟩,
  .interface ⟨0x02000001⟩ ⟨0x02000006⟩,
  .arrayType none ⟨0x02000005⟩ none,
  .field none ⟨0x02000001⟩ "sequels" ⟨0x02000008⟩ false,
  .method none ⟨0x02000001⟩ "Open" ⟨6, 0x0040, 0x0100⟩ (some ⟨0x02000005⟩) [] none,
  .method none ⟨0x02000005⟩ "Open" ⟨6, 0x0040, 0⟩ (some ⟨0x02000005⟩) [] none,
  .constructor none ⟨0x02000005⟩ false [⟨⟨0x02000008⟩, ⟨0⟩⟩] none,
  .string none "Contents"]

def sampleLibrary : Program :=
  (Draft.ofSteps sampleLibrarySteps).build.toOption.getD ⟨[], [], [], [], []⟩

theorem build_sampleLibrary : (Draft.ofSteps sampleLibrarySteps).build = .ok sampleLibrary :=
  Result.eq_ok_getD (by decide +kernel) _

theorem sampleLibrary_sound :
    sampleLibrary.types.map TypeDef.fullName =
      ["Demo.Book", "Demo.Novel", "Demo.Shelved", "Demo.Listed", "Demo.Novel[]"] ∧
    sampleLibrary.interfaces ⟨0x02000005⟩ = .ok [⟨0x02000006⟩, ⟨0x02000007⟩] ∧
    sampleLibrary.Sound :=
  ⟨by decide +kernel, rfl, sound_of_build build_sampleLibrary⟩

end Program
end CilGraph
