import CilGraph.Proofs.Linkage
import CilGraph.Proofs.Ordered
import CilGraph.Proofs.Program.Lineage
import CilGraph.Proofs.Program.Members

namespace CilGraph

/-!
# Programs that were built

A program that comes out of a draft is more than a collection of definitions.
The methods that a type lists are declared by that type, because a draft enters
a method in its declaring type and no token is used twice.  And every type has a
lineage, because the references of base types and the absence of cycles were
checked.  `Program.WellFormed` says both, and `Program.DeclaresMembers` says the
first of constructors as well.  Programs that were put together in another way
need not satisfy either.

The index of type names refuses a token or a full name that occurs twice, so
either tells the types of such a program apart.  `Program.TellsApart` says this.
-/

namespace Draft

/-! ## Methods and their declaring types -/

/-- The methods that a type of a draft lists have been added to the draft, and
the type declares them. -/
def ListsOwn (draft : Draft) : Prop :=
  forall type, type ∈ draft.types -> forall token, token ∈ type.methods ->
    exists method, method ∈ draft.methods ∧ method.token = token ∧ method.declaring = type.token

theorem listsOwn_ofSteps (steps : List DraftStep) : ListsOwn (ofSteps steps) := by
  intro type member token listed
  rcases List.mem_map.mp (listsMembers_ofSteps steps .method type member token listed) with
    ⟨method, among, same⟩
  exact ⟨method, among, congrArg Prod.fst same, congrArg Prod.snd same⟩

theorem checkTokens_eq_ok {used tokens : List Token}
    (checked : checkTokens used tokens = .ok ()) :
    tokens.Nodup ∧ forall token, token ∈ tokens -> token ∉ used := by
  induction tokens generalizing used with
  | nil => exact ⟨List.nodup_nil, fun token member => absurd member List.not_mem_nil⟩
  | cons first rest inductionHypothesis =>
      unfold checkTokens at checked
      split at checked
      · cases checked
      · rename_i fresh
        rcases inductionHypothesis checked with ⟨nodup, unused⟩
        refine ⟨List.nodup_cons.mpr ⟨?_, nodup⟩, ?_⟩
        · intro again
          exact unused first again List.mem_cons_self
        · intro token member
          rcases List.mem_cons.mp member with same | later
          · rw [same]
            exact fun among => fresh (List.contains_iff_mem.mpr among)
          · exact fun among => unused token later (List.mem_cons_of_mem first among)

theorem nodup_of_checkTokens {used tokens : List Token}
    (checked : checkTokens used tokens = .ok ()) : tokens.Nodup :=
  (checkTokens_eq_ok checked).1

/-- The index has room for a type only if neither its name nor its token is
there. -/
theorem nodup_of_indexTypes {index names : List (String × Token)} {types : List TypeDef}
    (distinctNames : (index.map Prod.fst).Nodup) (distinctTokens : (index.map Prod.snd).Nodup)
    (indexed : indexTypes index types = .ok names) :
    (index.map Prod.fst ++ types.map TypeDef.fullName).Nodup ∧
      (index.map Prod.snd ++ types.map TypeDef.token).Nodup := by
  induction types generalizing index with
  | nil =>
      rw [List.map_nil, List.map_nil, List.append_nil, List.append_nil]
      exact ⟨distinctNames, distinctTokens⟩
  | cons type rest inductionHypothesis =>
      unfold indexTypes at indexed
      split at indexed
      · cases indexed
      · rename_i freshName
        split at indexed
        · cases indexed
        · rename_i freshToken
          have newName : type.fullName ∉ index.map Prod.fst := by
            intro member
            rcases List.mem_map.mp member with ⟨entry, among, same⟩
            exact freshName (List.any_eq_true.mpr ⟨entry, among, beq_iff_eq.mpr same⟩)
          have newToken : type.token ∉ index.map Prod.snd := by
            intro member
            rcases List.mem_map.mp member with ⟨entry, among, same⟩
            exact freshToken (List.any_eq_true.mpr ⟨entry, among, beq_iff_eq.mpr same⟩)
          have namesThen : ((index ++ [(type.fullName, type.token)]).map Prod.fst).Nodup := by
            rw [List.map_append]
            exact List.Nodup.append distinctNames (List.nodup_singleton _)
              (List.disjoint_singleton.mpr newName)
          have tokensThen : ((index ++ [(type.fullName, type.token)]).map Prod.snd).Nodup := by
            rw [List.map_append]
            exact List.Nodup.append distinctTokens (List.nodup_singleton _)
              (List.disjoint_singleton.mpr newToken)
          have both := inductionHypothesis namesThen tokensThen indexed
          rw [List.map_append, List.map_append, List.append_assoc, List.append_assoc] at both
          exact both

/-- What is checked when a draft is completed with an index of type names. -/
structure Completed (draft : Draft) (names : List (String × Token)) : Prop where
  indexed : indexTypes [] draft.types = .ok names
  typeNames : (draft.types.map TypeDef.fullName).Nodup
  typeTokens : (draft.types.map TypeDef.token).Nodup
  tokens : checkTokens (draft.types.map TypeDef.token) draft.memberTokens = .ok ()
  references : (draft.arrange names).check = .ok ()

/-- A program that was built is an arrangement of its draft. -/
theorem exists_completed {draft : Draft} {program : Program}
    (built : draft.build = .ok program) : exists names, program = draft.arrange names ∧
      draft.Completed names := by
  rcases Result.bind_eq_ok.mp built with ⟨names, indexed, checkingTokens⟩
  rcases Result.bind_eq_ok.mp checkingTokens with ⟨_, tokens, checking⟩
  rcases Result.bind_eq_ok.mp checking with ⟨_, references, assembled⟩
  cases assembled
  have noNames : (([] : List (String × Token)).map Prod.fst).Nodup := List.nodup_nil
  have noTokens : (([] : List (String × Token)).map Prod.snd).Nodup := List.nodup_nil
  rcases nodup_of_indexTypes noNames noTokens indexed with ⟨typeNames, typeTokens⟩
  exact ⟨names, rfl, indexed, typeNames, typeTokens, tokens, references⟩

end Draft

namespace Program

/-- A token and a full name stand for one type each. -/
structure TellsApart (program : Program) : Prop where
  tokens : forall first second, first ∈ program.types -> second ∈ program.types ->
    first.token = second.token -> first = second
  names : forall first second, first ∈ program.types -> second ∈ program.types ->
    first.fullName = second.fullName -> first = second

/-- A type of the program is found under its token. -/
theorem TellsApart.typeDef_of_mem {program : Program} (apart : program.TellsApart)
    {type : TypeDef} (member : type ∈ program.types) :
    program.typeDef type.token = .ok type := by
  unfold typeDef typeDef?
  cases found : program.types.find? (fun other => other.token == type.token) with
  | none =>
      have differs := List.find?_eq_none.mp found type member
      simp at differs
  | some first =>
      have selected := List.find?_some found
      have sameToken : first.token = type.token := eq_of_beq selected
      rw [apart.tokens first type (List.mem_of_find?_eq_some found) member sameToken]

/-- The types of a lineage have different names. -/
theorem Lineage.nodup_names {program : Program} (apart : program.TellsApart) {token : Token}
    {chain : List TypeDef} (lineage : Lineage program token chain) :
    (chain.map TypeDef.fullName).Nodup :=
  List.Nodup.map_on (fun first isFirst second isSecond same =>
    apart.names first second (lineage.mem_types isFirst) (lineage.mem_types isSecond) same)
    lineage.nodup.of_map

/-- What every program that was built satisfies. -/
structure WellFormed (program : Program) : Prop where
  declares : forall type, type ∈ program.types -> forall methods,
    program.declaredMethods type = .ok methods -> forall method, method ∈ methods ->
      method.declaring = type.token
  lineages : forall token type, program.typeDef token = .ok type ->
    exists chain, Lineage program token chain

/-- The methods and constructors that a type lists are declared by that type. -/
def DeclaresMembers (program : Program) : Prop :=
  forall type, type ∈ program.types -> forall token, token ∈ type.methods ++ type.constructors ->
    forall callable, program.callable token = .ok callable -> callable.declaring = type.token

/-! ## Lineages -/

/-- A chain of base types that ends is a lineage, if it never leaves the program. -/
theorem exists_lineage_of_chainEnds {program : Program}
    (basesKnown : forall type, type ∈ program.types -> forall base, type.base = some base ->
      exists found, program.typeDef base = .ok found) {steps : Nat} {token : Token}
    {type : TypeDef} (found : program.typeDef token = .ok type)
    (ends : program.chainEnds steps (some token) = true) :
    exists chain, Lineage program token chain := by
  induction steps generalizing token type with
  | zero => cases ends
  | succ steps inductionHypothesis =>
      cases hasBase : type.base with
      | none => exact ⟨[type], .root found hasBase⟩
      | some base =>
          have found? : program.typeDef? token = some type := by
            unfold typeDef at found
            split at found
            · rename_i same
              cases found
              exact same
            · cases found
          unfold chainEnds at ends
          rw [found?] at ends
          change program.chainEnds steps type.base = true at ends
          rw [hasBase] at ends
          rcases basesKnown type (token_of_typeDef found).1 base hasBase with ⟨parent, foundBase⟩
          rcases inductionHypothesis foundBase ends with ⟨ancestors, above⟩
          exact ⟨type :: ancestors, .derived found hasBase above⟩

theorem typeDef_of_checkReference {program : Program} {role : ReferenceRole} {owner : String}
    {token : Token} (checked : program.checkReference role owner token = .ok ()) :
    exists type, program.typeDef token = .ok type := by
  unfold checkReference at checked
  split at checked
  · rename_i isKnown
    rcases Option.isSome_iff_exists.mp isKnown with ⟨type, found⟩
    refine ⟨type, ?_⟩
    unfold typeDef
    rw [found]
  · cases checked

theorem checkType_eq_ok {program : Program} {type : TypeDef}
    (checked : program.checkType type = .ok ()) :
    (forall base, type.base = some base -> exists found, program.typeDef base = .ok found) ∧
      program.chainEnds (program.types.length + 1) (some type.token) = true := by
  rcases Result.bind_eq_ok.mp checked with ⟨_, references, cycle⟩
  constructor
  · intro base hasBase
    have member : base ∈ type.base.toList ++ type.element.toList ++ type.interfaces := by
      rw [hasBase]
      exact List.mem_append_left _ (List.mem_append_left _ List.mem_cons_self)
    exact typeDef_of_checkReference (Result.forIn_eq_ok references member)
  · split at cycle
    · rename_i ends
      exact ends
    · cases cycle

end Program

/-! ## Completion -/

namespace Draft

variable {draft : Draft}

/-- The methods and constructors of a draft. -/
def callables (draft : Draft) : List Callable :=
  draft.methods.map Callable.method ++ draft.constructors.map Callable.constructor

/-- Tokens are unique, so what is found under a token is the one that was added with it. -/
theorem eq_of_callable {used : List Token} {names : List (String × Token)} {token : Token}
    {callable added : Callable} (tokensChecked : checkTokens used draft.memberTokens = .ok ())
    (found : (draft.arrange names).callable token = .ok callable)
    (among : added ∈ draft.callables) (isToken : added.token = token) : callable = added := by
  have distinct : (draft.callables.map Callable.token).Nodup := by
    have all := nodup_of_checkTokens tokensChecked
    unfold memberTokens at all
    have members := (List.nodup_append.mp all).1
    rw [List.append_assoc] at members
    have callableTokens := (List.nodup_append.mp members).2.1
    simp only [callables, List.map_append, List.map_map]
    exact callableTokens
  rcases Program.token_of_callable found with ⟨inCallables, sameToken⟩
  exact List.inj_on_of_nodup_map distinct (Ordered.mem_sortBy.mp inCallables) among
    (sameToken.trans isToken.symm)

/-- The methods and constructors that a type lists were added, and the type
declares them. -/
theorem ListsMembers.callable (methods : draft.ListsMembers .method)
    (constructors : draft.ListsMembers .constructor) {type : TypeDef} (member : type ∈ draft.types)
    {token : Token} (listed : token ∈ type.methods ++ type.constructors) :
    exists added, added ∈ draft.callables ∧ added.token = token ∧
      added.declaring = type.token := by
  rcases List.mem_append.mp listed with isMethod | isConstructor
  · rcases List.mem_map.mp (methods type member token isMethod) with ⟨method, among, same⟩
    refine ⟨.method method, ?_, congrArg Prod.fst same, congrArg Prod.snd same⟩
    exact List.mem_append_left _ (List.mem_map_of_mem among)
  · rcases List.mem_map.mp (constructors type member token isConstructor) with
      ⟨constructor, among, same⟩
    refine ⟨.constructor constructor, ?_, congrArg Prod.fst same, congrArg Prod.snd same⟩
    exact List.mem_append_right _ (List.mem_map_of_mem among)

end Draft

theorem Draft.wellFormed_of_build {draft : Draft} (lists : draft.ListsOwn) {program : Program}
    (built : draft.build = .ok program) : program.WellFormed := by
  rcases Draft.exists_completed built with ⟨names, rfl, completed⟩
  constructor
  · intro type member methods declared method among
    rcases Result.exists_of_mem_mapM declared among with ⟨token, listed, found⟩
    rcases lists type (Ordered.mem_sortBy.mp member) token listed with
      ⟨added, addedMember, addedToken, declares⟩
    have same : Callable.method method = .method added :=
      Draft.eq_of_callable completed.tokens (Program.callable_of_method found)
        (List.mem_append_left _ (List.mem_map_of_mem addedMember)) addedToken
    cases same
    exact declares
  · intro token type found
    rcases Result.bind_eq_ok.mp completed.references with ⟨_, typesChecked, _⟩
    have ofTypes : forall type, type ∈ (draft.arrange names).types ->
        (draft.arrange names).checkType type = .ok () :=
      fun type member => Result.forM_eq_ok typesChecked member
    rcases Program.token_of_typeDef found with ⟨member, isToken⟩
    have ends := (Program.checkType_eq_ok (ofTypes type member)).2
    rw [isToken] at ends
    exact Program.exists_lineage_of_chainEnds
      (fun type among => (Program.checkType_eq_ok (ofTypes type among)).1) found ends

theorem Draft.tellsApart_of_build {draft : Draft} {program : Program}
    (built : draft.build = .ok program) : program.TellsApart := by
  rcases Draft.exists_completed built with ⟨names, rfl, completed⟩
  constructor
  · intro first second isFirst isSecond same
    exact List.inj_on_of_nodup_map completed.typeTokens (Ordered.mem_sortBy.mp isFirst)
      (Ordered.mem_sortBy.mp isSecond) same
  · intro first second isFirst isSecond same
    exact List.inj_on_of_nodup_map completed.typeNames (Ordered.mem_sortBy.mp isFirst)
      (Ordered.mem_sortBy.mp isSecond) same

theorem Draft.declaresMembers_of_build {steps : List DraftStep} {program : Program}
    (built : (Draft.ofSteps steps).build = .ok program) : program.DeclaresMembers := by
  rcases Draft.exists_completed built with ⟨names, rfl, completed⟩
  intro type member token listed callable found
  have methods := Draft.listsMembers_ofSteps steps .method
  rcases methods.callable (Draft.listsMembers_ofSteps steps .constructor)
      (Ordered.mem_sortBy.mp member) listed with ⟨added, among, isToken, declares⟩
  rw [Draft.eq_of_callable completed.tokens found among isToken]
  exact declares

end CilGraph
