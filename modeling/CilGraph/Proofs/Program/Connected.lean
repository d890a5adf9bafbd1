import CilGraph.Proofs.Program.Built

namespace CilGraph

/-!
# References lead somewhere

When a draft is completed every reference to a type is checked, and a field is
entered in a type only when it is added itself.  So in a program that was built
no walk from a definition along its references comes to a token without a
definition.  `Program.Connected` collects what the checks give.  A replacement
is looked up when settings are applied, so it leads to a type as well.
-/

namespace Draft

/-- The fields that a type of a draft lists have been added to the draft. -/
def ListsFields (draft : Draft) : Prop :=
  forall type, type ∈ draft.types -> forall token, token ∈ type.fields ->
    exists field, field ∈ draft.fields ∧ field.token = token

theorem listsFields_ofSteps (steps : List DraftStep) : ListsFields (ofSteps steps) := by
  intro type member token listed
  rcases List.mem_map.mp (listsMembers_ofSteps steps .field type member token listed) with
    ⟨field, among, same⟩
  exact ⟨field, among, congrArg Prod.fst same⟩

end Draft

namespace Program

/-- Every reference of a definition leads to a definition. -/
structure Connected (program : Program) : Prop where
  types : forall type, type ∈ program.types ->
    forall token, token ∈ type.base.toList ++ type.element.toList ++ type.interfaces ->
      exists found, program.typeDef token = .ok found
  fields : forall type, type ∈ program.types -> exists fields,
    program.declaredFields type = .ok fields
  fieldTypes : forall field, field ∈ program.fields -> exists type,
    program.typeDef field.fieldType = .ok type
  declaring : forall callable, callable ∈ program.callables -> exists type,
    program.typeDef callable.declaring = .ok type

section Connected

variable {program : Program} {token : Token} {type : TypeDef}

theorem Connected.element (connected : program.Connected)
    (declared : program.typeDef token = .ok type) {element : Token}
    (isElement : type.element = some element) : exists found,
      program.typeDef element = .ok found := by
  refine connected.types type (token_of_typeDef declared).1 element ?_
  simp [isElement]

theorem Connected.interface (connected : program.Connected) (among : type ∈ program.types)
    {interface : Token} (named : interface ∈ type.interfaces) : exists found,
      program.typeDef interface = .ok found :=
  connected.types type among interface (List.mem_append_right _ named)

/-- A field that is found stands in the program. -/
theorem mem_fields_of_field {field : FieldDef} (found : program.field token = .ok field) :
    field ∈ program.fields := by
  unfold Program.field at found
  split at found
  · rename_i same
    cases found
    exact List.mem_of_find?_eq_some same
  · cases found

theorem field_of_mem {field : FieldDef} (member : field ∈ program.fields) : exists found,
    program.field field.token = .ok found := by
  unfold Program.field
  cases same : program.fields.find? (fun other => other.token == field.token) with
  | some found => exact ⟨found, rfl⟩
  | none =>
      have differs := List.find?_eq_none.mp same field member
      simp at differs

theorem checkField_eq_ok {field : FieldDef} (checked : program.checkField field = .ok ()) :
    exists type, program.typeDef field.fieldType = .ok type := by
  rcases Result.bind_eq_ok.mp checked with ⟨_, _, ofType⟩
  exact typeDef_of_checkReference ofType

theorem checkCallable_eq_ok {callable : Callable}
    (checked : program.checkCallable callable = .ok ()) :
    exists type, program.typeDef callable.declaring = .ok type := by
  rcases Result.bind_eq_ok.mp checked with ⟨_, ofDeclaring, _⟩
  exact typeDef_of_checkReference ofDeclaring

end Connected

end Program

theorem Draft.connected_of_build {draft : Draft} (lists : draft.ListsFields) {program : Program}
    (built : draft.build = .ok program) : program.Connected := by
  rcases Draft.exists_completed built with ⟨names, rfl, completed⟩
  rcases Result.bind_eq_ok.mp completed.references with ⟨_, typesChecked, checkedMembers⟩
  rcases Result.bind_eq_ok.mp checkedMembers with ⟨_, fieldsChecked, callablesChecked⟩
  constructor
  · intro type member token named
    rcases Result.bind_eq_ok.mp (Result.forM_eq_ok typesChecked member) with ⟨_, references, _⟩
    exact Program.typeDef_of_checkReference (Result.forIn_eq_ok references named)
  · intro type member
    refine Result.exists_mapM (fun token listed => ?_)
    rcases lists type (Ordered.mem_sortBy.mp member) token listed with ⟨field, among, isToken⟩
    rw [← isToken]
    exact Program.field_of_mem (Ordered.mem_sortBy.mpr among)
  · intro field member
    exact Program.checkField_eq_ok (Result.forM_eq_ok fieldsChecked member)
  · intro callable member
    exact Program.checkCallable_eq_ok (Result.forM_eq_ok callablesChecked member)

/-! ## Replacements -/

namespace Linkage

variable {program : Program}

theorem typeDef_of_findType {name : String} {type : TypeDef}
    (found : findType program name = .ok type) : program.typeDef type.token = .ok type := by
  unfold findType at found
  split at found
  · rename_i same
    cases found
    rcases Option.bind_eq_some_iff.mp same with ⟨token, _, looked⟩
    have declared : program.typeDef token = .ok type := by
      unfold Program.typeDef
      rw [looked]
    rw [(Program.token_of_typeDef declared).2]
    exact declared
  · cases found

/-- Each replacement is a type of the program. -/
def Replaces (program : Program) (substitutions : List (Token × Token)) : Prop :=
  forall entry, entry ∈ substitutions -> exists type, program.typeDef entry.2 = .ok type

theorem Replaces.addSubstitution {known next : List (Token × Token)} {substitution : Substitution}
    (replaces : Replaces program known)
    (added : Linkage.addSubstitution program known substitution = .ok next) :
    Replaces program next := by
  rcases Result.bind_eq_ok.mp added with ⟨target, _, looking⟩
  rcases Result.bind_eq_ok.mp looking with ⟨replacement, found, entering⟩
  split at entering
  · cases entering
  · cases entering
    intro entry member
    rcases List.mem_append.mp member with earlier | now
    · exact replaces entry earlier
    · rw [List.mem_singleton.mp now]
      exact ⟨replacement, typeDef_of_findType found⟩

theorem Replaces.foldlM {substitutions : List Substitution} {known final : List (Token × Token)}
    (replaces : Replaces program known)
    (folded : substitutions.foldlM (Linkage.addSubstitution program) known = .ok final) :
    Replaces program final := by
  induction substitutions generalizing known with
  | nil =>
      cases folded
      exact replaces
  | cons first rest inductionHypothesis =>
      rw [List.foldlM_cons] at folded
      rcases Result.bind_eq_ok.mp folded with ⟨next, added, continued⟩
      exact inductionHypothesis (replaces.addSubstitution added) continued

/-- Settings are applied to the program that they are given. -/
theorem program_of_ofSettings {settings : Settings} {linkage : Linkage}
    (applied : ofSettings program settings = .ok linkage) : linkage.program = program := by
  rcases Result.bind_eq_ok.mp applied with ⟨_, _, reading⟩
  rcases Result.bind_eq_ok.mp reading with ⟨_, _, assembled⟩
  cases assembled
  rfl

/-- What is used in place of a type is a type. -/
theorem typeDef_resolveType {settings : Settings} {linkage : Linkage}
    (applied : ofSettings program settings = .ok linkage) {token : Token} {type : TypeDef}
    (declared : program.typeDef token = .ok type) :
    exists resolved, program.typeDef (linkage.resolveType token) = .ok resolved := by
  rcases Result.bind_eq_ok.mp applied with ⟨substitutions, folded, reading⟩
  rcases Result.bind_eq_ok.mp reading with ⟨natives, _, assembled⟩
  cases assembled
  have replaces : Replaces program substitutions :=
    Replaces.foldlM (fun _ member => absurd member List.not_mem_nil) folded
  unfold resolveType
  cases found : substitutions.lookup token with
  | none => exact ⟨type, declared⟩
  | some replacement =>
      rcases List.lookup_eq_some_iff.mp found with ⟨front, back, split, _⟩
      refine replaces (token, replacement) ?_
      rw [split]
      exact List.mem_append_right _ List.mem_cons_self

/-- What a linkage of a program that was built satisfies. -/
structure Grounded (linkage : Linkage) : Prop where
  wellFormed : linkage.program.WellFormed
  connected : linkage.program.Connected
  replaces : forall token type, linkage.program.typeDef token = .ok type ->
    exists resolved, linkage.program.typeDef (linkage.resolveType token) = .ok resolved

theorem grounded_of_build {steps : List DraftStep} {settings : Settings} {linkage : Linkage}
    (built : (Draft.ofSteps steps).build = .ok program)
    (applied : ofSettings program settings = .ok linkage) : linkage.Grounded := by
  have same := program_of_ofSettings applied
  refine ⟨?_, ?_, ?_⟩
  · rw [same]
    exact Draft.wellFormed_of_build (Draft.listsOwn_ofSteps steps) built
  · rw [same]
    exact Draft.connected_of_build (Draft.listsFields_ofSteps steps) built
  · rw [same]
    exact fun token type declared => typeDef_resolveType applied declared

end Linkage
end CilGraph
