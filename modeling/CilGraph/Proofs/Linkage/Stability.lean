import CilGraph.Proofs.Program.Connected

namespace CilGraph

/-!
# Looking up a replacement twice

A type is replaced in one step.  So a type that was looked up already stays what it
is, unless it is replaced itself: the settings replace a type by a second one and
the second one by a third.  `Settings.Chains` says this of the settings, before they
are applied.

Everything that is looked up by way of its declaring type follows.  A callable is
re-located on the type that its own type is replaced by, and what is found there is
declared there.  Its external symbol is looked up after that, by its declaring type.
So both are the same the second time exactly where the type is.
-/

namespace Settings

/-- The settings replace a type by another. -/
def Substitutes (settings : Settings) (program : Program) (target replacement : Token) : Prop :=
  exists substitution, substitution ∈ settings.substitutions ∧
    (Linkage.findType program substitution.target).map TypeDef.token = .ok target ∧
    (Linkage.findType program substitution.replacement).map TypeDef.token = .ok replacement

/-- The settings replace a type by one that they replace by yet another. -/
def Chains (settings : Settings) (program : Program) (token : Token) : Prop :=
  exists second third, settings.Substitutes program token second ∧
    settings.Substitutes program second third ∧ third ≠ second

end Settings

namespace Linkage

section Table

variable {program : Program} {known next final : List (Token × Token)} {token replacement : Token}

/-- A replacement is entered under a token that has none yet. -/
theorem lookup_addSubstitution {substitution : Substitution}
    (added : addSubstitution program known substitution = .ok next) :
    next.lookup token = some replacement ↔ known.lookup token = some replacement ∨
      ((findType program substitution.target).map TypeDef.token = .ok token ∧
        (findType program substitution.replacement).map TypeDef.token = .ok replacement) := by
  rcases Result.bind_eq_ok.mp added with ⟨target, isTarget, looking⟩
  rcases Result.bind_eq_ok.mp looking with ⟨found, isFound, entering⟩
  rw [isTarget, isFound]
  split at entering
  · cases entering
  · rename_i fresh
    have absent : known.lookup target.token = none := Option.not_isSome_iff_eq_none.mp fresh
    cases entering
    rw [List.lookup_append]
    by_cases isToken : target.token = token
    · subst isToken
      simp [absent, Except.map]
    · have isOther : (token == target.token) = false := beq_eq_false_iff_ne.mpr (Ne.symm isToken)
      simp [List.lookup_cons, isOther, isToken, Except.map]

theorem lookup_foldlM {substitutions : List Substitution}
    (folded : substitutions.foldlM (addSubstitution program) known = .ok final) :
    final.lookup token = some replacement ↔ known.lookup token = some replacement ∨
      exists substitution, substitution ∈ substitutions ∧
        (findType program substitution.target).map TypeDef.token = .ok token ∧
        (findType program substitution.replacement).map TypeDef.token = .ok replacement := by
  induction substitutions generalizing known with
  | nil =>
      cases folded
      simp
  | cons first rest inductionHypothesis =>
      rw [List.foldlM_cons] at folded
      rcases Result.bind_eq_ok.mp folded with ⟨next, added, continued⟩
      rw [inductionHypothesis continued, lookup_addSubstitution added, or_assoc]
      simp

end Table

section Stability

variable {program : Program} {settings : Settings} {linkage : Linkage}

/-- The table of replacements holds what the settings say. -/
theorem lookup_substitutions (applied : ofSettings program settings = .ok linkage)
    {token replacement : Token} :
    linkage.substitutions.lookup token = some replacement ↔
      settings.Substitutes program token replacement := by
  rcases Result.bind_eq_ok.mp applied with ⟨substitutions, folded, reading⟩
  rcases Result.bind_eq_ok.mp reading with ⟨natives, _, assembled⟩
  cases assembled
  rw [lookup_foldlM folded]
  simp [Settings.Substitutes]

theorem resolveType_of_substitutes (applied : ofSettings program settings = .ok linkage)
    {token replacement : Token} (substitutes : settings.Substitutes program token replacement) :
    linkage.resolveType token = replacement := by
  unfold resolveType
  rw [(lookup_substitutions applied).mpr substitutes]
  rfl

/-- A type that is looked up is replaced, or stays. -/
theorem resolveType_cases (applied : ofSettings program settings = .ok linkage) (token : Token) :
    settings.Substitutes program token (linkage.resolveType token) ∨
      linkage.resolveType token = token := by
  unfold resolveType
  cases found : linkage.substitutions.lookup token with
  | none => exact Or.inr rfl
  | some replacement => exact Or.inl ((lookup_substitutions applied).mp found)

theorem resolveType_resolveType_iff (applied : ofSettings program settings = .ok linkage)
    (token : Token) :
    linkage.resolveType (linkage.resolveType token) = linkage.resolveType token ↔
      ¬ settings.Chains program token := by
  constructor
  · rintro stays ⟨second, third, isSecond, isThird, differs⟩
    rw [resolveType_of_substitutes applied isSecond,
      resolveType_of_substitutes applied isThird] at stays
    exact differs stays
  · intro unchained
    rcases resolveType_cases applied token with replaced | kept
    · by_contra moves
      rcases resolveType_cases applied (linkage.resolveType token) with replacedAgain | keptThen
      · exact unchained ⟨_, _, replaced, replacedAgain, moves⟩
      · exact moves keptThen
    · rw [kept, kept]

/-- A counterpart is declared by the type in which it is found. -/
theorem declaring_of_counterpart? (declares : linkage.program.DeclaresMembers) {type : TypeDef}
    (member : type ∈ linkage.program.types) {callable found : Callable}
    (replaced : linkage.counterpart? type callable = .ok (some found)) :
    found.declaring = type.token := by
  cases callable with
  | method method =>
      rcases Result.bind_eq_ok.mp replaced with ⟨declared, listed, selected⟩
      rcases Option.map_eq_some_iff.mp (Except.ok.inj selected) with ⟨candidate, first, same⟩
      rcases Result.exists_of_mem_mapM listed (List.mem_of_find?_eq_some first) with
        ⟨token, among, looked⟩
      rw [← same]
      exact declares type member token (List.mem_append_left _ among) _
        (Program.callable_of_method looked)
  | constructor constructor =>
      rcases Result.bind_eq_ok.mp replaced with ⟨declared, listed, selected⟩
      rcases Option.map_eq_some_iff.mp (Except.ok.inj selected) with ⟨candidate, first, same⟩
      rcases Result.exists_of_mem_mapM listed (List.mem_of_find?_eq_some first) with
        ⟨token, among, looked⟩
      rw [← same]
      exact declares type member token (List.mem_append_right _ among) _
        (Program.callable_of_constructor looked)

/-- What takes the place of a callable is declared by the type that takes the place
of its declaring type. -/
theorem declaring_of_resolveCallable (declares : linkage.program.DeclaresMembers)
    {callable resolved : Callable} (resolves : linkage.resolveCallable callable = .ok resolved) :
    resolved.declaring = linkage.resolveType callable.declaring := by
  rcases resolveCallable_eq_ok resolves with ⟨kept, same⟩ | ⟨_, type, declared, replaced⟩
  · rw [same, kept]
  · rcases Program.token_of_typeDef declared with ⟨member, isToken⟩
    rw [declaring_of_counterpart? declares member replaced, isToken]

theorem resolveCallable_resolved_iff (applied : ofSettings program settings = .ok linkage)
    (declares : linkage.program.DeclaresMembers) {callable resolved : Callable}
    (resolves : linkage.resolveCallable callable = .ok resolved) :
    linkage.resolveCallable resolved = .ok resolved ↔
      ¬ settings.Chains program callable.declaring := by
  have declaring := declaring_of_resolveCallable declares resolves
  rw [← resolveType_resolveType_iff applied, ← declaring]
  constructor
  · intro again
    exact (declaring_of_resolveCallable declares again).symm
  · intro kept
    exact resolveCallable_of_kept kept

/-- The external symbol that the bindings give a callable, as it is. -/
def boundSymbol? (linkage : Linkage) : Callable -> Option String
  | .constructor _ => none
  | .method method => (linkage.natives.find? (linkage.binds method)).map NativeEntry.symbol

/-- The external symbol of a callable is that of the one which takes its place. -/
theorem nativeSymbol?_of_resolveCallable {callable resolved : Callable}
    (resolves : linkage.resolveCallable callable = .ok resolved) :
    linkage.nativeSymbol? callable = .ok (linkage.boundSymbol? resolved) := by
  unfold nativeSymbol?
  rw [resolves]
  cases resolved with
  | method method => rfl
  | constructor constructor => rfl

end Stability

end Linkage
end CilGraph
