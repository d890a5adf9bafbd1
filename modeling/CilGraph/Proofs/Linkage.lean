import CilGraph.Linkage
import CilGraph.MangledName
import CilGraph.Proofs.Result

namespace CilGraph

/-!
# Known callables

A callable is a plain value, and nothing in its type says that it stands in the
program.  It is known if the program finds it under its own token.  Everything
that is looked up is known, and what is looked up in place of a known callable
is known again.  Two known callables with one token are equal, and there are
no more of them than the program has callables.

A constructor is only ever replaced by a constructor, and constructors have no
external symbol.
-/

namespace Program

/-- A callable stands in the program under its token. -/
def Known (program : Program) (callable : Callable) : Prop :=
  program.callable callable.token = .ok callable

theorem token_of_callable {program : Program} {token : Token} {callable : Callable}
    (found : program.callable token = .ok callable) :
    callable ∈ program.callables ∧ callable.token = token := by
  unfold Program.callable at found
  split at found
  · rename_i same
    cases found
    have selected := List.find?_some same
    exact ⟨List.mem_of_find?_eq_some same, eq_of_beq selected⟩
  · cases found

theorem known_of_callable {program : Program} {token : Token} {callable : Callable}
    (found : program.callable token = .ok callable) : program.Known callable := by
  unfold Known
  rw [(token_of_callable found).2]
  exact found

theorem Known.mem_callables {program : Program} {callable : Callable}
    (known : program.Known callable) : callable ∈ program.callables :=
  (token_of_callable known).1

theorem Known.eq_of_token {program : Program} {first second : Callable}
    (firstKnown : program.Known first) (secondKnown : program.Known second)
    (same : first.token = second.token) : first = second := by
  unfold Known at firstKnown secondKnown
  rw [same, secondKnown] at firstKnown
  exact (Except.ok.inj firstKnown).symm

theorem callable_of_method {program : Program} {token : Token} {method : MethodDef}
    (found : program.method token = .ok method) :
    program.callable token = .ok (.method method) := by
  rcases Result.bind_eq_ok.mp found with ⟨callable, looked, selected⟩
  cases callable with
  | method definition =>
      cases selected
      exact looked
  | constructor definition => cases selected

theorem callable_of_constructor {program : Program} {token : Token}
    {constructor : ConstructorDef} (found : program.constructor token = .ok constructor) :
    program.callable token = .ok (.constructor constructor) := by
  rcases Result.bind_eq_ok.mp found with ⟨callable, looked, selected⟩
  cases callable with
  | method definition => cases selected
  | constructor definition =>
      cases selected
      exact looked

theorem known_of_mem_declaredMethods {program : Program} {type : TypeDef}
    {methods : List MethodDef} (declared : program.declaredMethods type = .ok methods)
    {method : MethodDef} (member : method ∈ methods) : program.Known (.method method) := by
  rcases Result.exists_of_mem_mapM declared member with ⟨token, _, found⟩
  exact known_of_callable (callable_of_method found)

theorem known_of_mem_declaredConstructors {program : Program} {type : TypeDef}
    {constructors : List ConstructorDef}
    (declared : program.declaredConstructors type = .ok constructors)
    {constructor : ConstructorDef} (member : constructor ∈ constructors) :
    program.Known (.constructor constructor) := by
  rcases Result.exists_of_mem_mapM declared member with ⟨token, _, found⟩
  exact known_of_callable (callable_of_constructor found)

/-- A mangled name has at least the marks between its parts. -/
theorem mangle_ne_empty {program : Program} {callable : Callable} {name : String}
    (mangles : program.mangle callable = .ok name) : name.isEmpty = false := by
  rcases Result.bind_eq_ok.mp mangles with ⟨result, _, others⟩
  rcases Result.bind_eq_ok.mp others with ⟨params, _, ofDeclaring⟩
  rcases Result.bind_eq_ok.mp ofDeclaring with ⟨declaring, _, joined⟩
  cases joined
  simp

end Program

namespace Linkage

section Counterparts

variable {linkage : Linkage} {type : TypeDef} {callable found : Callable}

/-- What takes the place of a callable is a known callable of the same kind. -/
theorem known_of_counterpart? (replaced : linkage.counterpart? type callable = .ok (some found)) :
    linkage.program.Known found ∧ found.isConstructor = callable.isConstructor := by
  cases callable with
  | method method =>
      rcases Result.bind_eq_ok.mp replaced with ⟨declared, listed, selected⟩
      rcases Option.map_eq_some_iff.mp (Except.ok.inj selected) with ⟨candidate, first, same⟩
      cases same
      exact ⟨Program.known_of_mem_declaredMethods listed (List.mem_of_find?_eq_some first), rfl⟩
  | constructor constructor =>
      rcases Result.bind_eq_ok.mp replaced with ⟨declared, listed, selected⟩
      rcases Option.map_eq_some_iff.mp (Except.ok.inj selected) with ⟨candidate, first, same⟩
      cases same
      exact ⟨Program.known_of_mem_declaredConstructors listed (List.mem_of_find?_eq_some first),
        rfl⟩

/-- A callable stays if its type stays, and otherwise its counterpart in the
replacement is used. -/
theorem resolveCallable_eq_ok (resolves : linkage.resolveCallable callable = .ok found) :
    (linkage.resolveType callable.declaring = callable.declaring ∧ found = callable) ∨
      (linkage.resolveType callable.declaring ≠ callable.declaring ∧ exists type,
        linkage.program.typeDef (linkage.resolveType callable.declaring) = .ok type ∧
          linkage.counterpart? type callable = .ok (some found)) := by
  unfold resolveCallable at resolves
  by_cases kept : linkage.resolveType callable.declaring = callable.declaring
  · simp only [if_pos kept] at resolves
    cases resolves
    exact Or.inl ⟨kept, rfl⟩
  · simp only [if_neg kept] at resolves
    rcases Result.bind_eq_ok.mp resolves with ⟨type, declared, looked⟩
    rcases Result.bind_eq_ok.mp looked with ⟨counterpart, replaced, selected⟩
    cases counterpart with
    | none => cases selected
    | some counterpart =>
        cases selected
        exact Or.inr ⟨kept, type, declared, replaced⟩

theorem resolveCallable_of_kept
    (kept : linkage.resolveType callable.declaring = callable.declaring) :
    linkage.resolveCallable callable = .ok callable := by
  unfold resolveCallable
  simp only [if_pos kept]

theorem resolveCallable_of_counterpart?
    (moved : linkage.resolveType callable.declaring ≠ callable.declaring)
    (declared : linkage.program.typeDef (linkage.resolveType callable.declaring) = .ok type)
    (replaced : linkage.counterpart? type callable = .ok (some found)) :
    linkage.resolveCallable callable = .ok found := by
  unfold resolveCallable
  simp only [if_neg moved]
  refine Result.bind_eq_ok.mpr ⟨type, declared, ?_⟩
  exact Result.bind_eq_ok.mpr ⟨some found, replaced, rfl⟩

theorem known_of_resolveCallable (known : linkage.program.Known callable)
    (resolves : linkage.resolveCallable callable = .ok found) :
    linkage.program.Known found ∧ found.isConstructor = callable.isConstructor := by
  rcases resolveCallable_eq_ok resolves with ⟨_, same⟩ | ⟨_, type, _, replaced⟩
  · rw [same]
    exact ⟨known, rfl⟩
  · exact known_of_counterpart? replaced

theorem nativeSymbol?_of_isConstructor {symbol : Option String}
    (known : linkage.program.Known callable) (isConstructor : callable.isConstructor = true)
    (bound : linkage.nativeSymbol? callable = .ok symbol) : symbol = none := by
  rcases Result.bind_eq_ok.mp bound with ⟨resolved, resolves, selected⟩
  have sameKind := (known_of_resolveCallable known resolves).2
  cases resolved with
  | method method =>
      rw [isConstructor] at sameKind
      cases sameKind
  | constructor constructor =>
      cases selected
      rfl

end Counterparts

end Linkage
end CilGraph
