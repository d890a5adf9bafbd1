import CilGraph.Proofs.Program.Connected
import CilGraph.Proofs.Program.Inheritance
import Mathlib.Data.List.Flatten
import Mathlib.Logic.Relation

namespace CilGraph
namespace Program

/-!
# Walks come to an end

Four walks along the definitions of a program have a bound: from an array to its
innermost elements, from a type through its base types, from a method to the one
whose slot it takes over, and through the interfaces that interfaces name.  A
bound could cut a walk short.  Here each walk is stated as a relation that knows
no bound, and the bounded walk is shown to be a walk to the end.

Base types and overridden methods lie on a lineage, which is no longer than the
list of types.  Interfaces may name each other in a circle, but each is expanded
once, and what is pending is paid for by what is not expanded yet.  Only arrays
need an assumption: a draft does not refuse an array that is, through its
elements, an element of itself, and the walk from such an array has no end.
-/

/-! ## Elements -/

/-- One type is the element type of the other. -/
def HasElement (program : Program) (array element : Token) : Prop :=
  exists type, program.typeDef array = .ok type ∧ type.element = some element

/-- No array is, through its elements, an element of itself. -/
def ArraysEnd (program : Program) : Prop :=
  forall token, ¬ Relation.TransGen program.HasElement token token

/-- The walk from a type along element types to one that has none. -/
inductive Innermost (program : Program) : Token -> Token -> Prop
  | plain {token : Token} {type : TypeDef} (declared : program.typeDef token = .ok type)
      (noElement : type.element = none) : Innermost program token token
  | array {token element inner : Token} {type : TypeDef}
      (declared : program.typeDef token = .ok type) (isElement : type.element = some element)
      (walks : Innermost program element inner) : Innermost program token inner

section Elements

variable {program : Program} {token : Token} {type : TypeDef}

/-- Arrays come to an end if a rank goes down from an array to its elements. -/
theorem arraysEnd_of_rank (rank : Token -> Nat)
    (lower : forall type, type ∈ program.types -> forall element, type.element = some element ->
      rank element < rank type.token) : program.ArraysEnd := by
  have descends : forall first last, Relation.TransGen program.HasElement first last ->
      rank last < rank first := by
    intro first last walk
    induction walk with
    | single edge =>
        rcases edge with ⟨type, declared, isElement⟩
        rcases token_of_typeDef declared with ⟨member, isToken⟩
        rw [← isToken]
        exact lower type member _ isElement
    | tail _ edge inductionHypothesis =>
        rcases edge with ⟨type, declared, isElement⟩
        rcases token_of_typeDef declared with ⟨member, isToken⟩
        rw [← isToken] at inductionHypothesis
        exact Nat.lt_trans (lower type member _ isElement) inductionHypothesis
  exact fun token circle => Nat.lt_irrefl _ (descends token token circle)

/-- A walk that has not come back has not seen all types. -/
theorem length_lt_types {visited : List Token} (declared : program.typeDef token = .ok type)
    (isNew : token ∉ visited) (distinct : visited.Nodup)
    (among : visited ⊆ program.types.map TypeDef.token) :
    visited.length < program.types.length := by
  have longer : (token :: visited).Nodup := List.nodup_cons.mpr ⟨isNew, distinct⟩
  have included : token :: visited ⊆ program.types.map TypeDef.token :=
    List.cons_subset.mpr ⟨mem_tokens_of_typeDef declared, among⟩
  have bound := (longer.subperm included).length_le
  rw [List.length_cons, List.length_map] at bound
  exact bound

/-- The types on the way are different, so there is fuel for all of them. -/
theorem exists_innermostWith (connected : program.Connected) (ends : program.ArraysEnd)
    {fuel : Nat} {visited : List Token} (declared : program.typeDef token = .ok type)
    (leads : forall other, other ∈ visited -> Relation.TransGen program.HasElement other token)
    (distinct : visited.Nodup) (among : visited ⊆ program.types.map TypeDef.token)
    (enough : program.types.length < fuel + visited.length) :
    exists inner, Innermost program token inner ∧ program.innermostWith fuel token = .ok inner := by
  induction fuel generalizing token type visited with
  | zero =>
      have isNew : token ∉ visited := fun again => ends token (leads token again)
      have bound := length_lt_types declared isNew distinct among
      omega
  | succ fuel inductionHypothesis =>
      cases isElement : type.element with
      | none =>
          refine ⟨token, .plain declared isElement, Result.bind_eq_ok.mpr ⟨type, declared, ?_⟩⟩
          rw [isElement]
      | some element =>
          rcases connected.element declared isElement with ⟨next, declaredNext⟩
          have edge : program.HasElement token element := ⟨type, declared, isElement⟩
          have isNew : token ∉ visited := fun again => ends token (leads token again)
          have leadsThen : forall other, other ∈ token :: visited ->
              Relation.TransGen program.HasElement other element :=
            List.forall_mem_cons.mpr ⟨.single edge, fun other earlier =>
              .tail (leads other earlier) edge⟩
          have enoughThen : program.types.length < fuel + (token :: visited).length := by
            rw [List.length_cons]
            omega
          rcases inductionHypothesis declaredNext leadsThen
            (List.nodup_cons.mpr ⟨isNew, distinct⟩)
            (List.cons_subset.mpr ⟨mem_tokens_of_typeDef declared, among⟩) enoughThen with
            ⟨inner, walks, walked⟩
          refine ⟨inner, .array declared isElement walks,
            Result.bind_eq_ok.mpr ⟨type, declared, ?_⟩⟩
          rw [isElement]
          exact walked

theorem exists_innermost (connected : program.Connected) (ends : program.ArraysEnd)
    (declared : program.typeDef token = .ok type) :
    exists inner, Innermost program token inner ∧ program.innermost token = .ok inner :=
  exists_innermostWith connected ends declared (fun _ member => absurd member List.not_mem_nil)
    List.nodup_nil (List.nil_subset _) (Nat.lt_succ_self _)

end Elements

/-! ## Interfaces -/

/-- The walk through interfaces, where some are pending and some were found. -/
inductive Collects (program : Program) : List Token -> List Token -> List Token -> Prop
  | done {found : List Token} : Collects program [] found found
  | skip {interface : Token} {pending found all : List Token} (again : interface ∈ found)
      (walks : Collects program pending found all) :
      Collects program (interface :: pending) found all
  | expand {interface : Token} {pending found all : List Token} {type : TypeDef}
      (isNew : interface ∉ found) (declared : program.typeDef interface = .ok type)
      (walks : Collects program (type.interfaces ++ pending) (found ++ [interface]) all) :
      Collects program (interface :: pending) found all

/-- The interfaces that types name which were not found. -/
def unexpanded (types : List TypeDef) (found : List Token) : Nat :=
  ((types.filter (fun type => !found.contains type.token)).flatMap TypeDef.interfaces).length

section Interfaces

variable {program : Program}

theorem unexpanded_cons (first : TypeDef) (types : List TypeDef) (found : List Token) :
    unexpanded (first :: types) found =
      (if first.token ∈ found then 0 else first.interfaces.length) + unexpanded types found := by
  unfold unexpanded
  rw [List.filter_cons]
  by_cases isFound : first.token ∈ found
  · simp [isFound]
  · simp [isFound]

theorem unexpanded_le (types : List TypeDef) (found : List Token) (interface : Token) :
    unexpanded types (found ++ [interface]) ≤ unexpanded types found := by
  induction types with
  | nil => exact Nat.le_refl _
  | cons first types inductionHypothesis =>
      rw [unexpanded_cons, unexpanded_cons]
      by_cases isFound : first.token ∈ found
      · rw [if_pos isFound, if_pos (List.mem_append_left _ isFound)]
        omega
      · rw [if_neg isFound]
        split <;> omega

/-- Expanding a type takes its interfaces off the count. -/
theorem unexpanded_append {types : List TypeDef} {found : List Token} {type : TypeDef}
    (member : type ∈ types) (isNew : type.token ∉ found) :
    unexpanded types (found ++ [type.token]) + type.interfaces.length ≤
      unexpanded types found := by
  induction types with
  | nil => cases member
  | cons first types inductionHypothesis =>
      rw [unexpanded_cons, unexpanded_cons]
      rcases List.mem_cons.mp member with isFirst | later
      · rw [← isFirst, if_neg isNew, if_pos (List.mem_append_right _ List.mem_cons_self)]
        have others := unexpanded_le types found type.token
        omega
      · have fewer := inductionHypothesis later
        by_cases isFound : first.token ∈ found
        · rw [if_pos isFound, if_pos (List.mem_append_left _ isFound)]
          omega
        · rw [if_neg isFound]
          split <;> omega

/-- What is pending and what is not expanded pays for the walk. -/
theorem exists_collectInterfacesWith (connected : program.Connected) {fuel : Nat}
    {pending found : List Token}
    (known : forall interface, interface ∈ pending -> exists type,
      program.typeDef interface = .ok type)
    (enough : pending.length + unexpanded program.types found ≤ fuel) :
    exists all, Collects program pending found all ∧
      program.collectInterfacesWith fuel pending found = .ok all := by
  induction fuel generalizing pending found with
  | zero =>
      have none : pending = [] := List.length_eq_zero_iff.mp (by omega)
      rw [none]
      exact ⟨found, .done, rfl⟩
  | succ fuel inductionHypothesis =>
      cases pending with
      | nil => exact ⟨found, .done, rfl⟩
      | cons interface pending =>
          rw [List.length_cons] at enough
          rcases List.forall_mem_cons.mp known with ⟨⟨type, declared⟩, knownLater⟩
          unfold collectInterfacesWith
          by_cases again : interface ∈ found
          · rw [if_pos (List.contains_iff_mem.mpr again)]
            have enoughLater : pending.length + unexpanded program.types found ≤ fuel := by omega
            rcases inductionHypothesis knownLater enoughLater with ⟨all, walks, walked⟩
            exact ⟨all, .skip again walks, walked⟩
          · rw [if_neg (fun contained => again (List.contains_iff_mem.mp contained))]
            rcases token_of_typeDef declared with ⟨member, isToken⟩
            have named : forall other, other ∈ type.interfaces ++ pending -> exists type,
                program.typeDef other = .ok type := by
              intro other among
              rcases List.mem_append.mp among with isNamed | later
              · exact connected.interface member isNamed
              · exact knownLater other later
            -- An interface is expanded once and then pays for all that it names.
            have paid := unexpanded_append member (by rwa [isToken])
            rw [isToken] at paid
            have enoughThen : (type.interfaces ++ pending).length +
                unexpanded program.types (found ++ [interface]) ≤ fuel := by
              rw [List.length_append]
              omega
            rcases inductionHypothesis named enoughThen with ⟨all, walks, walked⟩
            exact ⟨all, .expand again declared walks,
              Result.bind_eq_ok.mpr ⟨type, declared, walked⟩⟩

theorem exists_collectInterfaces (connected : program.Connected) {level : TypeDef}
    (member : level ∈ program.types) (found : List Token) :
    exists all, Collects program level.interfaces found all ∧
      program.collectInterfaces found level = .ok all := by
  refine exists_collectInterfacesWith connected
    (fun interface named => connected.interface member named) ?_
  have fewer : unexpanded program.types found ≤ program.interfaceCount := by
    unfold unexpanded interfaceCount
    exact (List.filter_sublist.flatMap TypeDef.interfaces).length_le
  omega

end Interfaces

/-! ## Overridden methods -/

/-- The walk from a method to the one that first declared its slot.  A search
among the base types may fail. -/
inductive Rooted (program : Program) : MethodDef -> Result MethodDef -> Prop
  | own {method : MethodDef} (starts : (!method.isVirtual || method.startsSlot) = true) :
      Rooted program method (.ok method)
  | first {method : MethodDef} (overrides : (!method.isVirtual || method.startsSlot) = false)
      (searched : program.overridden? method = .ok none) : Rooted program method (.ok method)
  | fails {method : MethodDef} {error : Error}
      (overrides : (!method.isVirtual || method.startsSlot) = false)
      (searched : program.overridden? method = .error error) :
      Rooted program method (.error error)
  | follows {method next : MethodDef} {result : Result MethodDef}
      (overrides : (!method.isVirtual || method.startsSlot) = false)
      (searched : program.overridden? method = .ok (some next))
      (walks : Rooted program next result) : Rooted program method result

section Methods

variable {program : Program}

/-- Each step goes up the lineage, so its length pays for the walk. -/
theorem rooted_rootDeclarationWith (wellFormed : program.WellFormed) {fuel : Nat}
    {method : MethodDef} {own : TypeDef} {ancestors : List TypeDef}
    (lineage : Lineage program method.declaring (own :: ancestors))
    (enough : ancestors.length ≤ fuel) :
    Rooted program method (program.rootDeclarationWith fuel method) := by
  induction fuel generalizing method own ancestors with
  | zero =>
      have none : ancestors = [] := List.length_eq_zero_iff.mp (Nat.le_zero.mp enough)
      rw [none] at lineage
      cases starts : (!method.isVirtual || method.startsSlot) with
      | true => exact .own starts
      | false =>
          refine .first starts (Result.bind_eq_ok.mpr ⟨[own], lineage.lineage_eq, ?_⟩)
          rfl
  | succ fuel inductionHypothesis =>
      unfold rootDeclarationWith
      cases starts : (!method.isVirtual || method.startsSlot) with
      | true => exact .own starts
      | false =>
          rw [if_neg Bool.false_ne_true]
          cases searched : program.overridden? method with
          | error error => exact .fails starts searched
          | ok overridden =>
              cases overridden with
              | none => exact .first starts searched
              | some next =>
                  rcases declaring_of_overridden? wellFormed lineage searched with
                    ⟨level, isAncestor, declares⟩
                  rcases List.append_of_mem isAncestor with ⟨front, back, within⟩
                  have above : Lineage program next.declaring (level :: back) := by
                    rw [declares]
                    apply lineage.suffix
                    rw [within, List.cons_append]
                  have shorter : back.length ≤ fuel := by
                    rw [within, List.length_append, List.length_cons] at enough
                    omega
                  exact .follows starts searched (inductionHypothesis above shorter)

/-- A method has one root at most. -/
theorem Rooted.unique {method : MethodDef} {result other : Result MethodDef}
    (rooted : Rooted program method result) (rival : Rooted program method other) :
    result = other := by
  induction rooted generalizing other with
  | own starts =>
      cases rival with
      | own _ => rfl
      | first overrides _ => exact absurd (starts.symm.trans overrides) (by decide)
      | fails overrides _ => exact absurd (starts.symm.trans overrides) (by decide)
      | follows overrides _ _ => exact absurd (starts.symm.trans overrides) (by decide)
  | first overrides searched =>
      cases rival with
      | own starts => exact absurd (starts.symm.trans overrides) (by decide)
      | first _ _ => rfl
      | fails _ again => exact absurd (searched.symm.trans again) (by simp)
      | follows _ again _ => exact absurd (searched.symm.trans again) (by simp)
  | fails overrides searched =>
      cases rival with
      | own starts => exact absurd (starts.symm.trans overrides) (by decide)
      | first _ again => exact absurd (searched.symm.trans again) (by simp)
      | fails _ again => exact congrArg Except.error (Except.error.inj (searched.symm.trans again))
      | follows _ again _ => exact absurd (searched.symm.trans again) (by simp)
  | follows overrides searched walks inductionHypothesis =>
      cases rival with
      | own starts => exact absurd (starts.symm.trans overrides) (by decide)
      | first _ again => exact absurd (searched.symm.trans again) (by simp)
      | fails _ again => exact absurd (searched.symm.trans again) (by simp)
      | follows _ again walksThen =>
          have sameNext := Option.some.inj (Except.ok.inj (searched.symm.trans again))
          rw [← sameNext] at walksThen
          exact inductionHypothesis walksThen

theorem rooted_rootDeclaration (wellFormed : program.WellFormed) {method : MethodDef}
    {type : TypeDef} (declared : program.typeDef method.declaring = .ok type) :
    Rooted program method (program.rootDeclaration method) := by
  rcases wellFormed.lineages method.declaring type declared with ⟨chain, lineage⟩
  rcases lineage.exists_cons with ⟨own, ancestors, split, _⟩
  have bound := lineage.length_le
  rw [split] at lineage bound
  rw [List.length_cons] at bound
  exact rooted_rootDeclarationWith wellFormed lineage (Nat.le_of_succ_le bound)

/-- An overriding method has the root of the method that it overrides. -/
theorem rootDeclaration_eq_of_overridden? (wellFormed : program.WellFormed)
    {method next : MethodDef} {type : TypeDef}
    (declared : program.typeDef method.declaring = .ok type)
    (overrides : (!method.isVirtual || method.startsSlot) = false)
    (searched : program.overridden? method = .ok (some next)) :
    program.rootDeclaration method = program.rootDeclaration next := by
  rcases wellFormed.lineages method.declaring type declared with ⟨chain, lineage⟩
  rcases lineage.exists_cons with ⟨own, ancestors, split, _⟩
  rw [split] at lineage
  rcases declaring_of_overridden? wellFormed lineage searched with ⟨level, isAncestor, declares⟩
  have declaredNext := lineage.typeDef_of_mem (List.mem_cons_of_mem own isAncestor)
  rw [← declares] at declaredNext
  exact (rooted_rootDeclaration wellFormed declared).unique
    (.follows overrides searched (rooted_rootDeclaration wellFormed declaredNext))

end Methods

/-! ## All walks -/

/-- No bound cuts a walk along definitions short. -/
structure WalksEnd (program : Program) : Prop where
  elements : forall token type, program.typeDef token = .ok type -> exists inner,
    Innermost program token inner ∧ program.innermost token = .ok inner
  bases : forall token type, program.typeDef token = .ok type -> exists chain,
    Lineage program token chain ∧ program.lineage token = .ok chain
  interfaces : forall level, level ∈ program.types -> forall found, exists all,
    Collects program level.interfaces found all ∧ program.collectInterfaces found level = .ok all
  overrides : forall method, program.Known (.method method) ->
    Rooted program method (program.rootDeclaration method)

theorem walksEnd {program : Program} (wellFormed : program.WellFormed)
    (connected : program.Connected) (ends : program.ArraysEnd) : program.WalksEnd where
  elements := fun _ _ declared => exists_innermost connected ends declared
  bases := by
    intro token type declared
    rcases wellFormed.lineages token type declared with ⟨chain, lineage⟩
    exact ⟨chain, lineage, lineage.lineage_eq⟩
  interfaces := fun _ member found => exists_collectInterfaces connected member found
  overrides := by
    intro method known
    rcases connected.declaring (.method method) known.mem_callables with ⟨type, declared⟩
    exact rooted_rootDeclaration wellFormed declared

end Program
end CilGraph
