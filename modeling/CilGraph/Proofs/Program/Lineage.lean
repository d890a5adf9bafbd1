import CilGraph.Program
import CilGraph.Proofs.Result
import Mathlib.Data.List.Nodup
import Mathlib.Data.List.Perm.Subperm

namespace CilGraph
namespace Program

/-!
# Lineages

A lineage goes from a type through its base types to one without a base type.
The relation says this without a bound on the number of steps.  A type has one
lineage at most.  From this alone it follows that no type occurs in a lineage
twice: from its second occurrence the lineage would have to go on as it did
from the first, and would never end.  So a lineage is no longer than the list
of types, and the bounded walk along it is never cut short.
-/

/-- A type and its base types up to one that has none. -/
inductive Lineage (program : Program) : Token -> List TypeDef -> Prop
  | root {token : Token} {type : TypeDef} (found : program.typeDef token = .ok type)
      (noBase : type.base = none) : Lineage program token [type]
  | derived {token base : Token} {type : TypeDef} {ancestors : List TypeDef}
      (found : program.typeDef token = .ok type) (hasBase : type.base = some base)
      (above : Lineage program base ancestors) : Lineage program token (type :: ancestors)

theorem token_of_typeDef {program : Program} {token : Token} {type : TypeDef}
    (found : program.typeDef token = .ok type) : type ∈ program.types ∧ type.token = token := by
  unfold typeDef at found
  split at found
  · rename_i same
    cases found
    have selected := List.find?_some same
    exact ⟨List.mem_of_find?_eq_some same, eq_of_beq selected⟩
  · cases found

theorem mem_tokens_of_typeDef {program : Program} {token : Token} {type : TypeDef}
    (declared : program.typeDef token = .ok type) : token ∈ program.types.map TypeDef.token := by
  rcases token_of_typeDef declared with ⟨member, isToken⟩
  exact List.mem_map.mpr ⟨type, member, isToken⟩

namespace Lineage

variable {program : Program} {token : Token} {chain other : List TypeDef}

theorem eq (first : Lineage program token chain) (second : Lineage program token other) :
    chain = other := by
  induction first generalizing other with
  | root found noBase =>
      cases second with
      | root foundAgain _ =>
          rw [found] at foundAgain
          rw [Except.ok.inj foundAgain]
      | derived foundAgain hasBase _ =>
          rw [found] at foundAgain
          rw [← Except.ok.inj foundAgain, noBase] at hasBase
          cases hasBase
  | derived found hasBase above inductionHypothesis =>
      cases second with
      | root foundAgain noBase =>
          rw [found] at foundAgain
          rw [← Except.ok.inj foundAgain, hasBase] at noBase
          cases noBase
      | derived foundAgain hasOther aboveOther =>
          rw [found] at foundAgain
          have sameType := Except.ok.inj foundAgain
          rw [← sameType, hasBase] at hasOther
          rw [← Option.some.inj hasOther] at aboveOther
          rw [sameType, inductionHypothesis aboveOther]

theorem exists_cons (lineage : Lineage program token chain) :
    exists type ancestors, chain = type :: ancestors ∧ program.typeDef token = .ok type := by
  cases lineage with
  | root found noBase => exact ⟨_, [], rfl, found⟩
  | derived found hasBase above => exact ⟨_, _, rfl, found⟩

theorem exists_self (lineage : Lineage program token chain) :
    exists level, level ∈ chain ∧ token = level.token := by
  rcases lineage.exists_cons with ⟨type, ancestors, split, found⟩
  rw [split]
  exact ⟨type, List.mem_cons_self, (token_of_typeDef found).2.symm⟩

/-- What follows an ancestor in a lineage is its own lineage. -/
theorem suffix (lineage : Lineage program token chain) {front back : List TypeDef}
    {type : TypeDef} (split : chain = front ++ type :: back) :
    Lineage program type.token (type :: back) := by
  induction lineage generalizing front with
  | @root token root found noBase =>
      cases front with
      | nil =>
          cases split
          rw [(token_of_typeDef found).2]
          exact .root found noBase
      | cons first rest => simp at split
  | @derived token base first ancestors found hasBase above inductionHypothesis =>
      cases front with
      | nil =>
          cases split
          rw [(token_of_typeDef found).2]
          exact .derived found hasBase above
      | cons head rest =>
          rw [List.cons_append] at split
          exact inductionHypothesis (List.cons.inj split).2

theorem of_mem (lineage : Lineage program token chain) {type : TypeDef} (member : type ∈ chain) :
    exists back, Lineage program type.token (type :: back) := by
  rcases List.append_of_mem member with ⟨front, back, split⟩
  exact ⟨back, lineage.suffix split⟩

theorem typeDef_of_mem (lineage : Lineage program token chain) {type : TypeDef}
    (member : type ∈ chain) : program.typeDef type.token = .ok type := by
  rcases lineage.of_mem member with ⟨back, above⟩
  rcases above.exists_cons with ⟨first, others, same, found⟩
  cases same
  exact found

theorem mem_types (lineage : Lineage program token chain) {type : TypeDef}
    (member : type ∈ chain) : type ∈ program.types :=
  (token_of_typeDef (lineage.typeDef_of_mem member)).1

theorem nodup (lineage : Lineage program token chain) : (chain.map TypeDef.token).Nodup := by
  induction lineage with
  | root found noBase => exact List.nodup_singleton _
  | @derived token base type ancestors found hasBase above inductionHypothesis =>
      refine List.nodup_cons.mpr ⟨?_, inductionHypothesis⟩
      intro again
      rcases List.mem_map.mp again with ⟨repeated, member, sameToken⟩
      rcases List.append_of_mem member with ⟨front, back, split⟩
      have shorter : Lineage program token (repeated :: back) := by
        have after := above.suffix split
        rw [sameToken, (token_of_typeDef found).2] at after
        exact after
      have same := congrArg List.length (shorter.eq (.derived found hasBase above))
      rw [split] at same
      simp only [List.length_cons, List.length_append] at same
      omega

theorem length_le (lineage : Lineage program token chain) :
    chain.length ≤ program.types.length := by
  have included : chain.map TypeDef.token ⊆ program.types.map TypeDef.token := by
    intro other member
    rcases List.mem_map.mp member with ⟨type, among, same⟩
    exact List.mem_map.mpr ⟨type, lineage.mem_types among, same⟩
  have bound := (lineage.nodup.subperm included).length_le
  rw [List.length_map, List.length_map] at bound
  exact bound

theorem lineageWith_eq (lineage : Lineage program token chain) {fuel : Nat}
    (enough : chain.length ≤ fuel) : program.lineageWith fuel token = .ok chain := by
  induction lineage generalizing fuel with
  | root found noBase =>
      cases fuel with
      | zero => cases enough
      | succ fuel =>
          refine Result.bind_eq_ok.mpr ⟨_, found, ?_⟩
          simp only [noBase]
  | derived found hasBase above inductionHypothesis =>
      cases fuel with
      | zero => cases enough
      | succ fuel =>
          refine Result.bind_eq_ok.mpr ⟨_, found, ?_⟩
          simp only [hasBase]
          rw [inductionHypothesis (Nat.le_of_succ_le_succ enough)]
          rfl

/-- The walk along base types finds the whole lineage. -/
theorem lineage_eq (lineage : Lineage program token chain) :
    program.lineage token = .ok chain :=
  lineage.lineageWith_eq (Nat.le_succ_of_le lineage.length_le)

end Lineage
end Program
end CilGraph
