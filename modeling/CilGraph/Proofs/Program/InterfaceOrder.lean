import CilGraph.Proofs.Program.Sound

namespace CilGraph
namespace Program

/-!
# The interfaces of a type and their order

The interfaces of a type are collected from a stack of pending tokens, and everything
that was found before is skipped, on the same level of the lineage and on all levels
below it.  Nothing keeps interfaces from naming each other in a circle, or one
interface from being named in several places.

What is found is exactly what can be reached, and the order is depth first.  Both follow
from a description without the stack.  `Program.Unfolds` says how a list of tokens
unfolds: each new one is followed by all that its own interfaces unfold to, and only then
comes the next.  An order of this kind can be read off again at each of its members: the
tokens behind a member that are first reached through it are those to which a way leads
along tokens that were not found before, and they follow it immediately.
-/

/-- A type names an interface. -/
def NamesInterface (program : Program) (token interface : Token) : Prop :=
  exists type, program.typeDef token = .ok type ∧ interface ∈ type.interfaces

/-- A type names an interface that was not seen. -/
def NamesNew (program : Program) (seen : List Token) (token interface : Token) : Prop :=
  program.NamesInterface token interface ∧ interface ∉ seen

/-- One type is the base type of the other. -/
def HasBase (program : Program) (token base : Token) : Prop :=
  exists type, program.typeDef token = .ok type ∧ type.base = some base

/-- What one of several types reaches by naming interfaces. -/
def ReachedFrom (program : Program) (levels : List TypeDef) (interface : Token) : Prop :=
  exists level, level ∈ levels ∧ Relation.TransGen program.NamesInterface level.token interface

/-- Behind every token of an order stand, first of all, the tokens to which a way leads
from it past all that was known and all that stands before. -/
def DepthFirst (program : Program) (known order : List Token) : Prop :=
  forall front token rest, order = front ++ token :: rest -> exists through back,
    rest = through ++ back ∧ forall other, other ∈ through ↔
      Relation.TransGen (program.NamesNew (known ++ front ++ [token])) token other

/-- The interfaces of a type with a given lineage, in their order. -/
structure ListsInterfaces (program : Program) (token : Token) (chain : List TypeDef)
    (interfaces : List Token) : Prop where
  nodup : interfaces.Nodup
  reached : forall interface, interface ∈ interfaces ↔ exists base,
    Relation.ReflTransGen program.HasBase token base ∧
      Relation.TransGen program.NamesInterface base interface
  /-- What a level contributes stands behind everything from the levels below. -/
  levels : forall below level above, chain = below ++ level :: above ->
    exists front group back, interfaces = front ++ group ++ back ∧
      (forall interface, interface ∈ front ↔ program.ReachedFrom below interface) ∧
      forall interface, interface ∈ group ↔
        Relation.TransGen program.NamesInterface level.token interface ∧
          ¬ program.ReachedFrom below interface
  depthFirst : program.DepthFirst [] interfaces

/-- How tokens unfold into an order, where some tokens are known. -/
inductive Unfolds (program : Program) : List Token -> List Token -> List Token -> Prop
  | done {known : List Token} : Unfolds program known [] []
  | skip {known pending order : List Token} {token : Token} (again : token ∈ known)
      (unfolds : Unfolds program known pending order) :
      Unfolds program known (token :: pending) order
  | visit {known pending through after : List Token} {token : Token} {type : TypeDef}
      (isNew : token ∉ known) (declared : program.typeDef token = .ok type)
      (inside : Unfolds program (known ++ [token]) type.interfaces through)
      (outside : Unfolds program (known ++ token :: through) pending after) :
      Unfolds program known (token :: pending) (token :: (through ++ after))

section Unfolding

variable {program : Program} {known pending order found all : List Token} {token other : Token}

/-! ## From the stack to the order -/

theorem Unfolds.split {first second : List Token}
    (unfolds : Unfolds program known (first ++ second) order) : exists front back,
      order = front ++ back ∧ Unfolds program known first front ∧
        Unfolds program (known ++ front) second back := by
  induction first generalizing known order with
  | nil => exact ⟨[], order, rfl, .done, by simpa using unfolds⟩
  | cons token rest inductionHypothesis =>
      cases unfolds with
      | skip again unfolds =>
          rcases inductionHypothesis unfolds with ⟨front, back, split, ofFirst, ofSecond⟩
          exact ⟨front, back, split, .skip again ofFirst, ofSecond⟩
      | @visit _ _ through after _ _ isNew declared inside outside =>
          rcases inductionHypothesis outside with ⟨front, back, split, ofFirst, ofSecond⟩
          refine ⟨token :: (through ++ front), back, ?_, .visit isNew declared inside ofFirst, ?_⟩
          · simp [split]
          · simpa using ofSecond

/-- The stack holds what is left to unfold, the interfaces of the last visit on top. -/
theorem Collects.unfolds (collects : Collects program pending found all) : exists order,
    all = found ++ order ∧ Unfolds program found pending order := by
  induction collects with
  | done => exact ⟨[], (List.append_nil _).symm, .done⟩
  | skip again _ inductionHypothesis =>
      rcases inductionHypothesis with ⟨order, grown, unfolds⟩
      exact ⟨order, grown, .skip again unfolds⟩
  | @expand interface _ _ _ _ isNew declared _ inductionHypothesis =>
      rcases inductionHypothesis with ⟨order, grown, unfolds⟩
      rcases unfolds.split with ⟨through, after, split, inside, outside⟩
      refine ⟨interface :: (through ++ after), ?_, .visit isNew declared inside ?_⟩
      · simp [grown, split]
      · simpa using outside

/-! ## What an order contains -/

theorem NamesNew.mono {seen more : List Token} (included : seen ⊆ more)
    (names : program.NamesNew more token other) : program.NamesNew seen token other :=
  ⟨names.1, fun member => names.2 (included member)⟩

theorem way_mono {seen more : List Token} (included : seen ⊆ more)
    (way : Relation.ReflTransGen (program.NamesNew more) token other) :
    Relation.ReflTransGen (program.NamesNew seen) token other :=
  Relation.ReflTransGen.mono (fun _ _ names => names.mono included) _ _ way

/-- The way to a member of an order, from one of the tokens that unfold to it. -/
theorem Unfolds.exists_way (unfolds : Unfolds program known pending order)
    (member : token ∈ order) : exists first, first ∈ pending ∧ first ∉ known ∧
      Relation.ReflTransGen (program.NamesNew known) first token := by
  induction unfolds with
  | done => cases member
  | skip again _ inductionHypothesis =>
      rcases inductionHypothesis member with ⟨first, isPending, isNew, way⟩
      exact ⟨first, List.mem_cons_of_mem _ isPending, isNew, way⟩
  | @visit known _ through _ visited type isNew declared _ _ ofInside ofOutside =>
      rcases List.mem_cons.mp member with rfl | later
      · exact ⟨token, List.mem_cons_self, isNew, .refl⟩
      · rcases List.mem_append.mp later with isInside | isOutside
        · rcases ofInside isInside with ⟨first, named, firstNew, way⟩
          have included : known ⊆ known ++ [visited] := List.subset_append_left _ _
          have edge : program.NamesNew known visited first :=
            ⟨⟨type, declared, named⟩, fun again => firstNew (included again)⟩
          exact ⟨visited, List.mem_cons_self, isNew, .head edge (way_mono included way)⟩
        · rcases ofOutside isOutside with ⟨first, isPending, firstNew, way⟩
          have included : known ⊆ known ++ visited :: through := List.subset_append_left _ _
          exact ⟨first, List.mem_cons_of_mem _ isPending, fun again => firstNew (included again),
            way_mono included way⟩

theorem Unfolds.pending_subset (unfolds : Unfolds program known pending order) :
    pending ⊆ known ++ order := by
  induction unfolds with
  | done => exact List.nil_subset _
  | skip again _ inductionHypothesis =>
      exact List.cons_subset.mpr ⟨List.mem_append_left _ again, inductionHypothesis⟩
  | visit _ _ _ _ _ ofOutside =>
      apply List.cons_subset.mpr
      refine ⟨by simp, ?_⟩
      simpa using ofOutside

/-- Nothing that a member of an order names is left out. -/
theorem Unfolds.closed (unfolds : Unfolds program known pending order) (member : token ∈ order)
    (names : program.NamesInterface token other) : other ∈ known ++ order := by
  induction unfolds with
  | done => cases member
  | skip _ _ inductionHypothesis => exact inductionHypothesis member
  | @visit known _ through after visited type _ declared inside _ ofInside ofOutside =>
      have included : known ++ [visited] ++ through ⊆ known ++ visited :: (through ++ after) := by
        rw [← List.cons_append, ← List.append_assoc, List.append_assoc known]
        exact List.subset_append_left _ _
      rcases List.mem_cons.mp member with rfl | later
      · rcases names with ⟨definition, found, named⟩
        cases declared.symm.trans found
        exact included (inside.pending_subset named)
      · rcases List.mem_append.mp later with isInside | isOutside
        · exact included (ofInside isInside)
        · simpa using ofOutside isOutside

theorem Unfolds.mem_iff (unfolds : Unfolds program known pending order) :
    token ∈ order ↔ exists first, first ∈ pending ∧ first ∉ known ∧
      Relation.ReflTransGen (program.NamesNew known) first token := by
  constructor
  · exact unfolds.exists_way
  · rintro ⟨first, isPending, isNew, way⟩
    induction way with
    | refl =>
        rcases List.mem_append.mp (unfolds.pending_subset isPending) with again | isFirst
        · exact absurd again isNew
        · exact isFirst
    | tail _ names inductionHypothesis =>
        rcases List.mem_append.mp (unfolds.closed inductionHypothesis names.1) with again | isNext
        · exact absurd again names.2
        · exact isNext

/-- The interfaces of a type unfold to what can be reached from it. -/
theorem Unfolds.mem_interfaces_iff {type : TypeDef} (declared : program.typeDef token = .ok type)
    (unfolds : Unfolds program known type.interfaces order) :
    other ∈ order ↔ Relation.TransGen (program.NamesNew known) token other := by
  rw [unfolds.mem_iff, Relation.TransGen.head'_iff]
  constructor
  · rintro ⟨first, named, isNew, way⟩
    exact ⟨first, ⟨⟨type, declared, named⟩, isNew⟩, way⟩
  · rintro ⟨first, ⟨⟨definition, found, named⟩, isNew⟩, way⟩
    cases declared.symm.trans found
    exact ⟨first, named, isNew, way⟩

theorem Unfolds.nodup (unfolds : Unfolds program known pending order) (distinct : known.Nodup) :
    (known ++ order).Nodup := by
  induction unfolds with
  | done => simpa using distinct
  | skip _ _ inductionHypothesis => exact inductionHypothesis distinct
  | @visit known _ through after visited _ isNew _ _ _ ofInside ofOutside =>
      have once : (known ++ [visited]).Nodup := by
        rw [List.nodup_append_comm]
        exact List.nodup_cons.mpr ⟨isNew, distinct⟩
      have inside : (known ++ visited :: through).Nodup := by simpa using ofInside once
      simpa using ofOutside inside

/-! ## Depth first -/

/-- An order may be continued. -/
theorem DepthFirst.append {first second : List Token} (ofFirst : program.DepthFirst known first)
    (ofSecond : program.DepthFirst (known ++ first) second) :
    program.DepthFirst known (first ++ second) := by
  intro front token rest split
  rcases List.append_eq_append_iff.mp split with ⟨middle, within, later⟩ | ⟨middle, within, later⟩
  · rcases ofSecond middle token rest later with ⟨through, back, behind, reaches⟩
    refine ⟨through, back, behind, ?_⟩
    simpa [within] using reaches
  · cases middle with
    | nil =>
        rcases ofSecond [] token rest later.symm with ⟨through, back, behind, reaches⟩
        refine ⟨through, back, behind, ?_⟩
        simpa [within] using reaches
    | cons _ middle =>
        cases later
        rcases ofFirst front token middle within with ⟨through, back, behind, reaches⟩
        exact ⟨through, back ++ second, by simp [behind], reaches⟩

theorem Unfolds.depthFirst (unfolds : Unfolds program known pending order) :
    program.DepthFirst known order := by
  induction unfolds with
  | done => intro front token rest split; simp at split
  | skip _ _ inductionHypothesis => exact inductionHypothesis
  | @visit known _ through after visited _ _ declared inside _ ofInside ofOutside =>
      have visits : program.DepthFirst known (visited :: through) := by
        intro front token rest split
        cases front with
        | nil =>
            cases split
            refine ⟨through, [], (List.append_nil _).symm, fun other => ?_⟩
            simpa using inside.mem_interfaces_iff declared
        | cons _ front =>
            cases split
            simpa using ofInside front token rest rfl
      exact visits.append ofOutside

/-! ## Level by level -/

/-- What has been found when some levels are done. -/
def CoversLevels (program : Program) (levels : List TypeDef) (found : List Token) : Prop :=
  forall interface, interface ∈ found ↔ program.ReachedFrom levels interface

theorem CoversLevels.closed {levels : List TypeDef} (covers : program.CoversLevels levels found)
    (member : token ∈ found) (names : program.NamesInterface token other) : other ∈ found := by
  rcases (covers token).mp member with ⟨level, isLevel, way⟩
  exact (covers other).mpr ⟨level, isLevel, way.tail names⟩

/-- A way to something new does not pass what was found, since what was found leads
nowhere new. -/
theorem CoversLevels.way_iff {levels : List TypeDef} (covers : program.CoversLevels levels found) :
    Relation.TransGen (program.NamesNew found) token other ↔
      Relation.TransGen program.NamesInterface token other ∧ other ∉ found := by
  constructor
  · intro way
    refine ⟨Relation.TransGen.mono (fun _ _ names => names.1) _ _ way, ?_⟩
    rcases Relation.TransGen.tail'_iff.mp way with ⟨_, _, names⟩
    exact names.2
  · rintro ⟨way, isNew⟩
    induction way with
    | single names => exact .single ⟨names, isNew⟩
    | tail _ names inductionHypothesis =>
        exact .tail (inductionHypothesis (fun again => isNew (covers.closed again names)))
          ⟨names, isNew⟩

theorem CoversLevels.grow {levels : List TypeDef} {level : TypeDef}
    (covers : program.CoversLevels levels found)
    (contributes : forall interface, interface ∈ order ↔
      Relation.TransGen program.NamesInterface level.token interface ∧ interface ∉ found) :
    program.CoversLevels (levels ++ [level]) (found ++ order) := by
  intro interface
  rw [List.mem_append]
  constructor
  · rintro (earlier | now)
    · rcases (covers interface).mp earlier with ⟨lower, isLower, way⟩
      exact ⟨lower, List.mem_append_left _ isLower, way⟩
    · exact ⟨level, List.mem_append_right _ List.mem_cons_self, ((contributes interface).mp now).1⟩
  · rintro ⟨other, isOther, way⟩
    by_cases earlier : interface ∈ found
    · exact Or.inl earlier
    · rcases List.mem_append.mp isOther with isLower | isLevel
      · exact Or.inl ((covers interface).mpr ⟨other, isLower, way⟩)
      · rw [List.mem_singleton.mp isLevel] at way
        exact Or.inr ((contributes interface).mpr ⟨way, earlier⟩)

/-- What the walk through several levels adds. -/
theorem CollectsLevels.inOrder {chain done : List TypeDef} (walks : CollectsLevels program chain found all)
    (declared : forall level, level ∈ chain -> program.typeDef level.token = .ok level)
    (covers : program.CoversLevels done found) (distinct : found.Nodup) :
    exists order, all = found ++ order ∧ all.Nodup ∧ program.DepthFirst found order ∧
      program.CoversLevels (done ++ chain) all ∧
      forall below level above, chain = below ++ level :: above -> exists front group back,
        all = front ++ group ++ back ∧ program.CoversLevels (done ++ below) front ∧
        forall interface, interface ∈ group ↔
          Relation.TransGen program.NamesInterface level.token interface ∧ interface ∉ front := by
  induction walks generalizing done with
  | done =>
      refine ⟨[], (List.append_nil _).symm, distinct, ?_, by simpa using covers, ?_⟩
      · intro front token rest split
        simp at split
      · intro below level above split
        simp at split
  | @level first levels found next all collects _ inductionHypothesis =>
      rcases List.forall_mem_cons.mp declared with ⟨ofFirst, ofLevels⟩
      rcases collects.unfolds with ⟨order, rfl, unfolds⟩
      have contributes : forall interface, interface ∈ order ↔
          Relation.TransGen program.NamesInterface first.token interface ∧ interface ∉ found :=
        fun interface => (unfolds.mem_interfaces_iff ofFirst).trans covers.way_iff
      rcases inductionHypothesis ofLevels (covers.grow contributes) (unfolds.nodup distinct) with
        ⟨others, rfl, nodup, depthFirst, coversAll, inLevels⟩
      refine ⟨order ++ others, List.append_assoc .., nodup, unfolds.depthFirst.append depthFirst,
        by simpa using coversAll, ?_⟩
      intro below level above split
      cases below with
      | nil =>
          cases split
          exact ⟨found, order, others, rfl, by simpa using covers, contributes⟩
      | cons _ below =>
          cases split
          simpa using inLevels below level above rfl

end Unfolding

/-- A lineage consists of what can be reached along base types. -/
theorem Lineage.mem_iff {program : Program} {token base : Token} {chain : List TypeDef}
    (lineage : Lineage program token chain) :
    (exists level, level ∈ chain ∧ level.token = base) ↔
      Relation.ReflTransGen program.HasBase token base := by
  induction lineage with
  | @root token type found noBase =>
      have isToken := (token_of_typeDef found).2
      constructor
      · rintro ⟨level, member, same⟩
        rw [List.mem_singleton.mp member, isToken] at same
        rw [same]
      · intro way
        rcases way.cases_head with same | ⟨next, ⟨definition, again, hasBase⟩, _⟩
        · exact ⟨type, List.mem_cons_self, isToken.trans same⟩
        · cases found.symm.trans again
          cases noBase.symm.trans hasBase
  | @derived token next type ancestors found hasBase above inductionHypothesis =>
      have isToken := (token_of_typeDef found).2
      constructor
      · rintro ⟨level, member, same⟩
        rcases List.mem_cons.mp member with rfl | isAncestor
        · rw [← same, isToken]
        · exact .head ⟨type, found, hasBase⟩ (inductionHypothesis.mp ⟨level, isAncestor, same⟩)
      · intro way
        rcases way.cases_head with same | ⟨other, ⟨definition, again, hasOther⟩, onwards⟩
        · exact ⟨type, List.mem_cons_self, isToken.trans same⟩
        · cases found.symm.trans again
          cases hasBase.symm.trans hasOther
          rcases inductionHypothesis.mpr onwards with ⟨level, isAncestor, same⟩
          exact ⟨level, List.mem_cons_of_mem type isAncestor, same⟩

/-- The interfaces of a type are always there, whatever steps the program came from and
however interfaces name each other, and they are those that can be reached, depth first. -/
theorem interfaces_listed {steps : List DraftStep} {program : Program}
    (built : (Draft.ofSteps steps).build = .ok program) {type : TypeDef}
    (member : type ∈ program.types) :
    exists chain interfaces, Lineage program type.token chain ∧
      program.interfaces type.token = .ok interfaces ∧
      program.ListsInterfaces type.token chain interfaces := by
  have founded := founded_of_build built
  have declared := founded.apart.typeDef_of_mem member
  rcases exists_interfaces founded.wellFormed founded.connected declared with
    ⟨chain, interfaces, lineage, walks, listed⟩
  have nothing : program.CoversLevels [] [] := by
    intro interface
    simp [ReachedFrom]
  rcases walks.inOrder (fun level isLevel => lineage.typeDef_of_mem isLevel) nothing .nil with
    ⟨order, all, nodup, depthFirst, covers, inLevels⟩
  rw [List.nil_append] at all
  subst all
  refine ⟨chain, interfaces, lineage, listed, nodup, ?_, ?_, depthFirst⟩
  · intro interface
    rw [covers interface]
    simp only [← lineage.mem_iff]
    constructor
    · rintro ⟨level, isLevel, way⟩
      exact ⟨level.token, ⟨level, isLevel, rfl⟩, way⟩
    · rintro ⟨_, ⟨level, isLevel, rfl⟩, way⟩
      exact ⟨level, isLevel, way⟩
  · intro below level above split
    rcases inLevels below level above split with ⟨front, group, back, together, ofBelow, ofLevel⟩
    refine ⟨front, group, back, together, ofBelow, fun interface => ?_⟩
    rw [ofLevel, ofBelow interface]
    rfl

/-- A lantern is a device.  What is lit is powered, what is powered can be switched, and what
can be switched is lit and powered.  A lantern is named lit and switched, a device powered and
stocked, and what is stocked names itself. -/
def sampleLanternSteps : List DraftStep := [
  .type (some ⟨0x02000002⟩) "Demo" "Lantern" TypeAttributes.exported (some ⟨0x02000001⟩),
  .type (some ⟨0x02000001⟩) "Demo" "Device" TypeAttributes.exported none,
  .type none "Demo" "Lit" TypeAttributes.interface none,
  .type none "Demo" "Powered" TypeAttributes.interface none,
  .type none "Demo" "Switched" TypeAttributes.interface none,
  .type none "Demo" "Stocked" TypeAttributes.interface none,
  .interface ⟨0x02000002⟩ ⟨0x02000003⟩,
  .interface ⟨0x02000002⟩ ⟨0x02000005⟩,
  .interface ⟨0x02000003⟩ ⟨0x02000004⟩,
  .interface ⟨0x02000004⟩ ⟨0x02000005⟩,
  .interface ⟨0x02000005⟩ ⟨0x02000003⟩,
  .interface ⟨0x02000005⟩ ⟨0x02000004⟩,
  .interface ⟨0x02000001⟩ ⟨0x02000004⟩,
  .interface ⟨0x02000001⟩ ⟨0x02000006⟩,
  .interface ⟨0x02000006⟩ ⟨0x02000006⟩]

def sampleLanternProgram : Program :=
  (Draft.ofSteps sampleLanternSteps).build.toOption.getD ⟨[], [], [], [], []⟩

theorem build_sampleLanternProgram :
    (Draft.ofSteps sampleLanternSteps).build = .ok sampleLanternProgram :=
  Result.eq_ok_getD (by decide +kernel) _

def sampleLantern : TypeDef :=
  ⟨⟨0x02000002⟩, "Demo", "Lantern", TypeAttributes.exported, some ⟨0x02000001⟩, none,
    [⟨0x02000003⟩, ⟨0x02000005⟩], [], [], []⟩

theorem sampleLantern_listed :
    sampleLantern ∈ sampleLanternProgram.types ∧
    sampleLanternProgram.interfaces sampleLantern.token =
      .ok [⟨0x02000003⟩, ⟨0x02000004⟩, ⟨0x02000005⟩, ⟨0x02000006⟩] ∧
    exists chain interfaces, Lineage sampleLanternProgram sampleLantern.token chain ∧
      sampleLanternProgram.interfaces sampleLantern.token = .ok interfaces ∧
      sampleLanternProgram.ListsInterfaces sampleLantern.token chain interfaces := by
  have member : sampleLantern ∈ sampleLanternProgram.types := by decide +kernel
  exact ⟨member, by decide +kernel, interfaces_listed build_sampleLanternProgram member⟩

end Program
end CilGraph
