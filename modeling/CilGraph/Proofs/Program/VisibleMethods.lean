import CilGraph.Proofs.Program.Sound
import Mathlib.Data.List.Pairwise

namespace CilGraph
namespace Program

/-!
# The visible methods of a type

The methods that are visible on a type are collected while going up its lineage, and
three things keep a method out: it is static, it is private on another type, or there is
one with its signature already.  The order of these tests matters.  A method that is
not offered must not hide another, so it has to be passed over before its signature is
looked at.

A type declares the methods that it lists.  `Program.Offers` says which of them a type
of the lineage offers, and `Program.FirstOffered` which of several offers with one
signature counts.  The list is described by these two alone.  It is a run of groups,
one for each type of the lineage, each in declaration order; and for everything that is
offered there is exactly one method with its signature, the first of the most derived
type that offers one.
-/

/-- The methods of a list are those that the types of a lineage offer and that nothing
hides. -/
structure Exposes (program : Program) (token : Token) (chain : List TypeDef)
    (methods : List MethodDef) : Prop where
  instances : forall method, method ∈ methods -> method.isStatic = false
  inherited : forall method, method ∈ methods -> method.declaring ≠ token ->
    method.isPrivate = false
  distinct : Distinct methods
  /-- The methods stand in the order of the lineage, and those of one type in the order
  of their declaration. -/
  ordered : exists groups, methods = groups.flatten ∧
    List.Forall₂ (fun level group => exists declared, program.declaredMethods level = .ok declared ∧
      group.Sublist declared ∧ forall method, method ∈ group -> method.declaring = level.token)
      chain groups
  /-- What is offered is there, or hidden by the one that counts. -/
  complete : forall level, level ∈ chain -> forall wanted, program.Offers token level wanted ->
    exists found, found ∈ methods ∧ program.FirstOffered token chain wanted found ∧
      forall other, other ∈ methods -> other.sameSignature wanted = true -> other = found

/-! ## What is added to the visible methods -/

/-- What is visible stays in front, and some of the methods are added in their order. -/
theorem exists_added (visible methods : List MethodDef) : exists added,
    addVisible visible methods = visible ++ added ∧ added.Sublist methods := by
  unfold addVisible
  induction methods generalizing visible with
  | nil => exact ⟨[], (List.append_nil _).symm, .slnil⟩
  | cons first rest inductionHypothesis =>
      rw [List.foldl_cons]
      split
      · rcases inductionHypothesis visible with ⟨added, grown, sublist⟩
        exact ⟨added, grown, sublist.cons first⟩
      · rcases inductionHypothesis (visible ++ [first]) with ⟨added, grown, sublist⟩
        refine ⟨first :: added, ?_, sublist.cons_cons first⟩
        rw [grown, List.append_assoc, List.singleton_append]

/-- Every group adds some of its methods behind those of the groups before. -/
theorem exists_added_groups (visible : List MethodDef) (groups : List (List MethodDef)) :
    exists added, groups.foldl addVisible visible = visible ++ added.flatten ∧
      List.Forall₂ (fun group kept => kept.Sublist group) groups added := by
  induction groups generalizing visible with
  | nil => exact ⟨[], (List.append_nil _).symm, .nil⟩
  | cons group rest inductionHypothesis =>
      rcases exists_added visible group with ⟨first, grown, ofGroup⟩
      rcases inductionHypothesis (visible ++ first) with ⟨others, grownThen, ofRest⟩
      refine ⟨first :: others, ?_, .cons ofGroup ofRest⟩
      rw [List.foldl_cons, grown, grownThen, List.flatten_cons, List.append_assoc]

/-- Different methods of a list with distinct signatures have different ones. -/
theorem Distinct.eq_of_sameSignature {methods : List MethodDef} (distinct : Distinct methods)
    {first second : MethodDef} (isFirst : first ∈ methods) (isSecond : second ∈ methods)
    (same : first.sameSignature second = true) : first = second := by
  have symmetric : Std.Symm (fun one other : MethodDef => ¬ one.sameSignature other = true) :=
    ⟨fun _ _ apart again => apart (MethodDef.sameSignature_symm again)⟩
  by_contra differ
  exact List.Pairwise.forall distinct isFirst isSecond differ same

/-! ## The visible methods of a type of a program -/

section Levels

variable {program : Program} {token : Token} {own : TypeDef} {ancestors : List TypeDef}
  {methods : List MethodDef}

theorem Offers.declaring (wellFormed : program.WellFormed) {level : TypeDef}
    (member : level ∈ program.types) {method : MethodDef}
    (offers : program.Offers token level method) : method.declaring = level.token := by
  rcases offers.listed with ⟨declared, listed, among⟩
  exact wellFormed.declares level member declared listed method among

/-- The visible methods of a type fall into groups, one for each type of the lineage. -/
theorem ordered_instanceMethods (wellFormed : program.WellFormed)
    (lineage : Lineage program token (own :: ancestors))
    (listed : program.instanceMethods token = .ok methods) :
    exists groups, methods = groups.flatten ∧
      List.Forall₂ (fun level group => exists declared,
        program.declaredMethods level = .ok declared ∧ group.Sublist declared ∧
        forall method, method ∈ group -> method.declaring = level.token)
        (own :: ancestors) groups := by
  rcases exists_offered lineage listed with ⟨groups, collected, offerings⟩
  rcases exists_added_groups [] groups with ⟨added, grown, sublists⟩
  rw [List.nil_append] at grown
  refine ⟨added, collected.trans grown, ?_⟩
  have ofProgram := (List.forall₂_and_left _ _).mpr
    ⟨fun level member => lineage.mem_types member, offerings⟩
  refine forall₂_of_shared ?_ ofProgram.flip sublists
  rintro group level kept ⟨member, declared, ofLevel, rfl⟩ sublist
  have ofDeclared := sublist.trans List.filter_sublist
  refine ⟨declared, ofLevel, ofDeclared, ?_⟩
  intro method among
  exact wellFormed.declares level member declared ofLevel method (ofDeclared.subset among)

/-- Something with the signature of an offered method is visible. -/
theorem exists_visible (lineage : Lineage program token (own :: ancestors))
    (listed : program.instanceMethods token = .ok methods) {level : TypeDef}
    (isLevel : level ∈ own :: ancestors) {wanted : MethodDef}
    (offers : program.Offers token level wanted) : exists found,
      methods.find? (fun candidate => candidate.sameSignature wanted) = some found := by
  rcases exists_offered lineage listed with ⟨groups, collected, offerings⟩
  rcases Result.exists_of_mem_left offerings isLevel with ⟨group, among, offering⟩
  have offered : wanted ∈ groups.flatten :=
    List.mem_flatten.mpr ⟨group, among, offering.mem_iff.mpr offers⟩
  rw [collected, find?_foldl_addVisible, List.nil_append]
  apply Option.isSome_iff_exists.mp
  rw [List.find?_isSome]
  exact ⟨wanted, offered, wanted.sameSignature_refl⟩

end Levels

/-- The methods that are visible on a type are always there, whatever steps the program
came from, and they are what the types of its lineage offer and nothing hides. -/
theorem instanceMethods_exposed {steps : List DraftStep} {program : Program}
    (built : (Draft.ofSteps steps).build = .ok program) {type : TypeDef}
    (member : type ∈ program.types) :
    exists chain methods, Lineage program type.token chain ∧
      program.instanceMethods type.token = .ok methods ∧
      program.Exposes type.token chain methods := by
  have founded := founded_of_build built
  have declared := founded.apart.typeDef_of_mem member
  rcases founded.exists_lineage declared with ⟨ancestors, lineage⟩
  rcases exists_instanceMethods founded.wellFormed founded.lists declared with ⟨methods, listed⟩
  have distinct : Distinct methods := by
    rcases exists_offered lineage listed with ⟨groups, collected, _⟩
    rw [collected]
    exact distinct_foldl_addVisible .nil
  refine ⟨type :: ancestors, methods, lineage, listed, ?_⟩
  constructor
  case distinct => exact distinct
  case ordered => exact ordered_instanceMethods founded.wellFormed lineage listed
  case instances =>
    intro method among
    rcases exists_offers_of_mem lineage listed among with ⟨level, _, offers⟩
    exact offers.isInstance
  case inherited =>
    intro method among foreign
    rcases exists_offers_of_mem lineage listed among with ⟨level, isLevel, offers⟩
    rcases offers.reaches with isOwn | isOpen
    · have declares := offers.declaring founded.wellFormed (lineage.mem_types isLevel)
      exact absurd (declares.trans isOwn) foreign
    · exact isOpen
  case complete =>
    intro level isLevel wanted offers
    rcases exists_visible lineage listed isLevel offers with ⟨found, selected⟩
    have isFound := List.mem_of_find?_eq_some selected
    have signature : found.sameSignature wanted = true := by simpa using List.find?_some selected
    refine ⟨found, isFound, firstOffered_of_find? lineage listed selected, ?_⟩
    intro other isOther same
    apply distinct.eq_of_sameSignature isOther isFound
    exact MethodDef.sameSignature_trans same (MethodDef.sameSignature_symm signature)

/-- A clerk is a person, and a person is a guest.  What a person signs in private and how
persons greet as a class do not hide what a guest does.  A clerk has two ways to file with
one signature, and leaving is taken over on the way. -/
def sampleReceptionSteps : List DraftStep := [
  .type (some ⟨0x02000003⟩) "Demo" "Clerk" TypeAttributes.exported (some ⟨0x02000002⟩),
  .type (some ⟨0x02000002⟩) "Demo" "Person" TypeAttributes.exported (some ⟨0x02000001⟩),
  .type (some ⟨0x02000001⟩) "Demo" "Guest" TypeAttributes.exported none,
  .method none ⟨0x02000001⟩ "Sign" ⟨6, 0, 0⟩ none [] none,
  .method none ⟨0x02000001⟩ "Greet" ⟨6, 0x0040, 0x0100⟩ none [] none,
  .method none ⟨0x02000001⟩ "Leave" ⟨6, 0x0040, 0x0100⟩ none [] none,
  .method none ⟨0x02000002⟩ "Sign" ⟨1, 0, 0⟩ none [] none,
  .method none ⟨0x02000002⟩ "Greet" ⟨6, 0x0010, 0⟩ none [] none,
  .method none ⟨0x02000002⟩ "Leave" ⟨6, 0x0040, 0⟩ none [] none,
  .method none ⟨0x02000003⟩ "File" ⟨1, 0, 0⟩ none [] none,
  .method none ⟨0x02000003⟩ "File" ⟨6, 0, 0⟩ none [] none]

def sampleReception : Program :=
  (Draft.ofSteps sampleReceptionSteps).build.toOption.getD ⟨[], [], [], [], []⟩

theorem build_sampleReception : (Draft.ofSteps sampleReceptionSteps).build = .ok sampleReception :=
  Result.eq_ok_getD (by decide +kernel) _

/-- The clerk. -/
def sampleClerk : TypeDef :=
  ⟨⟨0x02000003⟩, "Demo", "Clerk", TypeAttributes.exported, some ⟨0x02000002⟩, none, [], [],
    [⟨0x06000007⟩, ⟨0x06000008⟩], []⟩

theorem sampleClerk_exposed :
    sampleClerk ∈ sampleReception.types ∧
    (sampleReception.instanceMethods sampleClerk.token).map (List.map MethodDef.token) =
      .ok [⟨0x06000007⟩, ⟨0x06000006⟩, ⟨0x06000001⟩, ⟨0x06000002⟩] ∧
    exists chain methods, Lineage sampleReception sampleClerk.token chain ∧
      sampleReception.instanceMethods sampleClerk.token = .ok methods ∧
      sampleReception.Exposes sampleClerk.token chain methods := by
  have member : sampleClerk ∈ sampleReception.types := by decide +kernel
  exact ⟨member, by decide +kernel, instanceMethods_exposed build_sampleReception member⟩

end Program
end CilGraph
