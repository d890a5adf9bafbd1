import CilGraph.Proofs.Program.Sound

namespace CilGraph

/-!
# Root declarations are canonical

The root declaration of a method is found by a walk that starts anew from every
method that it meets.  What each of the searches may pass over is decided by the
attributes of what it finds: a method that is not virtual neither stops a search
nor is found by it, and a virtual method that starts a slot of its own is found and
ends the walk.

One search is described without the walk: `Program.NearestAbove` relates a method to
the first method on the nearest proper base type whose slot it can take over.  A
search finds exactly that method.  From this the root is seen to be canonical.  It has
the signature of the method and is declared on its lineage, it is its own root, and
all methods along the walk share it.  A method is its own root exactly if it starts a
slot, because every search goes to a proper base type.
-/

namespace MethodDef

/-- The slot of another method is open to a method with its signature. -/
def CanTakeOver (method other : MethodDef) : Prop :=
  other.isVirtual = true ∧ other.sameSignature method = true

/-- A method that has a slot of its own, or none, whatever the base types declare. -/
def StandsAlone (method : MethodDef) : Prop :=
  method.isVirtual = false ∨ method.startsSlot = true

theorem standsAlone_iff {method : MethodDef} :
    method.StandsAlone ↔ (!method.isVirtual || method.startsSlot) = true := by
  simp [StandsAlone]

theorem canTakeOver_iff {method other : MethodDef} :
    method.CanTakeOver other ↔ (other.isVirtual && other.sameSignature method) = true := by
  simp [CanTakeOver]

end MethodDef

namespace Program

/-- The first method that the nearest proper base type declares, among those whose
slot a method can take over. -/
def NearestAbove (program : Program) (method next : MethodDef) : Prop :=
  exists own below level above front back,
    Lineage program method.declaring (own :: (below ++ level :: above)) ∧
    program.declaredMethods level = .ok (front ++ next :: back) ∧
    method.CanTakeOver next ∧
    (forall earlier, earlier ∈ front -> ¬ method.CanTakeOver earlier) ∧
    forall lower, lower ∈ below -> forall declared, program.declaredMethods lower = .ok declared ->
      forall other, other ∈ declared -> ¬ method.CanTakeOver other

/-- None of some types declares a method whose slot a method can take over. -/
def NoneAbove (program : Program) (ancestors : List TypeDef) (method : MethodDef) : Prop :=
  forall level, level ∈ ancestors -> forall declared, program.declaredMethods level = .ok declared ->
    forall other, other ∈ declared -> ¬ method.CanTakeOver other

/-- What is true of the root declaration of a method with a given lineage. -/
structure Canonical (program : Program) (own : TypeDef) (ancestors : List TypeDef)
    (method root : MethodDef) : Prop where
  among : Callable.method root ∈ program.callables
  signature : root.sameSignature method = true
  level : exists level, level ∈ own :: ancestors ∧ root.declaring = level.token
  isVirtual : root = method ∨ root.isVirtual = true
  /-- The root is its own root. -/
  fixed : program.rootDeclaration root = .ok root
  /-- A method shares its root with the method that it overrides. -/
  shared : method.isVirtual = true -> method.startsSlot = false ->
    forall next, program.NearestAbove method next -> program.rootDeclaration next = .ok root
  own_iff : root = method ↔ method.StandsAlone ∨ program.NoneAbove ancestors method

/-! ## One search -/

section Searches

variable {Item Value : Type} {action : Item -> Result (Option Value)} {items front back : List Item}
  {item : Item} {value : Value}

theorem eq_none_of_findSomeM? (searched : items.findSomeM? action = .ok none) :
    forall item, item ∈ items -> action item = .ok none := by
  induction items with
  | nil => simp
  | cons first rest inductionHypothesis =>
      rcases Result.bind_eq_ok.mp searched with ⟨found, acted, continued⟩
      cases found with
      | some other => cases continued
      | none => exact List.forall_mem_cons.mpr ⟨acted, inductionHypothesis continued⟩

theorem findSomeM?_eq_of_split (passed : forall earlier, earlier ∈ front -> action earlier = .ok none)
    (acted : action item = .ok (some value)) :
    (front ++ item :: back).findSomeM? action = .ok (some value) := by
  induction front with
  | nil => exact Result.bind_eq_ok.mpr ⟨some value, acted, rfl⟩
  | cons first rest inductionHypothesis =>
      rcases List.forall_mem_cons.mp passed with ⟨ofFirst, ofRest⟩
      exact Result.bind_eq_ok.mpr ⟨none, ofFirst, inductionHypothesis ofRest⟩

end Searches

section Walks

variable {program : Program} {method next root : MethodDef} {own : TypeDef}
  {ancestors : List TypeDef} {level : TypeDef}

/-- The first method of a type whose slot a method can take over. -/
def takenOver? (program : Program) (method : MethodDef) (level : TypeDef) :
    Result (Option MethodDef) := do
  let declared ← program.declaredMethods level
  .ok (declared.find? (fun candidate => candidate.isVirtual && candidate.sameSignature method))

theorem takenOver?_eq_some (searched : program.takenOver? method level = .ok (some next)) :
    exists front back, program.declaredMethods level = .ok (front ++ next :: back) ∧
      method.CanTakeOver next ∧ forall earlier, earlier ∈ front -> ¬ method.CanTakeOver earlier := by
  rcases Result.bind_eq_ok.mp searched with ⟨declared, listed, chosen⟩
  rcases List.find?_eq_some_iff_append.mp (Except.ok.inj chosen) with
    ⟨isOpen, front, back, split, passed⟩
  subst split
  refine ⟨front, back, listed, MethodDef.canTakeOver_iff.mpr isOpen, ?_⟩
  intro earlier member takes
  have differs := passed earlier member
  simp [MethodDef.canTakeOver_iff.mp takes] at differs

theorem takenOver?_eq_none (lists : program.ListsMethods) (member : level ∈ program.types) :
    program.takenOver? method level = .ok none ↔
      forall declared, program.declaredMethods level = .ok declared ->
        forall other, other ∈ declared -> ¬ method.CanTakeOver other := by
  rcases lists level member with ⟨methods, listed⟩
  simp only [takenOver?, Result.bind_eq_ok, Except.ok.injEq, List.find?_eq_none,
    MethodDef.canTakeOver_iff]
  constructor
  · rintro ⟨declared, ofLevel, passed⟩ others ofOthers
    cases ofLevel.symm.trans ofOthers
    exact passed
  · exact fun passed => ⟨methods, listed, passed methods listed⟩

theorem overridden?_eq (lineage : Lineage program method.declaring (own :: ancestors)) :
    program.overridden? method = ancestors.findSomeM? (program.takenOver? method) := by
  unfold overridden?
  rw [lineage.lineage_eq]
  rfl

/-- A search finds nothing but the nearest method above. -/
theorem nearestAbove_of_overridden? (lists : program.ListsMethods)
    (lineage : Lineage program method.declaring (own :: ancestors))
    (searched : program.overridden? method = .ok (some next)) : program.NearestAbove method next := by
  rw [overridden?_eq lineage] at searched
  rcases exists_first_of_findSomeM? searched with ⟨below, level, above, split, passed, found⟩
  subst split
  rcases takenOver?_eq_some found with ⟨front, back, listed, takes, earlier⟩
  refine ⟨own, below, level, above, front, back, lineage, listed, takes, earlier, ?_⟩
  intro lower member
  have ofProgram : lower ∈ program.types := by
    apply lineage.mem_types
    simp [member]
  exact (takenOver?_eq_none lists ofProgram).mp (passed lower member)

/-- The nearest method above is found. -/
theorem overridden?_of_nearestAbove (lists : program.ListsMethods)
    (nearest : program.NearestAbove method next) :
    program.overridden? method = .ok (some next) := by
  rcases nearest with
    ⟨own, below, level, above, front, back, lineage, listed, takes, earlier, lower⟩
  rw [overridden?_eq lineage]
  apply findSomeM?_eq_of_split
  · intro type member
    have ofProgram : type ∈ program.types := by
      apply lineage.mem_types
      simp [member]
    exact (takenOver?_eq_none lists ofProgram).mpr (lower type member)
  · refine Result.bind_eq_ok.mpr ⟨_, listed, congrArg Except.ok ?_⟩
    apply List.find?_eq_some_iff_append.mpr
    refine ⟨MethodDef.canTakeOver_iff.mp takes, front, back, rfl, ?_⟩
    intro other member
    rw [Bool.not_eq_true', Bool.eq_false_iff]
    exact fun isOpen => earlier other member (MethodDef.canTakeOver_iff.mpr isOpen)

theorem noneAbove_iff (lists : program.ListsMethods)
    (lineage : Lineage program method.declaring (own :: ancestors)) :
    program.NoneAbove ancestors method ↔ program.overridden? method = .ok none := by
  rw [overridden?_eq lineage]
  have ofProgram : forall level, level ∈ ancestors -> level ∈ program.types :=
    fun level member => lineage.mem_types (List.mem_cons_of_mem own member)
  constructor
  · intro none
    have passes : forall level, level ∈ ancestors -> program.takenOver? method level = .ok .none :=
      fun level member => (takenOver?_eq_none lists (ofProgram level member)).mpr (none level member)
    rcases Result.exists_findSomeM? (fun level member => ⟨.none, passes level member⟩) with
      ⟨found, searched⟩
    cases found with
    | none => exact searched
    | some next =>
        rcases findSomeM?_eq_some searched with ⟨level, member, acted⟩
        cases (passes level member).symm.trans acted
  · intro searched level member
    apply (takenOver?_eq_none lists (ofProgram level member)).mp
    exact eq_none_of_findSomeM? searched level member

/-! ## The whole walk -/

namespace NearestAbove

theorem signature (nearest : program.NearestAbove method next) :
    next.sameSignature method = true := by
  rcases nearest with ⟨_, _, _, _, _, _, _, _, takes, _, _⟩
  exact takes.2

theorem isVirtual (nearest : program.NearestAbove method next) : next.isVirtual = true := by
  rcases nearest with ⟨_, _, _, _, _, _, _, _, takes, _, _⟩
  exact takes.1

theorem among (nearest : program.NearestAbove method next) :
    Callable.method next ∈ program.callables := by
  rcases nearest with ⟨_, _, _, _, _, _, _, listed, _, _, _⟩
  apply Known.mem_callables
  apply known_of_mem_declaredMethods listed
  simp

end NearestAbove

/-- A walk goes from a method to the nearest one above, as long as there is one. -/
theorem Rooted.reaches (founded : program.Founded) (rooted : Rooted program method (.ok root))
    (among : Callable.method method ∈ program.callables) :
    Relation.ReflTransGen program.NearestAbove method root := by
  generalize ends : (.ok root : Result MethodDef) = result at rooted
  induction rooted with
  | own _ => cases ends; exact .refl
  | first _ _ => cases ends; exact .refl
  | fails _ _ => cases ends
  | follows overrides searched walks inductionHypothesis =>
      rcases founded.connected.declaring _ among with ⟨type, declared⟩
      rcases founded.exists_lineage declared with ⟨ancestors, lineage⟩
      have nearest := nearestAbove_of_overridden? founded.lists lineage searched
      exact .head nearest (inductionHypothesis nearest.among ends)

/-- The walk from a root ends where it starts. -/
theorem Rooted.fixed (rooted : Rooted program method (.ok root)) :
    Rooted program root (.ok root) := by
  generalize ends : (.ok root : Result MethodDef) = result at rooted
  induction rooted with
  | own starts => cases ends; exact .own starts
  | first overrides searched => cases ends; exact .first overrides searched
  | fails _ _ => cases ends
  | follows overrides searched walks inductionHypothesis => exact inductionHypothesis ends

theorem signature_of_reaches (walk : Relation.ReflTransGen program.NearestAbove method root) :
    root.sameSignature method = true := by
  induction walk with
  | refl => exact method.sameSignature_refl
  | tail _ nearest inductionHypothesis =>
      exact MethodDef.sameSignature_trans nearest.signature inductionHypothesis

theorem among_of_reaches (walk : Relation.ReflTransGen program.NearestAbove method root)
    (among : Callable.method method ∈ program.callables) :
    Callable.method root ∈ program.callables := by
  cases walk with
  | refl => exact among
  | tail _ nearest => exact nearest.among

theorem isVirtual_of_reaches (walk : Relation.ReflTransGen program.NearestAbove method root) :
    root = method ∨ root.isVirtual = true := by
  cases walk with
  | refl => exact Or.inl rfl
  | tail _ nearest => exact Or.inr nearest.isVirtual

/-- Whatever is reached from the nearest method above is declared above as well. -/
theorem level_of_nearestAbove (founded : program.Founded)
    (lineage : Lineage program method.declaring (own :: ancestors))
    (nearest : program.NearestAbove method next) (ends : program.rootDeclaration next = .ok root) :
    exists level, level ∈ ancestors ∧ root.declaring = level.token := by
  rcases nearest with ⟨first, below, level, above, front, back, split, listed, _, _, _⟩
  cases lineage.eq split
  have ofProgram : level ∈ program.types := by
    apply lineage.mem_types
    simp
  have declares : next.declaring = level.token := by
    apply founded.wellFormed.declares level ofProgram _ listed
    simp
  have onwards : Lineage program next.declaring (level :: above) := by
    rw [declares]
    exact lineage.suffix (List.cons_append ..).symm
  rcases declaring_of_rootDeclaration founded.wellFormed onwards ends with ⟨highest, member, same⟩
  exact ⟨highest, List.mem_append_right below member, same⟩

/-- A method shares its root with the nearest method above. -/
theorem rootDeclaration_of_nearestAbove (founded : program.Founded)
    (among : Callable.method method ∈ program.callables) (alone : ¬ method.StandsAlone)
    (nearest : program.NearestAbove method next) :
    program.rootDeclaration method = program.rootDeclaration next := by
  rcases founded.connected.declaring _ among with ⟨type, declared⟩
  apply rootDeclaration_eq_of_overridden? founded.wellFormed declared
  · rw [MethodDef.standsAlone_iff, Bool.not_eq_true] at alone
    exact alone
  · exact overridden?_of_nearestAbove founded.lists nearest

/-- A walk does not leave a method that stands alone, or above which there is none. -/
theorem Rooted.eq_own (rooted : Rooted program method (.ok root))
    (stays : method.StandsAlone ∨ program.overridden? method = .ok none) : root = method := by
  cases rooted with
  | own _ => rfl
  | first _ _ => rfl
  | follows overrides searched _ =>
      rcases stays with alone | none
      · rw [MethodDef.standsAlone_iff, overrides] at alone
        cases alone
      · cases searched.symm.trans none

/-- A walk that leaves a method does not come back, since it goes up the lineage. -/
theorem stays_of_rootDeclaration (founded : program.Founded)
    (lineage : Lineage program method.declaring (own :: ancestors))
    (among : Callable.method method ∈ program.callables)
    (ends : program.rootDeclaration method = .ok method) :
    method.StandsAlone ∨ program.NoneAbove ancestors method := by
  by_cases alone : method.StandsAlone
  · exact Or.inl alone
  · apply Or.inr
    rcases lineage.exists_cons with ⟨_, _, split, declared⟩
    cases split
    rcases exists_overridden? founded.wellFormed founded.lists declared with ⟨found, searched⟩
    cases found with
    | none => exact (noneAbove_iff founded.lists lineage).mpr searched
    | some next =>
        have nearest := nearestAbove_of_overridden? founded.lists lineage searched
        rw [rootDeclaration_of_nearestAbove founded among alone nearest] at ends
        rcases level_of_nearestAbove founded lineage nearest ends with ⟨level, isAncestor, same⟩
        have again : own.token ∈ ancestors.map TypeDef.token := by
          rw [(token_of_typeDef declared).2, same]
          exact List.mem_map_of_mem isAncestor
        exact absurd again (List.nodup_cons.mp lineage.nodup).1

end Walks

/-- Every method has a root declaration, whatever steps the program came from, and it
is canonical. -/
theorem rootDeclaration_canonical {steps : List DraftStep} {program : Program}
    (built : (Draft.ofSteps steps).build = .ok program) {method : MethodDef}
    (among : Callable.method method ∈ program.callables) :
    exists root own ancestors, Rooted program method (.ok root) ∧
      program.rootDeclaration method = .ok root ∧
      Lineage program method.declaring (own :: ancestors) ∧
      program.Canonical own ancestors method root := by
  have founded := founded_of_build built
  rcases founded.connected.declaring _ among with ⟨own, declared⟩
  rcases founded.exists_lineage declared with ⟨ancestors, lineage⟩
  have rooted := rooted_rootDeclaration founded.wellFormed declared
  rcases rooted.exists_root founded.wellFormed founded.lists declared with ⟨root, ends⟩
  rw [ends] at rooted
  have walk := rooted.reaches founded among
  have rootAmong := among_of_reaches walk among
  refine ⟨root, own, ancestors, rooted, ends, lineage, ?_⟩
  constructor
  case among => exact rootAmong
  case signature => exact signature_of_reaches walk
  case level => exact declaring_of_rootDeclaration founded.wellFormed lineage ends
  case isVirtual => exact isVirtual_of_reaches walk
  case fixed =>
    rcases founded.connected.declaring _ rootAmong with ⟨type, declaredThere⟩
    exact (rooted_rootDeclaration founded.wellFormed declaredThere).unique rooted.fixed
  case shared =>
    intro isVirtual startsNone next nearest
    have alone : ¬ method.StandsAlone := by simp [MethodDef.StandsAlone, isVirtual, startsNone]
    rw [← rootDeclaration_of_nearestAbove founded among alone nearest]
    exact ends
  case own_iff =>
    constructor
    · intro isOwn
      rw [isOwn] at ends
      exact stays_of_rootDeclaration founded lineage among ends
    · intro stays
      rw [noneAbove_iff founded.lists lineage] at stays
      exact rooted.eq_own stays

/-- A fiddle is a violin, which is a string instrument.  Playing one hides the way to
play any instrument behind a method that is not virtual, takes it over again, and
starts anew. -/
def sampleOrchestraSteps : List DraftStep := [
  .type (some ⟨0x02000004⟩) "Demo" "Fiddle" TypeAttributes.exported (some ⟨0x02000003⟩),
  .type (some ⟨0x02000003⟩) "Demo" "Violin" TypeAttributes.exported (some ⟨0x02000002⟩),
  .type (some ⟨0x02000002⟩) "Demo" "Strings" TypeAttributes.exported (some ⟨0x02000001⟩),
  .type (some ⟨0x02000001⟩) "Demo" "Instrument" TypeAttributes.exported none,
  .type (some ⟨0x02000005⟩) "Demo" "Prop" TypeAttributes.exported (some ⟨0x02000004⟩),
  .method none ⟨0x02000001⟩ "Play" ⟨6, 0x0040, 0x0100⟩ none [] none,
  .method none ⟨0x02000002⟩ "Play" ⟨6, 0, 0⟩ none [] none,
  .method none ⟨0x02000003⟩ "Play" ⟨6, 0x0040, 0⟩ none [] none,
  .method none ⟨0x02000004⟩ "Play" ⟨6, 0x0040, 0x0100⟩ none [] none,
  .method none ⟨0x02000005⟩ "Play" ⟨6, 0x0040, 0⟩ none [] none]

def sampleOrchestra : Program :=
  (Draft.ofSteps sampleOrchestraSteps).build.toOption.getD ⟨[], [], [], [], []⟩

theorem build_sampleOrchestra : (Draft.ofSteps sampleOrchestraSteps).build = .ok sampleOrchestra :=
  Result.eq_ok_getD (by decide +kernel) _

/-- The way to play a violin. -/
def sampleBowing : MethodDef :=
  ⟨⟨0x06000003⟩, "Play", ⟨0x02000003⟩, ⟨6, 0x0040, 0⟩, none, [], none⟩

theorem sampleBowing_canonical :
    Callable.method sampleBowing ∈ sampleOrchestra.callables ∧
    (sampleOrchestra.rootDeclaration sampleBowing).map MethodDef.token = .ok ⟨0x06000001⟩ ∧
    exists root own ancestors, Rooted sampleOrchestra sampleBowing (.ok root) ∧
      sampleOrchestra.rootDeclaration sampleBowing = .ok root ∧
      Lineage sampleOrchestra sampleBowing.declaring (own :: ancestors) ∧
      sampleOrchestra.Canonical own ancestors sampleBowing root := by
  have among : Callable.method sampleBowing ∈ sampleOrchestra.callables := by decide +kernel
  exact ⟨among, by decide +kernel, rootDeclaration_canonical build_sampleOrchestra among⟩

end Program
end CilGraph
