import CilGraph.Proofs.Dispatch.Compatibility
import CilGraph.Proofs.Dispatch.Finished
import CilGraph.Proofs.Dispatch.Transparency
import CilGraph.Proofs.Program.Sound

namespace CilGraph

/-!
# Interfaces of a type

The table of a type holds the table of each of its interfaces, and in the slots
that the interface declares stand the methods of the type.  Which method that is
depends on the signature alone: the first of the visible methods, so the one of
the most derived type.  No method has to say that it implements another.

The slots are filled one after the other in a copy of the table that the
interface has on its own, and a slot is found by the method that it holds.  A
slot that was filled holds a method of the type, and this may again be a method
of the interface, if the type derives from its own interface.  It is then found
a second time.  That does no harm: a method in a filled slot has the signature of
the method that was declared there, so it is replaced by itself.

An interface in whose place the type has no method is refused, and with it the
type.
-/

namespace Program

/-- What a slot of an interface holds in the table of a type, where `methods` are
the methods that are visible on the type. -/
def Implements (program : Program) (token : Token) (chain : List TypeDef)
    (methods : List MethodDef) (interface : Token) (declared slot : MethodDef) : Prop :=
  if declared.declaring = interface ∧ declared.isStatic = false then
    methods.find? (fun candidate => candidate.sameSignature declared) = some slot ∧
      program.Nearest token chain declared slot
  else slot = declared

/-- The pairs of an interface are its instance methods with the visible methods of
a type that have their signatures. -/
theorem interfaceMap_eq_ok {program : Program} {type : TypeDef} {interface : Token}
    {pairs : List (MethodDef × MethodDef)}
    (mapped : program.interfaceMap type interface = .ok pairs) :
    exists definition methods declared, program.typeDef interface = .ok definition ∧
      program.instanceMethods type.token = .ok methods ∧
      program.declaredMethods definition = .ok declared ∧
      List.Forall₂ (fun wanted pair => pair.1 = wanted ∧
          methods.find? (fun candidate => candidate.sameSignature wanted) = some pair.2)
        (declared.filter (fun wanted => !wanted.isStatic)) pairs := by
  rcases Result.bind_eq_ok.mp mapped with ⟨definition, found, listing⟩
  rcases Result.bind_eq_ok.mp listing with ⟨methods, listed, pairing⟩
  rcases Result.bind_eq_ok.mp pairing with ⟨declared, declares, paired⟩
  refine ⟨definition, methods, declared, found, listed, declares, ?_⟩
  refine (Result.mapM_eq_ok paired).imp ?_
  intro wanted pair implemented
  unfold implementation at implemented
  split at implemented
  · rename_i target selected
    cases implemented
    exact ⟨rfl, selected⟩
  · cases implemented

end Program

namespace Dispatch

/-! ## Filling slots -/

section Filling

variable {program : Program} {methods filled own members : List MethodDef}
  {declared slot wanted target : MethodDef}

/-- A slot while the slots of an interface are being filled, where `filled` are the
methods of the interface for which this was done. -/
def Filled (methods filled : List MethodDef) (declared slot : MethodDef) : Prop :=
  (declared ∈ filled ∧
      methods.find? (fun candidate => candidate.sameSignature declared) = some slot) ∨
    (declared ∉ filled ∧ slot = declared)

theorem Filled.signature (given : Filled methods filled declared slot) :
    slot.sameSignature declared = true := by
  rcases given with ⟨_, selected⟩ | ⟨_, same⟩
  · have signature := List.find?_some selected
    exact signature
  · rw [same]
    exact MethodDef.sameSignature_refl declared

theorem Filled.skip (given : Filled methods filled declared slot)
    (differs : declared ∉ filled -> declared ≠ wanted) :
    Filled methods (filled ++ [wanted]) declared slot := by
  rcases given with ⟨member, selected⟩ | ⟨missing, same⟩
  · exact Or.inl ⟨List.mem_append_left _ member, selected⟩
  · refine Or.inr ⟨?_, same⟩
    intro member
    rcases List.mem_append.mp member with earlier | isWanted
    · exact missing earlier
    · exact differs missing (List.mem_singleton.mp isWanted)

/-- A slot that holds the wanted method gets the one that implements it. -/
theorem Filled.fill (given : Filled methods filled declared wanted)
    (selected : methods.find? (fun candidate => candidate.sameSignature wanted) = some target) :
    Filled methods (filled ++ [wanted]) declared target := by
  refine Or.inl ⟨?_, ?_⟩
  · rcases given with ⟨member, _⟩ | ⟨_, same⟩
    · exact List.mem_append_left _ member
    · rw [same]
      exact List.mem_append_right _ List.mem_cons_self
  · rw [← selected]
    refine congrArg (methods.find? ·) (funext fun candidate => ?_)
    exact (MethodDef.sameSignature_congr given.signature candidate).symm

/-- Filling one slot keeps the others as they should be. -/
theorem forall₂_replaceToken (knownWanted : program.Known (.method wanted))
    (knownOwn : forall method, method ∈ own -> program.Known (.method method))
    (knownMethods : forall method, method ∈ methods -> program.Known (.method method))
    (distinct : Program.Distinct own)
    (selected : methods.find? (fun candidate => candidate.sameSignature wanted) = some target)
    (before : List.Forall₂ (Filled methods filled) own members) :
    List.Forall₂ (Filled methods (filled ++ [wanted])) own
      (Table.replaceToken wanted.token target members) := by
  induction before with
  | nil => exact .nil
  | @cons declared slot own members first rest inductionHypothesis =>
      rcases List.pairwise_cons.mp distinct with ⟨others, distinctRest⟩
      rcases List.forall_mem_cons.mp knownOwn with ⟨knownFirst, knownRest⟩
      unfold Table.replaceToken
      split
      · rename_i sameToken
        have knownSlot : program.Known (.method slot) := by
          rcases first with ⟨_, found⟩ | ⟨_, same⟩
          · exact knownMethods slot (List.mem_of_find?_eq_some found)
          · rw [same]
            exact knownFirst
        have isWanted : slot = wanted :=
          Callable.method.inj (knownSlot.eq_of_token knownWanted sameToken)
        rw [isWanted] at first
        refine .cons (first.fill selected) ?_
        refine forall₂_imp_of_mem rest (fun other later among _ given => given.skip ?_)
        intro _ same
        rw [same] at among
        exact others wanted among (MethodDef.sameSignature_symm first.signature)
      · rename_i otherToken
        refine .cons (first.skip ?_) (inductionHypothesis knownRest distinctRest)
        intro missing isWanted
        rcases first with ⟨member, _⟩ | ⟨_, same⟩
        · exact missing member
        · rw [same, isWanted] at otherToken
          exact otherToken rfl

/-- Filling the slots of an interface changes the slots of its table and nothing else. -/
theorem exists_foldl_implement {wanteds : List MethodDef} {pairs : List (MethodDef × MethodDef)}
    {table : Table} (knownWanteds : forall method, method ∈ wanteds -> program.Known (.method method))
    (knownOwn : forall method, method ∈ own -> program.Known (.method method))
    (knownMethods : forall method, method ∈ methods -> program.Known (.method method))
    (distinct : Program.Distinct own)
    (paired : List.Forall₂ (fun wanted pair => pair.1 = wanted ∧
      methods.find? (fun candidate => candidate.sameSignature wanted) = some pair.2) wanteds pairs)
    (before : List.Forall₂ (Filled methods filled) own table.members) :
    exists members,
      pairs.foldl (fun table pair => table.implement pair.1 pair.2) table =
          { table with members := members } ∧
        List.Forall₂ (Filled methods (filled ++ wanteds)) own members := by
  induction paired generalizing filled table with
  | nil =>
      refine ⟨table.members, ?_, ?_⟩
      · cases table
        exact List.foldl_nil
      · rw [List.append_nil]
        exact before
  | @cons wanted pair wanteds pairs first _ inductionHypothesis =>
      rcases List.forall_mem_cons.mp knownWanteds with ⟨knownFirst, knownRest⟩
      have now := forall₂_replaceToken knownFirst knownOwn knownMethods distinct first.2 before
      have filledFirst : List.Forall₂ (Filled methods (filled ++ [wanted])) own
          (table.implement pair.1 pair.2).members := by
        rw [← first.1] at now ⊢
        exact now
      rcases inductionHypothesis knownRest filledFirst with ⟨members, folded, after⟩
      refine ⟨members, folded, ?_⟩
      rw [List.append_assoc] at after
      exact after

end Filling

/-! ## Tables of interfaces -/

section Tables

variable {linkage : Linkage} {registry : Registry} {token interface : Token} {type : TypeDef}
  {layout : Layout} {node : Table}

/-- Of the slots of a type, those that it declares are its instance methods. -/
theorem mem_declared_iff (wellFormed : linkage.program.WellFormed)
    (unreplaced : linkage.substitutions = []) (found : linkage.program.typeDef token = .ok type)
    (made : Registry.Made linkage registry token layout) {declared : List MethodDef}
    (declares : linkage.program.declaredMethods type = .ok declared) {slot : MethodDef}
    (member : slot ∈ layout.table.members) :
    slot ∈ declared.filter (fun method => !method.isStatic) ↔
      slot.declaring = token ∧ slot.isStatic = false := by
  rcases wellFormed.lineages token type found with ⟨chain, lineage⟩
  rcases lineage.exists_cons with ⟨own, ancestors, split, foundOwn⟩
  rw [split] at lineage
  rw [found] at foundOwn
  cases Except.ok.inj foundOwn
  rcases Program.token_of_typeDef found with ⟨among, isToken⟩
  rcases assembled_of_made wellFormed unreplaced lineage made with
    ⟨base, tables, methods, ownMethods, assembled⟩
  have visible := assembled.visible
  have isVisible := (Layout.members_of_addMethods rfl visible.distinct assembled.folded).2.1 slot
    member
  have sameMethods := visible.listed.symm.trans declares
  cases sameMethods
  simp only [List.mem_filter, Bool.not_eq_true']
  constructor
  · rintro ⟨isDeclared, isInstance⟩
    exact ⟨(wellFormed.declares type among declared declares slot isDeclared).trans isToken,
      isInstance⟩
  · rintro ⟨isOwn, isInstance⟩
    have isFirst := (visible.ownMethods slot).mp ⟨isVisible, isOwn.trans isToken.symm⟩
    exact ⟨List.mem_of_find?_eq_some isFirst, isInstance⟩

theorem exists_pairs {own : Table} (isClass : type.isInterface = false)
    (implemented : Layout.implementInterface linkage type interface own = .ok node) :
    exists pairs, linkage.program.interfaceMap type interface = .ok pairs ∧
      pairs.foldl (fun table pair => table.implement pair.1 pair.2) own = node := by
  unfold Layout.implementInterface at implemented
  rw [if_neg (by rw [isClass]; exact Bool.false_ne_true)] at implemented
  rcases Result.bind_eq_ok.mp implemented with ⟨pairs, mapped, folded⟩
  exact ⟨pairs, mapped, Except.ok.inj folded⟩

/-- The table of an interface as a type has it. -/
theorem implementInterface_eq_ok {own : Table} (isClass : type.isInterface = false)
    (knownOwn : forall method, method ∈ own.members -> linkage.program.Known (.method method))
    (distinct : Program.Distinct own.members)
    (implemented : Layout.implementInterface linkage type interface own = .ok node) :
    exists definition methods declared, linkage.program.typeDef interface = .ok definition ∧
      linkage.program.instanceMethods type.token = .ok methods ∧
      linkage.program.declaredMethods definition = .ok declared ∧
      node = { own with members := node.members } ∧
      List.Forall₂ (Filled methods (declared.filter (fun method => !method.isStatic)))
        own.members node.members := by
  rcases exists_pairs isClass implemented with ⟨pairs, mapped, folded⟩
  rcases Program.interfaceMap_eq_ok mapped with
    ⟨definition, methods, declared, found, listed, declares, paired⟩
  have unfilled : List.Forall₂ (Filled methods []) own.members own.members :=
    List.forall₂_same.mpr (fun slot _ => Or.inr ⟨List.not_mem_nil, rfl⟩)
  have knownDeclared : forall method, method ∈ declared.filter (fun method => !method.isStatic) ->
      linkage.program.Known (.method method) :=
    fun method member => Program.known_of_mem_declaredMethods declares (List.mem_filter.mp member).1
  have knownMethods : forall method, method ∈ methods -> linkage.program.Known (.method method) :=
    fun method member => Program.known_of_mem_instanceMethods listed member
  rcases exists_foldl_implement knownDeclared knownOwn knownMethods distinct paired unfilled with
    ⟨members, isNode, filled⟩
  rw [isNode] at folded
  rw [← folded]
  exact ⟨definition, methods, declared, found, listed, declares, rfl, filled⟩

end Tables

/-! ## Registered types -/

/-- The table of an interface within that of a type, compared with the one that the
interface has on its own. -/
structure Implementing (program : Program) (token : Token) (chain : List TypeDef)
    (methods : List MethodDef) (interface : Token) (own node : Table) : Prop where
  type : node.type = interface
  /-- They differ in what their slots hold and in nothing else. -/
  alike : node = { own with members := node.members }
  slots : List.Forall₂ (program.Implements token chain methods interface) own.members node.members

section Registered

variable {linkage : Linkage} {registry : Registry} {token interface : Token} {type : TypeDef}
  {layout : Layout}

theorem grounded_of_unreplaced (wellFormed : linkage.program.WellFormed)
    (connected : linkage.program.Connected) (unreplaced : linkage.substitutions = []) :
    linkage.Grounded := by
  refine ⟨wellFormed, connected, fun token type declared => ⟨type, ?_⟩⟩
  rw [resolveType_of_unreplaced unreplaced]
  exact declared

theorem Layout.interfaces_of_addMethods {start final : Layout}
    (sorted : start.addMethods linkage = .ok final) : final.interfaces = start.interfaces := by
  rcases Result.bind_eq_ok.mp sorted with ⟨methods, _, folded⟩
  refine Layout.foldlM_addMethod (fun _ current => current.interfaces = start.interfaces) folded
    rfl ?_
  intro _ method current next _ _ kept step
  exact step.tables.1.trans kept

/-- A table of an interface whose slots were filled implements it. -/
theorem implements_of_filled (wellFormed : linkage.program.WellFormed)
    (unreplaced : linkage.substitutions = []) {chain : List TypeDef}
    (lineage : Program.Lineage linkage.program token chain) {definition : TypeDef}
    {methods declared members : List MethodDef}
    (shown : linkage.program.instanceMethods token = .ok methods)
    (found : linkage.program.typeDef interface = .ok definition)
    (made : Registry.Made linkage registry interface layout)
    (declares : linkage.program.declaredMethods definition = .ok declared)
    (filled : List.Forall₂ (Filled methods (declared.filter (fun method => !method.isStatic)))
      layout.table.members members) :
    List.Forall₂ (linkage.program.Implements token chain methods interface)
      layout.table.members members := by
  rcases lineage.exists_cons with ⟨first, ancestors, split, _⟩
  refine forall₂_imp_of_mem filled ?_
  intro wanted slot among _ given
  have isOwn := mem_declared_iff wellFormed unreplaced found made declares among
  unfold Program.Implements
  rcases given with ⟨isDeclared, selected⟩ | ⟨notDeclared, same⟩
  · rw [if_pos (isOwn.mp isDeclared)]
    rw [split] at lineage ⊢
    exact ⟨selected, (Program.firstOffered_of_find? lineage shown selected).nearest⟩
  · rw [if_neg (fun own => notDeclared (isOwn.mpr own))]
    exact same

/-- Every interface of a registered class has a table, and the class implements it. -/
theorem implementing_of_layout (wellFormed : linkage.program.WellFormed)
    (unreplaced : linkage.substitutions = []) (grown : Registry.Grows linkage {} registry)
    (declared : linkage.program.typeDef token = .ok type) (isClass : type.isInterface = false)
    {interfaces : List Token} {methods : List MethodDef} {chain : List TypeDef}
    (lineage : Program.Lineage linkage.program token chain)
    (listed : linkage.program.interfaces token = .ok interfaces)
    (shown : linkage.program.instanceMethods token = .ok methods)
    (plain : forall interface definition, interface ∈ interfaces ->
      linkage.program.typeDef interface = .ok definition -> definition.isArray = false)
    (found : registry.layout? token = some layout) :
    List.Forall₂ (fun interface node => exists own,
        Registry.table linkage interface registry = (.ok own, registry) ∧
          Implementing linkage.program token chain methods interface own node)
      interfaces layout.table.interfaces := by
  rcases grown.made found with ⟨other, resolved, base, needed, tables, origin⟩
  have resolves := origin.resolves
  rw [resolveType_of_unreplaced unreplaced, declared] at resolves
  cases resolves
  have isToken := (Program.token_of_typeDef declared).2
  have listedHere := origin.listed
  rw [isToken, listed] at listedHere
  cases listedHere
  have onInterfaces := (List.forall₂_and_left _ _).mpr ⟨fun _ member => member, origin.onInterfaces⟩
  change List.Forall₂ _ interfaces layout.interfaces
  rw [Layout.interfaces_of_addMethods origin.sorted]
  refine onInterfaces.imp ?_
  rintro interface node ⟨among, own, ⟨canonical, ownLayout, innermost, isLayout, same⟩, implemented⟩
  rcases Result.bind_eq_ok.mp innermost with ⟨definition, foundInterface, _⟩
  have ownInnermost := innermost_of_not_isArray foundInterface
    (plain interface definition among foundInterface)
  rw [ownInnermost] at innermost
  cases innermost
  have made := grown.made isLayout
  have knownOwn : forall method, method ∈ own.members -> linkage.program.Known (.method method) := by
    have nothing : Registry.Known linkage.program {} :=
      fun entry impossible => absurd impossible List.not_mem_nil
    intro method member
    refine (nothing.grows grown).tabled ⟨_, ownLayout, ownInnermost, isLayout, same⟩ method ?_
    rw [Table.slots_eq]
    exact List.mem_append_left _ (List.mem_append_left _ member)
  have distinct : Program.Distinct own.members := by
    rcases wellFormed.lineages interface definition foundInterface with ⟨above, ofInterface⟩
    rcases ofInterface.exists_cons with ⟨first, ancestors, split, _⟩
    rw [split] at ofInterface
    rw [same]
    exact distinct_of_made wellFormed unreplaced ofInterface made
  rcases implementInterface_eq_ok isClass knownOwn distinct implemented with
    ⟨found, methodsHere, declaredMethods, isFound, shownHere, declares, isNode, filled⟩
  rw [isToken, shown] at shownHere
  cases shownHere
  rw [foundInterface] at isFound
  cases isFound
  refine ⟨own, ?_, ?_, isNode, ?_⟩
  · rw [same]
    exact Registry.table_of_layout ownInnermost isLayout
  · have ofLayout := grown.typeDef_of_mem (Registry.mem_layouts_of_layout? isLayout)
    rw [isNode, same]
    exact (Program.token_of_typeDef ofLayout).2
  · rw [same] at filled ⊢
    exact implements_of_filled wellFormed unreplaced lineage shown foundInterface made declares filled

/-- A class that lacks a method of an interface is never registered. -/
theorem layout?_eq_none_of_lacking (unreplaced : linkage.substitutions = [])
    (grown : Registry.Grows linkage {} registry)
    (declared : linkage.program.typeDef token = .ok type) (isClass : type.isInterface = false)
    {interfaces : List Token} {methods inInterface : List MethodDef} {definition : TypeDef}
    (listed : linkage.program.interfaces token = .ok interfaces) (among : interface ∈ interfaces)
    (shown : linkage.program.instanceMethods token = .ok methods)
    (found : linkage.program.typeDef interface = .ok definition)
    (declares : linkage.program.declaredMethods definition = .ok inInterface) {wanted : MethodDef}
    (member : wanted ∈ inInterface) (isInstance : wanted.isStatic = false)
    (lacks : forall method, method ∈ methods -> ¬ method.sameSignature wanted = true) :
    registry.layout? token = none := by
  cases registered : registry.layout? token with
  | none => rfl
  | some layout =>
      rcases grown.made registered with ⟨other, resolved, base, needed, tables, origin⟩
      have resolves := origin.resolves
      rw [resolveType_of_unreplaced unreplaced, declared] at resolves
      cases resolves
      have isToken := (Program.token_of_typeDef declared).2
      have listedHere := origin.listed
      rw [isToken, listed] at listedHere
      cases listedHere
      rcases Result.exists_of_mem_left origin.onInterfaces among with
        ⟨node, _, own, _, implemented⟩
      rcases exists_pairs isClass implemented with ⟨pairs, mapped, _⟩
      rcases Program.interfaceMap_eq_ok mapped with
        ⟨otherDefinition, visible, others, foundHere, shownHere, declaresHere, paired⟩
      rw [found] at foundHere
      cases foundHere
      rw [isToken, shown] at shownHere
      cases shownHere
      rw [declares] at declaresHere
      cases declaresHere
      have isWanted : wanted ∈ inInterface.filter (fun method => !method.isStatic) :=
        List.mem_filter.mpr ⟨member, by rw [isInstance]; rfl⟩
      rcases Result.exists_of_mem_left paired isWanted with ⟨pair, _, _, selected⟩
      have signature := List.find?_some selected
      exact absurd signature (lacks pair.2 (List.mem_of_find?_eq_some selected))

end Registered

namespace Registry

/-- A class has one table for each of its interfaces, and in it the methods that
implement the interface.  A class that lacks one of them is refused. -/
theorem table_implements {steps : List DraftStep} {linkage : Linkage} {registry : Registry}
    {token : Token} {type : TypeDef}
    (built : (Draft.ofSteps steps).build = .ok linkage.program)
    (unreplaced : linkage.substitutions = []) (reachable : Reachable linkage registry)
    (declared : linkage.program.typeDef token = .ok type) (isClass : type.isInterface = false)
    (notArray : type.isArray = false)
    (plain : forall interfaces interface definition,
      linkage.program.interfaces token = .ok interfaces -> interface ∈ interfaces ->
        linkage.program.typeDef interface = .ok definition -> definition.isArray = false) :
    exists chain interfaces methods, Program.Lineage linkage.program token chain ∧
      linkage.program.interfaces token = .ok interfaces ∧
      linkage.program.instanceMethods token = .ok methods ∧
      (forall table after, Registry.table linkage token registry = (.ok table, after) ->
        List.Forall₂ (fun interface node => exists own,
            (Registry.table linkage interface registry).1 = .ok own ∧
            (Registry.table linkage interface after).1 = .ok own ∧
            Implementing linkage.program token chain methods interface own node)
          interfaces table.interfaces) ∧
      (forall interface definition inInterface wanted, interface ∈ interfaces ->
        linkage.program.typeDef interface = .ok definition ->
        linkage.program.declaredMethods definition = .ok inInterface -> wanted ∈ inInterface ->
        wanted.isStatic = false ->
        (forall method, method ∈ methods -> ¬ method.sameSignature wanted = true) ->
          (exists failure, (Registry.add linkage token registry).1 = .error failure) ∧
            (Registry.add linkage token registry).2.layout? token = none) := by
  have wellFormed := Draft.wellFormed_of_build (Draft.listsOwn_ofSteps steps) built
  have connected := Draft.connected_of_build (Draft.listsFields_ofSteps steps) built
  have lists := Program.listsMethods_of_build built
  have grounded := grounded_of_unreplaced wellFormed connected unreplaced
  have innermost := innermost_of_not_isArray declared notArray
  rcases Program.exists_interfaces wellFormed connected declared with
    ⟨chain, interfaces, lineage, _, listed⟩
  rcases Program.exists_instanceMethods wellFormed lists declared with ⟨methods, shown⟩
  refine ⟨chain, interfaces, methods, lineage, listed, shown, ?_, ?_⟩
  · intro table after obtained
    have outcome := ensures_table linkage token registry trivial
    rw [obtained] at outcome
    rcases outcome with ⟨growsLater, onSuccess⟩
    rcases onSuccess table rfl with ⟨canonical, layout, isCanonical, found, isTable⟩
    rw [innermost] at isCanonical
    cases isCanonical
    have grown := reachable.grows.trans growsLater
    rw [isTable]
    refine (implementing_of_layout wellFormed unreplaced grown declared isClass lineage listed
      shown (fun interface definition among => plain interfaces interface definition listed among)
      found).imp ?_
    rintro interface node ⟨own, obtains, implementing⟩
    refine ⟨own, ?_, congrArg Prod.fst obtains, implementing⟩
    rw [table_alike grounded reachable.grows grown interface]
    exact congrArg Prod.fst obtains
  · intro interface definition inInterface wanted among found declares member isInstance lacks
    have grown := reachable.grows.trans (grows_add linkage token registry)
    have absent := layout?_eq_none_of_lacking unreplaced grown declared isClass listed among shown
      found declares member isInstance lacks
    exact ⟨exists_error_of_absent innermost absent, absent⟩

/-- A disc is round and labelled, and both are shapes.  Its area is not that of the
figure that it derives from.  A blank claims to be a shape and has no area. -/
def sampleShapes : List DraftStep := [
  .type none "Demo" "IShape" TypeAttributes.interface none,
  .method none ⟨0x02000001⟩ "Area" ⟨6, 0x0440, 0x0100⟩ none [] none,
  .type none "Demo" "IRound" TypeAttributes.interface none,
  .interface ⟨0x02000002⟩ ⟨0x02000001⟩,
  .method none ⟨0x02000002⟩ "Radius" ⟨6, 0x0440, 0x0100⟩ none [] none,
  .type none "Demo" "ILabel" TypeAttributes.interface none,
  .interface ⟨0x02000003⟩ ⟨0x02000001⟩,
  .type none "Demo" "Figure" TypeAttributes.exported none,
  .interface ⟨0x02000004⟩ ⟨0x02000001⟩,
  .method none ⟨0x02000004⟩ "Area" ⟨6, 0x0040, 0x0100⟩ none [] (some ⟨8, true, [0x2A]⟩),
  .method none ⟨0x02000004⟩ "Radius" ⟨6, 0x0040, 0x0100⟩ none [] (some ⟨8, true, [0x2A]⟩),
  .type none "Demo" "Disc" TypeAttributes.exported (some ⟨0x02000004⟩),
  .interface ⟨0x02000005⟩ ⟨0x02000002⟩,
  .interface ⟨0x02000005⟩ ⟨0x02000003⟩,
  .method none ⟨0x02000005⟩ "Area" ⟨6, 0, 0x0100⟩ none [] (some ⟨8, true, [0x2A]⟩),
  .type none "Demo" "Blank" TypeAttributes.exported none,
  .interface ⟨0x02000006⟩ ⟨0x02000001⟩]

def sampleShapesProgram : Program :=
  (Draft.ofSteps sampleShapes).build.toOption.getD ⟨[], [], [], [], []⟩

theorem build_sampleShapes : (Draft.ofSteps sampleShapes).build = .ok sampleShapesProgram :=
  Result.eq_ok_getD (by decide +kernel) _

def sampleShapesLinkage : Linkage :=
  ⟨sampleShapesProgram, [], []⟩

def sampleShape : TypeDef :=
  ⟨⟨0x02000001⟩, "Demo", "IShape", TypeAttributes.interface, none, none, [], [], [⟨0x06000001⟩], []⟩

def sampleArea : MethodDef :=
  ⟨⟨0x06000001⟩, "Area", ⟨0x02000001⟩, ⟨6, 0x0440, 0x0100⟩, none, [], none⟩

def sampleDisc : TypeDef :=
  ⟨⟨0x02000005⟩, "Demo", "Disc", TypeAttributes.exported, some ⟨0x02000004⟩, none,
    [⟨0x02000002⟩, ⟨0x02000003⟩], [], [⟨0x06000005⟩], []⟩

def sampleBlank : TypeDef :=
  ⟨⟨0x02000006⟩, "Demo", "Blank", TypeAttributes.exported, none, none, [⟨0x02000001⟩], [], [], []⟩

theorem table_sampleDisc : exists table after,
    Registry.table sampleShapesLinkage ⟨0x02000005⟩ {} = (.ok table, after) ∧
      table.interfaces.map (fun node => (node.type, node.members.map MethodDef.token)) =
        [(⟨0x02000002⟩, [⟨0x06000004⟩]), (⟨0x02000001⟩, [⟨0x06000005⟩]), (⟨0x02000003⟩, [])] := by
  have computed : (match Registry.table sampleShapesLinkage ⟨0x02000005⟩ {} with
      | (.ok table, _) => decide (table.interfaces.map (fun node =>
          (node.type, node.members.map MethodDef.token)) =
        [(⟨0x02000002⟩, [⟨0x06000004⟩]), (⟨0x02000001⟩, [⟨0x06000005⟩]), (⟨0x02000003⟩, [])])
      | (.error _, _) => false) = true := by
    decide +kernel
  split at computed
  · rename_i table after obtained
    exact ⟨table, after, obtained, of_decide_eq_true computed⟩
  · cases computed

/-- The radius of a disc is that of the figure, its area is its own, and the blank is
refused. -/
theorem sampleDisc_implements :
    (exists table after chain methods,
      Registry.table sampleShapesLinkage ⟨0x02000005⟩ {} = (.ok table, after) ∧
        table.interfaces.map (fun node => (node.type, node.members.map MethodDef.token)) =
          [(⟨0x02000002⟩, [⟨0x06000004⟩]), (⟨0x02000001⟩, [⟨0x06000005⟩]), (⟨0x02000003⟩, [])] ∧
        List.Forall₂ (fun interface node => exists own,
            (Registry.table sampleShapesLinkage interface {}).1 = .ok own ∧
            (Registry.table sampleShapesLinkage interface after).1 = .ok own ∧
            Implementing sampleShapesProgram ⟨0x02000005⟩ chain methods interface own node)
          [⟨0x02000002⟩, ⟨0x02000001⟩, ⟨0x02000003⟩] table.interfaces) ∧
      (exists failure, (Registry.add sampleShapesLinkage ⟨0x02000006⟩ {}).1 = .error failure) ∧
      (Registry.add sampleShapesLinkage ⟨0x02000006⟩ {}).2.layout? ⟨0x02000006⟩ = none := by
  have noArrays : forall type, type ∈ sampleShapesProgram.types -> type.isArray = false := by
    decide +kernel
  have plain : forall interface definition,
      sampleShapesProgram.typeDef interface = .ok definition -> definition.isArray = false :=
    fun _ definition found => noArrays definition (Program.token_of_typeDef found).1
  have foundDisc : sampleShapesLinkage.program.typeDef ⟨0x02000005⟩ = .ok sampleDisc := by
    decide +kernel
  have foundBlank : sampleShapesLinkage.program.typeDef ⟨0x02000006⟩ = .ok sampleBlank := by
    decide +kernel
  refine ⟨?_, ?_⟩
  · rcases table_sampleDisc with ⟨table, after, obtained, slots⟩
    rcases table_implements build_sampleShapes (show sampleShapesLinkage.substitutions = [] from rfl)
      .empty foundDisc rfl rfl (fun _ interface definition _ _ => plain interface definition) with
      ⟨chain, interfaces, methods, _, listed, _, implements, _⟩
    have isListed : sampleShapesLinkage.program.interfaces ⟨0x02000005⟩ =
        .ok [⟨0x02000002⟩, ⟨0x02000001⟩, ⟨0x02000003⟩] := by
      decide +kernel
    rw [isListed] at listed
    cases listed
    exact ⟨table, after, chain, methods, obtained, slots, implements table after obtained⟩
  · rcases table_implements build_sampleShapes (show sampleShapesLinkage.substitutions = [] from rfl)
      .empty foundBlank rfl rfl (fun _ interface definition _ _ => plain interface definition) with
      ⟨_, interfaces, methods, _, listed, shown, _, refuses⟩
    have isListed : sampleShapesLinkage.program.interfaces ⟨0x02000006⟩ = .ok [⟨0x02000001⟩] := by
      decide +kernel
    have isShown : sampleShapesLinkage.program.instanceMethods ⟨0x02000006⟩ = .ok [] := by
      decide +kernel
    rw [isListed] at listed
    cases listed
    rw [isShown] at shown
    cases shown
    exact refuses ⟨0x02000001⟩ sampleShape [sampleArea] sampleArea List.mem_cons_self
      (by decide +kernel) (by decide +kernel) List.mem_cons_self rfl
      (fun method impossible => absurd impossible List.not_mem_nil)

end Registry
end Dispatch
end CilGraph
