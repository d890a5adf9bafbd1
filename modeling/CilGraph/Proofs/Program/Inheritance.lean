import CilGraph.Inheritance
import CilGraph.Proofs.Program.Built
import Mathlib.Data.List.Forall2

namespace CilGraph

/-!
# Methods along a lineage

The root declaration of a method stands on a type of the lineage of its
declaring type.  The methods that are visible on a type have different
signatures, and each is declared by a type of its lineage.  Those that the type
declares itself are exactly its instance methods that are not repeated: of
several with one signature the first counts.

All of this is about well-formed programs, in which a method that a type lists
is declared by that type.

The interfaces of a type do not leave a set that contains with every type its
base type and the interfaces that it names.  Nothing is assumed of the program
for this, and it holds however far the collection got.
-/

namespace MethodDef

theorem sameSignature_iff {first second : MethodDef} :
    first.sameSignature second = true ↔
      first.name = second.name ∧ first.returns = second.returns ∧ first.params = second.params := by
  unfold sameSignature
  simp only [Bool.and_eq_true, beq_iff_eq, and_assoc]

theorem sameSignature_refl (method : MethodDef) : method.sameSignature method = true :=
  sameSignature_iff.mpr ⟨rfl, rfl, rfl⟩

theorem sameSignature_symm {first second : MethodDef}
    (same : first.sameSignature second = true) : second.sameSignature first = true := by
  rcases sameSignature_iff.mp same with ⟨names, results, inputs⟩
  exact sameSignature_iff.mpr ⟨names.symm, results.symm, inputs.symm⟩

theorem sameSignature_trans {first second third : MethodDef}
    (early : first.sameSignature second = true) (late : second.sameSignature third = true) :
    first.sameSignature third = true := by
  rcases sameSignature_iff.mp early with ⟨names, results, inputs⟩
  rcases sameSignature_iff.mp late with ⟨moreNames, moreResults, moreInputs⟩
  exact sameSignature_iff.mpr
    ⟨names.trans moreNames, results.trans moreResults, inputs.trans moreInputs⟩

/-- Whatever has the signature of one of two equal signatures has the other's. -/
theorem sameSignature_congr {first second : MethodDef} (same : first.sameSignature second = true)
    (other : MethodDef) : other.sameSignature first = other.sameSignature second := by
  rw [Bool.eq_iff_iff]
  constructor
  · exact fun given => sameSignature_trans given same
  · exact fun given => sameSignature_trans given (sameSignature_symm same)

end MethodDef

namespace Program

/-- No two methods of a list have the same signature. -/
def Distinct (methods : List MethodDef) : Prop :=
  methods.Pairwise (fun first second => ¬ first.sameSignature second = true)

/-! ## Visible methods -/

/-- A method is added if nothing seen has its signature and it is the first with it. -/
theorem mem_addVisible_iff {visible methods : List MethodDef} {method : MethodDef} :
    method ∈ addVisible visible methods ↔ method ∈ visible ∨
      ((forall seen, seen ∈ visible -> ¬ seen.sameSignature method = true) ∧
        methods.find? (fun candidate => candidate.sameSignature method) = some method) := by
  unfold addVisible
  induction methods generalizing visible with
  | nil => simp only [List.foldl_nil, List.find?_nil, reduceCtorEq, and_false, or_false]
  | cons first rest inductionHypothesis =>
      rw [List.foldl_cons, inductionHypothesis]
      by_cases isSeen : visible.any (fun seen => seen.sameSignature first) = true
      · rw [if_pos isSeen]
        rcases List.any_eq_true.mp isSeen with ⟨seen, among, seenFirst⟩
        constructor
        · rintro (inVisible | ⟨unseen, found⟩)
          · exact Or.inl inVisible
          · refine Or.inr ⟨unseen, ?_⟩
            rw [List.find?_cons_of_neg, found]
            exact fun same => unseen seen among (MethodDef.sameSignature_trans seenFirst same)
        · rintro (inVisible | ⟨unseen, found⟩)
          · exact Or.inl inVisible
          · refine Or.inr ⟨unseen, ?_⟩
            rw [List.find?_cons_of_neg] at found
            · exact found
            · exact fun same => unseen seen among (MethodDef.sameSignature_trans seenFirst same)
      · rw [if_neg isSeen]
        have noneSeen : forall seen, seen ∈ visible -> ¬ seen.sameSignature first = true :=
          fun seen among same => isSeen (List.any_eq_true.mpr ⟨seen, among, same⟩)
        constructor
        · rintro (inVisible | ⟨unseen, found⟩)
          · rcases List.mem_append.mp inVisible with earlier | added
            · exact Or.inl earlier
            · rw [List.mem_singleton.mp added]
              refine Or.inr ⟨noneSeen, ?_⟩
              rw [List.find?_cons_of_pos]
              exact MethodDef.sameSignature_refl first
          · refine Or.inr ⟨fun seen among => unseen seen (List.mem_append_left _ among), ?_⟩
            rw [List.find?_cons_of_neg, found]
            exact unseen first (List.mem_append_right _ List.mem_cons_self)
        · rintro (inVisible | ⟨unseen, found⟩)
          · exact Or.inl (List.mem_append_left _ inVisible)
          · by_cases same : first.sameSignature method = true
            · rw [List.find?_cons_of_pos] at found
              · cases found
                exact Or.inl (List.mem_append_right _ List.mem_cons_self)
              · exact same
            · rw [List.find?_cons_of_neg] at found
              · refine Or.inr ⟨?_, found⟩
                intro seen among
                rcases List.mem_append.mp among with earlier | added
                · exact unseen seen earlier
                · rw [List.mem_singleton.mp added]
                  exact same
              · exact same

theorem mem_addVisible {visible methods : List MethodDef} {method : MethodDef}
    (member : method ∈ addVisible visible methods) : method ∈ visible ∨ method ∈ methods := by
  rcases mem_addVisible_iff.mp member with inVisible | ⟨_, found⟩
  · exact Or.inl inVisible
  · exact Or.inr (List.mem_of_find?_eq_some found)

theorem distinct_addVisible {visible methods : List MethodDef} (distinct : Distinct visible) :
    Distinct (addVisible visible methods) := by
  unfold addVisible
  induction methods generalizing visible with
  | nil => exact distinct
  | cons first rest inductionHypothesis =>
      rw [List.foldl_cons]
      apply inductionHypothesis
      split
      · exact distinct
      · rename_i notSeen
        refine List.pairwise_append.mpr ⟨distinct, List.pairwise_singleton _ _, ?_⟩
        intro seen among added member same
        rw [List.mem_singleton.mp member] at same
        exact notSeen (List.any_eq_true.mpr ⟨seen, among, same⟩)

/-- What is visible comes from what was visible or from one of the groups, and
what was visible stays. -/
theorem mem_foldl_addVisible {groups : List (List MethodDef)} {visible : List MethodDef}
    {method : MethodDef} :
    (method ∈ groups.foldl addVisible visible ->
      method ∈ visible ∨ exists group, group ∈ groups ∧ method ∈ group) ∧
    (method ∈ visible -> method ∈ groups.foldl addVisible visible) := by
  induction groups generalizing visible with
  | nil => exact ⟨Or.inl, fun member => member⟩
  | cons group rest inductionHypothesis =>
      rw [List.foldl_cons]
      constructor
      · intro member
        rcases inductionHypothesis.1 member with inVisible | ⟨other, among, inOther⟩
        · rcases mem_addVisible inVisible with earlier | added
          · exact Or.inl earlier
          · exact Or.inr ⟨group, List.mem_cons_self, added⟩
        · exact Or.inr ⟨other, List.mem_cons_of_mem group among, inOther⟩
      · intro member
        exact inductionHypothesis.2 (mem_addVisible_iff.mpr (Or.inl member))

theorem distinct_foldl_addVisible {groups : List (List MethodDef)} {visible : List MethodDef}
    (distinct : Distinct visible) : Distinct (groups.foldl addVisible visible) := by
  induction groups generalizing visible with
  | nil => exact distinct
  | cons group rest inductionHypothesis => exact inductionHypothesis (distinct_addVisible distinct)

/-- Hiding repeated signatures does not change which method is the first with one. -/
theorem find?_addVisible (visible methods : List MethodDef) (wanted : MethodDef) :
    (addVisible visible methods).find? (fun candidate => candidate.sameSignature wanted) =
      (visible ++ methods).find? (fun candidate => candidate.sameSignature wanted) := by
  unfold addVisible
  induction methods generalizing visible with
  | nil => rw [List.foldl_nil, List.append_nil]
  | cons first rest inductionHypothesis =>
      rw [List.foldl_cons, inductionHypothesis]
      split
      · rename_i isSeen
        rw [List.find?_append, List.find?_append]
        cases found : visible.find? (fun candidate => candidate.sameSignature wanted) with
        | some earlier => rfl
        | none =>
            rcases List.any_eq_true.mp isSeen with ⟨seen, among, seenFirst⟩
            have isOther : ¬ first.sameSignature wanted = true := fun same =>
              List.find?_eq_none.mp found seen among (MethodDef.sameSignature_trans seenFirst same)
            rw [List.find?_cons_of_neg]
            exact isOther
      · rw [List.append_assoc, List.singleton_append]

theorem find?_foldl_addVisible (groups : List (List MethodDef)) (visible : List MethodDef)
    (wanted : MethodDef) :
    (groups.foldl addVisible visible).find? (fun candidate => candidate.sameSignature wanted) =
      (visible ++ groups.flatten).find? (fun candidate => candidate.sameSignature wanted) := by
  induction groups generalizing visible with
  | nil => rw [List.foldl_nil, List.flatten_nil, List.append_nil]
  | cons group rest inductionHypothesis =>
      rw [List.foldl_cons, inductionHypothesis, List.flatten_cons, ← List.append_assoc,
        List.find?_append, find?_addVisible, ← List.find?_append]

theorem contributed_eq_ok {program : Program} {own : Bool} {level : TypeDef}
    {methods : List MethodDef} (contributes : program.contributed own level = .ok methods) :
    exists declared, program.declaredMethods level = .ok declared ∧
      methods = declared.filter (fun method => !method.isStatic && (own || !method.isPrivate)) := by
  rcases Result.bind_eq_ok.mp contributes with ⟨declared, listed, filtered⟩
  exact ⟨declared, listed, (Except.ok.inj filtered).symm⟩

/-- The instance methods of a type with a lineage are its own, followed by those
of each ancestor that are not hidden. -/
structure Collected (program : Program) (own : TypeDef) (ancestors : List TypeDef)
    (methods declared : List MethodDef) (inherited : List (List MethodDef)) : Prop where
  ofOwn : program.contributed true own = .ok declared
  ofAncestors : List.Forall₂ (fun level group => program.contributed false level = .ok group)
    ancestors inherited
  collected : methods = inherited.foldl addVisible (addVisible [] declared)

theorem instanceMethods_eq_ok {program : Program} {token : Token} {methods : List MethodDef}
    (listed : program.instanceMethods token = .ok methods) :
    (program.lineage token = .ok [] ∧ methods = []) ∨
      exists own ancestors declared inherited, program.lineage token = .ok (own :: ancestors) ∧
        Collected program own ancestors methods declared inherited := by
  rcases Result.bind_eq_ok.mp listed with ⟨lineage, walked, continued⟩
  cases lineage with
  | nil => exact Or.inl ⟨walked, (Except.ok.inj continued).symm⟩
  | cons own ancestors =>
      rcases Result.bind_eq_ok.mp continued with ⟨declared, ofOwn, inherits⟩
      rcases Result.bind_eq_ok.mp inherits with ⟨inherited, ofAncestors, assembled⟩
      exact Or.inr ⟨own, ancestors, declared, inherited, walked, ofOwn,
        Result.mapM_eq_ok ofAncestors, (Except.ok.inj assembled).symm⟩

/-- Every instance method is declared by a type of the lineage. -/
theorem Collected.exists_level {program : Program} {own : TypeDef} {ancestors : List TypeDef}
    {methods declared : List MethodDef} {inherited : List (List MethodDef)}
    (collected : Collected program own ancestors methods declared inherited)
    {method : MethodDef} (member : method ∈ methods) :
    method ∈ addVisible [] declared ∨ exists level declaredThere, level ∈ ancestors ∧
      program.declaredMethods level = .ok declaredThere ∧ method ∈ declaredThere := by
  rw [collected.collected] at member
  rcases mem_foldl_addVisible.1 member with inOwn | ⟨group, among, inGroup⟩
  · exact Or.inl inOwn
  · rcases Result.exists_of_mem_right collected.ofAncestors among with
      ⟨level, isAncestor, contributes⟩
    rcases contributed_eq_ok contributes with ⟨declaredThere, listed, filtered⟩
    rw [filtered] at inGroup
    exact Or.inr ⟨level, declaredThere, isAncestor, listed, (List.mem_filter.mp inGroup).1⟩

theorem Collected.own_declared {program : Program} {own : TypeDef} {ancestors : List TypeDef}
    {methods declared : List MethodDef} {inherited : List (List MethodDef)}
    (collected : Collected program own ancestors methods declared inherited)
    {method : MethodDef} (member : method ∈ addVisible [] declared) :
    exists declaredThere, program.declaredMethods own = .ok declaredThere ∧
      method ∈ declaredThere := by
  rcases contributed_eq_ok collected.ofOwn with ⟨declaredThere, listed, filtered⟩
  rcases mem_addVisible member with impossible | among
  · cases impossible
  · rw [filtered] at among
    exact ⟨declaredThere, listed, (List.mem_filter.mp among).1⟩

theorem known_of_mem_instanceMethods {program : Program} {token : Token}
    {methods : List MethodDef} (listed : program.instanceMethods token = .ok methods)
    {method : MethodDef} (member : method ∈ methods) : program.Known (.method method) := by
  rcases instanceMethods_eq_ok listed with
    ⟨_, empty⟩ | ⟨own, ancestors, declared, inherited, _, collected⟩
  · rw [empty] at member
    cases member
  · rcases collected.exists_level member with inOwn | ⟨level, there, _, ofLevel, among⟩
    · rcases collected.own_declared inOwn with ⟨there, ofOwn, among⟩
      exact known_of_mem_declaredMethods ofOwn among
    · exact known_of_mem_declaredMethods ofLevel among

theorem Collected.distinct {program : Program} {own : TypeDef} {ancestors : List TypeDef}
    {methods declared : List MethodDef} {inherited : List (List MethodDef)}
    (collected : Collected program own ancestors methods declared inherited) :
    Distinct methods := by
  rw [collected.collected]
  exact distinct_foldl_addVisible (distinct_addVisible List.Pairwise.nil)

/-! ## Visible methods in a well-formed program -/

/-- The first instance method of a type with a given signature. -/
def firstInstance? (declared : List MethodDef) (method : MethodDef) : Option MethodDef :=
  declared.find? (fun candidate => !candidate.isStatic && candidate.sameSignature method)

theorem mem_addVisible_nil_iff {declared : List MethodDef} {method : MethodDef} :
    method ∈ addVisible [] (declared.filter (fun method => !method.isStatic &&
        (true || !method.isPrivate))) ↔
      firstInstance? declared method = some method := by
  rw [mem_addVisible_iff]
  unfold firstInstance?
  simp only [List.not_mem_nil, false_or, Bool.true_or, Bool.and_true, List.find?_filter,
    Bool.decide_and, Bool.decide_eq_true]
  constructor
  · exact fun found => found.2
  · exact fun found => ⟨fun seen impossible => impossible.elim, found⟩

section WellFormed

variable {program : Program} {token : Token} {own : TypeDef} {ancestors : List TypeDef}
  {methods : List MethodDef}

/-- What is visible on a type of a well-formed program. -/
structure Visible (program : Program) (own : TypeDef) (ancestors : List TypeDef)
    (methods declared : List MethodDef) : Prop where
  distinct : Distinct methods
  listed : program.declaredMethods own = .ok declared
  levels : forall method, method ∈ methods ->
    exists level, level ∈ own :: ancestors ∧ method.declaring = level.token
  ownMethods : forall method, (method ∈ methods ∧ method.declaring = own.token) ↔
    firstInstance? declared method = some method

theorem visible_of_instanceMethods (wellFormed : program.WellFormed)
    (lineage : Lineage program token (own :: ancestors))
    (listed : program.instanceMethods token = .ok methods) :
    exists declared, Visible program own ancestors methods declared := by
  rcases instanceMethods_eq_ok listed with
    ⟨walked, _⟩ | ⟨first, rest, shown, inherited, walked, collected⟩
  · rw [lineage.lineage_eq] at walked
    cases walked
  · rw [lineage.lineage_eq] at walked
    cases walked
    rcases contributed_eq_ok collected.ofOwn with ⟨declared, ofOwn, filtered⟩
    have ownMember : own ∈ program.types := lineage.mem_types List.mem_cons_self
    have ownDeclares : forall method, method ∈ addVisible [] shown ->
        method.declaring = own.token := by
      intro method member
      rcases collected.own_declared member with ⟨there, ofThere, among⟩
      exact wellFormed.declares own ownMember there ofThere method among
    have ancestorDeclares : forall level, level ∈ ancestors -> forall there,
        program.declaredMethods level = .ok there -> forall method, method ∈ there ->
          method.declaring = level.token := by
      intro level isAncestor there ofLevel method among
      exact wellFormed.declares level (lineage.mem_types (List.mem_cons_of_mem own isAncestor))
        there ofLevel method among
    refine ⟨declared, collected.distinct, ofOwn, ?_, ?_⟩
    · intro method member
      rcases collected.exists_level member with inOwn | ⟨level, there, isAncestor, ofLevel, among⟩
      · exact ⟨own, List.mem_cons_self, ownDeclares method inOwn⟩
      · exact ⟨level, List.mem_cons_of_mem own isAncestor,
          ancestorDeclares level isAncestor there ofLevel method among⟩
    · intro method
      rw [← mem_addVisible_nil_iff, ← filtered]
      constructor
      · rintro ⟨member, declares⟩
        rcases collected.exists_level member with
          inOwn | ⟨level, there, isAncestor, ofLevel, among⟩
        · exact inOwn
        · have sameToken := ancestorDeclares level isAncestor there ofLevel method among
          rw [declares] at sameToken
          have twice := (List.nodup_cons.mp lineage.nodup).1
          exact absurd (List.mem_map.mpr ⟨level, isAncestor, sameToken.symm⟩) twice
      · intro member
        refine ⟨?_, ownDeclares method member⟩
        rw [collected.collected]
        exact mem_foldl_addVisible.2 member

/-- A type of a lineage offers a method to the type at its start.  Private methods
are offered to their own type only. -/
structure Offers (program : Program) (token : Token) (level : TypeDef) (method : MethodDef) :
    Prop where
  listed : exists declared, program.declaredMethods level = .ok declared ∧ method ∈ declared
  isInstance : method.isStatic = false
  reaches : level.token = token ∨ method.isPrivate = false

/-- The method that the most derived type of a lineage offers with a signature. -/
def Nearest (program : Program) (token : Token) (chain : List TypeDef)
    (wanted found : MethodDef) : Prop :=
  exists below level above, chain = below ++ level :: above ∧
    program.Offers token level found ∧ found.sameSignature wanted = true ∧
    forall lower, lower ∈ below -> forall method, program.Offers token lower method ->
      ¬ method.sameSignature wanted = true

/-- Whether a type offers a method that it declares to the type with a given token. -/
def offered (token : Token) (level : TypeDef) (method : MethodDef) : Bool :=
  !method.isStatic && (level.token == token || !method.isPrivate)

theorem offers_iff {level : TypeDef} {declared : List MethodDef} {method : MethodDef}
    (listed : program.declaredMethods level = .ok declared) :
    program.Offers token level method ↔
      method ∈ declared ∧ offered token level method = true := by
  simp only [offered, Bool.and_eq_true, Bool.or_eq_true, Bool.not_eq_true', beq_iff_eq]
  constructor
  · rintro ⟨⟨others, ofLevel, among⟩, isInstance, reaches⟩
    cases listed.symm.trans ofLevel
    exact ⟨among, isInstance, reaches⟩
  · rintro ⟨among, isInstance, reaches⟩
    exact ⟨⟨declared, listed, among⟩, isInstance, reaches⟩

/-- The first method with the signature of `wanted` that the most derived type of a
lineage offers, among those that offer one. -/
def FirstOffered (program : Program) (token : Token) (chain : List TypeDef)
    (wanted found : MethodDef) : Prop :=
  exists below level above front back, chain = below ++ level :: above ∧
    program.declaredMethods level = .ok (front ++ found :: back) ∧
    program.Offers token level found ∧ found.sameSignature wanted = true ∧
    (forall earlier, earlier ∈ front -> program.Offers token level earlier ->
      ¬ earlier.sameSignature wanted = true) ∧
    forall lower, lower ∈ below -> forall method, program.Offers token lower method ->
      ¬ method.sameSignature wanted = true

theorem FirstOffered.nearest {chain : List TypeDef} {wanted found : MethodDef}
    (first : program.FirstOffered token chain wanted found) :
    program.Nearest token chain wanted found := by
  rcases first with ⟨below, level, above, front, back, split, _, offers, signature, _, lower⟩
  exact ⟨below, level, above, split, offers, signature, lower⟩

/-- A group has the methods that a type offers, in declaration order. -/
def Offering (program : Program) (token : Token) (level : TypeDef) (group : List MethodDef) :
    Prop :=
  exists declared, program.declaredMethods level = .ok declared ∧
    group = declared.filter (offered token level)

theorem Offering.mem_iff {level : TypeDef} {group : List MethodDef} {method : MethodDef}
    (offering : program.Offering token level group) :
    method ∈ group ↔ program.Offers token level method := by
  rcases offering with ⟨declared, listed, rfl⟩
  rw [offers_iff listed, List.mem_filter]

theorem firstOffered_of_groups {chain : List TypeDef} {groups : List (List MethodDef)}
    {wanted found : MethodDef} (offerings : List.Forall₂ (program.Offering token) chain groups)
    (selected : groups.flatten.find? (fun candidate => candidate.sameSignature wanted) =
      some found) : program.FirstOffered token chain wanted found := by
  induction offerings with
  | nil => cases selected
  | @cons level group levels rest offering _ inductionHypothesis =>
      rw [List.flatten_cons, List.find?_append] at selected
      cases here : group.find? (fun candidate => candidate.sameSignature wanted) with
      | some chosen =>
          rw [here] at selected
          cases selected
          have offers := offering.mem_iff.mp (List.mem_of_find?_eq_some here)
          have signature := List.find?_some here
          rcases offering with ⟨declared, listed, rfl⟩
          rw [List.find?_filter] at here
          rcases List.find?_eq_some_iff_append.mp here with ⟨_, front, back, rfl, passed⟩
          refine ⟨[], level, levels, front, back, rfl, listed, offers, signature, ?_, by simp⟩
          intro earlier member offersEarlier same
          have isOffered := ((offers_iff listed).mp offersEarlier).2
          have differs := passed earlier member
          simp [isOffered, same] at differs
      | none =>
          rw [here] at selected
          rcases inductionHypothesis selected with
            ⟨below, nearest, above, front, back, split, listed, offers, signature, first, lower⟩
          refine ⟨level :: below, nearest, above, front, back, congrArg (level :: ·) split, listed,
            offers, signature, first, List.forall_mem_cons.mpr ⟨?_, lower⟩⟩
          intro method offersHere
          exact List.find?_eq_none.mp here method (offering.mem_iff.mpr offersHere)

/-- The methods that are visible on a type are those that the types of its lineage
offer, and a method hides every later one with its signature. -/
theorem exists_offered (lineage : Lineage program token (own :: ancestors))
    (listed : program.instanceMethods token = .ok methods) :
    exists groups, methods = groups.foldl addVisible [] ∧
      List.Forall₂ (program.Offering token) (own :: ancestors) groups := by
  rcases instanceMethods_eq_ok listed with
    ⟨walked, _⟩ | ⟨first, rest, shown, inherited, walked, collected⟩
  · rw [lineage.lineage_eq] at walked
    cases walked
  · rw [lineage.lineage_eq] at walked
    cases walked
    have isToken : own.token = token := by
      rcases lineage.exists_cons with ⟨_, _, split, declared⟩
      cases split
      exact (token_of_typeDef declared).2
    have contributes : forall isOwn level group, (level.token == token) = isOwn ->
        program.contributed isOwn level = .ok group -> program.Offering token level group := by
      intro isOwn level group whose contributed
      rcases contributed_eq_ok contributed with ⟨declared, ofLevel, filtered⟩
      subst whose
      exact ⟨declared, ofLevel, filtered⟩
    refine ⟨shown :: inherited, collected.collected, .cons (contributes true own shown
      (beq_iff_eq.mpr isToken) collected.ofOwn) ?_⟩
    have ofAncestors := (List.forall₂_and_left _ _).mpr
      ⟨fun level member => member, collected.ofAncestors⟩
    refine ofAncestors.imp ?_
    rintro level group ⟨isAncestor, contributed⟩
    refine contributes false level group (beq_eq_false_iff_ne.mpr ?_) contributed
    intro same
    have twice := (List.nodup_cons.mp lineage.nodup).1
    exact absurd (List.mem_map.mpr ⟨level, isAncestor, same.trans isToken.symm⟩) twice

theorem exists_offers_of_mem (lineage : Lineage program token (own :: ancestors))
    (listed : program.instanceMethods token = .ok methods) {method : MethodDef}
    (member : method ∈ methods) :
    exists level, level ∈ own :: ancestors ∧ program.Offers token level method := by
  rcases exists_offered lineage listed with ⟨groups, collected, offered⟩
  rw [collected] at member
  rcases mem_foldl_addVisible.1 member with impossible | ⟨group, among, inGroup⟩
  · cases impossible
  · rcases Result.exists_of_mem_right offered among with ⟨level, isLevel, offers⟩
    exact ⟨level, isLevel, offers.mem_iff.mp inGroup⟩

/-- The first visible method with a signature is the first that the most derived type
offers. -/
theorem firstOffered_of_find? (lineage : Lineage program token (own :: ancestors))
    (listed : program.instanceMethods token = .ok methods) {wanted found : MethodDef}
    (selected : methods.find? (fun candidate => candidate.sameSignature wanted) = some found) :
    program.FirstOffered token (own :: ancestors) wanted found := by
  rcases exists_offered lineage listed with ⟨groups, collected, offered⟩
  rw [collected, find?_foldl_addVisible, List.nil_append] at selected
  exact firstOffered_of_groups offered selected

/-! ## Root declarations -/

/-- A search that finds something has found nothing before. -/
theorem exists_first_of_findSomeM? {Item Value : Type} {action : Item -> Result (Option Value)}
    {items : List Item} {value : Value}
    (succeeded : items.findSomeM? action = .ok (some value)) :
    exists front item back, items = front ++ item :: back ∧
      (forall earlier, earlier ∈ front -> action earlier = .ok none) ∧
      action item = .ok (some value) := by
  induction items with
  | nil => cases succeeded
  | cons first rest inductionHypothesis =>
      rcases Result.bind_eq_ok.mp succeeded with ⟨found, acted, chosen⟩
      cases found with
      | some other =>
          cases chosen
          exact ⟨[], first, rest, rfl, fun earlier impossible => absurd impossible List.not_mem_nil,
            acted⟩
      | none =>
          rcases inductionHypothesis chosen with ⟨front, item, back, split, none, later⟩
          refine ⟨first :: front, item, back, ?_, List.forall_mem_cons.mpr ⟨acted, none⟩, later⟩
          rw [split, List.cons_append]

theorem findSomeM?_eq_some {Item Value : Type} {action : Item -> Result (Option Value)}
    {items : List Item} {value : Value}
    (succeeded : items.findSomeM? action = .ok (some value)) :
    exists item, item ∈ items ∧ action item = .ok (some value) := by
  rcases exists_first_of_findSomeM? succeeded with ⟨front, item, back, split, _, found⟩
  refine ⟨item, ?_, found⟩
  rw [split]
  exact List.mem_append_right _ List.mem_cons_self

/-- An overridden method stands on a proper base type. -/
theorem declaring_of_overridden? {method next : MethodDef} (wellFormed : program.WellFormed)
    (lineage : Lineage program method.declaring (own :: ancestors))
    (overrides : program.overridden? method = .ok (some next)) :
    exists level, level ∈ ancestors ∧ next.declaring = level.token := by
  rcases Result.bind_eq_ok.mp overrides with ⟨walked, walking, searching⟩
  rw [lineage.lineage_eq] at walking
  cases walking
  rcases findSomeM?_eq_some searching with ⟨level, isAncestor, selected⟩
  rcases Result.bind_eq_ok.mp selected with ⟨declared, listed, chosen⟩
  have among := List.mem_of_find?_eq_some (Except.ok.inj chosen)
  exact ⟨level, isAncestor, wellFormed.declares level
    (lineage.mem_types (List.mem_cons_of_mem own isAncestor)) declared listed next among⟩

/-- The root of a slot is declared by a type of the lineage. -/
theorem declaring_of_rootDeclarationWith {fuel : Nat} {method root : MethodDef}
    {chain : List TypeDef} (wellFormed : program.WellFormed)
    (lineage : Lineage program method.declaring chain)
    (followed : program.rootDeclarationWith fuel method = .ok root) :
    exists level, level ∈ chain ∧ root.declaring = level.token := by
  induction fuel generalizing method chain with
  | zero =>
      cases followed
      exact lineage.exists_self
  | succ fuel inductionHypothesis =>
      unfold rootDeclarationWith at followed
      split at followed
      · cases followed
        exact lineage.exists_self
      · rcases Result.bind_eq_ok.mp followed with ⟨overridden, overrides, continued⟩
        cases overridden with
        | none =>
            cases continued
            exact lineage.exists_self
        | some next =>
            rcases lineage.exists_cons with ⟨own, ancestors, split, _⟩
            rw [split] at lineage ⊢
            rcases declaring_of_overridden? wellFormed lineage overrides with
              ⟨level, isAncestor, declares⟩
            rcases List.append_of_mem isAncestor with ⟨front, back, within⟩
            have above : Lineage program next.declaring (level :: back) := by
              rw [declares]
              have split : own :: ancestors = (own :: front) ++ level :: back := by
                rw [within, List.cons_append]
              exact lineage.suffix split
            rcases inductionHypothesis above continued with ⟨rootLevel, among, rootDeclares⟩
            refine ⟨rootLevel, List.mem_cons_of_mem own ?_, rootDeclares⟩
            rw [within]
            exact List.mem_append_right front among

theorem declaring_of_rootDeclaration {method root : MethodDef} {chain : List TypeDef}
    (wellFormed : program.WellFormed) (lineage : Lineage program method.declaring chain)
    (followed : program.rootDeclaration method = .ok root) :
    exists level, level ∈ chain ∧ root.declaring = level.token :=
  declaring_of_rootDeclarationWith wellFormed lineage followed

end WellFormed

/-! ## Interfaces -/

/-- A set of types that contains with a type its base type and its interfaces. -/
structure UpwardClosed (program : Program) (inside : Token -> Prop) : Prop where
  base : forall token type base, inside token -> program.typeDef token = .ok type ->
    type.base = some base -> inside base
  interfaces : forall token type interface, inside token -> program.typeDef token = .ok type ->
    interface ∈ type.interfaces -> inside interface

section Interfaces

variable {program : Program} {inside : Token -> Prop}

theorem UpwardClosed.mem_lineageWith (closed : program.UpwardClosed inside) {fuel : Nat}
    {token : Token} {chain : List TypeDef} (isInside : inside token)
    (walked : program.lineageWith fuel token = .ok chain) {level : TypeDef}
    (member : level ∈ chain) : program.typeDef level.token = .ok level ∧ inside level.token := by
  induction fuel generalizing token chain with
  | zero =>
      cases walked
      cases member
  | succ fuel inductionHypothesis =>
      rcases Result.bind_eq_ok.mp walked with ⟨type, declared, continued⟩
      have isToken := (token_of_typeDef declared).2
      have own : program.typeDef type.token = .ok type ∧ inside type.token := by
        rw [isToken]
        exact ⟨declared, isInside⟩
      cases hasBase : type.base with
      | none =>
          rw [hasBase] at continued
          cases continued
          rw [List.mem_singleton.mp member]
          exact own
      | some base =>
          rw [hasBase] at continued
          rcases Result.bind_eq_ok.mp continued with ⟨ancestors, above, assembled⟩
          cases assembled
          rcases List.mem_cons.mp member with isOwn | among
          · rw [isOwn]
            exact own
          · exact inductionHypothesis (closed.base token type base isInside declared hasBase) above
              among

theorem UpwardClosed.mem_collectInterfacesWith (closed : program.UpwardClosed inside) {fuel : Nat}
    {pending found result : List Token} (pendingInside : forall token, token ∈ pending ->
      inside token) (foundInside : forall token, token ∈ found -> inside token)
    (collected : program.collectInterfacesWith fuel pending found = .ok result) :
    forall token, token ∈ result -> inside token := by
  induction fuel generalizing pending found with
  | zero =>
      cases collected
      exact foundInside
  | succ fuel inductionHypothesis =>
      cases pending with
      | nil =>
          cases collected
          exact foundInside
      | cons interface rest =>
          rcases List.forall_mem_cons.mp pendingInside with ⟨isInside, restInside⟩
          unfold collectInterfacesWith at collected
          split at collected
          · exact inductionHypothesis restInside foundInside collected
          · rcases Result.bind_eq_ok.mp collected with ⟨type, declared, continued⟩
            refine inductionHypothesis ?_ ?_ continued
            · intro token member
              rcases List.mem_append.mp member with named | later
              · exact closed.interfaces interface type token isInside declared named
              · exact restInside token later
            · intro token member
              rcases List.mem_append.mp member with earlier | now
              · exact foundInside token earlier
              · rw [List.mem_singleton.mp now]
                exact isInside

/-- All interfaces of a type of a closed set are in the set. -/
theorem UpwardClosed.mem_interfaces (closed : program.UpwardClosed inside) {token : Token}
    {interfaces : List Token} (isInside : inside token)
    (listed : program.interfaces token = .ok interfaces) :
    forall interface, interface ∈ interfaces -> inside interface := by
  rcases Result.bind_eq_ok.mp listed with ⟨chain, walked, folded⟩
  have levels : forall level, level ∈ chain ->
      program.typeDef level.token = .ok level ∧ inside level.token :=
    fun level member => closed.mem_lineageWith isInside walked member
  have general : forall (found : List Token), (forall token, token ∈ found -> inside token) ->
      forall interfaces, chain.foldlM program.collectInterfaces found = .ok interfaces ->
        forall token, token ∈ interfaces -> inside token := by
    clear folded walked
    induction chain with
    | nil =>
        intro found foundInside interfaces folded
        cases folded
        exact foundInside
    | cons level rest inductionHypothesis =>
        rcases List.forall_mem_cons.mp levels with ⟨ofLevel, ofRest⟩
        intro found foundInside interfaces folded
        rw [List.foldlM_cons] at folded
        rcases Result.bind_eq_ok.mp folded with ⟨next, collected, continued⟩
        refine inductionHypothesis ofRest next ?_ interfaces continued
        exact closed.mem_collectInterfacesWith
          (fun token named => closed.interfaces level.token level token ofLevel.2 ofLevel.1 named)
          foundInside collected
  exact general [] (fun _ member => absurd member List.not_mem_nil) interfaces folded

end Interfaces
end Program
end CilGraph
