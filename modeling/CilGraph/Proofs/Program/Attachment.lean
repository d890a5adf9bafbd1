import CilGraph.Proofs.Program.Sound

namespace CilGraph

/-!
# What becomes of the steps of a draft

A step that adds a member, names an interface or gives an element type speaks of a type by
its token.  The draft looks for that type when the step is taken, and passes over the step if
it is not there.  The references are checked much later, when everything has been added.  So
a step that comes too early is not refused, and has no effect on the type.

What a type of a finished program holds is therefore told by the steps after the one that
defines it, and by these alone.  `Attached` says this, and it says what is lost: a member that
is added before its declaring type stands in the program, and no type lists it.  If no step
speaks of a type before the type is defined, then the type holds everything that the steps say
of it.
-/

/-- A step of a draft with the token that it returned. -/
structure LoggedStep where
  step : DraftStep
  token : Option Token
deriving DecidableEq, Repr

namespace LoggedStep

/-- The token of the type that a step defines. -/
def defined? : LoggedStep -> Option Token
  | ⟨.type .., token⟩ => token
  | ⟨.arrayType .., token⟩ => token
  | _ => none

/-- The member of one kind that a step adds, with its declaring type. -/
def member? : MemberKind -> LoggedStep -> Option (Token × Token)
  | .field, ⟨.field _ declaring _ _ _, some token⟩ => some (token, declaring)
  | .method, ⟨.method _ declaring _ _ _ _ _, some token⟩ => some (token, declaring)
  | .constructor, ⟨.constructor _ declaring _ _ _, some token⟩ => some (token, declaring)
  | _, _ => none

/-- The interface that a step names for a type. -/
def named? (type : Token) : LoggedStep -> Option Token
  | ⟨.interface subject interface, _⟩ => if subject = type then some interface else none
  | _ => none

/-- The element type that a step gives to a type that is there. -/
def element? (type : Token) : LoggedStep -> Option Token
  | ⟨.elementType array element, _⟩ => if array = type then some element else none
  | _ => none

/-- The element type with which a step defines a type. -/
def ownElement? : LoggedStep -> Option Token
  | ⟨.arrayType _ element _, _⟩ => some element
  | _ => none

/-- The members of one kind that steps add to a type, in step order. -/
def entered (steps : List LoggedStep) (kind : MemberKind) (declaring : Token) : List Token :=
  ((steps.filterMap (member? kind)).filter (fun member => member.2 == declaring)).map Prod.fst

/-- The interfaces that steps name for a type. -/
def named (steps : List LoggedStep) (type : Token) : List Token :=
  steps.filterMap (named? type)

/-- The last element type that steps give to a type. -/
def lastElement? (steps : List LoggedStep) (type : Token) : Option Token :=
  (steps.filterMap (element? type)).getLast?

section Append

variable (front back : List LoggedStep) (type : Token)

theorem entered_append (kind : MemberKind) :
    entered (front ++ back) kind type = entered front kind type ++ entered back kind type := by
  simp [entered]

theorem named_append : named (front ++ back) type = named front type ++ named back type :=
  List.filterMap_append

theorem lastElement?_append :
    lastElement? (front ++ back) type = (lastElement? back type).or (lastElement? front type) := by
  simp [lastElement?, List.getLast?_append]

end Append

/-- A step that defines a type adds no member and names no interface. -/
theorem silent_of_defined {definition : LoggedStep} {type : Token}
    (defines : definition.defined? = some type) (kind : MemberKind) (subject : Token) :
    definition.member? kind = none ∧ definition.named? subject = none ∧
      definition.element? subject = none := by
  rcases definition with ⟨step, token⟩
  cases step with
  | type given space name attributes base => cases kind <;> exact ⟨rfl, rfl, rfl⟩
  | arrayType given element base => cases kind <;> exact ⟨rfl, rfl, rfl⟩
  | elementType array element => cases defines
  | interface subject interface => cases defines
  | field given declaring name fieldType isStatic => cases defines
  | method given declaring name attributes returns params body => cases defines
  | constructor given declaring isStatic params body => cases defines
  | string given text => cases defines

/-- All that is said of a type comes before or after its definition. -/
theorem said_around_definition {definition : LoggedStep} {type : Token}
    (defines : definition.defined? = some type) (before after : List LoggedStep) :
    (forall kind, entered (before ++ definition :: after) kind type =
      entered before kind type ++ entered after kind type) ∧
    named (before ++ definition :: after) type = named before type ++ named after type ∧
    lastElement? (before ++ definition :: after) type =
      (lastElement? after type).or (lastElement? before type) := by
  refine ⟨?_, ?_, ?_⟩
  · intro kind
    rw [entered_append]
    simp [entered, (silent_of_defined defines kind type).1]
  · rw [named_append]
    simp [named, (silent_of_defined defines .field type).2.1]
  · rw [lastElement?_append]
    simp [lastElement?, (silent_of_defined defines .field type).2.2]

/-- Steps enter no member twice if no member is added twice. -/
theorem nodup_entered {steps : List LoggedStep} {kind : MemberKind}
    (distinct : ((steps.filterMap (member? kind)).map Prod.fst).Nodup) (type : Token) :
    (entered steps kind type).Nodup :=
  distinct.sublist (List.filter_sublist.map Prod.fst)

end LoggedStep

namespace TypeDef

/-- A type with another member at the end of one of its lists. -/
def enter (type : TypeDef) (token : Token) : MemberKind -> TypeDef
  | .field => { type with fields := type.fields ++ [token] }
  | .method => { type with methods := type.methods ++ [token] }
  | .constructor => { type with constructors := type.constructors ++ [token] }

theorem token_enter (type : TypeDef) (token : Token) (kind : MemberKind) :
    (type.enter token kind).token = type.token := by
  cases kind <;> rfl

theorem listed_enter (type : TypeDef) (token : Token) (kind other : MemberKind) :
    (type.enter token kind).listed other =
      type.listed other ++ if other = kind then [token] else [] := by
  cases kind <;> cases other <;> simp [enter, listed]

theorem interfaces_enter (type : TypeDef) (token : Token) (kind : MemberKind) :
    (type.enter token kind).interfaces = type.interfaces := by
  cases kind <;> rfl

theorem element_enter (type : TypeDef) (token : Token) (kind : MemberKind) :
    (type.enter token kind).element = type.element := by
  cases kind <;> rfl

/-- A type holds everything that steps say of it: each member once and in step order, all
interfaces and the last element type. -/
structure Holds (type : TypeDef) (steps : List LoggedStep) : Prop where
  ordered : forall kind, type.listed kind = LoggedStep.entered steps kind type.token
  once : forall kind token, token ∈ LoggedStep.entered steps kind type.token ->
    (type.listed kind).count token = 1
  interfaces : forall interface, interface ∈ LoggedStep.named steps type.token ->
    interface ∈ type.interfaces
  element : forall element, LoggedStep.lastElement? steps type.token = some element ->
    type.element = some element

/-- What a type is when a step has defined it. -/
structure IsFresh (type : TypeDef) (definition : LoggedStep) : Prop where
  listed : forall kind, type.listed kind = []
  interfaces : type.interfaces = []
  element : type.element = definition.ownElement?

/-- What steps make of a type that is there when they are taken. -/
structure Gains (earlier : TypeDef) (steps : List LoggedStep) (later : TypeDef) : Prop where
  token : later.token = earlier.token
  listed : forall kind, later.listed kind =
    earlier.listed kind ++ LoggedStep.entered steps kind earlier.token
  interfaces : later.interfaces = earlier.interfaces ++ LoggedStep.named steps earlier.token
  element : later.element = (LoggedStep.lastElement? steps earlier.token).or earlier.element

/-- What a type is after the step that defines it and the steps that follow. -/
structure IsMade (type : TypeDef) (definition : LoggedStep) (after : List LoggedStep) : Prop where
  listed : forall kind, type.listed kind = LoggedStep.entered after kind type.token
  interfaces : type.interfaces = LoggedStep.named after type.token
  element : type.element = (LoggedStep.lastElement? after type.token).or definition.ownElement?

theorem Gains.refl (type : TypeDef) : type.Gains [] type :=
  ⟨rfl, fun _ => (List.append_nil _).symm, (List.append_nil _).symm, rfl⟩

theorem Gains.trans {earlier middle later : TypeDef} {front back : List LoggedStep}
    (first : earlier.Gains front middle) (second : middle.Gains back later) :
    earlier.Gains (front ++ back) later := by
  constructor
  · exact second.token.trans first.token
  · intro kind
    rw [second.listed, first.listed, first.token, LoggedStep.entered_append, List.append_assoc]
  · rw [second.interfaces, first.interfaces, first.token, LoggedStep.named_append,
      List.append_assoc]
  · rw [second.element, first.element, first.token, LoggedStep.lastElement?_append,
      Option.or_assoc]

theorem Gains.isMade {fresh later : TypeDef} {definition : LoggedStep} {after : List LoggedStep}
    (gains : fresh.Gains after later) (isFresh : fresh.IsFresh definition) :
    later.IsMade definition after := by
  constructor
  · intro kind
    rw [gains.listed, isFresh.listed, gains.token, List.nil_append]
  · rw [gains.interfaces, isFresh.interfaces, gains.token, List.nil_append]
  · rw [gains.element, isFresh.element, gains.token]

end TypeDef

namespace Draft

/-- The steps that lead on from a draft, with the tokens that they return. -/
def log (draft : Draft) (steps : List DraftStep) : List LoggedStep :=
  List.zipWith LoggedStep.mk steps (draft.trace steps).1

/-- What a type has from the steps after its definition, and what it misses of those before. -/
structure Attached (before : List LoggedStep) (definition : LoggedStep) (after : List LoggedStep)
    (type : TypeDef) : Prop where
  defines : definition.defined? = some type.token
  kept : type.Holds after
  interfaces : type.interfaces = LoggedStep.named after type.token
  element : type.element = (LoggedStep.lastElement? after type.token).or definition.ownElement?
  /-- A member that is added too early is in no list. -/
  lost : forall kind token, token ∈ LoggedStep.entered before kind type.token ->
    token ∉ type.listed kind
  /-- All that is said of a type is held if nothing is said of it too early. -/
  whole : (forall kind, LoggedStep.entered before kind type.token = []) ->
    LoggedStep.named before type.token = [] -> LoggedStep.lastElement? before type.token = none ->
    type.Holds (before ++ definition :: after)

/-! ## One step -/

/-- The first type of a draft with a given token. -/
def type? (draft : Draft) (token : Token) : Option TypeDef :=
  draft.types.find? (fun type => type.token == token)

section Steps

variable {draft : Draft} {token : Token} {type : TypeDef} {types : List TypeDef}

theorem types_claimToken (draft : Draft) (kind : TokenKind) (given : Option Token) :
    (draft.claimToken kind given).2.types = draft.types := by
  cases given <;> rfl

theorem find?_modifyFirst {subject : Token} {change : TypeDef -> TypeDef}
    (sameToken : forall type, (change type).token = type.token) :
    (modifyFirst subject change types).find? (fun type => type.token == token) =
      if subject = token then (types.find? (fun type => type.token == token)).map change
      else types.find? (fun type => type.token == token) := by
  induction types with
  | nil => simp [modifyFirst]
  | cons first rest inductionHypothesis =>
      unfold modifyFirst
      by_cases found : first.token = subject
      · subst found
        by_cases same : first.token = token
        · simp [same, sameToken]
        · simp [same, sameToken]
      · rw [if_neg found]
        by_cases isFirst : first.token = token
        · subst isFirst
          simp [Ne.symm found]
        · simpa [isFirst] using inductionHypothesis

/-- A step that speaks of a type by its token changes that type and no other. -/
theorem exists_gains_of_modify {subject : Token} {change : TypeDef -> TypeDef} {step : LoggedStep}
    (sameToken : forall type, (change type).token = type.token)
    (found : types.find? (fun type => type.token == token) = some type)
    (changed : type.token = subject -> type.Gains [step] (change type))
    (unchanged : type.token ≠ subject -> type.Gains [step] type) : exists later,
      (modifyFirst subject change types).find? (fun type => type.token == token) = some later ∧
        type.Gains [step] later := by
  have isToken : type.token = token := by simpa using List.find?_some found
  rw [find?_modifyFirst sameToken, found]
  by_cases same : subject = token
  · exact ⟨change type, by simp [same], changed (isToken.trans same.symm)⟩
  · exact ⟨type, by simp [same], unchanged (fun again => same (again.symm.trans isToken))⟩

/-- A step that says nothing about a type. -/
theorem gains_unchanged {step : LoggedStep} (noMember : forall kind,
      LoggedStep.entered [step] kind type.token = [])
    (noInterface : LoggedStep.named [step] type.token = [])
    (noElement : LoggedStep.lastElement? [step] type.token = none) : type.Gains [step] type := by
  constructor
  · rfl
  · intro kind
    rw [noMember, List.append_nil]
  · rw [noInterface, List.append_nil]
  · rw [noElement, Option.none_or]

/-- A step that adds a member to its declaring type. -/
theorem exists_gains_of_member {step : LoggedStep} (kind : MemberKind) {added declaring : Token}
    (found : types.find? (fun type => type.token == token) = some type)
    (adds : forall other, step.member? other = if other = kind then some (added, declaring) else none)
    (silent : forall token, step.named? token = none ∧ step.element? token = none) : exists later,
      (modifyFirst declaring (fun type => type.enter added kind) types).find?
          (fun type => type.token == token) = some later ∧ type.Gains [step] later := by
  have noInterface : LoggedStep.named [step] type.token = [] := by
    simp [LoggedStep.named, silent]
  have noElement : LoggedStep.lastElement? [step] type.token = none := by
    simp [LoggedStep.lastElement?, silent]
  refine exists_gains_of_modify (fun type => type.token_enter added kind) found ?_ ?_
  · intro same
    refine ⟨type.token_enter added kind, ?_, ?_, ?_⟩
    · intro other
      rw [TypeDef.listed_enter]
      by_cases isKind : other = kind
      · simp [LoggedStep.entered, adds, isKind, same]
      · simp [LoggedStep.entered, adds, isKind]
    · rw [noInterface, List.append_nil, TypeDef.interfaces_enter]
    · rw [noElement, Option.none_or, TypeDef.element_enter]
  · intro differ
    refine gains_unchanged ?_ noInterface noElement
    intro other
    by_cases isKind : other = kind
    · simp [LoggedStep.entered, adds, isKind, Ne.symm differ]
    · simp [LoggedStep.entered, adds, isKind]

/-- A type of which nothing is known but its token. -/
structure IsBare (type : TypeDef) (token : Token) : Prop where
  token : type.token = token
  listed : forall kind, type.listed kind = []
  interfaces : type.interfaces = []
  element : type.element = none

theorem types_step_type (draft : Draft) (given : Option Token) (space name : String) (attributes : TypeAttributes)
    (base : Option Token) : exists new, IsBare new (draft.claimToken .typeDef given).1 ∧
      (draft.step (.type given space name attributes base)).2.types = draft.types ++ [new] := by
  refine ⟨⟨_, space, name, attributes, base, none, [], [], [], []⟩, ⟨rfl, ?_, rfl, rfl⟩, ?_⟩
  · intro kind
    cases kind <;> rfl
  · cases given <;> rfl

theorem types_step_arrayType (draft : Draft) (given : Option Token) (element : Token) (base : Option Token) :
    exists new, IsBare new (draft.claimToken .typeDef given).1 ∧
      (draft.step (.arrayType given element base)).2.types =
        modifyFirst (draft.claimToken .typeDef given).1
          (fun type => { type with element := some element }) (draft.types ++ [new]) := by
  refine ⟨⟨_, (draft.arrayLabel element).1, (draft.arrayLabel element).2, TypeAttributes.exported,
    base, none, [], [], [], []⟩, ⟨rfl, ?_, rfl, rfl⟩, ?_⟩
  · intro kind
    cases kind <;> rfl
  · cases given <;> rfl

/-- What a step makes of a type that it does not define. -/
theorem exists_gains_of_step {step : DraftStep} (found : draft.type? token = some type)
    (differs : (LoggedStep.mk step (draft.step step).1).defined? ≠ some token) : exists later,
      (draft.step step).2.type? token = some later ∧
        type.Gains [⟨step, (draft.step step).1⟩] later := by
  have claimed : forall kind given,
      (draft.claimToken kind given).2.types.find? (fun type => type.token == token) = some type := by
    intro kind given
    rw [types_claimToken]
    exact found
  have stays : forall new : TypeDef,
      (draft.types ++ [new]).find? (fun type => type.token == token) = some type := by
    intro new
    rw [List.find?_append]
    change (draft.type? token).or _ = some type
    rw [found, Option.some_or]
  -- A new type stands behind the one that was found, and a change keeps the token of a type.
  cases step with
  | type given space name attributes base =>
      rcases types_step_type draft given space name attributes base with ⟨new, _, grown⟩
      refine ⟨type, ?_, gains_unchanged ?_ rfl rfl⟩
      · unfold type?
        rw [grown, stays]
      · intro kind
        cases kind <;> rfl
  | arrayType given element base =>
      rcases types_step_arrayType draft given element base with ⟨new, _, grown⟩
      have other : (draft.claimToken .typeDef given).1 ≠ token :=
        fun same => differs (congrArg some same)
      refine ⟨type, ?_, gains_unchanged ?_ rfl rfl⟩
      · unfold type?
        rw [grown, find?_modifyFirst, if_neg other, stays]
        exact fun _ => rfl
      · intro kind
        cases kind <;> rfl
  | elementType array element =>
      refine exists_gains_of_modify (fun _ => rfl) found ?_ ?_
      · intro same
        refine ⟨rfl, ?_, ?_, ?_⟩
        · intro kind
          cases kind <;> simp [LoggedStep.entered, LoggedStep.member?, TypeDef.listed]
        · simp [LoggedStep.named, LoggedStep.named?]
        · simp [LoggedStep.lastElement?, LoggedStep.element?, same]
      · intro differ
        refine gains_unchanged ?_ rfl ?_
        · intro kind
          cases kind <;> rfl
        · simp [LoggedStep.lastElement?, LoggedStep.element?, Ne.symm differ]
  | interface subject interface =>
      refine exists_gains_of_modify (fun _ => rfl) found ?_ ?_
      · intro same
        refine ⟨rfl, ?_, ?_, ?_⟩
        · intro kind
          cases kind <;> simp [LoggedStep.entered, LoggedStep.member?, TypeDef.listed]
        · simp [LoggedStep.named, LoggedStep.named?, same]
        · simp [LoggedStep.lastElement?, LoggedStep.element?]
      · intro differ
        refine gains_unchanged ?_ ?_ rfl
        · intro kind
          cases kind <;> rfl
        · simp [LoggedStep.named, LoggedStep.named?, Ne.symm differ]
  | field given declaring name fieldType isStatic =>
      refine exists_gains_of_member .field (claimed .field given) ?_ (fun _ => ⟨rfl, rfl⟩)
      intro other
      cases other <;> rfl
  | method given declaring name attributes returns params body =>
      refine exists_gains_of_member .method (claimed .methodDef given) ?_ (fun _ => ⟨rfl, rfl⟩)
      intro other
      cases other <;> rfl
  | constructor given declaring isStatic params body =>
      refine exists_gains_of_member .constructor (claimed .methodDef given) ?_
        (fun _ => ⟨rfl, rfl⟩)
      intro other
      cases other <;> rfl
  | string given text =>
      refine ⟨type, claimed .userString given, gains_unchanged ?_ rfl rfl⟩
      intro kind
      cases kind <;> rfl

/-- A change that cannot be seen in a view of a type cannot be seen in a view of all types. -/
theorem map_modifyFirst {View : Type} {view : TypeDef -> View} (subject : Token)
    {change : TypeDef -> TypeDef} (sameView : forall type, view (change type) = view type)
    (types : List TypeDef) : (modifyFirst subject change types).map view = types.map view := by
  induction types with
  | nil => rfl
  | cons first rest inductionHypothesis =>
      unfold modifyFirst
      split
      · rw [List.map_cons, List.map_cons, sameView]
      · rw [List.map_cons, List.map_cons, inductionHypothesis]

/-- A step adds the type that it defines, and no other. -/
theorem tokens_step (draft : Draft) (step : DraftStep) :
    (draft.step step).2.types.map TypeDef.token =
      draft.types.map TypeDef.token ++ (LoggedStep.mk step (draft.step step).1).defined?.toList := by
  cases step with
  | type given space name attributes base =>
      rcases types_step_type draft given space name attributes base with ⟨new, bare, grown⟩
      rw [grown, List.map_append, List.map_singleton, bare.token]
      rfl
  | arrayType given element base =>
      rcases types_step_arrayType draft given element base with ⟨new, bare, grown⟩
      rw [grown, map_modifyFirst, List.map_append, List.map_singleton, bare.token]
      · rfl
      · exact fun _ => rfl
  | elementType array element =>
      refine (map_modifyFirst _ ?_ _).trans (List.append_nil _).symm
      exact fun _ => rfl
  | interface subject interface =>
      refine (map_modifyFirst _ ?_ _).trans (List.append_nil _).symm
      exact fun _ => rfl
  | field given declaring name fieldType isStatic =>
      rw [← types_claimToken draft .field given]
      refine (map_modifyFirst _ ?_ _).trans (List.append_nil _).symm
      exact fun _ => rfl
  | method given declaring name attributes returns params body =>
      rw [← types_claimToken draft .methodDef given]
      refine (map_modifyFirst _ ?_ _).trans (List.append_nil _).symm
      exact fun _ => rfl
  | constructor given declaring isStatic params body =>
      rw [← types_claimToken draft .methodDef given]
      refine (map_modifyFirst _ ?_ _).trans (List.append_nil _).symm
      exact fun _ => rfl
  | string given text =>
      rw [← types_claimToken draft .userString given]
      exact (List.append_nil _).symm

/-- A step adds the member that it names to the draft, whether its declaring type is there
or not. -/
theorem members_step (draft : Draft) (step : DraftStep) (kind : MemberKind) :
    (draft.step step).2.members kind = draft.members kind ++
      ((LoggedStep.mk step (draft.step step).1).member? kind).toList := by
  have claimed : forall table given,
      (draft.claimToken table given).2.members kind = draft.members kind := by
    intro table given
    cases given <;> rfl
  cases step with
  | type given space name attributes base =>
      rw [← claimed .typeDef given]
      cases kind <;> exact (List.append_nil _).symm
  | arrayType given element base =>
      rw [← claimed .typeDef given]
      cases kind <;> exact (List.append_nil _).symm
  | elementType array element => cases kind <;> exact (List.append_nil _).symm
  | interface subject interface => cases kind <;> exact (List.append_nil _).symm
  | field given declaring name fieldType isStatic =>
      rw [← claimed .field given]
      cases kind with
      | field => exact List.map_append
      | method => exact (List.append_nil _).symm
      | constructor => exact (List.append_nil _).symm
  | method given declaring name attributes returns params body =>
      rw [← claimed .methodDef given]
      cases kind with
      | field => exact (List.append_nil _).symm
      | method => exact List.map_append
      | constructor => exact (List.append_nil _).symm
  | constructor given declaring isStatic params body =>
      rw [← claimed .methodDef given]
      cases kind with
      | field => exact (List.append_nil _).symm
      | method => exact (List.append_nil _).symm
      | constructor => exact List.map_append
  | string given text =>
      rw [← claimed .userString given]
      cases kind <;> exact (List.append_nil _).symm

/-- A type is bare when it is defined, apart from the element type of an array. -/
theorem exists_fresh_of_step {step : DraftStep} (absent : draft.type? token = none)
    (defines : (LoggedStep.mk step (draft.step step).1).defined? = some token) : exists fresh,
      (draft.step step).2.type? token = some fresh ∧
        fresh.IsFresh ⟨step, (draft.step step).1⟩ := by
  cases step with
  | type given space name attributes base =>
      rcases types_step_type draft given space name attributes base with ⟨new, bare, grown⟩
      have isToken : new.token = token := bare.token.trans (Option.some.inj defines)
      refine ⟨new, ?_, ⟨bare.listed, bare.interfaces, bare.element⟩⟩
      unfold type? at absent ⊢
      rw [grown, List.find?_append, absent]
      simp [isToken]
  | arrayType given element base =>
      rcases types_step_arrayType draft given element base with ⟨new, bare, grown⟩
      have isToken : new.token = token := bare.token.trans (Option.some.inj defines)
      refine ⟨{ new with element := some element }, ?_, ⟨?_, bare.interfaces, rfl⟩⟩
      · unfold type? at absent ⊢
        rw [grown, find?_modifyFirst, if_pos (bare.token.symm.trans isToken), List.find?_append,
          absent]
        · simp [isToken]
        · exact fun _ => rfl
      · intro kind
        rw [← bare.listed kind]
        cases kind <;> rfl
  | elementType array element => cases defines
  | interface subject interface => cases defines
  | field given declaring name fieldType isStatic => cases defines
  | method given declaring name attributes returns params body => cases defines
  | constructor given declaring isStatic params body => cases defines
  | string given text => cases defines

end Steps

/-! ## A run of steps -/

section Runs

variable {draft : Draft} {steps : List DraftStep} {token : Token} {type : TypeDef}

theorem log_cons (draft : Draft) (first : DraftStep) (rest : List DraftStep) :
    draft.log (first :: rest) =
      ⟨first, (draft.step first).1⟩ :: (draft.step first).2.log rest :=
  rfl

theorem trace_cons (draft : Draft) (first : DraftStep) (rest : List DraftStep) :
    (draft.trace (first :: rest)).2 = ((draft.step first).2.trace rest).2 :=
  rfl

theorem tokens_trace (draft : Draft) (steps : List DraftStep) :
    (draft.trace steps).2.types.map TypeDef.token =
      draft.types.map TypeDef.token ++ (draft.log steps).filterMap LoggedStep.defined? := by
  induction steps generalizing draft with
  | nil => exact (List.append_nil _).symm
  | cons first rest inductionHypothesis =>
      rw [trace_cons, inductionHypothesis, tokens_step, log_cons, List.append_assoc]
      congr 1
      cases defines : (LoggedStep.mk first (draft.step first).1).defined? <;> simp [defines]

theorem members_trace (draft : Draft) (steps : List DraftStep) (kind : MemberKind) :
    (draft.trace steps).2.members kind =
      draft.members kind ++ (draft.log steps).filterMap (LoggedStep.member? kind) := by
  induction steps generalizing draft with
  | nil => exact (List.append_nil _).symm
  | cons first rest inductionHypothesis =>
      rw [trace_cons, inductionHypothesis, members_step, log_cons, List.append_assoc]
      congr 1
      cases adds : (LoggedStep.mk first (draft.step first).1).member? kind <;> simp [adds]

/-- What a run makes of a type that is there before and is not defined again. -/
theorem exists_gains_of_trace (found : draft.type? token = some type)
    (once : token ∉ (draft.log steps).filterMap LoggedStep.defined?) : exists later,
      (draft.trace steps).2.type? token = some later ∧ type.Gains (draft.log steps) later := by
  induction steps generalizing draft type with
  | nil => exact ⟨type, found, .refl type⟩
  | cons first rest inductionHypothesis =>
      rw [log_cons, List.filterMap_cons] at once
      have differs : (LoggedStep.mk first (draft.step first).1).defined? ≠ some token := by
        intro same
        rw [same] at once
        exact once List.mem_cons_self
      have onceThen :
          token ∉ ((draft.step first).2.log rest).filterMap LoggedStep.defined? := by
        intro again
        split at once
        · exact once again
        · exact once (List.mem_cons_of_mem _ again)
      rcases exists_gains_of_step found differs with ⟨next, foundNext, gainsFirst⟩
      rcases inductionHypothesis foundNext onceThen with ⟨later, foundLater, gainsRest⟩
      exact ⟨later, foundLater, gainsFirst.trans gainsRest⟩

/-- A run that defines a type makes the type of the definition and of the steps after it. -/
theorem exists_definition (distinct : ((draft.trace steps).2.types.map TypeDef.token).Nodup)
    (found : (draft.trace steps).2.type? token = some type)
    (defines : token ∈ (draft.log steps).filterMap LoggedStep.defined?) :
    exists before definition after, draft.log steps = before ++ definition :: after ∧
      definition.defined? = some token ∧ type.IsMade definition after := by
  induction steps generalizing draft with
  | nil => cases defines
  | cons first rest inductionHypothesis =>
      by_cases isFirst : (LoggedStep.mk first (draft.step first).1).defined? = some token
      · rw [tokens_trace, log_cons, List.filterMap_cons, isFirst] at distinct
        rcases List.nodup_append.mp distinct with ⟨_, ofLog, apart⟩
        have absent : draft.type? token = none := by
          refine List.find?_eq_none.mpr (fun type member same => ?_)
          exact apart type.token (List.mem_map_of_mem member) token List.mem_cons_self
            (eq_of_beq same)
        rcases exists_fresh_of_step absent isFirst with ⟨fresh, foundFresh, isFresh⟩
        rcases exists_gains_of_trace foundFresh (List.nodup_cons.mp ofLog).1 with
          ⟨later, foundLater, gains⟩
        -- The rest defines the type no more, so what is found in the end grew from the fresh one.
        cases found.symm.trans foundLater
        exact ⟨[], _, _, rfl, isFirst, gains.isMade isFresh⟩
      · have definesThen :
            token ∈ ((draft.step first).2.log rest).filterMap LoggedStep.defined? := by
          rw [log_cons, List.filterMap_cons] at defines
          split at defines
          · exact defines
          · rename_i other isOther
            rcases List.mem_cons.mp defines with same | later
            · rw [isOther, same] at isFirst
              exact absurd rfl isFirst
            · exact later
        rcases @inductionHypothesis (draft.step first).2 distinct found definesThen with
          ⟨before, definition, after, split, made⟩
        refine ⟨⟨first, (draft.step first).1⟩ :: before, definition, after, ?_, made⟩
        rw [log_cons, split, List.cons_append]

/-- What a type is made of is all that is said of it after its definition. -/
theorem attached_of_isMade {before after : List LoggedStep} {definition : LoggedStep}
    (made : type.IsMade definition after) (defines : definition.defined? = some type.token)
    (distinct : forall kind,
      (LoggedStep.entered (before ++ definition :: after) kind type.token).Nodup) :
    Attached before definition after type := by
  rcases LoggedStep.said_around_definition defines before after with ⟨entered, named, element⟩
  have apart : forall kind, (LoggedStep.entered before kind type.token ++
      LoggedStep.entered after kind type.token).Nodup :=
    fun kind => entered kind ▸ distinct kind
  have kept : type.Holds after := by
    constructor
    · exact made.listed
    · intro kind token member
      rw [made.listed]
      exact List.count_eq_one_of_mem (List.nodup_append.mp (apart kind)).2.1 member
    · intro interface member
      rw [made.interfaces]
      exact member
    · intro element last
      rw [made.element, last, Option.some_or]
  refine ⟨defines, kept, made.interfaces, made.element, ?_, ?_⟩
  · -- A token that is entered on both sides would be entered twice.
    intro kind token early listed
    rw [made.listed] at listed
    exact (List.nodup_append.mp (apart kind)).2.2 token early token listed rfl
  · intro noMember noInterface noElement
    constructor
    · intro kind
      rw [entered, noMember, List.nil_append, made.listed]
    · intro kind
      rw [entered, noMember, List.nil_append]
      exact kept.once kind
    · rw [named, noInterface, List.nil_append]
      exact kept.interfaces
    · rw [element, noElement, Option.or_none]
      exact kept.element

end Runs

/-! ## Finished programs -/

section Built

variable {steps : List DraftStep} {program : Program}

/-- A finished program has each member of its draft once. -/
theorem nodup_members {draft : Draft} {used : List Token}
    (checked : checkTokens used draft.memberTokens = .ok ()) (kind : MemberKind) :
    ((draft.members kind).map Prod.fst).Nodup := by
  have all := nodup_of_checkTokens checked
  unfold memberTokens at all
  rcases List.nodup_append.mp (List.nodup_append.mp all).1 with ⟨front, ofConstructors, _⟩
  rcases List.nodup_append.mp front with ⟨ofFields, ofMethods, _⟩
  cases kind with
  | field =>
      simp only [members, List.map_map]
      exact ofFields
  | method =>
      simp only [members, List.map_map]
      exact ofMethods
  | constructor =>
      simp only [members, List.map_map]
      exact ofConstructors

/-- The declaring type of every member is there when the program is finished. -/
theorem typeDef_of_member (built : (ofSteps steps).build = .ok program) {kind : MemberKind}
    {token declaring : Token} (member : (token, declaring) ∈ (ofSteps steps).members kind) :
    exists type, program.typeDef declaring = .ok type := by
  have references := Program.references_of_build built
  rcases exists_completed built with ⟨names, rfl, _⟩
  cases kind with
  | field =>
      rcases List.mem_map.mp member with ⟨field, among, same⟩
      cases same
      exact references field.declaring
        (.field (Ordered.mem_sortBy.mpr among) List.mem_cons_self)
  | method =>
      rcases List.mem_map.mp member with ⟨method, among, same⟩
      cases same
      have isCallable : Callable.method method ∈ (ofSteps steps).callables :=
        List.mem_append_left _ (List.mem_map_of_mem among)
      exact references method.declaring
        (.callable (Ordered.mem_sortBy.mpr isCallable) List.mem_cons_self)
  | constructor =>
      rcases List.mem_map.mp member with ⟨constructor, among, same⟩
      cases same
      have isCallable : Callable.constructor constructor ∈ (ofSteps steps).callables :=
        List.mem_append_right _ (List.mem_map_of_mem among)
      exact references constructor.declaring
        (.callable (Ordered.mem_sortBy.mpr isCallable) List.mem_cons_self)

theorem members_ofSteps (steps : List DraftStep) (kind : MemberKind) :
    (ofSteps steps).members kind =
      (Draft.log {} steps).filterMap (LoggedStep.member? kind) := by
  unfold ofSteps
  rw [members_trace]
  cases kind <;> exact List.nil_append _

/-- Every type of a finished program has what is said of it after the step that defines it, and
nothing else.  A member has a type that declares it in any case. -/
theorem attached_of_build (built : (ofSteps steps).build = .ok program) :
    (forall kind token declaring,
      (token, declaring) ∈ (Draft.log {} steps).filterMap (LoggedStep.member? kind) ->
        exists type, program.typeDef declaring = .ok type) ∧
    forall type, type ∈ program.types -> exists before definition after,
      Draft.log {} steps = before ++ definition :: after ∧
        Attached before definition after type := by
  constructor
  · intro kind token declaring member
    rw [← members_ofSteps] at member
    exact typeDef_of_member built member
  · rcases exists_completed built with ⟨names, rfl, completed⟩
    have distinct := completed.typeTokens
    intro type arranged
    have among : type ∈ (ofSteps steps).types := Ordered.mem_sortBy.mp arranged
    have found : (ofSteps steps).type? type.token = some type :=
      Program.find?_of_nodup distinct among
    have defines : type.token ∈ (Draft.log {} steps).filterMap LoggedStep.defined? := by
      have isToken : type.token ∈ (ofSteps steps).types.map TypeDef.token :=
        List.mem_map_of_mem among
      unfold ofSteps at isToken
      rw [tokens_trace] at isToken
      exact isToken
    rcases exists_definition distinct found defines with
      ⟨before, definition, after, split, isDefined, made⟩
    refine ⟨before, definition, after, split, attached_of_isMade made isDefined ?_⟩
    intro kind
    rw [← split]
    apply LoggedStep.nodup_entered
    rw [← members_ofSteps]
    exact nodup_members completed.tokens kind

/-- A ferry gets a seat, a way to sail, a beginning, an interface and an element type before
it is defined, and a second seat afterwards. -/
def sampleFerrySteps : List DraftStep := [
  .field none ⟨0x02000001⟩ "bow" ⟨0x02000002⟩ false,
  .method none ⟨0x02000001⟩ "Sail" ⟨6, 0x0040, 0x0100⟩ none [] none,
  .constructor none ⟨0x02000001⟩ false [] none,
  .interface ⟨0x02000001⟩ ⟨0x02000003⟩,
  .elementType ⟨0x02000001⟩ ⟨0x02000002⟩,
  .type none "Demo" "Ferry" TypeAttributes.exported none,
  .field none ⟨0x02000001⟩ "stern" ⟨0x02000002⟩ false,
  .type none "Demo" "Seat" TypeAttributes.exported none,
  .type none "Demo" "Floating" TypeAttributes.interface none,
  .interface ⟨0x02000002⟩ ⟨0x02000003⟩,
  .field none ⟨0x02000002⟩ "number" ⟨0x02000002⟩ false,
  .arrayType none ⟨0x02000002⟩ none]

def sampleFerry : Program :=
  (ofSteps sampleFerrySteps).build.toOption.getD ⟨[], [], [], [], []⟩

theorem build_sampleFerry : (ofSteps sampleFerrySteps).build = .ok sampleFerry :=
  Result.eq_ok_getD (by decide +kernel) _

/-- The seat and its array are whole, and the ferry has its second seat only. -/
theorem sampleFerry_attached :
    sampleFerry.types.map (fun type => (type.fields, type.interfaces, type.element)) =
      [([⟨0x04000002⟩], [], none), ([⟨0x04000003⟩], [⟨0x02000003⟩], none), ([], [], none),
        ([], [], some ⟨0x02000002⟩)] ∧
    (ofSteps sampleFerrySteps).build = .ok sampleFerry ∧
    forall type, type ∈ sampleFerry.types -> exists before definition after,
      Draft.log {} sampleFerrySteps = before ++ definition :: after ∧
        Attached before definition after type :=
  ⟨by decide +kernel, build_sampleFerry, (attached_of_build build_sampleFerry).2⟩

/-- What is said of the ferry too early is passed over, and the ferry is accepted. -/
theorem sampleFerry_overlooks : exists type,
    (ofSteps sampleFerrySteps).build = .ok sampleFerry ∧
    sampleFerry.typeDef ⟨0x02000001⟩ = .ok type ∧
    [MemberKind.field, .method, .constructor].map
        (fun kind => LoggedStep.entered (Draft.log {} sampleFerrySteps) kind type.token) =
      [[⟨0x04000001⟩, ⟨0x04000002⟩], [⟨0x06000001⟩], [⟨0x06000002⟩]] ∧
    [MemberKind.field, .method, .constructor].map type.listed = [[⟨0x04000002⟩], [], []] ∧
    LoggedStep.named (Draft.log {} sampleFerrySteps) type.token = [⟨0x02000003⟩] ∧
    type.interfaces = [] ∧
    LoggedStep.lastElement? (Draft.log {} sampleFerrySteps) type.token = some ⟨0x02000002⟩ ∧
    type.element = none ∧
    ¬ type.Holds (Draft.log {} sampleFerrySteps) := by
  refine ⟨⟨⟨0x02000001⟩, "Demo", "Ferry", TypeAttributes.exported, none, none, [],
    [⟨0x04000002⟩], [], []⟩, build_sampleFerry, ?_, ?_, ?_, ?_, ?_, ?_, ?_, ?_⟩
  · rfl
  · decide +kernel
  · decide +kernel
  · decide +kernel
  · decide +kernel
  · decide +kernel
  · decide +kernel
  · intro holds
    have listed := holds.ordered .field
    revert listed
    decide +kernel

end Built
end Draft
end CilGraph
