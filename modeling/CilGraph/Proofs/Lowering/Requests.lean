import CilGraph.Proofs.Lowering.Constraints

namespace CilGraph

/-!
# Types that a body asks for

An instruction can name a type in four ways.  Its operand is the type, or a field of
the type, or a token that happens to be the type's handle, or it is a `constrained.`
and its operand is the type of a receiver.  When a body is lowered, the types that
are named in the first three ways are asked for, one after another and nothing else.
The type of a `constrained.` is not asked for.

A type token also ends up among the constants of a node, and again it matters where
it comes from.  The nodes that are no constrained calls hold exactly the type tokens
that are operands and handles, and all of these have been asked for.  A constrained
call holds the type of its `constrained.`, so this one is asked for only if another
instruction of the body names it, too.
-/

/-! ## Instructions -/

/-- The token in an operand, if it is the handle of a type. -/
def Lowering.handleOf? (operand : UInt64) : Option Token :=
  if (tokenOf operand).kind? = some .typeDef then some (tokenOf operand) else none

/-- How an instruction names a type. -/
inductive TypeUse where
  /-- The operand is the type. -/
  | operand
  /-- The operand is a field that the type declares. -/
  | field
  /-- The operand is a token, which may be the handle of a type. -/
  | handle
  /-- The operand is the type of the receiver of the next call. -/
  | constraint
  | nothing
deriving DecidableEq, Repr

namespace TypeUse

/-- The type that an operand stands for. -/
def named? (program : Program) (operand : UInt64) : TypeUse -> Option Token
  | .operand | .constraint => some (Lowering.tokenOf operand)
  | .field => (program.field (Lowering.tokenOf operand)).toOption.map FieldDef.declaring
  | .handle => Lowering.handleOf? operand
  | .nothing => none

/-- Whether the token of the type is in the node of the same instruction. -/
def isStored (use : TypeUse) : Bool :=
  use == .operand || use == .handle

end TypeUse

def Opcode.typeUse (opcode : Opcode) : TypeUse :=
  match opcode.operand with
  | .type => if opcode.isConstraint then .constraint else .operand
  | .field => .field
  | .token => .handle
  | _ => .nothing

/-- The type that an instruction names. -/
def Sighting.named? (program : Program) (sighting : Sighting) : Option Token :=
  sighting.operands.head?.bind
    (fun operand => sighting.opcode.typeUse.named? program operand.2)

section Sightings

variable {program : Program} {sighting : Sighting}

theorem Sighting.named?_of_nothing (namesNone : sighting.opcode.typeUse = .nothing) :
    sighting.named? program = none := by
  rw [named?, namesNone]
  cases sighting.operands.head? <;> rfl

theorem Sighting.named?_of_operands {width : Nat} {operand : UInt64}
    (operands : sighting.operands = [(width, operand)]) :
    sighting.named? program = sighting.opcode.typeUse.named? program operand := by
  rw [named?, operands]
  rfl

theorem filterMap_filter_single (keeps : Sighting -> Bool) (chosen : Sighting -> Option Token) :
    ([sighting].filter keeps).filterMap chosen =
      if keeps sighting then (chosen sighting).toList else [] := by
  rw [List.filter_singleton]
  cases keeps sighting with
  | false => rfl
  | true =>
      change [sighting].filterMap chosen = (chosen sighting).toList
      cases found : chosen sighting <;> simp [found]

end Sightings

/-- The type that a discovery is about. -/
def Discovery.type? : Discovery -> Option Token
  | .type token => some token
  | _ => none

theorem Discovery.mem_filterMap_type? {discoveries : List Discovery} {token : Token} :
    token ∈ discoveries.filterMap type? ↔ .type token ∈ discoveries := by
  constructor
  · intro member
    rcases List.mem_filterMap.mp member with ⟨discovery, among, isType⟩
    cases discovery with
    | type other =>
        cases isType
        exact among
    | callable | native => cases isType
  · intro member
    exact List.mem_filterMap.mpr ⟨_, member, rfl⟩

/-! ## Nodes -/

/-- The place of the type token among the constants of a node. -/
def Operation.typePlace? : Operation -> Option Nat
  | .loadToken | .loadObject | .storeObject | .initObject | .sizeOf | .newArray | .isInstance
  | .castClass | .box | .unboxAny => some 0
  | .loadElement | .loadElementAddress | .storeElement | .callVirtualConstrained => some 1
  | _ => none

namespace Node

/-- The type token that a node holds.  A handle need not be that of a type, and
access to an element of a fixed size has no second constant. -/
def typeToken? (node : Node) : Option Token := do
  let place ← node.operation.typePlace?
  let constant ← node.constants[place]?
  if node.operation = .loadToken then Lowering.handleOf? constant
  else some (Lowering.tokenOf constant)

variable {node : Node}

theorem typeToken?_eq_none (noPlace : node.operation.typePlace? = none) :
    node.typeToken? = none := by
  rw [typeToken?, noPlace]
  rfl

theorem typeToken?_eq_some {place : Nat} {constant : UInt64}
    (atPlace : node.operation.typePlace? = some place) (notHandle : node.operation ≠ .loadToken)
    (stored : node.constants[place]? = some constant) :
    node.typeToken? = some (Lowering.tokenOf constant) := by
  rw [typeToken?, atPlace]
  change (node.constants[place]? >>= _) = _
  rw [stored]
  exact if_neg notHandle

/-- A single constant is no type token if the place of that is not the first. -/
theorem typeToken?_of_single {constant : UInt64} (notFirst : node.operation.typePlace? ≠ some 0)
    (single : node.constants = [constant]) : node.typeToken? = none := by
  cases atPlace : node.operation.typePlace? with
  | none => exact typeToken?_eq_none atPlace
  | some place =>
      cases place with
      | zero => exact absurd atPlace notFirst
      | succ place =>
          rw [typeToken?, atPlace, single]
          rfl

end Node

/-! ## The instruction table -/

namespace Effect

def typeUse : Effect -> TypeUse
  | .typed _ _ _ | .element _ _ _ | .newArray => .operand
  | .field _ _ _ => .field
  | .loadToken => .handle
  | .constrained => .constraint
  | _ => .nothing

/-- The operation of an effect has a place for a type token where the effect puts it. -/
def placesType : Effect -> Bool
  | .typed operation _ _ => operation.typePlace? == some 0 && operation != .loadToken
  | .element operation _ _ => operation.typePlace? == some 1 && operation != .loadToken
  | .sized operation _ _ _ => operation.typePlace? != some 0
  | .reference operation _ => operation.typePlace? == none
  | .loadToken => true
  | effect => effect.common?.all (fun rule => rule.operation.typePlace? == none)

end Effect

namespace Opcode

/-- An instruction names a type in the way of its effect. -/
def usesType (opcode : Opcode) (effect : Effect) : Bool :=
  opcode.typeUse == effect.typeUse && effect.placesType &&
    (opcode.mnemonic == "ldtoken") == (opcode.operand == .token)

theorem usesType_of_mem_table {opcode : Opcode} (member : opcode ∈ table) {effect : Effect}
    (hasEffect : opcode.effect = some effect) : opcode.usesType effect = true :=
  check_of_mem_table usesType (by decide +kernel) member hasEffect

theorem operand_of_typeUse {opcode : Opcode} (names : opcode.typeUse ≠ .nothing) :
    opcode.operand = .type ∨ opcode.operand = .field ∨ opcode.operand = .token := by
  unfold typeUse at names
  split at names
  · exact Or.inl ‹_›
  · exact Or.inr (Or.inl ‹_›)
  · exact Or.inr (Or.inr ‹_›)
  · exact absurd rfl names

end Opcode

namespace Lowering

/-! ## Steps -/

/-- What a step discovers because of its operand, and which type token its node holds. -/
inductive Uses (program : Program) (operand : UInt64) :
    TypeUse -> List Discovery -> List Token -> Prop
  | operand : Uses program operand .operand [.type (tokenOf operand)] [tokenOf operand]
  | field {field : FieldDef} (found : program.field (tokenOf operand) = .ok field) :
      Uses program operand .field [.type field.declaring] []
  | handle :
      Uses program operand .handle ((handleOf? operand).toList.map .type) (handleOf? operand).toList
  | constraint : Uses program operand .constraint [] []

section Steps

variable {lowering : Lowering} {cursor : Cursor} {frame next : Frame} {effect : Effect}
  {discoveries : List Discovery}

theorem filterMap_typeToken?_single {node : Node} {token : Option Token}
    (added : frame.added next = [node]) (holds : node.typeToken? = token) :
    (frame.added next).filterMap Node.typeToken? = token.toList := by
  rw [added, List.filterMap_cons, holds]
  cases token <;> rfl

/-- The common rule for an effect whose operand is a type.  The operand is the last
constant, and what stands before it gives the place of the type token. -/
theorem Ordinary.uses_operand {rule : StackEffect} {node : Node}
    (ordinary : Ordinary lowering cursor effect rule frame next discoveries node)
    (leading : List UInt64) (constants : effect.constants cursor = (do
      let operand ← cursor.operandValue 0
      .ok (leading ++ [operand])))
    (asks : effect.discoveries lowering.linkage.program cursor = (do
      let operand ← cursor.operandValue 0
      .ok [.type (tokenOf operand)]))
    (atPlace : rule.operation.typePlace? = some leading.length)
    (notHandle : rule.operation ≠ .loadToken) :
    exists operand, cursor.operandValue 0 = .ok operand ∧
      Uses lowering.linkage.program operand .operand discoveries
        ((frame.added next).filterMap Node.typeToken?) := by
  rcases Result.bind_eq_ok.mp (constants.symm.trans ordinary.constants) with
    ⟨operand, reads, stored⟩
  rcases Result.bind_eq_ok.mp (asks.symm.trans ordinary.discovered) with ⟨again, readsAgain, asked⟩
  cases reads.symm.trans readsAgain
  cases asked
  rw [← ordinary.operation] at atPlace notHandle
  have last : node.constants[leading.length]? = some operand := by
    rw [← Except.ok.inj stored, List.getElem?_append_right (Nat.le_refl _), Nat.sub_self]
    rfl
  have holds := Node.typeToken?_eq_some atPlace notHandle last
  rw [filterMap_typeToken?_single ordinary.added holds]
  exact ⟨operand, reads, .operand⟩

/-- A step whose instruction names a type. -/
theorem Performs.uses (performs : Performs lowering cursor frame effect discoveries next)
    (places : effect.placesType = true) (names : effect.typeUse ≠ .nothing) :
    exists operand, cursor.operandValue 0 = .ok operand ∧
      Uses lowering.linkage.program operand effect.typeUse discoveries
        ((frame.added next).filterMap Node.typeToken?) := by
  cases performs with
  | @common _ rule constants _ _ isCommon constant discovered applied =>
      rcases (Performs.common isCommon constant discovered applied).ordinary isCommon with
        ⟨node, ordinary⟩
      have isRule := ordinary.operation
      cases effect with
      | typed operation pops produces =>
          cases isCommon
          rcases Bool.and_eq_true_iff.mp places with ⟨atPlace, notHandle⟩
          exact ordinary.uses_operand [] rfl rfl (eq_of_beq atPlace) (bne_iff_ne.mp notHandle)
      | element operation pops produces =>
          cases isCommon
          rcases Bool.and_eq_true_iff.mp places with ⟨atPlace, notHandle⟩
          exact ordinary.uses_operand [ValueKind.object.constant] rfl rfl (eq_of_beq atPlace)
            (bne_iff_ne.mp notHandle)
      | field operation pops produces =>
          rcases Result.bind_eq_ok.mp discovered with ⟨operand, reads, looked⟩
          rcases Result.bind_eq_ok.mp looked with ⟨field, found, asked⟩
          cases asked
          cases isCommon
          have holds := Node.typeToken?_eq_none (isRule ▸ eq_of_beq places)
          rw [filterMap_typeToken?_single ordinary.added holds]
          exact ⟨operand, reads, .field found⟩
      | loadToken =>
          cases isCommon
          rcases Result.bind_eq_ok.mp ordinary.constants with ⟨operand, reads, stored⟩
          rcases Result.bind_eq_ok.mp discovered with ⟨again, readsAgain, asked⟩
          cases reads.symm.trans readsAgain
          have holds : node.typeToken? = handleOf? operand := by
            rw [Node.typeToken?, isRule, ← Except.ok.inj stored]
            rfl
          have handle : discoveries = (handleOf? operand).toList.map .type := by
            rw [← Except.ok.inj asked, handleOf?]
            split <;> rfl
          rw [filterMap_typeToken?_single ordinary.added holds, handle]
          exact ⟨operand, reads, .handle⟩
      | newArray | constrained => cases isCommon
      | _ => exact absurd rfl names
  | newArray reads named popped =>
      refine ⟨_, reads, ?_⟩
      rw [added_of_append rfl]
      exact .operand
  | constrained reads =>
      refine ⟨_, reads, ?_⟩
      rw [Frame.added, List.drop_length]
      exact .constraint
  | _ => exact absurd rfl names

/-- A step whose instruction names no type.  Only a virtual call can be given one. -/
theorem Performs.uses_nothing (performs : Performs lowering cursor frame effect discoveries next)
    (places : effect.placesType = true) (namesNone : effect.typeUse = .nothing) :
    discoveries.filterMap Discovery.type? = [] ∧ (effect ≠ .callVirtual ->
      (frame.added next).filterMap Node.typeToken? = []) := by
  have noToken : forall {node : Node}, node.operation.typePlace? = none ->
      [node].filterMap Node.typeToken? = [] :=
    fun noPlace => by rw [List.filterMap_cons, Node.typeToken?_eq_none noPlace, List.filterMap_nil]
  have noType : forall {declared resolved : Callable} {name : String} {discovery : Discovery},
      Referred lowering declared resolved name discovery ->
      [discovery].filterMap Discovery.type? = [] := by
    intro declared resolved name discovery referred
    rcases referred.reported with ⟨symbol, _, same⟩ | ⟨_, same⟩ <;> rw [same] <;> rfl
  cases performs with
  | @common _ rule constants _ _ isCommon constant discovered applied =>
      rcases (Performs.common isCommon constant discovered applied).ordinary isCommon with
        ⟨node, ordinary⟩
      have isRule := ordinary.operation
      rw [ordinary.added]
      cases effect with
      | typed | element | field | loadToken => cases namesNone
      | sized operation pops produces kind =>
          cases isCommon
          cases discovered
          have short : node.typeToken? = none := Node.typeToken?_of_single
            (fun isFirst => bne_iff_ne.mp places ((congrArg _ isRule).symm.trans isFirst))
            (Except.ok.inj ordinary.constants).symm
          rw [List.filterMap_cons, short]
          exact ⟨rfl, fun _ => rfl⟩
      | loadString | duplicate | ret | newArray | call | callVirtual | newObject | reference
      | constrained => cases isCommon
      | _ =>
          cases discovered
          cases isCommon
          have noPlace := eq_of_beq (show (_ == none) = true from places)
          exact ⟨rfl, fun _ => noToken ((congrArg Operation.typePlace? isRule).trans noPlace)⟩
  | loadString | duplicate | retNothing | retValue =>
      rw [added_of_append rfl]
      exact ⟨rfl, fun _ => rfl⟩
  | newArray | constrained => cases namesNone
  | call called =>
      rcases called.refers with ⟨declared, found, referred⟩
      rw [added_of_append rfl]
      refine ⟨noType referred, fun _ => noToken ?_⟩
      cases frame.constraint <;> rfl
  | callVirtual called =>
      rcases called.refers with ⟨declared, found, referred⟩
      exact ⟨noType referred, fun notVirtual => absurd rfl notVirtual⟩
  | newObject reads found isConstructor named refers popped =>
      rw [added_of_append rfl]
      exact ⟨noType refers, fun _ => noToken rfl⟩
  | reference reads found refers =>
      rw [added_of_append rfl]
      exact ⟨noType refers, fun _ => noToken (eq_of_beq places)⟩

end Steps

section Uses

variable {program : Program} {operand : UInt64} {use : TypeUse} {discoveries : List Discovery}
  {tokens : List Token}

theorem Uses.asked (uses : Uses program operand use discoveries tokens) :
    discoveries.filterMap Discovery.type? =
      if use = .constraint then [] else (use.named? program operand).toList := by
  cases uses with
  | operand | constraint => rfl
  | field found =>
      rw [if_neg (by decide), TypeUse.named?, found]
      rfl
  | handle =>
      rw [if_neg (by decide), TypeUse.named?]
      cases handleOf? operand <;> rfl

theorem Uses.stored (uses : Uses program operand use discoveries tokens) :
    tokens = if use.isStored then (use.named? program operand).toList else [] := by
  cases uses <;> rfl

end Uses

/-! ## Turns -/

section Turns

variable {lowering : Lowering} (turn : Turn lowering)

theorem Turn.typeUse : turn.sighting.opcode.typeUse = turn.effect.typeUse ∧
    turn.effect.placesType = true ∧ (turn.sighting.opcode.mnemonic = "ldtoken" ->
      turn.sighting.opcode.operand = .token) := by
  have uses := Opcode.usesType_of_mem_table turn.listed turn.hasEffect
  simp only [Opcode.usesType, Bool.and_eq_true, beq_iff_eq] at uses
  rcases uses with ⟨⟨same, places⟩, handles⟩
  refine ⟨same, places, fun isHandle => ?_⟩
  rw [isHandle] at handles
  exact eq_of_beq handles.symm

theorem Turn.isConstraint_eq :
    turn.sighting.opcode.isConstraint = (turn.sighting.opcode.typeUse == .constraint) := by
  rw [turn.guarded.constrains, turn.typeUse.1]
  cases turn.effect <;> rfl

/-- A turn whose instruction names a type. -/
theorem Turn.uses (names : turn.sighting.opcode.typeUse ≠ .nothing) :
    exists operand, turn.sighting.operands = [(4, operand)] ∧
      Uses lowering.linkage.program operand turn.sighting.opcode.typeUse turn.discoveries
        (turn.nodes.filterMap Node.typeToken?) := by
  rcases turn.typeUse with ⟨same, places, _⟩
  rcases turn.performs.uses places (same ▸ names) with ⟨operand, reads, uses⟩
  rw [← same] at uses
  refine ⟨operand, ?_, uses⟩
  have kind : turn.sighting.opcode.operand ≠ .none ∧
      turn.sighting.opcode.operand ≠ .branchTable ∧ turn.sighting.opcode.operand.size = 4 := by
    rcases Opcode.operand_of_typeUse names with isKind | isKind | isKind <;>
      simp [isKind, OperandKind.size]
  have operands := turn.sees.operands_eq kind.1 kind.2.1 reads
  rw [kind.2.2] at operands
  exact operands

/-- Other instructions than virtual calls make no constrained call. -/
theorem Turn.free_nodes (notVirtual : turn.effect ≠ .callVirtual) :
    turn.nodes.filter (fun node => node.operation != .callVirtualConstrained) = turn.nodes :=
  List.filter_eq_self.mpr
    (fun node member => bne_iff_ne.mpr (turn.guarded.nodes notVirtual node member).2)

/-- A turn whose instruction names no type. -/
theorem Turn.uses_nothing (namesNone : turn.sighting.opcode.typeUse = .nothing) :
    turn.discoveries.filterMap Discovery.type? = [] ∧
      (turn.nodes.filter (fun node => node.operation != .callVirtualConstrained)).filterMap
        Node.typeToken? = [] := by
  rcases turn.typeUse with ⟨same, places, _⟩
  rcases turn.performs.uses_nothing places (same ▸ namesNone) with ⟨asksNone, holdsNone⟩
  refine ⟨asksNone, ?_⟩
  by_cases isCall : turn.effect = .callVirtual
  · rcases turn.calls isCall with ⟨operand, node, _, only, _, form⟩
    rw [only, List.filter_singleton]
    cases held : turn.before.constraint with
    | some constraint =>
        rw [held] at form
        rw [show node.operation = .callVirtualConstrained from congrArg Prod.fst form]
        rfl
    | none =>
        rw [held] at form
        have operation : node.operation = .callVirtual := congrArg Prod.fst form
        have noToken : node.typeToken? = none :=
          Node.typeToken?_eq_none ((congrArg Operation.typePlace? operation).trans rfl)
        rw [operation]
        change [node].filterMap Node.typeToken? = []
        rw [List.filterMap_cons, noToken, List.filterMap_nil]
  · rw [turn.free_nodes isCall]
    exact holdsNone isCall

/-- The only type that a turn asks for is the one that its instruction names, and a
`constrained.` asks for none. -/
theorem Turn.asked : turn.discoveries.filterMap Discovery.type? =
    ([turn.sighting].filter (fun sighting => !sighting.opcode.isConstraint)).filterMap
      (Sighting.named? lowering.linkage.program) := by
  rw [filterMap_filter_single, turn.isConstraint_eq]
  by_cases names : turn.sighting.opcode.typeUse = .nothing
  · rw [(turn.uses_nothing names).1, Sighting.named?_of_nothing names, names]
    rfl
  · rcases turn.uses names with ⟨operand, operands, uses⟩
    rw [uses.asked, Sighting.named?_of_operands operands]
    cases turn.sighting.opcode.typeUse <;> rfl

/-- The only type token in the node of a turn is the operand or the handle that its
instruction has, unless this is a constrained call. -/
theorem Turn.stored :
    (turn.nodes.filter (fun node => node.operation != .callVirtualConstrained)).filterMap
        Node.typeToken? =
      ([turn.sighting].filter (fun sighting => sighting.opcode.typeUse.isStored)).filterMap
        (Sighting.named? lowering.linkage.program) := by
  rw [filterMap_filter_single]
  by_cases names : turn.sighting.opcode.typeUse = .nothing
  · rw [(turn.uses_nothing names).2, names]
    rfl
  · rcases turn.uses names with ⟨operand, operands, uses⟩
    have notVirtual : turn.effect ≠ .callVirtual := by
      intro isCall
      rw [turn.typeUse.1, isCall] at names
      exact names rfl
    rw [turn.free_nodes notVirtual, uses.stored, Sighting.named?_of_operands operands]

/-- A type token in the node of a turn has been asked for, unless this is a constrained
call. -/
theorem Turn.discovered {node : Node} {token : Token} (member : node ∈ turn.nodes)
    (free : node.operation ≠ .callVirtualConstrained) (holds : node.typeToken? = some token) :
    .type token ∈ turn.discoveries := by
  have held : token ∈
      (turn.nodes.filter (fun node => node.operation != .callVirtualConstrained)).filterMap
        Node.typeToken? :=
    List.mem_filterMap.mpr ⟨node, List.mem_filter.mpr ⟨member, bne_iff_ne.mpr free⟩, holds⟩
  have asked := turn.asked
  rw [turn.stored, filterMap_filter_single] at held
  rw [filterMap_filter_single, turn.isConstraint_eq] at asked
  apply Discovery.mem_filterMap_type?.mp
  rw [asked]
  cases use : turn.sighting.opcode.typeUse with
  | operand | handle =>
      rw [use] at held
      exact held
  | field | constraint | nothing =>
      rw [use] at held
      cases held

end Turns

/-! ## Whole bodies -/

/-- What is chosen from the instructions of turns is collected turn by turn. -/
theorem filterMap_filter_map {lowering : Lowering} (turns : List (Turn lowering))
    (keeps : Sighting -> Bool) (chosen : Sighting -> Option Token) :
    ((turns.map Turn.sighting).filter keeps).filterMap chosen =
      turns.flatMap (fun turn => ([turn.sighting].filter keeps).filterMap chosen) := by
  induction turns with
  | nil => rfl
  | cons turn turns inductionHypothesis =>
      rw [List.map_cons, ← List.singleton_append, List.filter_append, List.filterMap_append,
        inductionHypothesis, List.flatMap_cons]

/-- An instruction of a code names a type, and it is no `constrained.`. -/
def AsksFor (program : Program) (code : List UInt8) (token : Token) : Prop :=
  exists sighting, sighting ∈ (Cursor.start code).walk.1 ∧
    sighting.opcode.isConstraint = false ∧ sighting.named? program = some token

theorem mem_named_iff {program : Program} {code : List UInt8} {token : Token} :
    token ∈ ((Cursor.start code).walk.1.filter
      (fun sighting => !sighting.opcode.isConstraint)).filterMap (Sighting.named? program) ↔
      AsksFor program code token := by
  constructor
  · intro member
    rcases List.mem_filterMap.mp member with ⟨sighting, kept, named⟩
    rcases List.mem_filter.mp kept with ⟨among, free⟩
    exact ⟨sighting, among, by simpa using free, named⟩
  · rintro ⟨sighting, among, free, named⟩
    exact List.mem_filterMap.mpr ⟨sighting, List.mem_filter.mpr ⟨among, by simp [free]⟩, named⟩

instance (program : Program) (code : List UInt8) (token : Token) :
    Decidable (AsksFor program code token) :=
  decidable_of_iff _ mem_named_iff

/-- The types that are asked for while a body is lowered, and the type tokens that the
body holds. -/
structure Requested (lowering : Lowering) (code : List UInt8) (body : LoweredBody) : Prop where
  complete : (Cursor.start code).walk.2 = .ok ⟨code.length, []⟩
  types : forall sighting, sighting ∈ (Cursor.start code).walk.1 ->
    sighting.opcode.operand = .type -> sighting.opcode.isConstraint = false ->
    exists operand, sighting.operands = [(4, operand)] ∧
      .type (tokenOf operand) ∈ (lowering.lower code).discoveries
  fields : forall sighting, sighting ∈ (Cursor.start code).walk.1 ->
    sighting.opcode.operand = .field -> exists operand field, sighting.operands = [(4, operand)] ∧
      lowering.linkage.program.field (tokenOf operand) = .ok field ∧
      .type field.declaring ∈ (lowering.lower code).discoveries
  handles : forall sighting, sighting ∈ (Cursor.start code).walk.1 ->
    sighting.opcode.mnemonic = "ldtoken" -> exists operand, sighting.operands = [(4, operand)] ∧
      ((tokenOf operand).kind? = some .typeDef ->
        .type (tokenOf operand) ∈ (lowering.lower code).discoveries)
  constraints : forall sighting, sighting ∈ (Cursor.start code).walk.1 ->
    sighting.opcode.isConstraint = true -> exists operand, sighting.operands = [(4, operand)] ∧
      (.type (tokenOf operand) ∈ (lowering.lower code).discoveries ↔
        AsksFor lowering.linkage.program code (tokenOf operand))
  /-- All types that are asked for, in order. -/
  asked : (lowering.lower code).discoveries.filterMap Discovery.type? =
    ((Cursor.start code).walk.1.filter (fun sighting => !sighting.opcode.isConstraint)).filterMap
      (Sighting.named? lowering.linkage.program)
  /-- All type tokens in nodes that are no constrained calls, in order. -/
  stored : (body.nodes.filter (fun node => node.operation != .callVirtualConstrained)).filterMap
      Node.typeToken? =
    ((Cursor.start code).walk.1.filter (fun sighting => sighting.opcode.typeUse.isStored)).filterMap
      (Sighting.named? lowering.linkage.program)
  /-- All type tokens in constrained calls, in order. -/
  bound : (body.nodes.filter (fun node => node.operation == .callVirtualConstrained)).filterMap
      Node.typeToken? =
    ((Cursor.start code).walk.1.filter (fun sighting => sighting.opcode.isConstraint)).filterMap
      (Sighting.named? lowering.linkage.program)

section Bodies

variable {lowering : Lowering} {code : List UInt8} {body : LoweredBody} {final : Frame}
  {turns : List (Turn lowering)}

theorem Accounted.asked (accounted : Accounted lowering code body turns final) :
    (lowering.lower code).discoveries.filterMap Discovery.type? =
      ((turns.map Turn.sighting).filter (fun sighting => !sighting.opcode.isConstraint)).filterMap
        (Sighting.named? lowering.linkage.program) := by
  rw [accounted.discoveries, List.filterMap_flatMap, filterMap_filter_map]
  exact List.flatMap_congr (fun turn _ => turn.asked)

theorem Accounted.stored (accounted : Accounted lowering code body turns final) :
    (body.nodes.filter (fun node => node.operation != .callVirtualConstrained)).filterMap
        Node.typeToken? =
      ((turns.map Turn.sighting).filter (fun sighting => sighting.opcode.typeUse.isStored)).filterMap
        (Sighting.named? lowering.linkage.program) := by
  rw [accounted.nodes, List.filter_flatMap, List.filterMap_flatMap, filterMap_filter_map]
  exact List.flatMap_congr (fun turn _ => turn.stored)

theorem Accounted.bound (accounted : Accounted lowering code body turns final) :
    (body.nodes.filter (fun node => node.operation == .callVirtualConstrained)).filterMap
        Node.typeToken? =
      ((turns.map Turn.sighting).filter (fun sighting => sighting.opcode.isConstraint)).filterMap
        (Sighting.named? lowering.linkage.program) := by
  have held : Held Frame.start (none : Option (Turn lowering)) := rfl
  have binds := accounted.history.binds accounted.settled held []
  rw [← accounted.nodes] at binds
  refine (filterMap_eq_of_forall₂ binds ?_).symm
  rintro constraint isConstraint node isCall
    ⟨_, call, _, operand, type, _, _, _, typeIs, _, constants⟩
  rcases List.mem_filter.mp isConstraint with ⟨among, isConstraint⟩
  rcases List.mem_map.mp among with ⟨turn, _, same⟩
  rw [← same, turn.isConstraint_eq] at isConstraint
  rw [← same] at typeIs ⊢
  have operation := eq_of_beq (List.mem_filter.mp isCall).2
  have holds : node.typeToken? = some (tokenOf type) := by
    rw [Node.typeToken?, operation, constants]
    rfl
  rw [Sighting.named?_of_operands typeIs, eq_of_beq isConstraint, holds]
  rfl

/-- A type token in a node has been asked for, unless this is a constrained call. -/
theorem Accounted.discovered (accounted : Accounted lowering code body turns final) {node : Node}
    {token : Token} (member : node ∈ body.nodes) (free : node.operation ≠ .callVirtualConstrained)
    (holds : node.typeToken? = some token) : .type token ∈ (lowering.lower code).discoveries := by
  rw [accounted.nodes] at member
  rcases List.mem_flatMap.mp member with ⟨turn, among, ofTurn⟩
  rw [accounted.discoveries]
  exact List.mem_flatMap.mpr ⟨turn, among, turn.discovered ofTurn free holds⟩

/-- A type is asked for exactly if an instruction other than a `constrained.` names it. -/
theorem Accounted.asked_iff (accounted : Accounted lowering code body turns final) {token : Token} :
    .type token ∈ (lowering.lower code).discoveries ↔
      AsksFor lowering.linkage.program code token := by
  rw [← Discovery.mem_filterMap_type?, ← mem_named_iff, accounted.asked, accounted.walk]

/-- An instruction that names a type, in the code of a lowered body. -/
theorem Accounted.uses (accounted : Accounted lowering code body turns final)
    {sighting : Sighting} (member : sighting ∈ (Cursor.start code).walk.1) {use : TypeUse}
    (isUse : sighting.opcode.typeUse = use) (names : use ≠ .nothing) :
    exists operand discoveries tokens, sighting.operands = [(4, operand)] ∧
      Uses lowering.linkage.program operand use discoveries tokens ∧
      discoveries ⊆ (lowering.lower code).discoveries := by
  rcases accounted.exists_turn member with ⟨turn, among, same⟩
  rw [← same] at isUse ⊢
  rcases turn.uses (isUse ▸ names) with ⟨operand, operands, uses⟩
  rw [isUse] at uses
  refine ⟨operand, turn.discoveries, _, operands, uses, ?_⟩
  rw [accounted.discoveries]
  exact fun discovery asked => List.mem_flatMap.mpr ⟨turn, among, asked⟩

end Bodies

/-- Lowering asks for the types that the instructions name, except for those of a
`constrained.`. -/
theorem requested_of_lower {lowering : Lowering} {code : List UInt8} {body : LoweredBody}
    (lowered : (lowering.lower code).result = .ok body) : Requested lowering code body := by
  rcases accounted_of_lower lowered with ⟨turns, final, accounted⟩
  refine ⟨congrArg Prod.snd accounted.walk, ?_, ?_, ?_, ?_, ?_, ?_, ?_⟩
  · intro sighting member isType free
    have isUse : sighting.opcode.typeUse = .operand := by
      rw [Opcode.typeUse, isType, free]
      rfl
    rcases accounted.uses member isUse nofun with ⟨operand, _, _, operands, uses, included⟩
    cases uses
    exact ⟨operand, operands, included List.mem_cons_self⟩
  · intro sighting member isField
    have isUse : sighting.opcode.typeUse = .field := by
      rw [Opcode.typeUse, isField]
    rcases accounted.uses member isUse nofun with ⟨operand, _, _, operands, uses, included⟩
    cases uses with
    | field found => exact ⟨operand, _, operands, found, included List.mem_cons_self⟩
  · intro sighting member isHandle
    have isUse : sighting.opcode.typeUse = .handle := by
      rcases accounted.exists_turn member with ⟨turn, _, same⟩
      rw [← same] at isHandle ⊢
      rw [Opcode.typeUse, turn.typeUse.2.2 isHandle]
    rcases accounted.uses member isUse nofun with ⟨operand, _, _, operands, uses, included⟩
    cases uses
    refine ⟨operand, operands, fun isType => included ?_⟩
    rw [handleOf?, if_pos isType]
    exact List.mem_cons_self
  · intro sighting member isConstraint
    have isUse : sighting.opcode.typeUse = .constraint := by
      rcases accounted.exists_turn member with ⟨turn, _, same⟩
      rw [← same, turn.isConstraint_eq] at isConstraint
      rw [← same]
      exact eq_of_beq isConstraint
    rcases accounted.uses member isUse nofun with ⟨operand, _, _, operands, _, _⟩
    exact ⟨operand, operands, accounted.asked_iff⟩
  · rw [accounted.walk]
    exact accounted.asked
  · rw [accounted.walk]
    exact accounted.stored
  · rw [accounted.walk]
    exact accounted.bound

end Lowering
end CilGraph
