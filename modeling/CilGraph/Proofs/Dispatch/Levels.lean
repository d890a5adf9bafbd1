import CilGraph.Proofs.Dispatch.Slots

namespace CilGraph
namespace Dispatch

/-!
# Levels of a table

Along its chain of base tables a table has one level for each type of a lineage.
An override changes at most one slot of each level, and it changes no level
beyond the one of the type that declared the root.

`LevelsMatch` compares the levels of a table with the tables that the types of a
lineage have on their own.  What it asks of a slot may depend on the types that
were passed on the way, since these are the ones that may have overridden it.
That an override keeps such a comparison comes down to two questions about one
slot: what holds if the overriding method fits, and what holds if it does not.
-/

/-- One type of a table with its slots. -/
structure Level where
  type : Token
  /-- The type that is used in place of `type`. -/
  resolved : Token
  members : List MethodDef
deriving DecidableEq, Repr

namespace Table

mutual

/-- The levels of a table, from its root through the chain of base tables. -/
def levels : Table -> List Level
  | ⟨type, resolved, _, members, base, _, _, _, _, _⟩ =>
    ⟨type, resolved, members⟩ :: levelsOfBase base

/-- The levels of a base table. -/
def levelsOfBase : Option Table -> List Level
  | none => []
  | some base => levels base

end

theorem levels_eq (table : Table) :
    table.levels = ⟨table.type, table.resolved, table.members⟩ :: levelsOfBase table.base := by
  cases table
  rw [levels]

end Table

/-- Slots are replaced in one level after another, up to the one of the root. -/
inductive LevelsReplaced (linkage : Linkage) (method : MethodDef) (root : Token) :
    List Level -> List Level -> Prop
  | none : LevelsReplaced linkage method root [] []
  | last {level : Level} {rest : List Level} {members : List MethodDef} {here : Bool}
      (change : Table.SlotReplaced linkage method root level.members members here)
      (reached : root = level.resolved) :
      LevelsReplaced linkage method root (level :: rest) ({ level with members := members } :: rest)
  | step {level : Level} {rest after : List Level} {members : List MethodDef} {here : Bool}
      (change : Table.SlotReplaced linkage method root level.members members here)
      (further : root ≠ level.resolved) (above : LevelsReplaced linkage method root rest after) :
      LevelsReplaced linkage method root (level :: rest)
        ({ level with members := members } :: after)

section Replacement

variable {linkage : Linkage} {method : MethodDef} {root : Token}

theorem levelsReplaced_of_replaceSlots {table after : Table} {replaced : Bool}
    (succeeded : Table.replaceSlots linkage method root table = .ok (after, replaced)) :
    LevelsReplaced linkage method root table.levels after.levels := by
  induction table using Table.baseInduction generalizing after replaced with
  | step table inductionHypothesis =>
      rcases Table.replaceSlots_eq_ok succeeded with
        ⟨members, here, base, below, change, same, _, ofBase⟩
      rw [same, Table.levels_eq, Table.levels_eq]
      rcases ofBase with ⟨reached, sameBase, _⟩ | ⟨further, replacedBase⟩
      · rw [sameBase]
        exact .last change reached
      · refine .step change further ?_
        rcases Table.replaceBase_eq_ok replacedBase with
          ⟨isNone, stays, _⟩ | ⟨inner, changed, isBase, isChanged, ofInner⟩
        · rw [isNone, stays]
          exact .none
        · rw [isBase, isChanged]
          exact inductionHypothesis inner isBase ofInner

/-- Overriding in a layout replaces slots in the levels of its base table. -/
theorem levelsReplaced_of_override {base after : Option Table} {root : Token}
    (ofMethod : Table.rootType linkage method = .ok root)
    (succeeded : base.mapM (Table.override linkage method true) = .ok after) :
    LevelsReplaced linkage method root (Table.levelsOfBase base) (Table.levelsOfBase after) := by
  cases base with
  | none =>
      cases succeeded
      exact .none
  | some table =>
      rcases Result.map_eq_ok.mp succeeded with ⟨changed, overrides, same⟩
      rcases Table.override_eq_ok overrides with ⟨found, ofFound, ofTable⟩
      rw [ofMethod] at ofFound
      rw [← same, Except.ok.inj ofFound]
      exact levelsReplaced_of_replaceSlots ofTable

/-! ## One level -/

variable {related related' : MethodDef -> MethodDef -> Prop} {own members after : List MethodDef}
  {here : Bool}

theorem forall₂_imp_of_mem (matched : List.Forall₂ related own members)
    (each : forall declared slot, declared ∈ own -> slot ∈ members -> related declared slot ->
      related' declared slot) : List.Forall₂ related' own members := by
  induction matched with
  | nil => exact .nil
  | cons first rest inductionHypothesis =>
      refine .cons (each _ _ List.mem_cons_self List.mem_cons_self first) ?_
      apply inductionHypothesis
      intro declared slot among member
      exact each declared slot (List.mem_cons_of_mem _ among) (List.mem_cons_of_mem _ member)

/-- Signatures differ within a level, so the slot that is replaced is the only
one that the method fits. -/
theorem forall₂_of_slotReplaced (distinct : Program.Distinct own)
    (signature : forall declared slot, related declared slot -> slot.sameSignature declared = true)
    (keep : forall declared slot, declared ∈ own -> related declared slot ->
      ¬ Table.Fits linkage method root slot -> related' declared slot)
    (hit : forall declared slot, declared ∈ own -> related declared slot ->
      Table.Fits linkage method root slot -> related' declared method)
    (matched : List.Forall₂ related own members)
    (change : Table.SlotReplaced linkage method root members after here) :
    List.Forall₂ related' own after := by
  cases change with
  | unchanged none =>
      exact forall₂_imp_of_mem matched (fun declared slot among member given =>
        keep declared slot among given (none slot member))
  | @replaced front back slot first fits =>
      induction front generalizing own with
      | nil =>
          cases matched with
          | @cons declared _ others _ atSlot atBack =>
              refine .cons (hit declared slot List.mem_cons_self atSlot fits) ?_
              refine forall₂_imp_of_mem atBack ?_
              intro other later among member atLater
              refine keep other later (List.mem_cons_of_mem _ among) atLater ?_
              intro laterFits
              have toMethod := MethodDef.sameSignature_trans
                (MethodDef.sameSignature_symm (signature declared slot atSlot)) fits.2
              have fromMethod := MethodDef.sameSignature_trans
                (MethodDef.sameSignature_symm laterFits.2) (signature other later atLater)
              exact (List.pairwise_cons.mp distinct).1 other among
                (MethodDef.sameSignature_trans toMethod fromMethod)
      | cons earlier front inductionHypothesis =>
          cases matched with
          | @cons declared _ others _ atEarlier atRest =>
              refine .cons (keep declared earlier List.mem_cons_self atEarlier
                (first earlier List.mem_cons_self)) ?_
              exact inductionHypothesis (List.pairwise_cons.mp distinct).2
                (fun other found member => keep other found (List.mem_cons_of_mem _ member))
                (fun other found member => hit other found (List.mem_cons_of_mem _ member))
                (fun other member => first other (List.mem_cons_of_mem _ member)) atRest

end Replacement

/-! ## All levels -/

/-- Each level belongs to a type of a lineage, and its slots are related to those
that the type has in a registry.  `below` are the types that were passed. -/
inductive LevelsMatch (registry : Registry)
    (related : List TypeDef -> MethodDef -> MethodDef -> Prop) :
    List TypeDef -> List TypeDef -> List Level -> Prop
  | nil {below : List TypeDef} : LevelsMatch registry related below [] []
  | cons {below rest : List TypeDef} {type : TypeDef} {level : Level} {levels : List Level}
      {layout : Layout} (isType : level.type = type.token)
      (isResolved : level.resolved = type.token)
      (found : registry.layout? type.token = some layout)
      (slots : List.Forall₂ (related below) layout.table.members level.members)
      (above : LevelsMatch registry related (below ++ [type]) rest levels) :
      LevelsMatch registry related below (type :: rest) (level :: levels)

/-- A method is a slot of the type that comes after `passed` in a lineage. -/
def SlotAt (registry : Registry) (chain passed : List TypeDef) (declared : MethodDef) : Prop :=
  exists type ahead layout, chain = passed ++ type :: ahead ∧
    registry.layout? type.token = some layout ∧ declared ∈ layout.table.members

section Matching

variable {registry : Registry} {related related' : List TypeDef -> MethodDef -> MethodDef -> Prop}
  {chain below rest : List TypeDef} {levels after : List Level}

theorem LevelsMatch.imp (levelsMatch : LevelsMatch registry related below rest levels)
    (whole : chain = below ++ rest)
    (each : forall passed declared slot, SlotAt registry chain passed declared ->
      (forall earlier, earlier ∈ below -> earlier ∈ passed) -> related passed declared slot ->
        related' passed declared slot) :
    LevelsMatch registry related' below rest levels := by
  induction levelsMatch with
  | nil => exact .nil
  | @cons below rest type level levels layout isType isResolved found slots above
      inductionHypothesis =>
      refine .cons isType isResolved found ?_ ?_
      · refine forall₂_imp_of_mem slots ?_
        intro declared slot among _ given
        exact each below declared slot ⟨type, rest, layout, whole, found, among⟩
          (fun _ member => member) given
      · refine inductionHypothesis ?_ ?_
        · rw [whole, List.append_assoc, List.singleton_append]
        · intro passed declared slot place included given
          exact each passed declared slot place
            (fun earlier member => included earlier (List.mem_append_left _ member)) given

/-- An override keeps the levels matched.  A slot keeps its method if the
overriding one does not fit, or if the type of the root has been passed. -/
theorem LevelsMatch.replaced {linkage : Linkage} {method : MethodDef} {root : Token}
    (levelsMatch : LevelsMatch registry related below rest levels)
    (change : LevelsReplaced linkage method root levels after) (whole : chain = below ++ rest)
    (distinct : forall type layout, type ∈ chain -> registry.layout? type.token = some layout ->
      Program.Distinct layout.table.members)
    (signature : forall passed declared slot, related passed declared slot ->
      slot.sameSignature declared = true)
    (keep : forall passed declared slot, SlotAt registry chain passed declared ->
      related passed declared slot ->
      (¬ Table.Fits linkage method root slot ∨ root ∈ passed.map TypeDef.token) ->
        related' passed declared slot)
    (hit : forall passed declared slot, SlotAt registry chain passed declared ->
      related passed declared slot -> Table.Fits linkage method root slot ->
        related' passed declared method) :
    LevelsMatch registry related' below rest after := by
  induction levelsMatch generalizing after with
  | nil =>
      cases change
      exact .nil
  | @cons below rest type level levels layout isType isResolved found slots above
      inductionHypothesis =>
      have wholeAbove : chain = (below ++ [type]) ++ rest := by
        rw [whole, List.append_assoc, List.singleton_append]
      have typeMember : type ∈ chain := by
        rw [whole]
        exact List.mem_append_right _ List.mem_cons_self
      have here : forall {members : List MethodDef} {flag : Bool},
          Table.SlotReplaced linkage method root level.members members flag ->
          List.Forall₂ (related' below) layout.table.members members := by
        intro members flag replaced
        refine forall₂_of_slotReplaced (distinct type layout typeMember found) (signature below)
          ?_ ?_ slots replaced
        · intro declared slot among given fails
          exact keep below declared slot ⟨type, rest, layout, whole, found, among⟩ given
            (Or.inl fails)
        · intro declared slot among given fits
          exact hit below declared slot ⟨type, rest, layout, whole, found, among⟩ given fits
      cases change with
      | last replaced reached =>
          refine .cons isType isResolved found (here replaced) (above.imp wholeAbove ?_)
          intro passed declared slot place included given
          refine keep passed declared slot place given (Or.inr ?_)
          rw [reached, isResolved]
          exact List.mem_map.mpr ⟨type, included type (List.mem_append_right _ List.mem_cons_self),
            rfl⟩
      | step replaced further aboveChange =>
          exact .cons isType isResolved found (here replaced)
            (inductionHypothesis aboveChange wholeAbove)

/-- A comparison may be read from one type further down. -/
theorem LevelsMatch.under {type : TypeDef}
    (levelsMatch : LevelsMatch registry (fun passed => related (type :: passed)) below rest
      levels) :
    LevelsMatch registry related (type :: below) rest levels := by
  induction levelsMatch with
  | nil => exact .nil
  | cons isType isResolved found slots above inductionHypothesis =>
      exact .cons isType isResolved found slots inductionHypothesis

end Matching
end Dispatch
end CilGraph
