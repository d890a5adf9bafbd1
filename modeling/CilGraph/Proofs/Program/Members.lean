import CilGraph.Program.Draft

namespace CilGraph

/-!
# Members of a draft

A draft keeps fields, methods and constructors in lists of their own, and every
type lists the tokens of its members beside that.  The two agree in one
direction: what a type lists was added to the draft with that type as its
declaring type, because the step that adds a member enters it there and nowhere
else.  A member whose declaring type is not there yet is in the draft and in no
type.

The three kinds of members are added in the same way, so this is proved once for
all of them.
-/

/-- A kind of members of a type. -/
inductive MemberKind where
  | field
  | method
  | constructor
deriving DecidableEq, Repr

/-- The tokens of the members of one kind that a type lists. -/
def TypeDef.listed (type : TypeDef) : MemberKind -> List Token
  | .field => type.fields
  | .method => type.methods
  | .constructor => type.constructors

namespace Draft

/-- The members of one kind in a draft: their tokens and their declaring types. -/
def members (draft : Draft) : MemberKind -> List (Token × Token)
  | .field => draft.fields.map (fun field => (field.token, field.declaring))
  | .method => draft.methods.map (fun method => (method.token, method.declaring))
  | .constructor => draft.constructors.map
      (fun constructor => (constructor.token, constructor.declaring))

/-- The members that a type of a draft lists have been added to the draft, and the
type declares them. -/
def ListsMembers (draft : Draft) (kind : MemberKind) : Prop :=
  forall type, type ∈ draft.types -> forall token, token ∈ type.listed kind ->
    (token, type.token) ∈ draft.members kind

theorem mem_modifyFirst {token : Token} {change : TypeDef -> TypeDef} {types : List TypeDef}
    {type : TypeDef} (member : type ∈ modifyFirst token change types) :
    type ∈ types ∨ exists earlier, earlier ∈ types ∧ earlier.token = token ∧
      type = change earlier := by
  induction types with
  | nil => cases member
  | cons first rest inductionHypothesis =>
      unfold modifyFirst at member
      split at member
      · rename_i found
        rcases List.mem_cons.mp member with changed | later
        · exact Or.inr ⟨first, List.mem_cons_self, found, changed⟩
        · exact Or.inl (List.mem_cons_of_mem first later)
      · rcases List.mem_cons.mp member with same | later
        · exact Or.inl (List.mem_cons.mpr (Or.inl same))
        · rcases inductionHypothesis later with unchanged | ⟨earlier, among, found, changed⟩
          · exact Or.inl (List.mem_cons_of_mem first unchanged)
          · exact Or.inr ⟨earlier, List.mem_cons_of_mem first among, found, changed⟩

section Steps

variable {draft larger : Draft} {kind : MemberKind}

/-- More members in a draft do no harm. -/
theorem ListsMembers.mono (lists : draft.ListsMembers kind) (types : larger.types = draft.types)
    (members : draft.members kind ⊆ larger.members kind) : larger.ListsMembers kind := by
  intro type member token listed
  rw [types] at member
  exact members (lists type member token listed)

theorem ListsMembers.claimToken (lists : draft.ListsMembers kind) (table : TokenKind)
    (given : Option Token) : (draft.claimToken table given).2.ListsMembers kind := by
  cases given with
  | none => exact lists
  | some token => exact lists

theorem ListsMembers.addType (lists : draft.ListsMembers kind) (token : Token)
    (space name : String) (attributes : TypeAttributes) (base : Option Token) :
    (draft.addType token space name attributes base).ListsMembers kind := by
  intro type member
  rcases List.mem_append.mp member with earlier | added
  · exact lists type earlier
  · rw [List.mem_singleton.mp added]
    intro other listed
    cases kind <;> cases listed

/-- A change of a type may list more members, as long as these were added before. -/
theorem ListsMembers.modifyType (lists : draft.ListsMembers kind) (token : Token)
    {change : TypeDef -> TypeDef} (sameToken : forall type, (change type).token = type.token)
    (listed : forall type other, other ∈ (change type).listed kind ->
      other ∈ type.listed kind ∨ (other, token) ∈ draft.members kind) :
    (draft.modifyType token change).ListsMembers kind := by
  intro type member
  rcases mem_modifyFirst member with earlier | ⟨earlier, among, isToken, changed⟩
  · exact lists type earlier
  · intro other listedThen
    rw [changed] at listedThen ⊢
    rw [sameToken]
    rcases listed earlier other listedThen with before | added
    · exact lists earlier among other before
    · rw [isToken]
      exact added

/-- A change of a type that leaves its members alone. -/
theorem ListsMembers.modifyRest (lists : draft.ListsMembers kind) (token : Token)
    {change : TypeDef -> TypeDef} (sameToken : forall type, (change type).token = type.token)
    (sameMembers : forall type, (change type).listed kind = type.listed kind) :
    (draft.modifyType token change).ListsMembers kind :=
  lists.modifyType token sameToken (fun type _ listed => Or.inl (sameMembers type ▸ listed))

/-- A member is added to the draft and then entered in its declaring type. -/
theorem ListsMembers.enter (lists : draft.ListsMembers kind) {token declaring : Token}
    {change : TypeDef -> TypeDef} (sameTypes : larger.types = draft.types)
    (added : larger.members kind = draft.members kind ++ [(token, declaring)])
    (sameToken : forall type, (change type).token = type.token)
    (entered : forall type, (change type).listed kind = type.listed kind ++ [token]) :
    (larger.modifyType declaring change).ListsMembers kind := by
  have grown : larger.ListsMembers kind := by
    apply lists.mono sameTypes
    rw [added]
    exact List.subset_append_left _ _
  apply grown.modifyType declaring sameToken
  intro type other listed
  rw [entered] at listed
  rcases List.mem_append.mp listed with before | now
  · exact Or.inl before
  · apply Or.inr
    rw [added, List.mem_singleton.mp now]
    exact List.mem_append_right _ List.mem_cons_self

/-- To the other kinds nothing happens when a member is added. -/
theorem ListsMembers.pass (lists : draft.ListsMembers kind) {declaring : Token}
    {change : TypeDef -> TypeDef} (sameTypes : larger.types = draft.types)
    (same : larger.members kind = draft.members kind)
    (sameToken : forall type, (change type).token = type.token)
    (sameMembers : forall type, (change type).listed kind = type.listed kind) :
    (larger.modifyType declaring change).ListsMembers kind := by
  have grown : larger.ListsMembers kind := by
    apply lists.mono sameTypes
    rw [same]
    exact List.Subset.refl _
  exact grown.modifyRest declaring sameToken sameMembers

theorem ListsMembers.step (lists : draft.ListsMembers kind) (action : DraftStep) :
    (draft.step action).2.ListsMembers kind := by
  cases action with
  | type given space name attributes base =>
      exact (lists.claimToken .typeDef given).addType _ space name attributes base
  | arrayType given element base =>
      refine ((lists.claimToken .typeDef given).addType _ _ _ _ base).modifyRest _
        (fun _ => rfl) ?_
      intro type
      cases kind <;> rfl
  | elementType array element =>
      refine lists.modifyRest array (fun _ => rfl) ?_
      intro type
      cases kind <;> rfl
  | interface type interface =>
      refine lists.modifyRest type (fun _ => rfl) ?_
      intro changed
      cases kind <;> rfl
  | field given declaring name fieldType isStatic =>
      have claimed := lists.claimToken .field given
      cases kind with
      | field => exact claimed.enter rfl (List.map_append ..) (fun _ => rfl) (fun _ => rfl)
      | method => exact claimed.pass rfl rfl (fun _ => rfl) (fun _ => rfl)
      | constructor => exact claimed.pass rfl rfl (fun _ => rfl) (fun _ => rfl)
  | method given declaring name attributes returns params body =>
      have claimed := lists.claimToken .methodDef given
      cases kind with
      | field => exact claimed.pass rfl rfl (fun _ => rfl) (fun _ => rfl)
      | method => exact claimed.enter rfl (List.map_append ..) (fun _ => rfl) (fun _ => rfl)
      | constructor => exact claimed.pass rfl rfl (fun _ => rfl) (fun _ => rfl)
  | constructor given declaring isStatic params body =>
      have claimed := lists.claimToken .methodDef given
      cases kind with
      | field => exact claimed.pass rfl rfl (fun _ => rfl) (fun _ => rfl)
      | method => exact claimed.pass rfl rfl (fun _ => rfl) (fun _ => rfl)
      | constructor => exact claimed.enter rfl (List.map_append ..) (fun _ => rfl) (fun _ => rfl)
  | string given text => exact lists.claimToken .userString given

theorem ListsMembers.trace (lists : draft.ListsMembers kind) (steps : List DraftStep) :
    (draft.trace steps).2.ListsMembers kind := by
  induction steps generalizing draft with
  | nil => exact lists
  | cons first rest inductionHypothesis => exact inductionHypothesis (lists.step first)

end Steps

theorem listsMembers_ofSteps (steps : List DraftStep) (kind : MemberKind) :
    (ofSteps steps).ListsMembers kind := by
  have empty : ListsMembers {} kind := fun _ member => absurd member List.not_mem_nil
  exact empty.trace steps

end Draft
end CilGraph
