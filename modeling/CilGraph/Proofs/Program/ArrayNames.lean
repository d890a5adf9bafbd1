import CilGraph.Proofs.Program.Attachment
import CilGraph.Proofs.Program.Literals

namespace CilGraph

/-!
# Names of array types

An array type needs no name of its own: it can take the namespace of its element type
and the name with brackets after it.  This rule is applied in two places.  A draft
applies it when a step adds an array type, and looks for the element among all types
that it has so far.  A description applies it before there is a draft, from names that
are collected in two passes: first those of the types that are no arrays, then those of
the arrays.

The second pass looks for the element among the names of the first pass only.  So the
two places agree on arrays of types that are no arrays, and a description with an array
of an array is refused, while the draft names arrays at any depth.
-/

namespace ProgramDescription

open Markup

/-! ## Declared types -/

/-- How a type is declared: it is no array, an array with a name of its own, or an array
that is named after its element type. -/
inductive DeclaredKind where
  | plain
  | namedArray (item : Token)
  | array (item : Token)
deriving DecidableEq, Repr

/-- A type with the namespace and name that it is to have. -/
structure DeclaredType where
  token : Token
  space : String
  name : String
  kind : DeclaredKind
deriving DecidableEq, Repr

namespace DeclaredType

def fullName (type : DeclaredType) : String :=
  qualify type.space type.name

def label (type : DeclaredType) : Token × (String × String) :=
  (type.token, (type.space, type.name))

/-- The element type of an array type. -/
def item? (type : DeclaredType) : Option Token :=
  match type.kind with
  | .plain => none
  | .namedArray item => some item
  | .array item => some item

def isArray (type : DeclaredType) : Bool :=
  type.item?.isSome

/-- Whether a type is named after its element type. -/
def isDerived (type : DeclaredType) : Bool :=
  match type.kind with
  | .array _ => true
  | _ => false

/-- The array of a type, named after it. -/
def arrayOf (inner : DeclaredType) (token : Token) : DeclaredType :=
  ⟨token, inner.space, inner.name ++ "[]", .array inner.token⟩

/-- The element type of an array that is named after it, if that is an array too. -/
def nestedItem? (all : List DeclaredType) (type : DeclaredType) : Option Token :=
  match type.kind with
  | .array item =>
    if all.any (fun inner => inner.isArray && inner.token == item) then some item else none
  | _ => none

end DeclaredType

/-- The element type of the first array of an array. -/
def firstNested? (types : List DeclaredType) : Option Token :=
  types.findSome? (DeclaredType.nestedItem? types)

/-- A reference means a type: by the token of the type or by its full name. -/
inductive Means (types : List DeclaredType) (reference : String) (type : DeclaredType) : Prop
  | byToken (among : type ∈ types) (written : looksLikeToken reference = true)
      (isToken : Token.parse? reference = some type.token)
  | byName (among : type ∈ types) (written : looksLikeToken reference = false)
      (isName : type.fullName = reference)

/-- An element declares a type.  An array that is named after its element type refers to
a type that is declared earlier.  Other arrays may refer to types that are declared
later, but not by the name of an array. -/
inductive Declares (all earlier : List DeclaredType) (element : Element) : DeclaredType -> Prop
  | plain {token : Token} {name : String} (hasToken : tokenOf element = .ok token)
      (named : element.attribute? "name" = some name)
      (noArray : element.attribute? "element" = none) :
      Declares all earlier element ⟨token, spaceOf element, name, .plain⟩
  | namedArray {token : Token} {name reference : String} {inner : DeclaredType}
      (hasToken : tokenOf element = .ok token) (named : element.attribute? "name" = some name)
      (refers : element.attribute? "element" = some reference) (means : Means all reference inner)
      (inTime : looksLikeToken reference = false -> inner.isArray = true -> inner ∈ earlier) :
      Declares all earlier element ⟨token, spaceOf element, name, .namedArray inner.token⟩
  | array {token : Token} {reference : String} {inner : DeclaredType}
      (hasToken : tokenOf element = .ok token) (unnamed : element.attribute? "name" = none)
      (refers : element.attribute? "element" = some reference)
      (means : Means earlier reference inner) :
      Declares all earlier element (inner.arrayOf token)

/-- Elements declare types, one after the other. -/
inductive DeclaresAll (all : List DeclaredType) :
    List DeclaredType -> List Element -> List DeclaredType -> Prop
  | nil {earlier : List DeclaredType} : DeclaresAll all earlier [] []
  | cons {earlier types : List DeclaredType} {element : Element} {elements : List Element}
      {type : DeclaredType} (first : Declares all earlier element type)
      (rest : DeclaresAll all (earlier ++ [type]) elements types) :
      DeclaresAll all earlier (element :: elements) (type :: types)

/-- Elements declare types with different tokens and different full names. -/
structure Describes (elements : List Element) (types : List DeclaredType) : Prop where
  declares : DeclaresAll types [] elements types
  tokens : (types.map DeclaredType.token).Nodup
  names : (types.map DeclaredType.fullName).Nodup

section Declarations

variable {all earlier types : List DeclaredType} {element : Element} {elements : List Element}
  {type inner : DeclaredType} {reference : String}

theorem Means.among (means : Means types reference type) : type ∈ types := by
  cases means with
  | byToken among => exact among
  | byName among => exact among

theorem Declares.hasToken (declares : Declares all earlier element type) :
    tokenOf element = .ok type.token := by
  cases declares with
  | plain hasToken => exact hasToken
  | namedArray hasToken => exact hasToken
  | array hasToken => exact hasToken

theorem Means.mono (means : Means earlier reference type) (subset : earlier ⊆ types) :
    Means types reference type := by
  cases means with
  | byToken among written isToken => exact .byToken (subset among) written isToken
  | byName among written isName => exact .byName (subset among) written isName

/-- Only an array that is named after its element type has to follow another type. -/
theorem Declares.exists_inner (declares : Declares all earlier element type) {item : Token}
    (isDerived : type.kind = .array item) : exists inner, inner ∈ earlier ∧
      inner.token = item ∧ type.space = inner.space ∧ type.name = inner.name ++ "[]" := by
  cases declares with
  | plain => cases isDerived
  | namedArray => cases isDerived
  | array hasToken unnamed refers means =>
      cases isDerived
      exact ⟨_, means.among, rfl, rfl, rfl⟩

theorem DeclaresAll.split {front back : List DeclaredType}
    (declares : DeclaresAll all earlier elements (front ++ type :: back)) :
    exists before element after, elements = before ++ element :: after ∧
      DeclaresAll all earlier before front ∧ Declares all (earlier ++ front) element type := by
  induction front generalizing earlier elements with
  | nil =>
      cases declares with
      | cons first rest => exact ⟨[], _, _, rfl, .nil, (List.append_nil earlier).symm ▸ first⟩
  | cons other front inductionHypothesis =>
      cases declares with
      | @cons _ _ declared _ _ first rest =>
          obtain ⟨before, element, after, parts, ofFront, ofType⟩ := inductionHypothesis rest
          rw [List.append_assoc] at ofType
          exact ⟨declared :: before, element, after, congrArg _ parts, .cons first ofFront, ofType⟩

end Declarations

/-! ## Collected names -/

/-- The names that are known after some types. -/
def Names.ofDeclared (plain arrays : List DeclaredType) : Names where
  byName := ((plain ++ arrays).map (fun type => (type.fullName, type.token))).reverse
  plain := (plain.map DeclaredType.label).reverse
  arrays := (arrays.map DeclaredType.label).reverse

/-- Collect the name of an element in the first pass. -/
def Names.takePlain (names : Names) (element : Element) : Result Names :=
  match element.attribute? "element" with
  | none => names.addPlain element
  | some _ => .ok names

/-- Collect the name of an element in the second pass. -/
def Names.takeArray (names : Names) (element : Element) : Result Names :=
  match element.attribute? "element" with
  | none => .ok names
  | some item => names.addArray element item

theorem Names.collect_eq (types : List Element) :
    Names.collect types =
      (types.foldlM Names.takePlain {} >>= fun names => types.foldlM Names.takeArray names) :=
  rfl

/-- The types that are no arrays. -/
def plainTypes (types : List DeclaredType) : List DeclaredType :=
  types.filter (fun type => !type.isArray)

def arrayTypes (types : List DeclaredType) : List DeclaredType :=
  types.filter DeclaredType.isArray

section Collection

variable {all earlier types arrays : List DeclaredType} {element : Element}
  {elements : List Element} {type inner : DeclaredType} {reference : String}

theorem mem_plainTypes : type ∈ plainTypes types ↔ type ∈ types ∧ type.isArray = false := by
  simp [plainTypes]

theorem mem_arrayTypes : type ∈ arrayTypes types ↔ type ∈ types ∧ type.isArray = true := by
  simp [arrayTypes]

/-- The first pass enters a type that is no array, and passes over an array. -/
theorem Names.takePlain_of_declares (declares : Declares all earlier element type) :
    (Names.ofDeclared (plainTypes earlier) []).takePlain element =
      .ok (Names.ofDeclared (plainTypes (earlier ++ [type])) []) := by
  have entered (noArray : type.isArray = false) :
      plainTypes (earlier ++ [type]) = plainTypes earlier ++ [type] := by
    simp [plainTypes, noArray]
  have passed (isArray : type.isArray = true) :
      plainTypes (earlier ++ [type]) = plainTypes earlier := by
    simp [plainTypes, isArray]
  unfold Names.takePlain
  cases declares with
  | @plain token name hasToken named noArray =>
      rw [noArray, entered rfl]
      refine Result.bind_eq_ok.mpr ⟨token, hasToken, ?_⟩
      refine Result.bind_eq_ok.mpr ⟨name, Element.required_eq_ok.mpr named, ?_⟩
      simp [Names.ofDeclared, DeclaredType.label, DeclaredType.fullName]
  | namedArray hasToken named refers => rw [refers, passed rfl]
  | array hasToken unnamed refers => rw [refers, passed rfl]

/-- After the first pass all types that are no arrays are known. -/
theorem Names.foldlM_takePlain (declares : DeclaresAll all earlier elements types) :
    elements.foldlM Names.takePlain (Names.ofDeclared (plainTypes earlier) []) =
      .ok (Names.ofDeclared (plainTypes (earlier ++ types)) []) := by
  induction declares with
  | nil => rw [List.append_nil]; rfl
  | @cons earlier types element elements type first rest inductionHypothesis =>
      rw [List.foldlM_cons, Names.takePlain_of_declares first]
      rw [List.append_assoc, List.singleton_append] at inductionHypothesis
      exact inductionHypothesis

/-- A reference to a type whose name is known, or by a token, is resolved. -/
theorem Names.resolve_of_means (names : (all.map DeclaredType.fullName).Nodup)
    (subset : arrays ⊆ all) (means : Means all reference inner)
    (known : looksLikeToken reference = false -> inner.isArray = true -> inner ∈ arrays) :
    (Names.ofDeclared (plainTypes all) arrays).resolve reference = .ok inner.token := by
  have within : forall type, type ∈ plainTypes all ++ arrays -> type ∈ all := by
    intro type member
    rcases List.mem_append.mp member with isPlain | isArray
    · exact (mem_plainTypes.mp isPlain).1
    · exact subset isArray
  unfold Names.resolve
  cases means with
  | byToken among written isToken =>
      rw [if_pos written, readToken, isToken]
  | byName among written isName =>
      have present : inner ∈ plainTypes all ++ arrays := by
        cases isArray : inner.isArray with
        | false => exact List.mem_append_left _ (mem_plainTypes.mpr ⟨among, isArray⟩)
        | true => exact List.mem_append_right _ (known written isArray)
      have found : (Names.ofDeclared (plainTypes all) arrays).byName.lookup reference =
          some inner.token := by
        apply lookup_of_unique
        · rw [← isName]
          exact List.mem_reverse.mpr (List.mem_map_of_mem present)
        · intro entry member same
          obtain ⟨other, isKnown, isEntry⟩ := List.mem_map.mp (List.mem_reverse.mp member)
          subst isEntry
          rw [List.inj_on_of_nodup_map names (within other isKnown) among (same.trans isName.symm)]
      rw [if_neg (by rw [written]; exact Bool.false_ne_true), found]

/-- The name of a type that is no array is found by its token. -/
theorem Names.lookup_plain (arrays : List DeclaredType)
    (tokens : (all.map DeclaredType.token).Nodup) (among : inner ∈ all) :
    (Names.ofDeclared (plainTypes all) arrays).plain.lookup inner.token =
      if inner.isArray then none else some (inner.space, inner.name) := by
  have sameType : forall entry, entry ∈ (Names.ofDeclared (plainTypes all) arrays).plain ->
      entry.1 = inner.token -> entry = inner.label ∧ inner.isArray = false := by
    intro entry member same
    obtain ⟨other, isPlain, isEntry⟩ := List.mem_map.mp (List.mem_reverse.mp member)
    obtain ⟨isKnown, noArray⟩ := mem_plainTypes.mp isPlain
    subst isEntry
    obtain rfl := List.inj_on_of_nodup_map tokens isKnown among same
    exact ⟨rfl, noArray⟩
  split
  · rename_i isArray
    apply List.lookup_eq_none_iff.mpr
    intro entry member
    apply bne_iff_ne.mpr
    intro same
    rw [(sameType entry member same.symm).2] at isArray
    cases isArray
  · rename_i noArray
    apply lookup_of_unique
    · apply List.mem_reverse.mpr
      exact List.mem_map_of_mem (mem_plainTypes.mpr ⟨among, Bool.eq_false_of_not_eq_true noArray⟩)
    · intro entry member same
      rw [(sameType entry member same).1]
      rfl

/-- Whether an array is the array of an array is decided by its element type. -/
theorem DeclaredType.nestedItem?_eq (tokens : (all.map DeclaredType.token).Nodup)
    (among : inner ∈ all) (isDerived : type.kind = .array inner.token) :
    type.nestedItem? all = if inner.isArray then some inner.token else none := by
  have sameAnswer : all.any (fun other => other.isArray && other.token == inner.token) =
      inner.isArray := by
    apply Bool.eq_iff_iff.mpr
    constructor
    · intro found
      obtain ⟨other, isKnown, both⟩ := List.any_eq_true.mp found
      obtain ⟨isArray, same⟩ := Bool.and_eq_true_iff.mp both
      rw [← List.inj_on_of_nodup_map tokens isKnown among (eq_of_beq same)]
      exact isArray
    · intro isArray
      exact List.any_eq_true.mpr
        ⟨inner, among, Bool.and_eq_true_iff.mpr ⟨isArray, beq_self_eq_true _⟩⟩
  unfold DeclaredType.nestedItem?
  rw [isDerived]
  dsimp only
  rw [sameAnswer]

/-- An array type is entered with the label that was found for it. -/
theorem Names.addArray_eq_ok {plain : List DeclaredType} {item : Token}
    (hasToken : tokenOf element = .ok type.token)
    (resolved : (Names.ofDeclared plain arrays).resolve reference = .ok item)
    (labelled : (Names.ofDeclared plain arrays).arrayLabel element item =
      .ok (type.space, type.name)) :
    (Names.ofDeclared plain arrays).addArray element reference =
      .ok (Names.ofDeclared plain (arrays ++ [type])) := by
  refine Result.bind_eq_ok.mpr ⟨type.token, hasToken, ?_⟩
  refine Result.bind_eq_ok.mpr ⟨item, resolved, ?_⟩
  refine Result.bind_eq_ok.mpr ⟨(type.space, type.name), labelled, ?_⟩
  simp [Names.ofDeclared, DeclaredType.label, DeclaredType.fullName]

/-- The second pass passes over a type that is no array, enters an array, and refuses the
array of an array unless it has a name of its own. -/
theorem Names.takeArray_of_declares (tokens : (all.map DeclaredType.token).Nodup)
    (names : (all.map DeclaredType.fullName).Nodup) (subset : earlier ⊆ all)
    (declares : Declares all earlier element type) :
    (Names.ofDeclared (plainTypes all) (arrayTypes earlier)).takeArray element =
      match type.nestedItem? all with
      | some item => .error (.ofDescription (.unknownElementType item))
      | none => .ok (Names.ofDeclared (plainTypes all) (arrayTypes (earlier ++ [type]))) := by
  have arraysKnown : arrayTypes earlier ⊆ all := fun _ member =>
    subset (mem_arrayTypes.mp member).1
  have entered (isArray : type.isArray = true) :
      arrayTypes (earlier ++ [type]) = arrayTypes earlier ++ [type] := by
    simp [arrayTypes, isArray]
  have hasToken := declares.hasToken
  unfold Names.takeArray
  cases declares with
  | plain _ named noArray =>
      rw [noArray]
      simp [DeclaredType.nestedItem?, arrayTypes, DeclaredType.isArray, DeclaredType.item?]
  | @namedArray token name reference inner _ named refers means inTime =>
      have resolved := Names.resolve_of_means names arraysKnown means
        fun written isArray => mem_arrayTypes.mpr ⟨inTime written isArray, isArray⟩
      rw [refers, entered rfl]
      apply Names.addArray_eq_ok hasToken resolved
      unfold Names.arrayLabel
      rw [named]
  | @array token reference inner _ unnamed refers means =>
      have among : inner ∈ all := subset means.among
      have resolved := Names.resolve_of_means names arraysKnown (means.mono subset)
        fun _ isArray => mem_arrayTypes.mpr ⟨means.among, isArray⟩
      have found := Names.lookup_plain (arrayTypes earlier) tokens among
      rw [refers, entered rfl, DeclaredType.nestedItem?_eq tokens among rfl]
      cases isArray : inner.isArray with
      | true =>
          rw [isArray, if_pos rfl] at found
          refine Result.bind_eq_error.mpr (Or.inr ⟨token, hasToken, ?_⟩)
          refine Result.bind_eq_error.mpr (Or.inr ⟨inner.token, resolved, ?_⟩)
          refine Result.bind_eq_error.mpr (Or.inl ?_)
          unfold Names.arrayLabel
          rw [unnamed, found]
      | false =>
          rw [isArray, if_neg Bool.false_ne_true] at found
          apply Names.addArray_eq_ok hasToken resolved
          unfold Names.arrayLabel
          rw [unnamed, found]
          rfl

/-- The second pass enters all arrays if none of them is the array of an array. -/
theorem Names.foldlM_takeArray (tokens : (all.map DeclaredType.token).Nodup)
    (names : (all.map DeclaredType.fullName).Nodup)
    (declares : DeclaresAll all earlier elements types) (subset : earlier ++ types ⊆ all)
    (flat : forall type, type ∈ types -> type.nestedItem? all = none) :
    elements.foldlM Names.takeArray (Names.ofDeclared (plainTypes all) (arrayTypes earlier)) =
      .ok (Names.ofDeclared (plainTypes all) (arrayTypes (earlier ++ types))) := by
  induction declares with
  | nil => rw [List.append_nil]; rfl
  | @cons earlier types element elements type first rest inductionHypothesis =>
      have known : earlier ⊆ all := fun _ member => subset (List.mem_append_left _ member)
      have taken := Names.takeArray_of_declares tokens names known first
      rw [flat type List.mem_cons_self] at taken
      rw [List.foldlM_cons, taken]
      rw [List.append_assoc, List.singleton_append] at inductionHypothesis
      exact inductionHypothesis subset fun other later => flat other (List.mem_cons_of_mem _ later)

end Collection

/-- Names are collected unless there is an array of an array.  The first of these is
refused. -/
theorem Names.collect_of_describes {elements : List Element} {types : List DeclaredType}
    (describes : Describes elements types) :
    Names.collect elements =
      match firstNested? types with
      | some item => .error (.ofDescription (.unknownElementType item))
      | none => .ok (Names.ofDeclared (plainTypes types) (arrayTypes types)) := by
  obtain ⟨declares, tokens, names⟩ := describes
  rw [Names.collect_eq]
  have firstPass := Names.foldlM_takePlain declares
  rw [List.nil_append] at firstPass
  change (elements.foldlM Names.takePlain (Names.ofDeclared (plainTypes []) []) >>= _) = _
  rw [firstPass]
  change elements.foldlM Names.takeArray
    (Names.ofDeclared (plainTypes types) (arrayTypes [])) = _
  cases found : firstNested? types with
  | none =>
      exact Names.foldlM_takeArray tokens names declares (List.Subset.refl _)
        (List.findSome?_eq_none_iff.mp found)
  | some item =>
      obtain ⟨front, type, back, split, nested, flat⟩ := List.findSome?_eq_some_iff.mp found
      have parts : DeclaresAll types [] elements (front ++ type :: back) := by
        rw [← split]
        exact declares
      obtain ⟨before, element, after, sameElements, ofFront, ofType⟩ := parts.split
      have subset : front ⊆ types := by
        rw [split]
        exact List.subset_append_left front _
      have taken := Names.foldlM_takeArray tokens names ofFront subset flat
      have refused := Names.takeArray_of_declares tokens names subset ofType
      rw [nested] at refused
      rw [sameElements, List.foldlM_append, taken]
      change (element :: after).foldlM Names.takeArray
        (Names.ofDeclared (plainTypes types) (arrayTypes front)) = _
      rw [List.foldlM_cons, refused]
      rfl

/-! ## Defined types -/

/-- The steps that define an array type have the label that was collected. -/
theorem headSteps_of_array {all earlier : List DeclaredType} {element : Element}
    {type : DeclaredType} {item : Token} (tokens : (all.map DeclaredType.token).Nodup)
    (names : (all.map DeclaredType.fullName).Nodup) (subset : earlier ⊆ all) (among : type ∈ all)
    (declares : Declares all earlier element type) (isItem : type.item? = some item)
    (base : Option Token) :
    headSteps (Names.ofDeclared (plainTypes all) (arrayTypes all)) element type.token base =
      .ok [.type (some type.token) type.space type.name TypeAttributes.exported base,
        .elementType type.token item] := by
  have labelled : (Names.ofDeclared (plainTypes all) (arrayTypes all)).arrays.lookup type.token =
      some (type.space, type.name) := by
    apply lookup_of_unique
    · have isArray : type.isArray = true := Option.isSome_iff_exists.mpr ⟨_, isItem⟩
      apply List.mem_reverse.mpr
      exact List.mem_map_of_mem (mem_arrayTypes.mpr ⟨among, isArray⟩)
    · intro entry member same
      obtain ⟨other, isArray, isEntry⟩ := List.mem_map.mp (List.mem_reverse.mp member)
      subst isEntry
      rw [List.inj_on_of_nodup_map tokens (mem_arrayTypes.mp isArray).1 among same]
      rfl
  have refers : exists reference, element.attribute? "element" = some reference ∧
      (Names.ofDeclared (plainTypes all) (arrayTypes all)).resolve reference = .ok item := by
    have arraysKnown : arrayTypes all ⊆ all := fun _ member => (mem_arrayTypes.mp member).1
    cases declares with
    | plain => cases isItem
    | namedArray hasToken named refers means =>
        cases isItem
        exact ⟨_, refers, Names.resolve_of_means names arraysKnown means
          fun _ isArray => mem_arrayTypes.mpr ⟨means.among, isArray⟩⟩
    | array hasToken unnamed refers means =>
        cases isItem
        exact ⟨_, refers, Names.resolve_of_means names arraysKnown (means.mono subset)
          fun _ isArray => mem_arrayTypes.mpr ⟨subset means.among, isArray⟩⟩
  obtain ⟨reference, isReference, resolved⟩ := refers
  unfold headSteps
  rw [isReference, labelled]
  exact Result.bind_eq_ok.mpr ⟨item, resolved, rfl⟩

end ProgramDescription

/-! ## Labels of a draft -/

def TypeDef.label (type : TypeDef) : Token × (String × String) :=
  (type.token, (type.space, type.name))

namespace Draft

/-- The tokens and names of the types of a draft. -/
def labels (draft : Draft) : List (Token × (String × String)) :=
  draft.types.map TypeDef.label

/-- The token and name of the type that a step adds. -/
def newLabel? (draft : Draft) : DraftStep -> Option (Token × (String × String))
  | .type given space name _ _ => some ((draft.claimToken .typeDef given).1, (space, name))
  | .arrayType given element _ =>
    some ((draft.claimToken .typeDef given).1, draft.arrayLabel element)
  | _ => none

theorem labels_modifyType (draft : Draft) (subject : Token) {change : TypeDef -> TypeDef}
    (sameLabel : forall type, (change type).label = type.label) :
    (draft.modifyType subject change).labels = draft.labels :=
  map_modifyFirst subject sameLabel draft.types

/-- A step adds the label of the type that it defines, and changes no other. -/
theorem labels_step (draft : Draft) (step : DraftStep) :
    (draft.step step).2.labels = draft.labels ++ (draft.newLabel? step).toList := by
  cases step with
  | type given space name attributes base =>
      cases given <;> exact List.map_append
  | arrayType given element base =>
      unfold step newLabel?
      refine (labels_modifyType _ _ ?_).trans ?_
      · exact fun _ => rfl
      · cases given <;> exact List.map_append
  | elementType array element =>
      refine (labels_modifyType _ _ ?_).trans (List.append_nil _).symm
      exact fun _ => rfl
  | interface subject interface =>
      refine (labels_modifyType _ _ ?_).trans (List.append_nil _).symm
      exact fun _ => rfl
  | field given declaring name fieldType isStatic =>
      refine (labels_modifyType _ _ ?_).trans ?_
      · exact fun _ => rfl
      · cases given <;> exact (List.append_nil _).symm
  | method given declaring name attributes returns params body =>
      refine (labels_modifyType _ _ ?_).trans ?_
      · exact fun _ => rfl
      · cases given <;> exact (List.append_nil _).symm
  | constructor given declaring isStatic params body =>
      refine (labels_modifyType _ _ ?_).trans ?_
      · exact fun _ => rfl
      · cases given <;> exact (List.append_nil _).symm
  | string given text =>
      cases given <;> exact (List.append_nil _).symm

end Draft

/-- Whether a step defines a type. -/
def DraftStep.definesType : DraftStep -> Bool
  | .type .. => true
  | .arrayType .. => true
  | _ => false

namespace ProgramDescription

open Markup

/-- A step defines a type as it is declared: with its namespace and name, or as the array
of its element type if it is named after that. -/
inductive DefinedBy (type : DeclaredType) : DraftStep -> Prop
  | named (attributes : TypeAttributes) (base : Option Token) :
      DefinedBy type (.type (some type.token) type.space type.name attributes base)
  | derived {item : Token} (isDerived : type.kind = .array item) (base : Option Token) :
      DefinedBy type (.arrayType (some type.token) item base)

/-- Among other steps, there are steps that define the given types in their order. -/
def DefinedAmong (steps : List DraftStep) (types : List DeclaredType) : Prop :=
  List.Forall₂ DefinedBy types (steps.filter DraftStep.definesType)

/-- A program shows types with the namespaces and names that they are to have. -/
def Shows (program : Program) (types : List DeclaredType) : Prop :=
  forall type, type ∈ types -> exists found, program.typeDef type.token = .ok found ∧
    found.space = type.space ∧ found.name = type.name

section Definitions

variable {draft : Draft} {all earlier types : List DeclaredType} {element : Element}
  {elements : List Element} {type inner : DeclaredType} {step : DraftStep}
  {steps : List DraftStep} {program : Program}

theorem arrayLabel_of_mem (soFar : draft.labels = earlier.map DeclaredType.label)
    (tokens : (earlier.map DeclaredType.token).Nodup) (member : inner ∈ earlier) :
    draft.arrayLabel inner.token = (inner.space, inner.name ++ "[]") := by
  have labelled : inner.label ∈ draft.labels := by
    rw [soFar]
    exact List.mem_map_of_mem member
  obtain ⟨type, among, same⟩ := List.mem_map.mp labelled
  have distinct : (draft.types.map TypeDef.token).Nodup := by
    have sameTokens := congrArg (List.map Prod.fst) soFar
    unfold Draft.labels at sameTokens
    rw [List.map_map, List.map_map] at sameTokens
    exact sameTokens.symm ▸ tokens
  have found := Program.find?_of_nodup distinct among
  have sameToken : type.token = inner.token := congrArg Prod.fst same
  have sameName : (type.space, type.name) = (inner.space, inner.name) := congrArg Prod.snd same
  rw [sameToken] at found
  unfold Draft.arrayLabel
  rw [found]
  exact congrArg (fun label : String × String => (label.1, label.2 ++ "[]")) sameName

/-- A step that defines a type as it is declared gives it its label. -/
theorem newLabel?_of_definedBy (soFar : draft.labels = earlier.map DeclaredType.label)
    (tokens : (earlier.map DeclaredType.token).Nodup)
    (declares : Declares all earlier element type) (defined : DefinedBy type step) :
    draft.newLabel? step = some type.label := by
  cases defined with
  | named attributes base => rfl
  | derived isDerived base =>
      obtain ⟨inner, isEarlier, isItem, sameSpace, sameName⟩ := declares.exists_inner isDerived
      subst isItem
      change some (type.token, draft.arrayLabel inner.token) = some type.label
      rw [arrayLabel_of_mem soFar tokens isEarlier, DeclaredType.label, sameSpace, sameName]

/-- A run that defines declared types in their order gives them their labels. -/
theorem labels_trace (declares : DeclaresAll all earlier elements types)
    (tokens : ((earlier ++ types).map DeclaredType.token).Nodup)
    (defined : DefinedAmong steps types)
    (soFar : draft.labels = earlier.map DeclaredType.label) :
    (draft.trace steps).2.labels = (earlier ++ types).map DeclaredType.label := by
  induction steps generalizing draft earlier elements types with
  | nil =>
      cases defined
      rw [List.append_nil]
      exact soFar
  | cons step rest inductionHypothesis =>
      rw [Draft.trace_cons]
      have grown := draft.labels_step step
      unfold DefinedAmong at defined
      cases defines : step.definesType with
      | false =>
          have noLabel : draft.newLabel? step = none := by
            cases step <;> first | rfl | cases defines
          rw [noLabel, Option.toList_none, List.append_nil] at grown
          rw [List.filter_cons_of_neg (by rw [defines]; exact Bool.false_ne_true)] at defined
          exact inductionHypothesis declares tokens defined (grown.trans soFar)
      | true =>
          rw [List.filter_cons_of_pos defines] at defined
          cases defined with
          | @cons type _ types _ isFirst others =>
              cases declares with
              | cons first later =>
                  have ofEarlier : (earlier.map DeclaredType.token).Nodup := by
                    rw [List.map_append] at tokens
                    exact (List.nodup_append.mp tokens).1
                  rw [newLabel?_of_definedBy soFar ofEarlier first isFirst, soFar] at grown
                  have regrouped : earlier ++ type :: types = (earlier ++ [type]) ++ types := by
                    rw [List.append_assoc, List.singleton_append]
                  rw [regrouped] at tokens ⊢
                  apply inductionHypothesis later tokens others
                  rw [grown, List.map_append]
                  rfl

/-- A program that is made of such a run shows the types as they are declared. -/
theorem shows_of_defined (describes : Describes elements types)
    (defined : DefinedAmong steps types) (built : (Draft.ofSteps steps).build = .ok program) :
    Shows program types := by
  have labels : (Draft.ofSteps steps).labels = types.map DeclaredType.label :=
    labels_trace describes.declares describes.tokens defined rfl
  have apart := Draft.tellsApart_of_build built
  obtain ⟨names, isProgram, _⟩ := Draft.exists_completed built
  intro type member
  have labelled : type.label ∈ (Draft.ofSteps steps).labels := by
    rw [labels]
    exact List.mem_map_of_mem member
  obtain ⟨found, among, same⟩ := List.mem_map.mp labelled
  have present : found ∈ program.types := by
    rw [isProgram]
    exact Ordered.mem_sortBy.mpr among
  have isFound := apart.typeDef_of_mem present
  have sameToken : found.token = type.token := congrArg Prod.fst same
  have sameName : (found.space, found.name) = (type.space, type.name) := congrArg Prod.snd same
  rw [sameToken] at isFound
  exact ⟨found, isFound, congrArg Prod.fst sameName, congrArg Prod.snd sameName⟩

end Definitions

/-! ## Steps of a description -/

/-- A reading gives no step that defines a type. -/
def DefinesNoType (reading : Result DraftStep) : Prop :=
  forall step, reading = .ok step -> step.definesType = false

theorem DefinesNoType.bind {Value : Type} {first : Result Value}
    {next : Value -> Result DraftStep} (each : forall value, DefinesNoType (next value)) :
    DefinesNoType (first >>= next) := by
  intro step read
  obtain ⟨value, _, continued⟩ := Result.bind_eq_ok.mp read
  exact each value step continued

theorem DefinesNoType.ok {step : DraftStep} (noType : step.definesType = false) :
    DefinesNoType (.ok step) := by
  intro other same
  cases same
  exact noType

theorem definesNoType_memberStep (names : Names) (element child : Element) (token : Token) :
    DefinesNoType (memberStep names element token child) := by
  unfold memberStep
  split
  · exact .bind fun _ => .bind fun _ => .ok rfl
  · exact .bind fun _ => .bind fun _ => .bind fun _ => .bind fun _ => .bind fun _ => .ok rfl
  · exact .bind fun _ => .bind fun _ => .bind fun _ => .bind fun _ => .bind fun _ =>
      .bind fun _ => .ok rfl
  · exact .bind fun _ => .bind fun _ => .bind fun _ => .bind fun _ => .ok rfl
  · exact fun _ impossible => nomatch impossible

theorem definesNoType_stringStep (element : Element) : DefinesNoType (stringStep element) :=
  .bind fun _ => .ok rfl

theorem filter_definesType_of_mapM {read : Element -> Result DraftStep}
    {elements : List Element} {steps : List DraftStep}
    (noType : forall element, DefinesNoType (read element))
    (listed : elements.mapM read = .ok steps) : steps.filter DraftStep.definesType = [] := by
  apply List.filter_eq_nil_iff.mpr
  intro step member
  obtain ⟨element, _, isRead⟩ := Result.exists_of_mem_right (Result.mapM_eq_ok listed) member
  rw [noType element step isRead]
  exact Bool.false_ne_true

section Steps

variable {all earlier types : List DeclaredType} {element root : Element}
  {elements : List Element} {type : DeclaredType} {steps : List DraftStep}

/-- Every element declares its type behind some of the others. -/
theorem DeclaresAll.forall₂ (declares : DeclaresAll all earlier elements types) :
    List.Forall₂ (fun element type => type ∈ earlier ++ types ∧ exists before,
      before ⊆ earlier ++ types ∧ Declares all before element type) elements types := by
  induction declares with
  | nil => exact .nil
  | @cons earlier types element elements type first rest inductionHypothesis =>
      rw [List.append_assoc, List.singleton_append] at inductionHypothesis
      have among : type ∈ earlier ++ type :: types :=
        List.mem_append_right _ List.mem_cons_self
      exact .cons ⟨among, earlier, List.subset_append_left _ _, first⟩ inductionHypothesis

/-- A `type` element gives one step that defines a type, and this is the declared one. -/
theorem exists_definedBy_of_typeSteps (tokens : (all.map DeclaredType.token).Nodup)
    (names : (all.map DeclaredType.fullName).Nodup) (subset : earlier ⊆ all) (among : type ∈ all)
    (declares : Declares all earlier element type)
    (stepped : typeSteps (Names.ofDeclared (plainTypes all) (arrayTypes all)) element =
      .ok steps) :
    exists step, steps.filter DraftStep.definesType = [step] ∧ DefinedBy type step := by
  obtain ⟨token, isToken, stepped⟩ := Result.bind_eq_ok.mp stepped
  obtain ⟨base, _, stepped⟩ := Result.bind_eq_ok.mp stepped
  obtain ⟨head, isHead, stepped⟩ := Result.bind_eq_ok.mp stepped
  obtain ⟨members, listed, assembled⟩ := Result.bind_eq_ok.mp stepped
  cases assembled
  rw [declares.hasToken] at isToken
  cases isToken
  have noType : members.filter DraftStep.definesType = [] :=
    filter_definesType_of_mapM (fun child => definesNoType_memberStep _ element child _) listed
  rw [List.filter_append, noType, List.append_nil]
  cases isItem : type.item? with
  | some item =>
      rw [headSteps_of_array tokens names subset among declares isItem base] at isHead
      cases isHead
      exact ⟨_, rfl, .named _ base⟩
  | none =>
      cases declares with
      | @plain token name hasToken named noArray =>
          unfold headSteps at isHead
          rw [noArray] at isHead
          obtain ⟨marks, _, isHead⟩ := Result.bind_eq_ok.mp isHead
          obtain ⟨found, isName, assembled⟩ := Result.bind_eq_ok.mp isHead
          rw [Element.required_eq_ok.mpr named] at isName
          cases isName
          cases assembled
          exact ⟨_, rfl, .named marks base⟩
      | namedArray => cases isItem
      | array => cases isItem

theorem definedAmong_flatten {parts : List (List DraftStep)}
    (paired : List.Forall₂ (fun type part => exists step,
      part.filter DraftStep.definesType = [step] ∧ DefinedBy type step) types parts) :
    DefinedAmong parts.flatten types := by
  unfold DefinedAmong
  induction paired with
  | nil => exact .nil
  | cons first _ inductionHypothesis =>
      obtain ⟨step, only, defined⟩ := first
      rw [List.flatten_cons, List.filter_append, only]
      exact .cons defined inductionHypothesis

/-- The steps of a description define the declared types in their order. -/
theorem definedAmong_of_steps (describes : Describes (root.childrenNamed "type") types)
    (stepped : ProgramDescription.steps root = .ok steps) : DefinedAmong steps types := by
  obtain ⟨names, collected, stepped⟩ := Result.bind_eq_ok.mp stepped
  obtain ⟨parts, ofTypes, stepped⟩ := Result.bind_eq_ok.mp stepped
  obtain ⟨literals, ofStrings, assembled⟩ := Result.bind_eq_ok.mp stepped
  cases assembled
  rw [Names.collect_of_describes describes] at collected
  split at collected
  · cases collected
  · cases collected
    have noType : literals.filter DraftStep.definesType = [] :=
      filter_definesType_of_mapM definesNoType_stringStep ofStrings
    have paired := forall₂_of_shared (fun element type part declared listed => by
        obtain ⟨among, before, subset, declares⟩ := declared
        exact exists_definedBy_of_typeSteps describes.tokens describes.names subset among declares
          listed)
      describes.declares.forall₂ (Result.mapM_eq_ok ofTypes)
    have defined := definedAmong_flatten paired
    unfold DefinedAmong
    rw [List.filter_append, noType, List.append_nil]
    exact defined

end Steps

/-! ## Arrays of arrays -/

/-- The end of the name of an array of arrays. -/
def brackets : Nat -> String
  | 0 => ""
  | depth + 1 => brackets depth ++ "[]"

/-- A type is an array of another at a depth, through arrays that are named after their
element types. -/
inductive ArrayOf (types : List DeclaredType) : Nat -> DeclaredType -> DeclaredType -> Prop
  | itself {type : DeclaredType} : ArrayOf types 0 type type
  | array {depth : Nat} {type inner innermost : DeclaredType}
      (isDerived : type.kind = .array inner.token) (among : inner ∈ types)
      (further : ArrayOf types depth inner innermost) : ArrayOf types (depth + 1) type innermost

/-- A type has the namespace of its innermost element type, and its name with brackets for
every level of arrays. -/
def NamedAfter (types : List DeclaredType) (type : DeclaredType) : Prop :=
  exists depth innermost, ArrayOf types depth type innermost ∧ innermost ∈ types ∧
    innermost.isDerived = false ∧ type.space = innermost.space ∧
    type.name = innermost.name ++ brackets depth

theorem namedAfter_of_declares {all earlier : List DeclaredType} {element : Element}
    {type : DeclaredType} (declares : Declares all earlier element type) (among : type ∈ all)
    (subset : earlier ⊆ all) (soFar : forall inner, inner ∈ earlier -> NamedAfter all inner) :
    NamedAfter all type := by
  cases isDerived : type.isDerived with
  | false => exact ⟨0, type, .itself, among, isDerived, rfl, String.append_empty.symm⟩
  | true =>
      unfold DeclaredType.isDerived at isDerived
      split at isDerived
      · rename_i item isArray
        obtain ⟨inner, isEarlier, isItem, sameSpace, sameName⟩ := declares.exists_inner isArray
        subst isItem
        obtain ⟨depth, innermost, nesting, known, ownName, space, name⟩ := soFar inner isEarlier
        refine ⟨depth + 1, innermost, .array isArray (subset isEarlier) nesting, known, ownName,
          sameSpace.trans space, ?_⟩
        rw [sameName, name, brackets, String.append_assoc]
      · cases isDerived

/-- Every declared type is named after its innermost element type. -/
theorem namedAfter_of_declaresAll {all earlier types : List DeclaredType}
    {elements : List Element} (declares : DeclaresAll all earlier elements types)
    (subset : earlier ++ types ⊆ all)
    (soFar : forall inner, inner ∈ earlier -> NamedAfter all inner) :
    forall type, type ∈ earlier ++ types -> NamedAfter all type := by
  induction declares with
  | nil =>
      rw [List.append_nil]
      exact soFar
  | @cons earlier types element elements type first rest inductionHypothesis =>
      have among : type ∈ all := subset (List.mem_append_right _ List.mem_cons_self)
      have known : earlier ⊆ all := fun _ member => subset (List.mem_append_left _ member)
      rw [List.append_assoc, List.singleton_append] at inductionHypothesis
      apply inductionHypothesis subset
      intro other member
      rcases List.mem_append.mp member with isEarlier | isFirst
      · exact soFar other isEarlier
      · rw [List.mem_singleton.mp isFirst]
        exact namedAfter_of_declares first among known soFar

/-- What becomes of the array types of a description, and of the same types in a draft. -/
structure NamesArrays (lexer : Lexer) (document : String) (root : Element)
    (types : List DeclaredType) : Prop where
  rule : forall type, type ∈ types -> NamedAfter types type
  /-- A draft follows the rule at any depth. -/
  drafted : forall steps, DefinedAmong steps types ->
    (Draft.ofSteps steps).labels = types.map DeclaredType.label ∧
    forall program, (Draft.ofSteps steps).build = .ok program -> Shows program types
  /-- A description with an array of an array is refused. -/
  refused : forall item, firstNested? types = some item ->
    Program.ofDescriptionWith lexer document = .error (.ofDescription (.unknownElementType item))
  /-- Without such an array, every array type is read and follows the rule. -/
  accepted : firstNested? types = none ->
    exists names, Names.collect (root.childrenNamed "type") = .ok names ∧
      List.Forall₂ (fun element type => forall item base, type.item? = some item ->
        headSteps names element type.token base =
          .ok [.type (some type.token) type.space type.name TypeAttributes.exported base,
            .elementType type.token item]) (root.childrenNamed "type") types
  loaded : forall program, Program.ofDescriptionWith lexer document = .ok program ->
    Shows program types

/-- Array types are named by one rule, which descriptions follow for the arrays of types
that are no arrays, and drafts for all arrays. -/
theorem arrays_named {lexer : Lexer} {document : String} {root : Element}
    {types : List DeclaredType} (parsed : Element.parse lexer document = .ok root)
    (isProgram : root.name = "program")
    (describes : Describes (root.childrenNamed "type") types) :
    NamesArrays lexer document root types := by
  have collected := Names.collect_of_describes describes
  have reads := ofDescriptionWith_of_parse parsed isProgram
  constructor
  · exact namedAfter_of_declaresAll describes.declares (List.Subset.refl _) nofun
  · intro steps defined
    have labels : (Draft.ofSteps steps).labels = types.map DeclaredType.label :=
      labels_trace describes.declares describes.tokens defined rfl
    exact ⟨labels, fun program built => shows_of_defined describes defined built⟩
  · intro item nested
    rw [nested] at collected
    rw [reads]
    exact Result.bind_eq_error.mpr (Or.inl (Result.bind_eq_error.mpr (Or.inl collected)))
  · intro flat
    rw [flat] at collected
    refine ⟨_, collected, describes.declares.forall₂.imp ?_⟩
    intro element type declared item base isItem
    obtain ⟨among, before, subset, declares⟩ := declared
    exact headSteps_of_array describes.tokens describes.names subset among declares isItem base
  · intro program loaded
    rw [reads] at loaded
    obtain ⟨steps, stepped, built⟩ := Result.bind_eq_ok.mp loaded
    exact shows_of_defined describes (definedAmong_of_steps describes stepped) built

/-- A type, its array, and one type more. -/
def sampleDisksText (last : List Char) : List Char :=
  "<program>".toList ++ "<type token='0x02000001'".toList ++
    " namespace='Demo' name='Disk'/>".toList ++ "<type token='0x02000002'".toList ++
    " element='Demo.Disk'/>".toList ++ last ++ "</program>".toList

def sampleDisksRoot (last : Element) : Element :=
  ⟨"program", [], [
    ⟨"type", [("token", "0x02000001"), ("namespace", "Demo"), ("name", "Disk")], [], ""⟩,
    ⟨"type", [("token", "0x02000002"), ("element", "Demo.Disk")], [], ""⟩, last], ""⟩

def sampleDisk : DeclaredType :=
  ⟨⟨0x02000001⟩, "Demo", "Disk", .plain⟩

def sampleDiskArray : DeclaredType :=
  sampleDisk.arrayOf ⟨0x02000002⟩

theorem describes_sampleDisksRoot {last : Element} {type : DeclaredType}
    (isType : last.name = "type")
    (declares :
      Declares [sampleDisk, sampleDiskArray, type] [sampleDisk, sampleDiskArray] last type)
    (tokens : ([sampleDisk, sampleDiskArray, type].map DeclaredType.token).Nodup)
    (names : ([sampleDisk, sampleDiskArray, type].map DeclaredType.fullName).Nodup) :
    Describes ((sampleDisksRoot last).childrenNamed "type")
      [sampleDisk, sampleDiskArray, type] := by
  have elements : (sampleDisksRoot last).childrenNamed "type" =
      (sampleDisksRoot last).children := by
    simp [Element.childrenNamed, sampleDisksRoot, isType]
  rw [elements]
  refine ⟨.cons (.plain (by decide +kernel) rfl rfl) (.cons ?_ (.cons declares .nil)), tokens,
    names⟩
  refine .array (by decide +kernel) rfl rfl (.byName List.mem_cons_self ?_ ?_)
  · decide +kernel
  · decide +kernel

/-- An array of the array, with a name of its own. -/
def sampleStack : DeclaredType :=
  ⟨⟨0x02000003⟩, "", "Stack", .namedArray ⟨0x02000002⟩⟩

def sampleStackElement : Element :=
  ⟨"type", [("token", "0x02000003"), ("name", "Stack"), ("element", "0x02000002")], [], ""⟩

def sampleStackText : List Char :=
  sampleDisksText ("<type token='0x02000003'".toList ++ " name='Stack'".toList ++
    " element='0x02000002'/>".toList)

def sampleStackProgram : Program :=
  (Draft.ofSteps [
    .type (some ⟨0x02000001⟩) "Demo" "Disk" TypeAttributes.exported none,
    .arrayType (some ⟨0x02000002⟩) ⟨0x02000001⟩ none,
    .type (some ⟨0x02000003⟩) "" "Stack" TypeAttributes.exported none,
    .elementType ⟨0x02000003⟩ ⟨0x02000002⟩]).build.toOption.getD ⟨[], [], [], [], []⟩

theorem sampleStack_named :
    NamesArrays .standard (String.ofList sampleStackText) (sampleDisksRoot sampleStackElement)
      [sampleDisk, sampleDiskArray, sampleStack] ∧
    Program.ofDescription (String.ofList sampleStackText) = .ok sampleStackProgram ∧
    Shows sampleStackProgram [sampleDisk, sampleDiskArray, sampleStack] := by
  have parsed : Element.parse .standard (String.ofList sampleStackText) =
      .ok (sampleDisksRoot sampleStackElement) := by
    rw [Element.parse_ofList]
    decide +kernel
  have declares : Declares [sampleDisk, sampleDiskArray, sampleStack]
      [sampleDisk, sampleDiskArray] sampleStackElement sampleStack := by
    have among : sampleDiskArray ∈ [sampleDisk, sampleDiskArray, sampleStack] := by
      decide +kernel
    refine .namedArray (by decide +kernel) rfl rfl (.byToken among ?_ ?_) ?_
    · decide +kernel
    · decide +kernel
    · decide +kernel
  have describes := describes_sampleDisksRoot rfl declares (by decide +kernel) (by decide +kernel)
  have named := arrays_named parsed rfl describes
  have loaded : Program.ofDescription (String.ofList sampleStackText) = .ok sampleStackProgram := by
    rw [Program.ofDescription, ofDescriptionWith_of_parse parsed rfl]
    decide +kernel
  exact ⟨named, loaded, named.loaded _ loaded⟩

/-- The array of the array, named after it. -/
def sampleGridElement : Element :=
  ⟨"type", [("token", "0x02000003"), ("element", "Demo.Disk[]")], [], ""⟩

def sampleGridText : List Char :=
  sampleDisksText ("<type token='0x02000003'".toList ++ " element='Demo.Disk[]'/>".toList)

/-- The description is refused, although its arrays refer to types that are declared
earlier, and the steps that define the same types name them all. -/
theorem sampleGrid_refused :
    Element.parse .standard (String.ofList sampleGridText) =
      .ok (sampleDisksRoot sampleGridElement) ∧
    Describes ((sampleDisksRoot sampleGridElement).childrenNamed "type")
      [sampleDisk, sampleDiskArray, sampleDiskArray.arrayOf ⟨0x02000003⟩] ∧
    Program.ofDescription (String.ofList sampleGridText) =
      .error (.ofDescription (.unknownElementType ⟨0x02000002⟩)) ∧
    (Draft.ofSteps [.type (some ⟨0x02000001⟩) "Demo" "Disk" TypeAttributes.exported none,
      .arrayType (some ⟨0x02000002⟩) ⟨0x02000001⟩ none,
      .arrayType (some ⟨0x02000003⟩) ⟨0x02000002⟩ none]).labels =
      [(⟨0x02000001⟩, ("Demo", "Disk")), (⟨0x02000002⟩, ("Demo", "Disk[]")),
        (⟨0x02000003⟩, ("Demo", "Disk[][]"))] := by
  have parsed : Element.parse .standard (String.ofList sampleGridText) =
      .ok (sampleDisksRoot sampleGridElement) := by
    rw [Element.parse_ofList]
    decide +kernel
  have declares : Declares
      [sampleDisk, sampleDiskArray, sampleDiskArray.arrayOf ⟨0x02000003⟩]
      [sampleDisk, sampleDiskArray] sampleGridElement (sampleDiskArray.arrayOf ⟨0x02000003⟩) := by
    have among : sampleDiskArray ∈ [sampleDisk, sampleDiskArray] := by
      decide +kernel
    refine .array (by decide +kernel) rfl rfl (.byName among ?_ ?_)
    · decide +kernel
    · decide +kernel
  refine ⟨parsed, ?_, ?_, ?_⟩
  · exact describes_sampleDisksRoot rfl declares (by decide +kernel) (by decide +kernel)
  · rw [Program.ofDescription, ofDescriptionWith_of_parse parsed rfl]
    decide +kernel
  · decide +kernel

end ProgramDescription
end CilGraph
