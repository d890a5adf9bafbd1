import CilGraph.Proofs.Dispatch.Making
import Mathlib.Data.List.Forall2
import Mathlib.Data.List.Nodup

namespace CilGraph

/-!
# Growth of registries

A registry changes in two ways only.  The layout of a type that has none is
entered at its end, and that layout was made from tables which the registry held
at that time.  Or the records of fields change.  `Grows` strings such changes
together and says nothing about the records.

Every action on a registry lets it grow, also an action that fails half way.
Whatever holds of the layouts that are made, given that it holds of those they
are made from, therefore holds of all layouts of every registry that can be
reached.

A layout is determined by the tables it is made from, and tables are never
given up.  So a type cannot have two layouts that differ.  A type whose layout
is being made is not entered by anything that it waits for, so a type does not
have the same layout twice either.

What an action registers is no more than it needs.  A layout needs the base type
and the interfaces of its type, and an action does not leave a set of types that
contains with every type what its layout needs.
-/

namespace Program

/-- Following elements ends at a type without an element. -/
theorem plain_of_innermostWith {program : Program} {fuel : Nat} {token type : Token}
    (found : program.innermostWith fuel token = .ok type) :
    exists definition, program.typeDef type = .ok definition ∧ definition.element = none := by
  induction fuel generalizing token with
  | zero => cases found
  | succ fuel inductionHypothesis =>
      rcases Result.bind_eq_ok.mp found with ⟨definition, declared, continued⟩
      cases isElement : definition.element with
      | none =>
          rw [isElement] at continued
          cases continued
          exact ⟨definition, declared, isElement⟩
      | some element =>
          rw [isElement] at continued
          exact inductionHypothesis continued

theorem innermost_innermost {program : Program} {token type : Token}
    (found : program.innermost token = .ok type) : program.innermost type = .ok type := by
  rcases plain_of_innermostWith found with ⟨definition, declared, noElement⟩
  refine Result.bind_eq_ok.mpr ⟨definition, declared, ?_⟩
  rw [noElement]

end Program

namespace Dispatch
namespace Registry

open Stateful

/-- A layout was made from tables of a registry. -/
structure MadeFrom (linkage : Linkage) (registry : Registry) (token : Token) (layout : Layout)
    (type resolved : TypeDef) (base : Option Table) (interfaces : List Token)
    (tables : List Table) : Prop
    extends Parts linkage (Tabled linkage registry) token type resolved base interfaces tables where
  plain : linkage.program.innermost token = .ok token
  sorted : (Layout.start type resolved.token base tables).addMethods linkage = .ok layout

/-- The layout of a type was made from tables of a registry. -/
def Made (linkage : Linkage) (registry : Registry) (token : Token) (layout : Layout) : Prop :=
  exists type resolved base interfaces tables,
    MadeFrom linkage registry token layout type resolved base interfaces tables

/-- Everything that can happen to a registry. -/
inductive Grows (linkage : Linkage) (first : Registry) : Registry -> Prop
  | refl : Grows linkage first first
  | enter {registry : Registry} {type : Token} {layout : Layout} (catalog : Catalog)
      (grows : Grows linkage first registry) (fresh : registry.layout? type = none)
      (made : Made linkage registry type layout) :
      Grows linkage first ⟨registry.layouts ++ [(type, layout)], catalog⟩
  | catalog {registry : Registry} (catalog : Catalog) (grows : Grows linkage first registry) :
      Grows linkage first { registry with catalog := catalog }

/-- A set of types that contains with a type all that its layout needs. -/
def Sufficient (linkage : Linkage) (inside : Token -> Prop) : Prop :=
  forall token other type, inside token -> Needs linkage token other ->
    linkage.program.innermost other = .ok type -> inside type

/-- The types of a set with all that their layouts need. -/
inductive WithNeeds (linkage : Linkage) (inside : Token -> Prop) : Token -> Prop
  | member {type : Token} (isInside : inside type) : WithNeeds linkage inside type
  | needed {token other type : Token} (reached : WithNeeds linkage inside token)
      (needs : Needs linkage token other)
      (canonical : linkage.program.innermost other = .ok type) : WithNeeds linkage inside type

theorem sufficient_withNeeds (linkage : Linkage) (inside : Token -> Prop) :
    Sufficient linkage (WithNeeds linkage inside) :=
  fun _ _ _ reached needs canonical => .needed reached needs canonical

section Growth

variable {linkage : Linkage} {first second third : Registry}

theorem Grows.trans (early : Grows linkage first second) (late : Grows linkage second third) :
    Grows linkage first third := by
  induction late with
  | refl => exact early
  | enter catalog _ fresh made inductionHypothesis =>
      exact .enter catalog inductionHypothesis fresh made
  | catalog catalog _ inductionHypothesis => exact .catalog catalog inductionHypothesis

theorem Grows.layouts (grows : Grows linkage first second) :
    exists more, second.layouts = first.layouts ++ more := by
  induction grows with
  | refl => exact ⟨[], (List.append_nil _).symm⟩
  | @enter registry type layout catalog _ _ _ inductionHypothesis =>
      rcases inductionHypothesis with ⟨more, appended⟩
      refine ⟨more ++ [(type, layout)], ?_⟩
      rw [appended, List.append_assoc]
  | catalog catalog _ inductionHypothesis => exact inductionHypothesis

/-- A registered layout stays. -/
theorem Grows.layout? (grows : Grows linkage first second) {type : Token} {layout : Layout}
    (found : first.layout? type = some layout) : second.layout? type = some layout := by
  rcases grows.layouts with ⟨more, appended⟩
  unfold Registry.layout? at found ⊢
  rw [appended, List.lookup_append, found]
  rfl

theorem Tabled.grows {token : Token} {table : Table} (tabled : Tabled linkage first token table)
    (grows : Grows linkage first second) : Tabled linkage second token table := by
  rcases tabled with ⟨type, layout, canonical, found, same⟩
  exact ⟨type, layout, canonical, grows.layout? found, same⟩

theorem Made.grows {token : Token} {layout : Layout} (made : Made linkage first token layout)
    (grows : Grows linkage first second) : Made linkage second token layout := by
  rcases made with ⟨type, resolved, base, interfaces, tables, origin⟩
  have parts := origin.toParts.imp (fun _ _ tabled => Tabled.grows tabled grows)
  exact ⟨type, resolved, base, interfaces, tables, parts, origin.plain, origin.sorted⟩

theorem Tabled.unique {token : Token} {table other : Table}
    (tabled : Tabled linkage first token table) (rival : Tabled linkage first token other) :
    table = other := by
  rcases tabled with ⟨type, layout, canonical, found, same⟩
  rcases rival with ⟨type', layout', canonical', found', same'⟩
  rw [canonical] at canonical'
  rw [← Except.ok.inj canonical', found] at found'
  rw [same, same', Option.some.inj found']

/-- A layout is determined by the tables it is made from. -/
theorem Made.eq_of_tables {token : Token} {layout other : Layout}
    (agreeing : forall {token : Token} {table rival : Table}, Tabled linkage first token table ->
      Tabled linkage second token rival -> table = rival)
    (made : Made linkage first token layout) (rival : Made linkage second token other) :
    layout = other := by
  rcases made with ⟨type, resolved, base, interfaces, tables, origin⟩
  rcases rival with ⟨type', resolved', base', interfaces', tables', origin'⟩
  rcases origin.toParts.unique origin'.toParts (fun _ _ _ => agreeing) with
    ⟨sameType, sameResolved, sameBase, sameTables⟩
  subst sameType sameResolved sameBase sameTables
  exact Except.ok.inj (origin.sorted.symm.trans origin'.sorted)

theorem Made.unique {token : Token} {layout other : Layout}
    (made : Made linkage first token layout) (rival : Made linkage first token other) :
    layout = other :=
  made.eq_of_tables (fun tabled rival => tabled.unique rival) rival

theorem Grows.made_of_mem (grows : Grows linkage {} second) {token : Token} {layout : Layout}
    (member : (token, layout) ∈ second.layouts) : Made linkage second token layout := by
  induction grows with
  | refl => cases member
  | @enter registry type layout catalog grown fresh made inductionHypothesis =>
      have step : Grows linkage registry ⟨registry.layouts ++ [(type, layout)], catalog⟩ :=
        .enter catalog .refl fresh made
      rcases List.mem_append.mp member with earlier | added
      · exact (inductionHypothesis earlier).grows step
      · cases List.mem_singleton.mp added
        exact made.grows step
  | catalog catalog _ inductionHypothesis =>
      exact (inductionHypothesis member).grows (.catalog catalog .refl)

theorem mem_layouts_of_layout? {registry : Registry} {token : Token} {layout : Layout}
    (found : registry.layout? token = some layout) : (token, layout) ∈ registry.layouts := by
  rcases List.lookup_eq_some_iff.mp found with ⟨front, back, split, _⟩
  rw [split]
  exact List.mem_append_right _ List.mem_cons_self

/-- Every layout of a registry that has grown from an empty one was made from
tables that it still holds. -/
theorem Grows.made (grows : Grows linkage {} second) {token : Token} {layout : Layout}
    (found : second.layout? token = some layout) : Made linkage second token layout :=
  grows.made_of_mem (mem_layouts_of_layout? found)

/-- Whatever stands in a registry for a type is what is found there. -/
theorem Grows.layout?_of_mem (grows : Grows linkage {} second) {token : Token} {layout : Layout}
    (member : (token, layout) ∈ second.layouts) : second.layout? token = some layout := by
  cases found : second.layout? token with
  | none =>
      have differs := List.lookup_eq_none_iff.mp found (token, layout) member
      simp at differs
  | some first => rw [(grows.made found).unique (grows.made_of_mem member)]

theorem layout?_eq_none_iff {registry : Registry} {type : Token} :
    registry.layout? type = none ↔ type ∉ registry.types := by
  unfold Registry.layout? types
  rw [List.lookup_eq_none_iff, List.mem_map]
  constructor
  · rintro differs ⟨entry, member, same⟩
    have differ := differs entry member
    rw [same] at differ
    simp at differ
  · intro absent entry member
    refine bne_iff_ne.mpr ?_
    intro same
    exact absent ⟨entry, member, same.symm⟩

theorem mem_types_iff {registry : Registry} {type : Token} :
    type ∈ registry.types ↔ exists layout, registry.layout? type = some layout := by
  rw [← Option.isSome_iff_exists, ← Option.ne_none_iff_isSome, ne_eq, layout?_eq_none_iff, not_not]

theorem types_enter (registry : Registry) (type : Token) (layout : Layout) (catalog : Catalog) :
    (⟨registry.layouts ++ [(type, layout)], catalog⟩ : Registry).types =
      registry.types ++ [type] :=
  List.map_append

/-- A type is registered once at most. -/
theorem Grows.nodup_types (grows : Grows linkage first second) (distinct : first.types.Nodup) :
    second.types.Nodup := by
  induction grows with
  | refl => exact distinct
  | @enter registry type layout catalog _ fresh _ inductionHypothesis =>
      rw [types_enter]
      refine List.Nodup.append inductionHypothesis (List.nodup_singleton _) ?_
      exact List.disjoint_singleton.mpr (layout?_eq_none_iff.mp fresh)
  | catalog catalog _ inductionHypothesis => exact inductionHypothesis

end Growth

/-! ## Actions -/

/-- From a registry that satisfies `before`, an action only lets the registry
grow.  If it succeeds, its value and the registry satisfy `after`. -/
def Ensures {Value : Type} (linkage : Linkage) (before : Registry -> Prop)
    (action : Action Value) (after : Value -> Registry -> Prop) : Prop :=
  forall registry, before registry -> Grows linkage registry (action registry).2 ∧
    forall value, (action registry).1 = .ok value -> after value (action registry).2

/-- A registry grows on the way, whether an action succeeds or not. -/
def growing (linkage : Linkage) : Course Registry where
  may := Grows linkage
  failed _ _ := True
  refl _ := .refl
  trans := Grows.trans

theorem ensures_iff_holds {Value : Type} {linkage : Linkage} {before : Registry -> Prop}
    {action : Action Value} {after : Value -> Registry -> Prop} :
    Ensures linkage before action after ↔ Holds (growing linkage) before action after := by
  constructor
  · intro ensures registry given
    rcases ensures registry given with ⟨grows, reached⟩
    exact ⟨grows, reached, fun _ _ => trivial⟩
  · intro holds registry given
    rcases holds registry given with ⟨grows, reached, _⟩
    exact ⟨grows, reached⟩

/-- None of the types that wait for a layout is registered. -/
def Spares (waiting : List Token) (registry : Registry) : Prop :=
  forall type, type ∈ waiting -> registry.layout? type = none

/-- A property of registries that is preserved when the layout of a type of a
set is entered. -/
def Preserved (linkage : Linkage) (inside : Token -> Prop) (kept : Registry -> Prop) : Prop :=
  forall registry type layout catalog, kept registry -> inside type ->
    registry.layout? type = none -> Made linkage registry type layout ->
    registry.catalog.add linkage type = .ok catalog ->
    kept ⟨registry.layouts ++ [(type, layout)], catalog⟩

section Recursion

variable {linkage : Linkage} {inside : Token -> Prop} {kept : Registry -> Prop}

theorem ensures_enter {waiting : List Token} {type : Token} {layout : Layout}
    (preserved : Preserved linkage inside kept) (isInside : inside type)
    (idle : type ∉ waiting) :
    Ensures linkage
      (fun registry => Made linkage registry type layout ∧ Spares (type :: waiting) registry ∧
        kept registry)
      (enter linkage type layout)
      (fun _ registry => (exists found, registry.layout? type = some found) ∧
        Spares waiting registry ∧ kept registry) := by
  refine ensures_iff_holds.mpr (holds_enter (fun _ _ _ _ => trivial) ?_)
  rintro registry catalog ⟨made, spares, holds⟩ entered
  have fresh := spares type List.mem_cons_self
  refine ⟨.enter catalog .refl fresh made, ⟨layout, ?_⟩, ?_,
    preserved registry type layout catalog holds isInside fresh made entered⟩
  · unfold Registry.layout? at fresh ⊢
    rw [List.lookup_append, fresh]
    exact List.lookup_cons_self
  · intro other waits
    rw [layout?_eq_none_iff, types_enter, List.mem_append, List.mem_singleton]
    rintro (earlier | added)
    · exact layout?_eq_none_iff.mp (spares other (List.mem_cons_of_mem type waits)) earlier
    · rw [added] at waits
      exact idle waits

/-- After a type has been registered there is a layout for it.  Nothing that
waits was registered on the way, and nothing outside a sufficient set. -/
theorem ensures_addWith (sufficient : Sufficient linkage inside)
    (preserved : Preserved linkage inside kept) (fuel : Nat) (waiting : List Token)
    (token : Token)
    (isInside : forall type, linkage.program.innermost token = .ok type -> inside type) :
    Ensures linkage (fun registry => Spares waiting registry ∧ kept registry)
      (addWith linkage fuel waiting token)
      (fun _ registry => (exists type layout, linkage.program.innermost token = .ok type ∧
        registry.layout? type = some layout) ∧ Spares waiting registry ∧ kept registry) := by
  rw [ensures_iff_holds]
  induction fuel generalizing waiting token with
  | zero => exact holds_cyclic (fun _ _ _ => trivial)
  | succ fuel inductionHypothesis =>
      refine holds_addWith (fun _ _ _ _ => trivial) ?_ (fun _ _ _ _ _ _ => trivial) ?_
      · exact fun type layout registry canonical found holds =>
          ⟨⟨type, layout, canonical, found⟩, holds⟩
      · intro type canonical idle
        have obtains : forall other, Needs linkage type other -> Holds (growing linkage)
            (fun registry => Spares (type :: waiting) registry ∧ kept registry)
            (do
              addWith linkage fuel (type :: waiting) other
              tableOf linkage other)
            (fun table registry => Tabled linkage registry other table ∧
              Spares (type :: waiting) registry ∧ kept registry) := by
          intro other needs
          have insideThen := fun inner found =>
            sufficient type other inner (isInside type canonical) needs found
          refine holds_bind (inductionHypothesis (type :: waiting) other insideThen) (fun _ => ?_)
          refine (holds_tableOf (fun _ _ _ _ => trivial) (fun _ _ _ _ _ => trivial)).weaken ?_
          rintro table later ⟨tabled, _, after⟩
          exact ⟨tabled, after⟩
        refine holds_bind ((holds_makeLayout ?_ obtains ?_).strengthen ?_) (fun layout => ?_)
        · exact fun _ _ _ _ grows tabled => Tabled.grows tabled grows
        · exact fun _ _ _ _ => trivial
        · rintro registry ⟨missing, spares, holds⟩
          exact ⟨List.forall_mem_cons.mpr ⟨missing, spares⟩, holds⟩
        · have enters : Holds (growing linkage) _ (enter linkage type layout) _ :=
            ensures_iff_holds.mp (ensures_enter preserved (isInside type canonical) idle)
          refine (enters.strengthen ?_).weaken ?_
          · rintro registry ⟨⟨_, _, _, _, _, parts, sorted⟩, after⟩
            exact ⟨⟨_, _, _, _, _, parts, Program.innermost_innermost canonical, sorted⟩, after⟩
          · rintro _ later ⟨⟨entered, found⟩, after⟩
            exact ⟨⟨type, entered, canonical, found⟩, after⟩

theorem confined_preserved : Preserved linkage inside
    (fun registry => forall type, type ∈ registry.types -> inside type) := by
  intro registry type layout catalog confined isInside _ _ _ other registered
  rw [types_enter] at registered
  rcases List.mem_append.mp registered with earlier | added
  · exact confined other earlier
  · rw [List.mem_singleton.mp added]
    exact isInside

/-- Registering a type of a sufficient set keeps what entering such types keeps. -/
theorem kept_add {token type : Token} {registry : Registry}
    (sufficient : Sufficient linkage inside) (preserved : Preserved linkage inside kept)
    (canonical : linkage.program.innermost token = .ok type) (isInside : inside type)
    (holds : kept registry) (added : (add linkage token registry).1 = .ok ()) :
    kept (add linkage token registry).2 := by
  have isInsideThen : forall found, linkage.program.innermost token = .ok found ->
      inside found := by
    intro found again
    rw [canonical] at again
    rw [← Except.ok.inj again]
    exact isInside
  have spares : Spares [] registry := fun _ member => absurd member List.not_mem_nil
  have reached := ensures_addWith sufficient preserved (linkage.program.types.length + 1) []
    token isInsideThen registry ⟨spares, holds⟩
  exact (reached.2 () added).2.2

end Recursion

theorem sufficient_everything (linkage : Linkage) : Sufficient linkage (fun _ => True) :=
  fun _ _ _ _ _ _ => trivial

theorem ensures_add (linkage : Linkage) (token : Token) :
    Ensures linkage (fun _ => True) (add linkage token)
      (fun _ registry => exists type layout, linkage.program.innermost token = .ok type ∧
        registry.layout? type = some layout) := by
  have nothing : Preserved linkage (fun _ => True) (fun _ => True) :=
    fun _ _ _ _ _ _ _ _ _ => trivial
  have spares : forall registry : Registry, True -> Spares [] registry ∧ True :=
    fun _ _ => ⟨fun _ member => absurd member List.not_mem_nil, trivial⟩
  have adds := ensures_addWith (sufficient_everything linkage) nothing
    (linkage.program.types.length + 1) [] token (fun _ _ => trivial)
  exact ensures_iff_holds.mpr (((ensures_iff_holds.mp adds).strengthen spares).weaken
    (fun _ _ holds => holds.1))

theorem grows_add (linkage : Linkage) (token : Token) (registry : Registry) :
    Grows linkage registry (add linkage token registry).2 :=
  (ensures_add linkage token registry trivial).1

/-- A request that leaves its type without a layout has failed. -/
theorem exists_error_of_absent {linkage : Linkage} {registry : Registry} {token : Token}
    (innermost : linkage.program.innermost token = .ok token)
    (absent : (add linkage token registry).2.layout? token = none) :
    exists failure, (add linkage token registry).1 = .error failure := by
  cases outcome : (add linkage token registry).1 with
  | error failure => exact ⟨failure, rfl⟩
  | ok _ =>
      rcases (ensures_add linkage token registry trivial).2 () outcome with
        ⟨canonical, layout, isCanonical, registered⟩
      rw [innermost] at isCanonical
      cases isCanonical
      rw [absent] at registered
      cases registered

theorem ensures_table (linkage : Linkage) (token : Token) :
    Ensures linkage (fun _ => True) (table linkage token)
      (fun table registry => Tabled linkage registry token table) := by
  have tables : Holds (growing linkage) (fun _ => True) (tableOf linkage token)
      (fun table registry => Tabled linkage registry token table ∧ True) :=
    holds_tableOf (fun _ _ _ _ => trivial) (fun _ _ _ _ _ => trivial)
  refine ensures_iff_holds.mpr (holds_bind (ensures_iff_holds.mp (ensures_add linkage token))
    (fun _ => (tables.strengthen (fun _ _ => trivial)).weaken (fun _ _ holds => holds.1)))

theorem grows_addFields (linkage : Linkage) (token : Token) (registry : Registry) :
    Grows linkage registry (addFields linkage token registry).2 := by
  have holds : Holds (growing linkage) (fun _ => True) (addFields linkage token)
      (fun _ _ => True) := by
    refine holds_get_bind (fun current _ => ?_)
    refine holds_lift_bind (fun _ _ _ _ => trivial) (fun catalog _ => ?_)
    refine holds_set (fun later same => ?_)
    rw [same]
    exact ⟨.catalog catalog .refl, trivial⟩
  exact (holds registry trivial).1

end Registry
end Dispatch
end CilGraph
