import CilGraph.Proofs.Dispatch.Fields

namespace CilGraph
namespace Dispatch
namespace Registry

open Stateful

/-!
# Registries agree

Two registries that have grown from nothing need not hold the same types.  But a
type that is in both has the same layout in both, since a layout is determined
by the tables it is made from, and these were registered before it.

What one registry holds any other can be brought to hold.  Registering a type
fails if something on the way cannot be made, if the type waits for itself, or
if too many types wait.  A registry that holds the type shows that none of this
happens: everything was made once, in an order in which each layout comes after
those it needs.  The second registry may have some of the layouts and lack
others, and it may make them in another order.

A registry is within another if all its types are registered there.  Registering
more of these types keeps it within.
-/

section Agreement

variable {linkage : Linkage} {first second : Registry}

/-- The layouts of a registry with one more. -/
theorem layout?_enter (registry : Registry) (type other : Token) (layout : Layout)
    (catalog : Catalog) (fresh : registry.layout? type = none) :
    (⟨registry.layouts ++ [(type, layout)], catalog⟩ : Registry).layout? other =
      if other = type then some layout else registry.layout? other := by
  unfold Registry.layout? at fresh ⊢
  rw [List.lookup_append]
  by_cases same : other = type
  · rw [if_pos same, same, fresh, Option.none_or, List.lookup_cons_self]
  · rw [if_neg same, List.lookup_cons, beq_eq_false_iff_ne.mpr same]
    exact Option.or_none

/-- A type that is registered in two registries has the same layout in both. -/
theorem Grows.agree (grown : Grows linkage {} first) (other : Grows linkage {} second)
    {type : Token} {layout rival : Layout} (found : first.layout? type = some layout)
    (rivalFound : second.layout? type = some rival) : layout = rival := by
  induction grown generalizing type layout rival with
  | refl => cases found
  | catalog catalog _ inductionHypothesis => exact inductionHypothesis found rivalFound
  | @enter registry entered own catalog grown fresh made inductionHypothesis =>
      rw [layout?_enter registry entered type own catalog fresh] at found
      split at found
      · rename_i isEntered
        cases found
        rw [isEntered] at rivalFound
        refine made.eq_of_tables ?_ (other.made rivalFound)
        rintro token table table' ⟨inner, innerLayout, canonical, innerFound, isTable⟩
          ⟨inner', innerLayout', canonical', innerFound', isTable'⟩
        rw [canonical] at canonical'
        rw [← Except.ok.inj canonical'] at innerFound'
        rw [isTable, isTable', inductionHypothesis innerFound innerFound']
      · exact inductionHypothesis found rivalFound

theorem Tabled.agree (grown : Grows linkage {} first) (other : Grows linkage {} second)
    {token : Token} {table rival : Table} (tabled : Tabled linkage first token table)
    (rivalTabled : Tabled linkage second token rival) : table = rival := by
  rcases tabled with ⟨type, layout, canonical, found, isTable⟩
  rcases rivalTabled with ⟨type', layout', canonical', found', isTable'⟩
  rw [canonical] at canonical'
  rw [← Except.ok.inj canonical'] at found'
  rw [isTable, isTable', grown.agree other found found']

/-- Every registered type is a type of the program. -/
theorem Grows.mem_types (grown : Grows linkage {} first) {type : Token}
    (registered : type ∈ first.types) : type ∈ linkage.program.types.map TypeDef.token := by
  rcases mem_types_iff.mp registered with ⟨layout, found⟩
  rcases grown.made found with ⟨definition, resolved, base, interfaces, tables, origin⟩
  exact Program.mem_tokens_of_typeDef origin.declared

/-- What a layout needs was registered when it was made. -/
theorem Made.mem_types {token other type : Token} {layout : Layout}
    (made : Made linkage first token layout) (needs : Needs linkage token other)
    (canonical : linkage.program.innermost other = .ok type) : type ∈ first.types := by
  rcases made with ⟨_, _, _, _, _, origin⟩
  rcases origin.exists_tabled needs with ⟨_, inner, layout, sameCanonical, found, _⟩
  rw [canonical] at sameCanonical
  rw [Except.ok.inj sameCanonical]
  exact mem_types_iff.mpr ⟨layout, found⟩

/-- The types of a registry include all that their layouts need. -/
theorem Grows.sufficient (grown : Grows linkage {} first) :
    Sufficient linkage (fun type => type ∈ first.types) := by
  intro token other type registered needs canonical
  rcases mem_types_iff.mp registered with ⟨layout, found⟩
  exact (grown.made found).mem_types needs canonical

end Agreement

/-! ## Success -/

/-- An action yields a value and keeps a property of registries. -/
def Yields {Value : Type} (kept : Registry -> Prop) (action : Action Value) (value : Value) :
    Prop :=
  forall registry, kept registry -> exists later, action registry = (.ok value, later) ∧ kept later

theorem Yields.unique {Value : Type} {kept : Registry -> Prop} {action : Action Value}
    {value other : Value} {registry : Registry} (yields : Yields kept action value)
    (rival : Yields kept action other) (holds : kept registry) : value = other := by
  rcases yields registry holds with ⟨_, acted, _⟩
  rcases rival registry holds with ⟨_, actedAgain, _⟩
  rw [acted] at actedAgain
  exact Except.ok.inj (Prod.mk.inj actedAgain).1

/-- Once the tables are there, a layout is made by sorting methods. -/
theorem makeLayout_apply {linkage : Linkage} {kept : Registry -> Prop}
    {obtain : Token -> Action Table} {token : Token} {type resolved : TypeDef}
    {base : Option Table} {interfaces : List Token} {tables : List Table} {registry : Registry}
    (parts : Parts linkage (fun other => Yields kept (obtain other)) token type resolved base
      interfaces tables) (holds : kept registry) :
    exists later, makeLayout linkage obtain token registry =
      ((Layout.start type resolved.token base tables).addMethods linkage, later) ∧ kept later := by
  have unique : forall other table rival, Yields kept (obtain other) table ->
      Yields kept (obtain other) rival -> table = rival :=
    fun _ _ _ yields rival => yields.unique rival holds
  have obtains : forall other, Needs linkage token other ->
      Holds (.failing (fun error later =>
          (Layout.start type resolved.token base tables).addMethods linkage = .error error ∧
            kept later)) kept (obtain other)
        (fun table later => Yields kept (obtain other) table ∧ kept later) := by
    intro other needs current given
    rcases parts.exists_tabled needs with ⟨table, yields⟩
    rcases yields current given with ⟨later, acted, holdsThen⟩
    rw [acted]
    exact ⟨trivial, fun _ same => Except.ok.inj same ▸ ⟨yields, holdsThen⟩,
      fun _ impossible => nomatch impossible⟩
  have makes := holds_makeLayout (fun _ _ _ _ _ yields => yields) obtains
    (fun _ _ hinders given => ⟨hinders.unsorted parts unique, given⟩)
  rcases makes registry holds with ⟨_, onSuccess, onFailure⟩
  generalize makeLayout linkage obtain token registry = ran at onSuccess onFailure
  rcases ran with ⟨result, later⟩
  cases result with
  | error error =>
      rcases onFailure error rfl with ⟨unsorted, holdsThen⟩
      exact ⟨later, by rw [unsorted], holdsThen⟩
  | ok layout =>
      rcases onSuccess layout rfl with ⟨⟨_, _, _, _, _, others, sorted⟩, holdsThen⟩
      rcases parts.unique others unique with ⟨rfl, rfl, rfl, rfl⟩
      exact ⟨later, by rw [sorted], holdsThen⟩

section Success

variable {linkage : Linkage} {model registry : Registry}

/-- A registry that has grown from nothing and lacks the types that wait. -/
def Ready (linkage : Linkage) (waiting : List Token) (registry : Registry) : Prop :=
  Grows linkage {} registry ∧ Spares waiting registry

theorem ready_of_addWith {waiting : List Token} {token : Token} {fuel : Nat} {later : Registry}
    (ready : Ready linkage waiting registry)
    (added : addWith linkage fuel waiting token registry = (.ok (), later)) :
    Ready linkage waiting later ∧ exists type layout,
      linkage.program.innermost token = .ok type ∧ later.layout? type = some layout := by
  have nothing : Preserved linkage (fun _ => True) (fun _ => True) :=
    fun _ _ _ _ _ _ _ _ _ => trivial
  rcases ensures_addWith (sufficient_everything linkage) nothing fuel waiting token
    (fun _ _ => trivial) registry ⟨ready.2, trivial⟩ with ⟨grows, reached⟩
  rw [added] at grows reached
  rcases reached () rfl with ⟨found, spares, _⟩
  exact ⟨⟨ready.1.trans grows, spares⟩, found⟩

/-- Once a type is registered, its table is the one that it has elsewhere. -/
theorem yields_obtain {waiting : List Token} {token : Token} {fuel : Nat} {table : Table}
    (grown : Grows linkage {} model) (tabled : Tabled linkage model token table)
    (adds : Yields (Ready linkage waiting) (addWith linkage fuel waiting token) ()) :
    Yields (Ready linkage waiting) (do
      addWith linkage fuel waiting token
      tableOf linkage token) table := by
  intro registry ready
  rcases adds registry ready with ⟨later, added, readyLater⟩
  rcases (ready_of_addWith ready added).2 with ⟨type, layout, canonical, found⟩
  have tabledLater : Tabled linkage later token layout.table :=
    ⟨type, layout, canonical, found, rfl⟩
  refine ⟨later, ?_, readyLater⟩
  rw [bind_apply, added]
  dsimp only
  rw [tableOf_of_layout canonical found, tabledLater.agree readyLater.1 grown tabled]

/-- A layout that was made once is made again, whatever is registered now. -/
theorem yields_makeLayout {kept : Registry -> Prop} {obtain : Token -> Action Table}
    {token : Token} {layout : Layout} (made : Made linkage model token layout)
    (obtains : forall other table, Tabled linkage model other table ->
      Yields kept (obtain other) table) :
    Yields kept (makeLayout linkage obtain token) layout := by
  intro registry holds
  rcases made with ⟨_, _, _, _, _, origin⟩
  rw [← origin.sorted]
  exact makeLayout_apply (origin.imp obtains) holds

/-- What a registry holds can be registered.  The induction is on how that
registry has grown, so a layout that is needed was there before, and the types
that wait have not been entered yet. -/
theorem yields_addWith (grown : Grows linkage {} model)
    (describable : forall type, type ∈ model.types -> Catalog.Describable linkage type)
    {type token : Token} {fuel : Nat} {waiting : List Token}
    (canonical : linkage.program.innermost token = .ok type) (registered : type ∈ model.types)
    (spares : Spares waiting model) (enough : model.layouts.length < fuel) :
    Yields (Ready linkage waiting) (addWith linkage fuel waiting token) () := by
  induction grown generalizing type token fuel waiting with
  | refl => cases registered
  | catalog catalog _ inductionHypothesis =>
      exact inductionHypothesis describable canonical registered spares enough
  | @enter earlier entered own catalog grownEarlier fresh made inductionHypothesis =>
      rw [types_enter] at registered describable
      rw [List.length_append, List.length_singleton] at enough
      have sparesEarlier : Spares waiting earlier := by
        intro other waits
        have none := layout?_eq_none_iff.mp (spares other waits)
        rw [types_enter] at none
        exact layout?_eq_none_iff.mpr (fun among => none (List.mem_append_left _ among))
      have describableEarlier : forall other, other ∈ earlier.types ->
          Catalog.Describable linkage other :=
        fun other among => describable other (List.mem_append_left _ among)
      rcases List.mem_append.mp registered with wasThere | isNew
      · exact inductionHypothesis describableEarlier canonical wasThere sparesEarlier (by omega)
      · rw [List.mem_singleton.mp isNew] at canonical
        have idle : entered ∉ waiting := by
          intro waits
          have none := layout?_eq_none_iff.mp (spares entered waits)
          rw [types_enter] at none
          exact none (List.mem_append_right _ List.mem_cons_self)
        cases fuel with
        | zero => exact absurd enough (Nat.not_lt_zero _)
        | succ fuel =>
            intro registry ready
            suffices succeeds : exists later,
                addWith linkage (fuel + 1) waiting token registry = (.ok (), later) by
              rcases succeeds with ⟨later, added⟩
              exact ⟨later, added, (ready_of_addWith ready added).1⟩
            cases found : registry.layout? entered with
            | some layout => exact ⟨registry, addWith_of_layout canonical found⟩
            | none =>
                have enoughEarlier : earlier.layouts.length < fuel := by omega
                have sparesMore : Spares (entered :: waiting) earlier :=
                  List.forall_mem_cons.mpr ⟨fresh, sparesEarlier⟩
                have readyMore : Ready linkage (entered :: waiting) registry :=
                  ⟨ready.1, List.forall_mem_cons.mpr ⟨found, ready.2⟩⟩
                have obtains : forall other table, Tabled linkage earlier other table ->
                    Yields (Ready linkage (entered :: waiting)) (do
                      addWith linkage fuel (entered :: waiting) other
                      tableOf linkage other) table := by
                  intro other table tabled
                  refine yields_obtain grownEarlier tabled ?_
                  rcases tabled with ⟨inner, layout, innerCanonical, innerFound, _⟩
                  exact inductionHypothesis describableEarlier innerCanonical
                    (mem_types_iff.mpr ⟨layout, innerFound⟩) sparesMore enoughEarlier
                rcases yields_makeLayout made obtains registry readyMore with
                  ⟨between, madeAgain, _⟩
                have isDescribable := describable entered
                  (List.mem_append_right _ List.mem_cons_self)
                rcases Catalog.add_of_describable isDescribable between.catalog with
                  ⟨next, enteredNext⟩
                refine ⟨⟨between.layouts ++ [(entered, own)], next⟩, ?_⟩
                rw [addWith_of_missing canonical found idle, bind_apply, madeAgain]
                exact enter_of_add enteredNext

/-- Whatever is registered now, a type that is registered in another registry can
be registered. -/
theorem add_of_mem_types (grown : Grows linkage {} model)
    (describable : forall type, type ∈ model.types -> Catalog.Describable linkage type)
    (now : Grows linkage {} registry) {type token : Token}
    (canonical : linkage.program.innermost token = .ok type) (registered : type ∈ model.types) :
    exists later, add linkage token registry = (.ok (), later) := by
  have noneWaits : forall registry : Registry, Spares [] registry :=
    fun _ _ member => absurd member List.not_mem_nil
  have included : model.types ⊆ linkage.program.types.map TypeDef.token :=
    fun other among => grown.mem_types among
  have bound := ((grown.nodup_types List.nodup_nil).subperm included).length_le
  rw [List.length_map, types, List.length_map] at bound
  rcases yields_addWith grown describable canonical registered (noneWaits model)
    (Nat.lt_succ_of_le bound) registry ⟨now, noneWaits registry⟩ with ⟨later, added, _⟩
  exact ⟨later, added⟩

end Success

/-! ## Registries within a registry -/

/-- A registry has grown from nothing and holds no type that another does not. -/
structure Within (linkage : Linkage) (model registry : Registry) : Prop where
  grown : Grows linkage {} registry
  stocked : Stocked linkage registry
  types : registry.types ⊆ model.types

section Within

variable {linkage : Linkage} {model registry : Registry} {token type : Token}

theorem Within.add (within : Within linkage model registry)
    (wellFormed : linkage.program.WellFormed) (grown : Grows linkage {} model)
    (stocked : Stocked linkage model) (canonical : linkage.program.innermost token = .ok type)
    (registered : type ∈ model.types) :
    exists later, Registry.add linkage token registry = (.ok (), later) ∧
      Within linkage model later ∧ type ∈ later.types := by
  rcases add_of_mem_types grown (fun _ member => stocked.describable member) within.grown
    canonical registered with ⟨later, added⟩
  have succeeded : (Registry.add linkage token registry).1 = .ok () := by rw [added]
  have isLater : (Registry.add linkage token registry).2 = later := by rw [added]
  rcases ensures_add linkage token registry trivial with ⟨grows, reached⟩
  rcases reached () succeeded with ⟨inner, layout, sameCanonical, found⟩
  have stockedThen := within.stocked.add wellFormed canonical succeeded
  have typesThen := kept_add grown.sufficient confined_preserved canonical registered
    (fun _ member => within.types member) succeeded
  rw [canonical] at sameCanonical
  rw [← Except.ok.inj sameCanonical] at found
  rw [isLater] at grows found stockedThen typesThen
  exact ⟨later, added, ⟨within.grown.trans grows, stockedThen, typesThen⟩,
    mem_types_iff.mpr ⟨layout, found⟩⟩

/-- The table that is read is the one that the other registry has. -/
theorem Within.table (within : Within linkage model registry)
    (wellFormed : linkage.program.WellFormed) (grown : Grows linkage {} model)
    (stocked : Stocked linkage model) {layout : Layout}
    (found : model.layout? type = some layout) :
    exists later, Registry.table linkage type registry = (.ok layout.table, later) ∧
      Within linkage model later := by
  rcases grown.made found with ⟨_, _, _, _, _, origin⟩
  rcases within.add wellFormed grown stocked origin.plain (mem_types_iff.mpr ⟨layout, found⟩) with
    ⟨later, added, withinLater, registered⟩
  rcases mem_types_iff.mp registered with ⟨own, ownFound⟩
  refine ⟨later, ?_, withinLater⟩
  unfold Registry.table
  rw [bind_apply, added]
  dsimp only
  rw [tableOf_of_layout origin.plain ownFound, withinLater.grown.agree grown ownFound found]

theorem Within.addFields (within : Within linkage model registry)
    (wellFormed : linkage.program.WellFormed) {definition : TypeDef}
    (declared : linkage.program.typeDef type = .ok definition)
    (describable : Catalog.Describable linkage type) :
    exists later, Registry.addFields linkage type registry = (.ok (), later) ∧
      Within linkage model later ∧ exists fields, later.catalog.get? type = some fields := by
  rcases Catalog.add_of_describable describable registry.catalog with ⟨catalog, entered⟩
  refine ⟨{ registry with catalog := catalog }, ?_, ⟨.catalog catalog within.grown,
    within.stocked.catalog wellFormed declared entered, within.types⟩,
    Catalog.get?_add wellFormed declared entered⟩
  rw [addFields_apply, entered]

end Within

end Registry
end Dispatch
end CilGraph
