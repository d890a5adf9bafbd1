import CilGraph.Attempt
import Mathlib.Data.List.Forall2

namespace CilGraph

/-!
# What a success says about its parts

A computation that succeeds has succeeded at every step on the way.  The
statements here take a success apart: a sequence into its two halves, a loop
over a list into its rounds.  They are the only place where the monads of
results and attempts are opened, so that everything later speaks of values that
were obtained and not of how they were passed on.

An attempt also has discoveries.  That an attempt yields a value means that it
succeeds with it, and `Yields` names the discoveries on the way as well.
-/

namespace Result

theorem bind_eq_ok {Failure First Second : Type} {result : Except Failure First}
    {next : First -> Except Failure Second} {second : Second} :
    (result >>= next) = .ok second ↔
      exists first, result = .ok first ∧ next first = .ok second := by
  cases result with
  | error error =>
      constructor
      · exact fun impossible => nomatch impossible
      · rintro ⟨first, impossible, _⟩
        cases impossible
  | ok value =>
      constructor
      · exact fun continued => ⟨value, rfl, continued⟩
      · rintro ⟨first, same, continued⟩
        cases same
        exact continued

/-- A sequence succeeds if both halves do. -/
theorem exists_bind {First Second : Type} {result : Result First} {next : First -> Result Second}
    {first : First} (succeeds : result = .ok first)
    (continues : exists second, next first = .ok second) :
    exists second, (result >>= next) = .ok second := by
  rcases continues with ⟨second, continued⟩
  exact ⟨second, bind_eq_ok.mpr ⟨first, succeeds, continued⟩⟩

/-- A sequence that fails has failed in one of its halves. -/
theorem bind_eq_error {First Second : Type} {result : Result First}
    {next : First -> Result Second} {error : Error} :
    (result >>= next) = .error error ↔
      result = .error error ∨ exists first, result = .ok first ∧ next first = .error error := by
  cases result with
  | error other =>
      constructor
      · exact fun failed => Or.inl (congrArg Except.error (Except.error.inj failed))
      · rintro (failed | ⟨first, impossible, _⟩)
        · cases failed
          rfl
        · cases impossible
  | ok value =>
      constructor
      · exact fun failed => Or.inr ⟨value, rfl, failed⟩
      · rintro (impossible | ⟨first, same, failed⟩)
        · cases impossible
        · cases same
          exact failed

theorem map_eq_ok {First Second : Type} {result : Result First} {change : First -> Second}
    {second : Second} :
    result.map change = .ok second ↔ exists first, result = .ok first ∧ change first = second := by
  cases result with
  | error error =>
      constructor
      · exact fun impossible => nomatch impossible
      · rintro ⟨first, impossible, _⟩
        cases impossible
  | ok value =>
      constructor
      · exact fun same => ⟨value, rfl, Except.ok.inj same⟩
      · rintro ⟨first, same, changed⟩
        cases same
        exact congrArg Except.ok changed

theorem mapError_eq_ok {Failure Other Value : Type} {result : Except Failure Value}
    {change : Failure -> Other} {value : Value} :
    result.mapError change = .ok value ↔ result = .ok value := by
  cases result with
  | error failure => exact ⟨nofun, nofun⟩
  | ok found => exact ⟨fun same => congrArg Except.ok (Except.ok.inj same),
      fun same => congrArg Except.ok (Except.ok.inj same)⟩

/-- A result that is known to be there is what is found in it. -/
theorem eq_ok_getD {Value : Type} {result : Result Value} (succeeds : result.isOk = true)
    (fallback : Value) : result = .ok (result.toOption.getD fallback) := by
  cases result with
  | error error => cases succeeds
  | ok value => rfl

/-- A loop over a list that succeeds gives one result for each item, in order. -/
theorem mapM_eq_ok {Item Value : Type} {action : Item -> Result Value} {items : List Item}
    {values : List Value} (succeeded : items.mapM action = .ok values) :
    List.Forall₂ (fun item value => action item = .ok value) items values := by
  induction items generalizing values with
  | nil =>
      rw [List.mapM_nil] at succeeded
      cases succeeded
      exact List.Forall₂.nil
  | cons item items inductionHypothesis =>
      rw [List.mapM_cons] at succeeded
      rcases bind_eq_ok.mp succeeded with ⟨value, first, continued⟩
      rcases bind_eq_ok.mp continued with ⟨others, rest, assembled⟩
      cases assembled
      exact List.Forall₂.cons first (inductionHypothesis rest)

/-- A loop succeeds if it succeeds for every item. -/
theorem mapM_of_forall₂ {Item Value : Type} {action : Item -> Result Value} {items : List Item}
    {values : List Value}
    (each : List.Forall₂ (fun item value => action item = .ok value) items values) :
    items.mapM action = .ok values := by
  induction each with
  | nil => rw [List.mapM_nil]; rfl
  | cons first rest inductionHypothesis =>
      rw [List.mapM_cons]
      exact bind_eq_ok.mpr ⟨_, first, bind_eq_ok.mpr ⟨_, inductionHypothesis, rfl⟩⟩

/-- A loop in which every round succeeds. -/
theorem exists_mapM {Item Value : Type} {action : Item -> Result Value} {items : List Item}
    (each : forall item, item ∈ items -> exists value, action item = .ok value) :
    exists values, items.mapM action = .ok values := by
  induction items with
  | nil => exact ⟨[], mapM_of_forall₂ .nil⟩
  | cons item items inductionHypothesis =>
      rcases List.forall_mem_cons.mp each with ⟨ofItem, ofItems⟩
      rcases ofItem with ⟨value, acted⟩
      rcases inductionHypothesis ofItems with ⟨values, looped⟩
      exact ⟨value :: values, mapM_of_forall₂ (.cons acted (mapM_eq_ok looped))⟩

/-- What stands on the right of paired lists has a partner on the left. -/
theorem exists_of_mem_right {Item Value : Type} {related : Item -> Value -> Prop}
    {items : List Item} {values : List Value} (paired : List.Forall₂ related items values)
    {value : Value} (member : value ∈ values) : exists item, item ∈ items ∧ related item value := by
  induction paired with
  | nil => cases member
  | cons first rest inductionHypothesis =>
      rcases List.mem_cons.mp member with same | later
      · exact ⟨_, List.mem_cons_self, same ▸ first⟩
      · rcases inductionHypothesis later with ⟨item, among, holds⟩
        exact ⟨item, List.mem_cons_of_mem _ among, holds⟩

/-- What stands on the left of paired lists has a partner on the right. -/
theorem exists_of_mem_left {Item Value : Type} {related : Item -> Value -> Prop}
    {items : List Item} {values : List Value} (paired : List.Forall₂ related items values)
    {item : Item} (member : item ∈ items) : exists value, value ∈ values ∧ related item value :=
  exists_of_mem_right paired.flip member

/-- Every result of a loop comes from an item. -/
theorem exists_of_mem_mapM {Item Value : Type} {action : Item -> Result Value} {items : List Item}
    {values : List Value} (succeeded : items.mapM action = .ok values) {value : Value}
    (member : value ∈ values) : exists item, item ∈ items ∧ action item = .ok value :=
  exists_of_mem_right (mapM_eq_ok succeeded) member

/-- A loop in which every round succeeds with something good. -/
theorem exists_mapM_forall {Item Value : Type} {action : Item -> Result Value} {items : List Item}
    {good : Value -> Prop}
    (each : forall item, item ∈ items -> exists value, action item = .ok value ∧ good value) :
    exists values, items.mapM action = .ok values ∧ forall value, value ∈ values -> good value := by
  have succeeds : forall item, item ∈ items -> exists value, action item = .ok value := by
    intro item member
    rcases each item member with ⟨value, acted, _⟩
    exact ⟨value, acted⟩
  rcases exists_mapM succeeds with ⟨values, looped⟩
  refine ⟨values, looped, ?_⟩
  intro value member
  rcases exists_of_mem_mapM looped member with ⟨item, among, acted⟩
  rcases each item among with ⟨other, actedAgain, isGood⟩
  rw [acted] at actedAgain
  cases actedAgain
  exact isGood

/-- A search in which every round succeeds. -/
theorem exists_findSomeM? {Item Value : Type} {action : Item -> Result (Option Value)}
    {items : List Item}
    (each : forall item, item ∈ items -> exists found, action item = .ok found) :
    exists found, items.findSomeM? action = .ok found := by
  induction items with
  | nil => exact ⟨none, rfl⟩
  | cons item items inductionHypothesis =>
      rcases List.forall_mem_cons.mp each with ⟨⟨found, acted⟩, ofItems⟩
      cases found with
      | some value => exact ⟨some value, bind_eq_ok.mpr ⟨some value, acted, rfl⟩⟩
      | none =>
          rcases inductionHypothesis ofItems with ⟨later, searched⟩
          exact ⟨later, bind_eq_ok.mpr ⟨none, acted, searched⟩⟩

/-- A loop that fails has done some rounds and failed in the next. -/
theorem exists_of_foldlM_error {Item Value : Type} {action : Value -> Item -> Result Value}
    {items : List Item} {start : Value} {error : Error}
    (failed : items.foldlM action start = .error error) :
    exists front item back value, items = front ++ item :: back ∧
      front.foldlM action start = .ok value ∧ action value item = .error error := by
  induction items generalizing start with
  | nil => cases failed
  | cons first rest inductionHypothesis =>
      rw [List.foldlM_cons] at failed
      rcases bind_eq_error.mp failed with failsHere | ⟨next, acted, failsLater⟩
      · exact ⟨[], first, rest, start, rfl, rfl, failsHere⟩
      · rcases inductionHypothesis failsLater with ⟨front, item, back, value, split, folded, fails⟩
        refine ⟨first :: front, item, back, value, ?_, ?_, fails⟩
        · rw [split, List.cons_append]
        · rw [List.foldlM_cons]
          exact bind_eq_ok.mpr ⟨next, acted, folded⟩

/-- A loop over a list that fails has succeeded for the items before the one that fails. -/
theorem exists_of_mapM_error {Item Value : Type} {action : Item -> Result Value}
    {items : List Item} {error : Error} (failed : items.mapM action = .error error) :
    exists front item back, items = front ++ item :: back ∧
      (forall earlier, earlier ∈ front -> exists value, action earlier = .ok value) ∧
      action item = .error error := by
  induction items with
  | nil =>
      rw [List.mapM_nil] at failed
      cases failed
  | cons first rest inductionHypothesis =>
      rw [List.mapM_cons] at failed
      rcases bind_eq_error.mp failed with failsHere | ⟨value, acted, continued⟩
      · exact ⟨[], first, rest, rfl, fun _ member => absurd member List.not_mem_nil, failsHere⟩
      · rcases bind_eq_error.mp continued with failsLater | ⟨values, _, impossible⟩
        · rcases inductionHypothesis failsLater with ⟨front, item, back, split, succeed, fails⟩
          exact ⟨first :: front, item, back, congrArg (first :: ·) split,
            List.forall_mem_cons.mpr ⟨⟨value, acted⟩, succeed⟩, fails⟩
        · cases impossible

/-- A loop of checks that succeeds has passed every check. -/
theorem forIn_eq_ok {Item : Type} {action : Item -> Result PUnit} {items : List Item}
    {result : PUnit}
    (succeeded : (forIn items PUnit.unit fun item _ => do
      action item
      pure (ForInStep.yield PUnit.unit)) = .ok result)
    {item : Item} (member : item ∈ items) : action item = .ok PUnit.unit := by
  induction items with
  | nil => cases member
  | cons first rest inductionHypothesis =>
      rw [List.forIn_cons] at succeeded
      rcases bind_eq_ok.mp succeeded with ⟨outcome, acted, continued⟩
      rcases bind_eq_ok.mp acted with ⟨_, now, yielded⟩
      cases yielded
      rcases List.mem_cons.mp member with same | later
      · rw [same]
        exact now
      · exact inductionHypothesis continued later

theorem forM_eq_ok {Item : Type} {action : Item -> Result PUnit} {items : List Item}
    {result : PUnit} (succeeded : items.forM action = .ok result) {item : Item}
    (member : item ∈ items) : action item = .ok PUnit.unit := by
  induction items with
  | nil => cases member
  | cons first rest inductionHypothesis =>
      rw [List.forM_eq_forM, List.forM_cons] at succeeded
      rcases bind_eq_ok.mp succeeded with ⟨_, now, continued⟩
      rcases List.mem_cons.mp member with same | later
      · rw [same]
        exact now
      · exact inductionHypothesis continued later

end Result

/-! ## Paired lists -/

/-- Two lists that are paired with the same list are paired with each other. -/
theorem forall₂_of_shared {Item First Second : Type} {ofFirst : Item -> First -> Prop}
    {ofSecond : Item -> Second -> Prop} {related : First -> Second -> Prop} {items : List Item}
    {firsts : List First} {seconds : List Second}
    (each : forall item first second, ofFirst item first -> ofSecond item second ->
      related first second) (left : List.Forall₂ ofFirst items firsts)
    (right : List.Forall₂ ofSecond items seconds) : List.Forall₂ related firsts seconds := by
  induction left generalizing seconds with
  | nil =>
      cases right
      exact .nil
  | cons first _ inductionHypothesis =>
      cases right with
      | cons second rest => exact .cons (each _ _ _ first second) (inductionHypothesis rest)

/-- Lists that are collected from the same items are paired if the parts from each
item are. -/
theorem forall₂_flatMap {Item Left Right : Type} {related : Left -> Right -> Prop}
    {items : List Item} {left : Item -> List Left} {right : Item -> List Right}
    (each : forall item, item ∈ items -> List.Forall₂ related (left item) (right item)) :
    List.Forall₂ related (items.flatMap left) (items.flatMap right) := by
  have same : List.Forall₂ (fun first second => first = second ∧ first ∈ items) items items :=
    List.forall₂_same.mpr (fun item member => ⟨rfl, member⟩)
  apply List.rel_flatMap same
  rintro item _ ⟨rfl, member⟩
  exact each item member

/-- What is chosen from two lists agrees if it agrees for all pairs. -/
theorem filterMap_eq_of_forall₂ {First Second Chosen : Type} {related : First -> Second -> Prop}
    {firsts : List First} {seconds : List Second} {ofFirst : First -> Option Chosen}
    {ofSecond : Second -> Option Chosen} (paired : List.Forall₂ related firsts seconds)
    (agree : forall first, first ∈ firsts -> forall second, second ∈ seconds ->
      related first second -> ofFirst first = ofSecond second) :
    firsts.filterMap ofFirst = seconds.filterMap ofSecond := by
  induction paired with
  | nil => rfl
  | cons relates _ inductionHypothesis =>
      have later := inductionHypothesis (fun first member second among =>
        agree first (List.mem_cons_of_mem _ member) second (List.mem_cons_of_mem _ among))
      rw [List.filterMap_cons, List.filterMap_cons, later,
        agree _ List.mem_cons_self _ List.mem_cons_self relates]

namespace Attempt

/-- An attempt succeeds with a value after exactly these discoveries. -/
def Yields {Value : Type} (attempt : Attempt Value) (discoveries : List Discovery)
    (value : Value) : Prop :=
  attempt = ⟨discoveries, .ok value⟩

variable {Value Other : Type} {discoveries : List Discovery}

theorem yields_of_result {attempt : Attempt Value} {value : Value}
    (succeeded : attempt.result = .ok value) : attempt.Yields attempt.discoveries value := by
  rw [Yields, ← succeeded]

theorem yields_pure {value other : Value} :
    (pure value : Attempt Value).Yields discoveries other ↔ discoveries = [] ∧ value = other := by
  constructor
  · intro yielded
    cases yielded
    exact ⟨rfl, rfl⟩
  · rintro ⟨none, same⟩
    rw [none, same]
    rfl

theorem yields_lift {result : Result Value} {value : Value} :
    (liftM result : Attempt Value).Yields discoveries value ↔
      discoveries = [] ∧ result = .ok value := by
  constructor
  · intro yielded
    cases yielded
    exact ⟨rfl, rfl⟩
  · rintro ⟨none, same⟩
    rw [none, same]
    rfl

theorem yields_discover {discovery : Discovery} {value : Unit} :
    (discover discovery).Yields discoveries value ↔ discoveries = [discovery] := by
  constructor
  · intro yielded
    cases yielded
    rfl
  · intro same
    rw [same]
    rfl

theorem not_yields_fail {error : Error} {value : Value} :
    ¬ (fail error : Attempt Value).Yields discoveries value := by
  intro yielded
  cases yielded

/-- A sequence yields what its second half yields, and the discoveries of both. -/
theorem yields_bind {attempt : Attempt Value} {next : Value -> Attempt Other} {other : Other} :
    (attempt >>= next).Yields discoveries other ↔
      exists before value after, attempt.Yields before value ∧ (next value).Yields after other ∧
        discoveries = before ++ after := by
  rcases attempt with ⟨before, result⟩
  cases result with
  | error error =>
      constructor
      · intro yielded
        cases yielded
      · rintro ⟨_, _, _, impossible, _⟩
        cases impossible
  | ok value =>
      constructor
      · intro yielded
        refine ⟨before, value, (next value).discoveries, rfl, ?_, ?_⟩
        · exact yields_of_result (congrArg Attempt.result yielded)
        · exact (congrArg Attempt.discoveries yielded).symm
      · rintro ⟨_, _, after, first, second, together⟩
        cases first
        rw [together]
        change (⟨before ++ (next value).discoveries, (next value).result⟩ : Attempt Other) = _
        rw [show next value = ⟨after, .ok other⟩ from second]

/-- A sequence that begins with a plain result adds no discovery to its second half. -/
theorem yields_lift_bind {result : Result Value} {next : Value -> Attempt Other} {other : Other} :
    ((liftM result : Attempt Value) >>= next).Yields discoveries other ↔
      exists value, result = .ok value ∧ (next value).Yields discoveries other := by
  rw [yields_bind]
  constructor
  · rintro ⟨before, value, after, lifted, continued, together⟩
    rcases yields_lift.mp lifted with ⟨none, obtained⟩
    rw [none, List.nil_append] at together
    exact ⟨value, obtained, together ▸ continued⟩
  · rintro ⟨value, obtained, continued⟩
    exact ⟨[], value, discoveries, yields_lift.mpr ⟨rfl, obtained⟩, continued, rfl⟩

/-- A sequence that begins with a discovery reports it first. -/
theorem yields_discover_bind {discovery : Discovery} {next : Unit -> Attempt Other}
    {other : Other} :
    (discover discovery >>= next).Yields discoveries other ↔
      exists after, (next ()).Yields after other ∧ discoveries = discovery :: after := by
  rw [yields_bind]
  constructor
  · rintro ⟨before, value, after, discovered, continued, together⟩
    rw [yields_discover.mp discovered] at together
    exact ⟨after, continued, together⟩
  · rintro ⟨after, continued, together⟩
    exact ⟨[discovery], (), after, yields_discover.mpr rfl, continued, together⟩

theorem result_bind (attempt : Attempt Value) (next : Value -> Attempt Other) :
    (attempt >>= next).result = attempt.result >>= fun value => (next value).result := by
  rcases attempt with ⟨before, result⟩
  cases result <;> rfl

/-- Changing the error of a failure changes no success. -/
theorem yields_mapError {attempt : Attempt Value} {change : Error -> Error} {value : Value} :
    (attempt.mapError change).Yields discoveries value ↔ attempt.Yields discoveries value := by
  rcases attempt with ⟨before, result⟩
  cases result with
  | error error =>
      exact ⟨fun impossible => (nomatch impossible), fun impossible => (nomatch impossible)⟩
  | ok value => exact Iff.rfl

end Attempt
end CilGraph
