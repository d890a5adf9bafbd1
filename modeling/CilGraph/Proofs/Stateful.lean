import CilGraph.Error
import Mathlib.Data.List.Forall2
import Mathlib.Data.Option.Basic

namespace CilGraph
namespace Stateful

/-!
# Actions side by side

Two actions run abreast if they give the same answer from any two states that are
suited to each other.  Their states may be of different kinds.  What one action does to
its state is the special case in which it runs abreast of itself from the same state.

A rule for running abreast is proved once, for two actions in a row, for a traversal of
a list, and so on.  Each is also a rule for a single action.

Besides what holds before and after, there are terms that both runs are held to all the
time: how the states may change, also on the way to a failure, and what a failure says
about them.
-/

variable {State First Second Value Other Item : Type}

/-! ## Running -/

/-- Two actions in a row. -/
theorem bind_apply (action : Stateful State Value) (next : Value -> Stateful State Other)
    (state : State) :
    (action >>= next) state = match action state with
      | (.ok value, later) => next value later
      | (.error error, later) => (.error error, later) := by
  change ExceptT.bindCont next (action state).1 (action state).2 = _
  rcases action state with ⟨result, later⟩
  cases result with
  | error error => rfl
  | ok value => rfl

theorem lift_apply {result : Result Value} {value : Value} (obtained : result = .ok value)
    (state : State) : (liftM result : Stateful State Value) state = (.ok value, state) := by
  rw [obtained]
  rfl

/-! ## Two actions -/

/-- What two runs are held to all the time. -/
structure Terms (First Second : Type) where
  /-- How the two states may have changed. -/
  may : First -> Second -> First -> Second -> Prop
  /-- What holds of the states after a failure. -/
  failed : Error -> First -> Second -> Prop
  refl : forall first second, may first second first second
  trans : forall {first second between among last final}, may first second between among ->
    may between among last final -> may first second last final

/-- The states may change in any way, and after a failure something holds of them. -/
def Terms.failing (failed : Error -> First -> Second -> Prop) : Terms First Second where
  may _ _ _ _ := True
  failed := failed
  refl _ _ := trivial
  trans _ _ := trivial

/-- From states that satisfy `before`, two actions give the same answer and keep to the
terms.  If they succeed, the value and the states satisfy `after`. -/
def Abreast (terms : Terms First Second) (before : First -> Second -> Prop)
    (action : Stateful First Value) (other : Stateful Second Value)
    (after : Value -> First -> Second -> Prop) : Prop :=
  forall first second, before first second ->
    (action first).1 = (other second).1 ∧
    terms.may first second (action first).2 (other second).2 ∧
    (forall value, (action first).1 = .ok value ->
      after value (action first).2 (other second).2) ∧
    forall error, (action first).1 = .error error ->
      terms.failed error (action first).2 (other second).2

section Abreast

variable {terms : Terms First Second} {before kept : First -> Second -> Prop}
  {action : Stateful First Value} {other : Stateful Second Value}
  {after : Value -> First -> Second -> Prop}

theorem abreast_bind {middle : Value -> First -> Second -> Prop}
    {next : Value -> Stateful First Other} {following : Value -> Stateful Second Other}
    {after : Other -> First -> Second -> Prop}
    (ahead : Abreast terms before action other middle)
    (behind : forall value, Abreast terms (middle value) (next value) (following value) after) :
    Abreast terms before (action >>= next) (other >>= following) after := by
  intro first second holds
  have outcome := ahead first second holds
  rw [bind_apply, bind_apply]
  generalize action first = ran at outcome ⊢
  generalize other second = ranBeside at outcome ⊢
  rcases ran with ⟨result, between⟩
  rcases ranBeside with ⟨answer, among⟩
  rcases outcome with ⟨same, may, onSuccess, onFailure⟩
  cases (same : result = answer)
  cases result with
  | error error =>
      exact ⟨rfl, may, fun _ impossible => (nomatch impossible), fun failure isFailure =>
        onFailure failure (congrArg Except.error (Except.error.inj isFailure))⟩
  | ok value =>
      rcases behind value between among (onSuccess value rfl) with ⟨alike, mayMore, final⟩
      exact ⟨alike, terms.trans may mayMore, final⟩

/-- A result is the same on both sides, and it leaves the states alone. -/
theorem abreast_lift {result : Result Value}
    (excused : forall error first second, result = .error error -> before first second ->
      terms.failed error first second) :
    Abreast terms before (liftM result) (liftM result)
      (fun value first second => result = .ok value ∧ before first second) :=
  fun first second holds => ⟨rfl, terms.refl first second, fun _ succeeded => ⟨succeeded, holds⟩,
    fun error failed => excused error first second failed holds⟩

theorem abreast_lift_bind {result : Result Value} {next : Value -> Stateful First Other}
    {following : Value -> Stateful Second Other} {after : Other -> First -> Second -> Prop}
    (excused : forall error first second, result = .error error -> before first second ->
      terms.failed error first second)
    (behind : forall value, result = .ok value ->
      Abreast terms before (next value) (following value) after) :
    Abreast terms before (liftM result >>= next) (liftM result >>= following) after :=
  abreast_bind (abreast_lift excused) (fun value first second holds =>
    behind value holds.1 first second holds.2)

theorem abreast_pure {value : Value}
    (holds : forall first second, before first second -> after value first second) :
    Abreast terms before (pure value) (pure value) after :=
  fun first second given => ⟨rfl, terms.refl first second,
    fun _ same => Except.ok.inj same ▸ holds first second given,
    fun _ impossible => nomatch impossible⟩

theorem Abreast.weaken {weaker : Value -> First -> Second -> Prop}
    (abreast : Abreast terms before action other after)
    (implied : forall value first second, after value first second ->
      weaker value first second) : Abreast terms before action other weaker := by
  intro first second given
  rcases abreast first second given with ⟨same, may, onSuccess, onFailure⟩
  exact ⟨same, may, fun value succeeded => implied value _ _ (onSuccess value succeeded), onFailure⟩

/-- What the terms do not destroy may be carried past two actions. -/
theorem Abreast.keeping {lasting : First -> Second -> Prop}
    (stable : forall first second later last, terms.may first second later last ->
      lasting first second -> lasting later last)
    (abreast : Abreast terms before action other after) :
    Abreast terms (fun first second => lasting first second ∧ before first second) action other
      (fun value first second => lasting first second ∧ after value first second) := by
  rintro first second ⟨lasts, holds⟩
  rcases abreast first second holds with ⟨same, may, onSuccess, onFailure⟩
  exact ⟨same, may, fun value succeeded =>
    ⟨stable _ _ _ _ may lasts, onSuccess value succeeded⟩, onFailure⟩

variable {act : Item -> Stateful First Value} {beside : Item -> Stateful Second Value}
  {related : First -> Second -> Item -> Value -> Prop}

theorem abreast_mapM_option {item : Option Item}
    (each : forall value, item = some value -> Abreast terms kept (act value) (beside value)
      (fun result first second => related first second value result ∧ kept first second)) :
    Abreast terms kept (item.mapM act) (item.mapM beside)
      (fun result first second =>
        Option.Rel (related first second) item result ∧ kept first second) := by
  cases item with
  | none => exact abreast_pure (fun _ _ holds => ⟨.none, holds⟩)
  | some item =>
      refine abreast_bind (each item rfl) (fun value => ?_)
      exact abreast_pure (fun _ _ holds => ⟨.some holds.1, holds.2⟩)

theorem abreast_mapM_list
    (stable : forall first second later last item value, terms.may first second later last ->
      related first second item value -> related later last item value) {items : List Item}
    (each : forall item, item ∈ items -> Abreast terms kept (act item) (beside item)
      (fun value first second => related first second item value ∧ kept first second)) :
    Abreast terms kept (items.mapM act) (items.mapM beside)
      (fun values first second =>
        List.Forall₂ (related first second) items values ∧ kept first second) := by
  induction items with
  | nil =>
      rw [List.mapM_nil, List.mapM_nil]
      exact abreast_pure (fun _ _ holds => ⟨.nil, holds⟩)
  | cons item items inductionHypothesis =>
      rw [List.mapM_cons, List.mapM_cons]
      refine abreast_bind (each item List.mem_cons_self) (fun value => ?_)
      have later := inductionHypothesis
        (fun other member => each other (List.mem_cons_of_mem item member))
      have carried := later.keeping (fun first second between among may holds =>
        stable first second between among item value may holds)
      refine abreast_bind carried (fun values => ?_)
      exact abreast_pure (fun _ _ holds => ⟨.cons holds.1 holds.2.1, holds.2.2⟩)

end Abreast

/-! ## One action -/

/-- What a run is held to all the time. -/
structure Course (State : Type) where
  /-- How the state may have changed. -/
  may : State -> State -> Prop
  /-- What holds of the state after a failure. -/
  failed : Error -> State -> Prop
  refl : forall state, may state state
  trans : forall {first second third}, may first second -> may second third -> may first third

/-- The state may change in any way, and after a failure something holds of it. -/
def Course.failing (failed : Error -> State -> Prop) : Course State where
  may _ _ := True
  failed := failed
  refl _ := trivial
  trans _ _ := trivial

/-- A property of the state is not lost on the way. -/
def Course.keeping (kept : State -> Prop) : Course State where
  may first second := kept first -> kept second
  failed _ _ := True
  refl _ := id
  trans early late := late ∘ early

/-- A run and the same run beside it. -/
def Course.twice (course : Course State) : Terms State State where
  may first _ later _ := course.may first later
  failed error state _ := course.failed error state
  refl first _ := course.refl first
  trans := course.trans

/-- From a state that satisfies `before`, an action keeps to a course.  If it succeeds,
its value and the state satisfy `after`. -/
def Holds (course : Course State) (before : State -> Prop) (action : Stateful State Value)
    (after : Value -> State -> Prop) : Prop :=
  forall state, before state -> course.may state (action state).2 ∧
    (forall value, (action state).1 = .ok value -> after value (action state).2) ∧
    forall error, (action state).1 = .error error -> course.failed error (action state).2

section Holds

variable {course : Course State} {before kept : State -> Prop} {action : Stateful State Value}
  {after : Value -> State -> Prop}

/-- An action runs abreast of itself. -/
theorem holds_iff_abreast :
    Holds course before action after ↔
      Abreast course.twice (fun state other => state = other ∧ before state) action action
        (fun value state other => state = other ∧ after value state) := by
  constructor
  · rintro holds state _ ⟨rfl, given⟩
    rcases holds state given with ⟨may, onSuccess, onFailure⟩
    exact ⟨rfl, may, fun value succeeded => ⟨rfl, onSuccess value succeeded⟩, onFailure⟩
  · intro abreast state given
    rcases abreast state state ⟨rfl, given⟩ with ⟨_, may, onSuccess, onFailure⟩
    exact ⟨may, fun value succeeded => (onSuccess value succeeded).2, onFailure⟩

theorem holds_bind {middle : Value -> State -> Prop} {next : Value -> Stateful State Other}
    {after : Other -> State -> Prop} (first : Holds course before action middle)
    (second : forall value, Holds course (middle value) (next value) after) :
    Holds course before (action >>= next) after :=
  holds_iff_abreast.mpr (abreast_bind (holds_iff_abreast.mp first)
    (fun value => holds_iff_abreast.mp (second value)))

theorem holds_lift_bind {result : Result Value} {next : Value -> Stateful State Other}
    {after : Other -> State -> Prop}
    (excused : forall error state, result = .error error -> before state ->
      course.failed error state)
    (second : forall value, result = .ok value -> Holds course before (next value) after) :
    Holds course before (liftM result >>= next) after :=
  holds_iff_abreast.mpr (abreast_lift_bind
    (fun error state _ failed given => excused error state failed given.2)
    (fun value succeeded => holds_iff_abreast.mp (second value succeeded)))

theorem holds_pure {value : Value} (holds : forall state, before state -> after value state) :
    Holds course before (pure value) after :=
  holds_iff_abreast.mpr (abreast_pure (fun state _ given => ⟨given.1, holds state given.2⟩))

theorem holds_throw {error : Error}
    (excused : forall state, before state -> course.failed error state) :
    Holds course before (throw error : Stateful State Value) after :=
  fun state given => ⟨course.refl state, fun _ impossible => (nomatch impossible),
    fun _ same => Except.error.inj same ▸ excused state given⟩

theorem holds_get_bind {next : State -> Stateful State Other} {after : Other -> State -> Prop}
    (second : forall current, before current ->
      Holds course (fun state => state = current) (next current) after) :
    Holds course before (get >>= next) after :=
  fun state given => second state given state rfl

theorem holds_set {next : State} {after : PUnit -> State -> Prop}
    (allowed : forall current, before current -> course.may current next ∧ after ⟨⟩ next) :
    Holds course before (set next) after :=
  fun current given => ⟨(allowed current given).1, fun _ _ => (allowed current given).2,
    fun _ impossible => nomatch impossible⟩

theorem Holds.weaken {weaker : Value -> State -> Prop} (holds : Holds course before action after)
    (implied : forall value state, after value state -> weaker value state) :
    Holds course before action weaker := by
  intro state given
  rcases holds state given with ⟨may, onSuccess, onFailure⟩
  exact ⟨may, fun value succeeded => implied value _ (onSuccess value succeeded), onFailure⟩

theorem Holds.strengthen {stronger : State -> Prop} (holds : Holds course before action after)
    (implied : forall state, stronger state -> before state) :
    Holds course stronger action after :=
  fun state given => holds state (implied state given)

end Holds
end Stateful
end CilGraph
