import CilGraph.Proofs.Dispatch.Agreement

namespace CilGraph
namespace Dispatch

/-!
# Types in progress

A registry passes the types whose layouts wait as an argument from call to call.
A workshop has them in its state instead: a type is put there before its layout
is made and taken out afterwards, also when the layout could not be made, and
only then is the failure passed on.

Both ways come to the same.  Whoever starts with some types in progress ends
with the same types in progress, whatever happened on the way.  So between two
calls from outside nothing is in progress.

Calls are nested.  A workshop leaves open what is done when they are nested too
deeply, and the answers are shown not to depend on it.  The types in progress
are different types of the program, so more than all types are never needed.
-/

/-- A registry and the types whose layouts are being made. -/
structure Workshop where
  registry : Registry := {}
  inProgress : List Token := []

namespace Workshop

open Stateful

/-- An action on a workshop, which may change it also when it fails. -/
abbrev Task (Value : Type) : Type :=
  Stateful Workshop Value

/-- Act on the registry alone. -/
def onRegistry {Value : Type} (action : Registry.Action Value) : Task Value :=
  fun workshop =>
    let (result, registry) := action workshop.registry
    (result, ⟨registry, workshop.inProgress⟩)

/-- Do something about a type while it is in progress.  A failure is passed on
after the type has been taken out again. -/
def during {Value : Type} (type : Token) (task : Task Value) : Task Value :=
  fun workshop =>
    let (result, later) := task ⟨workshop.registry, type :: workshop.inProgress⟩
    (result, ⟨later.registry, later.inProgress.erase type⟩)

/-- Register a type by calls that are nested up to a depth.  Beyond it, anything
may be done. -/
def addWith (linkage : Linkage) (beyond : Token -> Task Unit) : Nat -> Token -> Task Unit
  | 0, token => beyond token
  | depth + 1, token => do
    let type ← linkage.program.innermost token
    let workshop ← get
    if (workshop.registry.layout? type).isSome then return ()
    else if workshop.inProgress.contains type then onRegistry (Registry.cyclic linkage type)
    else
      let obtain (other : Token) : Task Table := do
        addWith linkage beyond depth other
        onRegistry (Registry.tableOf linkage other)
      let layout ← during type (Registry.makeLayout linkage obtain type)
      onRegistry (Registry.enter linkage type layout)

/-- The table of a type, which is registered if need be. -/
def table (linkage : Linkage) (beyond : Token -> Task Unit) (depth : Nat) (token : Token) :
    Task Table := do
  addWith linkage beyond depth token
  onRegistry (Registry.tableOf linkage token)

/-! ## Both ways compared -/

/-- While some types are in progress, a task does what an action does, and
leaves them in progress. -/
def Matches {Value : Type} (inProgress : List Token) (action : Registry.Action Value)
    (task : Task Value) : Prop :=
  forall registry, task ⟨registry, inProgress⟩ =
    ((action registry).1, ⟨(action registry).2, inProgress⟩)

section Rules

variable {Value Other : Type} {inProgress : List Token}

theorem matches_iff_abreast {action : Registry.Action Value} {task : Task Value} :
    Matches inProgress action task ↔
      Abreast (.failing (fun _ registry workshop => workshop = ⟨registry, inProgress⟩))
        (fun registry workshop => workshop = ⟨registry, inProgress⟩) action task
        (fun _ registry workshop => workshop = ⟨registry, inProgress⟩) := by
  constructor
  · rintro same registry _ rfl
    rw [same registry]
    exact ⟨rfl, trivial, fun _ _ => rfl, fun _ _ => rfl⟩
  · intro abreast registry
    rcases abreast registry _ rfl with ⟨same, _, onSuccess, onFailure⟩
    refine Prod.ext same.symm ?_
    cases outcome : (action registry).1 with
    | error error => exact onFailure error outcome
    | ok value => exact onSuccess value outcome

theorem matches_onRegistry (action : Registry.Action Value) :
    Matches inProgress action (onRegistry action) :=
  fun _ => rfl

theorem matches_bind {action : Registry.Action Value} {task : Task Value}
    {next : Value -> Registry.Action Other} {later : Value -> Task Other}
    (first : Matches inProgress action task)
    (second : forall value, Matches inProgress (next value) (later value)) :
    Matches inProgress (action >>= next) (task >>= later) :=
  matches_iff_abreast.mpr (abreast_bind (matches_iff_abreast.mp first)
    (fun value => matches_iff_abreast.mp (second value)))

theorem matches_makeLayout {linkage : Linkage} {obtain : Token -> Registry.Action Table}
    {obtain' : Token -> Task Table}
    (obtains : forall other, Matches inProgress (obtain other) (obtain' other)) (token : Token) :
    Matches inProgress (Registry.makeLayout linkage obtain token)
      (Registry.makeLayout linkage obtain' token) :=
  matches_iff_abreast.mpr (Registry.abreast_makeLayout_of_kept
    (fun other _ => matches_iff_abreast.mp (obtains other)) (fun _ _ _ _ same => same))

/-- A type that was in progress for a while is no longer. -/
theorem matches_during {type : Token} {action : Registry.Action Value} {task : Task Value}
    (same : Matches (type :: inProgress) action task) :
    Matches inProgress action (during type task) := by
  intro registry
  unfold during
  rw [same registry]
  dsimp only
  rw [List.erase_cons_head]

end Rules

section Registering

variable {linkage : Linkage} {beyond : Token -> Task Unit} {inProgress : List Token}

/-- Types in progress that are different leave calls to be nested. -/
theorem length_le_types (distinct : inProgress.Nodup)
    (among : inProgress ⊆ linkage.program.types.map TypeDef.token) :
    inProgress.length ≤ linkage.program.types.length := by
  have bound := (distinct.subperm among).length_le
  rw [List.length_map] at bound
  exact bound

theorem matches_addWith {depth fuel : Nat} (token : Token) (distinct : inProgress.Nodup)
    (among : inProgress ⊆ linkage.program.types.map TypeDef.token)
    (deep : linkage.program.types.length < depth + inProgress.length)
    (enough : linkage.program.types.length < fuel + inProgress.length) :
    Matches inProgress (Registry.addWith linkage fuel inProgress token)
      (addWith linkage beyond depth token) := by
  -- Both bounds are spent at the same pace: a nested call leaves one more type in progress.
  induction depth generalizing fuel inProgress token with
  | zero =>
      have bound := length_le_types distinct among
      omega
  | succ depth inductionHypothesis =>
      cases fuel with
      | zero =>
          have bound := length_le_types distinct among
          omega
      | succ fuel =>
          intro registry
          unfold addWith
          cases canonical : linkage.program.innermost token with
          | error error =>
              rw [Registry.addWith_of_error canonical]
              rfl
          | ok type =>
              rw [bind_apply]
              change (if (registry.layout? type).isSome then (pure () : Task Unit)
                else if inProgress.contains type then onRegistry (Registry.cyclic linkage type)
                else _) ⟨registry, inProgress⟩ = _
              cases found : registry.layout? type with
              | some layout =>
                  rw [Registry.addWith_of_layout canonical found]
                  rfl
              | none =>
                  simp only [Option.isSome_none, Bool.false_eq_true, if_false]
                  by_cases waits : type ∈ inProgress
                  · rw [if_pos (List.contains_iff_mem.mpr waits),
                      Registry.addWith_of_waiting canonical found waits]
                    exact matches_onRegistry _ registry
                  · rw [if_neg (fun contained => waits (List.contains_iff_mem.mp contained)),
                      Registry.addWith_of_missing canonical found waits]
                    rcases Program.plain_of_innermostWith canonical with ⟨_, declared, _⟩
                    have deepThen : linkage.program.types.length <
                        depth + (type :: inProgress).length := by
                      rw [List.length_cons]
                      omega
                    have enoughThen : linkage.program.types.length <
                        fuel + (type :: inProgress).length := by
                      rw [List.length_cons]
                      omega
                    have adds := fun other => inductionHypothesis other
                      (List.nodup_cons.mpr ⟨waits, distinct⟩)
                      (List.cons_subset.mpr ⟨Program.mem_tokens_of_typeDef declared, among⟩)
                      deepThen enoughThen
                    refine matches_bind (matches_during (matches_makeLayout (fun other => ?_) type))
                      (fun layout => matches_onRegistry _) registry
                    exact matches_bind (adds other) (fun _ => matches_onRegistry _)

/-- Registering a type in a workshop where nothing is in progress. -/
theorem addWith_eq_add {depth : Nat} (deep : linkage.program.types.length < depth)
    (token : Token) (registry : Registry) :
    addWith linkage beyond depth token ⟨registry, []⟩ =
      ((Registry.add linkage token registry).1, ⟨(Registry.add linkage token registry).2, []⟩) :=
  matches_addWith token List.nodup_nil (List.nil_subset _) deep (Nat.lt_succ_self _) registry

theorem table_eq_table {depth : Nat} (deep : linkage.program.types.length < depth)
    (token : Token) (registry : Registry) :
    table linkage beyond depth token ⟨registry, []⟩ =
      ((Registry.table linkage token registry).1,
        ⟨(Registry.table linkage token registry).2, []⟩) :=
  matches_bind (fun registry => addWith_eq_add deep token registry)
    (fun _ => matches_onRegistry _) registry

end Registering
end Workshop
end Dispatch
end CilGraph
