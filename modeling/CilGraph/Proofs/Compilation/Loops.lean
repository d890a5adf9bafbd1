import CilGraph.Proofs.Compilation.Closure
import CilGraph.Proofs.Dispatch.Workshop
import CilGraph.Proofs.Loop
import CilGraph.Proofs.Program.Walks

namespace CilGraph

/-!
# The loops of a compilation

A compilation is made of loops.  Code is lowered instruction by instruction.
Types are taken in until none is left to look at.  Queued callables are lowered
until the queue is empty, slots are followed until every registered type is
marked, and both are repeated until neither leaves anything to do.  The rounds
of these loops are written down here without a bound.

Every loop ends, whatever the outcome, and the bounds of the functions that carry
them out have no part in it.  An instruction takes a byte.  A type is taken in
once and leads to a limited number of others.  For callables and marks the counts
are those of `Tracked`.
-/

/-! ## Instructions -/

namespace Lowering

/-- One round of lowering: the instruction at the cursor. -/
inductive Round (lowering : Lowering) :
    Cursor × Frame -> List Discovery -> Result ((Cursor × Frame) ⊕ Frame) -> Prop
  | done {cursor : Cursor} {frame : Frame} (exhausted : cursor.isExhausted = true) :
      Round lowering (cursor, frame) [] (.ok (.inr frame))
  | fails {cursor : Cursor} {frame : Frame} {error : Error}
      (instruction : cursor.isExhausted = false)
      (failed : (lowering.step cursor frame).result = .error error) :
      Round lowering (cursor, frame) (lowering.step cursor frame).discoveries
        (.error (error.inMethod lowering.method))
  | stuck {cursor : Cursor} {frame next : Frame} {error : Error}
      (instruction : cursor.isExhausted = false)
      (stepped : (lowering.step cursor frame).result = .ok next)
      (failed : cursor.advance = .error error) :
      Round lowering (cursor, frame) (lowering.step cursor frame).discoveries (.error error)
  | moves {cursor following : Cursor} {frame next : Frame}
      (instruction : cursor.isExhausted = false)
      (stepped : (lowering.step cursor frame).result = .ok next)
      (advances : cursor.advance = .ok following) :
      Round lowering (cursor, frame) (lowering.step cursor frame).discoveries
        (.ok (.inl (following, next)))

theorem run_ends (lowering : Lowering) {fuel : Nat} {cursor : Cursor} (frame : Frame)
    (enough : cursor.rest.length ≤ fuel) : exists discoveries,
      Loop.Ends (Round lowering) (cursor, frame) discoveries
        (lowering.run fuel cursor frame).result := by
  refine Loop.ends_of_bounded
    (fun fuel (state : Cursor × Frame) => (lowering.run fuel state.1 state.2).result)
    (fun fuel (state : Cursor × Frame) => state.1.rest.length ≤ fuel) ?_ ?_ enough
  · rintro ⟨cursor, frame⟩ none
    have exhausted : cursor.isExhausted = true :=
      List.isEmpty_iff.mpr (List.eq_nil_of_length_eq_zero (Nat.le_zero.mp none))
    exact ⟨[], .stops (.done exhausted)⟩
  · rintro fuel ⟨cursor, frame⟩ left
    have unfolds : lowering.run (fuel + 1) cursor frame =
        if cursor.isExhausted then Attempt.done frame
        else (lowering.step cursor frame).mapError (Error.inMethod lowering.method) >>=
          fun next => liftM cursor.advance >>= fun following =>
            lowering.run fuel following next := rfl
    rw [unfolds]
    cases exhausted : cursor.isExhausted with
    | true => exact ⟨_, _, .done exhausted, rfl, trivial⟩
    | false =>
        rw [if_neg (fun impossible => nomatch impossible), Attempt.result_bind]
        unfold Attempt.mapError
        cases stepped : (lowering.step cursor frame).result with
        | error error =>
            exact ⟨_, _, .fails exhausted stepped, rfl, trivial⟩
        | ok next =>
            cases advances : cursor.advance with
            | error error =>
                exact ⟨_, _, .stuck exhausted stepped advances, rfl, trivial⟩
            | ok following =>
                refine ⟨_, _, .moves exhausted stepped advances, rfl, ?_⟩
                have shorter := Cursor.length_rest_advance advances
                exact Nat.le_of_lt_succ (Nat.lt_of_lt_of_le shorter left)

end Lowering

namespace Compilation
namespace Session

variable {linkage : Linkage} {finished : Nat} {before after : Session}

theorem bind_apply {Value Other : Type} (step : Step Value) (next : Value -> Step Other)
    (session : Session) :
    (step >>= next) session = step session >>= fun reached => next reached.1 reached.2 :=
  rfl

theorem lift_bind_apply {Value Other : Type} (result : Result Value) (next : Value -> Step Other)
    (session : Session) :
    ((liftM result : Step Value) >>= next) session =
      result >>= fun value => next value session := by
  cases result <;> rfl

/-! ## Types -/

/-- One round of taking in types: the next type to look at. -/
inductive DiscoveryRound (linkage : Linkage) :
    List Token × Session -> List Token -> Result ((List Token × Session) ⊕ (Unit × Session)) -> Prop
  | done {session : Session} : DiscoveryRound linkage ([], session) [] (.ok (.inr ((), session)))
  | unknown {token : Token} {rest : List Token} {session : Session} {error : Error}
      (failed : linkage.program.innermost token = .error error) :
      DiscoveryRound linkage (token :: rest, session) [] (.error error)
  | seen {token type : Token} {rest : List Token} {session : Session}
      (canonical : linkage.program.innermost token = .ok type)
      (known : session.wholeTypes.contains type = true) :
      DiscoveryRound linkage (token :: rest, session) [] (.ok (.inl (rest, session)))
  | fails {token type : Token} {rest : List Token} {session : Session} {error : Error}
      (canonical : linkage.program.innermost token = .ok type)
      (isNew : session.wholeTypes.contains type = false)
      (failed : takeIn linkage type session = .error error) :
      DiscoveryRound linkage (token :: rest, session) [] (.error error)
  | takes {token type : Token} {rest next : List Token} {session after : Session}
      (canonical : linkage.program.innermost token = .ok type)
      (isNew : session.wholeTypes.contains type = false)
      (taken : takeIn linkage type session = .ok (next, after)) :
      DiscoveryRound linkage (token :: rest, session) [type] (.ok (.inl (next ++ rest, after)))

theorem discoverWith_ends {fuel : Nat} {types : List Token}
    (enough : types.length +
      (unseen linkage.program before.wholeTypes).card * widest linkage.program < fuel) :
    exists taken, Loop.Ends (DiscoveryRound linkage) (types, before) taken
      (discoverWith linkage fuel types before) := by
  refine Loop.ends_of_bounded
    (fun fuel (state : List Token × Session) => discoverWith linkage fuel state.1 state.2)
    (fun fuel (state : List Token × Session) => state.1.length +
      (unseen linkage.program state.2.wholeTypes).card * widest linkage.program < fuel)
    (fun _ impossible => absurd impossible (Nat.not_lt_zero _)) ?_ enough
  rintro fuel ⟨types, session⟩ left
  cases types with
  | nil => exact ⟨_, _, .done, rfl, trivial⟩
  | cons token rest =>
      dsimp only [List.length_cons] at left ⊢
      cases canonical : linkage.program.innermost token with
      | error error =>
          refine ⟨_, _, .unknown canonical, ?_, trivial⟩
          rw [discoverWith, lift_bind_apply, canonical]
          rfl
      | ok type =>
          have unfolds : discoverWith linkage (fuel + 1) (token :: rest) session =
              (if session.wholeTypes.contains type then discoverWith linkage fuel rest
                else do
                  let next ← takeIn linkage type
                  discoverWith linkage fuel (next ++ rest) : Step Unit) session := by
            rw [discoverWith, lift_bind_apply, canonical]
            rfl
          rw [unfolds]
          cases known : session.wholeTypes.contains type with
          | true =>
              refine ⟨_, _, .seen canonical known, rfl, ?_⟩
              change rest.length +
                (unseen linkage.program session.wholeTypes).card * widest linkage.program < fuel
              omega
          | false =>
              rw [if_neg (fun impossible => nomatch impossible)]
              cases taking : takeIn linkage type session with
              | error error =>
                  refine ⟨_, _, .fails canonical known taking, ?_, trivial⟩
                  rw [bind_apply, taking]
                  rfl
              | ok taken =>
                  refine ⟨_, _, .takes canonical known taking, ?_, ?_⟩
                  · rw [bind_apply, taking]
                    rfl
                  · have isNew : type ∉ session.wholeTypes := by
                      intro member
                      rw [List.contains_iff_mem.mpr member] at known
                      cases known
                    -- What the type leads to is paid for by the mark that it got.
                    have paid := takeIn_pays canonical isNew taking
                    change (taken.1 ++ rest).length +
                      (unseen linkage.program taken.2.wholeTypes).card * widest linkage.program <
                        fuel
                    rw [List.length_append]
                    omega

/-! ## Queued callables -/

/-- A callable that was lowered, its record, and whether the record was added. -/
structure Translation where
  callable : Callable
  record : MethodRecord
  accepted : Bool

/-- One round of draining: the next callable of the queue. -/
inductive DrainRound (linkage : Linkage) (session : Session) :
    List Translation -> Result (Session ⊕ (Unit × Session)) -> Prop
  | done (empty : session.pending = []) : DrainRound linkage session [] (.ok (.inr ((), session)))
  | fails {callable : Callable} {rest : List Callable} {error : Error}
      (waiting : session.pending = callable :: rest)
      (failed : lower linkage callable { session with pending := rest } = .error error) :
      DrainRound linkage session [] (.error error)
  | lowers {callable : Callable} {rest : List Callable} {after between : Session} {name : String}
      {body : Body} {lowered : LoweredBody} (waiting : session.pending = callable :: rest)
      (succeeded : lower linkage callable { session with pending := rest } = .ok ((), after))
      (lowers : Lowers linkage callable { session with pending := rest } after name body lowered
        between) :
      DrainRound linkage session
        [⟨callable, recordOf name callable body lowered,
          (between.records.addMethod (recordOf name callable body lowered)).1⟩]
        (.ok (.inl after))

/-- Everything that is queued is lowered. -/
def Drains (linkage : Linkage) : Session -> List Translation -> Result (Unit × Session) -> Prop :=
  Loop.Ends (DrainRound linkage)

theorem Drains.pending {log : List Translation}
    (drains : Drains linkage before log (.ok ((), after))) : after.pending = [] := by
  refine Loop.Ends.preserves (fun _ _ => True) (fun _ reached => reached.2.pending = []) [] drains
    rfl (fun _ _ => trivial) ?_ trivial
  intro _ _ session reached _ round
  cases round with
  | done empty => exact empty

theorem drainWith_apply (linkage : Linkage) (fuel : Nat) (session : Session) :
    drainWith linkage (fuel + 1) session = (match session.pending with
      | [] => pure ()
      | callable :: rest => do
          set { session with pending := rest }
          lower linkage callable
          drainWith linkage fuel : Step Unit) session := rfl

theorem Tracked.drainWith_ends {fuel : Nat} (tracked : Tracked linkage [] finished before)
    (enough : linkage.program.callables.length < finished + fuel) :
    exists log, Drains linkage before log (Session.drainWith linkage fuel before) := by
  refine Loop.ends_of_bounded (Session.drainWith linkage)
    (fun fuel session => exists finished, Tracked linkage [] finished session ∧
      linkage.program.callables.length < finished + fuel) ?_ ?_ ⟨finished, tracked, enough⟩
  -- With nothing left more callables would have been lowered than there are names.
  · rintro session ⟨finished, tracked, enough⟩
    have counted := tracked.counted
    have bound := tracked.length_callables_le
    omega
  · rintro fuel session ⟨finished, tracked, enough⟩
    rw [drainWith_apply]
    cases waiting : session.pending with
    | nil => exact ⟨_, _, .done waiting, rfl, trivial⟩
    | cons callable rest =>
        change exists log outcome, _ ∧
          (lower linkage callable { session with pending := rest } >>= fun reached =>
            Session.drainWith linkage fuel reached.2) = _ ∧ _
        cases lowering : lower linkage callable { session with pending := rest } with
        | error error =>
            exact ⟨_, _, .fails waiting lowering, rfl, trivial⟩
        | ok reached =>
            rcases lower_eq_ok lowering with ⟨name, body, lowered, between, lowers⟩
            refine ⟨_, _, .lowers waiting lowering lowers, rfl, ?_⟩
            exact ⟨finished + 1, (tracked.pop waiting).lowers lowers, by omega⟩

/-! ## Slots -/

/-- One round of following slots: all types that are not marked. -/
inductive DispatchRound (linkage : Linkage) (session : Session) :
    List Token -> Result (Session ⊕ (Unit × Session)) -> Prop
  | done (none : session.unmarked = []) :
      DispatchRound linkage session [] (.ok (.inr ((), session)))
  | fails {error : Error} (some : session.unmarked ≠ [])
      (failed : followTypes linkage session.unmarked session = .error error) :
      DispatchRound linkage session session.unmarked (.error error)
  | follows {after : Session} (some : session.unmarked ≠ [])
      (followed : followTypes linkage session.unmarked session = .ok ((), after)) :
      DispatchRound linkage session session.unmarked (.ok (.inl after))

/-- The slots of all registered types are followed. -/
def Dispatches (linkage : Linkage) : Session -> List Token -> Result (Unit × Session) -> Prop :=
  Loop.Ends (DispatchRound linkage)

theorem dispatchWith_apply (linkage : Linkage) (fuel : Nat) (session : Session) :
    dispatchWith linkage (fuel + 1) session = (match session.unmarked with
      | [] => pure ()
      | fresh => do
          followTypes linkage fresh
          dispatchWith linkage fuel : Step Unit) session := rfl

theorem Tracked.dispatchWith_ends {fuel : Nat} (tracked : Tracked linkage [] finished before)
    (enough : (unseen linkage.program before.dispatched).card < fuel) :
    exists types, Dispatches linkage before types (Session.dispatchWith linkage fuel before) := by
  refine Loop.ends_of_bounded (Session.dispatchWith linkage)
    (fun fuel session => Tracked linkage [] finished session ∧
      (unseen linkage.program session.dispatched).card < fuel)
    (fun _ impossible => absurd impossible.2 (Nat.not_lt_zero _)) ?_ ⟨tracked, enough⟩
  rintro fuel session ⟨tracked, enough⟩
  have unfolds := dispatchWith_apply linkage fuel session
  cases fresh : session.unmarked with
  | nil =>
      rw [unfolds, fresh]
      exact ⟨_, _, .done fresh, rfl, trivial⟩
  | cons type rest =>
      have some : session.unmarked ≠ [] := by
        rw [fresh]
        exact List.cons_ne_nil type rest
      have continues : Session.dispatchWith linkage (fuel + 1) session =
          Session.followTypes linkage session.unmarked session >>= fun reached =>
            Session.dispatchWith linkage fuel reached.2 := by
        rw [unfolds, fresh]
        rfl
      rw [continues]
      cases following : Session.followTypes linkage session.unmarked session with
      | error error => exact ⟨_, _, .fails some following, rfl, trivial⟩
      | ok reached =>
          refine ⟨_, _, .follows some following, rfl, ?_⟩
          have trackedNow := (tracked.followTypes session.unmarked_subset following).1
          have fewer := tracked.card_unseen_followTypes some following
          exact ⟨trackedNow, by omega⟩

/-! ## Whole sessions -/

/-- One round of a session: everything that is queued is lowered and then, if
asked for, all slots are followed. -/
inductive CloseRound (linkage : Linkage) (followSlots : Bool) (session : Session) :
    List Translation -> Result (Session ⊕ (Unit × Session)) -> Prop
  | stuck {log : List Translation} {error : Error}
      (drains : Drains linkage session log (.error error)) :
      CloseRound linkage followSlots session log (.error error)
  | drained {log : List Translation} {after : Session} (unasked : followSlots = false)
      (drains : Drains linkage session log (.ok ((), after))) :
      CloseRound linkage followSlots session log (.ok (.inr ((), after)))
  | fails {log : List Translation} {types : List Token} {drained : Session} {error : Error}
      (asked : followSlots = true) (drains : Drains linkage session log (.ok ((), drained)))
      (dispatches : Dispatches linkage drained types (.error error)) :
      CloseRound linkage followSlots session log (.error error)
  | settled {log : List Translation} {types : List Token} {drained after : Session}
      (asked : followSlots = true) (drains : Drains linkage session log (.ok ((), drained)))
      (dispatches : Dispatches linkage drained types (.ok ((), after)))
      (nothing : after.pending = []) :
      CloseRound linkage followSlots session log (.ok (.inr ((), after)))
  | again {log : List Translation} {types : List Token} {drained after : Session}
      (asked : followSlots = true) (drains : Drains linkage session log (.ok ((), drained)))
      (dispatches : Dispatches linkage drained types (.ok ((), after)))
      (something : after.pending ≠ []) :
      CloseRound linkage followSlots session log (.ok (.inl after))

/-- A session is brought to its end. -/
def Closes (linkage : Linkage) (followSlots : Bool) :
    Session -> List Translation -> Result (Unit × Session) -> Prop :=
  Loop.Ends (CloseRound linkage followSlots)

theorem Closes.pending {followSlots : Bool} {log : List Translation}
    (closes : Closes linkage followSlots before log (.ok ((), after))) : after.pending = [] := by
  refine Loop.Ends.preserves (fun _ _ => True) (fun _ reached => reached.2.pending = []) [] closes
    rfl (fun _ _ => trivial) ?_ trivial
  intro _ _ session reached _ round
  cases round with
  | drained unasked drains => exact drains.pending
  | settled asked drains dispatches nothing => exact nothing

theorem closeWith_apply (linkage : Linkage) (followSlots : Bool) (fuel : Nat) (session : Session) :
    closeWith linkage followSlots (fuel + 1) session =
      drain linkage session >>= fun drained =>
        if followSlots then
          dispatchWith linkage (linkage.program.types.length + 1) drained.2 >>= fun reached =>
            if reached.2.pending.isEmpty then .ok ((), reached.2)
            else closeWith linkage followSlots fuel reached.2
        else .ok ((), drained.2) := by
  rw [closeWith, bind_apply]
  refine congrArg _ (funext fun drained => ?_)
  cases followSlots with
  | false => rfl
  | true =>
      rw [if_pos rfl, if_pos rfl, dispatch, bind_assoc, bind_apply]
      refine congrArg _ (funext fun reached => ?_)
      change (if !reached.2.pending.isEmpty then closeWith linkage true fuel
        else pure () : Step Unit) reached.2 = _
      cases reached.2.pending.isEmpty <;> rfl

theorem Tracked.drain_ends (tracked : Tracked linkage [] finished before) :
    exists log, Drains linkage before log (drain linkage before) :=
  tracked.drainWith_ends (by omega)

theorem Tracked.closeWith_ends {followSlots : Bool} {fuel : Nat}
    (tracked : Tracked linkage [] finished before)
    (enough : linkage.program.callables.length < finished + fuel + min 1 before.pending.length) :
    exists log, Closes linkage followSlots before log
      (Session.closeWith linkage followSlots fuel before) := by
  refine Loop.ends_of_bounded (Session.closeWith linkage followSlots)
    (fun fuel session => exists finished, Tracked linkage [] finished session ∧
      linkage.program.callables.length < finished + fuel + min 1 session.pending.length)
    ?_ ?_ ⟨finished, tracked, enough⟩
  · rintro session ⟨finished, tracked, enough⟩
    have counted := tracked.counted
    have bound := tracked.length_callables_le
    simp only [List.length_nil] at counted
    omega
  · rintro fuel session ⟨finished, tracked, enough⟩
    rcases tracked.drain_ends with ⟨log, drains⟩
    rw [closeWith_apply]
    cases draining : drain linkage session with
    | error error =>
        rw [draining] at drains
        exact ⟨_, _, .stuck drains, rfl, trivial⟩
    | ok drained =>
        rw [draining] at drains
        rcases tracked.drainWith (by omega) draining with
          ⟨total, trackedNow, empty, grown, progresses⟩
        cases followSlots with
        | false => exact ⟨_, _, .drained rfl drains, rfl, trivial⟩
        | true =>
            have typesEnough : (unseen linkage.program drained.2.dispatched).card <
                linkage.program.types.length + 1 :=
              Nat.lt_succ_of_le (card_unseen_le linkage.program drained.2.dispatched)
            rcases trackedNow.dispatchWith_ends typesEnough with ⟨types, dispatches⟩
            change exists log outcome, _ ∧
              (Session.dispatchWith linkage (linkage.program.types.length + 1) drained.2 >>=
                fun reached => if reached.2.pending.isEmpty then .ok ((), reached.2)
                  else Session.closeWith linkage true fuel reached.2) = _ ∧ _
            cases following : Session.dispatchWith linkage
                (linkage.program.types.length + 1) drained.2 with
            | error error =>
                rw [following] at dispatches
                exact ⟨_, _, .fails rfl drains dispatches, rfl, trivial⟩
            | ok reached =>
                rw [following] at dispatches
                cases waiting : reached.2.pending with
                | nil =>
                    refine ⟨_, _, .settled rfl drains dispatches waiting, ?_, trivial⟩
                    exact if_pos (List.isEmpty_iff.mpr waiting)
                | cons callable rest =>
                    have something : reached.2.pending ≠ [] :=
                      fun none => nomatch waiting.symm.trans none
                    refine ⟨_, _, .again rfl drains dispatches something, ?_, ?_⟩
                    · exact if_neg (fun empty => something (List.isEmpty_iff.mp empty))
                    -- A round that follows another finds something in the queue and lowers it.
                    · refine ⟨total, (trackedNow.dispatchWith typesEnough following).1, ?_⟩
                      rw [waiting, List.length_cons]
                      omega

end Session

namespace Job

/-- What a compilation does, from its entries to its outcome. -/
inductive Runs (job : Job) : List Session.Translation -> Result Compilation -> Prop
  | noEntries (none : job.entries = []) : Runs job [] (.error (.ofRequest .noEntries))
  | refuses {error : Error} (some : job.entries ≠ [])
      (failed : Session.referAll job.linkage job.entries {} = .error error) :
      Runs job [] (.error error)
  | fails {referred : Session} {log : List Session.Translation} {error : Error}
      (some : job.entries ≠ [])
      (referring : Session.referAll job.linkage job.entries {} = .ok ((), referred))
      (closes : Session.Closes job.linkage job.options.followSlots referred log (.error error)) :
      Runs job log (.error error)
  | ends {referred session : Session} {log : List Session.Translation} (some : job.entries ≠ [])
      (referring : Session.referAll job.linkage job.entries {} = .ok ((), referred))
      (closes : Session.Closes job.linkage job.options.followSlots referred log
        (.ok ((), session))) :
      Runs job log (.ok ⟨session.records, session.registry.compile job.options.pointerSize⟩)

/-- A compilation ends with what it is said to give. -/
theorem runs_compile {job : Job}
    (known : forall entry, entry ∈ job.entries -> job.linkage.program.Known entry) :
    exists log, job.Runs log job.compile := by
  unfold compile
  cases none : job.entries.isEmpty with
  | true => exact ⟨[], .noEntries (List.isEmpty_iff.mp none)⟩
  | false =>
      have some : job.entries ≠ [] := by
        intro empty
        rw [empty] at none
        cases none
      rw [if_neg (fun impossible => nomatch impossible)]
      have unfolds : Session.close job.linkage job.options.followSlots job.entries {} =
          Session.referAll job.linkage job.entries {} >>= fun reached =>
            Session.closeWith job.linkage job.options.followSlots
              (job.linkage.program.callables.length + 1) reached.2 := rfl
      rw [unfolds]
      cases referring : Session.referAll job.linkage job.entries {} with
      | error error => exact ⟨[], .refuses some referring⟩
      | ok referred =>
          have reaches := (Session.referAll_reaches known referring).1
          have tracked := (Session.tracked_start job.linkage).reaches reaches
          have enough : job.linkage.program.callables.length <
              0 + (job.linkage.program.callables.length + 1) + min 1 referred.2.pending.length := by
            omega
          rcases tracked.closeWith_ends enough with ⟨log, closes⟩
          change exists log, job.Runs log
            (Session.closeWith job.linkage job.options.followSlots
              (job.linkage.program.callables.length + 1) referred.2 >>= fun reached =>
                .ok ⟨reached.2.records, reached.2.registry.compile job.options.pointerSize⟩)
          cases closing : Session.closeWith job.linkage job.options.followSlots
              (job.linkage.program.callables.length + 1) referred.2 with
          | error error =>
              rw [closing] at closes
              exact ⟨log, .fails some referring closes⟩
          | ok reached =>
              rw [closing] at closes
              exact ⟨log, .ends some referring closes⟩

end Job
end Compilation
end CilGraph
