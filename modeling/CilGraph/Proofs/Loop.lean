namespace CilGraph

/-!
# Loops without a bound

A loop goes from state to state until a round stops it or fails.  It writes
down what its rounds did.  `Loop.Ends` relates the state in which a loop starts
to what was written down and to the outcome, so it holds of loops that end and
of no others.

A function with a bound on its rounds is a loop that ends, provided the bound is
never what stops it.
-/

namespace Loop

variable {State Entry Failure Value : Type}

/-- A loop ends with an outcome. -/
inductive Ends (round : State -> List Entry -> Except Failure (State ⊕ Value) -> Prop) :
    State -> List Entry -> Except Failure Value -> Prop
  | stops {state : State} {log : List Entry} {value : Value}
      (last : round state log (.ok (.inr value))) : Ends round state log (.ok value)
  | fails {state : State} {log : List Entry} {failure : Failure}
      (last : round state log (.error failure)) : Ends round state log (.error failure)
  | goes {state next : State} {early late : List Entry} {outcome : Except Failure Value}
      (now : round state early (.ok (.inl next))) (later : Ends round next late outcome) :
      Ends round state (early ++ late) outcome

variable {round : State -> List Entry -> Except Failure (State ⊕ Value) -> Prop}

/-- If a loop goes on after a round, it does so in a state of some kind. -/
def Leaves (enough : State -> Prop) : Except Failure (State ⊕ Value) -> Prop
  | .ok (.inl next) => enough next
  | _ => True

/-- A function that makes one round and then calls itself with a smaller bound
does what the loop does, as long as every round leaves enough. -/
theorem ends_of_bounded (bounded : Nat -> State -> Except Failure Value)
    (enough : Nat -> State -> Prop)
    (atZero : forall state, enough 0 state -> exists log, Ends round state log (bounded 0 state))
    (atSucc : forall fuel state, enough (fuel + 1) state -> exists log outcome,
      round state log outcome ∧ bounded (fuel + 1) state = outcome >>= Sum.elim (bounded fuel) .ok ∧
        Leaves (enough fuel) outcome)
    {fuel : Nat} {state : State} (starts : enough fuel state) :
    exists log, Ends round state log (bounded fuel state) := by
  induction fuel generalizing state with
  | zero => exact atZero state starts
  | succ fuel inductionHypothesis =>
      rcases atSucc fuel state starts with ⟨log, outcome, now, unfolds, leaves⟩
      rw [unfolds]
      rcases outcome with failure | next | value
      · exact ⟨log, .fails now⟩
      · rcases inductionHypothesis leaves with ⟨late, later⟩
        exact ⟨log ++ late, .goes now later⟩
      · exact ⟨log, .stops now⟩

/-- What every round preserves, given what was written down before, holds at the
end of a loop that succeeds. -/
theorem Ends.preserves (holds : List Entry -> State -> Prop)
    (results : List Entry -> Value -> Prop) (before : List Entry) {state : State}
    {log : List Entry} {outcome : Except Failure Value} {value : Value}
    (ends : Ends round state log outcome) (succeeds : outcome = .ok value)
    (onGoing : forall {before early : List Entry} {state next : State}, holds before state ->
      round state early (.ok (.inl next)) -> holds (before ++ early) next)
    (onStopping : forall {before early : List Entry} {state : State} {value : Value},
      holds before state -> round state early (.ok (.inr value)) ->
      results (before ++ early) value)
    (starts : holds before state) : results (before ++ log) value := by
  induction ends generalizing before with
  | stops last =>
      cases succeeds
      exact onStopping starts last
  | fails last => cases succeeds
  | goes now later inductionHypothesis =>
      rw [← List.append_assoc]
      exact inductionHypothesis _ succeeds (onGoing starts now)

end Loop
end CilGraph
