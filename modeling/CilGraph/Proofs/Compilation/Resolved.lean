import CilGraph.Proofs.Compilation.Rounds

namespace CilGraph

/-!
# Resolved callables

Settings replace types, and what is called on a type is looked for on its
replacement.  A session never queues a callable as it was named: entries and
slots are resolved before they are asked for, and a body reports what its
callees resolve to.  So everything that is lowered was resolved from a callable
of the program.
-/

/-- A callable takes the place of a callable of the program, which may be itself. -/
def Linkage.Resolved (linkage : Linkage) (callable : Callable) : Prop :=
  exists declared, linkage.program.Known declared ∧ linkage.resolveCallable declared = .ok callable

namespace Compilation
namespace Session

/-- Whatever joined the queue was resolved. -/
def Enqueues (linkage : Linkage) (before after : Session) : Prop :=
  forall callable, callable ∈ after.pending ->
    callable ∈ before.pending ∨ linkage.Resolved callable

variable {linkage : Linkage} {before after later : Session}

theorem Enqueues.of_eq (same : after.pending = before.pending) :
    Enqueues linkage before after :=
  fun _ member => Or.inl (same ▸ member)

theorem Enqueues.trans (early : Enqueues linkage before after)
    (late : Enqueues linkage after later) : Enqueues linkage before later := by
  intro callable member
  rcases late callable member with waited | resolved
  · exact early callable waited
  · exact Or.inr resolved

theorem request_enqueues {callable : Callable} (resolved : linkage.Resolved callable)
    (requested : request linkage callable before = .ok ((), after)) :
    Enqueues linkage before after := by
  rcases request_eq_ok requested with
    ⟨name, _, ⟨_, same⟩ | ⟨between, _, signature, _, same⟩⟩
  · rw [same]
    exact .of_eq rfl
  · rw [same]
    intro other member
    rcases mem_of_mem_withPending member with isCallable | waited
    · rw [isCallable]
      exact Or.inr resolved
    · rw [signature.pending] at waited
      exact Or.inl waited

theorem registerNative_enqueues {name symbol : String}
    (registered : registerNative name symbol before = .ok ((), after)) :
    Enqueues linkage before after := by
  refine .of_eq ?_
  cases registered
  dsimp only
  split <;> rfl

theorem follow_enqueues {lowering : Lowering} {discovery : Discovery}
    (reports : Lowering.Reports lowering discovery)
    (followed : follow lowering.linkage discovery before = .ok ((), after)) :
    Enqueues lowering.linkage before after := by
  cases discovery with
  | callable callable =>
      -- Of what a body reports only the callee of a reference is a callable.
      rcases reports with ⟨_, isType⟩ | ⟨declared, target, name, known, referred⟩
      · cases isType
      · rcases referred.reported with ⟨_, _, isNative⟩ | ⟨_, isCallable⟩
        · cases isNative
        · cases isCallable
          exact request_enqueues ⟨declared, known, referred.resolves⟩ followed
  | type token => exact .of_eq (discoverType_takes followed).1.pending
  | native name symbol => exact registerNative_enqueues followed

theorem refer_enqueues {callable : Callable} (known : linkage.program.Known callable)
    (referred : refer linkage callable before = .ok ((), after)) :
    Enqueues linkage before after := by
  rcases lift_bind_eq_ok referred with ⟨resolved, resolves, binding⟩
  rcases lift_bind_eq_ok binding with ⟨symbol, _, continued⟩
  cases symbol with
  | some symbol =>
      rcases lift_bind_eq_ok continued with ⟨name, _, registered⟩
      exact registerNative_enqueues registered
  | none => exact request_enqueues ⟨callable, known, resolves⟩ continued

theorem referToSlot_enqueues {slot : MethodDef} (known : linkage.program.Known (.method slot))
    (referred : referToSlot linkage slot before = .ok ((), after)) :
    Enqueues linkage before after := by
  rcases lift_bind_eq_ok referred with ⟨resolved, _, continued⟩
  split at continued
  · rcases lift_bind_eq_ok continued with ⟨symbol, _, chosen⟩
    cases symbol with
    | none =>
        cases chosen
        exact .of_eq rfl
    | some symbol => exact refer_enqueues known chosen
  · exact refer_enqueues known continued

/-- A loop queues what its rounds queue. -/
theorem forIn_enqueues {Item : Type} {action : Item -> Step PUnit} {items : List Item}
    {result : PUnit}
    (succeeded : (forIn items PUnit.unit fun item _ => do
      action item
      pure (ForInStep.yield PUnit.unit)) before = .ok (result, after))
    (each : forall (item : Item) (first second : Session), item ∈ items ->
      action item first = .ok (PUnit.unit, second) -> Enqueues linkage first second) :
    Enqueues linkage before after :=
  forIn_induction (fun _ session => Enqueues linkage before session) succeeded (.of_eq rfl)
    (fun _ item first second member given acted =>
      Enqueues.trans given (each item first second member acted))

theorem dispatchType_enqueues {type : Token} {layout : Dispatch.Layout}
    (known : before.registry.Known linkage.program)
    (canonical : linkage.program.innermost type = .ok type)
    (registered : before.registry.layout? type = some layout)
    (followed : dispatchType linkage type before = .ok ((), after)) :
    Enqueues linkage before after := by
  have tabled : Dispatch.Registry.Tabled linkage before.registry type layout.table :=
    ⟨type, layout, canonical, registered, rfl⟩
  have marked : Enqueues linkage before { before with dispatched := type :: before.dispatched } :=
    .of_eq rfl
  refine marked.trans (forIn_enqueues (dispatchType_loop canonical registered followed) ?_)
  intro slot first second member referred
  exact referToSlot_enqueues (known.tabled tabled slot (List.mem_filter.mp member).1) referred

theorem lower_enqueues {callable : Callable}
    (succeeded : lower linkage callable before = .ok ((), after)) :
    Enqueues linkage before after := by
  rcases lower_loop succeeded with ⟨name, body, lowered, between, _, _, _, succeeds, loop, recorded⟩
  have followed : Enqueues linkage before between := by
    refine forIn_enqueues loop ?_
    intro discovery first second member follows
    exact follow_enqueues (Lowering.reports_of_lower succeeds member) follows
  rw [recorded]
  exact followed

end Session
end Compilation
end CilGraph
