import CilGraph.Proofs.Compilation.Types
import CilGraph.Proofs.Dispatch.Slots
import CilGraph.Proofs.Lowering.References
import Mathlib.Logic.Relation

namespace CilGraph
namespace Compilation
namespace Session

/-!
# What happens in a session

Between two lowerings a session does three things that matter to its callables.
It takes in types, which leaves everything about callables alone and lets the
registry grow.  It claims the name of a known callable, takes in the types of
its signature and queues it unless it is abstract.  And it binds a name to an
external symbol.  `Event` lists these, and `Reaches` strings them together.

Every step of a session that succeeds is a sequence of events.  What was done
about a discovery or a slot stays done, since names, symbols and layouts are
never given up.
-/
/-! ## Events -/

/-- A name was given to a callable. -/
def withClaim (session : Session) (name : String) (token : Token) : Session :=
  { session with callables := (name, token) :: session.callables }

/-- A callable was queued, unless there is nothing to lower. -/
def withPending (session : Session) (callable : Callable) : Session :=
  if callable.isAbstract then session
  else { session with pending := session.pending ++ [callable] }

/-- What can happen between two lowerings. -/
inductive Event (linkage : Linkage) (before : Session) : Session -> Prop
  | types {after : Session} (only : Takes linkage before after) : Event linkage before after
  | claims {callable : Callable} {name : String} {between : Session}
      (known : linkage.program.Known callable)
      (mangles : linkage.program.mangle callable = .ok name)
      (fresh : before.callables.lookup name = none)
      (signature : Takes linkage (before.withClaim name callable.token) between)
      (declared : Declared linkage.program between callable) :
      Event linkage before (between.withPending callable)
  | binds (name symbol : String) :
      Event linkage before { before with records := before.records.bindNative name symbol }

/-- One session leads to another by events. -/
def Reaches (linkage : Linkage) : Session -> Session -> Prop :=
  Relation.ReflTransGen (Event linkage)

section Events

variable {linkage : Linkage} {before after later : Session}

theorem Reaches.refl : Reaches linkage before before :=
  Relation.ReflTransGen.refl

theorem Reaches.trans (first : Reaches linkage before after)
    (second : Reaches linkage after later) : Reaches linkage before later :=
  Relation.ReflTransGen.trans first second

theorem Event.reaches (event : Event linkage before after) : Reaches linkage before after :=
  Relation.ReflTransGen.single event

theorem Takes.reaches (takes : Takes linkage before after) : Reaches linkage before after :=
  (Event.types takes).reaches

@[simp] theorem withPending_callables (callable : Callable) :
    (before.withPending callable).callables = before.callables := by
  unfold withPending
  split <;> rfl

@[simp] theorem withPending_records (callable : Callable) :
    (before.withPending callable).records = before.records := by
  unfold withPending
  split <;> rfl

@[simp] theorem withPending_wholeTypes (callable : Callable) :
    (before.withPending callable).wholeTypes = before.wholeTypes := by
  unfold withPending
  split <;> rfl

@[simp] theorem withPending_staticTypes (callable : Callable) :
    (before.withPending callable).staticTypes = before.staticTypes := by
  unfold withPending
  split <;> rfl

@[simp] theorem withPending_dispatched (callable : Callable) :
    (before.withPending callable).dispatched = before.dispatched := by
  unfold withPending
  split <;> rfl

/-- Nothing that was done is undone: the owner of a name never changes, a name
that is bound stays bound, and what was taken in stays. -/
structure Keeps (linkage : Linkage) (before after : Session) : Prop
    extends Widens linkage before after where
  lookup : forall {name : String} {token : Token}, before.callables.lookup name = some token ->
    after.callables.lookup name = some token
  natives : forall {name : String}, name ∈ before.records.natives.map Prod.fst ->
    name ∈ after.records.natives.map Prod.fst

theorem Keeps.refl : Keeps linkage before before :=
  ⟨.of_eq rfl rfl rfl rfl, fun owned => owned, fun bound => bound⟩

theorem Keeps.trans (early : Keeps linkage before after) (late : Keeps linkage after later) :
    Keeps linkage before later :=
  ⟨early.toWidens.trans late.toWidens, fun owned => late.lookup (early.lookup owned),
    fun bound => late.natives (early.natives bound)⟩

theorem TypesOnly.keeps (only : TypesOnly linkage before after) : Keeps linkage before after := by
  refine ⟨only.toWidens, ?_, ?_⟩
  · rw [only.callables]
    exact fun owned => owned
  · rw [only.natives]
    exact fun bound => bound

theorem keeps_withClaim {name : String} {token : Token}
    (fresh : before.callables.lookup name = none) :
    Keeps linkage before (before.withClaim name token) :=
  ⟨.of_eq rfl rfl rfl rfl,
    fun owned => lookup_cons_of_fresh fresh owned, fun bound => bound⟩

theorem keeps_withPending (callable : Callable) :
    Keeps linkage before (before.withPending callable) := by
  unfold withPending
  split
  · exact .refl
  · exact ⟨.of_eq rfl rfl rfl rfl,
      fun owned => owned, fun bound => bound⟩

theorem keeps_bindNative (name symbol : String) :
    Keeps linkage before { before with records := before.records.bindNative name symbol } :=
  ⟨.of_eq rfl rfl rfl rfl,
    fun owned => owned,
    fun bound => (Ordered.mem_keys_insertEntry _ _ _ _).mpr (Or.inr bound)⟩

/-- Neither what waits nor which types are marked has a part in what was done. -/
theorem keeps_withQueue (pending : List Callable) (dispatched : List Token) :
    Keeps linkage before { before with pending := pending, dispatched := dispatched } :=
  ⟨.of_eq rfl rfl rfl rfl, fun owned => owned, fun bound => bound⟩

theorem Event.keeps (event : Event linkage before after) : Keeps linkage before after := by
  cases event with
  | types takes => exact takes.keeps
  | claims known mangles fresh signature _ =>
      exact (keeps_withClaim fresh).trans (signature.keeps.trans (keeps_withPending _))
  | binds name symbol => exact keeps_bindNative name symbol

theorem Event.dispatched (event : Event linkage before after) :
    after.dispatched = before.dispatched := by
  cases event with
  | types takes => exact takes.dispatched
  | claims known mangles fresh signature _ =>
      rw [withPending_dispatched]
      exact signature.dispatched
  | binds name symbol => rfl

theorem Reaches.keeps (reaches : Reaches linkage before after) : Keeps linkage before after := by
  induction reaches with
  | refl => exact .refl
  | tail _ event inductionHypothesis => exact inductionHypothesis.trans event.keeps

theorem Reaches.dispatched (reaches : Reaches linkage before after) :
    after.dispatched = before.dispatched := by
  induction reaches with
  | refl => rfl
  | tail _ event inductionHypothesis => exact event.dispatched.trans inductionHypothesis

/-- What a discovery asks for has been done. -/
def Met (program : Program) (session : Session) : Discovery -> Prop
  | .callable callable => forall name, program.mangle callable = .ok name ->
      session.callables.lookup name = some callable.token
  | .type token => session.Holds program token
  | .native name _ => name ∈ session.records.natives.map Prod.fst

theorem Met.keeps {discovery : Discovery} (met : Met linkage.program before discovery)
    (keeps : Keeps linkage before after) : Met linkage.program after discovery := by
  cases discovery with
  | callable callable => exact fun name mangles => keeps.lookup (met name mangles)
  | type token => exact met.mono keeps.wholes
  | native name symbol => exact keeps.natives met

/-- A callable has been asked for or, if an external symbol implements it, its
name is bound. -/
def Dealt (linkage : Linkage) (session : Session) (callable : Callable) : Prop :=
  exists name symbol, linkage.program.mangle callable = .ok name ∧
    linkage.nativeSymbol? callable = .ok symbol ∧
    ((symbol = none ∧ session.callables.lookup name = some callable.token) ∨
      (symbol.isSome = true ∧ name ∈ session.records.natives.map Prod.fst))

theorem Dealt.keeps {callable : Callable} (dealt : Dealt linkage before callable)
    (keeps : Keeps linkage before after) : Dealt linkage after callable := by
  rcases dealt with ⟨name, symbol, mangles, looked, ⟨unbound, asked⟩ | ⟨isBound, bound⟩⟩
  · exact ⟨name, symbol, mangles, looked, Or.inl ⟨unbound, keeps.lookup asked⟩⟩
  · exact ⟨name, symbol, mangles, looked, Or.inr ⟨isBound, keeps.natives bound⟩⟩

/-- A slot has been followed: what it resolves to is dealt with, or is
implemented elsewhere. -/
def SlotMet (linkage : Linkage) (session : Session) (slot : MethodDef) : Prop :=
  exists resolved, linkage.resolveCallable (.method slot) = .ok resolved ∧
    ((resolved.body = none ∧ linkage.nativeSymbol? resolved = .ok none) ∨
      Dealt linkage session resolved)

theorem SlotMet.keeps {slot : MethodDef} (met : SlotMet linkage before slot)
    (keeps : Keeps linkage before after) : SlotMet linkage after slot := by
  rcases met with ⟨resolved, resolves, elsewhere | dealt⟩
  · exact ⟨resolved, resolves, Or.inl elsewhere⟩
  · exact ⟨resolved, resolves, Or.inr (dealt.keeps keeps)⟩

end Events

/-! ## Following discoveries -/

section Following

variable {linkage : Linkage} {before after : Session}

/-- Either the callable has its name already and nothing happens, or it gets the
name, its signature is taken in, and it is queued unless it is abstract. -/
theorem request_eq_ok {callable : Callable}
    (requested : request linkage callable before = .ok ((), after)) :
    exists name, linkage.program.mangle callable = .ok name ∧
      ((before.callables.lookup name = some callable.token ∧ after = before) ∨
        exists between, before.callables.lookup name = none ∧
          Takes linkage (before.withClaim name callable.token) between ∧
          Declared linkage.program between callable ∧ after = between.withPending callable) := by
  rcases lift_bind_eq_ok requested with ⟨name, mangles, reading⟩
  rcases bind_eq_ok reading with ⟨session, between, got, claiming⟩
  cases got
  rcases lift_bind_eq_ok claiming with ⟨owners, claimed, continued⟩
  refine ⟨name, mangles, ?_⟩
  unfold claim at claimed
  cases owned : before.callables.lookup name with
  | some owner =>
      simp only [owned] at claimed continued
      split at claimed
      · rename_i same
        cases continued
        exact Or.inl ⟨congrArg some same, rfl⟩
      · cases claimed
  | none =>
      simp only [owned] at claimed continued
      cases claimed
      rcases bind_eq_ok continued with ⟨_, marked, marking, discovering⟩
      cases marking
      rcases bind_eq_ok discovering with ⟨_, reached, discovered, queueing⟩
      rcases discoverSignature_takes discovered with ⟨signature, declared⟩
      refine Or.inr ⟨reached, rfl, signature, declared, ?_⟩
      unfold withPending
      split at queueing
      · rename_i isAbstract
        rw [if_pos isAbstract]
        cases queueing
        rfl
      · rename_i isConcrete
        rw [if_neg isConcrete]
        cases queueing
        rfl

theorem request_reaches {callable : Callable} (known : linkage.program.Known callable)
    (requested : request linkage callable before = .ok ((), after)) :
    Reaches linkage before after ∧ Met linkage.program after (.callable callable) := by
  rcases request_eq_ok requested with
    ⟨name, mangles, ⟨owned, same⟩ | ⟨between, fresh, signature, declared, same⟩⟩
  · rw [same]
    refine ⟨.refl, ?_⟩
    intro other mangled
    rw [mangles] at mangled
    rw [← Except.ok.inj mangled, owned]
  · rw [same]
    have event : Event linkage before (between.withPending callable) :=
      .claims known mangles fresh signature declared
    refine ⟨event.reaches, ?_⟩
    intro other mangled
    rw [mangles] at mangled
    rw [withPending_callables, signature.callables, ← Except.ok.inj mangled]
    exact List.lookup_cons_self

theorem registerNative_reaches {name symbol : String}
    (registered : registerNative name symbol before = .ok ((), after)) :
    Reaches linkage before after ∧ Met linkage.program after (.native name symbol) := by
  cases bound : before.records.native? name with
  | some earlier =>
      have same : after = before := by
        cases registered
        simp only [bound, Option.isSome_some, if_true]
      rw [same]
      refine ⟨.refl, ?_⟩
      rcases List.lookup_eq_some_iff.mp bound with ⟨front, back, split, _⟩
      change name ∈ before.records.natives.map Prod.fst
      rw [split]
      simp
  | none =>
      have same : after = { before with records := before.records.bindNative name symbol } := by
        cases registered
        simp only [bound, Option.isSome_none, Bool.false_eq_true, if_false]
      rw [same]
      exact ⟨(Event.binds name symbol).reaches,
        (Ordered.mem_keys_insertEntry _ _ _ _).mpr (Or.inl rfl)⟩

theorem follow_reaches {discovery : Discovery} (known : discovery.Known linkage.program)
    (followed : follow linkage discovery before = .ok ((), after)) :
    Reaches linkage before after ∧ Met linkage.program after discovery := by
  cases discovery with
  | callable callable => exact request_reaches known.1 followed
  | type token =>
      rcases discoverType_takes followed with ⟨takes, held⟩
      exact ⟨takes.reaches, held⟩
  | native name symbol => exact registerNative_reaches followed

/-- Referring to a callable deals with what it resolves to. -/
theorem refer_reaches {callable : Callable} (known : linkage.program.Known callable)
    (referred : refer linkage callable before = .ok ((), after)) :
    Reaches linkage before after ∧ exists resolved,
      linkage.resolveCallable callable = .ok resolved ∧ Dealt linkage after resolved := by
  rcases lift_bind_eq_ok referred with ⟨resolved, resolves, binding⟩
  rcases lift_bind_eq_ok binding with ⟨symbol, looked, continued⟩
  have resolvedKnown := (Linkage.known_of_resolveCallable known resolves).1
  cases symbol with
  | some symbol =>
      rcases lift_bind_eq_ok continued with ⟨name, mangles, registered⟩
      rcases registerNative_reaches registered with ⟨reaches, bound⟩
      exact ⟨reaches, resolved, resolves, name, some symbol, mangles, looked, Or.inr ⟨rfl, bound⟩⟩
  | none =>
      rcases request_reaches resolvedKnown continued with ⟨reaches, asked⟩
      rcases lift_bind_eq_ok continued with ⟨name, mangles, _⟩
      exact ⟨reaches, resolved, resolves, name, none, mangles, looked,
        Or.inl ⟨rfl, asked name mangles⟩⟩

theorem referToSlot_reaches {slot : MethodDef} (known : linkage.program.Known (.method slot))
    (referred : referToSlot linkage slot before = .ok ((), after)) :
    Reaches linkage before after ∧ SlotMet linkage after slot := by
  rcases lift_bind_eq_ok referred with ⟨resolved, resolves, continued⟩
  have referring : refer linkage (.method slot) before = .ok ((), after) ->
      Reaches linkage before after ∧ SlotMet linkage after slot := by
    intro refers
    rcases refer_reaches known refers with ⟨reaches, same, resolvesSame, dealt⟩
    exact ⟨reaches, same, resolvesSame, Or.inr dealt⟩
  split at continued
  · rename_i noBody
    rcases lift_bind_eq_ok continued with ⟨symbol, bound, chosen⟩
    cases symbol with
    | none =>
        cases chosen
        exact ⟨.refl, resolved, resolves, Or.inl ⟨Option.isNone_iff_eq_none.mp noBody, bound⟩⟩
    | some symbol => exact referring chosen
  · exact referring continued

/-- The slots of a type that can be called were followed, and the type was
marked before. -/
structure Follows (linkage : Linkage) (type : Token) (before after : Session)
    (table : Dispatch.Table) : Prop where
  reaches : Reaches linkage { before with dispatched := type :: before.dispatched } after
  tabled : Dispatch.Registry.Tabled linkage after.registry type table
  met : forall slot, slot ∈ table.slots -> slot.isAbstract = false -> SlotMet linkage after slot

/-- The slots of a registered type are read from its layout, which leaves the
registry as it is. -/
theorem dispatchType_loop {type : Token} {layout : Dispatch.Layout}
    (canonical : linkage.program.innermost type = .ok type)
    (registered : before.registry.layout? type = some layout)
    (followed : dispatchType linkage type before = .ok ((), after)) :
    (forIn (layout.table.slots.filter (fun slot : MethodDef => !slot.isAbstract)) PUnit.unit
        fun slot _ => do
          referToSlot linkage slot
          pure (ForInStep.yield PUnit.unit))
      { before with dispatched := type :: before.dispatched } = .ok (PUnit.unit, after) := by
  rcases bind_eq_ok followed with ⟨_, marked, marking, acting⟩
  cases marking
  rcases bind_eq_ok acting with ⟨table, tabled, obtained, looping⟩
  rcases bind_eq_ok looping with ⟨_, looped, loop, ending⟩
  cases ending
  have isLayout := Dispatch.Registry.table_of_layout canonical registered
  rcases onRegistry_eq_ok obtained with ⟨succeeded, same⟩
  have isTable : table = layout.table := by
    rw [isLayout] at succeeded
    exact (Except.ok.inj succeeded).symm
  have isMarked : tabled = { before with dispatched := type :: before.dispatched } := by
    rw [same, isLayout]
  rw [isTable, isMarked] at loop
  exact loop

/-- The slots that are followed come from the registry and are known. -/
theorem dispatchType_eq_ok {type : Token} {layout : Dispatch.Layout}
    (known : before.registry.Known linkage.program)
    (canonical : linkage.program.innermost type = .ok type)
    (registered : before.registry.layout? type = some layout)
    (followed : dispatchType linkage type before = .ok ((), after)) :
    exists table, Follows linkage type before after table := by
  have tabled : Dispatch.Registry.Tabled linkage before.registry type layout.table :=
    ⟨type, layout, canonical, registered, rfl⟩
  have loopInvariant := forIn_induction
    (fun finished session =>
      Reaches linkage { before with dispatched := type :: before.dispatched } session ∧
      forall slot, slot ∈ finished -> SlotMet linkage session slot)
    (dispatchType_loop canonical registered followed)
    ⟨.refl, fun slot member => absurd member List.not_mem_nil⟩ (by
      intro finished slot first second member given referred
      have slotKnown := known.tabled tabled slot (List.mem_filter.mp member).1
      rcases referToSlot_reaches slotKnown referred with ⟨reaches, met⟩
      refine ⟨given.1.trans reaches, ?_⟩
      intro other among
      rcases List.mem_append.mp among with earlier | now
      · exact (given.2 other earlier).keeps reaches.keeps
      · rw [List.mem_singleton.mp now]
        exact met)
  refine ⟨layout.table, loopInvariant.1, tabled.grows loopInvariant.1.keeps.registry, ?_⟩
  intro slot member isConcrete
  refine loopInvariant.2 slot (List.mem_filter.mpr ⟨member, ?_⟩)
  rw [isConcrete]
  rfl

end Following

/-! ## Lowering -/

/-- The record of a lowered callable. -/
def recordOf (name : String) (callable : Callable) (body : Body) (lowered : LoweredBody) :
    MethodRecord :=
  ⟨name, callable.isStatic, callable.isConstructor, body.initLocals, body.maxStack,
    lowered.strings, lowered.nodes⟩

/-- A callable was lowered: what its body discovered has been followed, and its
record was added. -/
structure Lowers (linkage : Linkage) (callable : Callable) (before after : Session)
    (name : String) (body : Body) (lowered : LoweredBody) (between : Session) : Prop where
  mangles : linkage.program.mangle callable = .ok name
  hasBody : callable.body = some body
  succeeds : (Lowering.lower ⟨linkage, name⟩ body.code).result = .ok lowered
  reaches : Reaches linkage before between
  met : forall discovery, discovery ∈ (Lowering.lower ⟨linkage, name⟩ body.code).discoveries ->
    Met linkage.program between discovery
  recorded : after = { between with
    records := (between.records.addMethod (recordOf name callable body lowered)).2 }

theorem natives_addMethod {records : Records} {record : MethodRecord} :
    (records.addMethod record).2.natives = records.natives := by
  unfold Records.addMethod
  split <;> rfl

theorem typeNames_addMethod {records : Records} {record : MethodRecord} :
    (records.addMethod record).2.typeNames = records.typeNames := by
  unfold Records.addMethod
  split <;> rfl

theorem keeps_addMethod {linkage : Linkage} (session : Session) (record : MethodRecord) :
    Keeps linkage session { session with records := (session.records.addMethod record).2 } := by
  refine ⟨.of_eq rfl typeNames_addMethod rfl rfl, fun owned => owned, ?_⟩
  intro name bound
  change name ∈ (session.records.addMethod record).2.natives.map Prod.fst
  rw [natives_addMethod]
  exact bound

theorem Lowers.keeps {linkage : Linkage} {callable : Callable} {before after between : Session}
    {name : String} {body : Body} {lowered : LoweredBody}
    (lowers : Lowers linkage callable before after name body lowered between) :
    Keeps linkage before after := by
  rw [lowers.recorded]
  exact lowers.reaches.keeps.trans (keeps_addMethod _ _)

/-- A callable is lowered by following what its body discovers and then adding
its record. -/
theorem lower_loop {linkage : Linkage} {callable : Callable} {before after : Session}
    (succeeded : lower linkage callable before = .ok ((), after)) :
    exists name body lowered between result, linkage.program.mangle callable = .ok name ∧
      callable.body = some body ∧
      (Lowering.lower ⟨linkage, name⟩ body.code).result = .ok lowered ∧
      (forIn (Lowering.lower ⟨linkage, name⟩ body.code).discoveries PUnit.unit fun discovery _ => do
        follow linkage discovery
        pure (ForInStep.yield PUnit.unit)) before = .ok (result, between) ∧
      after = { between with
        records := (between.records.addMethod (recordOf name callable body lowered)).2 } := by
  rcases lift_bind_eq_ok succeeded with ⟨name, mangles, continued⟩
  cases hasBody : callable.body with
  | none =>
      simp only [hasBody] at continued
      cases continued
  | some body =>
      simp only [hasBody] at continued
      rcases bind_eq_ok continued with ⟨result, between, loop, finishing⟩
      rcases lift_bind_eq_ok finishing with ⟨lowered, succeeds, recording⟩
      cases recording
      exact ⟨name, body, lowered, between, result, mangles, rfl, succeeds, loop, rfl⟩

theorem lower_eq_ok {linkage : Linkage} {callable : Callable} {before after : Session}
    (succeeded : lower linkage callable before = .ok ((), after)) :
    exists name body lowered between,
      Lowers linkage callable before after name body lowered between := by
  rcases lower_loop succeeded with
    ⟨name, body, lowered, between, _, mangles, hasBody, succeeds, loop, recorded⟩
  have followed := forIn_induction
    (fun finished session => Reaches linkage before session ∧
      forall discovery, discovery ∈ finished -> Met linkage.program session discovery)
    loop ⟨.refl, fun discovery member => absurd member List.not_mem_nil⟩ (by
      intro finished discovery first second member given follows
      rcases follow_reaches (Lowering.known_of_lower succeeds member) follows with
        ⟨reaches, met⟩
      refine ⟨given.1.trans reaches, ?_⟩
      intro other among
      rcases List.mem_append.mp among with earlier | now
      · exact (given.2 other earlier).keeps reaches.keeps
      · rw [List.mem_singleton.mp now]
        exact met)
  exact ⟨name, body, lowered, between, mangles, hasBody, succeeds, followed.1, followed.2, recorded⟩

end Session
end Compilation
end CilGraph
