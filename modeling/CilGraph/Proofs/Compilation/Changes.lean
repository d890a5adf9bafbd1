import CilGraph.Proofs.Compilation.Loops
import CilGraph.Proofs.Compilation.Names

namespace CilGraph
namespace Compilation
namespace Session

/-!
# Changes of a session

What comes out of a session are its records and its registry, and what goes on in
it is driven by its queue.  These change in few ways.  A type is registered, the
fields of a type are entered or recorded, a callable joins the queue or leaves
it, a name is bound for the first time, and a callable is recorded.  Marks and
owners of names steer the session, but nothing is read off them in the end.
`Change` lists these, and `Evolves` strings them together.

Which types and callables can occur is said by a scope.  A scope is closed if it
contains with every callable what the callable leads to, and with every type what
the type leads to.  A session that starts within a closed scope does not leave
it, whatever it does and whether or not its loops come to their end.  This is
stated for any closed scope: one that holds everything tells how a session
changes, and a narrow one tells where its contents come from.
-/

/-! ## Scopes -/

/-- What a session may take in, ask for and bind. -/
structure Scope where
  types : Token -> Prop
  callables : Callable -> Prop
  natives : String -> String -> Prop

namespace Scope

/-- A scope without limits. -/
def everything : Scope :=
  ⟨fun _ => True, fun _ => True, fun _ _ => True⟩

/-- What a discovery asks for is in the scope. -/
def Allows (scope : Scope) (program : Program) : Discovery -> Prop
  | .callable callable => scope.callables callable
  | .type token => forall type, program.innermost token = .ok type -> scope.types type
  | .native name symbol => scope.natives name symbol

theorem allows_everything (program : Program) (discovery : Discovery) :
    everything.Allows program discovery := by
  cases discovery with
  | callable callable => trivial
  | type token => exact fun _ _ => trivial
  | native name symbol => trivial

end Scope

/-- The types that a callable is taken in with.  Of a static member these are the
types of the static fields beside it, which are the fields of the type that its
declaring type stands for. -/
inductive SignatureType (linkage : Linkage) (callable : Callable) : Token -> Prop
  | declaring (isInstance : callable.isStatic = false) :
      SignatureType linkage callable callable.declaring
  | statics {type : Token} {resolved : TypeDef} {fields : List FieldDef} {field : FieldDef}
      (isStatic : callable.isStatic = true)
      (canonical : linkage.program.innermost callable.declaring = .ok type)
      (resolves : linkage.program.typeDef (linkage.resolveType type) = .ok resolved)
      (listed : linkage.program.declaredFields resolved = .ok fields)
      (among : field ∈ fields) (fieldStatic : field.isStatic = true) :
      SignatureType linkage callable field.fieldType
  | param {param : Param} (among : param ∈ callable.params) :
      SignatureType linkage callable param.type
  | returns {type : Token} (returned : callable.returns = some type) :
      SignatureType linkage callable type

/-- A scope contains all that its members lead to. -/
structure Scope.Closed (linkage : Linkage) (followSlots : Bool) (scope : Scope) : Prop where
  neighbours : forall {type other : Token} {next : List Token}, scope.types type ->
    Session.neighbours linkage type = .ok next -> other ∈ next ->
    scope.Allows linkage.program (.type other)
  signature : forall {callable : Callable} {token : Token}, scope.callables callable ->
    SignatureType linkage callable token -> scope.Allows linkage.program (.type token)
  body : forall {callable : Callable} {name : String} {body : Body} {lowered : LoweredBody}
    {discovery : Discovery}, scope.callables callable -> callable.isAbstract = false ->
    callable.body = some body ->
    (Lowering.lower ⟨linkage, name⟩ body.code).result = .ok lowered ->
    discovery ∈ (Lowering.lower ⟨linkage, name⟩ body.code).discoveries ->
    scope.Allows linkage.program discovery
  slot : forall {type : Token} {registry : Dispatch.Registry} {layout : Dispatch.Layout}
    {slot : MethodDef} {lowering : Lowering} {resolved : Callable} {name : String}
    {discovery : Discovery}, followSlots = true ->
    Dispatch.Registry.WithNeeds linkage scope.types type ->
    Dispatch.Registry.Grows linkage {} registry -> registry.layout? type = some layout ->
    slot ∈ layout.table.slots -> slot.isAbstract = false -> lowering.linkage = linkage ->
    Lowering.Referred lowering (.method slot) resolved name discovery ->
    (discovery = .callable resolved -> resolved.body.isSome = true) ->
    scope.Allows linkage.program discovery

theorem Scope.closed_everything (linkage : Linkage) (followSlots : Bool) :
    Scope.everything.Closed linkage followSlots := by
  have allows := Scope.allows_everything linkage.program
  exact ⟨fun _ _ _ => allows _, fun _ _ => allows _, fun _ _ _ _ _ => allows _,
    fun _ _ _ _ _ _ _ _ _ => allows _⟩

/-! ## Changes -/

/-- Everything that can happen to the records, the registry and the queue of a
session. -/
inductive Change (linkage : Linkage) (scope : Scope) (before : Session) : Session -> Prop
  | notes {after : Session} (records : after.records = before.records)
      (registry : after.registry = before.registry) (pending : after.pending = before.pending) :
      Change linkage scope before after
  | registers {type : Token} (inside : scope.types type)
      (canonical : linkage.program.innermost type = .ok type)
      (added : (Dispatch.Registry.add linkage type before.registry).1 = .ok ()) :
      Change linkage scope before
        { before with registry := (Dispatch.Registry.add linkage type before.registry).2 }
  | enters (catalog : Dispatch.Catalog) :
      Change linkage scope before
        { before with registry := { before.registry with catalog := catalog } }
  | describes (record : TypeRecord) :
      Change linkage scope before { before with records := (before.records.addType record).2 }
  | queues {callable : Callable} (inside : scope.callables callable)
      (isConcrete : callable.isAbstract = false) :
      Change linkage scope before { before with pending := before.pending ++ [callable] }
  | pops {callable : Callable} {rest : List Callable}
      (waiting : before.pending = callable :: rest) :
      Change linkage scope before { before with pending := rest }
  | binds {name symbol : String} (inside : scope.natives name symbol)
      (fresh : before.records.native? name = none) :
      Change linkage scope before { before with records := before.records.bindNative name symbol }
  | records {callable : Callable} {record : MethodRecord} (inside : scope.callables callable)
      (isConcrete : callable.isAbstract = false)
      (translates : Translates linkage callable record) :
      Change linkage scope before { before with records := (before.records.addMethod record).2 }

/-- One session becomes another by changes within a scope. -/
def Evolves (linkage : Linkage) (scope : Scope) : Session -> Session -> Prop :=
  Relation.ReflTransGen (Change linkage scope)

/-- A session has not left a scope. -/
structure Inside (linkage : Linkage) (scope : Scope) (session : Session) : Prop where
  grown : Dispatch.Registry.Grows linkage {} session.registry
  types : forall type, type ∈ session.registry.types ->
    Dispatch.Registry.WithNeeds linkage scope.types type
  pending : forall callable, callable ∈ session.pending ->
    scope.callables callable ∧ callable.isAbstract = false

theorem inside_start (linkage : Linkage) (scope : Scope) : Inside linkage scope {} :=
  ⟨.refl, fun _ member => absurd member List.not_mem_nil,
    fun _ member => absurd member List.not_mem_nil⟩

section Changes

variable {linkage : Linkage} {scope : Scope} {before after later : Session}

theorem Evolves.refl : Evolves linkage scope before before :=
  Relation.ReflTransGen.refl

theorem Evolves.trans (early : Evolves linkage scope before after)
    (late : Evolves linkage scope after later) : Evolves linkage scope before later :=
  Relation.ReflTransGen.trans early late

theorem Change.evolves (change : Change linkage scope before after) :
    Evolves linkage scope before after :=
  Relation.ReflTransGen.single change

/-- Marks and owners of names have changed at most. -/
theorem Evolves.of_eq (records : after.records = before.records)
    (registry : after.registry = before.registry) (pending : after.pending = before.pending) :
    Evolves linkage scope before after :=
  (Change.notes records registry pending).evolves

theorem Change.inside (change : Change linkage scope before after)
    (inside : Inside linkage scope before) : Inside linkage scope after := by
  cases change with
  | notes records registry pending =>
      refine ⟨?_, ?_, ?_⟩
      · rw [registry]
        exact inside.grown
      · rw [registry]
        exact inside.types
      · rw [pending]
        exact inside.pending
  | @registers type isInside canonical added =>
      refine ⟨inside.grown.trans (Dispatch.Registry.grows_add linkage type before.registry), ?_,
        inside.pending⟩
      exact Dispatch.Registry.kept_add (Dispatch.Registry.sufficient_withNeeds linkage scope.types)
        Dispatch.Registry.confined_preserved canonical (.member isInside) inside.types added
  | enters catalog => exact ⟨.catalog catalog inside.grown, inside.types, inside.pending⟩
  | describes record => exact ⟨inside.grown, inside.types, inside.pending⟩
  | queues isInside isConcrete =>
      refine ⟨inside.grown, inside.types, ?_⟩
      intro other member
      rcases List.mem_append.mp member with waited | added
      · exact inside.pending other waited
      · rw [List.mem_singleton.mp added]
        exact ⟨isInside, isConcrete⟩
  | @pops callable rest waiting =>
      refine ⟨inside.grown, inside.types, ?_⟩
      intro other member
      apply inside.pending other
      rw [waiting]
      exact List.mem_cons_of_mem callable member
  | binds isInside fresh => exact ⟨inside.grown, inside.types, inside.pending⟩
  | records isInside isConcrete translates =>
      exact ⟨inside.grown, inside.types, inside.pending⟩

theorem Evolves.inside (evolves : Evolves linkage scope before after)
    (inside : Inside linkage scope before) : Inside linkage scope after := by
  induction evolves with
  | refl => exact inside
  | tail _ change inductionHypothesis => exact change.inside inductionHypothesis

/-- A record that was added is that of a callable of the scope. -/
theorem Evolves.translates (evolves : Evolves linkage scope before after) {record : MethodRecord}
    (member : record ∈ after.records.methods) :
    record ∈ before.records.methods ∨ exists callable, scope.callables callable ∧
      callable.isAbstract = false ∧ Translates linkage callable record := by
  induction evolves with
  | refl => exact Or.inl member
  | @tail between next _ change inductionHypothesis =>
      cases change with
      | notes records registry pending =>
          rw [records] at member
          exact inductionHypothesis member
      | describes described =>
          rw [Records.methods_addType] at member
          exact inductionHypothesis member
      | records inside isConcrete translates =>
          rcases mem_methods_addMethod member with isNew | earlier
          · rw [isNew]
            exact Or.inr ⟨_, inside, isConcrete, translates⟩
          · exact inductionHypothesis earlier
      | registers | enters | queues | pops | binds => exact inductionHypothesis member

/-- A symbol that was bound is one of the scope. -/
theorem Evolves.binds (evolves : Evolves linkage scope before after) {name symbol : String}
    (member : (name, symbol) ∈ after.records.natives) :
    (name, symbol) ∈ before.records.natives ∨ scope.natives name symbol := by
  induction evolves with
  | refl => exact Or.inl member
  | @tail between next _ change inductionHypothesis =>
      cases change with
      | notes records registry pending =>
          rw [records] at member
          exact inductionHypothesis member
      | describes described =>
          rw [Records.natives_addType] at member
          exact inductionHypothesis member
      | records inside isConcrete translates =>
          rw [natives_addMethod] at member
          exact inductionHypothesis member
      | binds inside fresh =>
          rcases Ordered.mem_insertEntry member with isNew | earlier
          · cases isNew
            exact Or.inr inside
          · exact inductionHypothesis earlier
      | registers | enters | queues | pops => exact inductionHypothesis member

/-- A loop changes what its rounds change. -/
theorem forIn_evolves {Item : Type} {action : Item -> Step PUnit} {items : List Item}
    {result : PUnit} (inside : Inside linkage scope before)
    (succeeded : (forIn items PUnit.unit fun item _ => do
      action item
      pure (ForInStep.yield PUnit.unit)) before = .ok (result, after))
    (each : forall (item : Item) (first second : Session), item ∈ items ->
      Evolves linkage scope before first -> Inside linkage scope first ->
      action item first = .ok (PUnit.unit, second) -> Evolves linkage scope first second) :
    Evolves linkage scope before after :=
  forIn_induction (fun _ session => Evolves linkage scope before session) succeeded .refl
    (fun _ item first second member evolves acted =>
      evolves.trans (each item first second member evolves (evolves.inside inside) acted))

end Changes

/-! ## Types -/

section Steps

variable {linkage : Linkage} {scope : Scope} {followSlots : Bool} {before after : Session}

theorem claimType_evolves {type : Token} {wholeTypes staticTypes : List Token}
    (claimed : claimType linkage type
      { before with wholeTypes := wholeTypes, staticTypes := staticTypes } = .ok ((), after)) :
    Evolves linkage scope before after := by
  rcases claimType_eq_ok claimed with ⟨name, owners, _, _, same⟩
  rw [same]
  exact .of_eq rfl rfl rfl

theorem recordFields_evolves {type : Token} {isStatic : Bool}
    (recorded : recordFields type isStatic before = .ok ((), after)) :
    Evolves linkage scope before after := by
  rcases recordFields_eq_ok recorded with ⟨fields, _, same⟩
  rw [same]
  exact (Change.describes _).evolves

theorem addFields_evolves {type : Token}
    (entered : onRegistry (Dispatch.Registry.addFields linkage type) before = .ok ((), after)) :
    Evolves linkage scope before after := by
  rcases onRegistry_eq_ok entered with ⟨succeeded, same⟩
  rw [Dispatch.Registry.addFields_apply] at succeeded same
  rw [same]
  cases added : before.registry.catalog.add linkage type with
  | error error =>
      rw [added] at succeeded
      cases succeeded
  | ok catalog => exact (Change.enters catalog).evolves

theorem takeIn_evolves {type : Token} {next : List Token} (inside : scope.types type)
    (canonical : linkage.program.innermost type = .ok type)
    (taken : takeIn linkage type before = .ok (next, after)) :
    Evolves linkage scope before after := by
  rcases bind_eq_ok taken with ⟨_, marked, marking, claiming⟩
  cases marking
  rcases bind_eq_ok claiming with ⟨_, named, claimed, adding⟩
  rcases bind_eq_ok adding with ⟨_, registered, added, recording⟩
  rcases bind_eq_ok recording with ⟨_, withStatics, recordedStatics, recordingInstance⟩
  rcases bind_eq_ok recordingInstance with ⟨_, withInstance, recordedInstance, listing⟩
  rw [(lift_eq_ok listing).2]
  rcases onRegistry_eq_ok added with ⟨succeeded, isRegistered⟩
  have onClaim : Evolves linkage scope before named := claimType_evolves claimed
  have onRegister : Evolves linkage scope named registered := by
    rw [isRegistered]
    exact (Change.registers inside canonical succeeded).evolves
  exact onClaim.trans (onRegister.trans
    ((recordFields_evolves recordedStatics).trans (recordFields_evolves recordedInstance)))

theorem discoverWith_evolves (closed : scope.Closed linkage followSlots) {fuel : Nat}
    {types : List Token}
    (allowed : forall token, token ∈ types -> scope.Allows linkage.program (.type token))
    (discovered : discoverWith linkage fuel types before = .ok ((), after)) :
    Evolves linkage scope before after := by
  induction fuel generalizing before types with
  | zero =>
      cases discovered
      exact .refl
  | succ fuel inductionHypothesis =>
      cases types with
      | nil =>
          cases discovered
          exact .refl
      | cons token rest =>
          rcases List.forall_mem_cons.mp allowed with ⟨first, others⟩
          rcases lift_bind_eq_ok discovered with ⟨type, canonical, looking⟩
          rcases bind_eq_ok looking with ⟨session, between, got, continued⟩
          cases got
          split at continued
          · exact inductionHypothesis others continued
          · rcases bind_eq_ok continued with ⟨next, reached, taken, remaining⟩
            have plain := Program.innermost_innermost canonical
            have listed := (takeIn_eq_ok plain taken).listed
            have allowedNext : forall other, other ∈ next ++ rest ->
                scope.Allows linkage.program (.type other) := by
              intro other member
              rcases List.mem_append.mp member with isNext | isRest
              · exact closed.neighbours (first type canonical) listed isNext
              · exact others other isRest
            exact (takeIn_evolves (first type canonical) plain taken).trans
              (inductionHypothesis allowedNext remaining)

theorem discoverType_evolves (closed : scope.Closed linkage followSlots) {token : Token}
    (allowed : scope.Allows linkage.program (.type token))
    (discovered : discoverType linkage token before = .ok ((), after)) :
    Evolves linkage scope before after := by
  refine discoverWith_evolves closed ?_ discovered
  intro other member
  rw [List.mem_singleton.mp member]
  exact allowed

theorem forIn_discoverType_evolves (closed : scope.Closed linkage followSlots) {Item : Type}
    {typeOf : Item -> Token} {items : List Item} {result : PUnit}
    (inside : Inside linkage scope before)
    (allowed : forall item, item ∈ items -> scope.Allows linkage.program (.type (typeOf item)))
    (looped : (forIn items PUnit.unit fun item _ => do
      discoverType linkage (typeOf item)
      pure (ForInStep.yield PUnit.unit)) before = .ok (result, after)) :
    Evolves linkage scope before after :=
  forIn_evolves inside looped (fun item _ _ member _ _ discovered =>
    discoverType_evolves closed (allowed item member) discovered)

theorem discoverStatics_evolves (closed : scope.Closed linkage followSlots) {callable : Callable}
    (inside : Inside linkage scope before) (isInside : scope.callables callable)
    (isStatic : callable.isStatic = true)
    (discovered : discoverStatics linkage callable.declaring before = .ok ((), after)) :
    Evolves linkage scope before after := by
  rcases lift_bind_eq_ok discovered with ⟨type, canonical, looking⟩
  rcases bind_eq_ok looking with ⟨session, between, got, continued⟩
  cases got
  split at continued
  · cases continued
    exact .refl
  · rcases bind_eq_ok continued with ⟨_, marked, marking, claiming⟩
    cases marking
    rcases bind_eq_ok claiming with ⟨_, named, claimed, adding⟩
    rcases bind_eq_ok adding with ⟨_, registered, added, recording⟩
    rcases bind_eq_ok recording with ⟨_, withStatics, recorded, resolving⟩
    rcases lift_bind_eq_ok resolving with ⟨resolved, resolves, listing⟩
    rcases lift_bind_eq_ok listing with ⟨fields, listed, looping⟩
    rcases bind_eq_ok looping with ⟨_, looped, loop, ending⟩
    cases ending
    have onClaim : Evolves linkage scope before named := claimType_evolves claimed
    have onRecord := onClaim.trans
      ((addFields_evolves added).trans (recordFields_evolves recorded))
    refine onRecord.trans (forIn_discoverType_evolves closed (onRecord.inside inside) ?_ loop)
    intro field member
    rcases List.mem_filter.mp member with ⟨among, fieldStatic⟩
    exact closed.signature isInside (.statics isStatic canonical resolves listed among fieldStatic)

/-! ## Callables -/

theorem discoverSignature_evolves (closed : scope.Closed linkage followSlots)
    {callable : Callable} (inside : Inside linkage scope before)
    (isInside : scope.callables callable)
    (discovered : discoverSignature linkage callable before = .ok ((), after)) :
    Evolves linkage scope before after := by
  have looping : forall {between : Session}, Evolves linkage scope before between ->
      (do
        forIn callable.params PUnit.unit fun param _ => do
          discoverType linkage param.type
          pure (ForInStep.yield PUnit.unit)
        forIn callable.returns.toList PUnit.unit fun type _ => do
          discoverType linkage type
          pure (ForInStep.yield PUnit.unit)
        pure () : Step Unit) between = .ok ((), after) ->
      Evolves linkage scope before after := by
    intro between evolves looped
    rcases bind_eq_ok looped with ⟨_, withParams, overParams, continued⟩
    rcases bind_eq_ok continued with ⟨_, withReturns, overReturns, ending⟩
    cases ending
    have onParams := evolves.trans (forIn_discoverType_evolves closed (evolves.inside inside)
      (fun param member => closed.signature isInside (.param member)) overParams)
    refine onParams.trans (forIn_discoverType_evolves closed (onParams.inside inside) ?_
      overReturns)
    intro type member
    exact closed.signature isInside (.returns (Option.mem_toList.mp member))
  unfold discoverSignature at discovered
  split at discovered
  · rename_i isStatic
    rcases bind_eq_ok discovered with ⟨_, declaring, ofDeclaring, continued⟩
    exact looping (discoverStatics_evolves closed inside isInside isStatic ofDeclaring) continued
  · rename_i isInstance
    rcases bind_eq_ok discovered with ⟨_, declaring, ofDeclaring, continued⟩
    have allowed := closed.signature isInside (.declaring (Bool.eq_false_iff.mpr isInstance))
    exact looping (discoverType_evolves closed allowed ofDeclaring) continued

theorem request_evolves (closed : scope.Closed linkage followSlots) {callable : Callable}
    (inside : Inside linkage scope before) (isInside : scope.callables callable)
    (requested : request linkage callable before = .ok ((), after)) :
    Evolves linkage scope before after := by
  rcases lift_bind_eq_ok requested with ⟨name, _, reading⟩
  rcases bind_eq_ok reading with ⟨session, between, got, claiming⟩
  cases got
  rcases lift_bind_eq_ok claiming with ⟨owners, _, continued⟩
  split at continued
  · cases continued
    exact .refl
  · rcases bind_eq_ok continued with ⟨_, marked, marking, discovering⟩
    cases marking
    rcases bind_eq_ok discovering with ⟨_, reached, discovered, queueing⟩
    have noted : Evolves linkage scope before { before with callables := owners } :=
      .of_eq rfl rfl rfl
    have evolves := noted.trans
      (discoverSignature_evolves closed (noted.inside inside) isInside discovered)
    split at queueing
    · cases queueing
      exact evolves
    · rename_i isConcrete
      cases queueing
      exact evolves.trans (Change.queues isInside (Bool.eq_false_iff.mpr isConcrete)).evolves

theorem registerNative_evolves {name symbol : String} (isInside : scope.natives name symbol)
    (registered : registerNative name symbol before = .ok ((), after)) :
    Evolves linkage scope before after := by
  cases registered
  dsimp only
  cases bound : before.records.native? name with
  | some earlier => exact .refl
  | none => exact (Change.binds isInside bound).evolves

theorem follow_evolves (closed : scope.Closed linkage followSlots) {discovery : Discovery}
    (inside : Inside linkage scope before) (allowed : scope.Allows linkage.program discovery)
    (followed : follow linkage discovery before = .ok ((), after)) :
    Evolves linkage scope before after := by
  cases discovery with
  | callable callable => exact request_evolves closed inside allowed followed
  | type token => exact discoverType_evolves closed allowed followed
  | native name symbol => exact registerNative_evolves allowed followed

/-- Referring to a callable is to follow what a body would report of it. -/
theorem refer_eq_ok (lowering : Lowering) {callable : Callable}
    (referred : refer lowering.linkage callable before = .ok ((), after)) :
    exists resolved name discovery, Lowering.Referred lowering callable resolved name discovery ∧
      follow lowering.linkage discovery before = .ok ((), after) := by
  rcases lift_bind_eq_ok referred with ⟨resolved, resolves, binding⟩
  rcases lift_bind_eq_ok binding with ⟨symbol, looked, continued⟩
  cases symbol with
  | some symbol =>
      rcases lift_bind_eq_ok continued with ⟨name, mangles, registered⟩
      exact ⟨resolved, name, .native name symbol,
        ⟨resolves, mangles, Or.inl ⟨symbol, looked, rfl⟩⟩, registered⟩
  | none =>
      rcases lift_bind_eq_ok continued with ⟨name, mangles, _⟩
      exact ⟨resolved, name, .callable resolved, ⟨resolves, mangles, Or.inr ⟨looked, rfl⟩⟩,
        continued⟩

/-- Everything that a callable is reported as is in the scope. -/
def Scope.Admits (scope : Scope) (linkage : Linkage) (callable : Callable) : Prop :=
  forall (lowering : Lowering) (resolved : Callable) (name : String) (discovery : Discovery),
    lowering.linkage = linkage -> Lowering.Referred lowering callable resolved name discovery ->
    scope.Allows linkage.program discovery

theorem referAll_evolves (closed : scope.Closed linkage followSlots) {entries : List Callable}
    {result : PUnit} (inside : Inside linkage scope before)
    (admits : forall entry, entry ∈ entries -> scope.Admits linkage entry)
    (referred : referAll linkage entries before = .ok (result, after)) :
    Evolves linkage scope before after := by
  refine forIn_evolves inside referred ?_
  intro entry first second member _ insideNow refers
  rcases refer_eq_ok ⟨linkage, ""⟩ refers with ⟨resolved, name, discovery, reported, followed⟩
  exact follow_evolves closed insideNow (admits entry member _ _ _ _ rfl reported) followed

/-! ## Lowering -/

theorem lower_evolves (closed : scope.Closed linkage followSlots) {callable : Callable}
    (inside : Inside linkage scope before) (isInside : scope.callables callable)
    (isConcrete : callable.isAbstract = false)
    (succeeded : lower linkage callable before = .ok ((), after)) :
    Evolves linkage scope before after := by
  rcases lower_loop succeeded with
    ⟨name, body, lowered, between, _, mangles, hasBody, succeeds, loop, recorded⟩
  have followed : Evolves linkage scope before between := by
    refine forIn_evolves inside loop ?_
    intro discovery first second member _ insideNow follows
    exact follow_evolves closed insideNow
      (closed.body isInside isConcrete hasBody succeeds member) follows
  have translates : Translates linkage callable (recordOf name callable body lowered) :=
    ⟨name, body, lowered, mangles, hasBody, succeeds, rfl⟩
  rw [recorded]
  exact followed.trans (Change.records isInside isConcrete translates).evolves

theorem drainWith_evolves (closed : scope.Closed linkage followSlots) {fuel : Nat}
    (inside : Inside linkage scope before)
    (drained : drainWith linkage fuel before = .ok ((), after)) :
    Evolves linkage scope before after := by
  induction fuel generalizing before with
  | zero =>
      cases drained
      exact .refl
  | succ fuel inductionHypothesis =>
      rcases bind_eq_ok drained with ⟨session, between, got, continued⟩
      cases got
      cases waiting : before.pending with
      | nil =>
          simp only [waiting] at continued
          cases continued
          exact .refl
      | cons callable rest =>
          simp only [waiting] at continued
          rcases bind_eq_ok continued with ⟨_, popped, popping, lowering⟩
          cases popping
          rcases bind_eq_ok lowering with ⟨_, reached, lowered, remaining⟩
          have queued := inside.pending callable (by
            rw [waiting]
            exact List.mem_cons_self)
          have pops : Evolves linkage scope before { before with pending := rest } :=
            (Change.pops waiting).evolves
          have lowers := pops.trans
            (lower_evolves closed (pops.inside inside) queued.1 queued.2 lowered)
          exact lowers.trans (inductionHypothesis (lowers.inside inside) remaining)

/-! ## Slots -/

/-- A slot is passed over, or what it is reported as is followed.  A callable is
followed only if it has a body. -/
theorem referToSlot_eq_ok (lowering : Lowering) {slot : MethodDef}
    (referred : referToSlot lowering.linkage slot before = .ok ((), after)) :
    after = before ∨ exists resolved name discovery,
      Lowering.Referred lowering (.method slot) resolved name discovery ∧
      (discovery = .callable resolved -> resolved.body.isSome = true) ∧
      follow lowering.linkage discovery before = .ok ((), after) := by
  rcases lift_bind_eq_ok referred with ⟨resolved, resolves, continued⟩
  split at continued
  · rcases lift_bind_eq_ok continued with ⟨symbol, looked, chosen⟩
    cases symbol with
    | none =>
        cases chosen
        exact Or.inl rfl
    | some symbol =>
        rcases refer_eq_ok lowering chosen with ⟨same, name, discovery, reported, followed⟩
        refine Or.inr ⟨same, name, discovery, reported, ?_, followed⟩
        intro isCallable
        have isSame := reported.resolves.symm.trans resolves
        cases isSame
        rcases reported.reported with ⟨_, _, isNative⟩ | ⟨unbound, _⟩
        · rw [isNative] at isCallable
          cases isCallable
        · rw [looked] at unbound
          cases unbound
  · rename_i hasBody
    rcases refer_eq_ok lowering continued with ⟨same, name, discovery, reported, followed⟩
    refine Or.inr ⟨same, name, discovery, reported, ?_, followed⟩
    intro _
    have isSame := reported.resolves.symm.trans resolves
    cases isSame
    exact Option.isSome_iff_ne_none.mpr (fun none => hasBody (Option.isNone_iff_eq_none.mpr none))

theorem dispatchType_evolves (closed : scope.Closed linkage true) {type : Token}
    (inside : Inside linkage scope before) (registered : type ∈ before.registry.types)
    (followed : dispatchType linkage type before = .ok ((), after)) :
    Evolves linkage scope before after := by
  rcases Dispatch.Registry.mem_types_iff.mp registered with ⟨layout, found⟩
  rcases inside.grown.made found with ⟨_, _, _, _, _, origin⟩
  have marks : Evolves linkage scope before
      { before with dispatched := type :: before.dispatched } :=
    .of_eq rfl rfl rfl
  refine marks.trans (forIn_evolves (marks.inside inside)
    (dispatchType_loop origin.plain found followed) ?_)
  intro slot first second member _ insideNow refers
  rcases List.mem_filter.mp member with ⟨isSlot, isConcrete⟩
  rcases referToSlot_eq_ok ⟨linkage, ""⟩ refers with
    same | ⟨resolved, name, discovery, reported, hasBody, follows⟩
  · rw [same]
    exact .refl
  · refine follow_evolves closed insideNow ?_ follows
    exact closed.slot rfl (inside.types type registered) inside.grown found isSlot
      (Bool.not_eq_true' _ ▸ isConcrete) rfl reported hasBody

theorem Evolves.registry (evolves : Evolves linkage scope before after) :
    Dispatch.Registry.Grows linkage before.registry after.registry := by
  induction evolves with
  | refl => exact .refl
  | @tail between next _ change inductionHypothesis =>
      refine inductionHypothesis.trans ?_
      cases change with
      | notes records registry pending =>
          rw [registry]
          exact .refl
      | @registers type isInside canonical added =>
          exact Dispatch.Registry.grows_add linkage type between.registry
      | enters catalog => exact .catalog catalog .refl
      | _ => exact .refl

theorem dispatchWith_evolves (closed : scope.Closed linkage true) {fuel : Nat}
    (inside : Inside linkage scope before)
    (followed : dispatchWith linkage fuel before = .ok ((), after)) :
    Evolves linkage scope before after := by
  induction fuel generalizing before with
  | zero =>
      cases followed
      exact .refl
  | succ fuel inductionHypothesis =>
      rcases bind_eq_ok followed with ⟨session, between, got, continued⟩
      cases got
      cases fresh : before.registry.types.filter (fun type => !before.dispatched.contains type) with
      | nil =>
          simp only [fresh] at continued
          cases continued
          exact .refl
      | cons type rest =>
          simp only [fresh] at continued
          rw [← fresh] at continued
          rcases bind_eq_ok continued with ⟨_, looped, loop, remaining⟩
          have round : Evolves linkage scope before looped := by
            refine forIn_evolves inside loop ?_
            intro other first second member evolves insideNow follows
            refine dispatchType_evolves closed insideNow ?_ follows
            exact mem_types_grows evolves.registry (List.mem_filter.mp member).1
          exact round.trans (inductionHypothesis (round.inside inside) remaining)

/-! ## Whole sessions -/

theorem closeWith_evolves (closed : scope.Closed linkage followSlots) {fuel : Nat}
    (inside : Inside linkage scope before)
    (ended : closeWith linkage followSlots fuel before = .ok ((), after)) :
    Evolves linkage scope before after := by
  induction fuel generalizing before with
  | zero =>
      cases ended
      exact .refl
  | succ fuel inductionHypothesis =>
      rw [closeWith_apply] at ended
      rcases Result.bind_eq_ok.mp ended with ⟨⟨_, drained⟩, draining, continued⟩
      have drains := drainWith_evolves closed inside draining
      cases followSlots with
      | false =>
          cases continued
          exact drains
      | true =>
          rcases Result.bind_eq_ok.mp continued with ⟨⟨_, reached⟩, following, deciding⟩
          have follows := drains.trans
            (dispatchWith_evolves closed (drains.inside inside) following)
          dsimp only at deciding
          split at deciding
          · cases deciding
            exact follows
          · exact follows.trans (inductionHypothesis (follows.inside inside) deciding)

/-- A session that starts from entries of a closed scope stays in it. -/
theorem close_evolves (closed : scope.Closed linkage followSlots) {entries : List Callable}
    (admits : forall entry, entry ∈ entries -> scope.Admits linkage entry)
    (ended : close linkage followSlots entries {} = .ok ((), after)) :
    Evolves linkage scope {} after := by
  rcases bind_eq_ok ended with ⟨_, referred, referring, closing⟩
  have start := inside_start linkage scope
  have refers := referAll_evolves closed start admits referring
  exact refers.trans (closeWith_evolves closed (refers.inside start) closing)

end Steps

end Session
end Compilation
end CilGraph
