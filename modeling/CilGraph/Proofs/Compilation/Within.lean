import CilGraph.Proofs.Compilation.Settled

namespace CilGraph
namespace Compilation
namespace Session

/-!
# Sessions within a session

A session that has come to its end shows that everything it did can be done.
Another session that starts from entries of the first asks for nothing that the
first did not ask for, and whatever it asks for it gets: a name that it claims has
the same owner in the first session, a layout that it needs was made there, and a
body that it lowers was lowered there.  So the second session cannot fail, and at
every step it stays within the first.

This does not depend on the order of the entries.  The second session may take in
a type for its static part that the first took in whole, make layouts in another
order, and lower callables in another order.  None of the bounds of the loops
matters here: a loop that stops early stops within the first session as well.

`Leads` says that a step succeeds, in the way of a triple for total correctness,
and `Within` is what every step keeps.
-/

/-! ## Steps that succeed -/

/-- From a session that satisfies `before` a step succeeds, and its value and the
session after it satisfy `after`. -/
def Leads {Value : Type} (before : Session -> Prop) (step : Step Value)
    (after : Value -> Session -> Prop) : Prop :=
  forall session, before session -> exists value later, step session = .ok (value, later) ∧
    after value later

section Rules

variable {Value Other Item : Type} {before kept : Session -> Prop}

theorem leads_bind {step : Step Value} {next : Value -> Step Other}
    {middle : Value -> Session -> Prop} {after : Other -> Session -> Prop}
    (first : Leads before step middle)
    (second : forall value, Leads (middle value) (next value) after) :
    Leads before (step >>= next) after := by
  intro session holds
  rcases first session holds with ⟨value, between, stepped, holdsThen⟩
  rcases second value between holdsThen with ⟨other, later, continued, final⟩
  refine ⟨other, later, ?_, final⟩
  change (step session >>= fun reached => next reached.1 reached.2) = _
  rw [stepped]
  exact continued

theorem leads_lift {result : Result Value} {value : Value} {after : Value -> Session -> Prop}
    (obtained : result = .ok value) (holds : forall session, before session -> after value session) :
    Leads before (liftM result : Step Value) after := by
  intro session given
  refine ⟨value, session, ?_, holds session given⟩
  rw [obtained]
  rfl

theorem leads_lift_bind {result : Result Value} {value : Value} {next : Value -> Step Other}
    {after : Other -> Session -> Prop} (obtained : result = .ok value)
    (second : Leads before (next value) after) :
    Leads before ((liftM result : Step Value) >>= next) after := by
  intro session holds
  rw [obtained]
  exact second session holds

theorem leads_get_bind {next : Session -> Step Other} {after : Other -> Session -> Prop}
    (second : forall session, before session ->
      Leads (fun now => now = session) (next session) after) :
    Leads before (get >>= next) after :=
  fun session holds => second session holds session rfl

theorem leads_pure {value : Value} {after : Value -> Session -> Prop}
    (holds : forall session, before session -> after value session) :
    Leads before (pure value) after :=
  fun session given => ⟨value, session, rfl, holds session given⟩

/-- Doing nothing keeps everything. -/
theorem leads_done {value : Value} : Leads kept (pure value) (fun _ => kept) :=
  leads_pure (fun _ holds => holds)

theorem leads_set {next : Session} {after : PUnit -> Session -> Prop}
    (holds : forall session, before session -> after ⟨⟩ next) : Leads before (set next) after :=
  fun session given => ⟨⟨⟩, next, rfl, holds session given⟩

theorem leads_modify {change : Session -> Session} {after : PUnit -> Session -> Prop}
    (holds : forall session, before session -> after ⟨⟩ (change session)) :
    Leads before (modify change) after :=
  fun session given => ⟨⟨⟩, change session, rfl, holds session given⟩

theorem Leads.strengthen {step : Step Value} {stronger : Session -> Prop}
    {after : Value -> Session -> Prop} (leads : Leads before step after)
    (implied : forall session, stronger session -> before session) : Leads stronger step after :=
  fun session holds => leads session (implied session holds)

/-- A session that was read is the one to go on from. -/
theorem Leads.of_now {step : Step Value} {after : Value -> Session -> Prop} {session : Session}
    (leads : Leads before step after) (holds : before session) :
    Leads (fun now => now = session) step after := by
  intro now same
  rw [same]
  exact leads session holds

theorem leads_onRegistry {action : Dispatch.Registry.Action Value}
    {after : Value -> Session -> Prop}
    (acts : forall session, before session -> exists value later,
      action session.registry = (.ok value, later) ∧
        after value { session with registry := later }) :
    Leads before (onRegistry action) after := by
  intro session holds
  rcases acts session holds with ⟨value, later, acted, final⟩
  refine ⟨value, { session with registry := later }, ?_, final⟩
  unfold onRegistry
  rw [acted]

/-- A loop succeeds if every round does. -/
theorem leads_forIn {action : Item -> Step PUnit} {items : List Item}
    (each : forall item, item ∈ items -> Leads kept (action item) (fun _ => kept)) :
    Leads kept (forIn items PUnit.unit fun item _ => do
      action item
      pure (ForInStep.yield PUnit.unit)) (fun _ => kept) := by
  induction items with
  | nil => exact leads_done
  | cons item rest inductionHypothesis =>
      rcases List.forall_mem_cons.mp each with ⟨ofItem, ofRest⟩
      rw [List.forIn_cons]
      have round : Leads kept (do
          action item
          pure (ForInStep.yield PUnit.unit))
          (fun outcome session => outcome = ForInStep.yield PUnit.unit ∧ kept session) :=
        leads_bind ofItem (fun _ => leads_pure (fun _ holds => ⟨rfl, holds⟩))
      refine leads_bind round ?_
      rintro outcome session ⟨goesOn, holds⟩
      rw [goesOn]
      exact inductionHypothesis ofRest session holds

end Rules

/-! ## Staying within -/

/-- A session has done and asked for nothing that another did not. -/
structure Within (linkage : Linkage) (model session : Session) : Prop where
  wholes : session.wholeTypes ⊆ model.wholeTypes
  statics : forall type, type ∈ session.staticTypes -> model.Touches type
  owners : forall name type, session.typeOwners.lookup name = some type ->
    model.typeOwners.lookup name = some type
  callables : forall name token, session.callables.lookup name = some token ->
    model.callables.lookup name = some token
  typeNames : session.records.typeNames ⊆ model.records.typeNames
  natives : session.records.natives.map Prod.fst ⊆ model.records.natives.map Prod.fst
  pending : forall callable, callable ∈ session.pending -> linkage.program.Known callable ∧
    Asked linkage.program model callable ∧ callable.isAbstract = false
  registry : Dispatch.Registry.Within linkage model.registry session.registry

/-- A session has come to its end, for a program that is well-formed. -/
structure Exemplary (linkage : Linkage) (followSlots : Bool) (entries : List Callable)
    (model : Session) : Prop extends Settled linkage followSlots entries model where
  wellFormed : linkage.program.WellFormed
  stocked : Dispatch.Registry.Stocked linkage model.registry

section Types

variable {linkage : Linkage} {followSlots : Bool} {entries : List Callable} {model : Session}

theorem within_start (linkage : Linkage) (model : Session) : Within linkage model {} where
  wholes := List.nil_subset _
  statics := fun _ member => absurd member List.not_mem_nil
  owners := fun _ _ owned => (nomatch owned)
  callables := fun _ _ owned => (nomatch owned)
  typeNames := List.nil_subset _
  natives := List.nil_subset _
  pending := fun _ member => absurd member List.not_mem_nil
  registry := ⟨.refl, Dispatch.Registry.stocked_empty linkage, List.nil_subset _⟩

/-- A name can be claimed if nobody else owns it. -/
theorem claim_of_agree {name : String} {token : Token} {owners : List (String × Token)}
    (agrees : forall owner, owners.lookup name = some owner -> owner = token) :
    exists next, claim name token owners = .ok next ∧
      forall other owner, next.lookup other = some owner ->
        (other = name ∧ owner = token) ∨ owners.lookup other = some owner := by
  unfold claim
  cases owned : owners.lookup name with
  | some owner =>
      dsimp only
      rw [if_pos (agrees owner owned)]
      exact ⟨owners, rfl, fun _ _ held => Or.inr held⟩
  | none =>
      refine ⟨(name, token) :: owners, rfl, ?_⟩
      intro other owner held
      rw [List.lookup_cons] at held
      split at held
      · rename_i same
        exact Or.inl ⟨eq_of_beq same, (Option.some.inj held).symm⟩
      · exact Or.inr held

namespace Exemplary

theorem leads_claimType (exemplary : Exemplary linkage followSlots entries model) {type : Token}
    (touched : model.Touches type) :
    Leads (Within linkage model) (claimType linkage type) (fun _ => Within linkage model) := by
  rcases exemplary.claimed type touched with ⟨name, named, owned⟩
  refine leads_lift_bind named ?_
  refine leads_get_bind (fun session within => ?_)
  have agrees : forall owner, session.typeOwners.lookup name = some owner -> owner = type := by
    intro owner owns
    have ownsThen := within.owners name owner owns
    rw [owned] at ownsThen
    exact (Option.some.inj ownsThen).symm
  rcases claim_of_agree agrees with ⟨owners, claimed, kept⟩
  refine leads_lift_bind claimed ?_
  refine leads_set (fun _ _ => ?_)
  refine { within with owners := ?_ }
  intro other owner held
  rcases kept other owner held with ⟨isName, isType⟩ | earlier
  · rw [isName, isType]
    exact owned
  · exact within.owners other owner earlier

theorem leads_add (exemplary : Exemplary linkage followSlots entries model) {type : Token}
    (canonical : linkage.program.innermost type = .ok type)
    (registered : type ∈ model.registry.types) :
    Leads (Within linkage model) (onRegistry (Dispatch.Registry.add linkage type))
      (fun _ session => Within linkage model session ∧
        exists fields, session.registry.catalog.get? type = some fields) := by
  refine leads_onRegistry (fun session within => ?_)
  rcases within.registry.add exemplary.wellFormed exemplary.grown exemplary.stocked canonical
    registered with ⟨later, added, withinLater, registeredLater⟩
  exact ⟨(), later, added, { within with registry := withinLater },
    withinLater.stocked.registered type registeredLater⟩

theorem leads_addFields (exemplary : Exemplary linkage followSlots entries model) {type : Token}
    {fields : Dispatch.FieldRecords} (found : model.registry.catalog.get? type = some fields) :
    Leads (Within linkage model) (onRegistry (Dispatch.Registry.addFields linkage type))
      (fun _ session => Within linkage model session ∧
        exists fields, session.registry.catalog.get? type = some fields) := by
  refine leads_onRegistry (fun session within => ?_)
  rcases exemplary.stocked.faithful.describes type fields found with ⟨definition, declared, _⟩
  rcases within.registry.addFields exemplary.wellFormed declared
    (exemplary.stocked.faithful.describable type fields found) with
    ⟨later, entered, withinLater, foundLater⟩
  exact ⟨(), later, entered, { within with registry := withinLater }, foundLater⟩

/-- The record of a type is the same in both sessions, since both make it from the
fields of the type. -/
theorem leads_recordFields (exemplary : Exemplary linkage followSlots entries model)
    {type : Token} {isStatic : Bool} {fields : Dispatch.FieldRecords}
    (found : model.registry.catalog.get? type = some fields)
    (named : (fields.select isStatic).name ∈ model.records.typeNames) :
    Leads (fun session => Within linkage model session ∧
        exists fields, session.registry.catalog.get? type = some fields)
      (recordFields type isStatic)
      (fun _ session => Within linkage model session ∧
        exists fields, session.registry.catalog.get? type = some fields) := by
  refine leads_get_bind ?_
  rintro session ⟨within, own, ownFound⟩
  rcases exemplary.stocked.faithful.describes type fields found with ⟨definition, declared, made⟩
  rcases within.registry.stocked.faithful.describes type own ownFound with
    ⟨again, declaredAgain, madeAgain⟩
  rw [declared] at declaredAgain
  cases declaredAgain
  rw [made] at madeAgain
  cases madeAgain
  have natives : (session.records.addType (fields.select isStatic)).2.natives.map Prod.fst ⊆
      model.records.natives.map Prod.fst := by
    rw [Records.natives_addType]
    exact within.natives
  rw [ownFound]
  refine leads_set (fun _ _ =>
    ⟨{ within with typeNames := ?_, natives := natives }, fields, ownFound⟩)
  intro name member
  rcases Records.mem_typeNames_addType.mp member with isNew | earlier
  · rw [isNew]
    exact named
  · exact within.typeNames earlier

theorem leads_takeIn (exemplary : Exemplary linkage followSlots entries model) {type : Token}
    {next : List Token} (whole : type ∈ model.wholeTypes)
    (listed : neighbours linkage type = .ok next) :
    Leads (Within linkage model) (takeIn linkage type)
      (fun value session => value = next ∧ Within linkage model session) := by
  have complete := exemplary.rounded.wholes type whole
  rcases complete.recorded with ⟨fields, found, named⟩
  have marking : Leads (Within linkage model)
      (modify (fun session => { session with wholeTypes := type :: session.wholeTypes }))
      (fun _ => Within linkage model) := by
    refine leads_modify (fun session within => { within with wholes := ?_ })
    exact List.cons_subset.mpr ⟨whole, within.wholes⟩
  refine leads_bind marking (fun _ => ?_)
  refine leads_bind (exemplary.leads_claimType (Or.inl whole)) (fun _ => ?_)
  refine leads_bind (exemplary.leads_add complete.canonical complete.registered) (fun _ => ?_)
  refine leads_bind (exemplary.leads_recordFields found (named true)) (fun _ => ?_)
  refine leads_bind (exemplary.leads_recordFields found (named false)) (fun _ => ?_)
  exact leads_lift listed (fun _ holds => ⟨rfl, holds.1⟩)

theorem leads_discoverWith (exemplary : Exemplary linkage followSlots entries model) {fuel : Nat}
    {types : List Token}
    (held : forall token, token ∈ types -> model.Holds linkage.program token) :
    Leads (Within linkage model) (discoverWith linkage fuel types)
      (fun _ => Within linkage model) := by
  induction fuel generalizing types with
  | zero => exact leads_done
  | succ fuel inductionHypothesis =>
      cases types with
      | nil => exact leads_done
      | cons token rest =>
          rcases List.forall_mem_cons.mp held with ⟨⟨type, canonical, whole⟩, heldRest⟩
          refine leads_lift_bind canonical ?_
          refine leads_get_bind (fun session within => ?_)
          split
          · exact (inductionHypothesis heldRest).of_now within
          · rcases (exemplary.rounded.wholes type whole).led with ⟨next, listed, heldNext⟩
            refine leads_bind ((exemplary.leads_takeIn whole listed).of_now within) ?_
            rintro value later ⟨isNext, withinLater⟩
            rw [isNext]
            refine inductionHypothesis ?_ later withinLater
            intro other member
            exact (List.mem_append.mp member).elim (heldNext other) (heldRest other)

theorem leads_discoverType (exemplary : Exemplary linkage followSlots entries model)
    {token : Token} (held : model.Holds linkage.program token) :
    Leads (Within linkage model) (discoverType linkage token) (fun _ => Within linkage model) := by
  refine exemplary.leads_discoverWith ?_
  intro other member
  rw [List.mem_singleton.mp member]
  exact held

end Exemplary

/-- A type that is complete is complete for its static part. -/
theorem Complete.statics {type : Token} (complete : Complete linkage model type) :
    CompleteStatics linkage model type := by
  rcases complete.recorded with ⟨fields, found, named⟩
  rcases complete.led with ⟨next, listed, held⟩
  rcases Result.bind_eq_ok.mp listed with ⟨definition, _, resolving⟩
  rcases Result.bind_eq_ok.mp resolving with ⟨resolved, resolves, listing⟩
  rcases Result.bind_eq_ok.mp listing with ⟨declared, ofFields, assembled⟩
  cases assembled
  refine ⟨complete.canonical, ⟨fields, found, named true⟩, resolved, declared, resolves, ofFields,
    ?_⟩
  intro field member
  apply held field.fieldType
  exact List.mem_append_right _ (List.mem_map_of_mem (List.mem_filter.mp member).1)

namespace Exemplary

theorem leads_discoverStatics (exemplary : Exemplary linkage followSlots entries model)
    {token type : Token} (canonical : linkage.program.innermost token = .ok type)
    (covers : model.Covers true type) :
    Leads (Within linkage model) (discoverStatics linkage token)
      (fun _ => Within linkage model) := by
  have touched : model.Touches type := covers.imp_right And.right
  -- The other session may have taken in the whole type, which leaves nothing of its static part
  -- to be done.
  have complete : CompleteStatics linkage model type := by
    rcases touched with whole | partly
    · exact (exemplary.rounded.wholes type whole).statics
    · exact exemplary.rounded.statics type partly
  rcases complete.recorded with ⟨fields, found, named⟩
  rcases complete.led with ⟨resolved, declared, resolves, ofFields, held⟩
  refine leads_lift_bind canonical ?_
  refine leads_get_bind (fun session within => ?_)
  split
  · exact leads_done.of_now within
  · have marking : Leads (fun now => now = session)
        (set { session with staticTypes := type :: session.staticTypes })
        (fun _ => Within linkage model) := by
      refine leads_set (fun _ _ => { within with statics := ?_ })
      exact List.forall_mem_cons.mpr ⟨touched, within.statics⟩
    refine leads_bind marking (fun _ => ?_)
    refine leads_bind (exemplary.leads_claimType touched) (fun _ => ?_)
    refine leads_bind (exemplary.leads_addFields found) (fun _ => ?_)
    refine leads_bind (exemplary.leads_recordFields found named) (fun _ => ?_)
    refine leads_lift_bind resolves ?_
    refine leads_lift_bind ofFields ?_
    have looping := leads_forIn (fun field member =>
      exemplary.leads_discoverType (held field member))
    refine leads_bind (looping.strengthen (fun _ holds => holds.1)) (fun _ => ?_)
    exact leads_done

theorem leads_discoverSignature (exemplary : Exemplary linkage followSlots entries model)
    {callable : Callable} (declared : Declared linkage.program model callable) :
    Leads (Within linkage model) (discoverSignature linkage callable)
      (fun _ => Within linkage model) := by
  rcases declared.declaring with ⟨type, canonical, covers⟩
  have looping : Leads (Within linkage model) (do
      forIn callable.params PUnit.unit fun param _ => do
        discoverType linkage param.type
        pure (ForInStep.yield PUnit.unit)
      forIn callable.returns.toList PUnit.unit fun type _ => do
        discoverType linkage type
        pure (ForInStep.yield PUnit.unit)
      pure () : Step Unit) (fun _ => Within linkage model) := by
    have overParams := leads_forIn (fun param member =>
      exemplary.leads_discoverType (declared.params param member))
    have overReturns := leads_forIn (fun type member =>
      exemplary.leads_discoverType (declared.returns type member))
    refine leads_bind overParams (fun _ => ?_)
    refine leads_bind overReturns (fun _ => ?_)
    exact leads_done
  unfold discoverSignature
  split
  · rename_i isStatic
    rw [isStatic] at covers
    exact leads_bind (exemplary.leads_discoverStatics canonical covers) (fun _ => looping)
  · rename_i isInstance
    have whole : type ∈ model.wholeTypes := by
      rcases covers with whole | ⟨isStatic, _⟩
      · exact whole
      · exact absurd isStatic isInstance
    exact leads_bind (exemplary.leads_discoverType ⟨type, canonical, whole⟩) (fun _ => looping)

end Exemplary

end Types

/-! ## Callables -/

section Callables

variable {linkage : Linkage} {followSlots : Bool} {entries : List Callable} {model : Session}

namespace Exemplary

theorem leads_request (exemplary : Exemplary linkage followSlots entries model)
    {callable : Callable} (known : linkage.program.Known callable)
    (asked : Asked linkage.program model callable) :
    Leads (Within linkage model) (request linkage callable) (fun _ => Within linkage model) := by
  have declared := exemplary.rounded.declared callable known asked
  have isAsked := asked
  rcases isAsked with ⟨name, mangles, owned⟩
  refine leads_lift_bind mangles ?_
  refine leads_get_bind (fun session within => ?_)
  have agrees : forall owner, session.callables.lookup name = some owner ->
      owner = callable.token := by
    intro owner owns
    have ownsThen := within.callables name owner owns
    rw [owned] at ownsThen
    exact (Option.some.inj ownsThen).symm
  rcases claim_of_agree agrees with ⟨owners, claimed, kept⟩
  refine leads_lift_bind claimed ?_
  split
  · exact leads_done.of_now within
  · have claiming : Leads (fun now => now = session)
        (set { session with callables := owners }) (fun _ => Within linkage model) := by
      refine leads_set (fun _ _ => { within with callables := ?_ })
      intro other owner held
      rcases kept other owner held with ⟨isName, isToken⟩ | earlier
      · rw [isName, isToken]
        exact owned
      · exact within.callables other owner earlier
    refine leads_bind claiming (fun _ => ?_)
    refine leads_bind (exemplary.leads_discoverSignature declared) (fun _ => ?_)
    split
    · exact leads_done
    · rename_i isConcrete
      refine leads_modify (fun session within => { within with pending := ?_ })
      intro other member
      rcases List.mem_append.mp member with earlier | added
      · exact within.pending other earlier
      · rw [List.mem_singleton.mp added]
        exact ⟨known, asked, Bool.not_eq_true _ ▸ isConcrete⟩

theorem leads_registerNative {name symbol : String}
    (bound : name ∈ model.records.natives.map Prod.fst) :
    Leads (Within linkage model) (registerNative name symbol) (fun _ => Within linkage model) := by
  refine leads_modify (fun session within => ?_)
  split
  · exact within
  · refine { within with natives := ?_ }
    intro other member
    rcases (Ordered.mem_keys_insertEntry _ _ _ _).mp member with isName | earlier
    · rw [isName]
      exact bound
    · exact within.natives earlier

theorem leads_follow (exemplary : Exemplary linkage followSlots entries model)
    {discovery : Discovery} (known : discovery.Known linkage.program)
    (met : Met linkage.program model discovery) :
    Leads (Within linkage model) (follow linkage discovery) (fun _ => Within linkage model) := by
  cases discovery with
  | callable callable =>
      rcases known with ⟨isKnown, name, mangles⟩
      exact exemplary.leads_request isKnown ⟨name, mangles, met name mangles⟩
  | type token => exact exemplary.leads_discoverType met
  | native name symbol => exact leads_registerNative met

theorem leads_refer (exemplary : Exemplary linkage followSlots entries model)
    {callable resolved : Callable} (known : linkage.program.Known callable)
    (resolves : linkage.resolveCallable callable = .ok resolved)
    (dealt : Dealt linkage model resolved) :
    Leads (Within linkage model) (refer linkage callable) (fun _ => Within linkage model) := by
  have resolvedKnown := (Linkage.known_of_resolveCallable known resolves).1
  rcases dealt with ⟨name, symbol, mangles, looked, ⟨isNone, asked⟩ | ⟨isSome, bound⟩⟩
  · refine leads_lift_bind resolves ?_
    refine leads_lift_bind looked ?_
    rw [isNone]
    exact exemplary.leads_request resolvedKnown ⟨name, mangles, asked⟩
  · rcases Option.isSome_iff_exists.mp isSome with ⟨external, isExternal⟩
    refine leads_lift_bind resolves ?_
    refine leads_lift_bind looked ?_
    rw [isExternal]
    exact leads_lift_bind mangles (leads_registerNative bound)

theorem leads_lower (exemplary : Exemplary linkage followSlots entries model)
    {callable : Callable} (known : linkage.program.Known callable)
    (asked : Asked linkage.program model callable) (isConcrete : callable.isAbstract = false) :
    Leads (Within linkage model) (lower linkage callable) (fun _ => Within linkage model) := by
  rcases exemplary.lowered callable known asked isConcrete with
    ⟨_, _, ⟨name, body, lowered, mangles, hasBody, succeeds, _⟩, explored⟩
  refine leads_lift_bind mangles ?_
  rw [hasBody]
  have looping := leads_forIn (fun discovery member =>
    exemplary.leads_follow (Lowering.known_of_lower succeeds member)
      (explored name body mangles hasBody discovery member))
  refine leads_bind looping (fun _ => ?_)
  refine leads_lift_bind succeeds ?_
  refine leads_modify (fun session within => { within with typeNames := ?_, natives := ?_ })
  · rw [typeNames_addMethod]
    exact within.typeNames
  · rw [natives_addMethod]
    exact within.natives

theorem leads_drainWith (exemplary : Exemplary linkage followSlots entries model) (fuel : Nat) :
    Leads (Within linkage model) (drainWith linkage fuel) (fun _ => Within linkage model) := by
  induction fuel with
  | zero => exact leads_done
  | succ fuel inductionHypothesis =>
      refine leads_get_bind (fun session within => ?_)
      cases waiting : session.pending with
      | nil =>
          exact leads_done.of_now within
      | cons callable rest =>
          have pending := within.pending
          rw [waiting] at pending
          rcases List.forall_mem_cons.mp pending with ⟨⟨known, asked, isConcrete⟩, others⟩
          have popping : Leads (fun now => now = session) (set { session with pending := rest })
              (fun _ => Within linkage model) :=
            leads_set (fun _ _ => { within with pending := others })
          refine leads_bind popping (fun _ => ?_)
          exact leads_bind (exemplary.leads_lower known asked isConcrete)
            (fun _ => inductionHypothesis)

end Exemplary

end Callables

/-! ## Rounds -/

section Rounds

variable {linkage : Linkage} {followSlots : Bool} {entries : List Callable} {model : Session}

namespace Exemplary

theorem leads_referToSlot (exemplary : Exemplary linkage followSlots entries model)
    {slot : MethodDef} (known : linkage.program.Known (.method slot))
    (met : SlotMet linkage model slot) :
    Leads (Within linkage model) (referToSlot linkage slot) (fun _ => Within linkage model) := by
  rcases met with ⟨resolved, resolves, ⟨noBody, unbound⟩ | dealt⟩
  · refine leads_lift_bind resolves ?_
    rw [noBody]
    refine leads_lift_bind unbound ?_
    exact leads_done
  · have referring := exemplary.leads_refer known resolves dealt
    refine leads_lift_bind resolves ?_
    split
    · rcases dealt with ⟨_, symbol, _, looked, _⟩
      refine leads_lift_bind looked ?_
      cases symbol with
      | none => exact leads_done
      | some external => exact referring
    · exact referring

theorem leads_dispatchType (exemplary : Exemplary linkage followSlots entries model)
    (following : followSlots = true) {type : Token} (registered : type ∈ model.registry.types) :
    Leads (Within linkage model) (dispatchType linkage type) (fun _ => Within linkage model) := by
  rcases Dispatch.Registry.mem_types_iff.mp registered with ⟨layout, found⟩
  have nothing : ({} : Dispatch.Registry).Known linkage.program :=
    fun _ member => absurd member List.not_mem_nil
  have slotsKnown := (nothing.grows exemplary.grown) (type, layout)
    (Dispatch.Registry.mem_layouts_of_layout? found)
  have marking : Leads (Within linkage model)
      (modify (fun session => { session with dispatched := type :: session.dispatched }))
      (fun _ => Within linkage model) :=
    leads_modify (fun _ within => { within with })
  have reading : Leads (Within linkage model)
      (onRegistry (Dispatch.Registry.table linkage type))
      (fun table session => table = layout.table ∧ Within linkage model session) := by
    refine leads_onRegistry (fun session within => ?_)
    rcases within.registry.table exemplary.wellFormed exemplary.grown exemplary.stocked found with
      ⟨later, tabled, withinLater⟩
    exact ⟨layout.table, later, tabled, rfl, { within with registry := withinLater }⟩
  refine leads_bind marking (fun _ => ?_)
  refine leads_bind reading ?_
  rintro table session ⟨isTable, within⟩
  rw [isTable]
  have looping : Leads (Within linkage model) (forIn
      (layout.table.slots.filter (fun slot => !slot.isAbstract)) PUnit.unit fun slot _ => do
        referToSlot linkage slot
        pure (ForInStep.yield PUnit.unit)) (fun _ => Within linkage model) := by
    refine leads_forIn (fun slot member => ?_)
    rcases List.mem_filter.mp member with ⟨isSlot, isConcrete⟩
    rw [Bool.not_eq_true'] at isConcrete
    exact exemplary.leads_referToSlot (slotsKnown slot isSlot)
      (exemplary.slots following type layout found slot isSlot isConcrete)
  exact leads_bind looping (fun _ => leads_done) session within

theorem leads_dispatchWith (exemplary : Exemplary linkage followSlots entries model)
    (following : followSlots = true) (fuel : Nat) :
    Leads (Within linkage model) (dispatchWith linkage fuel) (fun _ => Within linkage model) := by
  induction fuel with
  | zero => exact leads_done
  | succ fuel inductionHypothesis =>
      refine leads_get_bind (fun session within => ?_)
      have registered : forall type, type ∈ session.registry.types.filter
          (fun type => !session.dispatched.contains type) -> type ∈ model.registry.types :=
        fun type member => within.registry.types (List.mem_filter.mp member).1
      split
      · exact leads_done.of_now within
      · have looping := leads_forIn (fun type member =>
          exemplary.leads_dispatchType following (registered type member))
        exact leads_bind (looping.of_now within) (fun _ => inductionHypothesis)

theorem leads_closeWith (exemplary : Exemplary linkage followSlots entries model) (fuel : Nat) :
    Leads (Within linkage model) (closeWith linkage followSlots fuel)
      (fun _ => Within linkage model) := by
  induction fuel with
  | zero => exact leads_done
  | succ fuel inductionHypothesis =>
      refine leads_bind (exemplary.leads_drainWith _) (fun _ => ?_)
      split
      · rename_i following
        have dispatching : Leads (Within linkage model) (dispatch linkage)
            (fun _ => Within linkage model) := by
          refine leads_bind (exemplary.leads_dispatchWith following _) (fun _ => ?_)
          exact leads_get_bind (fun _ within => leads_done.of_now within)
        refine leads_bind dispatching (fun queued => ?_)
        split
        · exact inductionHypothesis
        · exact leads_done
      · exact leads_done

/-- A session that starts from entries of another comes to its end within it. -/
theorem close_within (exemplary : Exemplary linkage followSlots entries model)
    {others : List Callable} (known : forall entry, entry ∈ others -> linkage.program.Known entry)
    (included : others ⊆ entries) :
    exists session, close linkage followSlots others {} = .ok ((), session) ∧
      Within linkage model session := by
  have looping : Leads (Within linkage model) (forIn others PUnit.unit fun entry _ => do
      refer linkage entry
      pure (ForInStep.yield PUnit.unit)) (fun _ => Within linkage model) := by
    refine leads_forIn (fun entry member => ?_)
    rcases exemplary.entries entry (included member) with ⟨resolved, resolves, dealt⟩
    exact exemplary.leads_refer (known entry member) resolves dealt
  have closing : Leads (Within linkage model) (close linkage followSlots others)
      (fun _ => Within linkage model) :=
    leads_bind looping (fun _ => exemplary.leads_closeWith _)
  rcases closing {} (within_start linkage model) with ⟨_, session, closed, within⟩
  exact ⟨session, closed, within⟩

end Exemplary

end Rounds

end Session
end Compilation
end CilGraph
