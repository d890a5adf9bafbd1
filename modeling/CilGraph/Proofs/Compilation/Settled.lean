import CilGraph.Proofs.Compilation.Names

namespace CilGraph
namespace Compilation
namespace Session

/-!
# What a session leaves behind

At its end a session is closed under everything that can be asked of it.  Every
type that was taken in is complete.  Every callable that was asked for has the
types of its signature taken in and, unless it is abstract, has been lowered and
all that its body discovers has been followed.  Every entry and, if slots are
followed, every slot of a registered type has been dealt with.  `Settled` says
this, and it says of every record where it comes from.

Nothing here depends on the order in which a session went about its work.  Each
part is a property of the events that can happen, and the last event of a session
leaves nothing to be done.
-/

variable {linkage : Linkage} {before after : Session}

/-! ## Types and signatures -/

/-- Every type that was taken in is complete, and the signature of every callable
that was asked for has been taken in. -/
structure Rounded (linkage : Linkage) (session : Session) : Prop where
  wholes : forall type, type ∈ session.wholeTypes -> Complete linkage session type
  statics : forall type, type ∈ session.staticTypes -> CompleteStatics linkage session type
  declared : forall callable, linkage.program.Known callable ->
    Asked linkage.program session callable -> Declared linkage.program session callable

theorem rounded_start (linkage : Linkage) : Rounded linkage {} where
  wholes := fun _ member => absurd member List.not_mem_nil
  statics := fun _ member => absurd member List.not_mem_nil
  declared := by
    rintro callable _ ⟨name, _, owned⟩
    cases owned

/-- Nothing was taken in or asked for. -/
theorem Rounded.unchanged (rounded : Rounded linkage before) (keeps : Keeps linkage before after)
    (wholes : after.wholeTypes = before.wholeTypes)
    (statics : after.staticTypes = before.staticTypes)
    (callables : after.callables = before.callables) : Rounded linkage after := by
  refine ⟨?_, ?_, ?_⟩
  · intro type member
    rw [wholes] at member
    exact (rounded.wholes type member).widens keeps.toWidens
  · intro type member
    rw [statics] at member
    exact (rounded.statics type member).widens keeps.toWidens
  · intro callable known asked
    unfold Asked at asked
    rw [callables] at asked
    exact (rounded.declared callable known asked).widens keeps.toWidens

theorem Rounded.takes (rounded : Rounded linkage before) (takes : Takes linkage before after) :
    Rounded linkage after := by
  refine ⟨?_, ?_, ?_⟩
  · intro type member
    rcases takes.completed type member with earlier | complete
    · exact (rounded.wholes type earlier).widens takes.toWidens
    · exact complete
  · intro type member
    rcases takes.completedStatics type member with earlier | complete
    · exact (rounded.statics type earlier).widens takes.toWidens
    · exact complete
  · intro callable known asked
    unfold Asked at asked
    rw [takes.callables] at asked
    exact (rounded.declared callable known asked).widens takes.toWidens

theorem Rounded.event (rounded : Rounded linkage before) (event : Event linkage before after) :
    Rounded linkage after := by
  cases event with
  | types takes => exact rounded.takes takes
  | @claims callable name between known mangles fresh signature declared =>
      have onPending : Keeps linkage between (between.withPending callable) :=
        keeps_withPending callable
      have keeps := (keeps_withClaim fresh).trans (signature.keeps.trans onPending)
      refine ⟨?_, ?_, ?_⟩
      · intro type member
        rw [withPending_wholeTypes] at member
        rcases signature.completed type member with earlier | complete
        · exact (rounded.wholes type earlier).widens keeps.toWidens
        · exact complete.widens onPending.toWidens
      · intro type member
        rw [withPending_staticTypes] at member
        rcases signature.completedStatics type member with earlier | complete
        · exact (rounded.statics type earlier).widens keeps.toWidens
        · exact complete.widens onPending.toWidens
      · intro other otherKnown asked
        unfold Asked at asked
        rw [withPending_callables, signature.callables] at asked
        rcases asked_withClaim known otherKnown asked with isNew | earlier
        · rw [isNew]
          exact declared.widens onPending.toWidens
        · exact (rounded.declared other otherKnown earlier).widens keeps.toWidens
  | binds name symbol => exact rounded.unchanged (keeps_bindNative name symbol) rfl rfl rfl

theorem Progresses.rounded (progresses : Progresses linkage {} after) :
    Rounded linkage after :=
  progresses.preserves (Rounded linkage) (fun event rounded => rounded.event event)
    (fun _ pending dispatched rounded =>
      rounded.unchanged (keeps_withQueue pending dispatched) rfl rfl rfl)
    (fun session record rounded => rounded.unchanged (keeps_addMethod session record) rfl rfl rfl)
    (rounded_start linkage)

/-! ## Records and the registry -/

theorem orderly_start (linkage : Linkage) (inside : Token -> Prop) : Orderly linkage inside {} :=
  ⟨Dispatch.Registry.stocked_empty linkage, Records.indexed_empty,
    fun _ member => absurd member List.not_mem_nil, fun _ member => absurd member List.not_mem_nil⟩

theorem Orderly.event {inside : Token -> Prop} (orderly : Orderly linkage inside before)
    (wellFormed : linkage.program.WellFormed)
    (sufficient : Dispatch.Registry.Sufficient linkage inside)
    (whole : forall type, type ∈ after.wholeTypes -> inside type)
    (event : Event linkage before after) : Orderly linkage inside after := by
  cases event with
  | types takes => exact takes.orderly wellFormed inside sufficient whole orderly
  | @claims callable name between known mangles fresh signature declared =>
      have claimed : Orderly linkage inside (before.withClaim name callable.token) :=
        orderly.unchanged rfl rfl rfl orderly.indexed.natives (List.Subset.refl _)
          (List.Subset.refl _)
      rw [withPending_wholeTypes] at whole
      have taken := signature.orderly wellFormed inside sufficient whole claimed
      unfold withPending
      split
      · exact taken
      · exact taken.unchanged rfl rfl rfl taken.indexed.natives (List.Subset.refl _)
          (List.Subset.refl _)
  | binds name symbol =>
      exact orderly.unchanged rfl rfl rfl
        (Ordered.ascending_insertEntry name symbol orderly.indexed.natives)
        (List.Subset.refl _) (List.Subset.refl _)

theorem types_addMethod {records : Records} {record : MethodRecord} :
    (records.addMethod record).2.types = records.types := by
  unfold Records.addMethod
  split <;> rfl

/-- What is registered and recorded at the end is what the types give that were
taken in. -/
theorem Progresses.orderly {inside : Token -> Prop} (wellFormed : linkage.program.WellFormed)
    (sufficient : Dispatch.Registry.Sufficient linkage inside)
    (progresses : Progresses linkage {} after)
    (whole : forall type, type ∈ after.wholeTypes -> inside type) :
    Orderly linkage inside after := by
  -- The set is known to contain the types of the last session only, and so those of all before.
  refine progresses.preserves
    (fun session => (forall type, type ∈ session.wholeTypes -> inside type) ->
      Orderly linkage inside session) ?_ ?_ ?_ (fun _ => orderly_start linkage inside) whole
  · intro first second event orderly wholeThen
    have earlier : forall type, type ∈ first.wholeTypes -> inside type :=
      fun type member => wholeThen type (event.keeps.wholes member)
    exact (orderly earlier).event wellFormed sufficient wholeThen event
  · intro session pending dispatched orderly wholeThen
    have now := orderly wholeThen
    exact now.unchanged rfl rfl rfl now.indexed.natives (List.Subset.refl _) (List.Subset.refl _)
  · intro session record orderly wholeThen
    have now := orderly wholeThen
    refine now.unchanged rfl types_addMethod typeNames_addMethod ?_ (List.Subset.refl _)
      (List.Subset.refl _)
    change Ordered.AscendingEntries (session.records.addMethod record).2.natives
    rw [natives_addMethod]
    exact now.indexed.natives

/-! ## Lowered callables -/

/-- Everything that the body of a callable discovers has been followed. -/
def Explored (linkage : Linkage) (session : Session) (callable : Callable) : Prop :=
  forall name body, linkage.program.mangle callable = .ok name -> callable.body = some body ->
    forall discovery, discovery ∈ (Lowering.lower ⟨linkage, name⟩ body.code).discoveries ->
      Met linkage.program session discovery

theorem Explored.keeps {callable : Callable} (explored : Explored linkage before callable)
    (keeps : Keeps linkage before after) : Explored linkage after callable :=
  fun name body mangles hasBody discovery member =>
    (explored name body mangles hasBody discovery member).keeps keeps

/-- What waits is not abstract, and every record comes from a callable that is not
and whose body has been explored. -/
structure Traced (linkage : Linkage) (session : Session) : Prop where
  waiting : forall callable, callable ∈ session.pending -> callable.isAbstract = false
  recorded : forall record, record ∈ session.records.methods -> exists callable,
    linkage.program.Known callable ∧ Asked linkage.program session callable ∧
      callable.isAbstract = false ∧ Translates linkage callable record ∧
      Explored linkage session callable

theorem Traced.event (traced : Traced linkage before) (event : Event linkage before after) :
    Traced linkage after := by
  constructor
  · intro callable member
    cases event with
    | types takes =>
        rw [takes.pending] at member
        exact traced.waiting callable member
    | @claims other name between known mangles fresh signature declared =>
        unfold withPending at member
        split at member
        · rw [signature.pending] at member
          exact traced.waiting callable member
        · rename_i isConcrete
          rcases List.mem_append.mp member with earlier | added
          · rw [signature.pending] at earlier
            exact traced.waiting callable earlier
          · rw [List.mem_singleton.mp added]
            exact Bool.not_eq_true _ ▸ isConcrete
    | binds name symbol => exact traced.waiting callable member
  · intro record member
    rw [event.reaches.methods] at member
    rcases traced.recorded record member with
      ⟨callable, known, asked, isConcrete, translates, explored⟩
    exact ⟨callable, known, asked.keeps event.keeps, isConcrete, translates,
      explored.keeps event.keeps⟩

theorem Traced.reaches (traced : Traced linkage before) (reaches : Reaches linkage before after) :
    Traced linkage after := by
  induction reaches with
  | refl => exact traced
  | tail _ event inductionHypothesis => exact inductionHypothesis.event event

theorem Progresses.traced (progresses : Progresses linkage {} after) : Traced linkage after := by
  induction progresses with
  | refl =>
      exact ⟨fun _ member => absurd member List.not_mem_nil,
        fun _ member => absurd member List.not_mem_nil⟩
  | @tail before after earlier progress inductionHypothesis =>
      have keeps := progress.keeps
      cases progress with
      | event event => exact inductionHypothesis.event event
      | @lowers callable rest name body lowered between known queue lowers =>
          have first : callable ∈ before.pending := by
            rw [queue]
            exact List.mem_cons_self
          have asked := ((Progresses.attributed earlier).waiting callable first).asked
          have popped : Traced linkage { before with pending := rest } := by
            refine ⟨?_, inductionHypothesis.recorded⟩
            intro other member
            apply inductionHypothesis.waiting other
            rw [queue]
            exact List.mem_cons_of_mem callable member
          have reached := popped.reaches lowers.reaches
          have onRecord : Keeps linkage between after := by
            rw [lowers.recorded]
            exact keeps_addMethod between _
          refine ⟨?_, ?_⟩
          · rw [lowers.recorded]
            exact reached.waiting
          · intro record member
            have recordedThen := lowers.recorded ▸ member
            rcases mem_methods_addMethod recordedThen with isNew | earlierRecord
            · refine ⟨callable, known, asked.keeps keeps,
                inductionHypothesis.waiting callable first, ?_, ?_⟩
              · rw [isNew]
                exact ⟨name, body, lowered, lowers.mangles, lowers.hasBody, lowers.succeeds, rfl⟩
              · intro shown other mangles hasBody discovery among
                rw [lowers.mangles] at mangles
                rw [lowers.hasBody] at hasBody
                cases mangles
                cases hasBody
                exact (lowers.met discovery among).keeps onRecord
            · rcases reached.recorded record earlierRecord with
                ⟨other, otherKnown, otherAsked, isConcrete, translates, explored⟩
              exact ⟨other, otherKnown, otherAsked.keeps onRecord, isConcrete, translates,
                explored.keeps onRecord⟩
      | @follows type table follows =>
          have marked : Traced linkage
              { before with dispatched := type :: before.dispatched } :=
            ⟨inductionHypothesis.waiting, inductionHypothesis.recorded⟩
          exact marked.reaches follows.reaches

/-! ## The end of a session -/

/-- A callable that can be lowered has been: it has a record, and everything that
its body discovers has been followed. -/
def Lowered (linkage : Linkage) (session : Session) (callable : Callable) : Prop :=
  exists record, record ∈ session.records.methods ∧ Translates linkage callable record ∧
    Explored linkage session callable

/-- Nothing is left to be done. -/
structure Settled (linkage : Linkage) (followSlots : Bool) (entries : List Callable)
    (session : Session) : Prop where
  progresses : Progresses linkage {} session
  grown : Dispatch.Registry.Grows linkage {} session.registry
  claimed : Claimed linkage session
  rounded : Rounded linkage session
  lowered : forall callable, linkage.program.Known callable ->
    Asked linkage.program session callable -> callable.isAbstract = false ->
    Lowered linkage session callable
  recorded : forall record, record ∈ session.records.methods -> exists callable,
    linkage.program.Known callable ∧ Asked linkage.program session callable ∧
      callable.isAbstract = false ∧ Translates linkage callable record
  entries : forall entry, entry ∈ entries -> exists resolved,
    linkage.resolveCallable entry = .ok resolved ∧ Dealt linkage session resolved
  slots : followSlots = true -> forall type layout,
    session.registry.layout? type = some layout -> forall slot, slot ∈ layout.table.slots ->
      slot.isAbstract = false -> SlotMet linkage session slot

theorem mangle_of_translates {callable : Callable} {record : MethodRecord}
    (translates : Translates linkage callable record) :
    linkage.program.mangle callable = .ok record.name := by
  rcases translates with ⟨name, body, lowered, mangles, _, _, same⟩
  rw [same]
  exact mangles

theorem close_settled {followSlots : Bool} {entries : List Callable}
    (known : forall entry, entry ∈ entries -> linkage.program.Known entry)
    (closed : close linkage followSlots entries {} = .ok ((), after)) :
    Settled linkage followSlots entries after := by
  rcases close_tracked known closed with ⟨total, tracked, empty, progresses, marks⟩
  have traced := progresses.traced
  refine ⟨progresses, tracked.grown, progresses.claimed, progresses.rounded, ?_, ?_, ?_, ?_⟩
  · intro callable callableKnown asked isConcrete
    rcases progresses.attributed.kept callable callableKnown asked with
      isAbstract | waits | ⟨record, member, translates⟩
    · rw [isConcrete] at isAbstract
      cases isAbstract
    · rw [empty] at waits
      cases waits
    · rcases traced.recorded record member with ⟨other, otherKnown, otherAsked, _, others, explored⟩
      have sameName := (mangle_of_translates translates).trans (mangle_of_translates others).symm
      have same := asked.eq_of_mangle otherAsked callableKnown otherKnown sameName
      rw [← same] at explored
      exact ⟨record, member, translates, explored⟩
  · intro record member
    rcases traced.recorded record member with ⟨callable, callableKnown, asked, isConcrete, made, _⟩
    exact ⟨callable, callableKnown, asked, isConcrete, made⟩
  · exact fun entry member => close_dealt known closed member
  · intro following type layout found slot isSlot isConcrete
    exact progresses.followed.layout tracked.grown (marks following)
      (Dispatch.Registry.mem_layouts_of_layout? found) isSlot isConcrete

end Session
end Compilation
end CilGraph
