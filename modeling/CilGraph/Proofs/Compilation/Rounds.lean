import CilGraph.Proofs.Compilation.Session
import CilGraph.Proofs.Dispatch.Agreement
import Mathlib.Data.Finset.Card
import Mathlib.Data.List.Nodup
import Mathlib.Data.List.Perm.Subperm

namespace CilGraph

/-!
# The rounds of a session

A session goes on in three ways.  Something happens between two lowerings, the
next callable of the queue is lowered, or the slots of a type are followed.
`Progress` lists these.  A property that each of them preserves holds when a
session ends.

The invariant `Tracked` knows every name that was given away: its owner is
abstract, or has a record, or is being lowered, or waits in the queue.  When the
queue is empty, the last two are no longer possible.  The invariant `Followed`
knows every type that was marked: the slots of its table have been met.

The loops of a session have bounds, and the bounds suffice by two counts.  Every
name belongs to one callable of the program, so there are no more names than
callables, and each callable that was lowered or waits has a name of its own.
And every round over the registered types marks a type of the program that was
not marked.  So a loop ends because nothing is left to do: the queue is empty
and, if slots are followed, all registered types are marked.
-/

namespace Compilation
namespace Session

/-- The owner of a name has a record, will get one, or needs none. -/
def Owned (program : Program) (busy : List Callable) (session : Session) (name : String)
    (token : Token) : Prop :=
  exists callable, program.Known callable ∧ callable.token = token ∧
    program.mangle callable = .ok name ∧
    (callable.isAbstract = true ∨ name ∈ session.records.methodNames ∨ callable ∈ busy ∨
      callable ∈ session.pending)

/-- What holds throughout a session, while the callables in `busy` are being
lowered and after `finished` others have been. -/
structure Tracked (linkage : Linkage) (busy : List Callable) (finished : Nat)
    (session : Session) : Prop where
  grown : Dispatch.Registry.Grows linkage {} session.registry
  distinct : (session.callables.map Prod.fst).Nodup
  owners : forall name token, (name, token) ∈ session.callables ->
    Owned linkage.program busy session name token
  queued : forall callable, callable ∈ session.pending -> linkage.program.Known callable
  counted : finished + busy.length + session.pending.length ≤ session.callables.length

theorem tracked_start (linkage : Linkage) : Tracked linkage [] 0 {} where
  grown := .refl
  distinct := List.nodup_nil
  owners := fun _ _ member => absurd member List.not_mem_nil
  queued := fun _ member => absurd member List.not_mem_nil
  counted := Nat.le_refl 0

section Invariant

variable {linkage : Linkage} {busy : List Callable} {finished : Nat} {before after : Session}

theorem Tracked.known (tracked : Tracked linkage busy finished before) :
    before.registry.Known linkage.program := by
  have start : ({} : Dispatch.Registry).Known linkage.program :=
    fun _ member => absurd member List.not_mem_nil
  exact start.grows tracked.grown

theorem mem_withPending_self {callable : Callable} (isConcrete : callable.isAbstract = false) :
    callable ∈ (before.withPending callable).pending := by
  unfold withPending
  rw [isConcrete]
  exact List.mem_append_right _ List.mem_cons_self

theorem mem_withPending {callable other : Callable} (waiting : other ∈ before.pending) :
    other ∈ (before.withPending callable).pending := by
  unfold withPending
  split
  · exact waiting
  · exact List.mem_append_left _ waiting

theorem mem_of_mem_withPending {callable other : Callable}
    (waiting : other ∈ (before.withPending callable).pending) :
    other = callable ∨ other ∈ before.pending := by
  unfold withPending at waiting
  split at waiting
  · exact Or.inr waiting
  · rcases List.mem_append.mp waiting with earlier | added
    · exact Or.inr earlier
    · exact Or.inl (List.mem_singleton.mp added)

theorem length_withPending (session : Session) (callable : Callable) :
    (session.withPending callable).pending.length ≤ session.pending.length + 1 := by
  unfold withPending
  split
  · exact Nat.le_succ _
  · exact Nat.le_of_eq (List.length_append ..)

/-- A fresh name is not among the keys. -/
theorem not_mem_keys_of_lookup {name : String} {entries : List (String × Token)}
    (fresh : entries.lookup name = none) : name ∉ entries.map Prod.fst := by
  intro member
  rcases List.mem_map.mp member with ⟨⟨key, token⟩, among, same⟩
  have differs := List.lookup_eq_none_iff.mp fresh (key, token) among
  rw [same] at differs
  simp at differs

theorem Owned.mono {busy' : List Callable} {name : String} {token : Token}
    (owned : Owned linkage.program busy before name token)
    (recorded : forall name, name ∈ before.records.methodNames -> name ∈ after.records.methodNames)
    (waiting : forall callable, callable ∈ busy ∨ callable ∈ before.pending ->
      linkage.program.mangle callable = .ok name ->
      name ∈ after.records.methodNames ∨ callable ∈ busy' ∨ callable ∈ after.pending) :
    Owned linkage.program busy' after name token := by
  rcases owned with ⟨callable, known, same, mangles, state⟩
  refine ⟨callable, known, same, mangles, ?_⟩
  rcases state with isAbstract | hasRecord | isBusy | isPending
  · exact Or.inl isAbstract
  · exact Or.inr (Or.inl (recorded name hasRecord))
  · exact Or.inr (waiting callable (Or.inl isBusy) mangles)
  · exact Or.inr (waiting callable (Or.inr isPending) mangles)

theorem Tracked.event (tracked : Tracked linkage busy finished before)
    (event : Event linkage before after) : Tracked linkage busy finished after := by
  have grown := tracked.grown.trans event.keeps.registry
  cases event with
  | types only =>
      refine ⟨grown, ?_, ?_, ?_, ?_⟩
      · rw [only.callables]
        exact tracked.distinct
      · intro name token member
        rw [only.callables] at member
        refine (tracked.owners name token member).mono ?_ ?_
        · rw [only.methodNames]
          exact fun _ recorded => recorded
        · rw [only.pending]
          exact fun _ waiting _ => Or.inr waiting
      · rw [only.pending]
        exact tracked.queued
      · rw [only.pending, only.callables]
        exact tracked.counted
  | @claims callable name between known mangles fresh signature =>
      have pending : between.pending = before.pending := signature.pending
      have callables : (between.withPending callable).callables =
          (name, callable.token) :: before.callables := by
        rw [withPending_callables, signature.callables]
        rfl
      refine ⟨grown, ?_, ?_, ?_, ?_⟩
      · rw [callables]
        exact List.nodup_cons.mpr ⟨not_mem_keys_of_lookup fresh, tracked.distinct⟩
      · intro other token member
        rw [callables] at member
        rcases List.mem_cons.mp member with isNew | earlier
        · cases isNew
          refine ⟨callable, known, rfl, mangles, ?_⟩
          cases isAbstract : callable.isAbstract with
          | true => exact Or.inl rfl
          | false => exact Or.inr (Or.inr (Or.inr (mem_withPending_self isAbstract)))
        · refine (tracked.owners other token earlier).mono ?_ ?_
          · rw [withPending_records, signature.methodNames]
            exact fun _ recorded => recorded
          · intro waiting position _
            rcases position with isBusy | isPending
            · exact Or.inr (Or.inl isBusy)
            · rw [← pending] at isPending
              exact Or.inr (Or.inr (mem_withPending isPending))
      · intro waiting member
        rcases mem_of_mem_withPending member with same | earlier
        · rw [same]
          exact known
        · rw [pending] at earlier
          exact tracked.queued waiting earlier
      · have longer := length_withPending between callable
        have counted := tracked.counted
        rw [pending] at longer
        rw [callables, List.length_cons]
        omega
  | binds name symbol =>
      refine ⟨grown, tracked.distinct, ?_, tracked.queued, tracked.counted⟩
      intro other token member
      exact (tracked.owners other token member).mono (fun _ recorded => recorded)
        (fun _ waiting _ => Or.inr waiting)

theorem Tracked.reaches (tracked : Tracked linkage busy finished before)
    (reaches : Reaches linkage before after) : Tracked linkage busy finished after := by
  induction reaches with
  | refl => exact tracked
  | tail _ event inductionHypothesis => exact inductionHypothesis.event event

/-- A name determines its owner and an owner its name, so there are no more
names than callables. -/
theorem Tracked.length_callables_le (tracked : Tracked linkage busy finished before) :
    before.callables.length ≤ linkage.program.callables.length := by
  have tokens : (before.callables.map Prod.snd).Nodup := by
    refine List.Nodup.map_on ?_ (List.Nodup.of_map Prod.fst tracked.distinct)
    rintro ⟨first, token⟩ firstMember ⟨second, other⟩ secondMember same
    rcases tracked.owners first token firstMember with ⟨owner, known, ofOwner, mangles, _⟩
    rcases tracked.owners second other secondMember with ⟨rival, rivalKnown, ofRival, rivals, _⟩
    have sameToken : owner.token = rival.token := by
      rw [ofOwner, ofRival]
      exact same
    rw [known.eq_of_token rivalKnown sameToken, rivals] at mangles
    exact Prod.ext (Except.ok.inj mangles).symm same
  have included : before.callables.map Prod.snd ⊆
      linkage.program.callables.map Callable.token := by
    intro token member
    rcases List.mem_map.mp member with ⟨⟨name, owned⟩, among, same⟩
    rcases tracked.owners name owned among with ⟨owner, known, ofOwner, _⟩
    exact List.mem_map.mpr ⟨owner, known.mem_callables, ofOwner.trans same⟩
  have bound := (tokens.subperm included).length_le
  rw [List.length_map, List.length_map] at bound
  exact bound

/-- Once nothing is left to lower, an owner of a name has a record or is
abstract. -/
theorem Tracked.settled (tracked : Tracked linkage [] finished before)
    (empty : before.pending = []) {name : String} {token : Token}
    (owned : before.callables.lookup name = some token) :
    exists callable, linkage.program.Known callable ∧ callable.token = token ∧
      linkage.program.mangle callable = .ok name ∧
      (callable.isAbstract = true ∨ name ∈ before.records.methodNames) := by
  rcases List.lookup_eq_some_iff.mp owned with ⟨front, back, split, _⟩
  have member : (name, token) ∈ before.callables := by
    rw [split]
    exact List.mem_append_right _ List.mem_cons_self
  rcases tracked.owners name token member with ⟨callable, known, same, mangles, state⟩
  refine ⟨callable, known, same, mangles, ?_⟩
  rcases state with isAbstract | hasRecord | isBusy | isPending
  · exact Or.inl isAbstract
  · exact Or.inr hasRecord
  · cases isBusy
  · rw [empty] at isPending
    cases isPending

theorem Tracked.pop {callable : Callable} {rest : List Callable}
    (tracked : Tracked linkage [] finished before) (waiting : before.pending = callable :: rest) :
    Tracked linkage [callable] finished { before with pending := rest } where
  grown := tracked.grown
  distinct := tracked.distinct
  owners := by
    intro name token member
    refine (tracked.owners name token member).mono (fun _ recorded => recorded) ?_
    rintro other (impossible | isPending) _
    · cases impossible
    · rw [waiting] at isPending
      rcases List.mem_cons.mp isPending with same | later
      · exact Or.inr (Or.inl (List.mem_singleton.mpr same))
      · exact Or.inr (Or.inr later)
  queued := by
    intro other member
    apply tracked.queued other
    rw [waiting]
    exact List.mem_cons_of_mem callable member
  counted := by
    have counted := tracked.counted
    rw [waiting] at counted
    simp only [List.length_cons, List.length_nil] at counted ⊢
    omega

theorem mem_methodNames_addMethod {records : Records} {record : MethodRecord} {name : String} :
    name ∈ (records.addMethod record).2.methodNames ↔
      name = record.name ∨ name ∈ records.methodNames := by
  unfold Records.addMethod
  split
  · rename_i taken
    constructor
    · exact Or.inr
    · rintro (same | earlier)
      · rw [same]
        exact List.contains_iff_mem.mp taken
      · exact earlier
  · exact Ordered.mem_insertName _ _ _

theorem Tracked.lowers {callable : Callable} {name : String} {body : Body}
    {lowered : LoweredBody} {between : Session}
    (tracked : Tracked linkage [callable] finished before)
    (lowers : Lowers linkage callable before after name body lowered between) :
    Tracked linkage [] (finished + 1) after := by
  have reached := tracked.reaches lowers.reaches
  rw [lowers.recorded]
  refine ⟨reached.grown, reached.distinct, ?_, reached.queued, ?_⟩
  · intro other token member
    refine (reached.owners other token member).mono ?_ ?_
    · intro recorded earlier
      exact mem_methodNames_addMethod.mpr (Or.inr earlier)
    · rintro waiting (isBusy | isPending) mangles
      · rw [List.mem_singleton.mp isBusy, lowers.mangles] at mangles
        exact Or.inl (mem_methodNames_addMethod.mpr (Or.inl (Except.ok.inj mangles).symm))
      · exact Or.inr (Or.inr isPending)
  · have counted := reached.counted
    simp only [List.length_cons, List.length_nil] at counted ⊢
    omega

/-- Marking a type has no effect on callables. -/
theorem Tracked.follows {type : Token} {table : Dispatch.Table}
    (tracked : Tracked linkage busy finished before)
    (follows : Follows linkage type before after table) : Tracked linkage busy finished after := by
  have marked : Tracked linkage busy finished
      { before with dispatched := type :: before.dispatched } :=
    ⟨tracked.grown, tracked.distinct, tracked.owners, tracked.queued, tracked.counted⟩
  exact marked.reaches follows.reaches

end Invariant

/-! ## Progress -/

/-- The ways in which a session goes on. -/
inductive Progress (linkage : Linkage) (before after : Session) : Prop
  | event (event : Event linkage before after) : Progress linkage before after
  | lowers {callable : Callable} {rest : List Callable} {name : String} {body : Body}
      {lowered : LoweredBody} {between : Session} (known : linkage.program.Known callable)
      (waiting : before.pending = callable :: rest)
      (lowers : Lowers linkage callable { before with pending := rest } after name body lowered
        between) : Progress linkage before after
  | follows {type : Token} {table : Dispatch.Table}
      (follows : Follows linkage type before after table) : Progress linkage before after

/-- One session leads to another by progress. -/
def Progresses (linkage : Linkage) : Session -> Session -> Prop :=
  Relation.ReflTransGen (Progress linkage)

section Progress

variable {linkage : Linkage} {before after later : Session}

theorem Progresses.refl : Progresses linkage before before :=
  Relation.ReflTransGen.refl

theorem Progresses.trans (first : Progresses linkage before after)
    (second : Progresses linkage after later) : Progresses linkage before later :=
  Relation.ReflTransGen.trans first second

theorem Progress.progresses (progress : Progress linkage before after) :
    Progresses linkage before after :=
  Relation.ReflTransGen.single progress

theorem Reaches.progresses (reaches : Reaches linkage before after) :
    Progresses linkage before after := by
  induction reaches with
  | refl => exact .refl
  | tail _ event inductionHypothesis => exact inductionHypothesis.tail (.event event)

theorem Progress.keeps (progress : Progress linkage before after) :
    Keeps linkage before after := by
  cases progress with
  | event event => exact event.keeps
  | @lowers callable rest name body lowered between known waiting lowers =>
      exact (keeps_withQueue rest before.dispatched).trans lowers.keeps
  | @follows type table follows =>
      exact (keeps_withQueue before.pending (type :: before.dispatched)).trans
        follows.reaches.keeps

theorem Progresses.keeps (progresses : Progresses linkage before after) :
    Keeps linkage before after := by
  induction progresses with
  | refl => exact .refl
  | tail _ progress inductionHypothesis => exact inductionHypothesis.trans progress.keeps

/-- What events, changes of the queue and of the marks, and new method records
preserve holds on. -/
theorem Progresses.preserves (progresses : Progresses linkage before after)
    (holds : Session -> Prop)
    (onEvent : forall {first second : Session}, Event linkage first second -> holds first ->
      holds second)
    (onQueue : forall (session : Session) (pending : List Callable) (dispatched : List Token),
      holds session -> holds { session with pending := pending, dispatched := dispatched })
    (onRecord : forall (session : Session) (record : MethodRecord), holds session ->
      holds { session with records := (session.records.addMethod record).2 })
    (start : holds before) : holds after := by
  have onReaches : forall {first second : Session}, Reaches linkage first second ->
      holds first -> holds second := by
    intro first second reaches given
    induction reaches with
    | refl => exact given
    | tail _ event inductionHypothesis => exact onEvent event inductionHypothesis
  induction progresses with
  | refl => exact start
  | @tail between after _ progress inductionHypothesis =>
      cases progress with
      | event event => exact onEvent event inductionHypothesis
      | @lowers callable rest name body lowered reached known waiting lowers =>
          have popped := onQueue between rest between.dispatched inductionHypothesis
          rw [lowers.recorded]
          exact onRecord reached _ (onReaches lowers.reaches popped)
      | @follows type table follows =>
          have marked := onQueue between between.pending (type :: between.dispatched)
            inductionHypothesis
          exact onReaches follows.reaches marked

/-- The slots of every marked type have been met. -/
def Followed (linkage : Linkage) (session : Session) : Prop :=
  forall type, type ∈ session.dispatched -> exists table,
    Dispatch.Registry.Tabled linkage session.registry type table ∧
      forall slot, slot ∈ table.slots -> slot.isAbstract = false -> SlotMet linkage session slot

theorem Followed.progress (followed : Followed linkage before)
    (progress : Progress linkage before after) : Followed linkage after := by
  have kept : forall type, type ∈ before.dispatched -> exists table,
      Dispatch.Registry.Tabled linkage after.registry type table ∧
        forall slot, slot ∈ table.slots -> slot.isAbstract = false ->
          SlotMet linkage after slot := by
    intro type marked
    rcases followed type marked with ⟨table, tabled, met⟩
    exact ⟨table, tabled.grows progress.keeps.registry, fun slot member isConcrete =>
      (met slot member isConcrete).keeps progress.keeps⟩
  intro type marked
  cases progress with
  | event event =>
      rw [event.dispatched] at marked
      exact kept type marked
  | lowers known waiting lowers =>
      rw [lowers.recorded] at marked
      have same := lowers.reaches.dispatched
      exact kept type (same ▸ marked)
  | @follows now table follows =>
      rw [follows.reaches.dispatched] at marked
      rcases List.mem_cons.mp marked with isNow | earlier
      · rw [isNow]
        exact ⟨table, follows.tabled, follows.met⟩
      · exact kept type earlier

theorem Progresses.followed (progresses : Progresses linkage {} after) :
    Followed linkage after := by
  induction progresses with
  | refl => exact fun _ marked => absurd marked List.not_mem_nil
  | tail _ progress inductionHypothesis => exact inductionHypothesis.progress progress

end Progress

/-! ## The loops -/

section Loops

variable {linkage : Linkage} {finished : Nat} {before after : Session}

/-- Draining empties the queue.  The fuel exceeds the number of callables that
are still to come, and each round finishes one. -/
theorem Tracked.drainWith {fuel : Nat} (tracked : Tracked linkage [] finished before)
    (enough : linkage.program.callables.length < finished + fuel)
    (drained : Session.drainWith linkage fuel before = .ok ((), after)) :
    exists total, Tracked linkage [] total after ∧ after.pending = [] ∧
      finished + min 1 before.pending.length ≤ total ∧ Progresses linkage before after := by
  induction fuel generalizing before finished with
  | zero =>
      have counted := tracked.counted
      have bound := tracked.length_callables_le
      omega
  | succ fuel inductionHypothesis =>
      rcases bind_eq_ok drained with ⟨session, between, got, continued⟩
      cases got
      cases waiting : before.pending with
      | nil =>
          simp only [waiting] at continued
          cases continued
          exact ⟨finished, tracked, waiting, by simp, .refl⟩
      | cons callable rest =>
          simp only [waiting] at continued
          rcases bind_eq_ok continued with ⟨_, popped, popping, lowering⟩
          cases popping
          rcases bind_eq_ok lowering with ⟨_, reached, lowered, remaining⟩
          rcases lower_eq_ok lowered with ⟨name, body, nodes, between, lowers⟩
          have known : linkage.program.Known callable := by
            apply tracked.queued callable
            rw [waiting]
            exact List.mem_cons_self
          have next := (tracked.pop waiting).lowers lowers
          have progress : Progress linkage before reached := .lowers known waiting lowers
          rcases inductionHypothesis next (by omega) remaining with
            ⟨total, final, empty, grown, progresses⟩
          refine ⟨total, final, empty, ?_, progress.progresses.trans progresses⟩
          omega

/-- The registered types that are not marked. -/
def unmarked (session : Session) : List Token :=
  session.registry.types.filter (fun type => !session.dispatched.contains type)

theorem unmarked_subset (session : Session) : session.unmarked ⊆ session.registry.types :=
  fun _ member => (List.mem_filter.mp member).1

/-- Follow the slots of one type after another. -/
def followTypes (linkage : Linkage) (types : List Token) : Step PUnit :=
  forIn types PUnit.unit fun type _ => do
    dispatchType linkage type
    pure (ForInStep.yield PUnit.unit)

theorem Tracked.exists_layout {busy : List Callable} {type : Token}
    (tracked : Tracked linkage busy finished before) (registered : type ∈ before.registry.types) :
    exists layout, before.registry.layout? type = some layout ∧
      linkage.program.innermost type = .ok type := by
  rcases Dispatch.Registry.mem_types_iff.mp registered with ⟨layout, found⟩
  rcases tracked.grown.made found with ⟨_, _, _, _, _, origin⟩
  exact ⟨layout, found, origin.plain⟩

/-- Following a list of types marks them all. -/
theorem Tracked.followTypes {types : List Token} {result : PUnit}
    (tracked : Tracked linkage [] finished before) (registered : types ⊆ before.registry.types)
    (followed : Session.followTypes linkage types before = .ok (result, after)) :
    Tracked linkage [] finished after ∧ Progresses linkage before after ∧
      before.dispatched ⊆ after.dispatched ∧ types ⊆ after.dispatched := by
  refine forIn_induction (fun done session => Tracked linkage [] finished session ∧
    Progresses linkage before session ∧ before.dispatched ⊆ session.dispatched ∧
      done ⊆ session.dispatched) followed
    ⟨tracked, .refl, List.Subset.refl _, List.nil_subset _⟩ ?_
  rintro done type first second member ⟨trackedNow, progresses, kept, marked⟩ follow
  rcases trackedNow.exists_layout
    (mem_types_grows progresses.keeps.registry (registered member)) with ⟨layout, found, canonical⟩
  rcases dispatchType_eq_ok trackedNow.known canonical found follow with ⟨table, follows⟩
  have dispatched : second.dispatched = type :: first.dispatched := follows.reaches.dispatched
  have progress : Progress linkage first second := .follows follows
  refine ⟨trackedNow.follows follows, progresses.trans progress.progresses, ?_, ?_⟩
  · rw [dispatched]
    exact List.subset_cons_of_subset type kept
  · rw [dispatched]
    refine List.append_subset.mpr ⟨List.subset_cons_of_subset type marked, ?_⟩
    exact List.cons_subset.mpr ⟨List.mem_cons_self, List.nil_subset _⟩

/-- A round marks a type of the program that was not marked.  Rounds are counted by
the types of the program, not by those registered, because following a slot may
register more of them. -/
theorem Tracked.card_unseen_followTypes {result : PUnit}
    (tracked : Tracked linkage [] finished before) (some : before.unmarked ≠ [])
    (followed : Session.followTypes linkage before.unmarked before = .ok (result, after)) :
    (unseen linkage.program after.dispatched).card <
      (unseen linkage.program before.dispatched).card := by
  rcases tracked.followTypes before.unmarked_subset followed with ⟨_, _, kept, marked⟩
  rcases List.exists_mem_of_ne_nil _ some with ⟨type, member⟩
  have fresh : type ∉ before.dispatched := by
    have isFresh := (List.mem_filter.mp member).2
    simpa using isFresh
  exact card_unseen_lt kept (tracked.grown.mem_types (before.unmarked_subset member)) fresh
    (marked member)

/-- Following slots marks every registered type.  The fuel exceeds the number
of types that are not marked, and each round marks one. -/
theorem Tracked.dispatchWith {fuel : Nat} (tracked : Tracked linkage [] finished before)
    (enough : (unseen linkage.program before.dispatched).card < fuel)
    (followed : Session.dispatchWith linkage fuel before = .ok ((), after)) :
    Tracked linkage [] finished after ∧ Progresses linkage before after ∧
      after.registry.types ⊆ after.dispatched := by
  induction fuel generalizing before with
  | zero => exact absurd enough (Nat.not_lt_zero _)
  | succ fuel inductionHypothesis =>
      rcases bind_eq_ok followed with ⟨session, between, got, continued⟩
      cases got
      cases fresh : before.registry.types.filter (fun type => !before.dispatched.contains type) with
      | nil =>
          simp only [fresh] at continued
          cases continued
          refine ⟨tracked, .refl, ?_⟩
          intro type registered
          have marked := List.filter_eq_nil_iff.mp fresh type registered
          simpa using marked
      | cons type rest =>
          have isFresh : before.unmarked = type :: rest := fresh
          have some : before.unmarked ≠ [] := fun none => nomatch isFresh.symm.trans none
          simp only [fresh] at continued
          rw [← isFresh] at continued
          rcases bind_eq_ok continued with ⟨_, looped, loop, remaining⟩
          rcases tracked.followTypes before.unmarked_subset loop with ⟨trackedNow, progresses, _⟩
          have fewer := tracked.card_unseen_followTypes some loop
          rcases inductionHypothesis trackedNow (by omega) remaining with ⟨final, later, all⟩
          exact ⟨final, progresses.trans later, all⟩

/-- The rounds end.  Every round but the first starts with a queue that is not
empty and so finishes a callable. -/
theorem Tracked.closeWith {followSlots : Bool} {fuel : Nat}
    (tracked : Tracked linkage [] finished before)
    (enough : linkage.program.callables.length <
      finished + fuel + min 1 before.pending.length)
    (closed : Session.closeWith linkage followSlots fuel before = .ok ((), after)) :
    exists total, Tracked linkage [] total after ∧ after.pending = [] ∧
      Progresses linkage before after ∧
      (followSlots = true -> after.registry.types ⊆ after.dispatched) := by
  induction fuel generalizing before finished with
  | zero =>
      have counted := tracked.counted
      have bound := tracked.length_callables_le
      simp only [List.length_nil] at counted
      omega
  | succ fuel inductionHypothesis =>
      rcases bind_eq_ok closed with ⟨_, drained, draining, continued⟩
      have fuelEnough : linkage.program.callables.length <
          finished + (linkage.program.callables.length + 1) := by omega
      rcases tracked.drainWith fuelEnough draining with
        ⟨total, trackedNow, empty, grown, progresses⟩
      cases followSlots with
      | false =>
          simp only [Bool.false_eq_true, if_false] at continued
          cases continued
          exact ⟨total, trackedNow, empty, progresses, fun impossible => nomatch impossible⟩
      | true =>
          simp only [if_true] at continued
          rcases bind_eq_ok continued with ⟨queued, dispatched, dispatching, remaining⟩
          rcases bind_eq_ok dispatching with ⟨_, reached, following, reading⟩
          cases reading
          have typesEnough : (unseen linkage.program drained.dispatched).card <
              linkage.program.types.length + 1 :=
            Nat.lt_succ_of_le (card_unseen_le linkage.program drained.dispatched)
          rcases trackedNow.dispatchWith typesEnough following with
            ⟨trackedThen, further, marked⟩
          -- The queue alone decides whether another round follows: all registered types are
          -- marked in either case, but lowering what waits may register others.
          cases waiting : dispatched.pending with
          | nil =>
              rw [waiting] at remaining
              cases remaining
              exact ⟨total, trackedThen, waiting, progresses.trans further, fun _ => marked⟩
          | cons callable rest =>
              rw [waiting] at remaining
              have counted : linkage.program.callables.length <
                  total + fuel + min 1 dispatched.pending.length := by
                rw [waiting, List.length_cons]
                omega
              rcases inductionHypothesis trackedThen counted remaining with
                ⟨final, trackedLast, emptyLast, last, all⟩
              exact ⟨final, trackedLast, emptyLast, progresses.trans (further.trans last), all⟩

/-- Ask for one callable after another. -/
def referAll (linkage : Linkage) (entries : List Callable) : Step PUnit :=
  forIn entries PUnit.unit fun entry _ => do
    refer linkage entry
    pure (ForInStep.yield PUnit.unit)

theorem referAll_reaches {entries : List Callable} {result : PUnit}
    (known : forall entry, entry ∈ entries -> linkage.program.Known entry)
    (referred : referAll linkage entries before = .ok (result, after)) :
    Reaches linkage before after ∧ forall entry, entry ∈ entries -> exists resolved,
      linkage.resolveCallable entry = .ok resolved ∧ Dealt linkage after resolved := by
  refine forIn_induction
    (fun finished session => Reaches linkage before session ∧ forall entry, entry ∈ finished ->
      exists resolved, linkage.resolveCallable entry = .ok resolved ∧
        Dealt linkage session resolved)
    referred ⟨.refl, fun entry member => absurd member List.not_mem_nil⟩ ?_
  intro finished entry first second member given refers
  rcases refer_reaches (known entry member) refers with ⟨reaches, resolved, resolves, dealt⟩
  refine ⟨given.1.trans reaches, ?_⟩
  intro other among
  rcases List.mem_append.mp among with earlier | now
  · rcases given.2 other earlier with ⟨before, resolvesBefore, dealtBefore⟩
    exact ⟨before, resolvesBefore, dealtBefore.keeps reaches.keeps⟩
  · rw [List.mem_singleton.mp now]
    exact ⟨resolved, resolves, dealt⟩

/-- A session refers to its entries and then goes on in rounds. -/
theorem close_referred {followSlots : Bool} {entries : List Callable}
    (known : forall entry, entry ∈ entries -> linkage.program.Known entry)
    (closed : close linkage followSlots entries {} = .ok ((), after)) :
    exists referred, Reaches linkage {} referred ∧
      (forall entry, entry ∈ entries -> exists resolved,
        linkage.resolveCallable entry = .ok resolved ∧ Dealt linkage referred resolved) ∧
      closeWith linkage followSlots (linkage.program.callables.length + 1) referred =
        .ok ((), after) := by
  rcases bind_eq_ok closed with ⟨_, referred, loop, closing⟩
  rcases referAll_reaches known loop with ⟨reaches, dealt⟩
  exact ⟨referred, reaches, dealt, closing⟩

/-- At the end of a session nothing waits and, if slots are followed, every
registered type is marked. -/
theorem close_tracked {followSlots : Bool} {entries : List Callable}
    (known : forall entry, entry ∈ entries -> linkage.program.Known entry)
    (closed : close linkage followSlots entries {} = .ok ((), after)) :
    exists total, Tracked linkage [] total after ∧ after.pending = [] ∧
      Progresses linkage {} after ∧
      (followSlots = true -> after.registry.types ⊆ after.dispatched) := by
  rcases close_referred known closed with ⟨referred, reaches, _, closing⟩
  have tracked := (tracked_start linkage).reaches reaches
  have enough : linkage.program.callables.length <
      0 + (linkage.program.callables.length + 1) + min 1 referred.pending.length := by omega
  rcases tracked.closeWith enough closing with ⟨total, final, empty, progresses, marked⟩
  exact ⟨total, final, empty, reaches.progresses.trans progresses, marked⟩

/-- At the end of a session every entry has been dealt with. -/
theorem close_dealt {followSlots : Bool} {entries : List Callable}
    (known : forall entry, entry ∈ entries -> linkage.program.Known entry)
    (closed : close linkage followSlots entries {} = .ok ((), after)) {entry : Callable}
    (member : entry ∈ entries) : exists resolved,
      linkage.resolveCallable entry = .ok resolved ∧ Dealt linkage after resolved := by
  rcases close_referred known closed with ⟨referred, reaches, dealt, closing⟩
  have tracked := (tracked_start linkage).reaches reaches
  have enough : linkage.program.callables.length <
      0 + (linkage.program.callables.length + 1) + min 1 referred.pending.length := by omega
  rcases tracked.closeWith enough closing with ⟨_, _, _, progresses, _⟩
  rcases dealt entry member with ⟨resolved, resolves, dealtThen⟩
  exact ⟨resolved, resolves, dealtThen.keeps progresses.keeps⟩

end Loops

end Session
end Compilation
end CilGraph
