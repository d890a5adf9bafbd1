import CilGraph.Proofs.Compilation.Targets

namespace CilGraph
namespace Compilation

/-!
# Who owns a name

A session gives every name to one definition.  A type claims its full name when
it is taken in, and a callable claims its mangled name when it is asked for.  So
two types that were taken in have different full names, and two callables that
were asked for have different mangled names.  The record of a callable is made
from its own body and is never dropped in favour of another.

The names of types are checked in one form only.  The record of static fields
has a mark after the full name, and a type whose full name ends in that mark has
the same name for its record of instance fields.  Only one of the two records
is kept then, and nothing is reported.  `sampleTwins` is such a program.
-/

/-- A record is what lowering the body of a callable gives. -/
def Translates (linkage : Linkage) (callable : Callable) (record : MethodRecord) : Prop :=
  exists name body lowered, linkage.program.mangle callable = .ok name ∧
    callable.body = some body ∧
    (Lowering.lower ⟨linkage, name⟩ body.code).result = .ok lowered ∧
    record = Session.recordOf name callable body lowered

namespace Session

/-- A callable owns its name. -/
def Asked (program : Program) (session : Session) (callable : Callable) : Prop :=
  exists name, program.mangle callable = .ok name ∧
    session.callables.lookup name = some callable.token

/-- Names tell apart what has a record: types among themselves, for either kind
of record, and callables among themselves. -/
structure Separates (linkage : Linkage) (session : Session) : Prop where
  types : forall first second firstType secondType, session.Touches first ->
    session.Touches second -> linkage.program.typeDef first = .ok firstType ->
    linkage.program.typeDef second = .ok secondType -> forall isStatic,
      firstType.recordName isStatic = secondType.recordName isStatic -> first = second
  callables : forall first second, linkage.program.Known first ->
    linkage.program.Known second -> Asked linkage.program session first ->
    Asked linkage.program session second ->
    linkage.program.mangle first = linkage.program.mangle second -> first = second
  kept : forall callable, linkage.program.Known callable ->
    Asked linkage.program session callable -> callable.isAbstract = true ∨
      exists record, record ∈ session.records.methods ∧ Translates linkage callable record
  made : forall record, record ∈ session.records.methods -> exists callable,
    linkage.program.Known callable ∧ Asked linkage.program session callable ∧
      Translates linkage callable record

/-! ## Types -/

section Types

variable {linkage : Linkage} {before after : Session}

/-- Every type that was taken in owns its name. -/
def Claimed (linkage : Linkage) (session : Session) : Prop :=
  forall type, session.Touches type -> session.OwnsName linkage.program type

theorem Claimed.typesOnly (claimed : Claimed linkage before)
    (only : TypesOnly linkage before after) : Claimed linkage after := by
  intro type touched
  rcases only.touched type touched with earlier | owns
  · exact (claimed type earlier).mono only.owners
  · exact owns

theorem Claimed.event (claimed : Claimed linkage before) (event : Event linkage before after) :
    Claimed linkage after := by
  cases event with
  | types only => exact claimed.typesOnly only.toTypesOnly
  | @claims callable name between known mangles fresh signature =>
      have named : Claimed linkage (before.withClaim name callable.token) := claimed
      have taken := named.typesOnly signature.toTypesOnly
      unfold withPending
      split
      · exact taken
      · exact taken
  | binds name symbol => exact claimed

theorem Progresses.claimed (progresses : Progresses linkage {} after) :
    Claimed linkage after := by
  refine progresses.preserves (Claimed linkage) (fun event claimed => claimed.event event)
    (fun _ _ _ claimed => claimed) (fun _ _ claimed => claimed) ?_
  rintro type (whole | isStatic)
  · cases whole
  · cases isStatic

theorem fullName_of_recordName {first second : TypeDef} {isStatic : Bool}
    (same : first.recordName isStatic = second.recordName isStatic) :
    first.fullName = second.fullName := by
  cases isStatic with
  | false => exact same
  | true => exact (String.append_left_inj _).mp same

/-- A full name has one owner, so types that share a record name of one kind
are the same. -/
theorem Claimed.eq_of_recordName (claimed : Claimed linkage before) {first second : Token}
    {firstType secondType : TypeDef} {isStatic : Bool} (touchesFirst : before.Touches first)
    (touchesSecond : before.Touches second)
    (isFirst : linkage.program.typeDef first = .ok firstType)
    (isSecond : linkage.program.typeDef second = .ok secondType)
    (same : firstType.recordName isStatic = secondType.recordName isStatic) : first = second := by
  rcases claimed first touchesFirst with ⟨name, named, owned⟩
  rcases claimed second touchesSecond with ⟨rival, rivalNamed, rivalOwned⟩
  unfold Program.typeName at named rivalNamed
  rw [isFirst] at named
  rw [isSecond] at rivalNamed
  rw [← Except.ok.inj named, fullName_of_recordName same] at owned
  rw [← Except.ok.inj rivalNamed, owned] at rivalOwned
  exact Option.some.inj rivalOwned

end Types

/-! ## Callables -/

section Callables

variable {linkage : Linkage} {busy : List Callable} {before after : Session}

theorem Asked.eq_of_mangle {first second : Callable}
    (asked : Asked linkage.program before first) (rival : Asked linkage.program before second)
    (known : linkage.program.Known first) (rivalKnown : linkage.program.Known second)
    (same : linkage.program.mangle first = linkage.program.mangle second) : first = second := by
  rcases asked with ⟨name, mangles, owned⟩
  rcases rival with ⟨other, rivals, rivalOwned⟩
  rw [same, rivals] at mangles
  rw [Except.ok.inj mangles, owned] at rivalOwned
  exact known.eq_of_token rivalKnown (Option.some.inj rivalOwned)

theorem Asked.keeps {callable : Callable} (asked : Asked linkage.program before callable)
    (keeps : Keeps linkage before after) : Asked linkage.program after callable := by
  rcases asked with ⟨name, mangles, owned⟩
  exact ⟨name, mangles, keeps.lookup owned⟩

/-- A callable that waits to be lowered owns its name, and nothing was recorded
under it. -/
structure Awaits (linkage : Linkage) (session : Session) (callable : Callable) : Prop where
  known : linkage.program.Known callable
  asked : Asked linkage.program session callable
  unrecorded : forall name, linkage.program.mangle callable = .ok name ->
    name ∉ session.records.methodNames

/-- Every record is told by its name from what is still to be lowered.  The
callables in `busy` are being lowered. -/
structure Attributed (linkage : Linkage) (busy : List Callable) (session : Session) : Prop where
  waiting : forall callable, callable ∈ busy ++ session.pending -> Awaits linkage session callable
  distinct : (busy ++ session.pending).Nodup
  recorded : forall name, name ∈ session.records.methodNames ->
    name ∈ session.callables.map Prod.fst
  kept : forall callable, linkage.program.Known callable ->
    Asked linkage.program session callable -> callable.isAbstract = true ∨
      callable ∈ busy ++ session.pending ∨
      exists record, record ∈ session.records.methods ∧ Translates linkage callable record
  made : forall record, record ∈ session.records.methods -> exists callable,
    linkage.program.Known callable ∧ Asked linkage.program session callable ∧
      Translates linkage callable record

theorem attributed_start (linkage : Linkage) : Attributed linkage [] {} where
  waiting := fun _ member => absurd member List.not_mem_nil
  distinct := List.nodup_nil
  recorded := fun _ member => absurd member List.not_mem_nil
  kept := by
    rintro callable _ ⟨name, _, owned⟩
    cases owned
  made := fun _ member => absurd member List.not_mem_nil

/-- Callables and their records are as they were. -/
theorem Attributed.unchanged (attributed : Attributed linkage busy before)
    (pending : after.pending = before.pending) (callables : after.callables = before.callables)
    (methods : after.records.methods = before.records.methods)
    (methodNames : after.records.methodNames = before.records.methodNames) :
    Attributed linkage busy after := by
  have sameAsked : forall callable, Asked linkage.program after callable ↔
      Asked linkage.program before callable := by
    intro callable
    unfold Asked
    rw [callables]
  refine ⟨?_, ?_, ?_, ?_, ?_⟩
  · intro callable member
    rw [pending] at member
    have awaits := attributed.waiting callable member
    refine ⟨awaits.known, (sameAsked callable).mpr awaits.asked, ?_⟩
    rw [methodNames]
    exact awaits.unrecorded
  · rw [pending]
    exact attributed.distinct
  · rw [methodNames, callables]
    exact attributed.recorded
  · intro callable known asked
    rw [pending, methods]
    exact attributed.kept callable known ((sameAsked callable).mp asked)
  · intro record member
    rw [methods] at member
    rcases attributed.made record member with ⟨callable, known, asked, translates⟩
    exact ⟨callable, known, (sameAsked callable).mpr asked, translates⟩

/-- Only the new owner of a fresh name is asked for that was not before. -/
theorem asked_withClaim {callable other : Callable} {name : String}
    (known : linkage.program.Known callable) (otherKnown : linkage.program.Known other)
    (asked : Asked linkage.program (before.withClaim name callable.token) other) :
    other = callable ∨ Asked linkage.program before other := by
  rcases asked with ⟨shown, mangles, owned⟩
  unfold withClaim at owned
  rw [List.lookup_cons] at owned
  split at owned
  · exact Or.inl (otherKnown.eq_of_token known (Option.some.inj owned).symm)
  · exact Or.inr ⟨shown, mangles, owned⟩

theorem mem_waiting_withPending {callable other : Callable}
    (member : other ∈ busy ++ before.pending) :
    other ∈ busy ++ (before.withPending callable).pending :=
  List.mem_append.mpr ((List.mem_append.mp member).imp_right mem_withPending)

theorem mem_waiting_of_withPending {callable other : Callable}
    (member : other ∈ busy ++ (before.withPending callable).pending) :
    other = callable ∨ other ∈ busy ++ before.pending := by
  rcases List.mem_append.mp member with isBusy | isPending
  · exact Or.inr (List.mem_append_left _ isBusy)
  · exact (mem_of_mem_withPending isPending).imp_right (List.mem_append_right busy)

theorem nodup_waiting_withPending {callable : Callable}
    (distinct : (busy ++ before.pending).Nodup) (isNew : callable ∉ busy ++ before.pending) :
    (busy ++ (before.withPending callable).pending).Nodup := by
  unfold withPending
  split
  · exact distinct
  · rw [← List.append_assoc]
    exact List.Nodup.append distinct (List.nodup_singleton _) (List.disjoint_singleton.mpr isNew)

/-- A callable that claims a fresh name is queued unless it is abstract. -/
theorem Attributed.claims {callable : Callable} {name : String}
    (attributed : Attributed linkage busy before) (known : linkage.program.Known callable)
    (mangles : linkage.program.mangle callable = .ok name)
    (fresh : before.callables.lookup name = none) :
    Attributed linkage busy ((before.withClaim name callable.token).withPending callable) := by
  have keeps : Keeps linkage before ((before.withClaim name callable.token).withPending callable) :=
    (keeps_withClaim fresh).trans (keeps_withPending callable)
  have isName : forall shown, linkage.program.mangle callable = .ok shown -> shown = name := by
    intro shown shownMangles
    rw [mangles] at shownMangles
    exact (Except.ok.inj shownMangles).symm
  have unasked : ¬ Asked linkage.program before callable := by
    rintro ⟨shown, shownMangles, owned⟩
    rw [isName shown shownMangles, fresh] at owned
    cases owned
  refine ⟨?_, ?_, ?_, ?_, ?_⟩
  · intro other member
    rcases mem_waiting_of_withPending member with isNew | earlier
    · rw [isNew]
      refine ⟨known, ⟨name, mangles, ?_⟩, ?_⟩
      · rw [withPending_callables]
        exact List.lookup_cons_self
      · intro shown shownMangles recorded
        rw [withPending_records, isName shown shownMangles] at recorded
        exact not_mem_keys_of_lookup fresh (attributed.recorded name recorded)
    · have awaits := attributed.waiting other earlier
      refine ⟨awaits.known, awaits.asked.keeps keeps, ?_⟩
      rw [withPending_records]
      exact awaits.unrecorded
  · refine nodup_waiting_withPending attributed.distinct ?_
    exact fun earlier => unasked (attributed.waiting callable earlier).asked
  · intro shown recorded
    rw [withPending_records] at recorded
    rw [withPending_callables]
    exact List.mem_cons_of_mem name (attributed.recorded shown recorded)
  · intro other otherKnown asked
    unfold Asked at asked
    rw [withPending_callables] at asked
    rw [withPending_records]
    rcases asked_withClaim known otherKnown asked with isNew | earlier
    · rw [isNew]
      cases isAbstract : callable.isAbstract with
      | true => exact Or.inl rfl
      | false =>
          exact Or.inr (Or.inl (List.mem_append_right _ (mem_withPending_self isAbstract)))
    · rcases attributed.kept other otherKnown earlier with isAbstract | waits | translated
      · exact Or.inl isAbstract
      · exact Or.inr (Or.inl (mem_waiting_withPending waits))
      · exact Or.inr (Or.inr translated)
  · intro record member
    rw [withPending_records] at member
    rcases attributed.made record member with ⟨other, otherKnown, asked, translates⟩
    exact ⟨other, otherKnown, asked.keeps keeps, translates⟩

theorem Attributed.event (attributed : Attributed linkage busy before)
    (event : Event linkage before after) : Attributed linkage busy after := by
  cases event with
  | types only =>
      exact attributed.unchanged only.pending only.callables only.methods only.methodNames
  | @claims callable name between known mangles fresh signature =>
      refine (attributed.claims known mangles fresh).unchanged ?_ ?_ ?_ ?_
      · unfold withPending
        split
        · exact signature.pending
        · exact congrArg (· ++ [callable]) signature.pending
      · rw [withPending_callables, withPending_callables]
        exact signature.callables
      · rw [withPending_records, withPending_records]
        exact signature.methods
      · rw [withPending_records, withPending_records]
        exact signature.methodNames
  | binds name symbol => exact attributed.unchanged rfl rfl rfl rfl

theorem Attributed.reaches (attributed : Attributed linkage busy before)
    (reaches : Reaches linkage before after) : Attributed linkage busy after := by
  induction reaches with
  | refl => exact attributed
  | tail _ event inductionHypothesis => exact inductionHypothesis.event event

theorem Attributed.pop {callable : Callable} {rest : List Callable}
    (attributed : Attributed linkage [] before) (queue : before.pending = callable :: rest) :
    Attributed linkage [callable] { before with pending := rest } := by
  rcases attributed with ⟨waiting, distinct, recorded, kept, made⟩
  rw [queue] at waiting distinct kept
  refine ⟨?_, distinct, recorded, kept, made⟩
  intro other member
  have awaits := waiting other member
  exact ⟨awaits.known, awaits.asked, awaits.unrecorded⟩

/-- A record under a fresh name is added. -/
theorem addMethod_of_fresh {records : Records} {record : MethodRecord}
    (fresh : record.name ∉ records.methodNames) :
    (records.addMethod record).2.methods = records.methods ++ [record] := by
  unfold Records.addMethod
  rw [if_neg (fun taken => fresh (List.contains_iff_mem.mp taken))]

/-- The record of a lowered callable is added, since its name was not recorded,
and no other callable waits under that name. -/
theorem Attributed.lowers {callable : Callable} {name : String} {body : Body}
    {lowered : LoweredBody} {between : Session}
    (attributed : Attributed linkage [callable] before)
    (lowers : Lowers linkage callable before after name body lowered between) :
    Attributed linkage [] after := by
  have reached := attributed.reaches lowers.reaches
  have current := reached.waiting callable List.mem_cons_self
  have added : (between.records.addMethod (recordOf name callable body lowered)).2.methods =
      between.records.methods ++ [recordOf name callable body lowered] :=
    addMethod_of_fresh (current.unrecorded name lowers.mangles)
  have translates : Translates linkage callable (recordOf name callable body lowered) :=
    ⟨name, body, lowered, lowers.mangles, lowers.hasBody, lowers.succeeds, rfl⟩
  have fresh := (List.nodup_cons.mp reached.distinct).1
  rw [lowers.recorded]
  refine ⟨?_, (List.nodup_cons.mp reached.distinct).2, ?_, ?_, ?_⟩
  · intro other member
    have awaits := reached.waiting other (List.mem_cons_of_mem callable member)
    refine ⟨awaits.known, awaits.asked, ?_⟩
    intro shown mangles recorded
    rcases mem_methodNames_addMethod.mp recorded with isNew | earlier
    -- Two callables that wait under one name are one callable, and none waits twice.
    · have sameName : linkage.program.mangle other = linkage.program.mangle callable := by
        rw [mangles, lowers.mangles, isNew]
        rfl
      have same := awaits.asked.eq_of_mangle current.asked awaits.known current.known sameName
      rw [same] at member
      exact fresh member
    · exact awaits.unrecorded shown mangles earlier
  · intro shown recorded
    rcases mem_methodNames_addMethod.mp recorded with isNew | earlier
    · rcases current.asked with ⟨owned, mangles, found⟩
      rw [lowers.mangles] at mangles
      rcases List.lookup_eq_some_iff.mp found with ⟨front, back, split, _⟩
      change shown = name at isNew
      rw [isNew, Except.ok.inj mangles]
      refine List.mem_map.mpr ⟨(owned, callable.token), ?_, rfl⟩
      rw [split]
      exact List.mem_append_right _ List.mem_cons_self
    · exact reached.recorded shown earlier
  · intro other otherKnown asked
    rw [added]
    rcases reached.kept other otherKnown asked with isAbstract | waits | ⟨record, member, made⟩
    · exact Or.inl isAbstract
    · rcases List.mem_cons.mp waits with isCurrent | waitsStill
      · rw [isCurrent]
        exact Or.inr (Or.inr ⟨_, List.mem_append_right _ List.mem_cons_self, translates⟩)
      · exact Or.inr (Or.inl waitsStill)
    · exact Or.inr (Or.inr ⟨record, List.mem_append_left _ member, made⟩)
  · intro record member
    rcases mem_methods_addMethod member with isNew | earlier
    · rw [isNew]
      exact ⟨callable, current.known, current.asked, translates⟩
    · exact reached.made record earlier

theorem Progresses.attributed (progresses : Progresses linkage {} after) :
    Attributed linkage [] after := by
  induction progresses with
  | refl => exact attributed_start linkage
  | @tail before after _ progress inductionHypothesis =>
      cases progress with
      | event event => exact inductionHypothesis.event event
      | @lowers callable rest name body lowered between known waiting lowers =>
          exact (inductionHypothesis.pop waiting).lowers lowers
      | @follows type table follows =>
          have marked : Attributed linkage []
              { before with dispatched := type :: before.dispatched } :=
            inductionHypothesis.unchanged rfl rfl rfl rfl
          exact marked.reaches follows.reaches

end Callables

end Session

/-- Types that were taken in differ in the names of their records of one kind,
and callables that were asked for differ in their names.  Each of these has a
record of its own unless it is abstract, and there are no other records. -/
theorem compile_separates {program : Program} {settings : Settings} {options : Options}
    {job : Job} {compilation : Compilation}
    (prepared : Job.Prepared program settings options job)
    (compiled : job.compile = .ok compilation) : exists session,
      Session.close job.linkage job.options.followSlots job.entries {} = .ok ((), session) ∧
      compilation.records = session.records ∧ Session.Separates job.linkage session := by
  rcases prepared.known with ⟨same, known⟩
  rw [← same] at known
  rcases Job.compile_eq_ok compiled with ⟨session, closed, isCompilation⟩
  rcases Session.close_tracked known closed with ⟨total, tracked, empty, progresses, _⟩
  have attributed := progresses.attributed
  refine ⟨session, closed, ?_, ?_⟩
  · rw [isCompilation]
  refine ⟨?_, ?_, ?_, attributed.made⟩
  · intro first second firstType secondType touchesFirst touchesSecond isFirst isSecond isStatic
      sameName
    exact progresses.claimed.eq_of_recordName touchesFirst touchesSecond isFirst isSecond sameName
  · intro first second firstKnown secondKnown firstAsked secondAsked sameName
    exact firstAsked.eq_of_mangle secondAsked firstKnown secondKnown sameName
  · intro callable callableKnown asked
    rcases attributed.kept callable callableKnown asked with isAbstract | waits | translated
    · exact Or.inl isAbstract
    · rw [empty] at waits
      cases waits
    · exact Or.inr translated

/-- Two types of which one has the name of the other with the mark of static
records after it, and a method that takes one of each. -/
def sampleTwins : Program where
  types := [
    ⟨⟨0x02000001⟩, "Demo", "A", TypeAttributes.exported, none, none, [], [], [], []⟩,
    ⟨⟨0x02000002⟩, "Demo", "A_static", TypeAttributes.exported, none, none, [],
      [⟨0x04000001⟩], [], []⟩,
    ⟨⟨0x02000003⟩, "Demo", "P", TypeAttributes.exported, none, none, [], [],
      [⟨0x06000001⟩], []⟩]
  names := [("Demo.A", ⟨0x02000001⟩), ("Demo.A_static", ⟨0x02000002⟩), ("Demo.P", ⟨0x02000003⟩)]
  fields := [⟨⟨0x04000001⟩, "link", ⟨0x02000002⟩, ⟨0x02000001⟩, false⟩]
  callables := [
    .method ⟨⟨0x06000001⟩, "Main", ⟨0x02000003⟩, ⟨6, 0x0010, 0⟩, none,
      [⟨⟨0x02000001⟩, ⟨0⟩⟩, ⟨⟨0x02000002⟩, ⟨0⟩⟩], some ⟨8, true, [0x2A]⟩⟩]
  strings := []

def sampleTwinsJob : Job where
  linkage := ⟨sampleTwins, [], []⟩
  options := {}
  entries := sampleTwins.callables

theorem sampleTwinsJob_prepared : Job.Prepared sampleTwins {} {} sampleTwinsJob :=
  .addEntryNamed (.new rfl) (show Job.addEntryNamed ⟨⟨sampleTwins, [], []⟩, {}, []⟩
    "Demo.P" "Main" = .ok sampleTwinsJob by rfl)

def sampleTwinsSession : Session :=
  ((Session.close sampleTwinsJob.linkage true sampleTwinsJob.entries {}).map
    Prod.snd).toOption.getD {}

def sampleTwinsCompilation : Compilation :=
  sampleTwinsJob.compile.toOption.getD ⟨{}, []⟩

theorem compile_sampleTwinsJob : sampleTwinsJob.compile = .ok sampleTwinsCompilation :=
  Result.eq_ok_getD (by decide +kernel) _

theorem sampleTwinsJob_separates : exists session,
    Session.close sampleTwinsJob.linkage true sampleTwinsJob.entries {} = .ok ((), session) ∧
      sampleTwinsCompilation.records = session.records ∧
      Session.Separates sampleTwinsJob.linkage session :=
  compile_separates sampleTwinsJob_prepared compile_sampleTwinsJob

/-- The static record of the first type and the instance record of the second
have one name.  The first is kept, so the field of the second is in no record. -/
theorem sampleTwinsJob_shares :
    Session.close sampleTwinsJob.linkage true sampleTwinsJob.entries {} =
        .ok ((), sampleTwinsSession) ∧
      sampleTwinsJob.compile = .ok sampleTwinsCompilation ∧
      sampleTwinsSession.Touches ⟨0x02000001⟩ ∧ sampleTwinsSession.Touches ⟨0x02000002⟩ ∧
      (exists first second, sampleTwins.typeDef ⟨0x02000001⟩ = .ok first ∧
        sampleTwins.typeDef ⟨0x02000002⟩ = .ok second ∧
        first.recordName true = second.recordName false ∧ second.fields = [⟨0x04000001⟩]) ∧
      forall record, record ∈ sampleTwinsCompilation.records.types -> record.fields = [] := by
  have closed := Result.eq_ok_getD (show ((Session.close sampleTwinsJob.linkage true
    sampleTwinsJob.entries {}).map Prod.snd).isOk = true by decide +kernel) {}
  rcases Result.map_eq_ok.mp closed with ⟨⟨_, session⟩, reached, same⟩
  refine ⟨?_, compile_sampleTwinsJob, Or.inl ?_, Or.inl ?_, ⟨_, _, rfl, rfl, ?_, rfl⟩, ?_⟩
  · rw [reached]
    exact congrArg (fun last => Except.ok ((), last)) same
  · decide +kernel
  · decide +kernel
  · decide
  · decide +kernel

end Compilation
end CilGraph
