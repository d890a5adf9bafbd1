import CilGraph.Proofs.Compilation.EntryOrder
import CilGraph.Proofs.Compilation.Loops
import CilGraph.Proofs.Compilation.Resolved
import CilGraph.Proofs.Program.Connected

namespace CilGraph

/-!
# Every callable is lowered once

A compilation ends, however its callables call each other.  It lowers what its
entries lead to, and no callable twice.  A callable is queued when it is given its
name, and it is given its name before anything of its signature is looked at.
Whoever comes back to it on the way finds the name taken.  So a record never finds
its name taken, and the records are those of the callables that were lowered, one
after another.

`Session.Ledger` keeps the lowered callables beside the session.  A round of a
loop adds to both.
-/

namespace Records

/-- The set of method names is that of the names of the method records. -/
def MethodsIndexed (records : Records) : Prop :=
  Ordered.Indexes MethodRecord.name records.methods records.methodNames

theorem MethodsIndexed.addMethod {records : Records} (indexed : records.MethodsIndexed)
    (record : MethodRecord) : (records.addMethod record).2.MethodsIndexed := by
  unfold Records.addMethod
  split
  · exact indexed
  · rename_i fresh
    exact indexed.append (fun taken => fresh (List.contains_iff_mem.mpr taken))

theorem addMethod_accepts {records : Records} {record : MethodRecord}
    (fresh : record.name ∉ records.methodNames) : (records.addMethod record).1 = true := by
  unfold Records.addMethod
  rw [if_neg (fun taken => fresh (List.contains_iff_mem.mp taken))]

end Records

theorem Linkage.Resolved.known {linkage : Linkage} {callable : Callable}
    (resolved : linkage.Resolved callable) : linkage.program.Known callable := by
  rcases resolved with ⟨declared, known, resolves⟩
  exact (Linkage.known_of_resolveCallable known resolves).1

namespace Compilation
namespace Session

variable {linkage : Linkage} {start before after : Session} {log : List Translation}

theorem Progresses.methodsIndexed (progresses : Progresses linkage {} after) :
    after.records.MethodsIndexed := by
  refine progresses.preserves (fun session => session.records.MethodsIndexed) ?_
    (fun _ _ _ indexed => indexed) (fun _ record indexed => indexed.addMethod record)
    (Ordered.indexes_nil _)
  intro first second event indexed
  unfold Records.MethodsIndexed
  rw [event.reaches.untouched.1, event.reaches.untouched.2]
  exact indexed

/-! ## The ledger -/

/-- A callable that was lowered has its name and its record. -/
structure Translation.Stands (linkage : Linkage) (session : Session)
    (translation : Translation) : Prop where
  accepted : translation.accepted = true
  resolved : linkage.Resolved translation.callable
  asked : Asked linkage.program session translation.callable
  translated : Translates linkage translation.callable translation.record

theorem Translation.Stands.keeps {translation : Translation}
    (stands : translation.Stands linkage before) (keeps : Keeps linkage before after) :
    translation.Stands linkage after :=
  ⟨stands.accepted, stands.resolved, stands.asked.keeps keeps, stands.translated⟩

/-- The callables that were lowered since the entries were asked for are those that
have records. -/
structure Ledger (linkage : Linkage) (start : Session) (log : List Translation)
    (session : Session) : Prop where
  keeps : Keeps linkage start session
  tracked : Tracked linkage [] log.length session
  progresses : Progresses linkage {} session
  queued : forall callable, callable ∈ session.pending -> linkage.Resolved callable
  kept : log.map Translation.record = session.records.methods
  each : forall translation, translation ∈ log -> translation.Stands linkage session

theorem ledger_start {entries : List Callable}
    (known : forall entry, entry ∈ entries -> linkage.program.Known entry)
    (referred : referAll linkage entries {} = .ok ((), after)) :
    Ledger linkage after [] after := by
  have reaches := (referAll_reaches known referred).1
  have enqueues : Enqueues linkage {} after :=
    forIn_enqueues referred (fun entry _ _ member refers =>
      refer_enqueues (known entry member) refers)
  refine ⟨.refl, (tracked_start linkage).reaches reaches, reaches.progresses, ?_,
    reaches.methods.symm, fun _ member => absurd member List.not_mem_nil⟩
  intro callable member
  exact (enqueues callable member).resolve_left List.not_mem_nil

/-- The name of a callable that was waiting is not taken when its record is made. -/
theorem Lowers.unrecorded {callable : Callable} {name : String} {body : Body}
    {lowered : LoweredBody} {between : Session} (attributed : Attributed linkage [callable] before)
    (lowers : Lowers linkage callable before after name body lowered between) :
    (recordOf name callable body lowered).name ∉ between.records.methodNames :=
  ((attributed.reaches lowers.reaches).waiting callable List.mem_cons_self).unrecorded name
    lowers.mangles

theorem Ledger.drainRound {early : List Translation} (ledger : Ledger linkage start log before)
    (round : DrainRound linkage before early (.ok (.inl after))) :
    Ledger linkage start (log ++ early) after := by
  cases round with
  | @lowers callable rest _ between name body lowered waiting succeeded lowers =>
      have first : callable ∈ before.pending := by
        rw [waiting]
        exact List.mem_cons_self
      have resolved := ledger.queued callable first
      have attributed := ledger.progresses.attributed
      -- The callable got its name when it was queued, so nothing was recorded under it since.
      have fresh := lowers.unrecorded (attributed.pop waiting)
      have progress : Progress linkage before after := .lowers resolved.known waiting lowers
      have methods : after.records.methods =
          before.records.methods ++ [recordOf name callable body lowered] := by
        rw [lowers.recorded]
        change (between.records.addMethod _).2.methods = _
        rw [addMethod_of_fresh fresh, lowers.reaches.methods]
      refine ⟨ledger.keeps.trans progress.keeps, ?_, ledger.progresses.tail progress, ?_, ?_, ?_⟩
      · rw [List.length_append, List.length_singleton]
        exact (ledger.tracked.pop waiting).lowers lowers
      · intro other member
        rcases lower_enqueues succeeded other member with waited | resolvedOther
        · apply ledger.queued other
          rw [waiting]
          exact List.mem_cons_of_mem callable waited
        · exact resolvedOther
      · rw [List.map_append, ledger.kept, methods]
        rfl
      · intro translation member
        rcases List.mem_append.mp member with earlier | now
        · exact (ledger.each translation earlier).keeps progress.keeps
        · rw [List.mem_singleton.mp now]
          exact ⟨Records.addMethod_accepts fresh, resolved,
            (attributed.waiting callable first).asked.keeps progress.keeps,
            name, body, lowered, lowers.mangles, lowers.hasBody, lowers.succeeds, rfl⟩

theorem Ledger.drains {more : List Translation} (ledger : Ledger linkage start log before)
    (drains : Drains linkage before more (.ok ((), after))) :
    Ledger linkage start (log ++ more) after := by
  refine Loop.Ends.preserves (Ledger linkage start)
    (fun log reached => Ledger linkage start log reached.2) log drains rfl
    (fun ledger round => ledger.drainRound round) ?_ ledger
  intro log more session reached ledger round
  cases round with
  | done empty =>
      rw [List.append_nil]
      exact ledger

/-- Following the slots of a registered type lowers nothing, and registered types
stay so. -/
theorem Ledger.dispatchType {type : Token} (ledger : Ledger linkage start log before)
    (registered : type ∈ before.registry.types)
    (followed : Session.dispatchType linkage type before = .ok ((), after)) :
    Ledger linkage start log after ∧ before.registry.types ⊆ after.registry.types := by
  rcases ledger.tracked.exists_layout registered with ⟨layout, found, canonical⟩
  have known := ledger.tracked.known
  rcases dispatchType_eq_ok known canonical found followed with ⟨table, follows⟩
  have progress : Progress linkage before after := .follows follows
  refine ⟨⟨ledger.keeps.trans progress.keeps, ledger.tracked.follows follows,
    ledger.progresses.tail progress, ?_, ?_, ?_⟩,
    fun _ member => mem_types_grows progress.keeps.registry member⟩
  · intro callable member
    rcases dispatchType_enqueues known canonical found followed callable member with
      waited | resolved
    · exact ledger.queued callable waited
    · exact resolved
  · rw [follows.reaches.methods]
    exact ledger.kept
  · exact fun translation member => (ledger.each translation member).keeps progress.keeps

theorem Ledger.dispatchRound {types : List Token} (ledger : Ledger linkage start log before)
    (round : DispatchRound linkage before types (.ok (.inl after))) :
    Ledger linkage start log after := by
  cases round with
  | follows some followed =>
      have held := forIn_induction
        (fun _ session => Ledger linkage start log session ∧
          before.registry.types ⊆ session.registry.types)
        followed ⟨ledger, List.Subset.refl _⟩ (by
          rintro finished type first second member ⟨ledgerNow, registered⟩ dispatched
          rcases ledgerNow.dispatchType (registered (before.unmarked_subset member)) dispatched with
            ⟨ledgerThen, stays⟩
          exact ⟨ledgerThen, List.Subset.trans registered stays⟩)
      exact held.1

theorem Ledger.dispatches {types : List Token} (ledger : Ledger linkage start log before)
    (dispatches : Dispatches linkage before types (.ok ((), after))) :
    Ledger linkage start log after := by
  refine Loop.Ends.preserves (fun _ session => Ledger linkage start log session)
    (fun _ reached => Ledger linkage start log reached.2) [] dispatches rfl
    (fun ledger round => ledger.dispatchRound round) ?_ ledger
  intro _ _ session reached ledger round
  cases round with
  | done none => exact ledger

theorem Ledger.closes {followSlots : Bool} {more : List Translation}
    (ledger : Ledger linkage start log before)
    (closes : Closes linkage followSlots before more (.ok ((), after))) :
    Ledger linkage start (log ++ more) after := by
  refine Loop.Ends.preserves (Ledger linkage start)
    (fun log reached => Ledger linkage start log reached.2) log closes rfl ?_ ?_ ledger
  · intro log more session next ledger round
    cases round with
    | again asked drains dispatches something => exact (ledger.drains drains).dispatches dispatches
  · intro log more session reached ledger round
    cases round with
    | drained unasked drains => exact ledger.drains drains
    | settled asked drains dispatches nothing => exact (ledger.drains drains).dispatches dispatches

theorem Ledger.distinct (ledger : Ledger linkage start log before) :
    (log.map Translation.callable).Nodup := by
  have names : (log.map (fun translation => translation.record.name)).Nodup := by
    have distinct := ledger.progresses.methodsIndexed.distinct
    rw [← ledger.kept, List.map_map] at distinct
    exact distinct
  refine List.Nodup.map_on ?_ (List.Nodup.of_map _ names)
  intro first firstMember second secondMember same
  have translated := (ledger.each second secondMember).translated
  rw [← same] at translated
  -- Lowered twice, a callable would have two records of one name.
  have sameRecord := (ledger.each first firstMember).translated.unique translated
  exact List.inj_on_of_nodup_map names firstMember secondMember
    (congrArg MethodRecord.name sameRecord)

/-- Among the callables that have names, a record tells where it comes from. -/
theorem Ledger.eq_of_translates (ledger : Ledger linkage start log before)
    {translation : Translation} (member : translation ∈ log) {callable : Callable}
    (known : linkage.program.Known callable) (asked : Asked linkage.program before callable)
    (translates : Translates linkage callable translation.record) :
    callable = translation.callable := by
  have stands := ledger.each translation member
  have sameName := (mangle_of_translates translates).trans
    (mangle_of_translates stands.translated).symm
  exact asked.eq_of_mangle stands.asked known stands.resolved.known sameName

theorem Ledger.existsUnique (ledger : Ledger linkage start log before) {record : MethodRecord}
    (recorded : record ∈ before.records.methods) :
    ∃! callable, callable ∈ log.map Translation.callable ∧ Translates linkage callable record := by
  rw [← ledger.kept] at recorded
  rcases List.mem_map.mp recorded with ⟨translation, member, isRecord⟩
  rw [← isRecord]
  refine ⟨translation.callable,
    ⟨List.mem_map_of_mem member, (ledger.each translation member).translated⟩, ?_⟩
  rintro other ⟨otherMember, translates⟩
  rcases List.mem_map.mp otherMember with ⟨rival, rivalMember, isOther⟩
  have stands := ledger.each rival rivalMember
  rw [← isOther] at translates ⊢
  exact ledger.eq_of_translates member stands.resolved.known stands.asked translates

/-- Once nothing waits, a callable that has a name was lowered or is abstract. -/
theorem Ledger.mem_of_asked (ledger : Ledger linkage start log before)
    (empty : before.pending = []) {callable : Callable}
    (known : linkage.program.Known callable) (asked : Asked linkage.program before callable)
    (isConcrete : callable.isAbstract = false) : callable ∈ log.map Translation.callable := by
  rcases ledger.progresses.attributed.kept callable known asked with
    isAbstract | waits | ⟨record, recorded, translates⟩
  · rw [isConcrete] at isAbstract
    cases isAbstract
  · rw [empty] at waits
    cases waits
  · rw [← ledger.kept] at recorded
    rcases List.mem_map.mp recorded with ⟨translation, member, isRecord⟩
    rw [← isRecord] at translates
    rw [ledger.eq_of_translates member known asked translates]
    exact List.mem_map_of_mem member

theorem Ledger.mem_of_discovered (ledger : Ledger linkage start log before)
    (empty : before.pending = []) {translation : Translation} (member : translation ∈ log)
    {name : String} {body : Body} {callee : Callable}
    (mangles : linkage.program.mangle translation.callable = .ok name)
    (hasBody : translation.callable.body = some body)
    (discovered : Discovery.callable callee ∈
      (Lowering.lower ⟨linkage, name⟩ body.code).discoveries)
    (isConcrete : callee.isAbstract = false) : callee ∈ log.map Translation.callable := by
  have recorded : translation.record ∈ before.records.methods := by
    rw [← ledger.kept]
    exact List.mem_map_of_mem member
  rcases ledger.progresses.traced.recorded translation.record recorded with
    ⟨owner, ownerKnown, ownerAsked, _, translates, explored⟩
  rw [ledger.eq_of_translates member ownerKnown ownerAsked translates] at explored
  rcases (ledger.each translation member).translated with
    ⟨shown, code, lowered, manglesToo, hasBodyToo, succeeds, _⟩
  rw [mangles] at manglesToo
  rw [hasBody] at hasBodyToo
  cases manglesToo
  cases hasBodyToo
  rcases Lowering.known_of_lower succeeds discovered with ⟨known, calleeName, calleeMangles⟩
  have met := explored name body mangles hasBody _ discovered calleeName calleeMangles
  exact ledger.mem_of_asked empty known ⟨calleeName, calleeMangles, met⟩ isConcrete

end Session

/-- What the entries lead to was lowered once, and the records are what that gave. -/
structure TranslatesOnce (linkage : Linkage) (entries : List Callable)
    (translations : List Session.Translation) (records : Records) : Prop where
  /-- No record was refused. -/
  accepted : forall translation, translation ∈ translations -> translation.accepted = true
  /-- The records are those of the callables that were lowered, in that order. -/
  kept : translations.map Session.Translation.record = records.methods
  /-- No callable was lowered twice. -/
  once : (translations.map Session.Translation.callable).Nodup
  resolved : forall translation, translation ∈ translations ->
    linkage.Resolved translation.callable
  translated : forall translation, translation ∈ translations ->
    Translates linkage translation.callable translation.record
  unique : forall record, record ∈ records.methods -> ∃! callable,
    callable ∈ translations.map Session.Translation.callable ∧ Translates linkage callable record
  /-- An entry was lowered unless it is abstract or implemented elsewhere. -/
  entries : forall entry, entry ∈ entries -> exists resolved,
    linkage.resolveCallable entry = .ok resolved ∧
      (linkage.nativeSymbol? resolved = .ok none -> resolved.isAbstract = false ->
        resolved ∈ translations.map Session.Translation.callable)
  /-- What a lowered body calls was lowered unless it is abstract or implemented elsewhere. -/
  callees : forall translation, translation ∈ translations -> forall name body callee,
    linkage.program.mangle translation.callable = .ok name ->
    translation.callable.body = some body ->
    Discovery.callable callee ∈ (Lowering.lower ⟨linkage, name⟩ body.code).discoveries ->
    callee.isAbstract = false -> callee ∈ translations.map Session.Translation.callable
  bounded : records.methods.length ≤ linkage.program.callables.length
  methods : Ordered.Indexes MethodRecord.name records.methods records.methodNames
  types : Ordered.Indexes TypeRecord.name records.types records.typeNames

theorem Session.Ledger.translatesOnce {linkage : Linkage} {entries : List Callable}
    {start session : Session} {translations : List Session.Translation}
    (wellFormed : linkage.program.WellFormed)
    (known : forall entry, entry ∈ entries -> linkage.program.Known entry)
    (dealt : forall entry, entry ∈ entries -> exists resolved,
      linkage.resolveCallable entry = .ok resolved ∧ Session.Dealt linkage start resolved)
    (ledger : Session.Ledger linkage start translations session)
    (empty : session.pending = []) :
    TranslatesOnce linkage entries translations session.records where
  accepted := fun translation member => (ledger.each translation member).accepted
  kept := ledger.kept
  once := ledger.distinct
  resolved := fun translation member => (ledger.each translation member).resolved
  translated := fun translation member => (ledger.each translation member).translated
  unique := fun _ recorded => ledger.existsUnique recorded
  entries := by
    intro entry member
    rcases dealt entry member with ⟨resolved, resolves, name, symbol, mangles, looked, state⟩
    refine ⟨resolved, resolves, ?_⟩
    intro unbound isConcrete
    rw [unbound] at looked
    cases looked
    rcases state with ⟨_, owned⟩ | ⟨isBound, _⟩
    · exact ledger.mem_of_asked empty
        (Linkage.known_of_resolveCallable (known entry member) resolves).1
        ⟨name, mangles, ledger.keeps.lookup owned⟩ isConcrete
    · cases isBound
  callees := fun _ member _ _ _ mangles hasBody discovered isConcrete =>
    ledger.mem_of_discovered empty member mangles hasBody discovered isConcrete
  bounded := by
    have counted := ledger.tracked.counted
    have bound := ledger.tracked.length_callables_le
    rw [← ledger.kept, List.length_map]
    omega
  methods := ledger.progresses.methodsIndexed
  types := (ledger.progresses.orderly wellFormed
    (Dispatch.Registry.sufficient_everything linkage) (fun _ _ => trivial)).indexed.indexes

/-- No bound cuts a loop short that is made on the way. -/
structure LoopsEnd (linkage : Linkage) : Prop where
  walks : linkage.program.WalksEnd
  layouts : forall beyond depth, linkage.program.types.length < depth -> forall token registry,
    Dispatch.Workshop.addWith linkage beyond depth token ⟨registry, []⟩ =
      ((Dispatch.Registry.add linkage token registry).1,
        ⟨(Dispatch.Registry.add linkage token registry).2, []⟩)
  types : forall token session, exists taken,
    Loop.Ends (Session.DiscoveryRound linkage) ([token], session) taken
      (Session.discoverType linkage token session)
  bodies : forall method code, exists discoveries,
    Loop.Ends (Lowering.Round ⟨linkage, method⟩) (Cursor.start code, Frame.start) discoveries
      (Lowering.run ⟨linkage, method⟩ code.length (Cursor.start code) Frame.start).result

theorem loopsEnd {linkage : Linkage} (walks : linkage.program.WalksEnd) : LoopsEnd linkage where
  walks := walks
  layouts := fun _ _ deep token registry => Dispatch.Workshop.addWith_eq_add deep token registry
  types := fun _ session =>
    Session.discoverWith_ends (Session.lt_discoveryBound linkage.program session.wholeTypes)
  bodies := fun method _ => Lowering.run_ends ⟨linkage, method⟩ Frame.start (Nat.le_refl _)

/-- A compilation ends with a compilation or an error: no loop in it is cut short.
Whenever it comes to a compilation, what the entries lead to was lowered once, and
the records are what that gave. -/
theorem compile_translatesOnce {steps : List DraftStep} {program : Program} {settings : Settings}
    {options : Options} {job : Job} (built : (Draft.ofSteps steps).build = .ok program)
    (ends : program.ArraysEnd) (prepared : Job.Prepared program settings options job) :
    LoopsEnd job.linkage ∧ (exists translations, job.Runs translations job.compile) ∧
      forall translations compilation, job.Runs translations (.ok compilation) ->
        TranslatesOnce job.linkage job.entries translations compilation.records := by
  have grounded := Linkage.grounded_of_build built prepared.linkage
  rcases prepared.known with ⟨same, known⟩
  rw [← same] at ends known
  refine ⟨loopsEnd (Program.walksEnd grounded.wellFormed grounded.connected ends),
    Job.runs_compile known, ?_⟩
  intro translations compilation runs
  cases runs with
  | ends some referring closes =>
      have ledger := (Session.ledger_start known referring).closes closes
      exact ledger.translatesOnce grounded.wellFormed known
        (Session.referAll_reaches known referring).2 closes.pending

/-- Two methods that call each other, on a court that has an array of balls. -/
def sampleCourtSteps : List DraftStep := [
  .type none "Demo" "Court" TypeAttributes.exported none,
  .type none "Demo" "Ball" TypeAttributes.exported none,
  .arrayType none ⟨0x02000002⟩ none,
  .field none ⟨0x02000001⟩ "balls" ⟨0x02000003⟩ true,
  .method none ⟨0x02000001⟩ "Serve" ⟨6, 0x0010, 0⟩ none []
    (some ⟨8, true, [0x28, 0x02, 0x00, 0x00, 0x06, 0x2A]⟩),
  .method none ⟨0x02000001⟩ "Return" ⟨6, 0x0010, 0⟩ none []
    (some ⟨8, true, [0x28, 0x01, 0x00, 0x00, 0x06, 0x2A]⟩)]

def sampleCourt : Program :=
  (Draft.ofSteps sampleCourtSteps).build.toOption.getD ⟨[], [], [], [], []⟩

theorem build_sampleCourt : (Draft.ofSteps sampleCourtSteps).build = .ok sampleCourt :=
  Result.eq_ok_getD (by decide +kernel) _

theorem sampleCourt_arraysEnd : sampleCourt.ArraysEnd :=
  Program.arraysEnd_of_rank (fun token => if token = ⟨0x02000003⟩ then 1 else 0)
    (by decide +kernel)

def sampleCourtRequest : Result Job := do
  let job ← Job.new sampleCourt {} {}
  job.addEntry ⟨0x06000001⟩

def sampleCourtJob : Job :=
  sampleCourtRequest.toOption.getD ⟨⟨sampleCourt, [], []⟩, {}, []⟩

theorem sampleCourtJob_prepared : Job.Prepared sampleCourt {} {} sampleCourtJob := by
  have requested : sampleCourtRequest = .ok sampleCourtJob :=
    Result.eq_ok_getD (by decide +kernel) _
  rcases Result.bind_eq_ok.mp requested with ⟨fresh, isNew, added⟩
  exact .addEntry (.new isNew) added

def sampleCourtCompilation : Compilation :=
  sampleCourtJob.compile.toOption.getD ⟨{}, []⟩

theorem compile_sampleCourtJob : sampleCourtJob.compile = .ok sampleCourtCompilation :=
  Result.eq_ok_getD (by decide +kernel) _

/-- Each of the two methods is lowered once, though each calls the other. -/
theorem sampleCourt_translatesOnce :
    sampleCourtCompilation.records.methods.map MethodRecord.name =
      ["System.Void____Demo.Court.Serve_static", "System.Void____Demo.Court.Return_static"] ∧
    exists translations, sampleCourtJob.Runs translations (.ok sampleCourtCompilation) ∧
      TranslatesOnce sampleCourtJob.linkage sampleCourtJob.entries translations
        sampleCourtCompilation.records := by
  refine ⟨by decide +kernel, ?_⟩
  rcases compile_translatesOnce build_sampleCourt sampleCourt_arraysEnd sampleCourtJob_prepared with
    ⟨_, ⟨translations, runs⟩, once⟩
  rw [compile_sampleCourtJob] at runs
  exact ⟨translations, runs, once translations _ runs⟩

end Compilation
end CilGraph
