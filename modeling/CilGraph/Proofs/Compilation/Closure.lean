import CilGraph.Proofs.Compilation.Rounds

namespace CilGraph

/-!
# Compilations are closed

Nothing that a compiled body refers to is left out.  A name that is called has
a record, or is bound to an external symbol, or belongs to an abstract method,
which has nothing to compile.  A constructor always has a record.

Whatever a body refers to was discovered when it was lowered, and a discovery
that was met stays met.  At the end of a session nothing is left to lower, so
the owner of a name that was asked for has a record or is abstract.
-/

/-- Every body has fewer bytes than a machine word can count, as any body that is
held in memory has. -/
def Program.Addressable (program : Program) : Prop :=
  forall callable, callable ∈ program.callables -> forall body, callable.body = some body ->
    body.code.length < 2 ^ 64

namespace Compilation
namespace Session

/-- A name that is called has been dealt with. -/
def Called (program : Program) (session : Session) (name : String) : Prop :=
  exists discovery : Discovery, discovery.Calls program name ∧ Met program session discovery

/-- The name of a constructor has been dealt with. -/
def Constructed (program : Program) (session : Session) (name : String) : Prop :=
  exists discovery : Discovery, discovery.Constructs program name ∧ Met program session discovery

/-- Every node of a record refers to what has been dealt with. -/
def Closed (linkage : Linkage) (session : Session) : Prop :=
  forall record, record ∈ session.records.methods -> forall node, node ∈ record.nodes ->
    node.Refers record.strings (Called linkage.program session)
      (Constructed linkage.program session)

/-- What is known of a session after `finished` callables have been lowered. -/
structure Sound (linkage : Linkage) (finished : Nat) (session : Session) : Prop
    extends Tracked linkage [] finished session where
  closed : Closed linkage session

section Invariant

variable {linkage : Linkage} {before after : Session}

/-- Nodes keep referring as long as nothing that was done is undone. -/
theorem refers_of_met {program : Program} {strings : List String} {node : Node}
    (refers : node.Refers strings (Called program before) (Constructed program before))
    (kept : forall discovery, Met program before discovery -> Met program after discovery) :
    node.Refers strings (Called program after) (Constructed program after) := by
  refine refers.imp ?_ ?_
  · rintro name ⟨discovery, calls, met⟩
    exact ⟨discovery, calls, kept discovery met⟩
  · rintro name ⟨discovery, constructs, met⟩
    exact ⟨discovery, constructs, kept discovery met⟩

theorem mem_methods_addMethod {records : Records} {record other : MethodRecord}
    (member : other ∈ (records.addMethod record).2.methods) :
    other = record ∨ other ∈ records.methods := by
  unfold Records.addMethod at member
  split at member
  · exact Or.inr member
  · rcases List.mem_append.mp member with earlier | added
    · exact Or.inr earlier
    · exact Or.inl (List.mem_singleton.mp added)

/-- The nodes of a lowered body refer to what it has discovered, and that has
been followed. -/
theorem Lowers.refers {callable : Callable} {name : String} {body : Body}
    {lowered : LoweredBody} {between : Session}
    (lowers : Lowers linkage callable before after name body lowered between)
    (countable : body.code.length < 2 ^ 64) {node : Node} (member : node ∈ lowered.nodes) :
    node.Refers lowered.strings (Called linkage.program after)
      (Constructed linkage.program after) := by
  have met : forall discovery,
      discovery ∈ (Lowering.lower ⟨linkage, name⟩ body.code).discoveries ->
      Met linkage.program after discovery := by
    intro discovery among
    rw [lowers.recorded]
    exact (lowers.met discovery among).keeps (keeps_addMethod between _)
  refine Node.Refers.imp (Lowering.refersBy_of_lower countable lowers.succeeds member) ?_ ?_
  · rintro shown ⟨discovery, among, calls⟩
    exact ⟨discovery, calls, met discovery among⟩
  · rintro shown ⟨discovery, among, constructs⟩
    exact ⟨discovery, constructs, met discovery among⟩

/-- Between two lowerings no record is added. -/
theorem Reaches.untouched (reaches : Reaches linkage before after) :
    after.records.methods = before.records.methods ∧
      after.records.methodNames = before.records.methodNames := by
  induction reaches with
  | refl => exact ⟨rfl, rfl⟩
  | tail _ event inductionHypothesis =>
      rw [← inductionHypothesis.1, ← inductionHypothesis.2]
      cases event with
      | types only => exact ⟨only.methods, only.methodNames⟩
      | claims known mangles fresh signature =>
          rw [withPending_records]
          exact ⟨signature.methods, signature.methodNames⟩
      | binds name symbol => exact ⟨rfl, rfl⟩

theorem Reaches.methods (reaches : Reaches linkage before after) :
    after.records.methods = before.records.methods :=
  reaches.untouched.1

theorem Closed.progress (addressable : linkage.program.Addressable)
    (closed : Closed linkage before) (progress : Progress linkage before after) :
    Closed linkage after := by
  have kept : forall record, record ∈ before.records.methods -> forall node,
      node ∈ record.nodes -> node.Refers record.strings (Called linkage.program after)
        (Constructed linkage.program after) :=
    fun record recorded node member => refers_of_met (closed record recorded node member)
      (fun discovery met => met.keeps progress.keeps)
  intro record recorded
  cases progress with
  | event event =>
      rw [event.reaches.methods] at recorded
      exact kept record recorded
  | @lowers callable rest name body lowered between known waiting lowers =>
      have countable := addressable callable known.mem_callables body lowers.hasBody
      have methods : between.records.methods = before.records.methods := lowers.reaches.methods
      have recordedThen := lowers.recorded ▸ recorded
      rcases mem_methods_addMethod recordedThen with isNew | earlier
      · intro node member
        rw [isNew] at member ⊢
        exact lowers.refers countable member
      · rw [methods] at earlier
        exact kept record earlier
  | follows follows =>
      rw [follows.reaches.methods] at recorded
      exact kept record recorded

theorem Progresses.closed (addressable : linkage.program.Addressable)
    (progresses : Progresses linkage {} after) : Closed linkage after := by
  induction progresses with
  | refl => exact fun _ recorded => absurd recorded List.not_mem_nil
  | tail _ progress inductionHypothesis => exact inductionHypothesis.progress addressable progress

theorem close_sound {followSlots : Bool} {entries : List Callable}
    (addressable : linkage.program.Addressable)
    (known : forall entry, entry ∈ entries -> linkage.program.Known entry)
    (closed : close linkage followSlots entries {} = .ok ((), after)) :
    exists total, Sound linkage total after ∧ after.pending = [] := by
  rcases close_tracked known closed with ⟨total, tracked, empty, progresses, _⟩
  exact ⟨total, ⟨tracked, progresses.closed addressable⟩, empty⟩

end Invariant

end Session

/-! ## Whole compilations -/

namespace Job

/-- A compilation that was prepared step by step. -/
inductive Prepared (program : Program) (settings : Settings) (options : Options) : Job -> Prop
  | new {job : Job} (made : Job.new program settings options = .ok job) :
      Prepared program settings options job
  | addEntry {job next : Job} {token : Token} (prepared : Prepared program settings options job)
      (added : job.addEntry token = .ok next) : Prepared program settings options next
  | addEntryNamed {job next : Job} {typeName method : String}
      (prepared : Prepared program settings options job)
      (added : job.addEntryNamed typeName method = .ok next) :
      Prepared program settings options next

theorem push_linkage (job : Job) (callable : Callable) :
    (job.push callable).linkage = job.linkage := by
  unfold push
  split <;> rfl

theorem mem_entries_push {job : Job} {callable entry : Callable}
    (member : entry ∈ (job.push callable).entries) : entry = callable ∨ entry ∈ job.entries := by
  unfold push at member
  split at member
  · exact Or.inr member
  · rcases List.mem_append.mp member with earlier | added
    · exact Or.inr earlier
    · exact Or.inl (List.mem_singleton.mp added)

theorem addEntryNamed_eq_ok {job next : Job} {typeName method : String}
    (added : job.addEntryNamed typeName method = .ok next) :
    exists callable, job.linkage.program.Known callable ∧ next = job.push callable := by
  unfold addEntryNamed at added
  cases found : job.linkage.program.findType? typeName with
  | none =>
      simp only [found] at added
      cases added
  | some type =>
      simp only [found] at added
      rcases Result.bind_eq_ok.mp added with ⟨methods, ofMethods, continued⟩
      rcases Result.bind_eq_ok.mp continued with ⟨constructors, ofConstructors, chosen⟩
      split at chosen
      · cases chosen
      · rename_i callable single
        cases chosen
        refine ⟨callable, ?_, rfl⟩
        have member : callable ∈ (methods.map Callable.method ++
            constructors.map Callable.constructor).filter
              (fun candidate => candidate.name == method) := by
          rw [single]
          exact List.mem_cons_self
        rcases List.mem_append.mp (List.mem_filter.mp member).1 with isMethod | isConstructor
        · rcases List.mem_map.mp isMethod with ⟨definition, among, same⟩
          rw [← same]
          exact Program.known_of_mem_declaredMethods ofMethods among
        · rcases List.mem_map.mp isConstructor with ⟨definition, among, same⟩
          rw [← same]
          exact Program.known_of_mem_declaredConstructors ofConstructors among
      · cases chosen

/-- Every entry of a prepared compilation is a known callable of its program. -/
theorem Prepared.known {program : Program} {settings : Settings} {options : Options} {job : Job}
    (prepared : Prepared program settings options job) :
    job.linkage.program = program ∧
      forall entry, entry ∈ job.entries -> program.Known entry := by
  have pushed : forall {job : Job} {callable : Callable},
      job.linkage.program = program ∧ (forall entry, entry ∈ job.entries -> program.Known entry) ->
      job.linkage.program.Known callable ->
      (job.push callable).linkage.program = program ∧
        forall entry, entry ∈ (job.push callable).entries -> program.Known entry := by
    rintro job callable ⟨same, known⟩ callableKnown
    rw [same] at callableKnown
    rw [push_linkage]
    refine ⟨same, ?_⟩
    intro entry member
    rcases mem_entries_push member with isNew | earlier
    · rw [isNew]
      exact callableKnown
    · exact known entry earlier
  induction prepared with
  | new made =>
      unfold Job.new at made
      split at made
      · rcases Result.bind_eq_ok.mp made with ⟨linkage, linked, assembled⟩
        rcases Result.bind_eq_ok.mp linked with ⟨substitutions, _, binding⟩
        rcases Result.bind_eq_ok.mp binding with ⟨natives, _, linkageMade⟩
        cases linkageMade
        cases assembled
        exact ⟨rfl, fun entry member => absurd member List.not_mem_nil⟩
      · cases made
  | addEntry prepared added inductionHypothesis =>
      rcases Result.bind_eq_ok.mp added with ⟨callable, found, assembled⟩
      cases assembled
      exact pushed inductionHypothesis (Program.known_of_callable found)
  | addEntryNamed prepared added inductionHypothesis =>
      rcases addEntryNamed_eq_ok added with ⟨callable, known, same⟩
      rw [same]
      exact pushed inductionHypothesis known

end Job

/-- A name stands for an abstract method of a program. -/
def NamesAbstract (program : Program) (name : String) : Prop :=
  exists method : MethodDef, program.Known (.method method) ∧ method.isAbstract = true ∧
    program.mangle (.method method) = .ok name

/-- Everything that a compiled body refers to has been compiled, is bound to an
external symbol, or is abstract. -/
theorem compile_closed {program : Program} {settings : Settings} {options : Options} {job : Job}
    {compilation : Compilation} (prepared : Job.Prepared program settings options job)
    (addressable : program.Addressable) (compiled : job.compile = .ok compilation) :
    forall record, record ∈ compilation.records.methods -> forall node, node ∈ record.nodes ->
      node.Refers record.strings
        (fun name => name ∈ compilation.records.methodNames ∨
          name ∈ compilation.records.natives.map Prod.fst ∨ NamesAbstract program name)
        (fun name => name ∈ compilation.records.methodNames) := by
  intro record recorded node member
  rcases prepared.known with ⟨same, known⟩
  unfold Job.compile at compiled
  split at compiled
  · cases compiled
  · rcases Result.bind_eq_ok.mp compiled with ⟨⟨_, session⟩, closed, assembled⟩
    cases assembled
    rw [← same] at addressable known ⊢
    rcases Session.close_sound addressable known closed with ⟨total, sound, empty⟩
    refine (sound.closed record recorded node member).imp ?_ ?_
    · rintro name ⟨discovery, calls, met⟩
      cases discovery with
      | callable callable =>
          rcases sound.settled empty (met name calls.2) with
            ⟨owner, ownerKnown, _, mangles, isAbstract | hasRecord⟩
          · cases owner with
            | method method => exact Or.inr (Or.inr ⟨method, ownerKnown, isAbstract, mangles⟩)
            | constructor constructor => cases isAbstract
          · exact Or.inl hasRecord
      | type token => exact calls.elim
      | native bound symbol =>
          have isBound : bound = name := calls
          rw [← isBound]
          exact Or.inr (Or.inl met)
    · rintro name ⟨discovery, constructs, met⟩
      cases discovery with
      | callable callable =>
          rcases constructs with ⟨callableKnown, isConstructor, mangled⟩
          rcases sound.settled empty (met name mangled) with
            ⟨owner, ownerKnown, sameToken, _, isAbstract | hasRecord⟩
          · rw [ownerKnown.eq_of_token callableKnown sameToken] at isAbstract
            cases callable with
            | method method => cases isConstructor
            | constructor constructor => cases isAbstract
          · exact hasRecord
      | type token => exact constructs.elim
      | native bound symbol => exact constructs.elim

/-- A type with a constructor and a static method that loads a literal, makes
an object and calls itself. -/
def sampleProgram : Program where
  types := [⟨⟨0x02000001⟩, "Demo", "Counter", TypeAttributes.exported, none, none, [], [],
    [⟨0x06000001⟩], [⟨0x06000002⟩]⟩]
  names := [("Demo.Counter", ⟨0x02000001⟩)]
  fields := []
  callables := [
    .method ⟨⟨0x06000001⟩, "Main", ⟨0x02000001⟩, ⟨0, 0x0010, 0⟩, none, [],
      some ⟨8, true, [0x72, 0x01, 0x00, 0x00, 0x70, 0x26, 0x73, 0x02, 0x00, 0x00, 0x06, 0x26,
        0x28, 0x01, 0x00, 0x00, 0x06, 0x2A]⟩⟩,
    .constructor ⟨⟨0x06000002⟩, ⟨0x02000001⟩, false, [], some ⟨8, true, [0x2A]⟩⟩]
  strings := [(⟨0x70000001⟩, "hello")]

theorem sampleProgram_addressable : sampleProgram.Addressable := by
  intro callable member body hasBody
  rcases List.mem_cons.mp member with isMain | others
  · rw [isMain] at hasBody
    cases hasBody
    decide
  · rw [List.mem_singleton.mp others] at hasBody
    cases hasBody
    decide

def sampleJob : Job where
  linkage := ⟨sampleProgram, [], []⟩
  options := {}
  entries := sampleProgram.callables.take 1

theorem sampleJob_prepared : Job.Prepared sampleProgram {} {} sampleJob :=
  .addEntryNamed (.new rfl) (show Job.addEntryNamed ⟨⟨sampleProgram, [], []⟩, {}, []⟩
    "Demo.Counter" "Main" = .ok sampleJob by rfl)

def sampleCompilation : Compilation :=
  match sampleJob.compile with
  | .ok compilation => compilation
  | .error _ => ⟨{}, []⟩

theorem compile_sampleJob : sampleJob.compile = .ok sampleCompilation := by
  have succeeds : sampleJob.compile.isOk = true := by decide +kernel
  unfold sampleCompilation
  cases compiled : sampleJob.compile with
  | ok compilation => rfl
  | error error =>
      rw [compiled] at succeeds
      cases succeeds

theorem sampleCompilation_closed :
    sampleCompilation.records.methodNames =
        ["System.Void____Demo.Counter..ctor_constr", "System.Void____Demo.Counter.Main_static"] ∧
      forall record, record ∈ sampleCompilation.records.methods ->
        forall node, node ∈ record.nodes -> node.Refers record.strings
          (fun name => name ∈ sampleCompilation.records.methodNames ∨
            name ∈ sampleCompilation.records.natives.map Prod.fst ∨
              NamesAbstract sampleProgram name)
          (fun name => name ∈ sampleCompilation.records.methodNames) :=
  ⟨by decide +kernel, compile_closed sampleJob_prepared sampleProgram_addressable compile_sampleJob⟩

end Compilation
end CilGraph
