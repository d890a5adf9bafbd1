import CilGraph.Proofs.Compilation.Within
import CilGraph.Proofs.Dispatch.Finished

namespace CilGraph
namespace Compilation

/-!
# The order of entries

The order in which entries are given decides in which order a session takes in
types, makes layouts and lowers callables.  It does not decide what is there in
the end.  Two sessions that start from the same entries are within each other, so
they have taken in, registered, asked for and lowered the same.

What is kept in an order of its own is then equal: the names of types, the names
that are bound to external symbols, and the finished tables.  Method records stand
in the order in which they were made, which does depend on the entries, but there
is one for each callable that was lowered, and it depends on the callable only.
-/

/-- Two compilations hold the same, apart from the order of their records. -/
structure Alike (first second : Compilation) : Prop where
  methods : forall record, record ∈ first.records.methods ↔ record ∈ second.records.methods
  typeNames : first.records.typeNames = second.records.typeNames
  natives : first.records.natives.map Prod.fst = second.records.natives.map Prod.fst
  tables : first.tables = second.tables

/-- A callable has one record at most. -/
theorem Translates.unique {linkage : Linkage} {callable : Callable} {record other : MethodRecord}
    (translates : Translates linkage callable record)
    (rival : Translates linkage callable other) : record = other := by
  rcases translates with ⟨name, body, lowered, mangles, hasBody, succeeds, isRecord⟩
  rcases rival with ⟨name', body', lowered', mangles', hasBody', succeeds', isOther⟩
  rw [mangles] at mangles'
  cases mangles'
  rw [hasBody] at hasBody'
  cases hasBody'
  rw [succeeds] at succeeds'
  cases succeeds'
  rw [isRecord, isOther]

namespace Session

section Sessions

variable {linkage : Linkage} {followSlots : Bool} {entries others : List Callable}
  {first second : Session}

theorem Settled.orderly (settled : Settled linkage followSlots entries first)
    (wellFormed : linkage.program.WellFormed) : Orderly linkage (fun _ => True) first :=
  settled.progresses.orderly wellFormed (Dispatch.Registry.sufficient_everything linkage)
    (fun _ _ => trivial)

theorem Settled.exemplary (settled : Settled linkage followSlots entries first)
    (wellFormed : linkage.program.WellFormed) : Exemplary linkage followSlots entries first :=
  { settled with
    wellFormed := wellFormed
    stocked := (settled.orderly wellFormed).stocked }

/-- What was lowered in a session was lowered in every session around it. -/
theorem Within.mem_methods (within : Within linkage first second)
    (settled : Settled linkage followSlots entries first)
    (inner : Settled linkage followSlots others second) {record : MethodRecord}
    (member : record ∈ second.records.methods) : record ∈ first.records.methods := by
  rcases inner.recorded record member with
    ⟨callable, known, ⟨name, mangles, owned⟩, isConcrete, translates⟩
  have asked : Asked linkage.program first callable :=
    ⟨name, mangles, within.callables name callable.token owned⟩
  rcases settled.lowered callable known asked isConcrete with ⟨rival, among, rivals, _⟩
  rw [translates.unique rivals]
  exact among

/-- Sessions that are within each other give compilations that are alike. -/
theorem alike_of_within (wellFormed : linkage.program.WellFormed)
    (apart : linkage.program.TellsApart) (settled : Settled linkage followSlots entries first)
    (rival : Settled linkage followSlots others second) (within : Within linkage first second)
    (around : Within linkage second first) (pointerSize : UInt32) :
    Alike ⟨first.records, first.registry.compile pointerSize⟩
      ⟨second.records, second.registry.compile pointerSize⟩ := by
  have indexed := (settled.orderly wellFormed).indexed
  have rivalIndexed := (rival.orderly wellFormed).indexed
  refine ⟨?_, ?_, ?_, ?_⟩
  · intro record
    exact ⟨around.mem_methods rival settled, within.mem_methods settled rival⟩
  · refine List.Pairwise.eq_of_mem_iff indexed.ascending rivalIndexed.ascending ?_
    exact fun name => ⟨fun member => around.typeNames member, fun member => within.typeNames member⟩
  · refine List.Pairwise.eq_of_mem_iff (List.pairwise_map.mpr indexed.natives)
      (List.pairwise_map.mpr rivalIndexed.natives) ?_
    exact fun name => ⟨fun member => around.natives member, fun member => within.natives member⟩
  · refine Dispatch.Registry.compile_eq_of_types settled.grown rival.grown apart ?_ pointerSize
    exact fun type => ⟨fun member => around.registry.types member,
      fun member => within.registry.types member⟩

/-- Sessions from the same entries come to their ends together, each within the
other. -/
theorem close_of_members (wellFormed : linkage.program.WellFormed)
    (known : forall entry, entry ∈ entries -> linkage.program.Known entry)
    (sameEntries : forall entry, entry ∈ others ↔ entry ∈ entries)
    (closed : close linkage followSlots entries {} = .ok ((), first)) :
    exists second, close linkage followSlots others {} = .ok ((), second) ∧
      Settled linkage followSlots others second ∧ Within linkage first second ∧
      Within linkage second first := by
  have knownOthers : forall entry, entry ∈ others -> linkage.program.Known entry :=
    fun entry member => known entry ((sameEntries entry).mp member)
  have exemplary := (close_settled known closed).exemplary wellFormed
  rcases exemplary.close_within knownOthers (fun entry => (sameEntries entry).mp) with
    ⟨second, closedOthers, within⟩
  have settled := close_settled knownOthers closedOthers
  rcases (settled.exemplary wellFormed).close_within known
    (fun entry => (sameEntries entry).mpr) with ⟨again, closedAgain, around⟩
  rw [closed] at closedAgain
  cases closedAgain
  exact ⟨second, closedOthers, settled, within, around⟩

end Sessions

end Session

namespace Job

theorem compile_eq_ok_iff {job : Job} {compilation : Compilation} :
    job.compile = .ok compilation ↔ job.entries ≠ [] ∧ exists session,
      Session.close job.linkage job.options.followSlots job.entries {} = .ok ((), session) ∧
      compilation = ⟨session.records, session.registry.compile job.options.pointerSize⟩ := by
  constructor
  · intro compiled
    refine ⟨?_, compile_eq_ok compiled⟩
    intro none
    unfold compile at compiled
    rw [none] at compiled
    cases compiled
  · rintro ⟨some, session, closed, isCompilation⟩
    unfold compile
    rw [if_neg (fun empty => some (List.isEmpty_iff.mp empty)), isCompilation]
    exact Result.bind_eq_ok.mpr ⟨((), session), closed, rfl⟩

/-- If a compilation succeeds, so does every one with the same entries, and the
two are alike. -/
theorem compile_of_perm {program : Program} {settings : Settings} {options : Options}
    {job other : Job} {compilation : Compilation} (wellFormed : program.WellFormed)
    (apart : program.TellsApart) (prepared : Prepared program settings options job)
    (preparedOther : Prepared program settings options other)
    (perm : job.entries.Perm other.entries) (compiled : job.compile = .ok compilation) :
    exists result, other.compile = .ok result ∧ Alike compilation result := by
  rcases prepared.known with ⟨sameProgram, known⟩
  have sameLinkage : other.linkage = job.linkage :=
    Except.ok.inj (preparedOther.linkage.symm.trans prepared.linkage)
  have sameOptions : other.options = job.options :=
    preparedOther.options.trans prepared.options.symm
  rcases compile_eq_ok_iff.mp compiled with ⟨some, first, closed, isCompilation⟩
  rw [← sameProgram] at wellFormed apart known
  rcases Session.close_of_members wellFormed known (fun entry => perm.mem_iff.symm) closed with
    ⟨second, closedOther, settled, within, around⟩
  refine ⟨_, compile_eq_ok_iff.mpr ⟨?_, second, ?_, rfl⟩, ?_⟩
  · intro none
    rw [none] at perm
    exact some perm.eq_nil
  · rw [sameLinkage, sameOptions]
    exact closedOther
  · rw [isCompilation, sameOptions]
    exact Session.alike_of_within wellFormed apart (Session.close_settled known closed) settled
      within around _

end Job

/-- Whether a compilation succeeds and what it holds does not depend on the order
of its entries. -/
theorem compile_entryOrder {steps : List DraftStep} {program : Program} {settings : Settings}
    {options : Options} {first second : Job}
    (built : (Draft.ofSteps steps).build = .ok program)
    (prepared : Job.Prepared program settings options first)
    (preparedSecond : Job.Prepared program settings options second)
    (perm : first.entries.Perm second.entries) :
    ((exists left, first.compile = .ok left) ↔ exists right, second.compile = .ok right) ∧
      forall left right, first.compile = .ok left -> second.compile = .ok right ->
        Alike left right := by
  have wellFormed := Draft.wellFormed_of_build (Draft.listsOwn_ofSteps steps) built
  have apart := Draft.tellsApart_of_build built
  refine ⟨⟨?_, ?_⟩, ?_⟩
  · rintro ⟨left, compiled⟩
    rcases Job.compile_of_perm wellFormed apart prepared preparedSecond perm compiled with
      ⟨right, succeeds, _⟩
    exact ⟨right, succeeds⟩
  · rintro ⟨right, compiled⟩
    rcases Job.compile_of_perm wellFormed apart preparedSecond prepared perm.symm compiled with
      ⟨left, succeeds, _⟩
    exact ⟨left, succeeds⟩
  · intro left right compiled compiledSecond
    rcases Job.compile_of_perm wellFormed apart prepared preparedSecond perm compiled with
      ⟨result, succeeds, alike⟩
    rw [compiledSecond] at succeeds
    cases succeeds
    exact alike

/-- A desk has a pen.  It can be tidied through a static method, which touches its
static part only, and making a desk takes it in whole.  Pens write natively. -/
def sampleDeskSteps : List DraftStep := [
  .type none "Demo" "Desk" TypeAttributes.exported none,
  .type none "Demo" "Pen" TypeAttributes.exported none,
  .field none ⟨0x02000001⟩ "pen" ⟨0x02000002⟩ false,
  .method none ⟨0x02000001⟩ "Tidy" ⟨6, 0x0010, 0⟩ none [] (some ⟨8, true, [0x2A]⟩),
  .constructor none ⟨0x02000001⟩ false [] (some ⟨8, true, [0x2A]⟩),
  .method none ⟨0x02000002⟩ "Write" ⟨6, 0x0040, 0x0100⟩ none [] none]

def sampleDesk : Program :=
  (Draft.ofSteps sampleDeskSteps).build.toOption.getD ⟨[], [], [], [], []⟩

theorem build_sampleDesk : (Draft.ofSteps sampleDeskSteps).build = .ok sampleDesk :=
  Result.eq_ok_getD (by decide +kernel) _

def sampleDeskSettings : Settings :=
  ⟨[], [⟨"Demo.Pen", "Write", none, "pen_write"⟩]⟩

/-- Prepare a compilation of the desk from two entries. -/
def sampleDeskRequest (early late : Token) : Result Job := do
  let job ← Job.new sampleDesk sampleDeskSettings {}
  let job ← job.addEntry early
  job.addEntry late

theorem prepared_of_sampleDeskRequest {early late : Token} {job : Job}
    (requested : sampleDeskRequest early late = .ok job) :
    Job.Prepared sampleDesk sampleDeskSettings {} job := by
  rcases Result.bind_eq_ok.mp requested with ⟨fresh, isNew, adding⟩
  rcases Result.bind_eq_ok.mp adding with ⟨one, addedOne, addedTwo⟩
  exact .addEntry (.addEntry (.new isNew) addedOne) addedTwo

def sampleDeskJob (early late : Token) : Job :=
  (sampleDeskRequest early late).toOption.getD ⟨⟨sampleDesk, [], []⟩, {}, []⟩

def sampleDeskCompilation (early late : Token) : Compilation :=
  (sampleDeskJob early late).compile.toOption.getD ⟨{}, []⟩

theorem sampleDeskJob_prepared :
    Job.Prepared sampleDesk sampleDeskSettings {} (sampleDeskJob ⟨0x06000001⟩ ⟨0x06000002⟩) ∧
      Job.Prepared sampleDesk sampleDeskSettings {} (sampleDeskJob ⟨0x06000002⟩ ⟨0x06000001⟩) :=
  ⟨prepared_of_sampleDeskRequest (Result.eq_ok_getD (by decide +kernel) _),
    prepared_of_sampleDeskRequest (Result.eq_ok_getD (by decide +kernel) _)⟩

theorem sampleDeskJob_perm :
    (sampleDeskJob ⟨0x06000001⟩ ⟨0x06000002⟩).entries.Perm
      (sampleDeskJob ⟨0x06000002⟩ ⟨0x06000001⟩).entries := by
  decide +kernel

theorem compile_sampleDeskJob :
    (sampleDeskJob ⟨0x06000001⟩ ⟨0x06000002⟩).compile =
        .ok (sampleDeskCompilation ⟨0x06000001⟩ ⟨0x06000002⟩) ∧
      (sampleDeskJob ⟨0x06000002⟩ ⟨0x06000001⟩).compile =
        .ok (sampleDeskCompilation ⟨0x06000002⟩ ⟨0x06000001⟩) :=
  ⟨Result.eq_ok_getD (by decide +kernel) _, Result.eq_ok_getD (by decide +kernel) _⟩

/-- The records of the two methods change places, and nothing else changes. -/
theorem sampleDeskCompilation_alike :
    (sampleDeskCompilation ⟨0x06000001⟩ ⟨0x06000002⟩).records.methods.map MethodRecord.name =
      ["System.Void____Demo.Desk.Tidy_static", "System.Void____Demo.Desk..ctor_constr"] ∧
    (sampleDeskCompilation ⟨0x06000002⟩ ⟨0x06000001⟩).records.methods.map MethodRecord.name =
      ["System.Void____Demo.Desk..ctor_constr", "System.Void____Demo.Desk.Tidy_static"] ∧
    (sampleDeskCompilation ⟨0x06000001⟩ ⟨0x06000002⟩).records.natives =
      [("System.Void____Demo.Pen.Write", "pen_write")] ∧
    Alike (sampleDeskCompilation ⟨0x06000001⟩ ⟨0x06000002⟩)
      (sampleDeskCompilation ⟨0x06000002⟩ ⟨0x06000001⟩) :=
  ⟨by decide +kernel, by decide +kernel, by decide +kernel,
    (compile_entryOrder build_sampleDesk sampleDeskJob_prepared.1 sampleDeskJob_prepared.2
      sampleDeskJob_perm).2 _ _ compile_sampleDeskJob.1 compile_sampleDeskJob.2⟩

end Compilation
end CilGraph
