import CilGraph.Proofs.Compilation.Changes
import CilGraph.Proofs.Compilation.EntryOrder
import CilGraph.Proofs.Dispatch.Scaling

namespace CilGraph
namespace Compilation

/-!
# Compilations for pointers of either size

The size of a pointer is asked for at the very end, when the tables of a session are
placed.  Preparing a compilation checks it and keeps it, and nothing else looks at
it.  So a compilation for pointers of four bytes and one for pointers of eight take
the same steps: they fail alike, they give the same records, and their tables differ
in the words that say where the parts of a table lie.  `Dispatch.Table.Scales` says
how these differ.
-/

/-- A compilation for pointers of four bytes, and the same for pointers of eight. -/
structure Scales (small large : Compilation) : Prop where
  records : large.records = small.records
  tables : List.Forall₂ Dispatch.Table.Scales small.tables large.tables

namespace Job

/-- The same compilation for pointers of another size. -/
def withPointerSize (job : Job) (pointerSize : UInt32) : Job :=
  { job with options := { job.options with pointerSize := pointerSize } }

section Preparing

variable {program : Program} {settings : Settings} {options : Options} {pointerSize : UInt32}
  {job next : Job}

theorem push_withPointerSize (job : Job) (callable : Callable) :
    (job.withPointerSize pointerSize).push callable =
      (job.push callable).withPointerSize pointerSize := by
  unfold push
  split
  · rename_i present
    rw [if_pos (show job.entries.any _ = true from present)]
  · rename_i absent
    rw [if_neg (show ¬ job.entries.any _ = true from absent)]
    rfl

theorem addEntryNamed_withPointerSize {typeName method : String}
    (added : job.addEntryNamed typeName method = .ok next) :
    (job.withPointerSize pointerSize).addEntryNamed typeName method =
      .ok (next.withPointerSize pointerSize) := by
  have sameLinkage : (job.withPointerSize pointerSize).linkage = job.linkage := rfl
  unfold addEntryNamed at added ⊢
  rw [sameLinkage]
  cases found : job.linkage.program.findType? typeName with
  | none =>
      simp only [found] at added
      cases added
  | some type =>
      simp only [found] at added ⊢
      rcases Result.bind_eq_ok.mp added with ⟨methods, ofMethods, continued⟩
      rcases Result.bind_eq_ok.mp continued with ⟨constructors, ofConstructors, chosen⟩
      refine Result.bind_eq_ok.mpr ⟨methods, ofMethods, ?_⟩
      refine Result.bind_eq_ok.mpr ⟨constructors, ofConstructors, ?_⟩
      split at chosen
      · cases chosen
      · cases chosen
        rw [push_withPointerSize]
      · cases chosen

/-- Whatever was prepared for pointers of one size can be prepared for the other. -/
theorem Prepared.withPointerSize (prepared : Prepared program settings options job)
    (accepted : pointerSize = 4 ∨ pointerSize = 8) :
    Prepared program settings { options with pointerSize := pointerSize }
      (job.withPointerSize pointerSize) := by
  induction prepared with
  | new made =>
      unfold Job.new at made
      split at made
      · rcases Result.bind_eq_ok.mp made with ⟨linkage, linked, assembled⟩
        cases assembled
        refine .new ?_
        unfold Job.new
        rw [if_pos accepted]
        exact Result.bind_eq_ok.mpr ⟨linkage, linked, rfl⟩
      · cases made
  | addEntry _ added inductionHypothesis =>
      rcases Result.bind_eq_ok.mp added with ⟨callable, found, assembled⟩
      cases assembled
      refine .addEntry inductionHypothesis (Result.bind_eq_ok.mpr ⟨callable, found, ?_⟩)
      rw [push_withPointerSize]
  | addEntryNamed _ added inductionHypothesis =>
      exact .addEntryNamed inductionHypothesis (addEntryNamed_withPointerSize added)

end Preparing

/-- A compilation and the session that it places the tables of. -/
theorem compile_withPointerSize {job : Job} {pointerSize : UInt32} {compilation : Compilation} :
    (job.withPointerSize pointerSize).compile = .ok compilation ↔
      job.entries ≠ [] ∧ exists session,
        Session.close job.linkage job.options.followSlots job.entries {} = .ok ((), session) ∧
        compilation = ⟨session.records, session.registry.compile pointerSize⟩ :=
  compile_eq_ok_iff

end Job

theorem Session.grown_of_close {linkage : Linkage} {followSlots : Bool} {entries : List Callable}
    {session : Session} (closed : close linkage followSlots entries {} = .ok ((), session)) :
    Dispatch.Registry.Grows linkage {} session.registry := by
  have admits : forall entry, entry ∈ entries -> Scope.everything.Admits linkage entry :=
    fun _ _ _ _ _ discovery _ _ => Scope.allows_everything linkage.program discovery
  have evolves := close_evolves (Scope.closed_everything linkage followSlots) admits closed
  exact (evolves.inside (inside_start linkage Scope.everything)).grown

/-- The size of pointers decides nothing but where the parts of tables lie. -/
theorem compile_pointerSize {program : Program} {settings : Settings} {options : Options}
    {job : Job} (prepared : Job.Prepared program settings options job) :
    Job.Prepared program settings { options with pointerSize := 4 } (job.withPointerSize 4) ∧
    Job.Prepared program settings { options with pointerSize := 8 } (job.withPointerSize 8) ∧
    ((exists small, (job.withPointerSize 4).compile = .ok small) ↔
      exists large, (job.withPointerSize 8).compile = .ok large) ∧
    forall small large, (job.withPointerSize 4).compile = .ok small ->
      (job.withPointerSize 8).compile = .ok large -> Scales small large := by
  refine ⟨prepared.withPointerSize (Or.inl rfl), prepared.withPointerSize (Or.inr rfl),
    ⟨?_, ?_⟩, ?_⟩
  · rintro ⟨small, compiled⟩
    rcases Job.compile_withPointerSize.mp compiled with ⟨some, session, closed, _⟩
    exact ⟨_, Job.compile_withPointerSize.mpr ⟨some, session, closed, rfl⟩⟩
  · rintro ⟨large, compiled⟩
    rcases Job.compile_withPointerSize.mp compiled with ⟨some, session, closed, _⟩
    exact ⟨_, Job.compile_withPointerSize.mpr ⟨some, session, closed, rfl⟩⟩
  · intro small large compiled compiledLarge
    rcases Job.compile_withPointerSize.mp compiled with ⟨_, session, closed, isSmall⟩
    rcases Job.compile_withPointerSize.mp compiledLarge with ⟨_, other, closedLarge, isLarge⟩
    rw [closed] at closedLarge
    cases closedLarge
    rw [isSmall, isLarge]
    exact ⟨rfl, (Session.grown_of_close closed).scales_compile⟩

/-- A ferry is a ship with a name. -/
def sampleHarbourSteps : List DraftStep := [
  .type none "Demo" "Ship" TypeAttributes.exported none,
  .type none "Demo" "Named" TypeAttributes.interface none,
  .type none "Demo" "Ferry" TypeAttributes.exported (some ⟨0x02000001⟩),
  .interface ⟨0x02000003⟩ ⟨0x02000002⟩,
  .method none ⟨0x02000001⟩ "Sail" ⟨6, 0x0040, 0x0100⟩ none [] (some ⟨8, true, [0x2A]⟩),
  .method none ⟨0x02000002⟩ "Name" ⟨6, 0x0440, 0x0100⟩ none [] none,
  .method none ⟨0x02000003⟩ "Sail" ⟨6, 0x0040, 0⟩ none [] (some ⟨8, true, [0x2A]⟩),
  .method none ⟨0x02000003⟩ "Name" ⟨6, 0x0040, 0x0100⟩ none [] (some ⟨8, true, [0x2A]⟩),
  .method none ⟨0x02000003⟩ "Board" ⟨6, 0x0010, 0⟩ none [⟨⟨0x02000003⟩, ⟨0⟩⟩]
    (some ⟨8, true, [0x2A]⟩)]

def sampleHarbour : Program :=
  (Draft.ofSteps sampleHarbourSteps).build.toOption.getD ⟨[], [], [], [], []⟩

def sampleHarbourRequest : Result Job := do
  let job ← Job.new sampleHarbour {} {}
  job.addEntryNamed "Demo.Ferry" "Board"

def sampleHarbourJob : Job :=
  sampleHarbourRequest.toOption.getD ⟨⟨sampleHarbour, [], []⟩, {}, []⟩

theorem sampleHarbourJob_prepared : Job.Prepared sampleHarbour {} {} sampleHarbourJob := by
  have made : sampleHarbourRequest = .ok sampleHarbourJob :=
    Result.eq_ok_getD (by decide +kernel) _
  rcases Result.bind_eq_ok.mp made with ⟨job, isNew, added⟩
  exact .addEntryNamed (.new isNew) added

/-- The harbour, compiled for pointers of a given size. -/
def sampleHarbourCompilation (pointerSize : UInt32) : Compilation :=
  (sampleHarbourJob.withPointerSize pointerSize).compile.toOption.getD ⟨{}, []⟩

theorem sampleHarbourCompilation_scales :
    ((sampleHarbourCompilation 4).table? "Demo.Ferry").map (fun table =>
        (table.conversions, table.conversionOffset, table.footprint 8)) =
      some ([("Demo.Ferry", 0), ("Demo.Ship", 12), ("Demo.Named", 20)], 28, 56) ∧
    ((sampleHarbourCompilation 8).table? "Demo.Ferry").map (fun table =>
        (table.conversions, table.conversionOffset)) =
      some ([("Demo.Ferry", 0), ("Demo.Ship", 24), ("Demo.Named", 40)], 56) ∧
    Scales (sampleHarbourCompilation 4) (sampleHarbourCompilation 8) := by
  refine ⟨by decide +kernel, by decide +kernel, ?_⟩
  exact (compile_pointerSize sampleHarbourJob_prepared).2.2.2 _ _
    (Result.eq_ok_getD (by decide +kernel) _) (Result.eq_ok_getD (by decide +kernel) _)

end Compilation
end CilGraph
