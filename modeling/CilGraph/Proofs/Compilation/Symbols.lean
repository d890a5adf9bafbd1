import CilGraph.Proofs.Compilation.Reachability
import CilGraph.Proofs.Linkage.Stability

namespace CilGraph
namespace Compilation

/-!
# Names and their external symbols

A compilation looks a callable up, takes the name of what it finds, and then asks
for the external symbol of what it found.  To answer, that callable is looked up
once more.  So a name has the symbol of the callable of that name as long as the
second look changes nothing, and this is what the settings decide: it does so
exactly where the replacement of a type is replaced by a third type.
-/

section Symbols

variable {steps : List DraftStep} {program : Program} {settings : Settings} {linkage : Linkage}

/-- Whatever is bound under a name was found for a callable that is referred to.
Unless the type of that callable is replaced twice, the symbol is the one of what
was found. -/
theorem symbol_of_compile (built : (Draft.ofSteps steps).build = .ok program) {options : Options}
    {job : Job} {compilation : Compilation} (prepared : Job.Prepared program settings options job)
    (compiled : job.compile = .ok compilation) {name symbol : String}
    (bound : (name, symbol) ∈ compilation.records.natives) :
    exists declared resolved, job.Named declared ∧
      job.linkage.resolveCallable declared = .ok resolved ∧ program.mangle resolved = .ok name ∧
      (¬ settings.Chains program declared.declaring ->
        job.linkage.boundSymbol? resolved = some symbol) := by
  have applied := prepared.linkage
  have sameProgram := Linkage.program_of_ofSettings applied
  have declares : job.linkage.program.DeclaresMembers := by
    rw [sameProgram]
    exact Draft.declaresMembers_of_build built
  rcases Job.compile_eq_ok compiled with ⟨session, ended, isCompilation⟩
  have evolves := Job.evolves_of_close (Linkage.grounded_of_build built applied) ended
  rw [isCompilation] at bound
  rcases evolves.binds bound with initial | ⟨declared, resolved, named, resolves, mangles, native⟩
  · cases initial
  · rw [sameProgram] at mangles
    refine ⟨declared, resolved, named, resolves, mangles, ?_⟩
    intro unchained
    have again := (Linkage.resolveCallable_resolved_iff applied declares resolves).mpr unchained
    rw [Linkage.nativeSymbol?_of_resolveCallable again] at native
    exact Except.ok.inj native

/-- What was looked up stays the same when it is looked up again, exactly where the
settings do not replace a type by one that they replace by a third.  There the
external symbol is the same for both as well, and a compilation binds a name to the
symbol of the callable that has the name. -/
theorem resolution_stable_iff (built : (Draft.ofSteps steps).build = .ok program)
    (applied : Linkage.ofSettings program settings = .ok linkage) :
    (forall token, linkage.resolveType (linkage.resolveType token) = linkage.resolveType token ↔
      ¬ settings.Chains program token) ∧
    (forall callable resolved, linkage.resolveCallable callable = .ok resolved ->
      (linkage.resolveCallable resolved = .ok resolved ↔
        ¬ settings.Chains program callable.declaring) ∧
      linkage.nativeSymbol? callable = .ok (linkage.boundSymbol? resolved) ∧
      (¬ settings.Chains program callable.declaring ->
        linkage.nativeSymbol? resolved = linkage.nativeSymbol? callable)) ∧
    forall options job compilation, Job.Prepared program settings options job ->
      job.compile = .ok compilation ->
      forall name symbol, (name, symbol) ∈ compilation.records.natives ->
        exists declared resolved, job.Named declared ∧
          linkage.resolveCallable declared = .ok resolved ∧ program.mangle resolved = .ok name ∧
          (¬ settings.Chains program declared.declaring ->
            linkage.boundSymbol? resolved = some symbol) := by
  have declares : linkage.program.DeclaresMembers := by
    rw [Linkage.program_of_ofSettings applied]
    exact Draft.declaresMembers_of_build built
  refine ⟨Linkage.resolveType_resolveType_iff applied, ?_, ?_⟩
  · intro callable resolved resolves
    have stable := Linkage.resolveCallable_resolved_iff applied declares resolves
    have symbol := Linkage.nativeSymbol?_of_resolveCallable resolves
    refine ⟨stable, symbol, ?_⟩
    intro unchained
    rw [symbol, Linkage.nativeSymbol?_of_resolveCallable (stable.mpr unchained)]
  · intro options job compilation prepared compiled name symbol bound
    have sameLinkage : job.linkage = linkage :=
      Except.ok.inj (prepared.linkage.symm.trans applied)
    have found := symbol_of_compile built prepared compiled bound
    rw [sameLinkage] at found
    exact found

end Symbols

/-- Three types with a method that is implemented outside, but for the first. -/
def sampleRelaySteps : List DraftStep := [
  .type none "Demo" "First" TypeAttributes.exported none,
  .type none "Demo" "Second" TypeAttributes.exported none,
  .type none "Demo" "Third" TypeAttributes.exported none,
  .method none ⟨0x02000001⟩ "Run" ⟨6, 0x0010, 0⟩ none [] none,
  .method none ⟨0x02000002⟩ "Run" ⟨6, 0x0010, 0⟩ none [] none,
  .method none ⟨0x02000003⟩ "Run" ⟨6, 0x0010, 0⟩ none [] none]

def sampleRelay : Program :=
  (Draft.ofSteps sampleRelaySteps).build.toOption.getD ⟨[], [], [], [], []⟩

theorem build_sampleRelay : (Draft.ofSteps sampleRelaySteps).build = .ok sampleRelay :=
  Result.eq_ok_getD (by decide +kernel) _

/-- The second type takes the place of the first, and the third that of the second. -/
def sampleRelaySettings : Settings where
  substitutions := [⟨"Demo.First", "Demo.Second"⟩, ⟨"Demo.Second", "Demo.Third"⟩]
  natives := [⟨"Demo.Second", "Run", none, "second_run"⟩, ⟨"Demo.Third", "Run", none, "third_run"⟩]

def sampleRelayLinkage : Linkage :=
  (Linkage.ofSettings sampleRelay sampleRelaySettings).toOption.getD ⟨sampleRelay, [], []⟩

theorem ofSettings_sampleRelay :
    Linkage.ofSettings sampleRelay sampleRelaySettings = .ok sampleRelayLinkage :=
  Result.eq_ok_getD (by decide +kernel) _

def sampleRelayMethod (token declaring : Token) : Callable :=
  .method ⟨token, "Run", declaring, ⟨6, 0x0010, 0⟩, none, [], none⟩

def sampleRelayRequest (entry : Token) : Result Job := do
  let job ← Job.new sampleRelay sampleRelaySettings {}
  job.addEntry entry

/-- The second method is asked for. -/
def sampleRelayJob : Job :=
  (sampleRelayRequest ⟨0x06000002⟩).toOption.getD ⟨sampleRelayLinkage, {}, []⟩

theorem sampleRelayJob_prepared :
    Job.Prepared sampleRelay sampleRelaySettings {} sampleRelayJob := by
  have requested : sampleRelayRequest ⟨0x06000002⟩ = .ok sampleRelayJob :=
    Result.eq_ok_getD (by decide +kernel) _
  rcases Result.bind_eq_ok.mp requested with ⟨fresh, isNew, added⟩
  exact .addEntry (.new isNew) added

def sampleRelayCompilation : Compilation :=
  sampleRelayJob.compile.toOption.getD ⟨{}, []⟩

theorem compile_sampleRelayJob : sampleRelayJob.compile = .ok sampleRelayCompilation :=
  Result.eq_ok_getD (by decide +kernel) _

/-- The first type is replaced twice.  The second is not, and what takes the place of
its method stays. -/
theorem sampleRelay_stable :
    sampleRelaySettings.Chains sampleRelay ⟨0x02000001⟩ ∧
    ¬ sampleRelaySettings.Chains sampleRelay ⟨0x02000002⟩ ∧
    sampleRelayLinkage.resolveCallable (sampleRelayMethod ⟨0x06000002⟩ ⟨0x02000002⟩) =
      .ok (sampleRelayMethod ⟨0x06000003⟩ ⟨0x02000003⟩) ∧
    sampleRelayLinkage.resolveCallable (sampleRelayMethod ⟨0x06000003⟩ ⟨0x02000003⟩) =
      .ok (sampleRelayMethod ⟨0x06000003⟩ ⟨0x02000003⟩) ∧
    sampleRelayLinkage.nativeSymbol? (sampleRelayMethod ⟨0x06000003⟩ ⟨0x02000003⟩) =
      sampleRelayLinkage.nativeSymbol? (sampleRelayMethod ⟨0x06000002⟩ ⟨0x02000002⟩) ∧
    exists declared resolved, sampleRelayJob.Named declared ∧
      sampleRelayLinkage.resolveCallable declared = .ok resolved ∧
      sampleRelay.mangle resolved = .ok "System.Void____Demo.Third.Run_static" ∧
      (¬ sampleRelaySettings.Chains sampleRelay declared.declaring ->
        sampleRelayLinkage.boundSymbol? resolved = some "third_run") := by
  rcases resolution_stable_iff build_sampleRelay ofSettings_sampleRelay with
    ⟨types, callables, symbols⟩
  have moves : sampleRelayLinkage.resolveType (sampleRelayLinkage.resolveType ⟨0x02000001⟩) ≠
      sampleRelayLinkage.resolveType ⟨0x02000001⟩ := by
    decide +kernel
  have chained := Classical.not_not.mp (fun unchained => moves ((types _).mpr unchained))
  have unchained := (types ⟨0x02000002⟩).mp (by decide +kernel)
  have resolves : sampleRelayLinkage.resolveCallable
      (sampleRelayMethod ⟨0x06000002⟩ ⟨0x02000002⟩) =
        .ok (sampleRelayMethod ⟨0x06000003⟩ ⟨0x02000003⟩) := by
    decide +kernel
  rcases callables _ _ resolves with ⟨again, _, sameSymbol⟩
  have bound : ("System.Void____Demo.Third.Run_static", "third_run") ∈
      sampleRelayCompilation.records.natives := by
    decide +kernel
  exact ⟨chained, unchained, resolves, again.mpr unchained, sameSymbol unchained,
    symbols _ _ _ sampleRelayJob_prepared compile_sampleRelayJob _ _ bound⟩

/-- The name of the second method is bound to the symbol of the third. -/
theorem sampleRelay_unstable :
    (Draft.ofSteps sampleRelaySteps).build = .ok sampleRelay ∧
    Linkage.ofSettings sampleRelay sampleRelaySettings = .ok sampleRelayLinkage ∧
    sampleRelayLinkage.resolveType (sampleRelayLinkage.resolveType ⟨0x02000001⟩) ≠
      sampleRelayLinkage.resolveType ⟨0x02000001⟩ ∧
    sampleRelayLinkage.resolveCallable (sampleRelayMethod ⟨0x06000001⟩ ⟨0x02000001⟩) =
      .ok (sampleRelayMethod ⟨0x06000002⟩ ⟨0x02000002⟩) ∧
    sampleRelayLinkage.resolveCallable (sampleRelayMethod ⟨0x06000002⟩ ⟨0x02000002⟩) ≠
      .ok (sampleRelayMethod ⟨0x06000002⟩ ⟨0x02000002⟩) ∧
    sampleRelayLinkage.nativeSymbol? (sampleRelayMethod ⟨0x06000001⟩ ⟨0x02000001⟩) =
      .ok (some "second_run") ∧
    sampleRelayLinkage.nativeSymbol? (sampleRelayMethod ⟨0x06000002⟩ ⟨0x02000002⟩) =
      .ok (some "third_run") ∧
    sampleRelay.mangle (sampleRelayMethod ⟨0x06000002⟩ ⟨0x02000002⟩) =
      .ok "System.Void____Demo.Second.Run_static" ∧
    ((sampleRelayRequest ⟨0x06000001⟩).bind (fun job => job.compile.map (fun compilation =>
      compilation.records.natives))) =
        .ok [("System.Void____Demo.Second.Run_static", "third_run")] := by
  decide +kernel

end Compilation
end CilGraph
