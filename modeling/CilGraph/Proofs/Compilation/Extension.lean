import CilGraph.Proofs.Compilation.Changes
import CilGraph.Proofs.Compilation.Targets
import CilGraph.Proofs.Dispatch.Finished

namespace CilGraph

/-!
# Following slots only adds

A compilation that follows slots first does what a compilation without slots
does, and then goes on.  Whatever it does from there adds to what is there:
records come after the records that were made before, a name that is bound keeps
its symbol, and a layout stays as it was made.  So leaving slots out cannot make
a compilation fail, and it takes nothing away but the additions.

That a table is the same in the end needs no argument about tables.  A table is
finished from its layout alone, and the layout of a type is entered once.
-/

/-! ## Records -/

namespace Records

/-- Records were added after others, and no name was bound anew. -/
structure Extends (earlier later : Records) : Prop where
  methods : earlier.methods <+: later.methods
  types : earlier.types <+: later.types
  natives : forall name symbol, earlier.native? name = some symbol ->
    later.native? name = some symbol

variable {first second third : Records}

theorem Extends.refl (records : Records) : Extends records records :=
  ⟨List.prefix_refl _, List.prefix_refl _, fun _ _ bound => bound⟩

theorem Extends.trans (early : Extends first second) (late : Extends second third) :
    Extends first third :=
  ⟨early.methods.trans late.methods, early.types.trans late.types,
    fun name symbol bound => late.natives name symbol (early.natives name symbol bound)⟩

theorem extends_addType (records : Records) (record : TypeRecord) :
    Extends records (records.addType record).2 := by
  unfold addType
  split
  · exact .refl records
  · exact ⟨List.prefix_refl _, List.prefix_append _ _, fun _ _ bound => bound⟩

theorem extends_addMethod (records : Records) (record : MethodRecord) :
    Extends records (records.addMethod record).2 := by
  unfold addMethod
  split
  · exact .refl records
  · exact ⟨List.prefix_append _ _, List.prefix_refl _, fun _ _ bound => bound⟩

theorem extends_bindNative {records : Records} {name : String} (symbol : String)
    (fresh : records.native? name = none) : Extends records (records.bindNative name symbol) := by
  refine ⟨List.prefix_refl _, List.prefix_refl _, ?_⟩
  intro other earlier bound
  have differs : other ≠ name := by
    intro same
    rw [same, fresh] at bound
    cases bound
  exact (Ordered.lookup_insertEntry_of_ne symbol records.natives differs).trans bound

end Records

/-! ## Tables -/

theorem Dispatch.Registry.Grows.compile_subset {linkage : Linkage} {first second : Registry}
    (grows : Grows linkage first second) (pointerSize : UInt32) :
    first.compile pointerSize ⊆ second.compile pointerSize := by
  rcases grows.layouts with ⟨more, appended⟩
  intro table member
  rcases mem_compile.mp member with ⟨token, layout, entered, finished⟩
  refine mem_compile.mpr ⟨token, layout, ?_, finished⟩
  rw [appended]
  exact List.mem_append_left more entered

namespace Compilation

/-! ## Sessions -/

namespace Session

variable {linkage : Linkage} {scope : Scope} {before after : Session}

theorem Change.extends (change : Change linkage scope before after) :
    before.records.Extends after.records := by
  cases change with
  | notes records registry pending =>
      rw [records]
      exact .refl _
  | describes record => exact Records.extends_addType _ record
  | binds inside fresh => exact Records.extends_bindNative _ fresh
  | records inside isConcrete translates => exact Records.extends_addMethod _ _
  | registers | enters | queues | pops => exact .refl _

theorem Evolves.extends (evolves : Evolves linkage scope before after) :
    before.records.Extends after.records := by
  induction evolves with
  | refl => exact .refl _
  | tail _ change inductionHypothesis => exact inductionHypothesis.trans change.extends

/-- The first draining is all that is done without slots, and with slots it is
where a session goes on from. -/
theorem closeWith_drained {fuel : Nat} (inside : Inside linkage .everything before)
    (closed : closeWith linkage true (fuel + 1) before = .ok ((), after)) :
    exists drained, closeWith linkage false (fuel + 1) before = .ok ((), drained) ∧
      Evolves linkage .everything drained after := by
  have unlimited := Scope.closed_everything linkage true
  rw [closeWith_apply] at closed
  rcases Result.bind_eq_ok.mp closed with ⟨⟨_, drained⟩, draining, continued⟩
  rcases Result.bind_eq_ok.mp continued with ⟨⟨_, reached⟩, following, deciding⟩
  have insideThen := (drainWith_evolves unlimited inside draining).inside inside
  have follows := dispatchWith_evolves unlimited insideThen following
  refine ⟨drained, ?_, ?_⟩
  · rw [closeWith_apply, draining]
    rfl
  · dsimp only at deciding
    split at deciding
    · cases deciding
      exact follows
    · exact follows.trans (closeWith_evolves unlimited (follows.inside insideThen) deciding)

theorem close_drained {entries : List Callable}
    (closed : close linkage true entries {} = .ok ((), after)) :
    exists drained, close linkage false entries {} = .ok ((), drained) ∧
      Evolves linkage .everything drained after := by
  have admits : forall entry, entry ∈ entries -> Scope.everything.Admits linkage entry :=
    fun _ _ _ _ _ discovery _ _ => Scope.allows_everything linkage.program discovery
  rcases bind_eq_ok closed with ⟨_, referred, referring, closing⟩
  have start := inside_start linkage Scope.everything
  have refers := referAll_evolves (Scope.closed_everything linkage true) start admits referring
  rcases closeWith_drained (refers.inside start) closing with ⟨drained, ends, evolves⟩
  refine ⟨drained, ?_, evolves⟩
  unfold close
  rw [bind_apply]
  exact Result.bind_eq_ok.mpr ⟨_, referring, ends⟩

end Session

/-! ## Compilations -/

/-- The same compilation without following slots. -/
def Job.withoutSlots (job : Job) : Job :=
  { job with options := { job.options with followSlots := false } }

/-- A compilation that follows slots extends the one that does not: that one
succeeds as well, and all that it gives is part of what is given with slots. -/
theorem compile_withoutSlots {job : Job} {compilation : Compilation}
    (following : job.options.followSlots = true) (compiled : job.compile = .ok compilation) :
    exists smaller, job.withoutSlots.compile = .ok smaller ∧
      smaller.records.Extends compilation.records ∧ smaller.tables ⊆ compilation.tables := by
  rcases Job.compile_eq_ok compiled with ⟨session, closed, isCompilation⟩
  rw [following] at closed
  rcases Session.close_drained closed with ⟨drained, ends, evolves⟩
  refine ⟨⟨drained.records, drained.registry.compile job.options.pointerSize⟩, ?_, ?_, ?_⟩
  · unfold Job.compile at compiled ⊢
    split at compiled
    · cases compiled
    · rename_i some
      have someThen : ¬ job.withoutSlots.entries.isEmpty = true := some
      rw [if_neg someThen]
      exact Result.bind_eq_ok.mpr ⟨_, ends, rfl⟩
  · rw [isCompilation]
    exact evolves.extends
  · rw [isCompilation]
    exact evolves.registry.compile_subset job.options.pointerSize

/-- Without slots the studio compiles what makes a shape and stops there. -/
theorem sampleStudioJob_withoutSlots :
    (sampleStudioJob.compile.toOption.map (fun compilation =>
        (compilation.records.methods.length, compilation.tables.length)) = some (5, 2) ∧
      sampleStudioJob.withoutSlots.compile.toOption.map (fun compilation =>
        (compilation.records.methods.length, compilation.tables.length)) = some (2, 1)) ∧
    exists smaller, sampleStudioJob.withoutSlots.compile = .ok smaller ∧
      smaller.records.Extends sampleStudioCompilation.records ∧
      smaller.tables ⊆ sampleStudioCompilation.tables :=
  ⟨by decide +kernel, compile_withoutSlots rfl compile_sampleStudioJob⟩

end Compilation
end CilGraph
