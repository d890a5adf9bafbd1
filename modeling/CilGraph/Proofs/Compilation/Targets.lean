import CilGraph.Proofs.Compilation.Closure
import CilGraph.Proofs.Dispatch.Placement

namespace CilGraph
namespace Compilation

/-!
# Dispatch targets are compiled

A call through a table ends up in one of its slots, whichever table it is.  If
slots are followed, every slot that can be called leads to something: what it
resolves to has a record, or is bound to an external symbol, or is abstract, or
is implemented elsewhere.

Slots are followed in the tables of the registry, and what is handed out are the
placed tables.  Placing brings in no slot, and a registered type has one table
only, so the slots that were followed are all there are.  Compiling a target may
register further types.  The session goes on until these are marked as well.
-/

namespace Job

theorem push_options (job : Job) (callable : Callable) :
    (job.push callable).options = job.options := by
  unfold push
  split <;> rfl

theorem Prepared.options {program : Program} {settings : Settings} {options : Options} {job : Job}
    (prepared : Prepared program settings options job) : job.options = options := by
  induction prepared with
  | new made =>
      unfold Job.new at made
      split at made
      · rcases Result.bind_eq_ok.mp made with ⟨linkage, _, assembled⟩
        cases assembled
        rfl
      · cases made
  | addEntry prepared added inductionHypothesis =>
      rcases Result.bind_eq_ok.mp added with ⟨callable, _, assembled⟩
      cases assembled
      rw [push_options]
      exact inductionHypothesis
  | addEntryNamed prepared added inductionHypothesis =>
      rcases addEntryNamed_eq_ok added with ⟨callable, _, same⟩
      rw [same, push_options]
      exact inductionHypothesis

/-- Entries have no part in how settings are applied. -/
theorem Prepared.linkage {program : Program} {settings : Settings} {options : Options} {job : Job}
    (prepared : Prepared program settings options job) :
    Linkage.ofSettings program settings = .ok job.linkage := by
  induction prepared with
  | new made =>
      unfold Job.new at made
      split at made
      · rcases Result.bind_eq_ok.mp made with ⟨linkage, linked, assembled⟩
        cases assembled
        exact linked
      · cases made
  | addEntry prepared added inductionHypothesis =>
      rcases Result.bind_eq_ok.mp added with ⟨callable, _, assembled⟩
      cases assembled
      rw [push_linkage]
      exact inductionHypothesis
  | addEntryNamed prepared added inductionHypothesis =>
      rcases addEntryNamed_eq_ok added with ⟨callable, _, same⟩
      rw [same, push_linkage]
      exact inductionHypothesis

/-- A compilation is read off the session that its entries lead to. -/
theorem compile_eq_ok {job : Job} {compilation : Compilation}
    (compiled : job.compile = .ok compilation) : exists session,
      Session.close job.linkage job.options.followSlots job.entries {} = .ok ((), session) ∧
      compilation = ⟨session.records, session.registry.compile job.options.pointerSize⟩ := by
  unfold Job.compile at compiled
  split at compiled
  · cases compiled
  · rcases Result.bind_eq_ok.mp compiled with ⟨⟨_, session⟩, closed, assembled⟩
    cases assembled
    exact ⟨session, closed, rfl⟩

end Job

/-- Nothing is missing to call a callable: it has a record, is bound to an
external symbol, is abstract, or is implemented elsewhere. -/
def Provided (linkage : Linkage) (records : Records) (callable : Callable) : Prop :=
  (callable.body = none ∧ linkage.nativeSymbol? callable = .ok none) ∨
    callable.isAbstract = true ∨
    exists name, linkage.program.mangle callable = .ok name ∧
      (name ∈ records.natives.map Prod.fst ∨ name ∈ records.methodNames)

namespace Session

section Targets

variable {linkage : Linkage} {finished : Nat} {session : Session}

/-- Once nothing is left to lower, a callable that was dealt with is provided. -/
theorem Dealt.provided {callable : Callable} (dealt : Dealt linkage session callable)
    (tracked : Tracked linkage [] finished session) (empty : session.pending = [])
    (known : linkage.program.Known callable) : Provided linkage session.records callable := by
  rcases dealt with ⟨name, _, mangles, _, ⟨_, asked⟩ | ⟨_, bound⟩⟩
  · rcases tracked.settled empty asked with
      ⟨owner, ownerKnown, sameToken, _, isAbstract | hasRecord⟩
    · rw [ownerKnown.eq_of_token known sameToken] at isAbstract
      exact Or.inr (Or.inl isAbstract)
    · exact Or.inr (Or.inr ⟨name, mangles, Or.inr hasRecord⟩)
  · exact Or.inr (Or.inr ⟨name, mangles, Or.inl bound⟩)

/-- The slots of a registered layout have been met once all types are marked. -/
theorem Followed.layout (followed : Followed linkage session)
    (grown : Dispatch.Registry.Grows linkage {} session.registry)
    (marked : session.registry.types ⊆ session.dispatched) {type : Token}
    {layout : Dispatch.Layout} (member : (type, layout) ∈ session.registry.layouts)
    {slot : MethodDef} (isSlot : slot ∈ layout.table.slots)
    (isConcrete : slot.isAbstract = false) : SlotMet linkage session slot := by
  rcases followed type (marked (List.mem_map.mpr ⟨(type, layout), member, rfl⟩)) with
    ⟨table, ⟨plain, own, innermost, found, isTable⟩, met⟩
  rcases grown.made_of_mem member with ⟨definition, resolved, base, interfaces, tables, origin⟩
  rw [origin.plain] at innermost
  rw [← Except.ok.inj innermost, grown.layout?_of_mem member] at found
  rw [← Option.some.inj found] at isTable
  rw [← isTable] at isSlot
  exact met slot isSlot isConcrete

end Targets

end Session

/-- If slots are followed, every slot of a compilation that can be called leads to
something that has been compiled, is bound to an external symbol, is abstract,
or is implemented elsewhere. -/
theorem compile_provides {program : Program} {settings : Settings} {options : Options} {job : Job}
    {compilation : Compilation} (prepared : Job.Prepared program settings options job)
    (following : options.followSlots = true) (compiled : job.compile = .ok compilation) :
    forall table, table ∈ compilation.tables -> forall slot, slot ∈ table.slots ->
      slot.isAbstract = false -> exists resolved,
        job.linkage.resolveCallable (.method slot) = .ok resolved ∧
          Provided job.linkage compilation.records resolved := by
  intro table isTable slot isSlot isConcrete
  rcases prepared.known with ⟨same, known⟩
  rw [← same] at known
  rcases Job.compile_eq_ok compiled with ⟨session, closed, isCompilation⟩
  rcases Session.close_tracked known closed with ⟨total, tracked, empty, progresses, marks⟩
  have marked : session.registry.types ⊆ session.dispatched := by
    apply marks
    rw [prepared.options]
    exact following
  rw [isCompilation] at isTable ⊢
  rcases List.mem_map.mp (Ordered.mem_sortBy.mp isTable) with
    ⟨⟨type, layout⟩, member, isFinished⟩
  rw [← isFinished] at isSlot
  have isLayoutSlot : slot ∈ layout.table.slots :=
    Dispatch.Table.mem_slots_of_convert_place _ _ isSlot
  rcases progresses.followed.layout tracked.grown marked member isLayoutSlot isConcrete with
    ⟨resolved, resolves, elsewhere | dealt⟩
  · exact ⟨resolved, resolves, Or.inl elsewhere⟩
  · have slotKnown := tracked.known (type, layout) member slot isLayoutSlot
    have resolvedKnown := (Linkage.known_of_resolveCallable slotKnown resolves).1
    exact ⟨resolved, resolves, dealt.provided tracked empty resolvedKnown⟩

/-- A studio makes a shape and calls nothing.  Drawing a shape makes a pen, so
the table of pens is registered only when the slot of shapes is followed. -/
def sampleStudio : Program where
  types := [
    ⟨⟨0x02000001⟩, "Demo", "Studio", TypeAttributes.exported, none, none, [], [],
      [⟨0x06000001⟩], []⟩,
    ⟨⟨0x02000002⟩, "Demo", "Shape", TypeAttributes.exported, none, none, [], [],
      [⟨0x06000002⟩], [⟨0x06000003⟩]⟩,
    ⟨⟨0x02000003⟩, "Demo", "Pen", TypeAttributes.exported, none, none, [], [],
      [⟨0x06000004⟩], [⟨0x06000005⟩]⟩]
  names := [("Demo.Studio", ⟨0x02000001⟩), ("Demo.Shape", ⟨0x02000002⟩),
    ("Demo.Pen", ⟨0x02000003⟩)]
  fields := []
  callables := [
    .method ⟨⟨0x06000001⟩, "Main", ⟨0x02000001⟩, ⟨6, 0x0010, 0⟩, none, [],
      some ⟨8, true, [0x73, 0x03, 0x00, 0x00, 0x06, 0x26, 0x2A]⟩⟩,
    .method ⟨⟨0x06000002⟩, "Draw", ⟨0x02000002⟩, ⟨6, 0x0040, 0x0100⟩, none, [],
      some ⟨8, true, [0x73, 0x05, 0x00, 0x00, 0x06, 0x26, 0x2A]⟩⟩,
    .constructor ⟨⟨0x06000003⟩, ⟨0x02000002⟩, false, [], some ⟨8, true, [0x2A]⟩⟩,
    .method ⟨⟨0x06000004⟩, "Write", ⟨0x02000003⟩, ⟨6, 0x0040, 0x0100⟩, none, [],
      some ⟨8, true, [0x2A]⟩⟩,
    .constructor ⟨⟨0x06000005⟩, ⟨0x02000003⟩, false, [], some ⟨8, true, [0x2A]⟩⟩]
  strings := []

def sampleStudioJob : Job where
  linkage := ⟨sampleStudio, [], []⟩
  options := {}
  entries := sampleStudio.callables.take 1

theorem sampleStudioJob_prepared : Job.Prepared sampleStudio {} {} sampleStudioJob :=
  .addEntryNamed (.new rfl) (show Job.addEntryNamed ⟨⟨sampleStudio, [], []⟩, {}, []⟩
    "Demo.Studio" "Main" = .ok sampleStudioJob by rfl)

def sampleStudioCompilation : Compilation :=
  sampleStudioJob.compile.toOption.getD ⟨{}, []⟩

theorem compile_sampleStudioJob : sampleStudioJob.compile = .ok sampleStudioCompilation :=
  Result.eq_ok_getD (by decide +kernel) _

theorem sampleStudioCompilation_provides :
    sampleStudioCompilation.tables.map
        (fun table => (table.name, table.slots.map MethodDef.token)) =
      [("Demo.Pen", [⟨0x06000004⟩]), ("Demo.Shape", [⟨0x06000002⟩])] ∧
    sampleStudioCompilation.records.methodNames =
      ["System.Void____Demo.Pen..ctor_constr", "System.Void____Demo.Pen.Write",
        "System.Void____Demo.Shape..ctor_constr", "System.Void____Demo.Shape.Draw",
        "System.Void____Demo.Studio.Main_static"] ∧
    forall table, table ∈ sampleStudioCompilation.tables -> forall slot, slot ∈ table.slots ->
      slot.isAbstract = false -> exists resolved,
        sampleStudioJob.linkage.resolveCallable (.method slot) = .ok resolved ∧
          Provided sampleStudioJob.linkage sampleStudioCompilation.records resolved :=
  ⟨by decide +kernel, by decide +kernel,
    compile_provides sampleStudioJob_prepared rfl compile_sampleStudioJob⟩

end Compilation
end CilGraph
