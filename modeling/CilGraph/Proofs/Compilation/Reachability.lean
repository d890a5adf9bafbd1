import CilGraph.Proofs.Compilation.Changes
import CilGraph.Proofs.Compilation.Targets
import CilGraph.Proofs.Dispatch.Transparency
import CilGraph.Proofs.Lowering.Mentions

namespace CilGraph
namespace Compilation

/-!
# Nothing unreachable is compiled

A callable is reachable if an entry stands for it, if the body of a reachable
callable names something that stands for it or, if slots are followed, if a slot
stands for it in the table of a type that a reachable callable brings in.  This is
said without a session: in terms of the code of bodies, of the types that the
program declares, and of the table that an empty registry gives for a type.

Every record of a compilation is that of a reachable callable, and every name that
is bound to an external symbol is the name of something which a reachable callable
or an entry refers to.  The reachable callables with the types that they bring in
are a closed scope, so a session that starts from the entries never leaves it.
-/

/-! ## Types -/

/-- The types that are discovered from a callable: those that it is taken in with,
those that its body asks for, and whatever these lead to.  A type leads to its
base type, and to the interfaces and the types of the fields of the type that it
stands for. -/
inductive Discovers (linkage : Linkage) (callable : Callable) : Token -> Prop
  | signature {token type : Token} (declared : Session.SignatureType linkage callable token)
      (canonical : linkage.program.innermost token = .ok type) : Discovers linkage callable type
  | body {body : Body} {token type : Token} (hasBody : callable.body = some body)
      (requests : body.Requests linkage.program token)
      (canonical : linkage.program.innermost token = .ok type) : Discovers linkage callable type
  | base {type other inner : Token} {definition : TypeDef}
      (discovers : Discovers linkage callable type)
      (declared : linkage.program.typeDef type = .ok definition)
      (isBase : definition.base = some other)
      (canonical : linkage.program.innermost other = .ok inner) : Discovers linkage callable inner
  | interface {type other inner : Token} {resolved : TypeDef}
      (discovers : Discovers linkage callable type)
      (resolves : linkage.program.typeDef (linkage.resolveType type) = .ok resolved)
      (among : other ∈ resolved.interfaces)
      (canonical : linkage.program.innermost other = .ok inner) : Discovers linkage callable inner
  | field {type inner : Token} {resolved : TypeDef} {fields : List FieldDef} {field : FieldDef}
      (discovers : Discovers linkage callable type)
      (resolves : linkage.program.typeDef (linkage.resolveType type) = .ok resolved)
      (listed : linkage.program.declaredFields resolved = .ok fields) (among : field ∈ fields)
      (canonical : linkage.program.innermost field.fieldType = .ok inner) :
      Discovers linkage callable inner

theorem Discovers.neighbours {linkage : Linkage} {callable : Callable} {type other inner : Token}
    {next : List Token} (discovers : Discovers linkage callable type)
    (listed : Session.neighbours linkage type = .ok next) (among : other ∈ next)
    (canonical : linkage.program.innermost other = .ok inner) :
    Discovers linkage callable inner := by
  rcases Result.bind_eq_ok.mp listed with ⟨definition, declared, resolving⟩
  rcases Result.bind_eq_ok.mp resolving with ⟨resolved, resolves, listing⟩
  rcases Result.bind_eq_ok.mp listing with ⟨fields, ofFields, assembled⟩
  cases assembled
  rcases List.mem_append.mp among with isParent | isFieldType
  · rcases List.mem_append.mp isParent with isBase | isInterface
    · exact .base discovers declared (Option.mem_toList.mp isBase) canonical
    · exact .interface discovers resolves isInterface canonical
  · rcases List.mem_map.mp isFieldType with ⟨field, isField, same⟩
    rw [← same] at canonical
    exact .field discovers resolves ofFields isField canonical

/-! ## Callables -/

/-- A callable is what another stands for, and no external symbol implements it. -/
structure StandsFor (linkage : Linkage) (declared callable : Callable) : Prop where
  resolves : linkage.resolveCallable declared = .ok callable
  unbound : linkage.nativeSymbol? callable = .ok none

/-- The body of a callable that can be lowered names another callable. -/
def Calls (linkage : Linkage) (caller declared : Callable) : Prop :=
  caller.isAbstract = false ∧
    exists body, caller.body = some body ∧ body.Names linkage.program declared

/-- A slot that can be called stands in the table of a type which is registered
for a type that is discovered from a callable. -/
def Offers (linkage : Linkage) (origin : Callable) (slot : MethodDef) : Prop :=
  slot.isAbstract = false ∧ exists type table,
    Dispatch.Registry.WithNeeds linkage (Discovers linkage origin) type ∧
    (Dispatch.Registry.table linkage type {}).1 = .ok table ∧ slot ∈ table.slots

namespace Job

/-- The callables that a compilation can come to. -/
inductive Reachable (job : Job) : Callable -> Prop
  | entry {entry callable : Callable} (isEntry : entry ∈ job.entries)
      (stands : StandsFor job.linkage entry callable) : Reachable job callable
  | callee {caller declared callable : Callable} (reachable : Reachable job caller)
      (calls : Calls job.linkage caller declared)
      (stands : StandsFor job.linkage declared callable) : Reachable job callable
  | slot {origin callable : Callable} {slot : MethodDef}
      (following : job.options.followSlots = true) (reachable : Reachable job origin)
      (offers : Offers job.linkage origin slot)
      (stands : StandsFor job.linkage (.method slot) callable)
      (hasBody : callable.body.isSome = true) : Reachable job callable

/-- The callables that are referred to on the way, before they are resolved. -/
inductive Named (job : Job) : Callable -> Prop
  | entry {entry : Callable} (isEntry : entry ∈ job.entries) : Named job entry
  | callee {caller declared : Callable} (reachable : job.Reachable caller)
      (calls : Calls job.linkage caller declared) : Named job declared
  | slot {origin : Callable} {slot : MethodDef} (following : job.options.followSlots = true)
      (reachable : job.Reachable origin) (offers : Offers job.linkage origin slot) :
      Named job (.method slot)

/-- A name is that of a callable which is referred to and is implemented by an
external symbol. -/
def Binds (job : Job) (name symbol : String) : Prop :=
  exists declared resolved, job.Named declared ∧
    job.linkage.resolveCallable declared = .ok resolved ∧
    job.linkage.program.mangle resolved = .ok name ∧
    job.linkage.nativeSymbol? resolved = .ok (some symbol)

/-- What a compilation can come to. -/
def scope (job : Job) : Session.Scope where
  types := fun type => exists callable, job.Reachable callable ∧
    Discovers job.linkage callable type
  callables := job.Reachable
  natives := job.Binds

section Scope

variable {job : Job}

/-- What is reported of a callable that is referred to is in the scope, if the
callable that it stands for is reachable. -/
theorem Named.allows {lowering : Lowering} {declared resolved : Callable} {name : String}
    {discovery : Discovery} (named : job.Named declared)
    (sameLinkage : lowering.linkage = job.linkage)
    (referred : Lowering.Referred lowering declared resolved name discovery)
    (reachable : StandsFor job.linkage declared resolved -> discovery = .callable resolved ->
      job.Reachable resolved) :
    job.scope.Allows job.linkage.program discovery := by
  have resolves := sameLinkage ▸ referred.resolves
  have mangles := sameLinkage ▸ referred.mangles
  rcases referred.reported with ⟨symbol, bound, isNative⟩ | ⟨unbound, isCallable⟩
  · rw [sameLinkage] at bound
    rw [isNative]
    exact ⟨declared, resolved, named, resolves, mangles, bound⟩
  · rw [sameLinkage] at unbound
    have isReachable := reachable ⟨resolves, unbound⟩ isCallable
    rw [isCallable]
    exact isReachable

/-- A type is registered on account of one callable. -/
theorem exists_origin {type : Token}
    (registered : Dispatch.Registry.WithNeeds job.linkage job.scope.types type) :
    exists origin, job.Reachable origin ∧
      Dispatch.Registry.WithNeeds job.linkage (Discovers job.linkage origin) type := by
  induction registered with
  | member discovered =>
      rcases discovered with ⟨origin, reachable, discovers⟩
      exact ⟨origin, reachable, .member discovers⟩
  | needed _ needs canonical inductionHypothesis =>
      rcases inductionHypothesis with ⟨origin, reachable, reached⟩
      exact ⟨origin, reachable, .needed reached needs canonical⟩

/-- What is reachable leads to nothing that is not. -/
theorem closed_scope (grounded : job.linkage.Grounded) :
    job.scope.Closed job.linkage job.options.followSlots where
  neighbours := by
    rintro type other next ⟨callable, reachable, discovers⟩ listed among inner canonical
    exact ⟨callable, reachable, discovers.neighbours listed among canonical⟩
  signature := by
    intro callable token reachable declared type canonical
    exact ⟨callable, reachable, .signature declared canonical⟩
  body := by
    intro callable name body lowered discovery reachable isConcrete hasBody succeeds member
    rcases Lowering.mentions_of_lower succeeds member with
      ⟨token, isType, requests⟩ | ⟨declared, resolved, shown, names, referred⟩
    · rw [isType]
      intro type canonical
      exact ⟨callable, reachable, .body hasBody requests canonical⟩
    · have calls : Calls job.linkage callable declared := ⟨isConcrete, body, hasBody, names⟩
      exact (Named.callee reachable calls).allows rfl referred
        (fun stands _ => .callee reachable calls stands)
  slot := by
    intro type registry layout slot lowering resolved name discovery following registered grown
      found isSlot isConcrete sameLinkage referred hasBody
    rcases exists_origin registered with ⟨origin, reachable, reached⟩
    rcases grown.made found with ⟨_, _, _, _, _, made⟩
    -- A table does not depend on what else was registered before it.
    have tabled : (Dispatch.Registry.table job.linkage type {}).1 = .ok layout.table := by
      rw [Dispatch.Registry.table_alike grounded .refl grown type,
        Dispatch.Registry.table_of_layout made.plain found]
    have offers : Offers job.linkage origin slot :=
      ⟨isConcrete, type, layout.table, reached, tabled, isSlot⟩
    exact (Named.slot following reachable offers).allows sameLinkage referred
      (fun stands isCallable => .slot following reachable offers stands (hasBody isCallable))

/-- A session that starts from the entries stays in the scope. -/
theorem evolves_of_close (grounded : job.linkage.Grounded) {session : Session}
    (ended : Session.close job.linkage job.options.followSlots job.entries {} =
      .ok ((), session)) :
    Session.Evolves job.linkage job.scope {} session := by
  refine Session.close_evolves (closed_scope grounded) ?_ ended
  intro entry isEntry lowering resolved name discovery sameLinkage referred
  exact (Named.entry isEntry).allows sameLinkage referred (fun stands _ => .entry isEntry stands)

end Scope

end Job

/-- Every record is that of a callable which is reachable and not abstract, and
every external symbol is that of a callable which something reachable refers to. -/
theorem compile_reachable {steps : List DraftStep} {program : Program} {settings : Settings}
    {options : Options} {job : Job} {compilation : Compilation}
    (built : (Draft.ofSteps steps).build = .ok program)
    (prepared : Job.Prepared program settings options job)
    (compiled : job.compile = .ok compilation) :
    (forall record, record ∈ compilation.records.methods -> exists callable,
      job.Reachable callable ∧ callable.isAbstract = false ∧
        Translates job.linkage callable record) ∧
    forall name symbol, (name, symbol) ∈ compilation.records.natives -> job.Binds name symbol := by
  rcases Job.compile_eq_ok compiled with ⟨session, ended, isCompilation⟩
  have evolves := Job.evolves_of_close (Linkage.grounded_of_build built prepared.linkage) ended
  rw [isCompilation]
  constructor
  · intro record member
    rcases evolves.translates member with initial | translated
    · cases initial
    · exact translated
  · intro name symbol member
    rcases evolves.binds member with initial | bound
    · cases initial
    · exact bound

/-- An office makes a press and calls nothing.  Printing uses ink, which comes
from outside, and is reached through a slot only.  Nobody reaches the archive. -/
def samplePressSteps : List DraftStep := [
  .type none "Demo" "Office" TypeAttributes.exported none,
  .type none "Demo" "Press" TypeAttributes.exported none,
  .type none "Demo" "Archive" TypeAttributes.exported none,
  .method none ⟨0x02000001⟩ "Main" ⟨6, 0x0010, 0⟩ none []
    (some ⟨8, true, [0x73, 0x03, 0x00, 0x00, 0x06, 0x26, 0x2A]⟩),
  .method none ⟨0x02000002⟩ "Print" ⟨6, 0x0040, 0x0100⟩ none []
    (some ⟨8, true, [0x28, 0x04, 0x00, 0x00, 0x06, 0x2A]⟩),
  .constructor none ⟨0x02000002⟩ false [] (some ⟨8, true, [0x2A]⟩),
  .method none ⟨0x02000002⟩ "Ink" ⟨6, 0x0010, 0⟩ none [] none,
  .method none ⟨0x02000003⟩ "Store" ⟨6, 0x0010, 0⟩ none []
    (some ⟨8, true, [0x28, 0x01, 0x00, 0x00, 0x06, 0x2A]⟩)]

def samplePress : Program :=
  (Draft.ofSteps samplePressSteps).build.toOption.getD ⟨[], [], [], [], []⟩

theorem build_samplePress : (Draft.ofSteps samplePressSteps).build = .ok samplePress :=
  Result.eq_ok_getD (by decide +kernel) _

def samplePressSettings : Settings where
  natives := [⟨"Demo.Press", "Ink", none, "press_ink"⟩]

def samplePressRequest : Result Job := do
  let job ← Job.new samplePress samplePressSettings {}
  job.addEntry ⟨0x06000001⟩

def samplePressJob : Job :=
  samplePressRequest.toOption.getD ⟨⟨samplePress, [], []⟩, {}, []⟩

theorem samplePressJob_prepared :
    Job.Prepared samplePress samplePressSettings {} samplePressJob := by
  have requested : samplePressRequest = .ok samplePressJob :=
    Result.eq_ok_getD (by decide +kernel) _
  rcases Result.bind_eq_ok.mp requested with ⟨fresh, isNew, added⟩
  exact .addEntry (.new isNew) added

def samplePressCompilation : Compilation :=
  samplePressJob.compile.toOption.getD ⟨{}, []⟩

theorem compile_samplePressJob : samplePressJob.compile = .ok samplePressCompilation :=
  Result.eq_ok_getD (by decide +kernel) _

theorem samplePressCompilation_reachable :
    (samplePressCompilation.records.methods.map MethodRecord.name =
        ["System.Void____Demo.Office.Main_static", "System.Void____Demo.Press..ctor_constr",
          "System.Void____Demo.Press.Print"] ∧
      samplePressCompilation.records.natives =
        [("System.Void____Demo.Press.Ink_static", "press_ink")]) ∧
    (forall record, record ∈ samplePressCompilation.records.methods -> exists callable,
      samplePressJob.Reachable callable ∧ callable.isAbstract = false ∧
        Translates samplePressJob.linkage callable record) ∧
    forall name symbol, (name, symbol) ∈ samplePressCompilation.records.natives ->
      samplePressJob.Binds name symbol :=
  ⟨by decide +kernel,
    compile_reachable build_samplePress samplePressJob_prepared compile_samplePressJob⟩

end Compilation
end CilGraph
