import CilGraph.Proofs.Compilation.TypeClosure
import CilGraph.Proofs.Lowering.Requests

namespace CilGraph

/-!
# Type tokens in compiled bodies

The nodes of a compiled body hold type tokens, and whoever runs the body needs the
fields and the table of these types.  Both are there if the type was taken in, and it
was taken in if the body has asked for it.

A body asks for every type that an instruction of it names, with one exception: the
type of a `constrained.` gets into the node of a constrained call without being asked
for.  Such a token leads to a type that was taken in only if something else asks for
the type.  `sampleCanvas` has a body where nothing else does.
-/

namespace Compilation

/-- A token leads, from element to element, to a type that was taken in: it has a
table, and a record under each of its two names. -/
def Provides (program : Program) (compilation : Compilation) (token : Token) : Prop :=
  exists inner type, program.innermost token = .ok inner ∧ program.typeDef inner = .ok type ∧
    compilation.HasTable type ∧ forall isStatic, exists record,
      record ∈ compilation.records.types ∧ record.name = type.recordName isStatic

namespace Session

variable {linkage : Linkage} {session : Session} {pointerSize : UInt32} {compilation : Compilation}

/-- What a session holds at its end is in the compilation. -/
theorem Holds.provides {followSlots : Bool} {entries : List Callable} {token : Token}
    (held : session.Holds linkage.program token)
    (settled : Settled linkage followSlots entries session)
    (wellFormed : linkage.program.WellFormed) (records : compilation.records = session.records)
    (tables : compilation.tables = session.registry.compile pointerSize) :
    Provides linkage.program compilation token := by
  rcases held with ⟨inner, canonical, whole⟩
  have complete := settled.rounded.wholes inner whole
  rcases Program.plain_of_innermostWith complete.canonical with ⟨type, declared, _⟩
  have isToken := (Program.token_of_typeDef declared).2
  have orderly := settled.progresses.orderly wellFormed
    (Dispatch.Registry.sufficient_everything linkage) (fun _ _ => trivial)
  refine ⟨inner, type, canonical, declared, ?_, fun isStatic => ?_⟩
  · rw [hasTable_iff_registered settled.grown tables, isToken]
    exact complete.registered
  · rw [records]
    exact exists_record_of_covers settled.rounded orderly declared (Or.inl whole)

/-- The type token of a node has been met if the node is no constrained call, or if
another instruction asks for the type. -/
theorem Traced.holds (traced : Traced linkage session) {record : MethodRecord}
    (member : record ∈ session.records.methods) : exists callable body,
      linkage.program.Known callable ∧ linkage.program.mangle callable = .ok record.name ∧
      callable.body = some body ∧ forall node, node ∈ record.nodes -> forall token,
        node.typeToken? = some token -> (node.operation ≠ .callVirtualConstrained ∨
          Lowering.AsksFor linkage.program body.code token) ->
        session.Holds linkage.program token := by
  rcases traced.recorded record member with
    ⟨callable, known, _, _, ⟨name, body, lowered, mangles, hasBody, succeeds, same⟩, explored⟩
  rw [same]
  refine ⟨callable, body, known, mangles, hasBody, ?_⟩
  intro node among token stored asked
  rcases Lowering.accounted_of_lower succeeds with ⟨turns, final, accounted⟩
  have discovered : .type token ∈ (Lowering.lower ⟨linkage, name⟩ body.code).discoveries := by
    rcases asked with free | asked
    · exact accounted.discovered among free stored
    · exact accounted.asked_iff.mpr asked
  exact explored name body mangles hasBody _ discovered

end Session

/-- The types that a body names are asked for.  Lowering asks, in order, for the type
operands of its instructions, the declaring types of their fields and the handles of
types, but not for the operand of a `constrained.`.  That type is asked for exactly if
another instruction names it.

So in a compilation every type token that a node holds leads to a type that was taken
in, unless the node is a constrained call and its body asks for the type nowhere. -/
theorem compile_requests (lowering : Lowering) (code : List UInt8) :
    (forall body, (lowering.lower code).result = .ok body ->
      Lowering.Requested lowering code body) ∧
    forall (steps : List DraftStep) (program : Program) (settings : Settings) (options : Options)
      (job : Job) (compilation : Compilation), (Draft.ofSteps steps).build = .ok program ->
      Job.Prepared program settings options job -> job.compile = .ok compilation ->
      forall record, record ∈ compilation.records.methods -> exists callable body,
        program.Known callable ∧ program.mangle callable = .ok record.name ∧
        callable.body = some body ∧ forall node, node ∈ record.nodes -> forall token,
          node.typeToken? = some token -> (node.operation ≠ .callVirtualConstrained ∨
            Lowering.AsksFor program body.code token) -> Provides program compilation token := by
  refine ⟨fun body => Lowering.requested_of_lower, ?_⟩
  intro steps program settings options job compilation built prepared compiled record member
  rcases prepared.known with ⟨same, known⟩
  have wellFormed := Draft.wellFormed_of_build (Draft.listsOwn_ofSteps steps) built
  rcases Job.compile_eq_ok compiled with ⟨session, closed, isCompilation⟩
  rw [← same] at known wellFormed ⊢
  have settled := Session.close_settled known closed
  rw [isCompilation] at member ⊢
  rcases settled.progresses.traced.holds member with
    ⟨callable, body, callableKnown, mangles, hasBody, held⟩
  refine ⟨callable, body, callableKnown, mangles, hasBody, ?_⟩
  intro node among token stored asked
  exact (held node among token stored asked).provides settled wellFormed rfl rfl

/-- A canvas has a frame, which is a shape, and measures a shape that is a square.  What
else its entry does is open. -/
def sampleCanvasSteps (code : List UInt8) : List DraftStep := [
  .type none "Demo" "Shape" TypeAttributes.exported none,
  .type none "Demo" "Square" TypeAttributes.exported (some ⟨0x02000001⟩),
  .type none "Demo" "Canvas" TypeAttributes.exported none,
  .field none ⟨0x02000003⟩ "frame" ⟨0x02000001⟩ true,
  .method none ⟨0x02000001⟩ "Area" ⟨6, 0x00C0, 0x0100⟩ none [] (some ⟨8, true, [0x2A]⟩),
  .method none ⟨0x02000003⟩ "Main" ⟨6, 0x0010, 0⟩ none [] (some ⟨8, true, code⟩)]

/-- Measure the frame as a square, and name the canvas and the square once more. -/
def samplePaintCode : List UInt8 :=
  [0x7E, 0x01, 0x00, 0x00, 0x04, 0xFE, 0x16, 0x02, 0x00, 0x00, 0x02,
    0x6F, 0x01, 0x00, 0x00, 0x06, 0xD0, 0x03, 0x00, 0x00, 0x02, 0x26,
    0xFE, 0x1C, 0x02, 0x00, 0x00, 0x02, 0x26, 0x2A]

/-- Measure nothing as a square. -/
def sampleMeasureCode : List UInt8 :=
  [0x14, 0xFE, 0x16, 0x02, 0x00, 0x00, 0x02, 0x6F, 0x01, 0x00, 0x00, 0x06, 0x2A]

def sampleCanvas (code : List UInt8) : Program :=
  (Draft.ofSteps (sampleCanvasSteps code)).build.toOption.getD ⟨[], [], [], [], []⟩

def sampleCanvasRequest (code : List UInt8) : Result Job := do
  let job ← Job.new (sampleCanvas code) {} {}
  job.addEntry ⟨0x06000002⟩

def sampleCanvasJob (code : List UInt8) : Job :=
  (sampleCanvasRequest code).toOption.getD ⟨⟨sampleCanvas code, [], []⟩, {}, []⟩

theorem sampleCanvasJob_prepared {code : List UInt8}
    (requested : sampleCanvasRequest code = .ok (sampleCanvasJob code)) :
    Job.Prepared (sampleCanvas code) {} {} (sampleCanvasJob code) := by
  rcases Result.bind_eq_ok.mp requested with ⟨job, isNew, added⟩
  exact .addEntry (.new isNew) added

def sampleCanvasCompilation (code : List UInt8) : Compilation :=
  (sampleCanvasJob code).compile.toOption.getD ⟨{}, []⟩

def sampleCanvasLowering (code : List UInt8) : Lowering :=
  ⟨(sampleCanvasJob code).linkage, "Main"⟩

def sampleCanvasAttempt (code : List UInt8) : Attempt LoweredBody :=
  (sampleCanvasLowering code).lower code

def sampleCanvasBody (code : List UInt8) : LoweredBody :=
  (sampleCanvasAttempt code).result.toOption.getD ⟨[], []⟩

/-- An instruction takes the size of the square, so the square is taken in. -/
theorem sampleCanvas_requests :
    (Draft.ofSteps (sampleCanvasSteps samplePaintCode)).build = .ok (sampleCanvas samplePaintCode) ∧
    sampleCanvasRequest samplePaintCode = .ok (sampleCanvasJob samplePaintCode) ∧
    (sampleCanvasJob samplePaintCode).compile = .ok (sampleCanvasCompilation samplePaintCode) ∧
    (sampleCanvasAttempt samplePaintCode).result = .ok (sampleCanvasBody samplePaintCode) ∧
    Lowering.Requested (sampleCanvasLowering samplePaintCode) samplePaintCode
      (sampleCanvasBody samplePaintCode) ∧
    (sampleCanvasBody samplePaintCode).nodes.filterMap Node.typeToken? =
      [⟨0x02000002⟩, ⟨0x02000003⟩, ⟨0x02000002⟩] ∧
    forall record, record ∈ (sampleCanvasCompilation samplePaintCode).records.methods ->
      forall node, node ∈ record.nodes -> forall token, node.typeToken? = some token ->
        Provides (sampleCanvas samplePaintCode) (sampleCanvasCompilation samplePaintCode) token := by
  have built : (Draft.ofSteps (sampleCanvasSteps samplePaintCode)).build =
      .ok (sampleCanvas samplePaintCode) := Result.eq_ok_getD (by decide +kernel) _
  have requested : sampleCanvasRequest samplePaintCode = .ok (sampleCanvasJob samplePaintCode) :=
    Result.eq_ok_getD (by decide +kernel) _
  have compiled : (sampleCanvasJob samplePaintCode).compile =
      .ok (sampleCanvasCompilation samplePaintCode) := Result.eq_ok_getD (by decide +kernel) _
  have lowered : (sampleCanvasAttempt samplePaintCode).result =
      .ok (sampleCanvasBody samplePaintCode) := Result.eq_ok_getD (by decide +kernel) _
  have asked : forall record, record ∈ (sampleCanvasCompilation samplePaintCode).records.methods ->
      forall callable, callable ∈ (sampleCanvas samplePaintCode).callables ->
        (sampleCanvas samplePaintCode).mangle callable = .ok record.name ->
        forall body, body ∈ callable.body.toList -> forall node, node ∈ record.nodes ->
        forall token, token ∈ node.typeToken?.toList ->
          Lowering.AsksFor (sampleCanvas samplePaintCode) body.code token := by
    decide +kernel
  rcases compile_requests (sampleCanvasLowering samplePaintCode) samplePaintCode with
    ⟨requests, ofCompilation⟩
  refine ⟨built, requested, compiled, lowered, requests _ lowered, by decide +kernel, ?_⟩
  intro record member node among token stored
  rcases ofCompilation _ _ _ _ _ _ built (sampleCanvasJob_prepared requested) compiled record
    member with ⟨callable, body, known, mangles, hasBody, provides⟩
  refine provides node among token stored (Or.inr ?_)
  exact asked record member callable known.mem_callables mangles body
    (Option.mem_toList.mpr hasBody) node among token (Option.mem_toList.mpr stored)

/-- Nothing but a `constrained.` names the square, so it is not taken in. -/
theorem sampleCanvas_forgets :
    (Draft.ofSteps (sampleCanvasSteps sampleMeasureCode)).build =
      .ok (sampleCanvas sampleMeasureCode) ∧
    sampleCanvasRequest sampleMeasureCode = .ok (sampleCanvasJob sampleMeasureCode) ∧
    (sampleCanvasJob sampleMeasureCode).compile =
      .ok (sampleCanvasCompilation sampleMeasureCode) ∧
    (sampleCanvasAttempt sampleMeasureCode).result = .ok (sampleCanvasBody sampleMeasureCode) ∧
    (exists sighting, sighting ∈ (Cursor.start sampleMeasureCode).walk.1 ∧
      sighting.opcode.operand = .type ∧ sighting.operands = [(4, 0x02000002)]) ∧
    .type ⟨0x02000002⟩ ∉ (sampleCanvasAttempt sampleMeasureCode).discoveries ∧
    (exists record, record ∈ (sampleCanvasCompilation sampleMeasureCode).records.methods ∧
      exists node, node ∈ record.nodes ∧ node.typeToken? = some ⟨0x02000002⟩) ∧
    (forall table, table ∈ (sampleCanvasCompilation sampleMeasureCode).tables ->
      table.type ≠ ⟨0x02000002⟩) ∧
    forall record, record ∈ (sampleCanvasCompilation sampleMeasureCode).records.types ->
      record.name ≠ "Demo.Square" ∧ record.name ≠ "Demo.Square_static" := by
  refine ⟨Result.eq_ok_getD (by decide +kernel) _, Result.eq_ok_getD (by decide +kernel) _,
    Result.eq_ok_getD (by decide +kernel) _, Result.eq_ok_getD (by decide +kernel) _, ?_⟩
  decide +kernel

end Compilation
end CilGraph
