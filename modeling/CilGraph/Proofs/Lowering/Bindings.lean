import CilGraph.Proofs.Linkage.Stability
import CilGraph.Proofs.Lowering.Callables

namespace CilGraph

/-!
# External symbols do not change the nodes

A binding gives a method an external symbol.  Whoever follows the discoveries of
a body then finds a symbol where there would have been a callable to lower.  The
body itself is lowered to the same nodes and the same pool, or fails with the same
error, whatever the bindings are.

The statement is about two lowerings at once, which differ in their bindings only.
`Attempt.Mirrors` keeps them side by side: their results are equal, and their
discoveries are paired in order.  Each rule of lowering preserves it, because the
bindings are read in one place only, where a reference to a callable is reported.
There the name and the callable have been found already, and looking for a symbol
fails only if the callable cannot be resolved again, which no binding changes.
-/

/-! ## Two attempts side by side -/

namespace Attempt

/-- Two attempts have the same result, and their discoveries are paired. -/
structure Mirrors {Value : Type} (related : Discovery -> Discovery -> Prop)
    (first second : Attempt Value) : Prop where
  result : first.result = second.result
  discoveries : List.Forall₂ related first.discoveries second.discoveries

namespace Mirrors

variable {Value Other : Type} {related : Discovery -> Discovery -> Prop}

theorem pure (value : Value) :
    Mirrors related (Pure.pure value : Attempt Value) (Pure.pure value) :=
  ⟨rfl, .nil⟩

theorem fail (error : Error) : Mirrors related (fail error : Attempt Value) (Attempt.fail error) :=
  ⟨rfl, .nil⟩

theorem lift (result : Result Value) :
    Mirrors related (liftM result : Attempt Value) (liftM result) :=
  ⟨rfl, .nil⟩

theorem discover {one other : Discovery} (relates : related one other) :
    Mirrors related (discover one) (Attempt.discover other) :=
  ⟨rfl, .cons relates .nil⟩

/-- Two sequences agree if their first halves do, and their second halves do for
every value that the first halves may have. -/
theorem bind {first second : Attempt Value} {next following : Value -> Attempt Other}
    (starts : Mirrors related first second)
    (continues : forall value, first.result = .ok value ->
      Mirrors related (next value) (following value)) :
    Mirrors related (first >>= next) (second >>= following) := by
  rcases first with ⟨before, result⟩
  rcases second with ⟨others, result⟩
  rcases starts with ⟨rfl, paired⟩
  cases result with
  | error error => exact ⟨rfl, paired⟩
  | ok value =>
      have later := continues value rfl
      exact ⟨later.result, List.rel_append paired later.discoveries⟩

/-- Two sequences that begin with the same plain result. -/
theorem afterLift (result : Result Value) {next following : Value -> Attempt Other}
    (continues : forall value, result = .ok value ->
      Mirrors related (next value) (following value)) :
    Mirrors related ((liftM result : Attempt Value) >>= next) (liftM result >>= following) :=
  (lift result).bind continues

theorem mapError {first second : Attempt Value} (mirrors : Mirrors related first second)
    (change : Error -> Error) :
    Mirrors related (first.mapError change) (second.mapError change) :=
  ⟨congrArg (Except.mapError change) mirrors.result, mirrors.discoveries⟩

end Mirrors
end Attempt

/-! ## Other bindings -/

/-- What a reference to a callable is reported as, given the mangled name and the
external symbol if there is one. -/
def Discovery.ofReference (callable : Callable) (name : String) : Option String -> Discovery
  | some symbol => .native name symbol
  | none => .callable callable

namespace Linkage

/-- The same replacements with other external symbols. -/
def withNatives (linkage : Linkage) (natives : List NativeEntry) : Linkage :=
  { linkage with natives := natives }

/-- The discovery that a reference to a resolved callable is reported as. -/
def ReportsAs (linkage : Linkage) (callable : Callable) (discovery : Discovery) : Prop :=
  exists name symbol, linkage.program.mangle callable = .ok name ∧
    linkage.nativeSymbol? callable = .ok symbol ∧
    discovery = Discovery.ofReference callable name symbol

/-- Two discoveries are the same type, or what two linkages report for the same
callable. -/
inductive Rebinds (first second : Linkage) : Discovery -> Discovery -> Prop
  | type (token : Token) : Rebinds first second (.type token) (.type token)
  | callable {callable : Callable} {one other : Discovery}
      (reported : first.ReportsAs callable one) (rebound : second.ReportsAs callable other) :
      Rebinds first second one other

/-- Two applications of settings that replace the same types differ in their external
symbols only. -/
theorem withNatives_of_ofSettings {program : Program} {first second : Settings}
    {one other : Linkage} (same : first.substitutions = second.substitutions)
    (applied : ofSettings program first = .ok one)
    (reapplied : ofSettings program second = .ok other) :
    other = one.withNatives other.natives := by
  rcases Result.bind_eq_ok.mp applied with ⟨substitutions, folded, reading⟩
  rcases Result.bind_eq_ok.mp reading with ⟨natives, _, assembled⟩
  rcases Result.bind_eq_ok.mp reapplied with ⟨substitutionsAgain, foldedAgain, readingAgain⟩
  rcases Result.bind_eq_ok.mp readingAgain with ⟨nativesAgain, _, assembledAgain⟩
  rw [← same, folded] at foldedAgain
  cases foldedAgain
  cases assembled
  cases assembledAgain
  rfl

/-- A callable resolves in the same way whatever the external symbols are. -/
theorem resolveCallable_withNatives (linkage : Linkage) (natives : List NativeEntry)
    (callable : Callable) :
    (linkage.withNatives natives).resolveCallable callable = linkage.resolveCallable callable :=
  rfl

/-- Looking for a symbol fails under no bindings or under all. -/
theorem nativeSymbol?_eq_error {linkage : Linkage} {callable : Callable} {error : Error}
    (fails : linkage.resolveCallable callable = .error error) :
    linkage.nativeSymbol? callable = .error error := by
  rw [nativeSymbol?, fails]
  rfl

end Linkage

/-! ## The rules of lowering -/

namespace Lowering

/-- The same lowering under other external symbols. -/
def withNatives (lowering : Lowering) (natives : List NativeEntry) : Lowering :=
  { lowering with linkage := lowering.linkage.withNatives natives }

theorem linkage_withNatives (lowering : Lowering) (natives : List NativeEntry) :
    (lowering.withNatives natives).linkage = lowering.linkage.withNatives natives :=
  rfl

section Rules

variable {lowering : Lowering} (natives : List NativeEntry)

/-- Two attempts of a lowering, the second under other external symbols. -/
abbrev Mirrored (lowering : Lowering) (natives : List NativeEntry) {Value : Type}
    (first second : Attempt Value) : Prop :=
  Attempt.Mirrors (lowering.linkage.Rebinds (lowering.linkage.withNatives natives)) first second

/-- The report of a reference: this is where the external symbols are read. -/
theorem referTo_mirrored (declared : Callable) : lowering.Mirrored natives
    (lowering.referTo declared) ((lowering.withNatives natives).referTo declared) := by
  apply Attempt.Mirrors.afterLift
  intro resolved _
  apply Attempt.Mirrors.afterLift
  intro name mangles
  cases found : lowering.linkage.resolveCallable resolved with
  | error error =>
      have foundAgain := (lowering.linkage.resolveCallable_withNatives natives resolved).trans found
      rw [linkage_withNatives, Linkage.nativeSymbol?_eq_error found,
        Linkage.nativeSymbol?_eq_error foundAgain]
      exact .fail error
  | ok target =>
      have foundAgain := (lowering.linkage.resolveCallable_withNatives natives resolved).trans found
      have here := Linkage.nativeSymbol?_of_resolveCallable found
      have there := Linkage.nativeSymbol?_of_resolveCallable foundAgain
      have rebinds : lowering.linkage.Rebinds (lowering.linkage.withNatives natives) _ _ :=
        .callable ⟨name, _, mangles, here, rfl⟩ ⟨name, _, mangles, there, rfl⟩
      rw [linkage_withNatives, here, there]
      generalize lowering.linkage.boundSymbol? target = symbol at rebinds ⊢
      generalize (lowering.linkage.withNatives natives).boundSymbol? target = other at rebinds ⊢
      cases symbol <;> cases other <;> exact ⟨rfl, .cons rebinds .nil⟩

theorem call_mirrored (cursor : Cursor) (isVirtual : Bool) (frame : Frame) :
    lowering.Mirrored natives (lowering.call cursor isVirtual frame)
      ((lowering.withNatives natives).call cursor isVirtual frame) := by
  apply Attempt.Mirrors.afterLift
  intro operand _
  apply Attempt.Mirrors.afterLift
  intro declared _
  apply Attempt.Mirrors.bind (referTo_mirrored natives declared)
  intro reference _
  apply Attempt.Mirrors.afterLift
  intro taken _
  exact .pure _

theorem newObject_mirrored (cursor : Cursor) (frame : Frame) :
    lowering.Mirrored natives (lowering.newObject cursor frame)
      ((lowering.withNatives natives).newObject cursor frame) := by
  apply Attempt.Mirrors.afterLift
  intro operand _
  apply Attempt.Mirrors.afterLift
  intro declared _
  by_cases isMethod : (!declared.isConstructor) = true
  · rw [if_pos isMethod, if_pos isMethod]
    exact .fail _
  · rw [if_neg isMethod, if_neg isMethod]
    apply Attempt.Mirrors.afterLift
    intro typeName _
    apply Attempt.Mirrors.bind (referTo_mirrored natives declared)
    intro reference _
    apply Attempt.Mirrors.afterLift
    intro taken _
    exact .pure _

theorem reference_mirrored (cursor : Cursor) (operation : Operation) (produces : Bool)
    (frame : Frame) :
    lowering.Mirrored natives (lowering.reference cursor operation produces frame)
      ((lowering.withNatives natives).reference cursor operation produces frame) := by
  apply Attempt.Mirrors.afterLift
  intro operand _
  apply Attempt.Mirrors.afterLift
  intro declared _
  apply Attempt.Mirrors.bind (referTo_mirrored natives declared)
  intro reference _
  exact .pure _

/-- A type is reported in the same way under all bindings. -/
theorem discover_type_mirrored (token : Token) : lowering.Mirrored natives
    (Attempt.discover (.type token)) (Attempt.discover (.type token)) :=
  .discover (.type token)

theorem typed_mirrored (cursor : Cursor) (operation : Operation) (pops : Nat) (produces : Bool)
    (leading : List UInt64) (frame : Frame) :
    lowering.Mirrored natives (lowering.typed cursor operation pops produces leading frame)
      ((lowering.withNatives natives).typed cursor operation pops produces leading frame) := by
  apply Attempt.Mirrors.afterLift
  intro operand _
  apply Attempt.Mirrors.bind (discover_type_mirrored natives _)
  intro _ _
  exact .lift _

theorem loadToken_mirrored (cursor : Cursor) (frame : Frame) :
    lowering.Mirrored natives (lowering.loadToken cursor frame)
      ((lowering.withNatives natives).loadToken cursor frame) := by
  apply Attempt.Mirrors.afterLift
  intro operand _
  by_cases isType : (tokenOf operand).kind? = some .typeDef
  · rw [if_pos isType, if_pos isType]
    apply Attempt.Mirrors.bind (discover_type_mirrored natives _)
    intro _ _
    exact .lift _
  · rw [if_neg isType, if_neg isType]
    exact .lift _

theorem field_mirrored (cursor : Cursor) (operation : Operation) (pops : Nat) (produces : Bool)
    (frame : Frame) :
    lowering.Mirrored natives (lowering.field cursor operation pops produces frame)
      ((lowering.withNatives natives).field cursor operation pops produces frame) := by
  apply Attempt.Mirrors.afterLift
  intro operand _
  apply Attempt.Mirrors.afterLift
  intro field _
  apply Attempt.Mirrors.bind (discover_type_mirrored natives _)
  intro _ _
  exact .lift _

theorem newArray_mirrored (cursor : Cursor) (frame : Frame) :
    lowering.Mirrored natives (lowering.newArray cursor frame)
      ((lowering.withNatives natives).newArray cursor frame) := by
  apply Attempt.Mirrors.afterLift
  intro operand _
  apply Attempt.Mirrors.bind (discover_type_mirrored natives _)
  intro _ _
  apply Attempt.Mirrors.afterLift
  intro name _
  apply Attempt.Mirrors.afterLift
  intro taken _
  exact .pure _

/-- Every rule, with one case for each kind of effect. -/
theorem perform_mirrored (cursor : Cursor) (frame : Frame) (effect : Effect) :
    lowering.Mirrored natives (lowering.perform cursor frame effect)
      ((lowering.withNatives natives).perform cursor frame effect) := by
  cases effect with
  | plain operation pops produces constants => exact .lift _
  | sized operation pops produces kind => exact .lift _
  | indexed operation pops produces => exact .afterLift _ (fun _ _ => .lift _)
  | literal value => exact .lift _
  | integerConstant kind =>
      exact .afterLift _ (fun _ _ => .afterLift _ (fun _ _ => .lift _))
  | floatConstant kind => exact .afterLift _ (fun _ _ => .lift _)
  | loadString => exact .lift _
  | loadToken => exact loadToken_mirrored natives cursor frame
  | duplicate => exact .lift _
  | ret => exact .lift _
  | branch operation pops => exact .lift _
  | leave => exact .lift _
  | branchTable => exact .lift _
  | endFinally => exact .lift _
  | typed operation pops produces =>
      exact typed_mirrored natives cursor operation pops produces _ frame
  | element operation pops produces =>
      exact typed_mirrored natives cursor operation pops produces _ frame
  | field operation pops produces =>
      exact field_mirrored natives cursor operation pops produces frame
  | newArray => exact newArray_mirrored natives cursor frame
  | call => exact call_mirrored natives cursor false frame
  | callVirtual => exact call_mirrored natives cursor true frame
  | newObject => exact newObject_mirrored natives cursor frame
  | reference operation produces =>
      exact reference_mirrored natives cursor operation produces frame
  | constrained => exact .afterLift _ (fun _ _ => .pure _)

theorem step_mirrored (cursor : Cursor) (frame : Frame) :
    lowering.Mirrored natives (lowering.step cursor frame)
      ((lowering.withNatives natives).step cursor frame) := by
  apply Attempt.Mirrors.afterLift
  intro opcode _
  cases held : frame.constraint with
  | none =>
      cases opcode.effect with
      | none => exact .fail _
      | some effect => cases effect <;> exact perform_mirrored natives cursor frame _
  | some constraint =>
      cases opcode.effect with
      | none => exact .fail _
      | some effect =>
          cases effect <;> first
            | exact perform_mirrored natives cursor frame .callVirtual
            | exact .fail _

/-- A whole run, by induction on the instructions that are left. -/
theorem run_mirrored (fuel : Nat) (cursor : Cursor) (frame : Frame) :
    lowering.Mirrored natives (lowering.run fuel cursor frame)
      ((lowering.withNatives natives).run fuel cursor frame) := by
  induction fuel generalizing cursor frame with
  | zero => exact .pure frame
  | succ fuel inductionHypothesis =>
      rw [run, run]
      by_cases exhausted : cursor.isExhausted = true
      · rw [if_pos exhausted, if_pos exhausted]
        exact .pure frame
      · rw [if_neg exhausted, if_neg exhausted]
        apply Attempt.Mirrors.bind ((step_mirrored natives cursor frame).mapError _)
        intro after _
        apply Attempt.Mirrors.afterLift
        intro next _
        exact inductionHypothesis next after

theorem lower_mirrored (code : List UInt8) :
    lowering.Mirrored natives (lowering.lower code)
      ((lowering.withNatives natives).lower code) := by
  apply Attempt.Mirrors.bind (run_mirrored natives code.length (Cursor.start code) Frame.start)
  intro final _
  cases final.constraint with
  | none => exact .pure _
  | some constraint => exact .fail _

end Rules

/-! ## Two settings -/

/-- Settings that replace the same types lower every body to the same nodes and the
same pool, or fail with the same error.  They find as many discoveries, in the same
order: equal types, and for each reference the same callable or the symbol that
either binds it to. -/
theorem lower_agrees_of_substitutions {program : Program} {first second : Settings}
    {one other : Linkage} (same : first.substitutions = second.substitutions)
    (applied : Linkage.ofSettings program first = .ok one)
    (reapplied : Linkage.ofSettings program second = .ok other) (method : String)
    (code : List UInt8) :
    (lower ⟨one, method⟩ code).result = (lower ⟨other, method⟩ code).result ∧
      List.Forall₂ (one.Rebinds other) (lower ⟨one, method⟩ code).discoveries
        (lower ⟨other, method⟩ code).discoveries := by
  rw [Linkage.withNatives_of_ofSettings same applied reapplied]
  have mirrors : Mirrored ⟨one, method⟩ other.natives _ _ := lower_mirrored other.natives code
  exact ⟨mirrors.result, mirrors.discoveries⟩

/-- A note that is replaced by a bell, whose method has an external symbol or none. -/
def sampleBellSettings (natives : List NativeBinding) : Settings where
  substitutions := [⟨"Demo.Note", "Demo.Bell"⟩]
  natives := natives

/-- The bell rings by a symbol in the first settings, and by itself in the second. -/
theorem lower_sampleBell_agrees :
    let program := sampleBellLowering.linkage.program
    let bound := sampleBellSettings [⟨"Demo.Bell", "Ring", none, "bell_ring"⟩]
    let one : Linkage := sampleBellLowering.linkage
    let other : Linkage := one.withNatives []
    bound.substitutions = (sampleBellSettings []).substitutions ∧
      Linkage.ofSettings program bound = .ok one ∧
      Linkage.ofSettings program (sampleBellSettings []) = .ok other ∧
      (lower ⟨one, "Main"⟩ sampleBellCode).result =
        (lower ⟨other, "Main"⟩ sampleBellCode).result ∧
      List.Forall₂ (one.Rebinds other) (lower ⟨one, "Main"⟩ sampleBellCode).discoveries
        (lower ⟨other, "Main"⟩ sampleBellCode).discoveries ∧
      (lower ⟨one, "Main"⟩ sampleBellCode).discoveries ≠
        (lower ⟨other, "Main"⟩ sampleBellCode).discoveries := by
  intro program bound one other
  have applied : Linkage.ofSettings program bound = .ok one := by decide +kernel
  have reapplied : Linkage.ofSettings program (sampleBellSettings []) = .ok other := by
    decide +kernel
  have same : bound.substitutions = (sampleBellSettings []).substitutions := rfl
  rcases lower_agrees_of_substitutions same applied reapplied "Main" sampleBellCode with
    ⟨result, discoveries⟩
  exact ⟨same, applied, reapplied, result, discoveries, by decide +kernel⟩

end Lowering
end CilGraph
