import CilGraph.Proofs.Program.Sound

namespace CilGraph

/-!
# Mangled names can be read

A mangled name runs the names of types and of a member together, with marks made
of `_` between them: three after the result, two after every parameter, and one
more before the declaring type.  The member is joined to its declaring type by a
dot, and marks for static members and for constructors close the name.

Type names hold dots themselves, so only the last dot can belong to the join, and
a run of `_` says nothing about where one mark ends and the next begins.  A name
can be read all the same if no name of a type or a method holds a `_`, none is
empty, and no method name holds a dot.  A word then ends at the first `_` after it.
Where a parameter may follow, a letter begins one and a `_` closes the list.  This
is `NameParts.eq_of_letters_eq`: the letters of such a name determine its parts.

Full names tell the types of a program apart, so two callables of one program
have the same mangled name exactly if they agree in all that a name is made of:
their declaring type, their own name and kind, and the types of their result and
parameters.
-/

/-! ## Words -/

namespace NameParts

/-- Nothing follows, or a mark does. -/
def Breaks (mark : Char) (rest : List Char) : Prop :=
  rest = [] ∨ exists tail, rest = mark :: tail

theorem breaks_cons (mark : Char) (tail : List Char) : Breaks mark (mark :: tail) :=
  Or.inr ⟨tail, rfl⟩

/-- A word without the mark is what stands before the first mark. -/
theorem takeWhile_word {mark : Char} {word rest : List Char} (unmarked : mark ∉ word)
    (breaks : Breaks mark rest) : (word ++ rest).takeWhile (fun letter => letter ≠ mark) = word := by
  have ofWord : forall letter, letter ∈ word -> decide (letter ≠ mark) = true := by
    intro letter member
    apply decide_eq_true
    intro same
    exact unmarked (same ▸ member)
  rw [List.takeWhile_append_of_pos ofWord]
  rcases breaks with isEnd | ⟨tail, begins⟩
  · rw [isEnd, List.takeWhile_nil, List.append_nil]
  · rw [begins, List.takeWhile_cons, if_neg (by simp), List.append_nil]

theorem word_eq_of_append {mark : Char} {first second rest other : List Char}
    (unmarked : mark ∉ first) (otherUnmarked : mark ∉ second) (breaks : Breaks mark rest)
    (otherBreaks : Breaks mark other) (same : first ++ rest = second ++ other) :
    first = second ∧ rest = other := by
  have sameWord : first = second := by
    calc first = (first ++ rest).takeWhile (fun letter => letter ≠ mark) :=
          (takeWhile_word unmarked breaks).symm
      _ = (second ++ other).takeWhile (fun letter => letter ≠ mark) := by rw [same]
      _ = second := takeWhile_word otherUnmarked otherBreaks
  rw [sameWord] at same
  exact ⟨sameWord, List.append_cancel_left same⟩

/-- The last dot is found from behind. -/
theorem words_eq_of_lastDot {first second name other : List Char} (undotted : '.' ∉ name)
    (otherUndotted : '.' ∉ other) (same : first ++ '.' :: name = second ++ '.' :: other) :
    first = second ∧ name = other := by
  have reversed : name.reverse ++ '.' :: first.reverse = other.reverse ++ '.' :: second.reverse := by
    have turned := congrArg List.reverse same
    simpa only [List.reverse_append, List.reverse_cons, List.append_assoc,
      List.singleton_append] using turned
  rcases word_eq_of_append (fun member => undotted (List.mem_reverse.mp member))
    (fun member => otherUndotted (List.mem_reverse.mp member)) (breaks_cons '.' _)
    (breaks_cons '.' _) reversed with ⟨sameName, sameRest⟩
  exact ⟨List.reverse_inj.mp (List.cons.inj sameRest).2, List.reverse_inj.mp sameName⟩

end NameParts

/-! ## The parts of a name -/

/-- What a mangled name shows of a callable. -/
structure NameParts where
  result : String
  params : List String
  declaring : String
  name : String
  isStatic : Bool
  isConstructor : Bool
deriving DecidableEq, Repr

/-- A name without the letter of which the marks are made. -/
structure PlainName (name : String) : Prop where
  nonempty : name ≠ ""
  unmarked : '_' ∉ name.toList

instance (name : String) : Decidable (PlainName name) :=
  decidable_of_iff (name ≠ "" ∧ '_' ∉ name.toList)
    ⟨fun both => ⟨both.1, both.2⟩, fun plain => ⟨plain.nonempty, plain.unmarked⟩⟩

namespace NameParts

/-- The marks at the end. -/
def marks (isStatic isConstructor : Bool) : List Char :=
  (if isStatic then "_static" else "").toList ++ (if isConstructor then "_constr" else "").toList

/-- The parameters, each with the mark after it. -/
def inputs (params : List String) : List Char :=
  params.flatMap (fun name => name.toList ++ ['_', '_'])

/-- The member and its declaring type. -/
def member (parts : NameParts) : List Char :=
  parts.declaring.toList ++ '.' :: parts.name.toList

/-- The letters of a mangled name. -/
def letters (parts : NameParts) : List Char :=
  parts.result.toList ++ '_' :: '_' :: '_' :: (inputs parts.params ++
    '_' :: (parts.member ++ marks parts.isStatic parts.isConstructor))

/-- Names of types and methods are plain, and a method name has no dot either.  The
name of a constructor has one, but is fixed. -/
structure Readable (parts : NameParts) : Prop where
  result : PlainName parts.result
  params : forall name, name ∈ parts.params -> PlainName name
  declaring : PlainName parts.declaring
  method : parts.isConstructor = false -> PlainName parts.name ∧ '.' ∉ parts.name.toList
  constructor : parts.isConstructor = true ->
    parts.name = if parts.isStatic then ".cctor" else ".ctor"

theorem breaks_marks (isStatic isConstructor : Bool) : Breaks '_' (marks isStatic isConstructor) := by
  cases isStatic with
  | true => exact breaks_cons '_' _
  | false =>
      cases isConstructor with
      | true => exact breaks_cons '_' _
      | false => exact Or.inl rfl

theorem eq_of_marks_eq {isStatic otherStatic isConstructor otherConstructor : Bool}
    (same : marks isStatic isConstructor = marks otherStatic otherConstructor) :
    isStatic = otherStatic ∧ isConstructor = otherConstructor := by
  revert same
  revert isStatic otherStatic isConstructor otherConstructor
  decide

/-- A list of parameters ends where a mark stands in the place of a letter. -/
theorem params_eq_of_inputs {params others : List String} {rest otherRest : List Char}
    (plain : forall name, name ∈ params -> PlainName name)
    (otherPlain : forall name, name ∈ others -> PlainName name)
    (same : inputs params ++ '_' :: rest = inputs others ++ '_' :: otherRest) :
    params = others ∧ rest = otherRest := by
  -- A plain name does not begin with the mark, so the list cannot end on one side only.
  have goesOn : forall {name : String} {names : List String} {tail otherTail : List Char},
      PlainName name -> '_' :: tail ≠ inputs (name :: names) ++ otherTail := by
    intro name names tail otherTail isPlain begins
    cases spelled : name.toList with
    | nil => exact isPlain.nonempty (String.toList_eq_nil_iff.mp spelled)
    | cons letter letters =>
        have isMark : '_' = letter := by
          simp only [inputs, List.flatMap_cons, spelled, List.cons_append] at begins
          exact (List.cons.inj begins).1
        exact isPlain.unmarked (by rw [spelled, isMark]; exact List.mem_cons_self)
  induction params generalizing others with
  | nil =>
      cases others with
      | nil => exact ⟨rfl, (List.cons.inj same).2⟩
      | cons other others => exact absurd same (goesOn (otherPlain other List.mem_cons_self))
  | cons name params inductionHypothesis =>
      cases others with
      | nil => exact absurd same.symm (goesOn (plain name List.mem_cons_self))
      | cons other others =>
          simp only [inputs, List.flatMap_cons, List.append_assoc, List.cons_append,
            List.nil_append] at same
          rcases word_eq_of_append (plain name List.mem_cons_self).unmarked
            (otherPlain other List.mem_cons_self).unmarked (breaks_cons '_' _) (breaks_cons '_' _)
            same with ⟨sameName, sameTail⟩
          have sameInputs := (List.cons.inj (List.cons.inj sameTail).2).2
          rcases inductionHypothesis (fun name member => plain name (List.mem_cons_of_mem _ member))
            (fun name member => otherPlain name (List.mem_cons_of_mem _ member)) sameInputs with
            ⟨sameParams, sameRest⟩
          rw [String.toList_inj.mp sameName, sameParams]
          exact ⟨rfl, sameRest⟩

theorem Readable.unmarked_member {parts : NameParts} (readable : parts.Readable) :
    '_' ∉ parts.member := by
  intro isMark
  rcases List.mem_append.mp isMark with inDeclaring | inName
  · exact readable.declaring.unmarked inDeclaring
  · rcases List.mem_cons.mp inName with isDot | inOwn
    · exact absurd isDot (by decide)
    · cases isConstructor : parts.isConstructor with
      | false => exact (readable.method isConstructor).1.unmarked inOwn
      | true =>
          rw [readable.constructor isConstructor] at inOwn
          cases isStatic : parts.isStatic with
          | false => exact absurd inOwn (by rw [isStatic]; decide)
          | true => exact absurd inOwn (by rw [isStatic]; decide)

/-- The member is joined to its declaring type by the last dot, or by the last but
one if it is a constructor. -/
theorem Readable.eq_of_member_eq {parts other : NameParts} (readable : parts.Readable)
    (otherReadable : other.Readable) (sameStatic : parts.isStatic = other.isStatic)
    (sameKind : parts.isConstructor = other.isConstructor) (same : parts.member = other.member) :
    parts.declaring = other.declaring ∧ parts.name = other.name := by
  unfold member at same
  cases isConstructor : parts.isConstructor with
  | false =>
      have undotted := (readable.method isConstructor).2
      have otherUndotted := (otherReadable.method (sameKind ▸ isConstructor)).2
      rcases words_eq_of_lastDot undotted otherUndotted same with ⟨sameDeclaring, sameName⟩
      exact ⟨String.toList_inj.mp sameDeclaring, String.toList_inj.mp sameName⟩
  | true =>
      have sameName : parts.name = other.name := by
        rw [readable.constructor isConstructor, otherReadable.constructor (sameKind ▸ isConstructor),
          sameStatic]
      rw [sameName] at same
      exact ⟨String.toList_inj.mp (List.append_cancel_right same), sameName⟩

/-- Names that can be read have their parts in common if they have their letters in
common. -/
theorem eq_of_letters_eq {parts other : NameParts} (readable : parts.Readable)
    (otherReadable : other.Readable) (same : parts.letters = other.letters) : parts = other := by
  rcases word_eq_of_append readable.result.unmarked otherReadable.result.unmarked
    (breaks_cons '_' _) (breaks_cons '_' _) same with ⟨sameResult, afterResult⟩
  have ofInputs := (List.cons.inj (List.cons.inj (List.cons.inj afterResult).2).2).2
  rcases params_eq_of_inputs readable.params otherReadable.params ofInputs with
    ⟨sameParams, ofMember⟩
  rcases word_eq_of_append readable.unmarked_member otherReadable.unmarked_member
    (breaks_marks _ _) (breaks_marks _ _) ofMember with ⟨sameMember, sameMarks⟩
  rcases eq_of_marks_eq sameMarks with ⟨sameStatic, sameKind⟩
  rcases readable.eq_of_member_eq otherReadable sameStatic sameKind sameMember with
    ⟨sameDeclaring, sameName⟩
  cases parts
  cases other
  cases String.toList_inj.mp sameResult
  cases sameParams
  cases sameDeclaring
  cases sameName
  cases sameStatic
  cases sameKind
  rfl

end NameParts

/-! ## Callables -/

/-- Two callables agree in all that a mangled name is made of. -/
structure Callable.Alike (first second : Callable) : Prop where
  declaring : first.declaring = second.declaring
  name : first.name = second.name
  isStatic : first.isStatic = second.isStatic
  isConstructor : first.isConstructor = second.isConstructor
  returns : first.returns = second.returns
  params : first.params.map Param.type = second.params.map Param.type

namespace Program

/-- The names of a program leave the marks of mangled names alone. -/
structure WellNamed (program : Program) : Prop where
  types : forall type, type ∈ program.types -> PlainName type.fullName
  /-- The name that stands for the absence of a result is free. -/
  noVoid : forall type, type ∈ program.types -> type.fullName ≠ voidName
  methods : forall callable, callable ∈ program.callables -> callable.isConstructor = false ->
    PlainName callable.name ∧ '.' ∉ callable.name.toList

instance (program : Program) : Decidable program.WellNamed :=
  decidable_of_iff
    ((forall type, type ∈ program.types -> PlainName type.fullName) ∧
      (forall type, type ∈ program.types -> type.fullName ≠ voidName) ∧
      forall callable, callable ∈ program.callables -> callable.isConstructor = false ->
        PlainName callable.name ∧ '.' ∉ callable.name.toList)
    ⟨fun all => ⟨all.1, all.2.1, all.2.2⟩,
      fun wellNamed => ⟨wellNamed.types, wellNamed.noVoid, wellNamed.methods⟩⟩

/-- The parts that are shown in the mangled name of a callable. -/
structure Shows (program : Program) (callable : Callable) (parts : NameParts) : Prop where
  result : program.resultName callable = .ok parts.result
  params : List.Forall₂ (fun token name => program.typeName token = .ok name)
    (callable.params.map Param.type) parts.params
  declaring : program.typeName callable.declaring = .ok parts.declaring
  name : parts.name = callable.name
  isStatic : parts.isStatic = callable.isStatic
  isConstructor : parts.isConstructor = callable.isConstructor

section Shown

variable {program : Program} {callable first second : Callable} {parts : NameParts}

/-- A mangled name consists of the parts that it shows. -/
theorem exists_shows {name : String} (mangles : program.mangle callable = .ok name) :
    exists parts, program.Shows callable parts ∧ name.toList = parts.letters := by
  rcases Result.bind_eq_ok.mp mangles with ⟨result, isResult, ofParams⟩
  rcases Result.bind_eq_ok.mp ofParams with ⟨params, areParams, ofDeclaring⟩
  rcases Result.bind_eq_ok.mp ofDeclaring with ⟨declaring, isDeclaring, joined⟩
  refine ⟨⟨result, params, declaring, callable.name, callable.isStatic, callable.isConstructor⟩,
    ⟨isResult, List.forall₂_map_left_iff.mpr (Result.mapM_eq_ok areParams), isDeclaring, rfl, rfl,
      rfl⟩, ?_⟩
  rw [← Except.ok.inj joined]
  simp [NameParts.letters, NameParts.inputs, NameParts.member, NameParts.marks,
    String.toList_join, List.flatMap_map]

theorem WellNamed.plain_typeName (wellNamed : program.WellNamed) {token : Token} {name : String}
    (named : program.typeName token = .ok name) : PlainName name ∧ name ≠ voidName := by
  rcases Result.map_eq_ok.mp named with ⟨type, declared, isName⟩
  have member := (token_of_typeDef declared).1
  rw [← isName]
  exact ⟨wellNamed.types type member, wellNamed.noVoid type member⟩

theorem Shows.readable (wellNamed : program.WellNamed) (among : callable ∈ program.callables)
    (shows : program.Shows callable parts) : parts.Readable := by
  refine ⟨?_, ?_, (wellNamed.plain_typeName shows.declaring).1, ?_, ?_⟩
  · have isResult := shows.result
    unfold resultName at isResult
    split at isResult
    · exact (wellNamed.plain_typeName isResult).1
    · rw [← Except.ok.inj isResult]
      exact ⟨by decide, by decide⟩
  · intro name member
    rcases Result.exists_of_mem_right shows.params member with ⟨token, _, named⟩
    exact (wellNamed.plain_typeName named).1
  · intro isMethod
    rw [shows.isConstructor] at isMethod
    rw [shows.name]
    exact wellNamed.methods callable among isMethod
  · intro isConstructor
    rw [shows.isConstructor] at isConstructor
    rw [shows.name, shows.isStatic]
    cases callable with
    | method method => cases isConstructor
    | constructor constructor => rfl

/-- In a program in which full names tell types apart, a full name leads back to the
token. -/
theorem TellsApart.token_of_typeName (apart : program.TellsApart) {token other : Token}
    {name : String} (named : program.typeName token = .ok name)
    (otherNamed : program.typeName other = .ok name) : token = other := by
  rcases Result.map_eq_ok.mp named with ⟨type, declared, isName⟩
  rcases Result.map_eq_ok.mp otherNamed with ⟨otherType, otherDeclared, isOtherName⟩
  rcases token_of_typeDef declared with ⟨member, isToken⟩
  rcases token_of_typeDef otherDeclared with ⟨otherMember, isOther⟩
  rw [← isToken, ← isOther, apart.names type otherType member otherMember (isName.trans isOtherName.symm)]

/-- The name of a result tells which type it is, and whether there is one. -/
theorem returns_of_resultName (apart : program.TellsApart) (wellNamed : program.WellNamed)
    {name : String} (named : program.resultName first = .ok name)
    (otherNamed : program.resultName second = .ok name) : first.returns = second.returns := by
  unfold resultName at named otherNamed
  cases isResult : first.returns with
  | none =>
      cases isOther : second.returns with
      | none => rfl
      | some other =>
          rw [isResult] at named
          rw [isOther] at otherNamed
          exact absurd (Except.ok.inj named).symm (wellNamed.plain_typeName otherNamed).2
  | some token =>
      rw [isResult] at named
      cases isOther : second.returns with
      | none =>
          rw [isOther] at otherNamed
          exact absurd (Except.ok.inj otherNamed).symm (wellNamed.plain_typeName named).2
      | some other =>
          rw [isOther] at otherNamed
          rw [apart.token_of_typeName named otherNamed]

theorem Shows.alike (apart : program.TellsApart) (wellNamed : program.WellNamed)
    (shows : program.Shows first parts) (otherShows : program.Shows second parts) :
    first.Alike second where
  declaring := apart.token_of_typeName shows.declaring otherShows.declaring
  name := shows.name.symm.trans otherShows.name
  isStatic := shows.isStatic.symm.trans otherShows.isStatic
  isConstructor := shows.isConstructor.symm.trans otherShows.isConstructor
  returns := returns_of_resultName apart wellNamed shows.result otherShows.result
  params := by
    have unique : Relator.LeftUnique (fun token name => program.typeName token = .ok name) :=
      fun _ _ _ named otherNamed => apart.token_of_typeName named otherNamed
    exact List.left_unique_forall₂' unique shows.params otherShows.params

/-- A mangled name is made of nothing but what alike callables share. -/
theorem mangle_eq_of_alike (program : Program) (alike : first.Alike second) :
    program.mangle first = program.mangle second := by
  have ofParams : forall callable : Callable,
      callable.params.mapM (fun param => program.typeName param.type) =
        (callable.params.map Param.type).mapM program.typeName :=
    fun callable => by rw [List.mapM_map]; rfl
  unfold mangle resultName
  rw [ofParams first, ofParams second, alike.declaring, alike.name, alike.isStatic,
    alike.isConstructor, alike.returns, alike.params]

end Shown

/-- Mangled names tell the callables of a program apart. -/
theorem mangle_eq_iff_alike {steps : List DraftStep} {program : Program}
    (built : (Draft.ofSteps steps).build = .ok program) (wellNamed : program.WellNamed)
    {first second : Callable} (ofFirst : first ∈ program.callables)
    (ofSecond : second ∈ program.callables) :
    exists firstName secondName, program.mangle first = .ok firstName ∧
      program.mangle second = .ok secondName ∧ (firstName = secondName ↔ first.Alike second) := by
  have apart := Draft.tellsApart_of_build built
  have references := references_of_build built
  rcases exists_mangle references ofFirst with ⟨firstName, isFirst⟩
  rcases exists_mangle references ofSecond with ⟨secondName, isSecond⟩
  refine ⟨firstName, secondName, isFirst, isSecond, ?_, ?_⟩
  · intro same
    rcases exists_shows isFirst with ⟨parts, shows, spelled⟩
    rcases exists_shows isSecond with ⟨otherParts, otherShows, otherSpelled⟩
    have sameLetters : parts.letters = otherParts.letters := by rw [← spelled, ← otherSpelled, same]
    have sameParts := NameParts.eq_of_letters_eq (shows.readable wellNamed ofFirst)
      (otherShows.readable wellNamed ofSecond) sameLetters
    rw [← sameParts] at otherShows
    exact shows.alike apart wellNamed otherShows
  · intro alike
    have same := program.mangle_eq_of_alike alike
    rw [isFirst, isSecond] at same
    exact Except.ok.inj same

/-- A lamp is switched in three ways, two of which only their parameter attributes
tell apart, and is made with a list of the same length. -/
def sampleLampSteps : List DraftStep := [
  .type none "" "Demo" TypeAttributes.exported none,
  .type none "Demo" "Lamp" TypeAttributes.exported none,
  .method none ⟨0x02000002⟩ "Switch" ⟨6, 0, 0⟩ none [⟨⟨0x02000001⟩, ⟨0⟩⟩, ⟨⟨0x02000002⟩, ⟨0⟩⟩] none,
  .method none ⟨0x02000002⟩ "Switch" ⟨6, 0, 0⟩ none [⟨⟨0x02000001⟩, ⟨2⟩⟩, ⟨⟨0x02000002⟩, ⟨0⟩⟩] none,
  .method none ⟨0x02000002⟩ "Switch" ⟨6, 0, 0⟩ none [⟨⟨0x02000002⟩, ⟨0⟩⟩, ⟨⟨0x02000001⟩, ⟨0⟩⟩] none,
  .constructor none ⟨0x02000002⟩ false [⟨⟨0x02000001⟩, ⟨0⟩⟩, ⟨⟨0x02000002⟩, ⟨0⟩⟩] none]

def sampleLamp : Program :=
  (Draft.ofSteps sampleLampSteps).build.toOption.getD ⟨[], [], [], [], []⟩

theorem build_sampleLamp : (Draft.ofSteps sampleLampSteps).build = .ok sampleLamp :=
  Result.eq_ok_getD (by decide +kernel) _

/-- A way to switch a lamp. -/
def sampleLampSwitch (token : UInt32) (params : List Param) : Callable :=
  .method ⟨⟨token⟩, "Switch", ⟨0x02000002⟩, ⟨6, 0, 0⟩, none, params, none⟩

def sampleLampFirst : Callable :=
  sampleLampSwitch 0x06000001 [⟨⟨0x02000001⟩, ⟨0⟩⟩, ⟨⟨0x02000002⟩, ⟨0⟩⟩]

def sampleLampSecond : Callable :=
  sampleLampSwitch 0x06000002 [⟨⟨0x02000001⟩, ⟨2⟩⟩, ⟨⟨0x02000002⟩, ⟨0⟩⟩]

def sampleLampThird : Callable :=
  sampleLampSwitch 0x06000003 [⟨⟨0x02000002⟩, ⟨0⟩⟩, ⟨⟨0x02000001⟩, ⟨0⟩⟩]

/-- The first two ways to switch a lamp share a name, and the third has its own. -/
theorem sampleLamp_mangle_eq_iff_alike :
    sampleLamp.WellNamed ∧
    (exists first second, sampleLamp.mangle sampleLampFirst = .ok first ∧
      sampleLamp.mangle sampleLampSecond = .ok second ∧ first = second) ∧
    exists first third, sampleLamp.mangle sampleLampFirst = .ok first ∧
      sampleLamp.mangle sampleLampThird = .ok third ∧ first ≠ third := by
  have wellNamed : sampleLamp.WellNamed := by decide +kernel
  have ofFirst : sampleLampFirst ∈ sampleLamp.callables := by decide +kernel
  have ofSecond : sampleLampSecond ∈ sampleLamp.callables := by decide +kernel
  have ofThird : sampleLampThird ∈ sampleLamp.callables := by decide +kernel
  refine ⟨wellNamed, ?_, ?_⟩
  · rcases mangle_eq_iff_alike build_sampleLamp wellNamed ofFirst ofSecond with
      ⟨first, second, isFirst, isSecond, sameIff⟩
    exact ⟨first, second, isFirst, isSecond, sameIff.mpr ⟨rfl, rfl, rfl, rfl, rfl, rfl⟩⟩
  · rcases mangle_eq_iff_alike build_sampleLamp wellNamed ofFirst ofThird with
      ⟨first, third, isFirst, isThird, sameIff⟩
    refine ⟨first, third, isFirst, isThird, ?_⟩
    intro same
    exact absurd (sameIff.mp same).params (by decide)

end Program
end CilGraph
