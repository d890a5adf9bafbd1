import CilGraph.Linkage.Settings
import CilGraph.Proofs.Markup.Trees

namespace CilGraph

/-!
# Settings and their documents

Settings can be put together call by call, or be read from a document.  A
document says no more than the calls do.  Each element of it stands for one call,
`Applies` says for which, and reading a document makes these calls in the order
of the elements.  In the other direction every setting has an element, and the
elements of settings of both kinds may be mixed, since a call adds to the list
of its own kind only.

A binding that names no parameters has two meanings, which the elements tell
apart by an attribute: it holds for every overload, or it holds for the overload
that has no parameters.
-/

open Markup

/-! ## Calls -/

namespace Settings

/-- Replace a type. -/
def substitute (settings : Settings) (target replacement : String) : Settings :=
  { settings with substitutions := settings.substitutions ++ [⟨target, replacement⟩] }

/-- Bind every overload of a method. -/
def native (settings : Settings) (type method symbol : String) : Settings :=
  { settings with natives := settings.natives ++ [⟨type, method, none, symbol⟩] }

/-- Bind the overload of a method that has the given parameters. -/
def nativeOverload (settings : Settings) (type method : String) (params : List String)
    (symbol : String) : Settings :=
  { settings with natives := settings.natives ++ [⟨type, method, some params, symbol⟩] }

/-- An element stands for a call, which takes settings to other settings. -/
inductive Applies (settings : Settings) (element : Element) : Settings -> Prop where
  | substitute {target replacement : String} (isNamed : element.name = "substitute")
      (hasTarget : element.attribute? "target" = some target)
      (hasReplacement : element.attribute? "with" = some replacement) :
      Applies settings element (settings.substitute target replacement)
  | native {type method symbol : String} (isNamed : element.name = "native")
      (hasType : element.attribute? "type" = some type)
      (hasMethod : element.attribute? "method" = some method)
      (hasSymbol : element.attribute? "symbol" = some symbol)
      (noParams : element.childrenNamed "param" = [])
      (unmarked : element.flag "noparams" = .ok false) :
      Applies settings element (settings.native type method symbol)
  | overload {type method symbol : String} {params : List String}
      (isNamed : element.name = "native")
      (hasType : element.attribute? "type" = some type)
      (hasMethod : element.attribute? "method" = some method)
      (hasSymbol : element.attribute? "symbol" = some symbol)
      (hasParams : List.Forall₂ (fun param name => param.attribute? "type" = some name)
        (element.childrenNamed "param") params)
      (selects : params ≠ [] ∨ element.flag "noparams" = .ok true) :
      Applies settings element (settings.nativeOverload type method params symbol)

/-- Elements stand for calls one after another. -/
inductive AppliesAll : Settings -> List Element -> Settings -> Prop where
  | done (settings : Settings) : AppliesAll settings [] settings
  | step {settings next result : Settings} {element : Element} {rest : List Element}
      (first : settings.Applies element next) (later : AppliesAll next rest result) :
      AppliesAll settings (element :: rest) result

end Settings

/-! ## Reading is making the calls -/

namespace Setting

/-- What the list of parameters of a binding means. -/
theorem readParams_eq_ok {element : Element} {names : List String}
    {params : Option (List String)} :
    readParams element names = .ok params ↔
      (params = none ∧ names = [] ∧ element.flag "noparams" = .ok false) ∨
        (params = some names ∧ (names ≠ [] ∨ element.flag "noparams" = .ok true)) := by
  unfold readParams
  cases names with
  | nil =>
      simp only [List.isEmpty_nil, if_true]
      cases element.flag "noparams" with
      | error error => simp [bind, Except.bind]
      | ok marked => cases marked <;> simp [bind, Except.bind, eq_comm]
  | cons name names => simp [eq_comm]

/-- An element is read as the setting that its call adds. -/
theorem applies_of_ofElement {element : Element} {setting : Setting}
    (read : ofElement element = .ok setting) (settings : Settings) :
    settings.Applies element (settings.add setting) := by
  unfold ofElement at read
  split at read
  · rename_i isNamed
    obtain ⟨target, hasTarget, continued⟩ := Result.bind_eq_ok.mp read
    obtain ⟨replacement, hasReplacement, assembled⟩ := Result.bind_eq_ok.mp continued
    cases assembled
    exact .substitute isNamed (Element.required_eq_ok.mp hasTarget)
      (Element.required_eq_ok.mp hasReplacement)
  · rename_i isNamed
    obtain ⟨names, hasParams, continued⟩ := Result.bind_eq_ok.mp read
    obtain ⟨type, hasType, continued⟩ := Result.bind_eq_ok.mp continued
    obtain ⟨method, hasMethod, continued⟩ := Result.bind_eq_ok.mp continued
    obtain ⟨symbol, hasSymbol, continued⟩ := Result.bind_eq_ok.mp continued
    obtain ⟨params, means, assembled⟩ := Result.bind_eq_ok.mp continued
    cases assembled
    have listed := Element.mapM_required_eq_ok.mp hasParams
    rcases readParams_eq_ok.mp means with ⟨isNone, isEmpty, unmarked⟩ | ⟨isSome, selects⟩
    · subst isNone isEmpty
      exact .native isNamed (Element.required_eq_ok.mp hasType)
        (Element.required_eq_ok.mp hasMethod) (Element.required_eq_ok.mp hasSymbol)
        (List.forall₂_nil_right_iff.mp listed) unmarked
    · subst isSome
      exact .overload isNamed (Element.required_eq_ok.mp hasType)
        (Element.required_eq_ok.mp hasMethod) (Element.required_eq_ok.mp hasSymbol) listed selects
  · cases read

theorem ofElement_of_native {element : Element} {type method symbol : String}
    {names : List String} {params : Option (List String)} (isNamed : element.name = "native")
    (hasType : element.attribute? "type" = some type)
    (hasMethod : element.attribute? "method" = some method)
    (hasSymbol : element.attribute? "symbol" = some symbol)
    (hasParams : List.Forall₂ (fun param name => param.attribute? "type" = some name)
      (element.childrenNamed "param") names)
    (means : readParams element names = .ok params) :
    ofElement element = .ok (.native ⟨type, method, params, symbol⟩) := by
  unfold ofElement
  simp only [isNamed]
  apply Result.bind_eq_ok.mpr ⟨names, Element.mapM_required_eq_ok.mpr hasParams, ?_⟩
  apply Result.bind_eq_ok.mpr ⟨type, Element.required_eq_ok.mpr hasType, ?_⟩
  apply Result.bind_eq_ok.mpr ⟨method, Element.required_eq_ok.mpr hasMethod, ?_⟩
  apply Result.bind_eq_ok.mpr ⟨symbol, Element.required_eq_ok.mpr hasSymbol, ?_⟩
  exact Result.bind_eq_ok.mpr ⟨params, means, rfl⟩

/-- An element that stands for a call is read as a setting, and adding it is the call. -/
theorem exists_ofElement_of_applies {element : Element} {settings next : Settings}
    (applies : settings.Applies element next) :
    exists setting, ofElement element = .ok setting ∧ settings.add setting = next := by
  cases applies with
  | @substitute target replacement isNamed hasTarget hasReplacement =>
      refine ⟨.substitute ⟨target, replacement⟩, ?_, rfl⟩
      unfold ofElement
      simp only [isNamed]
      apply Result.bind_eq_ok.mpr ⟨target, Element.required_eq_ok.mpr hasTarget, ?_⟩
      exact Result.bind_eq_ok.mpr ⟨replacement, Element.required_eq_ok.mpr hasReplacement, rfl⟩
  | @native type method symbol isNamed hasType hasMethod hasSymbol noParams unmarked =>
      refine ⟨.native ⟨type, method, none, symbol⟩, ?_, rfl⟩
      apply ofElement_of_native isNamed hasType hasMethod hasSymbol
        (List.forall₂_nil_right_iff.mpr noParams)
      exact readParams_eq_ok.mpr (Or.inl ⟨rfl, rfl, unmarked⟩)
  | @overload type method symbol params isNamed hasType hasMethod hasSymbol hasParams selects =>
      refine ⟨.native ⟨type, method, some params, symbol⟩, ?_, rfl⟩
      apply ofElement_of_native isNamed hasType hasMethod hasSymbol hasParams
      exact readParams_eq_ok.mpr (Or.inr ⟨rfl, selects⟩)

end Setting

namespace Settings

/-- Reading elements and collecting what they say is making their calls in order. -/
theorem foldl_add_iff {elements : List Element} {settings result : Settings} :
    (exists entries, elements.mapM Setting.ofElement = .ok entries ∧
      entries.foldl add settings = result) ↔ settings.AppliesAll elements result := by
  induction elements generalizing settings with
  | nil =>
      constructor
      · rintro ⟨entries, read, collected⟩
        cases read
        exact collected ▸ .done settings
      · intro applied
        cases applied
        exact ⟨[], rfl, rfl⟩
  | cons element rest inductionHypothesis =>
      rw [List.mapM_cons]
      constructor
      · rintro ⟨entries, read, collected⟩
        obtain ⟨entry, ofFirst, continued⟩ := Result.bind_eq_ok.mp read
        obtain ⟨others, ofRest, assembled⟩ := Result.bind_eq_ok.mp continued
        cases assembled
        exact .step (Setting.applies_of_ofElement ofFirst settings)
          (inductionHypothesis.mp ⟨others, ofRest, collected⟩)
      · intro applied
        cases applied with
        | step first later =>
            obtain ⟨entry, ofFirst, added⟩ := Setting.exists_ofElement_of_applies first
            obtain ⟨others, ofRest, collected⟩ := inductionHypothesis.mpr later
            refine ⟨entry :: others, ?_, ?_⟩
            · exact Result.bind_eq_ok.mpr ⟨entry, ofFirst,
                Result.bind_eq_ok.mpr ⟨others, ofRest, rfl⟩⟩
            · rw [List.foldl_cons, added]
              exact collected

theorem ofRoot_eq_ok_iff {root : Element} {settings : Settings} :
    ofRoot root = .ok settings ↔ AppliesAll {} root.children settings :=
  Result.map_eq_ok.trans foldl_add_iff

end Settings

/-! ## The elements of settings -/

namespace Setting

/-- The element of a parameter. -/
def paramElement (name : String) : Element :=
  ⟨"param", [("type", name)], [], ""⟩

/-- The element of a setting.  The mark stands where a list of parameters is
there and is empty. -/
def toElement : Setting -> Element
  | .substitute substitution =>
    ⟨"substitute", [("target", substitution.target), ("with", substitution.replacement)], [], ""⟩
  | .native binding =>
    let mark := if binding.params = some [] then [("noparams", "true")] else []
    ⟨"native", [("type", binding.type), ("method", binding.method), ("symbol", binding.symbol)] ++
      mark, (binding.params.getD []).map paramElement, ""⟩

/-- The substitution of a setting that is one. -/
def substitution? : Setting -> Option Substitution
  | .substitute substitution => some substitution
  | .native _ => none

/-- The binding of a setting that is one. -/
def native? : Setting -> Option NativeBinding
  | .substitute _ => none
  | .native binding => some binding

theorem childrenNamed_toElement (binding : NativeBinding) :
    (toElement (.native binding)).childrenNamed "param" =
      (binding.params.getD []).map paramElement := by
  apply List.filter_eq_self.mpr
  intro child member
  obtain ⟨name, _, isChild⟩ := List.mem_map.mp member
  rw [← isChild]
  rfl

theorem forall₂_paramElement (names : List String) :
    List.Forall₂ (fun param name => param.attribute? "type" = some name)
      (names.map paramElement) names := by
  apply List.forall₂_map_left_iff.mpr
  apply List.forall₂_same.mpr
  intro name _
  rfl

/-- The mark tells an empty list of parameters from none. -/
theorem readParams_toElement (binding : NativeBinding) :
    readParams (toElement (.native binding)) (binding.params.getD []) = .ok binding.params := by
  rcases binding with ⟨type, method, params, symbol⟩
  rcases params with _ | _ | ⟨name, names⟩
  · exact readParams_eq_ok.mpr (Or.inl ⟨rfl, rfl, rfl⟩)
  · exact readParams_eq_ok.mpr (Or.inr ⟨rfl, Or.inr rfl⟩)
  · exact readParams_eq_ok.mpr (Or.inr ⟨rfl, Or.inl (List.cons_ne_nil name names)⟩)

/-- A setting is read back from its element. -/
theorem ofElement_toElement (setting : Setting) : ofElement setting.toElement = .ok setting := by
  cases setting with
  | substitute substitution => rfl
  | native binding =>
      refine ofElement_of_native rfl rfl rfl rfl ?_ (readParams_toElement binding)
      rw [childrenNamed_toElement]
      exact forall₂_paramElement _

end Setting

namespace Settings

/-- The document of settings in some order. -/
def toElement (entries : List Setting) : Element :=
  ⟨"resolver", [], entries.map Setting.toElement, ""⟩

/-- Settings of both kinds mixed, where each kind keeps its order. -/
structure Interleaves (entries : List Setting) (settings : Settings) : Prop where
  substitutions : entries.filterMap Setting.substitution? = settings.substitutions
  natives : entries.filterMap Setting.native? = settings.natives

theorem foldl_add (entries : List Setting) (settings : Settings) :
    entries.foldl add settings =
      ⟨settings.substitutions ++ entries.filterMap Setting.substitution?,
        settings.natives ++ entries.filterMap Setting.native?⟩ := by
  induction entries generalizing settings with
  | nil => simp
  | cons entry rest inductionHypothesis =>
      rw [List.foldl_cons, inductionHypothesis]
      cases entry <;> simp [add, Setting.substitution?, Setting.native?, List.filterMap_cons]

theorem ofList_of_interleaves {entries : List Setting} {settings : Settings}
    (interleaves : Interleaves entries settings) : ofList entries = settings := by
  rw [ofList, foldl_add, interleaves.substitutions, interleaves.natives, List.nil_append,
    List.nil_append]

theorem ofRoot_toElement {entries : List Setting} {settings : Settings}
    (interleaves : Interleaves entries settings) : ofRoot (toElement entries) = .ok settings := by
  have read : (entries.map Setting.toElement).mapM Setting.ofElement = .ok entries := by
    apply Result.mapM_of_forall₂
    apply List.forall₂_map_left_iff.mpr
    apply List.forall₂_same.mpr
    intro entry _
    exact entry.ofElement_toElement
  exact Result.map_eq_ok.mpr ⟨entries, read, ofList_of_interleaves interleaves⟩

theorem ofDocumentWith_of_parse {lexer : Lexer} {document : String} {root : Element}
    (parsed : Element.parse lexer document = .ok root) (isNamed : root.name = "resolver") :
    ofDocumentWith lexer document = ofRoot root := by
  unfold ofDocumentWith
  rw [Element.parseRoot_eq_ok.mpr ⟨parsed, isNamed⟩]
  rfl

/-- Documents and calls say the same.  The elements of settings, the two kinds mixed in
any way that keeps the order of each, are read as exactly these settings, and so is a
document that holds them.  And a document with the root of settings is read as some
settings if and only if the calls for which its elements stand, in their order,
lead from none to these settings. -/
theorem ofDocument_agrees {lexer : Lexer} {document : String} {root : Element}
    (parsed : Element.parse lexer document = .ok root) (isNamed : root.name = "resolver") :
    (forall entries settings, Interleaves entries settings ->
      ofRoot (toElement entries) = .ok settings ∧
      (root = toElement entries -> ofDocumentWith lexer document = .ok settings)) ∧
    forall settings,
      ofDocumentWith lexer document = .ok settings ↔ AppliesAll {} root.children settings := by
  rw [ofDocumentWith_of_parse parsed isNamed]
  constructor
  · intro entries settings interleaves
    refine ⟨ofRoot_toElement interleaves, ?_⟩
    intro isRoot
    rw [isRoot]
    exact ofRoot_toElement interleaves
  · intro settings
    exact ofRoot_eq_ok_iff

/-- A replacement between two bindings that select an overload. -/
def sampleKernelEntries : List Setting := [
  .native ⟨"Cpu", "Halt", some [], "halt"⟩,
  .substitute ⟨"Screen", "Port"⟩,
  .native ⟨"Port", "Put", some ["Byte"], "put"⟩]

def sampleKernelText : List Char :=
  "<resolver><native type='Cpu'".toList ++ " method='Halt' symbol='halt'".toList ++
    " noparams='true'/>".toList ++ "<substitute target='Screen'".toList ++
    " with='Port'/>".toList ++
    "<native type='Port'".toList ++ " method='Put' symbol='put'>".toList ++
    "<param type='Byte'/>".toList ++ "</native></resolver>".toList

theorem parse_sampleKernelText :
    Element.parse .standard (String.ofList sampleKernelText) =
      .ok (toElement sampleKernelEntries) := by
  rw [Element.parse_ofList]
  decide +kernel

theorem sampleKernelText_agrees :
    Element.parse .standard (String.ofList sampleKernelText) =
      .ok (toElement sampleKernelEntries) ∧
    (toElement sampleKernelEntries).name = "resolver" ∧
    ofDocument (String.ofList sampleKernelText) = .ok (ofList sampleKernelEntries) ∧
    AppliesAll {} (sampleKernelEntries.map Setting.toElement) (ofList sampleKernelEntries) := by
  have agrees := ofDocument_agrees parse_sampleKernelText rfl
  have read := (agrees.1 sampleKernelEntries (ofList sampleKernelEntries) ⟨rfl, rfl⟩).2 rfl
  exact ⟨parse_sampleKernelText, rfl, read, (agrees.2 _).mp read⟩

end Settings
end CilGraph
