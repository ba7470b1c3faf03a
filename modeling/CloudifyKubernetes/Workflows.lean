import CloudifyKubernetes.Effects.Program
import CloudifyKubernetes.Formats.JsonQuoting
import CloudifyKubernetes.Python.Value

namespace CloudifyKubernetes

open Collections Effects Formats

/-- What the decoding of the changes uses besides JSON: how floats and characters are
    written, `ast.literal_eval`, and what the files of a valid file resource define. -/
structure Decoding where
  floatRepr : String → String
  isPrintable : Char → Bool
  literalEval : String → Except Exception Json
  yamlFromFiles : Json → Except Exception Json

structure NodeOperation where
  nodeInstance : String
  operation : String
  kwargs : List (String × Json)

structure Deployment where
  nodeInstances : List String
  ends : List NodeOperation → Except Exception Unit

abbrev Workflow (α : Type) := Program (List NodeOperation) Exception α

def POSTSTART : String := "cloudify.interfaces.lifecycle.poststart"

def UPDATE : String := "cloudify.interfaces.lifecycle.update"

def DEFINITION_ADDITIONS : String := "definitions_additions"

def className : Json → String
  | .null => "NoneType"
  | .bool _ => "bool"
  | .int _ => "int"
  | .float _ => "float"
  | .str _ => "str"
  | .array _ => "list"
  | .object _ => "dict"

section

variable (decoding : Decoding)

def formatted : Json → String
  | .str text => text
  | value => String.ofList ((Json.literalText decoding.floatRepr decoding.isPrintable).render value)

def validateFileResource : Json → Except Exception Unit
  | .object (_ :: _) => .ok ()
  | fileResource => .error ⟨.nonRecoverableError,
      "Invalid resource file specification. The file properties must be a dictionary with the keys: " ++
        "resource_path (required), template_variables, and target_path. File resource: " ++
        formatted decoding fileResource⟩

def resourceDefinitionsFromFileResult (result : Json) : Except Exception Json := do
  validateFileResource decoding result
  decoding.yamlFromFiles result

def fallBack (text error : String) : Except Exception Json :=
  if Text.contains error "Key name must be string at char" then decoding.literalEval text
  else if Text.contains error "Unexpected" then resourceDefinitionsFromFileResult decoding (.str text)
  else .ok (.str text)

def loadChanges : Json → Except Exception Json
  | .str text =>
    match Json.loads decoding.floatRepr text with
    | .ok value => .ok value
    | .error (.message msg left) =>
      fallBack decoding text (Json.errorText msg text.toList (text.toList.length - left))
    | .error .outOfFuel => .error ⟨.recursionError, "maximum recursion depth exceeded"⟩
  | value => .error ⟨.typeError, "the JSON object must be str, bytes or bytearray, not " ++ className value⟩

variable (deployment : Deployment)

def executeNodeInstanceOperation (nodeInstance operation : String) (params : List (String × Json)) :
    Workflow Unit := do
  Program.modify fun executed => executed ++ [⟨nodeInstance, operation, params⟩]
  let executed ← Program.get
  Program.ofExcept (deployment.ends executed)

def Deployment.getNodeInstance (nodeInstanceId : String) : Option String :=
  if nodeInstanceId ∈ deployment.nodeInstances then some nodeInstanceId else none

def updateResourceDefinition (nodeInstanceId : String) (resourceDefinitionChanges : Json) : Workflow Unit := do
  let changes ← Program.ofExcept (loadChanges decoding resourceDefinitionChanges)
  if nodeInstanceId = "" then
    Program.raise ⟨.nonRecoverableError, "No such node_instance_id in deployment: ."⟩
  else match deployment.getNodeInstance nodeInstanceId with
    | none => Program.raise ⟨.attributeError, "'NoneType' object has no attribute 'logger'"⟩
    | some nodeInstance => do
      executeNodeInstanceOperation deployment nodeInstance POSTSTART []
      executeNodeInstanceOperation deployment nodeInstance UPDATE [(DEFINITION_ADDITIONS, changes)]

end

section

variable {decoding : Decoding}

theorem placeText_lacks {c : Char} (letter : c ∉ ": line column (char )".toList ∧ c.isDigit = false)
    (document : List Char) (position : Nat) : c ∉ (Json.placeText document position).toList := by
  intro member
  rcases Json.mem_placeText member with word | digit
  · exact letter.1 word
  · rw [letter.2] at digit
    cases digit

theorem contains_errorText {part msg : String} {c : Char} {rest : List Char} (starts : part.toList = c :: rest)
    (letter : c ∉ ": line column (char )".toList ∧ c.isDigit = false) (free : Text.apart msg part = true)
    (document : List Char) (position : Nat) :
    Text.contains (Json.errorText msg document position) part = false := by
  have absent := placeText_lacks letter document position
  have whole : Json.placeText document position = Json.placeText document position ++ "" := String.append_empty.symm
  rw [Json.errorText, Text.contains_append free, whole, Text.contains_append_of_absent starts absent,
    ← Bool.not_eq_true, Text.contains_iff, starts]
  exact fun inside => absurd (List.eq_nil_of_infix_nil inside) (List.cons_ne_nil _ _)

theorem keyMessage_absent {msg : String} (free : Text.apart msg "Key name must be string at char" = true)
    (document : List Char) (position : Nat) :
    Text.contains (Json.errorText msg document position) "Key name must be string at char" = false :=
  contains_errorText rfl ⟨by decide +kernel, rfl⟩ free document position

theorem fallBack_known {msg : String} (known : msg ∈ Json.messages) (text : String) (document : List Char)
    (position : Nat) : fallBack decoding text (Json.errorText msg document position) = .ok (.str text) := by
  have apart : ∀ msg ∈ Json.messages, Text.apart msg "Key name must be string at char" = true ∧
      Text.apart msg "Unexpected" = true := by decide +kernel
  rw [fallBack, keyMessage_absent (apart msg known).1, if_neg Bool.false_ne_true,
    contains_errorText rfl ⟨by decide +kernel, rfl⟩ (apart msg known).2, if_neg Bool.false_ne_true]

def badFileResource (text : String) : Exception :=
  ⟨.nonRecoverableError,
    "Invalid resource file specification. The file properties must be a dictionary with the keys: " ++
      "resource_path (required), template_variables, and target_path. File resource: " ++ text⟩

theorem fallBack_marked (text : String) (document : List Char) (position : Nat) :
    fallBack decoding text
        (Json.errorText "Unexpected UTF-8 BOM (decode using utf-8-sig)" document position) =
      .error (badFileResource text) := by
  have found : Text.contains (Json.errorText "Unexpected UTF-8 BOM (decode using utf-8-sig)" document position)
      "Unexpected" = true := by
    rw [Text.contains_iff, Json.errorText, String.toList_append]
    have front : "Unexpected".toList <+: "Unexpected UTF-8 BOM (decode using utf-8-sig)".toList := by
      decide +kernel
    exact (front.trans (List.prefix_append _ _)).isInfix
  rw [fallBack, keyMessage_absent (by decide +kernel), if_neg Bool.false_ne_true, found, if_pos rfl]
  rfl

theorem loadChanges_decoded {text : String} {value : Json}
    (decoded : Json.loads decoding.floatRepr text = .ok value) :
    loadChanges decoding (.str text) = .ok value := by
  rw [loadChanges, decoded]

theorem loadChanges_marked {text : String} (marked : text.toList.head? = some Json.byteOrderMark) :
    loadChanges decoding (.str text) = .error (badFileResource text) := by
  rw [loadChanges, Json.loads_of_marked _ marked]
  exact fallBack_marked _ _ _

theorem loadChanges_undecoded {text : String} {e : ScanError}
    (fails : Json.loads decoding.floatRepr text = .error e)
    (plain : text.toList.head? ≠ some Json.byteOrderMark) :
    loadChanges decoding (.str text) = .ok (.str text) := by
  rcases Json.loads_fails _ fails with ⟨marked, _⟩ | ⟨_, msg, left, known, rfl⟩
  · exact absurd marked plain
  · rw [loadChanges, fails]
    exact fallBack_known known _ _ _

end

structure Deployment.Ready (deployment : Deployment) (nodeInstanceId : String) : Prop where
  named : nodeInstanceId ≠ ""
  known : nodeInstanceId ∈ deployment.nodeInstances
  starts : deployment.ends [⟨nodeInstanceId, POSTSTART, []⟩] = .ok ()

section

variable {decoding : Decoding} {deployment : Deployment} {nodeInstanceId : String}

theorem updateResourceDefinition_runs (ready : deployment.Ready nodeInstanceId) {changes value : Json}
    (loaded : loadChanges decoding changes = .ok value) :
    updateResourceDefinition decoding deployment nodeInstanceId changes [] =
      (deployment.ends [⟨nodeInstanceId, POSTSTART, []⟩,
          ⟨nodeInstanceId, UPDATE, [(DEFINITION_ADDITIONS, value)]⟩],
        [⟨nodeInstanceId, POSTSTART, []⟩, ⟨nodeInstanceId, UPDATE, [(DEFINITION_ADDITIONS, value)]⟩]) := by
  have found : deployment.getNodeInstance nodeInstanceId = some nodeInstanceId := if_pos ready.known
  have started : executeNodeInstanceOperation deployment nodeInstanceId POSTSTART [] [] =
      (.ok (), [⟨nodeInstanceId, POSTSTART, []⟩]) := by
    have ends : executeNodeInstanceOperation deployment nodeInstanceId POSTSTART [] [] =
        (deployment.ends [⟨nodeInstanceId, POSTSTART, []⟩], [⟨nodeInstanceId, POSTSTART, []⟩]) :=
      Program.ofExcept_run _ _
    rw [ends, ready.starts]
  rw [updateResourceDefinition, Program.bind_run, Program.ofExcept_run, loaded]
  dsimp only
  rw [if_neg ready.named, found]
  dsimp only
  rw [Program.bind_run_ok started]
  exact Program.ofExcept_run _ _

theorem updateResourceDefinition_raises {changes : Json} {e : Exception}
    (raised : loadChanges decoding changes = .error e) :
    updateResourceDefinition decoding deployment nodeInstanceId changes [] = (.error e, []) := by
  rw [updateResourceDefinition, Program.bind_run, Program.ofExcept_run, raised]

end

end CloudifyKubernetes
