import CloudifyKubernetes.Python.CaseMapping
import CloudifyKubernetes.Python.Value

namespace CloudifyKubernetes

open Collections

/-- The attributes of an instance: `kind`, `api_version` and `metadata` by name, all
    others in the order in which they were set. -/
structure KubernetesResourceDefinition where
  kind : String
  apiVersion : Value
  metadata : Value
  attributes : Dict

namespace KubernetesResourceDefinition

def optionalParameters : List (String × String) :=
  [("spec", "spec"), ("parameters", "parameters"), ("provisioner", "provisioner"), ("data", "data"),
    ("roleRef", "role_ref"), ("subjects", "subjects"),
    ("automountServiceAccountToken", "automount_service_account_token"),
    ("imagePullSecrets", "image_pull_secrets"), ("secrets", "secrets"), ("type", "type"),
    ("stringData", "string_data"), ("rules", "rules")]

def parameterNames : List String :=
  ["kind", "apiVersion", "metadata"] ++ optionalParameters.map Prod.fst

def shortKind (kind : String) : String := (Text.split kind ".").getLastD ""

def setAttribute (d : KubernetesResourceDefinition) (key : String) (value : Value) :
    KubernetesResourceDefinition :=
  if key = "api_version" then { d with apiVersion := value }
  else { d with attributes := d.attributes.set key value }

/-- What `setattr` does not add to the attributes of an object: it raises, or, with a
    dictionary for `__dict__`, leaves an object without kind and metadata. -/
def objectAttributes : List String := ["__class__", "__dict__", "__weakref__"]

def init (keys : List (String × Value)) : Except Exception KubernetesResourceDefinition :=
  let parameter := fun name => (keys.lookup name).getD .none
  if (keys.lookup "self").isSome then
    .error ⟨.typeError, "__init__() got multiple values for argument self"⟩
  else if (parameter "kind").isNone || (parameter "apiVersion").isNone || (parameter "metadata").isNone then
    .error ⟨.invalidDefinitionError, "Incorrect format of resource definition,one or more " ++
      "of: apiVersion, metadata, kind are missing."⟩
  else
    match parameter "kind" with
    | .str kind =>
      let required := ⟨shortKind kind, parameter "apiVersion", parameter "metadata", .empty⟩
      let exposed := optionalParameters.foldl (fun d entry =>
        if (parameter entry.1).truthy then d.setAttribute entry.2 (parameter entry.1) else d) required
      if keys.any fun e => e.1 ∈ objectAttributes then
        .error ⟨.typeError, "attribute of the object cannot be set"⟩
      else .ok ((keys.filter fun e => e.1 ∉ parameterNames).foldl
        (fun d e => d.setAttribute e.1 e.2) exposed)
    | _ => .error ⟨.attributeError, "object has no attribute split"⟩

def ofParts (kind apiVersion metadata : Value) : Except Exception KubernetesResourceDefinition :=
  init [("kind", kind), ("apiVersion", apiVersion), ("metadata", metadata)]

def vars (d : KubernetesResourceDefinition) : List (String × Value) :=
  [("kind", .str d.kind), ("api_version", d.apiVersion), ("metadata", d.metadata)] ++
    d.attributes.items

/-- The pieces after the first non-empty one are capitalized; an empty piece stands for
    an underscore and does not count. -/
def camelcasePieces (letters : CaseMapping) : Bool → List (List Char) → List Char
  | _, [] => []
  | started, [] :: rest => '_' :: camelcasePieces letters started rest
  | false, piece :: rest => letters.lower piece ++ camelcasePieces letters true rest
  | true, piece :: rest => letters.capitalize piece ++ camelcasePieces letters true rest

def underscoreToCamelcase (letters : CaseMapping) (value : String) : String :=
  String.ofList (camelcasePieces letters false (splitOn ['_'] value.toList))

def toDictBy (letters : CaseMapping) (d : KubernetesResourceDefinition) : Value :=
  .dict (OrderedDict.ofEntries (d.vars.map fun e => (underscoreToCamelcase letters e.1, e.2))).items

def toDict (d : KubernetesResourceDefinition) : Value := d.toDictBy .ascii

example : underscoreToCamelcase .ascii "api_version" = "apiVersion" := by decide +kernel

theorem shortKind_of_plain {kind : String} (plain : '.' ∉ kind.toList) : shortKind kind = kind := by
  have dot : "." = String.singleton '.' := by decide
  rw [shortKind, dot, Text.split_of_absent plain]
  rfl

theorem shortKind_plain (kind : String) : '.' ∉ (shortKind kind).toList := by
  have dot : "." = String.singleton '.' := by decide
  rw [shortKind, List.getLastD_eq_getLast?, dot]
  cases last : (Text.split kind (String.singleton '.')).getLast? with
  | none => simp
  | some part => exact Text.not_mem_split (List.mem_of_getLast? last)

theorem shortKind_idem (kind : String) : shortKind (shortKind kind) = shortKind kind :=
  shortKind_of_plain (shortKind_plain kind)

theorem ofParts_str (kind : String) {apiVersion metadata : Value}
    (versioned : apiVersion.isNone = false) (described : metadata.isNone = false) :
    ofParts (.str kind) apiVersion metadata =
      .ok ⟨shortKind kind, apiVersion, metadata, .empty⟩ := by
  change (if (false || apiVersion.isNone || metadata.isNone) = true then _ else _) = _
  rw [versioned, described]
  rfl

theorem ofParts_unversioned (kind : String) {apiVersion : Value} (missing : apiVersion.isNone = true)
    (metadata : Value) : ∃ e, ofParts (.str kind) apiVersion metadata = .error e := by
  refine ⟨_, if_pos ?_⟩
  change (false || apiVersion.isNone || metadata.isNone) = true
  rw [missing]
  rfl

end KubernetesResourceDefinition

end CloudifyKubernetes
