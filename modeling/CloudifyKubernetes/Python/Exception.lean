import Mathlib.Init

namespace CloudifyKubernetes

/-- The exception classes that the plugin raises or distinguishes. -/
inductive ExceptionClass
  | nonRecoverableError
  | recoverableError
  | operationRetry
  | missingResource
  | apiOperationError
  | mappingNotFoundError
  | invalidDefinitionError
  | invalidPayloadClassError
  | invalidApiClassError
  | invalidApiMethodError
  | typeError
  | keyError
  | indexError
  | attributeError
  | valueError
  | runtimeError
  | recursionError
  deriving DecidableEq, Repr

def ExceptionClass.isSubclass (cls other : ExceptionClass) : Bool :=
  cls == other ||
    match cls, other with
    | .missingResource, .operationRetry => true
    | .missingResource, .recoverableError => true
    | .operationRetry, .recoverableError => true
    | _, _ => false

structure Exception where
  cls : ExceptionClass
  text : String
  deriving DecidableEq, Repr

def Exception.isA (e : Exception) (cls : ExceptionClass) : Bool := e.cls.isSubclass cls

end CloudifyKubernetes
