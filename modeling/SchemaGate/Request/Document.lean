import SchemaGate.Components
import SchemaGate.Yaml.Value

/-!
# Documents

The parts of an interface description that binding needs: paths with their operations, shared
definitions, and the security that operations have unless they say otherwise. Only the shape of
the outermost parts is checked here.
-/

namespace SchemaGate

/-- The methods that a path may declare operations for. -/
def httpMethods : List String :=
  ["get", "put", "post", "delete", "options", "head", "patch", "trace"]

/-- An operation of a document, by its path and its method in lower case. -/
structure OperationRef where
  path : String
  method : String
  deriving DecidableEq

namespace OperationRef

/-- Order by path, then by method. -/
def before (a b : OperationRef) : Bool :=
  a.path < b.path || (a.path == b.path && (a.method < b.method || a.method == b.method))

end OperationRef

/-- A document: its members, the paths among them, and the definitions if there are any. -/
structure Document where
  root : Entries Json
  paths : Entries Json
  components : Option Components

namespace Document

/-- The document that a value holds. -/
def ofJson (v : Json) : Except CompileError Document :=
  match v with
  | .object root =>
    match (Entries.get? "paths" root).bind Json.object? with
    | none => .error (.invalidDocument "paths must be an object")
    | some paths =>
      match Entries.get? "components" root with
      | none => .ok ⟨root, paths, none⟩
      | some c => (Components.ofJson c).map fun components => ⟨root, paths, some components⟩
  | _ => .error (.invalidDocument "document must be an object")

/-- The document that a text holds. What is wrong with a text that holds no value is not told
apart. -/
def ofText (text : String) : Except CompileError Document :=
  match Json.ofYaml? text with
  | some v => ofJson v
  | none => .error (.invalidDocument "(yaml diagnostic)")

/-- The security of operations that declare none. -/
def security? (d : Document) : Option Json := Entries.get? "security" d.root

/-- The whole document as a value. -/
def toJson (d : Document) : Json := .object d.root

/-- What a path declares. -/
def pathItem? (d : Document) (path : String) : Option (Entries Json) :=
  (Entries.get? path d.paths).bind Json.object?

/-- What an operation declares. Methods do not depend on case. -/
def operation (d : Document) (path method : String) : Except CompileError (Entries Json) :=
  let method := method.toLower
  match ((d.pathItem? path).bind (Entries.get? method)).bind Json.object? with
  | some members => .ok members
  | none => .error (.unknownOperation method path)

/-- The operations of a path. -/
def methodsOf (path : String) (item : Json) : List OperationRef :=
  match item with
  | .object members =>
    ((Entries.keys members).filter httpMethods.contains).map fun method => ⟨path, method⟩
  | _ => []

/-- Every declared operation, by path and then by method. -/
def operations (d : Document) : List OperationRef :=
  (d.paths.flatMap fun (path, item) => methodsOf path item).mergeSort OperationRef.before

end Document

end SchemaGate
