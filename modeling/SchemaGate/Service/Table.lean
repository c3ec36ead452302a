import SchemaGate.Request.Bind

/-!
# Tables of operations

Every operation of a document, compiled. A table is whole or not there at all: the first fault is
the answer.
-/

namespace SchemaGate

/-- The compiled operations of a document. -/
structure OperationTable where
  operations : List Operation

namespace OperationTable

/-- Compiles every operation of a document. -/
def compile (tools : Toolkit) (d : Document) : Except CompileError OperationTable :=
  (d.operations.mapM fun ref => Operation.compile tools d ref.path ref.method).map .mk

/-- The operation for a method, in any case, and a path. -/
def get? (t : OperationTable) (method path : String) : Option Operation :=
  t.operations.find? fun o => o.method == method.toLower && o.path == path

/-- How many operations there are. -/
def size (t : OperationTable) : Nat := t.operations.length

/-- Whether there is no operation. -/
def isEmpty (t : OperationTable) : Bool := t.operations.isEmpty

end OperationTable

end SchemaGate
