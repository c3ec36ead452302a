import SchemaGate.Request.Operation

/-!
# Reports on a document

Which operations of a document do not compile, and why. Unlike a table of operations, a report
goes on behind the first fault.

* `Document.check` compiles every operation on its own;
* `CheckReport.render` writes a line for each fault, and one that counts. It is told how the compiler
  of patterns words its reasons.
-/

namespace SchemaGate

/-- What compiling each operation of a document found. -/
structure CheckReport where
  total : Nat
  faults : List (OperationRef × CompileError)

namespace CheckReport

/-- How many operations compile. -/
def compiled (r : CheckReport) : Nat := r.total - r.faults.length

/-- Whether all operations compile. -/
def isClean (r : CheckReport) : Bool := r.faults.isEmpty

/-- The line of a fault. -/
def faultLine (diagnose : String → String) (ref : OperationRef) (e : CompileError) : String :=
  "  FAIL: " ++ ref.method.toUpper ++ " " ++ ref.path ++ ": " ++ e.explain diagnose ++ "\n"

/-- The report as text: the faults in order, then the count. -/
def render (diagnose : String → String) (r : CheckReport) : String :=
  String.join (r.faults.map fun (ref, e) => faultLine diagnose ref e)
    ++ s!"Operations: {r.compiled}/{r.total} compiled\n"

end CheckReport

/-- The fault of an operation, if it does not compile. -/
def OperationRef.fault? (tools : Toolkit) (d : Document) (ref : OperationRef) :
    Option CompileError :=
  match Operation.compile tools d ref.path ref.method with
  | .ok _ => none
  | .error e => some e

/-- Compiles every operation of a document and collects the faults. -/
def Document.check (d : Document) (tools : Toolkit) : CheckReport where
  total := d.operations.length
  faults := d.operations.filterMap fun ref => (ref.fault? tools d).map fun e => (ref, e)

end SchemaGate
