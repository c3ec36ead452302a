/-!
# Faults of a document

Why a schema, a security requirement or an operation cannot be compiled. All are fatal: they
are faults of the document, not of a request.

* `CompileError.message` says in words what is wrong;
* `CompileError.explain` adds the reason of a compiler of patterns. It depends on the pattern alone,
  so that a fault keeps the pattern and not the reason.
-/

namespace SchemaGate

/-- A fault of a document. -/
inductive CompileError where
  | missingComponents
  | malformedRef (reference : String)
  | unresolvedRef (reference : String)
  | cyclicRef (reference : String)
  | missingType
  | unknownType (type : String)
  | unknownFormat (kind format : String)
  | invalidKeyword (keyword reason : String)
  | invalidPattern (pattern : String)
  | discriminator (reason : String)
  | missingSecuritySchemes
  | undeclaredSecurityScheme (name : String)
  | unsupportedSecurityScheme (name reason : String)
  | missingDecoder (mediaType : String)
  | invalidParameter (reason : String)
  | unknownOperation (method path : String)
  | invalidDocument (reason : String)
  deriving DecidableEq

namespace CompileError

/-- A fault in words, as far as the document tells. -/
def message : CompileError → String
  | missingComponents => "file with components definitions is missing"
  | malformedRef r => s!"malformed $ref '{r}'"
  | unresolvedRef r => s!"unresolved $ref '{r}'"
  | cyclicRef r => s!"cyclic $ref '{r}'"
  | missingType => "type is required"
  | unknownType t => s!"unknown type '{t}'"
  | unknownFormat kind format => s!"unknown {kind} format '{format}'"
  | invalidKeyword keyword reason => s!"invalid '{keyword}': {reason}"
  | invalidPattern p => s!"invalid pattern '{p}'"
  | discriminator reason => s!"invalid discriminator: {reason}"
  | missingSecuritySchemes => "securitySchemes must be defined in components"
  | undeclaredSecurityScheme name => s!"security schema {name} must be defined in components"
  | unsupportedSecurityScheme name reason => s!"unsupported security scheme '{name}': {reason}"
  | missingDecoder mediaType => s!"register handler for {mediaType} first"
  | invalidParameter reason => s!"invalid parameter: {reason}"
  | unknownOperation method path => s!"no operation {method} {path} in document"
  | invalidDocument reason => s!"invalid document: {reason}"

/-- What stands for the reasons of the compiler of patterns where nobody gives them. -/
def unknownReason (_pattern : String) : String := "(pattern diagnostic)"

/-- A fault in words, with the reason why a pattern is none. That reason is in the words of the
compiler of patterns, and `diagnose` says what it is for a pattern. -/
def explain (diagnose : String → String) : CompileError → String
  | invalidPattern p => (invalidPattern p).message ++ ": " ++ diagnose p
  | e => e.message

end CompileError

end SchemaGate
