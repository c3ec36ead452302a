import SchemaGate.Decimal.Literal
import SchemaGate.ErrorTree
import SchemaGate.Schema.Validator

/-!
# Validation of scalars

What integers, numbers, strings and booleans must satisfy. All four first settle inputs that are
absent or null (`Common.settle`); only then the kind of the value counts. Raw inputs are texts
from a request, of which numbers and booleans may be read.

The order of the checks decides which complaint is made: width, members, lower limit and upper
limit for numbers; lengths, members, format and pattern for strings.
-/

namespace SchemaGate

/-- The complaint that an input is of the wrong kind. -/
def typeError (type : String) : ErrorTree := .message ("value should be type of " ++ type)

/-- What is left to do with an input: nothing, or to check a value that is neither absent nor
null. -/
inductive Stage where
  | done (output : Field)
  | check (input : Field)

namespace Common

/-- Puts the default in the place of an absent input. -/
def substitute (c : Common) (input : Field) : Field :=
  match input with
  | .absent => Field.ofOption c.default?
  | f => f

/-- Settles absent and null inputs of a node that knows its type. -/
def settle (c : Common) (type : String) (input : Field) : Except ErrorTree Stage :=
  let input := c.substitute input
  if input.isAbsent then .ok (.done .absent)
  else if input.isNull then
    if c.nullable then .ok (.done .null) else .error (typeError type)
  else .ok (.check input)

end Common

/-! ## Limits and members -/

namespace Limit

/-- Whether a number is above the limit, or on it where that is allowed. -/
def admitsAbove (l : Limit) (n : Number) : Bool :=
  match n.compare l.value with
  | .gt => true
  | .eq => !l.exclusive
  | .lt => false

/-- Whether a number is below the limit, or on it where that is allowed. -/
def admitsBelow (l : Limit) (n : Number) : Bool :=
  match n.compare l.value with
  | .lt => true
  | .eq => !l.exclusive
  | .gt => false

/-- The words for a limit after `more` or `less`. -/
def phrase (l : Limit) : String :=
  " than" ++ (if l.exclusive then "" else " or equal to") ++ " " ++ l.value.render

end Limit

/-- Checks that hold for an input or complain about it, one after the other. -/
def checkAll : List (Bool × ErrorTree) → Except ErrorTree Unit
  | [] => .ok ()
  | (holds, error) :: rest => if holds then checkAll rest else .error error

/-- The complaint that a value is none of the members. -/
def memberError (members : List Json) : ErrorTree :=
  .message ("value should be one of [" ++ String.intercalate ", " (members.map Json.render) ++ "]")

/-- Whether some member is this number. -/
def hasNumber (members : List Json) (n : Number) : Bool :=
  members.any fun m => m.number?.any fun k => n.compare k == .eq

/-- The check of a number against members. -/
def numberMembers (members : Option (List Json)) (n : Number) : List (Bool × ErrorTree) :=
  match members with
  | none => []
  | some ms => [(hasNumber ms n, memberError ms)]

/-- The checks of a number against limits. -/
def numberLimits (minimum maximum : Option Limit) (n : Number) : List (Bool × ErrorTree) :=
  (match minimum with
    | none => []
    | some l => [(l.admitsAbove n, .message ("value should be more" ++ l.phrase))]) ++
  (match maximum with
    | none => []
    | some l => [(l.admitsBelow n, .message ("value should be less" ++ l.phrase))])

/-! ## Integers -/

namespace IntegerRule

/-- Whether an integer fits 32 bits with a sign. -/
def fits32 (n : Int) : Bool := -0x80000000 ≤ n && n < 0x80000000

/-- The integer that an input holds, or that a raw text spells. -/
def read (input : Field) (raw : Bool) : Option WideInt :=
  match input with
  | .value (.number (.int n)) => some n
  | .value (.string s) =>
    if raw then (Decimal.integer? (Text.trimChars s.toList)).bind WideInt.ofInt? else none
  | _ => none

/-- The checks of an integer. -/
def checks (r : IntegerRule) (n : WideInt) : List (Bool × ErrorTree) :=
  (if r.format = some .int32 then [(fits32 n.val, .message "value out of bounds int32")]
    else []) ++
  numberMembers r.members (.int n) ++ numberLimits r.minimum r.maximum (.int n)

/-- Validates an integer. -/
def validate (r : IntegerRule) (input : Field) (raw : Bool) : Except ErrorTree Field :=
  match r.common.settle "int" input with
  | .error e => .error e
  | .ok (.done output) => .ok output
  | .ok (.check input) =>
    match read input raw with
    | none => .error (typeError "int")
    | some n =>
      match checkAll (r.checks n) with
      | .error e => .error e
      | .ok () => .ok (.value (.number (.int n)))

end IntegerRule

/-! ## Numbers -/

namespace NumberRule

/-- The floating-point number that an input holds, or that a raw text spells. -/
def read (input : Field) (raw : Bool) : Option Binary64 :=
  match input with
  | .value (.number n) => some n.toBinary64
  | .value (.string s) => if raw then Decimal.float? (Text.trimChars s.toList) else none
  | _ => none

/-- The checks of a number. -/
def checks (r : NumberRule) (x : Binary64) : List (Bool × ErrorTree) :=
  numberMembers r.members (.float x) ++ numberLimits r.minimum r.maximum (.float x)

/-- Validates a number. Integers become floating-point numbers. -/
def validate (r : NumberRule) (input : Field) (raw : Bool) : Except ErrorTree Field :=
  match r.common.settle "float" input with
  | .error e => .error e
  | .ok (.done output) => .ok output
  | .ok (.check input) =>
    match read input raw with
    | none => .error (typeError "float")
    | some x =>
      match checkAll (r.checks x) with
      | .error e => .error e
      | .ok () => .ok (.value (.number (.float x)))

end NumberRule

/-! ## Strings -/

namespace StringRule

/-- The formats whose values may be binary payloads. -/
def binaryFormats : List String := ["binary", "password", "byte"]

/-- Whether a binary payload is allowed. -/
def acceptsBinary (r : StringRule) : Bool := r.format.any binaryFormats.contains

/-- The pattern, which does not count for the binary format. -/
def activePattern (r : StringRule) : Option Pattern :=
  if r.format = some "binary" then none else r.pattern

/-- The checks of a text. Lengths count characters. -/
def checks (r : StringRule) (s : String) : List (Bool × ErrorTree) :=
  (match r.minLength with
    | none => []
    | some k => [(decide (k ≤ s.length),
        .message ("value length should be more than " ++ toString k))]) ++
  (match r.maxLength with
    | none => []
    | some k => [(decide (s.length ≤ k),
        .message ("value length should be less than " ++ toString k))]) ++
  (match r.members with
    | none => []
    | some ms => [(ms.any fun m => m.string? == some s, memberError ms)]) ++
  (match r.check.bind fun c => c.complaint s with
    | none => []
    | some complaint => [(false, .message complaint)]) ++
  (match r.activePattern with
    | none => []
    | some p => [(p.occursIn s,
        .message ("value should match regex pattern '" ++ p.source ++ "'"))])

/-- Validates a string. Raw texts are treated like any other. -/
def validate (r : StringRule) (input : Field) : Except ErrorTree Field :=
  match r.common.settle "str" input with
  | .error e => .error e
  | .ok (.done output) => .ok output
  | .ok (.check (.binary payload)) =>
    if r.acceptsBinary then .ok (.binary payload) else .error (typeError "str")
  | .ok (.check (.value (.string s))) =>
    match checkAll (r.checks s) with
    | .error e => .error e
    | .ok () => .ok (.value (.string s))
  | .ok (.check _) => .error (typeError "str")

end StringRule

/-! ## Booleans -/

namespace Common

/-- The truth value that an input holds, or that a raw text spells. -/
def readBool (input : Field) (raw : Bool) : Option Bool :=
  match input with
  | .value (.bool b) => some b
  | .value (.string s) =>
    if raw then if s = "true" then some true else if s = "false" then some false else none
    else none
  | _ => none

/-- Validates a boolean. -/
def validateBool (c : Common) (input : Field) (raw : Bool) : Except ErrorTree Field :=
  match c.settle "bool" input with
  | .error e => .error e
  | .ok (.done output) => .ok output
  | .ok (.check input) =>
    match readBool input raw with
    | none => .error (typeError "bool")
    | some b => .ok (.value (.bool b))

end Common

end SchemaGate
