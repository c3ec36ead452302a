import SchemaGate.Schema.Keyword

/-!
# What keywords depend on

Reading the keywords of a schema follows no reference, so it can fail, but not because of a cycle:
no reader ends in `CompileError.cyclicRef` (`Keyword.Plain`).

Nor does it look at the schemas below: all readers answer alike for members that differ in these
only (`Keyword.SameOwn`). But a discriminator asks its branches for their names.
-/

namespace SchemaGate.Keyword

/-- The result is no report of a cycle. -/
def Plain {α : Type} (x : Except CompileError α) : Prop :=
  ∀ r, x ≠ .error (.cyclicRef r)

/-! ## Results put together -/

section

variable {α β : Type}

theorem plain_ok (a : α) : Plain (.ok a : Except CompileError α) := by
  intro r h
  cases h

theorem plain_error {e : CompileError} (he : ∀ r, e ≠ .cyclicRef r) :
    Plain (.error e : Except CompileError α) := by
  intro r h
  cases h
  exact he r rfl

theorem plain_invalid (keyword reason : String) :
    Plain (invalid keyword reason : Except CompileError α) := by
  apply plain_error
  intro r h
  cases h

theorem Plain.bind {x : Except CompileError α} {k : α → Except CompileError β} (hx : Plain x)
    (hk : ∀ a, Plain (k a)) : Plain (x >>= k) := by
  intro r h
  cases x with
  | error e =>
      cases h
      exact hx r rfl
  | ok a => exact hk a r h

theorem Plain.map {x : Except CompileError α} (hx : Plain x) (f : α → β) : Plain (x.map f) := by
  intro r h
  cases x with
  | error e =>
      cases h
      exact hx r rfl
  | ok a => cases h

end

/-! ## Single keywords -/

section

variable (members : Entries Json)

theorem plain_flag (keyword : String) : Plain (flag members keyword) := by
  unfold flag
  split
  · exact plain_ok _
  · exact plain_ok _
  · exact plain_invalid _ _

theorem plain_count (keyword : String) : Plain (count members keyword) := by
  unfold count
  split
  · exact plain_ok _
  · split
    · exact plain_ok _
    · exact plain_invalid _ _

theorem plain_text (keyword : String) : Plain (text members keyword) := by
  unfold text
  split
  · exact plain_ok _
  · exact plain_ok _
  · exact plain_invalid _ _

theorem plain_enumeration : Plain (enumeration members) := by
  unfold enumeration
  split
  · exact plain_ok _
  · exact plain_ok _
  · exact plain_invalid _ _

theorem plain_limit (keyword exclusive : String) : Plain (limit members keyword exclusive) := by
  unfold limit
  extract_lets overrule
  have hoverrule : ∀ inclusive, Plain (overrule inclusive) := by
    intro inclusive
    unfold overrule
    split
    · exact plain_ok _
    · exact plain_ok _
    · exact plain_ok _
    · exact plain_invalid _ _
  split
  · exact (plain_ok _).bind hoverrule
  · exact (plain_ok _).bind hoverrule
  · exact (plain_invalid _ _).bind hoverrule

theorem plain_common : Plain (common members) := by
  unfold common
  refine (plain_flag members "nullable").bind fun nullable => ?_
  refine (plain_flag members "readOnly").bind fun readOnly => ?_
  exact plain_ok _

theorem plain_required : Plain (required members) := by
  unfold required
  split
  · exact plain_ok _
  · split
    · exact plain_ok _
    · exact plain_invalid _ _
  · exact plain_invalid _ _

/-! ## Rules -/

theorem plain_numericFormat {α : Type} (kind : String) (known : String → Option α) :
    Plain (numericFormat kind known members) := by
  unfold numericFormat
  refine (plain_text members "format").bind fun format => ?_
  split
  · exact plain_ok _
  · split
    · exact plain_ok _
    · exact plain_error (by simp)

theorem plain_integerRule (common : Common) : Plain (integerRule common members) := by
  unfold integerRule
  refine (plain_numericFormat members _ _).bind fun format => ?_
  refine (plain_limit members _ _).bind fun minimum => ?_
  refine (plain_limit members _ _).bind fun maximum => ?_
  exact (plain_enumeration members).bind fun values => plain_ok _

theorem plain_numberRule (common : Common) : Plain (numberRule common members) := by
  unfold numberRule
  refine (plain_numericFormat members _ _).bind fun format => ?_
  refine (plain_limit members _ _).bind fun minimum => ?_
  refine (plain_limit members _ _).bind fun maximum => ?_
  exact (plain_enumeration members).bind fun values => plain_ok _

theorem plain_pattern : Plain (pattern members) := by
  unfold pattern
  refine (plain_text members "pattern").bind fun source => ?_
  split
  · exact plain_ok _
  · split
    · exact plain_ok _
    · exact plain_error (by simp)

theorem plain_stringRule (formats : FormatRegistry) (common : Common) :
    Plain (stringRule formats common members) := by
  unfold stringRule
  refine (plain_text members "format").bind fun format => ?_
  refine (plain_pattern members).bind fun pattern => ?_
  refine (plain_count members "minLength").bind fun minLength => ?_
  refine (plain_count members "maxLength").bind fun maxLength => ?_
  exact (plain_enumeration members).bind fun values => plain_ok _

theorem plain_arrayRule (common : Common) : Plain (arrayRule common members) := by
  unfold arrayRule
  refine (plain_count members "minItems").bind fun minItems => ?_
  refine (plain_count members "maxItems").bind fun maxItems => ?_
  exact (plain_flag members "uniqueItems").bind fun uniqueItems => plain_ok _

theorem plain_objectRule (common : Common) (required : List String) :
    Plain (objectRule common required members) := by
  unfold objectRule
  refine (plain_count members "minProperties").bind fun minProperties => ?_
  exact (plain_count members "maxProperties").bind fun maxProperties => plain_ok _

/-! ## Discriminators -/

theorem plain_mappedTargets (names : List (Option String)) (targets : Entries Nat)
    (mapping : Entries Json) : Plain (mappedTargets names targets mapping) := by
  induction mapping generalizing targets with
  | nil => exact plain_ok _
  | cons m rest ih =>
      unfold mappedTargets
      split
      · exact plain_error (by simp)
      · split
        · exact ih _
        · exact plain_error (by simp)

theorem plain_discriminatorOf (definition : Json) (branches : List Json) :
    Plain (discriminatorOf definition branches) := by
  unfold discriminatorOf
  extract_lets names named
  have hnamed : ∀ property, Plain (named property) := by
    intro property
    unfold named
    extract_lets chosen
    have hchosen : ∀ targets, Plain (chosen targets) := by
      intro targets
      unfold chosen
      split
      · exact plain_error (by simp)
      · exact plain_ok _
    split
    · exact (plain_ok _).bind hchosen
    · exact (plain_mappedTargets _ _ _).bind hchosen
    · exact Plain.bind (plain_error (by simp)) hchosen
  split
  · exact (plain_ok _).bind hnamed
  · exact Plain.bind (plain_error (by simp)) hnamed

theorem plain_discriminator (branches : List Json) : Plain (discriminator members branches) := by
  unfold discriminator
  split
  · exact plain_ok _
  · exact (plain_discriminatorOf _ branches).map some

end

/-! ## Members that differ in the schemas below -/

/-- The keywords that hold the schemas below a schema. -/
def places : List String :=
  ["oneOf", "anyOf", "allOf", "items", "properties", "additionalProperties"]

/-- The members are the same but for the schemas below. -/
def SameOwn (members other : Entries Json) : Prop :=
  ∀ keyword ∉ places, Entries.get? keyword other = Entries.get? keyword members

section

variable {members other : Entries Json} (h : SameOwn members other)

include h

theorem common_congr : common other = common members := by
  simp only [common, flag, h "nullable" (by decide), h "readOnly" (by decide),
    h "default" (by decide)]

theorem required_congr : required other = required members := by
  simp only [required, h "required" (by decide)]

theorem numericFormat_congr {α : Type} (kind : String) (known : String → Option α) :
    numericFormat kind known other = numericFormat kind known members := by
  simp only [numericFormat, text, h "format" (by decide)]

theorem enumeration_congr : enumeration other = enumeration members := by
  simp only [enumeration, h "enum" (by decide)]

theorem minimum_congr :
    limit other "minimum" "exclusiveMinimum" = limit members "minimum" "exclusiveMinimum" := by
  simp only [limit, h "minimum" (by decide), h "exclusiveMinimum" (by decide)]

theorem maximum_congr :
    limit other "maximum" "exclusiveMaximum" = limit members "maximum" "exclusiveMaximum" := by
  simp only [limit, h "maximum" (by decide), h "exclusiveMaximum" (by decide)]

theorem integerRule_congr (common : Common) :
    integerRule common other = integerRule common members := by
  simp only [integerRule, numericFormat_congr h, minimum_congr h, maximum_congr h,
    enumeration_congr h]

theorem numberRule_congr (common : Common) :
    numberRule common other = numberRule common members := by
  simp only [numberRule, numericFormat_congr h, minimum_congr h, maximum_congr h,
    enumeration_congr h]

theorem stringRule_congr (formats : FormatRegistry) (common : Common) :
    stringRule formats common other = stringRule formats common members := by
  simp only [stringRule, pattern, text, count, enumeration_congr h, h "format" (by decide),
    h "pattern" (by decide), h "minLength" (by decide), h "maxLength" (by decide)]

theorem arrayRule_congr (common : Common) :
    arrayRule common other = arrayRule common members := by
  simp only [arrayRule, count, flag, h "minItems" (by decide), h "maxItems" (by decide),
    h "uniqueItems" (by decide)]

theorem objectRule_congr (common : Common) (required : List String) :
    objectRule common required other = objectRule common required members := by
  simp only [objectRule, count, h "minProperties" (by decide), h "maxProperties" (by decide)]

/-- Of its branches a discriminator knows the names only, and nothing if there is none. -/
theorem discriminator_congr {branches others : List Json}
    (hnames : Entries.get? "discriminator" members = none ∨
      others.map branchName = branches.map branchName) :
    discriminator other others = discriminator members branches := by
  unfold discriminator
  rw [h "discriminator" (by decide)]
  rcases hnames with hnone | hnames
  · rw [hnone]
  · simp only [discriminatorOf, hnames]

end

end SchemaGate.Keyword
