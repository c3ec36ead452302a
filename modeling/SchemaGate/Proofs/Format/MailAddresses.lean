import Mathlib
import SchemaGate.Format.Registry
import SchemaGate.Proofs.Lists
import SchemaGate.Proofs.Pattern.Reading

/-!
# Which texts are taken for mail addresses

The format looks for a pattern with three repetitions, each of which may stop anywhere before an
at sign. What the pattern takes can therefore be cut up in many ways, and nothing ties it to the
end of the text. All of these cuts come to one look at the text between the first at sign and the
next: a dot has to stand inside it.

* `Address.isEmail_iff_opens`: the pattern as three runs with a mark between them;
* `Address.Domain`: the text between the first at sign and the next, and `Address.Domain.unique`:
  there is no other;
* `Address.opens_iff`: some cut exists if a dot stands inside the domain;
* `FormatRegistry.builtin_email_reads_domain`: this is the format that is registered, and nothing
  behind the domain matters to it.
-/

namespace SchemaGate

namespace Address

variable {cs ds name domain rest : List Char}

/-! ## The pattern -/

/-- A run of characters other than the at sign. -/
structure Run (cs : List Char) : Prop where
  nonempty : cs ≠ []
  noMark : '@' ∉ cs

/-- A text that begins with three runs. The marks between them are an at sign and a dot. -/
inductive Opens : List Char → Prop
  | of {name host top rest : List Char} : Run name → Run host → Run top →
      Opens (name ++ '@' :: (host ++ '.' :: (top ++ rest)))

/-- A repetition in the pattern of mail addresses. -/
def run : Expr := .times (.char (.complement (.unions [.single '@']))) 1 none

/-- The pattern of mail addresses behind its first mark. -/
def threeRuns : Expr :=
  .seq run (.seq (.char (.single '@')) (.seq run (.seq (.char (.single '.')) run)))

theorem emailPattern?_eq :
    emailPattern? = some ⟨"^[^@]+@[^@]+\\.[^@]+", .seq (.look .textStart) threeRuns⟩ := by
  cbv

theorem holds_other_iff {d : Char} :
    (CharSet.complement (.unions [.single '@'])).holds d.toNat = true ↔ d ≠ '@' := by
  have hsingle : (CharSet.single '@').holds d.toNat = true ↔ d = '@' := CharSet.holds_single_iff
  rw [ne_eq, ← hsingle]
  simp [CharSet.holds, CharSet.unions]

variable {p q : Place}

theorem matches_run_iff : run.Matches p q ↔ ∃ cs, Run cs ∧ p.Over cs q := by
  have hrun : ∀ cs, Run cs ↔ 1 ≤ cs.length ∧
      ∀ c ∈ cs, (CharSet.complement (.unions [.single '@'])).holds c.toNat = true := by
    intro cs
    simp only [holds_other_iff, Nat.one_le_iff_ne_zero, ne_eq, List.length_eq_zero_iff]
    constructor
    · rintro ⟨hne, hmark⟩
      exact ⟨hne, fun c hc => ne_of_mem_of_not_mem hc hmark⟩
    · rintro ⟨hne, hother⟩
      exact ⟨hne, fun hmark => hother '@' hmark rfl⟩
  simp only [run, Expr.matches_times_char_iff, hrun]

/-- The pattern behind its first mark goes over a name, an at sign, a host, a dot and one more run.
-/
theorem matches_threeRuns_iff :
    threeRuns.Matches p q ↔ ∃ name host top, Run name ∧ Run host ∧ Run top ∧
      p.Over (name ++ '@' :: (host ++ '.' :: top)) q := by
  simp only [threeRuns, Expr.matches_seq_iff, matches_run_iff, Expr.matches_single_iff]
  constructor
  · rintro ⟨p₁, ⟨name, hname, h₁⟩, p₂, h₂, p₃, ⟨host, hhost, h₃⟩, p₄, h₄, top, htop, h₅⟩
    exact ⟨name, host, top, hname, hhost, htop, h₁.trans (h₂.trans (h₃.trans (h₄.trans h₅)))⟩
  · rintro ⟨name, host, top, hname, hhost, htop, hover⟩
    obtain ⟨p₁, h₁, hover⟩ := Place.over_append_iff.mp hover
    obtain ⟨p₂, h₂, hover⟩ := Place.over_cons_iff.mp hover
    obtain ⟨p₃, h₃, hover⟩ := Place.over_append_iff.mp hover
    obtain ⟨p₄, h₄, h₅⟩ := Place.over_cons_iff.mp hover
    exact ⟨p₁, ⟨name, hname, h₁⟩, p₂, h₂, p₃, ⟨host, hhost, h₃⟩, p₄, h₄, top, htop, h₅⟩

/-- The pattern occurs in a text that begins with three runs, whatever comes behind them. -/
theorem isEmail_iff_opens : isEmail cs = true ↔ Opens cs := by
  have hpattern := Pattern.occursIn_iff_of_textStart (String.ofList cs) emailPattern?_eq rfl
  rw [isEmail, emailPattern?_eq, Option.any_some, hpattern, String.toList_ofList]
  simp only [matches_threeRuns_iff]
  constructor
  · rintro ⟨stop, name, host, top, hname, hhost, htop, hover⟩
    obtain rfl : cs = name ++ '@' :: (host ++ '.' :: top) ++ stop.after := hover.after_eq
    rw [List.append_assoc, List.cons_append, List.append_assoc, List.cons_append]
    exact .of hname hhost htop
  · rintro @⟨name, host, top, rest, hname, hhost, htop⟩
    have hcs : name ++ '@' :: (host ++ '.' :: (top ++ rest)) =
        name ++ '@' :: (host ++ '.' :: top) ++ rest := by simp
    obtain ⟨before, hover⟩ := Place.exists_over (p := ⟨none, _⟩) hcs
    exact ⟨_, name, host, top, hname, hhost, htop, hover⟩

theorem Opens.append (h : Opens cs) (ds : List Char) : Opens (cs ++ ds) := by
  obtain @⟨name, host, top, rest, hname, hhost, htop⟩ := h
  have hcs : name ++ '@' :: (host ++ '.' :: (top ++ rest)) ++ ds =
      name ++ '@' :: (host ++ '.' :: (top ++ (rest ++ ds))) := by simp
  rw [hcs]
  exact .of hname hhost htop

/-! ## The domain -/

/-- The text between the first at sign and the next, or the end where there is no other. -/
inductive Domain : List Char → List Char → Prop
  | of {name domain rest : List Char} : '@' ∉ name → '@' ∉ domain → (∀ c ∈ rest.head?, c = '@') →
      Domain (name ++ '@' :: (domain ++ rest)) domain

/-- The domain is found by looking for one at sign and then for the other. -/
theorem Domain.eq_takeWhile (h : Domain cs domain) :
    domain = ((cs.dropWhile (· != '@')).drop 1).takeWhile (· != '@') := by
  obtain @⟨name, domain, rest, hname, hdomain, hrest⟩ := h
  rw [dropWhile_bne_eq hname, List.drop_one, List.tail_cons]
  cases rest with
  | nil => rw [List.append_nil, List.takeWhile_eq_self_iff.mpr (bne_of_not_mem hdomain)]
  | cons c rest =>
      obtain rfl : c = '@' := hrest c rfl
      rw [takeWhile_bne_eq hdomain]

theorem Domain.unique {domain' : List Char} (h : Domain cs domain) (h' : Domain cs domain') :
    domain = domain' :=
  h.eq_takeWhile.trans h'.eq_takeWhile.symm

/-- A dot that is neither the first nor the last character. -/
def HasInnerDot (cs : List Char) : Prop :=
  ∃ front back, front ≠ [] ∧ back ≠ [] ∧ front ++ '.' :: back = cs

/-- A text that is taken for a mail address: there is an at sign, but not at the start, and a dot
inside the domain. -/
structure MailText (cs : List Char) : Prop where
  mark : '@' ∈ cs
  start : cs.head? ≠ some '@'
  dot : ∃ domain, Domain cs domain ∧ HasInnerDot domain

/-- Of a text that has been taken apart, only the name and the domain are looked at. -/
theorem mailText_iff (hname : '@' ∉ name) (hdomain : '@' ∉ domain)
    (hrest : ∀ c ∈ rest.head?, c = '@') :
    MailText (name ++ '@' :: (domain ++ rest)) ↔ name ≠ [] ∧ HasInnerDot domain := by
  have hhere : Domain (name ++ '@' :: (domain ++ rest)) domain := .of hname hdomain hrest
  have hhead : (name ++ '@' :: (domain ++ rest)).head? ≠ some '@' ↔ name ≠ [] := by
    cases name with
    | nil => simp
    | cons c name => simpa using fun hc => hname (by simp [hc])
  constructor
  · rintro ⟨-, hstart, domain', hdomain', hdot⟩
    exact ⟨hhead.mp hstart, hhere.unique hdomain' ▸ hdot⟩
  · rintro ⟨hne, hdot⟩
    exact ⟨by simp, hhead.mpr hne, domain, hhere, hdot⟩

/-- The runs of the pattern can be cut somewhere if a dot stands inside the domain. The last run
may then go on behind the domain's end, where nothing depends on it. -/
theorem opens_iff : Opens cs ↔ MailText cs := by
  constructor
  · rintro @⟨name, host, top, rest, hname, hhost, htop⟩
    -- the domain ends where the rest comes to an at sign
    have hsplit : rest.takeWhile (· != '@') ++ rest.dropWhile (· != '@') = rest :=
      List.takeWhile_append_dropWhile
    have hdomain : '@' ∉ host ++ '.' :: (top ++ rest.takeWhile (· != '@')) := by
      intro hmem
      simp only [List.mem_append, List.mem_cons, hhost.noMark, htop.noMark, false_or] at hmem
      rcases hmem with hdot | hmem
      · exact absurd hdot (by decide)
      · simpa using List.mem_takeWhile_imp hmem
    have hrest : ∀ c ∈ (rest.dropWhile (· != '@')).head?, c = '@' := by
      intro c hc
      have hstop := List.head?_dropWhile_not (· != '@') rest
      rw [Option.mem_def.mp hc] at hstop
      simpa using hstop
    have hcs : name ++ '@' :: (host ++ '.' :: (top ++ rest)) = name ++ '@' ::
        (host ++ '.' :: (top ++ rest.takeWhile (· != '@')) ++ rest.dropWhile (· != '@')) := by
      simp [hsplit]
    rw [hcs, mailText_iff hname.noMark hdomain hrest]
    exact ⟨hname.nonempty, host, _, hhost.nonempty, by simp [htop.nonempty], rfl⟩
  · rintro ⟨-, hstart, _, @⟨name, _, rest, hname, hdomain, -⟩, front, back, hfront, hback, rfl⟩
    have hne : name ≠ [] := by
      rintro rfl
      exact hstart rfl
    simp only [List.mem_append, List.mem_cons, not_or] at hdomain
    have hcs : name ++ '@' :: (front ++ '.' :: back ++ rest) =
        name ++ '@' :: (front ++ '.' :: (back ++ rest)) := by simp
    rw [hcs]
    exact .of ⟨hne, hname⟩ ⟨hfront, hdomain.1⟩ ⟨hback, hdomain.2.2⟩

theorem isEmail_iff : isEmail cs = true ↔ MailText cs := isEmail_iff_opens.trans opens_iff

example : isEmail "a@b..".toList = true := by cbv

example : isEmail "a@b@c.d".toList = false := by cbv

/-- Once a text is taken for a mail address, more text behind it does not change that. -/
theorem isEmail_append (h : isEmail cs = true) (ds : List Char) : isEmail (cs ++ ds) = true :=
  isEmail_iff_opens.mpr ((isEmail_iff_opens.mp h).append ds)

/-- What stands behind the second at sign makes no difference, nor does this sign. -/
theorem isEmail_marked (hname : '@' ∉ name) (hdomain : '@' ∉ domain) (more : List Char) :
    isEmail (name ++ '@' :: (domain ++ '@' :: more)) = isEmail (name ++ '@' :: domain) := by
  have hmarked : isEmail (name ++ '@' :: (domain ++ '@' :: more)) = true ↔
      name ≠ [] ∧ HasInnerDot domain :=
    isEmail_iff.trans (mailText_iff hname hdomain (by simp))
  have hended : isEmail (name ++ '@' :: (domain ++ [])) = true ↔ name ≠ [] ∧ HasInnerDot domain :=
    isEmail_iff.trans (mailText_iff hname hdomain (by simp))
  rw [List.append_nil] at hended
  exact Bool.eq_iff_iff.mpr (hmarked.trans hended.symm)

end Address

/-! ## Formats -/

namespace FormatCheck

variable {name text s : String} {test : List Char → Bool}

theorem complaint_ofTest_eq_none_iff :
    (ofTest name text test).complaint s = none ↔ test s.toList = true := by
  simp [ofTest]

theorem complaint_ofTest_eq_some_iff :
    (ofTest name text test).complaint s = some text ↔ ¬ test s.toList = true := by
  simp [ofTest]

theorem complaint_ofTest_congr {t : String} (h : test s.toList = test t.toList) :
    (ofTest name text test).complaint s = (ofTest name text test).complaint t := by
  simp [ofTest, h]

end FormatCheck

namespace FormatRegistry

open Address (MailText)

/-- The format of mail addresses accepts a text if a dot stands inside its domain, and complains of
every other in its own words. What follows the domain is never looked at: no text behind an
accepted one spoils it, and no text behind a second at sign changes the answer. -/
theorem builtin_email_reads_domain :
    ∃ check, builtin.get? "email" = some check ∧
      (∀ s, (check.complaint s = none ↔ MailText s.toList) ∧
        (check.complaint s = some "value should be valid email" ↔ ¬ MailText s.toList)) ∧
      (∀ s more, check.complaint s = none → check.complaint (s ++ more) = none) ∧
      ∀ name domain more : String, '@' ∉ name.toList → '@' ∉ domain.toList →
        check.complaint (name ++ "@" ++ domain ++ "@" ++ more) =
          check.complaint (name ++ "@" ++ domain) := by
  have hmail : builtin.get? "email" =
      some (.ofTest "email" "value should be valid email" Address.isEmail) := by
    cbv
  refine ⟨_, hmail, ?_, ?_, ?_⟩
  · intro s
    rw [← Address.isEmail_iff]
    exact ⟨FormatCheck.complaint_ofTest_eq_none_iff, FormatCheck.complaint_ofTest_eq_some_iff⟩
  · intro s more hs
    rw [FormatCheck.complaint_ofTest_eq_none_iff] at hs ⊢
    rw [String.toList_append]
    exact Address.isEmail_append hs more.toList
  · intro name domain more hname hdomain
    apply FormatCheck.complaint_ofTest_congr
    simpa using Address.isEmail_marked hname hdomain more.toList

/-- An address stays accepted whatever follows it, and a host without a dot stays refused although a
dot follows. -/
theorem userMail_staysAccepted :
    ∃ check, builtin.get? "email" = some check ∧
      check.complaint ("user@a.b" ++ "\n@, and more") = none ∧
      check.complaint ("user" ++ "@" ++ "host" ++ "@" ++ "a.b") =
        some "value should be valid email" := by
  obtain ⟨check, hget, haccepts, happend, hmarked⟩ := builtin_email_reads_domain
  have hdomain : Address.Domain ("user".toList ++ '@' :: ("a.b".toList ++ [])) "a.b".toList :=
    .of (by decide) (by decide) (by simp)
  have huser : MailText "user@a.b".toList :=
    ⟨by decide, by decide, _, hdomain, ['a'], ['b'], by decide, by decide, rfl⟩
  have hhost : ¬ MailText ("user" ++ "@" ++ "host").toList := by
    have htext : ("user" ++ "@" ++ "host").toList = "user".toList ++ '@' :: ("host".toList ++ []) :=
      rfl
    rw [htext, Address.mailText_iff (by decide) (by decide) (by simp)]
    rintro ⟨-, front, back, -, -, hdot⟩
    have hmem : '.' ∈ "host".toList := hdot ▸ List.mem_append_right front List.mem_cons_self
    exact absurd hmem (by decide)
  refine ⟨check, hget, happend _ _ ((haccepts _).1.mpr huser), ?_⟩
  rw [hmarked _ _ _ (by decide) (by decide)]
  exact (haccepts _).2.mpr hhost

end FormatRegistry

end SchemaGate
