import Mathlib
import SchemaGate.Format.Registry
import SchemaGate.Proofs.Decimal.Integers

/-!
# Which texts are dates

The texts that the two formats of dates accept, described by how they are put together: digits by
their number and by the number that they denote, days by whether the Gregorian calendar has them.
Both formats look at the octets of a text before they read its characters. Of a date the octets
say nothing more than the characters do. Of a moment they shut out the blank between date and time,
which the characters alone would allow.

* `Calendar.DayExists` and `Calendar.dayExists_iff`: the days of a year;
* `Calendar.date_eq_some_iff` and its companions: each reader takes one part off the front of a
  text;
* `Calendar.fraction_append`: the digits of a fraction are read to their end, and no offset starts
  with one;
* `Calendar.DateText.isFullDate` and `Calendar.opensMoment_iff`: what the octets add;
* `Calendar.isDate_iff` and `Calendar.isDateTime_iff`: both tests are exact, and
  `FormatRegistry.builtin_dates_follow_grammar`: they are the ones that are registered.
-/

namespace SchemaGate

namespace Calendar

/-! ## Days that exist -/

/-- Every fourth year is a leap year, but of the full centuries only every fourth is. -/
def LeapYear (year : Nat) : Prop := 4 ∣ year ∧ (100 ∣ year → 400 ∣ year)

/-- The month has the day in that year. -/
inductive DayExists (year : Nat) : Nat → Nat → Prop
  | long {month day : Nat} : month ∈ [1, 3, 5, 7, 8, 10, 12] → 1 ≤ day → day ≤ 31 →
      DayExists year month day
  | short {month day : Nat} : month ∈ [4, 6, 9, 11] → 1 ≤ day → day ≤ 30 →
      DayExists year month day
  | february {day : Nat} : 1 ≤ day → day ≤ 28 → DayExists year 2 day
  | leapDay : LeapYear year → DayExists year 2 29

section

variable {year month day : Nat}

theorem isLeap_iff : isLeap year = true ↔ LeapYear year := by
  simp only [isLeap, LeapYear, Bool.and_eq_true, Bool.or_eq_true, beq_iff_eq, bne_iff_ne]
  omega

theorem daysIn_of_long (h : month ∈ [1, 3, 5, 7, 8, 10, 12]) : daysIn year month = 31 := by
  simp only [List.mem_cons, List.not_mem_nil, or_false] at h
  rcases h with rfl | rfl | rfl | rfl | rfl | rfl | rfl <;> rfl

theorem daysIn_of_short (h : month ∈ [4, 6, 9, 11]) : daysIn year month = 30 := by
  simp only [List.mem_cons, List.not_mem_nil, or_false] at h
  rcases h with rfl | rfl | rfl | rfl <;> rfl

theorem daysIn_february (year : Nat) : daysIn year 2 = if isLeap year then 29 else 28 := rfl

/-- A number that is no month has no days. -/
theorem mem_of_daysIn_pos (h : 0 < daysIn year month) :
    month ∈ [1, 3, 5, 7, 8, 10, 12] ∨ month ∈ [4, 6, 9, 11] ∨ month = 2 := by
  unfold daysIn at h
  split at h
  all_goals first | decide | simp at h

/-- A day exists if the month has so many. -/
theorem dayExists_iff : DayExists year month day ↔ 1 ≤ day ∧ day ≤ daysIn year month := by
  constructor
  · intro h
    cases h with
    | long hmonth hlow hhigh => exact ⟨hlow, (daysIn_of_long hmonth).symm ▸ hhigh⟩
    | short hmonth hlow hhigh => exact ⟨hlow, (daysIn_of_short hmonth).symm ▸ hhigh⟩
    | february hlow hhigh =>
        rw [daysIn_february]
        split <;> omega
    | leapDay hleap =>
        rw [daysIn_february, if_pos (isLeap_iff.mpr hleap)]
        decide
  · rintro ⟨hlow, hhigh⟩
    rcases mem_of_daysIn_pos (Nat.lt_of_lt_of_le hlow hhigh) with hmonth | hmonth | rfl
    · rw [daysIn_of_long hmonth] at hhigh
      exact .long hmonth hlow hhigh
    · rw [daysIn_of_short hmonth] at hhigh
      exact .short hmonth hlow hhigh
    · rw [daysIn_february] at hhigh
      by_cases hday : day ≤ 28
      · exact .february hlow hday
      · -- only the 29th is left, and only if the year has it
        split at hhigh
        · rename_i hleap
          obtain rfl : day = 29 := by omega
          exact .leapDay (isLeap_iff.mp hleap)
        · exact absurd hhigh hday

end

/-! ## Fields -/

/-- So many digits, and the number that they denote by their places. -/
structure Digits (width : Nat) (ds : List Char) (n : Nat) : Prop where
  length : ds.length = width
  digits : ∀ c ∈ ds, c.isDigit = true
  value : Decimal.placeValue ds = n

variable {cs rest : List Char}

/-- A field is so many digits, and it is read as the number that they denote. -/
theorem field_eq_some_iff {width n : Nat} :
    field width cs = some (n, rest) ↔ ∃ ds, Digits width ds n ∧ ds ++ rest = cs := by
  simp only [field, List.all_eq_true, Option.ite_none_right_eq_some, Option.some.injEq,
    Prod.mk.injEq, Decimal.ofDigits_eq_placeValue]
  constructor
  · rintro ⟨⟨hlength, hdigits⟩, hvalue, rfl⟩
    exact ⟨cs.take width, ⟨hlength, hdigits, hvalue⟩, List.take_append_drop width cs⟩
  · rintro ⟨ds, ⟨rfl, hdigits, rfl⟩, rfl⟩
    rw [List.take_left, List.drop_left]
    exact ⟨⟨rfl, hdigits⟩, rfl, rfl⟩

theorem mark_eq_some_iff {c : Char} : mark c cs = some rest ↔ c :: rest = cs := by
  cases cs with
  | nil => simp [mark]
  | cons d ds => simp [mark, eq_comm]

/-! ## Octets -/

theorem octets_append (cs ds : List Char) : octets (cs ++ ds) = octets cs ++ octets ds :=
  List.flatMap_append

theorem octets_cons_of_ascii {c : Char} (h : c.val ≤ 127) (cs : List Char) :
    octets (c :: cs) = c.toUInt8 :: octets cs := by
  have hc : String.utf8EncodeChar c = [c.toUInt8] :=
    String.utf8EncodeChar_eq_singleton (Char.utf8Size_eq_one_iff.mpr h)
  rw [octets, List.flatMap_cons, hc]
  rfl

theorem octet_of_isDigit {c : Char} (h : c.isDigit = true) :
    c.val ≤ 127 ∧ 0x30 ≤ c.toUInt8 ∧ c.toUInt8 ≤ 0x39 := by
  obtain ⟨hlow, hhigh⟩ : 48 ≤ c.toNat ∧ c.toNat ≤ 57 := Char.isDigit_iff_toNat.mp h
  have hoctet : c.toUInt8.toNat = c.toNat := by
    rw [Char.toUInt8, UInt32.toNat_toUInt8]
    exact Nat.mod_eq_of_lt (Nat.lt_of_le_of_lt hhigh (by decide))
  rw [UInt32.le_iff_toNat_le, UInt8.le_iff_toNat_le, UInt8.le_iff_toNat_le, hoctet]
  exact ⟨Nat.le_trans hhigh (by decide), hlow, hhigh⟩

/-- Octets that a date may have from a place on. -/
def DateOctets (place : Nat) (bs : Utf8.Octets) : Prop :=
  ∀ p ∈ bs.zipIdx place, isDateOctet p.1 p.2 = true

theorem isFullDate_iff {bs : Utf8.Octets} :
    isFullDate bs = true ↔ bs.length = 10 ∧ DateOctets 0 bs := by
  simp only [isFullDate, DateOctets, Bool.and_eq_true, beq_iff_eq, List.all_eq_true]

theorem DateOctets.cons {place : Nat} {b : UInt8} {bs : Utf8.Octets}
    (hb : isDateOctet b place = true) (hbs : DateOctets (place + 1) bs) :
    DateOctets place (b :: bs) := by
  rw [DateOctets, List.zipIdx_cons, List.forall_mem_cons]
  exact ⟨hb, hbs⟩

theorem DateOctets.append {place : Nat} {bs bs' : Utf8.Octets} (hbs : DateOctets place bs)
    (hbs' : DateOctets (place + bs.length) bs') : DateOctets place (bs ++ bs') := by
  rw [DateOctets, List.zipIdx_append, List.forall_mem_append]
  exact ⟨hbs, Nat.add_comm place _ ▸ hbs'⟩

theorem length_octets_of_digits {ds : List Char} (h : ∀ c ∈ ds, c.isDigit = true) :
    (octets ds).length = ds.length := by
  induction ds with
  | nil => rfl
  | cons c ds ih =>
      rw [List.forall_mem_cons] at h
      rw [octets_cons_of_ascii (octet_of_isDigit h.1).1, List.length_cons, ih h.2, List.length_cons]

/-- Digits may stand wherever no hyphen has its place. -/
theorem dateOctets_of_digits {ds : List Char} (h : ∀ c ∈ ds, c.isDigit = true) (place : Nat)
    (hplace : ∀ i < ds.length, place + i ≠ 4 ∧ place + i ≠ 7) : DateOctets place (octets ds) := by
  induction ds generalizing place with
  | nil => exact fun p hp => absurd hp List.not_mem_nil
  | cons c ds ih =>
      rw [List.forall_mem_cons] at h
      obtain ⟨hascii, hlow, hhigh⟩ := octet_of_isDigit h.1
      obtain ⟨h4, h7⟩ := hplace 0 (Nat.succ_pos _)
      rw [octets_cons_of_ascii hascii]
      refine .cons (by simp_all [isDateOctet]) (ih h.2 (place + 1) fun i hi => ?_)
      have := hplace (i + 1) (Nat.succ_lt_succ hi)
      omega

/-! ## Dates -/

/-- Four digits of a year, two of a month and two of a day that exists, with hyphens between
them. -/
inductive DateText : List Char → Prop
  | of {year month day : Nat} {ys ms ds : List Char} : Digits 4 ys year → Digits 2 ms month →
      Digits 2 ds day → DayExists year month day → DateText (ys ++ '-' :: (ms ++ '-' :: ds))

/-- A date is read off the front of a text. -/
theorem date_eq_some_iff : date cs = some rest ↔ ∃ d, DateText d ∧ d ++ rest = cs := by
  simp only [date, bind, Option.bind_eq_some_iff, Prod.exists, field_eq_some_iff, mark_eq_some_iff,
    Option.ite_none_right_eq_some, Option.some.injEq, ← dayExists_iff]
  constructor
  · rintro ⟨year, _, ⟨ys, hy, rfl⟩, _, rfl, month, _, ⟨ms, hm, rfl⟩, _, rfl, day, _, ⟨ds, hd, rfl⟩,
      hexists, rfl⟩
    exact ⟨_, .of hy hm hd hexists, by simp⟩
  · rintro ⟨_, ⟨hy, hm, hd, hexists⟩, rfl⟩
    exact ⟨_, _, ⟨_, hy, by simp⟩, _, rfl, _, _, ⟨_, hm, rfl⟩, _, rfl, _, _, ⟨_, hd, rfl⟩, hexists,
      rfl⟩

/-- The octets of a date have its digits and hyphens at their places. -/
theorem DateText.isFullDate {d : List Char} (h : DateText d) : isFullDate (octets d) = true := by
  obtain ⟨hy, hm, hd, -⟩ := h
  have ly := (length_octets_of_digits hy.digits).trans hy.length
  have lm := (length_octets_of_digits hm.digits).trans hm.length
  have ld := (length_octets_of_digits hd.digits).trans hd.length
  have hyphen : ('-' : Char).val ≤ 127 := by decide
  simp only [octets_append, octets_cons_of_ascii hyphen]
  refine isFullDate_iff.mpr ⟨by simp [ly, lm, ld], ?_⟩
  -- the hyphens have the places 4 and 7, and the digits start at 0, 5 and 8
  refine .append (dateOctets_of_digits hy.digits 0 (by have := hy.length; omega)) ?_
  rw [ly]
  refine .cons rfl (.append (dateOctets_of_digits hm.digits 5 (by have := hm.length; omega)) ?_)
  rw [lm]
  exact .cons rfl (dateOctets_of_digits hd.digits 8 (by omega))

theorem isDate_iff : isDate cs = true ↔ DateText cs := by
  simp only [isDate, Bool.and_eq_true, beq_iff_eq, date_eq_some_iff, List.append_nil,
    exists_eq_right]
  exact ⟨And.right, fun h => ⟨h.isFullDate, h⟩⟩

example : isDate "2000-02-29".toList = true := by decide

example : isDate "1900-02-29".toList = false := by decide

/-! ## Times of day -/

/-- Two digits each of an hour, a minute and a second with colons between them. There may be a
leap second. -/
inductive TimeText : List Char → Prop
  | of {hour minute second : Nat} {hs ms ss : List Char} : Digits 2 hs hour → Digits 2 ms minute →
      Digits 2 ss second → hour ≤ 23 ∧ minute ≤ 59 ∧ second ≤ 60 →
      TimeText (hs ++ ':' :: (ms ++ ':' :: ss))

/-- A time of day is read off the front of a text. -/
theorem timeOfDay_eq_some_iff :
    timeOfDay cs = some rest ↔ ∃ time, TimeText time ∧ time ++ rest = cs := by
  simp only [timeOfDay, bind, Option.bind_eq_some_iff, Prod.exists, field_eq_some_iff,
    mark_eq_some_iff, Option.ite_none_right_eq_some, Option.some.injEq]
  constructor
  · rintro ⟨hour, _, ⟨hs, hh, rfl⟩, _, rfl, minute, _, ⟨ms, hm, rfl⟩, _, rfl, second, _,
      ⟨ss, hsec, rfl⟩, hbounds, rfl⟩
    exact ⟨_, .of hh hm hsec hbounds, by simp⟩
  · rintro ⟨_, ⟨hh, hm, hsec, hbounds⟩, rfl⟩
    exact ⟨_, _, ⟨_, hh, by simp⟩, _, rfl, _, _, ⟨_, hm, rfl⟩, _, rfl, _, _, ⟨_, hsec, rfl⟩,
      hbounds, rfl⟩

/-! ## Offsets -/

/-- The letter for no offset, or a sign and two digits each of hours and minutes with a colon
between them. -/
inductive OffsetText : List Char → Prop
  | none {c : Char} : c = 'Z' ∨ c = 'z' → OffsetText [c]
  | shift {sign : Char} {hour minute : Nat} {hs ms : List Char} :
      sign = '+' ∨ sign = '-' ∨ sign = '\u2212' → Digits 2 hs hour → Digits 2 ms minute →
      hour ≤ 23 ∧ minute ≤ 59 → OffsetText (sign :: (hs ++ ':' :: ms))

theorem hoursAndMinutes_eq_some_iff :
    hoursAndMinutes cs = some rest ↔ ∃ hour minute hs ms, Digits 2 hs hour ∧ Digits 2 ms minute ∧
      (hour ≤ 23 ∧ minute ≤ 59) ∧ hs ++ ':' :: (ms ++ rest) = cs := by
  simp only [hoursAndMinutes, bind, Option.bind_eq_some_iff, Prod.exists, field_eq_some_iff,
    mark_eq_some_iff, Option.ite_none_right_eq_some, Option.some.injEq]
  constructor
  · rintro ⟨hour, _, ⟨hs, hh, rfl⟩, _, rfl, minute, _, ⟨ms, hm, rfl⟩, hbounds, rfl⟩
    exact ⟨hour, minute, hs, ms, hh, hm, hbounds, rfl⟩
  · rintro ⟨hour, minute, hs, ms, hh, hm, hbounds, rfl⟩
    exact ⟨hour, _, ⟨hs, hh, rfl⟩, _, rfl, minute, _, ⟨ms, hm, rfl⟩, hbounds, rfl⟩

/-- An offset is read off the front of a text. -/
theorem offset_eq_some_iff :
    offset cs = some rest ↔ ∃ o, OffsetText o ∧ o ++ rest = cs := by
  constructor
  · intro h
    cases cs with
    | nil => cases h
    | cons c ds =>
        rw [offset] at h
        split at h
        · rename_i hletter
          cases h
          exact ⟨[c], .none hletter, rfl⟩
        · split at h
          · rename_i hsign
            obtain ⟨hour, minute, hs, ms, hh, hm, hbounds, rfl⟩ := hoursAndMinutes_eq_some_iff.mp h
            exact ⟨_, .shift hsign hh hm hbounds, by simp⟩
          · cases h
  · rintro ⟨o, ho, rfl⟩
    cases ho with
    | none hletter => exact if_pos hletter
    | @shift sign hour minute hs ms hsign hh hm hbounds =>
        have hletter : ¬ (sign = 'Z' ∨ sign = 'z') := by
          rcases hsign with rfl | rfl | rfl <;> decide
        rw [List.cons_append, offset, if_neg hletter, if_pos hsign, hoursAndMinutes_eq_some_iff]
        exact ⟨hour, minute, hs, ms, hh, hm, hbounds, by simp⟩

/-! ## Fractions of a second -/

/-- Nothing, or a point and one digit or more. -/
inductive FractionText : List Char → Prop
  | none : FractionText []
  | digits {ds : List Char} : Decimal.IsRow ds → FractionText ('.' :: ds)

/-- A fraction of a second is read off the front of a text, and it may be empty. -/
theorem exists_of_fraction (h : fraction cs = some rest) :
    ∃ f, FractionText f ∧ f ++ rest = cs := by
  unfold fraction at h
  split at h
  · rename_i ds
    obtain ⟨hdigit, hrest⟩ := Option.ite_none_right_eq_some.mp h
    cases hrest
    refine ⟨'.' :: ds.takeWhile Char.isDigit, .digits ⟨?_, fun c hc => List.mem_takeWhile_imp hc⟩,
      by simp⟩
    cases ds with
    | nil => cases hdigit
    | cons c ds =>
        have hc : c.isDigit = true := hdigit
        rw [List.takeWhile_cons_of_pos hc]
        exact List.cons_ne_nil _ _
  · cases h
    exact ⟨[], .none, rfl⟩

/-- An offset starts with neither a digit nor a point. -/
theorem OffsetText.exists_head {o : List Char} (h : OffsetText o) :
    ∃ c ds, o = c :: ds ∧ c.isDigit = false ∧ c ≠ '.' := by
  cases h with
  | none hletter =>
      refine ⟨_, _, rfl, ?_⟩
      rcases hletter with rfl | rfl <;> decide
  | shift hsign _ _ _ =>
      refine ⟨_, _, rfl, ?_⟩
      rcases hsign with rfl | rfl | rfl <;> decide

/-- The fraction ends where the offset starts. -/
theorem fraction_append {f o : List Char} (hf : FractionText f) (ho : OffsetText o) :
    fraction (f ++ o) = some o := by
  obtain ⟨c, rest, rfl, hdigit, hpoint⟩ := ho.exists_head
  cases hf with
  | none =>
      -- the offset is taken for no fraction
      unfold fraction
      split
      · rename_i heq
        exact absurd (List.cons.inj heq).1 hpoint
      · rfl
  | @digits ds hrow =>
      obtain ⟨hne, hdigits⟩ := hrow
      have hhead : (ds ++ c :: rest).head?.any Char.isDigit = true := by
        cases ds with
        | nil => exact absurd rfl hne
        | cons d ds => exact hdigits d List.mem_cons_self
      have hdrop : (ds ++ c :: rest).dropWhile Char.isDigit = c :: rest := by
        rw [List.dropWhile_append_of_pos hdigits, List.dropWhile_cons_of_neg (by simp [hdigit])]
      rw [List.cons_append, fraction, if_pos hhead, hdrop]

/-! ## Moments -/

/-- A date, the letter between, a time of day with or without a fraction, and an offset. -/
inductive DateTimeText : List Char → Prop
  | of {d time f o : List Char} {letter : Char} : DateText d → letter = 'T' ∨ letter = 't' →
      TimeText time → FractionText f → OffsetText o →
      DateTimeText (d ++ letter :: (time ++ (f ++ o)))

theorem separator_eq_some_iff :
    separator cs = some rest ↔
      ∃ c, (c = 'T' ∨ c = 't' ∨ c = ' ') ∧ c :: rest = cs := by
  cases cs with
  | nil => simp [separator]
  | cons c ds => simp [separator, and_comm, eq_comm]

/-- A whole text is a moment if it is a date, a separator, a time, a fraction and an offset. -/
theorem moment_eq_some_nil_iff :
    moment cs = some [] ↔ ∃ d c time f o, DateText d ∧ (c = 'T' ∨ c = 't' ∨ c = ' ') ∧
      TimeText time ∧ FractionText f ∧ OffsetText o ∧ d ++ c :: (time ++ (f ++ o)) = cs := by
  simp only [moment, bind, Option.bind_eq_some_iff, date_eq_some_iff,
    separator_eq_some_iff, timeOfDay_eq_some_iff, offset_eq_some_iff, List.append_nil,
    exists_eq_right]
  constructor
  · rintro ⟨_, ⟨d, hd, rfl⟩, _, ⟨c, hc, rfl⟩, _, ⟨time, htime, rfl⟩, o, hfraction, ho⟩
    obtain ⟨f, hf, rfl⟩ := exists_of_fraction hfraction
    exact ⟨d, c, time, f, o, hd, hc, htime, hf, ho, rfl⟩
  · rintro ⟨d, c, time, f, o, hd, hc, htime, hf, ho, rfl⟩
    exact ⟨_, ⟨d, hd, rfl⟩, _, ⟨c, hc, rfl⟩, _, ⟨time, htime, rfl⟩, o, fraction_append hf ho, ho⟩

/-- The octets leave only the letters between a date and a time. -/
theorem opensMoment_iff {d : List Char} (hd : DateText d) {c : Char}
    (hc : c = 'T' ∨ c = 't' ∨ c = ' ') :
    opensMoment (octets (d ++ c :: rest)) = true ↔ c = 'T' ∨ c = 't' := by
  have hfull := hd.isFullDate
  have hlength := (isFullDate_iff.mp hfull).1
  have hascii : c.val ≤ 127 := by rcases hc with rfl | rfl | rfl <;> decide
  -- a date has ten octets, so the one behind them is that of the character
  rw [octets_append, octets_cons_of_ascii hascii, opensMoment, List.take_left' hlength, hfull,
    Bool.true_and, List.getElem?_append_right (Nat.le_of_eq hlength), hlength, Nat.sub_self,
    List.getElem?_cons_zero]
  rcases hc with rfl | rfl | rfl <;> decide

/-- The check of moments is the grammar of them. -/
theorem isDateTime_iff : isDateTime cs = true ↔ DateTimeText cs := by
  simp only [isDateTime, Bool.and_eq_true, beq_iff_eq, moment_eq_some_nil_iff]
  constructor
  · rintro ⟨hopens, d, c, time, f, o, hd, hc, htime, hf, ho, rfl⟩
    exact .of hd ((opensMoment_iff hd hc).mp hopens) htime hf ho
  · rintro @⟨d, time, f, o, letter, hd, hletter, htime, hf, ho⟩
    have hc : letter = 'T' ∨ letter = 't' ∨ letter = ' ' := hletter.imp_right .inl
    exact ⟨(opensMoment_iff hd hc).mpr hletter, d, letter, time, f, o, hd, hc, htime, hf, ho, rfl⟩

end Calendar

/-! ## Formats -/

namespace FormatRegistry

open Calendar (DateText DateTimeText)

/-- The two formats of dates accept what is written by the rules and nothing else, and complain of
everything else in their own words. -/
theorem builtin_dates_follow_grammar :
    (∃ check, builtin.get? "date" = some check ∧ ∀ s,
      (check.complaint s = none ↔ DateText s.toList) ∧
      (check.complaint s = some "value should be date format" ↔ ¬ DateText s.toList)) ∧
    ∃ check, builtin.get? "date-time" = some check ∧ ∀ s,
      (check.complaint s = none ↔ DateTimeText s.toList) ∧
      (check.complaint s = some "value should be datetime format" ↔ ¬ DateTimeText s.toList) := by
  have hcomplaint : ∀ name text test s,
      ((FormatCheck.ofTest name text test).complaint s = none ↔ test s.toList = true) ∧
      ((FormatCheck.ofTest name text test).complaint s = some text ↔ ¬ test s.toList = true) := by
    intro name text test s
    by_cases htest : test s.toList = true <;> simp [FormatCheck.ofTest, htest]
  have hdate : builtin.get? "date" =
      some (.ofTest "date" "value should be date format" Calendar.isDate) := by
    cbv
  have htime : builtin.get? "date-time" =
      some (.ofTest "date-time" "value should be datetime format" Calendar.isDateTime) := by
    cbv
  refine ⟨⟨_, hdate, fun s => ?_⟩, ⟨_, htime, fun s => ?_⟩⟩
  · rw [← Calendar.isDate_iff]
    exact hcomplaint _ _ _ s
  · rw [← Calendar.isDateTime_iff]
    exact hcomplaint _ _ _ s

end FormatRegistry

end SchemaGate
