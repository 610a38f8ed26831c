import Scam2Market.Python.Values

/-!
# The text of an instant

`datetime.isoformat` of an instant in UTC.  The date is that of the proleptic Gregorian calendar, and
the microseconds are left out when there are none.

* `calendar_days`: the days are found again in the date.
* `isoformat_isPrefix`: the text of an instant is not the beginning of the text of another.
-/

namespace Scam2Market

/-! ## Digits -/

/-- A number in a field of the given width. -/
def padded (width n : ℕ) : List Char :=
  match width with
  | 0 => []
  | width + 1 => padded width (n / 10) ++ [(n % 10).digitChar]

@[simp]
theorem length_padded (width n : ℕ) : (padded width n).length = width := by
  induction width generalizing n with
  | zero => rfl
  | succ width ih => rw [padded, List.length_append, ih, List.length_singleton]

theorem digitChar_inj : ∀ a < 10, ∀ b < 10, Nat.digitChar a = Nat.digitChar b → a = b := by
  decide

/-- A number that fits its field is read from it, and so is what follows. -/
theorem padded_append_inj {width n m : ℕ} {rest rest' : List Char} (hn : n < 10 ^ width)
    (hm : m < 10 ^ width) (h : padded width n ++ rest = padded width m ++ rest') :
    n = m ∧ rest = rest' := by
  obtain ⟨hfield, hrest⟩ := List.append_inj h (by rw [length_padded, length_padded])
  refine ⟨?_, hrest⟩
  clear h hrest
  induction width generalizing n m with
  | zero =>
    rw [pow_zero] at hn hm
    omega
  | succ width ih =>
    rw [pow_succ] at hn hm
    obtain ⟨hhead, hlast⟩ := List.append_inj hfield (by rw [length_padded, length_padded])
    have hdiv : n / 10 = m / 10 := ih (by omega) (by omega) hhead
    have hmod : n % 10 = m % 10 :=
      digitChar_inj _ (Nat.mod_lt _ (by decide)) _ (Nat.mod_lt _ (by decide))
        (List.singleton_inj.mp hlast)
    omega

/-! ## The calendar -/

/-- A date. -/
structure Date where
  year : ℤ
  month : ℤ
  day : ℤ
  deriving DecidableEq, Repr

/-- A day of an era of 400 years, which begins with a first of March, as a year of the era and a day of
that year.  The last century of an era and the last year of four have a day more than the others. -/
def splitEra (dayOfEra : ℤ) : ℤ × ℤ :=
  let century := min 3 (dayOfEra / 36524)
  let dayOfCentury := dayOfEra - 36524 * century
  let year := min 3 (dayOfCentury % 1461 / 365)
  (100 * century + 4 * (dayOfCentury / 1461) + year, dayOfCentury % 1461 - 365 * year)

/-- The days of an era before a year of it. -/
def daysOfYears (year : ℤ) : ℤ :=
  36524 * (year / 100) + 1461 * (year % 100 / 4) + 365 * (year % 4)

/-- The date of a day, counted from the epoch. -/
def calendar (days : ℤ) : Date :=
  let (yearOfEra, dayOfYear) := splitEra ((days + 719468) % 146097)
  let year := yearOfEra + 400 * ((days + 719468) / 146097)
  let month := (5 * dayOfYear + 2) / 153
  { year := if month < 10 then year else year + 1
    month := if month < 10 then month + 3 else month - 9
    day := dayOfYear - (153 * month + 2) / 5 + 1 }

/-- The day of a date, counted from the epoch. -/
def Date.days (date : Date) : ℤ :=
  let year := if date.month ≤ 2 then date.year - 1 else date.year
  let month := if date.month ≤ 2 then date.month + 9 else date.month - 3
  146097 * (year / 400) + daysOfYears (year % 400) + (153 * month + 2) / 5 + date.day - 719469

/-- A day of an era is in one of its 400 years, and is one of at most 366 days. -/
theorem splitEra_mem {dayOfEra : ℤ} (h : 0 ≤ dayOfEra ∧ dayOfEra < 146097) :
    (0 ≤ (splitEra dayOfEra).1 ∧ (splitEra dayOfEra).1 < 400) ∧
      (0 ≤ (splitEra dayOfEra).2 ∧ (splitEra dayOfEra).2 < 366) ∧
      daysOfYears (splitEra dayOfEra).1 + (splitEra dayOfEra).2 = dayOfEra := by
  simp only [splitEra]
  generalize hcentury : min 3 (dayOfEra / 36524) = century
  have hdayOfCentury : 0 ≤ dayOfEra - 36524 * century ∧ dayOfEra - 36524 * century < 36525 := by omega
  generalize hday : dayOfEra - 36524 * century = dayOfCentury at hdayOfCentury ⊢
  have hfour : 0 ≤ dayOfCentury / 1461 ∧ dayOfCentury / 1461 < 25 := by omega
  have hyear : 0 ≤ min 3 (dayOfCentury % 1461 / 365) ∧ min 3 (dayOfCentury % 1461 / 365) < 4 := by omega
  have hdayOfYear : 0 ≤ dayOfCentury % 1461 - 365 * min 3 (dayOfCentury % 1461 / 365) ∧
      dayOfCentury % 1461 - 365 * min 3 (dayOfCentury % 1461 / 365) < 366 := by omega
  have hsplit : 1461 * (dayOfCentury / 1461) + dayOfCentury % 1461 = dayOfCentury :=
    Int.mul_ediv_add_emod dayOfCentury 1461
  generalize min 3 (dayOfCentury % 1461 / 365) = year at hyear hdayOfYear ⊢
  refine ⟨by omega, hdayOfYear, ?_⟩
  have hhundreds : (100 * century + 4 * (dayOfCentury / 1461) + year) / 100 = century := by omega
  have hfours : (100 * century + 4 * (dayOfCentury / 1461) + year) % 100 / 4 = dayOfCentury / 1461 := by
    omega
  have hones : (100 * century + 4 * (dayOfCentury / 1461) + year) % 4 = year := by omega
  rw [daysOfYears, hhundreds, hfours, hones]
  omega

theorem dayOfEra_mem (days : ℤ) :
    0 ≤ (days + 719468) % 146097 ∧ (days + 719468) % 146097 < 146097 :=
  ⟨Int.emod_nonneg _ (by decide), Int.emod_lt_of_pos _ (by decide)⟩

/-- The months and the days of a date have two digits. -/
theorem calendar_mem (days : ℤ) :
    (0 ≤ (calendar days).month ∧ (calendar days).month < 100) ∧
      0 ≤ (calendar days).day ∧ (calendar days).day < 100 := by
  obtain ⟨-, hday, -⟩ := splitEra_mem (dayOfEra_mem days)
  simp only [calendar]
  split_ifs <;> omega

/-- The days are found again in the date. -/
theorem calendar_days (days : ℤ) : (calendar days).days = days := by
  obtain ⟨hyear, hday, hdays⟩ := splitEra_mem (dayOfEra_mem days)
  rcases hsplit : splitEra ((days + 719468) % 146097) with ⟨year, dayOfYear⟩
  rw [hsplit] at hyear hday hdays
  dsimp only at hyear hday hdays
  simp only [calendar, Date.days, hsplit]
  have hmonth : 0 ≤ (5 * dayOfYear + 2) / 153 ∧ (5 * dayOfYear + 2) / 153 < 12 := by omega
  have hera : (year + 400 * ((days + 719468) / 146097)) / 400 = (days + 719468) / 146097 := by omega
  have hyearOfEra : (year + 400 * ((days + 719468) / 146097)) % 400 = year := by omega
  by_cases hlate : (5 * dayOfYear + 2) / 153 < 10
  · rw [if_pos hlate, if_pos hlate, if_neg (by omega), if_neg (by omega), add_sub_cancel_right, hera,
      hyearOfEra]
    omega
  · rw [if_neg hlate, if_neg hlate, if_pos (by omega), if_pos (by omega), add_sub_cancel_right,
      sub_add_cancel, hera, hyearOfEra]
    omega

/-! ## The text -/

/-- The date and the time of an instant, to the second. -/
def secondsText (seconds : ℤ) : List Char :=
  let date := calendar (seconds / 86400)
  padded 4 date.year.toNat ++ '-' :: (padded 2 date.month.toNat ++ '-' :: (padded 2 date.day.toNat ++
    'T' :: (padded 2 (seconds % 86400 / 3600).toNat ++
      ':' :: (padded 2 (seconds % 3600 / 60).toNat ++ ':' :: padded 2 (seconds % 60).toNat))))

/-- The microseconds, when there are any, and the offset. -/
def fractionText (microseconds : ℤ) : List Char :=
  if microseconds = 0 then "+00:00".toList
  else '.' :: (padded 6 microseconds.toNat ++ "+00:00".toList)

/-- `instant.isoformat()`. -/
def isoformat (instant : Datetime) : String :=
  String.ofList (secondsText (instant / 1000000) ++ fractionText (instant % 1000000))

/-- An instant that `datetime` can represent: its year is from 1 to 9999. -/
def Representable (instant : Datetime) : Prop :=
  1 ≤ (calendar (instant / 1000000 / 86400)).year ∧ (calendar (instant / 1000000 / 86400)).year ≤ 9999

instance (instant : Datetime) : Decidable (Representable instant) :=
  inferInstanceAs (Decidable (_ ∧ _))

example : isoformat 1785542400000000 = "2026-08-01T00:00:00+00:00" := by decide +kernel

theorem length_secondsText (seconds : ℤ) : (secondsText seconds).length = 19 := by
  simp [secondsText]

/-- Two digits are read from their field. -/
theorem padded_two_inj {a b : ℤ} {rest rest' : List Char} (ha : 0 ≤ a ∧ a < 100) (hb : 0 ≤ b ∧ b < 100)
    (h : padded 2 a.toNat ++ rest = padded 2 b.toNat ++ rest') : a = b ∧ rest = rest' := by
  obtain ⟨hnat, hrest⟩ := padded_append_inj (by omega) (by omega) h
  exact ⟨by omega, hrest⟩

/-- The second is found again in its text. -/
theorem secondsText_inj {seconds seconds' : ℤ}
    (hyear : 1 ≤ (calendar (seconds / 86400)).year ∧ (calendar (seconds / 86400)).year ≤ 9999)
    (hyear' : 1 ≤ (calendar (seconds' / 86400)).year ∧ (calendar (seconds' / 86400)).year ≤ 9999)
    (h : secondsText seconds = secondsText seconds') : seconds = seconds' := by
  obtain ⟨hmonth, hday⟩ := calendar_mem (seconds / 86400)
  obtain ⟨hmonth', hday'⟩ := calendar_mem (seconds' / 86400)
  simp only [secondsText] at h
  obtain ⟨heqYear, h⟩ := padded_append_inj (by omega) (by omega) h
  obtain ⟨heqMonth, h⟩ := padded_two_inj hmonth hmonth' (List.cons.inj h).2
  obtain ⟨heqDay, h⟩ := padded_two_inj hday hday' (List.cons.inj h).2
  obtain ⟨heqHour, h⟩ := padded_two_inj (by omega) (by omega) (List.cons.inj h).2
  obtain ⟨heqMinute, h⟩ := padded_two_inj (by omega) (by omega) (List.cons.inj h).2
  have hsecond := (List.cons.inj h).2
  rw [← List.append_nil (padded 2 _), ← List.append_nil (padded 2 (seconds' % 60).toNat)] at hsecond
  obtain ⟨heqSecond, -⟩ := padded_two_inj (by omega) (by omega) hsecond
  have hdate : calendar (seconds / 86400) = calendar (seconds' / 86400) := by
    rw [Date.mk.injEq]
    exact ⟨by omega, heqMonth, heqDay⟩
  have hdays : seconds / 86400 = seconds' / 86400 := by
    rw [← calendar_days (seconds / 86400), hdate, calendar_days]
  omega

/-- Microseconds are found again in a text that begins with theirs. -/
theorem fractionText_isPrefix {a b : ℤ} (ha : 0 ≤ a ∧ a < 1000000) (hb : 0 ≤ b ∧ b < 1000000)
    (h : fractionText a <+: fractionText b) : a = b := by
  obtain ⟨rest, hrest⟩ := h
  rw [fractionText, fractionText] at hrest
  split_ifs at hrest with hzero hzero' hzero'
  · rw [hzero, hzero']
  · exact absurd (List.cons.inj hrest).1 (by decide)
  · exact absurd (List.cons.inj hrest).1 (by decide)
  · have htail : padded 6 a.toNat ++ ("+00:00".toList ++ rest) = padded 6 b.toNat ++ "+00:00".toList := by
      rw [← List.append_assoc]
      exact (List.cons.inj hrest).2
    obtain ⟨hnat, -⟩ := padded_append_inj (by omega) (by omega) htail
    omega

/-- **No text of an instant begins with the text of another.** -/
theorem isoformat_isPrefix {a b : Datetime} (ha : Representable a) (hb : Representable b)
    (h : (isoformat a).toList <+: (isoformat b).toList) : a = b := by
  simp only [isoformat, String.toList_ofList] at h
  have hlength : (secondsText (a / 1000000)).length = (secondsText (b / 1000000)).length := by
    rw [length_secondsText, length_secondsText]
  obtain ⟨rest, hrest⟩ := h
  rw [List.append_assoc] at hrest
  obtain ⟨hseconds, hfraction⟩ := List.append_inj hrest hlength
  have hsecond : a / 1000000 = b / 1000000 := secondsText_inj ha hb hseconds
  have hmicro : a % 1000000 = b % 1000000 :=
    fractionText_isPrefix ⟨Int.emod_nonneg _ (by decide), Int.emod_lt_of_pos _ (by decide)⟩
      ⟨Int.emod_nonneg _ (by decide), Int.emod_lt_of_pos _ (by decide)⟩ ⟨rest, hfraction⟩
  rw [← Int.mul_ediv_add_emod a 1000000, hsecond, hmicro, Int.mul_ediv_add_emod]

end Scam2Market
