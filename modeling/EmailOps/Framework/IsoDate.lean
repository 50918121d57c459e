import Mathlib.Algebra.Ring.Nat
import Mathlib.Data.Int.Notation
import EmailOps.Framework.Text

/-!
# Times as texts

A time is a number of milliseconds since 1970, and its text is that of
`Date.prototype.toISOString`: `YYYY-MM-DDTHH:mm:ss.sssZ` in the Gregorian calendar, with a
sign and six digits for a year outside `0` to `9999`.

* `splitUnits` takes units of varying lengths off a number, such as years off a number of
  days. `total_splitUnits` says that nothing is lost.
* `dateFields` are the fields of a time, and `toISOString` its text.
* `toISOString_injective`: no two times have one text. `count_colon_toISOString` and
  `getLast_toISOString` say how it reads inside a longer text.
-/

namespace Framework

/-! ### Units of varying lengths -/

/-- The first units together. -/
def total (len : ℕ → ℕ) (n : ℕ) : ℕ :=
  ((List.range n).map len).sum

theorem total_succ (len : ℕ → ℕ) (n : ℕ) : total len (n + 1) = total len n + len n := by
  simp [total, List.range_succ]

/-- Take up to `fuel` units off a number, from unit `i` on: the unit that is reached, and what
is left. -/
def splitUnits (len : ℕ → ℕ) : ℕ → ℕ → ℕ → ℕ × ℕ
  | 0, i, d => (i, d)
  | fuel + 1, i, d => if d < len i then (i, d) else splitUnits len fuel (i + 1) (d - len i)

variable {len : ℕ → ℕ}

/-- **Nothing is lost**: the units taken and the rest are what was there. -/
theorem total_splitUnits (fuel i d : ℕ) :
    total len (splitUnits len fuel i d).1 + (splitUnits len fuel i d).2 = total len i + d := by
  induction fuel generalizing i d with
  | zero => rfl
  | succ fuel ih =>
    unfold splitUnits
    split
    · rfl
    · rw [ih, total_succ]
      omega

theorem fst_splitUnits_le (fuel i d : ℕ) : (splitUnits len fuel i d).1 ≤ i + fuel := by
  induction fuel generalizing i d with
  | zero => exact le_rfl
  | succ fuel ih =>
    unfold splitUnits
    split
    · exact Nat.le_add_right i _
    · have hrest := ih (i + 1) (d - len i)
      omega

/-- When there are units enough, less than a unit is left. -/
theorem snd_splitUnits_lt (fuel i d : ℕ) (h : total len i + d < total len (i + fuel + 1)) :
    (splitUnits len fuel i d).2 < len (splitUnits len fuel i d).1 := by
  induction fuel generalizing i d with
  | zero =>
    rw [Nat.add_zero, total_succ] at h
    exact Nat.lt_of_add_lt_add_left h
  | succ fuel ih =>
    unfold splitUnits
    split
    · assumption
    · refine ih (i + 1) (d - len i) ?_
      have hsucc := total_succ len i
      have hindex : i + 1 + fuel + 1 = i + (fuel + 1) + 1 := by omega
      rw [hindex]
      omega

/-! ### The calendar -/

def leap (year : ℕ) : Bool :=
  year % 4 = 0 && (year % 100 ≠ 0 || year % 400 = 0)

def daysInYear (year : ℕ) : ℕ :=
  if leap year then 366 else 365

/-- The days of a month, counted from one. -/
def daysInMonth (inLeap : Bool) : ℕ → ℕ
  | 0 => 0
  | 2 => if inLeap then 29 else 28
  | 4 | 6 | 9 | 11 => 30
  | _ => 31

theorem daysInMonth_le (inLeap : Bool) (month : ℕ) : daysInMonth inLeap month ≤ 31 := by
  unfold daysInMonth
  split
  · omega
  · split <;> omega
  all_goals omega

/-- The fields of a date. -/
@[ext]
structure DateFields where
  year : ℤ
  month : ℕ
  day : ℕ
  hour : ℕ
  minute : ℕ
  second : ℕ
  milli : ℕ
  month_lt : month < 100
  day_lt : day < 100
  hour_lt : hour < 100
  minute_lt : minute < 100
  second_lt : second < 100
  milli_lt : milli < 1000

/-- The days of 400 years, after which the calendar repeats. -/
def cycleDays : ℤ := 146097

theorem total_daysInYear : total daysInYear 400 = 146097 := by
  decide +kernel

theorem total_daysInMonth (year : ℕ) :
    total (daysInMonth (leap year)) 13 = daysInYear year := by
  unfold daysInYear
  cases leap year <;> rfl

/-- The day since the start of year 0. -/
def dayOf (time : ℤ) : ℤ :=
  time / 86400000 + 719528

/-- The year within its cycle, and the day in it. -/
def yearOf (day : ℤ) : ℕ × ℕ :=
  splitUnits daysInYear 399 0 (day % cycleDays).toNat

/-- The month of a day of a year, and the day in it, from zero. -/
def monthOf (year doy : ℕ) : ℕ × ℕ :=
  splitUnits (daysInMonth (leap year)) 11 1 doy

theorem snd_yearOf_lt (day : ℤ) : (yearOf day).2 < daysInYear (yearOf day).1 := by
  refine snd_splitUnits_lt 399 0 _ ?_
  rw [total_daysInYear]
  have hlt := Int.emod_lt_of_pos day (show (0 : ℤ) < cycleDays by decide)
  simp only [cycleDays] at hlt ⊢
  simp only [total, List.range_zero, List.map_nil, List.sum_nil, Nat.zero_add]
  omega

theorem snd_monthOf_lt {year doy : ℕ} (h : doy < daysInYear year) :
    (monthOf year doy).2 < 31 := by
  refine lt_of_lt_of_le (snd_splitUnits_lt 11 1 doy ?_) (daysInMonth_le _ _)
  have hstart : total (daysInMonth (leap year)) 1 = 0 := rfl
  rw [total_daysInMonth, hstart, Nat.zero_add]
  exact h

/-- The fields of a time. -/
def dateFields (time : ℤ) : DateFields :=
  let day := dayOf time
  let year := yearOf day
  let month := monthOf year.1 year.2
  let ms := (time % 86400000).toNat
  { year := day / cycleDays * 400 + year.1
    month := month.1
    day := month.2 + 1
    hour := ms / 3600000
    minute := ms / 60000 % 60
    second := ms / 1000 % 60
    milli := ms % 1000
    month_lt := lt_of_le_of_lt (fst_splitUnits_le 11 1 _) (by decide)
    day_lt :=
      lt_of_lt_of_le (Nat.succ_lt_succ (snd_monthOf_lt (snd_yearOf_lt (dayOf time)))) (by decide)
    hour_lt := by omega
    minute_lt := by omega
    second_lt := by omega
    milli_lt := by omega }

/-- **No two times have the same fields.** -/
theorem dateFields_injective {time time' : ℤ} (h : dateFields time = dateFields time') :
    time = time' := by
  simp only [dateFields, DateFields.mk.injEq] at h
  obtain ⟨hyear, hmonth, hday, hhour, hminute, hsecond, hmilli⟩ := h
  -- The year within the cycle is less than 400, so that both parts of the year agree.
  have hle := @fst_splitUnits_le daysInYear 399 0 (dayOf time % cycleDays).toNat
  have hle' := @fst_splitUnits_le daysInYear 399 0 (dayOf time' % cycleDays).toNat
  change (yearOf (dayOf time)).1 ≤ _ at hle
  change (yearOf (dayOf time')).1 ≤ _ at hle'
  have hcycle : dayOf time / cycleDays = dayOf time' / cycleDays := by omega
  have hinCycle : (yearOf (dayOf time)).1 = (yearOf (dayOf time')).1 := by omega
  -- The days of the months before, and the day in the month, are the day of the year.
  have hdoy : (yearOf (dayOf time)).2 = (yearOf (dayOf time')).2 := by
    have hsum := @total_splitUnits (daysInMonth (leap (yearOf (dayOf time)).1)) 11 1
      (yearOf (dayOf time)).2
    have hsum' := @total_splitUnits (daysInMonth (leap (yearOf (dayOf time)).1)) 11 1
      (yearOf (dayOf time')).2
    rw [← hinCycle] at hmonth hday
    change total _ (monthOf _ _).1 + (monthOf _ _).2 = _ at hsum hsum'
    rw [hmonth] at hsum
    omega
  have hdays : (dayOf time % cycleDays).toNat = (dayOf time' % cycleDays).toNat := by
    have hsum := @total_splitUnits daysInYear 399 0 (dayOf time % cycleDays).toNat
    have hsum' := @total_splitUnits daysInYear 399 0 (dayOf time' % cycleDays).toNat
    change total _ (yearOf _).1 + (yearOf _).2 = _ at hsum hsum'
    rw [hinCycle] at hsum
    omega
  unfold dayOf cycleDays at hdays hcycle
  omega

/-! ### The text -/

/-- A number in decimal, with zeros before it up to a width. -/
def pad (width n : ℕ) : Text :=
  List.leftpad width '0' (Nat.toDigits 10 n)

theorem ofDigitChars_pad (width n : ℕ) : Nat.ofDigitChars 10 (pad width n) 0 = n := by
  simp [pad, List.leftpad, Nat.ofDigitChars_append]

theorem isDigit_of_mem_pad {c : Char} {width n : ℕ} (h : c ∈ pad width n) : c.isDigit = true := by
  rcases List.mem_append.mp h with h | h
  · rw [List.eq_of_mem_replicate h]
    rfl
  · exact Nat.isDigit_of_mem_toDigits (by decide) (by decide) h

theorem length_pad {width n : ℕ} (hwidth : 0 < width) (h : n < 10 ^ width) :
    (pad width n).length = width := by
  have hle := (Nat.length_toDigits_le_iff (b := 10) (by decide) hwidth).mpr h
  simp [pad, List.leftpad, hle]

/-- A padded number can be read off the front of a text. -/
theorem pad_append_inj {width m n : ℕ} (hwidth : 0 < width) (hm : m < 10 ^ width)
    (hn : n < 10 ^ width) {t u : Text} (h : pad width m ++ t = pad width n ++ u) :
    m = n ∧ t = u := by
  obtain ⟨hpad, htail⟩ := List.append_inj h ((length_pad hwidth hm).trans (length_pad hwidth hn).symm)
  refine ⟨?_, htail⟩
  rw [← ofDigitChars_pad width m, hpad, ofDigitChars_pad]

def yearText (year : ℤ) : Text :=
  if 0 ≤ year ∧ year ≤ 9999 then pad 4 year.toNat
  else (if year < 0 then '-' else '+') :: pad 6 year.natAbs

theorem colon_notMem_pad (width n : ℕ) : ':' ∉ pad width n :=
  fun h => absurd (isDigit_of_mem_pad h) (by decide)

theorem colon_notMem_yearText (year : ℤ) : ':' ∉ yearText year := by
  unfold yearText
  split
  · exact colon_notMem_pad _ _
  · rw [List.mem_cons, not_or]
    refine ⟨?_, colon_notMem_pad _ _⟩
    split <;> decide

theorem yearText_injective {year year' : ℤ} (h : yearText year = yearText year') :
    year = year' := by
  -- A sign is no digit.
  have hsigned : ∀ {year year' : ℤ}, pad 4 year.toNat =
      (if year' < 0 then '-' else '+') :: pad 6 year'.natAbs → False := by
    intro year year' heq
    have hmem : (if year' < 0 then '-' else '+') ∈ pad 4 year.toNat := by
      rw [heq]
      exact List.mem_cons_self
    have hdigit := isDigit_of_mem_pad hmem
    split at hdigit <;> simp at hdigit
  have hvalue : ∀ {width m n : ℕ}, pad width m = pad width n → m = n := by
    intro width m n heq
    rw [← ofDigitChars_pad width m, heq, ofDigitChars_pad]
  unfold yearText at h
  by_cases hplain : 0 ≤ year ∧ year ≤ 9999
  · rw [if_pos hplain] at h
    by_cases hplain' : 0 ≤ year' ∧ year' ≤ 9999
    · rw [if_pos hplain'] at h
      have hsame := hvalue h
      omega
    · rw [if_neg hplain'] at h
      exact (hsigned h).elim
  · rw [if_neg hplain] at h
    by_cases hplain' : 0 ≤ year' ∧ year' ≤ 9999
    · rw [if_pos hplain'] at h
      exact (hsigned h.symm).elim
    · rw [if_neg hplain'] at h
      obtain ⟨hsign, hpad⟩ := List.cons.inj h
      have hsame := hvalue hpad
      split at hsign <;> split at hsign
      all_goals first | omega | simp at hsign

namespace DateFields

/-- The text of a date, from the month on. -/
def tail (x : DateFields) : Text :=
  '-' :: (pad 2 x.month ++ '-' :: (pad 2 x.day ++ 'T' :: (pad 2 x.hour ++ ':' ::
    (pad 2 x.minute ++ ':' :: (pad 2 x.second ++ '.' :: (pad 3 x.milli ++ ['Z']))))))

def toText (x : DateFields) : Text :=
  yearText x.year ++ x.tail

theorem length_tail (x : DateFields) : x.tail.length = 20 := by
  simp only [tail, List.length_cons, List.length_append, List.length_nil,
    length_pad (by decide : 0 < 2) x.month_lt, length_pad (by decide : 0 < 2) x.day_lt,
    length_pad (by decide : 0 < 2) x.hour_lt, length_pad (by decide : 0 < 2) x.minute_lt,
    length_pad (by decide : 0 < 2) x.second_lt, length_pad (by decide : 0 < 3) x.milli_lt]

/-- **A date can be read back from its text.** -/
theorem toText_injective {x y : DateFields} (h : x.toText = y.toText) : x = y := by
  obtain ⟨hyear, htail⟩ := List.append_inj' h (x.length_tail.trans y.length_tail.symm)
  unfold tail at htail
  obtain ⟨hmonth, htail⟩ := pad_append_inj (by decide) x.month_lt y.month_lt (List.cons.inj htail).2
  obtain ⟨hday, htail⟩ := pad_append_inj (by decide) x.day_lt y.day_lt (List.cons.inj htail).2
  obtain ⟨hhour, htail⟩ := pad_append_inj (by decide) x.hour_lt y.hour_lt (List.cons.inj htail).2
  obtain ⟨hminute, htail⟩ :=
    pad_append_inj (by decide) x.minute_lt y.minute_lt (List.cons.inj htail).2
  obtain ⟨hsecond, htail⟩ :=
    pad_append_inj (by decide) x.second_lt y.second_lt (List.cons.inj htail).2
  obtain ⟨hmilli, -⟩ := pad_append_inj (by decide) x.milli_lt y.milli_lt (List.cons.inj htail).2
  exact DateFields.ext (yearText_injective hyear) hmonth hday hhour hminute hsecond hmilli

theorem count_colon_toText (x : DateFields) : x.toText.count ':' = 2 := by
  have hpad : ∀ width n, (pad width n).count ':' = 0 :=
    fun width n => List.count_eq_zero.mpr (colon_notMem_pad width n)
  have hyear := List.count_eq_zero.mpr (colon_notMem_yearText x.year)
  simp [toText, tail, List.count_append, hpad, hyear]

theorem getLast_toText (x : DateFields) : x.toText.getLast? = some 'Z' := by
  simp [toText, tail, List.getLast?_append, List.getLast?_cons]

end DateFields

/-- `toISOString` of a time in milliseconds. -/
def toISOString (time : ℤ) : Text :=
  (dateFields time).toText

example : toISOString 1780480800000 = "2026-06-03T10:00:00.000Z".toList := by decide +kernel

/-- **No two times have one text.** -/
theorem toISOString_injective {time time' : ℤ} (h : toISOString time = toISOString time') :
    time = time' :=
  dateFields_injective (DateFields.toText_injective h)

/-- The text of a time has two colons. -/
theorem count_colon_toISOString (time : ℤ) : (toISOString time).count ':' = 2 :=
  DateFields.count_colon_toText _

theorem getLast_toISOString (time : ℤ) : (toISOString time).getLast? = some 'Z' :=
  DateFields.getLast_toText _

end Framework
