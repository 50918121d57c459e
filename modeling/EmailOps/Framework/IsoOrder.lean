import Mathlib.Tactic.IntervalCases
import EmailOps.Framework.IsoDate
import EmailOps.Framework.Utf16

/-!
# The order of times as texts

Texts of times are compared where times should be. The order of the texts is that of the
times as long as the years are written alike: with four digits, in the years 0 to 9999, or
with a sign before them in an earlier year, which comes before any digit.

* `splitUnits_lt`: units of varying lengths keep the order of the numbers.
* `earlier_dateFields`: of two times the later has the later field, at the first that differs.
* `before_pad`: padded numbers keep their order as texts.
* `before_toISOString_iff` is the order of the texts.
-/

namespace Framework

open Text

/-! ### Fields -/

variable {len : ℕ → ℕ}

theorem total_le_total {m n : ℕ} (h : m ≤ n) : total len m ≤ total len n := by
  induction h with
  | refl => exact le_rfl
  | step _ ih => exact ih.trans (by rw [total_succ]; exact Nat.le_add_right _ _)

/-- Of two numbers made up of units and a rest, the greater has more units, or as many and
the greater rest. -/
theorem splitUnits_lt {m n r s : ℕ} (hr : s < len n) (h : total len m + r < total len n + s) :
    m < n ∨ m = n ∧ r < s := by
  rcases lt_trichotomy m n with hlt | rfl | hgt
  · exact .inl hlt
  · exact .inr ⟨rfl, by omega⟩
  · have hle := @total_le_total len (n + 1) m hgt
    rw [total_succ] at hle
    omega

/-- The year within the cycle and the day in it, of two days of one cycle. -/
theorem yearOf_lt {day day' : ℤ} (h : day % cycleDays < day' % cycleDays) :
    (yearOf day).1 < (yearOf day').1 ∨
      (yearOf day).1 = (yearOf day').1 ∧ (yearOf day).2 < (yearOf day').2 := by
  have hsum := @total_splitUnits daysInYear 399 0 (day % cycleDays).toNat
  have hsum' := @total_splitUnits daysInYear 399 0 (day' % cycleDays).toNat
  change total _ (yearOf _).1 + (yearOf _).2 = _ at hsum hsum'
  have hpos := Int.emod_nonneg day (show cycleDays ≠ 0 by decide)
  exact splitUnits_lt (snd_yearOf_lt day') (by omega)

theorem snd_monthOf_lt_daysInMonth {year doy : ℕ} (h : doy < daysInYear year) :
    (monthOf year doy).2 < daysInMonth (leap year) (monthOf year doy).1 := by
  refine snd_splitUnits_lt 11 1 doy ?_
  have hstart : total (daysInMonth (leap year)) 1 = 0 := rfl
  rw [total_daysInMonth, hstart, Nat.zero_add]
  exact h

theorem monthOf_lt {year doy doy' : ℕ} (h : doy < doy') (h' : doy' < daysInYear year) :
    (monthOf year doy).1 < (monthOf year doy').1 ∨
      (monthOf year doy).1 = (monthOf year doy').1 ∧ (monthOf year doy).2 < (monthOf year doy').2 := by
  have hsum := @total_splitUnits (daysInMonth (leap year)) 11 1 doy
  have hsum' := @total_splitUnits (daysInMonth (leap year)) 11 1 doy'
  change total _ (monthOf _ _).1 + (monthOf _ _).2 = _ at hsum hsum'
  exact splitUnits_lt (snd_monthOf_lt_daysInMonth h') (by omega)

/-- The first field that differs is less. -/
def DateFields.Earlier (x y : DateFields) : Prop :=
  x.year < y.year ∨ x.year = y.year ∧ (x.month < y.month ∨ x.month = y.month ∧
    (x.day < y.day ∨ x.day = y.day ∧ (x.hour < y.hour ∨ x.hour = y.hour ∧
      (x.minute < y.minute ∨ x.minute = y.minute ∧ (x.second < y.second ∨ x.second = y.second ∧
        x.milli < y.milli)))))

/-- **Of two times the earlier has the earlier fields.** -/
theorem earlier_dateFields {time time' : ℤ} (h : time < time') :
    (dateFields time).Earlier (dateFields time') := by
  have hle := @fst_splitUnits_le daysInYear 399 0 (dayOf time % cycleDays).toNat
  have hle' := @fst_splitUnits_le daysInYear 399 0 (dayOf time' % cycleDays).toNat
  change (yearOf (dayOf time)).1 ≤ _ at hle
  change (yearOf (dayOf time')).1 ≤ _ at hle'
  have hcycle : (0 : ℤ) < cycleDays := by decide
  unfold DateFields.Earlier
  simp only [dateFields]
  rcases lt_or_eq_of_le (show dayOf time ≤ dayOf time' by unfold dayOf; omega) with hday | hday
  · rcases lt_or_eq_of_le (Int.ediv_le_ediv hcycle hday.le) with hlt | heq
    · -- another cycle
      refine .inl ?_
      omega
    · have hmod : dayOf time % cycleDays < dayOf time' % cycleDays := by
        unfold cycleDays at *
        omega
      rcases yearOf_lt hmod with hyear | ⟨hyear, hdoy⟩
      · exact .inl (by omega)
      · refine .inr ⟨by omega, ?_⟩
        have hlt := snd_yearOf_lt (dayOf time')
        rw [← hyear] at hlt ⊢
        rcases monthOf_lt hdoy hlt with hmonth | ⟨hmonth, hdayOf⟩
        · exact .inl hmonth
        · exact .inr ⟨hmonth, .inl (by omega)⟩
  · have hms : time % 86400000 < time' % 86400000 := by
      unfold dayOf at hday
      omega
    rw [hday]
    refine .inr ⟨rfl, .inr ⟨rfl, .inr ⟨rfl, ?_⟩⟩⟩
    omega

/-! ### Texts -/

theorem pad_succ {width : ℕ} (hwidth : 0 < width) (n : ℕ) :
    pad (width + 1) n = pad width (n / 10) ++ [Nat.digitChar (n % 10)] := by
  unfold pad List.leftpad
  rcases Nat.lt_or_ge n 10 with hlt | hge
  · obtain ⟨w, rfl⟩ := Nat.exists_eq_add_one.mpr hwidth
    rw [Nat.div_eq_of_lt hlt, Nat.mod_eq_of_lt hlt, Nat.toDigits_zero,
      Nat.toDigits_of_lt_base hlt]
    simp [List.replicate_succ']
  · rw [Nat.toDigits_of_base_le (by decide) hge, List.length_append, List.length_singleton,
      Nat.add_sub_add_right, List.append_assoc]

theorem toNat_digitChar {n : ℕ} (h : n < 10) : (Nat.digitChar n).toNat = 48 + n := by
  interval_cases n <;> rfl

/-- **Padded numbers keep their order**, whatever comes after them. -/
theorem before_pad {width m n : ℕ} (hwidth : 0 < width) (hmn : m < n) (hn : n < 10 ^ width)
    (s t : Text) : Before (pad width m ++ s) (pad width n ++ t) := by
  induction width, hwidth using Nat.le_induction generalizing m n s t with
  | base =>
    have hn' : n < 10 := by simpa using hn
    have hm' : m < 10 := hmn.trans hn'
    simp only [pad, List.leftpad, Nat.toDigits_of_lt_base hm', Nat.toDigits_of_lt_base hn']
    refine before_of_head ?_ ?_ _ _
    · rw [toNat_digitChar hm', toNat_digitChar hn']
      omega
    · rw [toNat_digitChar hn']
      omega
  | succ width hwidth ih =>
    have hm10 := toNat_digitChar (Nat.mod_lt m (show 0 < 10 by decide))
    have hn10 := toNat_digitChar (Nat.mod_lt n (show 0 < 10 by decide))
    rw [pad_succ hwidth, pad_succ hwidth, List.append_assoc, List.append_assoc]
    rcases lt_or_eq_of_le (show m / 10 ≤ n / 10 by omega) with hlt | heq
    · refine ih hlt ?_ _ _
      rw [pow_succ] at hn
      omega
    · rw [heq]
      refine before_append_left _ (before_of_head ?_ ?_ s t) <;> omega

/-- The text from a padded number on. -/
theorem before_pad_or {width m n : ℕ} (hwidth : 0 < width) (hn : n < 10 ^ width) {s t : Text}
    (h : m < n ∨ m = n ∧ Before s t) : Before (pad width m ++ s) (pad width n ++ t) := by
  rcases h with hlt | ⟨rfl, hrest⟩
  · exact before_pad hwidth hlt hn s t
  · exact before_append_left _ hrest

theorem before_cons (c : Char) {s t : Text} (h : Before s t) : Before (c :: s) (c :: t) :=
  before_append_left [c] h

namespace DateFields

variable {x y : DateFields}

/-- The years from 0 to 9999, which are written without a sign. -/
def FourDigits (x : DateFields) : Prop :=
  0 ≤ x.year ∧ x.year ≤ 9999

theorem before_toText_of_earlier (hx : x.FourDigits) (hy : y.FourDigits) (h : x.Earlier y) :
    Before x.toText y.toText := by
  unfold FourDigits at hx hy
  unfold toText yearText tail
  rw [if_pos hx, if_pos hy]
  refine before_pad_or (by decide) (by omega) (h.imp (by omega) fun ⟨hyear, h⟩ => ⟨by omega, ?_⟩)
  refine before_cons '-' (before_pad_or (by decide) y.month_lt (h.imp_right fun ⟨hmonth, h⟩ =>
    ⟨hmonth, ?_⟩))
  refine before_cons '-' (before_pad_or (by decide) y.day_lt (h.imp_right fun ⟨hday, h⟩ =>
    ⟨hday, ?_⟩))
  refine before_cons 'T' (before_pad_or (by decide) y.hour_lt (h.imp_right fun ⟨hhour, h⟩ =>
    ⟨hhour, ?_⟩))
  refine before_cons ':' (before_pad_or (by decide) y.minute_lt (h.imp_right fun ⟨hminute, h⟩ =>
    ⟨hminute, ?_⟩))
  refine before_cons ':' (before_pad_or (by decide) y.second_lt (h.imp_right fun ⟨hsecond, h⟩ =>
    ⟨hsecond, ?_⟩))
  exact before_cons '.' (before_pad (by decide) h y.milli_lt _ _)

/-- A sign comes before any digit. -/
theorem before_toText_of_negative (hx : x.year < 0) (hy : y.FourDigits) :
    Before x.toText y.toText := by
  unfold FourDigits at hy
  have hlen := length_pad (show 0 < 4 by decide) (show y.year.toNat < 10 ^ 4 by omega)
  unfold toText yearText
  rw [if_neg (by omega), if_pos hx, if_pos hy]
  cases hpad : pad 4 y.year.toNat with
  | nil => simp [hpad] at hlen
  | cons c s =>
    have hdigit := isDigit_of_mem_pad (hpad ▸ List.mem_cons_self : c ∈ pad 4 y.year.toNat)
    simp only [Char.isDigit, ge_iff_le, UInt32.le_iff_toNat_le, Bool.and_eq_true,
      decide_eq_true_eq] at hdigit
    have hge : 48 ≤ c.toNat := hdigit.1
    have hle : c.toNat ≤ 57 := hdigit.2
    have hsign : '-'.toNat < c.toNat := lt_of_lt_of_le (by decide) hge
    exact before_of_head hsign (by omega) _ _

end DateFields

/-- **The order of the texts is that of the times**, up to the end of the year 9999. -/
theorem before_toISOString_iff {time now : ℤ} (htime : (dateFields time).year ≤ 9999)
    (hnow : (dateFields now).FourDigits) :
    Before (toISOString time) (toISOString now) ↔ time < now := by
  rcases lt_or_ge (dateFields time).year 0 with hneg | hpos
  · -- a time before the year 0 is before any that is written without a sign
    refine iff_of_true (DateFields.before_toText_of_negative hneg hnow) ?_
    by_contra hge
    rcases lt_or_eq_of_le (not_lt.mp hge) with hlt | rfl
    · have hyear : (dateFields now).year ≤ (dateFields time).year := by
        rcases earlier_dateFields hlt with h | h
        · exact h.le
        · exact h.1.le
      exact absurd (hnow.1.trans hyear) (not_le.mpr hneg)
    · exact absurd hnow.1 (not_le.mpr hneg)
  · have htime' : (dateFields time).FourDigits := ⟨hpos, htime⟩
    constructor
    · intro hbefore
      by_contra hge
      rcases lt_or_eq_of_le (not_lt.mp hge) with hlt | rfl
      · exact before_asymm hbefore
          (DateFields.before_toText_of_earlier hnow htime' (earlier_dateFields hlt))
      · exact before_irrefl _ hbefore
    · intro hlt
      exact DateFields.before_toText_of_earlier htime' hnow (earlier_dateFields hlt)

end Framework
