import Mathlib.Data.List.Count
import EmailOps.Framework.Utf16

/-!
# Literals and numbers of JSON

* `unescape` is the text that is written in a string literal. It goes by UTF-16 code units, so
  that two escapes may be one character. A surrogate without a partner is no character, and is
  read as the replacement character.
* `count_ofUtf16`: an ASCII character occurs as often as its code unit.
* `isNumber` says which words are numbers.
-/

namespace Framework
namespace JsonText

open Text

/-! ### Code units -/

def isHigh (u : ℕ) : Bool :=
  0xd800 ≤ u && u < 0xdc00

def isLow (u : ℕ) : Bool :=
  0xdc00 ≤ u && u < 0xe000

/-- The character of a code unit that has no partner. -/
def single (u : ℕ) : Char :=
  if isHigh u || isLow u then '\ufffd' else Char.ofNat u

/-- The character of a surrogate pair. -/
def pair (u u' : ℕ) : Char :=
  Char.ofNat (0x10000 + (u - 0xd800) * 0x400 + (u' - 0xdc00))

/-- The text of code units. -/
def ofUtf16 : List ℕ → Text
  | [] => []
  | [u] => [single u]
  | u :: u' :: us =>
    if isHigh u && isLow u' then pair u u' :: ofUtf16 us else single u :: ofUtf16 (u' :: us)

/-! ### Escapes -/

/-- Where a place in a literal is: at a character, after a backslash, or at a hexadecimal digit
of a code unit, before so many others. -/
inductive Escape where
  | plain | slash
  | hex (more : ℕ) (u : ℕ)

/-- A character that is written with a backslash. -/
def escaped (c : Char) : Option ℕ :=
  if c = '"' || c = '\\' || c = '/' then some c.toNat
  else if c = 'b' then some 8
  else if c = 'f' then some 12
  else if c = 'n' then some 10
  else if c = 'r' then some 13
  else if c = 't' then some 9
  else none

def hexDigit (c : Char) : Option ℕ :=
  if '0' ≤ c && c ≤ '9' then some (c.toNat - 48)
  else if 'a' ≤ c && c ≤ 'f' then some (c.toNat - 87)
  else if 'A' ≤ c && c ≤ 'F' then some (c.toNat - 55)
  else none

/-- The code units that are written in a literal. -/
def units : Escape → Text → Option (List ℕ)
  | .plain, [] => some []
  | .slash, [] | .hex _ _, [] => none
  | .plain, c :: t =>
    if c = '\\' then units .slash t else (units .plain t).map (codeUnits c ++ ·)
  | .slash, c :: t =>
    if c = 'u' then units (.hex 3 0) t
    else (escaped c).bind fun u => (units .plain t).map (u :: ·)
  | .hex more u, c :: t =>
    (hexDigit c).bind fun d =>
      match more with
      | 0 => (units .plain t).map ((16 * u + d) :: ·)
      | more + 1 => units (.hex more (16 * u + d)) t

/-- The text that is written in a literal. -/
def unescape (raw : Text) : Option Text :=
  (units .plain raw).map ofUtf16

/-! ### Numbers -/

def isExponent : Text → Bool
  | [] => true
  | c :: t =>
    let digits := if t.head? = some '+' || t.head? = some '-' then t.drop 1 else t
    (c = 'e' || c = 'E') && digits ≠ [] && digits.all Char.isDigit

def isFraction : Text → Bool
  | '.' :: t => t.takeWhile Char.isDigit ≠ [] && isExponent (t.dropWhile Char.isDigit)
  | t => isExponent t

/-- `-?(?:0|[1-9]\d*)(\.\d+)?([eE][-+]?\d+)?` -/
def isNumber (t : Text) : Bool :=
  let t := if t.head? = some '-' then t.drop 1 else t
  let integer := t.takeWhile Char.isDigit
  integer ≠ [] && (integer = ['0'] || integer.head? ≠ some '0') &&
    isFraction (t.dropWhile Char.isDigit)

/-! ### Characters and their code units -/

theorem toNat_eq_of_ofNat {d : Char} (hd : 0 < d.toNat) {n : ℕ} (h : Char.ofNat n = d) :
    n = d.toNat := by
  by_cases hvalid : n.isValidChar
  · have hchar : Char.ofNat n = Char.ofNatAux n hvalid := dif_pos hvalid
    exact congrArg Char.toNat (hchar.symm.trans h)
  · have hzero : (Char.ofNat n).toNat = 0 := congrArg Char.toNat (dif_neg hvalid)
    rw [h] at hzero
    omega

theorem single_eq_iff {d : Char} (hd : 0 < d.toNat) (hascii : d.toNat < 128) (u : ℕ) :
    single u = d ↔ u = d.toNat := by
  unfold single isHigh isLow
  constructor
  · intro h
    split_ifs at h
    · rw [← h] at hascii
      exact absurd hascii (by decide)
    · exact toNat_eq_of_ofNat hd h
  · rintro rfl
    rw [if_neg (by simp; omega), Char.ofNat_toNat]

theorem pair_ne {d : Char} (hd : 0 < d.toNat) (hascii : d.toNat < 128) (u u' : ℕ) :
    pair u u' ≠ d := by
  intro h
  have hnat := toNat_eq_of_ofNat hd h
  omega

/-- **An ASCII character** occurs as often as its code unit. -/
theorem count_ofUtf16 {d : Char} (hd : 0 < d.toNat) (hascii : d.toNat < 128) (us : List ℕ) :
    (ofUtf16 us).count d = us.count d.toNat := by
  have hsingle : ∀ u t, (single u :: t : Text).count d = t.count d + if u = d.toNat then 1 else 0 := by
    intro u t
    rw [List.count_cons]
    simp only [beq_iff_eq, single_eq_iff hd hascii]
  fun_induction ofUtf16 us with
  | case1 => rfl
  | case2 u =>
    rw [hsingle, List.count_cons]
    simp
  | case3 u u' us hpair ih =>
    simp only [isHigh, isLow, Bool.and_eq_true, decide_eq_true_eq] at hpair
    have hu : u ≠ d.toNat := by omega
    have hu' : u' ≠ d.toNat := by omega
    rw [List.count_cons_of_ne (pair_ne hd hascii u u'), ih, List.count_cons_of_ne hu,
      List.count_cons_of_ne hu']
  | case4 u u' us hpair ih =>
    rw [hsingle, ih, List.count_cons (a := d.toNat) (b := u)]
    simp only [beq_iff_eq]

end JsonText
end Framework
