import Mathlib.Data.List.Lex
import EmailOps.Framework.Text

/-!
# Texts in UTF-16

Some languages count, cut and compare texts by their UTF-16 code units: a character past the
Basic Multilingual Plane counts twice, as a surrogate pair.

* `utf16` are the code units of a text; `length_le_utf16`.
* `Before` is the order of two texts by their code units. It looks past what the two have in
  common at the front (`before_append_left`), and then at the first character
  (`before_of_head`).
-/

namespace Framework
namespace Text

/-- The code units of a character: one, or a surrogate pair. -/
def codeUnits (c : Char) : List ℕ :=
  if c.toNat < 0x10000 then [c.toNat]
  else [0xd800 + (c.toNat - 0x10000) / 0x400, 0xdc00 + (c.toNat - 0x10000) % 0x400]

/-- A text in UTF-16. -/
def utf16 (t : Text) : List ℕ :=
  t.flatMap codeUnits

theorem length_le_utf16 (t : Text) : t.length ≤ (utf16 t).length := by
  induction t with
  | nil => exact le_rfl
  | cons c t ih =>
    have hunit : 1 ≤ (codeUnits c).length := by
      unfold codeUnits
      split <;> simp
    rw [utf16, List.flatMap_cons, List.length_append, List.length_cons]
    change _ ≤ _ + (utf16 t).length
    omega

/-- One text comes before another, by their code units. -/
def Before (s t : Text) : Prop :=
  utf16 s < utf16 t

instance (s t : Text) : Decidable (Before s t) :=
  inferInstanceAs (Decidable (utf16 s < utf16 t))

theorem before_irrefl (s : Text) : ¬ Before s s :=
  List.lt_irrefl (utf16 s)

theorem before_asymm {s t : Text} (h : Before s t) : ¬ Before t s :=
  List.lt_asymm h

theorem before_append_left (p : Text) {s t : Text} (h : Before s t) :
    Before (p ++ s) (p ++ t) := by
  unfold Before utf16
  rw [List.flatMap_append, List.flatMap_append]
  exact List.append_left_lt h

theorem before_of_head {c d : Char} (hcd : c.toNat < d.toNat) (hd : d.toNat < 0x10000)
    (s t : Text) : Before (c :: s) (d :: t) := by
  unfold Before utf16
  rw [List.flatMap_cons, List.flatMap_cons, codeUnits, codeUnits, if_pos (hcd.trans hd), if_pos hd]
  exact List.cons_lt_cons_iff.mpr (.inl hcd)

end Text
end Framework
