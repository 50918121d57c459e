import EmailOps.Framework.Text

/-!
# UTF-8, an octet at a time

A decoder of a stream sees the octets in the pieces the network makes of them. It therefore keeps
the octets of an unfinished character in its state.

* `octets` is the encoding of a character, and `encode` that of a text.
* `Decoder.step` is the decoder of the encoding standard: the character it has begun, how many
  octets are missing, and in what range the next one is.
* `decode_encode`: what was encoded is decoded, and the decoder has nothing begun after it.
* `decode_append`: where the pieces are cut makes no difference.
-/

namespace Framework
namespace Utf8

open Text

/-! ### Encoding -/

/-- The octets of a character. -/
def octets (c : Char) : List ℕ :=
  let n := c.toNat
  if n < 0x80 then [n]
  else if n < 0x800 then [0xc0 + n / 64, 0x80 + n % 64]
  else if n < 0x10000 then [0xe0 + n / 4096, 0x80 + n / 64 % 64, 0x80 + n % 64]
  else [0xf0 + n / 262144, 0x80 + n / 4096 % 64, 0x80 + n / 64 % 64, 0x80 + n % 64]

/-- The octets of a text. -/
def encode (t : Text) : List ℕ :=
  t.flatMap octets

/-! ### Decoding -/

/-- A decoder: the code point so far, the octets that are missing, and the least and the greatest
that the next one may be. -/
structure Decoder where
  point : ℕ
  needed : ℕ
  lower : ℕ
  upper : ℕ
  deriving DecidableEq

/-- Nothing is begun. -/
def Decoder.fresh : Decoder := ⟨0, 0, 0x80, 0xbf⟩

/-- The first octet of a character. -/
def Decoder.first (b : ℕ) : Decoder × Text :=
  if b < 0x80 then (.fresh, [Char.ofNat b])
  else if 0xc2 ≤ b ∧ b ≤ 0xdf then (⟨b - 0xc0, 1, 0x80, 0xbf⟩, [])
  else if b = 0xe0 then (⟨0, 2, 0xa0, 0xbf⟩, [])
  else if b = 0xed then (⟨13, 2, 0x80, 0x9f⟩, [])
  else if 0xe1 ≤ b ∧ b ≤ 0xef then (⟨b - 0xe0, 2, 0x80, 0xbf⟩, [])
  else if b = 0xf0 then (⟨0, 3, 0x90, 0xbf⟩, [])
  else if b = 0xf4 then (⟨4, 3, 0x80, 0x8f⟩, [])
  else if 0xf1 ≤ b ∧ b ≤ 0xf3 then (⟨b - 0xf0, 3, 0x80, 0xbf⟩, [])
  else (.fresh, ['\ufffd'])

/-- An octet. One that cannot continue the character begins the next one. -/
def Decoder.step (d : Decoder) (b : ℕ) : Decoder × Text :=
  if d.needed = 0 then Decoder.first b
  else if d.lower ≤ b ∧ b ≤ d.upper then
    let point := d.point * 64 + (b - 0x80)
    if d.needed = 1 then (.fresh, [Char.ofNat point])
    else (⟨point, d.needed - 1, 0x80, 0xbf⟩, [])
  else ((Decoder.first b).1, '\ufffd' :: (Decoder.first b).2)

/-- `decoder.decode(octets, { stream: true })` -/
def Decoder.decode (d : Decoder) : List ℕ → Decoder × Text
  | [] => (d, [])
  | b :: bs => (((d.step b).1.decode bs).1, (d.step b).2 ++ ((d.step b).1.decode bs).2)

@[simp] theorem decode_nil (d : Decoder) : d.decode [] = (d, []) := rfl

theorem decode_cons (d : Decoder) (b : ℕ) (bs : List ℕ) :
    d.decode (b :: bs) =
      (((d.step b).1.decode bs).1, (d.step b).2 ++ ((d.step b).1.decode bs).2) := rfl

/-- **Where the octets are cut makes no difference.** -/
theorem decode_append (d : Decoder) (bs cs : List ℕ) :
    d.decode (bs ++ cs) =
      (((d.decode bs).1.decode cs).1, (d.decode bs).2 ++ ((d.decode bs).1.decode cs).2) := by
  induction bs generalizing d with
  | nil => simp
  | cons b bs ih => simp only [List.cons_append, decode_cons, ih, List.append_assoc]

/-! ### One character -/

theorem step_fresh (b : ℕ) : Decoder.fresh.step b = Decoder.first b := rfl

theorem first_ascii {b : ℕ} (h : b < 0x80) : Decoder.first b = (.fresh, [Char.ofNat b]) :=
  if_pos h

theorem first_two {b : ℕ} (hle : 0xc2 ≤ b) (hge : b ≤ 0xdf) :
    Decoder.first b = (⟨b - 0xc0, 1, 0x80, 0xbf⟩, []) := by
  unfold Decoder.first
  rw [if_neg (by omega), if_pos ⟨hle, hge⟩]

/-- The first octet of three: what the second may be keeps out what is shorter, and surrogates. -/
theorem first_three {b : ℕ} (hle : 0xe0 ≤ b) (hge : b ≤ 0xef) :
    ∃ lower upper, Decoder.first b = (⟨b - 0xe0, 2, lower, upper⟩, []) ∧
      (∀ c, 0x80 ≤ c → c ≤ 0xbf → (b = 0xe0 → 0xa0 ≤ c) → (b = 0xed → c ≤ 0x9f) →
        lower ≤ c ∧ c ≤ upper) := by
  unfold Decoder.first
  rw [if_neg (by omega), if_neg (by omega)]
  split_ifs with hlow hsurrogate hmid
  · subst hlow
    exact ⟨0xa0, 0xbf, rfl, fun c _ hc h _ => ⟨h rfl, hc⟩⟩
  · subst hsurrogate
    exact ⟨0x80, 0x9f, rfl, fun c hc _ _ h => ⟨hc, h rfl⟩⟩
  · exact ⟨0x80, 0xbf, rfl, fun c hc hc' _ _ => ⟨hc, hc'⟩⟩
  all_goals omega

/-- The first octet of four. -/
theorem first_four {b : ℕ} (hle : 0xf0 ≤ b) (hge : b ≤ 0xf4) :
    ∃ lower upper, Decoder.first b = (⟨b - 0xf0, 3, lower, upper⟩, []) ∧
      (∀ c, 0x80 ≤ c → c ≤ 0xbf → (b = 0xf0 → 0x90 ≤ c) → (b = 0xf4 → c ≤ 0x8f) →
        lower ≤ c ∧ c ≤ upper) := by
  unfold Decoder.first
  rw [if_neg (by omega), if_neg (by omega), if_neg (by omega), if_neg (by omega),
    if_neg (by omega)]
  split_ifs with hlow htop hmid
  · subst hlow
    exact ⟨0x90, 0xbf, rfl, fun c _ hc h _ => ⟨h rfl, hc⟩⟩
  · subst htop
    exact ⟨0x80, 0x8f, rfl, fun c hc _ _ h => ⟨hc, h rfl⟩⟩
  · exact ⟨0x80, 0xbf, rfl, fun c hc hc' _ _ => ⟨hc, hc'⟩⟩
  · omega

theorem step_last {d : Decoder} (hneeded : d.needed = 1) {b : ℕ} (hle : d.lower ≤ b)
    (hge : b ≤ d.upper) :
    d.step b = (.fresh, [Char.ofNat (d.point * 64 + (b - 0x80))]) := by
  unfold Decoder.step
  rw [if_neg (by omega), if_pos ⟨hle, hge⟩, if_pos hneeded]

theorem step_more {d : Decoder} (hneeded : 1 < d.needed) {b : ℕ} (hle : d.lower ≤ b)
    (hge : b ≤ d.upper) :
    d.step b = (⟨d.point * 64 + (b - 0x80), d.needed - 1, 0x80, 0xbf⟩, []) := by
  unfold Decoder.step
  rw [if_neg (by omega), if_pos ⟨hle, hge⟩, if_neg (by omega)]

/-- No character is a surrogate, and none is past the last plane. -/
theorem toNat_range (c : Char) : (c.toNat < 0xd800 ∨ 0xdfff < c.toNat) ∧ c.toNat < 0x110000 := by
  have hvalid : c.toNat < 0xd800 ∨ 0xdfff < c.toNat ∧ c.toNat < 0x110000 := c.valid
  omega

/-- **A character is decoded to itself.** -/
theorem decode_octets (c : Char) : Decoder.fresh.decode (octets c) = (.fresh, [c]) := by
  obtain ⟨hsurrogate, htop⟩ := toNat_range c
  have hc : Char.ofNat c.toNat = c := Char.ofNat_toNat c
  unfold octets
  generalize c.toNat = n at *
  simp only
  split_ifs with hone htwo hthree
  · rw [decode_cons, step_fresh, first_ascii hone, hc]
    rfl
  · rw [decode_cons, step_fresh, first_two (by omega) (by omega), decode_cons,
      step_last rfl (by simp only; omega) (by simp only; omega)]
    have hpoint : (0xc0 + n / 64 - 0xc0) * 64 + (0x80 + n % 64 - 0x80) = n := by omega
    simp only [hpoint, hc]
    rfl
  · obtain ⟨lower, upper, hfirst, hsecond⟩ :=
      first_three (b := 0xe0 + n / 4096) (by omega) (by omega)
    obtain ⟨hle, hge⟩ := hsecond (0x80 + n / 64 % 64) (by omega) (by omega) (by omega) (by omega)
    rw [decode_cons, step_fresh, hfirst, decode_cons, step_more (by simp) hle hge, decode_cons,
      step_last rfl (by simp only; omega) (by simp only; omega)]
    have hpoint : ((0xe0 + n / 4096 - 0xe0) * 64 + (0x80 + n / 64 % 64 - 0x80)) * 64 +
        (0x80 + n % 64 - 0x80) = n := by omega
    simp only [hpoint, hc]
    rfl
  · obtain ⟨lower, upper, hfirst, hsecond⟩ :=
      first_four (b := 0xf0 + n / 262144) (by omega) (by omega)
    obtain ⟨hle, hge⟩ := hsecond (0x80 + n / 4096 % 64) (by omega) (by omega) (by omega) (by omega)
    rw [decode_cons, step_fresh, hfirst, decode_cons, step_more (by simp) hle hge, decode_cons,
      step_more (by simp) (by simp only; omega) (by simp only; omega), decode_cons,
      step_last rfl (by simp only; omega) (by simp only; omega)]
    have hpoint : (((0xf0 + n / 262144 - 0xf0) * 64 + (0x80 + n / 4096 % 64 - 0x80)) * 64 +
        (0x80 + n / 64 % 64 - 0x80)) * 64 + (0x80 + n % 64 - 0x80) = n := by omega
    simp only [hpoint, hc]
    rfl

/-- **What was encoded is decoded.** -/
theorem decode_encode (t : Text) : Decoder.fresh.decode (encode t) = (.fresh, t) := by
  induction t with
  | nil => rfl
  | cons c t ih =>
    have hsplit : encode (c :: t) = octets c ++ encode t := List.flatMap_cons
    rw [hsplit, decode_append, decode_octets, ih]
    rfl

/-! ### Pieces -/

/-- The texts of the pieces, one after the other. -/
def Decoder.pieces (d : Decoder) : List (List ℕ) → List Text
  | [] => []
  | bs :: rest => (d.decode bs).2 :: (d.decode bs).1.pieces rest

/-- **The texts of the pieces are the text of all of them.** -/
theorem flatten_pieces (d : Decoder) (pieces : List (List ℕ)) :
    (d.pieces pieces).flatten = (d.decode pieces.flatten).2 := by
  induction pieces generalizing d with
  | nil => rfl
  | cons bs rest ih =>
    rw [List.flatten_cons, decode_append, ← ih]
    rfl

/-- The pieces of an encoded text, however it is cut, are the text. -/
theorem flatten_pieces_of_encode {pieces : List (List ℕ)} {t : Text}
    (h : pieces.flatten = encode t) : (Decoder.fresh.pieces pieces).flatten = t := by
  rw [flatten_pieces, h, decode_encode]

end Utf8
end Framework
