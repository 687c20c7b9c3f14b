import Mathlib.Tactic.SplitIfs
import Passcode.Text.Encoding

/-!
# Encodings — a text that is written in UTF-8 is read back

The decoder of UTF-8 goes from character to character, and each step reads as many bytes as the
first of them asks for (`utf8From_one` to `utf8From_four`).  The bytes of one character are read
back as that character (`utf8From_encodeChar`), so those of a text as that text
(`utf8From_utf8Bytes`).

Behind a byte order mark the text is read alike; without one, a mark at the start of the text itself
is dropped (`utf8MarkedFrom_mark`, `utf8MarkedFrom_utf8Bytes`).
-/

namespace Passcode

namespace Encoding

variable {a b c d : UInt8} {rest : List UInt8} {pos : Nat}

/-! ### Steps -/

/-- The byte starts a character of more than one byte. -/
structure StartsMore (a : UInt8) : Prop where
  least : 0xC2 ≤ a.toNat
  greatest : a.toNat < 0xF5

theorem StartsMore.not_single (ha : StartsMore a) : ¬ a < 0x80 := fun h =>
  Nat.not_le_of_lt (UInt8.lt_iff_toNat_lt.mp h) (Nat.le_trans (by decide) ha.least)

theorem StartsMore.not_bad (ha : StartsMore a) : ¬ (a < 0xC2 || 0xF5 ≤ a) = true := by
  rw [Bool.or_eq_true, decide_eq_true_eq, decide_eq_true_eq, not_or]
  exact ⟨fun h => Nat.not_lt_of_le ha.least (UInt8.lt_iff_toNat_lt.mp h),
    fun h => Nat.not_le_of_lt ha.greatest (UInt8.le_iff_toNat_le.mp h)⟩

/-- A character of one byte is read. -/
theorem utf8From_one (ha : a.toNat < 0x80) :
    utf8From pos (a :: rest) = putChar a.toNat (utf8From (pos + 1) rest) := by
  rw [utf8From.eq_def]
  exact if_pos (UInt8.lt_iff_toNat_lt.mpr ha)

/-- A character of two bytes is read. -/
theorem utf8From_two (ha : StartsMore a) (h₂ : a.toNat < 0xE0) (hb : secondFits a b = true) :
    utf8From pos (a :: b :: rest) =
      putChar ((a.toNat % 32) * 64 + tailBits b) (utf8From (pos + 2) rest) := by
  rw [utf8From.eq_def]
  dsimp only
  rw [if_neg ha.not_single, if_neg ha.not_bad, hb, Bool.not_true, if_neg Bool.false_ne_true,
    if_pos (UInt8.lt_iff_toNat_lt.mpr h₂)]

/-- A character of three bytes is read. -/
theorem utf8From_three (ha : StartsMore a) (h₂ : 0xE0 ≤ a.toNat) (h₃ : a.toNat < 0xF0)
    (hb : secondFits a b = true) (hc : continues c = true) :
    utf8From pos (a :: b :: c :: rest) =
      putChar (((a.toNat % 16) * 64 + tailBits b) * 64 + tailBits c) (utf8From (pos + 3) rest) := by
  have h₂' : ¬ a < 0xE0 := fun h => Nat.not_lt_of_le h₂ (UInt8.lt_iff_toNat_lt.mp h)
  rw [utf8From.eq_def]
  dsimp only
  rw [if_neg ha.not_single, if_neg ha.not_bad, hb, Bool.not_true, if_neg Bool.false_ne_true,
    if_neg h₂', hc, Bool.not_true, if_neg Bool.false_ne_true,
    if_pos (UInt8.lt_iff_toNat_lt.mpr h₃)]

/-- A character of four bytes is read. -/
theorem utf8From_four (ha : StartsMore a) (h₃ : 0xF0 ≤ a.toNat) (hb : secondFits a b = true)
    (hc : continues c = true) (hd : continues d = true) :
    utf8From pos (a :: b :: c :: d :: rest) =
      putChar ((((a.toNat % 8) * 64 + tailBits b) * 64 + tailBits c) * 64 + tailBits d)
        (utf8From (pos + 4) rest) := by
  have h₃' : ¬ a < 0xF0 := fun h => Nat.not_lt_of_le h₃ (UInt8.lt_iff_toNat_lt.mp h)
  have h₂' : ¬ a < 0xE0 := fun h =>
    Nat.not_lt_of_le (Nat.le_trans (by decide) h₃) (UInt8.lt_iff_toNat_lt.mp h)
  rw [utf8From.eq_def]
  dsimp only
  rw [if_neg ha.not_single, if_neg ha.not_bad, hb, Bool.not_true, if_neg Bool.false_ne_true,
    if_neg h₂', hc, Bool.not_true, if_neg Bool.false_ne_true, if_neg h₃', hd, Bool.not_true,
    if_neg Bool.false_ne_true]

/-! ### Bytes that carry six bits -/

/-- The lowest six bits of a number are written as a byte that continues a character. -/
theorem continues_tail (n : Nat) : continues (UInt8.ofNat (n % 64 + 128)) = true := by
  simp only [continues, Bool.and_eq_true, decide_eq_true_eq, UInt8.le_iff_toNat_le,
    UInt8.lt_iff_toNat_lt, UInt8.toNat_ofNat', UInt8.reduceToNat]
  omega

/-- They are read back from it. -/
theorem tailBits_tail (n : Nat) : tailBits (UInt8.ofNat (n % 64 + 128)) = n % 64 := by
  rw [tailBits, UInt8.toNat_ofNat']
  omega

/-- Six bits make a second byte, unless the number would be too small for its bytes, a surrogate, or
too great. -/
theorem secondFits_tail {n : Nat} (h₃ : a.toNat = 0xE0 → 32 ≤ n % 64)
    (hsurrogate : a.toNat = 0xED → n % 64 < 32) (h₄ : a.toNat = 0xF0 → 16 ≤ n % 64)
    (hlast : a.toNat = 0xF4 → n % 64 < 16) :
    secondFits a (UInt8.ofNat (n % 64 + 128)) = true := by
  rw [secondFits, continues_tail, Bool.true_and]
  simp only [← UInt8.toNat_inj, UInt8.le_iff_toNat_le, UInt8.lt_iff_toNat_lt, UInt8.toNat_ofNat',
    UInt8.reduceToNat]
  split_ifs <;> simp only [decide_eq_true_eq] <;> omega

/-! ### Reading back -/

/-- **The bytes of a character** are read back as that character. -/
theorem utf8From_encodeChar (c : Char) (rest : List UInt8) (pos : Nat) :
    ∃ pos', utf8From pos (String.utf8EncodeChar c ++ rest) =
      putChar c.toNat (utf8From pos' rest) := by
  have hvalid : c.toNat < 0xD800 ∨ 0xDFFF < c.toNat ∧ c.toNat < 0x110000 := c.valid
  unfold String.utf8EncodeChar
  dsimp only
  rw [show c.val.toNat = c.toNat from rfl]
  generalize c.toNat = v at hvalid
  by_cases h₁ : v ≤ 0x7F
  · have ha : (UInt8.ofNat v).toNat = v := by rw [UInt8.toNat_ofNat']; omega
    rw [if_pos h₁, List.singleton_append, utf8From_one (by omega), ha]
    exact ⟨_, rfl⟩
  rw [if_neg h₁]
  by_cases h₂ : v ≤ 0x7FF
  · have ha : (UInt8.ofNat (v / 64 % 32 + 192)).toNat = v / 64 + 192 := by
      rw [UInt8.toNat_ofNat']; omega
    have hb : secondFits (UInt8.ofNat (v / 64 % 32 + 192)) (UInt8.ofNat (v % 64 + 128)) = true := by
      apply secondFits_tail <;> omega
    rw [if_pos h₂, List.cons_append, List.singleton_append,
      utf8From_two ⟨by omega, by omega⟩ (by omega) hb, ha, tailBits_tail]
    exact ⟨_, by congr 1; omega⟩
  rw [if_neg h₂]
  by_cases h₃ : v ≤ 0xFFFF
  · have ha : (UInt8.ofNat (v / 4096 % 16 + 224)).toNat = v / 4096 + 224 := by
      rw [UInt8.toNat_ofNat']; omega
    have hb : secondFits (UInt8.ofNat (v / 4096 % 16 + 224)) (UInt8.ofNat (v / 64 % 64 + 128)) =
        true := by
      apply secondFits_tail <;> omega
    rw [if_pos h₃, List.cons_append, List.cons_append, List.singleton_append,
      utf8From_three ⟨by omega, by omega⟩ (by omega) (by omega) hb (continues_tail v), ha,
      tailBits_tail, tailBits_tail]
    exact ⟨_, by congr 1; omega⟩
  · have ha : (UInt8.ofNat (v / 262144 % 8 + 240)).toNat = v / 262144 + 240 := by
      rw [UInt8.toNat_ofNat']; omega
    have hb : secondFits (UInt8.ofNat (v / 262144 % 8 + 240)) (UInt8.ofNat (v / 4096 % 64 + 128)) =
        true := by
      apply secondFits_tail <;> omega
    rw [if_neg h₃, List.cons_append, List.cons_append, List.cons_append, List.singleton_append,
      utf8From_four ⟨by omega, by omega⟩ (by omega) hb (continues_tail (v / 64)) (continues_tail v),
      ha, tailBits_tail, tailBits_tail, tailBits_tail]
    exact ⟨_, by congr 1; omega⟩

/-- **The bytes of a text** are read back as that text. -/
theorem utf8From_utf8Bytes (t : Text) (pos : Nat) : utf8From pos (Text.utf8Bytes t) = .ok t := by
  induction t generalizing pos with
  | nil => rfl
  | cons c cs ih =>
    obtain ⟨pos', hchar⟩ := utf8From_encodeChar c (Text.utf8Bytes cs) pos
    rw [Text.utf8Bytes, List.flatMap_cons, ← Text.utf8Bytes, hchar, ih, putChar, Char.ofNat_toNat]
    rfl

/-! ### Marks -/

/-- A byte order mark is read as a character of its own. -/
theorem utf8From_mark (rest : List UInt8) (pos : Nat) :
    utf8From pos (mark ++ rest) = putChar '\uFEFF'.toNat (utf8From (pos + 3) rest) :=
  utf8From_three ⟨by decide, by decide⟩ (by decide) (by decide) (by decide) (by decide)

/-- Bytes that are read as a text start with a mark only if the text does. -/
theorem exists_of_mark_isPrefix {t : Text} (h : mark <+: Text.utf8Bytes t) :
    ∃ cs, t = '\uFEFF' :: cs := by
  obtain ⟨rest, hrest⟩ := h
  have hread := utf8From_utf8Bytes t 0
  rw [← hrest, utf8From_mark, putChar, Char.ofNat_toNat] at hread
  cases hbehind : utf8From 3 rest with
  | error fault => rw [hbehind] at hread; cases hread
  | ok cs => rw [hbehind] at hread; exact ⟨cs, (Except.ok.inj hread).symm⟩

/-- Bytes that are read as a text and break off within a mark are none at all. -/
theorem eq_nil_of_isPrefix_mark {t : Text} (h : Text.utf8Bytes t <+: mark)
    (hmark : ¬ mark <+: Text.utf8Bytes t) : t = [] := by
  have hread := utf8From_utf8Bytes t 0
  simp only [mark, List.prefix_cons_iff, List.prefix_nil] at h
  rcases h with h | ⟨_, h, rfl | ⟨_, rfl, rfl | ⟨_, rfl, rfl⟩⟩⟩
  · rw [h] at hread; exact (Except.ok.inj hread).symm
  · rw [h] at hread; cases hread
  · rw [h] at hread; cases hread
  · exact absurd (h ▸ List.prefix_refl mark) hmark

/-- The bytes of a text behind a mark are the mark and the bytes of the text. -/
theorem utf8Bytes_mark_cons (cs : Text) :
    Text.utf8Bytes ('\uFEFF' :: cs) = mark ++ Text.utf8Bytes cs := by
  rw [Text.utf8Bytes, List.flatMap_cons, ← Text.utf8Bytes,
    show String.utf8EncodeChar '\uFEFF' = mark by decide]

/-- The encoding with a mark drops one at the beginning. -/
theorem utf8MarkedFrom_mark (t : Text) : utf8MarkedFrom (mark ++ Text.utf8Bytes t) = .ok t := by
  rw [utf8MarkedFrom, if_pos (List.isPrefixOf_iff_prefix.mpr (List.prefix_append _ _)),
    List.drop_left]
  exact utf8From_utf8Bytes t 0

/-- **Marks**: the bytes of a text are read as that text behind a byte order mark; as they stand,
they are read as the text, less a mark at its start. -/
theorem utf8MarkedFrom_utf8Bytes (t : Text) :
    utf8MarkedFrom (Text.utf8Bytes t) = .ok t ∨
      ∃ cs, t = '\uFEFF' :: cs ∧ utf8MarkedFrom (Text.utf8Bytes t) = .ok cs := by
  by_cases hmark : mark <+: Text.utf8Bytes t
  · obtain ⟨cs, rfl⟩ := exists_of_mark_isPrefix hmark
    refine .inr ⟨cs, rfl, ?_⟩
    rw [utf8Bytes_mark_cons]
    exact utf8MarkedFrom_mark cs
  · left
    rw [utf8MarkedFrom, if_neg (fun h => hmark (List.isPrefixOf_iff_prefix.mp h))]
    split
    · rename_i h
      rw [eq_nil_of_isPrefix_mark (List.isPrefixOf_iff_prefix.mp h) hmark]
    · exact utf8From_utf8Bytes t 0

end Encoding

end Passcode
