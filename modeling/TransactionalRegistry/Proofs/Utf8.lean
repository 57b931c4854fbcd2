import Mathlib.Data.List.Basic
import TransactionalRegistry.Text.Fold

/-!
# The order of texts and of their bytes

Texts are compared character by character, by code points. Their UTF-8 bytes are compared byte by
byte, and come out in the same order: the first byte of a character tells how many follow, more for
larger code points, and the bytes of two characters of one length differ where their code points do,
the most significant difference first.

## Main definitions

* `Text.utf8`: The UTF-8 bytes of a text.

## Theorems

* `Text.utf8EncodeChar_lt`: The bytes of a smaller character come first, whatever follows them.
* `Text.utf8_lt`: The bytes of a smaller text come first.
-/

namespace TransactionalRegistry

namespace Text

/-- The UTF-8 bytes of a text. -/
def utf8 (text : String) : List UInt8 :=
  text.toUTF8.data.toList

theorem utf8_eq (text : String) : utf8 text = text.toList.flatMap String.utf8EncodeChar := by
  have hback : text.toUTF8 = (String.ofList text.toList).toByteArray := by
    rw [String.ofList_toList]
    rfl
  rw [utf8, hback, String.toByteArray_ofList]
  exact List.toList_data_toByteArray

/-! ## Digits -/

/-- Bytes that are made of a number come in the order of the numbers below a bound, whatever follows
    them. -/
def Rises (p : Nat → List UInt8) (bound : Nat) : Prop :=
  ∀ a b, a < b → b < bound → ∀ as bs, p a ++ as < p b ++ bs

theorem ofNat_cons_lt {a b : Nat} {as bs : List UInt8} (h : a < b) (hb : b < 256) :
    UInt8.ofNat a :: as < UInt8.ofNat b :: bs := by
  refine List.cons_lt_cons_iff.mpr (Or.inl ?_)
  rw [UInt8.lt_iff_toNat_lt, UInt8.toNat_ofNat_of_lt' (Nat.lt_trans h hb),
    UInt8.toNat_ofNat_of_lt' hb]
  exact h

theorem rises_byte {offset bound : Nat} (h : bound + offset ≤ 256) :
    Rises (fun n => [UInt8.ofNat (n + offset)]) bound :=
  fun a b hab hb as bs => ofNat_cons_lt (by omega) (by omega)

/-- One more digit decides only where the digits before it are the same. -/
theorem Rises.digit {p : Nat → List UInt8} {bound : Nat} (h : Rises p bound) :
    Rises (fun n => p (n / 64) ++ [UInt8.ofNat (n % 64 + 128)]) (bound * 64) := by
  intro a b hab hb as bs
  simp only [List.append_assoc, List.singleton_append]
  by_cases hdigits : a / 64 = b / 64
  · -- The digits before the last agree, so the last one decides.
    rw [hdigits]
    exact List.append_left_lt (ofNat_cons_lt (by omega) (by omega))
  · exact h _ _ (by omega) (by omega) _ _

/-! ## Characters -/

/-- The first byte of the character with the code point `n`. -/
def leadByte (n : Nat) : Nat :=
  if n ≤ 127 then n
  else if n ≤ 2047 then n / 64 + 192
  else if n ≤ 65535 then n / 4096 + 224
  else n / 262144 + 240

theorem val_lt (c : Char) : c.val.toNat < 0x110000 := by
  rcases c.valid with hvalid | hvalid
  · exact Nat.lt_trans hvalid (by decide)
  · exact hvalid.2

variable {c : Char}

theorem utf8EncodeChar_one (h : c.val.toNat ≤ 127) :
    String.utf8EncodeChar c = [UInt8.ofNat (c.val.toNat + 0)] := by
  simp only [String.utf8EncodeChar, if_pos h, Nat.add_zero]

theorem utf8EncodeChar_two (h : 127 < c.val.toNat) (h' : c.val.toNat ≤ 2047) :
    String.utf8EncodeChar c =
      [UInt8.ofNat (c.val.toNat / 64 + 192)] ++ [UInt8.ofNat (c.val.toNat % 64 + 128)] := by
  have hlead : c.val.toNat / 64 % 32 = c.val.toNat / 64 := Nat.mod_eq_of_lt (by omega)
  simp only [String.utf8EncodeChar, if_neg (Nat.not_le.mpr h), if_pos h', hlead]
  rfl

theorem utf8EncodeChar_three (h : 2047 < c.val.toNat) (h' : c.val.toNat ≤ 65535) :
    String.utf8EncodeChar c =
      ([UInt8.ofNat (c.val.toNat / 64 / 64 + 224)] ++
        [UInt8.ofNat (c.val.toNat / 64 % 64 + 128)]) ++
          [UInt8.ofNat (c.val.toNat % 64 + 128)] := by
  have hlead : c.val.toNat / 4096 % 16 = c.val.toNat / 64 / 64 := by omega
  simp only [String.utf8EncodeChar, if_neg (show ¬ c.val.toNat ≤ 127 by omega),
    if_neg (Nat.not_le.mpr h), if_pos h', hlead]
  rfl

theorem utf8EncodeChar_four (h : 65535 < c.val.toNat) :
    String.utf8EncodeChar c =
      (([UInt8.ofNat (c.val.toNat / 64 / 64 / 64 + 240)] ++
        [UInt8.ofNat (c.val.toNat / 64 / 64 % 64 + 128)]) ++
          [UInt8.ofNat (c.val.toNat / 64 % 64 + 128)]) ++
            [UInt8.ofNat (c.val.toNat % 64 + 128)] := by
  have hlast := val_lt c
  have hlead : c.val.toNat / 262144 % 8 = c.val.toNat / 64 / 64 / 64 := by omega
  have hsecond : c.val.toNat / 4096 % 64 = c.val.toNat / 64 / 64 % 64 := by omega
  simp only [String.utf8EncodeChar, if_neg (show ¬ c.val.toNat ≤ 127 by omega),
    if_neg (show ¬ c.val.toNat ≤ 2047 by omega), if_neg (Nat.not_le.mpr h), hlead, hsecond]
  rfl

theorem leadByte_lt (c : Char) : leadByte c.val.toNat < 256 := by
  have hlast := val_lt c
  unfold leadByte
  split <;> (try split) <;> (try split) <;> omega

theorem exists_leadByte (c : Char) :
    ∃ more, String.utf8EncodeChar c = UInt8.ofNat (leadByte c.val.toNat) :: more := by
  unfold leadByte
  split
  · next h => exact ⟨_, utf8EncodeChar_one h⟩
  · next h =>
    split
    · next h' => exact ⟨_, utf8EncodeChar_two (Nat.not_le.mp h) h'⟩
    · next h' =>
      split
      · next h'' =>
        rw [utf8EncodeChar_three (Nat.not_le.mp h') h'', Nat.div_div_eq_div_mul]
        exact ⟨_, rfl⟩
      · next h'' =>
        rw [utf8EncodeChar_four (Nat.not_le.mp h''), Nat.div_div_eq_div_mul,
          Nat.div_div_eq_div_mul]
        exact ⟨_, rfl⟩

/-- The bytes of a smaller character come first, whatever follows them. -/
theorem utf8EncodeChar_lt {c d : Char} (h : c < d) (as bs : List UInt8) :
    String.utf8EncodeChar c ++ as < String.utf8EncodeChar d ++ bs := by
  have hval : c.val.toNat < d.val.toNat := h
  -- The first bytes decide between characters that take different numbers of bytes.
  have hlead : leadByte c.val.toNat < leadByte d.val.toNat →
      String.utf8EncodeChar c ++ as < String.utf8EncodeChar d ++ bs := by
    intro hlt
    obtain ⟨more, hc⟩ := exists_leadByte c
    obtain ⟨more', hd⟩ := exists_leadByte d
    rw [hc, hd]
    exact ofNat_cons_lt hlt (leadByte_lt d)
  have hlast := val_lt d
  -- By how many bytes the larger character takes. Where the smaller one takes as many, the digits
  -- decide from the front to the back.
  by_cases hone : d.val.toNat ≤ 127
  · rw [utf8EncodeChar_one hone, utf8EncodeChar_one (by omega)]
    exact rises_byte (by decide : 128 + 0 ≤ 256) _ _ hval (by omega) _ _
  by_cases htwo : d.val.toNat ≤ 2047
  · by_cases hc : 127 < c.val.toNat
    · rw [utf8EncodeChar_two (by omega) htwo, utf8EncodeChar_two hc (by omega)]
      exact (rises_byte (by decide : 32 + 192 ≤ 256)).digit _ _ hval (by omega) _ _
    · refine hlead ?_
      simp only [leadByte, if_pos (Nat.not_lt.mp hc), if_neg hone, if_pos htwo]
      omega
  by_cases hthree : d.val.toNat ≤ 65535
  · by_cases hc : 2047 < c.val.toNat
    · rw [utf8EncodeChar_three (by omega) hthree, utf8EncodeChar_three hc (by omega)]
      exact (rises_byte (by decide : 16 + 224 ≤ 256)).digit.digit _ _ hval (by omega) _ _
    · refine hlead ?_
      simp only [leadByte, if_neg hone, if_neg htwo, if_pos hthree]
      split <;> (try split) <;> omega
  · by_cases hc : 65535 < c.val.toNat
    · rw [utf8EncodeChar_four (c := d) (by omega), utf8EncodeChar_four hc]
      exact (rises_byte (by decide : 8 + 240 ≤ 256)).digit.digit.digit _ _ hval (by omega) _ _
    · refine hlead ?_
      simp only [leadByte, if_neg hone, if_neg htwo, if_neg hthree]
      split <;> (try split) <;> (try split) <;> omega

/-! ## Texts -/

/-- The bytes of a smaller text come first. -/
theorem utf8_lt {text text' : String} (h : text < text') : utf8 text < utf8 text' := by
  rw [utf8_eq, utf8_eq]
  -- The texts agree up to some character; there one of them ends, or has the smaller one.
  have hchars : text.toList < text'.toList := h
  generalize text.toList = cs at hchars ⊢
  generalize text'.toList = ds at hchars ⊢
  induction hchars with
  | nil =>
    rename_i d ds
    obtain ⟨more, hd⟩ := exists_leadByte d
    rw [List.flatMap_cons, hd]
    exact List.nil_lt_cons _ _
  | cons _ ih => exact List.append_left_lt ih
  | rel hlt => exact utf8EncodeChar_lt hlt _ _

end Text

end TransactionalRegistry
