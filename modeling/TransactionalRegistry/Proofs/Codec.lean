import Mathlib.Algebra.Group.Nat.Defs
import Mathlib.Data.List.Basic
import TransactionalRegistry.Value.Codec

/-!
# Writing values and reading them back

What can be written is read back as it was. The layers of the stored form are taken apart in the
order in which they are put on: numbers and code units as bytes, characters as code units, strings
by the zero unit that ends them, and lists of strings by the empty one that ends the list.

The refusals of writing are what makes this go through. A zero inside a string would end it before
its time, and an empty string would end its list.

## Theorems

* `Bytes.ofLittleEndian_littleEndian`, `Bytes.ofBigEndian_bigEndian`: Numbers that fit their width.
* `Bytes.toUnits?_ofUnits`: Code units.
* `Utf16.decode_encode`: Texts.
* `Value.readString_terminated`, `Value.readStrings_terminatedAll`: Strings and lists of strings.
* `Value.decode_of_encode`: Values of every type.
-/

namespace TransactionalRegistry

/-! ## Bytes -/

namespace Bytes

theorem length_littleEndian (width n : Nat) : (littleEndian width n).length = width := by
  induction width generalizing n with
  | zero => rfl
  | succ width ih => rw [littleEndian, List.length_cons, ih]

theorem length_bigEndian (width n : Nat) : (bigEndian width n).length = width := by
  rw [bigEndian, List.length_reverse, length_littleEndian]

/-- A number that fits in so many bytes is read back from them. -/
theorem ofLittleEndian_littleEndian {width n : Nat} (h : n < 256 ^ width) :
    ofLittleEndian (littleEndian width n) = n := by
  induction width generalizing n with
  | zero =>
    have hzero : n = 0 := by simpa using h
    rw [hzero]
    rfl
  | succ width ih =>
    -- The lowest byte is taken off, and what is left fits in one byte less.
    have hrest : n / 256 < 256 ^ width := by
      rw [Nat.div_lt_iff_lt_mul (by decide)]
      rwa [Nat.pow_succ] at h
    rw [littleEndian, ofLittleEndian, ih hrest]
    have hbyte : (UInt8.ofNat n).toNat = n % 256 := UInt8.toNat_ofNat'
    omega

theorem ofBigEndian_bigEndian {width n : Nat} (h : n < 256 ^ width) :
    ofBigEndian (bigEndian width n) = n := by
  rw [ofBigEndian, bigEndian, List.reverse_reverse, ofLittleEndian_littleEndian h]

/-- Code units are read back from their bytes. -/
theorem toUnits?_ofUnits (units : List UInt16) : toUnits? (ofUnits units) = some units := by
  induction units with
  | nil => rfl
  | cons u rest ih =>
    have hunit : ofLittleEndian (littleEndian 2 u.toNat) = u.toNat :=
      ofLittleEndian_littleEndian u.toNat_lt
    change (toUnits? (ofUnits rest)).map
      (UInt16.ofNat (ofLittleEndian (littleEndian 2 u.toNat)) :: ·) = some (u :: rest)
    rw [ih, hunit, UInt16.ofNat_toNat]
    rfl

end Bytes

/-! ## Code units -/

namespace Utf16

theorem isHigh_iff (u : UInt16) : isHigh u = true ↔ 0xD800 ≤ u.toNat ∧ u.toNat < 0xDC00 := by
  rw [isHigh, Bool.and_eq_true, decide_eq_true_iff, decide_eq_true_iff, UInt16.le_iff_toNat_le,
    UInt16.lt_iff_toNat_lt]
  rfl

theorem isLow_iff (u : UInt16) : isLow u = true ↔ 0xDC00 ≤ u.toNat ∧ u.toNat < 0xE000 := by
  rw [isLow, Bool.and_eq_true, decide_eq_true_iff, decide_eq_true_iff, UInt16.le_iff_toNat_le,
    UInt16.lt_iff_toNat_lt]
  rfl

/-- No character is a surrogate, and none is past the last code point. -/
theorem toNat_valid (c : Char) :
    c.toNat < 0xD800 ∨ 0xDFFF < c.toNat ∧ c.toNat < 0x110000 :=
  c.valid

/-- A unit that is no surrogate is a character of its own. -/
theorem decodeChars_basic {u : UInt16} (hhigh : ¬ isHigh u = true) (hlow : ¬ isLow u = true)
    (rest : List UInt16) :
    decodeChars (u :: rest) = (decodeChars rest).map (Char.ofNat u.toNat :: ·) := by
  rw [decodeChars.eq_def]
  simp only [if_neg hhigh, if_neg hlow]

/-- Two surrogates in their order are one character. -/
theorem decodeChars_pair {u v : UInt16} (hhigh : isHigh u = true) (hlow : isLow v = true)
    (rest : List UInt16) :
    decodeChars (u :: v :: rest) = (decodeChars rest).map (pairChar u v :: ·) := by
  rw [decodeChars]
  simp only [if_pos hhigh, if_pos hlow]

/-- A number that does not fit in one unit is put together again from its two halves. -/
theorem pairChar_halves {n : Nat} (hlarge : 0x10000 ≤ n) (hlast : n < 0x110000) :
    let high := UInt16.ofNat (0xD800 + (n - 0x10000) / 0x400)
    let low := UInt16.ofNat (0xDC00 + (n - 0x10000) % 0x400)
    isHigh high = true ∧ isLow low = true ∧ pairChar high low = Char.ofNat n := by
  intro high low
  have hquotient : (n - 0x10000) / 0x400 < 0x400 := by omega
  have hremainder : (n - 0x10000) % 0x400 < 0x400 := Nat.mod_lt _ (by decide)
  have hhigh : high.toNat = 0xD800 + (n - 0x10000) / 0x400 :=
    UInt16.toNat_ofNat_of_lt' (by change _ < 65536; omega)
  have hlow : low.toNat = 0xDC00 + (n - 0x10000) % 0x400 :=
    UInt16.toNat_ofNat_of_lt' (by change _ < 65536; omega)
  refine ⟨?_, ?_, ?_⟩
  · rw [isHigh_iff, hhigh]
    omega
  · rw [isLow_iff, hlow]
    omega
  · rw [pairChar, hhigh, hlow]
    exact congrArg Char.ofNat (by omega)

/-- The units of a character are read as this character, whatever follows them. -/
theorem decodeChars_unitsOf (c : Char) (rest : List UInt16) :
    decodeChars (unitsOf c ++ rest) = (decodeChars rest).map (c :: ·) := by
  have hvalid := toNat_valid c
  rw [unitsOf]
  by_cases hbasic : c.toNat < 0x10000
  · -- A unit by itself: it is in neither range of the surrogates, since no character is.
    have hunit : (UInt16.ofNat c.toNat).toNat = c.toNat := UInt16.toNat_ofNat_of_lt' hbasic
    rw [if_pos hbasic, List.singleton_append, decodeChars_basic, hunit, Char.ofNat_toNat]
    · rw [isHigh_iff, hunit]
      omega
    · rw [isLow_iff, hunit]
      omega
  · -- The number is past the last code point of one unit, so it is written as a pair.
    rcases pairChar_halves (n := c.toNat) (by omega) (by omega) with ⟨hhigh, hlow, hpair⟩
    rw [if_neg hbasic, List.cons_append, List.singleton_append, decodeChars_pair hhigh hlow, hpair,
      Char.ofNat_toNat]

theorem decode_encode (text : String) : decode (encode text) = some text := by
  have hchars : ∀ cs, decodeChars (encodeChars cs) = some cs := by
    intro cs
    induction cs with
    | nil => rfl
    | cons c rest ih =>
      rw [encodeChars, List.flatMap_cons, decodeChars_unitsOf]
      change (decodeChars (encodeChars rest)).map (c :: ·) = _
      rw [ih]
      rfl
  rw [decode, encode, hchars, Option.map_some, String.ofList_toList]

end Utf16

/-! ## Values -/

namespace Value

variable {text : String} {texts : List String} {unitsOfAll : List UInt16} {value : Value}
  {data : ValueData}

/-- What is before the first zero unit. -/
theorem takeWhile_terminated {us : List UInt16} (h : 0 ∉ us) (rest : List UInt16) :
    (us ++ 0 :: rest).takeWhile (· ≠ 0) = us := by
  rw [List.takeWhile_append_of_pos]
  · simp
  · -- None of these units is zero, so they are all taken, up to the zero behind them.
    intro u hu
    exact decide_eq_true (fun hzero => h (hzero ▸ hu))

theorem splitAtZero_terminated {us : List UInt16} (h : 0 ∉ us) (rest : List UInt16) :
    splitAtZero (us ++ 0 :: rest) = us :: splitAtZero rest := by
  induction us with
  | nil => rw [List.nil_append, splitAtZero, if_pos rfl]
  | cons u us ih =>
    rw [List.mem_cons, not_or] at h
    rw [List.cons_append, splitAtZero, if_neg (Ne.symm h.1), ih h.2]

/-- A text can be written if it has no zero unit, and one is put behind it. -/
theorem terminated_eq_ok {us : List UInt16} :
    terminated text = .ok us ↔ 0 ∉ Utf16.encode text ∧ us = Utf16.encode text ++ [0] := by
  rw [terminated]
  by_cases hzero : 0 ∈ Utf16.encode text
  · simp [hzero]
  · simp [hzero, eq_comm]

theorem textOf_encode (text : String) : textOf (Utf16.encode text) = .ok text := by
  rw [textOf, Utf16.decode_encode]

theorem units_ofUnits (us : List UInt16) : units (Bytes.ofUnits us) = .ok us := by
  rw [units, Bytes.toUnits?_ofUnits]

theorem readString_terminated {us : List UInt16} (h : terminated text = .ok us) :
    readString (Bytes.ofUnits us) = .ok text := by
  rcases terminated_eq_ok.mp h with ⟨hzero, rfl⟩
  -- A text with a zero unit in it would be cut short; such a text is not written.
  rw [readString, units_ofUnits]
  change textOf ((Utf16.encode text ++ [0]).takeWhile (· ≠ 0)) = .ok text
  rw [takeWhile_terminated hzero, textOf_encode]

/-- A step that is followed by another one has succeeded if the two have. -/
theorem exists_of_bind {α β : Type} {x : Except ValueError α} {f : α → Except ValueError β} {b : β}
    (h : x >>= f = .ok b) : ∃ a, x = .ok a ∧ f a = .ok b := by
  cases x with
  | error e => exact absurd h (by simp [bind, Except.bind])
  | ok a => exact ⟨a, rfl, h⟩

theorem terminatedAll_cons {rest : List String}
    (h : terminatedAll (text :: rest) = .ok unitsOfAll) :
    text ≠ "" ∧ ∃ us more, terminated text = .ok us ∧ terminatedAll rest = .ok more ∧
      unitsOfAll = us ++ more := by
  rw [terminatedAll] at h
  by_cases hempty : text.isEmpty = true
  · rw [if_pos hempty] at h
    exact absurd h (by simp [throw, throwThe, MonadExceptOf.throw, bind, Except.bind])
  · rw [if_neg hempty] at h
    rcases exists_of_bind h with ⟨us, hus, h⟩
    rcases exists_of_bind h with ⟨more, hmore, h⟩
    refine ⟨?_, us, more, hus, hmore, (Except.ok.inj h).symm⟩
    rintro rfl
    exact hempty rfl

/-- Only the empty text has no code units. -/
theorem encode_ne_nil (h : text ≠ "") : Utf16.encode text ≠ [] := by
  intro hnil
  have hback := Utf16.decode_encode text
  rw [hnil] at hback
  exact h (Option.some.inj hback).symm

/-- A list of strings that can be written is written as their code units, none of which are none,
    each ended by a zero unit, so that another zero unit ends the list. -/
theorem terminatedAll_eq_ok (h : terminatedAll texts = .ok unitsOfAll) :
    splitAtZero (unitsOfAll ++ [0]) = texts.map Utf16.encode ++ [[], []] ∧
      ∀ us ∈ texts.map Utf16.encode, us ≠ [] := by
  induction texts generalizing unitsOfAll with
  | nil =>
    obtain rfl := Except.ok.inj h
    exact ⟨rfl, by simp⟩
  | cons text rest ih =>
    rcases terminatedAll_cons h with ⟨hfilled, us, more, hus, hmore, rfl⟩
    rcases terminated_eq_ok.mp hus with ⟨hzero, rfl⟩
    rcases ih hmore with ⟨hsplit, hrest⟩
    refine ⟨?_, ?_⟩
    · rw [List.append_assoc, List.append_assoc, List.singleton_append,
        splitAtZero_terminated hzero, hsplit]
      rfl
    · exact List.forall_mem_cons.mpr ⟨encode_ne_nil hfilled, hrest⟩

theorem mapM_textOf (texts : List String) :
    (texts.map Utf16.encode).mapM textOf = .ok texts := by
  induction texts with
  | nil => rfl
  | cons text rest ih =>
    rw [List.map_cons, List.mapM_cons, textOf_encode, ih]
    rfl

theorem readStrings_terminatedAll (h : terminatedAll texts = .ok unitsOfAll) :
    readStrings (Bytes.ofUnits (unitsOfAll ++ [0])) = .ok texts := by
  rcases terminatedAll_eq_ok h with ⟨hsplit, hfilled⟩
  rw [readStrings, units_ofUnits]
  change ((splitAtZero (unitsOfAll ++ [0])).takeWhile (· ≠ [])).mapM textOf = .ok texts
  -- The list ends where an entry is empty, and no text that was written is.
  have hentries : (texts.map Utf16.encode ++ [[], []]).takeWhile (· ≠ []) =
      texts.map Utf16.encode := by
    rw [List.takeWhile_append_of_pos]
    · simp
    · exact fun us hus => decide_eq_true (hfilled us hus)
  rw [hsplit, hentries, mapM_textOf]

theorem ofCode?_code (kind : ValueKind) : ValueKind.ofCode? kind.code = some kind := by
  cases kind <;> rfl

theorem readNumber_littleEndian {width n : Nat} (kind : ValueKind) (h : n < 256 ^ width) :
    readNumber kind width Bytes.ofLittleEndian (Bytes.littleEndian width n) = .ok n := by
  rw [readNumber, if_pos (Bytes.length_littleEndian width n), Bytes.ofLittleEndian_littleEndian h]

theorem readNumber_bigEndian {width n : Nat} (kind : ValueKind) (h : n < 256 ^ width) :
    readNumber kind width Bytes.ofBigEndian (Bytes.bigEndian width n) = .ok n := by
  rw [readNumber, if_pos (Bytes.length_bigEndian width n), Bytes.ofBigEndian_bigEndian h]

/-- A string is read from the bytes that were written for it, whatever is made of it then. -/
theorem map_readString (f : String → Value) {bytes : List UInt8}
    (h : (terminated text >>= fun us => pure (Bytes.ofUnits us)) = .ok bytes) :
    f <$> readString bytes = .ok (f text) := by
  rcases exists_of_bind h with ⟨us, hus, h⟩
  obtain rfl := Except.ok.inj h
  rw [readString_terminated hus]
  rfl

/-- The raw bytes of a value are read as the value, under its own type. -/
theorem ofBytes_of_bytes {bytes : List UInt8} (h : value.bytes = .ok bytes) :
    ofBytes value.kind bytes = .ok value := by
  -- Each kind of value has its own reader; numbers are written in as many bytes as they are read
  -- from.
  cases value with
  | none => rfl
  | string text => exact map_readString string h
  | expandString text => exact map_readString expandString h
  | binary content =>
    obtain rfl := Except.ok.inj h
    rfl
  | dword n =>
    obtain rfl := Except.ok.inj h
    change (do return dword (.ofNat (← readNumber .dword 4 _ _)) : Except ValueError Value) = _
    rw [readNumber_littleEndian .dword n.toNat_lt]
    exact congrArg (fun m => Except.ok (dword m)) UInt32.ofNat_toNat
  | dwordBigEndian n =>
    obtain rfl := Except.ok.inj h
    change (do return dwordBigEndian (.ofNat (← readNumber .dwordBigEndian 4 _ _)) :
      Except ValueError Value) = _
    rw [readNumber_bigEndian .dwordBigEndian n.toNat_lt]
    exact congrArg (fun m => Except.ok (dwordBigEndian m)) UInt32.ofNat_toNat
  | multiString texts =>
    rcases exists_of_bind h with ⟨us, hus, h⟩
    obtain rfl := Except.ok.inj h
    change multiString <$> readStrings (Bytes.ofUnits (us ++ [0])) = .ok (multiString texts)
    rw [readStrings_terminatedAll hus]
    rfl
  | qword n =>
    obtain rfl := Except.ok.inj h
    change (do return qword (.ofNat (← readNumber .qword 8 _ _)) : Except ValueError Value) = _
    rw [readNumber_littleEndian .qword n.toNat_lt]
    exact congrArg (fun m => Except.ok (qword m)) UInt64.ofNat_toNat

/-- A value that can be written is read back. -/
theorem decode_of_encode (h : value.encode = .ok data) : decode data = .ok value := by
  rw [encode] at h
  cases hbytes : value.bytes with
  | error e =>
    rw [hbytes] at h
    -- A value with no bytes is not encoded at all.
    exact absurd h (by simp [Except.map])
  | ok bytes =>
    rw [hbytes] at h
    obtain rfl := Except.ok.inj h
    rw [decode, ValueData.kind?, ValueData.ofKind, ofCode?_code]
    exact ofBytes_of_bytes hbytes

end Value

end TransactionalRegistry
