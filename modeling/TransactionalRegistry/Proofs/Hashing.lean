import TransactionalRegistry.Proofs.Codec
import TransactionalRegistry.Proofs.Paths
import TransactionalRegistry.Proofs.Utf8

/-!
# What a path is hashed by

Equal paths have to be hashed by the same bytes. Here the converse holds as well: the bytes tell the
folded names, so paths that are hashed by the same bytes are equal. The bytes after the names are
always eight, whatever number they spell, and are cut off first. What is left is read from the
front: the bytes of a text never hold `0xFF`, so the first such byte ends the first name, and the
bytes of a text tell the text because they are in the order of the texts.

## Theorems

* `Text.not_mem_utf8`: The byte `0xFF` is in no text.
* `Text.utf8_injective`: The bytes of a text tell the text.
* `Path.terminated_inj`: Names that are ended by `0xFF` are told apart, however many follow.
* `Path.hashInput_eq_iff`: Paths are hashed by the same bytes exactly if their folded names are the
  same.
-/

namespace TransactionalRegistry

/-! ## Bytes of texts -/

/-- Reading an array of bytes out from the `i`-th on. -/
theorem Bytes.toList_loop (bytes : ByteArray) (i : Nat) (before : List UInt8) :
    ByteArray.toList.loop bytes i before = before.reverse ++ bytes.data.toList.drop i := by
  induction i, before using ByteArray.toList.loop.induct bytes with
  | case1 i before hmore ih =>
    have hin : i < bytes.data.toList.length := hmore
    have hbyte : bytes.get! i = bytes.data.toList[i] := by
      rw [Array.getElem_toList]
      exact getElem!_pos bytes.data i hmore
    rw [ByteArray.toList.loop, if_pos hmore, ih, List.reverse_cons, List.append_assoc,
      List.singleton_append, hbyte, List.getElem_cons_drop]
  | case2 i before hdone =>
    have hdrop : bytes.data.toList.drop i = [] :=
      List.drop_eq_nil_of_le (Nat.not_lt.mp hdone)
    rw [ByteArray.toList.loop, if_neg hdone, hdrop, List.append_nil]

/-- Bytes that are ended by `0xFF` and do not hold it are told apart, whatever follows. -/
theorem Bytes.append_last_inj {as bs rest rest' : List UInt8} (ha : (0xFF : UInt8) ∉ as)
    (hb : (0xFF : UInt8) ∉ bs) (h : as ++ 0xFF :: rest = bs ++ 0xFF :: rest') :
    as = bs ∧ rest = rest' := by
  induction as generalizing bs with
  | nil =>
    cases bs with
    | nil => exact ⟨rfl, List.tail_eq_of_cons_eq h⟩
    | cons b bs => exact absurd (List.head_eq_of_cons_eq h ▸ List.mem_cons_self) hb
  | cons a as ih =>
    cases bs with
    | nil => exact absurd ((List.head_eq_of_cons_eq h).symm ▸ List.mem_cons_self) ha
    | cons b bs =>
      rw [List.mem_cons, not_or] at ha hb
      obtain ⟨hrest, htail⟩ := ih ha.2 hb.2 (List.tail_eq_of_cons_eq h)
      exact ⟨by rw [List.head_eq_of_cons_eq h, hrest], htail⟩

namespace Text

theorem utf8_eq_toList (text : String) : text.toUTF8.toList = utf8 text :=
  Bytes.toList_loop text.toUTF8 0 []

theorem not_mem_byte {n : Nat} (h : n < 255) : (0xFF : UInt8) ∉ [UInt8.ofNat n] := by
  rw [List.mem_singleton]
  intro hlast
  have hvalue := congrArg UInt8.toNat hlast
  rw [UInt8.toNat_ofNat_of_lt' (Nat.lt_of_lt_of_le h (by decide))] at hvalue
  exact absurd hvalue (Nat.ne_of_gt h)

theorem not_mem_utf8EncodeChar (c : Char) : (0xFF : UInt8) ∉ String.utf8EncodeChar c := by
  have hlast := val_lt c
  -- Whether a character takes one byte or up to four, the first is at most `0xF4`, and the others
  -- are at most `0xBF`.
  by_cases hone : c.val.toNat ≤ 127
  · rw [utf8EncodeChar_one hone]
    exact not_mem_byte (by omega)
  by_cases htwo : c.val.toNat ≤ 2047
  · rw [utf8EncodeChar_two (by omega) htwo, List.mem_append, not_or]
    exact ⟨not_mem_byte (by omega), not_mem_byte (by omega)⟩
  by_cases hthree : c.val.toNat ≤ 65535
  · simp only [utf8EncodeChar_three (Nat.not_le.mp htwo) hthree, List.mem_append, not_or]
    exact ⟨⟨not_mem_byte (by omega), not_mem_byte (by omega)⟩, not_mem_byte (by omega)⟩
  · simp only [utf8EncodeChar_four (Nat.not_le.mp hthree), List.mem_append, not_or]
    exact ⟨⟨⟨not_mem_byte (by omega), not_mem_byte (by omega)⟩, not_mem_byte (by omega)⟩,
      not_mem_byte (by omega)⟩

theorem not_mem_utf8 (text : String) : (0xFF : UInt8) ∉ utf8 text := by
  rw [utf8_eq, List.mem_flatMap]
  rintro ⟨c, -, hmem⟩
  exact not_mem_utf8EncodeChar c hmem

theorem utf8_injective {text text' : String} (h : utf8 text = utf8 text') : text = text' := by
  -- Neither text is smaller, since its bytes are not.
  have hle : ∀ {a b : String}, utf8 a = utf8 b → b ≤ a := fun hsame =>
    String.not_lt.mp fun hlt => List.lt_irrefl _ (hsame ▸ utf8_lt hlt)
  exact String.le_antisymm (hle h.symm) (hle h)

end Text

/-! ## Bytes of paths -/

namespace Path

/-- The bytes of names, each ended by `0xFF`, tell the folded names. -/
theorem terminated_inj {as bs : List String} (h : as.flatMap hashedName = bs.flatMap hashedName) :
    as.map Text.fold = bs.map Text.fold := by
  have hname : ∀ name (rest : List UInt8),
      hashedName name ++ rest = Text.utf8 (Text.fold name) ++ 0xFF :: rest := by
    intro name rest
    rw [hashedName, Text.utf8_eq_toList, List.append_assoc, List.singleton_append]
  induction as generalizing bs with
  | nil =>
    cases bs with
    | nil => rfl
    | cons b bs =>
      rw [List.flatMap_cons, hname, List.flatMap_nil] at h
      exact absurd h.symm (by simp)
  | cons a as ih =>
    cases bs with
    | nil =>
      rw [List.flatMap_cons, hname, List.flatMap_nil] at h
      exact absurd h (by simp)
    | cons b bs =>
      rw [List.flatMap_cons, List.flatMap_cons, hname, hname] at h
      obtain ⟨hfirst, hrest⟩ :=
        Bytes.append_last_inj (Text.not_mem_utf8 _) (Text.not_mem_utf8 _) h
      rw [List.map_cons, List.map_cons, Text.utf8_injective hfirst, ih hrest]

theorem hashInput_eq_iff (p q : Path) : p.hashInput = q.hashInput ↔ p.folded = q.folded := by
  constructor
  · intro h
    rw [hashInput, hashInput] at h
    exact terminated_inj
      (List.append_inj' h (by rw [Bytes.length_littleEndian, Bytes.length_littleEndian])).1
  · intro h
    -- A name enters the bytes through what it folds to, and so does the number of names.
    have hfolded : ∀ p : Path, p.hashInput =
        p.folded.flatMap (fun name => name.toUTF8.toList ++ [0xFF]) ++
          Bytes.littleEndian 8 p.folded.length := by
      intro p
      rw [hashInput, folded, List.flatMap_map, List.length_map]
      rfl
    rw [hfolded, hfolded, h]

end Path

end TransactionalRegistry
