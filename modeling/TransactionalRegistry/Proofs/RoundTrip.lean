import TransactionalRegistry.Proofs.Grammar

/-!
# Values that can be written

Writing and reading are told apart by two refusals and one generosity. Writing refuses a zero inside
a string and an empty string in a list, and nothing else; reading takes more endings than writing
makes. So what was written is read back as it was, while bytes that were read are in general not the
bytes that would be written. They mean the same: what was read can be written, under the same type
code, and is then read as the same value.

The second half goes by the grammar. The texts of a value that was read have no zero in them and
those of a list are not empty, for that is how the grammar tells where they end.

## Main definitions

* `Value.texts`: The texts of a value.
* `Value.Writable`: What writing asks of a value.

## Theorems

* `Value.exists_bytes_iff`: A value has raw bytes exactly if it is writable.
* `Value.writable_of_decode`: What was read can be written.
* `Value.roundTrip`: What is written is read back, and what is read can be written again.
-/

namespace TransactionalRegistry

namespace Value

variable {text : String} {value : Value} {data : ValueData}

/-- The texts of a value. -/
def texts : Value → List String
  | string text | expandString text => [text]
  | multiString texts => texts
  | none | binary _ | dword _ | dwordBigEndian _ | qword _ => []

/-- What writing asks of a value: no text has a zero in it, and no text of a list is empty. -/
structure Writable (value : Value) : Prop where
  nulFree : ∀ text ∈ value.texts, NulFree text
  filled : value.kind = .multiSz → "" ∉ value.texts

/-! ## Writing -/

/-- A text can be written if it has no zero in it. -/
theorem exists_terminated_iff : (∃ us, terminated text = .ok us) ↔ NulFree text := by
  rw [nulFree_iff]
  constructor
  · rintro ⟨us, hus⟩
    exact (terminated_eq_ok.mp hus).1
  · exact fun h => ⟨_, terminated_eq_ok.mpr ⟨h, rfl⟩⟩

/-- A list can be written if each of its texts can, and none is empty. -/
theorem exists_terminatedAll_iff {texts : List String} :
    (∃ us, terminatedAll texts = .ok us) ↔ ∀ text ∈ texts, text ≠ "" ∧ NulFree text := by
  induction texts with
  | nil => simp [terminatedAll]
  | cons text rest ih =>
    rw [List.forall_mem_cons, ← ih]
    constructor
    · rintro ⟨us, hus⟩
      -- A list is written text by text, and the first text that cannot be written stops it.
      rcases terminatedAll_cons hus with ⟨hfilled, first, more, hfirst, hmore, -⟩
      exact ⟨⟨hfilled, exists_terminated_iff.mp ⟨first, hfirst⟩⟩, more, hmore⟩
    · rintro ⟨⟨hfilled, hnul⟩, more, hmore⟩
      rcases exists_terminated_iff.mpr hnul with ⟨first, hfirst⟩
      refine ⟨first ++ more, ?_⟩
      rw [terminatedAll, if_neg (by simpa using hfilled), hfirst, hmore]
      rfl

/-- Going on after a step that may fail does not make it fail. -/
theorem exists_bind_pure_iff {α β : Type} {x : Except ValueError α} {f : α → β} :
    (∃ b, (x >>= fun a => pure (f a)) = .ok b) ↔ ∃ a, x = .ok a := by
  constructor
  · rintro ⟨b, hb⟩
    rcases exists_of_bind hb with ⟨a, ha, -⟩
    exact ⟨a, ha⟩
  · rintro ⟨a, rfl⟩
    exact ⟨f a, rfl⟩

theorem writable_string : (string text).Writable ↔ NulFree text :=
  ⟨fun h => h.nulFree text (List.mem_singleton_self text),
    fun h => ⟨List.forall_mem_singleton.mpr h, nofun⟩⟩

theorem writable_expandString : (expandString text).Writable ↔ NulFree text :=
  ⟨fun h => h.nulFree text (List.mem_singleton_self text),
    fun h => ⟨List.forall_mem_singleton.mpr h, nofun⟩⟩

theorem writable_multiString {texts : List String} :
    (multiString texts).Writable ↔ ∀ text ∈ texts, text ≠ "" ∧ NulFree text := by
  constructor
  · intro h text htext
    -- An empty text would end the list when it is read.
    refine ⟨?_, h.nulFree text htext⟩
    rintro rfl
    exact h.filled rfl htext
  · exact fun h => ⟨fun text htext => (h text htext).2, fun _ hempty => (h "" hempty).1 rfl⟩

theorem writable_of_no_texts (h : value.texts = []) : value.Writable := by
  refine ⟨?_, fun _ => ?_⟩
  · rw [h]
    exact List.forall_mem_nil _
  · rw [h]
    exact List.not_mem_nil

/-- The types that have no texts can always be written. -/
theorem exists_bytes_iff : (∃ bytes, value.bytes = .ok bytes) ↔ value.Writable := by
  cases value with
  | string text =>
    rw [writable_string, ← exists_terminated_iff]
    exact exists_bind_pure_iff
  | expandString text =>
    rw [writable_expandString, ← exists_terminated_iff]
    exact exists_bind_pure_iff
  | multiString texts =>
    rw [writable_multiString, ← exists_terminatedAll_iff]
    exact exists_bind_pure_iff
  | none | binary _ | dword _ | dwordBigEndian _ | qword _ =>
    exact iff_of_true ⟨_, rfl⟩ (writable_of_no_texts rfl)

theorem encode_eq_ok :
    value.encode = .ok data ↔ value.bytes = .ok data.bytes ∧ data.code = value.kind.code := by
  rcases data with ⟨code, stored⟩
  rw [encode]
  cases value.bytes with
  | error e => simp [Except.map]
  | ok bytes => simp [Except.map, ValueData.ofKind, and_comm, eq_comm]

/-- A value can be encoded if it is writable. -/
theorem exists_encode_iff : (∃ written, value.encode = .ok written) ↔ value.Writable := by
  rw [← exists_bytes_iff]
  constructor
  · rintro ⟨written, h⟩
    exact ⟨written.bytes, (encode_eq_ok.mp h).1⟩
  · rintro ⟨bytes, h⟩
    exact ⟨⟨value.kind.code, bytes⟩, encode_eq_ok.mpr ⟨h, rfl⟩⟩

/-! ## Reading -/

/-- The grammar gives only values that can be written, each under the code of its own type. -/
theorem Reads.writable {bytes : List UInt8} {code : UInt32} (h : Reads bytes code (.ok value)) :
    value.Writable ∧ value.kind.code = code := by
  cases h with
  | string _ htext => exact ⟨writable_string.mpr htext.1, rfl⟩
  | expandString _ htext => exact ⟨writable_expandString.mpr htext.1, rfl⟩
  | multiString _ htexts => exact ⟨writable_multiString.mpr htexts.1, rfl⟩
  | none | binary | dword | dwordBigEndian | qword => exact ⟨writable_of_no_texts rfl, rfl⟩

theorem writable_of_decode (h : decode data = .ok value) :
    value.Writable ∧ value.kind.code = data.code := by
  have hreads := decode_reads data
  rw [h] at hreads
  exact hreads.writable

/-- A value can be written exactly if none of its texts has a zero in it and none of the texts of a
    list is empty. What is written is read back as the same value. Whatever bytes a value was read
    from, it can be written, under the type code of these bytes, and is then read as itself. -/
theorem roundTrip (value : Value) (data : ValueData) :
    ((∃ written, value.encode = .ok written) ↔ value.Writable) ∧
      (value.encode = .ok data → decode data = .ok value) ∧
      (decode data = .ok value → ∃ written, value.encode = .ok written ∧
        written.code = data.code ∧ decode written = .ok value) := by
  refine ⟨exists_encode_iff, decode_of_encode, fun h => ?_⟩
  rcases writable_of_decode h with ⟨hwritable, hcode⟩
  -- What was read can be written, and what was written is read back.
  rcases exists_encode_iff.mpr hwritable with ⟨written, hwritten⟩
  exact ⟨written, hwritten, (encode_eq_ok.mp hwritten).2.trans hcode, decode_of_encode hwritten⟩

/-- A list whose second text needs a pair of surrogates, without the zero unit that ends it. -/
theorem roundTrip_open_list :
    let value := multiString ["a", String.ofList [Char.ofNat 98, Char.ofNat 0x10FFFF]]
    let bytes := [97, 0, 0, 0, 98, 0, 0xFF, 0xDB, 0xFF, 0xDF]
    decode ⟨7, bytes⟩ = .ok value ∧
      ∃ written, value.encode = .ok written ∧ written.code = 7 ∧ decode written = .ok value := by
  intro value bytes
  have hread : decode ⟨7, bytes⟩ = .ok value := by decide
  exact ⟨hread, (roundTrip value ⟨7, bytes⟩).2.2 hread⟩

end Value

end TransactionalRegistry
