import Mathlib.Algebra.Group.Nat.Defs
import TransactionalRegistry.Proofs.Entering
import TransactionalRegistry.Store.Native

/-!
# Timeouts in milliseconds

A timeout is handed to the store in whole milliseconds, and there are two ways to get this wrong at
the edges: a short timeout could be rounded down to zero, which stands for none, and a long one
could come out as the number that stands for an unlimited one. Neither happens. What is handed over
is the least number of milliseconds that is not shorter than the timeout, and timeouts for which
this is too large a number are refused.

The numbers on the way have widths of their own: seconds come in 64 bits, nanoseconds are counted in
128, and milliseconds are handed over in 32. The conversion is done here once more on words of these
widths, with a sum or a product that does not fit given up, and it never is.

## Main definitions

* `Word.add?`, `Word.mul?`, `Word.ceilDiv?`: Calculation on words, given up where it overflows.
* `Duration.mostMillis`: The longest timeout that can be handed over.
* `Duration.nanosWord?`, `Duration.millisWord?`: A timeout, calculated on words.
* `Duration.handedOver?`: Milliseconds as they are handed over.

## Theorems

* `Word.ceilDiv?_eq_some`: Rounding up does not overflow.
* `Duration.wholeMillis?_eq_some_iff`, `Duration.wholeMillis?_eq_none_iff`: What a timeout is
  rounded to, and when it is refused.
* `Duration.wholeMillis?_mono`: A longer timeout is not rounded to less.
* `timeouts_are_rounded_up`: How every timeout is converted.
-/

namespace TransactionalRegistry

/-! ## Words -/

namespace Word

variable {width : Nat} {a b : BitVec width}

/-- The sum of two words, given up if it is no word. -/
def add? (a b : BitVec width) : Option (BitVec width) :=
  if a.uaddOverflow b then none else some (a + b)

/-- The product of two words, given up if it is no word. -/
def mul? (a b : BitVec width) : Option (BitVec width) :=
  if a.umulOverflow b then none else some (a * b)

/-- The quotient of two words, rounded up, given up if it is no word. -/
def ceilDiv? (a b : BitVec width) : Option (BitVec width) :=
  if a % b = 0 then some (a / b) else add? (a / b) 1

theorem add?_eq_some (h : a.toNat + b.toNat < 2 ^ width) :
    ∃ c, add? a b = some c ∧ c.toNat = a.toNat + b.toNat := by
  have hfits : a.uaddOverflow b = false := by
    rw [BitVec.uaddOverflow, decide_eq_false_iff_not]
    exact Nat.not_le_of_lt h
  refine ⟨a + b, by rw [add?, hfits]; rfl, ?_⟩
  rw [BitVec.toNat_add, Nat.mod_eq_of_lt h]

theorem mul?_eq_some (h : a.toNat * b.toNat < 2 ^ width) :
    ∃ c, mul? a b = some c ∧ c.toNat = a.toNat * b.toNat := by
  have hfits : a.umulOverflow b = false := by
    rw [BitVec.umulOverflow, decide_eq_false_iff_not]
    exact Nat.not_le_of_lt h
  refine ⟨a * b, by rw [mul?, hfits]; rfl, ?_⟩
  rw [BitVec.toNat_mul, Nat.mod_eq_of_lt h]

/-- A quotient that is rounded up is the least word that is large enough. It never overflows: what
    leaves a remainder is divided by two at least. -/
theorem ceilDiv?_eq_some (hb : 0 < b.toNat) :
    ∃ c, ceilDiv? a b = some c ∧ a.toNat ≤ c.toNat * b.toNat ∧
      c.toNat * b.toNat < a.toNat + b.toNat := by
  have hdivides := Nat.div_add_mod' a.toNat b.toNat
  have hlt := Nat.mod_lt a.toNat hb
  by_cases hexact : a % b = 0
  · -- Without a remainder the quotient is exact.
    have hmod : a.toNat % b.toNat = 0 := by
      rw [← BitVec.toNat_umod, hexact]
      rfl
    refine ⟨a / b, if_pos hexact, ?_⟩
    rw [BitVec.toNat_udiv]
    omega
  · have hmod : 0 < a.toNat % b.toNat := by
      rw [← BitVec.toNat_umod]
      exact Nat.pos_of_ne_zero (fun hzero => hexact (BitVec.eq_of_toNat_eq hzero))
    -- A divisor that leaves a remainder is two at least, so the quotient has room for one more.
    have hhalf : a.toNat / b.toNat * 2 ≤ a.toNat / b.toNat * b.toNat :=
      Nat.mul_le_mul_left _ (by omega)
    have hroom : a.toNat / b.toNat + 1 < 2 ^ width := by
      have ha := a.isLt
      omega
    have hone : (1 : BitVec width).toNat = 1 :=
      (BitVec.toNat_ofNat 1 width).trans (Nat.mod_eq_of_lt (by omega))
    obtain ⟨c, hc, hsum⟩ := add?_eq_some (a := a / b) (b := 1)
      (by rwa [hone, BitVec.toNat_udiv])
    refine ⟨c, (if_neg hexact).trans hc, ?_⟩
    rw [hsum, hone, BitVec.toNat_udiv, Nat.add_mul]
    omega

end Word

/-! ## Timeouts -/

namespace Duration

/-- The longest timeout that can be handed over, in milliseconds. The next number stands for an
    unlimited one. -/
def mostMillis : Nat :=
  UInt32.size - 2

theorem mostMillis_eq : mostMillis = 4294967294 := rfl

/-- A timeout in nanoseconds, calculated on words. -/
def nanosWord? (d : Duration) : Option (BitVec 128) :=
  (Word.mul? (d.secs.toBitVec.setWidth 128) 1000000000#128).bind
    (Word.add? · (BitVec.ofNat 128 d.nanos))

/-- A timeout in milliseconds, rounded up, calculated on words. -/
def millisWord? (d : Duration) : Option (BitVec 128) :=
  d.nanosWord?.bind (Word.ceilDiv? · 1000000#128)

/-- Milliseconds as they are handed over: in a word of 32 bits, and not the greatest one. -/
def handedOver? (millis : BitVec 128) : Option UInt32 :=
  if millis.toNat ≤ mostMillis then some (UInt32.ofNat millis.toNat) else none

variable {d d' : Duration} {m m' : UInt32}

theorem nanosWord?_eq_some (d : Duration) :
    ∃ nanos, d.nanosWord? = some nanos ∧ nanos.toNat = d.totalNanos := by
  have hsecs : (d.secs.toBitVec.setWidth 128).toNat = d.secs.toNat :=
    BitVec.toNat_setWidth_of_le (by decide)
  have hnanos : (BitVec.ofNat 128 d.nanos).toNat = d.nanos := by
    rw [BitVec.toNat_ofNat, Nat.mod_eq_of_lt]
    have := d.nanos.isLt
    omega
  -- The seconds fill 64 bits and a billion fills 30, so the sum fills less than 128.
  have hwidth := d.secs.toNat_lt
  have hbelow := d.nanos.isLt
  obtain ⟨product, hproduct, hmul⟩ := Word.mul?_eq_some
    (a := d.secs.toBitVec.setWidth 128) (b := 1000000000#128) (by
      rw [hsecs]
      change d.secs.toNat * 1000000000 < _
      omega)
  obtain ⟨sum, hsum, hadd⟩ := Word.add?_eq_some (a := product) (b := BitVec.ofNat 128 d.nanos) (by
    rw [hmul, hsecs, hnanos]
    change d.secs.toNat * 1000000000 + _ < _
    omega)
  refine ⟨sum, ?_, ?_⟩
  · rw [nanosWord?, hproduct]
    exact hsum
  · rw [hadd, hmul, hsecs, hnanos]
    rfl

/-- What a timeout is rounded to, unless that is too long: the least number of milliseconds that is
    not shorter. -/
theorem wholeMillis?_eq_some_iff :
    d.wholeMillis? = some m ↔ m.toNat ≤ mostMillis ∧ d.totalNanos ≤ m.toNat * 1000000 ∧
      m.toNat * 1000000 < d.totalNanos + 1000000 := by
  have hmost := mostMillis_eq
  have hround : ∀ n : Nat, n = (d.totalNanos + 999999) / 1000000 ↔
      d.totalNanos ≤ n * 1000000 ∧ n * 1000000 < d.totalNanos + 1000000 := by
    omega
  rw [← hround, wholeMillis?]
  -- What follows is about the rounded number alone.
  generalize (d.totalNanos + 999999) / 1000000 = millis
  by_cases hfits : millis < 0xFFFFFFFF
  · have hword : (UInt32.ofNat millis).toNat = millis :=
      UInt32.toNat_ofNat_of_lt (Nat.lt_trans hfits (by decide))
    rw [if_pos hfits, Option.some.injEq, ← UInt32.toNat_inj, hword]
    omega
  · rw [if_neg hfits]
    -- A number that is too long is not one that could be handed over.
    refine iff_of_false (by simp) ?_
    rintro ⟨hle, rfl⟩
    omega

theorem wholeMillis?_eq_none_iff :
    d.wholeMillis? = none ↔ mostMillis * 1000000 < d.totalNanos := by
  have hmost := mostMillis_eq
  rw [wholeMillis?]
  by_cases hfits : (d.totalNanos + 999999) / 1000000 < 0xFFFFFFFF
  · rw [if_pos hfits]
    refine iff_of_false (by simp) ?_
    omega
  · rw [if_neg hfits]
    refine iff_of_true rfl ?_
    omega

/-- A longer timeout is not rounded to less. -/
theorem wholeMillis?_mono (hle : d.totalNanos ≤ d'.totalNanos) (hm : d.wholeMillis? = some m)
    (hm' : d'.wholeMillis? = some m') : m ≤ m' := by
  obtain ⟨-, -, hlow⟩ := wholeMillis?_eq_some_iff.mp hm
  obtain ⟨-, hhigh, -⟩ := wholeMillis?_eq_some_iff.mp hm'
  rw [UInt32.le_iff_toNat_le]
  omega

/-- The conversion never overflows on words, and it is the conversion. -/
theorem millisWord?_eq_some (d : Duration) :
    ∃ millis, d.millisWord? = some millis ∧ d.wholeMillis? = handedOver? millis := by
  obtain ⟨nanos, hnanos, htotal⟩ := nanosWord?_eq_some d
  obtain ⟨millis, hmillis, hhigh, hlow⟩ :=
    Word.ceilDiv?_eq_some (a := nanos) (b := 1000000#128) (by decide)
  refine ⟨millis, by rw [millisWord?, hnanos]; exact hmillis, ?_⟩
  rw [htotal] at hhigh hlow
  change d.totalNanos ≤ millis.toNat * 1000000 at hhigh
  change millis.toNat * 1000000 < d.totalNanos + 1000000 at hlow
  rw [handedOver?]
  by_cases hfits : millis.toNat ≤ mostMillis
  · have hword : (UInt32.ofNat millis.toNat).toNat = millis.toNat :=
      UInt32.toNat_ofNat_of_lt (Nat.lt_of_le_of_lt hfits (by decide))
    rw [if_pos hfits, wholeMillis?_eq_some_iff, hword]
    exact ⟨hfits, hhigh, hlow⟩
  · -- What does not fit is longer than the longest timeout, even before it was rounded up.
    have hmore : (mostMillis + 1) * 1000000 ≤ millis.toNat * 1000000 :=
      Nat.mul_le_mul_right _ (Nat.lt_of_not_le hfits)
    rw [if_neg hfits, wholeMillis?_eq_none_iff]
    rw [Nat.succ_mul] at hmore
    exact Nat.lt_of_add_lt_add_right (Nat.lt_of_le_of_lt hmore hlow)

end Duration

/-- A timeout is refused without a call, and it is refused for no other reason. -/
theorem Transaction.create_refuses_iff {W : Type} [Native W] (timeout : Duration)
    (description : Option String) (ctx : Context W) :
    Transaction.create timeout description ctx = .error (.error (.invalidTimeout timeout)) ctx ↔
      timeout.wholeMillis? = none := by
  have hgoes := Policy.create_goes ⟨timeout, description⟩ ctx
  constructor
  · intro hrefused
    -- The only other way to fail comes from the call, and its error is a different one.
    rcases hgoes.error hrefused with ⟨e, he, ⟨hnone, -⟩ | ⟨millis, error, -, rfl, -⟩⟩
    · exact hnone
    · exact absurd he (by simp)
  · intro hnone
    rw [Policy.create_eq]
    simp only [hnone]
    rfl

/-- How every timeout is converted, with `d.totalNanos` its length in nanoseconds.

    It comes out as zero just if it is zero. Any other timeout comes out as the number of
    milliseconds that it fills, the last one perhaps in part, so it never comes out as none, it is
    never shortened, and it gets longer by less than a millisecond. A timeout that fills more than
    `mostMillis` milliseconds is refused, and no call is made then; so none comes out as the number
    that stands for an unlimited timeout. On words of the given widths nothing overflows on the
    way. A longer timeout never comes out as less. -/
theorem timeouts_are_rounded_up {W : Type} [Native W] :
    (∀ d : Duration,
      (d.wholeMillis? = some 0 ↔ d.totalNanos = 0) ∧
      (0 < d.totalNanos → ∀ m, d.wholeMillis? = some m ↔
        (m.toNat - 1) * 1000000 < d.totalNanos ∧ d.totalNanos ≤ m.toNat * 1000000 ∧
          m.toNat ≤ Duration.mostMillis) ∧
      (d.wholeMillis? = none ↔ Duration.mostMillis * 1000000 < d.totalNanos) ∧
      (∀ (description : Option String) (ctx : Context W),
        Transaction.create d description ctx = .error (.error (.invalidTimeout d)) ctx ↔
          Duration.mostMillis * 1000000 < d.totalNanos) ∧
      ∃ nanos millis, d.nanosWord? = some nanos ∧ nanos.toNat = d.totalNanos ∧
        d.millisWord? = some millis ∧ d.wholeMillis? = Duration.handedOver? millis) ∧
    ∀ (d d' : Duration) (m m' : UInt32), d.totalNanos ≤ d'.totalNanos →
      d.wholeMillis? = some m → d'.wholeMillis? = some m' → m ≤ m' := by
  refine ⟨fun d => ⟨?_, ?_, Duration.wholeMillis?_eq_none_iff, ?_, ?_⟩,
    fun _ _ _ _ => Duration.wholeMillis?_mono⟩
  · have hzero : (0 : UInt32).toNat = 0 := rfl
    rw [Duration.wholeMillis?_eq_some_iff, hzero]
    omega
  · intro hpos m
    rw [Duration.wholeMillis?_eq_some_iff]
    omega
  · intro description ctx
    rw [Transaction.create_refuses_iff, Duration.wholeMillis?_eq_none_iff]
  · obtain ⟨nanos, hnanos, htotal⟩ := d.nanosWord?_eq_some
    obtain ⟨millis, hmillis, hhanded⟩ := d.millisWord?_eq_some
    exact ⟨nanos, millis, hnanos, htotal, hmillis, hhanded⟩

/-- A millisecond and a nanosecond come out as two milliseconds, and so does a timeout that is
    longer by half a millisecond. The longest timeout that is accepted keeps its length, and one
    that is longer by a nanosecond is refused. -/
theorem timeouts_at_the_edges :
    (0 < Duration.totalNanos ⟨0, 1000001⟩ ∧ Duration.wholeMillis? ⟨0, 1000001⟩ = some 2) ∧
      (Duration.totalNanos ⟨0, 1000001⟩ ≤ Duration.totalNanos ⟨0, 1500000⟩ ∧
        Duration.wholeMillis? ⟨0, 1500000⟩ = some 2 ∧ (2 : UInt32) ≤ 2) ∧
      Duration.wholeMillis? ⟨4294967, 294000000⟩ = some 4294967294 ∧
      Transaction.create ⟨4294967, 294000001⟩ none (.ofWorld (Store.fresh ⟨0, []⟩)) =
        .error (.error (.invalidTimeout ⟨4294967, 294000001⟩))
          (.ofWorld (Store.fresh ⟨0, []⟩)) := by
  obtain ⟨hall, hmono⟩ := @timeouts_are_rounded_up Store _
  have hshort := ((hall ⟨0, 1000001⟩).2.1 (by decide) 2).mpr (by decide)
  have hlonger := ((hall ⟨0, 1500000⟩).2.1 (by decide) 2).mpr (by decide)
  have hmost := ((hall ⟨4294967, 294000000⟩).2.1 (by decide) 4294967294).mpr (by decide)
  have hrefused := ((hall ⟨4294967, 294000001⟩).2.2.2.1 none (.ofWorld (Store.fresh ⟨0, []⟩))).mpr
    (by decide)
  exact ⟨⟨by decide, hshort⟩, ⟨by decide, hlonger, hmono _ _ _ _ (by decide) hshort hlonger⟩, hmost,
    hrefused⟩

end TransactionalRegistry
