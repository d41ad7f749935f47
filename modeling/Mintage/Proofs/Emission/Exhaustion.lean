import Mintage.Proofs.Emission.Issuance

/-!
How the decay of one token comes to its end.

* `decayUnits_le`: a period takes a normal number down to a fixed share of it, whichever way its
  two steps are rounded. So no number stays where it is (`decayUnits_lt`).
* `decayFrom_le_pow`: over several periods the shares multiply. `decayFrom_halves`: in 69 of them
  more than half is gone.
* `decayFrom_eq_zero`: after 71000 periods nothing is left.
* `decayLoop`: the decay as it is carried out, period by period, with the periods counted that it
  goes through. `decayLoop_fst`: what it leaves is the decayed subsidy.
* `decay_exhausts`: every period takes something away until nothing is left, what is left is never
  below the normal numbers, and the loop is over within 71000 periods.
-/

namespace Mintage

open Binary64 (minNormalUnits unitsPerOne)

/-! ### One period -/

/-- **A period leaves a fixed share** of a normal number. Its exact share is 99 hundredths; the
rest makes up for the rounding of both steps. -/
theorem decayUnits_le {u : ℕ} (h : minNormalUnits ≤ u) :
    1000000 * decayUnits u ≤ 990001 * u := by
  have hproduct := roundUnits_excess Nat.one_pos (u * 99)
  have hquotient := roundUnits_excess (by decide : 0 < 100) (roundUnits (u * 99) 1)
  have hnormal : minNormalUnits = 2 ^ 52 := Nat.one_shiftLeft 52
  rw [decayUnits]
  omega

/-- A period takes something away from a normal number. -/
lemma decayUnits_lt {u : ℕ} (h : minNormalUnits ≤ u) : decayUnits u < u := by
  have hshare := decayUnits_le h
  have hpos : 0 < minNormalUnits := by decide
  omega

/-! ### Several periods -/

/-- Nothing is left of nothing. -/
@[simp]
lemma decayFrom_zero_left (n : ℕ) : decayFrom 0 n = 0 := by
  cases n with
  | zero => rfl
  | succ n =>
      have hnone : decayUnits 0 < minNormalUnits := by
        rw [decayUnits, Nat.zero_mul, roundUnits_zero, roundUnits_zero]
        decide
      rw [decayFrom, if_pos hnone]

/-- The periods can be gone through in two parts. -/
lemma decayFrom_add (u m n : ℕ) : decayFrom u (m + n) = decayFrom (decayFrom u m) n := by
  induction m generalizing u with
  | zero => rw [Nat.zero_add, decayFrom]
  | succ m ih =>
      rw [Nat.succ_add, decayFrom, decayFrom]
      split
      · rw [decayFrom_zero_left]
      · exact ih _

/-- **Below the normal numbers** nothing is left of a normal one. -/
theorem decayFrom_normal {u : ℕ} (h : minNormalUnits ≤ u) (n : ℕ) :
    decayFrom u n = 0 ∨ minNormalUnits ≤ decayFrom u n := by
  induction n generalizing u with
  | zero => exact .inr h
  | succ n ih =>
      rw [decayFrom]
      split
      · exact .inl rfl
      · next hnext => exact ih (Nat.not_lt.1 hnext)

/-- One period more leaves less of a normal number, or nothing of nothing. -/
lemma decayFrom_succ_lt {u n : ℕ} (h : minNormalUnits ≤ u) (hpos : 0 < decayFrom u n) :
    decayFrom u (n + 1) < decayFrom u n := by
  have hnormal := (decayFrom_normal h n).resolve_left hpos.ne'
  rw [decayFrom_add, decayFrom]
  split
  · exact hpos
  · exact decayUnits_lt hnormal

/-- **The shares of several periods multiply.** -/
theorem decayFrom_le_pow {u : ℕ} (h : minNormalUnits ≤ u) (n : ℕ) :
    1000000 ^ n * decayFrom u n ≤ 990001 ^ n * u := by
  induction n generalizing u with
  | zero => rw [Nat.pow_zero, Nat.pow_zero, decayFrom]
  | succ n ih =>
      rw [decayFrom]
      split
      · exact Nat.zero_le _
      · next hnext =>
          calc 1000000 ^ (n + 1) * decayFrom (decayUnits u) n
              = 1000000 * (1000000 ^ n * decayFrom (decayUnits u) n) := by ring
            _ ≤ 1000000 * (990001 ^ n * decayUnits u) :=
                Nat.mul_le_mul_left _ (ih (Nat.not_lt.1 hnext))
            _ = 990001 ^ n * (1000000 * decayUnits u) := by ring
            _ ≤ 990001 ^ n * (990001 * u) := Nat.mul_le_mul_left _ (decayUnits_le h)
            _ = 990001 ^ (n + 1) * u := by ring

/-- So many periods take away more than half. -/
def halfLife : ℕ := 69

lemma decayFrom_halfLife {u : ℕ} (h : minNormalUnits ≤ u) : 2 * decayFrom u halfLife ≤ u := by
  have hshare : 2 * 990001 ^ halfLife ≤ 1000000 ^ halfLife := by decide
  have hpos : 0 < 1000000 ^ halfLife := Nat.pow_pos (by decide)
  refine Nat.le_of_mul_le_mul_left ?_ hpos
  calc 1000000 ^ halfLife * (2 * decayFrom u halfLife)
      = 2 * (1000000 ^ halfLife * decayFrom u halfLife) := Nat.mul_left_comm ..
    _ ≤ 2 * (990001 ^ halfLife * u) := Nat.mul_le_mul_left _ (decayFrom_le_pow h _)
    _ = 2 * 990001 ^ halfLife * u := (Nat.mul_assoc ..).symm
    _ ≤ 1000000 ^ halfLife * u := Nat.mul_le_mul_right _ hshare

/-- What is left is halved again and again. -/
lemma decayFrom_halves {u : ℕ} (h : minNormalUnits ≤ u) (k : ℕ) :
    2 ^ k * decayFrom u (halfLife * k) ≤ u := by
  induction k with
  | zero => rw [Nat.pow_zero, Nat.one_mul, Nat.mul_zero, decayFrom]
  | succ k ih =>
      rw [Nat.mul_succ, decayFrom_add]
      rcases decayFrom_normal h (halfLife * k) with hnone | hnormal
      · rw [hnone, decayFrom_zero_left]
        exact Nat.zero_le _
      · calc 2 ^ (k + 1) * decayFrom (decayFrom u (halfLife * k)) halfLife
            = 2 ^ k * (2 * decayFrom (decayFrom u (halfLife * k)) halfLife) := by ring
          _ ≤ 2 ^ k * decayFrom u (halfLife * k) :=
              Nat.mul_le_mul_left _ (decayFrom_halfLife hnormal)
          _ ≤ u := ih

/-! ### One token -/

lemma minNormalUnits_le_unitsPerOne : minNormalUnits ≤ unitsPerOne :=
  one_shiftLeft_le (by decide)

/-- One token is a power of two of units, and each halving takes one bit away. -/
lemma decayFrom_unitsPerOne_le {k e : ℕ} (h : Binary64.unitBits = k + e) :
    decayFrom unitsPerOne (halfLife * k) ≤ 2 ^ e := by
  refine Nat.le_of_mul_le_mul_left ?_ (Nat.two_pow_pos k)
  calc 2 ^ k * decayFrom unitsPerOne (halfLife * k)
      ≤ unitsPerOne := decayFrom_halves minNormalUnits_le_unitsPerOne k
    _ = 2 ^ k * 2 ^ e := by rw [unitsPerOne, Nat.one_shiftLeft, h, Nat.pow_add]

/-- **Nothing is left** of one token after 71000 periods: 1023 halvings bring it below the normal
numbers, and they take 70587 periods at most. -/
theorem decayFrom_eq_zero {n : ℕ} (h : 71000 ≤ n) : decayFrom unitsPerOne n = 0 := by
  have hlater : halfLife * 1023 ≤ n := Nat.le_trans (by decide) h
  have hbelow : decayFrom unitsPerOne n < minNormalUnits :=
    calc decayFrom unitsPerOne n
        ≤ decayFrom unitsPerOne (halfLife * 1023) := decayFrom_anti hlater
      _ ≤ 2 ^ 51 := decayFrom_unitsPerOne_le rfl
      _ < minNormalUnits := by decide
  exact (decayFrom_normal minNormalUnits_le_unitsPerOne n).resolve_right (Nat.not_le.2 hbelow)

/-! ### The loop -/

/-- One period: the product with 99, rounded to the nearest number, and its quotient by 100, rounded
to the nearest again. -/
def Binary64.decayed (a : Binary64) : Binary64 :=
  (a.timesNat 99).overNat 100

/-- The decay as it is carried out: what is left, and how many periods it has gone through. A
period that leaves no normal number is the last. -/
def decayLoop (a : Binary64) : ℕ → Binary64 × ℕ
  | 0 => (a, 0)
  | n + 1 =>
      if a.decayed.units < minNormalUnits then (.zero, 1)
      else (decayLoop a.decayed n).map id Nat.succ

/-- What the loop leaves of a number that is not negative. -/
lemma decayLoop_fst (u n : ℕ) : (decayLoop ⟨false, u⟩ n).1 = ⟨false, decayFrom u n⟩ := by
  induction n generalizing u with
  | zero => rfl
  | succ n ih =>
      have hnext : (⟨false, u⟩ : Binary64).decayed = ⟨false, decayUnits u⟩ := rfl
      rw [decayLoop, decayFrom, hnext]
      split
      · rfl
      · exact ih _

/-- The loop is over where nothing is left. -/
lemma decayLoop_snd_le {u k : ℕ} (hpos : 0 < u) (h : decayFrom u k = 0) (n : ℕ) :
    (decayLoop ⟨false, u⟩ n).2 ≤ k := by
  induction k generalizing u n with
  | zero => exact absurd h hpos.ne'
  | succ k ih =>
      have hnext : (⟨false, u⟩ : Binary64).decayed = ⟨false, decayUnits u⟩ := rfl
      cases n with
      | zero => exact Nat.zero_le _
      | succ n =>
          rw [decayLoop, hnext]
          rw [decayFrom] at h
          split
          · exact Nat.succ_le_succ (Nat.zero_le k)
          · next hnormal =>
              rw [if_neg hnormal] at h
              have hsome : 0 < decayUnits u := Nat.lt_of_lt_of_le (by decide) (Nat.not_lt.1 hnormal)
              exact Nat.succ_le_succ (ih hsome h n)

lemma value_decayedSubsidy (periods : UInt64) :
    (decayedSubsidy periods).value = decayFrom unitsPerOne periods.toNat := by
  rw [decayedSubsidy_eq]
  rfl

/-- **The decay comes to its end.** One period more leaves strictly less of a token, as long as
anything is left; what is left is nothing or a normal number; after 71000 periods it is nothing,
and it stays so. The loop that multiplies and divides period by period leaves just this, and it is
over within 71000 periods, whatever their number. -/
theorem decay_exhausts :
    (∀ n next : UInt64, next.toNat = n.toNat + 1 →
      (0 < (decayedSubsidy n).value → (decayedSubsidy next).value < (decayedSubsidy n).value) ∧
      (decayedSubsidy n = .zero → decayedSubsidy next = .zero)) ∧
    (∀ n, decayedSubsidy n = .zero ∨ (minNormalUnits : ℤ) ≤ (decayedSubsidy n).value) ∧
    (∀ n : UInt64, 71000 ≤ n → decayedSubsidy n = .zero) ∧
    ∀ n : UInt64, (decayLoop .one n.toNat).1 = decayedSubsidy n ∧
      (decayLoop .one n.toNat).2 ≤ 71000 := by
  have hnormal := minNormalUnits_le_unitsPerOne
  have hzero (n : UInt64) : decayedSubsidy n = .zero ↔ decayFrom unitsPerOne n.toNat = 0 := by
    rw [decayedSubsidy_eq, Binary64.zero, Binary64.mk.injEq, and_iff_right rfl]
  refine ⟨fun n next hnext => ⟨fun hpos => ?_, fun hnone => ?_⟩, fun n => ?_, fun n hn => ?_,
    fun n => ⟨?_, ?_⟩⟩
  · rw [value_decayedSubsidy] at hpos ⊢
    rw [value_decayedSubsidy, hnext]
    exact_mod_cast decayFrom_succ_lt hnormal (by exact_mod_cast hpos)
  · rw [hzero] at hnone ⊢
    rw [hnext, decayFrom_add, hnone, decayFrom_zero_left]
  · rw [hzero, value_decayedSubsidy]
    exact_mod_cast decayFrom_normal hnormal n.toNat
  · rw [hzero]
    exact decayFrom_eq_zero (UInt64.le_iff_toNat_le.1 hn)
  · rw [Binary64.one, decayLoop_fst, decayedSubsidy_eq]
  · exact decayLoop_snd_le Binary64.unitsPerOne_pos (decayFrom_eq_zero le_rfl) _

/-- The first period takes something away, and after 71000 of them nothing is left. -/
theorem decay_exhausts_token :
    0 < (decayedSubsidy 0).value ∧ (decayedSubsidy 1).value < (decayedSubsidy 0).value ∧
    decayedSubsidy 71000 = .zero := by
  have hpos : 0 < (decayedSubsidy 0).value := by decide +kernel
  exact ⟨hpos, (decay_exhausts.1 0 1 rfl).1 hpos, decay_exhausts.2.2.1 71000 (by decide)⟩

end Mintage
