import Mathlib.Algebra.Ring.Int.Defs
import Mintage.Proofs.Account.Vesting
import Mintage.Proofs.Money.Laws

/-!
What a periodic account releases, and when.

* `released_quo`: a balance cut into equal tranches is released up to a rest that is smaller
  than the number of tranches.
* `toInt_add_trancheTotal`: the end time of a periodic account does not leave its word.
* `Releases`: a series of tranches that releases a balance in ten equal parts, each without
  amounts of zero, from the start time to the end time.
* `delayed_releases`: what a delayed account turns into wherever the calendar reaches.
-/

namespace Mintage

/-! ### Tranches -/

/-- What a series of tranches releases of a denomination. -/
def released (periods : List Period) (denom : String) : ℕ :=
  (periods.map fun p => p.amount.amounts denom).sum

/-- The seconds that pass from the start of a series of tranches to its last one. -/
def duration (periods : List Period) : ℤ :=
  (periods.map fun p => p.length.toInt).sum

lemma released_replicate (n : ℕ) (p : Period) (denom : String) :
    released (List.replicate n p) denom = n * p.amount.amounts denom := by
  rw [released, List.map_replicate, List.sum_replicate_nat]

lemma duration_replicate (n : ℕ) (p : Period) :
    duration (List.replicate n p) = n * p.length.toInt := by
  rw [duration, List.map_replicate, List.sum_replicate_int]

/-- **Equal tranches of a balance** release no more of a denomination than there is, and fall
short of it by less than one unit a tranche. -/
theorem released_quo {n : UInt64} (hn : 0 < n.toNat) (balance : Coins) (length : Int64)
    (denom : String) :
    released (List.replicate n.toNat ⟨length, balance.quo n⟩) denom ≤ balance.amounts denom ∧
      balance.amounts denom
        < released (List.replicate n.toNat ⟨length, balance.quo n⟩) denom + n.toNat := by
  rw [released_replicate, Coins.amounts_quo]
  have hsplit := Nat.div_add_mod (balance.amounts denom) n.toNat
  have hrest := Nat.mod_lt (balance.amounts denom) hn
  omega

/-! ### Times -/

/-- The seconds of a point in time fit a signed word. -/
lemma Timestamp.toInt_secs (time : Timestamp) : (Int64.ofInt time.secs).toInt = time.secs := by
  have hfirst : -8334601228800 ≤ time.secs := time.first_le
  have hlast : time.secs ≤ 8210266876799 := time.le_last
  apply Int64.toInt_ofInt_of_le <;> omega

/-- The ten minutes that the tranches take can be added to any point in time. -/
lemma toInt_add_trancheTotal (time : Timestamp) :
    (Int64.ofInt time.secs + (List.replicate trancheCount trancheSeconds).sum).toInt
      = time.secs + 600 := by
  have hfirst : -8334601228800 ≤ time.secs := time.first_le
  have hlast : time.secs ≤ 8210266876799 := time.le_last
  have htotal : (List.replicate trancheCount trancheSeconds).sum.toInt = 600 := by decide
  rw [Int64.toInt_add, time.toInt_secs, htotal]
  apply Int.bmod_eq_of_le <;> omega

/-! ### The periodic account -/

/-- A series of tranches that releases a balance from one point in time to another. -/
structure Releases (periods : List Period) (balance : Coins) (start stop : Int64) : Prop where
  /-- There are ten tranches, all the same. -/
  equal : ∃ p, periods = List.replicate 10 p
  /-- The last tranche comes at the end. -/
  stop_eq : stop.toInt = start.toInt + duration periods
  released_le (denom : String) : released periods denom ≤ balance.amounts denom
  lt_released (denom : String) : balance.amounts denom < released periods denom + 10
  /-- No tranche holds an amount of zero. -/
  proper (p : Period) : p ∈ periods → p.amount.Proper

/-- A periodic account has its balance locked and releases it from the block's second on. -/
theorem periodicAccount_releases (base : BaseAccount) (balance : Coins) (time : Timestamp) :
    ∃ start stop periods, periodicAccount base balance time
        = .periodic base balance start stop periods ∧
      start.toInt = time.secs ∧ Releases periods balance start stop := by
  refine ⟨_, _, _, rfl, time.toInt_secs, ⟨⟨_, rfl⟩, ?_, fun denom => ?_, fun denom => ?_, ?_⟩⟩
  · rw [List.map_replicate, toInt_add_trancheTotal, time.toInt_secs, duration_replicate]
    rfl
  · exact (released_quo (n := 10) (by decide) balance trancheSeconds denom).1
  · exact (released_quo (n := 10) (by decide) balance trancheSeconds denom).2
  · intro p hp
    rw [List.eq_of_mem_replicate hp]
    exact balance.proper_quo 10

/-- **A delayed account releases what it holds.** Unless the step leaves the calendar, the
account becomes a periodic one with its whole balance locked; its ten equal tranches release
no more than that of any denomination, leave less than ten units of it, and end when the
account does. -/
theorem delayed_releases (base : BaseAccount) (locked balance : Coins) (oldEnd : Int64)
    (time : Timestamp) (number : Except StateError UInt64)
    (hrun : nextAccount (some (.delayed base locked oldEnd)) base.address balance time number
      ≠ .error .crashed) :
    ∃ start stop periods,
      nextAccount (some (.delayed base locked oldEnd)) base.address balance time number
        = .ok ⟨.periodic base balance start stop periods, .periodic⟩ ∧
      start.toInt = time.secs ∧ Releases periods balance start stop := by
  obtain ⟨start, stop, periods, hperiodic, hstart, hreleases⟩ :=
    periodicAccount_releases base balance time
  refine ⟨start, stop, periods, ?_, hstart, hreleases⟩
  rw [← hperiodic]
  have howner : (Account.delayed base locked oldEnd).address = base.address := rfl
  simp only [nextAccount, vestingStep, if_pos howner] at hrun ⊢
  cases hend : vestingEnd? time with
  | none =>
      rw [hend] at hrun
      exact absurd rfl hrun
  | some endTime => rfl

/-- The holder of the example. -/
def sampleHolder : BaseAccount := .new ⟨"u1qqqqqq", Text.utf8 "1qqqqqq"⟩ 9

/-- A balance of which neither denomination divides by ten. -/
def sampleBalance : Coins := (Coins.ofCoin ⟨"ugd", 1005⟩).insert "dust" 9

/-- Of 1005 units and 9 of dust, the tranches release a thousand units and no dust. -/
theorem delayed_releases_sample :
    nextAccount (some (.delayed sampleHolder .zero 0)) sampleHolder.address sampleBalance .epoch
        (.ok 0) ≠ .error .crashed ∧
    ∃ start stop periods,
      nextAccount (some (.delayed sampleHolder .zero 0)) sampleHolder.address sampleBalance .epoch
          (.ok 0) = .ok ⟨.periodic sampleHolder sampleBalance start stop periods, .periodic⟩ ∧
      start.toInt = 0 ∧ Releases periods sampleBalance start stop ∧
      released periods "ugd" = 1000 ∧ released periods "dust" = 0 := by
  have hrun : nextAccount (some (.delayed sampleHolder .zero 0)) sampleHolder.address sampleBalance
      .epoch (.ok 0) ≠ .error .crashed := by
    decide +kernel
  obtain ⟨start, stop, periods, hnext, hstart, hreleases⟩ :=
    delayed_releases sampleHolder .zero sampleBalance 0 .epoch (.ok 0) hrun
  refine ⟨hrun, start, stop, periods, hnext, hstart, hreleases, ?_, ?_⟩
  · obtain ⟨p, rfl⟩ := hreleases.equal
    have hle := hreleases.released_le "ugd"
    have hlt := hreleases.lt_released "ugd"
    have hheld : sampleBalance.amounts "ugd" = 1005 := by decide +kernel
    rw [released_replicate] at hle hlt ⊢
    omega
  · obtain ⟨p, rfl⟩ := hreleases.equal
    have hle := hreleases.released_le "dust"
    have hheld : sampleBalance.amounts "dust" = 9 := by decide +kernel
    rw [released_replicate] at hle ⊢
    omega

end Mintage
