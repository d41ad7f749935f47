/-!
Whole numbers as 64-bit ones, where they fit, and the nearest 64-bit number where they
do not.

* `ofNat?_eq_some_iff`, `signed?_eq_some_iff`: a number fits exactly when some 64-bit
  number is equal to it.
* `toNat_clamp`: a number too large becomes the greatest.
-/

namespace Mintage.Word

/-- The unsigned number equal to a natural one, where there is one. -/
def ofNat? (n : Nat) : Option UInt64 :=
  if n < UInt64.size then some (UInt64.ofNat n) else none

/-- The unsigned number equal to an integer, where there is one. -/
def ofInt? : Int → Option UInt64
  | .ofNat n => ofNat? n
  | .negSucc _ => none

/-- The signed number equal to an integer, where there is one. -/
def signed? (n : Int) : Option Int64 :=
  if Int64.minValue.toInt ≤ n ∧ n ≤ Int64.maxValue.toInt then some (Int64.ofInt n) else none

/-- The unsigned number nearest to a natural one. -/
def clamp (n : Nat) : UInt64 :=
  UInt64.ofNat (min n (UInt64.size - 1))

/-- The number after another; the greatest has none and stays. -/
def next (n : UInt64) : UInt64 :=
  clamp (n.toNat + 1)

theorem ofNat?_eq_some_iff {n : Nat} {w : UInt64} : ofNat? n = some w ↔ w.toNat = n := by
  unfold ofNat?
  split
  · next h =>
      rw [Option.some_inj]
      constructor
      · rintro rfl
        exact UInt64.toNat_ofNat_of_lt' h
      · rintro rfl
        exact UInt64.ofNat_toNat
  · next h =>
      constructor
      · nofun
      · rintro rfl
        exact absurd w.toNat_lt_size h

theorem ofInt?_eq_some_iff {n : Int} {w : UInt64} : ofInt? n = some w ↔ (w.toNat : Int) = n := by
  cases n with
  | ofNat n => rw [ofInt?, ofNat?_eq_some_iff]; exact (Int.ofNat_inj).symm
  | negSucc n =>
      constructor
      · nofun
      · intro h
        omega

theorem signed?_eq_some_iff {n : Int} {w : Int64} : signed? n = some w ↔ w.toInt = n := by
  unfold signed?
  split
  · next h =>
      rw [Option.some_inj]
      constructor
      · rintro rfl
        exact Int64.toInt_ofInt_of_le h.1 (Int.lt_add_one_of_le h.2)
      · rintro rfl
        exact Int64.ofInt_toInt w
  · next h =>
      constructor
      · nofun
      · rintro rfl
        exact absurd ⟨w.minValue_le_toInt, w.toInt_le⟩ h

theorem toNat_clamp (n : Nat) : (clamp n).toNat = min n (UInt64.size - 1) :=
  UInt64.toNat_ofNat_of_lt' (Nat.lt_of_le_of_lt (Nat.min_le_right _ _) (by decide))

theorem toNat_next (n : UInt64) : (next n).toNat = min (n.toNat + 1) (UInt64.size - 1) :=
  toNat_clamp _

end Mintage.Word
