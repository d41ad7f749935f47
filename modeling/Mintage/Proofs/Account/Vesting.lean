import Mathlib.Tactic.Lemma
import Mintage.Account.Vesting

/-!
When an account can take its step, and what the step leads to.

* `vestingStep_cases`: a step is refused for an account stored under an address that is
  not its own, leaves the calendar near its end, and is taken otherwise.
* `vestingStep_ok`: a step that is taken makes an account where there is none, and
  otherwise keeps the address of the one that is there.
* `LifecycleStep`: the four steps of the lifecycle. The step that is taken is one of them
  (`nextAccount_step`).
* `Account.Becomes`: what an account can become over any number of steps.
-/

namespace Mintage

/-- **The step of an account** is refused where the account is not that of the address,
crashes where the calendar ends too early, and is taken otherwise. -/
theorem vestingStep_cases (existing : Option Account) (address : Address) (balance : Coins)
    (time : Timestamp) :
    (∃ a, existing = some a ∧ a.address ≠ address ∧
      ∃ e, vestingStep existing address balance time = .error (.failed e)) ∨
    (∀ a, existing = some a → a.address = address) ∧
      ((lastSecond < time.secs + vestingSeconds ∧
        vestingStep existing address balance time = .error .crashed) ∨
      (time.secs + vestingSeconds ≤ lastSecond ∧
        ∃ step, vestingStep existing address balance time = .ok step)) := by
  simp only [vestingStep, vestingEnd?]
  cases existing with
  | none =>
      refine .inr ⟨nofun, ?_⟩
      by_cases h : time.secs + vestingSeconds ≤ lastSecond
      · simp only [if_pos h]
        exact .inr ⟨h, _, rfl⟩
      · simp only [if_neg h]
        exact .inl ⟨by omega, trivial⟩
  | some a =>
      by_cases howner : a.address = address
      · refine .inr ⟨fun b hb => by cases hb; exact howner, ?_⟩
        by_cases h : time.secs + vestingSeconds ≤ lastSecond
        · simp only [if_pos howner, if_pos h]
          cases a <;> exact .inr ⟨h, _, rfl⟩
        · simp only [if_pos howner, if_neg h]
          exact .inl ⟨by omega, trivial⟩
      · simp only [if_neg howner]
        exact .inl ⟨a, rfl, howner, _, rfl⟩

/-- **A step that is taken** makes an account where there is none; an account that is
there keeps its address, and does not count as new. -/
theorem vestingStep_ok {existing : Option Account} {address : Address} {balance : Coins}
    {time : Timestamp} {step : VestingStep}
    (h : vestingStep existing address balance time = .ok step) :
    (existing = none ∧ ∃ endTime, step = .create endTime) ∨
    ∃ a, existing ≠ none ∧ step = .replace a ∧ a.account.address = address ∧
      a.transition ≠ .created := by
  simp only [vestingStep] at h
  cases existing with
  | none =>
      cases hend : vestingEnd? time <;> rw [hend] at h <;> cases h
      exact .inl ⟨rfl, _, rfl⟩
  | some b =>
      right
      by_cases howner : b.address = address
      · simp only [if_pos howner] at h
        cases hend : vestingEnd? time with
        | none =>
            rw [hend] at h
            cases h
        | some endTime =>
            rw [hend] at h
            cases b <;> cases h <;> exact ⟨_, nofun, rfl, howner, nofun⟩
      · simp only [if_neg howner] at h
        cases h

/-! ### The lifecycle -/

/-- One step of the lifecycle: the account before it, the step as reports name it, and the
account after it. -/
inductive LifecycleStep : Option Account → Transition → Account → Prop where
  | created (address : Address) (number : UInt64) (endTime : Int64) :
      LifecycleStep none .created (.delayed (.new address number) .zero endTime)
  | delayed (base : BaseAccount) (locked : Coins) (endTime : Int64) :
      LifecycleStep (some (.plain base)) .delayed (.delayed base locked endTime)
  | periodic (base : BaseAccount) (locked released : Coins) (oldEnd start newEnd : Int64)
      (periods : List Period) :
      LifecycleStep (some (.delayed base locked oldEnd)) .periodic
        (.periodic base released start newEnd periods)
  | unchanged (base : BaseAccount) (locked : Coins) (start endTime : Int64)
      (periods : List Period) :
      LifecycleStep (some (.periodic base locked start endTime periods)) .unchanged
        (.periodic base locked start endTime periods)

/-- **The step that is taken** is a step of the lifecycle, and an account that is new has
the number given for it. -/
theorem nextAccount_step {existing : Option Account} {address : Address} {balance : Coins}
    {time : Timestamp} {number : UInt64} {next : Advance}
    (h : nextAccount existing address balance time (.ok number) = .ok next) :
    LifecycleStep existing next.transition next.account ∧
      (existing = none → next.account.base.accountNumber = number) := by
  simp only [nextAccount, vestingStep] at h
  cases existing with
  | none =>
      cases hend : vestingEnd? time <;> rw [hend] at h <;> cases h
      exact ⟨.created address number _, fun _ => rfl⟩
  | some a =>
      refine ⟨?_, nofun⟩
      by_cases howner : a.address = address
      · simp only [if_pos howner] at h
        cases hend : vestingEnd? time with
        | none =>
            rw [hend] at h
            cases h
        | some endTime =>
            rw [hend] at h
            cases a <;> cases h <;> constructor
      · simp only [if_neg howner] at h
        cases h

/-- How far an account has come: plain, delayed, periodic. -/
def Account.stage : Account → Nat
  | plain _ => 0
  | delayed .. => 1
  | periodic .. => 2

/-- What an account can become: it keeps its address, its key, its number and its sequence,
it never falls back, and once it is periodic nothing about it changes. -/
structure Account.Becomes (a b : Account) : Prop where
  base : b.base = a.base
  stage : a.stage ≤ b.stage
  final : a.stage = 2 → b = a

namespace Account.Becomes

variable {a b c : Account}

lemma refl (a : Account) : a.Becomes a := ⟨rfl, Nat.le_refl _, fun _ => rfl⟩

lemma trans (h : a.Becomes b) (h' : b.Becomes c) : a.Becomes c where
  base := h'.base.trans h.base
  stage := Nat.le_trans h.stage h'.stage
  final ha := by
    obtain rfl := h.final ha
    exact h'.final ha

end Account.Becomes

/-- A step turns an account into what it can become. -/
lemma LifecycleStep.becomes {a b : Account} {t : Transition} (h : LifecycleStep (some a) t b) :
    a.Becomes b := by
  cases h with
  | delayed => exact ⟨rfl, Nat.zero_le 1, nofun⟩
  | periodic => exact ⟨rfl, Nat.le_succ 1, nofun⟩
  | unchanged => exact .refl _

end Mintage
