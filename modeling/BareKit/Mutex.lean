import Mathlib.Logic.Basic
import Mathlib.Tactic.Common

/-! A lock that the thread which holds it may take again. What a thread may rely on is
its level: how many times it has taken the lock and not yet let go of it. -/
namespace BareKit

/-- The thread that holds the lock, and how many times it has to let go of it after the
next. -/
structure RecursiveMutex (θ : Type*) where
  holder : Option (θ × Nat) := none
  deriving DecidableEq, Repr

namespace RecursiveMutex

variable {θ : Type*} [DecidableEq θ] {mutex next : RecursiveMutex θ} {self other : θ}

/-- `none` is a thread that has to wait. -/
def lock (mutex : RecursiveMutex θ) (self : θ) : Option (RecursiveMutex θ) :=
  match mutex.holder with
  | none => some ⟨some (self, 0)⟩
  | some (owner, depth) => if owner = self then some ⟨some (self, depth + 1)⟩ else none

def unlock (mutex : RecursiveMutex θ) : RecursiveMutex θ :=
  match mutex.holder with
  | some (owner, depth + 1) => ⟨some (owner, depth)⟩
  | _ => ⟨none⟩

def level (mutex : RecursiveMutex θ) (self : θ) : Nat :=
  match mutex.holder with
  | none => 0
  | some (owner, depth) => if owner = self then depth + 1 else 0

@[simp] theorem level_free (self : θ) : (⟨none⟩ : RecursiveMutex θ).level self = 0 := rfl

theorem level_pos (h : 0 < mutex.level self) : ∃ depth, mutex.holder = some (self, depth) := by
  unfold level at h
  split at h <;> rename_i hholder
  · contradiction
  · rename_i depth
    split at h
    · rename_i howner
      exact ⟨depth, howner ▸ hholder⟩
    · contradiction

theorem exclusive (hself : 0 < mutex.level self) (hother : 0 < mutex.level other) :
    self = other := by
  obtain ⟨depth, hholder⟩ := level_pos hself
  obtain ⟨otherDepth, hsame⟩ := level_pos hother
  rw [hholder] at hsame
  exact (Prod.mk.inj (Option.some.inj hsame)).1

theorem lock_level (h : mutex.lock self = some next) (other : θ) :
    next.level other = mutex.level other + if self = other then 1 else 0 := by
  unfold lock at h
  split at h <;> rename_i hholder
  · cases h
    simp [level, hholder]
  · split at h
    · rename_i howner
      cases h
      subst howner
      simp only [level, hholder]
      split <;> simp
    · contradiction

theorem unlock_level (h : 0 < mutex.level self) (other : θ) :
    mutex.unlock.level other = mutex.level other - if self = other then 1 else 0 := by
  obtain ⟨depth, hholder⟩ := level_pos h
  cases depth with
  | zero =>
    simp only [level, unlock, hholder]
    split <;> rfl
  | succ depth =>
    simp only [level, unlock, hholder]
    split <;> rfl

theorem lock_isSome (h : ∀ other, 0 < mutex.level other → other = self) :
    (mutex.lock self).isSome := by
  unfold lock
  cases hholder : mutex.holder with
  | none => rfl
  | some holder =>
    have howner : holder.1 = self := h holder.1 (by simp [level, hholder])
    simp [howner]

end RecursiveMutex

end BareKit
