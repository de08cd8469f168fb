import Mathlib.Data.List.Count
import Mathlib.Logic.Basic
import Mathlib.Tactic.Common

/-! Atomic operations on a cell that holds a token or none. Tokens are counted, in the cell and
in the hands of whoever takes them out of it, so that an operation that only moves a token
leaves the sum as it was. -/
namespace BareKit

variable {α : Type*}

def atomicExchange (cell desired : Option α) : Option α × Option α := (desired, cell)

variable [DecidableEq α] {cell desired : Option α} {expected token : α}

def atomicCompareExchange (cell expected desired : Option α) : Option α × Bool :=
  if cell = expected then (desired, true) else (cell, false)

theorem compareExchange_fst (cell expected desired : Option α) :
    (atomicCompareExchange cell expected desired).1 = if cell = expected then desired else cell :=
  apply_ite Prod.fst ..

def tally (cell : Option α) (token : α) : Nat := if cell = some token then 1 else 0

@[simp] theorem tally_none (token : α) : tally none token = 0 := rfl

@[simp] theorem tally_self (token : α) : tally (some token) token = 1 := if_pos rfl

theorem tally_of_ne (h : expected ≠ token) : tally (some expected) token = 0 :=
  if_neg fun heq => h (Option.some.inj heq)

theorem tally_eq_zero (h : cell ≠ some token) : tally cell token = 0 := if_neg h

theorem count_cons_tally (expected token : α) (tokens : List α) :
    (expected :: tokens).count token = tokens.count token + tally (some expected) token := by
  by_cases h : expected = token
  · subst h
    rw [List.count_cons_self, tally_self]
  · rw [List.count_cons_of_ne h, tally_of_ne h]
    rfl

theorem tally_compareExchange (cell : Option α) (expected : α) :
    tally (atomicCompareExchange cell (some expected) none).1 expected +
        (atomicCompareExchange cell (some expected) none).2.toNat =
      tally cell expected := by
  unfold atomicCompareExchange
  split
  · rename_i hcell
    simp [hcell]
  · rename_i hcell
    simp [tally_eq_zero hcell]

theorem compareExchange_of_ne (h : token ≠ expected) :
    (atomicCompareExchange cell (some expected) none).1 = some token ↔ cell = some token := by
  rw [compareExchange_fst]
  split
  · rename_i hcell
    rw [hcell]
    constructor
    · intro hnone
      contradiction
    · intro hsome
      exact absurd (Option.some.inj hsome).symm h
  · rfl

end BareKit
