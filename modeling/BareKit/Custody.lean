import Mathlib.Data.List.Nodup
import Mathlib.Data.List.Count
import Mathlib.Logic.Function.Basic

/-! Tokens in the custody of places. A token is issued to a place, may be moved from place to
place, and is released from one: at any time it is in one place or was released once. -/
namespace BareKit

/-- The tokens are numbered in the order they are issued in. -/
@[ext] structure Custody (π : Type*) where
  held : π → List Nat
  issued : Nat
  released : List Nat

namespace Custody

variable {π : Type*} [DecidableEq π] {custody next : Custody π} {place other : π}
    {token found : Nat}

def add (custody : Custody π) (place : π) (token : Nat) : Custody π :=
  { custody with held := Function.update custody.held place (custody.held place ++ [token]) }

def drop (custody : Custody π) (place : π) (token : Nat) : Custody π :=
  { custody with held := Function.update custody.held place ((custody.held place).erase token) }

inductive Step (custody : Custody π) : Custody π → Prop where
  | issue (place : π) :
    Step custody { custody.add place custody.issued with issued := custody.issued + 1 }
  | move {place : π} {token : Nat} (other : π) (h : token ∈ custody.held place) :
    Step custody ((custody.drop place token).add other token)
  | release {place : π} {token : Nat} (h : token ∈ custody.held place) :
    Step custody { custody.drop place token with released := token :: custody.released }

@[simp] theorem add_held_self (place : π) :
    (custody.add place token).held place = custody.held place ++ [token] := Function.update_self ..

theorem add_held_of_ne (hne : other ≠ place) :
    (custody.add place token).held other = custody.held other := Function.update_of_ne hne ..

@[simp] theorem drop_held_self (place : π) :
    (custody.drop place token).held place = (custody.held place).erase token :=
      Function.update_self ..

theorem drop_held_of_ne (hne : other ≠ place) :
    (custody.drop place token).held other = custody.held other := Function.update_of_ne hne ..

/-! The steps of a system that keeps its own books, seen place by place. -/

theorem Step.ofIssue (place : π) (hplace : next.held place = custody.held place ++ [custody.issued])
    (hsame : ∀ other, other ≠ place → next.held other = custody.held other)
    (hissued : next.issued = custody.issued + 1) (hreleased : next.released = custody.released) :
    Step custody next := by
  have hnext : next = { custody.add place custody.issued with issued := custody.issued + 1 } := by
    refine Custody.ext (funext fun other => ?_) hissued hreleased
    by_cases hother : other = place
    · subst hother
      rw [hplace, add_held_self]
    · rw [hsame other hother, add_held_of_ne hother]
  rw [hnext]
  exact .issue place

theorem Step.ofMove (place other : π) {rest : List Nat} (hne : place ≠ other)
    (hfrom : custody.held place = token :: rest)
    (hplace : next.held place = rest) (hother : next.held other = custody.held other ++ [token])
    (hsame : ∀ third, third ≠ place → third ≠ other → next.held third = custody.held third)
    (hissued : next.issued = custody.issued) (hreleased : next.released = custody.released) :
    Step custody next := by
  have hnext : next = (custody.drop place token).add other token := by
    refine Custody.ext (funext fun third => ?_) hissued hreleased
    by_cases hthird : third = other
    · subst hthird
      rw [hother, add_held_self, drop_held_of_ne (Ne.symm hne)]
    · rw [add_held_of_ne hthird]
      by_cases hthird' : third = place
      · subst hthird'
        rw [drop_held_self, hplace, hfrom, List.erase_cons_head]
      · rw [drop_held_of_ne hthird', hsame third hthird' hthird]
  rw [hnext]
  exact .move other (by rw [hfrom]; exact List.mem_cons_self)

theorem Step.ofRelease (place : π) (htoken : token ∈ custody.held place)
    (hplace : next.held place = (custody.held place).erase token)
    (hsame : ∀ other, other ≠ place → next.held other = custody.held other)
    (hissued : next.issued = custody.issued)
    (hreleased : next.released = token :: custody.released) :
    Step custody next := by
  have hnext : next = { custody.drop place token with released := token :: custody.released } := by
    refine Custody.ext (funext fun other => ?_) hissued hreleased
    by_cases hother : other = place
    · subst hother
      rw [hplace, drop_held_self]
    · rw [hsame other hother, drop_held_of_ne hother]
  rw [hnext]
  exact .release htoken

/-- Every token but those that are `loose` is in one place or was released, once. -/
structure Sound (custody : Custody π) (loose : List Nat) : Prop where
  issued : ∀ place, ∀ token ∈ custody.held place, token < custody.issued
  nodup : ∀ place, (custody.held place).Nodup
  apart : ∀ place other token, token ∈ custody.held place → token ∈ custody.held other →
    place = other
  once : custody.released.Nodup
  past : ∀ token ∈ custody.released, token < custody.issued ∧ ∀ place, token ∉ custody.held place
  kept : ∀ token < custody.issued,
    token ∈ loose ∨ token ∈ custody.released ∨ ∃ place, token ∈ custody.held place

omit [DecidableEq π] in
theorem Sound.empty (held : π → List Nat) (hheld : ∀ place, held place = []) :
    Sound ⟨held, 0, []⟩ [] := by
  refine ⟨?_, ?_, ?_, List.nodup_nil, ?_, ?_⟩ <;> simp [hheld]

theorem mem_add : found ∈ (custody.add place token).held other ↔
    found ∈ custody.held other ∨ other = place ∧ found = token := by
  by_cases hother : other = place
  · subst hother
    simp
  · simp [add_held_of_ne hother, hother]

theorem mem_drop (h : custody.Sound []) (htoken : token ∈ custody.held place) :
    found ∈ (custody.drop place token).held other ↔ found ∈ custody.held other ∧ found ≠ token := by
  by_cases hother : other = place
  · subst hother
    rw [drop_held_self, (h.nodup other).mem_erase_iff]
    exact and_comm
  · rw [drop_held_of_ne hother]
    refine (and_iff_left_of_imp fun hfound heq => ?_).symm
    exact hother (h.apart other place token (heq ▸ hfound) htoken)

theorem Sound.add (h : custody.Sound [token]) (hissued : token < custody.issued)
    (hreleased : token ∉ custody.released) (hnone : ∀ place, token ∉ custody.held place)
    (place : π) :
    (custody.add place token).Sound [] := by
  refine ⟨fun other found hfound => ?_, fun other => ?_,
    fun first second found hfirst hsecond => ?_, h.once,
    fun found hfound => ⟨(h.past found hfound).1, fun other hheld => ?_⟩, fun found hfound => ?_⟩
  · rcases mem_add.mp hfound with hbefore | ⟨-, rfl⟩
    · exact h.issued other found hbefore
    · exact hissued
  · by_cases hother : other = place
    · subst hother
      rw [add_held_self]
      exact (h.nodup other).append (List.nodup_singleton token)
        (List.disjoint_singleton.mpr (hnone other))
    · rw [add_held_of_ne hother]
      exact h.nodup other
  · rcases mem_add.mp hfirst with hbefore | ⟨hplace, htoken⟩
    · rcases mem_add.mp hsecond with hbefore' | ⟨-, rfl⟩
      · exact h.apart first second found hbefore hbefore'
      · exact absurd hbefore (hnone first)
    · rcases mem_add.mp hsecond with hbefore' | ⟨hplace', -⟩
      · exact absurd (htoken ▸ hbefore') (hnone second)
      · exact hplace.trans hplace'.symm
  · rcases mem_add.mp hheld with hbefore | ⟨-, rfl⟩
    · exact (h.past found hfound).2 other hbefore
    · exact hreleased hfound
  · rcases h.kept found hfound with hloose | hreleased' | ⟨other, hheld⟩
    · rw [List.mem_singleton] at hloose
      exact Or.inr (Or.inr ⟨place, mem_add.mpr (Or.inr ⟨rfl, hloose⟩)⟩)
    · exact Or.inr (Or.inl hreleased')
    · exact Or.inr (Or.inr ⟨other, mem_add.mpr (Or.inl hheld)⟩)

theorem Sound.drop (h : custody.Sound []) (htoken : token ∈ custody.held place) :
    (custody.drop place token).Sound [token] ∧ token ∉ custody.released ∧
      ∀ other, token ∉ (custody.drop place token).held other := by
  refine ⟨⟨fun other found hfound => ?_, fun other => ?_,
    fun first second found hfirst hsecond => ?_, h.once,
    fun found hfound => ⟨(h.past found hfound).1, fun other hheld => ?_⟩, fun found hfound => ?_⟩,
    fun hreleased => (h.past token hreleased).2 place htoken, fun other hheld => ?_⟩
  · exact h.issued other found ((mem_drop h htoken).mp hfound).1
  · by_cases hother : other = place
    · subst hother
      rw [drop_held_self]
      exact (h.nodup other).erase token
    · rw [drop_held_of_ne hother]
      exact h.nodup other
  · exact h.apart first second found ((mem_drop h htoken).mp hfirst).1
      ((mem_drop h htoken).mp hsecond).1
  · exact (h.past found hfound).2 other ((mem_drop h htoken).mp hheld).1
  · rcases h.kept found hfound with hloose | hreleased | ⟨other, hheld⟩
    · simp at hloose
    · exact Or.inr (Or.inl hreleased)
    · by_cases heq : found = token
      · exact Or.inl (List.mem_singleton.mpr heq)
      · exact Or.inr (Or.inr ⟨other, (mem_drop h htoken).mpr ⟨hheld, heq⟩⟩)
  · exact ((mem_drop h htoken).mp hheld).2 rfl

theorem Sound.step (h : custody.Sound []) (hstep : Step custody next) : next.Sound [] := by
  cases hstep with
  | issue place =>
    have hfresh : Sound { custody with issued := custody.issued + 1 } [custody.issued] := by
      refine ⟨fun other found hheld => Nat.lt_succ_of_lt (h.issued other found hheld),
        h.nodup, h.apart, h.once,
        fun found hfound => ⟨Nat.lt_succ_of_lt (h.past found hfound).1, (h.past found hfound).2⟩,
        fun found hfound => ?_⟩
      rcases Nat.lt_succ_iff_lt_or_eq.mp hfound with hlt | rfl
      · exact Or.inr ((h.kept found hlt).resolve_left List.not_mem_nil)
      · exact Or.inl (List.mem_singleton.mpr rfl)
    exact hfresh.add (Nat.lt_succ_self _)
      (fun hreleased => Nat.lt_irrefl _ (h.past _ hreleased).1)
      (fun other hheld => Nat.lt_irrefl _ (h.issued other _ hheld)) place
  | move other htoken =>
    obtain ⟨hloose, hreleased, hnone⟩ := h.drop htoken
    exact hloose.add (h.issued _ _ htoken) hreleased hnone other
  | release htoken =>
    rename_i place token
    obtain ⟨hloose, hreleased, hnone⟩ := h.drop htoken
    refine ⟨hloose.issued, hloose.nodup, hloose.apart, List.nodup_cons.mpr ⟨hreleased, h.once⟩,
      fun found hfound => ?_, fun found hfound => ?_⟩
    · rcases List.mem_cons.mp hfound with rfl | hbefore
      · exact ⟨h.issued place found htoken, hnone⟩
      · exact hloose.past found hbefore
    · rcases hloose.kept found hfound with hsame | hbefore | hheld
      · exact Or.inr (Or.inl (List.mem_cons.mpr (Or.inl (List.mem_singleton.mp hsame))))
      · exact Or.inr (Or.inl (List.mem_cons_of_mem token hbefore))
      · exact Or.inr (Or.inr hheld)

omit [DecidableEq π] in
/-- A token is in one place, once, or was released, once. -/
theorem Sound.owned (h : custody.Sound []) (htoken : token < custody.issued) :
    ((∃! place, token ∈ custody.held place) ∧ (∀ place, (custody.held place).count token ≤ 1) ∧
      custody.released.count token = 0) ∨
    ((∀ place, token ∉ custody.held place) ∧ custody.released.count token = 1) := by
  rcases (h.kept token htoken).resolve_left List.not_mem_nil with hreleased | ⟨place, hheld⟩
  · exact Or.inr ⟨(h.past token hreleased).2, List.count_eq_one_of_mem h.once hreleased⟩
  · refine Or.inl ⟨⟨place, hheld, fun other hother => h.apart other place token hother hheld⟩,
      fun other => List.nodup_iff_count_le_one.mp (h.nodup other) token, ?_⟩
    exact List.count_eq_zero.mpr fun hreleased => (h.past token hreleased).2 place hheld

end Custody

end BareKit
