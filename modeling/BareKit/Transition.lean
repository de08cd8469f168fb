import Mathlib.Data.List.Basic
import Mathlib.Order.Basic

/-! Transition systems, with the two rules the development uses: an invariant of
every step holds in every reachable state, and a forward simulation between two
responding machines makes their traces equal. -/
namespace BareKit.Transition

variable {σ τ α ρ : Type*}

/-- A system is given by its initial states and by what each label does. A label
that is not enabled has no result, so a run is a list of enabled labels. -/
structure System (σ α : Type*) where
  init : σ → Prop
  step : σ → α → Option σ

namespace System

variable (S : System σ α)

inductive Reachable : σ → Prop where
  | start {s : σ} : S.init s → Reachable s
  | next {s t : σ} (a : α) : Reachable s → S.step s a = some t → Reachable t

/-- The state after a list of labels, if every one of them was enabled. -/
def run (s : σ) : List α → Option σ
  | [] => some s
  | a :: rest => (S.step s a).bind fun t => run t rest

/-- The state that a list of enabled labels leads to. -/
def result (s : σ) (labels : List α) (enabled : (S.run s labels).isSome) : σ :=
  (S.run s labels).get enabled

theorem run_result (s : σ) (labels : List α) (enabled : (S.run s labels).isSome) :
    S.run s labels = some (S.result s labels enabled) :=
  (Option.some_get enabled).symm

/-- The same system, restricted to the steps that meet a condition on the state
before them. -/
def guard (condition : σ → α → Prop) [∀ s a, Decidable (condition s a)] : System σ α where
  init := S.init
  step s a := if condition s a then S.step s a else none

variable {S}

@[simp] theorem run_nil (s : σ) : S.run s [] = some s := rfl

theorem run_cons (s : σ) (a : α) (rest : List α) :
    S.run s (a :: rest) = (S.step s a).bind fun t => S.run t rest := rfl

theorem Reachable.run {s t : σ} (h : S.Reachable s) {labels : List α}
    (hrun : S.run s labels = some t) : S.Reachable t := by
  induction labels generalizing s with
  | nil => exact Option.some.inj hrun ▸ h
  | cons a rest ih =>
    obtain ⟨u, hu, hrest⟩ := Option.bind_eq_some_iff.mp hrun
    exact ih (h.next a hu) hrest

theorem Reachable.result {s : σ} (h : S.init s) (labels : List α)
    (enabled : (S.run s labels).isSome) : S.Reachable (S.result s labels enabled) :=
  Reachable.run (.start h) (Option.some_get enabled).symm

/-- The induction principle for invariants. The reachability of the state before
the step is available to the step, so invariants can be proved one on another. -/
theorem Reachable.invariant {I : σ → Prop} {s : σ} (h : S.Reachable s)
    (initial : ∀ s, S.init s → I s)
    (preserved : ∀ s a t, S.Reachable s → I s → S.step s a = some t → I t) : I s := by
  induction h with
  | start hinit => exact initial _ hinit
  | next a hs hstep ih => exact preserved _ a _ hs ih hstep

/-- A property of states that no step undoes holds along the rest of a run. -/
theorem Reachable.persists {P : σ → Prop} {s t : σ} (h : S.Reachable s) (hs : P s)
    (kept : ∀ s a t, S.Reachable s → P s → S.step s a = some t → P t)
    {labels : List α} (hrun : S.run s labels = some t) : P t := by
  induction labels generalizing s with
  | nil => exact Option.some.inj hrun ▸ hs
  | cons a rest ih =>
    obtain ⟨u, hu, hrest⟩ := Option.bind_eq_some_iff.mp hrun
    exact ih (h.next a hu) (kept s a u h hs hu) hrest

/-- Steps of a kind that each use up some of a measure, which no step adds to, are no more than
there was of it, unless the run gets to where they are free. -/
theorem Reachable.spends {P F : σ → Prop} {m : σ → Nat} {k : α → Bool} {s t : σ}
    (h : S.Reachable s) (hs : P s)
    (kept : ∀ s a t, S.Reachable s → P s → S.step s a = some t → P t)
    (stays : ∀ s a t, S.Reachable s → F s → S.step s a = some t → F t)
    (pays : ∀ s a t, S.Reachable s → P s → S.step s a = some t →
      F t ∨ m t + (if k a then 1 else 0) ≤ m s)
    {labels : List α} (hrun : S.run s labels = some t) :
    F t ∨ labels.countP k + m t ≤ m s := by
  induction labels generalizing s with
  | nil =>
    obtain rfl := Option.some.inj hrun
    simp
  | cons a rest ih =>
    obtain ⟨u, hu, hrest⟩ := Option.bind_eq_some_iff.mp hrun
    rcases pays s a u h hs hu with hfree | hpaid
    · exact Or.inl ((h.next a hu).persists hfree stays hrest)
    · rcases ih (h.next a hu) (kept s a u h hs hu) hrest with hfree | hle
      · exact Or.inl hfree
      · right
        rw [List.countP_cons]
        omega

theorem guard_step {condition : σ → α → Prop} [∀ s a, Decidable (condition s a)]
    {s t : σ} {a : α} :
    (S.guard condition).step s a = some t ↔ condition s a ∧ S.step s a = some t := by
  simp only [guard]
  split <;> simp_all

theorem Reachable.of_guard {condition : σ → α → Prop} [∀ s a, Decidable (condition s a)]
    {s : σ} (h : (S.guard condition).Reachable s) : S.Reachable s := by
  induction h with
  | start hinit => exact .start hinit
  | next a _ hstep ih => exact ih.next a (guard_step.mp hstep).2

/-- A property that no step of a kind undoes holds along a run of such steps. -/
theorem Reachable.persists_guard {P : σ → Prop} {k : σ → α → Prop} [∀ s a, Decidable (k s a)]
    {s t : σ}
    (h : S.Reachable s) (hs : P s)
    (kept : ∀ s a t, S.Reachable s → P s → k s a → S.step s a = some t → P t)
    {labels : List α} (hrun : (S.guard k).run s labels = some t) : P t := by
  induction labels generalizing s with
  | nil => exact Option.some.inj hrun ▸ hs
  | cons a rest ih =>
    obtain ⟨u, hu, hrest⟩ := Option.bind_eq_some_iff.mp hrun
    obtain ⟨ha, hstep⟩ := guard_step.mp hu
    exact ih (h.next a hstep) (kept s a u h hs ha hstep) hrest

theorem Reachable.run_guard {k : σ → α → Prop} [∀ s a, Decidable (k s a)] {s t : σ}
    (h : S.Reachable s)
    {labels : List α} (hrun : (S.guard k).run s labels = some t) : S.Reachable t :=
  h.persists_guard h (fun _ a _ _ hs _ hstep => hs.next a hstep) hrun

/-- Steps of a kind that take from a measure come to an end, and where they do the goal is met, if
there is such a step short of it. -/
theorem Reachable.drains {P : σ → Prop} {k : σ → α → Prop} [∀ s a, Decidable (k s a)] {m : σ → Nat}
    {s t : σ} (h : S.Reachable s)
    (pays : ∀ s a t, S.Reachable s → k s a → S.step s a = some t → m t < m s)
    (nearer : ∀ s, S.Reachable s → P s ∨ ∃ a t, k s a ∧ S.step s a = some t)
    {labels : List α} (hrun : (S.guard k).run s labels = some t) :
    labels.length + m t ≤ m s ∧ (P t ∨ ∃ a u, k t a ∧ S.step t a = some u) := by
  induction labels generalizing s with
  | nil =>
    obtain rfl := Option.some.inj hrun
    simpa using nearer s h
  | cons a rest ih =>
    obtain ⟨u, hu, hrest⟩ := Option.bind_eq_some_iff.mp hrun
    obtain ⟨ha, hstep⟩ := guard_step.mp hu
    obtain ⟨hle, hgoes⟩ := ih (h.next a hstep) hrest
    have hpaid := pays s a u h ha hstep
    refine ⟨?_, hgoes⟩
    rw [List.length_cons]
    omega

end System

/-! A responding machine answers every label, so two machines can be compared by
what they answer along the same labels. -/

abbrev Machine (σ α ρ : Type*) := σ → α → σ × ρ

namespace Machine

def after (M : Machine σ α ρ) (s : σ) : List α → σ
  | [] => s
  | a :: rest => after M (M s a).1 rest

def answers (M : Machine σ α ρ) (s : σ) : List α → List ρ
  | [] => []
  | a :: rest => (M s a).2 :: answers M (M s a).1 rest

/-- Related states answer alike and stay related. -/
def Simulates (M : Machine σ α ρ) (N : Machine τ α ρ) (R : σ → τ → Prop) : Prop :=
  ∀ s t a, R s t → (M s a).2 = (N t a).2 ∧ R (M s a).1 (N t a).1

variable {M : Machine σ α ρ} {N : Machine τ α ρ} {R : σ → τ → Prop}

theorem Simulates.after (h : Simulates M N R) {s : σ} {t : τ} (hR : R s t) (labels : List α) :
    R (M.after s labels) (N.after t labels) := by
  induction labels generalizing s t with
  | nil => exact hR
  | cons a rest ih => exact ih (h s t a hR).2

theorem Simulates.answers (h : Simulates M N R) {s : σ} {t : τ} (hR : R s t) (labels : List α) :
    M.answers s labels = N.answers t labels := by
  induction labels generalizing s t with
  | nil => rfl
  | cons a rest ih =>
    obtain ⟨hanswer, hnext⟩ := h s t a hR
    simp only [Machine.answers, hanswer, ih hnext]

end Machine

end BareKit.Transition
