import BareKit.Transition
import Mathlib.Data.List.Nodup
import Mathlib.Logic.Function.Basic

/-! Objects that many threads call at once. What an observer sees is a history of calls and
returns. It is linearizable if its calls can be put in one order, in which each answers what it
answers after those before it, and which keeps a call that had returned before another one was
made ahead of that other one. -/
namespace BareKit.Linearization

open Transition

variable {σ τ θ α ρ : Type*}

inductive CallEvent (α ρ : Type*) where
  | invoke (call : Nat) (label : α)
  | respond (call : Nat) (answer : ρ)
  deriving DecidableEq

def CallEvent.call : CallEvent α ρ → Nat
  | .invoke call _ => call
  | .respond call _ => call

@[ext] structure Entry (α ρ : Type*) where
  call : Nat
  label : α
  answer : ρ

structure Explains (M : Machine σ α ρ) (s : σ) (order : List (Entry α ρ))
    (history : List (CallEvent α ρ)) : Prop where
  once : (order.map Entry.call).Nodup
  invoked : ∀ entry ∈ order, .invoke entry.call entry.label ∈ history
  responded : ∀ call answer, .respond call answer ∈ history →
    ∃ entry ∈ order, entry.call = call ∧ entry.answer = answer
  legal : M.answers s (order.map Entry.label) = order.map Entry.answer
  ordered : ∀ first ∈ order, ∀ second ∈ order, ∀ answer label,
    [CallEvent.respond first.call answer, .invoke second.call label].Sublist history →
      [first, second].Sublist order

def Linearizable (M : Machine σ α ρ) (s : σ) (history : List (CallEvent α ρ)) : Prop :=
  ∃ order, Explains M s order history

/-- What is linearizable for a machine is so for one that simulates it. -/
theorem Linearizable.simulates {M : Machine σ α ρ} {N : Machine τ α ρ} {R : σ → τ → Prop}
    {s : σ} {t : τ} {history : List (CallEvent α ρ)} (hsimulates : Machine.Simulates M N R)
    (hrelated : R s t) (h : Linearizable M s history) : Linearizable N t history := by
  obtain ⟨order, hexplains⟩ := h
  exact ⟨order, { hexplains with legal := (hsimulates.answers hrelated _) ▸ hexplains.legal }⟩

theorem after_append (M : Machine σ α ρ) (s : σ) (labels rest : List α) :
    M.after s (labels ++ rest) = M.after (M.after s labels) rest := by
  induction labels generalizing s with
  | nil => rfl
  | cons label labels ih => exact ih (M s label).1

theorem answers_append (M : Machine σ α ρ) (s : σ) (labels rest : List α) :
    M.answers s (labels ++ rest) = M.answers s labels ++ M.answers (M.after s labels) rest := by
  induction labels generalizing s with
  | nil => rfl
  | cons label labels ih =>
    simp only [List.cons_append, Machine.answers, Machine.after]
    rw [ih]

theorem mem_of_pair {x y : α} {l : List α} (h : [x, y].Sublist l) : x ∈ l ∧ y ∈ l :=
  ⟨h.subset (by simp), h.subset (by simp)⟩

theorem pair_concat {x y z : α} {l : List α} (h : [x, y].Sublist (l ++ [z])) :
    [x, y].Sublist l ∨ x ∈ l ∧ y = z := by
  obtain ⟨front, back, hsplit, hfront, hback⟩ := List.sublist_append_iff.mp h
  rcases List.sublist_singleton.mp hback with rfl | rfl
  · left
    rw [List.append_nil] at hsplit
    rwa [hsplit]
  · right
    have happend : [x] ++ [y] = front ++ [z] := hsplit
    have hinj : [x] = front ∧ [y] = [z] := List.append_inj' happend rfl
    obtain ⟨rfl, hlast⟩ := hinj
    exact ⟨hfront.subset (by simp), List.singleton_inj.mp hlast⟩

theorem update_eq_iff [DecidableEq θ] {f : θ → α} {thread other : θ} {x y : α} :
    Function.update f thread x other = y ↔
      other = thread ∧ x = y ∨ other ≠ thread ∧ f other = y := by
  by_cases hsame : other = thread
  · subst hsame
    simp
  · simp [hsame]

/-- What a thread is at: outside of any call, in one that has not got its place in the order
yet, or in one that has it, and with it its answer. -/
inductive OnCall (α ρ : Type*) where
  | idle
  | entering (call : Nat) (label : α)
  | leaving (call : Nat) (answer : ρ)

/-- The threads that call an object, what an observer has seen of them, and the order of the
calls so far. -/
structure Callers (θ α ρ : Type*) where
  onCall : θ → OnCall α ρ := fun _ => .idle
  calls : Nat := 0
  history : List (CallEvent α ρ) := []
  order : List (Entry α ρ) := []

namespace Callers

variable [DecidableEq θ]

def invoke (callers : Callers θ α ρ) (thread : θ) (label : α) : Callers θ α ρ :=
  { callers with
    onCall := Function.update callers.onCall thread (.entering callers.calls label)
    calls := callers.calls + 1
    history := callers.history ++ [.invoke callers.calls label] }

def take (callers : Callers θ α ρ) (thread : θ) (call : Nat) (label : α) (answer : ρ) :
    Callers θ α ρ :=
  { callers with
    onCall := Function.update callers.onCall thread (.leaving call answer)
    order := callers.order ++ [⟨call, label, answer⟩] }

def respond (callers : Callers θ α ρ) (thread : θ) (call : Nat) (answer : ρ) : Callers θ α ρ :=
  { callers with
    onCall := Function.update callers.onCall thread .idle
    history := callers.history ++ [.respond call answer] }

section OnCall

variable (callers : Callers θ α ρ) (thread : θ) (call : Nat) (label : α) (answer : ρ)

@[simp] theorem invoke_self :
    (callers.invoke thread label).onCall thread = .entering callers.calls label := by
  simp [invoke]

@[simp] theorem take_self :
    (callers.take thread call label answer).onCall thread = .leaving call answer := by
  simp [take]

@[simp] theorem respond_self : (callers.respond thread call answer).onCall thread = .idle := by
  simp [respond]

end OnCall

def after (M : Machine σ α ρ) (s : σ) (callers : Callers θ α ρ) : σ :=
  M.after s (callers.order.map Entry.label)

structure Sound (M : Machine σ α ρ) (s : σ) (callers : Callers θ α ρ) : Prop where
  explains : Explains M s callers.order callers.history
  bounded : ∀ event ∈ callers.history, event.call < callers.calls
  entering : ∀ thread call label, callers.onCall thread = .entering call label →
    .invoke call label ∈ callers.history ∧ ∀ entry ∈ callers.order, entry.call ≠ call
  leaving : ∀ thread call answer, callers.onCall thread = .leaving call answer →
    ∃ label, ⟨call, label, answer⟩ ∈ callers.order
  apart : ∀ thread other call label label', callers.onCall thread = .entering call label →
    callers.onCall other = .entering call label' → thread = other

variable {M : Machine σ α ρ} {s : σ} {callers : Callers θ α ρ} {thread : θ} {call : Nat}
  {label : α} {answer : ρ}

omit [DecidableEq θ] in
theorem Sound.none : Sound M s ({} : Callers θ α ρ) := by
  constructor
  · constructor <;> simp [Machine.answers]
  all_goals simp

omit [DecidableEq θ] in
theorem Sound.linearizable (h : Sound M s callers) : Linearizable M s callers.history :=
  ⟨callers.order, h.explains⟩

omit [DecidableEq θ] in
theorem Sound.entry_lt (h : Sound M s callers) {entry : Entry α ρ}
    (hentry : entry ∈ callers.order) :
    entry.call < callers.calls :=
  h.bounded _ (h.explains.invoked entry hentry)

theorem Sound.invoke (h : Sound M s callers) (thread : θ) (label : α) :
    Sound M s (callers.invoke thread label) := by
  have hexplains := h.explains
  -- the call is new, so it is neither in the history nor in the order
  have hnew : ∀ entry ∈ callers.order, entry.call ≠ callers.calls :=
    fun entry hentry => Nat.ne_of_lt (h.entry_lt hentry)
  constructor
  · refine
      { once := hexplains.once
        invoked := fun entry hentry => List.mem_append_left _ (hexplains.invoked entry hentry)
        responded := fun call answer hmem => hexplains.responded call answer ?_
        legal := hexplains.legal
        ordered := ?_ }
    · simpa [Callers.invoke] using hmem
    · intro first hfirst second hsecond answer other hpair
      rcases pair_concat hpair with hold | ⟨-, hlast⟩
      · exact hexplains.ordered first hfirst second hsecond answer other hold
      · simp only [CallEvent.invoke.injEq] at hlast
        exact absurd hlast.1 (hnew second hsecond)
  · intro event hevent
    simp only [Callers.invoke, List.mem_append, List.mem_singleton] at hevent ⊢
    rcases hevent with hold | rfl
    · exact Nat.lt_succ_of_lt (h.bounded event hold)
    · exact Nat.lt_succ_self _
  · intro other call label' hother
    rcases update_eq_iff.mp hother with ⟨-, hat⟩ | ⟨-, hwas⟩
    · cases hat
      exact ⟨by simp [Callers.invoke], hnew⟩
    · obtain ⟨hmem, hfree⟩ := h.entering other call label' hwas
      exact ⟨List.mem_append_left _ hmem, hfree⟩
  · intro other call answer hother
    rcases update_eq_iff.mp hother with ⟨-, hat⟩ | ⟨-, hwas⟩
    · contradiction
    · exact h.leaving other call answer hwas
  · intro one other call label' label'' hone hother
    have hlt : ∀ at' l, callers.onCall at' = .entering call l → call < callers.calls :=
      fun at' l hat => h.bounded _ (h.entering at' call l hat).1
    rcases update_eq_iff.mp hone with ⟨rfl, hat⟩ | ⟨-, hwas⟩ <;>
      rcases update_eq_iff.mp hother with ⟨rfl, hat'⟩ | ⟨-, hwas'⟩
    · rfl
    · cases hat
      exact absurd (hlt other label'' hwas') (Nat.lt_irrefl _)
    · cases hat'
      exact absurd (hlt one label' hwas) (Nat.lt_irrefl _)
    · exact h.apart one other call label' label'' hwas hwas'

/-- A call gets the next place in the order, and the answer of the machine there. -/
theorem Sound.take (h : Sound M s callers)
    (hentering : callers.onCall thread = .entering call label)
    (hanswer : (M (callers.after M s) label).2 = answer) :
    Sound M s (callers.take thread call label answer) := by
  have hexplains := h.explains
  obtain ⟨hinvoked, hfree⟩ := h.entering thread call label hentering
  constructor
  · refine
      { once := ?_
        invoked := ?_
        responded := ?_
        legal := ?_
        ordered := ?_ }
    · simp only [Callers.take, List.map_append, List.map_cons, List.map_nil]
      refine List.Nodup.append hexplains.once (List.nodup_singleton call) ?_
      rw [List.disjoint_singleton]
      simpa using hfree
    · intro entry hentry
      rcases List.mem_append.mp hentry with hold | hlast
      · exact hexplains.invoked entry hold
      · rw [List.mem_singleton.mp hlast]
        exact hinvoked
    · intro other answer' hmem
      obtain ⟨entry, hentry, hsame⟩ := hexplains.responded other answer' hmem
      exact ⟨entry, List.mem_append_left _ hentry, hsame⟩
    · simp only [Callers.take, List.map_append, List.map_cons, List.map_nil]
      rw [answers_append, hexplains.legal]
      simpa [Machine.answers, Callers.after] using hanswer
    · intro first hfirst second hsecond answer' label' hpair
      -- the first of the two has returned, so it had its place before
      have hold : first ∈ callers.order := by
        obtain ⟨entry, hentry, hcall, -⟩ := hexplains.responded _ _ (mem_of_pair hpair).1
        rcases List.mem_append.mp hfirst with hold | hlast
        · exact hold
        · rw [List.mem_singleton.mp hlast] at hcall
          exact absurd hcall (hfree entry hentry)
      rcases List.mem_append.mp hsecond with hother | hlast
      · exact (hexplains.ordered first hold second hother answer' label' hpair).trans
          (List.sublist_append_left _ _)
      · rw [List.mem_singleton.mp hlast]
        exact (List.singleton_sublist.mpr hold).append (List.Sublist.refl _)
  · exact h.bounded
  · intro other call' label' hother
    rcases update_eq_iff.mp hother with ⟨-, hat⟩ | ⟨hne, hwas⟩
    · contradiction
    · obtain ⟨hmem, hfree'⟩ := h.entering other call' label' hwas
      refine ⟨hmem, fun entry hentry => ?_⟩
      rcases List.mem_append.mp hentry with hold | hlast
      · exact hfree' entry hold
      · rw [List.mem_singleton.mp hlast]
        rintro rfl
        exact hne (h.apart other thread _ label' label hwas hentering)
  · intro other call' answer' hother
    rcases update_eq_iff.mp hother with ⟨-, hat⟩ | ⟨-, hwas⟩
    · cases hat
      exact ⟨label, by simp [Callers.take]⟩
    · obtain ⟨label', hmem⟩ := h.leaving other call' answer' hwas
      exact ⟨label', List.mem_append_left _ hmem⟩
  · intro one other call' label' label'' hone hother
    rcases update_eq_iff.mp hone with ⟨-, hat⟩ | ⟨-, hwas⟩
    · contradiction
    · rcases update_eq_iff.mp hother with ⟨-, hat⟩ | ⟨-, hwas'⟩
      · contradiction
      · exact h.apart one other call' label' label'' hwas hwas'

theorem Sound.respond (h : Sound M s callers)
    (hleaving : callers.onCall thread = .leaving call answer) :
    Sound M s (callers.respond thread call answer) := by
  have hexplains := h.explains
  obtain ⟨label, htaken⟩ := h.leaving thread call answer hleaving
  constructor
  · refine
      { once := hexplains.once
        invoked := fun entry hentry => List.mem_append_left _ (hexplains.invoked entry hentry)
        responded := ?_
        legal := hexplains.legal
        ordered := ?_ }
    · intro other answer' hmem
      rcases List.mem_append.mp hmem with hold | hlast
      · exact hexplains.responded other answer' hold
      · cases List.mem_singleton.mp hlast
        exact ⟨_, htaken, rfl, rfl⟩
    · intro first hfirst second hsecond answer' label' hpair
      rcases pair_concat hpair with hold | ⟨-, hlast⟩
      · exact hexplains.ordered first hfirst second hsecond answer' label' hold
      · contradiction
  · intro event hevent
    rcases List.mem_append.mp hevent with hold | hlast
    · exact h.bounded event hold
    · rw [List.mem_singleton.mp hlast]
      exact h.entry_lt htaken
  · intro other call' label' hother
    rcases update_eq_iff.mp hother with ⟨-, hat⟩ | ⟨-, hwas⟩
    · contradiction
    · obtain ⟨hmem, hfree⟩ := h.entering other call' label' hwas
      exact ⟨List.mem_append_left _ hmem, hfree⟩
  · intro other call' answer' hother
    rcases update_eq_iff.mp hother with ⟨-, hat⟩ | ⟨-, hwas⟩
    · contradiction
    · exact h.leaving other call' answer' hwas
  · intro one other call' label' label'' hone hother
    rcases update_eq_iff.mp hone with ⟨-, hat⟩ | ⟨-, hwas⟩
    · contradiction
    · rcases update_eq_iff.mp hother with ⟨-, hat⟩ | ⟨-, hwas'⟩
      · contradiction
      · exact h.apart one other call' label' label'' hwas hwas'

theorem after_take (M : Machine σ α ρ) (s : σ) (callers : Callers θ α ρ) (thread : θ) (call : Nat)
    (label : α) (answer : ρ) :
    (callers.take thread call label answer).after M s = (M (callers.after M s) label).1 := by
  simp only [after, take, List.map_append, List.map_cons, List.map_nil]
  rw [after_append]
  rfl

end Callers

/-- An object whose calls each do their work in one section: what a call does before and after
it is its own, and any of the other threads may be at any point of theirs. -/
structure Concurrent (σ θ α ρ : Type*) where
  object : σ
  callers : Callers θ α ρ := {}

inductive ConcurrentStep (θ α : Type*) where
  | invoke (thread : θ) (label : α)
  | enter (thread : θ)
  | respond (thread : θ)

namespace Concurrent

variable [DecidableEq θ]

def step (M : Machine σ α ρ) (run : Concurrent σ θ α ρ) :
    ConcurrentStep θ α → Option (Concurrent σ θ α ρ)
  | .invoke thread label =>
    match run.callers.onCall thread with
    | .idle => some { run with callers := run.callers.invoke thread label }
    | _ => none
  | .enter thread =>
    match run.callers.onCall thread with
    | .entering call label =>
      some
        { object := (M run.object label).1
          callers := run.callers.take thread call label (M run.object label).2 }
    | _ => none
  | .respond thread =>
    match run.callers.onCall thread with
    | .leaving call answer => some { run with callers := run.callers.respond thread call answer }
    | _ => none

def system (M : Machine σ α ρ) (s : σ) : System (Concurrent σ θ α ρ) (ConcurrentStep θ α) where
  init run := run = { object := s }
  step := step M

variable {M : Machine σ α ρ} {s : σ} {run next : Concurrent σ θ α ρ} {label : ConcurrentStep θ α}

theorem sound (h : (system M s).Reachable run) :
    run.callers.Sound M s ∧ run.object = run.callers.after M s := by
  refine h.invariant (I := fun run => run.callers.Sound M s ∧
    run.object = run.callers.after M s) ?_ ?_
  · rintro run rfl
    exact ⟨Callers.Sound.none, rfl⟩
  · intro run label next _ ⟨hsound, hobject⟩ hstep
    cases label with
    | invoke thread label =>
      simp only [system, step] at hstep
      split at hstep
      · cases hstep
        exact ⟨hsound.invoke thread label, hobject⟩
      · contradiction
    | enter thread =>
      simp only [system, step] at hstep
      split at hstep
      · rename_i call label hentering
        cases hstep
        refine ⟨hsound.take hentering (hobject ▸ rfl), ?_⟩
        rw [Callers.after_take, hobject]
      · contradiction
    | respond thread =>
      simp only [system, step] at hstep
      split at hstep
      · cases hstep
        exact ⟨hsound.respond ‹_›, hobject⟩
      · contradiction

theorem linearizable (h : (system M s).Reachable run) :
    Linearizable M s run.callers.history :=
  (sound h).1.linearizable

end Concurrent

end BareKit.Linearization
