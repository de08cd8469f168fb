import BareKit.Mutex
import Mathlib.Data.Set.Basic
import Mathlib.Logic.Function.Basic

/-! Threads that take locks and join each other. If each takes only locks that come after
those it holds, or takes one again that may be taken again, and joins with none held, then
no set of threads waits for each other. -/
namespace BareKit.LockOrder

variable {θ ℓ α : Type*}

inductive Instr (θ ℓ α : Type*) where
  | lock (lock : ℓ)
  | unlock (lock : ℓ)
  | join (thread : θ)
  | act (action : α)
  deriving DecidableEq, Repr

/-- The order of the locks, those that may be taken again, and what may be held at an
action. -/
structure Order (ℓ α : Type*) where
  rank : ℓ → Nat
  recursive : ℓ → Bool
  allows : α → List ℓ → Bool

/-- Those that wait cannot all be held up by others that do, if what a thread waits for
grows along. -/
theorem not_waiting {waits : θ → θ → Prop} (measure : θ → Nat) (bound : Nat)
    (hgrows : ∀ thread other, waits thread other → (∃ next, waits other next) →
      measure thread < measure other)
    (hbound : ∀ thread, measure thread ≤ bound) (set : Set θ) (hset : set.Nonempty) :
    ¬ ∀ thread ∈ set, ∃ other ∈ set, waits thread other := by
  intro hwaits
  have hnone : ∀ room, ∀ thread ∈ set, ¬ bound ≤ measure thread + room := by
    intro room
    induction room with
    | zero =>
      intro thread hmem hle
      obtain ⟨other, hother, hwait⟩ := hwaits thread hmem
      obtain ⟨next, -, hnext⟩ := hwaits other hother
      have hlt := hgrows thread other hwait ⟨next, hnext⟩
      have hbounded := hbound other
      omega
    | succ room ih =>
      intro thread hmem hle
      obtain ⟨other, hother, hwait⟩ := hwaits thread hmem
      obtain ⟨next, -, hnext⟩ := hwaits other hother
      have hlt := hgrows thread other hwait ⟨next, hnext⟩
      exact ih other hother (by omega)
  obtain ⟨thread, hmem⟩ := hset
  exact hnone bound thread hmem (by omega)

variable [DecidableEq ℓ]

/-- The locks that are held after the code, the last one taken first, if the code follows
the order. -/
def Order.follow (order : Order ℓ α) (held : List ℓ) :
    List (Instr θ ℓ α) → Option (List ℓ)
  | [] => some held
  | .lock lock :: rest =>
    if lock ∈ held ∧ order.recursive lock ∨ ∀ other ∈ held, order.rank other < order.rank lock then
      order.follow (lock :: held) rest
    else none
  | .unlock lock :: rest =>
    match held with
    | [] => none
    | last :: held => if lock = last then order.follow held rest else none
  | .join _ :: rest => if held = [] then order.follow held rest else none
  | .act action :: rest => if order.allows action held then order.follow held rest else none

namespace Order

variable {order : Order ℓ α} {held : List ℓ} {lock : ℓ} {rest code : List (Instr θ ℓ α)}

theorem follow_append (order : Order ℓ α) (held : List ℓ) (left right : List (Instr θ ℓ α)) :
    order.follow held (left ++ right) = (order.follow held left).bind (order.follow · right) := by
  induction left generalizing held with
  | nil => rfl
  | cons instr rest ih =>
    cases instr with
    | lock lock =>
      simp only [List.cons_append, follow]
      split
      · exact ih _
      · rfl
    | unlock lock =>
      simp only [List.cons_append, follow]
      split
      · rfl
      · split
        · exact ih _
        · rfl
    | join _ =>
      simp only [List.cons_append, follow]
      split
      · exact ih _
      · rfl
    | act _ =>
      simp only [List.cons_append, follow]
      split
      · exact ih _
      · rfl

theorem follow_lock (h : order.follow held (.lock lock :: rest) = some ([] : List ℓ)) :
    (lock ∈ held ∧ order.recursive lock = true ∨
      ∀ other ∈ held, order.rank other < order.rank lock) ∧
      order.follow (lock :: held) rest = some [] := by
  simp only [follow] at h
  split at h
  · exact ⟨‹_›, h⟩
  · contradiction

theorem follow_unlock (h : order.follow held (.unlock lock :: rest) = some ([] : List ℓ)) :
    ∃ before, held = lock :: before ∧ order.follow before rest = some [] := by
  simp only [follow] at h
  split at h
  · contradiction
  · split at h
    · rename_i before hlast
      exact ⟨before, by rw [hlast], h⟩
    · contradiction

theorem follow_join {thread : θ}
    (h : order.follow held (.join thread :: rest) = some ([] : List ℓ)) :
    held = [] ∧ order.follow held rest = some [] := by
  simp only [follow] at h
  split at h
  · exact ⟨‹_›, h⟩
  · contradiction

theorem follow_act {action : α} (h : order.follow held (.act action :: rest) = some ([] : List ℓ)) :
    order.allows action held = true ∧ order.follow held rest = some [] := by
  simp only [follow] at h
  split at h
  · exact ⟨‹_›, h⟩
  · contradiction

theorem follow_fresh (h : order.follow held (.lock lock :: rest) = some ([] : List ℓ))
    (hrecursive : order.recursive lock = false) : lock ∉ held := by
  intro hmem
  rcases (follow_lock h).1 with ⟨-, hagain⟩ | hafter
  · rw [hrecursive] at hagain
    contradiction
  · exact absurd (hafter lock hmem) (Nat.lt_irrefl _)

end Order

/-- What each thread has still to do, who holds each lock, and which threads are over. -/
structure Locks (θ ℓ α : Type*) where
  code : θ → List (Instr θ ℓ α) := fun _ => []
  mutex : ℓ → RecursiveMutex θ := fun _ => {}
  ended : θ → Bool := fun _ => false

variable [DecidableEq θ]

def Order.acquire (order : Order ℓ α) (lock : ℓ) (mutex : RecursiveMutex θ) (thread : θ) :
    Option (RecursiveMutex θ) :=
  if order.recursive lock ∨ mutex.holder.isNone then mutex.lock thread else none

namespace Locks

def setCode (locks : Locks θ ℓ α) (thread : θ) (code : List (Instr θ ℓ α)) : Locks θ ℓ α :=
  { locks with code := Function.update locks.code thread code }

def setMutex (locks : Locks θ ℓ α) (lock : ℓ) (mutex : RecursiveMutex θ) : Locks θ ℓ α :=
  { locks with mutex := Function.update locks.mutex lock mutex }

def step (order : Order ℓ α) (locks : Locks θ ℓ α) (thread : θ) : Option (Locks θ ℓ α) :=
  match locks.code thread with
  | [] => none
  | .lock lock :: rest =>
    (order.acquire lock (locks.mutex lock) thread).map fun mutex =>
      (locks.setCode thread rest).setMutex lock mutex
  | .unlock lock :: rest =>
    some ((locks.setCode thread rest).setMutex lock (locks.mutex lock).unlock)
  | .join other :: rest => if locks.ended other then some (locks.setCode thread rest) else none
  | .act _ :: rest => some (locks.setCode thread rest)

/-- A thread is held up by another, or by itself. -/
def Waits (order : Order ℓ α) (locks : Locks θ ℓ α) (thread other : θ) : Prop :=
  match locks.code thread with
  | .lock lock :: _ =>
    0 < (locks.mutex lock).level other ∧ (other = thread → order.recursive lock = false)
  | .join joined :: _ => joined = other ∧ locks.ended joined = false
  | _ => False

structure Orderly (order : Order ℓ α) (locks : Locks θ ℓ α) (held : θ → List ℓ) : Prop where
  follows : ∀ thread, order.follow (held thread) (locks.code thread) = some []
  level : ∀ lock thread, (locks.mutex lock).level thread = (held thread).count lock

end Locks

namespace Locks

variable {order : Order ℓ α} {locks next : Locks θ ℓ α} {held : θ → List ℓ} {thread other : θ}

theorem Orderly.setCode (h : locks.Orderly order held) {code : List (Instr θ ℓ α)}
    (hcode : order.follow (held thread) code = some []) :
    (locks.setCode thread code).Orderly order held := by
  refine ⟨fun other => ?_, h.level⟩
  by_cases hother : other = thread
  · subst hother
    simpa [Locks.setCode] using hcode
  · simpa [Locks.setCode, hother] using h.follows other

theorem Orderly.setMutex (h : locks.Orderly order held) {lock : ℓ} {mutex : RecursiveMutex θ}
    {before : List ℓ} {rest : List (Instr θ ℓ α)} (hrest : order.follow before rest = some [])
    (hlevel : ∀ other, mutex.level other = (Function.update held thread before other).count lock)
    (hothers : ∀ other, other ≠ lock → before.count other = (held thread).count other) :
    ((locks.setCode thread rest).setMutex lock mutex).Orderly order
      (Function.update held thread before) := by
  refine ⟨fun other => ?_, fun lock' other => ?_⟩
  · by_cases hother : other = thread
    · subst hother
      simpa [Locks.setMutex, Locks.setCode] using hrest
    · simpa [Locks.setMutex, Locks.setCode, hother] using h.follows other
  · by_cases hlock : lock' = lock
    · subst hlock
      simpa [Locks.setMutex] using hlevel other
    · have hsame := h.level lock' other
      by_cases hother : other = thread
      · subst hother
        simpa [Locks.setMutex, Locks.setCode, hlock, hothers lock' hlock] using hsame
      · simpa [Locks.setMutex, Locks.setCode, hlock, hother] using hsame

theorem Orderly.step (h : locks.Orderly order held) (hstep : locks.step order thread = some next) :
    ∃ held, next.Orderly order held := by
  have hfollows := h.follows thread
  unfold Locks.step at hstep
  split at hstep
  · contradiction
  · rename_i lock rest hcode
    rw [hcode] at hfollows
    obtain ⟨-, hrest⟩ := Order.follow_lock hfollows
    obtain ⟨mutex, hmutex, rfl⟩ := Option.map_eq_some_iff.mp hstep
    have hlock : (locks.mutex lock).lock thread = some mutex := by
      unfold Order.acquire at hmutex
      split at hmutex
      · exact hmutex
      · contradiction
    refine ⟨_, h.setMutex hrest (fun other => ?_) fun other hne => ?_⟩
    · rw [RecursiveMutex.lock_level hlock, h.level]
      by_cases hother : thread = other
      · subst hother
        simp
      · simp [hother, Ne.symm hother]
    · simp [Ne.symm hne]
  · rename_i lock rest hcode
    rw [hcode] at hfollows
    obtain ⟨before, hheld, hrest⟩ := Order.follow_unlock hfollows
    cases hstep
    have hlevel : 0 < (locks.mutex lock).level thread := by simp [h.level, hheld]
    refine ⟨_, h.setMutex hrest (fun other => ?_) fun other hne => ?_⟩
    · rw [RecursiveMutex.unlock_level hlevel, h.level]
      by_cases hother : thread = other
      · subst hother
        simp [hheld]
      · simp [hother, Ne.symm hother]
    · simp [hheld, Ne.symm hne]
  · rename_i joined rest hcode
    rw [hcode] at hfollows
    split at hstep
    · cases hstep
      exact ⟨held, h.setCode (Order.follow_join hfollows).2⟩
    · contradiction
  · rename_i action rest hcode
    rw [hcode] at hfollows
    cases hstep
    exact ⟨held, h.setCode (Order.follow_act hfollows).2⟩

def waitRank (order : Order ℓ α) (locks : Locks θ ℓ α) (thread : θ) : Nat :=
  match locks.code thread with
  | .lock lock :: _ => order.rank lock + 1
  | _ => 0

/-- The one that holds a lock up waits for a later one, and it does not join. -/
theorem Orderly.waits_grow (h : locks.Orderly order held)
    (hjoins : ∀ thread other rest, locks.code thread = .join other :: rest →
      ∀ joined rest, locks.code other ≠ .join joined :: rest)
    (hwaits : locks.Waits order thread other) (hother : ∃ last, locks.Waits order other last) :
    locks.waitRank order thread < locks.waitRank order other := by
  obtain ⟨last, hlast⟩ := hother
  have hfollows := h.follows other
  unfold Waits at hwaits hlast
  split at hlast
  · rename_i wanted rest hwanted
    have hrank : locks.waitRank order other = order.rank wanted + 1 := by
      rw [waitRank, hwanted]
    rw [hwanted] at hfollows
    obtain ⟨horder, -⟩ := Order.follow_lock hfollows
    rw [hrank]
    split at hwaits
    · rename_i lock rest' hcode
      rw [waitRank, hcode]
      have hmem : lock ∈ held other := by
        rw [← List.count_pos_iff, ← h.level]
        exact hwaits.1
      rcases horder with ⟨hagain, hrecursive⟩ | hafter
      · -- it holds the lock already, so it would not wait
        have hself : 0 < (locks.mutex wanted).level other := by
          rw [h.level]
          exact List.count_pos_iff.mpr hagain
        have hsame := RecursiveMutex.exclusive hlast.1 hself
        rw [hlast.2 hsame] at hrecursive
        contradiction
      · have hlt := hafter lock hmem
        simp only
        omega
    · rename_i joined rest' hcode
      rw [waitRank, hcode]
      exact Nat.succ_pos _
    · contradiction
  · rename_i joined rest hjoining
    rw [hjoining] at hfollows
    obtain ⟨hnone, -⟩ := Order.follow_join hfollows
    split at hwaits
    · rename_i lock rest' hcode
      have hlevel := h.level lock other
      rw [hnone] at hlevel
      simp only [List.count_nil] at hlevel
      omega
    · rename_i joined' rest' hcode
      have hsame := hwaits.1
      subst hsame
      exact absurd hjoining (hjoins thread joined' rest' hcode joined rest)
    · contradiction
  · contradiction

theorem Orderly.not_deadlocked (h : locks.Orderly order held)
    (hjoins : ∀ thread other rest, locks.code thread = .join other :: rest →
      ∀ joined rest, locks.code other ≠ .join joined :: rest)
    {bound : Nat} (hbound : ∀ lock, order.rank lock < bound) (set : Set θ) (hset : set.Nonempty) :
    ¬ ∀ thread ∈ set, ∃ other ∈ set, locks.Waits order thread other := by
  refine not_waiting (locks.waitRank order) bound
    (fun thread other hwaits hother => h.waits_grow hjoins hwaits hother)
      (fun thread => ?_) set hset
  unfold waitRank
  split
  · exact hbound _
  · exact Nat.zero_le _

theorem Orderly.fresh (h : locks.Orderly order held) {lock : ℓ} {rest : List (Instr θ ℓ α)}
    (hcode : locks.code thread = .lock lock :: rest) (hrecursive : order.recursive lock = false) :
    (locks.mutex lock).level thread = 0 := by
  have hfollows := h.follows thread
  rw [hcode] at hfollows
  rw [h.level]
  exact List.count_eq_zero.mpr (Order.follow_fresh hfollows hrecursive)

end Locks

end BareKit.LockOrder
