import Mathlib.Data.List.Basic
import Mathlib.Data.Int.Basic

/-! Any number of threads, as the list of what each does next. A step replaces one of
them, which changes a count of them by that one alone. -/
namespace BareKit.Pool

variable {τ : Type*} {threads : List τ} {n m : Nat} {old new thread : τ}

theorem set_self (h : threads[n]? = some old) (new : τ) : (threads.set n new)[n]? = some new := by
  rw [List.getElem?_set_self (List.getElem?_eq_some_iff.mp h).1]

theorem forall_set {P : Nat → τ → Prop} (hnew : P n new)
    (hothers : ∀ m thread, m ≠ n → threads[m]? = some thread → P m thread) :
    ∀ m thread, (threads.set n new)[m]? = some thread → P m thread := by
  intro m thread hthread
  by_cases hm : n = m
  · subst hm
    rw [List.getElem?_set] at hthread
    split at hthread
    · split at hthread
      · exact Option.some.inj hthread ▸ hnew
      · contradiction
    · contradiction
  · rw [List.getElem?_set_ne hm] at hthread
    exact hothers m thread (Ne.symm hm) hthread

theorem forall_append {P : Nat → τ → Prop} (hnew : P threads.length new)
    (hothers : ∀ m thread, threads[m]? = some thread → P m thread) :
    ∀ m thread, (threads ++ [new])[m]? = some thread → P m thread := by
  intro m thread hthread
  rcases Nat.lt_trichotomy m threads.length with hlt | heq | hgt
  · rw [List.getElem?_append_left hlt] at hthread
    exact hothers m thread hthread
  · rw [heq, List.getElem?_concat_length] at hthread
    exact heq ▸ Option.some.inj hthread ▸ hnew
  · rw [List.getElem?_eq_none (by simp; omega)] at hthread
    contradiction

theorem any_set (h : threads[n]? = some old) (new : τ) (p : τ → Bool) (m : Nat) :
    (threads.set n new)[m]?.any p = if m = n then p new else threads[m]?.any p := by
  split
  · rename_i hm
    rw [hm, set_self h, Option.any_some]
  · rename_i hm
    rw [List.getElem?_set_ne (Ne.symm hm)]

/-- How many of the threads are where `p` holds. -/
def tally (threads : List τ) (p : τ → Bool) : Int := threads.countP p

theorem tally_nonneg (threads : List τ) (p : τ → Bool) : 0 ≤ tally threads p := Int.natCast_nonneg _

theorem tally_append (threads : List τ) (new : τ) (p : τ → Bool) :
    tally (threads ++ [new]) p = tally threads p + if p new then 1 else 0 := by
  unfold tally
  rw [List.countP_append, List.countP_singleton]
  split <;> simp

theorem tally_set (h : threads[n]? = some old) (new : τ) (p : τ → Bool) :
    tally (threads.set n new) p =
      tally threads p - (if p old then 1 else 0) + if p new then 1 else 0 := by
  obtain ⟨hlt, hold⟩ := List.getElem?_eq_some_iff.mp h
  have hcounted : p old = true → 1 ≤ threads.countP p := fun hp =>
    List.countP_pos_iff.mpr ⟨old, hold ▸ List.getElem_mem hlt, hp⟩
  unfold tally
  rw [List.countP_set hlt, hold]
  cases hp : p old with
  | false => cases p new <;> simp
  | true =>
    have hpos := hcounted hp
    cases p new <;> simp only [↓reduceIte, Bool.false_eq_true] <;> omega

theorem tally_eq_zero {p : τ → Bool} (h : tally threads p = 0) :
    ∀ thread ∈ threads, p thread = false := by
  intro thread hmem
  have hcount : threads.countP p = 0 := Int.natCast_eq_zero.mp h
  exact eq_false_of_ne_true fun hp => List.countP_eq_zero.mp hcount thread hmem hp

theorem tally_pos {p : τ → Bool} (h : threads[n]? = some thread) (hp : p thread = true) :
    0 < tally threads p := by
  obtain ⟨hlt, hthread⟩ := List.getElem?_eq_some_iff.mp h
  exact Int.natCast_pos.mpr (List.countP_pos_iff.mpr ⟨thread, hthread ▸ List.getElem_mem hlt, hp⟩)

theorem tally_exists {p : τ → Bool} (h : 0 < tally threads p) :
    ∃ (n : Nat) (thread : τ), threads[n]? = some thread ∧ p thread = true := by
  obtain ⟨thread, hmem, hp⟩ := List.countP_pos_iff.mp (Int.natCast_pos.mp h)
  obtain ⟨n, hn⟩ := List.getElem?_of_mem hmem
  exact ⟨n, thread, hn, hp⟩

def load (f : τ → Nat) : List τ → Nat
  | [] => 0
  | thread :: rest => f thread + load f rest

theorem load_set (h : threads[n]? = some old) (new : τ) (f : τ → Nat) :
    load f (threads.set n new) + f old = load f threads + f new := by
  induction threads generalizing n with
  | nil => simp at h
  | cons first rest ih =>
    cases n with
    | zero =>
      obtain rfl : first = old := by simpa using h
      simp only [List.set_cons_zero, load]
      omega
    | succ n =>
      have hrest := ih (by simpa using h)
      simp only [List.set_cons_succ, load]
      omega

end BareKit.Pool
