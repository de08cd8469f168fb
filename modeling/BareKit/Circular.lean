import Mathlib.Data.List.Basic
import Mathlib.Data.Nat.ModEq

/-! Circular buffers of `n` slots between a head, where the next element goes, and
a tail, where the oldest one is. One slot always stays free, so that `head = tail`
says empty and nothing else. -/
namespace BareKit.Circular

variable {α : Type*} {n : Nat}

/-- How many slots lie between the tail and the head. -/
def occupied (n head tail : Nat) : Nat := (head + n - tail) % n

/-- The elements between the tail and the head, oldest first. -/
def contents (slots : Vector α n) (head tail : Nat) : List α :=
  (List.range (occupied n head tail)).filterMap fun i => slots[(tail + i) % n]?

theorem mask_eq_mod (k i : Nat) : i &&& (2 ^ k - 1) = i % 2 ^ k :=
  Nat.and_two_pow_sub_one_eq_mod i k

theorem occupied_lt {head tail : Nat} (hn : 0 < n) : occupied n head tail < n :=
  Nat.mod_lt _ hn

theorem occupied_eq_zero {head tail : Nat} (hh : head < n) (ht : tail < n) :
    occupied n head tail = 0 ↔ head = tail := by
  unfold occupied
  rcases Nat.lt_or_ge head tail with h | h
  · rw [Nat.mod_eq_of_lt (by omega)]
    omega
  · rw [Nat.mod_eq_sub_mod (by omega), Nat.mod_eq_of_lt (by omega)]
    omega

theorem tail_add_occupied {head tail : Nat} (hh : head < n) (ht : tail < n) :
    (tail + occupied n head tail) % n = head := by
  unfold occupied
  rcases Nat.lt_or_ge head tail with h | h
  · rw [Nat.mod_eq_of_lt (a := head + n - tail) (by omega),
      Nat.mod_eq_sub_mod (by omega), Nat.mod_eq_of_lt (by omega)]
    omega
  · rw [Nat.mod_eq_sub_mod (a := head + n - tail) (by omega),
      Nat.mod_eq_of_lt (a := head + n - tail - n) (by omega), Nat.mod_eq_of_lt (by omega)]
    omega

theorem succ_mod {i : Nat} (hi : i < n) : (i + 1) % n = if i + 1 = n then 0 else i + 1 := by
  split
  · simp_all
  · exact Nat.mod_eq_of_lt (by omega)

theorem occupied_full {head tail : Nat} (hh : head < n) (ht : tail < n) :
    (head + 1) % n = tail ↔ occupied n head tail + 1 = n := by
  unfold occupied
  rw [succ_mod hh]
  rcases Nat.lt_or_ge head tail with h | h
  · rw [Nat.mod_eq_of_lt (by omega)]
    split <;> omega
  · rw [Nat.mod_eq_sub_mod (by omega), Nat.mod_eq_of_lt (by omega)]
    split <;> omega

theorem occupied_succ_head {head tail : Nat} (hh : head < n) (ht : tail < n)
    (room : (head + 1) % n ≠ tail) :
    occupied n ((head + 1) % n) tail = occupied n head tail + 1 := by
  unfold occupied
  rw [succ_mod hh] at room ⊢
  split at room <;> rename_i hwrap
  · rw [if_pos hwrap, Nat.mod_eq_of_lt (by omega), Nat.mod_eq_sub_mod (by omega),
      Nat.mod_eq_of_lt (by omega)]
    omega
  · rw [if_neg hwrap]
    rcases Nat.lt_or_ge head tail with h | h
    · rw [Nat.mod_eq_of_lt (by omega), Nat.mod_eq_of_lt (by omega)]
      omega
    · rw [Nat.mod_eq_sub_mod (by omega), Nat.mod_eq_of_lt (by omega),
        Nat.mod_eq_sub_mod (by omega), Nat.mod_eq_of_lt (by omega)]
      omega

theorem occupied_succ_tail {head tail : Nat} (hh : head < n) (ht : tail < n)
    (nonempty : head ≠ tail) :
    occupied n head tail = occupied n head ((tail + 1) % n) + 1 := by
  unfold occupied
  rw [succ_mod ht]
  split <;> rename_i hwrap
  · rw [Nat.mod_eq_of_lt (by omega), Nat.mod_eq_sub_mod (by omega), Nat.mod_eq_of_lt (by omega)]
    omega
  · rcases Nat.lt_or_ge head tail with h | h
    · rw [Nat.mod_eq_of_lt (by omega), Nat.mod_eq_of_lt (by omega)]
      omega
    · rw [Nat.mod_eq_sub_mod (by omega), Nat.mod_eq_of_lt (by omega),
        Nat.mod_eq_sub_mod (by omega), Nat.mod_eq_of_lt (by omega)]
      omega

theorem slot_injective {tail i j : Nat} (hi : i < n) (hj : j < n)
    (h : (tail + i) % n = (tail + j) % n) : i = j := by
  have hmod : i % n = j % n := Nat.ModEq.add_left_cancel' tail h
  rwa [Nat.mod_eq_of_lt hi, Nat.mod_eq_of_lt hj] at hmod

theorem contents_length {slots : Vector α n} {head tail : Nat} (hn : 0 < n) :
    (contents slots head tail).length = occupied n head tail := by
  unfold contents
  rw [List.length_filterMap_eq_countP, List.countP_eq_length.mpr, List.length_range]
  intro i _
  simp [Vector.getElem?_eq_getElem (Nat.mod_lt (tail + i) hn)]

@[simp] theorem contents_self (slots : Vector α n) (head : Nat) :
    contents slots head head = [] := by
  simp [contents, occupied]

/-- Storing at the head of a buffer with room appends. -/
theorem contents_push {slots : Vector α n} {head tail : Nat} (x : α) (hh : head < n)
    (ht : tail < n) (room : (head + 1) % n ≠ tail) :
    contents (slots.setIfInBounds head x) ((head + 1) % n) tail =
      contents slots head tail ++ [x] := by
  have hlast : (tail + occupied n head tail) % n = head := tail_add_occupied hh ht
  have hold : ∀ i ∈ List.range (occupied n head tail),
      (slots.setIfInBounds head x)[(tail + i) % n]? = slots[(tail + i) % n]? := by
    intro i hi
    have hlt : i < occupied n head tail := List.mem_range.mp hi
    have hbound : occupied n head tail < n := occupied_lt (by omega)
    apply Vector.getElem?_setIfInBounds_ne
    intro heq
    have := slot_injective (by omega) hbound (heq.symm.trans hlast.symm)
    omega
  unfold contents
  rw [occupied_succ_head hh ht room, List.range_succ, List.filterMap_append,
    List.filterMap_congr hold]
  simp [hlast, hh]

/-- Leaving the slot at the tail of a buffer that is not empty drops the oldest. -/
theorem contents_shift (slots : Vector α n) {head tail : Nat} (hh : head < n) (ht : tail < n)
    (nonempty : head ≠ tail) :
    contents slots head tail = slots[tail] :: contents slots head ((tail + 1) % n) := by
  have hslot : ∀ i ∈ List.range (occupied n head ((tail + 1) % n)),
      slots[(tail + (i + 1)) % n]? = slots[((tail + 1) % n + i) % n]? := by
    intro i _
    rw [Nat.mod_add_mod, Nat.add_right_comm, Nat.add_assoc]
  unfold contents
  rw [occupied_succ_tail hh ht nonempty, List.range_succ_eq_map, List.filterMap_cons,
    List.filterMap_map, ← List.filterMap_congr hslot]
  simp only [Nat.add_zero, Nat.mod_eq_of_lt ht, Vector.getElem?_eq_getElem ht]
  rfl

end BareKit.Circular
