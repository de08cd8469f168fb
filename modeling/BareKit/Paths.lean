import Mathlib.Data.List.Basic
import Mathlib.Tactic.Common

/-! Text that is split at a separator, and paths that are joined of it: what `split` and
`path.join` do. A path is its segments from the root. -/
namespace BareKit

abbrev Text := List Char

abbrev Path := List Text

def split (separator : Char) : Text → List Text
  | [] => [[]]
  | char :: rest =>
    if char = separator then [] :: split separator rest
    else ((char :: (split separator rest).headD []) :: (split separator rest).tail)

def Proper (segment : Text) : Prop := segment ≠ [] ∧ segment ≠ ['.'] ∧ segment ≠ ['.', '.']

instance (segment : Text) : Decidable (Proper segment) := inferInstanceAs (Decidable (_ ∧ _))

def enterSegment (directory : Path) (segment : Text) : Path :=
  if segment = [] ∨ segment = ['.'] then directory
  else if segment = ['.', '.'] then directory.dropLast
  else directory ++ [segment]

/-- `path.join` of an absolute directory and a path. -/
def pathJoin (directory path : Text) : Path :=
  (split '/' path).foldl enterSegment ((split '/' directory).foldl enterSegment [])

variable {separator : Char} {left right : Text} {segments : List Text} {segment : Text}
  {directory : Path}

theorem split_ne_nil (separator : Char) (text : Text) : split separator text ≠ [] := by
  cases text with
  | nil => simp [split]
  | cons char rest =>
    simp only [split]
    split <;> simp

theorem split_headD_tail (separator : Char) (text : Text) :
    (split separator text).headD [] :: (split separator text).tail = split separator text := by
  have hne := split_ne_nil separator text
  cases hsplit : split separator text with
  | nil => exact absurd hsplit hne
  | cons head tail => rfl

theorem split_append (hleft : split separator left = segments ++ [segment]) (right : Text) :
    split separator (left ++ right) =
      segments ++ (segment ++ (split separator right).headD []) ::
      (split separator right).tail := by
  induction left generalizing segments segment with
  | nil =>
    have hnil : segments = [] ∧ segment = [] := by
      cases segments with
      | nil => exact ⟨rfl, by simpa [split] using hleft.symm⟩
      | cons head tail => simp [split] at hleft
    rw [hnil.1, hnil.2, List.nil_append, List.nil_append, List.nil_append, split_headD_tail]
  | cons char rest ih =>
    simp only [split, List.cons_append] at hleft ⊢
    split at hleft
    · rename_i hchar
      rw [if_pos hchar]
      cases segments with
      | nil => simp [split_ne_nil] at hleft
      | cons head tail =>
        rw [List.cons_append, List.cons.injEq] at hleft
        rw [ih hleft.2, ← hleft.1]
        rfl
    · rename_i hchar
      rw [if_neg hchar]
      cases segments with
      | nil =>
        rw [List.nil_append, List.cons.injEq] at hleft
        have hrest : split separator rest = [] ++ [(split separator rest).headD []] := by
          have hwhole := split_headD_tail separator rest
          rw [hleft.2] at hwhole
          exact hwhole.symm
        rw [ih hrest, ← hleft.1]
        rfl
      | cons head tail =>
        rw [List.cons_append, List.cons.injEq] at hleft
        have hrest : split separator rest =
            ((split separator rest).headD [] :: tail) ++ [segment] := by
          rw [List.cons_append, ← hleft.2, split_headD_tail]
        rw [ih hrest, ← hleft.1]
        rfl

theorem split_of_notMem (h : separator ∉ left) : split separator left = [left] := by
  induction left with
  | nil => rfl
  | cons char rest ih =>
    have hne : char ≠ separator := fun heq => h (heq ▸ List.mem_cons_self)
    rw [split, if_neg hne, ih fun hmem => h (List.mem_cons_of_mem _ hmem)]
    rfl

theorem split_injective (separator : Char) : Function.Injective (split separator) := by
  intro left
  induction left with
  | nil =>
    intro right hsame
    cases right with
    | nil => rfl
    | cons char rest =>
      simp only [split] at hsame
      split at hsame
      · simp [split_ne_nil] at hsame
      · simp at hsame
  | cons char rest ih =>
    intro right hsame
    cases right with
    | nil =>
      simp only [split] at hsame
      split at hsame
      · simp [split_ne_nil] at hsame
      · simp at hsame
    | cons other others =>
      simp only [split] at hsame
      split at hsame <;> split at hsame <;> rename_i hchar hother
      · rw [hchar, hother, ih (List.cons.inj hsame).2]
      · simp at hsame
      · simp at hsame
      · obtain ⟨hhead, htail⟩ := List.cons.inj hsame
        obtain ⟨hfirst, hrest⟩ := List.cons.inj hhead
        rw [hfirst, ih]
        rw [← split_headD_tail, ← split_headD_tail separator others, hrest, htail]

theorem enterSegment_proper (h : Proper segment) :
    enterSegment directory segment = directory ++ [segment] := by
  obtain ⟨hempty, hdot, hdots⟩ := h
  simp [enterSegment, hempty, hdot, hdots]

theorem foldl_enterSegment (h : ∀ segment ∈ segments, segment ≠ ['.'] ∧ segment ≠ ['.', '.'])
    (directory : Path) :
    segments.foldl enterSegment directory = directory ++ segments.filter (· != []) := by
  induction segments generalizing directory with
  | nil => simp
  | cons segment rest ih =>
    obtain ⟨hdot, hdots⟩ := h segment List.mem_cons_self
    have hrest : ∀ segment ∈ rest, segment ≠ ['.'] ∧ segment ≠ ['.', '.'] :=
      fun other hmem => h other (List.mem_cons_of_mem _ hmem)
    rw [List.foldl_cons, ih hrest]
    by_cases hempty : segment = []
    · simp [hempty, enterSegment]
    · simp [enterSegment_proper ⟨hempty, hdot, hdots⟩, hempty]

theorem pathJoin_append (hleft : split '/' left = segments ++ [segment]) (parent right : Text) :
    pathJoin parent (left ++ right) =
      (split '/' right).tail.foldl enterSegment
        (enterSegment (segments.foldl enterSegment ((split '/' parent).foldl enterSegment []))
          (segment ++ (split '/' right).headD [])) := by
  unfold pathJoin
  rw [split_append hleft, List.foldl_append, List.foldl_cons]

end BareKit
