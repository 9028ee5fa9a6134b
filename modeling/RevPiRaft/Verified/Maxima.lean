import Mathlib.Data.List.Basic

/-!
# Running maxima

The maximum of a value and a list, and the maxima along the way.  An element
attains the maximum up to it exactly if nothing before it is larger, so some
element does exactly if one is not below the value at the start.  This module
names no program.
-/

namespace RevPiRaft.Verified.Maxima

variable {T : Type} [Max T]

/-- The maximum of a value and further ones. -/
def maximum (t : T) (xs : List T) : T := xs.foldl max t

/-- Every element with the maximum up to it. -/
def running (t : T) : List T → List (T × T)
  | [] => []
  | x :: xs => (x, max t x) :: running (max t x) xs

theorem running_getElem? (t : T) (xs : List T) (k : Nat) :
    (running t xs)[k]? =
      xs[k]?.map fun x => (x, maximum t (xs.take (k + 1))) := by
  induction xs generalizing t k with
  | nil => rfl
  | cons x xs ih =>
      cases k with
      | zero => rfl
      | succ k => exact ih (max t x) k

theorem running_length (t : T) (xs : List T) :
    (running t xs).length = xs.length := by
  induction xs generalizing t with
  | nil => rfl
  | cons x xs ih => exact congrArg (· + 1) (ih (max t x))

variable [LE T] [Std.IsLinearOrder T] [Std.LawfulOrderMax T]

theorem max_of_le {t x : T} (h : x ≤ t) : max t x = t :=
  Std.le_antisymm (Std.max_le_iff.mpr ⟨Std.le_refl t, h⟩) Std.left_le_max

theorem max_of_ge {t x : T} (h : t ≤ x) : max t x = x :=
  Std.le_antisymm (Std.max_le_iff.mpr ⟨h, Std.le_refl x⟩) Std.right_le_max

theorem eq_max_iff {t x : T} : x = max t x ↔ t ≤ x := by
  constructor
  · intro h
    rw [h]
    exact Std.left_le_max
  · intro h
    exact (max_of_ge h).symm

theorem le_maximum (t : T) (xs : List T) : t ≤ maximum t xs := by
  induction xs generalizing t with
  | nil => exact Std.le_refl t
  | cons x xs ih => exact Std.le_trans Std.left_le_max (ih (max t x))

/-- A maximum that does not exceed the value at the start leaves it at every
step. -/
theorem max_of_maximum {t x : T} {xs : List T}
    (h : maximum t (x :: xs) = t) : max t x = t := by
  have hle : max t x ≤ maximum t (x :: xs) := le_maximum (max t x) xs
  rw [h] at hle
  exact Std.le_antisymm hle Std.left_le_max

/-- Some element attains the maximum up to it exactly if one is not below the
value at the start. -/
theorem exists_attained (t : T) (xs : List T) :
    (∃ p ∈ running t xs, p.1 = p.2) ↔ ∃ x ∈ xs, t ≤ x := by
  induction xs generalizing t with
  | nil => simp [running]
  | cons x xs ih =>
      rw [running, List.exists_mem_cons_iff, List.exists_mem_cons_iff, ih,
        eq_max_iff]
      by_cases hle : t ≤ x
      · exact iff_of_true (.inl hle) (.inl hle)
      · rw [max_of_le (Std.le_of_not_ge hle)]

end RevPiRaft.Verified.Maxima
