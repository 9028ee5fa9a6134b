import RevPiRaft.Verified.Progress

/-!
# Simulations between transition systems

A simulation relates the states of a concrete system to those of an abstract
one and matches every concrete step with an abstract step.  What the two steps
have in common (who acts, what happens, what is put out) is a parameter.  Every
concrete run then has an abstract run of the same length beside it, related
state by state and step by step (`Simulation.exists_beside`).

A weak simulation matches a concrete step with any number of abstract ones, and
need not match what is not allowed.  Every allowed run then has an abstract run
that passes related states in the same order (`WeakSimulation.exists_behind`).
This module names no program.
-/

namespace RevPiRaft.Verified.Refinement

open RevPiRaft.Verified.Runs
open RevPiRaft.Verified.Progress

variable {σ τ α β ω ω' : Type}

/-- Every step of `C` from a related state is matched by a step of `A`, and the
two end in related states. -/
structure Simulation (C : Lts σ α ω) (A : Lts τ β ω')
    (Match : σ → α → List ω → τ → β → List ω' → Prop) where
  Rel : σ → τ → Prop
  init : Rel C.init A.init
  step : ∀ {s t a s' out}, C.step s a = some (s', out) → Rel s t →
    ∃ b t' out', A.step t b = some (t', out') ∧ Rel s' t' ∧
      Match s a out t b out'

namespace Simulation

variable {C : Lts σ α ω} {A : Lts τ β ω'}
  {Match : σ → α → List ω → τ → β → List ω' → Prop}
  (sim : Simulation C A Match)

/-- The abstract run `run'` goes beside the first `k` steps of `run`. -/
structure Beside (run : Run C) (k : Nat) (run' : Run A) : Prop where
  length : run'.length = k
  state : ∀ i, i ≤ k → sim.Rel (run.state i) (run'.state i)
  step : ∀ i, (hi : i < run.length) → (hi' : i < run'.length) →
    Match (run.state i) (run.label i hi) (run.output i)
      (run'.state i) (run'.label i hi') (run'.output i)

theorem beside_zero (run : Run C) : sim.Beside run 0 ⟨[], rfl⟩ where
  length := rfl
  state := by
    intro i hi
    obtain rfl : i = 0 := by omega
    rw [Run.state_zero, Run.state_zero]
    exact sim.init
  step := fun i _ hi' => absurd hi' (Nat.not_lt_zero i)

theorem beside_succ {run : Run C} {k : Nat} {run' : Run A}
    (h : sim.Beside run k run') (hk : k < run.length) :
    ∃ run'', sim.Beside run (k + 1) run'' := by
  obtain ⟨rfl, hstate, hstep⟩ := h
  obtain ⟨b, t, out, hnext, hrel, hmatch⟩ :=
    sim.step (run.next _ hk) (hstate _ (Nat.le_refl _))
  obtain ⟨hlast, hout⟩ := run'.next_extend b hnext
  refine ⟨run'.extend b hnext, run'.length_extend b hnext, ?_, ?_⟩
  · intro i hi
    rcases Nat.lt_or_eq_of_le hi with hlt | rfl
    · rw [run'.state_extend b hnext (by omega)]
      exact hstate i (by omega)
    · rw [hlast]
      exact hrel
  · intro i hi hi'
    rw [run'.length_extend b hnext] at hi'
    rcases Nat.lt_or_eq_of_le (Nat.le_of_lt_succ hi') with hlt | rfl
    · rw [run'.label_extend b hnext hlt, run'.output_extend b hnext hlt,
        run'.state_extend b hnext (Nat.le_of_lt hlt)]
      exact hstep i hi hlt
    · rw [run'.label_extend_last b hnext, hout,
        run'.state_extend b hnext (Nat.le_refl _)]
      exact hmatch

/-- Every concrete run has an abstract run beside it. -/
theorem exists_beside (run : Run C) :
    ∃ run', sim.Beside run run.length run' := by
  have hprefix : ∀ k, k ≤ run.length → ∃ run', sim.Beside run k run' := by
    intro k
    induction k with
    | zero => exact fun _ => ⟨_, sim.beside_zero run⟩
    | succ k ih =>
        intro hk
        obtain ⟨run', hbeside⟩ := ih (by omega)
        exact sim.beside_succ hbeside hk
  exact hprefix _ (Nat.le_refl _)

end Simulation

/-! ## Several abstract steps at once -/

/-- Every allowed step of `C` from a related state is matched by some steps of
`A`, and both end in related states. -/
structure WeakSimulation (C : Lts σ α ω) (A : Lts τ β ω')
    (Allowed : σ → α → Prop) where
  Rel : σ → τ → Prop
  init : Rel C.init A.init
  step : ∀ {s t a s' out}, Allowed s a → C.step s a = some (s', out) →
    Rel s t → ∃ t', Leads A (fun _ => True) t t' ∧ Rel s' t'

namespace WeakSimulation

variable {C : Lts σ α ω} {A : Lts τ β ω'} {Allowed : σ → α → Prop}
  (sim : WeakSimulation C A Allowed)

/-- The first `k` steps of `run` are behind `run'`: state `i` is related to
state `f i`. -/
structure Behind (run : Run C) (k : Nat) (run' : Run A) (f : Nat → Nat) :
    Prop where
  monotone : ∀ i j, i ≤ j → f i ≤ f j
  le_length : ∀ i, f i ≤ run'.length
  last : f k = run'.length
  state : ∀ i, i ≤ k → sim.Rel (run.state i) (run'.state (f i))

theorem behind_zero (run : Run C) :
    sim.Behind run 0 ⟨[], rfl⟩ fun _ => 0 where
  monotone := fun _ _ _ => Nat.le_refl 0
  le_length := fun _ => Nat.zero_le _
  last := rfl
  state := by
    intro i hi
    obtain rfl : i = 0 := by omega
    rw [Run.state_zero, Run.state_zero]
    exact sim.init

theorem behind_succ {run : Run C} {k : Nat} {run' : Run A} {f : Nat → Nat}
    (h : sim.Behind run k run' f) (hk : k < run.length)
    (hallowed : Allowed (run.state k) (run.label k hk)) :
    ∃ run'' f', sim.Behind run (k + 1) run'' f' := by
  have hlast := h.state k (Nat.le_refl k)
  rw [h.last] at hlast
  obtain ⟨t, ⟨as, -, hexec⟩, hrel⟩ := sim.step hallowed (run.next k hk) hlast
  obtain ⟨run'', hlength, hend, hsame⟩ := run'.exists_append hexec
  refine ⟨run'', fun i => if i ≤ k then f i else run''.length, ?_, ?_, ?_, ?_⟩
  · intro i j hij
    have hmono := h.monotone i j hij
    have hle := h.le_length i
    split <;> split <;> omega
  · intro i
    have hle := h.le_length i
    split <;> omega
  · exact if_neg (by omega)
  · intro i hi
    split
    · rename_i hik
      rw [hsame _ (h.le_length i)]
      exact h.state i hik
    · obtain rfl : i = k + 1 := by omega
      rw [hend]
      exact hrel

/-- Every allowed run is behind an abstract run. -/
theorem exists_behind (run : Run C)
    (hallowed : ∀ i, (hi : i < run.length) →
      Allowed (run.state i) (run.label i hi)) :
    ∃ run' f, sim.Behind run run.length run' f := by
  have hprefix : ∀ k, k ≤ run.length → ∃ run' f, sim.Behind run k run' f := by
    intro k
    induction k with
    | zero => exact fun _ => ⟨_, _, sim.behind_zero run⟩
    | succ k ih =>
        intro hk
        obtain ⟨run', f, hbehind⟩ := ih (by omega)
        exact sim.behind_succ hbehind hk (hallowed k hk)
  exact hprefix _ (Nat.le_refl _)

end WeakSimulation

end RevPiRaft.Verified.Refinement
