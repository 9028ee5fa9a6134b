import Mathlib.Data.List.Basic

/-!
# Labelled transition systems with a computable step

A system is an initial state and a partial step function that also reports the
outputs of the step.  The label resolves all nondeterminism, so a finite run is
the list of its labels; its states, its labels and its outputs are read off at
an index.  This module names no program.

## Main results

* `Run.next` — consecutive states of a run are related by a step.
* `Run.extend` — a run with one more step, and what stays the same in it.
* `Run.exists_append` — a run with more steps.
* `Run.induction` — induction over the indices of a run, for facts about one
  state as for history invariants, which need the run itself.
* `Run.origin` — what holds of a later state but not of the first one has come
  about in a step.
* `Run.entered` — the step in which it has, and what has been kept since.
* `Run.history` — a variable updated along a run from its states and labels.
* `Run.monotone` — a quantity that no step decreases is monotone along a run.
-/

namespace RevPiRaft.Verified.Runs

/-- States `σ`, labels `α` and outputs `ω`. -/
structure Lts (σ α ω : Type) where
  init : σ
  step : σ → α → Option (σ × List ω)

variable {σ α ω : Type}

namespace Lts

/-- Execution of a list of labels. -/
def exec (S : Lts σ α ω) (s : σ) : List α → Option σ
  | [] => some s
  | a :: as =>
      match S.step s a with
      | none => none
      | some r => exec S r.1 as

theorem exec_append (S : Lts σ α ω) (s : σ) (as bs : List α) :
    S.exec s (as ++ bs) = (S.exec s as).bind fun t => S.exec t bs := by
  induction as generalizing s with
  | nil => rfl
  | cons a as ih =>
      simp only [List.cons_append, exec]
      cases S.step s a with
      | none => rfl
      | some r => exact ih r.1

/-- Outputs of a list of labels, in their order. -/
def outputs (S : Lts σ α ω) (s : σ) : List α → List ω
  | [] => []
  | a :: as =>
      match S.step s a with
      | none => []
      | some r => r.2 ++ outputs S r.1 as

/-- Some list of labels leads from the start to `s`. -/
def Reachable (S : Lts σ α ω) (s : σ) : Prop :=
  ∃ labels, S.exec S.init labels = some s

theorem Reachable.after {S : Lts σ α ω} {s t : σ} {as : List α}
    (h : S.Reachable s) (hexec : S.exec s as = some t) : S.Reachable t := by
  obtain ⟨labels, hlabels⟩ := h
  refine ⟨labels ++ as, ?_⟩
  rw [exec_append, hlabels, Option.bind_some, hexec]

theorem Reachable.next {S : Lts σ α ω} {s t : σ} {a : α} {out : List ω}
    (h : S.Reachable s) (hstep : S.step s a = some (t, out)) :
    S.Reachable t := by
  obtain ⟨labels, hexec⟩ := h
  refine ⟨labels ++ [a], ?_⟩
  rw [exec_append, hexec, Option.bind_some, exec, hstep]
  rfl

end Lts

/-- A finite run: a list of labels that can be executed from the start. -/
structure Run (S : Lts σ α ω) where
  labels : List α
  executes : (S.exec S.init labels).isSome = true

namespace Run

variable {S : Lts σ α ω} (run : Run S)

/-- Number of steps. -/
def length : Nat := run.labels.length

/-- State after the first `i` steps. -/
def state (i : Nat) : σ := (S.exec S.init (run.labels.take i)).getD S.init

/-- Label of step `i`. -/
def label (i : Nat) (h : i < run.length) : α := run.labels[i]

/-- Outputs of step `i`. -/
def output (i : Nat) : List ω :=
  match run.labels[i]? with
  | none => []
  | some a => ((S.step (run.state i) a).map Prod.snd).getD []

theorem exec_take (i : Nat) :
    S.exec S.init (run.labels.take i) = some (run.state i) := by
  have hall := run.executes
  rw [← List.take_append_drop i run.labels, Lts.exec_append] at hall
  unfold state
  cases htake : S.exec S.init (run.labels.take i) with
  | none => simp [htake] at hall
  | some s => rfl

@[simp] theorem state_zero : run.state 0 = S.init := by
  simp [state, Lts.exec]

/-- Step `i` leads from state `i` to state `i + 1`. -/
theorem next (i : Nat) (h : i < run.length) :
    S.step (run.state i) (run.label i h) =
      some (run.state (i + 1), run.output i) := by
  have hstep := run.exec_take (i + 1)
  rw [List.take_add_one, Lts.exec_append, run.exec_take i] at hstep
  have hget : run.labels[i]? = some (run.label i h) :=
    List.getElem?_eq_getElem h
  simp only [hget, Option.toList_some, Option.bind_some, Lts.exec] at hstep
  unfold output
  rw [hget]
  cases hs : S.step (run.state i) (run.label i h) with
  | none => simp [hs] at hstep
  | some r =>
      simp only [hs, Option.some.injEq] at hstep
      exact congrArg some (Prod.ext hstep (by simp [hs]))

theorem reachable (i : Nat) : S.Reachable (run.state i) :=
  ⟨_, run.exec_take i⟩

/-- A reachable state is the last one of a run. -/
theorem exists_of_reachable {s : σ} (h : S.Reachable s) :
    ∃ run : Run S, run.state run.length = s := by
  obtain ⟨labels, hexec⟩ := h
  refine ⟨⟨labels, by rw [hexec]; rfl⟩, ?_⟩
  rw [state, length, List.take_length, hexec]
  rfl

/-- A run with one more step. -/
def extend (a : α) {s : σ} {out : List ω}
    (h : S.step (run.state run.length) a = some (s, out)) : Run S where
  labels := run.labels ++ [a]
  executes := by
    have hall := run.exec_take run.length
    rw [length, List.take_length] at hall
    rw [Lts.exec_append, hall, Option.bind_some, Lts.exec,
      show S.step (run.state run.labels.length) a = some (s, out) from h]
    rfl

section Extend

variable (a : α) {s : σ} {out : List ω}
  (h : S.step (run.state run.length) a = some (s, out))

@[simp] theorem length_extend : (run.extend a h).length = run.length + 1 := by
  simp [extend, length]

/-- The earlier states stay. -/
theorem state_extend {i : Nat} (hi : i ≤ run.length) :
    (run.extend a h).state i = run.state i := by
  have htake : (run.extend a h).labels.take i = run.labels.take i :=
    List.take_append_of_le_length hi
  rw [state, htake, state]

theorem length_lt_extend : run.length < (run.extend a h).length := by
  simp

theorem label_extend {i : Nat} (hi : i < run.length) :
    (run.extend a h).label i (Nat.lt_trans hi (run.length_lt_extend a h)) =
      run.label i hi :=
  List.getElem_append_left hi

theorem label_extend_last :
    (run.extend a h).label run.length (run.length_lt_extend a h) = a := by
  simp [label, extend, length]

theorem output_extend {i : Nat} (hi : i < run.length) :
    (run.extend a h).output i = run.output i := by
  have hlabel : (run.extend a h).labels[i]? = run.labels[i]? :=
    List.getElem?_append_left hi
  rw [output, output, hlabel, run.state_extend a h (Nat.le_of_lt hi)]

/-- The last step ends in `s` with the outputs `out`. -/
theorem next_extend :
    (run.extend a h).state (run.length + 1) = s ∧
      (run.extend a h).output run.length = out := by
  have hnext := (run.extend a h).next run.length (run.length_lt_extend a h)
  rw [run.label_extend_last a h, run.state_extend a h (Nat.le_refl _), h,
    Option.some.injEq, Prod.mk.injEq] at hnext
  exact ⟨hnext.1.symm, hnext.2.symm⟩

end Extend

/-- A run with more steps. -/
theorem exists_append {as : List α} {s : σ}
    (h : S.exec (run.state run.length) as = some s) :
    ∃ run' : Run S, run.length ≤ run'.length ∧ run'.state run'.length = s ∧
      ∀ i, i ≤ run.length → run'.state i = run.state i := by
  have hall := run.exec_take run.length
  rw [length, List.take_length] at hall
  have hexec : S.exec S.init (run.labels ++ as) = some s := by
    rw [Lts.exec_append, hall]
    exact h
  refine ⟨⟨run.labels ++ as, by rw [hexec]; rfl⟩, ?_, ?_, fun i hi => ?_⟩
  · rw [length, length, List.length_append]
    omega
  · rw [state, length, List.take_length, hexec]
    rfl
  · rw [state, state, List.take_append_of_le_length hi]

/-- Induction over the indices of a run. -/
theorem induction {P : Nat → Prop} (hinit : P 0)
    (hstep : ∀ i, (h : i < run.length) →
      S.step (run.state i) (run.label i h) =
        some (run.state (i + 1), run.output i) →
      P i → P (i + 1)) :
    ∀ i, i ≤ run.length → P i := by
  intro i
  induction i with
  | zero => exact fun _ => hinit
  | succ i ih =>
      intro hi
      exact hstep i hi (run.next i hi) (ih (by omega))

/-- What holds at an index, but not at the start and not by mere persistence,
has an earlier step to come from. -/
theorem origin {P Q : Nat → Prop} (hinit : ¬ P 0)
    (hstep : ∀ i, i < run.length → P (i + 1) → P i ∨ Q i) {i : Nat}
    (hi : i ≤ run.length) (h : P i) : ∃ j < i, Q j := by
  induction i with
  | zero => exact absurd h hinit
  | succ i ih =>
      rcases hstep i hi h with hold | hnew
      · obtain ⟨j, hj, hQ⟩ := ih (by omega) hold
        exact ⟨j, by omega, hQ⟩
      · exact ⟨i, by omega, hnew⟩

/-- What holds of a state, but not of the first one, has come about in a step,
and a value that the later steps keep is that of the state before this step. -/
theorem entered {β : Type} {P : σ → Prop} {f : σ → β} (hinit : ¬ P S.init)
    (hkeep : ∀ i, i < run.length → P (run.state (i + 1)) →
      f (run.state (i + 1)) = f (run.state i)) {i : Nat}
    (hi : i ≤ run.length) (h : P (run.state i)) :
    ∃ k < i, ¬ P (run.state k) ∧ P (run.state (k + 1)) ∧
      f (run.state k) = f (run.state i) := by
  induction i with
  | zero =>
      rw [state_zero] at h
      exact absurd h hinit
  | succ i ih =>
      rw [hkeep i hi h]
      by_cases hbefore : P (run.state i)
      · obtain ⟨k, hk, hentered⟩ := ih (by omega) hbefore
        exact ⟨k, by omega, hentered⟩
      · exact ⟨i, by omega, hbefore, h, rfl⟩

/-- A history variable: every step updates it from the state and the label. -/
def history {β : Type} (start : β) (update : σ → α → β → β) : Nat → β
  | 0 => start
  | i + 1 =>
      match run.labels[i]? with
      | none => history start update i
      | some a => update (run.state i) a (history start update i)

theorem history_succ {β : Type} (start : β) (update : σ → α → β → β) (i : Nat)
    (h : i < run.length) :
    run.history start update (i + 1) =
      update (run.state i) (run.label i h) (run.history start update i) := by
  have hget : run.labels[i]? = some (run.label i h) :=
    List.getElem?_eq_getElem h
  rw [history, hget]

/-- A quantity that no step decreases is monotone along the run. -/
theorem monotone {β : Type} [LE β] (f : σ → β)
    (hrefl : ∀ b : β, b ≤ b) (htrans : ∀ a b c : β, a ≤ b → b ≤ c → a ≤ c)
    (hstep : ∀ i, i < run.length → f (run.state i) ≤ f (run.state (i + 1)))
    (i j : Nat) (hij : i ≤ j) (hj : j ≤ run.length) :
    f (run.state i) ≤ f (run.state j) := by
  obtain ⟨k, rfl⟩ := Nat.exists_eq_add_of_le hij
  induction k with
  | zero => exact hrefl _
  | succ k ih =>
      exact htrans _ _ _ (ih (by omega) (by omega)) (hstep (i + k) (by omega))

end Run

end RevPiRaft.Verified.Runs
