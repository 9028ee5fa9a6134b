import RevPiRaft.Verified.Runs

/-!
# Contracts for the operations of a stack machine

Code is a stack of operations.  Performing the top one under an observation
replaces it by further operations, to be performed before the rest, and has an
effect on a monitored state.  An operation may be forbidden in a monitored
state, and some observations of an operation are singled out as causes.

A contract says what an operation requires and what performing it, with all it
is replaced by, ensures.  Contracts speak of the monitored state, of whether
something forbidden has been performed and of whether a cause has been
observed; so one contract can show that nothing forbidden happens without a
cause (`disciplined_of_uncaused`), and that a cause does not come to rest
without it (`disciplined_iff`).  This module names no program.
-/

namespace RevPiRaft.Verified.Contracts

open RevPiRaft.Verified.Runs

variable {O A G W : Type}

/-! ## Contracts -/

/-- What an operation requires, and what it ensures about the states before and
after. -/
structure Contract (O W : Type) where
  pre : O → W → Prop
  post : O → W → W → Prop

namespace Contract

/-- By the contracts, performing the operations ends in `Q`. -/
def Wp (C : Contract O W) : List O → (W → Prop) → W → Prop
  | [], Q, w => Q w
  | o :: ops, Q, w => C.pre o w ∧ ∀ w', C.post o w w' → C.Wp ops Q w'

variable {C : Contract O W}

theorem wp_append (xs ys : List O) (Q : W → Prop) (w : W) :
    C.Wp (xs ++ ys) Q w ↔ C.Wp xs (C.Wp ys Q) w := by
  induction xs generalizing w with
  | nil => exact Iff.rfl
  | cons o xs ih =>
      show (C.pre o w ∧ ∀ w', C.post o w w' → C.Wp (xs ++ ys) Q w') ↔
        (C.pre o w ∧ ∀ w', C.post o w w' → C.Wp xs (C.Wp ys Q) w')
      constructor
      · intro h
        exact ⟨h.1, fun w' hw' => (ih w').mp (h.2 w' hw')⟩
      · intro h
        exact ⟨h.1, fun w' hw' => (ih w').mpr (h.2 w' hw')⟩

theorem wp_mono {ops : List O} {P Q : W → Prop} {w : W}
    (hPQ : ∀ w, P w → Q w) (h : C.Wp ops P w) : C.Wp ops Q w := by
  induction ops generalizing w with
  | nil => exact hPQ w h
  | cons o ops ih => exact ⟨h.1, fun w' hw' => ih (h.2 w' hw')⟩

/-- A loop whose laps each keep `P`. -/
theorem wp_flatMap {B : Type} {f : B → List O} {P : W → Prop}
    (hf : ∀ x w, P w → C.Wp (f x) P w) (xs : List B) {w : W} (h : P w) :
    C.Wp (xs.flatMap f) P w := by
  induction xs generalizing w with
  | nil => exact h
  | cons x xs ih =>
      rw [List.flatMap_cons, wp_append]
      exact wp_mono (fun w hw => ih hw) (hf x w h)

/-- Operations of which each keeps `P` keep it together. -/
theorem wp_keeps {ops : List O} {P : W → Prop} {w : W}
    (hops : ∀ o ∈ ops, ∀ w, P w → C.pre o w ∧ ∀ w', C.post o w w' → P w')
    (h : P w) : C.Wp ops P w := by
  induction ops generalizing w with
  | nil => exact h
  | cons o ops ih =>
      obtain ⟨hpre, hpost⟩ := hops o (List.mem_cons_self ..) w h
      constructor
      · exact hpre
      · intro w' hw'
        apply ih
        · intro o' ho'
          exact hops o' (List.mem_cons_of_mem o ho')
        · exact hpost w' hw'

end Contract

/-! ## Machines -/

/-- How operations are performed, and what they do to the monitored state. -/
structure Machine (O A G : Type) where
  perform : O → A → G → Option (List O)
  effect : O → A → G → G

/-- The machine that starts with the stack `ops` in the state `g`. -/
def Machine.lts (M : Machine O A G) (ops : List O) (g : G) :
    Lts (List O × G) A Unit where
  init := (ops, g)
  step := fun s a =>
    match s.1 with
    | [] => none
    | o :: rest =>
        (M.perform o a s.2).map fun new =>
          ((new ++ rest, M.effect o a s.2), [])

/-- What an operation may be reached in, and what is a cause. -/
structure Monitor (O A G : Type) where
  allowed : O → G → Prop
  cause : O → A → Prop

/-- The monitored state, and whether something forbidden was performed and a
cause observed. -/
structure Watch (G : Type) where
  state : G
  bad : Prop
  cause : Prop

/-- Performing one operation. -/
def Watch.next (M : Machine O A G) (mon : Monitor O A G) (w : Watch G) (o : O)
    (a : A) : Watch G where
  state := M.effect o a w.state
  bad := w.bad ∨ ¬ mon.allowed o w.state
  cause := w.cause ∨ mon.cause o a

/-- The operations fulfil their contracts, which require what the monitor
demands unless there was a cause. -/
structure Sound (M : Machine O A G) (mon : Monitor O A G)
    (C : Contract O (Watch G)) : Prop where
  keeps : ∀ o a new w, M.perform o a w.state = some new → C.pre o w →
    C.Wp new (C.post o w) (w.next M mon o a)
  guards : ∀ o w, C.pre o w → w.cause ∨ mon.allowed o w.state

/-! ## Predicates on what is watched -/

namespace Watch

/-- Behind a cause something forbidden was performed or is due by `X`; without
one the state is as `Y` says. -/
def Due (X Y : G → Prop) (w : Watch G) : Prop :=
  (w.cause → w.bad ∨ X w.state) ∧ (w.cause ∨ Y w.state)

/-- Nothing has happened that matters. -/
def Same (w w' : Watch G) : Prop :=
  w'.state = w.state ∧ (w'.cause ↔ w.cause) ∧ (w.bad → w'.bad)

/-- One operation has been performed that changes the state by `f` and is
forbidden outside `allowed`. -/
def Did (f : G → G) (allowed : G → Prop) (w w' : Watch G) : Prop :=
  w'.state = f w.state ∧ (w'.cause ↔ w.cause) ∧
    (w'.bad ↔ w.bad ∨ ¬ allowed w.state)

variable {X Y X' Y' : G → Prop} {w w' w'' : Watch G}

theorem Same.refl (w : Watch G) : Same w w := ⟨rfl, Iff.rfl, id⟩

theorem Same.trans (h : Same w w') (h' : Same w' w'') : Same w w'' :=
  ⟨h'.1.trans h.1, h'.2.1.trans h.2.1, fun hbad => h'.2.2 (h.2.2 hbad)⟩

theorem Did.same {allowed : G → Prop} (h : Did id allowed w w') : Same w w' :=
  ⟨h.1, h.2.1, fun hbad => h.2.2.mpr (.inl hbad)⟩

theorem Due.same (h : Due X Y w) (hw : Same w w') : Due X Y w' := by
  obtain ⟨hstate, hcause, hbad⟩ := hw
  constructor
  · intro hc
    rw [hstate]
    exact (h.1 (hcause.mp hc)).imp_left hbad
  · rw [hstate, hcause]
    exact h.2

theorem Due.mono (h : Due X Y w) (hX : ∀ g, X g → X' g)
    (hY : ∀ g, Y g → Y' g) : Due X' Y' w :=
  ⟨fun hc => (h.1 hc).imp_right (hX _), h.2.imp_right (hY _)⟩

/-- What is due may be met by the operation itself. -/
theorem Due.did {f : G → G} {allowed : G → Prop} (h : Due X Y w)
    (hw : Did f allowed w w') (hX : ∀ g, X g → ¬ allowed g ∨ X' (f g))
    (hY : ∀ g, Y g → Y' (f g)) : Due X' Y' w' := by
  obtain ⟨hstate, hcause, hbad⟩ := hw
  constructor
  · intro hc
    rw [hstate]
    rcases h.1 (hcause.mp hc) with hold | hdue
    · exact .inl (hbad.mpr (.inl hold))
    · exact (hX _ hdue).imp_left fun hforbidden => hbad.mpr (.inr hforbidden)
  · rw [hstate, hcause]
    exact h.2.imp_right (hY _)

/-- What holds where `E` does, and is kept where nothing happens that
matters. -/
structure Stable (E : G → Prop) (P : Watch G → Prop) : Prop where
  enters : ∀ w, P w → w.cause ∨ E w.state
  keeps : ∀ w w', Same w w' → P w → P w'

theorem stable_due {E : G → Prop} (hY : ∀ g, Y g → E g) :
    Stable E (Due X Y) where
  enters := fun _ h => h.2.imp_right (hY _)
  keeps := fun _ _ hw h => h.same hw

theorem stable_same {E : G → Prop} (h : w.cause ∨ E w.state) :
    Stable E (Same w) where
  enters := by
    intro w' hw
    rw [hw.1, hw.2.1]
    exact h
  keeps := fun _ _ hw h => h.trans hw

theorem next_did {M : Machine O A G} (mon : Monitor O A G) {o : O} {a : A}
    (ho : ¬ mon.cause o a) :
    Did (M.effect o a) (mon.allowed o) w (w.next M mon o a) :=
  ⟨rfl, or_iff_left ho, Iff.rfl⟩

theorem next_same {M : Machine O A G} {mon : Monitor O A G} {o : O} {a : A}
    (hstate : M.effect o a w.state = w.state) (ho : ¬ mon.cause o a) :
    Same w (w.next M mon o a) :=
  ⟨hstate, or_iff_left ho, .inl⟩

end Watch

namespace Contract

variable {C : Contract O (Watch G)} {X Y : G → Prop} {Q : Watch G → Prop}
  {w : Watch G}

/-- Where `E` holds, performing `o` does nothing that matters. -/
structure Neutral (C : Contract O (Watch G)) (E : G → Prop) (o : O) : Prop where
  pre : ∀ w, w.cause ∨ E w.state → C.pre o w
  post : ∀ w w', C.post o w w' → Watch.Same w w'

theorem wp_stable {E : G → Prop} {P : Watch G → Prop} {ops : List O}
    (hops : ∀ o ∈ ops, C.Neutral E o) (hP : Watch.Stable E P) (hw : P w) :
    C.Wp ops P w := by
  apply wp_keeps _ hw
  intro o ho w hw
  constructor
  · exact (hops o ho).pre w (hP.enters w hw)
  · intro w' hw'
    exact hP.keeps w w' ((hops o ho).post w w' hw') hw

/-- The contract of `o` says exactly what performing it does. -/
structure Exact (C : Contract O (Watch G)) (o : O) (f : G → G)
    (allowed : G → Prop) : Prop where
  pre : ∀ w, w.cause ∨ allowed w.state → C.pre o w
  post : ∀ w w', C.post o w w' → Watch.Did f allowed w w'

theorem Exact.wp {o : O} {ops : List O} {f : G → G} {allowed : G → Prop}
    (ho : C.Exact o f allowed) (X' Y' : G → Prop) (hw : Watch.Due X Y w)
    (hX : ∀ g, X g → ¬ allowed g ∨ X' (f g))
    (hY : ∀ g, Y g → allowed g ∧ Y' (f g))
    (hops : ∀ w', Watch.Due X' Y' w' → C.Wp ops Q w') :
    C.Wp (o :: ops) Q w := by
  constructor
  · exact ho.pre w (hw.2.imp_right fun hy => (hY _ hy).1)
  · intro w' hw'
    exact hops w' (hw.did (ho.post w w' hw') hX fun g hy => (hY g hy).2)

end Contract

/-! ## Runs of a machine -/

section Runs

variable {M : Machine O A G} {ops : List O} {g : G} (mon : Monitor O A G)
  (run : Run (M.lts ops g))

/-- After `i` steps the operation `o` is next, in the state `s`. -/
def Reaches (i : Nat) (o : O) (s : G) : Prop :=
  i ≤ run.length ∧ ∃ rest, run.state i = (o :: rest, s)

/-- The next step performs it under the observation `a`. -/
def Performs (i : Nat) (o : O) (a : A) (s : G) : Prop :=
  Reaches run i o s ∧ run.labels[i]? = some a

/-- Every operation is reached in a state in which it is allowed. -/
def Disciplined : Prop :=
  ∀ i o s, Reaches run i o s → mon.allowed o s

/-- No cause is observed. -/
def Uncaused : Prop :=
  ∀ i o a s, Performs run i o a s → ¬ mon.cause o a

/-- What is watched of the first `i` steps. -/
def watch (i : Nat) : Watch G where
  state := (run.state i).2
  bad := ∃ j < i, ∃ o s, Reaches run j o s ∧ ¬ mon.allowed o s
  cause := ∃ j < i, ∃ o a s, Performs run j o a s ∧ mon.cause o a

variable {mon run}

theorem Reaches.unique {i : Nat} {o o' : O} {s s' : G}
    (h : Reaches run i o s) (h' : Reaches run i o' s') : o' = o ∧ s' = s := by
  obtain ⟨-, rest, hstate⟩ := h
  obtain ⟨-, rest', hstate'⟩ := h'
  cases hstate.symm.trans hstate'
  exact ⟨rfl, rfl⟩

/-- What holds in an earlier step, or in the last one. -/
theorem exists_lt_succ {P : Nat → Prop} {i : Nat} :
    (∃ j < i + 1, P j) ↔ (∃ j < i, P j) ∨ P i := by
  constructor
  · rintro ⟨j, hj, hP⟩
    rcases Nat.lt_succ_iff_lt_or_eq.mp hj with hlt | rfl
    · exact .inl ⟨j, hlt, hP⟩
    · exact .inr hP
  · rintro (⟨j, hj, hP⟩ | hP)
    · exact ⟨j, by omega, hP⟩
    · exact ⟨i, by omega, hP⟩

theorem reaches_exists {i : Nat} {o : O} {s : G} (h : Reaches run i o s)
    {P : O → G → Prop} :
    (∃ o s, Reaches run i o s ∧ P o s) ↔ P o s := by
  constructor
  · rintro ⟨o', s', h', hP⟩
    obtain ⟨rfl, rfl⟩ := h.unique h'
    exact hP
  · intro hP
    exact ⟨o, s, h, hP⟩

theorem performs_exists {i : Nat} {o : O} {a : A} {s : G}
    (h : Performs run i o a s) {P : O → A → Prop} :
    (∃ o a s, Performs run i o a s ∧ P o a) ↔ P o a := by
  constructor
  · rintro ⟨o', a', s', h', hP⟩
    obtain ⟨rfl, rfl⟩ := h.1.unique h'.1
    cases h.2.symm.trans h'.2
    exact hP
  · intro hP
    exact ⟨o, a, s, h, hP⟩

theorem watch_succ {i : Nat} {o : O} {a : A} {s : G}
    (h : Performs run i o a s)
    (hstate : (run.state (i + 1)).2 = M.effect o a s) :
    watch mon run (i + 1) = (watch mon run i).next M mon o a := by
  obtain ⟨-, rest, hbefore⟩ := h.1
  have hs : (run.state i).2 = s := by rw [hbefore]
  simp only [watch, Watch.next, exists_lt_succ, hstate, hs,
    reaches_exists h.1 (P := fun o s => ¬ mon.allowed o s),
    performs_exists h (P := mon.cause)]

/-- Whether a given run has a cause can be read off its steps. -/
theorem uncaused_iff :
    Uncaused mon run ↔ ∀ i < run.length, ∀ o ∈ (run.state i).1.head?,
      ∀ a ∈ run.labels[i]?, ¬ mon.cause o a := by
  constructor
  · intro h i hi o ho a ha
    apply h i o a (run.state i).2
    refine ⟨⟨Nat.le_of_lt hi, (run.state i).1.tail, ?_⟩, ha⟩
    exact Prod.ext (List.eq_cons_of_mem_head? ho) rfl
  · intro h i o a s hperforms
    obtain ⟨⟨-, rest, hstate⟩, hlabel⟩ := hperforms
    apply h i (List.getElem?_eq_some_iff.mp hlabel).1 o _ a hlabel
    rw [hstate]
    rfl

/-- Every step performs the operation on top. -/
theorem exists_performs {i : Nat} (hi : i < run.length) :
    ∃ o a s rest new, Performs run i o a s ∧ run.state i = (o :: rest, s) ∧
      M.perform o a s = some new ∧
      run.state (i + 1) = (new ++ rest, M.effect o a s) := by
  have hnext := run.next i hi
  have hlabel : run.labels[i]? = some (run.label i hi) :=
    List.getElem?_eq_getElem hi
  generalize run.label i hi = a at hnext hlabel
  rcases hstate : run.state i with ⟨_ | ⟨o, rest⟩, s⟩
  · rw [hstate] at hnext
    cases hnext
  · rw [hstate] at hnext
    obtain ⟨new, hnew, heq⟩ := Option.map_eq_some_iff.mp hnext
    exact ⟨o, a, s, rest, new, ⟨⟨Nat.le_of_lt hi, rest, hstate⟩, hlabel⟩, rfl,
      hnew, (congrArg Prod.fst heq).symm⟩

variable {C : Contract O (Watch G)} {Q : Watch G → Prop}
  (hsound : Sound M mon C) (hstart : C.Wp ops Q ⟨g, False, False⟩)

include hsound hstart

/-- The stack of a run always fulfils the contracts. -/
theorem wp_run (i : Nat) (hi : i ≤ run.length) :
    C.Wp (run.state i).1 Q (watch mon run i) := by
  apply run.induction (P := fun i => C.Wp (run.state i).1 Q (watch mon run i))
    _ _ i hi
  · have hzero : watch mon run 0 = ⟨g, False, False⟩ := by
      simp only [watch, Run.state_zero, Nat.not_lt_zero, false_and,
        exists_false]
      rfl
    rw [hzero, Run.state_zero]
    exact hstart
  · intro i hi _ ih
    obtain ⟨o, a, s, rest, new, hperforms, hbefore, hnew, hafter⟩ :=
      exists_performs hi
    have hs : (watch mon run i).state = s := by rw [watch, hbefore]
    rw [← hs] at hnew
    rw [hbefore] at ih
    rw [watch_succ hperforms (by rw [hafter]), hafter, Contract.wp_append]
    exact Contract.wp_mono ih.2 (hsound.keeps o a new _ hnew ih.1)

/-- Without a cause nothing forbidden is reached. -/
theorem disciplined_of_uncaused (h : Uncaused mon run) :
    Disciplined mon run := by
  intro i o s hreach
  obtain ⟨hi, rest, hstate⟩ := id hreach
  have hwp := wp_run hsound hstart i hi
  rw [hstate] at hwp
  rcases hsound.guards o _ hwp.1 with ⟨j, -, o', a', s', hcaused, hcause⟩ | hok
  · exact absurd hcause (h j o' a' s' hcaused)
  · have hs : (watch mon run i).state = s := by rw [watch, hstate]
    rwa [hs] at hok

/-- In a run that ends where a cause has had its consequences, nothing
forbidden is reached if and only if there is no cause. -/
theorem disciplined_iff
    (hend : C.Wp (run.state run.length).1 Q (watch mon run run.length) →
      (watch mon run run.length).cause →
      (watch mon run run.length).bad ∨
        ∃ o s, Reaches run run.length o s ∧ ¬ mon.allowed o s) :
    Disciplined mon run ↔ Uncaused mon run := by
  constructor
  · intro h i o a s hperforms hcause
    have hi : i < run.length := (List.getElem?_eq_some_iff.mp hperforms.2).1
    rcases hend (wp_run hsound hstart run.length (Nat.le_refl _))
        ⟨i, hi, o, a, s, hperforms, hcause⟩ with
      ⟨j, -, o', s', hreach, hforbidden⟩ | ⟨o', s', hreach, hforbidden⟩
    · exact hforbidden (h j o' s' hreach)
    · exact hforbidden (h _ o' s' hreach)
  · exact disciplined_of_uncaused hsound hstart

end Runs

end RevPiRaft.Verified.Contracts
