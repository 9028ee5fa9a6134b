import RevPiRaft.Ports.OutwardSigns
import RevPiRaft.Ports.Outputs
import RevPiRaft.Ports.ThreadRefinement

/-!
# The role that the device shows

What every event on a replica keeps, every critical section keeps, and so the
replica has it whenever the mutex is free, however the threads interleave
(`run_invariant`).  The signs of `Ports.OutwardSigns` are such a fact.  With
`Ports.Outputs` this reaches from the role to the process image: on a device
without faults the first variable is set outside of the sections exactly when
the replica does not lead, and the second one exactly when it does
(`role_shown`).
-/

namespace RevPiRaft.Ports.ShownRole

open RevPiRaft.Verified.Runs
open RevPiRaft.Verified.Refinement
open RevPiRaft.Verified.BitImage
open RevPiRaft.Ports.Datamodel
open RevPiRaft.Ports.ReplicaCore
open RevPiRaft.Ports.LeaderElection
open RevPiRaft.Ports.Reactions
open RevPiRaft.Ports.OutwardSigns
open RevPiRaft.Ports.Signals
open RevPiRaft.Ports.Ownership
open RevPiRaft.Ports.Sections
open RevPiRaft.Ports.ThreadRefinement
open RevPiRaft.Ports.DIO
open RevPiRaft.Ports.Outputs

variable {ι κ : Type} {N : Nat} {ID : UInt8}

/-! ## Invariants of the sections -/

section Invariant

variable {P : Replica → Prop}

/-- Every event but an election set-up on a leader keeps `P`. -/
def KeptByEvents (ι : Type) (N : Nat) (P : Replica → Prop) : Prop :=
  ∀ {s s' : Replica} {e : Events.Event ι} {out : List Publication},
    React N s e s' out → (e = .start → s.role ≠ .leader) → P s → P s'

/-- No section sets up an election on a leader. -/
theorem KeptByEvents.section (hP : KeptByEvents ι N P) {s s' : Replica}
    {c : Threads.Code} (h : Section ι N s c s') (hs : P s) : P s' := by
  cases h with
  | runElectionTimer batch =>
      induction batch generalizing s with
      | nil => exact hs
      | cons x batch ih =>
          apply ih
          exact hP (react_cases (e := .append x) rfl) (by intro h; cases h) hs
  | runLeaderElection hrole => exact hP .start (fun _ => hrole) hs
  | handleVoteMessage batch =>
      rw [handleVoteMessage]
      generalize false = g
      induction batch generalizing s g with
      | nil => exact hs
      | cons x batch ih =>
          apply ih
          exact hP (react_cases (e := .vote g x) rfl) (by intro h; cases h) hs
  | handleVoteReplyMessage batch s' hs' =>
      induction batch generalizing s with
      | nil =>
          cases hs'
          exact hs
      | cons x batch ih =>
          obtain ⟨r, hr, hrest⟩ := Option.bind_eq_some_iff.mp hs'
          have hreact : Events.react N s (.reply x) = some (r.1, []) :=
            Option.map_eq_some_iff.mpr ⟨r, hr, rfl⟩
          have hnext : P r.1 :=
            hP (react_cases hreact) (by intro h; cases h) hs
          split at hrest
          · cases hrest
            exact hnext
          · exact ih hnext hrest
  | main batch => exact hP (.input batch) (by intro h; cases h) hs

/-- The sections of a run start and end with `P`. -/
theorem run_invariant (hP : KeptByEvents ι N P)
    (hinit : P (.initializeReplica ID))
    (run : Run (Signals.process (ι := ι) N ID))
    (hquiet : ∀ i t r, run.labels[i]? = some (.run t r) →
      nextOp (run.state i) t ≠ some (.wait .leaderElection)) :
    ∀ i, i ≤ run.length → ∃ s, P s ∧ Ordered N s (run.state i) := by
  apply run.induction (P := fun i => ∃ s, P s ∧ Ordered N s (run.state i))
  · rw [Run.state_zero]
    exact ⟨_, hinit, .start N ID⟩
  · intro i hi _ ih
    obtain ⟨s, hs, hordered⟩ := ih
    have hnext := hordered.step (run_step run hi) (fun t r hlabel => by
      apply hquiet i t r
      rw [← hlabel]
      exact List.getElem?_eq_getElem hi)
    rcases hnext with hsame | ⟨c, s', hsection, hafter⟩
    · exact ⟨s, hs, hsame⟩
    · exact ⟨s', hP.section hsection hs, hafter⟩

/-- Without an owner the replica is between two sections. -/
theorem run_invariant_free (hP : KeptByEvents ι N P)
    (hinit : P (.initializeReplica ID))
    (run : Run (Signals.process (ι := ι) N ID))
    (hquiet : ∀ i t r, run.labels[i]? = some (.run t r) →
      nextOp (run.state i) t ≠ some (.wait .leaderElection))
    {i : Nat} (hi : i ≤ run.length) (hfree : (run.state i).owner = none) :
    P (run.state i).replica := by
  obtain ⟨s, hs, hordered⟩ := run_invariant hP hinit run hquiet i hi
  cases hordered with
  | between howner hreplica houtside =>
      rw [hreplica]
      exact hs
  | within self howner hinside houtside =>
      rw [howner] at hfree
      cases hfree

end Invariant

/-! ## The signs -/

theorem kept_signs (ι : Type) (N : Nat) : KeptByEvents ι N Signs :=
  fun h hstart hs => React.signs h hs hstart

section Shown

variable {d : Device κ} {image : κ → Image} {offset : κ → Nat}
  {configured : VarName → Option SPIVariable} {fd : Nat}
  {o₁ o₂ : SPIVariable}

/-- The device takes no part in the steps of the process. -/
def processSimulation (ι : Type) (d : Device κ) (N : Nat) (ID : UInt8)
    (kernel : κ) (stack : Vector UInt8 3) :
    Simulation (wired (ι := ι) d N ID kernel stack)
      (Signals.process (ι := ι) N ID) (fun _ e _ _ e' _ => e' = e.1) where
  Rel := fun w p => w.process = p
  init := rfl
  step := by
    intro w p e v out hstep hrel
    cases hrel
    obtain ⟨q, hq, rfl⟩ := Option.map_eq_some_iff.mp (wired_step hstep)
    refine ⟨e.1, q, [], ?_, rfl, rfl⟩
    show (w.process.step N e.1).map _ = _
    rw [hq]
    rfl

/-- Taking the device away leaves a run of the threads. -/
theorem exists_threads {kernel : κ} {stack : Vector UInt8 3}
    (run : Run (wired (ι := ι) d N ID kernel stack)) :
    ∃ run' : Run (Signals.process (ι := ι) N ID),
      run'.length = run.length ∧
      (∀ i, i ≤ run.length → run'.state i = (run.state i).process) ∧
      ∀ (i : Nat) (e : Event ι), run'.labels[i]? = some e →
        ∃ bytes, run.labels[i]? = some (e, bytes) := by
  obtain ⟨run', hlength, hstate, hstep⟩ :=
    (processSimulation ι d N ID kernel stack).exists_beside run
  refine ⟨run', hlength, fun i hi => (hstate i hi).symm, ?_⟩
  intro i e he
  obtain ⟨hi', hlabel'⟩ := List.getElem?_eq_some_iff.mp he
  have hi : i < run.length := by
    rw [← hlength]
    exact hi'
  have hlabel : run.labels[i]? = some (run.label i hi) :=
    List.getElem?_eq_getElem hi
  have hsame : e = (run.label i hi).1 := hlabel'.symm.trans (hstep i hi hi')
  exact ⟨(run.label i hi).2, by rw [hlabel, hsame]⟩

/-- The condition of `role_shown` can be computed. -/
theorem quiet_of_wired_check {kernel : κ} {stack : Vector UInt8 3}
    (run : Run (wired (ι := ι) d N ID kernel stack))
    (h : ∀ i < run.length, quietStep (run.state i).process
      (run.labels[i]?.map Prod.fst) = true) :
    ∀ i t r bytes, run.labels[i]? = some (.run t r, bytes) →
      nextOp (run.state i).process t ≠ some (.wait .leaderElection) := by
  intro i t r bytes hlabel hnext
  have hcheck := h i (List.getElem?_eq_some_iff.mp hlabel).1
  rw [hlabel, Option.map_some, quietStep, hnext] at hcheck
  cases hcheck

variable (hf : Faultless d image offset configured fd)
include hf

variable (hout : OutputsConfigured configured o₁ o₂)
include hout

/-- On a device without faults, as long as no wait of `run_leader_election`
comes back, the timer and both variables of the process image show whether the
replica leads in every state in which the mutex is free. -/
theorem role_shown {kernel : κ} {stack : Vector UInt8 3}
    (run : Run (wired (ι := ι) d N ID kernel stack))
    (hquiet : ∀ i t r bytes, run.labels[i]? = some (.run t r, bytes) →
      nextOp (run.state i).process t ≠ some (.wait .leaderElection))
    {i : Nat} (hi : i ≤ run.length)
    (hfree : (run.state i).process.owner = none) :
    let leads := decide ((run.state i).process.replica.role = .leader)
    (run.state i).process.replica.timerArmed = leads ∧
      Shows (image (run.state i).host.kernel) o₁ (!leads) ∧
      Shows (image (run.state i).host.kernel) o₂ leads := by
  intro leads
  obtain ⟨run', hlength, hstate, hlabels⟩ := exists_threads run
  have hquiet' : ∀ i t r, run'.labels[i]? = some (.run t r) →
      nextOp (run'.state i) t ≠ some (.wait .leaderElection) := by
    intro j t r hlabel
    obtain ⟨bytes, hbytes⟩ := hlabels j _ hlabel
    obtain ⟨hj, -⟩ := List.getElem?_eq_some_iff.mp hbytes
    rw [hstate j (Nat.le_of_lt hj)]
    exact hquiet j t r bytes hbytes
  have hsigns : Signs (run.state i).process.replica := by
    rw [← hstate i hi] at hfree ⊢
    exact run_invariant_free (kept_signs ι N) (signs_becomeFollower _ _) run'
      hquiet' (by rw [hlength]; exact hi) hfree
  have hmirrors : Mirrors image fd o₁ o₂ (image kernel)
      (run.state i).process.replica (run.state i).host := by
    refine run.induction (P := fun j => Mirrors image fd o₁ o₂ (image kernel)
      (run.state j).process.replica (run.state j).host) ?_ ?_ i hi
    · rw [Run.state_zero]
      exact mirrors_start hf hout ID kernel
    · intro j _ hnext ih
      exact mirrors_next hf hout (wired_step hnext) ih
  obtain ⟨htimer, houtputs⟩ := hsigns
  have hfirst := hmirrors.O1
  have hsecond := hmirrors.O2
  by_cases hrole : (run.state i).process.replica.role = .leader
  · rw [if_pos hrole, Prod.mk.injEq] at houtputs
    rw [houtputs.1] at hfirst
    rw [houtputs.2] at hsecond
    have hleads : leads = true := decide_eq_true hrole
    rw [hleads]
    exact ⟨htimer.mpr hrole, hfirst, hsecond⟩
  · rw [if_neg hrole, Prod.mk.injEq] at houtputs
    rw [houtputs.1] at hfirst
    rw [houtputs.2] at hsecond
    have hleads : leads = false := decide_eq_false hrole
    rw [hleads]
    exact ⟨Bool.eq_false_iff.mpr fun h => hrole (htimer.mp h), hfirst, hsecond⟩

end Shown

/-- Replica 2 wins term 1 and unlocks the mutex, on a device with a cleared
image. -/
def wiredWonTerm : Run (wired (ι := Unit) (simulated outputVariables) 3 2
    ⟨fun _ => false, 0⟩ (Vector.replicate 3 0)) where
  labels := wonTerm.labels.map fun e => (e, Vector.replicate 3 0)
  executes := by decide +kernel

/-- The device shows the leader. -/
theorem role_shown_wiredWonTerm :
    (wiredWonTerm.state 30).process.replica.timerArmed = true ∧
      Shows (wiredWonTerm.state 30).host.kernel.image ⟨70, 0, 1⟩ false ∧
      Shows (wiredWonTerm.state 30).host.kernel.image ⟨70, 1, 1⟩ true := by
  have hshown := role_shown (simulated_faultless outputVariables)
    outputVariables_bits.outputsConfigured wiredWonTerm
    (quiet_of_wired_check wiredWonTerm (by decide +kernel)) (i := 30)
    (by decide) (by decide +kernel)
  rw [show (wiredWonTerm.state 30).process.replica.role = .leader by
    decide +kernel] at hshown
  exact hshown

end RevPiRaft.Ports.ShownRole
