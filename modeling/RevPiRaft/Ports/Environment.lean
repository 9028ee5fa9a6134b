import RevPiRaft.Ports.TermMonotone

/-!
# One replica among arbitrary publishers

What holds of one replica whatever it receives does not need the cluster.  Here
a run is one of a single process: every move is an action of the process or a
sample that somebody publishes, with any contents.  Every replica of a cluster
run goes through such a run (`node_reachable`).
-/

namespace RevPiRaft.Ports.Environment

open RevPiRaft.Verified.Runs
open RevPiRaft.Ports.Datamodel
open RevPiRaft.Ports.ReplicaCore
open RevPiRaft.Ports.LeaderElection
open RevPiRaft.Ports.Process
open RevPiRaft.Ports.Events
open RevPiRaft.Ports.Reactions
open RevPiRaft.Ports.Pending
open RevPiRaft.Ports.Cluster
open RevPiRaft.Ports.History
open RevPiRaft.Ports.TermMonotone

/-- An action of the process, or a publication offered to its readers. -/
inductive Move (ι : Type) where
  | act (a : Action ι)
  | offer (r : ι) (p : Publication)

variable {ι : Type}

/-- The process with identifier `ID` among `N` active replicas. -/
def openProcess (N : Nat) (ID : UInt8) :
    Lts (Node ι) (Move ι) Publication where
  init := Node.start ID
  step := fun n => fun
    | .act a => n.step N a
    | .offer r p => some (n.offer r p, [])

/-- What happens to the replica state in a move. -/
def moveEvent (n : Node ι) : Move ι → Event ι
  | .act a => event n a
  | .offer _ _ => .quiet

theorem move_react {N : Nat} {ID : UInt8} {n n' : Node ι} {a : Move ι}
    {out : List Publication}
    (h : (openProcess N ID).step n a = some (n', out)) :
    React N n.replica (moveEvent n a) n'.replica out := by
  cases a with
  | act a => exact react_cases (step_react h)
  | offer r p =>
      cases h
      exact .quiet

/-! ## Runs of one replica -/

/-- Runs of one replica from `initialize_replica`. -/
abbrev ReplicaRun (ι : Type) (N : Nat) (ID : UInt8) :=
  Run (openProcess (ι := ι) N ID)

namespace ReplicaRun

variable {N : Nat} {ID : UInt8} (run : ReplicaRun ι N ID)

/-- State of the replica after `i` moves. -/
def replica (i : Nat) : Replica := (run.state i).replica

/-- Move `i` performs the event `e`. -/
def Occurs (i : Nat) (e : Event ι) : Prop :=
  ∃ a, run.labels[i]? = some a ∧ moveEvent (run.state i) a = e

/-- In move `i` the replica executes the role change of `become_leader` while
its `current_term` is `t`. -/
def BecomesLeader (i : Nat) (t : UInt32) : Prop :=
  i < run.length ∧ (run.replica i).role ≠ .leader ∧
    (run.replica (i + 1)).role = .leader ∧ (run.replica i).currentTerm = t

instance (i : Nat) (t : UInt32) : Decidable (BecomesLeader run i t) :=
  inferInstanceAs (Decidable (_ ∧ _))

/-- No election starts in the last term. -/
def NoTermWrap : Prop :=
  ∀ i, run.Occurs i .start → (run.replica i).currentTerm ≠ lastTerm

variable {run}

theorem exists_occurs {i : Nat} (hi : i < run.length) :
    ∃ e, run.Occurs i e :=
  ⟨_, run.label i hi, List.getElem?_eq_getElem hi, rfl⟩

theorem Occurs.lt {i : Nat} {e : Event ι} (h : run.Occurs i e) :
    i < run.length := by
  obtain ⟨a, hlabel, _⟩ := h
  exact (List.getElem?_eq_some_iff.mp hlabel).1

theorem Occurs.react {i : Nat} {e : Event ι} (h : run.Occurs i e) :
    React N (run.replica i) e (run.replica (i + 1)) (run.output i) := by
  obtain ⟨a, hlabel, rfl⟩ := h
  obtain ⟨hi, hget⟩ := List.getElem?_eq_some_iff.mp hlabel
  have hnext := run.next i hi
  have hlabel : run.label i hi = a := hget
  rw [hlabel] at hnext
  exact move_react hnext

/-- A run that never reaches the last term starts no election in it. -/
theorem noTermWrap_of_terms
    (h : ∀ i < run.length, (run.replica i).currentTerm ≠ lastTerm) :
    run.NoTermWrap :=
  fun i he => h i he.lt

theorem replica_zero : run.replica 0 = Replica.initializeReplica ID := by
  rw [replica, Run.state_zero]
  rfl

/-- A fact about the replica holds along a run when every event preserves
it. -/
theorem invariant {P : Nat → Replica → Prop}
    (hstart : P 0 (Replica.initializeReplica ID))
    (hstep : ∀ i e, run.Occurs i e →
      React N (run.replica i) e (run.replica (i + 1)) (run.output i) →
      P i (run.replica i) → P (i + 1) (run.replica (i + 1))) :
    ∀ i, i ≤ run.length → P i (run.replica i) := by
  refine run.induction ?_ ?_
  · show P 0 (run.replica 0)
    rw [replica_zero]
    exact hstart
  intro i hi _ hP
  obtain ⟨e, he⟩ := exists_occurs hi
  exact hstep i e he he.react hP

theorem candidacy {i : Nat} (hi : i ≤ run.length) :
    Candidacy (run.replica i) :=
  invariant (P := fun _ => Candidacy) (fun h => absurd rfl h)
    (fun _ _ _ hreact hs => React.candidacy hreact hs) i hi

/-- `current_term` never decreases. -/
theorem term_le (hwrap : run.NoTermWrap) {i j : Nat} (hij : i ≤ j)
    (hj : j ≤ run.length) :
    (run.replica i).currentTerm ≤ (run.replica j).currentTerm := by
  refine run.monotone (fun n => n.replica.currentTerm) UInt32.le_refl
    (fun _ _ _ => UInt32.le_trans) (fun i hi => ?_) i j hij hj
  obtain ⟨e, he⟩ := exists_occurs hi
  refine React.term_le he.react (candidacy (Nat.le_of_lt hi)) ?_
  rintro rfl
  exact hwrap i he

end ReplicaRun

/-! ## Replicas of a cluster -/

/-- `election_term` of a candidate or leader is its term, whatever it
receives. -/
theorem reachable_candidacy {N : Nat} {ID : UInt8} {n : Node ι}
    (h : (openProcess N ID).Reachable n) : Candidacy n.replica := by
  obtain ⟨run, rfl⟩ := Run.exists_of_reachable h
  exact ReplicaRun.candidacy (Nat.le_refl _)

/-- In a cluster run every replica only comes to what it can come to among
arbitrary publishers. -/
theorem node_reachable [DecidableEq ι] {cfg : Config ι} (run : Execution cfg)
    (r : ι) {i : Nat} (hi : i ≤ run.length) :
    (openProcess cfg.activeReplicas (cfg.ID r)).Reachable (run.node i r) := by
  refine Execution.node_invariant r ⟨[], rfl⟩ (fun i a n _ hstep hn => ?_)
    (fun r' n p hn => ?_) i hi
  · exact hn.next (a := .act a) hstep
  · exact hn.next (a := .offer r' p) rfl

end RevPiRaft.Ports.Environment
