import Mathlib.Logic.Function.Basic
import RevPiRaft.Ports.Threads

/-!
# `SIGALRM` on top of a thread

The three threads of a replica share its state and `consensus_mutex`.  While
the timer is armed, `SIGALRM` may be delivered to any of them at any point; its
handler `send_heartbeat` runs to its end before the thread goes on, and a
second signal does not interrupt it.

Reads are not checked for outstanding loans, which only adds runs.

No code masks the signal while it holds the mutex.  So the handler may find
the mutex locked by the very code it has interrupted, which cannot unlock it
before the handler returns.
-/

namespace RevPiRaft.Ports.Signals

open RevPiRaft.Verified.Runs
open RevPiRaft.Ports.Datamodel
open RevPiRaft.Ports.ReplicaCore
open RevPiRaft.Ports.Process
open RevPiRaft.Ports.Threads

variable {ι : Type} {N : Nat}

/-! ## A replica with its threads -/

/-- The main thread and the two that `initialize_replica` creates. -/
inductive Thread where
  | main
  | electionTimer
  | requestVote
deriving DecidableEq

def Thread.code : Thread → Code
  | .main => .main
  | .electionTimer => .runElectionTimer
  | .requestVote => .receiveVoteRequests

/-- What runs on a thread. -/
inductive Layer where
  | code
  | handler
deriving DecidableEq

/-- The replica and its threads.  `owner` says whose lock of the mutex has not
been followed by an unlock, and `handler` what is left of a `send_heartbeat`
that has interrupted the thread. -/
structure Process (ι : Type) where
  replica : Replica
  owner : Option (Thread × Layer)
  code : Thread → List (Op ι)
  handler : Thread → Option (List (Op ι))

/-- A thread performs its next operation, or `SIGALRM` is delivered to it. -/
inductive Event (ι : Type) where
  | run (t : Thread) (r : Result ι)
  | deliver (t : Thread)

namespace Process

/-- After `initialize_replica`, where main goes on to its first wait. -/
def start (ID : UInt8) : Process ι where
  replica := .initializeReplica ID
  owner := none
  code := fun t => t.code.start
  handler := fun _ => none

/-- The owner of the mutex after an operation.  A normal mutex is unlocked by
whoever calls unlock. -/
def ownerAfter (p : Process ι) (self : Thread × Layer) :
    Op ι → Option (Thread × Layer)
  | .lock => some self
  | .unlock => none
  | _ => p.owner

/-- A lock waits until the mutex is free. -/
def waits (p : Process ι) : Op ι → Bool
  | .lock => p.owner.isSome
  | _ => false

/-- The operation on top is performed: what it does to the shared state, and
the operations left. -/
def performTop (N : Nat) (p : Process ι) (self : Thread × Layer)
    (r : Result ι) : List (Op ι) → Option (Process ι × List (Op ι))
  | [] => none
  | o :: rest =>
      if p.waits o then none
      else
        (perform N p.replica o r).map fun new =>
          ({ p with
              replica := runOp p.replica o
              owner := p.ownerAfter self o }, new ++ rest)

/-- A handler with nothing left to do returns to the code. -/
def handlerLeft : List (Op ι) → Option (List (Op ι))
  | [] => none
  | ops => some ops

def step (N : Nat) (p : Process ι) : Event ι → Option (Process ι)
  | .run t r =>
      match p.handler t with
      | none =>
          (p.performTop N (t, .code) r (p.code t)).map fun q =>
            { q.1 with code := Function.update q.1.code t q.2 }
      | some ops =>
          (p.performTop N (t, .handler) r ops).map fun q =>
            { q.1 with
              handler := Function.update q.1.handler t (handlerLeft q.2) }
  | .deliver t =>
      if p.replica.timerArmed && (p.handler t).isNone then
        some { p with
          handler := Function.update p.handler t (some sendHeartbeat) }
      else none

/-- A `send_heartbeat` waits for the mutex while the code it has interrupted
holds it. -/
def Blocked (p : Process ι) (t : Thread) : Prop :=
  (∃ rest, p.handler t = some (.lock :: rest)) ∧ p.owner = some (t, .code)

end Process

/-- The runs of a replica process with ID `ID`. -/
def process (N : Nat) (ID : UInt8) : Lts (Process ι) (Event ι) Unit where
  init := Process.start ID
  step := fun p e => (p.step N e).map fun q => (q, [])

/-! ## Inversion -/

/-- One constructor for each way a process can go on. -/
inductive Step (N : Nat) (p : Process ι) : Event ι → Process ι → Prop where
  | code (t : Thread) (r : Result ι) (o : Op ι) (rest new : List (Op ι))
      (hhandler : p.handler t = none) (hcode : p.code t = o :: rest)
      (hfree : p.waits o = false) (ho : perform N p.replica o r = some new) :
      Step N p (.run t r)
        { p with
          replica := runOp p.replica o
          owner := p.ownerAfter (t, .code) o
          code := Function.update p.code t (new ++ rest) }
  | handler (t : Thread) (r : Result ι) (o : Op ι) (rest new : List (Op ι))
      (hhandler : p.handler t = some (o :: rest)) (hfree : p.waits o = false)
      (ho : perform N p.replica o r = some new) :
      Step N p (.run t r)
        { p with
          replica := runOp p.replica o
          owner := p.ownerAfter (t, .handler) o
          handler := Function.update p.handler t
            (Process.handlerLeft (new ++ rest)) }
  | deliver (t : Thread) (harmed : p.replica.timerArmed = true)
      (hhandler : p.handler t = none) :
      Step N p (.deliver t)
        { p with
          handler := Function.update p.handler t (some sendHeartbeat) }

theorem performTop_cases {p : Process ι} {self : Thread × Layer}
    {r : Result ι} {ops : List (Op ι)} {q : Process ι × List (Op ι)}
    (h : p.performTop N self r ops = some q) :
    ∃ o rest new, ops = o :: rest ∧ p.waits o = false ∧
      perform N p.replica o r = some new ∧
      q = ({ p with
        replica := runOp p.replica o
        owner := p.ownerAfter self o }, new ++ rest) := by
  cases ops with
  | nil => cases h
  | cons o rest =>
      rw [Process.performTop] at h
      split at h
      · cases h
      · rename_i hfree
        obtain ⟨new, hnew, rfl⟩ := Option.map_eq_some_iff.mp h
        exact ⟨o, rest, new, rfl, Bool.eq_false_iff.mpr hfree, hnew, rfl⟩

theorem step_cases {p q : Process ι} {e : Event ι}
    (h : p.step N e = some q) : Step N p e q := by
  cases e with
  | run t r =>
      rw [Process.step] at h
      split at h
      · rename_i hhandler
        obtain ⟨p', hp', rfl⟩ := Option.map_eq_some_iff.mp h
        obtain ⟨o, rest, new, hcode, hfree, ho, rfl⟩ := performTop_cases hp'
        exact .code t r o rest new hhandler hcode hfree ho
      · rename_i ops hhandler
        obtain ⟨p', hp', rfl⟩ := Option.map_eq_some_iff.mp h
        obtain ⟨o, rest, new, rfl, hfree, ho, rfl⟩ := performTop_cases hp'
        exact .handler t r o rest new hhandler hfree ho
  | deliver t =>
      rw [Process.step] at h
      split at h
      · rename_i hready
        cases h
        rw [Bool.and_eq_true] at hready
        exact .deliver t hready.1 (Option.isNone_iff_eq_none.mp hready.2)
      · cases h

/-! ## Who holds the mutex under a handler -/

/-- No handler runs on top of code that holds the mutex. -/
def Unobstructed (p : Process ι) : Prop :=
  ∀ t, p.handler t ≠ none → p.owner ≠ some (t, .code)

theorem Unobstructed.not_blocked {p : Process ι} (h : Unobstructed p)
    (t : Thread) : ¬ p.Blocked t := by
  rintro ⟨⟨rest, hhandler⟩, howner⟩
  apply h t _ howner
  rw [hhandler]
  exact Option.some_ne_none _

/-- The owner after an operation is the old one, none, or who performs it. -/
theorem ownerAfter_cases (p : Process ι) (self : Thread × Layer) (o : Op ι) :
    p.ownerAfter self o = p.owner ∨ p.ownerAfter self o = none ∨
      p.ownerAfter self o = some self := by
  cases o with
  | lock => exact .inr (.inr rfl)
  | unlock => exact .inr (.inl rfl)
  | _ => exact .inl rfl

/-- The interrupted code performs nothing, so only a delivery can put a handler
on top of code that holds the mutex. -/
theorem Unobstructed.step {p q : Process ι} {e : Event ι}
    (h : Unobstructed p) (hstep : Step N p e q)
    (hdeliver : ∀ t, e = .deliver t → p.owner ≠ some (t, .code)) :
    Unobstructed q := by
  intro u hu
  cases hstep with
  | code t r o rest new hhandler hcode hfree ho =>
      have hne : u ≠ t := by
        intro heq
        rw [heq] at hu
        exact hu hhandler
      rcases ownerAfter_cases p (t, .code) o with howner | howner | howner
      · rw [howner]
        exact h u hu
      · rw [howner]
        intro heq
        cases heq
      · rw [howner]
        intro heq
        cases heq
        exact hne rfl
  | handler t r o rest new hhandler hfree ho =>
      have hold : p.owner ≠ some (u, .code) := by
        by_cases heq : u = t
        · apply h u
          rw [heq, hhandler]
          exact Option.some_ne_none _
        · apply h u
          exact (Function.update_of_ne heq ..).symm.trans_ne hu
      rcases ownerAfter_cases p (t, .handler) o with howner | howner | howner
      · rw [howner]
        exact hold
      · rw [howner]
        intro heq
        cases heq
      · rw [howner]
        intro heq
        cases heq
  | deliver t harmed hhandler =>
      by_cases heq : u = t
      · rw [heq]
        exact hdeliver t rfl
      · apply h u
        exact (Function.update_of_ne heq ..).symm.trans_ne hu

/-! ## Runs -/

section Runs

variable {ID : UInt8} (run : Run (process (ι := ι) N ID))

theorem run_step {i : Nat} (hi : i < run.length) :
    Step N (run.state i) (run.label i hi) (run.state (i + 1)) := by
  obtain ⟨q, hq, heq⟩ := Option.map_eq_some_iff.mp (run.next i hi)
  have hstate : q = run.state (i + 1) := congrArg Prod.fst heq
  rw [← hstate]
  exact step_cases hq

theorem run_unobstructed
    (hdeliver : ∀ i t, run.labels[i]? = some (.deliver t) →
      (run.state i).owner ≠ some (t, .code)) :
    ∀ i, i ≤ run.length → Unobstructed (run.state i) := by
  apply run.induction (P := fun i => Unobstructed (run.state i))
  · rw [Run.state_zero]
    intro t ht
    exact absurd rfl ht
  · intro i hi _ ih
    apply ih.step (run_step run hi)
    intro t ht
    apply hdeliver i t
    rw [← ht]
    exact List.getElem?_eq_getElem hi

/-- No `send_heartbeat` ever waits for the code it has interrupted if and only
if `SIGALRM` is never delivered to a thread whose code holds the mutex. -/
theorem heartbeat_not_blocked :
    (∀ i ≤ run.length, ∀ t, ¬ (run.state i).Blocked t) ↔
      ∀ i t, run.labels[i]? = some (.deliver t) →
        (run.state i).owner ≠ some (t, .code) := by
  constructor
  · intro h i t hlabel howner
    obtain ⟨hi, hget⟩ := List.getElem?_eq_some_iff.mp hlabel
    have hstep := run_step run hi
    rw [show run.label i hi = .deliver t from hget] at hstep
    apply h (i + 1) hi t
    generalize run.state (i + 1) = q at hstep
    cases hstep with
    | deliver t harmed hhandler =>
        constructor
        · exact ⟨_, Function.update_self ..⟩
        · exact howner
  · intro h i hi t
    exact (run_unobstructed run h i hi).not_blocked t

end Runs

/-! ## A run that freezes -/

/-- A grant of replica 1 for replica 2 in term 1. -/
def grantForTwo : List (Sample Unit RequestVoteReply) :=
  [{ validData := true
     publicationHandle := ()
     data :=
      { senderID := 1
        term := 1
        candidateID := 2
        voteGranted := 1 } }]

/-- Replica 2 wins term 1, and the first signal is delivered to the thread that
has just armed the timer and still holds the mutex. -/
def frozenWinner : Run (process (ι := Unit) 3 2) where
  labels := .run .electionTimer .timeout ::
    List.replicate 11 (.run .electionTimer .done) ++
    [.run .requestVote (.triggered [.requestVoteReply]),
      .run .requestVote .done,
      .run .requestVote (.requestVoteReply grantForTwo)] ++
    List.replicate 12 (.run .requestVote .done) ++ [.deliver .requestVote]
  executes := by decide +kernel

theorem frozenWinner_blocked :
    ¬ ∀ i ≤ frozenWinner.length, ∀ t, ¬ (frozenWinner.state i).Blocked t := by
  intro h
  apply h 28 (by decide) .requestVote
  constructor
  · exact ⟨_, rfl⟩
  · rfl

end RevPiRaft.Ports.Signals
