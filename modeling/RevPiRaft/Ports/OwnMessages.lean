import RevPiRaft.Ports.History

/-!
# Samples of the replica itself

The filter on `senderID` decides only when a wait set wakes.  The reads and
takes that follow carry no condition, so a loop also walks over the samples its
own replica published, whenever they are pending together with one that wakes
it.  `Harmless` says for each loop when that changes nothing.
-/

namespace RevPiRaft.Ports.OwnMessages

open RevPiRaft.Ports.Datamodel
open RevPiRaft.Ports.ReplicaCore
open RevPiRaft.Ports.LeaderElection
open RevPiRaft.Ports.Events
open RevPiRaft.Ports.Reactions
open RevPiRaft.Ports.Pending
open RevPiRaft.Ports.Cluster
open RevPiRaft.Ports.History

section Event

variable {ι : Type}

/-- The event handles a sample with data that `r` has published; that the
handle of a sample names its publisher is `handled_published`. -/
def HandlesFrom (r : ι) : Event ι → Prop
  | .append x => x.validData = true ∧ x.publicationHandle = r
  | .election _ x => x.validData = true ∧ x.publicationHandle = r
  | .vote _ x => x.validData = true ∧ x.publicationHandle = r
  | .reply x => x.validData = true ∧ x.publicationHandle = r
  | _ => False

/-- Conditions under which handling a sample with data has no effect.  The two
loops that answer every sample have none. -/
def Harmless (s : Replica) : Event ι → Prop
  | .append _ => False
  | .election _ x =>
      x.data.term.toUInt32 < s.currentTerm ∨
        (x.data.term.toUInt32 = s.currentTerm ∧ s.role = .follower)
  | .vote _ _ => False
  | .reply x =>
      s.role ≠ .candidate ∨ ∀ t, s.electionTerm = some t →
        x.data.term.toUInt32 ≤ t ∧ ¬ countsVote s t x.data
  | _ => True

/-- Handling a sample with data has no effect exactly when it is harmless. -/
theorem React.noEffect_iff {N : Nat} {s s' : Replica} {e : Event ι}
    {out : List Publication} (h : React N s e s' out) {r : ι}
    (hfrom : HandlesFrom r e) :
    (s' = s ∧ out = []) ↔ Harmless s e := by
  cases h with
  | electionNewer f x hx hterm =>
      refine iff_of_false (fun hsame => ?_) (fun hharmless => ?_)
      · have hcurrent := congrArg Replica.currentTerm hsame.1
        simp at hcurrent
        rw [hcurrent] at hterm
        exact UInt32.lt_irrefl _ hterm
      · rcases hharmless with hlt | ⟨heq, -⟩
        · exact UInt32.lt_irrefl _ (UInt32.lt_trans hterm hlt)
        · rw [heq] at hterm
          exact UInt32.lt_irrefl _ hterm
  | electionStepDown f x hx hterm hrole =>
      refine iff_of_false (fun hsame => ?_) (fun hharmless => ?_)
      · have hfollower := congrArg Replica.role hsame.1
        simp at hfollower
        exact hrole hfollower.symm
      · rcases hharmless with hlt | ⟨-, hfollower⟩
        · rw [hterm] at hlt
          exact UInt32.lt_irrefl _ hlt
        · exact hrole hfollower
  | electionCurrent f x hx hterm hrole =>
      exact iff_of_true ⟨rfl, rfl⟩ (.inr ⟨hterm, hrole⟩)
  | electionStale f x hx hterm => exact iff_of_true ⟨rfl, rfl⟩ (.inl hterm)
  | replyIdle x hx hrole => exact iff_of_true ⟨rfl, rfl⟩ (.inl hrole)
  | replyNewer x t hx hrole helection hterm =>
      refine iff_of_false (fun hsame => ?_) (fun hharmless => ?_)
      · have hfollower := congrArg Replica.role hsame.1
        simp [hrole] at hfollower
      · rcases hharmless with hidle | hall
        · exact hidle hrole
        · have hle := (hall t helection).1
          exact UInt32.lt_irrefl _ (UInt32.lt_of_lt_of_le hterm hle)
  | replyIgnored x t hx hrole helection hterm hcount =>
      refine iff_of_true ⟨rfl, rfl⟩ (.inr fun u hu => ?_)
      rw [helection, Option.some.injEq] at hu
      exact hu ▸ ⟨hterm, hcount⟩
  | replyCounted x t hx hrole helection hcount
  | replyWon x t hx hrole helection hcount =>
      refine iff_of_false (fun hsame => ?_) (fun hharmless => ?_)
      · have hvotes := congrArg Replica.votesReceived hsame.1
        simp at hvotes
      · rcases hharmless with hidle | hall
        · exact hidle hrole
        · exact (hall t helection).2 hcount
  | appendInvalid x hx | electionInvalid f x hx | voteInvalid g x hx
  | replyInvalid x hx => exact absurd (hx.symm.trans hfrom.1) (by decide)
  | quiet | start | build | write | input => exact hfrom.elim
  | _ => exact iff_of_false (fun hsame => by cases hsame.2) id

end Event

variable {ι : Type} [DecidableEq ι] {cfg : Config ι} {run : Execution cfg}

/-- Step `i` changes the replica `r` or publishes something. -/
def Acts (run : Execution cfg) (i : Nat) (r : ι) : Prop :=
  run.replica (i + 1) r ≠ run.replica i r ∨ run.output i ≠ []

instance (i : Nat) (r : ι) : Decidable (Acts run i r) := by
  unfold Acts
  infer_instance

/-- No loop of a replica acts on a sample of the replica itself. -/
def NoOwnActs (run : Execution cfg) : Prop :=
  ∀ i r e, run.Occurs i r e → HandlesFrom r e → ¬ Acts run i r

/-- No replica acts on its own samples exactly when all of its own samples
that reach a loop are harmless there. -/
theorem no_own_acts_iff (run : Execution cfg) :
    NoOwnActs run ↔ ∀ i r e, run.Occurs i r e → HandlesFrom r e →
      Harmless (run.replica i r) e := by
  refine forall₄_congr fun i r e he => forall_congr' fun hfrom => ?_
  rw [← React.noEffect_iff he.react hfrom, Acts, not_or, not_not, not_not]

/-- Replica 1 is a candidate and takes its own request together with the one
of replica 2 that wakes its vote thread. -/
def ownRequest : Execution threeReplicas where
  labels := [(1, .electionTimeout), (2, .electionTimeout)] ++
    arrivals 1 .requestVote 2 ++ handleRequests 1 1
  executes := by decide +kernel

/-- Its vote thread grants the own request and publishes the reply. -/
theorem ownRequest_acts : ¬ NoOwnActs ownRequest := by
  intro h
  let x : Sample (Fin 3) RequestVote :=
    { validData := true
      publicationHandle := 1
      data := { term := 1, senderID := 1 } }
  have hhead : (threadRequests (ownRequest.node 6 1).voteThread).head? =
      some x := by
    decide +kernel
  have hevent : ownRequest.Occurs 6 1 (.vote _ x) :=
    ⟨.voteStep, rfl, event_voteStep hhead⟩
  exact h 6 1 _ hevent ⟨rfl, rfl⟩ (by decide +kernel)

end RevPiRaft.Ports.OwnMessages
