import RevPiRaft.Ports.Environment
import RevPiRaft.Ports.AppendReplies
import RevPiRaft.Ports.VoteReplies

/-!
# Catching up with newer terms

The loops over `RequestVote` and `AppendEntries` samples leave the replica in a
term no older than any valid sample of their batch, as a follower if that term
is newer.  `handle_vote_reply_message` compares terms only while the replica is
a candidate, with `election_term`, and stops at the first reply that ends the
candidacy; `handle_appendEntries_reply_message` compares no terms.
-/

namespace RevPiRaft.Ports.CatchUp

open RevPiRaft.Ports.Datamodel
open RevPiRaft.Ports.ReplicaCore
open RevPiRaft.Ports.LeaderElection
open RevPiRaft.Ports.Process
open RevPiRaft.Ports.Reactions
open RevPiRaft.Ports.Pending
open RevPiRaft.Ports.Cluster
open RevPiRaft.Ports.History
open RevPiRaft.Ports.Loops
open RevPiRaft.Ports.AppendReplies
open RevPiRaft.Ports.VotingState
open RevPiRaft.Ports.VoteReplies
open RevPiRaft.Ports.Environment

section Batch

variable {ι : Type} {N : Nat}

/-- The sample has data and a term above the current one. -/
def Newer (s : Replica) (t : Topic) (x : Sample ι t.Msg) : Prop :=
  x.validData = true ∧ s.currentTerm < t.term x.data

instance (s : Replica) (t : Topic) (x : Sample ι t.Msg) :
    Decidable (Newer s t x) := by
  unfold Newer
  infer_instance

/-! ## Loops that always compare terms -/

/-- The term does not decrease, and only a follower enters a newer one. -/
structure Advance (s s' : Replica) : Prop where
  term : s.currentTerm ≤ s'.currentTerm
  newer : s.currentTerm < s'.currentTerm → s'.role = .follower
  follower : s.role = .follower → s'.role = .follower

theorem Advance.refl (s : Replica) : Advance s s where
  term := UInt32.le_refl _
  newer := fun h => absurd h (UInt32.lt_irrefl _)
  follower := id

theorem Advance.trans {s t u : Replica} (hst : Advance s t)
    (htu : Advance t u) : Advance s u where
  term := UInt32.le_trans hst.term htu.term
  newer := by
    intro h
    rcases UInt32.lt_or_eq_of_le htu.term with hlt | heq
    · exact htu.newer hlt
    · exact htu.follower (hst.newer (heq ▸ h))
  follower := fun h => htu.follower (hst.follower h)

theorem Advance.becomeFollower {s : Replica} {t : UInt32}
    (h : s.currentTerm ≤ t) : Advance s (s.becomeFollower t) where
  term := h
  newer := fun _ => rfl
  follower := fun _ => rfl

/-- A loop whose iterations advance to the term of their sample. -/
theorem foldl_advance {μ : Type} (term : μ → UInt32)
    (iteration : Replica → Sample ι μ → Replica)
    (hiteration : ∀ s x, Advance s (iteration s x) ∧
      (x.validData = true → term x.data ≤ (iteration s x).currentTerm))
    (s : Replica) (batch : List (Sample ι μ)) :
    Advance s (batch.foldl iteration s) ∧
      ∀ x ∈ batch, x.validData = true →
        term x.data ≤ (batch.foldl iteration s).currentTerm := by
  induction batch generalizing s with
  | nil => exact ⟨.refl s, fun x hx => by cases hx⟩
  | cons y batch ih =>
      obtain ⟨hfirst, hterm⟩ := hiteration s y
      obtain ⟨hrest, hterms⟩ := ih (iteration s y)
      refine ⟨hfirst.trans hrest, fun x hx hvalid => ?_⟩
      rcases List.mem_cons.mp hx with rfl | hx
      · exact UInt32.le_trans (hterm hvalid) hrest.term
      · exact hterms x hx hvalid

/-- One iteration of either `AppendEntries` loop. -/
def afterAppendEntries (s : Replica) (x : Sample ι AppendEntries) : Replica :=
  (s.appendEntriesIteration x).1

theorem afterAppendEntries_advance (s : Replica)
    (x : Sample ι AppendEntries) :
    Advance s (afterAppendEntries s x) ∧
      (x.validData = true →
        x.data.term.toUInt32 ≤ (afterAppendEntries s x).currentTerm) := by
  unfold afterAppendEntries
  cases hx : x.validData with
  | false => simp [Replica.appendEntriesIteration, hx, Advance.refl]
  | true =>
      rcases compareTerms s.currentTerm x.data.term.toUInt32 with
        hterm | hterm | hterm
      · rw [appendEntriesIteration_newer hx hterm]
        exact ⟨.becomeFollower (UInt32.le_of_lt hterm),
          fun _ => UInt32.le_refl _⟩
      · by_cases hrole : s.role = .follower
        · rw [appendEntriesIteration_current hx hterm hrole, hterm]
          exact ⟨.refl s, fun _ => UInt32.le_refl _⟩
        · rw [appendEntriesIteration_stepDown hx hterm hrole, hterm]
          exact ⟨.becomeFollower (UInt32.le_refl _), fun _ => UInt32.le_refl _⟩
      · rw [appendEntriesIteration_stale hx hterm]
        exact ⟨.refl s, fun _ => UInt32.le_of_lt hterm⟩

theorem afterRequest_advance (s : Replica) (x : Sample ι RequestVote) :
    Advance s (afterRequest s x) ∧
      (x.validData = true →
        x.data.term.toUInt32 ≤ (afterRequest s x).currentTerm) := by
  obtain ⟨hterm, hrole⟩ := role_voteIteration s false x
  refine ⟨⟨hterm, fun h => hrole.trans (if_pos h), fun h => ?_⟩, fun hx => ?_⟩
  · exact hrole.trans (by rw [h, ite_self])
  · rcases compareTerms s.currentTerm x.data.term.toUInt32 with
      hnewer | hsame | hold
    · exact UInt32.le_of_eq (afterRequest_grant hx (.inl hnewer)).1.symm
    · rw [hsame]
      exact hterm
    · exact UInt32.le_trans (UInt32.le_of_lt hold) hterm

theorem runElectionTimerBatch_foldl (s : Replica)
    (batch : List (Sample ι AppendEntries)) :
    (s.runElectionTimerBatch batch).1 = batch.foldl afterAppendEntries s := by
  induction batch generalizing s with
  | nil => rfl
  | cons x batch ih => exact ih (afterAppendEntries s x)

/-- The two `AppendEntries` loops do the same to the replica. -/
theorem electionBatch_foldl (s : Replica) (f : Bool)
    (batch : List (Sample ι AppendEntries)) :
    (electionBatch s f batch).1 = batch.foldl afterAppendEntries s := by
  rw [electionBatch_replica, runElectionTimerBatch_foldl]

/-- A newer sample ends the election. -/
theorem electionBatch_newer {s : Replica} (f : Bool)
    {batch : List (Sample ι AppendEntries)} {x : Sample ι AppendEntries}
    (hx : x ∈ batch) (hnewer : Newer s .appendEntries x) :
    (electionBatch s f batch).2 = true := by
  obtain ⟨hvalid, hterm⟩ := hnewer
  have hmem := mem_receivedTerms hx hvalid
  rw [electionBatch_finished_iff, runElectionTimerBatch_eq, exists_succeeds]
  exact .inr ⟨_, hmem, UInt32.le_of_lt hterm⟩

/-- A loop that advances past a newer sample ends as a follower. -/
theorem follower_of_advance {μ : Type} {term : μ → UInt32}
    {iteration : Replica → Sample ι μ → Replica} {s : Replica}
    {batch : List (Sample ι μ)} {x : Sample ι μ}
    (hiteration : ∀ s x, Advance s (iteration s x) ∧
      (x.validData = true → term x.data ≤ (iteration s x).currentTerm))
    (hx : x ∈ batch) (hvalid : x.validData = true)
    (hterm : s.currentTerm < term x.data) :
    term x.data ≤ (batch.foldl iteration s).currentTerm ∧
      (batch.foldl iteration s).role = .follower := by
  obtain ⟨hadvance, hterms⟩ := foldl_advance term iteration hiteration s batch
  have hle := hterms x hx hvalid
  exact ⟨hle, hadvance.newer (UInt32.lt_of_lt_of_le hterm hle)⟩

/-- Consuming requests or heartbeats catches up with every sample. -/
theorem consume_newer (s : Replica) (loop : Loop)
    (hloop : loop.topic = .requestVote ∨ loop.topic = .appendEntries)
    {batch : List (Sample ι loop.topic.Msg)} {x : Sample ι loop.topic.Msg}
    (hx : x ∈ batch) (hnewer : Newer s loop.topic x) :
    ∃ s', consume N s loop batch = some (s', false) ∧
      loop.topic.term x.data ≤ s'.currentTerm ∧ s'.role = .follower := by
  cases loop with
  | runElectionTimer =>
      refine ⟨_, rfl, ?_⟩
      rw [runElectionTimerBatch_foldl]
      exact follower_of_advance afterAppendEntries_advance hx hnewer.1 hnewer.2
  | runLeaderElection =>
      refine ⟨(electionBatch s false batch).1, ?_, ?_⟩
      · simp [consume, electionBatch_newer false hx hnewer]
      · rw [electionBatch_foldl]
        exact follower_of_advance afterAppendEntries_advance hx hnewer.1
          hnewer.2
  | handleVoteMessage =>
      refine ⟨_, rfl, ?_⟩
      rw [handleVoteMessage_foldl]
      exact follower_of_advance afterRequest_advance hx hnewer.1 hnewer.2
  | handleVoteReplyMessage | handleAppendEntriesReplyMessage =>
      simp [Loop.topic] at hloop

/-! ## Vote replies -/

/-- The reply has data and a term above `t`. -/
def Above (t : UInt32) (x : Sample ι RequestVoteReply) : Prop :=
  x.validData = true ∧ t < x.data.term.toUInt32

instance (t : UInt32) (x : Sample ι RequestVoteReply) :
    Decidable (Above t x) := by
  unfold Above
  infer_instance

/-- To a candidate a reply of no newer candidacy is a vote or nothing. -/
theorem voteReplyIteration_current {s : Replica} {t : UInt32}
    (hrole : s.role = .candidate) (helection : s.electionTerm = some t)
    {y : Sample ι RequestVoteReply} (hy : ¬ Above t y) :
    voteReplyIteration N s y = some
      (if y.validData = true ∧ countsVote s t y.data then countVote N s
      else (s, false)) := by
  by_cases hvalid : y.validData = true
  · have hterm : ¬ t < y.data.term.toUInt32 := fun h => hy ⟨hvalid, h⟩
    simp [voteReplyIteration, hvalid, hrole, helection, hterm]
  · simp [voteReplyIteration, hvalid]

/-- A candidate becomes a follower of the first term of its batch above
`election_term`, unless the votes before it have won the election. -/
theorem handleVoteReplyMessage_above {s : Replica} {t : UInt32}
    (hrole : s.role = .candidate) (helection : s.electionTerm = some t)
    {before : List (Sample ι RequestVoteReply)}
    {x : Sample ι RequestVoteReply} (after : List (Sample ι RequestVoteReply))
    (hbefore : ∀ y ∈ before, ¬ Above t y) (hx : Above t x) :
    ∃ s', handleVoteReplyMessage N s (before ++ x :: after) = some s' ∧
      ((s'.currentTerm = x.data.term.toUInt32 ∧ s'.role = .follower) ∨
        (handleVoteReplyMessage N s before = some s' ∧ s'.role = .leader ∧
          s'.currentTerm = s.currentTerm)) := by
  induction before generalizing s with
  | nil =>
      refine ⟨s.becomeFollower x.data.term.toUInt32, ?_, .inl ⟨rfl, rfl⟩⟩
      have hterm : t < x.data.term.toUInt32 := hx.2
      simp [handleVoteReplyMessage, voteReplyIteration, hx.1, hrole,
        helection, hterm]
  | cons y before ih =>
      obtain ⟨hy, hrest⟩ := List.forall_mem_cons.mp hbefore
      rw [List.cons_append, handleVoteReplyMessage, handleVoteReplyMessage,
        voteReplyIteration_current hrole helection hy]
      by_cases hcount : y.validData = true ∧ countsVote s t y.data
      · rw [if_pos hcount, countVote]
        by_cases hmost : (s.votesReceived + 1).toNat * 2 > N
        · refine ⟨_, by rw [if_pos hmost]; rfl, .inr ?_⟩
          rw [if_pos hmost]
          exact ⟨rfl, by simp, by simp⟩
        · rw [if_neg hmost]
          exact ih (s := { s with votesReceived := s.votesReceived + 1 })
            hrole helection hrest
      · rw [if_neg hcount]
        exact ih hrole helection hrest

end Batch

/-! ## Reachable replicas -/

variable {ι : Type}

/-- Every message kind makes a replica catch up: in every reachable state and
for every loop, a newer sample of the batch leaves the replica in a term no
older than its own, and not as the leader or candidate of its old term. -/
def TermsCaughtUp (ι : Type) (N : Nat) (ID : UInt8) : Prop :=
  ∀ n : Node ι, (openProcess N ID).Reachable n →
    ∀ (loop : Loop) (batch : List (Sample ι loop.topic.Msg)), ∀ x ∈ batch,
      Newer n.replica loop.topic x →
      ∃ s' round, consume N n.replica loop batch = some (s', round) ∧
        loop.topic.term x.data ≤ s'.currentTerm ∧
        ¬ (s'.role ≠ .follower ∧ s'.currentTerm = n.replica.currentTerm)

/-- Whatever state a loop begins in, requests and heartbeats make the replica
catch up.  Vote replies make a candidate a follower of the first term of its
batch above `election_term`, unless it has won before; any other replica
ignores them. -/
theorem terms_caughtUp (N : Nat) (s : Replica) :
    (∀ loop : Loop, loop.topic = .requestVote ∨ loop.topic = .appendEntries →
      ∀ (batch : List (Sample ι loop.topic.Msg)), ∀ x ∈ batch,
        Newer s loop.topic x →
        ∃ s', consume N s loop batch = some (s', false) ∧
          loop.topic.term x.data ≤ s'.currentTerm ∧ s'.role = .follower) ∧
    (s.role = .candidate → ∀ t, s.electionTerm = some t →
      ∀ (before : List (Sample ι RequestVoteReply)) x after,
        (∀ y ∈ before, ¬ Above t y) → Above t x →
        ∃ s', consume N s .handleVoteReplyMessage (before ++ x :: after) =
            some (s', false) ∧
          ((s'.currentTerm = x.data.term.toUInt32 ∧ s'.role = .follower) ∨
            (consume N s .handleVoteReplyMessage before = some (s', false) ∧
              s'.role = .leader ∧ s'.currentTerm = s.currentTerm))) ∧
    (s.role ≠ .candidate →
      ∀ batch : List (Sample ι RequestVoteReply),
        consume N s .handleVoteReplyMessage batch = some (s, false)) := by
  refine ⟨fun loop hloop batch x hx => consume_newer s loop hloop hx,
    fun hrole t helection before x after hbefore habove => ?_,
    fun hrole batch => ?_⟩
  · obtain ⟨s', hall, hend⟩ := handleVoteReplyMessage_above (N := N) hrole
      helection after hbefore habove
    refine ⟨s', by rw [consume, hall]; rfl, hend.imp_right ?_⟩
    rintro ⟨hwon, hleader, hterm⟩
    exact ⟨by rw [consume, hwon]; rfl, hleader, hterm⟩
  · rw [consume, handleVoteReplyMessage_idle hrole]
    rfl

/-- Replica 0 has voted for replica 2 in term 1, and its reply reaches replica
1, a follower of term 0. -/
def lateReply : Execution threeReplicas where
  labels := electReplica2 ++ [(1, .deliver .requestVoteReply 0),
    (1, .voteWake [.requestVoteReply]), (1, .voteEnter), (1, .replyStep)]
  executes := by decide +kernel

/-- A refusal of the term. -/
def refusal (term : Int32) : Sample (Fin 3) RequestVoteReply where
  validData := true
  publicationHandle := 0
  data :=
    { senderID := 0
      term := term
      candidateID := 1
      voteGranted := 0 }

/-- A candidate of term 1 in the middle of its next set-up, which has counted
its term up but has not set `election_term` yet, becomes a follower of term 2
and does not see term 3. -/
theorem terms_caughtUp_setUp :
    ∃ s', consume 3
        { (startElection (Replica.initializeReplica 1)).1 with
          currentTerm := 2 } .handleVoteReplyMessage
        [refusal 2, refusal 3] = some (s', false) ∧
      s'.currentTerm = 2 ∧ s'.role = .follower := by
  obtain ⟨-, hcandidate, -⟩ := terms_caughtUp (ι := Fin 3) 3
    { (startElection (Replica.initializeReplica 1)).1 with currentTerm := 2 }
  obtain ⟨s', hconsume, hend⟩ := hcandidate rfl 1 rfl [] (refusal 2)
    [refusal 3] (fun y hy => by cases hy) (by decide +kernel)
  refine ⟨s', hconsume, ?_⟩
  rcases hend with hfollower | ⟨hwon, hleader, -⟩
  · exact hfollower
  · cases hwon
    cases hleader

/-- Replica 1 ignores the reply and stays in term 0. -/
theorem lateReply_not_caughtUp : ¬ TermsCaughtUp (Fin 3) 3 1 := by
  intro h
  have hreach := node_reachable lateReply 1 (i := 12) (by decide +kernel)
  obtain ⟨s', round, hconsume, hterm, -⟩ := h _ hreach .handleVoteReplyMessage
    (threadReplies (lateReply.node 12 1).voteThread)
    ((threadReplies (lateReply.node 12 1).voteThread).head
      (by decide +kernel))
    (List.head_mem _) (by decide +kernel)
  have hidle := handleVoteReplyMessage_idle (N := 3)
    (s := lateReply.replica 12 1) (by decide +kernel)
    (threadReplies (lateReply.node 12 1).voteThread)
  have hsame : lateReply.replica 12 1 = s' := by
    have hmap := congrArg (Option.map fun s => (s, false)) hidle
    exact congrArg Prod.fst (Option.some.inj (hmap.symm.trans hconsume))
  subst hsame
  revert hterm
  decide +kernel

end RevPiRaft.Ports.CatchUp
