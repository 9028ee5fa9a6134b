import Mathlib.Data.List.TakeWhile
import RevPiRaft.Verified.Tally
import RevPiRaft.Ports.CatchUp

/-!
# Which reply decides an election

`handle_vote_reply_message` leaves its loop at the reply that wins the election
or ends the candidacy and drops the rest of the batch.  Seen by a candidate,
one sample is one reply of `RevPiRaft.Verified.Tally`, and the loop is the
count of these replies (`handleVoteReplyMessage_tally`).  What it drops would
have had no effect, so the batching does not matter.
-/

namespace RevPiRaft.Ports.VoteDecision

open RevPiRaft.Verified.Tally
open RevPiRaft.Ports.Datamodel
open RevPiRaft.Ports.ReplicaCore
open RevPiRaft.Ports.LeaderElection
open RevPiRaft.Ports.CatchUp

variable {ι : Type} {N : Nat}

/-! ## Samples as replies -/

/-- The sample ends a candidacy in term `e`. -/
def Superseding (e : UInt32) (x : Sample ι RequestVoteReply) : Prop :=
  x.validData = true ∧ e < x.data.term.toUInt32

instance (e : UInt32) (x : Sample ι RequestVoteReply) :
    Decidable (Superseding e x) :=
  inferInstanceAs (Decidable (_ ∧ _))

/-- The sample is granted, of term `e` and names the replica. -/
def Counting (s : Replica) (e : UInt32) (x : Sample ι RequestVoteReply) :
    Prop :=
  x.validData = true ∧ countsVote s e x.data

instance (s : Replica) (e : UInt32) (x : Sample ι RequestVoteReply) :
    Decidable (Counting s e x) :=
  inferInstanceAs (Decidable (_ ∧ _))

/-- What a sample is to a candidate of term `e`. -/
def replyOf (s : Replica) (e : UInt32) (x : Sample ι RequestVoteReply) :
    Reply UInt32 :=
  if Superseding e x then .newer x.data.term.toUInt32
  else if Counting s e x then .vote
  else .other

/-- A vote is of the own term, so it is no newer one. -/
theorem Counting.not_superseding {s : Replica} {e : UInt32}
    {x : Sample ι RequestVoteReply} (h : Counting s e x) :
    ¬ Superseding e x := by
  intro hnewer
  have hsame : x.data.term.toUInt32 = e := h.2.2.1
  have hlt := hnewer.2
  rw [hsame] at hlt
  exact UInt32.lt_irrefl _ hlt

theorem isVote_replyOf (s : Replica) (e : UInt32)
    (x : Sample ι RequestVoteReply) :
    (replyOf s e x).isVote = decide (Counting s e x) := by
  unfold replyOf
  by_cases hcount : Counting s e x
  · simp [hcount, hcount.not_superseding, Reply.isVote]
  · by_cases hnewer : Superseding e x <;> simp [hcount, hnewer, Reply.isVote]

theorem newerTerm_replyOf (s : Replica) (e : UInt32)
    (x : Sample ι RequestVoteReply) :
    (replyOf s e x).newerTerm =
      if Superseding e x then some x.data.term.toUInt32 else none := by
  unfold replyOf
  by_cases hnewer : Superseding e x
  · rw [if_pos hnewer, if_pos hnewer]
    rfl
  · rw [if_neg hnewer, if_neg hnewer]
    split <;> rfl

/-! ## The loop as a count -/

/-- The replica at the end of a count. -/
def conclude (s : Replica) : Outcome UInt32 → Replica
  | .undecided votes => { s with votesReceived := UInt8.ofNat votes }
  | .won votes =>
      Replica.becomeLeader { s with votesReceived := UInt8.ofNat votes }
  | .superseded votes term =>
      Replica.becomeFollower { s with votesReceived := UInt8.ofNat votes } term

/-- Below 510 replicas (`replica.h` says 3) the counter reaches a majority
before it overflows. -/
theorem votes_succ (hN : N < 510) {s : Replica}
    (hfew : 2 * s.votesReceived.toNat ≤ N) :
    (s.votesReceived + 1).toNat = s.votesReceived.toNat + 1 := by
  have hadd := UInt8.toNat_add s.votesReceived 1
  have hone : (1 : UInt8).toNat = 1 := rfl
  omega

/-- What a candidate does with a sample depends on the reply that it is. -/
theorem voteReplyIteration_candidate {s : Replica} {e : UInt32}
    (hrole : s.role = .candidate) (helection : s.electionTerm = some e)
    (x : Sample ι RequestVoteReply) :
    voteReplyIteration N s x = some
      (match replyOf s e x with
        | .vote => countVote N s
        | .newer term => (s.becomeFollower term, true)
        | .other => (s, false)) := by
  unfold replyOf
  by_cases hnewer : Superseding e x
  · simp [voteReplyIteration, hnewer, hnewer.1, hnewer.2, hrole, helection]
  rw [if_neg hnewer]
  by_cases hvalid : x.validData = true
  · have hterm : ¬ e < x.data.term.toUInt32 := fun h => hnewer ⟨hvalid, h⟩
    by_cases hcount : countsVote s e x.data <;>
      simp [voteReplyIteration, Counting, hvalid, hrole, helection, hterm,
        hcount]
  · simp [voteReplyIteration, Counting, hvalid]

/-- The loop counts the replies up to the one that decides. -/
theorem handleVoteReplyMessage_tally (hN : N < 510) {s : Replica} {e : UInt32}
    (hrole : s.role = .candidate) (helection : s.electionTerm = some e)
    (hfew : 2 * s.votesReceived.toNat ≤ N)
    (batch : List (Sample ι RequestVoteReply)) :
    handleVoteReplyMessage N s batch =
      some (conclude s (tally (N / 2) s.votesReceived.toNat
        (batch.map (replyOf s e)))) := by
  induction batch generalizing s with
  | nil => simp [handleVoteReplyMessage, tally, conclude]
  | cons x batch ih =>
      rw [handleVoteReplyMessage, List.map_cons,
        voteReplyIteration_candidate hrole helection]
      cases replyOf s e x with
      | vote =>
          have hsucc := votes_succ hN hfew
          rw [tally, ← hsucc, countVote]
          by_cases hmost : (s.votesReceived + 1).toNat * 2 > N
          · rw [if_pos hmost, if_pos (by omega), conclude, UInt8.ofNat_toNat]
            rfl
          · have hless : 2 * (s.votesReceived + 1).toNat ≤ N := by omega
            rw [if_neg hmost, if_neg (by omega)]
            exact ih (s := { s with votesReceived := s.votesReceived + 1 })
              hrole helection hless
      | newer term => simp [tally, conclude]
      | other => exact ih hrole helection hfew

/-! ## The decision -/

/-- The samples of a batch before the first superseding one. -/
def beforeSuperseding (e : UInt32) (batch : List (Sample ι RequestVoteReply)) :
    List (Sample ι RequestVoteReply) :=
  batch.takeWhile fun x => ¬ Superseding e x

theorem countP_isVote (s : Replica) (e : UInt32)
    (batch : List (Sample ι RequestVoteReply)) :
    (batch.map (replyOf s e)).countP Reply.isVote =
      batch.countP fun x => Counting s e x := by
  rw [List.countP_map]
  exact List.countP_congr fun x _ => by simp [isVote_replyOf]

theorem current_replyOf (s : Replica) (e : UInt32)
    (batch : List (Sample ι RequestVoteReply)) :
    current (batch.map (replyOf s e)) =
      (beforeSuperseding e batch).map (replyOf s e) := by
  rw [current, beforeSuperseding, List.takeWhile_map]
  congr 2
  funext x
  by_cases hnewer : Superseding e x <;> simp [newerTerm_replyOf, hnewer]

theorem findSome_newerTerm (s : Replica) (e : UInt32)
    (batch : List (Sample ι RequestVoteReply)) :
    (batch.map (replyOf s e)).findSome? Reply.newerTerm =
      (batch.find? fun x => Superseding e x).map fun x =>
        x.data.term.toUInt32 := by
  induction batch with
  | nil => rfl
  | cons x batch ih =>
      rw [List.map_cons, List.findSome?_cons, newerTerm_replyOf]
      by_cases hnewer : Superseding e x
      · simp [hnewer]
      · simp [hnewer, ih]

/-- The running total of the candidate `s` at the first superseding sample of
the batch, or at the end of the batch if it has none. -/
def total (s : Replica) (batch : List (Sample ι RequestVoteReply)) : Nat :=
  s.votesReceived.toNat +
    (beforeSuperseding s.currentTerm batch).countP fun x =>
      Counting s s.currentTerm x

/-- A batch turns the candidate `s` into `s'`: a majority before any superseding
sample wins, else the first superseding sample ends the candidacy, else the
votes are counted. -/
structure Decided (N : Nat) (s : Replica)
    (batch : List (Sample ι RequestVoteReply)) (s' : Replica) : Prop where
  won : N < 2 * total s batch →
    s'.role = .leader ∧ s'.currentTerm = s.currentTerm
  superseded : 2 * total s batch ≤ N → ∀ x,
    (batch.find? fun x => Superseding s.currentTerm x) = some x →
    s'.role = .follower ∧ s'.currentTerm = x.data.term.toUInt32 ∧
      s'.votedFor = votedNone
  undecided : 2 * total s batch ≤ N →
    (batch.find? fun x => Superseding s.currentTerm x) = none →
    s'.role = .candidate ∧
      s'.votesReceived.toNat = s.votesReceived.toNat +
        batch.countP fun x => Counting s s.currentTerm x

/-- The loop decides by the first decisive sample. -/
theorem handleVoteReplyMessage_decided (hN : N < 510) {s : Replica}
    (hrole : s.role = .candidate)
    (helection : s.electionTerm = some s.currentTerm)
    (hfew : 2 * s.votesReceived.toNat ≤ N)
    (batch : List (Sample ι RequestVoteReply)) :
    ∃ s', handleVoteReplyMessage N s batch = some s' ∧
      Decided N s batch s' := by
  have hquota : s.votesReceived.toNat ≤ N / 2 := by omega
  refine ⟨_, handleVoteReplyMessage_tally hN hrole helection hfew batch, ?_⟩
  rw [tally_eq hquota, current_replyOf, countP_isVote, countP_isVote,
    findSome_newerTerm, ← total]
  constructor
  · intro hmost
    rw [if_pos (by omega)]
    simp [conclude]
  · intro hless x hx
    rw [if_neg (by omega), hx]
    simp [conclude]
  · intro hless hnone
    have hall : beforeSuperseding s.currentTerm batch = batch := by
      rw [beforeSuperseding, List.takeWhile_eq_self_iff]
      simpa using hnone
    have htotal : total s batch = s.votesReceived.toNat +
        batch.countP fun x => Counting s s.currentTerm x := by
      rw [total, hall]
    rw [if_neg (by omega), hnone]
    refine ⟨hrole, UInt8.toNat_ofNat_of_lt' ?_⟩
    have hsize : UInt8.size = 256 := rfl
    omega

/-! ## Several batches -/

/-- The loop breaks only when the replica is no candidate any more. -/
theorem voteReplyIteration_break {s s' : Replica}
    {x : Sample ι RequestVoteReply}
    (h : voteReplyIteration N s x = some (s', true)) :
    s'.role ≠ .candidate := by
  unfold voteReplyIteration at h
  split at h
  case isFalse => simp at h
  case isTrue hvalid =>
    split at h
    case isTrue hrole =>
      cases h
      exact hrole
    case isFalse hrole =>
      obtain ⟨e, -, heq⟩ := Option.map_eq_some_iff.mp h
      unfold countVote at heq
      have hleader := Replica.becomeLeader_frame
        { s with votesReceived := s.votesReceived + 1 }
      have hfollower := s.becomeFollower_fields x.data.term.toUInt32
      grind

/-- The rest of a batch that the loop drops would have no effect. -/
theorem handleVoteReplyMessage_append (s : Replica)
    (xs ys : List (Sample ι RequestVoteReply)) :
    handleVoteReplyMessage N s (xs ++ ys) =
      (handleVoteReplyMessage N s xs).bind fun s =>
        handleVoteReplyMessage N s ys := by
  induction xs generalizing s with
  | nil => rfl
  | cons x xs ih =>
      rw [List.cons_append, handleVoteReplyMessage, handleVoteReplyMessage]
      cases hstep : voteReplyIteration N s x with
      | none => rfl
      | some r =>
          obtain ⟨s', broken⟩ := r
          cases broken with
          | true =>
              have hrole : s'.role ≠ .candidate :=
                voteReplyIteration_break hstep
              exact (handleVoteReplyMessage_idle hrole ys).symm
          | false => exact ih s'

/-- Any number of calls act like one call on all their batches. -/
theorem handleVoteReplyMessage_flatten (s : Replica)
    (batches : List (List (Sample ι RequestVoteReply))) :
    handleVoteReplyMessage N s batches.flatten =
      batches.foldlM (handleVoteReplyMessage N) s := by
  induction batches generalizing s with
  | nil => rfl
  | cons batch batches ih =>
      rw [List.flatten_cons, handleVoteReplyMessage_append, List.foldlM_cons]
      exact congrArg (Option.bind _) (funext ih)

/-- A candidate of its current term without a majority decides by the first
decisive sample of its batch, any other replica ignores the batch, and the
batching does not matter. -/
theorem vote_decision (hN : N < 510) (s : Replica) :
    (s.role = .candidate → s.electionTerm = some s.currentTerm →
      2 * s.votesReceived.toNat ≤ N →
      ∀ batch : List (Sample ι RequestVoteReply),
        ∃ s', handleVoteReplyMessage N s batch = some s' ∧
          Decided N s batch s') ∧
    (s.role ≠ .candidate → ∀ batch : List (Sample ι RequestVoteReply),
      handleVoteReplyMessage N s batch = some s) ∧
    ∀ batches : List (List (Sample ι RequestVoteReply)),
      handleVoteReplyMessage N s batches.flatten =
        batches.foldlM (handleVoteReplyMessage N) s :=
  ⟨handleVoteReplyMessage_decided hN, handleVoteReplyMessage_idle,
    handleVoteReplyMessage_flatten s⟩

/-- A reply of term `term` that grants candidate 1 its vote or refuses it. -/
def replySample (term : Int32) (voteGranted : Bool) :
    Sample Unit RequestVoteReply where
  validData := true
  publicationHandle := ()
  data :=
    { senderID := 0
      term := term
      candidateID := 1
      voteGranted := longOfBool voteGranted }

/-- Replica 1 is a candidate of term 1.  A refusal and a stale vote decide
nothing, the vote after them wins, and the newer term behind it is dropped. -/
theorem vote_decision_won :
    ∃ s', handleVoteReplyMessage 3
        (startElection (Replica.initializeReplica 1)).1
        [replySample 1 false, replySample 0 true, replySample 1 true,
          replySample 2 false] = some s' ∧
      s'.role = .leader ∧ s'.currentTerm = 1 := by
  obtain ⟨hcandidate, -, -⟩ := vote_decision (ι := Unit) (N := 3) (by decide)
    (startElection (Replica.initializeReplica 1)).1
  obtain ⟨s', hresult, hdecided⟩ := hcandidate rfl rfl (by decide)
    [replySample 1 false, replySample 0 true, replySample 1 true,
      replySample 2 false]
  exact ⟨s', hresult, hdecided.won (by decide)⟩

end RevPiRaft.Ports.VoteDecision
