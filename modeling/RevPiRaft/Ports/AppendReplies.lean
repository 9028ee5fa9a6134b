import RevPiRaft.Verified.Maxima
import RevPiRaft.Ports.Loops
import RevPiRaft.Ports.Reactions

/-!
# The answers to `AppendEntries`

The loop of `runElectionTimer` compares every sample with a term that the
samples before it may have raised.  Its replies carry the running maximum of
the terms and report success for each sample that attains it.

`run_leader_election` has a loop of its own over the same topic.  It does the
same to the replica and finishes the election exactly when the other loop would
report a success, but it writes no replies.
-/

namespace RevPiRaft.Ports.AppendReplies

open RevPiRaft.Verified.Runs
open RevPiRaft.Verified.Maxima
open RevPiRaft.Ports.Datamodel
open RevPiRaft.Ports.ReplicaCore
open RevPiRaft.Ports.LeaderElection
open RevPiRaft.Ports.Process
open RevPiRaft.Ports.Reactions
open RevPiRaft.Ports.Loops

variable {ι : Type} {N : Nat}

/-- The terms of the valid samples of a batch. -/
def receivedTerms (batch : List (Sample ι AppendEntries)) : List UInt32 :=
  (batch.filter fun x => x.validData).map fun x => x.data.term.toUInt32

/-- A reply reports success. -/
def Succeeds (m : AppendEntriesReply) : Prop := boolOfLong m.success = true

instance (m : AppendEntriesReply) : Decidable (Succeeds m) :=
  inferInstanceAs (Decidable (_ = _))

instance lawfulOrderMaxUInt32 : Std.LawfulOrderMax UInt32 where
  max_eq_or a b := by
    by_cases h : a ≤ b
    · exact .inr (if_pos h)
    · exact .inl (if_neg h)
  max_le_iff a b c := by
    have hle : max a b = if a ≤ b then b else a := rfl
    rw [hle]
    grind

/-! ## One sample -/

/-- The replica after a valid sample of term `x`. -/
def observe (s : Replica) (x : UInt32) : Replica :=
  if s.currentTerm < x ∨ (x = s.currentTerm ∧ s.role ≠ .follower) then
    s.becomeFollower x
  else s

/-- The reply to a sample of term `x` when the replica has come to term `t`. -/
def replyTo (ID : UInt8) (t x : UInt32) : AppendEntriesReply :=
  { senderID := longOfUInt8 ID
    term := t.toInt32
    success := longOfBool (x = t) }

theorem appendEntriesIteration_valid (s : Replica)
    {x : Sample ι AppendEntries} (hx : x.validData = true) :
    s.appendEntriesIteration x =
      (observe s x.data.term.toUInt32,
        [replyTo s.ID (max s.currentTerm x.data.term.toUInt32)
          x.data.term.toUInt32]) := by
  rcases compareTerms s.currentTerm x.data.term.toUInt32 with
    hterm | hterm | hterm
  · rw [appendEntriesIteration_newer hx hterm,
      max_of_ge (UInt32.le_of_lt hterm), observe, if_pos (.inl hterm)]
    simp [Replica.appendEntriesReplyMessage, replyTo]
  · rw [max_of_le (UInt32.le_of_eq hterm)]
    by_cases hrole : s.role = .follower
    · rw [appendEntriesIteration_current hx hterm hrole, observe, hterm,
        if_neg (by simp [hrole])]
      simp [Replica.appendEntriesReplyMessage, replyTo]
    · rw [appendEntriesIteration_stepDown hx hterm hrole, observe, hterm,
        if_pos (.inr ⟨rfl, hrole⟩)]
      simp [Replica.appendEntriesReplyMessage, replyTo]
  · have hle := UInt32.le_of_lt hterm
    have hne := UInt32.ne_of_lt hterm
    have hsame : ¬ (s.currentTerm < x.data.term.toUInt32 ∨
        (x.data.term.toUInt32 = s.currentTerm ∧ s.role ≠ .follower)) := by
      rintro (hnewer | ⟨heq, -⟩)
      · exact UInt32.not_lt.mpr hle hnewer
      · exact hne heq
    rw [appendEntriesIteration_stale hx hterm, max_of_le hle, observe,
      if_neg hsame]
    simp [Replica.appendEntriesReplyMessage, replyTo, hne]

theorem appendEntriesIteration_invalid (s : Replica)
    {x : Sample ι AppendEntries} (hx : x.validData = false) :
    s.appendEntriesIteration x = (s, []) := by
  simp [Replica.appendEntriesIteration, hx]

/-- A sample raises the term to its own, makes a follower unless it is stale,
and leaves a follower of its term alone. -/
theorem observe_fields (s : Replica) (x : UInt32) :
    (observe s x).ID = s.ID ∧
      (observe s x).currentTerm = max s.currentTerm x ∧
      (observe s x).role =
        (if s.currentTerm ≤ x then .follower else s.role) ∧
      (max s.currentTerm x = s.currentTerm → s.role = .follower →
        observe s x = s) := by
  unfold observe
  rcases compareTerms s.currentTerm x with hterm | rfl | hterm
  · have hle := UInt32.le_of_lt hterm
    have hne := (UInt32.ne_of_lt hterm).symm
    rw [max_of_ge (UInt32.le_of_lt hterm), if_pos (.inl hterm), if_pos hle]
    exact ⟨rfl, rfl, rfl, fun h => absurd h hne⟩
  · rw [max_of_le (UInt32.le_refl _), if_pos (UInt32.le_refl _)]
    by_cases hrole : s.role = .follower <;> simp [hrole]
  · have hlt := UInt32.not_lt.mpr (UInt32.le_of_lt hterm)
    have hle := UInt32.not_le.mpr hterm
    have hne := UInt32.ne_of_lt hterm
    rw [max_of_le (UInt32.le_of_lt hterm)]
    simp [hlt, hle, hne]

/-! ## The loop of `runElectionTimer` -/

/-- The replies to valid samples of the given terms. -/
def replies (ID : UInt8) (t : UInt32) (terms : List UInt32) :
    List AppendEntriesReply :=
  (running t terms).map fun p => replyTo ID p.2 p.1

/-- The `k`-th reply is to the `k`-th valid sample, in the maximum of the terms
up to it. -/
theorem replies_getElem? (ID : UInt8) (t : UInt32) (terms : List UInt32)
    (k : Nat) :
    (replies ID t terms)[k]? =
      terms[k]?.map fun x =>
        replyTo ID (maximum t (terms.take (k + 1))) x := by
  rw [replies, List.getElem?_map, running_getElem?, Option.map_map]
  rfl

theorem replies_length (ID : UInt8) (t : UInt32) (terms : List UInt32) :
    (replies ID t terms).length = terms.length := by
  rw [replies, List.length_map, running_length]

theorem receivedTerms_valid {x : Sample ι AppendEntries}
    (hx : x.validData = true) (batch : List (Sample ι AppendEntries)) :
    receivedTerms (x :: batch) =
      x.data.term.toUInt32 :: receivedTerms batch := by
  simp [receivedTerms, hx]

theorem receivedTerms_invalid {x : Sample ι AppendEntries}
    (hx : x.validData = false) (batch : List (Sample ι AppendEntries)) :
    receivedTerms (x :: batch) = receivedTerms batch := by
  simp [receivedTerms, hx]

theorem mem_receivedTerms {x : Sample ι AppendEntries}
    {batch : List (Sample ι AppendEntries)} (hx : x ∈ batch)
    (hvalid : x.validData = true) :
    x.data.term.toUInt32 ∈ receivedTerms batch :=
  List.mem_map_of_mem (List.mem_filter.mpr ⟨hx, hvalid⟩)

/-- A loop over one batch observes the received terms and replies to each. -/
theorem runElectionTimerBatch_eq (s : Replica)
    (batch : List (Sample ι AppendEntries)) :
    s.runElectionTimerBatch batch =
      ((receivedTerms batch).foldl observe s,
        replies s.ID s.currentTerm (receivedTerms batch)) := by
  induction batch generalizing s with
  | nil => rfl
  | cons x batch ih =>
      rw [Replica.runElectionTimerBatch]
      cases hx : x.validData with
      | false =>
          rw [appendEntriesIteration_invalid s hx, receivedTerms_invalid hx, ih]
          rfl
      | true =>
          obtain ⟨hID, hterm, -, -⟩ := observe_fields s x.data.term.toUInt32
          rw [appendEntriesIteration_valid s hx, receivedTerms_valid hx, ih,
            hID, hterm]
          rfl

theorem replyTo_succeeds (ID : UInt8) (t x : UInt32) :
    Succeeds (replyTo ID t x) ↔ x = t := by
  rw [Succeeds, replyTo, boolOfLong_longOfBool, decide_eq_true_iff]

/-- Some sample is answered with success exactly if one is not stale at the
start. -/
theorem exists_succeeds (ID : UInt8) (t : UInt32) (terms : List UInt32) :
    (∃ m ∈ replies ID t terms, Succeeds m) ↔ ∃ x ∈ terms, t ≤ x := by
  rw [← exists_attained, replies]
  simp [replyTo_succeeds]

/-- Any number of samples do what the latest of them does. -/
theorem foldl_observe (s : Replica) (terms : List UInt32) :
    (terms.foldl observe s).currentTerm = maximum s.currentTerm terms ∧
      (terms.foldl observe s).role =
        (if ∃ x ∈ terms, s.currentTerm ≤ x then .follower else s.role) ∧
      (maximum s.currentTerm terms = s.currentTerm → s.role = .follower →
        terms.foldl observe s = s) := by
  induction terms generalizing s with
  | nil => simp [maximum]
  | cons x terms ih =>
      obtain ⟨-, hterm, hrole, hsame⟩ := observe_fields s x
      obtain ⟨hterms, hroles, hsames⟩ := ih (observe s x)
      rw [List.foldl_cons]
      rw [hterm] at hterms hroles hsames
      refine ⟨hterms, ?_, fun hmax hfollower => ?_⟩
      · rw [hroles, hrole]
        by_cases hle : s.currentTerm ≤ x
        · have hsome : ∃ y ∈ x :: terms, s.currentTerm ≤ y :=
            ⟨x, List.mem_cons_self, hle⟩
          rw [if_pos hle, if_pos hsome, ite_self]
        · have hlt := UInt32.not_le.mp hle
          rw [max_of_le (UInt32.le_of_lt hlt), if_neg hle]
          simp [hle]
      · have hstart := max_of_maximum hmax
        have hstay := hsame hstart hfollower
        rw [hstay, hstart] at hsames
        rw [hstay]
        refine hsames ?_ hfollower
        rw [maximum, List.foldl_cons, hstart] at hmax
        exact hmax

/-- What the loop does with a batch: it ends as `s'` and writes `out`. -/
structure Answered (s : Replica) (batch : List (Sample ι AppendEntries))
    (s' : Replica) (out : List AppendEntriesReply) : Prop where
  each : out.length = (receivedTerms batch).length
  reply : ∀ k x m, (receivedTerms batch)[k]? = some x → out[k]? = some m →
    m.term.toUInt32 =
        maximum s.currentTerm ((receivedTerms batch).take (k + 1)) ∧
      (Succeeds m ↔
        x = maximum s.currentTerm ((receivedTerms batch).take (k + 1)))
  currentTerm : s'.currentTerm = maximum s.currentTerm (receivedTerms batch)
  role : s'.role = if ∃ m ∈ out, Succeeds m then .follower else s.role
  votedFor : maximum s.currentTerm (receivedTerms batch) = s.currentTerm →
    s.role = .follower → s'.votedFor = s.votedFor

/-- Every valid sample of a batch gets one reply, in the order of the samples,
with the maximum of the terms so far; the replica ends in the maximum of all, as
a follower if it has answered with success, and without a newer term a follower
keeps its vote. -/
theorem appendEntries_answered (s : Replica)
    (batch : List (Sample ι AppendEntries)) :
    Answered s batch (s.runElectionTimerBatch batch).1
      (s.runElectionTimerBatch batch).2 := by
  obtain ⟨hterm, hrole, hsame⟩ := foldl_observe s (receivedTerms batch)
  rw [runElectionTimerBatch_eq]
  constructor
  case each => exact replies_length _ _ _
  case reply =>
    intro k x m hx hm
    rw [replies_getElem?, hx, Option.map_some, Option.some.injEq] at hm
    subst hm
    simp [replyTo, Succeeds]
  case currentTerm => exact hterm
  case role =>
    rw [hrole]
    simp only [exists_succeeds]
  case votedFor =>
    intro hmax hfollower
    rw [hsame hmax hfollower]

/-! ## The loop of `run_leader_election` -/

/-- `election_finished` is set by the samples that the other loop answers with
success. -/
theorem electionIteration_finished (s : Replica) (f : Bool)
    (x : Sample ι AppendEntries) :
    (electionIteration s f x).2 = true ↔
      f = true ∨ ∃ m ∈ (s.appendEntriesIteration x).2, Succeeds m := by
  unfold electionIteration
  cases hx : x.validData with
  | false => simp [appendEntriesIteration_invalid s hx]
  | true =>
      rw [appendEntriesIteration_valid s hx, List.exists_mem_cons_iff,
        replyTo_succeeds, eq_max_iff]
      rcases compareTerms s.currentTerm x.data.term.toUInt32 with
        hterm | hterm | hterm
      · simp [hterm, UInt32.le_of_lt hterm]
      · simp [hterm]
      · have hlt := UInt32.not_lt.mpr (UInt32.le_of_lt hterm)
        have hle := UInt32.not_le.mpr hterm
        have hne := UInt32.ne_of_lt hterm
        simp [hlt, hne, hle]

/-- The two loops do the same to the replica. -/
theorem electionBatch_replica (s : Replica) (f : Bool)
    (batch : List (Sample ι AppendEntries)) :
    (electionBatch s f batch).1 = (s.runElectionTimerBatch batch).1 := by
  induction batch generalizing s f with
  | nil => rfl
  | cons x batch ih =>
      rw [electionBatch, ih, electionIteration_replica]
      rfl

theorem electionBatch_finished_iff (s : Replica) (f : Bool)
    (batch : List (Sample ι AppendEntries)) :
    (electionBatch s f batch).2 = true ↔
      f = true ∨ ∃ m ∈ (s.runElectionTimerBatch batch).2, Succeeds m := by
  induction batch generalizing s f with
  | nil => simp [electionBatch, Replica.runElectionTimerBatch]
  | cons x batch ih =>
      rw [electionBatch, ih, electionIteration_finished,
        electionIteration_replica, Replica.runElectionTimerBatch, or_assoc]
      simp only [List.mem_append, or_and_right, exists_or]

/-! ## The two loops side by side -/

/-- What the process writes while it walks a batch in the loop of
`runElectionTimer`. -/
def timerWrites (N : Nat) (n : Node ι) (batch : List (Sample ι AppendEntries)) :
    List Publication :=
  (process N n.replica.ID).outputs
    { n with electionThread := endAppendLoop batch }
    (List.replicate batch.length .appendStep)

/-- What it writes while it walks the batch in the loop of
`run_leader_election`. -/
def electionWrites (N : Nat) (n : Node ι)
    (batch : List (Sample ι AppendEntries)) : List Publication :=
  (process N n.replica.ID).outputs
    { n with
      electionThread := endElectionLoop n.collectVotesGuardList 0 false batch }
    (List.replicate batch.length .electionStep)

theorem appendLoop_outputs (ID : UInt8) (n : Node ι)
    (batch : List (Sample ι AppendEntries))
    (h : n.electionThread = endAppendLoop batch) :
    (process N ID).outputs n (List.replicate batch.length .appendStep) =
      (n.replica.runElectionTimerBatch batch).2.map fun m =>
        ⟨.appendEntriesReply, m⟩ := by
  induction batch generalizing n with
  | nil => rfl
  | cons x batch ih =>
      rw [List.length_cons, List.replicate_succ, Lts.outputs,
        appendLoop_step ID n x batch h, Replica.runElectionTimerBatch,
        List.map_append]
      exact congrArg (_ ++ ·) (ih _ rfl)

theorem electionLoop_outputs (ID : UInt8) (n : Node ι) (k : Nat) (f : Bool)
    (batch : List (Sample ι AppendEntries))
    (h : n.electionThread =
      endElectionLoop n.collectVotesGuardList k f batch) :
    (process N ID).outputs n (List.replicate batch.length .electionStep) =
      [] := by
  induction batch generalizing n f with
  | nil => rfl
  | cons x batch ih =>
      rw [List.length_cons, List.replicate_succ, Lts.outputs,
        electionLoop_step ID n k f x batch h]
      exact ih _ _ rfl

/-- The two loops treat a batch alike, whatever the replica: they leave the
same term, role, vote and timer and write the same messages, one for each valid
sample, and the election is finished if the other loop reports a success. -/
structure PathsAgree (N : Nat) (n : Node ι)
    (batch : List (Sample ι AppendEntries)) : Prop where
  currentTerm : (electionBatch n.replica false batch).1.currentTerm =
    (n.replica.runElectionTimerBatch batch).1.currentTerm
  role : (electionBatch n.replica false batch).1.role =
    (n.replica.runElectionTimerBatch batch).1.role
  votedFor : (electionBatch n.replica false batch).1.votedFor =
    (n.replica.runElectionTimerBatch batch).1.votedFor
  timerArmed : (electionBatch n.replica false batch).1.timerArmed =
    (n.replica.runElectionTimerBatch batch).1.timerArmed
  writes : electionWrites N n batch = timerWrites N n batch
  answered : (electionWrites N n batch).length = (receivedTerms batch).length
  finished : (electionBatch n.replica false batch).2 = true ↔
    ∃ m ∈ (n.replica.runElectionTimerBatch batch).2, Succeeds m

theorem timerWrites_eq (N : Nat) (n : Node ι)
    (batch : List (Sample ι AppendEntries)) :
    timerWrites N n batch =
      (n.replica.runElectionTimerBatch batch).2.map fun m =>
        ⟨.appendEntriesReply, m⟩ :=
  appendLoop_outputs n.replica.ID _ batch rfl

theorem electionWrites_eq (N : Nat) (n : Node ι)
    (batch : List (Sample ι AppendEntries)) : electionWrites N n batch = [] :=
  electionLoop_outputs n.replica.ID _ 0 false batch rfl

theorem receivedTerms_eq_nil {batch : List (Sample ι AppendEntries)} :
    receivedTerms batch = [] ↔ ∀ x ∈ batch, x.validData = false := by
  simp [receivedTerms]

/-- They agree on the replies only where there is nothing to reply to. -/
theorem paths_agree_iff (N : Nat) (n : Node ι)
    (batch : List (Sample ι AppendEntries)) :
    PathsAgree N n batch ↔ ∀ x ∈ batch, x.validData = false := by
  rw [← receivedTerms_eq_nil]
  constructor
  · intro h
    have hanswered := h.answered
    rw [electionWrites_eq] at hanswered
    exact List.eq_nil_of_length_eq_zero hanswered.symm
  · intro hnone
    have hsame := electionBatch_replica n.replica false batch
    have hwrites : timerWrites N n batch = [] := by
      rw [timerWrites_eq, runElectionTimerBatch_eq, hnone]
      rfl
    constructor
    case writes => rw [electionWrites_eq, hwrites]
    case answered =>
      rw [electionWrites_eq, hnone]
      rfl
    case finished => simp [electionBatch_finished_iff]
    all_goals rw [hsame]

/-- A heartbeat of term 1. -/
def heartbeat : Sample Unit AppendEntries where
  validData := true
  publicationHandle := ()
  data :=
    { term := 1
      senderID := 0
      prevLogIndex := 0
      prevLogTerm := 0
      entries := [] }

/-- Replica 1 waits for votes in term 1 when the leader of that term announces
itself: it gets no reply. -/
theorem candidateHeartbeat_not_agree :
    ¬ ∀ (n : Node Unit) (batch : List (Sample Unit AppendEntries)),
      PathsAgree 3 n batch := by
  intro h
  have hwrites := (h (Node.start 1).electionSetUp.1 [heartbeat]).writes
  revert hwrites
  decide

end RevPiRaft.Ports.AppendReplies
