import RevPiRaft.Ports.Loops
import RevPiRaft.Ports.TermMonotone

/-!
# Stale samples

A batch that holds only samples of older terms leaves the replica as it was in
every loop, except where a candidate compares replies with an `election_term`
that is older still, in the middle of an election set-up.
`run_leader_election` nevertheless goes on to another pass when no sample of
its batch has set `election_finished`, so a stale batch makes it start a new
election round, on a leader as well as on a candidate.
-/

namespace RevPiRaft.Ports.StaleMessages

open RevPiRaft.Ports.Datamodel
open RevPiRaft.Ports.ReplicaCore
open RevPiRaft.Ports.LeaderElection
open RevPiRaft.Ports.Reactions
open RevPiRaft.Ports.Pending
open RevPiRaft.Ports.Cluster
open RevPiRaft.Ports.History
open RevPiRaft.Ports.TermMonotone
open RevPiRaft.Ports.Loops

section Batch

variable {ι : Type}

/-- Every sample of the batch has data and a term below the current one. -/
def Stale (s : Replica) (t : Topic) (batch : List (Sample ι t.Msg)) : Prop :=
  ∀ x ∈ batch, x.validData = true ∧ t.term x.data < s.currentTerm

instance (s : Replica) (t : Topic) (batch : List (Sample ι t.Msg)) :
    Decidable (Stale s t batch) := by
  unfold Stale
  infer_instance

theorem Stale.tail {s : Replica} {t : Topic} {x : Sample ι t.Msg}
    {batch : List (Sample ι t.Msg)} (h : Stale s t (x :: batch)) :
    Stale s t batch :=
  fun y hy => h y (List.mem_cons_of_mem x hy)

theorem runElectionTimerBatch_stale {s : Replica}
    {batch : List (Sample ι AppendEntries)}
    (h : Stale s .appendEntries batch) :
    (s.runElectionTimerBatch batch).1 = s := by
  induction batch with
  | nil => rfl
  | cons x batch ih =>
      obtain ⟨hx, hterm⟩ := h x (List.mem_cons_self ..)
      rw [Replica.runElectionTimerBatch, appendEntriesIteration_stale hx hterm]
      exact ih h.tail

theorem electionIteration_stale {s : Replica} (f : Bool)
    {x : Sample ι AppendEntries} (hx : x.validData = true)
    (hterm : x.data.term.toUInt32 < s.currentTerm) :
    electionIteration s f x = (s, f) := by
  have hne : x.data.term.toUInt32 ≠ s.currentTerm := by grind
  have hle : ¬ s.currentTerm < x.data.term.toUInt32 := by grind
  simp [electionIteration, hx, hne, hle]

theorem electionBatch_stale {s : Replica} (f : Bool)
    {batch : List (Sample ι AppendEntries)}
    (h : Stale s .appendEntries batch) : electionBatch s f batch = (s, f) := by
  induction batch with
  | nil => rfl
  | cons x batch ih =>
      obtain ⟨hx, hterm⟩ := h x (List.mem_cons_self ..)
      rw [electionBatch, electionIteration_stale f hx hterm]
      exact ih h.tail

theorem voteBatch_stale {s : Replica} (g : Bool)
    {batch : List (Sample ι RequestVote)} (h : Stale s .requestVote batch) :
    (voteBatch s g batch).1 = s := by
  induction batch with
  | nil => rfl
  | cons x batch ih =>
      obtain ⟨hx, hterm⟩ := h x (List.mem_cons_self ..)
      have hrefuse : ¬ grantsVote s x.data.term.toUInt32
          (uint8OfLong x.data.senderID) := by
        intro hgrants
        exact UInt32.lt_irrefl _ (hgrants.1 ▸ hterm)
      rw [voteBatch, voteIteration_refuse g hx (UInt32.le_of_lt hterm) hrefuse]
      exact ih h.tail

/-- The reply is neither of a newer candidacy nor a vote for this one. -/
def Passed (s : Replica) (m : RequestVoteReply) : Prop :=
  ∃ t, s.electionTerm = some t ∧ ¬ t < m.term.toUInt32 ∧ ¬ countsVote s t m

theorem voteReplyIteration_passed {N : Nat} {s : Replica}
    (hrole : s.role = .candidate) {x : Sample ι RequestVoteReply}
    (h : Passed s x.data) : voteReplyIteration N s x = some (s, false) := by
  obtain ⟨t, helection, hterm, hcount⟩ := h
  simp [voteReplyIteration, hrole, helection, hterm, hcount]

theorem handleVoteReplyMessage_passed {N : Nat} {s : Replica}
    (hrole : s.role = .candidate) {batch : List (Sample ι RequestVoteReply)}
    (h : ∀ x ∈ batch, Passed s x.data) :
    handleVoteReplyMessage N s batch = some s := by
  induction batch with
  | nil => rfl
  | cons x batch ih =>
      obtain ⟨hx, hrest⟩ := List.forall_mem_cons.mp h
      rw [handleVoteReplyMessage, voteReplyIteration_passed hrole hx]
      exact ih hrest

/-- A candidate that stays one has passed over its batch or has counted votes,
which the 8-bit counter shows. -/
theorem handleVoteReplyMessage_candidate {N : Nat} (hN : N < 510)
    {s s' : Replica} (hrole : s.role = .candidate)
    {batch : List (Sample ι RequestVoteReply)}
    (hvalid : ∀ x ∈ batch, x.validData = true)
    (h : handleVoteReplyMessage N s batch = some s')
    (hrole' : s'.role = .candidate) :
    ((∀ x ∈ batch, Passed s x.data) ∧ s' = s) ∨
      (s'.votesReceived.toNat ≤ 254 ∧
        (s.votesReceived.toNat ≤ 254 →
          s.votesReceived.toNat < s'.votesReceived.toNat)) := by
  induction batch generalizing s with
  | nil =>
      cases h
      exact .inl ⟨fun x hx => (List.not_mem_nil hx).elim, rfl⟩
  | cons x batch ih =>
      obtain ⟨hx, hrest⟩ := List.forall_mem_cons.mp hvalid
      by_cases hpassed : Passed s x.data
      · rw [handleVoteReplyMessage,
          voteReplyIteration_passed hrole hpassed] at h
        rcases ih hrole hrest h with ⟨hall, hsame⟩ | hcounted
        · exact .inl ⟨List.forall_mem_cons.mpr ⟨hpassed, hall⟩, hsame⟩
        · exact .inr hcounted
      · obtain ⟨r, hr, hnext⟩ := Option.bind_eq_some_iff.mp h
        rw [voteReplyIteration, if_pos hx, if_neg (not_not_intro hrole)] at hr
        obtain ⟨t, helection, hr⟩ := Option.map_eq_some_iff.mp hr
        by_cases hterm : t < x.data.term.toUInt32
        · rw [if_pos hterm] at hr
          subst hr
          cases hnext
          cases hrole'
        · have hcount : countsVote s t x.data := by
            by_contra hcount
            exact hpassed ⟨t, helection, hterm, hcount⟩
          rw [if_neg hterm, if_pos hcount, countVote] at hr
          dsimp only at hr
          by_cases hmost : (s.votesReceived + 1).toNat * 2 > N
          · rw [if_pos hmost] at hr
            subst hr
            cases hnext
            simp at hrole'
          · rw [if_neg hmost] at hr
            subst hr
            have hfew : (s.votesReceived + 1).toNat ≤ 254 := by omega
            have hsucc : s.votesReceived.toNat ≤ 254 →
                (s.votesReceived + 1).toNat = s.votesReceived.toNat + 1 := by
              intro hle
              rw [UInt8.toNat_add]
              exact Nat.mod_eq_of_lt (by simpa using by omega)
            right
            rcases ih (s := { s with votesReceived := s.votesReceived + 1 })
              hrole hrest hnext with ⟨-, rfl⟩ | ⟨hle, hmore⟩
            · exact ⟨hfew, fun hle => by rw [hsucc hle]; omega⟩
            · have hlt : (s.votesReceived + 1).toNat <
                  s'.votesReceived.toNat := hmore hfew
              exact ⟨hle, fun hle => by rw [hsucc hle] at hlt; omega⟩

/-- The part of the replica that elections are about. -/
structure SameElection (s s' : Replica) : Prop where
  currentTerm : s'.currentTerm = s.currentTerm
  role : s'.role = s.role
  votedFor : s'.votedFor = s.votedFor
  electionTerm : s'.electionTerm = s.electionTerm
  votesReceived : s'.votesReceived = s.votesReceived

/-- Consuming the batch changes nothing of that and starts no new round. -/
def Unaffected (N : Nat) (s : Replica) (loop : Loop)
    (batch : List (Sample ι loop.topic.Msg)) : Prop :=
  ∃ s', consume N s loop batch = some (s', false) ∧ SameElection s s'

/-- The loop is not that of `run_leader_election`, and if a candidate handles
vote replies, none is of a newer candidacy or a vote for this one. -/
def Harmless (s : Replica) : (loop : Loop) →
    List (Sample ι loop.topic.Msg) → Prop
  | .runLeaderElection, _ => False
  | .handleVoteReplyMessage, batch =>
      s.role = .candidate → ∀ x ∈ batch, Passed s x.data
  | _, _ => True

theorem not_unaffected_runLeaderElection {N : Nat} {s : Replica}
    {batch : List (Sample ι AppendEntries)}
    (h : Stale s .appendEntries batch) :
    ¬ Unaffected N s .runLeaderElection batch := by
  rintro ⟨s', hconsume, -⟩
  rw [consume, electionBatch_stale false h] at hconsume
  cases hconsume

theorem unaffected_of_harmless {N : Nat} {s : Replica} {loop : Loop}
    {batch : List (Sample ι loop.topic.Msg)} (h : Stale s loop.topic batch)
    (hharmless : Harmless s loop batch) : Unaffected N s loop batch := by
  refine ⟨s, ?_, rfl, rfl, rfl, rfl, rfl⟩
  cases loop with
  | runElectionTimer => rw [consume, runElectionTimerBatch_stale h]
  | runLeaderElection => exact hharmless.elim
  | handleVoteMessage =>
      rw [consume, handleVoteMessage, voteBatch_stale false h]
  | handleVoteReplyMessage =>
      have hsame : handleVoteReplyMessage N s batch = some s := by
        by_cases hrole : s.role = .candidate
        · exact handleVoteReplyMessage_passed hrole (hharmless hrole)
        · exact handleVoteReplyMessage_idle hrole batch
      rw [consume, hsame]
      rfl
  | handleAppendEntriesReplyMessage => rfl

/-- What a stale batch must be like not to affect the replica. -/
theorem harmless_of_unaffected {N : Nat} (hN : N < 510) {s : Replica}
    {loop : Loop} {batch : List (Sample ι loop.topic.Msg)}
    (h : Stale s loop.topic batch) (hsame : Unaffected N s loop batch) :
    Harmless s loop batch := by
  cases loop with
  | runLeaderElection => exact not_unaffected_runLeaderElection h hsame
  | handleVoteReplyMessage =>
      intro hrole
      obtain ⟨s', hconsume, hsame⟩ := hsame
      obtain ⟨u, hu, heq⟩ := Option.map_eq_some_iff.mp hconsume
      cases heq
      have hcounter := congrArg UInt8.toNat hsame.votesReceived
      rcases handleVoteReplyMessage_candidate hN hrole
        (fun x hx => (h x hx).1) hu (hsame.role.trans hrole) with
        ⟨hall, -⟩ | ⟨hle, hmore⟩
      · exact hall
      · have hlt := hmore (by omega)
        omega
  | _ => trivial

/-- Where `election_term` is the current term, no stale reply is newer than the
candidacy or a vote for it. -/
theorem harmless_of_candidacy {s : Replica} (hs : Candidacy s) {loop : Loop}
    {batch : List (Sample ι loop.topic.Msg)} (h : Stale s loop.topic batch)
    (hloop : loop ≠ .runLeaderElection) : Harmless s loop batch := by
  cases loop with
  | runLeaderElection => exact hloop rfl
  | handleVoteReplyMessage =>
      intro hrole x hx
      obtain ⟨-, hterm⟩ := h x hx
      refine ⟨_, hs (by simp [hrole]), ?_, fun hcount => ?_⟩
      · exact UInt32.not_lt.mpr (UInt32.le_of_lt hterm)
      · exact UInt32.lt_irrefl _ (hcount.2.1 ▸ hterm)
  | _ => trivial

end Batch

variable {ι : Type} [DecidableEq ι] {cfg : Config ι}

/-- Stale samples are harmless in every reachable state of a run. -/
def StaleHarmless (run : Execution cfg) : Prop :=
  ∀ i r (loop : Loop) (batch : List (Sample ι loop.topic.Msg)),
    i ≤ run.length → batch ≠ [] → Stale (run.replica i r) loop.topic batch →
    Unaffected cfg.activeReplicas (run.replica i r) loop batch

/-- Whatever state the replica is in, a stale batch, of one sample or of many,
leaves it alone exactly if it is harmless; and between the steps of a run that
is in the loops other than that of `run_leader_election`. -/
theorem stale_harmless_iff (hN : cfg.activeReplicas < 510) :
    (∀ s (loop : Loop) (batch : List (Sample ι loop.topic.Msg)),
      Stale s loop.topic batch →
      (Unaffected cfg.activeReplicas s loop batch ↔ Harmless s loop batch)) ∧
    ∀ (run : Execution cfg) i r (loop : Loop)
      (batch : List (Sample ι loop.topic.Msg)), i ≤ run.length →
      Stale (run.replica i r) loop.topic batch →
      (Unaffected cfg.activeReplicas (run.replica i r) loop batch ↔
        loop ≠ .runLeaderElection) := by
  refine ⟨fun s loop batch h =>
    ⟨harmless_of_unaffected hN h, unaffected_of_harmless h⟩,
    fun run i r loop batch hi h => ⟨?_, fun hloop => ?_⟩⟩
  · rintro hsame rfl
    exact not_unaffected_runLeaderElection h hsame
  · exact unaffected_of_harmless h
      (harmless_of_candidacy (candidacy hi r) h hloop)

/-- Replica 2 leads term 1 and publishes a heartbeat.  Replica 1, a candidate
of term 2 by then, takes it while it waits for votes. -/
def staleHeartbeat : Execution threeReplicas where
  labels := electReplica2 ++
    [(2, .alarm), (2, .heartbeatBuild fun _ => ⟨0, 0⟩),
      (2, .heartbeatWrite 0)] ++
    replica1Candidate ++
    [(1, .deliver .appendEntries 0), (1, .electionWake), (1, .electionTake),
      (1, .electionStep), (1, .electionRestart)]
  executes := by decide +kernel

/-- A grant of the last candidacy. -/
def lateGrant : Sample (Fin 3) RequestVoteReply where
  validData := true
  publicationHandle := 0
  data :=
    { senderID := 0
      term := 1
      candidateID := 1
      voteGranted := 1 }

/-- It is harmless to a candidate of term 2, but not in the middle of its
set-up, where the current term is counted up and `election_term` is not. -/
theorem stale_harmless_lateGrant :
    Unaffected 3 (staleHeartbeat.replica 18 1) .handleVoteReplyMessage
        [lateGrant] ∧
      ¬ Unaffected 3
        { (startElection (Replica.initializeReplica 1)).1 with
          currentTerm := 2 } .handleVoteReplyMessage [lateGrant] := by
  have hthree : threeReplicas.activeReplicas < 510 := by decide
  obtain ⟨hstate, hrun⟩ := stale_harmless_iff hthree
  constructor
  · exact (hrun staleHeartbeat 18 1 .handleVoteReplyMessage [lateGrant]
      (by decide) (by decide +kernel)).mpr (by decide)
  · intro hsame
    obtain ⟨t, ht, -, hcount⟩ :=
      (hstate _ .handleVoteReplyMessage [lateGrant] (by decide +kernel)).mp
        hsame rfl lateGrant (List.mem_singleton_self _)
    cases ht
    exact hcount (by decide +kernel)

/-- The heartbeat of term 1 makes replica 1 start another election round. -/
theorem staleHeartbeat_not_harmless : ¬ StaleHarmless staleHeartbeat := by
  intro h
  obtain ⟨s', hconsume, -⟩ := h 18 1 .runLeaderElection
    (threadAppends (staleHeartbeat.node 18 1).electionThread) (by decide)
    (by decide +kernel) (by decide +kernel)
  have hround : (consume 3 (staleHeartbeat.replica 18 1) .runLeaderElection
      (threadAppends (staleHeartbeat.node 18 1).electionThread)).map Prod.snd =
        some false :=
    congrArg (Option.map Prod.snd) hconsume
  revert hround
  decide +kernel

example : (staleHeartbeat.replica 18 1).currentTerm = 2 ∧
    (staleHeartbeat.replica 20 1).currentTerm = 3 := by
  decide +kernel

end RevPiRaft.Ports.StaleMessages
