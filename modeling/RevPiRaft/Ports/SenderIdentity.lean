import RevPiRaft.Ports.TermMonotone

/-!
# The sender field and the wake-up filter

Four sites fill `senderID`.  The two replies take it from `ID` and a
`RequestVote` from `voted_for`, which the set-up has set to `ID` five lines
before; in a later pass, without the mutex, the vote thread may have recorded a
vote since.  `send_heartbeat` assigns `ID` first and then overwrites it with
`commitIndex`.  The query conditions compare this field, so they are exact for
the replies, and for the other two exactly when the field they take it from
happens to equal `ID`.
-/

namespace RevPiRaft.Ports.SenderIdentity

open RevPiRaft.Ports.Datamodel
open RevPiRaft.Ports.ReplicaCore
open RevPiRaft.Ports.LeaderElection
open RevPiRaft.Ports.ConsensusManager
open RevPiRaft.Ports.Events
open RevPiRaft.Ports.Reactions
open RevPiRaft.Ports.Cluster
open RevPiRaft.Ports.History
open RevPiRaft.Ports.TermMonotone
open Execution

variable {ι : Type}

/-- The messages that the four sites compose while the replica is `s`. -/
inductive Composes (s : Replica) : Publication → Prop where
  | requestVote : Composes s ⟨.requestVote, requestVoteMessage s⟩
  | requestVoteReply (voteGranted : Bool) :
      Composes s ⟨.requestVoteReply, requestVoteReplyMessage s voteGranted⟩
  | appendEntriesReply (success : Bool) :
      Composes s ⟨.appendEntriesReply, s.appendEntriesReplyMessage success⟩
  | appendEntries (heap : Nat → LogEntry) (m : AppendEntries)
      (hm : s.heartbeatMessage heap = some m) :
      Composes s ⟨.appendEntries, m⟩

/-- The value that each of them gives to `senderID`. -/
def senderField (s : Replica) : Topic → Int32
  | .requestVote => longOfUInt8 s.votedFor
  | .appendEntries => s.commitIndex.toInt32
  | _ => longOfUInt8 s.ID

theorem Composes.senderID {s : Replica} {p : Publication}
    (h : Composes s p) : p.senderID = senderField s p.topic := by
  cases h with
  | appendEntries heap m hm =>
      obtain ⟨nextIndex, -, rfl⟩ := Option.map_eq_some_iff.mp hm
      rfl
  | _ => rfl

theorem commitIndex_toInt32_eq_iff (commitIndex : UInt32) (ID : UInt8) :
    commitIndex.toInt32 = longOfUInt8 ID ↔ commitIndex = ID.toUInt32 := by
  constructor
  · intro h
    have hback := congrArg Int32.toUInt32 h
    simpa [longOfUInt8] using hback
  · rintro rfl
    rfl

/-- The message names its publisher `r`, and the query condition holds of it
exactly at the replicas with another identifier. -/
def SenderExact (cfg : Config ι) (r : ι) (p : Publication) : Prop :=
  p.senderID = longOfUInt8 (cfg.ID r) ∧
    ∀ h, queryCondition (cfg.ID h) p.topic
      { validData := true
        publicationHandle := r
        data := p.data } = true ↔ cfg.ID h ≠ cfg.ID r

/-- The filter is exact as soon as the sender field is. -/
theorem senderExact_iff {cfg : Config ι} (r : ι) (p : Publication) :
    SenderExact cfg r p ↔ p.senderID = longOfUInt8 (cfg.ID r) := by
  refine ⟨fun h => h.1, fun hsender => ⟨hsender, fun h => ?_⟩⟩
  have hquery : p.topic.senderID p.data = longOfUInt8 (cfg.ID r) := hsender
  simp only [queryCondition, Bool.not_true, Bool.false_or,
    senderQuery_idString, hquery]
  exact not_congr
    ⟨fun heq => (longOfUInt8_inj heq).symm, fun heq => by rw [heq]⟩

/-- What makes the sender field the identifier, for each of the topics. -/
def OwnSender (s : Replica) (p : Publication) : Prop :=
  (p.topic = .requestVote → s.votedFor = s.ID) ∧
    (p.topic = .appendEntries → s.commitIndex = s.ID.toUInt32)

theorem senderField_eq_iff (s : Replica) (p : Publication) :
    senderField s p.topic = longOfUInt8 s.ID ↔ OwnSender s p := by
  unfold OwnSender
  cases p.topic with
  | requestVote =>
      simp only [senderField, reduceCtorEq, false_imp_iff, and_true,
        true_imp_iff]
      exact ⟨longOfUInt8_inj, fun heq => by rw [heq]⟩
  | appendEntries =>
      simp only [senderField, reduceCtorEq, false_imp_iff, true_and,
        true_imp_iff]
      exact commitIndex_toInt32_eq_iff s.commitIndex s.ID
  | _ => simp [senderField]

theorem React.commitIndex {N : Nat} {s s' : Replica} {e : Event ι}
    {out : List Publication} (h : React N s e s' out) :
    s'.commitIndex = s.commitIndex := by
  cases h <;> simp

variable [DecidableEq ι] {cfg : Config ι} {run : Execution cfg}

/-- No run ever moves `commitIndex`. -/
theorem commitIndex_eq {i : Nat} (hi : i ≤ run.length) (r : ι) :
    (run.replica i r).commitIndex = 0 :=
  replica_invariant (P := fun s => s.commitIndex = 0) r rfl
    (fun _ _ _ hreact hs => (React.commitIndex hreact).trans hs) i hi

/-- Every publication of a run was composed by its publisher in a reachable
state, a `RequestVote` while the vote of its publisher was its own. -/
theorem published_composed {i : Nat} {r : ι} {p : Publication}
    (hp : run.Publishes i r p) :
    ∃ j ≤ run.length, Composes (run.replica j r) p ∧
      (p.topic = .requestVote →
        (run.replica j r).votedFor = (run.replica j r).ID) := by
  obtain ⟨e, he, hmem⟩ := hp.occurs
  cases published_cases he.react hmem with
  | requestVote hvote => exact ⟨i + 1, he.lt, .requestVote, fun _ => hvote⟩
  | appendReply x success =>
      exact ⟨i + 1, he.lt, .appendEntriesReply success, fun h => by cases h⟩
  | voteGranted g x =>
      exact ⟨i + 1, he.lt, .requestVoteReply true, fun h => by cases h⟩
  | voteRefused g x =>
      exact ⟨i + 1, he.lt, .requestVoteReply g, fun h => by cases h⟩
  | heartbeat m =>
      obtain ⟨k, hk, heap, -, hm⟩ := write_built he
      exact ⟨k, Nat.le_of_lt (Nat.lt_trans hk he.lt), .appendEntries heap m hm,
        fun h => by cases h⟩

/-- Whatever state a message is composed in, its sender field and the filter
are exact exactly if a `RequestVote` finds the own identifier in `voted_for`,
and a heartbeat finds it in `commitIndex`.  A set-up that no other thread
interrupts leaves it in `voted_for`, and a run leaves 0 in `commitIndex`, so
among the publications of a run the filter fails for heartbeats of replicas
other than the replica 0. -/
theorem sender_exact (cfg : Config ι) :
    (∀ s r p, s.ID = cfg.ID r → Composes s p →
      (SenderExact cfg r p ↔ OwnSender s p)) ∧
    (∀ (run : Execution cfg) i r p, run.Publishes i r p →
      (SenderExact cfg r p ↔ (p.topic = .appendEntries → cfg.ID r = 0))) := by
  have hcomposed : ∀ s r p, s.ID = cfg.ID r → Composes s p →
      (SenderExact cfg r p ↔ OwnSender s p) := by
    intro s r p hID h
    rw [senderExact_iff, h.senderID, ← hID, senderField_eq_iff]
  refine ⟨hcomposed, fun run i r p hp => ?_⟩
  obtain ⟨j, hj, h, hvote⟩ := published_composed hp
  have hID := ID_eq hj r
  rw [hcomposed _ r p hID h, OwnSender, commitIndex_eq hj, hID]
  rw [hID] at hvote
  have hzero : (0 : UInt32) = (cfg.ID r).toUInt32 ↔ cfg.ID r = 0 := by
    constructor
    · intro hID
      have hback := congrArg UInt32.toUInt8 hID
      simpa using hback.symm
    · intro hID
      rw [hID]
      rfl
  rw [hzero]
  exact and_iff_right hvote

/-- Replica 2 leads and its first heartbeat is published. -/
def leaderHeartbeat : Execution threeReplicas where
  labels := electReplica2 ++ [(2, .alarm),
    (2, .heartbeatBuild fun _ => ⟨0, 0⟩), (2, .heartbeatWrite 0)]
  executes := by decide +kernel

/-- The heartbeat of replica 2 names replica 0. -/
theorem leaderHeartbeat_not_exact :
    ¬ ∀ i r p, leaderHeartbeat.Publishes i r p →
      SenderExact threeReplicas r p := by
  intro h
  have hsender : ∀ p ∈ leaderHeartbeat.output 11,
      p.senderID = longOfUInt8 (threeReplicas.ID 2) :=
    fun p hp => (h 11 2 p ⟨.heartbeatWrite 0, rfl, hp⟩).1
  revert hsender
  decide +kernel

end RevPiRaft.Ports.SenderIdentity
