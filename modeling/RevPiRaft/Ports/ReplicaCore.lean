import RevPiRaft.Ports.Datamodel

/-!
# The replica state and `replica.c`

`Replica` is `replica_t` together with the process-wide state its threads
share: the global `votes_received`, whether the heartbeat interval timer is
armed, and the last values written to the two digital outputs.  Every function
below is the transcription of one function of `replica.c`, with the mutex
operations left to `Ports.Process`.

`election_term` and `nextIndex` are not assigned by `initialize_replica`, so
they are optional here and a read of an unset one yields no result.

`setitimer` and `digital_write` are taken to succeed, and a `setitimer` with a
null new value disarms the timer.
-/

namespace RevPiRaft.Ports.ReplicaCore

open RevPiRaft.Ports.Datamodel

/-- `VOTED_NONE`. -/
def votedNone : UInt8 := 255

inductive RaftRole where
  | follower
  | candidate
  | leader
deriving DecidableEq

/-- `log_entry_t`. -/
structure LogEntry where
  id : UInt32
  term : UInt32
deriving DecidableEq

/-- `replica_t` and the globals its threads share.  `log` is the allocated
block of `log_size` entries; an entry that was allocated but never stored is
`none`. -/
structure Replica where
  ID : UInt8
  role : RaftRole
  currentTerm : UInt32
  electionTerm : Option UInt32
  votedFor : UInt8
  log : List (Option LogEntry)
  commitIndex : UInt32
  nextIndex : Option UInt32
  votesReceived : UInt8
  timerArmed : Bool
  O1 : Bool
  O2 : Bool
deriving DecidableEq

namespace Replica

/-- `log_size`: the block is reallocated whenever the counter changes. -/
def logSize (s : Replica) : Nat := s.log.length

/-! ## Role changes -/

/-- `become_leader`. -/
def becomeLeader (s : Replica) : Replica :=
  if s.role = .leader then s
  else
    { s with
      O1 := false
      O2 := true
      role := .leader
      votedFor := votedNone
      nextIndex := some (UInt32.ofNat (s.logSize + 1))
      timerArmed := true }

/-- `become_follower`. -/
def becomeFollower (s : Replica) (term : UInt32) : Replica :=
  { s with
    O1 := true
    O2 := false
    currentTerm := term
    role := .follower
    votedFor := votedNone
    timerArmed := false }

/-- `become_leader` of a replica that does not lead yet. -/
theorem becomeLeader_of_ne {s : Replica} (h : s.role ≠ .leader) :
    s.becomeLeader =
      { s with
        O1 := false
        O2 := true
        role := .leader
        votedFor := votedNone
        nextIndex := some (UInt32.ofNat (s.logSize + 1))
        timerArmed := true } :=
  if_neg h

/-- What `become_leader` leaves alone, and the role it ends in. -/
@[simp] theorem becomeLeader_frame (s : Replica) :
    s.becomeLeader.ID = s.ID ∧ s.becomeLeader.role = .leader ∧
      s.becomeLeader.currentTerm = s.currentTerm ∧
      s.becomeLeader.electionTerm = s.electionTerm ∧
      s.becomeLeader.votesReceived = s.votesReceived ∧
      s.becomeLeader.log = s.log ∧
      s.becomeLeader.commitIndex = s.commitIndex := by
  unfold becomeLeader
  split
  · rename_i h
    exact ⟨rfl, h, rfl, rfl, rfl, rfl, rfl⟩
  · exact ⟨rfl, rfl, rfl, rfl, rfl, rfl, rfl⟩

@[simp] theorem becomeFollower_fields (s : Replica) (term : UInt32) :
    (s.becomeFollower term).ID = s.ID ∧
      (s.becomeFollower term).role = .follower ∧
      (s.becomeFollower term).currentTerm = term ∧
      (s.becomeFollower term).electionTerm = s.electionTerm ∧
      (s.becomeFollower term).votedFor = votedNone ∧
      (s.becomeFollower term).votesReceived = s.votesReceived ∧
      (s.becomeFollower term).log = s.log ∧
      (s.becomeFollower term).commitIndex = s.commitIndex ∧
      (s.becomeFollower term).timerArmed = false ∧
      (s.becomeFollower term).O1 = true ∧
      (s.becomeFollower term).O2 = false :=
  ⟨rfl, rfl, rfl, rfl, rfl, rfl, rfl, rfl, rfl, rfl, rfl⟩

/-- `initialize_replica`: the fields it assigns before `become_follower(0)`,
and the statically zero `votes_received`. -/
def initializeReplica (id : UInt8) : Replica :=
  becomeFollower
    { ID := id
      role := .follower
      currentTerm := 0
      electionTerm := none
      votedFor := votedNone
      log := []
      commitIndex := 0
      nextIndex := none
      votesReceived := 0
      timerArmed := false
      O1 := false
      O2 := false } 0

/-! ## The log -/

/-- `append_to_log`.  The store uses `log_size` after its increment, one past
the last entry of the block, where it changes no entry of the block. -/
def appendToLog (s : Replica) (entry : LogEntry) : Replica :=
  let log := s.log ++ [none]
  { s with log := log.set log.length (some entry) }

/-- `realloc` of the block to `n` entries: the entries that fit stay. -/
def reallocLog (s : Replica) (n : UInt64) : Replica :=
  { s with log := (s.log ++ List.replicate n.toNat none).take n.toNat }

@[simp] theorem reallocLog_length (s : Replica) (n : UInt64) :
    (s.reallocLog n).log.length = n.toNat := by
  simp [reallocLog]

/-- `insert_log_entry_at`, with `size_t` as `UInt64`.  A store past the block
changes no entry of the block. -/
def insertLogEntryAt (s : Replica) (entry : LogEntry) (index : UInt64) :
    Replica :=
  let logSize := UInt64.ofNat s.logSize
  let s := if index + 1 > logSize then
      s.reallocLog (logSize + (logSize - index + 1))
    else s
  { s with log := s.log.set index.toNat (some entry) }

/-- Reading `log[i]`.  Where the block holds no stored entry, what is read is
whatever the heap holds. -/
def readLog (s : Replica) (heap : Nat → LogEntry) (i : Nat) : LogEntry :=
  (s.log[i]?.join).getD (heap i)

/-- The `new_entry` of the main loop. -/
def newEntry (s : Replica) : LogEntry :=
  { id := UInt32.ofNat (s.logSize + 1)
    term := s.currentTerm }

/-- The entry that a lap of the main loop passes to `append_to_log`: a follower
or candidate skips the batch, a leader walks it and appends one entry. -/
def inputEntry {ι : Type} (s : Replica) (_batch : List (Sample ι Input)) :
    Option LogEntry :=
  if s.role ≠ .leader then none else some s.newEntry

/-- One lap of the main input loop. -/
def mainInputLap {ι : Type} (s : Replica) (batch : List (Sample ι Input)) :
    Replica :=
  match s.inputEntry batch with
  | none => s
  | some entry => s.appendToLog entry

theorem mainInputLap_idle {ι : Type} {s : Replica} (hrole : s.role ≠ .leader)
    (batch : List (Sample ι Input)) : s.mainInputLap batch = s := by
  rw [mainInputLap, inputEntry, if_pos hrole]

theorem mainInputLap_leader {ι : Type} {s : Replica} (hrole : s.role = .leader)
    (batch : List (Sample ι Input)) :
    s.mainInputLap batch = s.appendToLog s.newEntry := by
  rw [mainInputLap, inputEntry, if_neg (not_not_intro hrole)]

/-- A leader's log grows by one allocated entry. -/
theorem mainInputLap_log {ι : Type} {s : Replica} (hrole : s.role = .leader)
    (batch : List (Sample ι Input)) :
    (s.mainInputLap batch).log = s.log ++ [none] := by
  rw [mainInputLap_leader hrole, appendToLog]
  exact List.set_eq_of_length_le (Nat.le_refl _)

/-- The main loop changes only the log. -/
@[simp] theorem mainInputLap_frame {ι : Type} (s : Replica)
    (batch : List (Sample ι Input)) :
    (s.mainInputLap batch).ID = s.ID ∧
      (s.mainInputLap batch).role = s.role ∧
      (s.mainInputLap batch).currentTerm = s.currentTerm ∧
      (s.mainInputLap batch).electionTerm = s.electionTerm ∧
      (s.mainInputLap batch).votedFor = s.votedFor ∧
      (s.mainInputLap batch).votesReceived = s.votesReceived ∧
      (s.mainInputLap batch).commitIndex = s.commitIndex ∧
      (s.mainInputLap batch).timerArmed = s.timerArmed ∧
      (s.mainInputLap batch).O1 = s.O1 ∧
      (s.mainInputLap batch).O2 = s.O2 := by
  unfold mainInputLap
  split <;> exact ⟨rfl, rfl, rfl, rfl, rfl, rfl, rfl, rfl, rfl, rfl⟩

/-! ## `send_heartbeat` -/

/-- `payload_size`: the difference of a `size_t` and a `uint32_t`, narrowed to
eight bits. -/
def payloadSize (s : Replica) (nextIndex : UInt32) : UInt8 :=
  (UInt64.ofNat s.logSize - nextIndex.toUInt64).toUInt8

/-- The message `send_heartbeat` builds under the mutex.  `senderID` is
assigned twice. -/
def heartbeatMessage (s : Replica) (heap : Nat → LogEntry) :
    Option AppendEntries :=
  s.nextIndex.map fun nextIndex =>
    let prevLogIndex : Int32 := (nextIndex - 1).toInt32
    let prevLogTerm : Int32 :=
      if 0 ≤ prevLogIndex then
        (s.readLog heap prevLogIndex.toInt.toNat).term.toInt32
      else -1
    let message : AppendEntries :=
      { term := s.currentTerm.toInt32
        senderID := longOfUInt8 s.ID
        prevLogIndex := prevLogIndex
        prevLogTerm := prevLogTerm
        entries := [] }
    { message with
      senderID := s.commitIndex.toInt32
      entries := (List.range (s.payloadSize nextIndex).toNat).map fun i =>
        (s.readLog heap i).id.toInt32 }

/-- The positions of the log that `send_heartbeat` reads. -/
def heartbeatReads (s : Replica) : Option (List Nat) :=
  s.nextIndex.map fun nextIndex =>
    let prevLogIndex : Int32 := (nextIndex - 1).toInt32
    (if 0 ≤ prevLogIndex then [prevLogIndex.toInt.toNat] else []) ++
      List.range (s.payloadSize nextIndex).toNat

/-- A heartbeat carries the term in which it is built. -/
theorem heartbeatMessage_term {s : Replica} {heap : Nat → LogEntry}
    {m : AppendEntries} (h : s.heartbeatMessage heap = some m) :
    m.term.toUInt32 = s.currentTerm := by
  obtain ⟨nextIndex, -, rfl⟩ := Option.map_eq_some_iff.mp h
  simp

/-- `handle_appendEntries_reply_message`: the loop only prints the samples. -/
def handleAppendEntriesReplyMessage {ι : Type} (s : Replica)
    (_batch : List (Sample ι AppendEntriesReply)) : Replica := s

/-! ## The `AppendEntries` loop of `runElectionTimer` -/

/-- The reply `runElectionTimer` writes for one valid sample. -/
def appendEntriesReplyMessage (s : Replica) (success : Bool) :
    AppendEntriesReply :=
  { senderID := longOfUInt8 s.ID
    term := s.currentTerm.toInt32
    success := longOfBool success }

/-- One iteration of the loop: the replica and the replies written. -/
def appendEntriesIteration {ι : Type} (s : Replica)
    (x : Sample ι AppendEntries) : Replica × List AppendEntriesReply :=
  if x.validData then
    let receivedTerm := x.data.term.toUInt32
    let s := if receivedTerm > s.currentTerm then s.becomeFollower receivedTerm
      else s
    let success : Bool := receivedTerm = s.currentTerm
    let s := if receivedTerm = s.currentTerm ∧ s.role ≠ .follower then
        s.becomeFollower receivedTerm
      else s
    (s, [s.appendEntriesReplyMessage success])
  else (s, [])

/-- The whole loop over one batch. -/
def runElectionTimerBatch {ι : Type} (s : Replica) :
    List (Sample ι AppendEntries) → Replica × List AppendEntriesReply
  | [] => (s, [])
  | x :: rest =>
      let r := s.appendEntriesIteration x
      let q := runElectionTimerBatch r.1 rest
      (q.1, r.2 ++ q.2)

end Replica

end RevPiRaft.Ports.ReplicaCore
