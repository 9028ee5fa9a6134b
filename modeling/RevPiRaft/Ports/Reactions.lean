import RevPiRaft.Ports.Events

/-!
# Inversion of the effect of an event

`React` lists the branches of every loop body once, each with the comparison
that selects it, the resulting replica and the messages written.  Invariants of
the replica state are case analyses on it.
-/

namespace RevPiRaft.Ports.Reactions

open RevPiRaft.Ports.Datamodel
open RevPiRaft.Ports.ReplicaCore
open RevPiRaft.Ports.LeaderElection
open RevPiRaft.Ports.Events

variable {ι : Type}

/-- Publication of the reply to an `AppendEntries` sample. -/
def appendReply (s : Replica) (success : Bool) : Publication :=
  ⟨.appendEntriesReply, s.appendEntriesReplyMessage success⟩

/-- Publication of the reply to a `RequestVote` sample. -/
def voteReply (s : Replica) (voteGranted : Bool) : Publication :=
  ⟨.requestVoteReply, requestVoteReplyMessage s voteGranted⟩

/-- The vote for the candidate of `x`, recorded in the term of `x`. -/
def recordVote (s : Replica) (x : Sample ι RequestVote) : Replica :=
  { s with votedFor := uint8OfLong x.data.senderID }

@[simp] theorem recordVote_fields (s : Replica) (x : Sample ι RequestVote) :
    (recordVote s x).ID = s.ID ∧
      (recordVote s x).role = s.role ∧
      (recordVote s x).currentTerm = s.currentTerm ∧
      (recordVote s x).electionTerm = s.electionTerm ∧
      (recordVote s x).votedFor = uint8OfLong x.data.senderID ∧
      (recordVote s x).votesReceived = s.votesReceived ∧
      (recordVote s x).commitIndex = s.commitIndex ∧
      (recordVote s x).timerArmed = s.timerArmed ∧
      (recordVote s x).O1 = s.O1 ∧
      (recordVote s x).O2 = s.O2 :=
  ⟨rfl, rfl, rfl, rfl, rfl, rfl, rfl, rfl, rfl, rfl⟩

/-- One constructor for each branch of each loop body. -/
inductive React (N : Nat) (s : Replica) :
    Event ι → Replica → List Publication → Prop where
  | quiet : React N s .quiet s []
  | start :
      React N s .start (startElection s).1
        [⟨.requestVote, (startElection s).2⟩]
  | appendInvalid (x : Sample ι AppendEntries) (hx : x.validData = false) :
      React N s (.append x) s []
  | appendNewer (x : Sample ι AppendEntries) (hx : x.validData = true)
      (hterm : s.currentTerm < x.data.term.toUInt32) :
      React N s (.append x) (s.becomeFollower x.data.term.toUInt32)
        [appendReply (s.becomeFollower x.data.term.toUInt32) true]
  | appendStepDown (x : Sample ι AppendEntries) (hx : x.validData = true)
      (hterm : x.data.term.toUInt32 = s.currentTerm)
      (hrole : s.role ≠ .follower) :
      React N s (.append x) (s.becomeFollower s.currentTerm)
        [appendReply (s.becomeFollower s.currentTerm) true]
  | appendCurrent (x : Sample ι AppendEntries) (hx : x.validData = true)
      (hterm : x.data.term.toUInt32 = s.currentTerm)
      (hrole : s.role = .follower) :
      React N s (.append x) s [appendReply s true]
  | appendStale (x : Sample ι AppendEntries) (hx : x.validData = true)
      (hterm : x.data.term.toUInt32 < s.currentTerm) :
      React N s (.append x) s [appendReply s false]
  | electionInvalid (f : Bool) (x : Sample ι AppendEntries)
      (hx : x.validData = false) :
      React N s (.election f x) s []
  | electionNewer (f : Bool) (x : Sample ι AppendEntries)
      (hx : x.validData = true)
      (hterm : s.currentTerm < x.data.term.toUInt32) :
      React N s (.election f x) (s.becomeFollower x.data.term.toUInt32) []
  | electionStepDown (f : Bool) (x : Sample ι AppendEntries)
      (hx : x.validData = true)
      (hterm : x.data.term.toUInt32 = s.currentTerm)
      (hrole : s.role ≠ .follower) :
      React N s (.election f x) (s.becomeFollower s.currentTerm) []
  | electionCurrent (f : Bool) (x : Sample ι AppendEntries)
      (hx : x.validData = true)
      (hterm : x.data.term.toUInt32 = s.currentTerm)
      (hrole : s.role = .follower) :
      React N s (.election f x) s []
  | electionStale (f : Bool) (x : Sample ι AppendEntries)
      (hx : x.validData = true)
      (hterm : x.data.term.toUInt32 < s.currentTerm) :
      React N s (.election f x) s []
  | voteInvalid (g : Bool) (x : Sample ι RequestVote)
      (hx : x.validData = false) :
      React N s (.vote g x) s []
  | voteNewer (g : Bool) (x : Sample ι RequestVote) (hx : x.validData = true)
      (hterm : s.currentTerm < x.data.term.toUInt32) :
      React N s (.vote g x)
        (recordVote (s.becomeFollower x.data.term.toUInt32) x)
        [voteReply (recordVote (s.becomeFollower x.data.term.toUInt32) x) true]
  | voteGrant (g : Bool) (x : Sample ι RequestVote) (hx : x.validData = true)
      (hterm : x.data.term.toUInt32 = s.currentTerm)
      (hvote : s.votedFor = votedNone ∨
        s.votedFor = uint8OfLong x.data.senderID) :
      React N s (.vote g x) (recordVote s x) [voteReply (recordVote s x) true]
  | voteRefuse (g : Bool) (x : Sample ι RequestVote) (hx : x.validData = true)
      (hterm : x.data.term.toUInt32 ≤ s.currentTerm)
      (hvote : ¬ grantsVote s x.data.term.toUInt32
        (uint8OfLong x.data.senderID)) :
      React N s (.vote g x) s [voteReply s g]
  | replyInvalid (x : Sample ι RequestVoteReply) (hx : x.validData = false) :
      React N s (.reply x) s []
  | replyIdle (x : Sample ι RequestVoteReply) (hx : x.validData = true)
      (hrole : s.role ≠ .candidate) :
      React N s (.reply x) s []
  | replyNewer (x : Sample ι RequestVoteReply) (electionTerm : UInt32)
      (hx : x.validData = true) (hrole : s.role = .candidate)
      (helection : s.electionTerm = some electionTerm)
      (hterm : electionTerm < x.data.term.toUInt32) :
      React N s (.reply x) (s.becomeFollower x.data.term.toUInt32) []
  | replyIgnored (x : Sample ι RequestVoteReply) (electionTerm : UInt32)
      (hx : x.validData = true) (hrole : s.role = .candidate)
      (helection : s.electionTerm = some electionTerm)
      (hterm : x.data.term.toUInt32 ≤ electionTerm)
      (hcount : ¬ countsVote s electionTerm x.data) :
      React N s (.reply x) s []
  | replyCounted (x : Sample ι RequestVoteReply) (electionTerm : UInt32)
      (hx : x.validData = true) (hrole : s.role = .candidate)
      (helection : s.electionTerm = some electionTerm)
      (hcount : countsVote s electionTerm x.data)
      (hfew : (s.votesReceived + 1).toNat * 2 ≤ N) :
      React N s (.reply x) { s with votesReceived := s.votesReceived + 1 } []
  | replyWon (x : Sample ι RequestVoteReply) (electionTerm : UInt32)
      (hx : x.validData = true) (hrole : s.role = .candidate)
      (helection : s.electionTerm = some electionTerm)
      (hcount : countsVote s electionTerm x.data)
      (hmost : N < (s.votesReceived + 1).toNat * 2) :
      React N s (.reply x)
        (Replica.becomeLeader
          { s with votesReceived := s.votesReceived + 1 }) []
  | build (heap : Nat → LogEntry) : React N s (.build heap) s []
  | write (m : AppendEntries) : React N s (.write m) s [⟨.appendEntries, m⟩]
  | input (batch : List (Sample ι Input)) :
      React N s (.input batch) (s.mainInputLap batch) []

/-- The three outcomes of comparing a received term with the own one. -/
theorem compareTerms (own received : UInt32) :
    own < received ∨ received = own ∨ received < own := by
  rcases UInt32.lt_or_le own received with h | h
  · exact .inl h
  · rcases UInt32.lt_or_eq_of_le h with h | h
    · exact .inr (.inr h)
    · exact .inr (.inl h)

/-- The two copies of the `AppendEntries` loop body act alike on the replica. -/
theorem electionIteration_replica (s : Replica) (f : Bool)
    (x : Sample ι AppendEntries) :
    (electionIteration s f x).1 = (s.appendEntriesIteration x).1 := by
  unfold electionIteration Replica.appendEntriesIteration
  grind

theorem appendEntriesIteration_newer {s : Replica}
    {x : Sample ι AppendEntries} (hx : x.validData = true)
    (hterm : s.currentTerm < x.data.term.toUInt32) :
    s.appendEntriesIteration x =
      (s.becomeFollower x.data.term.toUInt32,
        [(s.becomeFollower x.data.term.toUInt32).appendEntriesReplyMessage
          true]) := by
  simp [Replica.appendEntriesIteration, Replica.becomeFollower, hx, hterm]

theorem appendEntriesIteration_stepDown {s : Replica}
    {x : Sample ι AppendEntries} (hx : x.validData = true)
    (hterm : x.data.term.toUInt32 = s.currentTerm)
    (hrole : s.role ≠ .follower) :
    s.appendEntriesIteration x =
      (s.becomeFollower s.currentTerm,
        [(s.becomeFollower s.currentTerm).appendEntriesReplyMessage true]) := by
  simp [Replica.appendEntriesIteration, hx, hterm, hrole]

theorem appendEntriesIteration_current {s : Replica}
    {x : Sample ι AppendEntries} (hx : x.validData = true)
    (hterm : x.data.term.toUInt32 = s.currentTerm)
    (hrole : s.role = .follower) :
    s.appendEntriesIteration x =
      (s, [s.appendEntriesReplyMessage true]) := by
  simp [Replica.appendEntriesIteration, hx, hterm, hrole]

theorem appendEntriesIteration_stale {s : Replica}
    {x : Sample ι AppendEntries} (hx : x.validData = true)
    (hterm : x.data.term.toUInt32 < s.currentTerm) :
    s.appendEntriesIteration x =
      (s, [s.appendEntriesReplyMessage false]) := by
  have hne : x.data.term.toUInt32 ≠ s.currentTerm := by grind
  have hle : ¬ s.currentTerm < x.data.term.toUInt32 := by grind
  simp [Replica.appendEntriesIteration, hx, hne, hle]

theorem voteIteration_newer {s : Replica} (g : Bool)
    {x : Sample ι RequestVote} (hx : x.validData = true)
    (hterm : s.currentTerm < x.data.term.toUInt32) :
    voteIteration s g x =
      (recordVote (s.becomeFollower x.data.term.toUInt32) x, true,
        [requestVoteReplyMessage
          (recordVote (s.becomeFollower x.data.term.toUInt32) x) true]) := by
  simp [voteIteration, observeVoteTerm, grantsVote, recordVote,
    Replica.becomeFollower, hx, hterm]

theorem voteIteration_grant {s : Replica} (g : Bool)
    {x : Sample ι RequestVote} (hx : x.validData = true)
    (hterm : x.data.term.toUInt32 = s.currentTerm)
    (hvote : s.votedFor = votedNone ∨
      s.votedFor = uint8OfLong x.data.senderID) :
    voteIteration s g x =
      (recordVote s x, true,
        [requestVoteReplyMessage (recordVote s x) true]) := by
  simp [voteIteration, observeVoteTerm, grantsVote, recordVote, hx, hterm,
    hvote]

theorem voteIteration_refuse {s : Replica} (g : Bool)
    {x : Sample ι RequestVote} (hx : x.validData = true)
    (hterm : x.data.term.toUInt32 ≤ s.currentTerm)
    (hvote : ¬ grantsVote s x.data.term.toUInt32
      (uint8OfLong x.data.senderID)) :
    voteIteration s g x = (s, g, [requestVoteReplyMessage s g]) := by
  have hle : ¬ s.currentTerm < x.data.term.toUInt32 := by grind
  simp [voteIteration, observeVoteTerm, hx, hle, hvote]

theorem react_cases {N : Nat} {s s' : Replica} {e : Event ι}
    {out : List Publication} (h : react N s e = some (s', out)) :
    React N s e s' out := by
  cases e with
  | quiet => cases h; exact .quiet
  | start => cases h; exact .start
  | build heap => cases h; exact .build heap
  | write m => cases h; exact .write m
  | input batch => cases h; exact .input batch
  | append x =>
      cases h
      cases hx : x.validData with
      | false =>
          simpa [Replica.appendEntriesIteration, hx] using
            React.appendInvalid x hx
      | true =>
          rcases compareTerms s.currentTerm x.data.term.toUInt32 with
            hterm | hterm | hterm
          · rw [appendEntriesIteration_newer hx hterm]
            exact .appendNewer x hx hterm
          · by_cases hrole : s.role = .follower
            · rw [appendEntriesIteration_current hx hterm hrole]
              exact .appendCurrent x hx hterm hrole
            · rw [appendEntriesIteration_stepDown hx hterm hrole]
              exact .appendStepDown x hx hterm hrole
          · rw [appendEntriesIteration_stale hx hterm]
            exact .appendStale x hx hterm
  | election f x =>
      cases h
      rw [electionIteration_replica]
      cases hx : x.validData with
      | false =>
          simpa [Replica.appendEntriesIteration, hx] using
            React.electionInvalid f x hx
      | true =>
          rcases compareTerms s.currentTerm x.data.term.toUInt32 with
            hterm | hterm | hterm
          · rw [appendEntriesIteration_newer hx hterm]
            exact .electionNewer f x hx hterm
          · by_cases hrole : s.role = .follower
            · rw [appendEntriesIteration_current hx hterm hrole]
              exact .electionCurrent f x hx hterm hrole
            · rw [appendEntriesIteration_stepDown hx hterm hrole]
              exact .electionStepDown f x hx hterm hrole
          · rw [appendEntriesIteration_stale hx hterm]
            exact .electionStale f x hx hterm
  | vote g x =>
      cases h
      cases hx : x.validData with
      | false =>
          simpa [voteIteration, hx] using React.voteInvalid g x hx
      | true =>
          by_cases hterm : s.currentTerm < x.data.term.toUInt32
          · rw [voteIteration_newer g hx hterm]
            exact .voteNewer g x hx hterm
          · by_cases hvote : grantsVote s x.data.term.toUInt32
              (uint8OfLong x.data.senderID)
            · rw [voteIteration_grant g hx hvote.1 hvote.2]
              exact .voteGrant g x hx hvote.1 hvote.2
            · have hle := UInt32.not_lt.mp hterm
              rw [voteIteration_refuse g hx hle hvote]
              exact .voteRefuse g x hx hle hvote
  | reply x =>
      obtain ⟨r, hr, heq⟩ := Option.map_eq_some_iff.mp h
      cases heq
      simp only [voteReplyIteration] at hr
      split at hr
      case isFalse hx =>
        cases hr
        exact .replyInvalid x (by simpa using hx)
      case isTrue hx =>
        split at hr
        case isTrue hrole => cases hr; exact .replyIdle x hx hrole
        case isFalse hrole =>
          obtain ⟨electionTerm, helection, heq⟩ :=
            Option.map_eq_some_iff.mp hr
          have hcandidate : s.role = .candidate := not_not.mp hrole
          split at heq
          case isTrue hterm =>
            cases heq
            exact .replyNewer x electionTerm hx hcandidate helection hterm
          case isFalse hterm =>
            split at heq
            case isFalse hcount =>
              cases heq
              exact .replyIgnored x electionTerm hx hcandidate helection
                (UInt32.not_lt.mp hterm) hcount
            case isTrue hcount =>
              simp only [countVote] at heq
              split at heq <;> cases heq
              · rename_i hmost
                exact .replyWon x electionTerm hx hcandidate helection hcount
                  hmost
              · rename_i hfew
                exact .replyCounted x electionTerm hx hcandidate helection
                  hcount (Nat.not_lt.mp hfew)

/-- What an election win is: the step of a candidate that counts a vote past
half of the replicas. -/
structure Won (N : Nat) (s s' : Replica) (x : Sample ι RequestVoteReply)
    (electionTerm : UInt32) : Prop where
  valid : x.validData = true
  role : s.role = .candidate
  election : s.electionTerm = some electionTerm
  counts : countsVote s electionTerm x.data
  majority : N < (s.votesReceived + 1).toNat * 2
  leader : s' =
    Replica.becomeLeader { s with votesReceived := s.votesReceived + 1 }

/-- Only an election win makes a leader. -/
theorem React.won {N : Nat} {s s' : Replica} {e : Event ι}
    {out : List Publication} (h : React N s e s' out)
    (hbefore : s.role ≠ .leader) (hafter : s'.role = .leader) :
    ∃ x electionTerm, e = .reply x ∧ Won N s s' x electionTerm := by
  cases h with
  | start | appendNewer | appendStepDown | electionNewer | electionStepDown
  | voteNewer | replyNewer => simp at hafter
  | voteGrant | input => exact absurd (by simpa using hafter) hbefore
  | replyCounted => exact absurd hafter hbefore
  | replyWon x t hx hrole helection hcount hmost =>
      exact ⟨x, t, rfl, hx, hrole, helection, hcount, hmost, rfl⟩
  | _ => exact absurd hafter hbefore

/-! ## What an event publishes -/

/-- The messages an event can write, in terms of the replica before and after
it. -/
inductive Published (s s' : Replica) : Event ι → Publication → Prop where
  | requestVote (hvote : s'.votedFor = s'.ID) :
      Published s s' .start ⟨.requestVote, requestVoteMessage s'⟩
  | appendReply (x : Sample ι AppendEntries) (success : Bool) :
      Published s s' (.append x) (appendReply s' success)
  | voteGranted (g : Bool) (x : Sample ι RequestVote)
      (hx : x.validData = true)
      (hterm : s'.currentTerm = x.data.term.toUInt32)
      (hvote : s'.votedFor = uint8OfLong x.data.senderID) :
      Published s s' (.vote g x) (voteReply s' true)
  | voteRefused (g : Bool) (x : Sample ι RequestVote)
      (hx : x.validData = true)
      (hterm : x.data.term.toUInt32 ≤ s.currentTerm)
      (hvote : ¬ grantsVote s x.data.term.toUInt32
        (uint8OfLong x.data.senderID))
      (hsame : s' = s) :
      Published s s' (.vote g x) (voteReply s' g)
  | heartbeat (m : AppendEntries) :
      Published s s' (.write m) ⟨.appendEntries, m⟩

theorem published_cases {N : Nat} {s s' : Replica} {e : Event ι}
    {out : List Publication} (h : React N s e s' out) {p : Publication}
    (hp : p ∈ out) : Published s s' e p := by
  cases h with
  | start => rw [List.mem_singleton.mp hp]; exact .requestVote rfl
  | appendNewer x | appendStepDown x | appendCurrent x | appendStale x =>
      rw [List.mem_singleton.mp hp]
      exact .appendReply x _
  | voteNewer g x hx =>
      rw [List.mem_singleton.mp hp]
      exact .voteGranted g x hx rfl rfl
  | voteGrant g x hx hterm =>
      rw [List.mem_singleton.mp hp]
      exact .voteGranted g x hx hterm.symm rfl
  | voteRefuse g x hx hterm hvote =>
      rw [List.mem_singleton.mp hp]
      exact .voteRefused g x hx hterm hvote rfl
  | write m => rw [List.mem_singleton.mp hp]; exact .heartbeat m
  | _ => cases hp

/-- An event publishes at most one message. -/
theorem output_singleton {N : Nat} {s s' : Replica} {e : Event ι}
    {out : List Publication} (h : React N s e s' out) {p : Publication}
    (hp : p ∈ out) : out = [p] := by
  cases h <;> first
    | rw [List.mem_singleton.mp hp]
    | cases hp

end RevPiRaft.Ports.Reactions
