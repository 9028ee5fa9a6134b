import RevPiRaft.Verified.Runs
import RevPiRaft.Ports.Cluster
import RevPiRaft.Ports.Reactions

/-!
# The DDS entities of `DDSConsensusManager.c`

`DDSSetupConsensus` binds the messages to their topics by assigning global
handles in four functions of one shape.  `createAppendEntriesReplyTopic`
assigns its writer to `appendEntries_DataWriter`, so heartbeats go to a writer
of another type and replies to a null handle.  Both writes return an error, on
which `checkStatus` exits the process.
-/

namespace RevPiRaft.Ports.Entities

open RevPiRaft.Verified.Runs
open RevPiRaft.Ports.Datamodel
open RevPiRaft.Ports.ReplicaCore
open RevPiRaft.Ports.Process
open RevPiRaft.Ports.StepInversion
open RevPiRaft.Ports.Events
open RevPiRaft.Ports.Reactions
open RevPiRaft.Ports.Cluster

/-! ## Set-up -/

/-- The global handles, each family indexed by the first part of its names.  A
topic, writer or reader handle is the topic it was created for, if any. -/
structure Handles where
  topic : Topic → Option Topic
  publisher : Topic → Bool
  subscriber : Topic → Bool
  dataWriter : Topic → Option Topic
  dataReader : Topic → Option Topic

/-- Every global handle starts as null. -/
def Handles.null : Handles where
  topic := fun _ => none
  publisher := fun _ => false
  subscriber := fun _ => false
  dataWriter := fun _ => none
  dataReader := fun _ => none

/-- One set-up function: it creates the topic, the subscriber and the publisher
of `name`, asks `qosPublisher` for the default settings of a writer, and
assigns the new writer to the handle `dataWriter`.  A null publisher is an
error, all other calls succeed. -/
def createMessageTopic (name qosPublisher dataWriter : Topic) (h : Handles) :
    Option Handles :=
  let h := { h with
    topic := Function.update h.topic name (some name)
    subscriber := Function.update h.subscriber name true
    publisher := Function.update h.publisher name true }
  if h.publisher qosPublisher then
    some { h with
      dataWriter := Function.update h.dataWriter dataWriter (h.topic name)
      dataReader := Function.update h.dataReader name (h.topic name) }
  else none

def createAppendEntriesTopic : Handles → Option Handles :=
  createMessageTopic .appendEntries .appendEntries .appendEntries

/-- The writer goes to `appendEntries_DataWriter`. -/
def createAppendEntriesReplyTopic : Handles → Option Handles :=
  createMessageTopic .appendEntriesReply .appendEntriesReply .appendEntries

def createRequestVoteTopic : Handles → Option Handles :=
  createMessageTopic .requestVote .requestVote .requestVote

/-- The default settings come from `requestVote_Publisher`. -/
def createRequestVoteReplyTopic : Handles → Option Handles :=
  createMessageTopic .requestVoteReply .requestVote .requestVoteReply

/-- `DDSSetupConsensus`. -/
def DDSSetupConsensus (h : Handles) : Option Handles :=
  (createAppendEntriesTopic h).bind fun h =>
    (createAppendEntriesReplyTopic h).bind fun h =>
      (createRequestVoteTopic h).bind createRequestVoteReplyTopic

theorem setup_succeeds : (DDSSetupConsensus .null).isSome = true := by
  decide

/-- The handles of a replica whose set-up succeeded. -/
def consensusHandles : Handles :=
  (DDSSetupConsensus .null).get setup_succeeds

/-- Every reader handle is a reader of the topic it is named after. -/
theorem consensusHandles_dataReader (t : Topic) :
    consensusHandles.dataReader t = some t := by
  cases t <;> decide

/-- Two of the writer handles are writers of the topic they are named after. -/
theorem consensusHandles_dataWriter (t : Topic) :
    consensusHandles.dataWriter t = some t ↔
      t = .requestVote ∨ t = .requestVoteReply := by
  cases t <;> decide

/-! ## Processes with handles -/

/-- The write of a message through the handle named after its type succeeds. -/
def Handles.writes (h : Handles) (p : Publication) : Bool :=
  h.dataWriter p.topic = some p.topic

/-- Messages written up to the first error, and whether there was one. -/
def writeAll (h : Handles) : List Publication → List Publication × Bool
  | [] => ([], false)
  | p :: rest =>
      if h.writes p then (p :: (writeAll h rest).1, (writeAll h rest).2)
      else ([], true)

/-- One replica process with its handles; `exited` says that `checkStatus` has
ended it. -/
structure Site (ι : Type) where
  node : Node ι
  handles : Handles
  exited : Bool

variable {ι : Type}

def Site.start (ID : UInt8) : Site ι where
  node := Node.start ID
  handles := consensusHandles
  exited := false

/-- A sample on the topic of `p` comes to the reader of that topic. -/
def Site.receive (r : ι) (s : Site ι) (p : Publication) : Site ι :=
  if s.handles.dataReader p.topic = some p.topic then
    { s with node := s.node.offer r p }
  else s

variable [DecidableEq ι]

/-- One action of a replica that has not exited. -/
def siteStep (cfg : Config ι) (w : ι → Site ι) (a : ι × Action ι) :
    Option ((ι → Site ι) × List Publication) :=
  if (w a.1).exited then none
  else
    ((w a.1).node.step cfg.activeReplicas a.2).map fun result =>
      let written := writeAll (w a.1).handles result.2
      (fun h => written.1.foldl (Site.receive a.1)
        (if h = a.1 then
          { w h with
            node := result.1
            exited := written.2 }
        else w h), written.1)

/-- The cluster whose messages go through the handles. -/
def deployment (cfg : Config ι) :
    Lts (ι → Site ι) (ι × Action ι) Publication where
  init := fun h => Site.start (cfg.ID h)
  step := siteStep cfg

/-! ## One step -/

theorem writeAll_singleton (h : Handles) (p : Publication) :
    writeAll h [p] = if h.writes p then ([p], false) else ([], true) := by
  simp [writeAll]

/-- Without an error everything is written. -/
theorem writeAll_complete {h : Handles} {out : List Publication}
    (hok : (writeAll h out).2 = false) : (writeAll h out).1 = out := by
  induction out with
  | nil => rfl
  | cons p out ih =>
      unfold writeAll at hok ⊢
      split at hok
      · rename_i hwrites
        rw [if_pos hwrites, ih hok]
      · cases hok

omit [DecidableEq ι] in
/-- Samples reach the reader of their topic and change nothing else. -/
theorem receiveAll_eq (r : ι) {s : Site ι} (hs : s.handles = consensusHandles)
    (out : List Publication) :
    out.foldl (Site.receive r) s =
      { s with node := out.foldl (Node.offer r) s.node } := by
  induction out generalizing s with
  | nil => rfl
  | cons p out ih =>
      have hfirst : s.receive r p = { s with node := s.node.offer r p } := by
        rw [Site.receive, hs, if_pos (consensusHandles_dataReader p.topic)]
      rw [List.foldl_cons, List.foldl_cons, hfirst]
      exact ih hs

/-- A step of a replica, in terms of its process. -/
theorem siteStep_cases {cfg : Config ι} {w w' : ι → Site ι} {r : ι}
    {a : Action ι} {out : List Publication}
    (hw : ∀ r, (w r).handles = consensusHandles)
    (h : siteStep cfg w (r, a) = some (w', out)) :
    ∃ n written, (w r).node.step cfg.activeReplicas a = some (n, written) ∧
      out = (writeAll consensusHandles written).1 ∧
      ∀ h, w' h =
        { node := out.foldl (Node.offer r) (if h = r then n else (w h).node)
          handles := consensusHandles
          exited :=
            if h = r then (writeAll consensusHandles written).2
            else (w h).exited } := by
  unfold siteStep at h
  split at h
  · cases h
  · obtain ⟨result, hstep, heq⟩ := Option.map_eq_some_iff.mp h
    cases heq
    refine ⟨result.1, result.2, hstep, by rw [hw], ?_⟩
    intro q
    rw [← hw r]
    by_cases hq : q = r
    · simp only [if_pos hq]
      apply (receiveAll_eq r _ _).trans
      · rw [hw q, hw r]
      · exact hw q
    · simp only [if_neg hq]
      apply (receiveAll_eq r (hw q) _).trans
      rw [hw q, hw r]

/-- While every write succeeds, the processes are those of the cluster. -/
theorem siteStep_cluster {cfg : Config ι} {w w' : ι → Site ι} {r : ι}
    {a : Action ι} {out : List Publication}
    (hw : ∀ r, (w r).handles = consensusHandles)
    (h : siteStep cfg w (r, a) = some (w', out))
    (hexited : (w' r).exited = false) :
    World.step cfg ⟨fun h => (w h).node⟩ (r, a) =
      some (⟨fun h => (w' h).node⟩, out) := by
  obtain ⟨n, written, hstep, hout, hw'⟩ := siteStep_cases hw h
  have hok : (writeAll consensusHandles written).2 = false := by
    rw [hw' r] at hexited
    simpa using hexited
  have hall := hout.trans (writeAll_complete hok)
  show Option.map _ ((w r).node.step cfg.activeReplicas a) = _
  rw [hstep, Option.map_some]
  subst hall
  congr 3
  funext h
  rw [hw' h]

/-! ## Runs -/

/-- Runs of the cluster whose messages go through the handles. -/
abbrev Deployment (cfg : Config ι) := Run (deployment cfg)

namespace Deployment

variable {cfg : Config ι} (run : Deployment cfg)

/-- Replica `r` after `i` steps. -/
def site (i : Nat) (r : ι) : Site ι := run.state i r

/-- In step `i` replica `r` calls the write function for `p`. -/
def Attempts (i : Nat) (r : ι) (p : Publication) : Prop :=
  ∃ a n out, run.labels[i]? = some (r, a) ∧
    (run.site i r).node.step cfg.activeReplicas a = some (n, out) ∧ p ∈ out

/-- The write succeeds, and the sample is offered to the reader of its topic at
every other replica. -/
structure Reaches (i : Nat) (r : ι) (p : Publication) : Prop where
  written : p ∈ run.output i
  running : (run.site (i + 1) r).exited = false
  offered : ∀ h, h ≠ r →
    (run.site (i + 1) h).handles.dataReader p.topic = some p.topic ∧
      { validData := true
        publicationHandle := r
        data := p.data } ∈
        ((run.site (i + 1) h).node.reader p.topic).inflight

variable {run}

theorem handles_eq {i : Nat} (hi : i ≤ run.length) (r : ι) :
    (run.site i r).handles = consensusHandles := by
  revert r
  apply run.induction (P := fun i =>
    ∀ r, (run.site i r).handles = consensusHandles) _ _ i hi
  · intro r
    rw [site, Run.state_zero]
    rfl
  · intro i hi hnext ih r
    obtain ⟨n, written, -, -, hw'⟩ := siteStep_cases ih hnext
    exact congrArg Site.handles (hw' r)

omit [DecidableEq ι] in
theorem offer_inflight (r : ι) (n : Node ι) (p : Publication) :
    { validData := true
      publicationHandle := r
      data := p.data } ∈ ((n.offer r p).reader p.topic).inflight := by
  simp [Node.offer]

/-- Exactly the requests for votes and the replies to them reach the topic of
their type; for a heartbeat or a reply to one the process exits instead. -/
theorem reaches_iff (run : Deployment cfg) {i : Nat} {r : ι} {p : Publication}
    (h : run.Attempts i r p) :
    run.Reaches i r p ↔
      p.topic = .requestVote ∨ p.topic = .requestVoteReply := by
  obtain ⟨a, n, out, hlabel, hstep, hp⟩ := h
  obtain ⟨hi, hget⟩ := List.getElem?_eq_some_iff.mp hlabel
  have hnext := run.next i hi
  rw [show run.label i hi = (r, a) from hget] at hnext
  obtain ⟨n', written, hstep', hout, hw'⟩ := siteStep_cases
    (fun r => handles_eq (Nat.le_of_lt hi) r) hnext
  cases hstep'.symm.trans hstep
  have hone := output_singleton (react_cases (step_react hstep)) hp
  rw [hone, writeAll_singleton] at hout
  rw [hone, writeAll_singleton] at hw'
  rw [← consensusHandles_dataWriter]
  constructor
  · intro hreaches
    have hwritten := hreaches.written
    rw [hout] at hwritten
    split at hwritten
    · rename_i hwrites
      simpa [Handles.writes] using hwrites
    · cases hwritten
  · intro hwriter
    have hwrites : consensusHandles.writes p = true := by
      simpa [Handles.writes] using hwriter
    rw [if_pos hwrites] at hout
    constructor
    · rw [hout]
      exact List.mem_singleton_self p
    · show (run.state (i + 1) r).exited = false
      rw [hw' r, if_pos hwrites]
      exact if_pos rfl
    · intro h hne
      show (run.state (i + 1) h).handles.dataReader p.topic = some p.topic ∧
        _ ∈ ((run.state (i + 1) h).node.reader p.topic).inflight
      rw [hw' h, hout]
      exact ⟨consensusHandles_dataReader p.topic, offer_inflight r _ p⟩

end Deployment

/-- A win of replica 2 and its first heartbeat, written through the handles. -/
def firstHeartbeat : Deployment threeReplicas where
  labels := electReplica2 ++
    [(2, .alarm), (2, .heartbeatBuild fun _ => ⟨0, 0⟩),
      (2, .heartbeatWrite 0)]
  executes := by decide +kernel

/-- Its request for votes reaches the other replicas. -/
theorem reaches_iff_firstRequest :
    firstHeartbeat.Reaches 0 2 ⟨.requestVote,
      { term := 1
        senderID := 2 }⟩ :=
  (Deployment.reaches_iff firstHeartbeat (i := 0) (r := 2)
    ⟨_, _, _, rfl, rfl, List.mem_singleton_self _⟩).mpr (.inl rfl)

/-- The heartbeat does not: `appendEntries_DataWriter` is a writer of
`AppendEntriesReply`, and the leader exits. -/
theorem firstHeartbeat_not_reaches :
    ¬ ∀ i r p, firstHeartbeat.Attempts i r p → firstHeartbeat.Reaches i r p := by
  intro h
  have hsome : ((firstHeartbeat.site 11 2).node.step 3
      (.heartbeatWrite 0)).isSome = true := by
    decide +kernel
  obtain ⟨⟨n, out⟩, hstep⟩ := Option.isSome_iff_exists.mp hsome
  cases step_cases hstep with
  | heartbeatWrite k m hm =>
      have hreaches := h 11 2 ⟨.appendEntries, m⟩
        ⟨_, _, _, rfl, hstep, List.mem_singleton_self _⟩
      have hnothing : firstHeartbeat.output 11 = [] := by
        decide +kernel
      have hwritten := hreaches.written
      rw [hnothing] at hwritten
      cases hwritten

end RevPiRaft.Ports.Entities
