import RevPiRaft.Ports.SenderIdentity

/-!
# The replica 0 is deaf to heartbeats

`send_heartbeat` leaves `commitIndex`, which is always 0, in the field
`senderID` of its message.  So a heartbeat with data wakes exactly the replicas
with another identifier than 0 (`heartbeat_wakes_iff`).  At the replica 0 no
reader condition ever holds: its election thread never leaves its two waits,
and no heartbeat, however new its term, makes it step down
(`replicaZero_deaf`).  `run_ansible.sh` does start a replica 0.
-/

namespace RevPiRaft.Ports.DeafReplica

open RevPiRaft.Ports.Datamodel
open RevPiRaft.Ports.ConsensusManager
open RevPiRaft.Ports.Process
open RevPiRaft.Ports.StepInversion
open RevPiRaft.Ports.Events
open RevPiRaft.Ports.Pending
open RevPiRaft.Ports.Cluster
open RevPiRaft.Ports.History
open RevPiRaft.Ports.TermMonotone
open RevPiRaft.Ports.SenderIdentity
open Execution

variable {ι : Type}

/-! ## Samples without data -/

/-- All heartbeats offered to the reader have data. -/
def AllData (n : Node ι) : Prop :=
  ∀ x ∈ (n.reader .appendEntries).inflight ++ n.unread .appendEntries,
    x.validData = true

theorem AllData.update {n : Node ι} (h : AllData n) {t : Topic}
    {reader : Reader ι t.Msg}
    (hmem : ∀ x ∈ reader.inflight ++ reader.unread,
      x ∈ (n.reader t).inflight ++ (n.reader t).unread ∨ x.validData = true) :
    AllData { n with reader := Function.update n.reader t reader } := by
  intro x hx
  by_cases ht : t = .appendEntries
  · subst ht
    simp only [Node.unread, Function.update_self] at hx
    exact (hmem x hx).elim (h x) id
  · simp only [Node.unread, Function.update_of_ne (Ne.symm ht)] at hx
    exact h x hx

/-- Only a sample without data that arrives changes this. -/
theorem AllData.step {N : Nat} {n n' : Node ι} {a : Action ι}
    {out : List Publication} (h : AllData n) (hstep : Step N n a n' out)
    (hdata : ∀ x, a ≠ .dispose .appendEntries x) : AllData n' := by
  cases hstep with
  | deliver t k x hx =>
      refine h.update fun y hy => .inl ?_
      have hxmem := List.mem_of_getElem? hx
      simp only [List.mem_append, List.mem_singleton] at hy ⊢
      rcases hy with hy | hy | rfl
      · exact .inl (List.mem_of_mem_eraseIdx hy)
      · exact .inr hy
      · exact .inl hxmem
  | dispose t x hx =>
      intro y hy
      by_cases ht : t = .appendEntries
      · subst ht
        exact absurd rfl (hdata x)
      · simp only [Node.unread, Function.update_of_ne (Ne.symm ht)] at hy
        exact h y hy
  | appendWake | electionTake | voteEnter | replyEnter | heartbeatReplies =>
      refine h.update fun y hy => .inl (List.mem_append_left _ ?_)
      simpa using hy
  | _ => exact h

theorem AllData.offer {n : Node ι} (h : AllData n) (r : ι) (p : Publication) :
    AllData (n.offer r p) := by
  refine h.update fun x hx => ?_
  simp only [List.mem_append, List.mem_singleton] at hx ⊢
  rcases hx with (hx | rfl) | hx
  · exact .inl (.inl hx)
  · exact .inr rfl
  · exact .inl (.inr hx)

/-! ## A thread at its waits -/

/-- A thread at one of its two waits, which only a triggered condition ends
otherwise than by a timeout. -/
def AtWait (thread : ElectionThread ι) : Prop :=
  thread = .appendWait ∨ thread = .electionWait

theorem atWait_step {N : Nat} {n n' : Node ι} {a : Action ι}
    {out : List Publication} (h : AtWait n.electionThread)
    (hdeaf : n.triggered .appendEntries = false) (hstep : Step N n a n' out) :
    AtWait n'.electionThread := by
  cases hstep with
  | appendWake _ hwake | electionWake _ hwake =>
      rw [hdeaf] at hwake
      cases hwake
  | appendStep x b hthread | electionTake k f hthread
  | electionSkip k f hthread | electionStep k f x b hthread
  | electionRestart hthread =>
      rcases h with h | h <;> rw [hthread] at h <;> cases h
  | electionTimeout => exact .inr rfl
  | electionWaitTimeout => exact .inl rfl
  | _ => exact h

/-- At a wait the thread handles no heartbeat, and an election it starts is
not that of a leader. -/
theorem atWait_event {N : Nat} {n n' : Node ι} {a : Action ι}
    {out : List Publication} (h : AtWait n.electionThread)
    (hstep : Step N n a n' out) :
    handled (event n a) .appendEntries = [] ∧
      (event n a = .start → n.replica.role ≠ .leader) := by
  cases hstep with
  | appendStep x b hthread | electionStep k f x b hthread
  | electionRestart hthread =>
      rcases h with h | h <;> rw [hthread] at h <;> cases h
  | leaderTimeout hthread hfree hrole => simp [event, handled, hrole]
  | electionTimeout hthread hfree hrole => simp [event, handled, hrole]
  | _ => simp [event, handled, *]

/-! ## Runs -/

variable [DecidableEq ι] {cfg : Config ι} {run : Execution cfg}

/-- Every heartbeat of a run names the replica 0. -/
theorem heartbeat_senderID {i : Nat} {r : ι} {m : AppendEntries}
    (hp : run.Publishes i r ⟨.appendEntries, m⟩) : m.senderID = 0 := by
  obtain ⟨j, hj, hcomposed, -⟩ := published_composed hp
  have hsender := hcomposed.senderID
  rw [senderField, commitIndex_eq hj] at hsender
  exact hsender

/-- A pending heartbeat wakes exactly the replicas that are not the replica
0. -/
theorem heartbeat_wakes_iff {i : Nat} (hi : i ≤ run.length) {r : ι}
    {x : Sample ι AppendEntries} (hx : x ∈ run.pending i r .appendEntries) :
    queryCondition (cfg.ID r) .appendEntries x = true ↔ cfg.ID r ≠ 0 := by
  obtain ⟨j, -, hp⟩ := mem_pending hi hx
  have hvalid : x.validData = true := (List.mem_filter.mp hx).2
  have hsender : x.data.senderID = longOfUInt8 0 := heartbeat_senderID hp
  simp only [queryCondition, hvalid, Bool.not_true, Bool.false_or,
    senderQuery_idString]
  show x.data.senderID ≠ longOfUInt8 (cfg.ID r) ↔ _
  rw [hsender]
  exact not_congr
    ⟨fun heq => (longOfUInt8_inj heq).symm, fun heq => by rw [heq]⟩

variable {r : ι}

/-- As long as no sample without data arrives, all heartbeats have data. -/
theorem allData (hdata : ∀ x, (r, .dispose .appendEntries x) ∉ run.labels) :
    ∀ i, i ≤ run.length → AllData (run.node i r) := by
  refine node_invariant r ?_ (fun i a n hlabel hstep h => ?_)
    (fun r' n p h => h.offer r' p)
  · intro x hx
    cases hx
  · refine h.step (step_cases hstep) fun x ha => ?_
    rw [ha] at hlabel
    exact hdata x (List.mem_of_getElem? hlabel)

/-- No unread heartbeat wakes the replica 0. -/
theorem not_triggered (hID : cfg.ID r = 0)
    (hdata : ∀ x, (r, .dispose .appendEntries x) ∉ run.labels) {i : Nat}
    (hi : i ≤ run.length) :
    (run.node i r).triggered .appendEntries = false := by
  rw [Node.triggered, List.any_eq_false]
  intro x hx
  have hvalid := allData hdata i hi x (List.mem_append_right _ hx)
  have hpending : x ∈ run.pending i r .appendEntries :=
    List.mem_filter.mpr ⟨List.mem_append_left _ (List.mem_append_right _ hx),
      hvalid⟩
  show ¬ queryCondition (run.replica i r).ID .appendEntries x = true
  rw [ID_eq hi r, heartbeat_wakes_iff hi hpending]
  exact not_not_intro hID

theorem atWait (hID : cfg.ID r = 0)
    (hdata : ∀ x, (r, .dispose .appendEntries x) ∉ run.labels) :
    ∀ i, i ≤ run.length → AtWait (run.node i r).electionThread := by
  refine node_invariant (P := fun n => AtWait n.electionThread) r (.inl rfl)
    (fun i a n hlabel hstep h => ?_) (fun _ _ _ h => h)
  have hi := (List.getElem?_eq_some_iff.mp hlabel).1
  exact atWait_step h (not_triggered hID hdata (Nat.le_of_lt hi))
    (step_cases hstep)

/-- In every run in which no sample without data arrives at the `AppendEntries`
reader of the replica 0, its wait condition never holds, its election thread
stays at its waits and handles no heartbeat; and as a leader it steps down for
requests for votes only. -/
theorem replicaZero_deaf (run : Execution cfg) {r : ι} (hID : cfg.ID r = 0)
    (hdata : ∀ x, (r, .dispose .appendEntries x) ∉ run.labels) :
    (∀ i, i ≤ run.length →
      (run.node i r).triggered .appendEntries = false ∧
      AtWait (run.node i r).electionThread) ∧
    (∀ i e, run.Occurs i r e → handled e .appendEntries = []) ∧
    ∀ i e, run.Occurs i r e → (run.replica i r).role = .leader →
      (run.replica (i + 1) r).role ≠ .leader → ∃ g x, e = .vote g x := by
  have hevent : ∀ i e, run.Occurs i r e →
      handled e .appendEntries = [] ∧
        (e = .start → (run.replica i r).role ≠ .leader) := by
    intro i e he
    obtain ⟨a, hlabel, rfl⟩ := id he
    obtain ⟨n, hstep, -⟩ := step_node hlabel
    exact atWait_event (atWait hID hdata i (Nat.le_of_lt he.lt))
      (step_cases hstep)
  refine ⟨fun i hi => ⟨not_triggered hID hdata hi, atWait hID hdata i hi⟩,
    fun i e he => (hevent i e he).1, fun i e he hleader hlost => ?_⟩
  obtain ⟨hnone, hstart⟩ := hevent i e he
  rcases React.ceases he.react hleader hlost with rfl | hvote | ⟨x, hx, -⟩
  · exact absurd hleader (hstart rfl)
  · exact hvote
  · rw [hnone] at hx
    cases hx

/-- Replica 0 leads term 1, replica 1 leads term 2, and its heartbeat arrives at
replica 0. -/
def deafLeader : Execution threeReplicas where
  labels := [(0, .electionTimeout), (2, .deliver .requestVote 0)] ++
    handleRequests 2 1 ++ [(0, .deliver .requestVoteReply 0)] ++
    handleReplies 0 1 ++ replica1Candidate ++
    [(2, .deliver .requestVote 1)] ++ handleRequests 2 1 ++
    [(1, .deliver .requestVoteReply 1)] ++ handleReplies 1 1 ++
    [(1, .alarm), (1, .heartbeatBuild fun _ => ⟨0, 0⟩),
      (1, .heartbeatWrite 0), (0, .deliver .appendEntries 0)]
  executes := by decide +kernel

/-- Replica 0 goes on leading with the heartbeat of the newer term unread. -/
theorem replicaZero_deaf_deafLeader :
    (deafLeader.node 24 0).triggered .appendEntries = false ∧
      ((deafLeader.node 24 0).unread .appendEntries).length = 1 ∧
      (deafLeader.replica 24 0).role = .leader ∧
      (deafLeader.replica 24 0).currentTerm = 1 ∧
      (deafLeader.replica 24 1).currentTerm = 2 := by
  have hdeaf := replicaZero_deaf deafLeader (r := 0) rfl (fun x hx => by
    simp [deafLeader, handleRequests, handleReplies, replica1Candidate] at hx)
  exact ⟨(hdeaf.1 24 (by decide)).1, by decide +kernel⟩

end RevPiRaft.Ports.DeafReplica
