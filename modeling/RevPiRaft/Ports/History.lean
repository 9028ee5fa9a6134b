import RevPiRaft.Ports.Cluster
import RevPiRaft.Ports.Pending
import RevPiRaft.Ports.Reactions

/-!
# Runs of the cluster and their history

A run fixes which replica acts in every step, the event it performs, what it
publishes and which samples are pending at every reader.  Here the step lemmas
of one node are lifted to runs: every step is one event of one replica, all
other replicas keep their state, and every pending sample was published in an
earlier step.
-/

namespace RevPiRaft.Ports.History

open RevPiRaft.Verified.Runs
open RevPiRaft.Ports.Datamodel
open RevPiRaft.Ports.ReplicaCore
open RevPiRaft.Ports.Process
open RevPiRaft.Ports.Events
open RevPiRaft.Ports.Reactions
open RevPiRaft.Ports.Pending
open RevPiRaft.Ports.Cluster

variable {ι : Type} [DecidableEq ι] {cfg : Config ι}

/-- Runs of the cluster from `initialize_replica`. -/
abbrev Execution (cfg : Config ι) := Run (system cfg)

omit [DecidableEq ι] in
/-- A replica ceases to lead when it starts an election, handles a request for
votes or handles a heartbeat with data. -/
theorem React.ceases {N : Nat} {s s' : Replica} {e : Event ι}
    {out : List Publication} (h : React N s e s' out)
    (hleader : s.role = .leader) (hlost : s'.role ≠ .leader) :
    e = .start ∨ (∃ g x, e = .vote g x) ∨
      ∃ x ∈ handled e .appendEntries, x.validData = true := by
  cases h with
  | start => exact .inl rfl
  | voteNewer g x | voteGrant g x => exact .inr (.inl ⟨g, x, rfl⟩)
  | appendNewer x hx | appendStepDown x hx | electionNewer f x hx
  | electionStepDown f x hx =>
      exact .inr (.inr ⟨x, List.mem_singleton_self x, hx⟩)
  | replyNewer x t hx hrole | replyCounted x t hx hrole
  | replyWon x t hx hrole =>
      rw [hrole] at hleader
      cases hleader
  | input batch => exact absurd (by simpa using hleader) hlost
  | _ => exact absurd hleader hlost

namespace Execution

variable (run : Execution cfg)

/-- Replica process `r` after `i` steps. -/
def node (i : Nat) (r : ι) : Node ι := (run.state i).node r

/-- State of replica `r` after `i` steps. -/
def replica (i : Nat) (r : ι) : Replica := (run.node i r).replica

/-- Step `i` is taken by replica `r` and performs the event `e`. -/
def Occurs (i : Nat) (r : ι) (e : Event ι) : Prop :=
  ∃ a, run.labels[i]? = some (r, a) ∧ event (run.node i r) a = e

/-- Replica `r` publishes `p` in step `i`. -/
def Publishes (i : Nat) (r : ι) (p : Publication) : Prop :=
  ∃ a, run.labels[i]? = some (r, a) ∧ p ∈ run.output i

/-- In step `i` replica `r` executes the role change of `become_leader` while
its `current_term` is `t`. -/
def BecomesLeader (i : Nat) (r : ι) (t : UInt32) : Prop :=
  i < run.length ∧ (run.replica i r).role ≠ .leader ∧
    (run.replica (i + 1) r).role = .leader ∧
    (run.replica i r).currentTerm = t

instance (i : Nat) (r : ι) (t : UInt32) :
    Decidable (run.BecomesLeader i r t) := by
  unfold BecomesLeader
  infer_instance

/-- Valid samples of topic `t` offered to `r` and not yet reached by a loop. -/
def pending (i : Nat) (r : ι) (t : Topic) : List (Sample ι t.Msg) :=
  valid (Pending.pending (run.node i r) t)

variable {run}

/-! ## One step of a run -/

theorem step_node {i : Nat} {r : ι} {a : Action ι}
    (hlabel : run.labels[i]? = some (r, a)) :
    ∃ n, (run.node i r).step cfg.activeReplicas a =
        some (n, run.output i) ∧
      ∀ h, run.node (i + 1) h = (run.output i).foldl (Node.offer r)
        (if h = r then n else run.node i h) := by
  obtain ⟨hi, hget⟩ := List.getElem?_eq_some_iff.mp hlabel
  have hnext := run.next i hi
  have hlabel : run.label i hi = (r, a) := hget
  rw [hlabel] at hnext
  obtain ⟨result, hstep, heq⟩ := Option.map_eq_some_iff.mp hnext
  have hout : result.2 = run.output i := congrArg Prod.snd heq
  refine ⟨result.1, ?_, fun h => ?_⟩
  · rw [← hout]
    exact hstep
  · rw [← hout]
    exact (congrArg (fun w => w.1.node h) heq).symm

/-- Every step is taken by some replica. -/
theorem exists_occurs {i : Nat} (hi : i < run.length) :
    ∃ r e, run.Occurs i r e :=
  ⟨(run.label i hi).1, _, (run.label i hi).2, List.getElem?_eq_getElem hi, rfl⟩

namespace Occurs

variable {i : Nat} {r : ι} {e : Event ι}

theorem lt (h : run.Occurs i r e) : i < run.length := by
  obtain ⟨a, hlabel, _⟩ := h
  exact (List.getElem?_eq_some_iff.mp hlabel).1

/-- A step has one actor and one event. -/
theorem unique (h : run.Occurs i r e) {r' : ι} {e' : Event ι}
    (h' : run.Occurs i r' e') : r' = r ∧ e' = e := by
  obtain ⟨a, hlabel, he⟩ := h
  obtain ⟨a', hlabel', he'⟩ := h'
  have heq : (r', a') = (r, a) :=
    Option.some.inj (hlabel'.symm.trans hlabel)
  cases heq
  exact ⟨rfl, he'.symm.trans he⟩

/-- The event changes the actor's replica and decides the publications. -/
theorem react (h : run.Occurs i r e) :
    React cfg.activeReplicas (run.replica i r) e (run.replica (i + 1) r)
      (run.output i) := by
  obtain ⟨a, hlabel, rfl⟩ := h
  obtain ⟨n, hstep, hnode⟩ := step_node hlabel
  have hreplica : run.replica (i + 1) r = n.replica := by
    rw [replica, hnode r, (offers_control _ _ _).1, if_pos rfl]
  rw [hreplica]
  exact react_cases (step_react hstep)

/-- No other replica changes. -/
theorem frame (h : run.Occurs i r e) {h' : ι} (hne : h' ≠ r) :
    run.replica (i + 1) h' = run.replica i h' := by
  obtain ⟨a, hlabel, -⟩ := h
  obtain ⟨n, -, hnode⟩ := step_node hlabel
  rw [replica, hnode h', (offers_control _ _ _).1, if_neg hne]
  rfl

theorem publishes_iff (h : run.Occurs i r e) {r' : ι} {p : Publication} :
    run.Publishes i r' p ↔ r' = r ∧ p ∈ run.output i := by
  obtain ⟨a, hlabel, -⟩ := h
  constructor
  · rintro ⟨a', hlabel', hp⟩
    have heq : (r', a') = (r, a) :=
      Option.some.inj (hlabel'.symm.trans hlabel)
    cases heq
    exact ⟨rfl, hp⟩
  · rintro ⟨rfl, hp⟩
    exact ⟨a, hlabel, hp⟩

theorem publishes (h : run.Occurs i r e) {p : Publication}
    (hp : p ∈ run.output i) : run.Publishes i r p :=
  h.publishes_iff.mpr ⟨rfl, hp⟩

/-- The handled sample leaves the pending ones; only the publications of the
step join them. -/
theorem pending (h : run.Occurs i r e) (h' : ι) (t : Topic) :
    ((if h' = r then valid (handled e t) else []) ++
        run.pending (i + 1) h' t).Subperm
      (run.pending i h' t ++ offered r t (run.output i)) := by
  obtain ⟨a, hlabel, rfl⟩ := h
  obtain ⟨n, hstep, hnode⟩ := step_node hlabel
  have hoffers := offers_pending r (if h' = r then n else run.node i h')
    (run.output i) t
  rw [← hnode h'] at hoffers
  refine (hoffers.append_left _).subperm.trans ?_
  rw [← List.append_assoc]
  refine List.Subperm.append ?_ (List.Subperm.refl _)
  by_cases hr : h' = r
  · subst hr
    rw [if_pos rfl, if_pos rfl, ← valid_append]
    exact step_pending hstep t
  · rw [if_neg hr, if_neg hr]
    exact List.Subperm.refl _

end Occurs

/-- What a replica publishes, it publishes in an event of its own. -/
theorem Publishes.occurs {i : Nat} {r : ι} {p : Publication}
    (h : run.Publishes i r p) : ∃ e, run.Occurs i r e ∧ p ∈ run.output i := by
  obtain ⟨a, hlabel, hp⟩ := h
  exact ⟨_, ⟨a, hlabel, rfl⟩, hp⟩

/-- A role change to leader is an election win. -/
theorem BecomesLeader.won {i : Nat} {r : ι} {t : UInt32}
    (h : run.BecomesLeader i r t) :
    ∃ x electionTerm, run.Occurs i r (.reply x) ∧
      Won cfg.activeReplicas (run.replica i r) (run.replica (i + 1) r) x
        electionTerm := by
  obtain ⟨hi, hbefore, hafter, -⟩ := h
  obtain ⟨r', e, he⟩ := exists_occurs hi
  by_cases hr : r = r'
  · subst hr
    obtain ⟨x, electionTerm, rfl, hwon⟩ := React.won he.react hbefore hafter
    exact ⟨x, electionTerm, he, hwon⟩
  · rw [he.frame hr] at hafter
    exact absurd hafter hbefore

/-! ## Induction along a run -/

theorem induction_on {P : Nat → Prop} (hstart : P 0)
    (hstep : ∀ i r e, run.Occurs i r e → P i → P (i + 1)) :
    ∀ i, i ≤ run.length → P i :=
  run.induction hstart fun i hi _ hP => by
    obtain ⟨r, e, he⟩ := exists_occurs hi
    exact hstep i r e he hP

/-- What holds after some steps and did not at the start has come about in a
step. -/
theorem origin {P Q : Nat → Prop} (hstart : ¬ P 0)
    (hstep : ∀ i r e, run.Occurs i r e → P (i + 1) → P i ∨ Q i) {i : Nat}
    (hi : i ≤ run.length) (h : P i) : ∃ j < i, Q j :=
  Run.origin run hstart (fun i hi hP => by
    obtain ⟨r, e, he⟩ := exists_occurs hi
    exact hstep i r e he hP) hi h

theorem node_zero (r : ι) : run.node 0 r = Node.start (cfg.ID r) := by
  rw [node, Run.state_zero]
  rfl

theorem replica_zero (r : ι) :
    run.replica 0 r = Replica.initializeReplica (cfg.ID r) := by
  rw [replica, node_zero]
  rfl

/-- A fact about one replica holds along a run when each of its own events
preserves it. -/
theorem replica_invariant (r : ι) {P : Replica → Prop}
    (hstart : P (Replica.initializeReplica (cfg.ID r)))
    (hstep : ∀ i e, run.Occurs i r e →
      React cfg.activeReplicas (run.replica i r) e (run.replica (i + 1) r)
        (run.output i) →
      P (run.replica i r) → P (run.replica (i + 1) r)) :
    ∀ i, i ≤ run.length → P (run.replica i r) := by
  refine induction_on ?_ fun i r' e he hP => ?_
  · rw [replica_zero]
    exact hstart
  · by_cases hr : r = r'
    · subst hr
      exact hstep i e he he.react hP
    · rw [he.frame hr]
      exact hP

/-- The same for facts about the whole process. -/
theorem node_invariant (r : ι) {P : Node ι → Prop}
    (hstart : P (Node.start (cfg.ID r)))
    (hstep : ∀ i a n, run.labels[i]? = some (r, a) →
      (run.node i r).step cfg.activeReplicas a = some (n, run.output i) →
      P (run.node i r) → P n)
    (hoffer : ∀ r' n p, P n → P (n.offer r' p)) :
    ∀ i, i ≤ run.length → P (run.node i r) := by
  refine induction_on ?_ fun i r' e he hP => ?_
  · rw [node_zero]
    exact hstart
  · obtain ⟨a, hlabel, -⟩ := he
    obtain ⟨n, hn, hnode⟩ := step_node hlabel
    have hbase : P (if r = r' then n else run.node i r) := by
      split
      · rename_i hr
        subst hr
        exact hstep _ _ _ hlabel hn hP
      · exact hP
    rw [hnode r]
    generalize run.output i = out
    generalize (if r = r' then n else run.node i r) = m at hbase
    clear hn hnode
    induction out generalizing m with
    | nil => exact hbase
    | cons p out ih => exact ih _ (hoffer r' m p hbase)

/-! ## Where samples come from -/

/-- Every pending sample was published in an earlier step by the replica its
handle names. -/
theorem mem_pending {i : Nat} (hi : i ≤ run.length) {r : ι} {t : Topic}
    {x : Sample ι t.Msg} (hx : x ∈ run.pending i r t) :
    ∃ j < i, run.Publishes j x.publicationHandle ⟨t, x.data⟩ := by
  refine origin (P := fun i => x ∈ run.pending i r t) ?_
    (fun i r' e he hx => ?_) hi hx
  · intro hx
    rw [Execution.pending, node_zero] at hx
    cases t <;> cases hx
  · have hmem := (he.pending r t).subset (List.mem_append_right _ hx)
    rcases List.mem_append.mp hmem with hold | hnew
    · exact .inl hold
    · obtain ⟨-, hhandle, hp⟩ := mem_offered hnew
      exact .inr (he.publishes_iff.mpr ⟨hhandle, hp⟩)

/-- A valid sample that an event handles was pending. -/
theorem handled_pending {i : Nat} {r : ι} {e : Event ι}
    (he : run.Occurs i r e) {t : Topic} {x : Sample ι t.Msg}
    (hx : x ∈ handled e t) (hvalid : x.validData = true) :
    x ∈ run.pending i r t := by
  obtain ⟨a, hlabel, rfl⟩ := he
  obtain ⟨n, hstep, -⟩ := step_node hlabel
  have hmem : x ∈ valid (handled (event (run.node i r) a) t ++
      Pending.pending n t) :=
    List.mem_filter.mpr ⟨List.mem_append_left _ hx, hvalid⟩
  exact (step_pending hstep t).subset hmem

/-- So it was published in an earlier step. -/
theorem handled_published {i : Nat} {r : ι} {e : Event ι}
    (he : run.Occurs i r e) {t : Topic} {x : Sample ι t.Msg}
    (hx : x ∈ handled e t) (hvalid : x.validData = true) :
    ∃ j < i, run.Publishes j x.publicationHandle ⟨t, x.data⟩ :=
  mem_pending (Nat.le_of_lt he.lt) (handled_pending he hx hvalid)

/-- A waiting heartbeat was built by its replica in an earlier step. -/
theorem heartbeats_built {i : Nat} (hi : i ≤ run.length) {r : ι}
    {m : AppendEntries} (hm : m ∈ (run.node i r).heartbeats) :
    ∃ j < i, ∃ heap, run.Occurs j r (.build heap) ∧
      (run.replica j r).heartbeatMessage heap = some m := by
  refine origin (P := fun i => m ∈ (run.node i r).heartbeats) ?_
    (fun i r' e he hm => ?_) hi hm
  · intro hm
    rw [node_zero] at hm
    cases hm
  · obtain ⟨a, hlabel, -⟩ := he
    obtain ⟨n, hn, hnode⟩ := step_node hlabel
    rw [hnode r, (offers_control _ _ _).2.2.2.2] at hm
    by_cases hr : r = r'
    · subst hr
      rw [if_pos rfl] at hm
      rcases step_heartbeats hn hm with hold | ⟨heap, hbuild, hmsg⟩
      · exact .inl hold
      · exact .inr ⟨heap, ⟨a, hlabel, hbuild⟩, hmsg⟩
    · rw [if_neg hr] at hm
      exact .inl hm

/-- So was a written one. -/
theorem write_built {i : Nat} {r : ι} {m : AppendEntries}
    (he : run.Occurs i r (.write m)) :
    ∃ j < i, ∃ heap, run.Occurs j r (.build heap) ∧
      (run.replica j r).heartbeatMessage heap = some m := by
  have hi := Nat.le_of_lt he.lt
  obtain ⟨a, -, hevent⟩ := he
  exact heartbeats_built hi (write_heartbeats hevent)

end Execution

end RevPiRaft.Ports.History
