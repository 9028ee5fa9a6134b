import RevPiRaft.Verified.Refinement
import RevPiRaft.Ports.Coverage
import RevPiRaft.Ports.Entities
import RevPiRaft.Ports.History

/-!
# The deployed replicas refine the cluster

Messages that go through the handles of `DDSSetupConsensus` are a part of those
that the cluster model publishes.  A message that is not written is one that
never arrives, and a replica that has exited is one that takes no more steps.
So every run with handles goes beside a run of the cluster in which the same
replicas perform the same events in the same states (`deployment_refines`), and
what holds of every run of the cluster holds of the deployed program.

No heartbeat gets through: what the `AppendEntries` loops of a deployed replica
see are samples without data, and the process of a leader ends with its first
heartbeat (`no_heartbeat_received`).
-/

namespace RevPiRaft.Ports.EntityRefinement

open RevPiRaft.Verified.Runs
open RevPiRaft.Verified.Refinement
open RevPiRaft.Ports.Datamodel
open RevPiRaft.Ports.Process
open RevPiRaft.Ports.StepInversion
open RevPiRaft.Ports.Events
open RevPiRaft.Ports.Pending
open RevPiRaft.Ports.Coverage
open RevPiRaft.Ports.Cluster
open RevPiRaft.Ports.History
open RevPiRaft.Ports.Entities

variable {ι : Type} [DecidableEq ι] {cfg : Config ι}

/-! ## The simulation -/

/-- What is written before the first error is a part of what should be. -/
theorem writeAll_sublist (h : Handles) (out : List Publication) :
    (writeAll h out).1.Sublist out := by
  induction out with
  | nil => exact .slnil
  | cons p out ih =>
      unfold writeAll
      split
      · exact ih.cons_cons p
      · exact List.nil_sublist _

/-- Every node of the cluster covers the process of the same replica. -/
def SitesCovered (w : ι → Site ι) (v : World ι) : Prop :=
  ∀ r, (w r).handles = consensusHandles ∧ Covers (v.node r) (w r).node

/-- The same replica performs the same event and writes at most as much. -/
def SameEvent (w : ι → Site ι) (a : ι × Action ι) (out : List Publication)
    (v : World ι) (b : ι × Action ι) (out' : List Publication) : Prop :=
  b.1 = a.1 ∧ event (v.node b.1) b.2 = event (w a.1).node a.2 ∧
    out.Sublist out'

theorem sitesCovered_step {w w' : ι → Site ι} {v : World ι}
    {a : ι × Action ι} {out : List Publication}
    (h : siteStep cfg w a = some (w', out)) (hcovered : SitesCovered w v) :
    ∃ b v' out', World.step cfg v b = some (v', out') ∧ SitesCovered w' v' ∧
      SameEvent w a out v b out' := by
  obtain ⟨r, a⟩ := a
  obtain ⟨n, written, hstep, rfl, hw'⟩ :=
    siteStep_cases (fun r => (hcovered r).1) h
  obtain ⟨b, m, hm, hevent, hnode⟩ := (hcovered r).2.step hstep
  have hwritten := writeAll_sublist consensusHandles written
  refine ⟨(r, b),
    ⟨fun h => written.foldl (Node.offer r)
      (if h = r then m else v.node h)⟩, written, ?_, fun h => ?_, rfl, hevent,
    hwritten⟩
  · show Option.map _ ((v.node r).step cfg.activeReplicas b) = _
    rw [hm]
    rfl
  · rw [hw' h]
    refine ⟨rfl, Covers.offers r hwritten ?_⟩
    by_cases hr : h = r
    · rw [if_pos hr, if_pos hr]
      exact hnode
    · rw [if_neg hr, if_neg hr]
      exact (hcovered h).2

/-- The cluster simulates the deployed replicas step by step. -/
def deploymentSimulation (cfg : Config ι) :
    Simulation (deployment cfg) (system cfg) SameEvent where
  Rel := SitesCovered
  init := fun _ => ⟨rfl, Covers.refl _⟩
  step := sitesCovered_step

/-- Step `i` is taken by replica `r` and performs the event `e`. -/
def Performs (run : Deployment cfg) (i : Nat) (r : ι) (e : Event ι) : Prop :=
  ∃ a, run.labels[i]? = some (r, a) ∧ event (run.site i r).node a = e

theorem Performs.lt {run : Deployment cfg} {i : Nat} {r : ι} {e : Event ι}
    (h : Performs run i r e) : i < run.length := by
  obtain ⟨a, hlabel, -⟩ := h
  exact (List.getElem?_eq_some_iff.mp hlabel).1

/-- The label of a step decides its event. -/
theorem performs_iff (run : Deployment cfg) {i : Nat} (hi : i < run.length)
    (r : ι) (e : Event ι) :
    Performs run i r e ↔ (run.label i hi).1 = r ∧
      event (run.site i (run.label i hi).1).node (run.label i hi).2 = e := by
  have hget : run.labels[i]? = some (run.label i hi) :=
    List.getElem?_eq_getElem hi
  rw [Performs, hget]
  constructor
  · rintro ⟨a, hlabel, he⟩
    rw [Option.some.inj hlabel]
    exact ⟨rfl, he⟩
  · rintro ⟨rfl, he⟩
    exact ⟨_, rfl, he⟩

theorem occurs_iff (run : Execution cfg) {i : Nat} (hi : i < run.length)
    (r : ι) (e : Event ι) :
    run.Occurs i r e ↔ (run.label i hi).1 = r ∧
      event (run.node i (run.label i hi).1) (run.label i hi).2 = e := by
  have hget : run.labels[i]? = some (run.label i hi) :=
    List.getElem?_eq_getElem hi
  rw [Execution.Occurs, hget]
  constructor
  · rintro ⟨a, hlabel, he⟩
    rw [Option.some.inj hlabel]
    exact ⟨rfl, he⟩
  · rintro ⟨rfl, he⟩
    exact ⟨_, rfl, he⟩

/-- The run `run'` of the cluster goes beside the deployed run. -/
structure Follows (run : Deployment cfg) (run' : Execution cfg) : Prop where
  length : run'.length = run.length
  covers : ∀ i, i ≤ run.length → ∀ r,
    Covers (run'.node i r) (run.site i r).node
  occurs : ∀ i r e, Performs run i r e ↔ run'.Occurs i r e
  output : ∀ i, i < run.length → (run.output i).Sublist (run'.output i)

/-- Every deployed run goes beside a run of the cluster: the same replicas
perform the same events in the same states and write at most as much, and
nothing but undelivered samples is different. -/
theorem deployment_refines (run : Deployment cfg) :
    ∃ run' : Execution cfg, Follows run run' := by
  obtain ⟨run', hlength, hstate, hstep⟩ :=
    (deploymentSimulation cfg).exists_beside run
  have hsame : ∀ i, (hi : i < run.length) → (hi' : i < run'.length) →
      SameEvent (run.state i) (run.label i hi) (run.output i)
        (run'.state i) (run'.label i hi') (run'.output i) := hstep
  refine ⟨run', hlength, fun i hi r => (hstate i hi r).2, ?_, ?_⟩
  · intro i r e
    by_cases hi : i < run.length
    · have hi' : i < run'.length := hlength ▸ hi
      obtain ⟨hactor, hevent, -⟩ := hsame i hi hi'
      rw [performs_iff run hi, occurs_iff run' hi']
      show _ ↔ _ ∧ event ((run'.state i).node _) _ = e
      rw [hevent, hactor]
      exact Iff.rfl
    · constructor
      · intro h
        exact absurd h.lt hi
      · intro h
        have hi' := h.lt
        rw [hlength] at hi'
        exact absurd hi' hi
  · intro i hi
    exact (hsame i hi (hlength ▸ hi)).2.2

/-! ## No heartbeat gets through -/

/-- The two topics of the heartbeats. -/
def HeartbeatTopic (t : Topic) : Prop :=
  t = .appendEntries ∨ t = .appendEntriesReply

theorem written_topic {out : List Publication} {p : Publication}
    (h : p ∈ (writeAll consensusHandles out).1) : ¬ HeartbeatTopic p.topic := by
  induction out with
  | nil => cases h
  | cons q out ih =>
      unfold writeAll at h
      split at h
      · rename_i hwrites
        rcases List.mem_cons.mp h with rfl | h
        · have hwriter := (consensusHandles_dataWriter p.topic).mp
            (by simpa [Handles.writes] using hwrites)
          rcases hwriter with ht | ht <;> simp [HeartbeatTopic, ht]
        · exact ih h
      · cases h

omit [DecidableEq ι] in
/-- Nothing is offered on the topics of the heartbeats. -/
theorem offered_written (r : ι) (out : List Publication) {t : Topic}
    (ht : HeartbeatTopic t) :
    offered r t (writeAll consensusHandles out).1 = [] := by
  refine List.eq_nil_iff_forall_not_mem.mpr fun x hx => ?_
  exact written_topic (mem_offered hx).2.2 ht

/-- No sample with data is pending on the topics of the heartbeats, and no
handler of a running process waits for replies. -/
structure Silent (s : Site ι) : Prop where
  pending : ∀ t, HeartbeatTopic t → valid (Pending.pending s.node t) = []
  awaiting : s.exited = false → s.node.awaitingReplies = 0

omit [DecidableEq ι] in
theorem offers_awaitingReplies (r : ι) (n : Node ι) (out : List Publication) :
    (out.foldl (Node.offer r) n).awaitingReplies = n.awaitingReplies := by
  induction out generalizing n with
  | nil => rfl
  | cons p out ih => exact ih (n.offer r p)

omit [DecidableEq ι] in
/-- A handler comes to wait for replies only by a heartbeat it has written. -/
theorem step_awaitingReplies {N : Nat} {n n' : Node ι} {a : Action ι}
    {out : List Publication} (h : n.step N a = some (n', out))
    (hn : n.awaitingReplies = 0) :
    n'.awaitingReplies = 0 ∨ (writeAll consensusHandles out).2 = true := by
  cases step_cases h with
  | heartbeatWrite k m hm =>
      right
      rw [writeAll_singleton]
      rfl
  | heartbeatReplies hawaiting | heartbeatTimeout hawaiting => omega
  | _ => exact .inl hn

theorem silent_step {w w' : ι → Site ι} {a : ι × Action ι}
    {out : List Publication} (h : siteStep cfg w a = some (w', out))
    (hw : ∀ r, (w r).handles = consensusHandles ∧ Silent (w r)) (q : ι) :
    Silent (w' q) := by
  obtain ⟨r, a⟩ := a
  obtain ⟨n, written, hstep, rfl, hw'⟩ := siteStep_cases (fun r => (hw r).1) h
  rw [hw' q]
  constructor
  case pending =>
    intro t ht
    have hoffers := offers_pending r (if q = r then n else (w q).node)
      (writeAll consensusHandles written).1 t
    rw [offered_written r written ht, List.append_nil] at hoffers
    have hnone : valid (Pending.pending (if q = r then n else (w q).node) t) =
        [] := by
      by_cases hq : q = r
      · subst hq
        have hsub := step_pending hstep t
        rw [(hw q).2.pending t ht, List.subperm_nil, valid_append] at hsub
        rw [if_pos rfl]
        exact (List.append_eq_nil_iff.mp hsub).2
      · rw [if_neg hq]
        exact (hw q).2.pending t ht
    rw [hnone] at hoffers
    exact hoffers.eq_nil
  case awaiting =>
    intro hrunning
    have hrunning : (if q = r then (writeAll consensusHandles written).2
        else (w q).exited) = false := hrunning
    show (List.foldl (Node.offer r) _ _).awaitingReplies = 0
    rw [offers_awaitingReplies]
    by_cases hq : q = r
    · subst hq
      have hexited : (w q).exited = false := by
        unfold siteStep at h
        split at h
        · cases h
        · rename_i hexited
          simpa using hexited
      rw [if_pos rfl]
      rcases step_awaitingReplies hstep ((hw q).2.awaiting hexited) with
        hzero | hfailed
      · exact hzero
      · rw [if_pos rfl, hfailed] at hrunning
        cases hrunning
    · rw [if_neg hq] at hrunning ⊢
      exact (hw q).2.awaiting hrunning

theorem silent {run : Deployment cfg} {i : Nat} (hi : i ≤ run.length) (r : ι) :
    Silent (run.site i r) := by
  have hall : ∀ r, (run.site i r).handles = consensusHandles ∧
      Silent (run.site i r) := by
    refine run.induction (P := fun i => ∀ r,
      (run.site i r).handles = consensusHandles ∧ Silent (run.site i r))
      ?_ ?_ i hi
    · intro r
      rw [Deployment.site, Run.state_zero]
      exact ⟨rfl, fun t _ => by cases t <;> rfl, fun _ => rfl⟩
    · intro i hi hnext ih r
      exact ⟨Deployment.handles_eq hi r, silent_step hnext ih r⟩
  exact (hall r).2

/-- The step of a node behind an event of a deployed run. -/
theorem Performs.step {run : Deployment cfg} {i : Nat} {r : ι} {e : Event ι}
    (h : Performs run i r e) :
    ∃ a n written, event (run.site i r).node a = e ∧
      (run.site i r).node.step cfg.activeReplicas a = some (n, written) ∧
      (run.site (i + 1) r).exited =
        (writeAll consensusHandles written).2 := by
  obtain ⟨a, hlabel, hevent⟩ := h
  obtain ⟨hi, hget⟩ := List.getElem?_eq_some_iff.mp hlabel
  have hnext := run.next i hi
  rw [show run.label i hi = (r, a) from hget] at hnext
  obtain ⟨n, written, hstep, -, hw'⟩ := siteStep_cases
    (fun r => Deployment.handles_eq (Nat.le_of_lt hi) r) hnext
  refine ⟨a, n, written, hevent, hstep, ?_⟩
  show (run.state (i + 1) r).exited = _
  rw [hw' r]
  exact if_pos rfl

/-- What a replica handles on the topics of the heartbeats has no data. -/
theorem Performs.handled_invalid {run : Deployment cfg} {i : Nat} {r : ι}
    {e : Event ι} (h : Performs run i r e) {t : Topic}
    (ht : HeartbeatTopic t) {x : Sample ι t.Msg} (hx : x ∈ handled e t) :
    x.validData = false := by
  obtain ⟨a, n, written, rfl, hstep, -⟩ := h.step
  have hsub := step_pending hstep t
  rw [(silent (Nat.le_of_lt h.lt) r).pending t ht, List.subperm_nil,
    valid_append] at hsub
  have hhandled := (List.append_eq_nil_iff.mp hsub).1
  rw [valid, List.filter_eq_nil_iff] at hhandled
  simpa using hhandled x hx

/-- In no state of a deployed run a replica holds a heartbeat, or a reply to
one, with data; a process ends with its first heartbeat; and a replica ceases
to lead only when it starts an election or handles a request for votes. -/
theorem no_heartbeat_received (run : Deployment cfg) (r : ι) :
    (∀ i, i ≤ run.length → ∀ t, HeartbeatTopic t →
      ∀ x ∈ Pending.pending (run.site i r).node t, x.validData = false) ∧
    (∀ i m, Performs run i r (.write m) →
      (run.site (i + 1) r).exited = true) ∧
    (∀ i e, Performs run i r e →
      (run.site i r).node.replica.role = .leader →
      (run.site (i + 1) r).node.replica.role ≠ .leader →
      e = .start ∨ ∃ g x, e = .vote g x) := by
  refine ⟨fun i hi t ht x hx => ?_, fun i m h => ?_,
    fun i e h hleader hlost => ?_⟩
  · have hnone := (silent hi r).pending t ht
    rw [valid, List.filter_eq_nil_iff] at hnone
    simpa using hnone x hx
  · obtain ⟨a, n, written, hevent, hstep, hexited⟩ := h.step
    have hreact := step_react hstep
    rw [hevent, react, Option.some.injEq, Prod.mk.injEq] at hreact
    rw [hexited, ← hreact.2, writeAll_singleton]
    rfl
  · obtain ⟨run', hfollows⟩ := deployment_refines run
    have hreact := ((hfollows.occurs i r e).mp h).react
    rw [← (hfollows.covers i (Nat.le_of_lt h.lt) r).replica] at hleader
    rw [← (hfollows.covers (i + 1) h.lt r).replica] at hlost
    rcases React.ceases hreact hleader hlost with hstart | hvote |
      ⟨x, hx, hvalid⟩
    · exact .inl hstart
    · exact .inr hvote
    · rw [h.handled_invalid (.inl rfl) hx] at hvalid
      cases hvalid

end RevPiRaft.Ports.EntityRefinement
