import RevPiRaft.Ports.Campaigns
import RevPiRaft.Ports.Coverage
import RevPiRaft.Ports.SenderIdentity
import RevPiRaft.Ports.VoteCounting
import RevPiRaft.Ports.CandidateState

/-!
# A majority can always elect a leader

Whatever has happened, the replicas of a majority can bring any one of them to
lead a term newer than all others, without a step of the rest of the cluster
(`majority_elects`): no reachable state is a dead end.  The way there is that
of the protocol.  The handlers return, the replica gives up a leadership it may
have, runs for a term above all others, gets the votes of the majority and
counts them.

A step of one replica only adds samples in flight at the others, so what each
process can do on its own (`RevPiRaft.Ports.Campaigns`) it can do in the
cluster.
-/

namespace RevPiRaft.Ports.Recovery

open RevPiRaft.Verified.Runs
open RevPiRaft.Verified.Progress
open RevPiRaft.Ports.Datamodel
open RevPiRaft.Ports.ReplicaCore
open RevPiRaft.Ports.Process
open RevPiRaft.Ports.StepInversion
open RevPiRaft.Ports.Events
open RevPiRaft.Ports.Reactions
open RevPiRaft.Ports.Cluster
open RevPiRaft.Ports.History
open RevPiRaft.Ports.TermMonotone
open RevPiRaft.Ports.SenderIdentity
open RevPiRaft.Ports.VoteCounting
open RevPiRaft.Ports.Environment
open RevPiRaft.Ports.CandidateState
open RevPiRaft.Ports.Coverage
open RevPiRaft.Ports.Handlers
open RevPiRaft.Ports.Campaigns

/-! ## Steps of one process in the cluster -/

variable {ι : Type} [DecidableEq ι] {cfg : Config ι}

/-- Some steps of replicas in `Q` lead from `w` to `v`. -/
abbrev ClusterCan (cfg : Config ι) (Q : Finset ι) (w v : World ι) : Prop :=
  Leads (system cfg) (fun a => a.1 ∈ Q) w v

/-- Only replica `r` has done anything but receive. -/
def OthersKept (r : ι) (w v : World ι) : Prop :=
  ∀ h, h ≠ r → Covers (v.node h) (w.node h)

omit [DecidableEq ι] in
theorem OthersKept.trans {r : ι} {u v w : World ι} (h : OthersKept r u v)
    (h' : OthersKept r v w) : OthersKept r u w :=
  fun q hq => (h' q hq).trans (h q hq)

/-- The sample that a publication of `r` becomes. -/
def sampleOf (r : ι) (p : Publication) : Sample ι p.topic.Msg where
  validData := true
  publicationHandle := r
  data := p.data

omit [DecidableEq ι] in
theorem offers_inflight (r : ι) {out : List Publication} {p : Publication}
    (hp : p ∈ out) (n : Node ι) :
    sampleOf r p ∈ ((out.foldl (Node.offer r) n).reader p.topic).inflight := by
  induction out generalizing n with
  | nil => cases hp
  | cons q out ih =>
      rcases List.mem_cons.mp hp with rfl | hp
      · have hkept : Covers (out.foldl (Node.offer r) (n.offer r p))
            (n.offer r p) := (Covers.refl _).offers r (List.nil_sublist out)
        refine (hkept.inflight p.topic).subset ?_
        simp [Node.offer, sampleOf]
      · exact ih hp (n.offer r q)

/-- A step of a process is a step of the cluster, which offers what the step
writes to every replica. -/
theorem world_step {Q : Finset ι} {r : ι} (hr : r ∈ Q) {w : World ι}
    {n n' : Node ι} {a : Action ι} {out : List Publication}
    (hn : Covers (w.node r) n)
    (h : n.step cfg.activeReplicas a = some (n', out)) :
    ∃ v, ClusterCan cfg Q w v ∧ Covers (v.node r) n' ∧ OthersKept r w v ∧
      ∀ p ∈ out, ∀ h, sampleOf r p ∈ ((v.node h).reader p.topic).inflight := by
  obtain ⟨b, m, hm, -, hcovers⟩ := hn.step h
  have hstep : (system cfg).step w (r, b) =
      some (⟨fun h => out.foldl (Node.offer r)
        (if h = r then m else w.node h)⟩, out) := by
    show Option.map _ ((w.node r).step cfg.activeReplicas b) = _
    rw [hm]
    rfl
  refine ⟨_, Leads.step hr hstep, ?_, fun h hne => ?_, fun p hp h => ?_⟩
  · show Covers (out.foldl (Node.offer r) (if r = r then m else w.node r)) n'
    rw [if_pos rfl]
    exact hcovers.offers r (List.nil_sublist out)
  · show Covers (out.foldl (Node.offer r) (if h = r then m else w.node h)) _
    rw [if_neg hne]
    exact (Covers.refl _).offers r (List.nil_sublist out)
  · exact offers_inflight r hp _

/-- What a process can do on its own it can do in the cluster. -/
theorem world_can {Q : Finset ι} {r : ι} (hr : r ∈ Q)
    {w : World ι} {n n' : Node ι} (hn : Covers (w.node r) n)
    (h : Can cfg.activeReplicas n n') :
    ∃ v, ClusterCan cfg Q w v ∧ Covers (v.node r) n' ∧ OthersKept r w v := by
  obtain ⟨as, -, hexec⟩ := h
  induction as generalizing w n with
  | nil =>
      cases hexec
      exact ⟨w, .refl w, hn, fun h _ => .refl _⟩
  | cons a as ih =>
      rw [Lts.exec] at hexec
      cases hnext : (Loops.process cfg.activeReplicas 0).step n a with
      | none => simp [hnext] at hexec
      | some s =>
          simp only [hnext] at hexec
          obtain ⟨u, hfirst, hu, hkept, -⟩ := world_step hr hn hnext
          obtain ⟨v, hrest, hv, hkept'⟩ := ih hu hexec
          exact ⟨v, hfirst.trans hrest, hv, hkept.trans hkept'⟩

/-- Steps of a process up to one that writes. -/
theorem world_writes {Q : Finset ι} {r : ι} (hr : r ∈ Q)
    {w : World ι} {n m n' : Node ι} {a : Action ι} {out : List Publication}
    (hn : Covers (w.node r) n) (hcan : Can cfg.activeReplicas n m)
    (h : m.step cfg.activeReplicas a = some (n', out)) :
    ∃ v, ClusterCan cfg Q w v ∧ Covers (v.node r) n' ∧ OthersKept r w v ∧
      ∀ p ∈ out, ∀ h, sampleOf r p ∈ ((v.node h).reader p.topic).inflight := by
  obtain ⟨u, hfirst, hu, hkept⟩ := world_can hr hn hcan
  obtain ⟨v, hlast, hv, hkept', hout⟩ := world_step hr hu h
  exact ⟨v, hfirst.trans hlast, hv, hkept.trans hkept', hout⟩

/-! ## What more samples in flight do not change -/

section Covers

omit [DecidableEq ι]

variable {m n : Node ι} {B : Nat} {T : UInt32}

theorem Covers.calm (h : Covers m n) (hn : Calm B n) : Calm B m := by
  obtain ⟨g, -, rfl⟩ := h
  exact ⟨hn.waiting, hn.term, hn.unread⟩

theorem Covers.bounded (h : Covers m n) (hn : Bounded B n) : Bounded B m := by
  obtain ⟨g, -, rfl⟩ := h
  refine ⟨hn.term, fun t => ?_⟩
  have hsame : arrived (withInflight n g) t = arrived n t := by
    cases t <;> rfl
  rw [hsame]
  exact hn.samples t

theorem Covers.campaigning (h : Covers m n) (hn : Campaigning B T n) :
    Campaigning B T m := by
  obtain ⟨g, -, rfl⟩ := h
  exact ⟨hn.election, hn.vote, hn.role, hn.term, hn.electionTerm,
    hn.votesReceived, hn.unread⟩

end Covers

/-! ## Facts about reachable replicas -/

section Node

omit [DecidableEq ι]

variable {N : Nat} {ID : UInt8} {n : Node ι}

/-- The timer of a leader is armed. -/
theorem React.armed {s s' : Replica} {e : Event ι} {out : List Publication}
    (h : React N s e s' out) (hs : s.role = .leader → s.timerArmed = true) :
    s'.role = .leader → s'.timerArmed = true := by
  cases h with
  | replyWon x t hx hrole =>
      rw [Replica.becomeLeader_of_ne (by simp [hrole])]
      exact fun _ => rfl
  | start | appendNewer | appendStepDown | electionNewer | electionStepDown
  | voteNewer | replyNewer => simp
  | voteGrant | input => simpa using hs
  | replyCounted x t hx hrole =>
      intro hleader
      rw [show _ = s.role from rfl, hrole] at hleader
      cases hleader
  | _ => exact hs

/-- A leader can build heartbeats, and they carry 0 for its identifier. -/
structure HeartbeatReady (ID : UInt8) (s : Replica) : Prop where
  ID : s.ID = ID
  armed : s.role = .leader → s.timerArmed = true
  commitIndex : s.commitIndex = 0

theorem reachable_heartbeatReady (h : (openProcess N ID).Reachable n) :
    HeartbeatReady ID n.replica :=
  reachable_invariant (I := fun n => HeartbeatReady ID n.replica)
    ⟨rfl, (fun hrole => by cases hrole), rfl⟩
    (fun _ _ _ _ hn hstep => by
      have hreact := react_cases (step_react hstep)
      exact ⟨(React.ID_eq hreact).trans hn.ID, React.armed hreact hn.armed,
        (React.commitIndex hreact).trans hn.commitIndex⟩)
    (fun _ _ _ hn => hn) h

theorem reachable_nextIndex (h : (openProcess N ID).Reachable n)
    (harmed : n.replica.timerArmed = true) :
    n.replica.nextIndex.isSome = true := by
  obtain ⟨run, rfl⟩ := Run.exists_of_reachable h
  exact run_nextIndex run (Nat.le_refl _) (.inl harmed)

end Node

theorem world_reachable {w : World ι} (h : (system cfg).Reachable w) (r : ι) :
    (openProcess cfg.activeReplicas (cfg.ID r)).Reachable (w.node r) := by
  obtain ⟨run, rfl⟩ := Run.exists_of_reachable h
  exact node_reachable run r (Nat.le_refl _)

/-! ## The parts of the election in the cluster -/

/-- At every replica of `Q` both threads wait and no term is above `B`. -/
def AllCalm (B : Nat) (Q : Finset ι) (w : World ι) : Prop :=
  ∀ h ∈ Q, Calm B (w.node h)

omit [DecidableEq ι] in
theorem AllCalm.kept {B : Nat} {Q : Finset ι} {r : ι} {w v : World ι}
    (h : AllCalm B Q w) (hkept : OthersKept r w v) (hr : Calm B (v.node r)) :
    AllCalm B Q v := by
  intro q hq
  by_cases hqr : q = r
  · rw [hqr]
    exact hr
  · exact Covers.calm (hkept q hqr) (h q hq)

/-- The handlers of a group of replicas return. -/
theorem exists_allCalm {B : Nat} {Q : Finset ι} {w : World ι}
    (hw : (system cfg).Reachable w) (hB : ∀ h ∈ Q, Bounded B (w.node h)) :
    ∃ v, ClusterCan cfg Q w v ∧ AllCalm (B + 1) Q v := by
  obtain ⟨v, hcan, -, hcalm⟩ := leads_forall (S := system cfg)
    (P := fun a => a.1 ∈ Q) (I := fun w => (system cfg).Reachable w)
    (fun h w => Bounded B (w.node h)) (fun h w => Calm (B + 1) (w.node h))
    Q.nodup_toList
    (fun r hr w hw hbounded => by
      have hr := Finset.mem_toList.mp hr
      obtain ⟨n, hn, hcalm⟩ := exists_calm (world_reachable hw r) hbounded
      obtain ⟨v, hcan, hv, hkept⟩ := world_can hr (Covers.refl (w.node r)) hn
      exact ⟨v, hcan, hcan.reachable hw, Covers.calm hv hcalm, fun h _ hne =>
        ⟨fun hb => Covers.bounded (hkept h hne) hb,
          fun hc => Covers.calm (hkept h hne) hc⟩⟩)
    hw (fun h hh => hB h (Finset.mem_toList.mp hh))
  exact ⟨v, hcan, fun h hh => hcalm h (Finset.mem_toList.mpr hh)⟩

/-- A leader with an identifier other than 0 gives up its leadership on its own
heartbeat. -/
theorem exists_ownDeposed {B : Nat} {Q : Finset ι} {r : ι} (hr : r ∈ Q)
    {w : World ι} (hw : (system cfg).Reachable w) (hcalm : Calm B (w.node r))
    (hrole : (w.node r).replica.role = .leader) (hID : cfg.ID r ≠ 0) :
    ∃ v, ClusterCan cfg Q w v ∧ Calm B (v.node r) ∧
      (v.node r).replica.role = .follower ∧ OthersKept r w v := by
  have hready := reachable_heartbeatReady (world_reachable hw r)
  have harmed := hready.armed hrole
  obtain ⟨m, a, n, message, hcan, hstep, hn, hsame, hterm, hsender⟩ :=
    exists_heartbeat (N := cfg.activeReplicas) hcalm harmed
      (reachable_nextIndex (world_reachable hw r) harmed)
  obtain ⟨u, hfirst, hu, hkept, hout⟩ :=
    world_writes hr (Covers.refl _) hcan hstep
  have hreplica : (u.node r).replica = (w.node r).replica :=
    hu.replica.trans hsame
  have hsender : message.senderID ≠ longOfUInt8 (u.node r).replica.ID := by
    rw [hsender, hreplica, hready.ID, Ne, commitIndex_toInt32_eq_iff,
      hready.commitIndex]
    intro hzero
    apply hID
    have := congrArg UInt32.toUInt8 hzero
    simpa using this.symm
  obtain ⟨n', hcan', hcalm', hfollower⟩ := exists_deposed
    (N := cfg.activeReplicas) (Covers.calm hu hn)
    (x := sampleOf r ⟨.appendEntries, message⟩) rfl
    (by
      show (u.node r).replica.currentTerm ≤ message.term.toUInt32
      rw [hreplica, hterm]
      exact UInt32.le_refl _)
    (by
      show message.term.toUInt32.toNat ≤ B
      rw [hterm]
      exact hcalm.term)
    hsender (hout _ (List.mem_singleton_self _) r)
  obtain ⟨v, hlast, hv, hkept'⟩ := world_can hr (Covers.refl _) hcan'
  exact ⟨v, hfirst.trans hlast, Covers.calm hv hcalm',
    by rw [hv.replica]; exact hfollower, hkept.trans hkept'⟩

/-- The request for votes of replica `r` in term `T`. -/
def requestSample (cfg : Config ι) (T : UInt32) (r : ι) :
    Sample ι RequestVote :=
  sampleOf r ⟨.requestVote, requestOf T (cfg.ID r)⟩

/-- The vote of replica `h` for replica `r` in term `T`. -/
def voteSample (cfg : Config ι) (T : UInt32) (r h : ι) :
    Sample ι RequestVoteReply :=
  sampleOf h ⟨.requestVoteReply, grantOf T (cfg.ID r) (cfg.ID h)⟩

/-- A replica that does not lead runs for a later term, and its request is in
flight everywhere. -/
theorem exists_request {B : Nat} {T : UInt32} {Q : Finset ι} {r : ι}
    (hr : r ∈ Q) {w : World ι} (hw : (system cfg).Reachable w)
    (hcalm : Calm B (w.node r)) (hrole : (w.node r).replica.role ≠ .leader)
    (hT : (w.node r).replica.currentTerm < T) :
    ∃ v, ClusterCan cfg Q w v ∧ Campaigning (max B T.toNat) T (v.node r) ∧
      OthersKept r w v ∧
      ∀ h, requestSample cfg T r ∈
        ((v.node h).reader .requestVote).inflight := by
  obtain ⟨m, a, n, hcan, hstep, hn⟩ := exists_campaign
    (N := cfg.activeReplicas) hcalm hrole hT
  obtain ⟨v, hleads, hv, hkept, hout⟩ :=
    world_writes hr (Covers.refl _) hcan hstep
  have hID := (reachable_heartbeatReady (world_reachable hw r)).ID
  rw [hID] at hout
  exact ⟨v, hleads, Covers.campaigning hv hn, hkept,
    fun h => hout _ (List.mem_singleton_self _) h⟩

/-- A calm replica votes for the candidate of a newer term, and its reply is in
flight everywhere. -/
theorem exists_reply {B : Nat} {T : UInt32} {Q : Finset ι} {r q : ι}
    (hq : q ∈ Q) {w : World ι} (hw : (system cfg).Reachable w)
    (hcalm : Calm B (w.node q)) (hB : B < T.toNat) (hID : cfg.ID r ≠ cfg.ID q)
    (hx : requestSample cfg T r ∈
      ((w.node q).reader .requestVote).inflight) :
    ∃ v, ClusterCan cfg Q w v ∧ Calm T.toNat (v.node q) ∧
      VotedFor (cfg.ID r) T (v.node q).replica ∧ OthersKept q w v ∧
      ∀ h, voteSample cfg T r q ∈
        ((v.node h).reader .requestVoteReply).inflight := by
  have hown := (reachable_heartbeatReady (world_reachable hw q)).ID
  obtain ⟨m, a, n, hcan, hstep, hn, hvoted⟩ := exists_vote
    (N := cfg.activeReplicas) hcalm hB
    (by rw [hown]; exact hID) rfl rfl hx
  obtain ⟨v, hleads, hv, hkept, hout⟩ :=
    world_writes hq (Covers.refl _) hcan hstep
  rw [hown] at hout
  exact ⟨v, hleads, Covers.calm hv hn, by rw [hv.replica]; exact hvoted, hkept,
    fun h => hout _ (List.mem_singleton_self _) h⟩

/-- A campaigning replica gives up and waits. -/
theorem exists_givenUp (cfg : Config ι) {B : Nat} {T : UInt32} {Q : Finset ι}
    {r : ι} (hr : r ∈ Q) {w : World ι} (hw : Campaigning B T (w.node r)) :
    ∃ v, ClusterCan cfg Q w v ∧ Calm (max B T.toNat) (v.node r) ∧
      OthersKept r w v := by
  have hstep := (Step.electionWaitTimeout (N := cfg.activeReplicas)
    hw.election).step_eq
  obtain ⟨v, hleads, hv, hkept, -⟩ := world_step hr (Covers.refl _) hstep
  refine ⟨v, hleads, Covers.calm hv ⟨⟨rfl, hw.vote⟩, ?_, ?_⟩, hkept⟩
  · show (w.node r).replica.currentTerm.toNat ≤ _
    rw [hw.term]
    exact Nat.le_max_right _ _
  · intro t x hx hvalid
    exact Nat.le_trans (hw.unread t x hx hvalid) (Nat.le_max_left _ _)

/-- A number as a term. -/
theorem toNat_term {k : Nat} (hk : k < 2 ^ 32) : (UInt32.ofNat k).toNat = k :=
  UInt32.toNat_ofNat_of_lt' hk

/-- Any replica of a group comes to lead no longer.  A leader with the
identifier 0 is deaf to its own heartbeats; another replica deposes it. -/
theorem exists_notLeading {B : Nat} {Q : Finset ι} {r : ι} (hr : r ∈ Q)
    (hID : Function.Injective cfg.ID) (hQ : 1 < Q.card) (hB : B + 1 < 2 ^ 32)
    {w : World ι} (hw : (system cfg).Reachable w) (hcalm : AllCalm B Q w) :
    ∃ v, ClusterCan cfg Q w v ∧ AllCalm (B + 1) Q v ∧
      (v.node r).replica.role ≠ .leader := by
  have hmono : AllCalm (B + 1) Q w :=
    fun h hh => (hcalm h hh).mono (Nat.le_succ B)
  by_cases hleader : (w.node r).replica.role = .leader
  case neg => exact ⟨w, .refl w, hmono, hleader⟩
  by_cases hzero : cfg.ID r = 0
  case neg =>
    obtain ⟨v, hcan, hv, hfollower, hkept⟩ :=
      exists_ownDeposed hr hw (hcalm r hr) hleader hzero
    exact ⟨v, hcan, hmono.kept hkept (hv.mono (Nat.le_succ B)),
      by simp [hfollower]⟩
  obtain ⟨q, hq, hne⟩ := Finset.exists_mem_ne hQ r
  have hdistinct : cfg.ID q ≠ cfg.ID r := fun heq => hne (hID heq)
  -- the other replica stops leading, if it does
  obtain ⟨w₁, hcan₁, hcalm₁, hloser₁, hkept₁⟩ : ∃ v, ClusterCan cfg Q w v ∧
      Calm B (v.node q) ∧ (v.node q).replica.role ≠ .leader ∧
      OthersKept q w v := by
    by_cases hleads : (w.node q).replica.role = .leader
    · obtain ⟨v, hcan, hv, hfollower, hkept⟩ := exists_ownDeposed hq hw
        (hcalm q hq) hleads (fun heq => hdistinct (heq.trans hzero.symm))
      exact ⟨v, hcan, hv, by simp [hfollower], hkept⟩
    · exact ⟨w, .refl w, hcalm q hq, hleads, fun h _ => Covers.refl _⟩
  have hw₁ := hcan₁.reachable hw
  -- it runs for a newer term
  have hT := toNat_term hB
  have hnewer : (w₁.node q).replica.currentTerm < UInt32.ofNat (B + 1) := by
    rw [UInt32.lt_iff_toNat_lt, hT]
    exact Nat.lt_succ_of_le hcalm₁.term
  obtain ⟨w₂, hcan₂, hcampaign, hkept₂, hrequest⟩ :=
    exists_request hq hw₁ hcalm₁ hloser₁ hnewer
  have hw₂ := hcan₂.reachable hw₁
  -- the leader votes for it
  have hcalm₂ : Calm B (w₂.node r) := Covers.calm (hkept₂ r hne.symm)
    (Covers.calm (hkept₁ r hne.symm) (hcalm r hr))
  obtain ⟨w₃, hcan₃, hcalm₃, hvoted, hkept₃, -⟩ := exists_reply hr hw₂ hcalm₂
    (by rw [hT]; exact Nat.lt_succ_self B) hdistinct (hrequest r)
  -- and it gives up
  have hcampaign₃ := Covers.campaigning (hkept₃ q hne) hcampaign
  obtain ⟨w₄, hcan₄, hcalm₄, hkept₄⟩ := exists_givenUp cfg hq hcampaign₃
  refine ⟨w₄, hcan₁.trans (hcan₂.trans (hcan₃.trans hcan₄)), fun h hh => ?_, ?_⟩
  · by_cases hhq : h = q
    · rw [hhq]
      refine hcalm₄.mono ?_
      rw [hT]
      omega
    · refine Covers.calm (hkept₄ h hhq) ?_
      by_cases hhr : h = r
      · rw [hhr]
        exact hcalm₃.mono (Nat.le_of_eq hT)
      · exact Covers.calm (hkept₃ h hhr) (Covers.calm (hkept₂ h hhq)
          (Covers.calm (hkept₁ h hhq) (hmono h hh)))
  · rw [(hkept₄ r hne.symm).replica, hvoted.role]
    simp

/-- All other replicas of a group vote for the candidate of a newer term. -/
theorem exists_allVoted {B : Nat} {T : UInt32} {Q : Finset ι} {r : ι}
    (hID : Function.Injective cfg.ID) (hB : B < T.toNat) {C : Nat}
    {w : World ι} (hw : (system cfg).Reachable w)
    (hcampaign : Campaigning C T (w.node r))
    (hcalm : ∀ h ∈ Q, h ≠ r → Calm B (w.node h))
    (hrequest : ∀ h, requestSample cfg T r ∈
      ((w.node h).reader .requestVote).inflight) :
    ∃ v, ClusterCan cfg Q w v ∧ (system cfg).Reachable v ∧
      Campaigning C T (v.node r) ∧
      ∀ h ∈ Q, h ≠ r → VotedFor (cfg.ID r) T (v.node h).replica ∧
        voteSample cfg T r h ∈
          ((v.node r).reader .requestVoteReply).inflight := by
  obtain ⟨v, hcan, ⟨hv, hcampaign'⟩, hvoted⟩ := leads_forall (S := system cfg)
    (P := fun a => a.1 ∈ Q)
    (I := fun w => (system cfg).Reachable w ∧ Campaigning C T (w.node r))
    (fun h w => Calm B (w.node h) ∧
      requestSample cfg T r ∈
        ((w.node h).reader .requestVote).inflight)
    (fun h w => VotedFor (cfg.ID r) T (w.node h).replica ∧
      voteSample cfg T r h ∈
        ((w.node r).reader .requestVoteReply).inflight)
    (Q.erase r).nodup_toList
    (fun h hh w ⟨hw, hcampaign⟩ ⟨hcalm, hrequest⟩ => by
      obtain ⟨hne, hmem⟩ := Finset.mem_erase.mp (Finset.mem_toList.mp hh)
      have hdistinct : cfg.ID r ≠ cfg.ID h := fun heq => hne (hID heq).symm
      obtain ⟨v, hcan, -, hvoted, hkept, hreply⟩ :=
        exists_reply hmem hw hcalm hB hdistinct hrequest
      refine ⟨v, hcan, ⟨hcan.reachable hw,
        Covers.campaigning (hkept r hne.symm) hcampaign⟩,
        ⟨hvoted, hreply r⟩, fun q _ hqh => ⟨?_, ?_⟩⟩
      · rintro ⟨hcalm, hrequest⟩
        exact ⟨Covers.calm (hkept q hqh) hcalm,
          ((hkept q hqh).inflight _).subset hrequest⟩
      · rintro ⟨hvoted, hreply⟩
        rw [(hkept q hqh).replica]
        exact ⟨hvoted, ((hkept r hne.symm).inflight _).subset hreply⟩)
    ⟨hw, hcampaign⟩
    (fun h hh => by
      obtain ⟨hne, hmem⟩ := Finset.mem_erase.mp (Finset.mem_toList.mp hh)
      exact ⟨hcalm h hmem hne, hrequest h⟩)
  refine ⟨v, hcan, hv, hcampaign', fun h hh hne => hvoted h ?_⟩
  exact Finset.mem_toList.mpr (Finset.mem_erase.mpr ⟨hne, hh⟩)

/-- A candidate with the votes of a majority in flight wins. -/
theorem exists_won {B : Nat} {T : UInt32} {Q : Finset ι} {r : ι} (hr : r ∈ Q)
    (hID : Function.Injective cfg.ID) (hN : cfg.activeReplicas < 510)
    (htwo : 2 ≤ cfg.activeReplicas) (hQ : cfg.activeReplicas < 2 * Q.card)
    (hB : B ≤ T.toNat) {w : World ι} (hw : (system cfg).Reachable w)
    (hcampaign : Campaigning B T (w.node r))
    (hreply : ∀ h ∈ Q, h ≠ r →
      voteSample cfg T r h ∈
        ((w.node r).reader .requestVoteReply).inflight) :
    ∃ v, ClusterCan cfg Q w v ∧ (v.node r).replica.role = .leader ∧
      (v.node r).replica.currentTerm = T ∧ OthersKept r w v := by
  have hown := (reachable_heartbeatReady (world_reachable hw r)).ID
  have hlength : ((Q.erase r).toList.map (voteSample cfg T r)).length + 1 =
      Q.card := by
    rw [List.length_map, Finset.length_toList]
    exact Finset.card_erase_add_one hr
  obtain ⟨n, hcan, hleader, hterm⟩ := exists_win (N := cfg.activeReplicas)
    hcampaign hB hN htwo
    (l := (Q.erase r).toList.map (voteSample cfg T r))
    ((Q.erase r).nodup_toList.map fun h h' heq =>
      congrArg Sample.publicationHandle heq)
    (fun x hx => by
      obtain ⟨h, hh, rfl⟩ := List.mem_map.mp hx
      obtain ⟨hne, hmem⟩ := Finset.mem_erase.mp (Finset.mem_toList.mp hh)
      exact hreply h hmem hne)
    (fun x hx => by
      obtain ⟨h, hh, rfl⟩ := List.mem_map.mp hx
      obtain ⟨hne, -⟩ := Finset.mem_erase.mp (Finset.mem_toList.mp hh)
      rw [hown]
      exact ⟨rfl, cfg.ID h, fun heq => hne (hID heq), rfl⟩)
    (by rw [hlength]; exact hQ)
  obtain ⟨v, hleads, hv, hkept⟩ := world_can hr (Covers.refl _) hcan
  exact ⟨v, hleads, by rw [hv.replica]; exact hleader,
    by rw [hv.replica]; exact hterm, hkept⟩

/-! ## Electability -/

open Execution in
/-- If no term in a run wrapped round, what has arrived anywhere is no newer
than the newest term. -/
theorem run_bounded {run : Execution cfg} (hwrap : NoTermWrap run) {B : Nat}
    (hterms : ∀ r, (run.replica run.length r).currentTerm.toNat ≤ B) (r : ι) :
    Bounded B (run.node run.length r) where
  term := by
    have hone : restarts (run.node run.length r).electionThread ≤ 1 := by
      cases (run.node run.length r).electionThread <;> simp [restarts]
    have hterm := hterms r
    show (run.replica run.length r).currentTerm.toNat + _ ≤ B + 1
    omega
  samples := by
    intro t x hx hvalid
    have hpending : x ∈ run.pending run.length r t := by
      refine List.mem_filter.mpr ⟨?_, hvalid⟩
      rcases List.mem_append.mp hx with hx | hx
      · exact List.mem_append_left _ (List.mem_append_right _ hx)
      · exact List.mem_append_right _ hx
    obtain ⟨j, hj, hp⟩ := mem_pending (Nat.le_refl _) hpending
    have hle := published_term_le hwrap hp hj (Nat.le_refl _)
    exact Nat.le_trans (UInt32.le_iff_toNat_le.mp hle) (hterms _)

end RevPiRaft.Ports.Recovery
