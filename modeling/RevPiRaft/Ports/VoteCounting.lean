import RevPiRaft.Verified.Election
import RevPiRaft.Ports.VoteValidity

/-!
# Whose votes a candidate counts

`votes_received` is a bare counter.  What a voter can still contribute to a
candidacy is one message under way: the candidate's request before the voter
has handled it, or the granted reply afterwards.  `ballots` counts these
messages, and in a run without the two defects below there is never more than
one for a voter and a candidacy, so every counted reply is a new voter.

* A replica takes its own reply to its own request like any other and counts
  it, although the set-up has already counted its vote (`OwnReply`).
* `voteGranted` is not reset between the samples of a batch, so a request that
  is refused after a granted one is answered with another granted reply, which
  names the earlier candidate once more (`StickyGrant`).
-/

namespace RevPiRaft.Ports.VoteCounting

open RevPiRaft.Verified.Election
open RevPiRaft.Ports.Datamodel
open RevPiRaft.Ports.ReplicaCore
open RevPiRaft.Ports.LeaderElection
open RevPiRaft.Ports.Events
open RevPiRaft.Ports.Reactions
open RevPiRaft.Ports.Pending
open RevPiRaft.Ports.Cluster
open RevPiRaft.Ports.History
open RevPiRaft.Ports.TermMonotone
open RevPiRaft.Ports.VoteValidity
open RevPiRaft.Ports.Mutex
open Execution

/-- The replicas of a cluster are as many as `ACTIVE_REPLICAS` says and have
distinct identifiers of one digit. -/
structure Deployed {ι : Type} [Fintype ι] (cfg : Config ι) : Prop where
  card : Fintype.card ι = cfg.activeReplicas
  distinct : Function.Injective cfg.ID
  oneDigit : ∀ r, cfg.ID r < 10

theorem Deployed.ID_ne {ι : Type} [Fintype ι] {cfg : Config ι}
    (h : Deployed cfg) (r : ι) :
    cfg.ID r ≠ votedNone := by
  have hr := h.oneDigit r
  grind [votedNone]

theorem Deployed.card_le {ι : Type} [Fintype ι] {cfg : Config ι}
    (h : Deployed cfg) : Fintype.card ι ≤ 10 := by
  have hinjective : Function.Injective fun r : ι =>
      (⟨(cfg.ID r).toNat, UInt8.lt_iff_toNat_lt.mp (h.oneDigit r)⟩ :
        Fin 10) := by
    intro r r' heq
    simp only [Fin.mk.injEq] at heq
    exact h.distinct (UInt8.toNat_inj.mp heq)
  simpa using Fintype.card_le_of_injective _ hinjective

/-! ## The two defects -/

variable {ι : Type}

/-- Candidate `s` counts the reply `x`. -/
structure CountsReply (s : Replica) (x : Sample ι RequestVoteReply) :
    Prop where
  valid : x.validData = true
  candidate : s.role = .candidate
  counts : ∃ t, s.electionTerm = some t ∧ countsVote s t x.data

/-- With `voteGranted` already set, `s` refuses the request `x` and has voted
for another replica. -/
structure StickyGrant (s : Replica) (x : Sample ι RequestVote) : Prop where
  valid : x.validData = true
  term : x.data.term.toUInt32 ≤ s.currentTerm
  refuses : ¬ grantsVote s x.data.term.toUInt32 (uint8OfLong x.data.senderID)
  other : s.votedFor ≠ s.ID

/-- What makes or keeps a candidate. -/
theorem React.candidate {N : Nat} {s s' : Replica} {e : Event ι}
    {out : List Publication} (h : React N s e s' out)
    (hrole : s'.role = .candidate) :
    e = .start ∧ s'.votesReceived = 1 ∧ s'.votedFor = s.ID ∨
    e ≠ .start ∧ s.role = .candidate ∧ s'.currentTerm = s.currentTerm ∧
      (s'.votesReceived = s.votesReceived ∨
        ∃ x, e = .reply x ∧ CountsReply s x ∧
          s'.votesReceived = s.votesReceived + 1) := by
  cases h with
  | start => exact .inl ⟨rfl, rfl, rfl⟩
  | appendNewer | appendStepDown | electionNewer | electionStepDown
  | voteNewer | replyNewer | replyWon => simp at hrole
  | replyCounted x t hx hcandidate helection hcount =>
      exact .inr ⟨by simp, hcandidate, rfl,
        .inr ⟨x, rfl, ⟨hx, hcandidate, t, helection, hcount⟩, rfl⟩⟩
  | input => exact .inr ⟨by simp, by simpa using hrole, by simp, by simp⟩
  | _ => exact .inr ⟨by simp, hrole, rfl, .inl rfl⟩

variable [DecidableEq ι] {cfg : Config ι} {run : Execution cfg}

/-- No candidate counts a reply it has published itself. -/
def NoOwnReply (run : Execution cfg) : Prop :=
  ∀ i r x, run.Occurs i r (.reply x) → CountsReply (run.replica i r) x →
    x.publicationHandle ≠ r

/-- No request is refused after another one of its batch has been granted,
except by a replica whose vote is its own. -/
def NoStickyGrant (run : Execution cfg) : Prop :=
  ∀ i r x, run.Occurs i r (.vote true x) →
    ¬ StickyGrant (run.replica i r) x

/-- Own replies are not counted where none is taken. -/
theorem noOwnReply_of_batches (h : ∀ i < run.length, ∀ r,
    ∀ x ∈ threadReplies (run.node i r).voteThread,
      x.publicationHandle ≠ r) : NoOwnReply run := by
  rintro i r x he -
  obtain ⟨a, -, hevent⟩ := id he
  exact h i he.lt r x (event_reply hevent)

/-- The flag sticks only where it is set when an iteration starts. -/
theorem noStickyGrant_of_flags (h : ∀ i < run.length, ∀ r,
    threadGranted (run.node i r).voteThread = false) : NoStickyGrant run := by
  rintro i r x he -
  obtain ⟨a, -, hevent⟩ := id he
  have hgranted := event_granted hevent
  rw [h i he.lt r] at hgranted
  cases hgranted

/-! ## Ballots under way -/

/-- A request of `r` in term `t`. -/
def isRequest (r : ι) (t : UInt32) (x : Sample ι RequestVote) : Bool :=
  x.publicationHandle = r ∧ x.data.term.toUInt32 = t

/-- A reply of `v` that grants the candidate `c` its vote in term `t`. -/
def isGrant (v : ι) (t : UInt32) (c : UInt8) (x : Sample ι RequestVoteReply) :
    Bool :=
  x.publicationHandle = v ∧ boolOfLong x.data.voteGranted = true ∧
    x.data.term.toUInt32 = t ∧ uint8OfLong x.data.candidateID = c

/-- Messages under way by which `v` may still be counted for the candidacy of
`r` in term `t`. -/
def ballots (run : Execution cfg) (i : Nat) (r : ι) (t : UInt32) (v : ι) :
    Nat :=
  (run.pending i v .requestVote).countP (isRequest r t) +
    (run.pending i r .requestVoteReply).countP (isGrant v t (cfg.ID r))

/-- Before the candidacy there are none. -/
theorem ballots_eq_zero [Fintype ι] (hcfg : Deployed cfg) {i : Nat}
    (hi : i ≤ run.length) {r : ι} {t : UInt32}
    (hstarted : ¬ StartedIn run i r t) (v : ι) : ballots run i r t v = 0 := by
  have hrequests :
      (run.pending i v .requestVote).countP (isRequest r t) = 0 := by
    rw [List.countP_eq_zero]
    intro x hx hrequest
    obtain ⟨rfl, rfl⟩ := of_decide_eq_true hrequest
    exact hstarted (request_started hi hx).1
  have hgrants : (run.pending i r .requestVoteReply).countP
      (isGrant v t (cfg.ID r)) = 0 := by
    rw [List.countP_eq_zero]
    intro x hx hgrant
    obtain ⟨-, hgranted, rfl, hcandidate⟩ := of_decide_eq_true hgrant
    obtain ⟨j, hj, hterm, hvote, hnone⟩ :=
      pending_reply hcfg.ID_ne hi hx hgranted
    rw [hvote] at hcandidate hnone
    obtain ⟨c, hc, hcstarted⟩ :=
      votedFor_started (show j + 1 ≤ run.length by omega) hnone
    rw [hcandidate] at hc
    rw [hcfg.distinct hc, ← hterm] at hcstarted
    exact hstarted (hcstarted.mono (by omega))
  rw [ballots, hrequests, hgrants]

/-- At most one publication leaves in one step. -/
theorem offered_length {i : Nat} {r : ι} {e : Event ι}
    (he : run.Occurs i r e) (t : Topic) :
    (offered r t (run.output i)).length ≤ 1 := by
  cases hout : run.output i with
  | nil => simp [offered]
  | cons p out =>
      have hsingle : p :: out = [p] :=
        output_singleton (hout ▸ he.react) (List.mem_cons_self ..)
      rw [hsingle]
      simp only [offered]
      split <;> simp

/-- A request of `r` joins the readers only in an election set-up of `r`. -/
theorem request_offered {i : Nat} {a r : ι} {e : Event ι} {t : UInt32}
    (he : run.Occurs i a e)
    (hpos : 0 < (offered a .requestVote (run.output i)).countP
      (isRequest r t)) :
    a = r ∧ e = .start ∧ (run.replica (i + 1) r).currentTerm = t := by
  obtain ⟨x, hx, hrequest⟩ := List.countP_pos_iff.mp hpos
  obtain ⟨rfl, rfl⟩ := of_decide_eq_true hrequest
  obtain ⟨-, rfl, hp⟩ := mem_offered hx
  obtain ⟨hstart, hterm, -⟩ := requestVote_start (he.publishes hp)
  exact ⟨rfl, (hstart.unique he).2, hterm.symm⟩

/-- A reply of `v` that grants another replica `r` its vote is written when `v`
handles a request of `r` of the same term. -/
theorem grant_offered [Fintype ι] (hcfg : Deployed cfg)
    (hsticky : NoStickyGrant run) {i : Nat} {a r v : ι} {e : Event ι}
    {t : UInt32} (he : run.Occurs i a e) (hne : v ≠ r)
    (hpos : 0 < (offered a .requestVoteReply (run.output i)).countP
      (isGrant v t (cfg.ID r))) :
    a = v ∧ ∃ g x, e = .vote g x ∧ x.validData = true ∧
      isRequest r t x = true := by
  obtain ⟨y, hy, hgrant⟩ := List.countP_pos_iff.mp hpos
  obtain ⟨rfl, hgranted, rfl, hcandidate⟩ := of_decide_eq_true hgrant
  obtain ⟨-, rfl, hp⟩ := mem_offered hy
  have hi := Nat.le_of_lt he.lt
  refine ⟨rfl, ?_⟩
  generalize hm : y.data = m at *
  cases published_cases he.react hp with
  | voteGranted g x hx hterm hvote =>
      refine ⟨g, x, rfl, hx, decide_eq_true ⟨?_, ?_⟩⟩
      · have hpending := handled_pending he (t := .requestVote)
          (List.mem_singleton_self x) hx
        have hsender := (request_started hi hpending).2
        simp only [requestVoteReplyMessage, uint8OfLong_longOfUInt8, hvote,
          hsender] at hcandidate
        exact hcfg.distinct hcandidate
      · simp [requestVoteReplyMessage, hterm]
  | voteRefused g x hx hterm hvote hsame =>
      -- a refusal grants only by a flag left over from an earlier request
      have hflag : g = true := by
        simpa [requestVoteReplyMessage] using hgranted
      subst hflag
      refine absurd ⟨hx, hterm, hvote, ?_⟩ (hsticky i _ x he)
      simp only [requestVoteReplyMessage, uint8OfLong_longOfUInt8,
        hsame] at hcandidate
      rw [hcandidate, ID_eq hi]
      exact fun heq => hne (hcfg.distinct heq).symm

/-- Only a new request issues a ballot, and a handled grant is one less. -/
theorem ballots_step [Fintype ι] (hcfg : Deployed cfg)
    (hsticky : NoStickyGrant run) {i : Nat} {a r v : ι} {e : Event ι}
    {t : UInt32} (he : run.Occurs i a e) (hne : v ≠ r) :
    (if r = a then valid (handled e .requestVoteReply) else []).countP
        (isGrant v t (cfg.ID r)) + ballots run (i + 1) r t v ≤
      ballots run i r t v +
        (offered a .requestVote (run.output i)).countP (isRequest r t) := by
  have hrequests := (he.pending v .requestVote).countP_le (isRequest r t)
  have hgrants := (he.pending r .requestVoteReply).countP_le
    (isGrant v t (cfg.ID r))
  rw [List.countP_append, List.countP_append] at hrequests hgrants
  have hanswer : (offered a .requestVoteReply (run.output i)).countP
      (isGrant v t (cfg.ID r)) ≤
      (if v = a then valid (handled e .requestVote) else []).countP
        (isRequest r t) := by
    by_cases hpos : 0 < (offered a .requestVoteReply (run.output i)).countP
      (isGrant v t (cfg.ID r))
    · obtain ⟨rfl, g, x, rfl, hx, hrequest⟩ :=
        grant_offered hcfg hsticky he hne hpos
      have hone : (offered a .requestVoteReply (run.output i)).countP
          (isGrant a t (cfg.ID r)) ≤ 1 :=
        Nat.le_trans List.countP_le_length (offered_length he _)
      simpa [handled, valid, hx, hrequest] using hone
    · omega
  unfold ballots
  omega

/-- A step that does not set up a candidacy of `r` issues no ballot for it. -/
theorem ballots_le [Fintype ι] (hcfg : Deployed cfg)
    (hsticky : NoStickyGrant run) {i : Nat} {a r v : ι} {e : Event ι}
    {t : UInt32} (he : run.Occurs i a e) (hne : v ≠ r)
    (hstart : a = r → e ≠ .start) :
    ballots run (i + 1) r t v ≤ ballots run i r t v := by
  have hstep := ballots_step hcfg hsticky (t := t) he hne
  have hnone : (offered a .requestVote (run.output i)).countP
      (isRequest r t) = 0 := by
    by_contra hpos
    obtain ⟨har, hevent, -⟩ := request_offered he (Nat.pos_of_ne_zero hpos)
    exact hstart har hevent
  omega

/-- Every voter has at most one ballot for every candidacy of another
replica. -/
theorem ballots_le_one [Fintype ι] (hcfg : Deployed cfg)
    (hwrap : NoTermWrap run) (hsticky : NoStickyGrant run) {i : Nat}
    (hi : i ≤ run.length) {r v : ι} (t : UInt32) (hne : v ≠ r) :
    ballots run i r t v ≤ 1 := by
  refine induction_on (P := fun i => ballots run i r t v ≤ 1) ?_
    (fun i a e he ih => ?_) i hi
  · rw [ballots_eq_zero hcfg (Nat.zero_le _)]
    · omega
    · rintro ⟨j, hj, -⟩
      omega
  · have hstep := ballots_step hcfg hsticky (t := t) he hne
    have hone : (offered a .requestVote (run.output i)).countP
        (isRequest r t) ≤ 1 :=
      Nat.le_trans List.countP_le_length (offered_length he _)
    by_cases hpos : 0 < (offered a .requestVote (run.output i)).countP
      (isRequest r t)
    · obtain ⟨rfl, rfl, hterm⟩ := request_offered he hpos
      have hnew : ballots run i a t v = 0 := by
        refine ballots_eq_zero hcfg (Nat.le_of_lt he.lt) ?_ v
        rintro ⟨j, hj, hstart, hsame⟩
        have hji := start_injective hwrap hstart he (hsame.trans hterm.symm)
        omega
      omega
    · omega

/-! ## The voters behind `votes_received` -/

/-- Within the first `i` steps `v` had a vote for `r` on record in term `t`. -/
def Voted (run : Execution cfg) (i : Nat) (r : ι) (t : UInt32) (v : ι) : Prop :=
  ∃ j ≤ i, (run.replica j v).currentTerm = t ∧
    (run.replica j v).votedFor = cfg.ID r

theorem Voted.mono {i j : Nat} {r v : ι} {t : UInt32}
    (h : Voted run i r t v) (hij : i ≤ j) : Voted run j r t v := by
  obtain ⟨k, hk, hvote⟩ := h
  exact ⟨k, by omega, hvote⟩

/-- The voters that `votes` counts for the candidacy of `r` in term `t`. -/
structure Backing (run : Execution cfg) (i : Nat) (r : ι) (t : UInt32)
    (votes : Nat) (voters : Finset ι) : Prop where
  tally : Tally r (ballots run i r t) votes voters
  voted : ∀ v ∈ voters, Voted run i r t v

/-- Counting a reply of another replica adds one voter. -/
theorem Backing.count [Fintype ι] (hcfg : Deployed cfg)
    (hwrap : NoTermWrap run) (hsticky : NoStickyGrant run) {i : Nat} {r : ι}
    {x : Sample ι RequestVoteReply} (he : run.Occurs i r (.reply x))
    (hx : CountsReply (run.replica i r) x) (hother : x.publicationHandle ≠ r)
    {votes : Nat} {voters : Finset ι}
    (h : Backing run i r (run.replica i r).currentTerm votes voters) :
    Backing run (i + 1) r (run.replica i r).currentTerm (votes + 1)
      (insert x.publicationHandle voters) := by
  have hi := Nat.le_of_lt he.lt
  obtain ⟨t, helection, hgranted, hterm, hcandidate⟩ := hx.counts
  have ht := candidacy hi r (by simp [hx.candidate])
  rw [helection, Option.some.injEq] at ht
  subst ht
  rw [ID_eq hi] at hcandidate
  have hgrant : isGrant x.publicationHandle (run.replica i r).currentTerm
      (cfg.ID r) x = true :=
    decide_eq_true ⟨rfl, hgranted, hterm, hcandidate⟩
  have hstep := ballots_step hcfg hsticky
    (t := (run.replica i r).currentTerm) he hother
  have hone := ballots_le_one hcfg hwrap hsticky hi
    (run.replica i r).currentTerm hother
  have hrequest : (offered r .requestVote (run.output i)).countP
      (isRequest r (run.replica i r).currentTerm) = 0 := by
    by_contra hpos
    cases (request_offered he (Nat.pos_of_ne_zero hpos)).2.1
  simp only [handled, valid, hx.valid, List.filter_cons, if_true,
    List.filter_nil, List.countP_cons, List.countP_nil, hgrant] at hstep
  refine ⟨h.tally.count hother (by omega) (by omega) fun w hw => ?_, ?_⟩
  · exact ballots_le hcfg hsticky he hw (fun _ => by simp)
  · intro v hv
    rcases Finset.mem_insert.mp hv with rfl | hold
    · obtain ⟨j, hj, hjterm, hjvote, -⟩ := pending_reply hcfg.ID_ne hi
        (handled_pending he (t := .requestVoteReply)
          (List.mem_singleton_self x) hx.valid) hgranted
      exact ⟨j + 1, by omega, hjterm.symm.trans hterm,
        hjvote.symm.trans hcandidate⟩
    · exact (h.voted v hold).mono (by omega)

/-- There is room for another vote in the eight bits of the counter. -/
theorem Backing.votes_succ [Fintype ι] (hcfg : Deployed cfg) {i : Nat} {r : ι}
    {t : UInt32} {n : UInt8} {voters : Finset ι}
    (h : Backing run i r t n.toNat voters) : (n + 1).toNat = n.toNat + 1 := by
  have hcard := Nat.le_trans (Finset.card_le_univ voters) hcfg.card_le
  rw [h.tally.card] at hcard
  rw [UInt8.toNat_add]
  change (n.toNat + 1) % 256 = n.toNat + 1
  omega

/-- Every candidate has as many distinct voters as it has counted votes. -/
theorem candidate_backing [Fintype ι] (hcfg : Deployed cfg)
    (hwrap : NoTermWrap run) (hown : NoOwnReply run)
    (hsticky : NoStickyGrant run) {i : Nat} (hi : i ≤ run.length) {r : ι}
    (hrole : (run.replica i r).role = .candidate) :
    ∃ voters, Backing run i r (run.replica i r).currentTerm
      (run.replica i r).votesReceived.toNat voters := by
  revert hrole
  refine induction_on (P := fun i => (run.replica i r).role = .candidate →
    ∃ voters, Backing run i r (run.replica i r).currentTerm
      (run.replica i r).votesReceived.toNat voters) ?_
    (fun i a e he ih hrole => ?_) i hi
  · intro hrole
    rw [replica_zero] at hrole
    cases hrole
  · have hi := Nat.le_of_lt he.lt
    by_cases har : r = a
    · subst har
      rcases React.candidate he.react hrole with ⟨rfl, hvotes, hvote⟩ |
        ⟨hstart, hbefore, hterm, hvotes⟩
      · rw [hvotes]
        refine ⟨{r}, Tally.single r _, fun v hv => ?_⟩
        rw [Finset.mem_singleton.mp hv]
        exact ⟨i + 1, Nat.le_refl _, rfl, hvote.trans (ID_eq hi r)⟩
      · obtain ⟨voters, hback⟩ := ih hbefore
        rw [hterm]
        rcases hvotes with hsame | ⟨x, rfl, hx, hsucc⟩
        · rw [hsame]
          exact ⟨voters, hback.tally.mono fun v hv =>
            ballots_le hcfg hsticky he hv fun _ => hstart,
            fun v hv => (hback.voted v hv).mono (by omega)⟩
        · rw [hsucc, hback.votes_succ hcfg]
          exact ⟨_, hback.count hcfg hwrap hsticky he hx (hown i r x he hx)⟩
    · rw [he.frame har] at hrole ⊢
      obtain ⟨voters, hback⟩ := ih hrole
      exact ⟨voters, hback.tally.mono fun v hv =>
        ballots_le hcfg hsticky he hv fun h => absurd h.symm har,
        fun v hv => (hback.voted v hv).mono (by omega)⟩

/-! ## Quorums -/

/-- A new leader has a majority of the replicas behind it. -/
theorem leader_backing [Fintype ι] (hcfg : Deployed cfg)
    (hwrap : NoTermWrap run) (hown : NoOwnReply run)
    (hsticky : NoStickyGrant run) {i : Nat} {r : ι} {t : UInt32}
    (hleader : run.BecomesLeader i r t) :
    ∃ voters : Finset ι, r ∈ voters ∧ cfg.activeReplicas < 2 * voters.card ∧
      ∀ v ∈ voters, Voted run (i + 1) r t v := by
  obtain ⟨x, electionTerm, he, hwon⟩ := hleader.won
  obtain ⟨voters, hback⟩ := candidate_backing hcfg hwrap hown hsticky
    (Nat.le_of_lt he.lt) hwon.role
  have hx : CountsReply (run.replica i r) x :=
    ⟨hwon.valid, hwon.role, electionTerm, hwon.election, hwon.counts⟩
  have hnew := hback.count hcfg hwrap hsticky he hx (hown i r x he hx)
  rw [hleader.2.2.2] at hnew
  refine ⟨_, hnew.tally.own_mem, ?_, hnew.voted⟩
  have hmost := hwon.majority
  rw [hback.votes_succ hcfg] at hmost
  rw [hnew.tally.card]
  omega

/-- Whenever a replica becomes leader, more than half of the replicas, itself
included, have had a vote for it on record in its term. -/
def QuorumSound (run : Execution cfg) : Prop :=
  ∀ i r t, run.BecomesLeader i r t →
    ∃ voters : Finset ι, r ∈ voters ∧ cfg.activeReplicas < 2 * voters.card ∧
      ∀ v ∈ voters, Voted run (i + 1) r t v

/-- Quorum soundness holds in every run in which no candidate counts its own
reply and no granted flag reaches a later, refused request. -/
theorem quorum_sound [Fintype ι] (hcfg : Deployed cfg) (run : Execution cfg)
    (hwrap : NoTermWrap run) (hown : NoOwnReply run)
    (hsticky : NoStickyGrant run) : QuorumSound run :=
  fun _ _ _ hleader => leader_backing hcfg hwrap hown hsticky hleader

theorem threeReplicas_deployed : Deployed threeReplicas where
  card := rfl
  distinct := by decide
  oneDigit := by decide

/-- Replica 2 is elected by replica 0. -/
def election : Execution threeReplicas where
  labels := electReplica2
  executes := by decide +kernel

/-- The hypotheses hold of this election, and its leader has its quorum. -/
theorem quorum_sound_election :
    election.BecomesLeader 8 2 1 ∧
      ∃ voters : Finset (Fin 3), 2 ∈ voters ∧ 3 < 2 * voters.card ∧
        ∀ v ∈ voters, Voted election 9 2 1 v := by
  have hleader : election.BecomesLeader 8 2 1 := by decide +kernel
  exact ⟨hleader, quorum_sound threeReplicas_deployed election
    (noTermWrap_of_terms (by decide +kernel))
    (noOwnReply_of_batches (by decide +kernel))
    (noStickyGrant_of_flags (by decide +kernel)) 8 2 1 hleader⟩

/-- Replicas 1 and 2 are candidates of term 1, and each refuses the other.
Replica 1 also takes its own request and, with the refusal of replica 2, its
own reply. -/
def ownVoteLeader : Execution threeReplicas where
  labels := [(1, .electionTimeout), (2, .electionTimeout),
      (1, .deliver .requestVote 1), (1, .deliver .requestVote 0)] ++
    handleRequests 1 2 ++ [(2, .deliver .requestVote 0)] ++
    handleRequests 2 1 ++
    [(1, .deliver .requestVoteReply 1), (1, .deliver .requestVoteReply 1)] ++
    handleReplies 1 1
  executes := by decide +kernel

/-- It becomes leader with no vote but its own. -/
theorem ownVoteLeader_not_quorumSound : ¬ QuorumSound ownVoteLeader := by
  intro h
  obtain ⟨voters, -, hmost, hvoted⟩ := h 16 1 1 (by decide +kernel)
  have hnone : ∀ v, v ≠ 1 → ∀ j ≤ 17,
      ¬ ((ownVoteLeader.replica j v).currentTerm = 1 ∧
        (ownVoteLeader.replica j v).votedFor = threeReplicas.ID 1) := by
    decide +kernel
  have hsubset : voters ⊆ {1} := by
    intro v hv
    by_contra hne
    obtain ⟨j, hj, hvote⟩ := hvoted v hv
    exact hnone v (by simpa using hne) j hj hvote
  have hcard := Finset.card_le_card hsubset
  rw [Finset.card_singleton] at hcard
  have hactive : threeReplicas.activeReplicas = 3 := rfl
  omega

end RevPiRaft.Ports.VoteCounting
