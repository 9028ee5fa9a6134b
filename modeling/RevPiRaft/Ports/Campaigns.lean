import Mathlib.Algebra.Group.Nat.Defs
import Mathlib.Data.List.Nodup
import RevPiRaft.Ports.Handlers
import RevPiRaft.Ports.VoteDecision
import RevPiRaft.Ports.StartedTerms

/-!
# What a process can do on its own

The parts of an election, each as something the steps of one process lead to:
the handlers return without leaving the terms behind (`exists_calm`), samples
in flight arrive (`exists_arrived`), a waiting process runs for any later term
(`exists_campaign`), votes for the candidate of a newer term (`exists_vote`),
gives up its leadership on a heartbeat (`exists_deposed`), and wins with enough
votes (`exists_win`).
-/

namespace RevPiRaft.Ports.Campaigns

open RevPiRaft.Verified.Progress
open RevPiRaft.Ports.Datamodel
open RevPiRaft.Ports.ReplicaCore
open RevPiRaft.Ports.LeaderElection
open RevPiRaft.Ports.ConsensusManager
open RevPiRaft.Ports.Process
open RevPiRaft.Ports.StepInversion
open RevPiRaft.Ports.Events
open RevPiRaft.Ports.Reactions
open RevPiRaft.Ports.Pending
open RevPiRaft.Ports.TermMonotone
open RevPiRaft.Ports.StartedTerms
open RevPiRaft.Ports.Loops
open RevPiRaft.Ports.Environment
open RevPiRaft.Ports.AppendReplies
open RevPiRaft.Ports.VoteDecision
open RevPiRaft.Ports.Mutex
open RevPiRaft.Ports.Handlers

variable {ι : Type} {N : Nat} {ID : UInt8}

/-- Some steps of a process on its own lead from `n` to `n'`.  The identifier
of `process` is only that of its initial state. -/
abbrev Can (N : Nat) (n n' : Node ι) : Prop :=
  Leads (process N 0) (fun _ => True) n n'

theorem can_step {n n' : Node ι} {a : Action ι} {out : List Publication}
    (h : Step N n a n' out) : Can N n n' :=
  Leads.step trivial (show (process N 0).step n a = _ from h.step_eq)

/-! ## Bounds on the terms -/

/-- The samples that have arrived, unread or in a batch. -/
def arrived (n : Node ι) (t : Topic) : List (Sample ι t.Msg) :=
  n.unread t ++ batch n t

/-- No sample with data has a term above `B`. -/
def TermsWithin (B : Nat) (t : Topic) (l : List (Sample ι t.Msg)) : Prop :=
  ∀ x ∈ l, x.validData = true → (t.term x.data).toNat ≤ B

/-- The election thread may still start another election before it waits. -/
def restarts : ElectionThread ι → Nat
  | .electionLap _ _ => 1
  | .electionLoop _ _ _ => 1
  | .electionPass => 1
  | _ => 0

/-- No term at the process is above `B`, except that of an election which the
election thread has started or may start before it waits. -/
structure Bounded (B : Nat) (n : Node ι) : Prop where
  term : n.replica.currentTerm.toNat + restarts n.electionThread ≤ B + 1
  samples : ∀ t, TermsWithin B t (arrived n t)

theorem restarts_endElectionLoop (g : List VoteCondition) (k : Nat) (f : Bool)
    (batch : List (Sample ι AppendEntries)) :
    restarts (endElectionLoop g k f batch) ≤ 1 := by
  cases batch with
  | nil =>
      unfold endElectionLoop endElectionLap
      repeat' split
      all_goals simp [restarts]
  | cons x batch => exact Nat.le_refl 1

theorem endAppendLoop_restarts (batch : List (Sample ι AppendEntries)) :
    restarts (endAppendLoop batch) = 0 := by
  cases batch <;> rfl

/-- What a handler has handled or left over had arrived. -/
theorem arrived_step {n n' : Node ι} {a : Action ι} {out : List Publication}
    (ha : Handling a) (h : n.step N a = some (n', out)) (t : Topic) :
    ∀ x ∈ handled (event n a) t ++ arrived n' t, x ∈ arrived n t := by
  cases step_cases h with
  | electionTake | voteEnter | replyEnter =>
      cases t <;>
        simp [event, handled, arrived, batch, Node.unread, Node.take, *]
  | appendStep x b hthread | electionStep k f x b hthread
  | voteStep k g x b hthread =>
      cases t <;>
        simp only [event, handled, arrived, batch, Node.unread, hthread,
          batch_endAppendLoop, batch_endElectionLoop, requests_endVoteLoop,
          threadAppends_thread, threadRequests_thread, threadReplies_thread] <;>
        grind
  | replyStep k x b r hthread hr =>
      have hrest : ∀ y ∈ (if r.2 = true then [] else b), y ∈ b := by
        split
        · exact fun y hy => absurd hy List.not_mem_nil
        · exact fun y hy => hy
      cases t <;>
        simp only [event, handled, arrived, batch, Node.unread, hthread,
          replies_endReplyLoop, threadRequests_thread, threadReplies_thread] <;>
        grind
  | electionSkip k f hthread | electionRestart hthread
  | electionWaitTimeout hthread =>
      cases t <;>
        simp [event, handled, arrived, batch, Node.unread, Node.electionSetUp,
          hthread]
  | _ => exact absurd ha id

/-- Only an election set-up takes up the election the thread may start. -/
theorem restarts_step {n n' : Node ι} {a : Action ι} {out : List Publication}
    (ha : Handling a) (h : n.step N a = some (n', out)) :
    restarts n'.electionThread ≤ restarts n.electionThread ∧
      (event n a = .start →
        restarts n'.electionThread + 1 = restarts n.electionThread) := by
  cases step_cases h with
  | appendStep x b hthread =>
      rw [endAppendLoop_restarts]
      refine ⟨Nat.zero_le _, fun hstart => ?_⟩
      simp [event, hthread] at hstart
  | electionTake k f hthread =>
      rw [hthread]
      exact ⟨restarts_endElectionLoop _ _ _ _, fun hstart => by cases hstart⟩
  | electionStep k f x b hthread =>
      rw [hthread]
      refine ⟨restarts_endElectionLoop _ _ _ _, fun hstart => ?_⟩
      simp [event, hthread] at hstart
  | electionSkip k f hthread =>
      rw [hthread]
      exact ⟨restarts_endElectionLoop _ _ _ [], fun hstart => by cases hstart⟩
  | electionRestart hthread =>
      rw [hthread]
      exact ⟨Nat.zero_le _, fun _ => rfl⟩
  | electionWaitTimeout hthread =>
      exact ⟨Nat.zero_le _, fun hstart => by cases hstart⟩
  | voteStep k g x b hthread | replyStep k x b r hthread =>
      refine ⟨Nat.le_refl _, fun hstart => ?_⟩
      simp [event, hthread] at hstart
  | voteEnter | replyEnter =>
      exact ⟨Nat.le_refl _, fun hstart => by cases hstart⟩
  | _ => exact absurd ha id

theorem bounded_step {B : Nat} {n n' : Node ι} {a : Action ι}
    {out : List Publication} (ha : Handling a)
    (h : n.step N a = some (n', out)) (hn : Bounded B n) : Bounded B n' := by
  have harrived := arrived_step ha h
  obtain ⟨hless, hstarts⟩ := restarts_step ha h
  have hterm := hn.term
  constructor
  case samples =>
    intro t x hx
    exact hn.samples t x (harrived t x (List.mem_append_right _ hx))
  case term =>
    rcases React.term (react_cases (step_react h)) with hsame |
      ⟨hstart, hsucc⟩ | ⟨t, x, hx, hvalid, hnew⟩
    · rw [hsame]
      omega
    · have hgone := hstarts hstart
      have hle := toNat_succ_le n.replica.currentTerm
      rw [hsucc]
      omega
    · have hle := hn.samples t x
        (harrived t x (List.mem_append_left _ hx)) hvalid
      have hone : restarts n'.electionThread ≤ 1 := by
        cases n'.electionThread <;> simp [restarts]
      rw [hnew]
      omega

/-- Both threads wait, and no term at the process is above `B`. -/
structure Calm (B : Nat) (n : Node ι) : Prop where
  waiting : Waiting n
  term : n.replica.currentTerm.toNat ≤ B
  unread : ∀ t, TermsWithin B t (n.unread t)

theorem Calm.mono {B C : Nat} {n : Node ι} (h : Calm B n) (hle : B ≤ C) :
    Calm C n where
  waiting := h.waiting
  term := Nat.le_trans h.term hle
  unread := fun t x hx hvalid => Nat.le_trans (h.unread t x hx hvalid) hle

/-- The handlers return, with at most one more election. -/
theorem exists_calm {B : Nat} {n : Node ι}
    (h : (openProcess N ID).Reachable n) (hn : Bounded B n) :
    ∃ n', Can N n n' ∧ Calm (B + 1) n' := by
  have hwork : ∀ (n : Node ι) a n' out, Handling a →
      (process N 0).step n a = some (n', out) → work n' < work n :=
    fun n a n' out ha hstep => work_step ha hstep
  obtain ⟨n', hleads, hstuck⟩ := exists_stuck work hwork n
  have hreachable := reachable_leads h hleads
  have hbounded : Bounded B n' := hleads.invariant (I := Bounded B)
    (fun _ _ _ _ ha hn hstep => bounded_step ha hstep hn) hn
  refine ⟨n', hleads.mono fun _ _ => trivial, ?_, ?_, fun t x hx hvalid => ?_⟩
  · exact stuck_waiting (reachable_underway hreachable)
      (reachable_candidacy hreachable) hstuck
  · have hterm := hbounded.term
    omega
  · have hle := hbounded.samples t x (List.mem_append_left _ hx) hvalid
    omega

/-! ## Arrivals -/

/-- The samples `l` of topic `t` arrive. -/
structure Arrived (t : Topic) (l : List (Sample ι t.Msg)) (n n' : Node ι) :
    Prop where
  same : n' = { n with reader := n'.reader }
  unread : n'.unread t = n.unread t ++ l
  others : ∀ u, u ≠ t → n'.unread u = n.unread u

theorem mem_eraseIdx_of_ne {α : Type} {l : List α} {k : Nat} {x y : α}
    (hx : l[k]? = some x) (hy : y ∈ l) (hne : y ≠ x) : y ∈ l.eraseIdx k := by
  obtain ⟨hk, hget⟩ := List.getElem?_eq_some_iff.mp hx
  have hmem := (List.getElem_cons_eraseIdx_perm hk).mem_iff.mpr hy
  rw [hget] at hmem
  exact (List.mem_cons.mp hmem).resolve_left hne

theorem exists_arrived (t : Topic) {l : List (Sample ι t.Msg)} (hl : l.Nodup)
    {n : Node ι} (h : ∀ x ∈ l, x ∈ (n.reader t).inflight) :
    ∃ n', Can N n n' ∧ Arrived t l n n' := by
  induction l generalizing n with
  | nil => exact ⟨n, .refl n, rfl, by simp, fun _ _ => rfl⟩
  | cons x l ih =>
      obtain ⟨hnew, hl⟩ := List.nodup_cons.mp hl
      obtain ⟨k, hk⟩ := List.mem_iff_getElem?.mp (h x List.mem_cons_self)
      have hdeliver : Can N n _ := can_step (.deliver t k x hk)
      have hrest : ∀ y ∈ l, y ∈ (n.reader t).inflight.eraseIdx k := by
        intro y hy
        refine mem_eraseIdx_of_ne hk (h y (List.mem_cons_of_mem x hy)) ?_
        rintro rfl
        exact hnew hy
      obtain ⟨n', hcan, harrived⟩ := ih hl (n := { n with
        reader := Function.update n.reader t
          { inflight := (n.reader t).inflight.eraseIdx k
            unread := (n.reader t).unread ++ [x] } })
        (by simpa using hrest)
      refine ⟨n', hdeliver.trans hcan, harrived.same, ?_, fun u hu => ?_⟩
      · rw [harrived.unread]
        simp [Node.unread]
      · rw [harrived.others u hu]
        simp [Node.unread, hu]

theorem Arrived.calm {B : Nat} {t : Topic} {l : List (Sample ι t.Msg)}
    {n n' : Node ι} (h : Arrived t l n n') (hl : TermsWithin B t l)
    (hn : Calm B n) : Calm B n' := by
  rw [h.same]
  refine ⟨hn.waiting, hn.term, fun u x hx hvalid => ?_⟩
  have hx : x ∈ n'.unread u := hx
  by_cases hu : u = t
  · subst hu
    rw [h.unread] at hx
    rcases List.mem_append.mp hx with hx | hx
    · exact hn.unread u x hx hvalid
    · exact hl x hx hvalid
  · rw [h.others u hu] at hx
    exact hn.unread u x hx hvalid

/-! ## Running for a later term -/

/-- A calm process that does not lead has waited through `k` elections. -/
theorem exists_candidacies {B : Nat} (k : Nat) {n : Node ι} (hn : Calm B n)
    (hrole : n.replica.role ≠ .leader)
    (hk : n.replica.currentTerm.toNat + k < 2 ^ 32) :
    ∃ n', Can N n n' ∧ Calm (max B (n.replica.currentTerm.toNat + k)) n' ∧
      n'.replica.role ≠ .leader ∧ n'.replica.ID = n.replica.ID ∧
      n'.replica.currentTerm.toNat = n.replica.currentTerm.toNat + k := by
  induction k with
  | zero =>
      exact ⟨n, .refl n, hn.mono (Nat.le_max_left _ _), hrole, rfl, rfl⟩
  | succ k ih =>
      obtain ⟨m, hcan, hm, hloser, hID, hterm⟩ := ih (by omega)
      obtain ⟨hwait, hvote⟩ := hm.waiting
      have hfree := hm.waiting.mutexFree
      have hstart : Can N m m.electionSetUp.1 :=
        can_step (.electionTimeout hwait hfree hloser)
      have hgiveUp : Can N m.electionSetUp.1
          { m.electionSetUp.1 with electionThread := .appendWait } :=
        can_step (.electionWaitTimeout rfl)
      have hsucc : (m.replica.currentTerm + 1).toNat =
          n.replica.currentTerm.toNat + (k + 1) := by
        rw [UInt32.toNat_add, hterm]
        exact Nat.mod_eq_of_lt hk
      refine ⟨_, hcan.trans (hstart.trans hgiveUp), ⟨⟨rfl, hvote⟩, ?_, ?_⟩, ?_,
        hID, hsucc⟩
      · show (m.replica.currentTerm + 1).toNat ≤ _
        omega
      · intro t x hx hvalid
        have hle := hm.unread t x hx hvalid
        omega
      · simp [Node.electionSetUp]

/-- A process right after its election set-up for term `T`. -/
structure Campaigning (B : Nat) (T : UInt32) (n : Node ι) : Prop where
  election : n.electionThread = .electionWait
  vote : n.voteThread = .voteWait
  role : n.replica.role = .candidate
  term : n.replica.currentTerm = T
  electionTerm : n.replica.electionTerm = some T
  votesReceived : n.replica.votesReceived = 1
  unread : ∀ t, TermsWithin B t (n.unread t)

/-- The request for votes in term `T` of the replica with identifier `c`. -/
def requestOf (T : UInt32) (c : UInt8) : RequestVote where
  term := T.toInt32
  senderID := longOfUInt8 c

/-- A calm process that does not lead runs for any later term. -/
theorem exists_campaign {B : Nat} {T : UInt32} {n : Node ι} (hn : Calm B n)
    (hrole : n.replica.role ≠ .leader) (hT : n.replica.currentTerm < T) :
    ∃ m a n', Can N n m ∧
      m.step N a = some
        (n', [⟨.requestVote, requestOf T n.replica.ID⟩]) ∧
      Campaigning (max B T.toNat) T n' := by
  have hlt := UInt32.lt_iff_toNat_lt.mp hT
  have hsize := T.toNat_lt
  obtain ⟨m, hcan, hm, hloser, hID, hterm⟩ := exists_candidacies (N := N)
    (T.toNat - n.replica.currentTerm.toNat - 1) hn hrole (by omega)
  obtain ⟨hwait, hvote⟩ := hm.waiting
  have hfree := hm.waiting.mutexFree
  have hnew : m.replica.currentTerm + 1 = T := by
    apply UInt32.toNat_inj.mp
    rw [UInt32.toNat_add, hterm]
    show (_ + 1) % 2 ^ 32 = _
    rw [Nat.mod_eq_of_lt (by omega)]
    omega
  have hstep := (Step.electionTimeout (N := N) hwait hfree hloser).step_eq
  have hout : m.electionSetUp.2 =
      [⟨.requestVote, requestOf T n.replica.ID⟩] := by
    rw [← hnew, ← hID]
    rfl
  rw [hout] at hstep
  refine ⟨m, _, _, hcan, hstep, rfl, hvote, rfl, hnew, ?_, rfl, ?_⟩
  · show some (m.replica.currentTerm + 1) = some T
    rw [hnew]
  · intro t x hx hvalid
    have hle := hm.unread t x hx hvalid
    omega

/-! ## Voting for the candidate of a newer term -/

/-- The reply of the replica `v` that grants its vote in term `T` to `c`. -/
def grantOf (T : UInt32) (c v : UInt8) : RequestVoteReply where
  senderID := longOfUInt8 v
  term := T.toInt32
  candidateID := longOfUInt8 c
  voteGranted := longOfBool true

/-- A sample of another sender wakes the wait set. -/
theorem triggered_of_mem {n : Node ι} {t : Topic} {x : Sample ι t.Msg}
    (hx : x ∈ n.unread t)
    (hsender : t.senderID x.data ≠ longOfUInt8 n.replica.ID) :
    n.triggered t = true := by
  refine List.any_eq_true.mpr ⟨x, hx, ?_⟩
  rw [queryCondition, (senderQuery_idString _ _).mpr hsender, Bool.or_true]

theorem longOfUInt8_ne {x y : UInt8} (h : x ≠ y) :
    longOfUInt8 x ≠ longOfUInt8 y :=
  fun heq => h (longOfUInt8_inj heq)

/-- The loop over requests comes to the last one without a term above `B`. -/
theorem voteLoop_last {B : Nat} (k : Nat) (g : Bool)
    {l : List (Sample ι RequestVote)} (x : Sample ι RequestVote) {n : Node ι}
    (hthread : n.voteThread =
      endVoteLoop n.collectVotesGuardList k g (l ++ [x]))
    (hterm : n.replica.currentTerm.toNat ≤ B)
    (hl : TermsWithin B .requestVote l) :
    ∃ s g', Can N n
        { n with
          replica := s
          voteThread := .voteLoop k g' [x] } ∧
      s.ID = n.replica.ID ∧ s.currentTerm.toNat ≤ B := by
  induction l generalizing n g with
  | nil =>
      refine ⟨n.replica, g, ?_, rfl, hterm⟩
      have hlast : n.voteThread = .voteLoop k g [x] := hthread
      rw [← hlast]
      exact .refl n
  | cons y l ih =>
      have hreact : React N n.replica (.vote g y)
          (voteIteration n.replica g y).1 _ := react_cases rfl
      have hle : (voteIteration n.replica g y).1.currentTerm.toNat ≤ B := by
        rcases React.term hreact with hsame | ⟨hstart, -⟩ |
          ⟨t, z, hz, hvalid, hnew⟩
        · rw [hsame]
          exact hterm
        · cases hstart
        · rw [hnew]
          cases t with
          | requestVote =>
              obtain rfl := List.mem_singleton.mp hz
              exact hl z List.mem_cons_self hvalid
          | _ => cases hz
      have hstep : Can N n _ := can_step (.voteStep k g y (l ++ [x]) hthread)
      obtain ⟨s, g', hcan, hID, hs⟩ := ih (voteIteration n.replica g y).2.1
        (n := { n with
          replica := (voteIteration n.replica g y).1
          voteThread := endVoteLoop n.collectVotesGuardList k
            (voteIteration n.replica g y).2.1 (l ++ [x]) })
        rfl hle (fun z hz => hl z (List.mem_cons_of_mem y hz))
      exact ⟨s, g', hstep.trans hcan, hID.trans (React.ID_eq hreact), hs⟩

/-- The process has voted for `c` in term `T` and waits. -/
structure VotedFor (c : UInt8) (T : UInt32) (s : Replica) : Prop where
  role : s.role = .follower
  term : s.currentTerm = T
  vote : s.votedFor = c

/-- A calm process votes for the candidate of a newer term. -/
theorem exists_vote {B : Nat} {T : UInt32} {c : UInt8} {n : Node ι}
    (hn : Calm B n) (hB : B < T.toNat) (hc : c ≠ n.replica.ID)
    {x : Sample ι RequestVote} (hvalid : x.validData = true)
    (hdata : x.data = requestOf T c)
    (hx : x ∈ (n.reader .requestVote).inflight) :
    ∃ m a n', Can N n m ∧
      m.step N a = some
        (n', [⟨.requestVoteReply, grantOf T c n.replica.ID⟩]) ∧
      Calm T.toNat n' ∧ VotedFor c T n'.replica := by
  have hterm : x.data.term.toUInt32 = T := by
    rw [hdata]
    simp [requestOf]
  have hsender : x.data.senderID = longOfUInt8 c := by
    rw [hdata]
    rfl
  obtain ⟨n₁, hcan₁, harrived⟩ := exists_arrived (N := N)
    .requestVote (List.nodup_singleton x) (n := n)
    (fun y hy => List.mem_singleton.mp hy ▸ hx)
  have hreplica : n₁.replica = n.replica := by
    rw [harrived.same]
  have hwaiting : Waiting n₁ := by
    rw [harrived.same]
    exact hn.waiting
  have hbatch := harrived.unread
  -- the request wakes the vote thread, which takes it as the last of its batch
  have hwake : n₁.triggered .requestVote = true := by
    refine triggered_of_mem (x := x) (by simp [hbatch]) ?_
    show x.data.senderID ≠ _
    rw [hsender, hreplica]
    exact longOfUInt8_ne hc
  have hcan₂ : Can N n₁ _ := can_step (.voteWake [.requestVote] hwaiting.2
    (by simp) (by simp) (by simpa [VoteCondition.topic] using hwake))
  have hcan₃ : Can N
      { n₁ with
        collectVotesGuardList := [.requestVote]
        voteThread := .voteLap 0 } _ := can_step (.voteEnter 0 rfl
    ((mutexFree_iff _).mpr
      ⟨by rw [hwaiting.1]; rfl, rfl⟩) rfl)
  obtain ⟨s, g, hcan₄, hID, hs⟩ := voteLoop_last (N := N) (B := B)
    0 false x (l := n.unread .requestVote)
    (n := { n₁.take .requestVote with
      collectVotesGuardList := [.requestVote]
      voteThread := endVoteLoop [.requestVote] 0 false
        (n₁.unread .requestVote) })
    (congrArg (endVoteLoop [.requestVote] 0 false) hbatch)
    (by
      show n₁.replica.currentTerm.toNat ≤ B
      rw [hreplica]
      exact hn.term)
    (hn.unread .requestVote)
  have hnewer : s.currentTerm < x.data.term.toUInt32 := by
    rw [hterm, UInt32.lt_iff_toNat_lt]
    omega
  have hstep := (Step.voteStep (N := N) (n := { n₁.take .requestVote with
      replica := s
      collectVotesGuardList := [.requestVote]
      voteThread := .voteLoop 0 g [x] }) 0 g x [] rfl).step_eq
  have hout : requestVoteReplyMessage
      (recordVote (s.becomeFollower x.data.term.toUInt32) x) true =
        grantOf T c n.replica.ID := by
    have hID : s.ID = n.replica.ID := hID.trans (by rw [← hreplica]; rfl)
    simp [requestVoteReplyMessage, recordVote, grantOf, hterm, hsender, hID]
  rw [voteIteration_newer g hvalid hnewer, hout] at hstep
  refine ⟨_, _, _, hcan₁.trans (hcan₂.trans (hcan₃.trans hcan₄)), hstep,
    ⟨⟨hwaiting.1, rfl⟩, ?_, fun t y hy hvalid => ?_⟩, ?_⟩
  · simp [hterm]
  · have hy : y ∈ (n₁.take .requestVote).unread t := hy
    rw [take_unread] at hy
    split at hy
    · cases hy
    · rename_i ht
      rw [harrived.others t ht] at hy
      have hle := hn.unread t y hy hvalid
      omega
  · exact ⟨by simp, by simp [hterm], by simp [hsender]⟩

/-! ## Giving up a leadership -/

/-- The loop over heartbeats keeps to the terms of its batch, and a sample of
no older term ends a leadership. -/
theorem runElectionTimerBatch_within {B : Nat} {s : Replica}
    {l : List (Sample ι AppendEntries)} (hterm : s.currentTerm.toNat ≤ B)
    (hl : TermsWithin B .appendEntries l) {x : Sample ι AppendEntries}
    (hx : x ∈ l) (hvalid : x.validData = true)
    (hnew : s.currentTerm ≤ x.data.term.toUInt32) :
    (s.runElectionTimerBatch l).1.currentTerm.toNat ≤ B ∧
      (s.runElectionTimerBatch l).1.role = .follower := by
  have hbound : ∀ (l : List (Sample ι AppendEntries)) (s : Replica),
      s.currentTerm.toNat ≤ B → TermsWithin B .appendEntries l →
      (s.runElectionTimerBatch l).1.currentTerm.toNat ≤ B := by
    intro l
    induction l with
    | nil => exact fun s hs _ => hs
    | cons y l ih =>
        intro s hs hl
        refine ih _ ?_ (fun z hz => hl z (List.mem_cons_of_mem y hz))
        have hreact : React 0 s (.append y) (s.appendEntriesIteration y).1 _ :=
          react_cases rfl
        rcases React.term hreact with hsame | ⟨hstart, -⟩ |
          ⟨t, z, hz, hvalid, hnew⟩
        · rw [hsame]
          exact hs
        · cases hstart
        · rw [hnew]
          cases t with
          | appendEntries =>
              obtain rfl := List.mem_singleton.mp hz
              exact hl z List.mem_cons_self hvalid
          | _ => cases hz
  refine ⟨hbound l s hterm hl, ?_⟩
  rw [runElectionTimerBatch_eq]
  obtain ⟨-, hrole, -⟩ := foldl_observe s (receivedTerms l)
  rw [hrole, if_pos ⟨_, mem_receivedTerms hx hvalid, hnew⟩]

/-- A calm process with a heartbeat of no older term in flight can come to
follow. -/
theorem exists_deposed {B : Nat} {n : Node ι} (hn : Calm B n)
    {x : Sample ι AppendEntries} (hvalid : x.validData = true)
    (hterm : n.replica.currentTerm ≤ x.data.term.toUInt32)
    (hB : x.data.term.toUInt32.toNat ≤ B)
    (hsender : x.data.senderID ≠ longOfUInt8 n.replica.ID)
    (hx : x ∈ (n.reader .appendEntries).inflight) :
    ∃ n', Can N n n' ∧ Calm B n' ∧ n'.replica.role = .follower := by
  obtain ⟨n₁, hcan₁, harrived⟩ := exists_arrived (N := N)
    .appendEntries (List.nodup_singleton x) (n := n)
    (fun y hy => List.mem_singleton.mp hy ▸ hx)
  have hreplica : n₁.replica = n.replica := by
    rw [harrived.same]
  have hwithin : TermsWithin B .appendEntries [x] := by
    intro y hy _
    rw [List.mem_singleton.mp hy]
    exact hB
  have hcalm := harrived.calm hwithin hn
  have hmem : x ∈ n₁.unread .appendEntries := by
    rw [harrived.unread]
    exact List.mem_append_right _ (List.mem_singleton_self x)
  have hwake : n₁.triggered .appendEntries = true := by
    refine triggered_of_mem hmem ?_
    rw [hreplica]
    exact hsender
  have hcan₂ : Can N n₁ _ := can_step
    (.appendWake hcalm.waiting.1 hwake hcalm.waiting.mutexFree)
  have hloop := appendLoop_exec (N := N) 0
    { n₁.take .appendEntries with
      electionThread := endAppendLoop (n₁.unread .appendEntries) }
    (n₁.unread .appendEntries) rfl
  have hcan₃ : Can N _ _ := ⟨_, fun _ _ => trivial, hloop⟩
  have hnew : n₁.replica.currentTerm ≤ x.data.term.toUInt32 := by
    rw [hreplica]
    exact hterm
  obtain ⟨hbound, hrole⟩ := runElectionTimerBatch_within hcalm.term
    (hcalm.unread .appendEntries) hmem hvalid hnew
  refine ⟨_, hcan₁.trans (hcan₂.trans hcan₃),
    ⟨⟨rfl, hcalm.waiting.2⟩, hbound, fun t y hy hvalid => ?_⟩, hrole⟩
  have hy : y ∈ (n₁.take .appendEntries).unread t := hy
  rw [take_unread] at hy
  split at hy
  · cases hy
  · exact hcalm.unread t y hy hvalid

/-- A calm process with an armed timer can write a heartbeat of its term. -/
theorem exists_heartbeat {B : Nat} {n : Node ι} (hn : Calm B n)
    (harmed : n.replica.timerArmed = true)
    (hnext : n.replica.nextIndex.isSome = true) :
    ∃ m a n' message, Can N n m ∧
      m.step N a = some (n', [⟨.appendEntries, message⟩]) ∧
      Calm B n' ∧ n'.replica = n.replica ∧
      message.term.toUInt32 = n.replica.currentTerm ∧
      message.senderID = n.replica.commitIndex.toInt32 := by
  obtain ⟨index, hindex⟩ := Option.isSome_iff_exists.mp hnext
  have hsome : (n.replica.heartbeatMessage fun _ => ⟨0, 0⟩).isSome = true := by
    simp [Replica.heartbeatMessage, hindex]
  obtain ⟨message, hmessage⟩ := Option.isSome_iff_exists.mp hsome
  have hsender : message.senderID = n.replica.commitIndex.toInt32 := by
    obtain ⟨_, -, rfl⟩ := Option.map_eq_some_iff.mp hmessage
    rfl
  have hcan₁ : Can N n _ := can_step (.alarm harmed)
  have hcan₂ : Can N { n with alarms := n.alarms + 1 } _ := can_step
    (.heartbeatBuild _ message (Nat.succ_pos _) hn.waiting.mutexFree hmessage)
  have hlast : (n.heartbeats ++ [message])[n.heartbeats.length]? =
      some message := by simp
  have hstep := (Step.heartbeatWrite (N := N) (n := { n with
    heartbeats := n.heartbeats ++ [message] }) _ message hlast).step_eq
  exact ⟨_, _, _, message, hcan₁.trans hcan₂, hstep,
    ⟨hn.waiting, hn.term, hn.unread⟩, rfl,
    Replica.heartbeatMessage_term hmessage, hsender⟩

/-! ## Winning -/

/-- A vote for the replica in the term of its candidacy counts. -/
theorem counting_grant {s : Replica} {T : UInt32} {v : UInt8}
    {x : Sample ι RequestVoteReply} (hvalid : x.validData = true)
    (hdata : x.data = grantOf T s.ID v) : Counting s T x := by
  refine ⟨hvalid, ?_⟩
  rw [hdata]
  simp [countsVote, grantOf]

/-- Votes of a majority, its own included, make a candidate win. -/
theorem handleVoteReplyMessage_wins {s : Replica} {T : UInt32}
    (hN : N < 510) (htwo : 2 ≤ N) (hrole : s.role = .candidate)
    (hterm : s.currentTerm = T) (helection : s.electionTerm = some T)
    (hvotes : s.votesReceived = 1)
    {old l : List (Sample ι RequestVoteReply)}
    (hold : TermsWithin T.toNat .requestVoteReply old)
    (hl : ∀ x ∈ l, x.validData = true ∧ ∃ v, x.data = grantOf T s.ID v)
    (hmost : N < 2 * (l.length + 1)) :
    ∃ s', handleVoteReplyMessage N s (old ++ l) = some s' ∧
      s'.role = .leader ∧ s'.currentTerm = T := by
  subst hterm
  have hone : s.votesReceived.toNat = 1 := by
    rw [hvotes]
    rfl
  obtain ⟨s', hs', hdecided⟩ := handleVoteReplyMessage_decided hN hrole
    helection (by omega) (old ++ l)
  have hcurrent : ∀ x ∈ old ++ l, ¬ Superseding s.currentTerm x := by
    rintro x hx ⟨hvalid, hnewer⟩
    have hlt := UInt32.lt_iff_toNat_lt.mp hnewer
    rcases List.mem_append.mp hx with hx | hx
    · have hle : x.data.term.toUInt32.toNat ≤ s.currentTerm.toNat :=
        hold x hx hvalid
      omega
    · obtain ⟨v, hdata⟩ := (hl x hx).2
      rw [hdata] at hlt
      simp [grantOf] at hlt
  have hall : beforeSuperseding s.currentTerm (old ++ l) = old ++ l := by
    rw [beforeSuperseding, List.takeWhile_eq_self_iff]
    simpa using hcurrent
  have hcount : (l.countP fun x => Counting s s.currentTerm x) = l.length := by
    refine List.countP_eq_length.mpr fun x hx => ?_
    obtain ⟨hvalid, v, hdata⟩ := hl x hx
    simpa using counting_grant hvalid hdata
  have htotal : l.length + 1 ≤ total s (old ++ l) := by
    rw [total, hall, List.countP_append, hcount, hone]
    omega
  obtain ⟨hleader, hsame⟩ := hdecided.won (by omega)
  exact ⟨s', hs', hleader, hsame⟩

/-- A candidate with the votes of a majority in flight can win. -/
theorem exists_win {B : Nat} {T : UInt32} {n : Node ι}
    (hn : Campaigning B T n) (hB : B ≤ T.toNat) (hN : N < 510) (htwo : 2 ≤ N)
    {l : List (Sample ι RequestVoteReply)} (hnodup : l.Nodup)
    (hinflight : ∀ x ∈ l, x ∈ (n.reader .requestVoteReply).inflight)
    (hl : ∀ x ∈ l, x.validData = true ∧
      ∃ v, v ≠ n.replica.ID ∧ x.data = grantOf T n.replica.ID v)
    (hmost : N < 2 * (l.length + 1)) :
    ∃ n', Can N n n' ∧ n'.replica.role = .leader ∧
      n'.replica.currentTerm = T := by
  obtain ⟨n₁, hcan₁, harrived⟩ := exists_arrived (N := N)
    .requestVoteReply hnodup hinflight
  have hreplica : n₁.replica = n.replica := by
    rw [harrived.same]
  have helection : n₁.electionThread = .electionWait := by
    rw [harrived.same]
    exact hn.election
  have hvote : n₁.voteThread = .voteWait := by
    rw [harrived.same]
    exact hn.vote
  -- the first of the votes wakes the vote thread
  have hwake : n₁.triggered .requestVoteReply = true := by
    obtain ⟨x, hx⟩ := List.exists_mem_of_length_pos (l := l) (by omega)
    obtain ⟨-, v, hv, hdata⟩ := hl x hx
    refine triggered_of_mem (x := x) ?_ ?_
    · rw [harrived.unread]
      exact List.mem_append_right _ hx
    · show x.data.senderID ≠ _
      rw [hdata, hreplica]
      exact longOfUInt8_ne hv
  have hcan₂ : Can N n₁ _ := can_step (.voteWake [.requestVoteReply] hvote
    (by simp) (by simp) (by simpa [VoteCondition.topic] using hwake))
  have hcan₃ : Can N
      { n₁ with
        collectVotesGuardList := [.requestVoteReply]
        voteThread := .voteLap 0 } _ := can_step (.replyEnter 0 rfl
    ((mutexFree_iff _).mpr ⟨by rw [helection]; rfl, rfl⟩) rfl)
  have hold : TermsWithin T.toNat .requestVoteReply
      (n.unread .requestVoteReply) := fun x hx hvalid =>
    Nat.le_trans (hn.unread _ x hx hvalid) hB
  obtain ⟨s', hs', hleader, hterm⟩ := handleVoteReplyMessage_wins hN htwo
    (s := n.replica) hn.role hn.term hn.electionTerm hn.votesReceived hold
    (fun x hx => ⟨(hl x hx).1, (hl x hx).2.imp fun _ hv => hv.2⟩) hmost
  have hbatch : n₁.unread .requestVoteReply = n.unread .requestVoteReply ++ l :=
    harrived.unread
  obtain ⟨k, -, hexec⟩ := replyLoop_exec (N := N) 0
    { n₁.take .requestVoteReply with
      collectVotesGuardList := [.requestVoteReply]
      voteThread := endReplyLoop [.requestVoteReply] 0
        (n₁.unread .requestVoteReply) }
    0 (n₁.unread .requestVoteReply) (s := s') rfl
    (by
      show handleVoteReplyMessage N n₁.replica _ = _
      rw [hreplica, hbatch]
      exact hs')
  exact ⟨_, hcan₁.trans (hcan₂.trans (hcan₃.trans
    ⟨_, fun _ _ => trivial, hexec⟩)), hleader, hterm⟩

end RevPiRaft.Ports.Campaigns
