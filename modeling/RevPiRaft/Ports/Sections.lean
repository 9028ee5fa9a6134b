import RevPiRaft.Ports.Ownership

/-!
# Critical sections are atomic

The threads of a replica and their `send_heartbeat` interleave operation by
operation.  Here their stacks are read as rows of critical sections: whoever
owns the mutex is inside of one, and everybody else is outside of all.  As long
as no wait of `run_leader_election` comes back, this is so in every state of
every run, and only the owner changes the replica.  So each section does to the
replica what it does alone, and takes effect at its unlock (`Ordered.step`).
-/

namespace RevPiRaft.Ports.Sections

open RevPiRaft.Ports.Datamodel
open RevPiRaft.Ports.ReplicaCore
open RevPiRaft.Ports.LeaderElection
open RevPiRaft.Ports.Process
open RevPiRaft.Ports.Threads
open RevPiRaft.Ports.Signals
open RevPiRaft.Ports.Ownership

variable {ι : Type} {N : Nat}

/-! ## What a section does -/

/-- The code that comes to a wait. -/
def waitCode : WaitSet → Code
  | .appendEntries => .runElectionTimer
  | .leaderElection => .runElectionTimer
  | .collectVotes => .receiveVoteRequests
  | .input => .main
  | .appendEntriesReply => .sendHeartbeat

/-- The code that a thread or its handler runs. -/
def codeOf : Thread × Layer → Code
  | (t, .code) => t.code
  | (_, .handler) => .sendHeartbeat

/-- The replica before and after a critical section of some code that changes
it. -/
inductive Section (ι : Type) (N : Nat) (s : Replica) :
    Code → Replica → Prop where
  | runElectionTimer (batch : List (Sample ι AppendEntries)) :
      Section ι N s .runElectionTimer (s.runElectionTimerBatch batch).1
  | runLeaderElection (hrole : s.role ≠ .leader) :
      Section ι N s .runElectionTimer (startElection s).1
  | handleVoteMessage (batch : List (Sample ι RequestVote)) :
      Section ι N s .receiveVoteRequests (handleVoteMessage s batch).1
  | handleVoteReplyMessage (batch : List (Sample ι RequestVoteReply))
      (s' : Replica) (hs : handleVoteReplyMessage N s batch = some s') :
      Section ι N s .receiveVoteRequests s'
  | main (batch : List (Sample ι Input)) :
      Section ι N s .main (s.mainInputLap batch)

/-! ## Inside of a section -/

/-- The operations between the first read of a section and its unlock. -/
def inner : Op ι → Bool
  | .assign _ | .returnLoan _ | .incrementTerm | .copyTerm | .voteSelf
  | .setNextIndex | .appendEntry | .becomeLeader | .appendLoop _
  | .appendTest _ | .voteLoop _ | .voteTest _ _ | .replyLoop _
  | .majorityTest _ => true
  | _ => false

/-- They observe nothing of DDS and lead to operations of their kind. -/
theorem inner_perform {s : Replica} {o : Op ι} {r : Result ι}
    {new : List (Op ι)} (ho : inner o = true)
    (h : perform N s o r = some new) : r = .done ∧ new.all inner = true := by
  have hassign : ∀ a, inner (.assign a : Op ι) = true := fun _ => rfl
  cases perform_cases h with
  | appendSample x batch =>
      refine ⟨rfl, ?_⟩
      rw [List.all_append, all_becomeFollowerIf hassign]
      rfl
  | voteSample x batch =>
      refine ⟨rfl, ?_⟩
      rw [List.all_append, all_becomeFollowerIf hassign]
      rfl
  | appendTest receivedTerm =>
      exact ⟨rfl, all_becomeFollowerIf hassign _ _⟩
  | voteTest voteTerm voteCandidate =>
      refine ⟨rfl, ?_⟩
      split <;> rfl
  | replyCount x batch electionTerm =>
      refine ⟨rfl, ?_⟩
      split <;> rfl
  | _ => first | exact ⟨rfl, rfl⟩ | cases ho

/-- They leave the mutex alone. -/
theorem ownerAfter_inner (p : Process ι) (self : Thread × Layer) {o : Op ι}
    (ho : inner o = true) : p.ownerAfter self o = p.owner := by
  cases o <;> first | rfl | cases ho

/-- What is not done yet has a first operation that is performed. -/
theorem alone_uncons {s u : Replica} {o : Op ι} {rest : List (Op ι)}
    (h : Alone N s (o :: rest) u []) :
    ∃ r new, perform N s o r = some new ∧
      Alone N (runOp s o) (new ++ rest) u [] := by
  cases h with
  | step r new ho h => exact ⟨r, new, ho, h⟩

/-- Whatever is performed next leaves the rest of the way. -/
theorem alone_perform {s u : Replica} {o : Op ι} {r : Result ι}
    {left new : List (Op ι)} (ho : inner o = true)
    (h : Alone N s (o :: left) u []) (hnew : perform N s o r = some new) :
    Alone N (runOp s o) (new ++ left) u [] ∧ new.all inner = true := by
  obtain ⟨r', new', ho', hu⟩ := alone_uncons h
  obtain ⟨rfl, hinner⟩ := inner_perform ho hnew
  obtain ⟨rfl, -⟩ := inner_perform ho ho'
  rw [hnew] at ho'
  cases ho'
  exact ⟨hu, hinner⟩

/-- So from everywhere on their way they come to the same result. -/
theorem alone_rest {s t u : Replica} {ops left : List (Op ι)}
    (hops : ops.all inner = true) (hu : Alone N s ops u [])
    (h : Alone N s ops t left) : Alone N t left u [] := by
  induction h with
  | refl => exact hu
  | step r new ho _ ih =>
      rw [List.all_cons, Bool.and_eq_true] at hops
      obtain ⟨hu, hnew⟩ := alone_perform hops.1 hu ho
      apply ih _ hu
      rw [List.all_append, hnew, hops.2]
      rfl

theorem alone_unique {s u v : Replica} {ops : List (Op ι)}
    (hops : ops.all inner = true) (hu : Alone N s ops u [])
    (hv : Alone N s ops v []) : v = u := by
  cases alone_rest hops hu hv
  rfl

/-- What a section has to do after its first read, and before its unlock. -/
inductive Body (s : Replica) : Code → List (Op ι) → Prop where
  | runElectionTimer (batch : List (Sample ι AppendEntries)) :
      Body s .runElectionTimer [.appendLoop batch]
  | runLeaderElection (hrole : s.role ≠ .leader) :
      Body s .runElectionTimer [.assign (.role .candidate), .incrementTerm,
        .copyTerm, .voteSelf, .assign (.votesReceived 1)]
  | handleVoteMessage (batch : List (Sample ι RequestVote)) :
      Body s .receiveVoteRequests
        [.voteLoop batch, .returnLoan .handleVoteMessage]
  | handleVoteReplyMessage (batch : List (Sample ι RequestVoteReply)) :
      Body s .receiveVoteRequests
        [.replyLoop batch, .returnLoan .handleVoteReplyMessage]
  | handleAppendEntriesReplyMessage :
      Body s .sendHeartbeat [.returnLoan .handleAppendEntriesReplyMessage]
  | main (hrole : s.role = .leader) : Body s .main [.appendEntry]
  | nothing (c : Code) : Body s c []

theorem Body.inner {s : Replica} {c : Code} {ops : List (Op ι)}
    (h : Body s c ops) : ops.all Sections.inner = true := by
  cases h <;> rfl

/-- A loop over replies that comes to its end has not failed. -/
theorem replyLoop_succeeds {s u : Replica}
    {batch : List (Sample ι RequestVoteReply)} {rest : List (Op ι)}
    (h : Alone N s (.replyLoop batch :: rest) u []) :
    ∃ s', handleVoteReplyMessage N s batch = some s' := by
  induction batch generalizing s with
  | nil => exact ⟨s, rfl⟩
  | cons x batch ih =>
      rw [handleVoteReplyMessage, voteReplyIteration]
      cases h with
      | step r new ho h =>
          cases perform_cases ho with
          | replySkip _ _ hx =>
              rw [if_neg (by rw [hx]; exact Bool.false_ne_true)]
              exact ih h
          | replyIdle _ _ hx hrole =>
              rw [if_pos hx, if_pos hrole]
              exact ⟨s, rfl⟩
          | replyNewer _ _ electionTerm hx hrole hterm hnewer =>
              rw [if_pos hx, if_neg (not_not_intro hrole), hterm]
              simp only [Option.map_some, Option.bind_some, if_pos hnewer]
              exact ⟨_, rfl⟩
          | replyCount _ _ electionTerm hx hrole hterm hnewer =>
              rw [if_pos hx, if_neg (not_not_intro hrole), hterm]
              simp only [Option.map_some, Option.bind_some, if_neg hnewer]
              by_cases hcount : countsVote s electionTerm x.data
              · rw [if_pos hcount] at h
                rw [if_pos hcount, countVote]
                dsimp only
                obtain ⟨r, new, ho, h⟩ := alone_uncons h
                cases perform_cases ho
                obtain ⟨r, new, ho, h⟩ := alone_uncons h
                cases perform_cases ho with
                | majority _ hmajority =>
                    rw [if_pos (show (s.votesReceived + 1).toNat * 2 > N
                      from hmajority)]
                    exact ⟨_, rfl⟩
                | noMajority _ hmajority =>
                    rw [if_neg (show ¬ (s.votesReceived + 1).toNat * 2 > N
                      from hmajority)]
                    exact ih h
              · rw [if_neg hcount] at h ⊢
                exact ih h

/-- What a body does on its own, unless it reads `election_term` unset. -/
theorem Body.completes {s : Replica} {c : Code} {ops : List (Op ι)}
    (h : Body s c ops)
    (hreplies : ∀ batch : List (Sample ι RequestVoteReply),
      ops = [.replyLoop batch, .returnLoan .handleVoteReplyMessage] →
      ∃ s', LeaderElection.handleVoteReplyMessage N s batch = some s') :
    ∃ u, Alone N s ops u [] ∧ (u = s ∨ Section ι N s c u) := by
  cases h with
  | runElectionTimer batch =>
      exact ⟨_, alone_appendLoop batch (.refl _ _),
        .inr (.runElectionTimer batch)⟩
  | runLeaderElection hrole =>
      exact ⟨(startElection s).1, alone_setUp (.refl _ _),
        .inr (.runLeaderElection hrole)⟩
  | handleVoteMessage batch =>
      exact ⟨_, alone_voteLoop false batch (alone_test [] rfl rfl (.refl _ _)),
        .inr (.handleVoteMessage batch)⟩
  | handleVoteReplyMessage batch =>
      obtain ⟨s', hs'⟩ := hreplies batch rfl
      exact ⟨s', alone_replyLoop batch hs' (alone_test [] rfl rfl (.refl _ _)),
        .inr (.handleVoteReplyMessage batch s' hs')⟩
  | handleAppendEntriesReplyMessage =>
      exact ⟨s, alone_test [] rfl rfl (.refl _ _), .inl rfl⟩
  | main hrole =>
      refine ⟨s.mainInputLap ([] : List (Sample ι Input)), ?_, .inr (.main [])⟩
      rw [Replica.mainInputLap_leader hrole]
      apply alone_test _ rfl rfl
      apply alone_assign
      exact .refl _ _
  | nothing => exact ⟨s, .refl _ _, .inl rfl⟩

/-- A body that has come to its end has read nothing unset. -/
theorem Body.section {s u : Replica} {c : Code} {ops : List (Op ι)}
    (h : Body s c ops) (halone : Alone N s ops u []) :
    u = s ∨ Section ι N s c u := by
  obtain ⟨v, hv, hdone⟩ := h.completes (N := N) fun batch hops => by
    rw [hops] at halone
    exact replyLoop_succeeds halone
  rw [alone_unique h.inner hv halone]
  exact hdone

/-! ## Inside and outside -/

/-- What follows the lock of a section, up to its first read or test. -/
inductive Head : Code → List (Op ι) → Prop where
  | timerTimeout : Head .runElectionTimer [.timerTimeout]
  | appendRead : Head .runElectionTimer [.appendRead]
  | inputRead : Head .main [.inputRead]
  | roleTest (batch : List (Sample ι Input)) : Head .main [.roleTest batch]
  | voteRead : Head .receiveVoteRequests [.voteRead, .unlock]
  | replyRead : Head .receiveVoteRequests [.replyRead, .unlock]
  | appendReplyRead : Head .sendHeartbeat [.appendReplyRead, .unlock]
  | nothing : Head .sendHeartbeat [.unlock]

/-- The code `c` outside of all sections.  After the wait of
`run_leader_election` the sections are not in order any more, so nothing is
said of what follows it. -/
inductive Outside (c : Code) : List (Op ι) → Prop where
  | nil : Outside c []
  | wait (w : WaitSet) {rest : List (Op ι)} (hw : waitCode w = c)
      (h : Outside c rest) : Outside c (.wait w :: rest)
  | election (rest : List (Op ι)) (hc : c = .runElectionTimer) :
      Outside c (.wait .leaderElection :: rest)
  | returnLoan (site : ReadSite) {rest : List (Op ι)} (h : Outside c rest) :
      Outside c (.returnLoan site :: rest)
  | lock {head rest : List (Op ι)} (hhead : Head c head) (h : Outside c rest) :
      Outside c (.lock :: (head ++ rest))

/-- The code `c` inside of a section that the replica entered as `s₀` and that
has made `s` of it so far. -/
inductive Inside (N : Nat) (c : Code) (s₀ s : Replica) :
    List (Op ι) → Prop where
  | entered {head rest : List (Op ι)} (hs : s = s₀) (hhead : Head c head)
      (h : Outside c rest) : Inside N c s₀ s (head ++ rest)
  | working {ops left rest : List (Op ι)} (hbody : Body s₀ c ops)
      (halone : Alone N s₀ ops s left) (hleft : left.all inner = true)
      (h : Outside c rest) : Inside N c s₀ s (left ++ .unlock :: rest)

theorem outside_start (t : Thread) :
    Outside t.code (t.code.start : List (Op ι)) := by
  cases t <;> exact .wait _ rfl .nil

theorem outside_sendHeartbeat :
    Outside .sendHeartbeat (sendHeartbeat : List (Op ι)) :=
  .lock .nothing (.wait _ rfl .nil)

/-- Only `runElectionTimer` waits for votes. -/
theorem Outside.quiet {c : Code} {o : Op ι} {rest : List (Op ι)}
    (h : Outside c (o :: rest)) (hc : c ≠ .runElectionTimer) :
    o ≠ .wait .leaderElection := by
  rintro rfl
  cases h with
  | wait w hw => exact hc hw.symm
  | election rest heq => exact hc heq

theorem Inside.not_lock {c : Code} {s₀ s : Replica} {rest : List (Op ι)} :
    ¬ Inside N c s₀ s (.lock :: rest) := by
  intro h
  generalize hops : Op.lock :: rest = ops at h
  cases h with
  | entered hs hhead h => cases hhead <;> cases hops
  | @working ops left rest hbody halone hleft h =>
      cases left with
      | nil => cases hops
      | cons x left =>
          cases hops
          cases hleft

theorem Inside.ne_nil {c : Code} {s₀ s : Replica} {ops : List (Op ι)}
    (h : Inside N c s₀ s ops) : ops ≠ [] := by
  cases h with
  | entered hs hhead h => cases hhead <;> exact List.cons_ne_nil _ _
  | working hbody halone hleft h =>
      exact List.append_ne_nil_of_right_ne_nil _ (List.cons_ne_nil _ _)

/-- A wait leads from outside to outside. -/
theorem outside_afterWait {c : Code} {w : WaitSet} {r : Result ι}
    {new rest : List (Op ι)} (hw : w ≠ .leaderElection)
    (hcode : waitCode w = c) (hnew : afterWait w r = some new)
    (h : Outside c rest) : Outside c (new ++ rest) := by
  have hlaps : c = .receiveVoteRequests →
      ∀ conditions : List VoteCondition,
        Outside c ((conditions.flatMap voteLap ++ [.wait .collectVotes]) ++
          rest) := by
    rintro rfl conditions
    induction conditions with
    | nil => exact .wait _ rfl h
    | cons c conditions ih =>
        cases c with
        | requestVoteReply =>
            have hlap := Outside.lock .replyRead ih
            exact hlap
        | requestVote =>
            have hlap := Outside.lock .voteRead ih
            exact hlap
  subst hcode
  cases w with
  | leaderElection => exact absurd rfl hw
  | collectVotes =>
      cases r with
      | triggered conditions =>
          cases hnew
          exact hlaps rfl conditions
      | timeout | failed =>
          cases hnew
          exact .wait _ rfl h
      | _ => cases hnew
  | appendEntries =>
      cases r with
      | timeout =>
          cases hnew
          exact .lock .timerTimeout h
      | triggered _ | failed =>
          cases hnew
          exact .lock .appendRead h
      | _ => cases hnew
  | input =>
      cases r with
      | triggered _ =>
          cases hnew
          exact .lock .inputRead h
      | _ => cases hnew
  | appendEntriesReply =>
      cases r with
      | triggered _ =>
          cases hnew
          exact .lock .appendReplyRead h
      | timeout | failed =>
          cases hnew
          exact h
      | _ => cases hnew

/-! ## One operation -/

/-- Outside of the sections nothing but a lock changes anything. -/
theorem Outside.perform (p : Process ι) (self : Thread × Layer) {c : Code}
    {s : Replica} {o : Op ι} {r : Result ι} {new rest : List (Op ι)}
    (h : Outside c (o :: rest)) (hlock : o ≠ .lock)
    (hquiet : o ≠ .wait .leaderElection) (ho : perform N s o r = some new) :
    Outside c (new ++ rest) ∧ runOp s o = s ∧
      p.ownerAfter self o = p.owner := by
  cases h with
  | wait w hcode h =>
      have hw : w ≠ .leaderElection := by
        intro heq
        exact hquiet (by rw [heq])
      exact ⟨outside_afterWait hw hcode ho h, rfl, rfl⟩
  | election => exact absurd rfl hquiet
  | returnLoan site h =>
      cases perform_cases ho
      exact ⟨h, rfl, rfl⟩
  | lock => exact absurd rfl hlock

/-- Inside of a section the owner goes on until the unlock. -/
theorem Inside.perform (p : Process ι) (self : Thread × Layer) {c : Code}
    {s₀ s : Replica} {o : Op ι} {r : Result ι} {new rest : List (Op ι)}
    (h : Inside N c s₀ s (o :: rest)) (ho : perform N s o r = some new) :
    (Inside N c s₀ (runOp s o) (new ++ rest) ∧
        p.ownerAfter self o = p.owner) ∨
      (o = .unlock ∧ (s = s₀ ∨ Section ι N s₀ c s) ∧
        Outside c (new ++ rest)) := by
  generalize hops : o :: rest = ops at h
  cases h with
  | entered hs hhead h =>
      subst hs
      cases hhead with
      | timerTimeout =>
          cases hops
          left
          cases perform_cases ho with
          | leaderTimeout hrole =>
              exact ⟨.working (.nothing _) (.refl _ _) rfl (.wait _ rfl h),
                rfl⟩
          | electionTimeout hrole =>
              have hrole' : s.role ≠ .leader := by
                intro heq
                apply hrole
                rw [heq]
                exact ⟨RaftRole.noConfusion, RaftRole.noConfusion⟩
              exact ⟨.working (.runLeaderElection hrole') (.refl _ _) rfl
                (.election _ rfl), rfl⟩
      | appendRead =>
          cases hops
          left
          cases perform_cases ho with
          | appendRead batch =>
              exact ⟨.working (.runElectionTimer batch) (.refl _ _) rfl
                (.returnLoan _ (.wait _ rfl h)), rfl⟩
      | inputRead =>
          cases hops
          left
          cases perform_cases ho with
          | inputRead batch =>
              exact ⟨.entered rfl (.roleTest batch) h, rfl⟩
      | roleTest batch =>
          cases hops
          left
          cases perform_cases ho with
          | inputIgnored _ hrole =>
              exact ⟨.working (.nothing _) (.refl _ _) rfl (.wait _ rfl h),
                rfl⟩
          | inputAppended _ hrole =>
              exact ⟨.working (.main hrole) (.refl _ _) rfl
                (.returnLoan _ (.wait _ rfl h)), rfl⟩
      | voteRead =>
          cases hops
          left
          cases perform_cases ho with
          | voteRead batch =>
              exact ⟨.working (.handleVoteMessage batch) (.refl _ _) rfl h,
                rfl⟩
      | replyRead =>
          cases hops
          left
          cases perform_cases ho with
          | replyRead batch =>
              exact ⟨.working (.handleVoteReplyMessage batch) (.refl _ _) rfl
                h, rfl⟩
      | appendReplyRead =>
          cases hops
          left
          cases perform_cases ho with
          | appendReplyRead batch =>
              exact ⟨.working .handleAppendEntriesReplyMessage (.refl _ _) rfl
                h, rfl⟩
      | nothing =>
          cases hops
          cases perform_cases ho
          exact .inr ⟨rfl, .inl rfl, h⟩
  | @working ops left rest hbody halone hleft h =>
      cases left with
      | nil =>
          cases hops
          cases perform_cases ho
          exact .inr ⟨rfl, hbody.section halone, h⟩
      | cons x left =>
          cases hops
          rw [List.all_cons, Bool.and_eq_true] at hleft
          obtain ⟨rfl, hnew⟩ := inner_perform hleft.1 ho
          left
          constructor
          · show Inside N c s₀ (runOp s o) (new ++ (left ++ .unlock :: rest))
            rw [← List.append_assoc]
            apply Inside.working hbody _ _ h
            · exact halone.trans (.step .done new ho (.refl _ _))
            · rw [List.all_append, hnew, hleft.2]
              rfl
          · exact ownerAfter_inner p self hleft.1

/-! ## Steps -/

/-- A thread with a handler on top does not go on with its code. -/
def OnTop (p : Process ι) (self : Thread × Layer) : Prop :=
  self.2 = .code → p.handler self.1 = none

theorem onTop_handler (p : Process ι) (t : Thread) : OnTop p (t, .handler) := by
  intro h
  cases h

/-- A step as the stacks see it, when what is performed satisfies `P`. -/
inductive Move (N : Nat) (P : Op ι → Prop) (p q : Process ι) : Prop where
  | performed (self : Thread × Layer) {o : Op ι} {r : Result ι}
      {rest new : List (Op ι)} (htop : OnTop p self)
      (hstack : stack p self = o :: rest) (hop : P o)
      (hfree : p.waits o = false) (ho : perform N p.replica o r = some new)
      (hself : stack q self = new ++ rest)
      (hother : ∀ other, other ≠ self → stack q other = stack p other)
      (hreplica : q.replica = runOp p.replica o)
      (howner : q.owner = p.ownerAfter self o)
  | interrupted (t : Thread) (hstack : stack p (t, .handler) = [])
      (hself : stack q (t, .handler) = sendHeartbeat)
      (hother : ∀ other, other ≠ (t, .handler) →
        stack q other = stack p other)
      (hreplica : q.replica = p.replica) (howner : q.owner = p.owner)

theorem move_of_step {P : Op ι → Prop} {p q : Process ι} {e : Event ι}
    (hstep : Step N p e q)
    (hP : ∀ t r o, e = .run t r → nextOp p t = some o → P o) :
    Move N P p q := by
  cases hstep with
  | code t r o rest new hhandler hcode hfree ho =>
      apply Move.performed (t, .code) (fun _ => hhandler) hcode _ hfree ho
      · exact Function.update_self ..
      · rintro ⟨u, l⟩ hother
        cases l with
        | code =>
            apply Function.update_of_ne
            intro heq
            exact hother (by rw [heq])
        | handler => rfl
      · rfl
      · rfl
      · apply hP t r o rfl
        rw [nextOp, hhandler, hcode]
        rfl
  | handler t r o rest new hhandler hfree ho =>
      apply Move.performed (t, .handler) (onTop_handler p t)
        (by rw [stack, hhandler]; rfl) _ hfree ho
      · show (Function.update p.handler t _ t).getD [] = new ++ rest
        rw [Function.update_self]
        exact handlerLeft_getD _
      · rintro ⟨u, l⟩ hother
        cases l with
        | code => rfl
        | handler =>
            have hne : u ≠ t := by
              intro heq
              exact hother (by rw [heq])
            show (Function.update p.handler t _ u).getD [] = _
            rw [Function.update_of_ne hne]
            rfl
      · rfl
      · rfl
      · apply hP t r o rfl
        rw [nextOp, hhandler]
        rfl
  | deliver t harmed hhandler =>
      apply Move.interrupted t
      · rw [stack, hhandler]
        rfl
      · show (Function.update p.handler t _ t).getD [] = _
        rw [Function.update_self]
        rfl
      · rintro ⟨u, l⟩ hother
        cases l with
        | code => rfl
        | handler =>
            have hne : u ≠ t := by
              intro heq
              exact hother (by rw [heq])
            show (Function.update p.handler t _ u).getD [] = _
            rw [Function.update_of_ne hne]
            rfl
      · rfl
      · rfl

/-- No wait of `run_leader_election` comes back. -/
theorem quietMove {p q : Process ι} {e : Event ι} (hstep : Step N p e q)
    (hquiet : ∀ t r, e = .run t r → nextOp p t ≠ some (.wait .leaderElection)) :
    Move N (· ≠ .wait .leaderElection) p q := by
  apply move_of_step hstep
  rintro t r o he hnext rfl
  exact hquiet t r he hnext

/-- Whoever does not own the mutex is outside, and the owner is inside of a
section that the replica entered as `s`; without an owner the replica is `s`. -/
inductive Ordered (N : Nat) (s : Replica) (p : Process ι) : Prop where
  | between (howner : p.owner = none) (hreplica : p.replica = s)
      (houtside : ∀ self, Outside (codeOf self) (stack p self))
  | within (self : Thread × Layer) (howner : p.owner = some self)
      (hinside : Inside N (codeOf self) s p.replica (stack p self))
      (houtside : ∀ other, other ≠ self →
        Outside (codeOf other) (stack p other))

theorem Ordered.outside {s : Replica} {p : Process ι} {self : Thread × Layer}
    (h : Ordered N s p) (hne : p.owner ≠ some self) :
    Outside (codeOf self) (stack p self) := by
  cases h with
  | between howner hreplica houtside => exact houtside self
  | within owner howner hinside houtside =>
      apply houtside self
      intro heq
      rw [heq] at hne
      exact hne howner

theorem outside_after {P : Thread × Layer → Prop} {p q : Process ι}
    {self : Thread × Layer}
    (hother : ∀ other, other ≠ self → stack q other = stack p other)
    (hself : P self → Outside (codeOf self) (stack q self))
    (houtside : ∀ other, P other → Outside (codeOf other) (stack p other))
    (other : Thread × Layer) (h : P other) :
    Outside (codeOf other) (stack q other) := by
  by_cases heq : other = self
  · rw [heq] at h ⊢
    exact hself h
  · rw [hother other heq]
    exact houtside other h

theorem Ordered.start (N : Nat) (ID : UInt8) :
    Ordered N (.initializeReplica ID) (Process.start ID : Process ι) := by
  apply Ordered.between
  · rfl
  · rfl
  · rintro ⟨t, l⟩
    cases l with
    | code => exact outside_start t
    | handler => exact .nil

/-- A handler starts outside. -/
theorem Ordered.interrupted {s : Replica} {p q : Process ι} {t : Thread}
    (h : Ordered N s p) (hstack : stack p (t, .handler) = [])
    (hself : stack q (t, .handler) = sendHeartbeat)
    (hother : ∀ other, other ≠ (t, .handler) → stack q other = stack p other)
    (hreplica' : q.replica = p.replica) (howner' : q.owner = p.owner) :
    Ordered N s q := by
  have hnew : Outside .sendHeartbeat (stack q (t, .handler)) := by
    rw [hself]
    exact outside_sendHeartbeat
  cases h with
  | between howner hreplica houtside =>
      apply Ordered.between
      · rw [howner', howner]
      · rw [hreplica', hreplica]
      · intro other
        exact outside_after (P := fun _ => True) hother (fun _ => hnew)
          (fun other _ => houtside other) other trivial
  | within owner howner hinside houtside =>
      have hne : owner ≠ (t, .handler) := by
        intro heq
        rw [heq, hstack] at hinside
        exact hinside.ne_nil rfl
      apply Ordered.within owner
      · rw [howner', howner]
      · rw [hreplica', hother owner hne]
        exact hinside
      · exact outside_after hother (fun _ => hnew) houtside

/-- A lock enters a section, an unlock completes it, and everything else leaves
everybody where they are. -/
theorem Ordered.performed {s : Replica} {p q : Process ι}
    {self : Thread × Layer} {o : Op ι} {r : Result ι} {rest new : List (Op ι)}
    (h : Ordered N s p) (hstack : stack p self = o :: rest)
    (hquiet : o ≠ .wait .leaderElection) (hfree : p.waits o = false)
    (ho : perform N p.replica o r = some new)
    (hself : stack q self = new ++ rest)
    (hother : ∀ other, other ≠ self → stack q other = stack p other)
    (hreplica' : q.replica = runOp p.replica o)
    (howner' : q.owner = p.ownerAfter self o) :
    Ordered N s q ∨ ∃ c s', Section ι N s c s' ∧ Ordered N s' q := by
  cases h with
  | between howner hreplica houtside =>
      have hout := houtside self
      rw [hstack] at hout
      left
      by_cases hlock : o = .lock
      · subst hlock
        cases perform_cases ho
        apply Ordered.within self howner'
        · rw [hself, hreplica']
          cases hout with
          | lock hhead h =>
              have hentered := Inside.entered (N := N) hreplica hhead h
              exact hentered
        · intro other hne
          rw [hother other hne]
          exact houtside other
      · obtain ⟨hnew, hrun, hown⟩ :=
          hout.perform p self hlock hquiet ho
        rw [← hself] at hnew
        apply Ordered.between
        · rw [howner', hown, howner]
        · rw [hreplica', hrun, hreplica]
        · intro other
          exact outside_after (P := fun _ => True) hother (fun _ => hnew)
            (fun other _ => houtside other) other trivial
  | within owner howner hinside houtside =>
      by_cases heq : self = owner
      · subst heq
        rw [hstack] at hinside
        rcases hinside.perform p self ho with
          ⟨hnew, hown⟩ | ⟨rfl, hdone, hnew⟩
        · left
          apply Ordered.within self
          · rw [howner', hown, howner]
          · rw [hreplica', hself]
            exact hnew
          · intro other hne
            rw [hother other hne]
            exact houtside other hne
        · have hbetween : Ordered N p.replica q := by
            apply Ordered.between howner' hreplica'
            intro other
            by_cases heq : other = self
            · rw [heq, hself]
              exact hnew
            · rw [hother other heq]
              exact houtside other heq
          rcases hdone with heq | hsection
          · rw [heq] at hbetween
            exact .inl hbetween
          · exact .inr ⟨_, _, hsection, hbetween⟩
      · have hout := houtside self heq
        rw [hstack] at hout
        have hlock : o ≠ .lock := by
          intro hlock
          rw [hlock, Process.waits, howner] at hfree
          cases hfree
        obtain ⟨hnew, hrun, hown⟩ :=
          hout.perform p self hlock hquiet ho
        rw [← hself] at hnew
        left
        apply Ordered.within owner
        · rw [howner', hown, howner]
        · rw [hreplica', hrun, hother owner (Ne.symm heq)]
          exact hinside
        · exact outside_after hother (fun _ => hnew) houtside

/-- A step completes one section or none. -/
theorem Ordered.step {s : Replica} {p q : Process ι} {e : Event ι}
    (h : Ordered N s p) (hstep : Step N p e q)
    (hquiet : ∀ t r, e = .run t r → nextOp p t ≠ some (.wait .leaderElection)) :
    Ordered N s q ∨ ∃ c s', Section ι N s c s' ∧ Ordered N s' q := by
  cases quietMove hstep hquiet with
  | performed self htop hstack hne hfree ho hself hother hreplica howner =>
      exact h.performed hstack hne hfree ho hself hother hreplica howner
  | interrupted t hstack hself hother hreplica howner =>
      exact .inl (h.interrupted hstack hself hother hreplica howner)

end RevPiRaft.Ports.Sections
