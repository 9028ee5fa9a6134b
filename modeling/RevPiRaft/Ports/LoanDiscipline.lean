import Mathlib.Logic.Function.Basic
import RevPiRaft.Ports.Threads

/-!
# The discipline of DDS loans

A read or take that yields samples lends them to the pair of sequences it
fills, until `return_loan` gives them back.  Six places of the code read, each
with its own pair.

Two of them lose count.  The main loop skips `return_loan` when the replica is
not the leader, so that it waits with the loan, and the read behind that wait
fails.  `handle_vote_reply_message` returns its loan before it breaks out of
the loop, and once more behind the loop.
-/

namespace RevPiRaft.Ports.LoanDiscipline

open RevPiRaft.Verified.Runs
open RevPiRaft.Verified.Contracts
open RevPiRaft.Ports.Datamodel
open RevPiRaft.Ports.ReplicaCore
open RevPiRaft.Ports.LeaderElection
open RevPiRaft.Ports.Process
open RevPiRaft.Ports.Threads

variable {ι : Type} {N : Nat}

/-! ## The discipline -/

/-- What has become of the samples of the last read. -/
inductive Loan where
  | none
  | outstanding
  | returned
deriving DecidableEq

/-- The pairs of sequences that a thread uses. -/
abbrev Loans : Type := ReadSite → Loan

/-- No sequences hold a loan. -/
def Clear (g : Loans) : Prop := ∀ site, g site ≠ .outstanding

/-- The sequences that a read or take fills. -/
def readSite : Op ι → Option ReadSite
  | .appendRead => some .runElectionTimer
  | .electionRead _ => some .runLeaderElection
  | .voteRead => some .handleVoteMessage
  | .replyRead => some .handleVoteReplyMessage
  | .appendReplyRead => some .handleAppendEntriesReplyMessage
  | .inputRead => some .main
  | _ => none

/-- A read has yielded at least one sample. -/
def lends : Result ι → Bool
  | .appendEntries batch => !batch.isEmpty
  | .requestVote batch => !batch.isEmpty
  | .requestVoteReply batch => !batch.isEmpty
  | .appendEntriesReply batch => !batch.isEmpty
  | .input batch => !batch.isEmpty
  | _ => false

def afterRead (site : ReadSite) (r : Result ι) (g : Loans) : Loans :=
  Function.update g site (if lends r then .outstanding else .none)

/-- `return_loan` on sequences without a loan has no effect. -/
def afterReturn (site : ReadSite) (g : Loans) : Loans :=
  if g site = .outstanding then Function.update g site .returned else g

def loansAfter (o : Op ι) (r : Result ι) (g : Loans) : Loans :=
  match readSite o with
  | some site => afterRead site r g
  | none =>
      match o with
      | .returnLoan site => afterReturn site g
      | _ => g

/-- The read fails: its sequences hold a loan. -/
def failsRead (o : Op ι) (g : Loans) : Bool :=
  (readSite o).any fun site => g site = .outstanding

/-- A thread and its loans.  A read that fails returns an error, on which
`checkStatus` ends the process. -/
def thread (N : Nat) : Machine (Op ι) (Replica × Result ι) Loans where
  perform := fun o a g =>
    if failsRead o g then none else perform N a.1 o a.2
  effect := fun o a g => loansAfter o a.2 g

/-- A read needs its sequences without a loan; a loan is not returned twice,
and it is returned before the next wait. -/
def loanAllowed (o : Op ι) (g : Loans) : Prop :=
  match o with
  | .returnLoan site => g site ≠ .returned
  | .wait _ => Clear g
  | _ => failsRead o g = false

/-- The branches that lose count: the main loop gets input while the replica is
not the leader, and `handle_vote_reply_message` breaks out of its loop. -/
def losesCount (N : Nat) (s : Replica) : Op ι → Prop
  | .roleTest batch => batch ≠ [] ∧ s.role ≠ .leader
  | .replyLoop (x :: _) =>
      x.validData = true ∧ (s.role ≠ .candidate ∨
        ∃ electionTerm ∈ s.electionTerm, x.data.term.toUInt32 > electionTerm)
  | .majorityTest _ => s.votesReceived.toNat * 2 > N
  | _ => False

instance (s : Replica) (o : Op ι) : Decidable (losesCount N s o) := by
  unfold losesCount
  split <;> infer_instance

def loanMonitor (N : Nat) : Monitor (Op ι) (Replica × Result ι) Loans where
  allowed := loanAllowed
  cause := fun o a => losesCount N a.1 o

instance (o : Op ι) (a : Replica × Result ι) :
    Decidable ((loanMonitor N).cause o a) :=
  inferInstanceAs (Decidable (losesCount N a.1 o))

/-- A thread, or a call of `send_heartbeat`, that starts without loans. -/
abbrev ThreadRun (ι : Type) (N : Nat) (code : Code) : Type :=
  Run ((thread (ι := ι) N).lts code.start fun _ => .none)

/-- The run ends at a wait, or with the code at its end. -/
def Rests {code : Code} (run : ThreadRun ι N code) : Prop :=
  (run.state run.length).1 = [] ∨
    ∃ w rest, (run.state run.length).1 = .wait w :: rest

/-! ## Contracts -/

/-- Apart from those of `site` no sequences hold a loan, and the last loan of
`site` was not returned. -/
def Only (site : ReadSite) (g : Loans) : Prop :=
  g site ≠ .returned ∧ ∀ other, other ≠ site → g other ≠ .outstanding

/-- The sequences of `site`, and no others, hold a loan. -/
def Lent (site : ReadSite) (g : Loans) : Prop :=
  g site = .outstanding ∧ ∀ other, other ≠ site → g other ≠ .outstanding

/-- Before a wait. -/
abbrev Resting : Watch Loans → Prop := Watch.Due (fun g => ¬ Clear g) Clear

/-- No loan is out. -/
abbrev Calm : Watch Loans → Prop := Watch.Due (fun _ => False) Clear

/-- Between a read and its `return_loan`. -/
abbrev Reading (site : ReadSite) : Watch Loans → Prop :=
  Watch.Due (fun _ => False) (Only site)

/-- The same, where the read has yielded samples. -/
abbrev Filled (site : ReadSite) : Watch Loans → Prop :=
  Watch.Due (fun _ => False) (Lent site)

/-- Before a `return_loan` that may be the second one. -/
abbrev Returning (site : ReadSite) : Watch Loans → Prop :=
  Watch.Due (fun g => g site = .returned) (Only site)

/-- What each operation requires and ensures.  Those not named have nothing to
do with loans. -/
def contract : Contract (Op ι) (Watch Loans) where
  pre
    | .returnLoan site, w => w.cause ∨ w.state site ≠ .returned
    | .wait _, w => Resting w
    | .timerTimeout, w => Calm w
    | .appendRead, w => Calm w
    | .electionLap _, w => Calm w
    | .electionNext _, w => Calm w
    | .electionRead _, w => Calm w
    | .electionLoop _ _, w => Reading .runLeaderElection w
    | .electionTest _ _ _, w => Reading .runLeaderElection w
    | .voteRead, w => Calm w
    | .replyRead, w => Calm w
    | .replyLoop batch, w =>
        Reading .handleVoteReplyMessage w ∧
          (batch ≠ [] → Filled .handleVoteReplyMessage w)
    | .majorityTest _, w => Filled .handleVoteReplyMessage w
    | .appendReplyRead, w => Calm w
    | .inputRead, w => Calm w
    | .roleTest batch, w =>
        Reading .main w ∧ (batch = [] → Calm w) ∧
          (batch ≠ [] → Filled .main w)
    | _, _ => True
  post
    | .returnLoan site, w, w' =>
        Watch.Did (afterReturn site) (· site ≠ .returned) w w'
    | .wait _, _, w' => Calm w'
    | .timerTimeout, _, w' => Calm w'
    | .appendRead, _, w' => Calm w'
    | .electionLap _, _, w' => Calm w'
    | .electionNext _, _, w' => Calm w'
    | .electionRead _, _, w' => Calm w'
    | .electionLoop _ _, _, w' => Calm w'
    | .electionTest _ _ _, _, w' => Calm w'
    | .voteRead, _, w' => Calm w'
    | .replyRead, _, w' => Calm w'
    | .replyLoop _, _, w' => Returning .handleVoteReplyMessage w'
    | .majorityTest _, _, w' => Returning .handleVoteReplyMessage w'
    | .appendReplyRead, _, w' => Calm w'
    | .inputRead, _, w' => Calm w'
    | .roleTest _, _, w' => Calm w'
    | _, w, w' => Watch.Same w w'

/-! ## Operations that have nothing to do with loans -/

def neutral : Op ι → Bool
  | .lock | .unlock | .leave | .assign _ | .incrementTerm | .copyTerm
  | .voteSelf | .setNextIndex | .appendEntry | .becomeLeader | .appendLoop _
  | .appendTest _ | .voteLoop _ | .voteTest _ _ => true
  | _ => false

/-- They are replaced by such operations only. -/
theorem perform_neutral {s : Replica} {o : Op ι} {r : Result ι}
    {new : List (Op ι)} (ho : neutral o = true)
    (h : perform N s o r = some new) : new.all neutral = true := by
  cases perform_cases h with
  | returnLoan | wait | leaderTimeout | electionTimeout | appendRead
  | electionFound | electionMissed | electionAgain | electionFinished
  | electionPass | electionEmpty | electionRead | electionEnd | electionSample
  | electionSkip | electionCurrent | electionStale | voteRead | replyRead
  | replyEnd | replySkip | replyIdle | replyNewer | replyCount | majority
  | noMajority | appendReplyRead | inputRead | inputIgnored
  | inputAppended => cases ho
  | appendSample | voteSample =>
      rw [List.all_append, all_becomeFollowerIf fun _ => rfl]
      rfl
  | appendTest => exact all_becomeFollowerIf (fun _ => rfl) _ _
  | voteTest => split <;> rfl
  | _ => rfl

theorem neutral_neutral {o : Op ι} (ho : neutral o = true) :
    contract.Neutral (fun _ => True) o := by
  cases o with
  | returnLoan | wait | timerTimeout | appendRead | electionLap | electionNext
  | electionRead | electionLoop | electionTest | voteRead | replyRead
  | replyLoop | majorityTest | appendReplyRead | inputRead
  | roleTest => cases ho
  | _ => exact ⟨fun _ _ => trivial, fun _ _ h => h⟩

section Wp

variable {ops rest : List (Op ι)} {Q : Watch Loans → Prop}
  {X Y : Loans → Prop} {w : Watch Loans} {site : ReadSite}

theorem wp_all {P : Watch Loans → Prop} (hP : Watch.Stable (fun _ => True) P)
    (hops : ops.all neutral = true) (h : P w) : contract.Wp ops P w :=
  Contract.wp_stable
    (fun o ho => neutral_neutral (List.all_eq_true.mp hops o ho)) hP h

theorem wp_neutral (ops : List (Op ι)) (hops : ops.all neutral = true)
    (h : Watch.Due X Y w)
    (hrest : ∀ w', Watch.Due X Y w' → contract.Wp rest Q w') :
    contract.Wp (ops ++ rest) Q w := by
  rw [Contract.wp_append]
  exact Contract.wp_mono hrest
    (wp_all (Watch.stable_due fun _ _ => trivial) hops h)

/-! ## Reads, returns and waits -/

theorem exact_returnLoan (site : ReadSite) :
    contract.Exact (.returnLoan site : Op ι) (afterReturn site)
      (· site ≠ .returned) :=
  ⟨fun _ h => h, fun _ _ h => h⟩

theorem Only.afterReturn {g : Loans} (h : Only site g) :
    Clear (afterReturn site g) := by
  intro other
  unfold LoanDiscipline.afterReturn
  by_cases hlent : g site = .outstanding
  · rw [if_pos hlent]
    by_cases hother : other = site
    · rw [hother, Function.update_self]
      decide
    · rw [Function.update_of_ne hother]
      exact h.2 other hother
  · rw [if_neg hlent]
    by_cases hother : other = site
    · rw [hother]
      exact hlent
    · exact h.2 other hother

/-- The `return_loan` behind a read. -/
theorem wp_returnLoan (h : Returning site w)
    (hrest : ∀ w', Calm w' → contract.Wp rest Q w') :
    contract.Wp (.returnLoan site :: rest) Q w := by
  apply (exact_returnLoan site).wp _ _ h _ _ hrest
  · exact fun _ hreturned => .inl fun hne => hne hreturned
  · exact fun _ hy => ⟨hy.1, hy.afterReturn⟩

theorem Reading.returning (h : Reading site w) : Returning site w :=
  h.mono (fun _ hx => hx.elim) fun _ hy => hy

theorem Lent.only {g : Loans} (h : Lent site g) : Only site g :=
  ⟨by rw [h.1]; decide, h.2⟩

theorem Filled.reading (h : Filled site w) : Reading site w :=
  h.mono (fun _ hx => hx) fun _ hy => hy.only

theorem Calm.resting (h : Calm w) : Resting w :=
  h.mono (fun _ hx => hx.elim) fun _ hy => hy

theorem wp_wait (v : WaitSet) (h : Resting w) :
    (contract (ι := ι)).Wp [.wait v] Calm w :=
  ⟨h, fun _ hw => hw⟩

/-- The end of a lap that has nothing to return. -/
theorem wp_neutral_wait (ops : List (Op ι)) (hops : ops.all neutral = true)
    (v : WaitSet) (h : Resting w) : contract.Wp (ops ++ [.wait v]) Calm w :=
  wp_neutral ops hops h fun _ hw => wp_wait v hw

/-- From a read to its `return_loan`. -/
theorem wp_neutral_return (ops : List (Op ι)) (hops : ops.all neutral = true)
    (h : Reading site w) (hrest : ∀ w', Calm w' → contract.Wp rest Q w') :
    contract.Wp (ops ++ .returnLoan site :: rest) Q w :=
  wp_neutral ops hops h fun _ hw => wp_returnLoan (Reading.returning hw) hrest

theorem wp_electionPass (h : Calm w) :
    (contract (ι := ι)).Wp electionPass Calm w :=
  wp_neutral_wait [.assign (.role .candidate), .incrementTerm, .copyTerm,
    .voteSelf, .assign (.votesReceived 1), .unlock] rfl _ (Calm.resting h)

/-- A section in which one operation reads and returns. -/
theorem wp_calmSection (o : Op ι)
    (ho : ∀ w, Calm w → contract.pre o w ∧ ∀ w', contract.post o w w' → Calm w')
    (h : Calm w) : contract.Wp [.lock, o, .unlock] Calm w := by
  apply wp_neutral [.lock] rfl h
  intro w hw
  constructor
  · exact (ho w hw).1
  · intro w' hw'
    exact wp_neutral [.unlock] rfl ((ho w hw).2 w' hw')
      fun w hw => hw

theorem wp_voteLap (c : VoteCondition) (h : Calm w) :
    (contract (ι := ι)).Wp (voteLap c) Calm w := by
  cases c with
  | requestVote | requestVoteReply =>
      exact wp_calmSection _ (fun w hw => ⟨hw, fun _ hw' => hw'⟩) h

/-- After a return on the way out of the loop the loan of `site` is returned
already. -/
abbrev Breaking (site : ReadSite) : Watch Loans → Prop :=
  Watch.Due (Lent site) fun _ => False

theorem wp_break (ops : List (Op ι)) (hops : ops.all neutral = true)
    (h : Breaking site w) :
    contract.Wp (.returnLoan site :: ops) (Returning site) w := by
  apply (exact_returnLoan site).wp (· site = .returned) (fun _ => False) h
  · intro g hlent
    right
    rw [afterReturn, if_pos hlent.1, Function.update_self]
  · exact fun _ hy => hy.elim
  · intro w hw
    rw [← List.append_nil ops]
    apply wp_neutral _ hops hw
    intro w hw
    exact hw.mono (fun _ hx => hx) fun _ hy => hy.elim

/-- To wait with a loan is forbidden. -/
theorem Breaking.resting (h : Breaking site w) : Resting w :=
  h.mono (fun _ hlent hclear => hclear site hlent.1) fun _ hy => hy.elim

end Wp

/-! ## The contracts hold -/

section Next

variable {o : Op ι} {s : Replica} {r : Result ι} {w : Watch Loans}
  {site : ReadSite}

theorem next_same (hloans : ∀ g, loansAfter o r g = g)
    (ho : ¬ losesCount N s o) :
    Watch.Same w (w.next (thread N) (loanMonitor N) o (s, r)) :=
  Watch.next_same (hloans _) ho

theorem next_due {X Y : Loans → Prop} (hloans : ∀ g, loansAfter o r g = g)
    (ho : ¬ losesCount N s o) (h : Watch.Due X Y w) :
    Watch.Due X Y (w.next (thread N) (loanMonitor N) o (s, r)) :=
  h.same (next_same hloans ho)

/-- A read, and what its sequences hold then. -/
theorem next_read {Y : Loans → Prop} (ho : readSite o = some site)
    (hcause : ¬ losesCount N s o) (h : Calm w)
    (hY : ∀ g, Clear g → Y (afterRead site r g)) :
    Watch.Due (fun _ => False) Y
      (w.next (thread N) (loanMonitor N) o (s, r)) := by
  apply Watch.Due.did h (Watch.next_did _ hcause)
  · exact fun _ hx => hx.elim
  · intro g hclear
    show Y (loansAfter o r g)
    unfold loansAfter
    rw [ho]
    exact hY g hclear

theorem Clear.only_afterRead {g : Loans} (h : Clear g) :
    Only site (afterRead site r g) := by
  constructor
  · rw [afterRead, Function.update_self]
    split <;> decide
  · intro other hother
    rw [afterRead, Function.update_of_ne hother]
    exact h other

theorem Clear.lent_afterRead {g : Loans} (h : Clear g) (hr : lends r = true) :
    Lent site (afterRead site r g) := by
  constructor
  · rw [afterRead, Function.update_self, if_pos hr]
  · exact h.only_afterRead.2

theorem Clear.afterRead {g : Loans} (h : Clear g) (hr : lends r = false) :
    Clear (afterRead site r g) := by
  intro other
  by_cases hother : other = site
  · rw [hother, LoanDiscipline.afterRead, Function.update_self, hr]
    decide
  · rw [LoanDiscipline.afterRead, Function.update_of_ne hother]
    exact h other

theorem reading_next (ho : readSite o = some site)
    (hcause : ¬ losesCount N s o) (h : Calm w) :
    Reading site (w.next (thread N) (loanMonitor N) o (s, r)) :=
  next_read ho hcause h fun _ hg => hg.only_afterRead

theorem filled_next (ho : readSite o = some site)
    (hcause : ¬ losesCount N s o) (hr : lends r = true) (h : Calm w) :
    Filled site (w.next (thread N) (loanMonitor N) o (s, r)) :=
  next_read ho hcause h fun _ hg => hg.lent_afterRead hr

theorem calm_next (ho : readSite o = some site)
    (hcause : ¬ losesCount N s o) (hr : lends r = false) (h : Calm w) :
    Calm (w.next (thread N) (loanMonitor N) o (s, r)) :=
  next_read ho hcause h fun _ hg => hg.afterRead hr

/-- A wait is forbidden as long as a loan is out. -/
theorem next_wait {v : WaitSet} (h : Resting w) :
    Calm (w.next (thread N) (loanMonitor N) (.wait v) (s, r)) := by
  apply Watch.Due.did h (Watch.next_did (loanMonitor N) id)
  · exact fun _ hx => .inl hx
  · exact fun _ hy => hy

/-- A branch that loses count of a loan. -/
theorem next_breaking (hloans : ∀ g, loansAfter o r g = g)
    (ho : losesCount N s o) (h : Filled site w) :
    Breaking site (w.next (thread N) (loanMonitor N) o (s, r)) := by
  constructor
  · intro _
    rcases h.2 with hcause | hlent
    · exact .inl (.inl ((h.1 hcause).elim id False.elim))
    · right
      show Lent site (loansAfter o r w.state)
      rw [hloans]
      exact hlent
  · exact .inl (.inr ho)

end Next

/-- What follows a wait. -/
theorem wp_afterWait {v : WaitSet} {r : Result ι} {new : List (Op ι)}
    (hnew : afterWait v r = some new) {w : Watch Loans} (h : Calm w) :
    contract.Wp new Calm w := by
  cases v with
  | appendEntries | input =>
      cases r <;> cases hnew <;>
        exact wp_neutral [.lock] rfl h
          fun w hw => ⟨hw, fun _ hw' => hw'⟩
  | leaderElection =>
      cases r with
      | timeout =>
          cases hnew
          exact h
      | triggered conditions =>
          cases hnew
          exact ⟨h, fun _ hw => hw⟩
      | _ => cases hnew
  | collectVotes =>
      cases r with
      | triggered conditions =>
          cases hnew
          rw [Contract.wp_append]
          exact Contract.wp_mono (fun w hw => wp_wait _ (Calm.resting hw))
            (Contract.wp_flatMap (fun c _ => wp_voteLap c) conditions h)
      | timeout | failed =>
          cases hnew
          exact wp_wait _ (Calm.resting h)
      | _ => cases hnew
  | appendEntriesReply =>
      cases r with
      | triggered conditions =>
          cases hnew
          exact wp_calmSection _ (fun w hw => ⟨hw, fun _ hw' => hw'⟩) h
      | timeout | failed =>
          cases hnew
          exact h
      | _ => cases hnew

theorem failsRead_of_clear {o : Op ι} {g : Loans} (h : Clear g) :
    failsRead o g = false := by
  unfold failsRead
  cases readSite o with
  | none => rfl
  | some site => exact decide_eq_false (h site)

section Branches

variable {s : Replica} {r : Result ι} {new : List (Op ι)} {w : Watch Loans}

/-- A lap of the loop of `handle_vote_reply_message`. -/
theorem wp_replySample {x : Sample ι RequestVoteReply}
    {batch : List (Sample ι RequestVoteReply)}
    (hperform : Performed N s (.replyLoop (x :: batch)) r new)
    (h : Filled .handleVoteReplyMessage w) :
    contract.Wp new (Returning .handleVoteReplyMessage)
      (w.next (thread N) (loanMonitor N) (.replyLoop (x :: batch)) (s, r)) := by
  cases hperform with
  | replySkip x batch hx =>
      have hno : ¬ losesCount N s (.replyLoop (x :: batch)) := by
        simp [losesCount, hx]
      have hfilled := h.same (next_same (r := .done) (fun _ => rfl) hno)
      exact ⟨⟨Filled.reading hfilled, fun _ => hfilled⟩, fun _ hw => hw⟩
  | replyIdle x batch hx hrole =>
      exact wp_break [] rfl (next_breaking (fun _ => rfl) ⟨hx, .inl hrole⟩ h)
  | replyNewer x batch electionTerm hx hrole hterm hnewer =>
      exact wp_break _ rfl (next_breaking (fun _ => rfl)
        ⟨hx, .inr ⟨electionTerm, hterm, hnewer⟩⟩ h)
  | replyCount x batch electionTerm hx hrole hterm hnewer =>
      have hno : ¬ losesCount N s (.replyLoop (x :: batch)) := by
        simp [losesCount, hx, hrole, hterm, hnewer]
      have hfilled := h.same (next_same (r := .done) (fun _ => rfl) hno)
      split
      · exact wp_neutral [.assign _] rfl hfilled
          fun w hw => ⟨hw, fun _ hw' => hw'⟩
      · exact ⟨⟨Filled.reading hfilled, fun _ => hfilled⟩, fun _ hw => hw⟩

/-- The test of the role in the main loop. -/
theorem wp_roleTest {batch : List (Sample ι Input)}
    (hperform : Performed N s (.roleTest batch) r new)
    (hreading : Reading .main w) (hempty : batch = [] → Calm w)
    (hfilled : batch ≠ [] → Filled .main w) :
    contract.Wp new Calm
      (w.next (thread N) (loanMonitor N) (.roleTest batch) (s, r)) := by
  cases hperform with
  | inputIgnored batch hrole =>
      by_cases hbatch : batch = []
      · have hno : ¬ losesCount N s (.roleTest batch) := fun h => h.1 hbatch
        have hcalm := (hempty hbatch).same
          (next_same (r := .done) (fun _ => rfl) hno)
        exact wp_neutral_wait [.unlock] rfl _ (Calm.resting hcalm)
      · have hbreaking := next_breaking (r := .done) (fun _ => rfl)
          (show losesCount N s (.roleTest batch) from ⟨hbatch, hrole⟩)
          (hfilled hbatch)
        exact wp_neutral_wait [.unlock] rfl _ (Breaking.resting hbreaking)
  | inputAppended batch hrole =>
      have hno : ¬ losesCount N s (.roleTest batch) := fun h => h.2 hrole
      have hreading := hreading.same
        (next_same (r := .done) (fun _ => rfl) hno)
      exact wp_neutral_return [.appendEntry, .unlock] rfl hreading
        fun _ hw => wp_wait _ (Calm.resting hw)

end Branches

theorem sound : Sound (thread N) (loanMonitor N) (contract (ι := ι)) where
  guards := by
    intro o w h
    cases o with
    | returnLoan site => exact h
    | wait v => exact h.2
    | appendRead | electionRead | voteRead | replyRead | appendReplyRead
    | inputRead => exact h.2.imp_right failsRead_of_clear
    | _ => exact .inr rfl
  keeps := by
    intro o a new w hnew hpre
    obtain ⟨s, r⟩ := a
    have hperform : perform N s o r = some new := by
      change (if failsRead o w.state then none else perform N s o r) =
        some new at hnew
      split at hnew
      · cases hnew
      · exact hnew
    cases perform_cases hperform with
    | returnLoan => exact Watch.next_did _ id
    | wait v r new h => exact wp_afterWait h (next_wait hpre)
    | leaderTimeout =>
        exact wp_neutral_wait [.unlock] rfl _
          (Calm.resting (next_due (fun _ => rfl) id hpre))
    | electionTimeout =>
        rw [Contract.wp_append]
        apply Contract.wp_mono _
          (wp_electionPass (next_due (fun _ => rfl) id hpre))
        intro w hw
        exact wp_neutral_wait [.leave, .unlock] rfl _ (Calm.resting hw)
    | appendRead batch =>
        exact wp_neutral_return [.appendLoop batch, .unlock] rfl
          (reading_next rfl id hpre) fun _ hw => wp_wait _ (Calm.resting hw)
    | electionFound | electionMissed | electionAgain =>
        constructor
        · show Calm _
          exact next_due (fun _ => rfl) id hpre
        · exact fun _ hw => hw
    | electionSkip | electionStale =>
        constructor
        · show Reading .runLeaderElection _
          exact next_due (fun _ => rfl) id hpre
        · exact fun _ hw => hw
    | electionFinished =>
        show Calm _
        exact next_due (fun _ => rfl) id hpre
    | electionPass => exact wp_electionPass (next_due (fun _ => rfl) id hpre)
    | electionEmpty =>
        constructor
        · show Calm _
          exact calm_next rfl id rfl hpre
        · exact fun _ hw => hw
    | electionRead =>
        apply wp_neutral [.lock] rfl (reading_next rfl id hpre)
        intro w hw
        exact ⟨hw, fun _ hw' => hw'⟩
    | electionEnd =>
        apply wp_neutral_return [.unlock] rfl (next_due (fun _ => rfl) id hpre)
        intro w hw
        exact ⟨hw, fun _ hw' => hw'⟩
    | electionSample | electionCurrent =>
        have hreading : Reading .runLeaderElection w := hpre
        apply wp_neutral _ (all_becomeFollowerIf (fun _ => rfl) _ _)
          (next_due (fun _ => rfl) id hreading)
        intro w hw
        exact ⟨hw, fun _ hw' => hw'⟩
    | voteRead batch =>
        exact wp_neutral_return [.voteLoop batch] rfl (reading_next rfl id hpre)
          fun _ hw => hw
    | appendReplyRead =>
        exact wp_neutral_return [] rfl (reading_next rfl id hpre)
          fun _ hw => hw
    | replyRead batch =>
        constructor
        · constructor
          · exact reading_next rfl id hpre
          · intro hbatch
            exact filled_next rfl id (by simpa [lends] using hbatch) hpre
        · intro w hw
          exact wp_returnLoan hw fun w hw => hw
    | replyEnd =>
        exact Reading.returning (next_due (fun _ => rfl) id hpre.1)
    | replySkip | replyIdle | replyNewer | replyCount =>
        exact wp_replySample (perform_cases hperform)
          (hpre.2 (List.cons_ne_nil _ _))
    | majority batch hvotes =>
        exact wp_break [.becomeLeader] rfl
          (next_breaking (fun _ => rfl) hvotes hpre)
    | noMajority batch hvotes =>
        have hfilled : Filled .handleVoteReplyMessage
            (w.next (thread N) (loanMonitor N) (.majorityTest batch)
              (s, .done)) :=
          next_due (fun _ => rfl) hvotes hpre
        exact ⟨⟨Filled.reading hfilled, fun _ => hfilled⟩, fun _ hw => hw⟩
    | inputRead batch =>
        constructor
        · refine ⟨reading_next rfl id hpre, ?_, ?_⟩
          · intro hbatch
            exact calm_next rfl id (by simp [lends, hbatch]) hpre
          · intro hbatch
            exact filled_next rfl id (by simpa [lends] using hbatch) hpre
        · exact fun _ hw => hw
    | inputIgnored | inputAppended =>
        exact wp_roleTest (perform_cases hperform) hpre.1 hpre.2.1
          hpre.2.2
    | _ => exact wp_all (Watch.stable_same (.inr trivial))
            (perform_neutral rfl hperform) (next_same (fun _ => rfl) id)

/-! ## The runs of a thread -/

theorem wp_start (code : Code) :
    contract.Wp (code.start : List (Op ι)) Calm
      ⟨fun _ => .none, False, False⟩ := by
  have h : Calm ⟨fun _ => .none, False, False⟩ :=
    ⟨False.elim, .inr fun _ => Loan.noConfusion⟩
  cases code with
  | runElectionTimer | receiveVoteRequests | main =>
      exact wp_wait _ (Calm.resting h)
  | sendHeartbeat =>
      exact wp_neutral [.lock, .unlock] rfl h
        fun w hw => wp_wait _ (Calm.resting hw)

/-- As long as the main loop gets no input while the replica is not the leader
and `handle_vote_reply_message` does not break out of its loop, every loan is
returned once and before the next wait; and after one of these the thread does
not come to rest without breaking the discipline. -/
theorem loan_discipline (N : Nat) (code : Code) (run : ThreadRun ι N code) :
    (Uncaused (loanMonitor N) run → Disciplined (loanMonitor N) run) ∧
      (Rests run →
        (Disciplined (loanMonitor N) run ↔ Uncaused (loanMonitor N) run)) := by
  constructor
  · exact disciplined_of_uncaused sound (wp_start code)
  · intro hrests
    apply disciplined_iff sound (wp_start code)
    intro hwp hcause
    rcases hrests with hend | ⟨v, rest, hwait⟩
    · rw [hend] at hwp
      exact .inl ((hwp.1 hcause).elim id False.elim)
    · rw [hwait] at hwp
      apply (hwp.1.1 hcause).imp_right
      intro hlent
      exact ⟨.wait v, _, ⟨Nat.le_refl _, rest, Prod.ext hwait rfl⟩, hlent⟩

/-- One sample of input. -/
def oneInput : List (Sample Unit Input) :=
  [{ validData := true
     publicationHandle := ()
     data := { test := 7 } }]

/-- The main loop of a leader gets input. -/
def leaderInput : ThreadRun Unit 3 .main where
  labels := undisturbed 3
    (startElection (.initializeReplica 2)).1.becomeLeader (Code.start .main)
    (.triggered [] :: .done :: .input oneInput :: List.replicate 5 .done)
  executes := by decide +kernel

theorem loan_discipline_leaderInput :
    Disciplined (loanMonitor 3) leaderInput := by
  apply (loan_discipline 3 .main leaderInput).1
  rw [uncaused_iff]
  decide +kernel

/-- The main loop of a follower gets input. -/
def followerInput : ThreadRun Unit 3 .main where
  labels := undisturbed 3 (.initializeReplica 2) (Code.start .main)
    (.triggered [] :: .done :: .input oneInput :: List.replicate 2 .done)
  executes := by decide +kernel

/-- A candidate gets the reply that makes it the leader. -/
def winningReply : ThreadRun Unit 3 .receiveVoteRequests where
  labels := undisturbed 3 (startElection (.initializeReplica 2)).1
    (Code.start .receiveVoteRequests)
    (.triggered [.requestVoteReply] :: .done ::
      .requestVoteReply [{ validData := true
                           publicationHandle := ()
                           data :=
                            { senderID := 1
                              term := 1
                              candidateID := 2
                              voteGranted := 1 } }] ::
      List.replicate 12 .done)
  executes := by decide +kernel

/-- The follower is about to wait with the loan, and the winner to return its
loan a second time. -/
theorem followerInput_winningReply_not_disciplined :
    ¬ Disciplined (loanMonitor 3) followerInput ∧
      ¬ Disciplined (loanMonitor 3) winningReply := by
  constructor
  · intro h
    have hreach : Reaches followerInput 5 (.wait .input)
        (afterRead .main (.input oneInput) fun _ => .none) :=
      ⟨by decide, _, rfl⟩
    exact h 5 _ _ hreach .main rfl
  · intro h
    have hreach : ∃ g, Reaches winningReply 15
        (.returnLoan .handleVoteReplyMessage) g ∧
          g .handleVoteReplyMessage = .returned :=
      ⟨_, ⟨by decide, _, rfl⟩, rfl⟩
    obtain ⟨g, hreach, hreturned⟩ := hreach
    exact h 15 _ _ hreach hreturned

end RevPiRaft.Ports.LoanDiscipline
