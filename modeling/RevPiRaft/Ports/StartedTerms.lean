import RevPiRaft.Ports.VoteValidity

/-!
# Where terms come from

A replica comes to a term by an election of its own or by a message of the
term, and a message has the term that its publisher was in.  So no term is made
up: every term up to that of any replica has been started by an election of
some replica, and no term exceeds the number of elections (`terms_started`).
-/

namespace RevPiRaft.Ports.StartedTerms

open RevPiRaft.Verified.Runs
open RevPiRaft.Ports.Datamodel
open RevPiRaft.Ports.ReplicaCore
open RevPiRaft.Ports.Process
open RevPiRaft.Ports.Events
open RevPiRaft.Ports.Reactions
open RevPiRaft.Ports.Pending
open RevPiRaft.Ports.Cluster
open RevPiRaft.Ports.History
open RevPiRaft.Ports.TermMonotone
open RevPiRaft.Ports.VoteValidity
open Execution

/-- A term is the old one, the next one of an election set-up, or that of the
sample that the event handles. -/
theorem React.term {ι : Type} {N : Nat} {s s' : Replica} {e : Event ι}
    {out : List Publication} (h : React N s e s' out) :
    s'.currentTerm = s.currentTerm ∨
      (e = .start ∧ s'.currentTerm = s.currentTerm + 1) ∨
      ∃ t, ∃ x ∈ handled e t, x.validData = true ∧
        s'.currentTerm = t.term x.data := by
  cases h with
  | start => exact .inr (.inl ⟨rfl, rfl⟩)
  | appendNewer x hx | electionNewer f x hx =>
      exact .inr (.inr ⟨.appendEntries, x, List.mem_singleton_self x, hx, rfl⟩)
  | voteNewer g x hx =>
      exact .inr (.inr ⟨.requestVote, x, List.mem_singleton_self x, hx, rfl⟩)
  | replyNewer x t hx =>
      exact .inr (.inr
        ⟨.requestVoteReply, x, List.mem_singleton_self x, hx, rfl⟩)
  | voteGrant | replyWon | input => exact .inl (by simp)
  | _ => exact .inl rfl

theorem toNat_succ_le (t : UInt32) : (t + 1).toNat ≤ t.toNat + 1 := by
  rw [UInt32.toNat_add]
  exact Nat.mod_le _ _

variable {ι : Type} [DecidableEq ι] {cfg : Config ι}

/-- One more after an election set-up. -/
def countElection (w : World ι) (a : ι × Action ι) (elections : Nat) : Nat :=
  match event (w.node a.1) a.2 with
  | .start => elections + 1
  | _ => elections

/-- Number of elections that have been started in the cluster. -/
def elections (run : Execution cfg) : Nat → Nat :=
  run.history 0 countElection

variable {run : Execution cfg}

theorem elections_succ {i : Nat} {r : ι} {e : Event ι}
    (h : run.Occurs i r e) :
    elections run i ≤ elections run (i + 1) ∧
      (e = .start → elections run (i + 1) = elections run i + 1) := by
  obtain ⟨a, hlabel, hevent⟩ := h
  obtain ⟨hi, hget⟩ := List.getElem?_eq_some_iff.mp hlabel
  have hevent : event ((run.state i).node r) a = e := hevent
  rw [elections, Run.history_succ _ _ _ _ hi,
    show run.label i hi = (r, a) from hget]
  simp only [countElection, hevent]
  constructor
  · split
    · exact Nat.le_succ _
    · exact Nat.le_refl _
  · rintro rfl
    rfl

/-- The terms up to `t` have been started, and there were as many elections. -/
structure Started (run : Execution cfg) (i : Nat) (t : UInt32) : Prop where
  each : ∀ u, 0 < u → u ≤ t → ∃ c, StartedIn run i c u
  count : t.toNat ≤ elections run i

theorem Started.le {i : Nat} {t u : UInt32} (h : Started run i t)
    (hle : u ≤ t) : Started run i u where
  each := fun v hpos hv => h.each v hpos (UInt32.le_trans hv hle)
  count := Nat.le_trans (UInt32.le_iff_toNat_le.mp hle) h.count

theorem Started.next {i : Nat} {r : ι} {e : Event ι} (he : run.Occurs i r e)
    {t : UInt32} (h : Started run i t) : Started run (i + 1) t where
  each := by
    intro u hpos hu
    obtain ⟨c, hc⟩ := h.each u hpos hu
    exact ⟨c, hc.mono (Nat.le_succ i)⟩
  count := Nat.le_trans h.count (elections_succ he).1

/-- An election starts the next term. -/
theorem Started.start {i : Nat} {r : ι} (he : run.Occurs i r .start)
    (h : Started run i (run.replica i r).currentTerm)
    (hterm : (run.replica (i + 1) r).currentTerm =
      (run.replica i r).currentTerm + 1) :
    Started run (i + 1) (run.replica (i + 1) r).currentTerm where
  each := by
    intro u hpos hu
    by_cases hold : u ≤ (run.replica i r).currentTerm
    · exact (h.next he).each u hpos hold
    · refine ⟨r, i, Nat.lt_succ_self i, he, ?_⟩
      rw [hterm] at hu ⊢
      have hlt := UInt32.lt_iff_toNat_lt.mp (UInt32.not_le.mp hold)
      have hle := UInt32.le_iff_toNat_le.mp hu
      have hsucc := toNat_succ_le (run.replica i r).currentTerm
      exact UInt32.toNat_inj.mp (by omega)
  count := by
    have hcount := h.count
    have hsucc := toNat_succ_le (run.replica i r).currentTerm
    rw [(elections_succ he).2 rfl, hterm]
    omega

/-- If no term wraps round, every term up to that of any replica has been
started by an election of some replica, and there have been at least as many
elections. -/
theorem terms_started (run : Execution cfg) (hwrap : NoTermWrap run) {i : Nat}
    (hi : i ≤ run.length) (r : ι) :
    (∀ t, 0 < t → t ≤ (run.replica i r).currentTerm →
      ∃ c, StartedIn run i c t) ∧
    (run.replica i r).currentTerm.toNat ≤ elections run i := by
  have hall : ∀ r, Started run i (run.replica i r).currentTerm := by
    refine induction_on (P := fun i =>
      ∀ r, Started run i (run.replica i r).currentTerm) ?_
      (fun i r' e he ih r => ?_) i hi
    · intro r
      rw [replica_zero]
      refine ⟨fun u hpos hu => ?_, Nat.le_refl 0⟩
      exact absurd (UInt32.lt_of_lt_of_le hpos hu) (UInt32.lt_irrefl _)
    · by_cases hr : r = r'
      · subst hr
        rcases React.term he.react with hsame | ⟨rfl, hsucc⟩ |
          ⟨t, x, hx, hvalid, hterm⟩
        · rw [hsame]
          exact (ih r).next he
        · exact (ih r).start he hsucc
        · obtain ⟨j, hj, hp⟩ := handled_published he hx hvalid
          rw [hterm]
          exact ((ih x.publicationHandle).next he).le
            (published_term_le hwrap hp hj (Nat.le_of_lt he.lt))
      · rw [he.frame hr]
        exact (ih r).next he
  exact ⟨(hall r).each, (hall r).count⟩

/-- The second election of replica 1 brings it to term 2. -/
theorem terms_started_twoCandidacies :
    (∃ c, StartedIn twoCandidacies 3 c 1) ∧ 2 ≤ elections twoCandidacies 3 := by
  obtain ⟨heach, hcount⟩ := terms_started twoCandidacies
    (noTermWrap_of_terms (by decide +kernel)) (i := 3) (by decide) 1
  exact ⟨heach 1 (by decide) (by decide +kernel),
    Nat.le_trans (by decide +kernel) hcount⟩

end RevPiRaft.Ports.StartedTerms
