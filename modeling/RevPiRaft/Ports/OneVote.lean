import RevPiRaft.Ports.VoteValidity

/-!
# One vote per term

Both role changes clear `voted_for`, also when they keep the term: a candidate
that wins, or that steps down for another leader of its term, forgets the vote
it cast for itself.  `Revote` is the request such a replica then grants in the
same term.  Without it a recorded vote is either still on record or was the
vote of a candidacy of the current term (`OneVoteInvariant`).
-/

namespace RevPiRaft.Ports.OneVote

open RevPiRaft.Ports.Datamodel
open RevPiRaft.Ports.ReplicaCore
open RevPiRaft.Ports.Events
open RevPiRaft.Ports.Reactions
open RevPiRaft.Ports.Pending
open RevPiRaft.Ports.Cluster
open RevPiRaft.Ports.History
open RevPiRaft.Ports.TermMonotone
open RevPiRaft.Ports.VoteValidity
open Execution

/-- The request `x` makes `s`, which has been a candidate in its current term
and has since cleared its vote, vote for another candidate of that term. -/
structure Revote {ι : Type} (s : Replica) (x : Sample ι RequestVote) :
    Prop where
  valid : x.validData = true
  term : x.data.term.toUInt32 = s.currentTerm
  cleared : s.votedFor = votedNone
  candidacy : s.electionTerm = some s.currentTerm
  other : uint8OfLong x.data.senderID ≠ s.ID
  candidate : uint8OfLong x.data.senderID ≠ votedNone

/-- What an event does to the term, the candidacy and the vote. -/
theorem React.vote {ι : Type} {N : Nat} {s s' : Replica} {e : Event ι}
    {out : List Publication} (h : React N s e s' out) (hs : Candidacy s) :
    (e = .start ∧ s'.currentTerm = s.currentTerm + 1 ∧
      s'.electionTerm = some s'.currentTerm ∧ s'.votedFor = s'.ID) ∨
    (s.currentTerm < s'.currentTerm ∧ s'.electionTerm = s.electionTerm) ∨
    (s'.currentTerm = s.currentTerm ∧ s'.electionTerm = s.electionTerm ∧
      (s'.votedFor = s.votedFor ∨
        (s'.votedFor = votedNone ∧ s.electionTerm = some s.currentTerm) ∨
        (s.votedFor = votedNone ∧ ∃ g x, e = .vote g x ∧
          x.validData = true ∧ x.data.term.toUInt32 = s.currentTerm ∧
          s'.votedFor = uint8OfLong x.data.senderID))) := by
  cases h with
  | start => exact .inl ⟨rfl, rfl, rfl, rfl⟩
  | appendNewer x hx hterm | electionNewer f x hx hterm
  | voteNewer g x hx hterm => exact .inr (.inl ⟨hterm, rfl⟩)
  | replyNewer x t hx hrole helection hterm =>
      have ht := hs (by simp [hrole])
      rw [helection, Option.some.injEq] at ht
      exact .inr (.inl ⟨ht ▸ hterm, rfl⟩)
  | appendStepDown x hx hterm hrole | electionStepDown f x hx hterm hrole =>
      exact .inr (.inr ⟨rfl, rfl, .inr (.inl ⟨rfl, hs hrole⟩)⟩)
  | voteGrant g x hx hterm hvote =>
      refine .inr (.inr ⟨rfl, rfl, ?_⟩)
      rcases hvote with hnone | hsame
      · exact .inr (.inr ⟨hnone, g, x, rfl, hx, hterm, rfl⟩)
      · exact .inl hsame.symm
  | replyWon x t hx hrole =>
      rw [Replica.becomeLeader_of_ne (by simp [hrole])]
      exact .inr (.inr ⟨rfl, rfl, .inr (.inl ⟨rfl, hs (by simp [hrole])⟩)⟩)
  | input => exact .inr (.inr ⟨by simp, by simp, .inl (by simp)⟩)
  | _ => exact .inr (.inr ⟨rfl, rfl, .inl rfl⟩)

variable {ι : Type} [DecidableEq ι] {cfg : Config ι} {run : Execution cfg}

/-- The last candidacy of a replica was never in a later term. -/
theorem electionTerm_le {i : Nat} (hi : i ≤ run.length) (r : ι) {t : UInt32}
    (ht : (run.replica i r).electionTerm = some t) :
    t ≤ (run.replica i r).currentTerm := by
  revert t
  refine replica_invariant (P := fun s => ∀ {t : UInt32},
    s.electionTerm = some t → t ≤ s.currentTerm) r (fun h => by cases h) ?_ i hi
  intro i e he hreact hs t ht
  have hi := Nat.le_of_lt he.lt
  rcases React.vote hreact (candidacy hi r) with ⟨-, -, hnew, -⟩ |
    ⟨hterm, hold⟩ | ⟨hterm, hold, -⟩
  · rw [hnew, Option.some.injEq] at ht
    exact ht ▸ UInt32.le_refl _
  · exact UInt32.le_trans (hs (hold ▸ ht)) (UInt32.le_of_lt hterm)
  · rw [hterm]
    exact hs (hold ▸ ht)

/-- The last candidacy of a replica was an election set-up. -/
theorem electionTerm_started {i : Nat} (hi : i ≤ run.length) {r : ι}
    {t : UInt32} (ht : (run.replica i r).electionTerm = some t) :
    ∃ j < i, run.Occurs j r .start ∧
      (run.replica (j + 1) r).currentTerm = t ∧
      (run.replica (j + 1) r).votedFor = cfg.ID r := by
  refine origin (P := fun i => (run.replica i r).electionTerm = some t) ?_
    (fun i r' e he ht => ?_) hi ht
  · intro ht
    rw [replica_zero] at ht
    cases ht
  · by_cases hr : r = r'
    · subst hr
      have hi := Nat.le_of_lt he.lt
      rcases React.vote he.react (candidacy hi r) with
        ⟨rfl, -, helection, hvote⟩ | ⟨-, helection⟩ | ⟨-, helection, -⟩
      · rw [helection, Option.some.injEq] at ht
        rw [ID_eq he.lt] at hvote
        exact .inr ⟨he, ht, hvote⟩
      · exact .inl (helection ▸ ht)
      · exact .inl (helection ▸ ht)
    · rw [he.frame hr] at ht
      exact .inl ht

/-- No request is granted by a replica that has cleared its own vote for a
candidacy of the current term. -/
def NoRevote (run : Execution cfg) : Prop :=
  ∀ i r g x, run.Occurs i r (.vote g x) → ¬ Revote (run.replica i r) x

/-- A run revotes only where a request batch meets a cleared vote of a
candidacy of the current term. -/
theorem noRevote_of_states (h : ∀ i < run.length, ∀ r,
    threadRequests (run.node i r).voteThread = [] ∨
      (run.replica i r).votedFor ≠ votedNone ∨
      (run.replica i r).electionTerm ≠ some (run.replica i r).currentTerm) :
    NoRevote run := by
  intro i r g x he hx
  obtain ⟨a, -, hevent⟩ := id he
  rcases h i he.lt r with hempty | hvote | hterm
  · obtain ⟨k, b, hthread⟩ := event_vote hevent
    rw [hthread] at hempty
    cases hempty
  · exact hvote hx.cleared
  · exact hterm hx.candidacy

/-- No replica ever has two different votes on record in one term. -/
def OneVotePerTerm (run : Execution cfg) : Prop :=
  ∀ r i j, i ≤ run.length → j ≤ run.length →
    (run.replica i r).currentTerm = (run.replica j r).currentTerm →
    (run.replica i r).votedFor ≠ votedNone →
    (run.replica j r).votedFor ≠ votedNone →
    (run.replica i r).votedFor = (run.replica j r).votedFor

/-- What becomes of the votes of replica `r` up to step `i`. -/
structure OneVoteInvariant (run : Execution cfg) (r : ι) (i : Nat) : Prop where
  own : (run.replica i r).electionTerm = some (run.replica i r).currentTerm →
    (run.replica i r).votedFor = votedNone ∨
      (run.replica i r).votedFor = cfg.ID r
  kept : ∀ j ≤ i,
    (run.replica j r).currentTerm = (run.replica i r).currentTerm →
    (run.replica j r).votedFor ≠ votedNone →
    (run.replica j r).votedFor = (run.replica i r).votedFor ∨
      ((run.replica i r).electionTerm =
          some (run.replica i r).currentTerm ∧
        (run.replica j r).votedFor = cfg.ID r)

theorem OneVoteInvariant.step (hwrap : NoTermWrap run) (hrevote : NoRevote run)
    {i : Nat} {r : ι} {e : Event ι} (he : run.Occurs i r e)
    (h : OneVoteInvariant run r i) : OneVoteInvariant run r (i + 1) := by
  have hi := Nat.le_of_lt he.lt
  have hnewTerm : (run.replica i r).currentTerm <
      (run.replica (i + 1) r).currentTerm → ∀ j ≤ i + 1,
      (run.replica j r).currentTerm = (run.replica (i + 1) r).currentTerm →
      j = i + 1 := by
    intro hlt j hj hterm
    by_contra hne
    have hle := term_le hwrap (show j ≤ i by omega) hi r
    rw [hterm] at hle
    exact UInt32.lt_irrefl _ (UInt32.lt_of_lt_of_le hlt hle)
  rcases React.vote he.react (candidacy hi r) with
    ⟨rfl, hterm, helection, hvote⟩ | ⟨hterm, helection⟩ |
    ⟨hterm, helection, hvote⟩
  · refine { own := fun _ => .inr ?_, kept := fun j hj hsame _ => .inl ?_ }
    · rw [hvote, ID_eq he.lt]
    · rw [hnewTerm (start_lt hwrap he) j hj hsame]
  · refine { own := fun hcandidacy => ?_, kept := fun j hj hsame _ => .inl ?_ }
    · rw [helection] at hcandidacy
      have hle := electionTerm_le hi r hcandidacy
      exact absurd (UInt32.lt_of_lt_of_le hterm hle) (UInt32.lt_irrefl _)
    · rw [hnewTerm hterm j hj hsame]
  · refine { own := fun hcandidacy => ?_, kept := fun j hj hsame hj' => ?_ }
    · rw [helection, hterm] at hcandidacy
      rcases hvote with hkept | ⟨hcleared, -⟩ |
        ⟨hnone, g, x, rfl, hx, hxterm, hgranted⟩
      · rw [hkept]
        exact h.own hcandidacy
      · exact .inl hcleared
      · rw [hgranted]
        by_contra hother
        rw [not_or] at hother
        refine hrevote i r g x he ⟨hx, hxterm, hnone, hcandidacy, ?_, hother.1⟩
        rw [ID_eq hi]
        exact hother.2
    · by_cases hlast : j = i + 1
      · exact .inl (by rw [hlast])
      · rw [hterm] at hsame ⊢
        rw [helection]
        rcases h.kept j (by omega) hsame hj' with hold | hown
        · rcases hvote with hkept | ⟨-, hcandidacy⟩ | ⟨hnone, -⟩
          · exact .inl (by rw [hkept, hold])
          · rcases h.own hcandidacy with hnone | hID
            · exact absurd (hold.trans hnone) hj'
            · exact .inr ⟨hcandidacy, hold.trans hID⟩
          · exact absurd (hold.trans hnone) hj'
        · exact .inr hown

theorem oneVoteInvariant (hwrap : NoTermWrap run) (hrevote : NoRevote run)
    (r : ι) {i : Nat} (hi : i ≤ run.length) : OneVoteInvariant run r i := by
  refine induction_on ?_ (fun i r' e he ih => ?_) i hi
  · refine { own := fun h => ?_, kept := fun j hj _ _ => .inl ?_ }
    · rw [replica_zero] at h
      cases h
    · rw [Nat.le_zero.mp hj]
  · by_cases hr : r = r'
    · subst hr
      exact ih.step hwrap hrevote he
    · refine { own := ?_, kept := fun j hj => ?_ }
      · rw [he.frame hr]
        exact ih.own
      · by_cases hlast : j = i + 1
        · intro _ _
          exact .inl (by rw [hlast])
        · rw [he.frame hr]
          exact ih.kept j (by omega)

/-- Without a revote the votes of one term agree. -/
theorem votes_agree (hwrap : NoTermWrap run) (hrevote : NoRevote run) :
    OneVotePerTerm run := by
  have hle : ∀ r i j, i ≤ j → j ≤ run.length →
      (run.replica i r).currentTerm = (run.replica j r).currentTerm →
      (run.replica i r).votedFor ≠ votedNone →
      (run.replica j r).votedFor ≠ votedNone →
      (run.replica i r).votedFor = (run.replica j r).votedFor := by
    intro r i j hij hj hterm hvi hvj
    have hinv := oneVoteInvariant hwrap hrevote r hj
    rcases hinv.kept i hij hterm hvi with hsame | ⟨hcandidacy, hown⟩
    · exact hsame
    · rw [hown, (hinv.own hcandidacy).resolve_left hvj]
  intro r i j hi hj hterm hvi hvj
  rcases Nat.le_total i j with hij | hji
  · exact hle r i j hij hj hterm hvi hvj
  · exact (hle r j i hji hi hterm.symm hvj hvi).symm

/-- A revote is a second vote: the first one was the replica's own. -/
theorem revote_two_votes (hID : ∀ r, cfg.ID r ≠ votedNone) {i : Nat} {r : ι}
    {g : Bool} {x : Sample ι RequestVote} (he : run.Occurs i r (.vote g x))
    (hx : Revote (run.replica i r) x) : ¬ OneVotePerTerm run := by
  intro hone
  obtain ⟨j, hj, hstart, hterm, hown⟩ :=
    electionTerm_started (Nat.le_of_lt he.lt) hx.candidacy
  have hgrant : (run.replica (i + 1) r).currentTerm =
      (run.replica i r).currentTerm ∧
      (run.replica (i + 1) r).votedFor = uint8OfLong x.data.senderID := by
    have hreact := he.react
    generalize run.replica (i + 1) r = s', run.output i = out at hreact
    cases hreact with
    | voteInvalid _ _ hinvalid => rw [hx.valid] at hinvalid; cases hinvalid
    | voteNewer _ _ _ hterm =>
        rw [hx.term] at hterm
        exact absurd hterm (UInt32.lt_irrefl _)
    | voteGrant => exact ⟨rfl, rfl⟩
    | voteRefuse _ _ _ _ hrefuse =>
        exact absurd ⟨hx.term, .inl hx.cleared⟩ hrefuse
  have hsame := hone r (j + 1) (i + 1) (by have := he.lt; omega) he.lt
    (hterm.trans hgrant.1.symm) (by rw [hown]; exact hID r)
    (by rw [hgrant.2]; exact hx.candidate)
  rw [hown, hgrant.2, ← ID_eq (Nat.le_of_lt he.lt) r] at hsame
  exact hx.other hsame.symm

/-- One vote per term holds in every run without a revote, and fails in every
run with one. -/
theorem one_vote_per_term (run : Execution cfg) (hwrap : NoTermWrap run) :
    (NoRevote run → OneVotePerTerm run) ∧
    ((∀ r, cfg.ID r ≠ votedNone) → OneVotePerTerm run → NoRevote run) :=
  ⟨votes_agree hwrap,
    fun hID hone _ _ _ _ he hx => revote_two_votes hID he hx hone⟩

theorem one_vote_per_term_oneGrant : OneVotePerTerm oneGrant :=
  (one_vote_per_term oneGrant (noTermWrap_of_terms (by decide +kernel))).1
    (noRevote_of_states (by decide +kernel))

/-- Replica 2 leads term 1 with its own vote and then votes for replica 1,
whose request of the same term arrives late. -/
def leaderVote : Execution threeReplicas where
  labels := electReplica2 ++
    [(1, .electionTimeout), (2, .deliver .requestVote 1)] ++ handleRequests 2 1
  executes := by decide +kernel

theorem leaderVote_not_oneVotePerTerm : ¬ OneVotePerTerm leaderVote := by
  intro h
  have hvotes := h 2 1 leaderVote.length (by decide) (Nat.le_refl _)
    (by decide +kernel) (by decide +kernel) (by decide +kernel)
  revert hvotes
  decide +kernel

end RevPiRaft.Ports.OneVote
