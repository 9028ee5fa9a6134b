import Mathlib.Data.Fintype.Card

/-!
# Majority elections

Voters choose candidates.  A candidate is elected when more than half of all
voters chose it, so two elected candidates share a voter, and where no voter
chooses twice they are the same (`Elects.unique`).

A candidate that only counts ballots, without knowing whose they are, still
counts distinct voters as long as no voter has a second ballot under way.
`Tally` is that invariant: it relates the counter to the set of voters behind
it and to the number of ballots still outstanding for each voter.  This module
names no program.
-/

namespace RevPiRaft.Verified.Election

variable {Voter Candidate : Type}

/-! ## Majorities -/

section Majorities

variable [Fintype Voter]

/-- More than half of the voters chose `c`. -/
def Elects (chose : Voter → Candidate → Prop) (c : Candidate) : Prop :=
  ∃ voters : Finset Voter, Fintype.card Voter < 2 * voters.card ∧
    ∀ v ∈ voters, chose v c

/-- Two majorities share a voter. -/
theorem majorities_meet {S T : Finset Voter}
    (hS : Fintype.card Voter < 2 * S.card)
    (hT : Fintype.card Voter < 2 * T.card) : ∃ v, v ∈ S ∧ v ∈ T := by
  classical
  have hcard : (Finset.univ : Finset Voter).card < S.card + T.card := by
    rw [Finset.card_univ]
    omega
  obtain ⟨v, hv⟩ := Finset.inter_nonempty_of_card_lt_card_add_card
    S.subset_univ T.subset_univ hcard
  exact ⟨v, Finset.mem_inter.mp hv⟩

/-- Where every voter chooses at most once, at most one candidate is elected. -/
theorem Elects.unique {chose : Voter → Candidate → Prop}
    (hone : ∀ v c d, chose v c → chose v d → c = d) {c d : Candidate}
    (hc : Elects chose c) (hd : Elects chose d) : c = d := by
  obtain ⟨S, hS, hchoseS⟩ := hc
  obtain ⟨T, hT, hchoseT⟩ := hd
  obtain ⟨v, hvS, hvT⟩ := majorities_meet hS hT
  exact hone v c d (hchoseS v hvS) (hchoseT v hvT)

end Majorities

/-! ## Counting ballots -/

/-- The counter `votes` counts the voters in `counted`, the candidate itself
among them, and none of the others has a ballot outstanding. -/
structure Tally (own : Voter) (outstanding : Voter → Nat) (votes : Nat)
    (counted : Finset Voter) : Prop where
  own_mem : own ∈ counted
  card : counted.card = votes
  spent : ∀ v ∈ counted, v ≠ own → outstanding v = 0

namespace Tally

variable {own : Voter} {outstanding outstanding' : Voter → Nat} {votes : Nat}
  {counted : Finset Voter}

/-- A fresh candidacy counts the candidate's own vote. -/
theorem single (own : Voter) (outstanding : Voter → Nat) :
    Tally own outstanding 1 {own} where
  own_mem := Finset.mem_singleton_self own
  card := Finset.card_singleton own
  spent := fun _ hv hne => absurd (Finset.mem_singleton.mp hv) hne

/-- A tally survives every step that issues no ballot. -/
theorem mono (h : Tally own outstanding votes counted)
    (hle : ∀ v, v ≠ own → outstanding' v ≤ outstanding v) :
    Tally own outstanding' votes counted where
  own_mem := h.own_mem
  card := h.card
  spent := fun v hv hne => by
    have hzero := h.spent v hv hne
    have hstep := hle v hne
    omega

/-- Counting the only outstanding ballot of another voter. -/
theorem count [DecidableEq Voter] (h : Tally own outstanding votes counted)
    {v : Voter} (hv : v ≠ own) (hissued : 0 < outstanding v)
    (hspent : outstanding' v = 0)
    (hle : ∀ w, w ≠ own → outstanding' w ≤ outstanding w) :
    Tally own outstanding' (votes + 1) (insert v counted) where
  own_mem := Finset.mem_insert_of_mem h.own_mem
  card := by
    have hnew : v ∉ counted := by
      intro hmem
      have hzero := h.spent v hmem hv
      omega
    rw [Finset.card_insert_of_notMem hnew, h.card]
  spent := fun w hw hne => by
    rcases Finset.mem_insert.mp hw with rfl | hold
    · exact hspent
    · exact (h.mono hle).spent w hold hne

end Tally

end RevPiRaft.Verified.Election
