import Mathlib.Data.List.Basic

/-!
# A voter with one vote per term

A voter is in a term and may have given its vote in it.  A request names a term
and a candidate: a later term is adopted and its first request gets the vote, a
request of the current term gets a vote not given yet, and nothing else has an
effect.  After any sequence of requests the voter is in the latest term it has
heard of, and its vote is the first of that term (`receiveAll_term`,
`receiveAll_vote`).  This module names no program.
-/

namespace RevPiRaft.Verified.Voting

variable {T C : Type} [LT T] [DecidableLT T]

/-! ## The latest term -/

/-- The latest of a term and the terms of some requests. -/
def latest (t : T) (rs : List (T × C)) : T :=
  rs.foldl (fun m r => if m < r.1 then r.1 else m) t

theorem latest_cons (t : T) (r : T × C) (rs : List (T × C)) :
    latest t (r :: rs) = latest (if t < r.1 then r.1 else t) rs :=
  rfl

/-- The latest term is one of those it is the latest of. -/
theorem latest_mem (t : T) (rs : List (T × C)) :
    latest t rs = t ∨ ∃ r ∈ rs, r.1 = latest t rs := by
  induction rs generalizing t with
  | nil => exact .inl rfl
  | cons q rs ih =>
      rw [latest_cons]
      rcases ih (if t < q.1 then q.1 else t) with hkept | ⟨r, hr, hterm⟩
      · rw [hkept]
        split
        · exact .inr ⟨q, List.mem_cons_self .., rfl⟩
        · exact .inl rfl
      · exact .inr ⟨r, List.mem_cons_of_mem q hr, hterm⟩

section Order

variable [LE T] [Std.IsLinearOrder T] [Std.LawfulOrderLT T]

theorem le_latest (t : T) (rs : List (T × C)) : t ≤ latest t rs := by
  induction rs generalizing t with
  | nil => exact Std.le_refl t
  | cons r rs ih =>
      rw [latest_cons]
      refine Std.le_trans ?_ (ih _)
      split
      · exact Std.le_of_lt ‹t < r.1›
      · exact Std.le_refl t

theorem term_le_latest (t : T) (rs : List (T × C)) :
    ∀ r ∈ rs, r.1 ≤ latest t rs := by
  induction rs generalizing t with
  | nil =>
      intro r hr
      cases hr
  | cons q rs ih =>
      intro r hr
      rw [latest_cons]
      rcases List.mem_cons.mp hr with rfl | hr
      · refine Std.le_trans ?_ (le_latest _ rs)
        split
        · exact Std.le_refl r.1
        · exact Std.not_lt.mp ‹¬ t < r.1›
      · exact ih _ r hr

end Order

/-! ## Requests -/

variable [DecidableEq T]

/-- The current term and the vote given in it. -/
structure Voter (T C : Type) where
  term : T
  vote : Option C

/-- Handling one request. -/
def Voter.receive (v : Voter T C) (r : T × C) : Voter T C :=
  if v.term < r.1 then { term := r.1, vote := some r.2 }
  else if r.1 = v.term then { v with vote := v.vote.or (some r.2) }
  else v

/-- Handling requests in their order. -/
def Voter.receiveAll (v : Voter T C) (rs : List (T × C)) : Voter T C :=
  rs.foldl Voter.receive v

theorem receive_term (v : Voter T C) (r : T × C) :
    (v.receive r).term = if v.term < r.1 then r.1 else v.term := by
  unfold Voter.receive
  split
  · rfl
  · split <;> rfl

/-- The voter ends in the latest term. -/
theorem receiveAll_term (v : Voter T C) (rs : List (T × C)) :
    (v.receiveAll rs).term = latest v.term rs := by
  induction rs generalizing v with
  | nil => rfl
  | cons r rs ih =>
      rw [latest_cons, ← receive_term]
      exact ih (v.receive r)

/-- The first request of term `t`. -/
def first (t : T) (rs : List (T × C)) : Option C :=
  (rs.find? fun r => r.1 = t).map Prod.snd

omit [LT T] [DecidableLT T] in
theorem first_cons (t : T) (r : T × C) (rs : List (T × C)) :
    first t (r :: rs) = if r.1 = t then some r.2 else first t rs := by
  unfold first
  by_cases h : r.1 = t <;> simp [h]

variable [LE T] [Std.IsLinearOrder T] [Std.LawfulOrderLT T]

/-- The vote at the end is the first of the latest term, the one given at the
start included. -/
theorem receiveAll_vote (v : Voter T C) (rs : List (T × C)) :
    (v.receiveAll rs).vote =
      (if v.term = latest v.term rs then v.vote else none).or
        (first (latest v.term rs) rs) := by
  induction rs generalizing v with
  | nil => simp [Voter.receiveAll, latest, first]
  | cons r rs ih =>
      have hstep := ih (v.receive r)
      rw [receive_term, ← latest_cons] at hstep
      rw [show v.receiveAll (r :: rs) = (v.receive r).receiveAll rs from rfl,
        hstep, first_cons]
      have hle := term_le_latest v.term (r :: rs) r (List.mem_cons_self ..)
      have hge := le_latest v.term (r :: rs)
      generalize latest v.term (r :: rs) = m at hle hge
      by_cases hnewer : v.term < r.1
      · have hne : v.term ≠ m := by grind
        rw [Voter.receive, if_pos hnewer, if_pos hnewer, if_neg hne]
        by_cases hlatest : r.1 = m <;> simp [hlatest]
      · rw [Voter.receive, if_neg hnewer, if_neg hnewer]
        by_cases hsame : r.1 = v.term
        · rw [if_pos hsame, hsame]
          by_cases hlatest : v.term = m
          · rw [if_pos hlatest, if_pos hlatest]
            cases v.vote <;> simp [hlatest]
          · simp [hlatest]
        · have hne : r.1 ≠ m := by grind
          rw [if_neg hsame, if_neg hne]

end RevPiRaft.Verified.Voting
