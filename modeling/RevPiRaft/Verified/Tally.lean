import Mathlib.Data.List.Basic

/-!
# Counting votes up to the reply that decides

A candidate reads replies one by one.  A vote is counted, and the vote past the
quota wins; a newer term ends the candidacy; any other reply changes nothing.
Whichever comes first decides, and nothing after it is read.  So the outcome
follows from the votes before the first newer term (`tally_eq`).  This module
names no program.
-/

namespace RevPiRaft.Verified.Tally

/-- What a reply is to a candidate. -/
inductive Reply (T : Type) where
  | vote
  | newer (term : T)
  | other
deriving DecidableEq

/-- How a candidacy stands, with the votes counted so far. -/
inductive Outcome (T : Type) where
  | undecided (votes : Nat)
  | won (votes : Nat)
  | superseded (votes : Nat) (term : T)
deriving DecidableEq

variable {T : Type}

/-- Counting from `votes` votes on. -/
def tally (quota votes : Nat) : List (Reply T) → Outcome T
  | [] => .undecided votes
  | .vote :: rest =>
      if quota < votes + 1 then .won (votes + 1)
      else tally quota (votes + 1) rest
  | .newer term :: _ => .superseded votes term
  | .other :: rest => tally quota votes rest

/-! ## The outcome -/

def Reply.isVote : Reply T → Bool
  | .vote => true
  | _ => false

/-- The term of a reply of a newer term. -/
def Reply.newerTerm : Reply T → Option T
  | .newer term => some term
  | _ => none

/-- The replies before the first newer term. -/
def current (replies : List (Reply T)) : List (Reply T) :=
  replies.takeWhile fun r => r.newerTerm.isNone

@[simp] theorem current_vote (replies : List (Reply T)) :
    current (.vote :: replies) = .vote :: current replies :=
  rfl

@[simp] theorem current_newer (term : T) (replies : List (Reply T)) :
    current (.newer term :: replies) = [] :=
  rfl

theorem votes_cons (votes : Nat) (replies : List (Reply T)) :
    votes + (Reply.vote :: replies).countP Reply.isVote =
      votes + 1 + replies.countP Reply.isVote := by
  rw [List.countP_cons_of_pos rfl]
  omega

/-- The outcome is decided by the votes before the first newer term. -/
theorem tally_eq {quota votes : Nat} (h : votes ≤ quota)
    (replies : List (Reply T)) :
    tally quota votes replies =
      if quota < votes + (current replies).countP Reply.isVote then
        .won (quota + 1)
      else
        match replies.findSome? Reply.newerTerm with
        | some term =>
            .superseded (votes + (current replies).countP Reply.isVote) term
        | none => .undecided (votes + replies.countP Reply.isVote) := by
  induction replies generalizing votes with
  | nil =>
      have hfew : ¬ quota < votes := Nat.not_lt.mpr h
      simp [tally, current, hfew]
  | cons r replies ih =>
      cases r with
      | vote =>
          rw [tally, current_vote, votes_cons, votes_cons]
          by_cases hmost : quota < votes + 1
          · have hfirst : votes + 1 = quota + 1 := by omega
            rw [if_pos hmost, if_pos (by omega), hfirst]
          · rw [if_neg hmost, ih (by omega)]
            rfl
      | newer term =>
          have hfew : ¬ quota < votes + 0 := by omega
          rw [tally, current_newer, List.countP_nil, if_neg hfew]
          rfl
      | other =>
          rw [tally, ih h]
          rfl

end RevPiRaft.Verified.Tally
