import RevPiRaft.Ports.StepInversion
import RevPiRaft.Ports.Events

/-!
# Nodes with more samples in flight

A node covers another one if it differs from it in the samples in flight only
and has all of the other's in flight, in the same order.  Whatever the covered
node does, the covering one can do too, with the same event and the same
publications, and still covers it (`Covers.step`): nothing but an arrival looks
at the samples in flight, and an arrival takes any of them.
-/

namespace RevPiRaft.Ports.Coverage

open RevPiRaft.Ports.Datamodel
open RevPiRaft.Ports.Process
open RevPiRaft.Ports.StepInversion
open RevPiRaft.Ports.Events

variable {ι : Type} {N : Nat}

/-! ## Replacing the samples in flight -/

/-- The node with the samples `g` in flight. -/
def withInflight (n : Node ι) (g : (t : Topic) → List (Sample ι t.Msg)) :
    Node ι :=
  { n with
    reader := fun t =>
      { inflight := g t
        unread := (n.reader t).unread } }

/-- An arrival takes a sample out of those in flight. -/
def IsArrival : Action ι → Prop
  | .deliver _ _ => True
  | _ => False

theorem withInflight_self (n : Node ι) :
    withInflight n (fun t => (n.reader t).inflight) = n := rfl

theorem withInflight_update (n : Node ι)
    (g : (t : Topic) → List (Sample ι t.Msg)) (t : Topic)
    (inflight unread : List (Sample ι t.Msg)) :
    withInflight { n with
      reader := Function.update n.reader t
        { inflight := inflight
          unread := unread } } (Function.update g t inflight) =
      { withInflight n g with
        reader := Function.update (withInflight n g).reader t
          { inflight := inflight
            unread := unread } } := by
  unfold withInflight
  congr 1
  funext u
  by_cases hu : u = t
  · subst hu
    simp
  · simp [hu]

/-- Only the unread samples change. -/
theorem withInflight_unread (n : Node ι)
    (g : (t : Topic) → List (Sample ι t.Msg)) (t : Topic)
    (unread : List (Sample ι t.Msg)) :
    withInflight { n with
      reader := Function.update n.reader t
        { inflight := (n.reader t).inflight
          unread := unread } } g =
      { withInflight n g with
        reader := Function.update (withInflight n g).reader t
          { inflight := g t
            unread := unread } } := by
  have h := withInflight_update n g t (g t) unread
  rw [Function.update_eq_self] at h
  rw [← h]
  unfold withInflight
  congr 1
  funext u
  by_cases hu : u = t
  · subst hu
    simp
  · simp [hu]

theorem withInflight_take (n : Node ι)
    (g : (t : Topic) → List (Sample ι t.Msg)) (t : Topic) :
    withInflight (n.take t) g = (withInflight n g).take t :=
  withInflight_unread n g t []

/-- What is in flight matters to arrivals only. -/
theorem step_withInflight {n n' : Node ι} {a : Action ι}
    {out : List Publication} (h : n.step N a = some (n', out))
    (ha : ¬ IsArrival a) (g : (t : Topic) → List (Sample ι t.Msg)) :
    (withInflight n g).step N a = some (withInflight n' g, out) := by
  apply Step.step_eq
  cases step_cases h with
  | deliver t k x hx => exact absurd trivial ha
  | dispose t x hx =>
      rw [withInflight_unread]
      exact .dispose t x hx
  | appendWake hthread hwake hfree =>
      have hstep := Step.appendWake (N := N) (n := withInflight n g) hthread
        hwake hfree
      rw [← withInflight_take] at hstep
      exact hstep
  | appendStep x batch hthread => exact .appendStep x batch hthread
  | leaderTimeout hthread hfree hrole =>
      exact .leaderTimeout hthread hfree hrole
  | electionTimeout hthread hfree hrole =>
      exact .electionTimeout hthread hfree hrole
  | electionWake hthread hwake => exact .electionWake hthread hwake
  | electionTake k f hthread hfree =>
      have hstep := Step.electionTake (N := N) (n := withInflight n g) k f
        hthread hfree
      rw [← withInflight_take] at hstep
      exact hstep
  | electionSkip k f hthread hindex => exact .electionSkip k f hthread hindex
  | electionStep k f x batch hthread => exact .electionStep k f x batch hthread
  | electionRestart hthread hfree => exact .electionRestart hthread hfree
  | electionWaitTimeout hthread => exact .electionWaitTimeout hthread
  | voteWake conditions hthread hnonempty hnodup hwake =>
      exact .voteWake conditions hthread hnonempty hnodup hwake
  | voteEnter k hthread hfree hguard =>
      have hstep := Step.voteEnter (N := N) (n := withInflight n g) k hthread
        hfree hguard
      rw [← withInflight_take] at hstep
      exact hstep
  | replyEnter k hthread hfree hguard =>
      have hstep := Step.replyEnter (N := N) (n := withInflight n g) k hthread
        hfree hguard
      rw [← withInflight_take] at hstep
      exact hstep
  | voteStep k v x batch hthread => exact .voteStep k v x batch hthread
  | replyStep k x batch r hthread hr => exact .replyStep k x batch r hthread hr
  | alarm harmed => exact .alarm harmed
  | heartbeatBuild heap m halarms hfree hm =>
      exact .heartbeatBuild heap m halarms hfree hm
  | heartbeatWrite k m hm => exact .heartbeatWrite k m hm
  | heartbeatReplies hawaiting hwake hfree =>
      have hstep := Step.heartbeatReplies (N := N) (n := withInflight n g)
        hawaiting hwake hfree
      rw [← withInflight_take] at hstep
      exact hstep
  | heartbeatTimeout hawaiting => exact .heartbeatTimeout hawaiting
  | input batch hfree => exact .input batch hfree

/-- Only an arrival changes what is in flight. -/
theorem step_inflight {n n' : Node ι} {a : Action ι} {out : List Publication}
    (h : n.step N a = some (n', out)) (ha : ¬ IsArrival a) (t : Topic) :
    (n'.reader t).inflight = (n.reader t).inflight := by
  have hsame := step_withInflight h ha fun t => (n.reader t).inflight
  rw [withInflight_self, h, Option.some.injEq, Prod.mk.injEq] at hsame
  rw [hsame.1]
  rfl

/-! ## Covering -/

/-- `m` is `n` with at least the samples of `n` in flight. -/
def Covers (m n : Node ι) : Prop :=
  ∃ g, (∀ t, (n.reader t).inflight.Sublist (g t)) ∧ m = withInflight n g

/-- The position of an element in a longer list, and what remains there. -/
theorem sublist_eraseIdx {α : Type} {l m : List α} (h : l.Sublist m) {k : Nat}
    {x : α} (hx : l[k]? = some x) :
    ∃ j, m[j]? = some x ∧ (l.eraseIdx k).Sublist (m.eraseIdx j) := by
  induction h generalizing k with
  | slnil => simp at hx
  | cons y h ih =>
      obtain ⟨j, hj, hrest⟩ := ih hx
      exact ⟨j + 1, hj, hrest.cons y⟩
  | cons_cons y h ih =>
      cases k with
      | zero => exact ⟨0, hx, h⟩
      | succ k =>
          obtain ⟨j, hj, hrest⟩ := ih hx
          exact ⟨j + 1, hj, hrest.cons_cons y⟩

namespace Covers

variable {m n p : Node ι}

theorem refl (n : Node ι) : Covers n n :=
  ⟨_, fun _ => List.Sublist.refl _, (withInflight_self n).symm⟩

theorem trans (h : Covers m n) (h' : Covers n p) : Covers m p := by
  obtain ⟨g, hg, rfl⟩ := h
  obtain ⟨g', hg', rfl⟩ := h'
  exact ⟨g, fun t => (hg' t).trans (hg t), rfl⟩

theorem replica (h : Covers m n) : m.replica = n.replica := by
  obtain ⟨g, -, rfl⟩ := h
  rfl

theorem inflight (h : Covers m n) (t : Topic) :
    (n.reader t).inflight.Sublist (m.reader t).inflight := by
  obtain ⟨g, hg, rfl⟩ := h
  exact hg t

theorem offer_right (r : ι) (n : Node ι) (p : Publication) :
    Covers (n.offer r p) n := by
  refine ⟨fun t => ((n.offer r p).reader t).inflight, fun t => ?_, ?_⟩
  · by_cases ht : t = p.topic
    · subst ht
      simp [Node.offer]
    · simp [Node.offer, ht]
  · unfold Node.offer withInflight
    congr 1
    funext t
    by_cases ht : t = p.topic
    · subst ht
      simp
    · simp [ht]

theorem offer (r : ι) (p : Publication) (h : Covers m n) :
    Covers (m.offer r p) (n.offer r p) := by
  obtain ⟨g, hg, rfl⟩ := h
  refine ⟨Function.update g p.topic (g p.topic ++
    [{ validData := true
       publicationHandle := r
       data := p.data }]), fun t => ?_, ?_⟩
  · by_cases ht : t = p.topic
    · subst ht
      simpa [Node.offer] using (hg p.topic).append_right
        [{ validData := true
           publicationHandle := r
           data := p.data }]
    · simpa [Node.offer, ht] using hg t
  · unfold Node.offer withInflight
    congr 1
    funext t
    by_cases ht : t = p.topic
    · subst ht
      simp
    · simp [ht]

/-- Offering more keeps a node above another. -/
theorem offers (r : ι) {out out' : List Publication} (hout : out.Sublist out')
    (h : Covers m n) :
    Covers (out'.foldl (Node.offer r) m) (out.foldl (Node.offer r) n) := by
  induction hout generalizing m n with
  | slnil => exact h
  | cons p _ ih => exact ih ((offer_right r m p).trans h)
  | cons_cons p _ ih => exact ih (h.offer r p)

/-- The covering node does what the covered one does. -/
theorem step {n' : Node ι} {a : Action ι} {out : List Publication}
    (h : Covers m n) (hstep : n.step N a = some (n', out)) :
    ∃ b m', m.step N b = some (m', out) ∧ event m b = event n a ∧
      Covers m' n' := by
  obtain ⟨g, hg, rfl⟩ := h
  by_cases ha : IsArrival a
  · cases a with
    | deliver t k =>
        cases step_cases hstep with
        | deliver t k x hx =>
            obtain ⟨j, hj, hrest⟩ := sublist_eraseIdx (hg t) hx
            refine ⟨.deliver t j, _,
              (Step.deliver (N := N) (n := withInflight n g) t j x hj).step_eq,
              rfl, Function.update g t ((g t).eraseIdx j), fun u => ?_, ?_⟩
            · by_cases hu : u = t
              · subst hu
                simpa using hrest
              · simpa [hu] using hg u
            · unfold withInflight
              congr 1
              funext u
              by_cases hu : u = t
              · subst hu
                simp
              · simp [hu]
    | _ => exact absurd ha id
  · refine ⟨a, _, step_withInflight hstep ha g, rfl, g, fun t => ?_, rfl⟩
    rw [step_inflight hstep ha]
    exact hg t

end Covers

end RevPiRaft.Ports.Coverage
