import RevPiRaft.Verified.Runs

/-!
# What some of the labels of a system can lead to

`Leads S P s t` says that steps with labels in `P` lead from `s` to `t`.  If
every such step makes a measure smaller, there is a bound on how many of them
follow one another (`exec_length_le`), and every state leads to one in which
none is enabled (`exists_stuck`).  What the steps can bring about for one index
at a time they can bring about for all (`leads_forall`).  This module names no
program.
-/

namespace RevPiRaft.Verified.Progress

open RevPiRaft.Verified.Runs

variable {σ α ω : Type} {S : Lts σ α ω} {P Q : α → Prop}

/-- Steps with labels in `P` lead from `s` to `t`. -/
def Leads (S : Lts σ α ω) (P : α → Prop) (s t : σ) : Prop :=
  ∃ as, (∀ a ∈ as, P a) ∧ S.exec s as = some t

namespace Leads

theorem refl (s : σ) : Leads S P s s :=
  ⟨[], fun _ h => absurd h List.not_mem_nil, rfl⟩

theorem trans {s t u : σ} (h : Leads S P s t) (h' : Leads S P t u) :
    Leads S P s u := by
  obtain ⟨as, has, hexec⟩ := h
  obtain ⟨bs, hbs, hexec'⟩ := h'
  refine ⟨as ++ bs, fun a ha => ?_, ?_⟩
  · rcases List.mem_append.mp ha with ha | ha
    · exact has a ha
    · exact hbs a ha
  · rw [Lts.exec_append, hexec]
    exact hexec'

/-- One step. -/
theorem step {s t : σ} {a : α} {out : List ω} (ha : P a)
    (h : S.step s a = some (t, out)) : Leads S P s t := by
  refine ⟨[a], fun b hb => ?_, ?_⟩
  · rw [List.mem_singleton.mp hb]
    exact ha
  · rw [Lts.exec, h]
    rfl

theorem mono {s t : σ} (h : Leads S P s t) (hPQ : ∀ a, P a → Q a) :
    Leads S Q s t := by
  obtain ⟨as, has, hexec⟩ := h
  exact ⟨as, fun a ha => hPQ a (has a ha), hexec⟩

/-- What every step keeps, the steps that lead on keep. -/
theorem invariant {I : σ → Prop}
    (hstep : ∀ s a t out, P a → I s → S.step s a = some (t, out) → I t)
    {s t : σ} (h : Leads S P s t) (hs : I s) : I t := by
  obtain ⟨as, has, hexec⟩ := h
  induction as generalizing s with
  | nil =>
      cases hexec
      exact hs
  | cons a as ih =>
      rw [Lts.exec] at hexec
      cases hnext : S.step s a with
      | none => simp [hnext] at hexec
      | some r =>
          simp only [hnext] at hexec
          exact ih (hstep s a r.1 r.2 (has a List.mem_cons_self) hs hnext)
            (fun b hb => has b (List.mem_cons_of_mem a hb)) hexec

theorem reachable {s t : σ} (h : Leads S P s t) (hs : S.Reachable s) :
    S.Reachable t :=
  h.invariant (fun _ _ _ _ _ hs hstep => hs.next hstep) hs

end Leads

/-- What can be brought about for one index at a time, without undoing it for
the others, can be brought about for all. -/
theorem leads_forall {κ : Type} {I : σ → Prop} (before after : κ → σ → Prop)
    {l : List κ} (hl : l.Nodup)
    (hone : ∀ k ∈ l, ∀ s, I s → before k s → ∃ t, Leads S P s t ∧ I t ∧
      after k t ∧ ∀ j ∈ l, j ≠ k →
        (before j s → before j t) ∧ (after j s → after j t))
    {s : σ} (hs : I s) (hbefore : ∀ k ∈ l, before k s) :
    ∃ t, Leads S P s t ∧ I t ∧ ∀ k ∈ l, after k t := by
  -- induction over the indices that are done, the others being as before
  have hdone : ∀ m : List κ, m.Sublist l → ∃ t, Leads S P s t ∧ I t ∧
      (∀ k ∈ m, after k t) ∧ ∀ k ∈ l, k ∉ m → before k t := by
    intro m
    induction m with
    | nil =>
        exact fun _ => ⟨s, .refl s, hs, fun k hk => absurd hk List.not_mem_nil,
          fun k hk _ => hbefore k hk⟩
    | cons k m ih =>
        intro hm
        obtain ⟨t, hfirst, ht, hafter, hleft⟩ :=
          ih (List.sublist_of_cons_sublist hm)
        have hnew : k ∉ m := (List.nodup_cons.mp (hl.sublist hm)).1
        have hk : k ∈ l := hm.subset List.mem_cons_self
        obtain ⟨u, hnext, hu, hthis, hothers⟩ :=
          hone k hk t ht (hleft k hk hnew)
        refine ⟨u, hfirst.trans hnext, hu, fun j hj => ?_, fun j hj hjm => ?_⟩
        · rcases List.mem_cons.mp hj with rfl | hj
          · exact hthis
          · have hne : j ≠ k := fun heq => hnew (heq ▸ hj)
            exact (hothers j (hm.subset (List.mem_cons_of_mem k hj)) hne).2
              (hafter j hj)
        · have hne : j ≠ k := fun heq => hjm (heq ▸ List.mem_cons_self)
          exact (hothers j hj hne).1
            (hleft j hj fun hmem => hjm (List.mem_cons_of_mem k hmem))
  obtain ⟨t, hleads, ht, hafter, -⟩ := hdone l (List.Sublist.refl l)
  exact ⟨t, hleads, ht, hafter⟩

/-! ## Steps that make a measure smaller -/

section Measure

variable (work : σ → Nat)
  (hwork : ∀ s a t out, P a → S.step s a = some (t, out) → work t < work s)

include hwork

/-- The measure bounds the number of steps. -/
theorem exec_length_le {s t : σ} {as : List α} (has : ∀ a ∈ as, P a)
    (hexec : S.exec s as = some t) : as.length + work t ≤ work s := by
  induction as generalizing s with
  | nil =>
      cases hexec
      simp
  | cons a as ih =>
      rw [Lts.exec] at hexec
      cases hnext : S.step s a with
      | none => simp [hnext] at hexec
      | some r =>
          simp only [hnext] at hexec
          have hless := hwork s a r.1 r.2 (has a List.mem_cons_self) hnext
          have hrest := ih (fun b hb => has b (List.mem_cons_of_mem a hb)) hexec
          rw [List.length_cons]
          omega

/-- Every state leads to one in which no step is enabled. -/
theorem exists_stuck (s : σ) :
    ∃ t, Leads S P s t ∧ ∀ a, P a → S.step t a = none := by
  induction hm : work s using Nat.strongRecOn generalizing s with
  | ind m ih =>
      by_cases hstuck : ∀ a, P a → S.step s a = none
      · exact ⟨s, .refl s, hstuck⟩
      · push Not at hstuck
        obtain ⟨a, ha, henabled⟩ := hstuck
        obtain ⟨⟨t, out⟩, hstep⟩ := Option.ne_none_iff_exists'.mp henabled
        have hless := hwork s a t out ha hstep
        obtain ⟨u, hleads, hnone⟩ := ih (work t) (hm ▸ hless) t rfl
        exact ⟨u, (Leads.step ha hstep).trans hleads, hnone⟩

end Measure

end RevPiRaft.Verified.Progress
