import Go2Driver.Lib.Runs
import Mathlib.Data.List.Forall2

/-!
# Two runs side by side

`Matched idle same tr tr'`: the steps of `tr` that are not `idle` stand beside the
steps of `tr'`, in order, and the events of each pair are the `same`.  The two runs
may be of two systems.  Which events count as the same may depend on the traces so
far, so an event can point at what happened before it in its own run.

* `Matched.invariant`: a relation between the two states that an idle step keeps on
  one side and a matched step on both holds to the end, and the matched steps agree.
* `Matched.exists_run`: where every matched step can be made on the other side, the
  other run exists.
* `matched_iff_forall₂`: without idle steps, traces whose events are the same.
-/

namespace Runs

variable {σ₁ ε₁ ω₁ σ₂ ε₂ ω₂ : Type}

inductive Matched (idle : Step σ₁ ε₁ ω₁ → Bool)
    (same : List (Step σ₁ ε₁ ω₁) → List (Step σ₂ ε₂ ω₂) → ε₁ → ε₂ → Prop) :
    List (Step σ₁ ε₁ ω₁) → List (Step σ₂ ε₂ ω₂) → Prop
  | nil : Matched idle same [] []
  | idle {tr : List (Step σ₁ ε₁ ω₁)} {tr' : List (Step σ₂ ε₂ ω₂)} {st : Step σ₁ ε₁ ω₁} :
      Matched idle same tr tr' → idle st = true → Matched idle same (tr ++ [st]) tr'
  | pair {tr : List (Step σ₁ ε₁ ω₁)} {tr' : List (Step σ₂ ε₂ ω₂)} {st : Step σ₁ ε₁ ω₁}
      {st' : Step σ₂ ε₂ ω₂} :
      Matched idle same tr tr' → idle st = false → same tr tr' st.event st'.event →
      Matched idle same (tr ++ [st]) (tr' ++ [st'])

variable {step₁ : σ₁ → ε₁ → Option (σ₁ × List ω₁)} {step₂ : σ₂ → ε₂ → Option (σ₂ × List ω₂)}
  {s₀ s : σ₁} {t₀ t : σ₂} {tr : List (Step σ₁ ε₁ ω₁)} {tr' : List (Step σ₂ ε₂ ω₂)}
  {idle : Step σ₁ ε₁ ω₁ → Bool}
  {same : List (Step σ₁ ε₁ ω₁) → List (Step σ₂ ε₂ ω₂) → ε₁ → ε₂ → Prop}

/-- What both runs keep, with the agreement of each pair of matched steps. -/
theorem Matched.invariant (I : List (Step σ₁ ε₁ ω₁) → List (Step σ₂ ε₂ ω₂) → σ₁ → σ₂ → Prop)
    (agrees : Step σ₁ ε₁ ω₁ → Step σ₂ ε₂ ω₂ → Prop) (h0 : I [] [] s₀ t₀)
    (hidle : ∀ tr tr' st t, Run step₁ s₀ tr st.pre → I tr tr' st.pre t →
      step₁ st.pre st.event = some (st.post, st.out) → idle st = true → I (tr ++ [st]) tr' st.post t)
    (hpair : ∀ tr tr' st st', Run step₁ s₀ tr st.pre → Run step₂ t₀ tr' st'.pre →
      I tr tr' st.pre st'.pre → step₁ st.pre st.event = some (st.post, st.out) →
      step₂ st'.pre st'.event = some (st'.post, st'.out) → idle st = false →
      same tr tr' st.event st'.event →
      I (tr ++ [st]) (tr' ++ [st']) st.post st'.post ∧ agrees st st')
    (hm : Matched idle same tr tr') (h : Run step₁ s₀ tr s) (h' : Run step₂ t₀ tr' t) :
    I tr tr' s t ∧ List.Forall₂ agrees (tr.filter fun st => !idle st) tr' := by
  induction hm generalizing s t with
  | nil =>
    rw [Run.nil_iff.mp h, Run.nil_iff.mp h']
    exact ⟨h0, .nil⟩
  | idle _ hi ih =>
    obtain ⟨hpre, hst, rfl⟩ := Run.snoc_iff.mp h
    obtain ⟨hI, hag⟩ := ih hpre h'
    refine ⟨hidle _ _ _ _ hpre hI hst hi, ?_⟩
    rw [List.filter_append, List.filter_cons_of_neg (by simp [hi]), List.filter_nil, List.append_nil]
    exact hag
  | pair _ hi hsame ih =>
    obtain ⟨hpre, hst, rfl⟩ := Run.snoc_iff.mp h
    obtain ⟨hpre', hst', rfl⟩ := Run.snoc_iff.mp h'
    obtain ⟨hI, hag⟩ := ih hpre hpre'
    obtain ⟨hI', hag'⟩ := hpair _ _ _ _ hpre hpre' hI hst hst' hi hsame
    refine ⟨hI', ?_⟩
    rw [List.filter_append, List.filter_cons_of_pos (by simp [hi]), List.filter_nil]
    exact List.rel_append hag (.cons hag' .nil)

variable (idle same) in
/-- Where each matched step can be made from the related state by an event that is the
same and that `chosen` allows at that place, there is a run to match. -/
theorem Matched.exists_run (I : List (Step σ₁ ε₁ ω₁) → List (Step σ₂ ε₂ ω₂) → σ₁ → σ₂ → Prop)
    (chosen : Nat → ε₂ → Prop) (h0 : I [] [] s₀ t₀)
    (hidle : ∀ tr tr' st t, Run step₁ s₀ tr st.pre → I tr tr' st.pre t →
      step₁ st.pre st.event = some (st.post, st.out) → idle st = true → I (tr ++ [st]) tr' st.post t)
    (hpair : ∀ tr tr' st t, Run step₁ s₀ tr st.pre → Run step₂ t₀ tr' t → I tr tr' st.pre t →
      step₁ st.pre st.event = some (st.post, st.out) → idle st = false →
      ∃ st' : Step σ₂ ε₂ ω₂, st'.pre = t ∧ same tr tr' st.event st'.event ∧
        chosen tr'.length st'.event ∧ step₂ st'.pre st'.event = some (st'.post, st'.out) ∧
        I (tr ++ [st]) (tr' ++ [st']) st.post st'.post)
    (h : Run step₁ s₀ tr s) :
    ∃ tr' t, Run step₂ t₀ tr' t ∧ Matched idle same tr tr' ∧ I tr tr' s t ∧
      ∀ k st', tr'[k]? = some st' → chosen k st'.event := by
  induction h with
  | nil => exact ⟨[], t₀, .nil, .nil, h0, by simp⟩
  | @snoc tr s s' e out hr hst ih =>
    obtain ⟨tr', t, hr', hm, hI, hch⟩ := ih
    cases hi : idle ⟨s, e, out, s'⟩ with
    | true => exact ⟨tr', t, hr', .idle hm hi, hidle _ _ ⟨s, e, out, s'⟩ _ hr hI hst hi, hch⟩
    | false =>
      obtain ⟨st', rfl, hsame, hc, hst', hI'⟩ := hpair _ _ ⟨s, e, out, s'⟩ _ hr hr' hI hst hi
      refine ⟨tr' ++ [st'], st'.post, .snoc hr' hst', .pair hm hi hsame, hI', ?_⟩
      intro k x hx
      by_cases hk : k < tr'.length
      · rw [List.getElem?_append_left hk] at hx
        exact hch k x hx
      · rw [List.getElem?_append_right (by omega), List.getElem?_singleton] at hx
        split at hx
        · next hzero =>
          obtain rfl : k = tr'.length := by omega
          cases hx
          exact hc
        · cases hx

/-- Without idle steps only the events are compared. -/
theorem matched_iff_forall₂ {sameEvent : ε₁ → ε₂ → Prop} :
    Matched (fun _ => false) (fun _ _ => sameEvent) tr tr' ↔
      List.Forall₂ (fun st st' => sameEvent st.event st'.event) tr tr' := by
  constructor
  · intro h
    induction h with
    | nil => exact .nil
    | idle _ hi => cases hi
    | pair _ _ hsame ih => exact List.rel_append ih (.cons hsame .nil)
  · intro h
    rw [← List.forall₂_reverse_iff] at h
    generalize hl : tr.reverse = l at h
    generalize hl' : tr'.reverse = l' at h
    induction h generalizing tr tr' with
    | nil =>
      rw [List.reverse_eq_nil_iff.mp hl, List.reverse_eq_nil_iff.mp hl']
      exact .nil
    | cons hst _ ih =>
      rw [List.reverse_eq_cons_iff.mp hl, List.reverse_eq_cons_iff.mp hl']
      exact .pair (ih (List.reverse_reverse _) (List.reverse_reverse _)) rfl hst

end Runs
