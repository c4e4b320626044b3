import Mathlib.Data.List.Induction

/-!
# Runs of a transition system

A system is a partial step function `step : σ → ε → Option (σ × List ω)`: what
an event does from a state and what it lets out, or `none` where the event
cannot occur or does not complete.  A `Run` is a finite sequence of completed
steps; each `Step` keeps the state before it, its event, what it let out and
the state after it, so a statement about a whole run can point into it.

* `Run.invariant`: what one step keeps holds in every state of a run.
* `Run.traceInvariant`: the same for a relation between the steps so far and
  the state they lead to.
* `Run.historyInvariant`: for a relation between the history and the state, kept by the
  events that satisfy a condition.
* `Run.filterMap_history`: a part of the output that each step makes of its event and its state.
* `Run.append_iff`, `Run.split`: a run cut at any step.
* `Run.map`: a run of a system is a run of every system it embeds into.
* `Run.guard_iff`: a run whose events all satisfy a test, as a run of the guarded system.
* `Run.execute`: the run a list of events makes.
-/

namespace Runs

variable {σ ε ω : Type}

/-- One completed step of a run. -/
structure Step (σ ε ω : Type) where
  pre : σ
  event : ε
  out : List ω
  post : σ

/-- `Run step s₀ tr s`: the steps `tr` lead from `s₀` to `s`. -/
inductive Run (step : σ → ε → Option (σ × List ω)) (s₀ : σ) : List (Step σ ε ω) → σ → Prop
  | nil : Run step s₀ [] s₀
  | snoc {tr : List (Step σ ε ω)} {s s' : σ} {e : ε} {out : List ω} :
      Run step s₀ tr s → step s e = some (s', out) → Run step s₀ (tr ++ [⟨s, e, out, s'⟩]) s'

variable {step : σ → ε → Option (σ × List ω)} {s₀ s : σ} {tr tr₁ tr₂ : List (Step σ ε ω)}

/-- Everything a run let out, in order. -/
def history (tr : List (Step σ ε ω)) : List ω := tr.flatMap (·.out)

@[simp] theorem history_nil : history ([] : List (Step σ ε ω)) = [] := rfl

@[simp] theorem history_append (tr₁ tr₂ : List (Step σ ε ω)) :
    history (tr₁ ++ tr₂) = history tr₁ ++ history tr₂ := by
  simp [history]

@[simp] theorem history_cons (st : Step σ ε ω) (tr : List (Step σ ε ω)) :
    history (st :: tr) = st.out ++ history tr := by
  simp [history]

theorem history_snoc (tr : List (Step σ ε ω)) (st : Step σ ε ω) :
    history (tr ++ [st]) = history tr ++ st.out := by
  rw [history_append, history_cons, history_nil, List.append_nil]

theorem Run.invariant (I : σ → Prop) (h0 : I s₀)
    (hs : ∀ s e s' out, I s → step s e = some (s', out) → I s') (h : Run step s₀ tr s) : I s := by
  induction h with
  | nil => exact h0
  | snoc _ he ih => exact hs _ _ _ _ ih he

theorem Run.traceInvariant (I : List (Step σ ε ω) → σ → Prop) (h0 : I [] s₀)
    (hs : ∀ tr s e s' out, Run step s₀ tr s → I tr s → step s e = some (s', out) →
      I (tr ++ [⟨s, e, out, s'⟩]) s')
    (h : Run step s₀ tr s) : I tr s := by
  induction h with
  | nil => exact h0
  | snoc hr he ih => exact hs _ _ _ _ _ hr ih he

/-- What a step keeps where its event satisfies `Q`, a run of such events keeps. -/
theorem Run.historyInvariant (I : List ω → σ → Prop) (Q : σ → ε → Prop) (h0 : I [] s₀)
    (hs : ∀ L s e s' out, I L s → Q s e → step s e = some (s', out) → I (L ++ out) s')
    (h : Run step s₀ tr s) (hQ : ∀ st ∈ tr, Q st.pre st.event) : I (history tr) s := by
  induction h with
  | nil => exact h0
  | snoc hr he ih =>
    have hpre := ih fun st hst => hQ st (List.mem_append_left _ hst)
    have hlast := hQ _ (List.mem_append_right _ (List.mem_singleton.mpr rfl))
    rw [history_snoc]
    exact hs _ _ _ _ _ hpre hlast he

theorem Run.filterMap_history {α : Type} (g : ω → Option α) (f : σ → ε → List α)
    (hs : ∀ s e s' out, step s e = some (s', out) → out.filterMap g = f s e) (h : Run step s₀ tr s) :
    (history tr).filterMap g = tr.flatMap fun st => f st.pre st.event := by
  induction h with
  | nil => rfl
  | snoc _ he ih =>
    rw [history_snoc, List.filterMap_append, ih, List.flatMap_append, List.flatMap_singleton]
    exact congrArg _ (hs _ _ _ _ he)

theorem Run.nil_iff : Run step s₀ [] s ↔ s = s₀ := by
  constructor
  · intro h
    generalize htr : ([] : List (Step σ ε ω)) = tr at h
    cases h with
    | nil => rfl
    | snoc _ _ => simp at htr
  · rintro rfl
    exact .nil

theorem Run.snoc_iff {st : Step σ ε ω} :
    Run step s₀ (tr ++ [st]) s ↔
      Run step s₀ tr st.pre ∧ step st.pre st.event = some (st.post, st.out) ∧ s = st.post := by
  constructor
  · intro h
    generalize htr : tr ++ [st] = tr' at h
    cases h with
    | nil => simp at htr
    | snoc hr he =>
      obtain ⟨rfl, hst⟩ := List.append_inj' htr rfl
      simp only [List.cons.injEq, and_true] at hst
      subst hst
      exact ⟨hr, he, rfl⟩
  · rintro ⟨hr, he, rfl⟩
    exact .snoc hr he

theorem Run.append_iff :
    Run step s₀ (tr₁ ++ tr₂) s ↔ ∃ t, Run step s₀ tr₁ t ∧ Run step t tr₂ s := by
  constructor
  · intro h
    induction tr₂ using List.reverseRecOn generalizing s with
    | nil =>
      rw [List.append_nil] at h
      exact ⟨s, h, .nil⟩
    | append_singleton tr₂ st ih =>
      rw [← List.append_assoc, snoc_iff] at h
      obtain ⟨h, he, rfl⟩ := h
      obtain ⟨t, h₁, h₂⟩ := ih h
      exact ⟨t, h₁, .snoc h₂ he⟩
  · rintro ⟨t, h₁, h₂⟩
    induction h₂ with
    | nil => rwa [List.append_nil]
    | snoc _ he ih =>
      rw [← List.append_assoc]
      exact .snoc ih he

/-- A run cut at one of its steps. -/
theorem Run.split {st : Step σ ε ω} (h : Run step s₀ (tr₁ ++ st :: tr₂) s) :
    Run step s₀ tr₁ st.pre ∧ step st.pre st.event = some (st.post, st.out) ∧
      Run step st.post tr₂ s := by
  rw [List.append_cons] at h
  obtain ⟨t, hst, h₂⟩ := append_iff.mp h
  obtain ⟨h₁, he, rfl⟩ := snoc_iff.mp hst
  exact ⟨h₁, he, h₂⟩

/-- A step with its event renamed. -/
def Step.mapEvent {ε' : Type} (f : ε → ε') (st : Step σ ε ω) : Step σ ε' ω :=
  ⟨st.pre, f st.event, st.out, st.post⟩

@[simp] theorem history_mapEvent {ε' : Type} (f : ε → ε') (tr : List (Step σ ε ω)) :
    history (tr.map (Step.mapEvent f)) = history tr := by
  induction tr with
  | nil => rfl
  | cons st tr ih => simp [ih, Step.mapEvent]

/-- Where every step is a step of another system under `f`, so is every run. -/
theorem Run.map {ε' : Type} {step' : σ → ε' → Option (σ × List ω)} (f : ε → ε')
    (hf : ∀ s e r, step s e = some r → step' s (f e) = some r) (h : Run step s₀ tr s) :
    Run step' s₀ (tr.map (Step.mapEvent f)) s := by
  induction h with
  | nil => exact .nil
  | snoc _ he ih =>
    rw [List.map_append]
    exact .snoc ih (hf _ _ _ he)

/-- A system that takes only the events `p` lets through. -/
def guard (p : ε → Bool) (step : σ → ε → Option (σ × List ω)) (s : σ) (e : ε) :
    Option (σ × List ω) :=
  if p e then step s e else none

theorem guard_eq_some {p : ε → Bool} {e : ε} {r : σ × List ω} :
    guard p step s e = some r ↔ p e = true ∧ step s e = some r := by
  unfold guard
  split
  · next h => simp [h]
  · next h => simp [h]

theorem Run.guard_iff {p : ε → Bool} :
    Run (guard p step) s₀ tr s ↔ Run step s₀ tr s ∧ ∀ st ∈ tr, p st.event = true := by
  constructor
  · intro h
    induction h with
    | nil => exact ⟨.nil, by simp⟩
    | snoc _ he ih =>
      obtain ⟨hp, he⟩ := guard_eq_some.mp he
      refine ⟨.snoc ih.1 he, ?_⟩
      intro st hst
      rcases List.mem_append.mp hst with hst | hst
      · exact ih.2 st hst
      · rw [List.mem_singleton.mp hst]
        exact hp
  · rintro ⟨h, hall⟩
    induction h with
    | nil => exact .nil
    | snoc _ he ih =>
      refine .snoc (ih fun st hst => hall st (List.mem_append_left _ hst)) ?_
      exact guard_eq_some.mpr ⟨hall _ (List.mem_append_right _ (List.mem_singleton.mpr rfl)), he⟩

/-- The steps `evs` make from `s`, up to the first that cannot occur. -/
def execute (step : σ → ε → Option (σ × List ω)) (s : σ) : List ε → List (Step σ ε ω) × σ
  | [] => ([], s)
  | e :: evs =>
    match step s e with
    | none => ([], s)
    | some (s', out) =>
      (⟨s, e, out, s'⟩ :: (execute step s' evs).1, (execute step s' evs).2)

theorem Run.cons {e : ε} {out : List ω} {s' : σ} (he : step s e = some (s', out))
    {t : σ} (h : Run step s' tr t) : Run step s (⟨s, e, out, s'⟩ :: tr) t :=
  append_iff.mpr ⟨s', .snoc .nil he, h⟩

theorem event_mem_of_mem_execute {evs : List ε} {st : Step σ ε ω} (h : st ∈ (execute step s evs).1) :
    st.event ∈ evs := by
  induction evs generalizing s with
  | nil => cases h
  | cons e evs ih =>
    unfold execute at h
    split at h
    · cases h
    · rcases List.mem_cons.mp h with rfl | h
      · exact List.mem_cons_self
      · exact List.mem_cons_of_mem _ (ih h)

/-- What is executed is a run. -/
theorem Run.execute (step : σ → ε → Option (σ × List ω)) (s : σ) (evs : List ε) :
    Run step s (execute step s evs).1 (execute step s evs).2 := by
  induction evs generalizing s with
  | nil => exact .nil
  | cons e evs ih =>
    unfold Runs.execute
    cases he : step s e with
    | none => exact .nil
    | some r => exact .cons he (ih r.1)

end Runs
