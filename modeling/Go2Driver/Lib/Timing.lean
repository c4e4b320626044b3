import Go2Driver.Lib.Runs

/-!
# Runs whose events take time

`timed step` is the system `step` whose events carry the time at which they were started
and done; when is not its concern, so what holds of the runs of `step` holds of its runs
(`run_untimed`).  A single-threaded executor runs one event after the other (`InOrder`), a
periodic one in good time: no event is started later than `period` after the last start
of it (`Periodic`); and the callback of a timer when it is due (`Punctual`).

* `Periodic.started_within`: then it is started in every stretch of time of that length
  that is over.
* `Punctual.le`: the same of a timer that is armed.
-/

namespace Timing

open Runs

variable {σ ε ω : Type}

/-- When an event was started and when it was done. -/
structure Span where
  start : Int
  stop : Int

def timed (step : σ → ε → Option (σ × List ω)) (s : σ) (e : ε × Span) : Option (σ × List ω) :=
  step s e.1

abbrev TimedStep (σ ε ω : Type) := Step σ (ε × Span) ω
abbrev TimedTrace (σ ε ω : Type) := List (TimedStep σ ε ω)

def startedAt (st : TimedStep σ ε ω) : Int := st.event.2.start
def doneAt (st : TimedStep σ ε ω) : Int := st.event.2.stop

theorem run_untimed {step : σ → ε → Option (σ × List ω)} {s₀ s : σ} {tr : TimedTrace σ ε ω}
    (h : Run (timed step) s₀ tr s) : Run step s₀ (tr.map (Step.mapEvent Prod.fst)) s :=
  Run.map Prod.fst (fun _ _ _ he => he) h

/-- From `since` on, each event is done before the next is started, and takes no longer than `longest`. -/
structure InOrder (since longest : Int) (tr : TimedTrace σ ε ω) : Prop where
  since_le : ∀ st ∈ tr, since ≤ startedAt st
  takes : ∀ st ∈ tr, startedAt st ≤ doneAt st ∧ doneAt st ≤ startedAt st + longest
  next : tr.Pairwise fun a b => doneAt a ≤ startedAt b

/-- No event is started later than `period` after the last start of an event that is
`due`; before the first one, than `period` after `since`. -/
def Periodic (due : ε → Bool) (period : Int) : Int → TimedTrace σ ε ω → Prop
  | _, [] => True
  | since, st :: tr => startedAt st ≤ since + period ∧
    Periodic due period (if due st.event.1 then startedAt st else since) tr

/-- No event is started later than `late` after an armed timer is due.  `due` is when the
timer created last is; an event creates one that is due the time `creates` after it is done. -/
def Punctual (creates : List ω → Option Int) (armed : σ → Bool) (late : Int) :
    Option Int → TimedTrace σ ε ω → Prop
  | _, [] => True
  | due, st :: tr => (armed st.pre = true → ∀ t ∈ due, startedAt st ≤ t + late) ∧
    Punctual creates armed late (((creates st.out).map (doneAt st + ·)).or due) tr

instance (since longest : Int) (tr : TimedTrace σ ε ω) : Decidable (InOrder since longest tr) :=
  decidable_of_iff ((∀ st ∈ tr, since ≤ startedAt st) ∧
      (∀ st ∈ tr, startedAt st ≤ doneAt st ∧ doneAt st ≤ startedAt st + longest) ∧
      tr.Pairwise fun a b => doneAt a ≤ startedAt b)
    ⟨fun h => ⟨h.1, h.2.1, h.2.2⟩, fun h => ⟨h.since_le, h.takes, h.next⟩⟩

instance Periodic.decidable (due : ε → Bool) (period : Int) :
    (since : Int) → (tr : TimedTrace σ ε ω) → Decidable (Periodic due period since tr)
  | _, [] => .isTrue trivial
  | since, st :: tr => @instDecidableAnd _ _ (inferInstanceAs (Decidable (startedAt st ≤ since + period)))
    (Periodic.decidable due period (if due st.event.1 then startedAt st else since) tr)

instance Punctual.decidable (creates : List ω → Option Int) (armed : σ → Bool) (late : Int) :
    (next : Option Int) → (tr : TimedTrace σ ε ω) → Decidable (Punctual creates armed late next tr)
  | _, [] => .isTrue trivial
  | next, st :: tr => @instDecidableAnd _ _
    (inferInstanceAs (Decidable (armed st.pre = true → ∀ t ∈ next, startedAt st ≤ t + late)))
    (Punctual.decidable creates armed late (((creates st.out).map (doneAt st + ·)).or next) tr)

variable {due : ε → Bool} {since longest period t : Int} {tr tr₁ tr₂ : TimedTrace σ ε ω}
  {st : TimedStep σ ε ω}

theorem InOrder.left (h : InOrder since longest (tr₁ ++ tr₂)) : InOrder since longest tr₁ where
  since_le x hx := h.since_le x (List.mem_append_left _ hx)
  takes x hx := h.takes x (List.mem_append_left _ hx)
  next := (List.pairwise_append.mp h.next).1

theorem Periodic.left (h : Periodic due period since (tr₁ ++ tr₂)) : Periodic due period since tr₁ := by
  induction tr₁ generalizing since with
  | nil => trivial
  | cons x tr₁ ih => exact ⟨h.1, ih h.2⟩

/-- The event that is due was started after `t`, if one is started later than `t + period`. -/
theorem Periodic.started_within (h : Periodic due period since (tr₁ ++ st :: tr₂)) (hs : since ≤ t)
    (hlate : t + period < startedAt st) : ∃ x ∈ tr₁, due x.event.1 = true ∧ t < startedAt x := by
  induction tr₁ generalizing since with
  | nil =>
    have := h.1
    omega
  | cons y tr₁ ih =>
    obtain ⟨-, hrest⟩ := h
    split at hrest
    · next hdue =>
      by_cases hy : startedAt y ≤ t
      · obtain ⟨x, hx, hdx, hlt⟩ := ih hrest hy
        exact ⟨x, List.mem_cons_of_mem _ hx, hdx, hlt⟩
      · exact ⟨y, List.mem_cons_self, hdue, by omega⟩
    · obtain ⟨x, hx, hdx, hlt⟩ := ih hrest hs
      exact ⟨x, List.mem_cons_of_mem _ hx, hdx, hlt⟩

theorem Punctual.left {creates : List ω → Option Int} {armed : σ → Bool} {late : Int} {next : Option Int}
    (h : Punctual creates armed late next (tr₁ ++ tr₂)) : Punctual creates armed late next tr₁ := by
  induction tr₁ generalizing next with
  | nil => trivial
  | cons x tr₁ ih => exact ⟨h.1, ih h.2⟩

/-- While a timer is armed no event is started later than `late` after it is due. -/
theorem Punctual.le {creates : List ω → Option Int} {armed : σ → Bool} {late w : Int} {next : Option Int}
    {mid : TimedTrace σ ε ω} {x : TimedStep σ ε ω}
    (h : Punctual creates armed late next (tr₁ ++ st :: (mid ++ x :: tr₂))) (hw : creates st.out = some w)
    (hmid : ∀ y ∈ mid, creates y.out = none) (harm : armed x.pre = true) :
    startedAt x ≤ doneAt st + w + late := by
  -- up to the timer, then while it is the last
  have hlast : ∀ {mid : TimedTrace σ ε ω} {next : Option Int}, (∀ y ∈ mid, creates y.out = none) →
      doneAt st + w ∈ next → Punctual creates armed late next (mid ++ x :: tr₂) →
      startedAt x ≤ doneAt st + w + late := by
    intro mid
    induction mid with
    | nil =>
      intro next _ hnext h
      exact h.1 harm _ hnext
    | cons y mid ih =>
      intro next hmid hnext h
      obtain ⟨hy, hmid⟩ := List.forall_mem_cons.mp hmid
      have hrest := h.2
      rw [hy] at hrest
      exact ih hmid hnext hrest
  induction tr₁ generalizing next with
  | nil =>
    have hrest := h.2
    rw [hw] at hrest
    exact hlast hmid rfl hrest
  | cons y tr₁ ih => exact ih h.2

/-- What is started after a step was started comes after it. -/
theorem InOrder.after (h : InOrder since longest (tr₁ ++ st :: tr₂)) {x : TimedStep σ ε ω}
    (hx : x ∈ tr₁ ++ st :: tr₂) (hlt : startedAt st < startedAt x) : x ∈ tr₂ := by
  obtain ⟨-, hcons, hcross⟩ := List.pairwise_append.mp h.next
  rcases List.mem_append.mp hx with hx | hx
  · have hle := hcross x hx st List.mem_cons_self
    have := (h.takes x (List.mem_append_left _ hx)).1
    omega
  · rcases List.mem_cons.mp hx with rfl | hx
    · omega
    · exact hx

end Timing
