import Go2Driver.Lib.Timing
import Go2Driver.Sweeps

/-!
# A call is settled in time

The sweep timer "only bounds how late a timeout is noticed".  On an executor that starts
no event later than the sweep period and some lateness after the last sweep was started
(`OnTime`), no event finds a call pending that is started later than that after the call's
deadline (`pending_until`).  So each call is settled by an event that is started at most
the time-out, the period and the lateness after the call was made, and by a time-out no
earlier than its deadline (`settled_in_time`).
-/

namespace Go2

open Tables Runs Timing

variable {κ θ ω ε : Type}

/-- The latest a sweep is started after the one before, on an executor `late` by so much. -/
def sweepSlack (late : Int) : Int := sweepPeriodMs * 1000000 + late

def NodeEvent.isSweep : NodeEvent κ θ ω → Bool
  | .sweep _ => true
  | _ => false

theorem NodeEvent.isSweep_iff {e : NodeEvent κ θ ω} : e.isSweep = true ↔ ∃ order, e = .sweep order := by
  cases e <;> simp [NodeEvent.isSweep]

/-- A run on an executor whose events take at most `longest` and are late by at most
`late`; the node reads its clock while its event runs. -/
structure OnTime (f : ε → NodeEvent κ θ ω × Clock) (since longest late : Int)
    (tr : TimedTrace (State κ θ) ε (Out κ ω)) : Prop where
  inOrder : InOrder since longest tr
  readings : ∀ st ∈ tr, ∀ i,
    startedAt st ≤ ((f st.event.1).2 i).now ∧ ((f st.event.1).2 i).now ≤ doneAt st
  sweeps : Periodic (fun e => (f e).1.isSweep) (sweepSlack late) since tr

section
variable {nl : Nlohmann} {body : κ → ApiResult → Prog κ θ ω Unit}
  {step : State κ θ → ε → Option (State κ θ × List (Out κ ω))} {f : ε → NodeEvent κ θ ω × Clock}
  {timeoutMs since longest late : Int} {host₀ : θ} {s : State κ θ}
  {tr tr₁ tr₂ : TimedTrace (State κ θ) ε (Out κ ω)} {st x : TimedStep (State κ θ) ε (Out κ ω)}
  {e : PendingEntry κ}

theorem OnTime.left (h : OnTime f since longest late (tr₁ ++ tr₂)) : OnTime f since longest late tr₁ where
  inOrder := h.inOrder.left
  readings y hy := h.readings y (List.mem_append_left _ hy)
  sweeps := h.sweeps.left

/-- When does not matter to a node. -/
theorem Implements.timed (hi : Implements nl body step f) :
    Implements nl body (timed step) fun e : ε × Span => f e.1 :=
  fun s e r he => hi s e.1 r he

/-- A call's deadline is the time-out after some moment of the event that made it. -/
theorem OnTime.deadline (hon : OnTime f since longest late (tr₁ ++ st :: tr₂))
    (hi : Implements nl body step f)
    (h : Run (timed step) (State.start timeoutMs host₀) (tr₁ ++ st :: tr₂) s) (he : e ∈ calls st.out) :
    startedAt st + timeoutMs * 1000000 ≤ e.2.deadline ∧
      e.2.deadline ≤ doneAt st + timeoutMs * 1000000 := by
  obtain ⟨hpre, hst, -⟩ := Run.split h
  obtain ⟨req, hpub, -⟩ := mem_calls.mp he
  obtain ⟨j, hj⟩ := List.mem_iff_getElem?.mp (mem_publishedWith.mpr hpub)
  have htimeout : st.pre.client.timeoutMs = timeoutMs := timeoutMs_run (Run.map _ hi.timed hpre)
  have hdl : e.2.deadline = (readingOf (f st.event.1) j).now + timeoutMs * 1000000 :=
    (deadline_step htimeout (hi.timed _ _ _ hst)).2 j req e.2 hj
  have hread := hon.readings st (List.mem_append_right _ List.mem_cons_self)
  have hbounds : startedAt st ≤ (readingOf (f st.event.1) j).now ∧
      (readingOf (f st.event.1) j).now ≤ doneAt st := by
    generalize f st.event.1 = fe at hread ⊢
    obtain ⟨ev, clk⟩ := fe
    cases ev with
    | handler p => exact hread j
    | response msg => exact hread j
    | sweep order => exact hread (j + 1)
  rw [hdl]
  omega

/-- **A call is pending until its deadline and no longer than the sweeps are apart.** -/
theorem OnTime.pending_until (hon : OnTime f since longest late (tr₁ ++ x :: tr₂))
    (hi : Implements nl body step f)
    (h : Run (timed step) (State.start timeoutMs host₀) (tr₁ ++ x :: tr₂) s) (ht : 0 ≤ timeoutMs)
    (he : e ∈ x.pre.client.pending.entries) : startedAt x ≤ e.2.deadline + sweepSlack late := by
  by_contra hlate
  obtain ⟨hpre, -, -⟩ := Run.split h
  -- the event that made the call
  have hcall := (hi.timed.ledger hpre).call_of_pending he
  unfold calls history at hcall
  rw [List.filterMap_flatMap, List.mem_flatMap] at hcall
  obtain ⟨c, hc, hec⟩ := hcall
  obtain ⟨u, v, rfl⟩ := List.append_of_mem hc
  have hdl := (hon.left.deadline hi hpre hec).1
  have hsince := hon.left.inOrder.since_le c hc
  obtain ⟨y, hy, hsweep, hafter⟩ := hon.sweeps.started_within (t := e.2.deadline) (by omega) (by omega)
  obtain ⟨order, hsweep⟩ := NodeEvent.isSweep_iff.mp hsweep
  have hyv : y ∈ v := hon.left.inOrder.after hy (by omega)
  -- the sweep would have settled it
  obtain ⟨fate, hfate⟩ := call_fate hi.timed hpre hec
  cases hfate with
  | settled _ _ _ _ _ hgone => exact hgone he
  | waiting _ hall =>
    obtain ⟨-, -, hspare⟩ := hall y hyv
    have hread := (hon.readings y (List.mem_append_left _ hy) 0).1
    refine hspare (hall y hyv).1 timeoutResult ?_
    show SettledBy e timeoutResult (f y.event.1)
    have hev : f y.event.1 = (.sweep order, (f y.event.1).2) := Prod.ext hsweep rfl
    rw [hev]
    exact ⟨by omega, rfl⟩

/-- The event that settles a call comes before any that is started later than the
time-out, the sweep period and the lateness after the call. -/
theorem OnTime.settled_before {mid rest : TimedTrace (State κ θ) ε (Out κ ω)}
    (hon : OnTime f since longest late (tr₁ ++ st :: (mid ++ x :: rest)))
    (hi : Implements nl body step f)
    (h : Run (timed step) (State.start timeoutMs host₀) (tr₁ ++ st :: (mid ++ x :: rest)) s)
    (ht : 0 ≤ timeoutMs) (he : e ∈ calls st.out)
    (hlate : doneAt st + timeoutMs * 1000000 + sweepSlack late < startedAt x) :
    ∃ before y after result, mid = before ++ y :: after ∧ e ∈ y.pre.client.pending.entries ∧
      (e, result) ∈ invocations y.out ∧ SettledBy e result (f y.event.1) ∧
      ∀ z ∈ before ++ after, ∀ i ∈ invocations z.out, i.1.1 ≠ e.1 := by
  have hassoc : tr₁ ++ st :: (mid ++ x :: rest) = (tr₁ ++ st :: mid) ++ x :: rest := by simp
  have hdl := hon.deadline hi h he
  rw [hassoc] at h hon
  obtain ⟨fate, hfate⟩ := call_fate hi.timed (Run.split h).1 he
  cases hfate with
  | waiting hpend _ =>
    have := hon.pending_until hi h ht hpend
    omega
  | @settled before after y result hbefore hy hset hinv hafter _ =>
    refine ⟨before, y, after, result, rfl, hy, hinv, hset, ?_⟩
    intro z hz
    rcases List.mem_append.mp hz with hz | hz
    · exact (hbefore z hz).2.1
    · exact (hafter z hz).2.1

/-- **A call is settled in time.**  When an event is started later than the time-out, the
sweep period and the lateness after the event that made a call was done, one event before
it has settled the call: it was started within that time, and if it is a sweep it was done
no earlier than the time-out after the call was made; no other event ran the callback. -/
theorem settled_in_time (hi : Implements nl body step f)
    (h : Run (timed step) (State.start timeoutMs host₀) tr s) (hon : OnTime f since longest late tr)
    (ht : 0 ≤ timeoutMs) {mid rest : TimedTrace (State κ θ) ε (Out κ ω)}
    (htr : tr = tr₁ ++ st :: (mid ++ x :: rest)) (he : e ∈ calls st.out)
    (hlate : doneAt st + timeoutMs * 1000000 + sweepSlack late < startedAt x) :
    ∃ before y after result, mid = before ++ y :: after ∧ (e, result) ∈ invocations y.out ∧
      SettledBy e result (f y.event.1) ∧
      startedAt y ≤ doneAt st + timeoutMs * 1000000 + sweepSlack late ∧
      (∀ order, (f y.event.1).1 = .sweep order → startedAt st + timeoutMs * 1000000 ≤ doneAt y) ∧
      ∀ z ∈ before ++ after, ∀ i ∈ invocations z.out, i.1.1 ≠ e.1 := by
  subst htr
  have hdl := hon.deadline hi h he
  obtain ⟨before, y, after, result, rfl, hy, hinv, hset, honce⟩ := hon.settled_before hi h ht he hlate
  refine ⟨before, y, after, result, rfl, hinv, hset, ?_, ?_, honce⟩
  · have hassoc : tr₁ ++ st :: ((before ++ y :: after) ++ x :: rest) =
        (tr₁ ++ st :: before) ++ y :: (after ++ x :: rest) := by simp
    rw [hassoc] at h hon
    have := hon.pending_until hi h ht hy
    omega
  · intro order hsweep
    have hev : f y.event.1 = (.sweep order, (f y.event.1).2) := Prod.ext hsweep rfl
    rw [hev] at hset
    have hread := (hon.readings y (by simp) 0).2
    have := hset.1
    omega

end

def unansweredCall : List ((NodeEvent Unit Unit Unit × Clock) × Span) := [
  ((.handler (.callThen 1015 emptyJson () fun _ => .ret ()), fun _ => ⟨5, 0⟩), ⟨0, 10⟩),
  ((.sweep listOrder, fun _ => ⟨0, 90000000⟩), ⟨90000000, 90000010⟩),
  ((.sweep listOrder, fun _ => ⟨0, 180000000⟩), ⟨180000000, 180000010⟩),
  ((.sweep listOrder, fun _ => ⟨0, 270000000⟩), ⟨270000000, 270000010⟩)]

/-- A call with no reply, which the second sweep finds past its deadline. -/
def unanswered :
    TimedTrace (State Unit Unit) (NodeEvent Unit Unit Unit × Clock) (Out Unit Unit) × State Unit Unit :=
  execute (timed (nodeStep .small fun _ _ => .ret ())) (.start 100 ()) unansweredCall

theorem settled_in_time_unanswered :
    ∃ before y after result, (unanswered.1.drop 1).take 2 = before ++ y :: after ∧
      ((⟨5, ⟨1015, 100000000, ()⟩⟩ : PendingEntry Unit), result) ∈ invocations y.out ∧
      startedAt y ≤ 200000020 := by
  have hon : OnTime id 0 10 10 unanswered.1 :=
    { inOrder := by decide
      readings := by
        intro st hst i
        have := event_mem_of_mem_execute hst
        simp only [unansweredCall, List.mem_cons, List.not_mem_nil, or_false] at this
        rcases this with h | h | h | h <;> simp [startedAt, doneAt, h]
      sweeps := by decide }
  have hrun : Run (timed (nodeStep .small fun _ _ => .ret ())) (.start 100 ())
      ([] ++ unanswered.1.get ⟨0, by decide⟩ :: ((unanswered.1.drop 1).take 2 ++
        unanswered.1.get ⟨3, by decide⟩ :: [])) unanswered.2 := Run.execute _ _ unansweredCall
  obtain ⟨before, y, after, result, hmid, hinv, -, hstart, -⟩ :=
    settled_in_time (fun _ _ _ => id) hrun hon (by decide) (e := ⟨5, ⟨1015, 100000000, ()⟩⟩) rfl
      (by decide) (by decide)
  exact ⟨before, y, after, result, hmid, hinv, hstart⟩

end Go2
