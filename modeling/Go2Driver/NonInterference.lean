import Go2Driver.Lib.Matching
import Go2Driver.Refusals
import Go2Driver.Renaming
import Go2Driver.Truthful

/-!
# Velocity messages and foreign replies do not reach the services

`cmd_vel` shares the client with the services and uses up ids; any reply on the
domain reaches the node.  A run is compared with what is left of it without the two
(`Matched idle SameEvent`): the ids differ from the first erased message on, so a
reply is addressed anew, to the twin of the call it answered.

An idle step leaves everything but the counter (`Mirrors.idle`); a kept step does the
same on both sides (`Mirrors.kept`), a sweep up to the order of its walk.
-/

namespace Go2

open Tables Runs SportBridge List

/-! ## What is erased, and what it is compared with -/

/-- A `cmd_vel` message, or a reply that finds no entry. -/
def idle (st : Step SportState (SportEvent × Clock) SportEmission) : Bool :=
  match st.event.1 with
  | .cmdVel _ => true
  | .response msg => (st.pre.client.pending.lookup msg.id).isNone
  | _ => false

/-- The event in the other run: a reply goes to the twin of its call, a sweep may walk in
another order. -/
def SportEvent.SameAs (L L' : List SportEmission) : SportEvent → SportEvent → Prop
  | .response msg, e' => ∃ x x', (x, x') ∈ twins L L' ∧ msg.id = x.1 ∧
      e' = .response { msg with id := x'.1 }
  | .sweep _, e' => ∃ order, e' = .sweep order
  | e, e' => e' = e

/-- The same event at the same node times; the steady clock may read anything. -/
def SameEvent (tr tr' : SportTrace) (e e' : SportEvent × Clock) : Prop :=
  e.1.SameAs (history tr) (history tr') e'.1 ∧ ∀ i, (e.2 i).now = (e'.2 i).now

def SportEvent.isSweep : SportEvent → Bool
  | .sweep _ => true
  | _ => false

/-! ## What is compared -/

def Seen.request? : Seen Callback SportOut → Option (Int × String × Bool)
  | .request apiId noreply parameter _ => some (apiId, parameter, noreply)
  | _ => none

def Seen.answer? : Seen Callback SportOut → Option (RequestId × SportResponse)
  | .host o => o.answer?
  | _ => none

theorem requestsIn_eq (L : List SportEmission) : requestsIn L = (seen L).filterMap Seen.request? := by
  unfold requestsIn seen
  rw [filterMap_filterMap]
  congr 1
  funext o
  cases o <;> rfl

theorem answersOf_eq (L : List SportEmission) :
    answersOf SportOut.answer? L = (seen L).filterMap Seen.answer? := by
  unfold answersOf seen
  rw [filterMap_filterMap]
  congr 1
  funext o
  cases o <;> rfl

/-- What two steps have in common when they do the same for the services. -/
structure Agrees (cfg : SportConfig) (st st' : Step SportState (SportEvent × Clock) SportEmission) :
    Prop where
  refusal : st.event.1.refusal? cfg st.pre.host = st'.event.1.refusal? cfg st'.pre.host
  requests : requestsIn st.out = requestsIn st'.out
  answers : (answersOf SportOut.answer? st.out).Perm (answersOf SportOut.answer? st'.out)
  order : st.event.1.isSweep = false →
    answersOf SportOut.answer? st.out = answersOf SportOut.answer? st'.out
  host : st.post.host = st'.post.host

/-! ## Idle steps -/

section
variable {nl : Nlohmann} {cfg : SportConfig} {L L' : List SportEmission} {s t : SportState}

/-- An idle step changes the counter at most, answers nothing and moves at most. -/
theorem Transition.idle {st : Step SportState (SportEvent × Clock) SportEmission}
    (ht : Transition nl cfg st.pre st.event st.post st.out) (hi : idle st = true) :
    st.post.host = st.pre.host ∧ st.post.client.pending = st.pre.client.pending ∧
      st.post.client.timeoutMs = st.pre.client.timeoutMs ∧ calls st.out = [] ∧
      answersOf SportOut.answer? st.out = [] ∧
      ∀ r ∈ requestsIn st.out, r.1 = SportApiId.move.code := by
  obtain ⟨s, ⟨e, clk⟩, out, s'⟩ := st
  cases e with
  | cmdVel msg =>
    simp only at ht ⊢
    cases ht with
    | refused hr => cases hr
    | accepted hacc _ => cases hacc
    | notSent hq _ _ => cases hq
    | sent hq _ _ _ => cases hq
    | atOnce hq _ _ => cases hq
    | cmdVel _ => exact ⟨rfl, rfl, rfl, rfl, rfl, by simp [requestsIn]⟩
  | response msg =>
    have hl : s.client.pending.lookup msg.id = none := by simpa [Go2.idle] using hi
    simp only at ht ⊢
    cases ht with
    | refused hr => cases hr
    | accepted hacc _ => cases hacc
    | notSent hq _ _ => cases hq
    | sent hq _ _ _ => cases hq
    | atOnce hq _ _ => cases hq
    | foreign _ => exact ⟨rfl, rfl, rfl, rfl, rfl, by simp [requestsIn]⟩
    | replied hl' _ => rw [hl] at hl'; cases hl'
    | stepAccepted hl' _ _ _ _ _ => rw [hl] at hl'; cases hl'
    | stepFailed hl' _ _ _ _ => rw [hl] at hl'; cases hl'
  | _ => cases hi

/-- An idle step on one side. -/
theorem Mirrors.idle (h : Mirrors L L' s t) {st : Step SportState (SportEvent × Clock) SportEmission}
    (hs : st.pre = s) (ht : Transition nl cfg st.pre st.event st.post st.out)
    (hstep : sportBridgeStep nl cfg st.pre st.event = some (st.post, st.out))
    (hi : Go2.idle st = true) : Mirrors (L ++ st.out) L' st.post t := by
  subst hs
  obtain ⟨hhost, hpending, htimeout, hcalls, -⟩ := ht.idle hi
  have hmirror : Mirrors (L ++ st.out) (L' ++ []) st.post t :=
    h.frame hcalls rfl (hhost.trans h.host) ⟨hpending, htimeout⟩ ⟨rfl, rfl⟩
      (Ledger.step nl _ h.ledger (sportBridgeStep_node hstep)) (by rw [append_nil]; exact h.ledger')
  rwa [append_nil] at hmirror

/-! ## Kept steps -/

/-- The results of an event on both sides, where the first returned. -/
theorem SameResult.returned {x y : SportNode × Except Fault Unit} (h : SameResult L L' x y)
    {n : SportNode} (hx : x = (n, .ok ())) :
    ∃ m, y = (m, .ok ()) ∧ Mirrors (L ++ n.out) (L' ++ m.out) n.toState m.toState ∧
      seen n.out = seen m.out := by
  subst hx
  obtain ⟨m, f | _⟩ := y
  · cases h
  · exact ⟨m, rfl, h.2.1, h.2.2.1⟩

/-- What has expired is the same on both sides, but for ids and the order of the walk. -/
theorem Mirrors.expired_perm (h : Mirrors L L' s t) (order order' : IterationOrder (PendingEntry Callback))
    (now : Int) :
    ((s.client.expired order now).map (·.2)).Perm ((t.client.expired order' now).map (·.2)) := by
  have hfilter : ∀ (c : UnitreeApiClient Callback) (o : IterationOrder (PendingEntry Callback)),
      ((c.expired o now).map (·.2)).Perm
        ((c.pending.entries.filter fun e => decide (e.2.deadline ≤ now)).map (·.2)) :=
    fun c o => ((o.perm _).filter _).map _
  have hvalues : Forall₂ (fun e e' : PendingEntry Callback => e.2 = e'.2)
      (s.client.pending.entries.filter fun e => decide (e.2.deadline ≤ now))
      (t.client.pending.entries.filter fun e => decide (e.2.deadline ≤ now)) := by
    refine rel_filter ?_ (h.pending.imp fun _ _ hx => h.value hx)
    intro x x' hx
    simp only [hx]
  have hmap : (s.client.pending.entries.filter fun e => decide (e.2.deadline ≤ now)).map (·.2) =
      (t.client.pending.entries.filter fun e => decide (e.2.deadline ≤ now)).map (·.2) := by
    rw [← forall₂_eq_eq_eq, forall₂_map_left_iff, forall₂_map_right_iff]
    exact hvalues
  exact (hfilter _ order).trans (hmap ▸ (hfilter _ order').symm)

theorem SportHost.swept_congr {h : SportHost} {l l' : List (PendingEntry Callback)}
    (hl : (l.map (·.2)).Perm (l'.map (·.2))) : h.swept l = h.swept l' := by
  have hany : ∀ l : List (PendingEntry Callback),
      l.any (·.2.isStep) = (l.map (·.2)).any PendingRequest.isStep := by
    intro l
    rw [any_map]
    rfl
  unfold SportHost.swept
  rw [hany l, hany l', hl.any_eq]

/-- A sweep lets out what the entries' values say. -/
theorem seen_swept (h : SportHost) (l : List (PendingEntry Callback)) :
    seen (l.map timeoutLog ++ l.flatMap (expiry nl cfg h)) =
      (l.map (·.2)).flatMap fun entry =>
        .result entry timeoutResult :: seen (timeoutReport nl cfg h entry.callback) := by
  have hlogs : seen (l.map timeoutLog : List SportEmission) = [] :=
    (warnings_timeoutLog l).filterMap_eq_nil fun _ => rfl
  rw [seen_append, hlogs, nil_append]
  clear hlogs
  induction l with
  | nil => rfl
  | cons x l ih =>
    rw [flatMap_cons, seen_append, ih, map_cons, flatMap_cons]
    rfl

theorem calls_sweep (h : SportHost) (l : List (PendingEntry Callback)) :
    calls (l.map timeoutLog ++ l.flatMap (expiry nl cfg h)) = [] := by
  unfold calls
  rw [filterMap_eq_nil_iff]
  intro o ho
  cases o with
  | published req entry => exact absurd ho (published_notMem_sweep nl cfg req entry h l)
  | _ => rfl

/-- A sweep on both sides. -/
theorem Mirrors.sweep (h : Mirrors L L' s t) (hp : Phase s) (hp' : Phase t)
    {order : IterationOrder (PendingEntry Callback)} (order' : IterationOrder (PendingEntry Callback))
    {clk clk' : Clock} (hnow : (clk 0).now = (clk' 0).now) {s' : SportState} {out : List SportEmission}
    (hstep : sportBridgeStep nl cfg s (.sweep order, clk) = some (s', out)) :
    ∃ t' out', sportBridgeStep nl cfg t (.sweep order', clk') = some (t', out') ∧
      Mirrors (L ++ out) (L' ++ out') s' t' ∧ (seen out).Perm (seen out') ∧
      requestsIn out = requestsIn out' := by
  have hstep' := sweep_step nl cfg hp' order' clk'
  have hL := Ledger.step nl _ h.ledger (sportBridgeStep_node hstep)
  have hL' := Ledger.step nl _ h.ledger' (sportBridgeStep_node hstep')
  rw [sweep_step nl cfg hp order clk, Option.some.injEq, Prod.mk.injEq] at hstep
  obtain ⟨rfl, rfl⟩ := hstep
  refine ⟨_, _, hstep', ?_, ?_, ?_⟩
  · have hcalls := @calls_sweep nl cfg
    have hexp := h.expired_perm order order' (clk 0).now
    constructor
    · rw [hnow] at hexp ⊢
      simp only
      rw [SportHost.swept_congr hexp, show s.host = t.host from h.host]
    · exact h.timeoutMs
    · rw [calls_append L, calls_append L', hcalls, hcalls, append_nil, append_nil]
      exact h.called
    · rw [twins_append_nil (hcalls _ _) (hcalls _ _)]
      simp only [UnitreeApiClient.entries_kept, hnow]
      have hboth : Forall₂ (fun x x' => (x, x') ∈ twins L L' ∧ x.2 = x'.2)
          s.client.pending.entries t.client.pending.entries :=
        h.pending.imp fun x x' hx => ⟨hx, h.value hx⟩
      refine (rel_filter ?_ hboth).imp fun _ _ hx => hx.1
      intro x x' hx
      simp only [hx.2]
    · exact hL
    · exact hL'
  · rw [seen_swept, seen_swept, show s.host = t.host from h.host, hnow]
    have hexp := h.expired_perm order order' (clk' 0).now
    exact hexp.flatMap_right _
  · rw [requestsIn_eq_nil fun req entry => published_notMem_sweep nl cfg req entry _ _,
      requestsIn_eq_nil fun req entry => published_notMem_sweep nl cfg req entry _ _]

/-- An event that is no sweep, on both sides. -/
theorem Mirrors.event (h : Mirrors L L' s t) {e e' : SportEvent} {clk clk' : Clock}
    (he : e.SameAs L L' e') (hnow : ∀ i, (clk i).now = (clk' i).now) {s' : SportState}
    {out : List SportEmission} (hstep : sportBridgeStep nl cfg s (e, clk) = some (s', out))
    (hi : Go2.idle ⟨s, (e, clk), out, s'⟩ = false) (hsweep : e.isSweep = false) :
    ∃ t' out', sportBridgeStep nl cfg t (e', clk') = some (t', out') ∧
      Mirrors (L ++ out) (L' ++ out') s' t' ∧ seen out = seen out' := by
  have hmirror : Mirrors (L ++ []) (L' ++ []) s t := by rwa [append_nil, append_nil]
  have hhandler : ∀ p : SportProg Unit, e.toNode nl cfg = .handler p → e' = e →
      ∃ t' out', sportBridgeStep nl cfg t (e', clk') = some (t', out') ∧
        Mirrors (L ++ out) (L' ++ out') s' t' ∧ seen out = seen out' := by
    rintro p hp rfl
    unfold sportBridgeStep at hstep ⊢
    rw [show t.host = s.host from h.host.symm]
    split at hstep
    · next hen =>
      rw [if_pos hen]
      obtain ⟨n, hn, rfl, rfl⟩ := (nodeStep_eq_some nl _).mp hstep
      simp only [State.perform, hp, Node.perform] at hn
      obtain ⟨m, hm, hM, hseen⟩ := (exec_mirrors nl (n := ⟨s, clk, []⟩) (m := ⟨t, clk', []⟩) p hmirror
        rfl hnow).returned hn
      refine ⟨m.toState, m.out, (nodeStep_eq_some nl _).mpr ⟨m, ?_, rfl, rfl⟩, hM, hseen⟩
      simp only [State.perform, hp, Node.perform]
      exact hm
    · cases hstep
  cases e with
  | response msg =>
    obtain ⟨x, x', htwin, hid, rfl⟩ := he
    cases hl : s.client.pending.lookup msg.id with
    | none => simp [Go2.idle, hl] at hi
    | some entry =>
      -- the entry found is the one the twin stands beside
      obtain ⟨y, hy, hytwin⟩ := h.pending_twin (lookup_eq_some_iff.mp hl)
      have hx : x = ⟨msg.id, entry⟩ :=
        h.ledger.call_eq (of_mem_zip htwin).1 (of_mem_zip hytwin).1 hid.symm
      subst hx
      obtain ⟨n, hn, rfl, rfl⟩ := (nodeStep_eq_some nl _).mp (sportBridgeStep_node hstep)
      obtain ⟨m, hm, hM, hseen⟩ :=
        (h.reply nl (Callback.body nl cfg) hnow htwin hl msg rfl).returned hn
      exact ⟨m.toState, m.out, (nodeStep_eq_some nl _).mpr ⟨m, hm, rfl, rfl⟩, hM, hseen⟩
  | sweep order => cases hsweep
  | mode r name => exact hhandler _ rfl he
  | speedLevel r level => exact hhandler _ rfl he
  | switchJoystick r flag => exact hhandler _ rfl he
  | euler r roll pitch yaw => exact hhandler _ rfl he
  | pose r flag => exact hhandler _ rfl he
  | getAutoRecovery r => exact hhandler _ rfl he
  | cmdVel msg => exact hhandler _ rfl he
  | timer => exact hhandler _ rfl he

/-- A kept step on one side can be made on the other, and does the same there. -/
theorem Mirrors.kept {tr tr' : SportTrace} (h : Mirrors (history tr) (history tr') s t) (hp : Phase s)
    (hp' : Phase t) {e e' : SportEvent × Clock} (he : SameEvent tr tr' e e') {s' : SportState}
    {out : List SportEmission} (hstep : sportBridgeStep nl cfg s e = some (s', out))
    (hi : Go2.idle ⟨s, e, out, s'⟩ = false) :
    ∃ t' out', sportBridgeStep nl cfg t e' = some (t', out') ∧
      Mirrors (history tr ++ out) (history tr' ++ out') s' t' ∧
      Agrees cfg ⟨s, e, out, s'⟩ ⟨t, e', out', t'⟩ := by
  obtain ⟨e, clk⟩ := e
  obtain ⟨e', clk'⟩ := e'
  obtain ⟨he, hnow⟩ := he
  simp only at he hnow
  have hrefusal : e.refusal? cfg s.host = e'.refusal? cfg t.host := by
    rw [show t.host = s.host from h.host.symm]
    cases e with
    | response msg =>
      obtain ⟨x, x', -, -, rfl⟩ := he
      rfl
    | sweep order =>
      obtain ⟨order', rfl⟩ := he
      rfl
    | _ => rw [he]
  cases hsweep : e.isSweep with
  | true =>
    cases e with
    | sweep order =>
      obtain ⟨order', rfl⟩ := he
      obtain ⟨t', out', hstep', hM, hperm, hreq⟩ := h.sweep hp hp' order' (hnow 0) hstep
      refine ⟨t', out', hstep', hM, hrefusal, hreq, ?_, (nomatch ·), hM.host⟩
      simp only [answersOf_eq]
      exact hperm.filterMap _
    | _ => cases hsweep
  | false =>
    obtain ⟨t', out', hstep', hM, hseen⟩ := h.event he hnow hstep hi hsweep
    have hans : answersOf SportOut.answer? out = answersOf SportOut.answer? out' := by
      rw [answersOf_eq, answersOf_eq, hseen]
    refine ⟨t', out', hstep', hM, hrefusal, ?_, Perm.of_eq hans, fun _ => hans, hM.host⟩
    simp only [requestsIn_eq, hseen]

/-- The event of a kept step, addressed to the other side, with readings of its own. -/
theorem Mirrors.exists_same {tr tr' : SportTrace} (h : Mirrors (history tr) (history tr') s t)
    {e : SportEvent × Clock} {s' : SportState} {out : List SportEmission}
    (hi : Go2.idle ⟨s, e, out, s'⟩ = false) (steady : Nat → Int)
    (order : IterationOrder (PendingEntry Callback)) :
    ∃ e', SameEvent tr tr' e e' ∧ (∀ i, (e'.2 i).steady = steady i) ∧
      ∀ o, e'.1 = .sweep o → o = order := by
  obtain ⟨e, clk⟩ := e
  obtain ⟨clk', hnow, hsteady⟩ : ∃ clk' : Clock, (∀ i, (clk i).now = (clk' i).now) ∧
      ∀ i, (clk' i).steady = steady i := ⟨fun i => ⟨steady i, (clk i).now⟩, fun _ => rfl, fun _ => rfl⟩
  cases e with
  | response msg =>
    cases hl : s.client.pending.lookup msg.id with
    | none => simp [Go2.idle, hl] at hi
    | some entry =>
      obtain ⟨x', -, htwin⟩ := h.pending_twin (lookup_eq_some_iff.mp hl)
      exact ⟨(.response { msg with id := x'.1 }, clk'), ⟨⟨_, x', htwin, rfl, rfl⟩, hnow⟩, hsteady,
        fun _ ho => by cases ho⟩
  | sweep o =>
    exact ⟨(.sweep order, clk'), ⟨⟨order, rfl⟩, hnow⟩, hsteady, fun _ ho => by cases ho; rfl⟩
  | _ => exact ⟨(_, clk'), ⟨rfl, hnow⟩, hsteady, fun _ ho => by cases ho⟩

/-- Twin calls are one another's under a renaming of the ids. -/
theorem Mirrors.renaming (h : Mirrors L L' s t) :
    ∃ ρ : Int → Int, (∀ e ∈ s.client.pending.entries, ∀ x ∈ s.client.pending.entries,
        e.1 < x.1 → ρ e.1 < ρ x.1) ∧
      t.client.pending.entries = s.client.pending.entries.map fun e => ⟨ρ e.1, e.2⟩ := by
  have hex : ∀ i : Int, ∃ j : Int, ∀ e e', (e, e') ∈ twins L L' → e.1 = i → e'.1 = j := by
    intro i
    by_cases hi : ∃ e e', (e, e') ∈ twins L L' ∧ e.1 = i
    · obtain ⟨e, e', htwin, rfl⟩ := hi
      exact ⟨e'.1, fun x x' hx hid => (h.id_iff hx htwin).mp hid⟩
    · exact ⟨0, fun e e' htwin hid => absurd ⟨e, e', htwin, hid⟩ hi⟩
  choose ρ hρ using hex
  refine ⟨ρ, ?_, ?_⟩
  · intro e he x hx hlt
    obtain ⟨e', -, htwin⟩ := h.pending_twin he
    obtain ⟨x', -, htwin'⟩ := h.pending_twin hx
    rw [← hρ e.1 e e' htwin rfl, ← hρ x.1 x x' htwin' rfl]
    exact (h.lt_iff htwin htwin').mp hlt
  · symm
    rw [← forall₂_eq_eq_eq, forall₂_map_left_iff]
    refine h.pending.imp fun e e' htwin => ?_
    rw [← hρ e.1 e e' htwin rfl, h.value htwin]

end

/-! ## Every run -/

section
variable {nl : Nlohmann} {cfg : SportConfig} {timeoutMs : Int} {s t : SportState} {tr tr' : SportTrace}

def notMove (r : Int × String × Bool) : Bool := decide (r.1 ≠ SportApiId.move.code)

/-- What the two runs keep. -/
structure SideBySide (tr tr' : SportTrace) (s t : SportState) : Prop where
  mirrors : Mirrors (history tr) (history tr') s t
  requests : (requestsIn (history tr)).filter notMove = (requestsIn (history tr')).filter notMove
  silent : ∀ st ∈ tr, idle st = true → answersOf SportOut.answer? st.out = []

theorem SideBySide.start (timeoutMs : Int) :
    SideBySide [] [] (SportState.start timeoutMs) (SportState.start timeoutMs) :=
  ⟨Mirrors.start timeoutMs _, rfl, by simp⟩

theorem SideBySide.idle {st : Step SportState (SportEvent × Clock) SportEmission}
    (h : SideBySide tr tr' st.pre t) (hr : SportRun nl cfg timeoutMs tr st.pre)
    (hstep : sportBridgeStep nl cfg st.pre st.event = some (st.post, st.out))
    (hi : Go2.idle st = true) : SideBySide (tr ++ [st]) tr' st.post t := by
  have ht := sportBridgeStep_transition nl cfg (SportRun.phase hr) hstep
  obtain ⟨-, -, -, -, hans, hmove⟩ := ht.idle hi
  have hhist : history (tr ++ [st]) = history tr ++ st.out := by simp
  refine ⟨?_, ?_, ?_⟩
  · rw [hhist]
    exact h.mirrors.idle rfl ht hstep hi
  · have hnone : (requestsIn st.out).filter notMove = [] := by
      rw [filter_eq_nil_iff]
      intro r hr
      simp [notMove, hmove r hr]
    rw [hhist, requestsIn_append, filter_append, hnone, append_nil]
    exact h.requests
  · intro x hx
    rcases mem_append.mp hx with hx | hx
    · exact h.silent x hx
    · rw [mem_singleton.mp hx]
      exact fun _ => hans

theorem SideBySide.kept {st st' : Step SportState (SportEvent × Clock) SportEmission}
    (h : SideBySide tr tr' st.pre st'.pre)
    (hM : Mirrors (history tr ++ st.out) (history tr' ++ st'.out) st.post st'.post)
    (hag : Agrees cfg st st') (hi : Go2.idle st = false) :
    SideBySide (tr ++ [st]) (tr' ++ [st']) st.post st'.post := by
  refine ⟨by simpa using hM, ?_, ?_⟩
  · simp only [history_snoc, requestsIn_append, filter_append, h.requests, hag.requests]
  · intro x hx
    rcases mem_append.mp hx with hx | hx
    · exact h.silent x hx
    · rw [mem_singleton.mp hx, hi]
      exact (nomatch ·)

/-- **Velocity messages and foreign replies have no influence.**  Take a run, and erase
its `cmd_vel` messages and the replies that found no entry.  Whatever the clock reads in
the run that is left, and in whatever order its sweeps walk, that run exists; and every
such run does the same for the services, step for step: the same requests are refused,
the same requests published but for Move, the same answers sent (within one sweep, in the
order of its walk), with the same sequence active and the same table in the end, but for
an order-preserving renaming of ids. -/
theorem noninterference (h : SportRun nl cfg timeoutMs tr s) :
    (∀ (steady : Nat → Nat → Int) (order : Nat → IterationOrder (PendingEntry Callback)),
      ∃ tr' s', SportRun nl cfg timeoutMs tr' s' ∧ Matched idle SameEvent tr tr' ∧
        ∀ k st', tr'[k]? = some st' → (∀ i, (st'.event.2 i).steady = steady k i) ∧
          ∀ o, st'.event.1 = .sweep o → o = order k) ∧
    ∀ tr' s', SportRun nl cfg timeoutMs tr' s' → Matched idle SameEvent tr tr' →
      Forall₂ (Agrees cfg) (tr.filter fun st => !idle st) tr' ∧
      (∀ st ∈ tr, idle st = true → answersOf SportOut.answer? st.out = []) ∧
      (requestsIn (history tr)).filter notMove = (requestsIn (history tr')).filter notMove ∧
      s.host.activeSequence = s'.host.activeSequence ∧
      ∃ ρ : Int → Int, (∀ e ∈ s.client.pending.entries, ∀ x ∈ s.client.pending.entries,
          e.1 < x.1 → ρ e.1 < ρ x.1) ∧
        s'.client.pending.entries = s.client.pending.entries.map fun e => ⟨ρ e.1, e.2⟩ := by
  have hidle : ∀ (tr tr' : SportTrace) st t, SportRun nl cfg timeoutMs tr st.pre →
      SideBySide tr tr' st.pre t → sportBridgeStep nl cfg st.pre st.event = some (st.post, st.out) →
      idle st = true → SideBySide (tr ++ [st]) tr' st.post t :=
    fun _ _ _ _ hr hI hst hi => hI.idle hr hst hi
  constructor
  · intro steady order
    obtain ⟨tr', s', hr', he, -, hch⟩ := Matched.exists_run idle SameEvent SideBySide
      (fun k e => (∀ i, (e.2 i).steady = steady k i) ∧ ∀ o, e.1 = .sweep o → o = order k)
      (SideBySide.start timeoutMs) hidle (fun tr tr' st t hr hr' hI hst hi => by
        obtain ⟨e', hsame, hsteady, horder⟩ :=
          hI.mirrors.exists_same hi (steady tr'.length) (order tr'.length)
        obtain ⟨t', out', hst', hM, hag⟩ :=
          hI.mirrors.kept (SportRun.phase hr) (SportRun.phase hr') hsame hst hi
        have hI' : SideBySide (tr ++ [st]) (tr' ++ [⟨t, e', out', t'⟩]) st.post t' := hI.kept hM hag hi
        exact ⟨⟨t, e', out', t'⟩, rfl, hsame, ⟨hsteady, horder⟩, hst', hI'⟩) h
    exact ⟨tr', s', hr', he, hch⟩
  · intro tr' s' h' he
    obtain ⟨hI, hag⟩ := Matched.invariant SideBySide (Agrees cfg) (SideBySide.start timeoutMs) hidle
      (fun tr tr' st st' hr hr' hI hst hst' hi hsame => by
        obtain ⟨t', out', hstep, hM, hag⟩ :=
          hI.mirrors.kept (SportRun.phase hr) (SportRun.phase hr') hsame hst hi
        -- the step function leaves no choice
        rw [hst', Option.some.injEq, Prod.mk.injEq] at hstep
        obtain ⟨rfl, rfl⟩ := hstep
        exact ⟨hI.kept hM hag hi, hag⟩) he h h'
    exact ⟨hag, hI.silent, hI.requests, congrArg SportHost.activeSequence hI.mirrors.host,
      hI.mirrors.renaming⟩

end

/-- A velocity message before a request, and a foreign reply before its own. -/
def velocityFirst : SportTrace × SportState :=
  execute (sportBridgeStep .small (.ofParameters initPresets true defaultBlockedModes)) (.start 2000)
    [(.cmdVel ⟨.nan, .nan, .nan⟩, .at 5 0), (.speedLevel ⟨[], 1⟩ 1, .at 5 0),
      (.response ⟨5, 1008, 0, ""⟩, .at 0 0), (.response ⟨6, 1015, 0, ""⟩, .at 0 0)]

/-- The same without the two, on a clock of its own. -/
def velocityErased : SportTrace × SportState :=
  execute (sportBridgeStep .small (.ofParameters initPresets true defaultBlockedModes)) (.start 2000)
    [(.speedLevel ⟨[], 1⟩ 1, .at 9 0), (.response ⟨9, 1015, 0, ""⟩, .at 0 0)]

theorem noninterference_velocityFirst :
    velocityFirst.1.length = 4 ∧ velocityErased.1.length = 2 ∧
      Forall₂ (Agrees (.ofParameters initPresets true defaultBlockedModes))
        (velocityFirst.1.filter fun st => !idle st) velocityErased.1 := by
  have herased : Matched idle SameEvent velocityFirst.1 velocityErased.1 := by
    refine .pair (.idle (.pair (.idle .nil rfl) rfl ⟨rfl, fun _ => rfl⟩) rfl) rfl ⟨?_, fun _ => rfl⟩
    exact ⟨⟨6, ⟨1015, 2000000000, .speedLevel ⟨[], 1⟩⟩⟩, ⟨9, ⟨1015, 2000000000, .speedLevel ⟨[], 1⟩⟩⟩,
      mem_singleton.mpr rfl, rfl, rfl⟩
  exact ⟨rfl, rfl,
    ((noninterference (Run.execute _ _ _)).2 _ velocityErased.2 (Run.execute _ _ _) herased).1⟩

end Go2
