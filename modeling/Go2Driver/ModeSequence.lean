import Go2Driver.Transitions

/-!
# What a mode request sends

The mode service's part of a trace is a list of `Mark`s: its requests, the
results of its steps, its timer and its answer.  From the event that accepts a
preset the marks are `Sequenced`: the rounds of the steps that passed (request,
result, timer armed, timer fired), and then one of five tails.  Going on: the
request waits for its reply, or the timer runs.  Ended: every step passed, a
step failed, or a step could not be sent.

`Going` ties the marks to the state of the bridge; one event keeps it or ends
the sequence (`Going.step`), so a run does (`mode_sequence`).
-/

namespace Go2

open Tables Runs SportBridge

/-! ## Marks -/

inductive Mark
  | published (req : Request)
  | replied (id code : Int)
  | timedOut (id : Int)
  /-- without `wait_for_response_`: the result handed over with the request -/
  | assumed (apiId : Int)
  /-- the table of pending requests was full -/
  | dropped
  | armed (waitMs : Int)
  | fired
  | answered (request : RequestId) (success : Bool)
deriving DecidableEq, Repr

/-- The events that run `advanceSequence`. -/
def SportEvent.ofMode : SportEvent → Bool
  | .mode _ _ | .timer => true
  | _ => false

/-- The mark of one emission of the event; a refused request's answer is none. -/
def SportEvent.mark (e : SportEvent) (refused : Bool) : SportEmission → Option Mark
  | .published req entry =>
    if e.ofMode || entry.any PendingRequest.isStep then some (.published req) else none
  | .invoked id entry _ =>
    if entry.isStep then
      match e with
      | .response msg => some (.replied id msg.code)
      | _ => some (.timedOut id)
    else none
  | .log .error _ => if e.ofMode then some .dropped else none
  | .log _ _ => none
  | .host (.resultAtOnce apiId _) => if e.ofMode then some (.assumed apiId) else none
  | .host (.timerCreated waitMs) => some (.armed waitMs)
  | .host (.answer r resp) =>
    if resp.service = .mode ∧ refused = false then some (.answered r resp.success) else none

def eventMarks (cfg : SportConfig) (s : SportState) (e : SportEvent) (out : List SportEmission) :
    List Mark :=
  (match e with
    | .timer => [.fired]
    | _ => []) ++ out.filterMap (e.mark (e.refusal? cfg s.host).isSome)

/-- The marks of a trace. -/
def marks (cfg : SportConfig) (tr : SportTrace) : List Mark :=
  tr.flatMap fun st => eventMarks cfg st.pre st.event.1 st.out

@[simp] theorem marks_append (cfg : SportConfig) (tr₁ tr₂ : SportTrace) :
    marks cfg (tr₁ ++ tr₂) = marks cfg tr₁ ++ marks cfg tr₂ := List.flatMap_append

/-! ## Sequences of marks -/

/-- A step the sequencer went past. -/
structure Round where
  step : SportCommandStep
  request : Request
  result : Mark

def Round.marks (q : Round) : List Mark :=
  [.published q.request, q.result, .armed q.step.waitMsAfter, .fired]

section
variable (nl : Nlohmann) (cfg : SportConfig)

/-- The request is the step's. -/
def Asks (st : SportCommandStep) (req : Request) : Prop :=
  req.apiId = st.apiId ∧ req.noreply = false ∧ nl.dump st.parameter = some req.parameter

/-- A result of the step's request that is ok. -/
inductive Accepts (st : SportCommandStep) (req : Request) : Mark → Prop
  | replied : cfg.waitForResponse = true → Accepts st req (.replied req.id statusOk)
  | assumed : cfg.waitForResponse = false → Accepts st req (.assumed st.apiId)

/-- A result of the request that is not ok. -/
inductive Fails (req : Request) : Mark → Prop
  | replied {code : Int} : cfg.waitForResponse = true → code ≠ statusOk → Fails req (.replied req.id code)
  | timedOut : cfg.waitForResponse = true → Fails req (.timedOut req.id)

def Round.Passes (q : Round) : Prop :=
  Asks nl q.step q.request ∧ Accepts cfg q.step q.request q.result

/-- What follows the rounds, with `left` the steps behind them: going on, or ended with an answer. -/
inductive Tail (r : RequestId) : List SportCommandStep → List Mark → Option Bool → Prop
  | awaiting {st : SportCommandStep} {left : List SportCommandStep} {req : Request} :
      cfg.waitForResponse = true → Asks nl st req → Tail r (st :: left) [.published req] none
  | delaying {st : SportCommandStep} {left : List SportCommandStep} {req : Request} {res : Mark} :
      Asks nl st req → Accepts cfg st req res →
      Tail r (st :: left) [.published req, res, .armed st.waitMsAfter] none
  | finished : Tail r [] [.answered r true] (some true)
  | failed {st : SportCommandStep} {left : List SportCommandStep} {req : Request} {res : Mark} :
      Asks nl st req → Fails cfg req res →
      Tail r (st :: left) [.published req, res, .answered r false] (some false)
  | dropped {st : SportCommandStep} {left : List SportCommandStep} :
      cfg.waitForResponse = true → Tail r (st :: left) [.dropped, .answered r false] (some false)

/-- The marks of the sequence that request `r` started, up to its answer or so far. -/
def Sequenced (r : RequestId) (steps : List SportCommandStep) (m : List Mark)
    (ending : Option Bool) : Prop :=
  ∃ (rounds : List Round) (left : List SportCommandStep) (tail : List Mark),
    steps = rounds.map (·.step) ++ left ∧ (∀ q ∈ rounds, q.Passes nl cfg) ∧
      Tail nl cfg r left tail ending ∧ m = rounds.flatMap Round.marks ++ tail

end

/-! ## What the shape says -/

/-- The requests among the marks. -/
def requests (m : List Mark) : List Request :=
  m.filterMap fun
    | .published req => some req
    | _ => none

/-- The result of a step, ok or not. -/
def Mark.result : Mark → Bool
  | .replied _ _ | .timedOut _ | .assumed _ => true
  | _ => false

def Mark.ok : Mark → Bool
  | .replied _ code => decide (code = statusOk)
  | .assumed _ => true
  | _ => false

/-- A result that is not ok, or a step that could not be sent. -/
def Mark.failure : Mark → Bool
  | .replied _ code => decide (code ≠ statusOk)
  | .timedOut _ | .dropped => true
  | _ => false

section
variable {nl : Nlohmann} {cfg : SportConfig} {r : RequestId} {steps : List SportCommandStep}
  {m : List Mark} {ending : Option Bool}

@[simp] theorem requests_append (m m' : List Mark) : requests (m ++ m') = requests m ++ requests m' :=
  List.filterMap_append

theorem Round.Passes.requests {q : Round} (h : q.Passes nl cfg) : requests q.marks = [q.request] := by
  obtain ⟨-, hacc⟩ := h
  rw [Round.marks]
  generalize q.result = res at hacc
  cases hacc <;> rfl

theorem requests_rounds {rounds : List Round} (h : ∀ q ∈ rounds, q.Passes nl cfg) :
    requests (rounds.flatMap Round.marks) = rounds.map (·.request) := by
  induction rounds with
  | nil => rfl
  | cons q rounds ih =>
    obtain ⟨hq, hrest⟩ := List.forall_mem_cons.mp h
    rw [List.flatMap_cons, requests_append, ih hrest, hq.requests]
    rfl

/-- The requests are those of the first steps, in order. -/
theorem Sequenced.asks (h : Sequenced nl cfg r steps m ending) :
    List.Forall₂ (Asks nl) (steps.take (requests m).length) (requests m) := by
  obtain ⟨rounds, left, tail, rfl, hpass, ht, rfl⟩ := h
  have hrounds : List.Forall₂ (Asks nl) (rounds.map (·.step)) (rounds.map (·.request)) := by
    rw [List.forall₂_map_left_iff, List.forall₂_map_right_iff, List.forall₂_same]
    exact fun q hq => (hpass q hq).1
  have htail : List.Forall₂ (Asks nl) (left.take (requests tail).length) (requests tail) := by
    cases ht with
    | awaiting _ hask => exact .cons hask .nil
    | delaying hask hacc => cases hacc <;> exact .cons hask .nil
    | finished => exact .nil
    | failed hask hfail => cases hfail <;> exact .cons hask .nil
    | dropped _ => exact .nil
  have hlen : (rounds.map (·.request)).length = (rounds.map (·.step)).length := by simp
  rw [requests_append, requests_rounds hpass, List.length_append, hlen, List.take_length_add_append]
  exact List.rel_append hrounds htail

/-- Before a request stand only rounds: each earlier step passed and its timer fired. -/
theorem Sequenced.before_request (h : Sequenced nl cfg r steps m ending) {m₁ m₂ : List Mark}
    {req : Request} (hm : m = m₁ ++ .published req :: m₂) :
    ∃ rounds : List Round, (∀ q ∈ rounds, q.Passes nl cfg) ∧
      rounds.map (·.step) <+: steps ∧ m₁ = rounds.flatMap Round.marks := by
  obtain ⟨rounds, left, tail, rfl, hpass, ht, hshape⟩ := h
  rw [hm] at hshape
  clear hm
  induction rounds generalizing m₁ with
  | nil =>
    refine ⟨[], by simp, by simp, ?_⟩
    rw [List.flatMap_nil, List.nil_append] at hshape
    -- only the first mark of a tail can be a request
    cases m₁ with
    | nil => rfl
    | cons x m₁ =>
      exfalso
      have hmem : Mark.published req ∈ tail.tail := by rw [← hshape]; simp
      cases ht with
      | awaiting _ _ => simp at hmem
      | delaying _ hacc => cases hacc <;> simp at hmem
      | finished => simp at hmem
      | failed _ hfail => cases hfail <;> simp at hmem
      | dropped _ => simp at hmem
  | cons q rounds ih =>
    obtain ⟨hq, hrest⟩ := List.forall_mem_cons.mp hpass
    have hne : q.result ≠ .published req := by
      intro he
      have hacc := hq.2
      rw [he] at hacc
      cases hacc
    simp only [List.flatMap_cons, Round.marks, List.cons_append, List.nil_append] at hshape
    rcases m₁ with _ | ⟨a, _ | ⟨b, _ | ⟨c, _ | ⟨d, m₁⟩⟩⟩⟩
    · exact ⟨[], by simp, by simp, rfl⟩
    · simp only [List.cons_append, List.nil_append, List.cons.injEq] at hshape
      exact absurd hshape.2.1.symm hne
    · simp at hshape
    · simp at hshape
    · simp only [List.cons_append, List.cons.injEq] at hshape
      obtain ⟨rfl, rfl, rfl, rfl, hshape⟩ := hshape
      obtain ⟨before, hb, hpre, rfl⟩ := ih hrest hshape
      refine ⟨q :: before, List.forall_mem_cons.mpr ⟨hq, hb⟩, ?_, rfl⟩
      simpa using hpre

/-- A failure is followed by the answer and nothing else. -/
theorem Sequenced.after_failure (h : Sequenced nl cfg r steps m ending) :
    m.Pairwise fun x y => x.failure = true → y = .answered r false := by
  obtain ⟨rounds, left, tail, -, hpass, ht, rfl⟩ := h
  have hrounds : ∀ x ∈ rounds.flatMap Round.marks, x.failure ≠ true := by
    intro x hx hf
    obtain ⟨q, hq, hx⟩ := List.mem_flatMap.mp hx
    obtain ⟨-, hacc⟩ := hpass q hq
    simp only [Round.marks, List.mem_cons, List.not_mem_nil, or_false] at hx
    rcases hx with rfl | rfl | rfl | rfl
    · cases hf
    · generalize q.result = res at hacc hf
      cases hacc <;> simp [Mark.failure] at hf
    · cases hf
    · cases hf
  refine List.pairwise_append.mpr ⟨?_, ?_, ?_⟩
  · exact List.pairwise_of_forall_mem_list fun x hx _ _ hf => absurd hf (hrounds x hx)
  · cases ht with
    | awaiting _ _ => simp
    | delaying _ hacc => cases hacc <;> simp [Mark.failure]
    | finished => simp
    | failed _ _ => simp [Mark.failure]
    | dropped _ => simp
  · exact fun x hx _ _ hf => absurd hf (hrounds x hx)

theorem counts_rounds {rounds : List Round} (h : ∀ q ∈ rounds, q.Passes nl cfg) :
    (rounds.flatMap Round.marks).countP Mark.result = rounds.length ∧
      (rounds.flatMap Round.marks).count .fired = rounds.length ∧
      (rounds.flatMap Round.marks).countP Mark.ok = rounds.length := by
  induction rounds with
  | nil => simp
  | cons q rounds ih =>
    obtain ⟨⟨-, hacc⟩, hrest⟩ := List.forall_mem_cons.mp h
    obtain ⟨h1, h2, h3⟩ := ih hrest
    simp only [List.flatMap_cons, Round.marks, List.countP_append, List.count_append, h1, h2, h3,
      List.length_cons]
    generalize q.result = res at hacc
    cases hacc <;> simp [Mark.result, Mark.ok, List.countP_cons] <;> omega

/-- Results, firings and results that are ok, against the number of steps. -/
theorem Sequenced.counts (h : Sequenced nl cfg r steps m ending) :
    m.countP Mark.result ≤ steps.length ∧ m.count .fired ≤ steps.length ∧
      ∀ b, ending = some b →
        m.getLast? = some (.answered r b) ∧ (b = true ↔ m.countP Mark.ok = steps.length) := by
  obtain ⟨rounds, left, tail, rfl, hpass, ht, rfl⟩ := h
  obtain ⟨h1, h2, h3⟩ := counts_rounds hpass
  simp only [List.countP_append, List.count_append, List.length_append, List.length_map, h1, h2, h3]
  cases ht with
  | awaiting _ _ => simp [Mark.result]
  | delaying _ hacc => cases hacc <;> simp [Mark.result, List.countP_cons]
  | finished => simp [Mark.result, Mark.ok]
  | failed _ hfail =>
    cases hfail <;> simp_all [Mark.result, Mark.ok, List.countP_cons]
  | dropped _ => simp [Mark.result, Mark.ok]

end

/-! ## Events that are not the mode service's -/

section
variable {nl : Nlohmann} {cfg : SportConfig} {e : SportEvent}

/-- The reports of the five services leave no mark. -/
theorem marks_report {cb : Callback} (result : ApiResult) (refused : Bool) :
    (cb.report nl cfg result).filterMap (e.mark refused) = [] := by
  cases cb with
  | step => rfl
  | speedLevel r => rfl
  | euler r => rfl
  | switchJoystick r | pose r =>
    simp only [Callback.report, failureLog]
    split <;> rfl
  | getAutoRecovery r =>
    simp only [Callback.report, flagResponse]
    split
    · split <;> rfl
    · rfl

theorem marks_mismatchLog (msg : Response) (entry : PendingRequest Callback) (refused : Bool) :
    (mismatchLog msg entry).filterMap (e.mark refused) = [] :=
  (warnings_mismatchLog msg entry).filterMap_eq_nil fun _ => rfl

theorem marks_timeoutLog (l : List (PendingEntry Callback)) (refused : Bool) :
    (l.map timeoutLog).filterMap (e.mark refused) = [] :=
  (warnings_timeoutLog l).filterMap_eq_nil fun _ => rfl

/-- An expired entry of a service leaves no mark. -/
theorem marks_expiry {h : SportHost} {x : PendingEntry Callback} (hx : x.2.callback ≠ .step)
    (refused : Bool) : (expiry nl cfg h x).filterMap (e.mark refused) = [] := by
  have hinv : e.mark refused (.invoked x.1 x.2 timeoutResult) = none :=
    if_neg (fun hs => hx (PendingRequest.isStep_iff.mp hs))
  rw [expiry, List.filterMap_cons_none hinv, timeoutReport_eq nl cfg hx, marks_report]

theorem marks_flatMap_expiry {h : SportHost} {l : List (PendingEntry Callback)}
    (hl : ∀ x ∈ l, x.2.callback ≠ .step) (refused : Bool) :
    (l.flatMap (expiry nl cfg h)).filterMap (e.mark refused) = [] := by
  induction l with
  | nil => rfl
  | cons x l ih =>
    obtain ⟨hx, hrest⟩ := List.forall_mem_cons.mp hl
    rw [List.flatMap_cons, List.filterMap_append, marks_expiry hx, ih hrest]
    rfl

theorem SportEvent.ofMode_of_serviceCall? {q : SportCall} (h : e.serviceCall? nl cfg = some q) :
    e.ofMode = false ∧ e ≠ .timer := by
  cases e <;> first | exact ⟨rfl, by simp⟩ | cases h

theorem eventMarks_of_ne {s : SportState} {out : List SportEmission} (he : e ≠ .timer) :
    eventMarks cfg s e out = out.filterMap (e.mark (e.refusal? cfg s.host).isSome) := by
  cases e <;> first | rfl | exact absurd rfl he

/-- A refused request's answer is no mark; nothing else is let out. -/
theorem marks_refused {s : SportState} {r : RequestId} {resp : SportResponse}
    (h : e.refusal? cfg s.host = some (r, resp)) : eventMarks cfg s e [answered r resp] = [] := by
  have he : e ≠ .timer := by
    rintro rfl
    cases h
  have hmark : e.mark (e.refusal? cfg s.host).isSome (answered r resp) = none := by
    rw [h]
    exact if_neg (by simp)
  rw [eventMarks_of_ne he, List.filterMap_cons_none hmark]
  rfl

theorem SportEvent.serviceCall?_service {q : SportCall} (h : e.serviceCall? nl cfg = some q) :
    q.refused.service ≠ .mode := by
  cases e <;> simp only [SportEvent.serviceCall?] at h <;> repeat' split at h
  all_goals first
    | cases h; done
    | (simp only [Option.some.injEq] at h; subst h; exact SportService.noConfusion)

/-- A service's request leaves no mark, refused or published, with its result at once or not. -/
theorem marks_serviceCall (nl : Nlohmann) {s : SportState} {q : SportCall} (h : e.serviceCall? nl cfg = some q) :
    eventMarks cfg s e [dropped s.client q.apiId, answered q.request q.refused] = [] ∧
      ∀ req entry, Option.any PendingRequest.isStep entry = false →
        eventMarks cfg s e [.published req entry] = [] ∧
        ∀ apiId result, eventMarks cfg s e (.published req entry ::
          .host (.resultAtOnce apiId result) :: q.callback.report nl cfg result) = [] := by
  obtain ⟨hmode, hne⟩ := SportEvent.ofMode_of_serviceCall? h
  simp only [eventMarks_of_ne hne]
  refine ⟨?_, fun req entry hentry => ⟨?_, fun apiId result => ?_⟩⟩
  · simp [SportEvent.mark, dropped, answered, hmode, SportEvent.serviceCall?_service h]
  · simp [SportEvent.mark, hmode, hentry]
  · simp [SportEvent.mark, hmode, hentry, marks_report]

end

/-! ## The marks and the state -/

section
variable (nl : Nlohmann) (cfg : SportConfig)

/-- The sequence that request `r` started for the preset `name` goes on in `s`, after the marks `m`. -/
inductive Going (r : RequestId) (name : String) (steps : List SportCommandStep) (m : List Mark)
    (s : SportState) : Prop
  | awaiting (rounds : List Round) (st : SportCommandStep) (left : List SportCommandStep)
      (req : Request) (entry : PendingRequest Callback) (run : SequenceRun) :
      steps = rounds.map (·.step) ++ st :: left → (∀ q ∈ rounds, q.Passes nl cfg) →
      cfg.waitForResponse = true → Asks nl st req →
      m = rounds.flatMap Round.marks ++ [.published req] →
      s.host.activeSequence = some run → run.requestId = r → run.name = name → run.steps = steps →
      run.index = rounds.length → s.client.pending.lookup req.id = some entry →
      entry.callback = .step → Going r name steps m s
  | delaying (rounds : List Round) (st : SportCommandStep) (left : List SportCommandStep)
      (req : Request) (res : Mark) (run : SequenceRun) :
      steps = rounds.map (·.step) ++ st :: left → (∀ q ∈ rounds, q.Passes nl cfg) →
      Asks nl st req → Accepts cfg st req res →
      m = rounds.flatMap Round.marks ++ [.published req, res, .armed st.waitMsAfter] →
      s.host.activeSequence = some run → run.requestId = r → run.name = name → run.steps = steps →
      run.index = rounds.length + 1 → s.host.armed = true → Going r name steps m s

/-- The sequence ended with its answer. -/
def Ended (r : RequestId) (steps : List SportCommandStep) (m : List Mark) (s : SportState) : Prop :=
  ∃ success, Sequenced nl cfg r steps m (some success) ∧ s.host.activeSequence = none

end

section
variable {nl : Nlohmann} {cfg : SportConfig} {r : RequestId} {name : String}
  {steps : List SportCommandStep} {m : List Mark} {s s' : SportState}

theorem Going.sequenced (h : Going nl cfg r name steps m s) :
    Sequenced nl cfg r steps m none := by
  cases h with
  | awaiting rounds st left req entry run hsteps hpass hw hask hm =>
    exact ⟨rounds, st :: left, _, hsteps, hpass, .awaiting hw hask, hm⟩
  | delaying rounds st left req res run hsteps hpass hask hacc hm =>
    exact ⟨rounds, st :: left, _, hsteps, hpass, .delaying hask hacc, hm⟩

theorem Going.active (h : Going nl cfg r name steps m s) :
    ∃ run, s.host.activeSequence = some run ∧ run.requestId = r ∧ run.name = name ∧
      run.steps = steps := by
  cases h with
  | awaiting _ _ _ _ _ run _ _ _ _ _ ha hr hn hs => exact ⟨run, ha, hr, hn, hs⟩
  | delaying _ _ _ _ _ run _ _ _ _ _ ha hr hn hs => exact ⟨run, ha, hr, hn, hs⟩

/-- What leaves the host and the pending step alone. -/
theorem Going.frame (h : Going nl cfg r name steps m s) (hhost : s'.host = s.host)
    (hsteps : ∀ id entry, entry.callback = .step → s.client.pending.lookup id = some entry →
      s'.client.pending.lookup id = some entry) : Going nl cfg r name steps m s' := by
  cases h with
  | awaiting rounds st left req entry run h1 hpass hw hask hm ha hr hn hs hi hl hcb =>
    exact .awaiting rounds st left req entry run h1 hpass hw hask hm (hhost ▸ ha) hr hn hs hi
      (hsteps _ _ hcb hl) hcb
  | delaying rounds st left req res run h1 hpass hask hacc hm ha hr hn hs hi harm =>
    exact .delaying rounds st left req res run h1 hpass hask hacc hm (hhost ▸ ha) hr hn hs hi
      (hhost ▸ harm)

/-- One call of `advanceSequence` behind the rounds, for an event of the mode service. -/
theorem Advance.going {run : SequenceRun} {rd : Reading} {out : List SportEmission}
    (h : Advance nl cfg s run rd s' out) (ha : s.host.activeSequence = some run)
    (hf : s.client.freshId rd ∉ s.client.pending) (rounds : List Round)
    (left : List SportCommandStep) (hsteps : run.steps = rounds.map (·.step) ++ left)
    (hpass : ∀ q ∈ rounds, q.Passes nl cfg) (hi : run.index = rounds.length) (hok : run.ok = true)
    (e : SportEvent) (he : e.ofMode = true) :
    Going nl cfg run.requestId run.name run.steps
        (rounds.flatMap Round.marks ++ out.filterMap (e.mark false)) s' ∨
      Ended nl cfg run.requestId run.steps
        (rounds.flatMap Round.marks ++ out.filterMap (e.mark false)) s' := by
  -- the step the run is at is the first of those left
  have hhead : ∀ {st}, run.steps[run.index]? = some st → ∃ left', left = st :: left' := by
    intro st hst
    rw [hsteps, hi, List.getElem?_append_right (by simp)] at hst
    simp only [List.length_map, Nat.sub_self] at hst
    cases left with
    | nil => cases hst
    | cons x left' => exact ⟨left', by simpa using hst⟩
  cases h with
  | finished hge =>
    have hleft : left = [] := by
      have hlen := congrArg List.length hsteps
      rw [List.length_append, List.length_map] at hlen
      exact List.length_eq_zero_iff.mp (by omega)
    subst hleft
    refine .inr ⟨true, ⟨rounds, [], _, hsteps, hpass, .finished, ?_⟩, rfl⟩
    simp [SequenceRun.answer, answered, SportEvent.mark, SportResponse.service,
      SportResponse.success, hok]
  | @notSent st hst hw hfull =>
    obtain ⟨left', rfl⟩ := hhead hst
    refine .inr ⟨false, ⟨rounds, st :: left', _, hsteps, hpass, .dropped hw, ?_⟩, rfl⟩
    simp [SequenceRun.answer, SequenceRun.notSent, answered, dropped, SportEvent.mark,
      SportResponse.service, SportResponse.success, he]
  | @sent st text hst hw hfull hd =>
    obtain ⟨left', rfl⟩ := hhead hst
    refine .inl (.awaiting rounds st left' ⟨s.client.freshId rd, st.apiId, false, text⟩
      (s.client.newEntry rd st.apiId .step) run hsteps hpass hw ⟨rfl, rfl, hd⟩ ?_ ha rfl rfl rfl hi
      (lookup_emplace_self hf) rfl)
    simp [SportEvent.mark, he]
  | @atOnce st text hst hw hd hwait =>
    obtain ⟨left', rfl⟩ := hhead hst
    refine .inl (.delaying rounds st left' ⟨s.client.freshId rd, st.apiId, false, text⟩
      (.assumed st.apiId) (run.advanced cfg st ⟨true, 0, ""⟩) hsteps hpass ⟨rfl, rfl, hd⟩
      (.assumed hw) ?_ rfl rfl rfl rfl ?_ rfl)
    · simp [SportEvent.mark, he]
    · simp [SequenceRun.advanced, hi]

/-- The pending step callback is the one the sequence waits for. -/
theorem Going.awaits (h : Going nl cfg r name steps m s) (hp : Phase s)
    {id : Int} {entry : PendingRequest Callback} (hl : s.client.pending.lookup id = some entry)
    (hcb : entry.callback = .step) :
    ∃ (rounds : List Round) (st : SportCommandStep) (left : List SportCommandStep) (req : Request)
      (run : SequenceRun), steps = rounds.map (·.step) ++ st :: left ∧
      (∀ q ∈ rounds, q.Passes nl cfg) ∧ cfg.waitForResponse = true ∧ Asks nl st req ∧
      m = rounds.flatMap Round.marks ++ [.published req] ∧ s.host.activeSequence = some run ∧
      run.requestId = r ∧ run.name = name ∧ run.steps = steps ∧ run.index = rounds.length ∧
      run.steps[run.index]? = some st ∧ id = req.id := by
  have hm := lookup_eq_some_iff.mp hl
  cases h with
  | awaiting rounds st left req entry' run h1 hpass hw hask hm' ha hr hn hs hi hl' hcb' =>
    refine ⟨rounds, st, left, req, run, h1, hpass, hw, hask, hm', ha, hr, hn, hs, hi, ?_, ?_⟩
    · rw [hs, h1, hi, List.getElem?_append_right (by simp)]
      simp
    · have := hp.step_unique hm (lookup_eq_some_iff.mp hl') hcb hcb'
      exact congrArg Sigma.fst this
  | delaying _ _ _ _ _ _ _ _ _ _ _ _ _ _ _ _ harm =>
    obtain ⟨-, -, -, -, -, -, harm'⟩ := hp.step_of_pending hm hcb
    rw [harm] at harm'
    cases harm'

/-- So it is the active sequence that waits. -/
theorem Going.awaits_active (h : Going nl cfg r name steps m s) (hp : Phase s) {id : Int}
    {entry : PendingRequest Callback} {run : SequenceRun} (hl : s.client.pending.lookup id = some entry)
    (hcb : entry.callback = .step) (hrun : s.host.activeSequence = some run) :
    ∃ (rounds : List Round) (st : SportCommandStep) (left : List SportCommandStep) (req : Request),
      steps = rounds.map (·.step) ++ st :: left ∧ (∀ q ∈ rounds, q.Passes nl cfg) ∧
      cfg.waitForResponse = true ∧ Asks nl st req ∧ m = rounds.flatMap Round.marks ++ [.published req] ∧
      run.requestId = r ∧ run.name = name ∧ run.steps = steps ∧ run.index = rounds.length ∧
      run.steps[run.index]? = some st ∧ id = req.id := by
  obtain ⟨rounds, st, left, req, run', h1, hpass, hw, hask, hm, ha, hrest⟩ := h.awaits hp hl hcb
  rw [hrun, Option.some.injEq] at ha
  subst ha
  exact ⟨rounds, st, left, req, h1, hpass, hw, hask, hm, hrest⟩

/-- An event without marks that leaves the host and the pending step alone. -/
theorem Going.unmarked (h : Going nl cfg r name steps m s) {e : SportEvent} {out : List SportEmission}
    (hmarks : eventMarks cfg s e out = []) (hhost : s'.host = s.host)
    (hsteps : ∀ id entry, entry.callback = .step → s.client.pending.lookup id = some entry →
      s'.client.pending.lookup id = some entry) :
    Going nl cfg r name steps (m ++ eventMarks cfg s e out) s' := by
  rw [hmarks, List.append_nil]
  exact h.frame hhost hsteps

/-- A sweep ends the sequence if the step's request is among the expired. -/
theorem Going.swept (h : Going nl cfg r name steps m s) (hp : Phase s)
    (order : IterationOrder (PendingEntry Callback)) (clk : Clock) {out : List SportEmission}
    (hout : out = (s.client.expired order (clk 0).now).map timeoutLog ++
      (s.client.expired order (clk 0).now).flatMap (expiry nl cfg s.host))
    (hs' : s' = ⟨{ s.client with pending := s.client.kept order (clk 0).now },
      s.host.swept (s.client.expired order (clk 0).now)⟩) :
    Going nl cfg r name steps (m ++ eventMarks cfg s (.sweep order) out) s' ∨
      Ended nl cfg r steps (m ++ eventMarks cfg s (.sweep order) out) s' := by
  subst hout hs'
  have hmarks : ∀ l : List (PendingEntry Callback), eventMarks cfg s (.sweep order) (l.map timeoutLog ++
      l.flatMap (expiry nl cfg s.host)) =
      (l.flatMap (expiry nl cfg s.host)).filterMap ((SportEvent.sweep order).mark false) := by
    intro l
    rw [eventMarks_of_ne (by simp), List.filterMap_append, marks_timeoutLog]
    rfl
  by_cases hex : ∃ x ∈ s.client.expired order (clk 0).now, x.2.callback = .step
  · -- the step's request timed out: it is the only step among the expired
    obtain ⟨x, hx, hcb⟩ := hex
    obtain ⟨l₁, l₂, -, -, hl, hl₁, hl₂, -⟩ := hp.expired_step hx hcb
    obtain ⟨rounds, st, left, req, run, h1, hpass, hw, hask, rfl, ha, hreq, hn, hs, hi, hst, hid⟩ :=
      h.awaits hp (lookup_eq_some_iff.mpr (mem_expired.mp hx).1) hcb
    refine .inr ⟨false, ⟨rounds, st :: left, _, h1, hpass, .failed hask (.timedOut hw), ?_⟩, ?_⟩
    · rw [hmarks, hl, List.flatMap_append, List.flatMap_cons, List.filterMap_append,
        List.filterMap_append, marks_flatMap_expiry hl₁, marks_flatMap_expiry hl₂]
      simp [expiry, timeoutReport, hcb, ha, hst, SportEvent.mark, PendingRequest.isStep_iff.mpr hcb,
        SequenceRun.answer, answered, SequenceRun.advanced, SportResponse.service,
        SportResponse.success, timeoutResult, hreq, hid]
    · rw [SportHost.swept_of_mem hx hcb]
      rfl
  · have hnone : ∀ x ∈ s.client.expired order (clk 0).now, x.2.callback ≠ .step :=
      fun x hx hcb => hex ⟨x, hx, hcb⟩
    refine .inl (h.unmarked ?_ (SportHost.swept_of_none hnone) ?_)
    · rw [hmarks, marks_flatMap_expiry hnone]
    · intro id entry hcb hl
      refine lookup_eq_some_iff.mpr (mem_entries_kept.mpr ⟨lookup_eq_some_iff.mp hl, ?_⟩)
      by_contra hdl
      exact hnone _ (mem_expired.mpr ⟨lookup_eq_some_iff.mp hl, by omega⟩) hcb

/-- The timer's event completes a round and sends the next step, or ends the sequence. -/
theorem Going.fired (h : Going nl cfg r name steps m s) (hp : Phase s)
    (hf : ∀ rd, s.client.freshId rd ∉ s.client.pending) {clk : Clock} {run : SequenceRun}
    {out : List SportEmission} (harm : s.host.armed = true) (hrun : s.host.activeSequence = some run)
    (hadv : Advance nl cfg ⟨s.client, s.host.cancelTimer⟩ run (clk 0) s' out) :
    Going nl cfg r name steps (m ++ eventMarks cfg s .timer out) s' ∨
      Ended nl cfg r steps (m ++ eventMarks cfg s .timer out) s' := by
  obtain ⟨run', hrun', -, -, hok, hno⟩ := hp.active_of_armed harm
  rw [hrun, Option.some.injEq] at hrun'
  subst hrun'
  cases h with
  | awaiting _ _ _ req entry _ _ _ _ _ _ _ _ _ _ _ hl hcb => exact absurd hcb (hno.lookup _ _ hl)
  | delaying rounds st left req res run' h1 hpass hask hacc hm ha hreq hn hs hi _ =>
    rw [hrun, Option.some.injEq] at ha
    subst ha
    have hpass' : ∀ q ∈ rounds ++ [⟨st, req, res⟩], q.Passes nl cfg := by
      intro q hq
      rcases List.mem_append.mp hq with hq | hq
      · exact hpass q hq
      · rw [List.mem_singleton.mp hq]
        exact ⟨hask, hacc⟩
    have hgo := hadv.going hrun (hf _) (rounds ++ [⟨st, req, res⟩]) left (by rw [hs, h1]; simp) hpass'
      (by simp [hi]) hok .timer rfl
    have hmarks : m ++ eventMarks cfg s .timer out =
        (rounds ++ [(⟨st, req, res⟩ : Round)]).flatMap Round.marks ++
          out.filterMap (SportEvent.timer.mark false) := by
      rw [hm]
      simp [eventMarks, Round.marks, SportEvent.refusal?]
    rw [hmarks, ← hreq, ← hn, ← hs]
    exact hgo

/-- Every event keeps the sequence going or ends it. -/
theorem Going.step {e : SportEvent × Clock} {out : List SportEmission}
    (h : Going nl cfg r name steps m s) (hp : Phase s)
    (hf : ∀ rd, s.client.freshId rd ∉ s.client.pending) (ht : Transition nl cfg s e s' out) :
    Going nl cfg r name steps (m ++ eventMarks cfg s e.1 out) s' ∨
      Ended nl cfg r steps (m ++ eventMarks cfg s e.1 out) s' := by
  cases ht with
  | refused hr => exact .inl (h.unmarked (marks_refused hr) rfl fun _ _ _ hl => hl)
  | accepted hacc _ =>
    obtain ⟨run, ha, -⟩ := h.active
    rw [(SportEvent.accepted?_spec hacc).2.1] at ha
    cases ha
  | notSent hq _ _ =>
    exact .inl (h.unmarked (marks_serviceCall nl hq).1 rfl fun _ _ _ hl => hl)
  | @sent e clk q text hq hw hfull hd =>
    have hcb := (SportEvent.serviceCall?_callback hq).1
    refine .inl (h.unmarked ((marks_serviceCall nl hq).2 _ _ ?_).1 rfl ?_)
    · simpa [PendingRequest.isStep, UnitreeApiClient.newEntry] using hcb
    · intro id entry _ hl
      have hne : id ≠ s.client.freshId (clk 0) := by
        rintro rfl
        exact hf (clk 0) (mem_iff_lookup.mpr ⟨entry, hl⟩)
      exact (lookup_emplace_ne hne).trans hl
  | atOnce hq _ _ =>
    exact .inl (h.unmarked (((marks_serviceCall nl hq).2 _ none rfl).2 _ _) rfl fun _ _ _ hl => hl)
  | cmdVel _ => exact .inl (h.unmarked rfl rfl fun _ _ _ hl => hl)
  | foreign _ => exact .inl (h.unmarked rfl rfl fun _ _ _ hl => hl)
  | @replied msg clk entry hl hcb =>
    refine .inl (h.unmarked ?_ rfl ?_)
    · rw [eventMarks_of_ne (by simp), List.filterMap_append, marks_mismatchLog,
        List.filterMap_cons_none, marks_report]
      · rfl
      · exact if_neg fun hs => hcb (PendingRequest.isStep_iff.mp hs)
    · intro id entry' hcb' hl'
      have hne : id ≠ msg.id := by
        rintro rfl
        rw [hl, Option.some.injEq] at hl'
        exact hcb (hl' ▸ hcb')
      exact (AList.lookup_erase_ne hne).trans hl'
  | @stepAccepted msg clk entry run st hl hcb hrun hst hr hwait =>
    obtain ⟨rounds, st', left, req, h1, hpass, hw, hask, rfl, hreq, hn, hs, hi, hst', hid⟩ :=
      h.awaits_active hp hl hcb hrun
    rw [hst, Option.some.injEq] at hst'
    subst hst'
    have hcode : msg.code = statusOk := of_decide_eq_true hr
    have hacc : Accepts cfg st req (.replied msg.id msg.code) := by
      rw [hid, hcode]
      exact .replied hw
    refine .inl (.delaying rounds st left req _ (run.advanced cfg st msg.result) h1 hpass hask hacc ?_
      rfl hreq hn hs (by simp [SequenceRun.advanced, hi]) rfl)
    rw [eventMarks_of_ne (by simp), List.filterMap_append, marks_mismatchLog]
    simp [SportEvent.mark, PendingRequest.isStep_iff.mpr hcb]
  | @stepFailed msg clk entry run st hl hcb hrun hst hr =>
    obtain ⟨rounds, st', left, req, h1, hpass, hw, hask, rfl, hreq, hn, hs, hi, hst', hid⟩ :=
      h.awaits_active hp hl hcb hrun
    have hcode : msg.code ≠ statusOk := of_decide_eq_false hr
    have hfail : Fails cfg req (.replied msg.id msg.code) := by
      rw [hid]
      exact .replied hw hcode
    refine .inr ⟨false, ⟨rounds, st' :: left, _, h1, hpass, .failed hask hfail, ?_⟩, rfl⟩
    rw [eventMarks_of_ne (by simp), List.filterMap_append, marks_mismatchLog]
    simp [SportEvent.mark, PendingRequest.isStep_iff.mpr hcb, SequenceRun.answer, answered,
      SequenceRun.advanced, SportResponse.service, SportResponse.success, hr, SportEvent.refusal?, hreq]
  | @swept order clk => exact h.swept hp order clk rfl rfl
  | fired harm hrun hadv => exact h.fired hp hf harm hrun hadv

end

/-! ## Every accepted mode request -/

section
variable {nl : Nlohmann} {cfg : SportConfig} {timeoutMs : Int} {s : SportState}
  {tr₁ tr₂ : SportTrace} {st : Step SportState (SportEvent × Clock) SportEmission} {run : SequenceRun}

/-- The event that accepts a preset starts its sequence. -/
theorem Transition.starts (hp : Phase st.pre)
    (hf : ∀ rd, st.pre.client.freshId rd ∉ st.pre.client.pending)
    (ht : Transition nl cfg st.pre st.event st.post st.out)
    (hacc : st.event.1.accepted? cfg st.pre.host = some run) :
    Going nl cfg run.requestId run.name run.steps (marks cfg [st]) st.post ∨
      Ended nl cfg run.requestId run.steps (marks cfg [st]) st.post := by
  obtain ⟨hev, hnone, -, -, -, hi, -, hok⟩ := SportEvent.accepted?_spec hacc
  obtain ⟨pre, ⟨e, clk⟩, out, post⟩ := st
  simp only at hev hacc ht hp hf hnone
  cases ht with
  | @accepted e clk run' s' out hacc' hadv =>
    rw [hacc, Option.some.injEq] at hacc'
    subst hacc'
    have hrefused : e.refusal? cfg pre.host = none := by
      subst hev
      simp only [SportEvent.accepted?] at hacc
      simp only [SportEvent.refusal?]
      repeat' split at hacc
      all_goals simp_all
    have hmode : e.ofMode = true ∧ e ≠ .timer := by
      rw [hev]
      exact ⟨rfl, by simp⟩
    have hgo := hadv.going rfl (hf _) [] run.steps (by simp) (by simp) (by simp [hi]) hok e hmode.1
    have hmarks : marks cfg [(⟨pre, (e, clk), out, post⟩ : Step _ _ _)] =
        ([] : List Round).flatMap Round.marks ++ out.filterMap (e.mark false) := by
      simp [marks, eventMarks_of_ne hmode.2, hrefused]
    rw [hmarks]
    exact hgo
  | refused hr =>
    subst hev
    simp only [SportEvent.accepted?] at hacc
    simp only [SportEvent.refusal?] at hr
    repeat' split at hacc
    all_goals simp_all
  | notSent hq _ _ => rw [hev] at hq; cases hq
  | sent hq _ _ _ => rw [hev] at hq; cases hq
  | atOnce hq _ _ => rw [hev] at hq; cases hq
  | _ => cases hev

/-- From the event that accepts the preset its sequence is going on, or has ended. -/
theorem SportRun.goes (h : SportRun nl cfg timeoutMs (tr₁ ++ st :: tr₂) s)
    (hacc : st.event.1.accepted? cfg st.pre.host = some run) :
    (Sequenced nl cfg run.requestId run.steps (marks cfg (st :: tr₂)) none ∧
        ∃ run', s.host.activeSequence = some run' ∧ run'.requestId = run.requestId ∧
          run'.name = run.name ∧ run'.steps = run.steps) ∨
      ∃ seg last rest success, st :: tr₂ = seg ++ last :: rest ∧
        Sequenced nl cfg run.requestId run.steps (marks cfg (seg ++ [last])) (some success) ∧
        last.post.host.activeSequence = none := by
  obtain ⟨hpre, hst, hrest⟩ := Run.split h
  have hstart := Transition.starts (SportRun.phase hpre) (SportRun.freshId_notMem hpre)
    (sportBridgeStep_transition nl cfg (SportRun.phase hpre) hst) hacc
  have hsnoc : SportRun nl cfg timeoutMs (tr₁ ++ [st]) st.post := Run.snoc_iff.mpr ⟨hpre, hst, rfl⟩
  have key : Going nl cfg run.requestId run.name run.steps (marks cfg (st :: tr₂)) s ∨
      ∃ seg last rest, st :: tr₂ = seg ++ last :: rest ∧
        Ended nl cfg run.requestId run.steps (marks cfg (seg ++ [last])) last.post := by
    refine Run.traceInvariant
      (fun tr s => Going nl cfg run.requestId run.name run.steps (marks cfg (st :: tr)) s ∨
        ∃ seg last rest, st :: tr = seg ++ last :: rest ∧
          Ended nl cfg run.requestId run.steps (marks cfg (seg ++ [last])) last.post) ?_ ?_ hrest
    · exact hstart.imp_right fun hend => ⟨[], st, [], rfl, hend⟩
    · intro tr t e t' out hr ih he
      rcases ih with hgo | ⟨seg, last, rest, heq, hend⟩
      · have hrun : SportRun nl cfg timeoutMs (tr₁ ++ [st] ++ tr) t :=
          Run.append_iff.mpr ⟨_, hsnoc, hr⟩
        have hnext := hgo.step (SportRun.phase hrun) (SportRun.freshId_notMem hrun)
          (sportBridgeStep_transition nl cfg (SportRun.phase hrun) he)
        have hmarks : marks cfg (st :: (tr ++ [⟨t, e, out, t'⟩])) =
            marks cfg (st :: tr) ++ eventMarks cfg t e.1 out := by
          rw [← List.cons_append, marks_append]
          simp [marks]
        rw [← hmarks] at hnext
        exact hnext.imp_right fun hend => ⟨st :: tr, _, [], rfl, hend⟩
      · right
        exact ⟨seg, last, rest ++ [⟨t, e, out, t'⟩], by rw [← List.cons_append, heq]; simp, hend⟩
  rcases key with hgo | ⟨seg, last, rest, heq, success, hseq, hnone⟩
  · exact .inl ⟨hgo.sequenced, hgo.active⟩
  · exact .inr ⟨seg, last, rest, success, heq, hseq, hnone⟩

/-- A request for a preset without steps is answered, and does nothing else. -/
theorem SportRun.noSteps (h : SportRun nl cfg timeoutMs (tr₁ ++ st :: tr₂) s) {r : RequestId}
    {name : String} (hev : st.event.1 = .mode r name) (hl : cfg.presets.lookup name = some []) :
    ∃ text, st.out = [answered r (.mode false text)] ∧ st.post = st.pre := by
  obtain ⟨-, hst, -⟩ := Run.split h
  obtain ⟨text, hr⟩ : ∃ text, (SportEvent.mode r name).refusal? cfg st.pre.host =
      some (r, .mode false text) := SportEvent.refusal?_noSteps hl
  rw [← hev] at hr
  have heq := hst.symm.trans (refused_step hr st.event.2)
  rw [Option.some.injEq, Prod.mk.injEq] at heq
  exact ⟨text, heq.2, heq.1⟩

/-- **A mode request's sequence.**  From the event that accepts the preset to its
answer, or to the end of the run where it is still going on:

* the marks of the mode service are `Sequenced`: its requests, results, timers and
  answer, and nothing of any other mode request;
* the requests are those of the first steps, in order, each with its step's api_id
  and parameter;
* before each request stand whole rounds: every earlier step was requested, its
  own request had a result that is ok, and the timer armed with its wait fired;
* after a failure only the answer follows;
* there are at most as many results and as many firings as steps;
* the answer goes to the request that started the sequence, and says success
  exactly when every step had a result that is ok.

A preset without steps starts no sequence: its request is answered at once, with
success = false, and publishes nothing. -/
theorem mode_sequence (h : SportRun nl cfg timeoutMs (tr₁ ++ st :: tr₂) s) :
    (∀ run, st.event.1.accepted? cfg st.pre.host = some run →
      (st.event.1 = .mode run.requestId run.name ∧ cfg.presets.lookup run.name = some run.steps) ∧
      ((Sequenced nl cfg run.requestId run.steps (marks cfg (st :: tr₂)) none ∧
          ∃ run', s.host.activeSequence = some run' ∧ run'.requestId = run.requestId ∧
            run'.name = run.name ∧ run'.steps = run.steps) ∨
        ∃ seg last rest success, st :: tr₂ = seg ++ last :: rest ∧
          Sequenced nl cfg run.requestId run.steps (marks cfg (seg ++ [last])) (some success) ∧
          last.post.host.activeSequence = none) ∧
      (∀ m ending, Sequenced nl cfg run.requestId run.steps m ending →
        List.Forall₂ (Asks nl) (run.steps.take (requests m).length) (requests m) ∧
        (∀ m₁ req m₂, m = m₁ ++ .published req :: m₂ →
          ∃ rounds : List Round, (∀ q ∈ rounds, q.Passes nl cfg) ∧
            rounds.map (·.step) <+: run.steps ∧ m₁ = rounds.flatMap Round.marks) ∧
        (m.Pairwise fun x y => x.failure = true → y = .answered run.requestId false) ∧
        m.countP Mark.result ≤ run.steps.length ∧ m.count .fired ≤ run.steps.length ∧
        ∀ success, ending = some success → m.getLast? = some (.answered run.requestId success) ∧
          (success = true ↔ m.countP Mark.ok = run.steps.length))) ∧
    ∀ r name, st.event.1 = .mode r name → cfg.presets.lookup name = some [] →
      ∃ text, st.out = [answered r (.mode false text)] ∧ st.post = st.pre := by
  refine ⟨?_, fun r name hev hl => h.noSteps hev hl⟩
  intro run hacc
  obtain ⟨hev, -, hlookup, -⟩ := SportEvent.accepted?_spec hacc
  refine ⟨⟨hev, hlookup⟩, h.goes hacc, ?_⟩
  intro m ending hm
  exact ⟨hm.asks, fun _ _ _ => hm.before_request, hm.after_failure, hm.counts⟩

end

/-- Both steps of the preset accepted, with another service's request in between. -/
def standDownDampAccepted : SportTrace × SportState :=
  execute (sportBridgeStep .small (.ofParameters initPresets true defaultBlockedModes)) (.start 2000)
    [(.mode ⟨[], 1⟩ "stand_down_damp", .at 5 0), (.response ⟨5, 1005, 0, ""⟩, .at 0 0),
      (.speedLevel ⟨[], 2⟩ 1, .at 5 0), (.timer, .at 9 0), (.response ⟨9, 1001, 0, ""⟩, .at 0 0),
      (.timer, .at 9 0)]

example : marks (.ofParameters initPresets true defaultBlockedModes) standDownDampAccepted.1 =
    [.published ⟨5, 1005, false, "\x7b\x7d"⟩, .replied 5 0, .armed 2000, .fired,
      .published ⟨9, 1001, false, "\x7b\x7d"⟩, .replied 9 0, .armed 0, .fired,
      .answered ⟨[], 1⟩ true] := by decide

theorem mode_sequence_standDownDamp :
    ∃ (st : _) (tr₂ : SportTrace) (run : SequenceRun), standDownDampAccepted.1 = [] ++ st :: tr₂ ∧ tr₂.length = 5 ∧
      ∃ seg last rest success, st :: tr₂ = seg ++ last :: rest ∧
        Sequenced .small (.ofParameters initPresets true defaultBlockedModes) run.requestId run.steps
          (marks (.ofParameters initPresets true defaultBlockedModes) (seg ++ [last])) (some success) ∧
        last.post.host.activeSequence = none := by
  have hrun : SportRun .small (.ofParameters initPresets true defaultBlockedModes) 2000
      ([] ++ standDownDampAccepted.1) standDownDampAccepted.2 := Run.execute _ _ _
  refine ⟨_, _, ⟨"stand_down_damp", [SportApiId.step .standDown emptyJson 2000, SportApiId.step .damp], 0,
    ⟨[], 1⟩, "", true⟩, rfl, rfl, ?_⟩
  rcases ((mode_sequence hrun).1 _ rfl).2.1 with ⟨-, _, hactive, -⟩ | hend
  · cases hactive
  · exact hend

/-- A preset without steps. -/
example : (execute (sportBridgeStep .small (.ofParameters [("rest", [])] true [])) (.start 2000)
    [(.mode ⟨[], 1⟩ "rest", .at 5 0)]).1.map (·.out) =
      [[answered ⟨[], 1⟩ (.mode false "mode rest: the preset has no steps")]] := by decide

end Go2
