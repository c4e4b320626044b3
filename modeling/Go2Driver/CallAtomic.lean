import Go2Driver.AnyExit
import Go2Driver.Truthful

/-!
# A call is all or nothing, where its parameter can be written

`call` registers the entry before it serialises the parameter.  So where the parameter
cannot be written, the entry stays behind an exception and no request is out for it; with
room in the table that is the one case in which `call` does half of its work
(`call_all_or_nothing`).

The JSON library refuses exactly the strings that are not UTF-8 (`Nlohmann.Strict`).  The
one string of a caller that goes into a parameter is the name of `service_switch`, so in
the runs of the robot state bridge, with exceptions survived, every pending entry stands
for a request exactly where each name that is called with is UTF-8.
-/

namespace Go2

open Tables Runs RobotStateBridge

/-! ## Strings that can be written -/

/-- The bytes of a `std::string`. -/
def bytesOf (s : String) : ByteArray := ⟨(s.toList.map fun c => c.toNat.toUInt8).toArray⟩

def validUtf8 (s : String) : Bool := decide (bytesOf s).IsValidUTF8

mutual

/-- Every string in it, key or value, is UTF-8. -/
def Json.utf8 : Json → Bool
  | .string s => validUtf8 s
  | .array items => utf8Items items
  | .object members => utf8Members members
  | .null | .boolean _ | .integer _ | .float _ => true

def utf8Items : List Json → Bool
  | [] => true
  | js :: rest => js.utf8 && utf8Items rest

def utf8Members : List (String × Json) → Bool
  | [] => true
  | (key, js) :: rest => validUtf8 key && js.utf8 && utf8Members rest

end

/-- `dump()` with the strict handler throws on a string that is not UTF-8, and on nothing else. -/
def Nlohmann.Strict (nl : Nlohmann) : Prop := ∀ js, (nl.dump js).isSome = true ↔ js.utf8 = true

theorem utf8_switchJson (name : String) (enable : Bool) :
    (switchJson name enable).utf8 = validUtf8 name := by
  have hname : validUtf8 "name" = true := by decide
  have hswitch : validUtf8 "switch" = true := by decide
  show (validUtf8 "name" && validUtf8 name && (validUtf8 "switch" && true && true)) = validUtf8 name
  rw [hname, hswitch]
  simp

theorem utf8_reportFreqJson (interval duration : Int) :
    (reportFreqJson interval duration).utf8 = true := by
  show (validUtf8 "duration" && true && (validUtf8 "interval" && true && true)) = true
  decide

/-! ## One call -/

section
variable {κ θ ω : Type}

/-- One request and, under its id, one entry more; or neither. -/
def AllOrNothing (n n' : Node κ θ ω) : Prop :=
  ∃ new, n'.out = n.out ++ new ∧
    ((∃ id entry, publishedIds new = [id] ∧
        n'.client.pending.entries.Perm (⟨id, entry⟩ :: n.client.pending.entries)) ∨
      publishedIds new = [] ∧ n'.client.pending = n.client.pending)

/-- A node that let out `new` and did not touch its table did nothing, if that holds no request. -/
theorem allOrNothing_same_iff {n n' : Node κ θ ω} {new : List (Out κ ω)} (hout : n'.out = n.out ++ new)
    (hp : n'.client.pending = n.client.pending) : AllOrNothing n n' ↔ publishedIds new = [] := by
  constructor
  · rintro ⟨new', hout', hcase⟩
    obtain rfl := List.append_cancel_left (hout.symm.trans hout')
    rcases hcase with ⟨id, entry, -, hperm⟩ | ⟨hnone, -⟩
    · have hlen := hperm.length_eq
      rw [hp, List.length_cons] at hlen
      omega
    · exact hnone
  · intro hnone
    exact ⟨new, hout, .inr ⟨hnone, hp⟩⟩

/-- One entry more, and no request: half a call. -/
theorem not_allOrNothing_of_added {n n' : Node κ θ ω} {e : PendingEntry κ} (hout : n'.out = n.out)
    (hp : n'.client.pending.entries = e :: n.client.pending.entries) : ¬ AllOrNothing n n' := by
  rintro ⟨new, hnew, hcase⟩
  rw [hout, List.self_eq_append_right] at hnew
  rw [hnew] at hcase
  rcases hcase with ⟨id, entry, hone, -⟩ | ⟨-, hsame⟩
  · cases hone
  · have hlen := congrArg (fun t => t.entries.length) hsame
    simp only [hp, List.length_cons] at hlen
    omega

theorem afterCall_pending_of_mem {c : UnitreeApiClient κ} {r : Reading} (h : c.freshId r ∈ c.pending)
    (apiId : Int) (onResponse : κ) : (c.afterCall r apiId onResponse).pending = c.pending :=
  if_pos h

/-- For every client state: with room in the table a call is all or nothing where its
parameter can be written and the fresh id is no key, or neither. -/
theorem Node.call_allOrNothing_iff (nl : Nlohmann) (apiId : Int) (parameter : Json) (onResponse : κ)
    (n : Node κ θ ω) : AllOrNothing n (n.call nl apiId parameter onResponse).1 ↔
      n.client.full ∨
        ((nl.dump parameter).isSome = true ↔ n.client.freshId (n.clock 0) ∉ n.client.pending) := by
  by_cases hf : n.client.full
  · rw [Node.call_full nl hf]
    have hout : (n.log .error (n.client.dropText apiId)).out =
        n.out ++ [.log .error (n.client.dropText apiId)] := rfl
    exact iff_of_true ((allOrNothing_same_iff hout rfl).mpr rfl) (.inl hf)
  · rw [Node.call_eq nl hf, or_iff_right hf]
    by_cases hm : n.client.freshId (n.clock 0) ∈ n.client.pending
    · have hsame := afterCall_pending_of_mem hm apiId onResponse
      cases nl.dump parameter with
      | none =>
        have hout : (n.callThrew apiId onResponse).out = n.out ++ [] := (List.append_nil _).symm
        refine iff_of_true ((allOrNothing_same_iff hout hsame).mpr rfl) ?_
        simp [hm]
      | some text =>
        rw [allOrNothing_same_iff rfl hsame]
        simp [hm, publishedIds]
    · have hent := entries_emplace (v := n.client.newEntry (n.clock 0) apiId onResponse) hm
      cases nl.dump parameter with
      | none =>
        refine iff_of_false (not_allOrNothing_of_added rfl hent) ?_
        simp [hm]
      | some text =>
        refine iff_of_true ?_ (by simp [hm])
        exact ⟨_, rfl, .inl ⟨_, n.client.newEntry (n.clock 0) apiId onResponse, rfl, List.Perm.of_eq hent⟩⟩

/-- Where the ids in the table were all given out, the parameter decides. -/
theorem Node.call_allOrNothing_of_issued {n : Node κ θ ω} (h : n.client.Issued) (nl : Nlohmann)
    (apiId : Int) (parameter : Json) (onResponse : κ) :
    AllOrNothing n (n.call nl apiId parameter onResponse).1 ↔
      n.client.full ∨ (nl.dump parameter).isSome = true := by
  rw [Node.call_allOrNothing_iff]
  have hfresh := h.freshId_notMem (n.clock 0)
  simp [hfresh]

end

/-! ## Events of the robot state bridge -/

section
variable {nl : Nlohmann} {s : RobotState} {clk : Clock}

def robotSurvivedStep (nl : Nlohmann) (s : RobotState) (e : RobotEvent × Clock) :
    Option (RobotState × List RobotEmission) :=
  survivedStep nl (RobotCallback.body nl) s (e.1.toNode, e.2)

/-- The name that the event hands to `call`, if it does, is UTF-8. -/
def NameWritten (s : RobotState) : RobotEvent → Prop
  | .serviceSwitch _ name _ => s.client.full ∨ validUtf8 name = true
  | _ => True

/-- Every pending entry is a call of the history `L`, so a request was published for it. -/
def Backed (L : List RobotEmission) (s : RobotState) : Prop :=
  ∀ e ∈ s.client.pending.entries, e ∈ calls L

/-- A request that waits for a reply, from every state. -/
theorem exec_robot_deferred (apiId : Int) (parameter : Json) (cb : RobotCallback) (r : RequestId)
    (refused : RobotResponse) (n : Node RobotCallback Unit RobotOut) :
    exec nl (deferred apiId parameter cb r refused) n =
      if n.client.full then
        ((n.log .error (n.client.dropText apiId)).emit (.host (.answer r refused)), .ok ())
      else match nl.dump parameter with
        | some text => (n.called apiId text cb, .ok ())
        | none => (n.callThrew apiId cb, .error .typeError) := by
  unfold deferred
  rw [exec_bind, exec_call]
  by_cases hf : n.client.full
  · rw [Node.call_full nl hf, if_pos hf]
    rfl
  · rw [Node.call_eq nl hf, if_neg hf]
    cases nl.dump parameter <;> rfl

/-- Where its name is written, an event completes. -/
theorem robot_perform_returns (hs : nl.Strict) {e : RobotEvent} (hw : NameWritten s e) (clk : Clock) :
    (State.perform nl (RobotCallback.body nl) s (e.toNode, clk)).2 = .ok () := by
  have hdump : ∀ js, js.utf8 = true → ∃ text, nl.dump js = some text :=
    fun js hjs => Option.isSome_iff_exists.mp ((hs js).mpr hjs)
  cases e with
  | serviceSwitch r name enable =>
    simp only [State.perform, RobotEvent.toNode, Node.perform, handleServiceSwitch, exec_robot_deferred]
    by_cases hf : s.client.full
    · rw [if_pos hf]
    · obtain ⟨text, hd⟩ := hdump (switchJson name enable)
        ((utf8_switchJson name enable).trans (hw.resolve_left hf))
      rw [if_neg hf, hd]
  | setReportFreq r interval duration =>
    obtain ⟨text, hd⟩ := hdump _ (utf8_reportFreqJson interval duration)
    simp only [State.perform, RobotEvent.toNode, Node.perform, handleSetReportFreq, exec_bind, exec_send,
      Node.send_eq, hd]
    rfl
  | serviceList r =>
    simp only [State.perform, RobotEvent.toNode, Node.perform, handleServiceList, exec_robot_deferred]
    by_cases hf : s.client.full
    · rw [if_pos hf]
    · obtain ⟨text, hd⟩ := hdump emptyJson rfl
      rw [if_neg hf, hd]
  | response msg =>
    simp only [State.perform, RobotEvent.toNode, Node.perform]
    cases hl : s.client.pending.lookup msg.id with
    | none => rw [Node.responseCallback_none nl (RobotCallback.body nl) hl]
    | some entry => rw [Node.responseCallback_some nl (RobotCallback.body nl) hl, RobotCallback.reports]
  | sweep order =>
    simp only [State.perform, RobotEvent.toNode, Node.perform, Node.sweepTimeouts_eq]
    split
    · rfl
    · apply invokeAll_returns
      intro e _ n
      rw [RobotCallback.reports]

/-- Otherwise it leaves the entry of a request that is not out. -/
theorem robot_perform_threw (hs : nl.Strict) {r : RequestId} {name : String} {enable : Bool}
    (hf : ¬ s.client.full) (hname : ¬ validUtf8 name = true) :
    robotSurvivedStep nl s (.serviceSwitch r name enable, clk) =
      some (⟨s.client.afterCall (clk 0) RobotStateApiId.serviceSwitch.code (.serviceSwitch r), s.host⟩,
        []) := by
  have hd : nl.dump (switchJson name enable) = none := by
    rw [← utf8_switchJson name enable, ← hs] at hname
    simpa using hname
  simp only [robotSurvivedStep, survivedStep, State.perform, RobotEvent.toNode, Node.perform,
    handleServiceSwitch, exec_robot_deferred, if_neg hf, hd]
  rfl

def RobotSurvivedRun (nl : Nlohmann) (timeoutMs : Int) (tr : RobotTrace (RobotEvent × Clock))
    (s : RobotState) : Prop :=
  Run (robotSurvivedStep nl) (State.start timeoutMs ()) tr s

/-- An event whose name is written is one that completes. -/
theorem robotSurvivedStep_completed (hs : nl.Strict) {e : RobotEvent × Clock} {s' : RobotState}
    {out : List RobotEmission} (hw : NameWritten s e.1)
    (h : robotSurvivedStep nl s e = some (s', out)) :
    nodeStep nl (RobotCallback.body nl) s (e.1.toNode, e.2) = some (s', out) := by
  have hret := robot_perform_returns hs hw e.2
  unfold robotSurvivedStep survivedStep at h
  cases h
  exact (nodeStep_eq_some nl _).mpr ⟨_, Prod.ext rfl hret, rfl, rfl⟩

variable {timeoutMs : Int} {tr : RobotTrace (RobotEvent × Clock)}

theorem RobotSurvivedRun.ledger (hs : nl.Strict) (h : RobotSurvivedRun nl timeoutMs tr s)
    (hw : ∀ st ∈ tr, NameWritten st.pre st.event.1) : Ledger (history tr) [] s.client := by
  refine Run.historyInvariant (fun L s => Ledger L [] s.client) (fun s e => NameWritten s e.1)
    (Ledger.start timeoutMs) ?_ h hw
  intro L s e s' out hL hname hstep
  exact Ledger.step nl (RobotCallback.body nl) hL (robotSurvivedStep_completed hs hname hstep)

/-- The last event of a run wrote its name, if the run up to it did and its entries are backed. -/
theorem NameWritten.of_backed (hs : nl.Strict) {L : List RobotEmission} (hL : Ledger L [] s.client)
    {e : RobotEvent × Clock} {s' : RobotState} {out : List RobotEmission}
    (h : robotSurvivedStep nl s e = some (s', out)) (hb : Backed (L ++ out) s') : NameWritten s e.1 := by
  obtain ⟨e, clk⟩ := e
  cases e with
  | serviceSwitch r name enable =>
    by_cases hf : s.client.full
    · exact .inl hf
    · by_cases hname : validUtf8 name = true
      · exact .inr hname
      · exfalso
        rw [robot_perform_threw hs hf hname] at h
        cases h
        -- the new entry's id is later than any that was published
        have hm := hb ⟨s.client.freshId (clk 0), s.client.newEntry (clk 0)
            RobotStateApiId.serviceSwitch.code (.serviceSwitch r)⟩ (by
          rw [hL.issued.entries_afterCall]
          exact List.mem_cons_self)
        rw [List.append_nil] at hm
        have hle := hL.id_le hm
        have hlt := s.client.lastId_lt_freshId (clk 0)
        simp only at hle
        omega
  | _ => trivial

theorem RobotSurvivedRun.names_written (hs : nl.Strict) (h : RobotSurvivedRun nl timeoutMs tr s)
    (hb : ∀ tr₁ tr₂ t, tr = tr₁ ++ tr₂ → RobotSurvivedRun nl timeoutMs tr₁ t →
      Backed (history tr₁) t) : ∀ st ∈ tr, NameWritten st.pre st.event.1 := by
  unfold RobotSurvivedRun at h
  induction h with
  | nil =>
    intro st hst
    cases hst
  | @snoc tr s s' e out hr he ih =>
    have hpre : ∀ st ∈ tr, NameWritten st.pre st.event.1 := by
      apply ih
      intro tr₁ tr₂ t htr h₁
      exact hb tr₁ (tr₂ ++ [⟨s, e, out, s'⟩]) t (by rw [htr, List.append_assoc]) h₁
    have hL := RobotSurvivedRun.ledger hs hr hpre
    have hback := hb _ [] s' (List.append_nil _).symm (.snoc hr he)
    rw [history_snoc] at hback
    intro st hst
    rcases List.mem_append.mp hst with hst | hst
    · exact hpre st hst
    · rw [List.mem_singleton.mp hst]
      exact NameWritten.of_backed hs hL he hback

end

/-- **When a call is all or nothing.**  From every state of a client, however `call`
exits, it publishes one request and registers one entry under its id, or neither, exactly
if the table is full, or the parameter can be written and the fresh id is no key (or
neither of the two).  In every state that a run reaches, with exceptions survived, a fresh
id is no key, so there it is the parameter alone.  In such a run of the robot state bridge
every pending entry of every state stands for a published request exactly if each name
that `service_switch` is called with, while the table has room, is UTF-8. -/
theorem call_all_or_nothing {κ θ ω : Type} (nl : Nlohmann) (body : κ → ApiResult → Prog κ θ ω Unit)
    (timeoutMs : Int) (host₀ : θ) :
    (∀ (n : Node κ θ ω) apiId parameter onResponse,
      (AllOrNothing n (n.call nl apiId parameter onResponse).1 ↔ n.client.full ∨
        ((nl.dump parameter).isSome = true ↔ n.client.freshId (n.clock 0) ∉ n.client.pending))) ∧
    (∀ tr s, Run (survivedStep nl body) (State.start timeoutMs host₀) tr s →
      ∀ (n : Node κ θ ω) apiId parameter onResponse, n.toState = s →
        (AllOrNothing n (n.call nl apiId parameter onResponse).1 ↔
          n.client.full ∨ (nl.dump parameter).isSome = true)) ∧
    (nl.Strict → ∀ tr s, RobotSurvivedRun nl timeoutMs tr s →
      ((∀ tr₁ tr₂ t, tr = tr₁ ++ tr₂ → RobotSurvivedRun nl timeoutMs tr₁ t →
          Backed (history tr₁) t) ↔
        ∀ st ∈ tr, NameWritten st.pre st.event.1)) := by
  refine ⟨?_, ?_, ?_⟩
  · intro n apiId parameter onResponse
    exact Node.call_allOrNothing_iff nl apiId parameter onResponse n
  · rintro tr s h n apiId parameter onResponse rfl
    exact Node.call_allOrNothing_of_issued (survived_issued h) nl apiId parameter onResponse
  · intro hs tr s h
    constructor
    · exact h.names_written hs
    · intro hw tr₁ tr₂ t htr h₁ e he
      have hL := h₁.ledger hs fun st hst => hw st (htr ▸ List.mem_append_left _ hst)
      exact hL.call_of_pending he

mutual

/-- Compact text, for strings that need no escape. -/
def Json.text : Json → String
  | .null => "null"
  | .boolean b => if b then "true" else "false"
  | .integer n => toString n
  | .float (.finite q) => toString q
  | .float _ => "null"
  | .string s => "\"" ++ s ++ "\""
  | .array items => "[" ++ ",".intercalate (itemTexts items) ++ "]"
  | .object members => "\x7b" ++ ",".intercalate (memberTexts members) ++ "\x7d"

def itemTexts : List Json → List String
  | [] => []
  | js :: rest => js.text :: itemTexts rest

def memberTexts : List (String × Json) → List String
  | [] => []
  | (key, js) :: rest => ("\"" ++ key ++ "\":" ++ js.text) :: memberTexts rest

end

def Nlohmann.strict : Nlohmann where
  dump js := if js.utf8 then some js.text else none
  parse := Nlohmann.small.parse

theorem Nlohmann.strict_strict : Nlohmann.strict.Strict := by
  intro js
  simp only [Nlohmann.strict]
  split
  · next h => simp [h]
  · next h => simp [h]

/-- A switch of a service whose name is `name`, on a new node. -/
def oneSwitch (name : String) : RobotTrace (RobotEvent × Clock) × RobotState :=
  execute (robotSurvivedStep .strict) (.start 5000 ()) [(.serviceSwitch ⟨[], 1⟩ name true, .at 5 0)]

theorem call_all_or_nothing_oneSwitch :
    RobotSurvivedRun .strict 5000 (oneSwitch "mcf").1 (oneSwitch "mcf").2 ∧
      (oneSwitch "mcf").2.client.pending.keys = [5] ∧
      Backed (history (oneSwitch "mcf").1) (oneSwitch "mcf").2 := by
  have hrun : RobotSurvivedRun .strict 5000 (oneSwitch "mcf").1 (oneSwitch "mcf").2 :=
    Run.execute _ _ _
  refine ⟨hrun, by decide, ?_⟩
  refine ((call_all_or_nothing .strict (RobotCallback.body .strict) 5000 ()).2.2
    Nlohmann.strict_strict _ _ hrun).mpr ?_ _ [] _ (List.append_nil _).symm hrun
  intro st hst
  rw [List.mem_singleton.mp hst]
  exact .inr (by decide)

/-- The name is one byte, which is not UTF-8. -/
theorem unwritten_name_pending :
    ¬ AllOrNothing (⟨.start 5000 (), .at 5 0, []⟩ : Node RobotCallback Unit RobotOut)
      (Node.call .strict RobotStateApiId.serviceSwitch.code (switchJson "\xff" true)
        (.serviceSwitch ⟨[], 1⟩) ⟨.start 5000 (), .at 5 0, []⟩).1 ∧
    RobotSurvivedRun .strict 5000 (oneSwitch "\xff").1 (oneSwitch "\xff").2 ∧
    (oneSwitch "\xff").2.client.pending.keys = [5] ∧ history (oneSwitch "\xff").1 = [] ∧
    ¬ Backed (history (oneSwitch "\xff").1) (oneSwitch "\xff").2 := by
  refine ⟨?_, Run.execute _ _ _, by decide, by decide, ?_⟩
  · rw [Node.call_allOrNothing_of_issued]
    · decide
    · intro e he
      cases he
  · intro hb
    cases hb ⟨5, ⟨1001, 5000000000, .serviceSwitch ⟨[], 1⟩⟩⟩ (List.mem_of_getElem? (i := 0) rfl)

end Go2
