import Go2Driver.Deferred

/-!
# `Go2RobotStateBridge`

Starts, stops and lists the services inside the robot.  `service_switch` and
`service_list` send one request and answer from its reply; `set_report_freq`,
which the robot does not reply to, answers at once.  The node has no fields of its
own beside the client, so its host state is `Unit`.

* `readStatus`, `readList`: what the two services take out of a reply; they never
  throw (`readStatus_eq`, `readList_eq`).
* `robotStateBridgeStep`: the completed events.
* `RobotCallback.answers`: a callback only answers.
* `robotStep_call`: a request is refused or published.
-/

namespace Go2

open Tables Runs

inductive RobotStateApiId
  | serviceSwitch | setReportFreq | serviceList
deriving DecidableEq, Repr

def RobotStateApiId.code : RobotStateApiId → Int
  | serviceSwitch => 1001
  | setReportFreq => 1002
  | serviceList => 1003

/-- `go2_interfaces::msg::ServiceState`. -/
structure ServiceState where
  name : String
  status : Int
  protect : Int
  version : String
deriving DecidableEq, Repr

inductive RobotService
  | serviceSwitch | setReportFreq | serviceList
deriving DecidableEq, Repr

/-- The `Response` of each service. -/
inductive RobotResponse
  | serviceSwitch (success : Bool) (message : String) (status : Int)
  | setReportFreq (success : Bool) (message : String)
  | serviceList (success : Bool) (message : String) (services : List ServiceState)
deriving DecidableEq, Repr

namespace RobotResponse

def service : RobotResponse → RobotService
  | serviceSwitch .. => .serviceSwitch
  | setReportFreq .. => .setReportFreq
  | serviceList .. => .serviceList

def success : RobotResponse → Bool
  | serviceSwitch s _ _ | setReportFreq s _ | serviceList s _ _ => s

def message : RobotResponse → String
  | serviceSwitch _ m _ | setReportFreq _ m | serviceList _ m _ => m

end RobotResponse

/-- What the bridge lets out by itself: `send_response`. -/
inductive RobotOut
  | answer (request : RequestId) (response : RobotResponse)
deriving DecidableEq, Repr

/-- The lambdas handed to `call`, with the request id each captures. -/
inductive RobotCallback
  | serviceSwitch (request : RequestId)
  | serviceList (request : RequestId)
deriving DecidableEq, Repr

abbrev RobotProg := Prog RobotCallback Unit RobotOut
abbrev RobotState := State RobotCallback Unit
abbrev RobotEmission := Out RobotCallback RobotOut
abbrev RobotTrace (ε : Type) := List (Step RobotState ε RobotEmission)

namespace RobotStateBridge

variable (nl : Nlohmann)

def describe (apiId : Int) (result : ApiResult) : String :=
  let text := "api_id=" ++ toString apiId
  if result.ok then text ++ " accepted"
  else if result.statusCode < 0 then text ++ " got no reply"
  else text ++ " rejected with status " ++ toString result.statusCode

def answer (request : RequestId) (response : RobotResponse) : RobotProg Unit :=
  .emit (.answer request response)

/-! ## Readers -/

/-- `entry.contains(key) && entry[key].is_...() ? entry[key].get<...>() : otherwise`. -/
def field {α : Type} (is : Json → Bool) (get : Json → Except Fault α) (otherwise : α) (key : String)
    (entry : Json) : Except Fault α := do
  if entry.contains key then
    let value ← entry.member key
    if is value then get value else return otherwise
  else return otherwise

def stringField (otherwise : String) : String → Json → Except Fault String :=
  field Json.isString Json.getString otherwise

def intField (otherwise : Int) : String → Json → Except Fault Int :=
  field Json.isNumberInteger Json.getInt32 otherwise

/-- One entry of the robot's list, where it is an object. -/
def readService (entry : Json) : Except Fault ServiceState := do
  return {
    name := ← stringField "" "name" entry
    -- 0 would read as "running"
    status := ← intField (-1) "status" entry
    protect := ← intField 0 "protect" entry
    version := ← stringField "" "version" entry }

/-- The loop over the entries. -/
def readServices : List Json → Except Fault (List ServiceState)
  | [] => .ok []
  | entry :: rest =>
    if !entry.isObject then readServices rest
    else do return (← readService entry) :: (← readServices rest)

/-- The status of a `service_switch` reply, where it carries one. -/
def readStatus (data : String) : Except Fault (Option Int) :=
  match nl.parse data with
  | none => .ok none
  | some parsed =>
    if !parsed.contains "status" then .ok none
    else do
      let value ← parsed.member "status"
      if !value.isNumberInteger then .ok none
      else do return some (← value.getInt32)

/-- The services of a `service_list` reply, where it is an array. -/
def readList (data : String) : Except Fault (Option (List ServiceState)) :=
  match nl.parse data with
  | none => .ok none
  | some parsed =>
    match parsed with
    | .array items => do return some (← readServices items)
    | _ => .ok none

/-! ## The callbacks -/

def onServiceSwitchResult (request : RequestId) (result : ApiResult) : RobotProg Unit := do
  let text := describe RobotStateApiId.serviceSwitch.code result
  if result.ok then
    match ← Prog.ofExcept (readStatus nl result.data) with
    | none =>
      answer request (.serviceSwitch false ("could not read a status out of the reply: " ++ result.data) 0)
    | some status => answer request (.serviceSwitch true text status)
  else answer request (.serviceSwitch false text 0)

def onServiceListResult (request : RequestId) (result : ApiResult) : RobotProg Unit := do
  let text := describe RobotStateApiId.serviceList.code result
  if result.ok then
    match ← Prog.ofExcept (readList nl result.data) with
    | none =>
      answer request
        (.serviceList false ("could not read a service list out of the reply: " ++ result.data) [])
    | some services => answer request (.serviceList true text services)
  else answer request (.serviceList false text [])

end RobotStateBridge

open RobotStateBridge in
def RobotCallback.body (nl : Nlohmann) : RobotCallback → ApiResult → RobotProg Unit
  | .serviceSwitch request => onServiceSwitchResult nl request
  | .serviceList request => onServiceListResult nl request

namespace RobotStateBridge

/-! ## The services -/

/-- A request whose answer comes from its callback, or from `refused` when it could not be sent. -/
def deferred (apiId : Int) (parameter : Json) (onResponse : RobotCallback) (request : RequestId)
    (refused : RobotResponse) : RobotProg Unit := do
  let sent ← Prog.call apiId parameter onResponse
  if !sent then answer request refused

/-- The firmware spells the key "switch" and wants an int. -/
def switchJson (name : String) (enable : Bool) : Json :=
  (Json.null.set "name" (.string name)).set "switch" (.integer (if enable then 1 else 0))

def handleServiceSwitch (request : RequestId) (name : String) (enable : Bool) : RobotProg Unit :=
  deferred RobotStateApiId.serviceSwitch.code (switchJson name enable) (.serviceSwitch request) request
    (.serviceSwitch false (couldNotBeSent RobotStateApiId.serviceSwitch.code) 0)

def reportFreqJson (interval duration : Int) : Json :=
  (Json.null.set "interval" (.integer interval)).set "duration" (.integer duration)

def handleSetReportFreq (request : RequestId) (interval duration : Int) : RobotProg Unit := do
  Prog.send RobotStateApiId.setReportFreq.code (reportFreqJson interval duration) true
  answer request (.setReportFreq true ("api_id=" ++ toString RobotStateApiId.setReportFreq.code ++
    " published; the robot sends no reply to it"))

def handleServiceList (request : RequestId) : RobotProg Unit :=
  deferred RobotStateApiId.serviceList.code emptyJson (.serviceList request) request
    (.serviceList false (couldNotBeSent RobotStateApiId.serviceList.code) [])

end RobotStateBridge

/-! ## Events -/

open RobotStateBridge

inductive RobotEvent
  | serviceSwitch (request : RequestId) (name : String) (enable : Bool)
  | setReportFreq (request : RequestId) (interval duration : Int)
  | serviceList (request : RequestId)
  | response (msg : Response)
  | sweep (order : IterationOrder (PendingEntry RobotCallback))

def RobotEvent.toNode : RobotEvent → NodeEvent RobotCallback Unit RobotOut
  | .serviceSwitch request name enable => .handler (handleServiceSwitch request name enable)
  | .setReportFreq request interval duration => .handler (handleSetReportFreq request interval duration)
  | .serviceList request => .handler (handleServiceList request)
  | .response msg => .response msg
  | .sweep order => .sweep order

def robotStateBridgeStep (nl : Nlohmann) (s : RobotState) (e : RobotEvent × Clock) :
    Option (RobotState × List RobotEmission) :=
  nodeStep nl (RobotCallback.body nl) s (e.1.toNode, e.2)

/-! ## What the readers take -/

section
variable (nl : Nlohmann)

def stringAt (otherwise key : String) (entry : Json) : String :=
  match entry.member? key with
  | some (.string s) => s
  | _ => otherwise

def intAt (otherwise : Int) (key : String) (entry : Json) : Int :=
  match entry.member? key with
  | some (.integer n) => Json.toInt32 n
  | _ => otherwise

def serviceAt (entry : Json) : ServiceState :=
  ⟨stringAt "" "name" entry, intAt (-1) "status" entry, intAt 0 "protect" entry,
    stringAt "" "version" entry⟩

/-- The status in a reply of the form `{"status": <int>, ...}`. -/
def statusIn (data : String) : Option Int :=
  match nl.parse data with
  | some parsed =>
    match parsed.member? "status" with
    | some (.integer n) => some (Json.toInt32 n)
    | _ => none
  | none => none

/-- The services in a reply that is an array: one for each entry that is an object. -/
def servicesIn (data : String) : Option (List ServiceState) :=
  match nl.parse data with
  | some (.array items) => some ((items.filter Json.isObject).map serviceAt)
  | _ => none

theorem field_eq {α : Type} (is : Json → Bool) (get : Json → Except Fault α) (otherwise : α)
    (key : String) (entry : Json) :
    field is get otherwise key entry =
      match entry.member? key with
      | some v => if is v then get v else .ok otherwise
      | none => .ok otherwise := by
  unfold field
  cases hm : entry.member? key with
  | none =>
    have hc : ¬ entry.contains key = true := fun h => by
      obtain ⟨v, hv⟩ := (Json.contains_iff key entry).mp h
      rw [hm] at hv
      cases hv
    rw [if_neg hc]
    rfl
  | some v =>
    rw [if_pos ((Json.contains_iff key entry).mpr ⟨v, hm⟩), Json.member_eq hm]
    rfl

theorem stringField_eq (otherwise key : String) (entry : Json) :
    stringField otherwise key entry = .ok (stringAt otherwise key entry) := by
  rw [stringField, field_eq, stringAt]
  cases entry.member? key with
  | none => rfl
  | some v => cases v <;> rfl

theorem intField_eq (otherwise : Int) (key : String) (entry : Json) :
    intField otherwise key entry = .ok (intAt otherwise key entry) := by
  rw [intField, field_eq, intAt]
  cases entry.member? key with
  | none => rfl
  | some v => cases v <;> rfl

theorem readServices_eq (items : List Json) :
    readServices items = .ok ((items.filter Json.isObject).map serviceAt) := by
  induction items with
  | nil => rfl
  | cons entry rest ih =>
    unfold readServices
    cases ho : entry.isObject with
    | false =>
      rw [List.filter_cons_of_neg (by simp [ho])]
      exact ih
    | true =>
      rw [List.filter_cons_of_pos ho, List.map_cons, ih, readService, stringField_eq, intField_eq,
        intField_eq, stringField_eq]
      rfl

/-- The status is asked for before it is taken, so the reader never throws. -/
theorem readStatus_eq (data : String) : readStatus nl data = .ok (statusIn nl data) := by
  unfold readStatus statusIn
  cases nl.parse data with
  | none => rfl
  | some parsed =>
    simp only
    cases hm : parsed.member? "status" with
    | none =>
      have hc : parsed.contains "status" = false := by
        rw [Bool.eq_false_iff]
        intro h
        obtain ⟨v, hv⟩ := (Json.contains_iff _ _).mp h
        rw [hm] at hv
        cases hv
      rw [hc]
      rfl
    | some v =>
      rw [(Json.contains_iff _ _).mpr ⟨v, hm⟩, Json.member_eq hm]
      cases v <;> rfl

theorem readList_eq (data : String) : readList nl data = .ok (servicesIn nl data) := by
  unfold readList servicesIn
  cases nl.parse data with
  | none => rfl
  | some parsed =>
    cases parsed with
    | array items =>
      simp only [readServices_eq]
      rfl
    | _ => rfl

/-- The answer of each callback to a result. -/
def RobotCallback.respond : RobotCallback → ApiResult → RobotResponse
  | .serviceSwitch _, result =>
    if result.ok then
      match statusIn nl result.data with
      | none => .serviceSwitch false ("could not read a status out of the reply: " ++ result.data) 0
      | some status => .serviceSwitch true (describe RobotStateApiId.serviceSwitch.code result) status
    else .serviceSwitch false (describe RobotStateApiId.serviceSwitch.code result) 0
  | .serviceList _, result =>
    if result.ok then
      match servicesIn nl result.data with
      | none =>
        .serviceList false ("could not read a service list out of the reply: " ++ result.data) []
      | some services =>
        .serviceList true (describe RobotStateApiId.serviceList.code result) services
    else .serviceList false (describe RobotStateApiId.serviceList.code result) []

def RobotCallback.request : RobotCallback → RequestId
  | .serviceSwitch r | .serviceList r => r

/-- A callback answers its request, whatever the reply, and does nothing else. -/
theorem RobotCallback.reports (cb : RobotCallback) (result : ApiResult) :
    Reports (θ := Unit) nl (RobotCallback.body nl) cb result
      [.host (.answer cb.request (cb.respond nl result))] := by
  intro n
  cases cb with
  | serviceSwitch r =>
    simp only [RobotCallback.body, onServiceSwitchResult, RobotCallback.respond]
    cases result.ok with
    | false => exact exec_emit nl _ n
    | true =>
      simp only [if_true, readStatus_eq, exec_bind, Prog.ofExcept]
      cases statusIn nl result.data <;> exact exec_emit nl _ n
  | serviceList r =>
    simp only [RobotCallback.body, onServiceListResult, RobotCallback.respond]
    cases result.ok with
    | false => exact exec_emit nl _ n
    | true =>
      simp only [if_true, readList_eq, exec_bind, Prog.ofExcept]
      cases servicesIn nl result.data <;> exact exec_emit nl _ n

/-! ## Requests -/

abbrev RobotCall := ServiceCall RobotCallback RobotResponse

def RobotEvent.serviceCall? : RobotEvent → Option RobotCall
  | .serviceSwitch r name enable =>
    some ⟨RobotStateApiId.serviceSwitch.code, switchJson name enable, .serviceSwitch r, r,
      .serviceSwitch false (couldNotBeSent RobotStateApiId.serviceSwitch.code) 0,
      (RobotCallback.serviceSwitch r).respond nl, fun data => (statusIn nl data).isSome = true⟩
  | .serviceList r =>
    some ⟨RobotStateApiId.serviceList.code, emptyJson, .serviceList r, r,
      .serviceList false (couldNotBeSent RobotStateApiId.serviceList.code) [],
      (RobotCallback.serviceList r).respond nl, fun data => (servicesIn nl data).isSome = true⟩
  | .setReportFreq _ _ _ | .response _ | .sweep _ => none

def RobotEvent.received : RobotEvent → List (RobotService × RequestId)
  | .serviceSwitch r _ _ => [(.serviceSwitch, r)]
  | .setReportFreq r _ _ => [(.setReportFreq, r)]
  | .serviceList r => [(.serviceList, r)]
  | .response _ | .sweep _ => []

theorem RobotEvent.serviceCall?_spec {nl : Nlohmann} {e : RobotEvent} {q : RobotCall} (h : e.serviceCall? nl = some q) :
    q.callback.request = q.request ∧ q.refused.success = false ∧
      e.received = [(q.refused.service, q.request)] := by
  cases e <;> cases h <;> exact ⟨rfl, rfl, rfl⟩

/-- A request that completes was refused, the table being full, or published. -/
theorem robotStep_call {s s' : RobotState} {e : RobotEvent × Clock} {out : List RobotEmission}
    {q : RobotCall} (hq : e.1.serviceCall? nl = some q)
    (h : robotStateBridgeStep nl s e = some (s', out)) :
    (s.client.full ∧ s' = s ∧ out = [.log .error (s.client.dropText q.apiId),
      .host (.answer q.request q.refused)]) ∨
    ∃ text, nl.dump q.parameter = some text ∧
      out = [.published ⟨s.client.freshId (e.2 0), q.apiId, false, text⟩
        (some (s.client.newEntry (e.2 0) q.apiId q.callback))] := by
  obtain ⟨e, clk⟩ := e
  obtain ⟨n, hp, rfl, rfl⟩ := (nodeStep_eq_some nl _).mp h
  have hprog : e.toNode = .handler (deferred q.apiId q.parameter q.callback q.request q.refused) := by
    cases e <;> cases hq <;> rfl
  simp only [State.perform, hprog, Node.perform, deferred, exec_bind, exec_call] at hp
  rcases hc : Node.call nl q.apiId q.parameter q.callback (⟨s, clk, []⟩ : Node _ _ RobotOut) with
    ⟨n', f | sent⟩
  · rw [hc] at hp
    simp at hp
  · rw [hc] at hp
    obtain ⟨hf, rfl, rfl⟩ | ⟨hf, rfl, text, hd, rfl⟩ := Node.call_cases nl hc
    · left
      simp only [Bool.not_false, if_true, answer, exec_emit, Prod.mk.injEq, and_true] at hp
      rw [← hp]
      exact ⟨hf, rfl, rfl⟩
    · right
      simp only [Bool.not_true, Bool.false_eq_true, if_false, exec_pure, Prod.mk.injEq, and_true] at hp
      rw [← hp]
      exact ⟨text, hd, rfl⟩

end

end Go2
