import Go2Driver.ApiClient

/-!
# `Go2SportBridge`

The node that turns `cmd_vel` and six services into Sport API requests.  Five
services send one request and answer from its result; `mode` runs a preset, one
step a result, with a wall timer between the steps.

The lambdas the bridge hands to the client are the constructors of `Callback`,
with what each captures; `Callback.body` is their code.  What the constructor of
the node fixes for good (`presets_`, `blocked_modes_`, `wait_for_response_`) is
a `SportConfig`; the rest of its fields is `SportHost`.
-/

namespace Go2

open Tables Runs

/-! ## API ids and presets -/

inductive SportApiId
  | damp | balanceStand | stopMove | standUp | standDown | recoveryStand | euler
  | move | sit | riseSit | hello | stretch | content | dance1 | dance2 | scrape
  | frontFlip | frontJump | frontPounce | fingerHeart
  | speedLevel | switchJoystick | pose
  | staticWalk | trotRun | economicGait
  | leftFlip | backFlip | handStand | freeWalk | freeBound | freeJump | freeAvoid
  | classicWalk | walkUpright | crossStep | autoRecoverySet | autoRecoveryGet | switchAvoidMode
deriving DecidableEq, Repr

def SportApiId.code : SportApiId → Int
  | damp => 1001 | balanceStand => 1002 | stopMove => 1003 | standUp => 1004
  | standDown => 1005 | recoveryStand => 1006 | euler => 1007
  | move => 1008 | sit => 1009 | riseSit => 1010 | hello => 1016 | stretch => 1017
  | content => 1020 | dance1 => 1022 | dance2 => 1023 | scrape => 1029
  | frontFlip => 1030 | frontJump => 1031 | frontPounce => 1032 | fingerHeart => 1036
  | speedLevel => 1015 | switchJoystick => 1027 | pose => 1028
  | staticWalk => 1061 | trotRun => 1062 | economicGait => 1063
  | leftFlip => 2041 | backFlip => 2043 | handStand => 2044 | freeWalk => 2045
  | freeBound => 2046 | freeJump => 2047 | freeAvoid => 2048
  | classicWalk => 2049 | walkUpright => 2050 | crossStep => 2051
  | autoRecoverySet => 2054 | autoRecoveryGet => 2055 | switchAvoidMode => 2058

structure SportCommandStep where
  apiId : Int
  parameter : Json
  waitMsAfter : Int

/-- `step(id, parameter, wait_ms_after)`. -/
def SportApiId.step (id : SportApiId) (parameter : Json := emptyJson) (waitMsAfter : Int := 0) :
    SportCommandStep :=
  ⟨id.code, parameter, waitMsAfter⟩

abbrev Presets := List (String × List SportCommandStep)

/-- `initPresets`. -/
def initPresets : Presets := [
  ("damp", [SportApiId.step .damp]),
  ("balance_stand", [SportApiId.step .balanceStand]),
  ("stop_move", [SportApiId.step .stopMove]),
  ("stand_down", [SportApiId.step .standDown]),
  ("recovery_stand", [SportApiId.step .recoveryStand]),
  ("sit", [SportApiId.step .sit]),
  ("rise_sit", [SportApiId.step .riseSit]),
  ("hello", [SportApiId.step .hello]),
  ("stretch", [SportApiId.step .stretch]),
  ("content", [SportApiId.step .content]),
  ("scrape", [SportApiId.step .scrape]),
  ("dance1", [SportApiId.step .dance1]),
  ("dance2", [SportApiId.step .dance2]),
  ("finger_heart", [SportApiId.step .fingerHeart]),
  ("static_walk", [SportApiId.step .staticWalk]),
  ("trot_run", [SportApiId.step .trotRun]),
  ("economic_gait", [SportApiId.step .economicGait]),
  ("classic_walk", [SportApiId.step .classicWalk (dataJson (.boolean true))]),
  ("walk_upright", [SportApiId.step .walkUpright (dataJson (.boolean true))]),
  ("cross_step", [SportApiId.step .crossStep (dataJson (.boolean true))]),
  ("free_walk", [SportApiId.step .freeWalk]),
  ("free_bound", [SportApiId.step .freeBound (dataJson (.boolean true))]),
  ("free_jump", [SportApiId.step .freeJump (dataJson (.boolean true))]),
  ("free_avoid", [SportApiId.step .freeAvoid (dataJson (.boolean true))]),
  ("switch_avoid_mode", [SportApiId.step .switchAvoidMode]),
  ("auto_recovery_set", [SportApiId.step .autoRecoverySet (dataJson (.boolean true))]),
  ("front_flip", [SportApiId.step .frontFlip]),
  ("front_jump", [SportApiId.step .frontJump]),
  ("front_pounce", [SportApiId.step .frontPounce]),
  ("left_flip", [SportApiId.step .leftFlip]),
  ("back_flip", [SportApiId.step .backFlip]),
  ("hand_stand", [SportApiId.step .handStand (dataJson (.boolean true))]),
  ("stand_down_damp", [SportApiId.step .standDown emptyJson 2000, SportApiId.step .damp])]

/-! ## Services -/

inductive SportService
  | mode | speedLevel | switchJoystick | euler | pose | getAutoRecovery
deriving DecidableEq, Repr

/-- The `Response` of each service. -/
inductive SportResponse
  | mode (success : Bool) (message : String)
  | speedLevel (success : Bool) (message : String)
  | switchJoystick (success : Bool)
  | euler (success : Bool) (message : String)
  | pose (success : Bool)
  | getAutoRecovery (success : Bool) (message : String) (enable : Bool)
deriving DecidableEq, Repr

namespace SportResponse

def service : SportResponse → SportService
  | mode .. => .mode
  | speedLevel .. => .speedLevel
  | switchJoystick .. => .switchJoystick
  | euler .. => .euler
  | pose .. => .pose
  | getAutoRecovery .. => .getAutoRecovery

def success : SportResponse → Bool
  | mode s _ | speedLevel s _ | switchJoystick s | euler s _ | pose s | getAutoRecovery s _ _ => s

end SportResponse

/-- What the bridge lets out by itself: `send_response`, `create_wall_timer`, and
the result `sendRequest` hands to a callback at once. -/
inductive SportOut
  | answer (request : RequestId) (response : SportResponse)
  | timerCreated (waitMs : Int)
  | resultAtOnce (api : Int) (result : ApiResult)
deriving DecidableEq, Repr

/-! ## State -/

/-- A mode preset in the middle of being executed, one step per robot reply. -/
structure SequenceRun where
  name : String
  steps : List SportCommandStep
  index : Nat
  requestId : RequestId
  lastMessage : String
  ok : Bool

structure WallTimer where
  periodMs : Int
  canceled : Bool
deriving DecidableEq, Repr

structure SportHost where
  activeSequence : Option SequenceRun
  sequenceTimer : Option WallTimer

structure SportConfig where
  presets : Presets
  blockedModes : List String
  waitForResponse : Bool

/-- The lambdas handed to `sendRequest`, with what they capture beside `this`. -/
inductive Callback
  | step
  | speedLevel (request : RequestId)
  | switchJoystick (request : RequestId)
  | euler (request : RequestId)
  | pose (request : RequestId)
  | getAutoRecovery (request : RequestId)
deriving DecidableEq, Repr

abbrev SportProg := Prog Callback SportHost SportOut

/-! ## Texts -/

/-- `std::set` insertion: sorted, once. -/
def insertName (name : String) : List String → List String
  | [] => [name]
  | n :: rest =>
    if name < n then name :: n :: rest
    else if name = n then n :: rest
    else n :: insertName name rest

/-- Comma-separated, in the set's order; "(none)" for an empty set. -/
def joinNames (names : List String) : String :=
  if names = [] then "(none)"
  else names.foldl (fun joined name => (if joined = "" then joined else joined ++ ", ") ++ name) ""

def availableModes (presets : Presets) : String :=
  joinNames (presets.foldl (fun names entry => insertName entry.1 names) [])

def describe (apiId : Int) (result : ApiResult) (waited : Bool) : String :=
  let text := "api_id=" ++ toString apiId
  if !waited then text ++ " published"
  else if result.ok then text ++ " accepted"
  else if result.statusCode < 0 then text ++ " got no reply"
  else text ++ " rejected with status " ++ toString result.statusCode

/-! ## The constructor -/

def speedLevelLow : Int := -1
def speedLevelHigh : Int := 1
def blockNothing : String := "none"

def defaultBlockedModes : List String := ["front_flip", "back_flip", "left_flip", "hand_stand"]

/-- `blocked_modes_` from the parameter. -/
def blockedSet (blocked : List String) : List String :=
  blocked.foldl (fun set name => if name ≠ blockNothing then insertName name set else set) []

/-- The configuration the constructor leaves for its two parameters. -/
def SportConfig.ofParameters (presets : Presets) (waitForResponse : Bool) (blocked : List String) :
    SportConfig :=
  ⟨presets, blockedSet blocked, waitForResponse⟩

/-- The warnings of the constructor. -/
def SportConfig.warnings (cfg : SportConfig) : List String :=
  (cfg.blockedModes.filter fun name => (cfg.presets.lookup name).isNone).map fun name =>
    "blocked_modes lists '" ++ name ++ "', which is not a mode preset"

abbrev SportState := State Callback SportHost

def SportState.start (timeoutMs : Int) : SportState := State.start timeoutMs ⟨none, none⟩

/-! ## The sequencer -/

namespace SportBridge

variable (nl : Nlohmann) (cfg : SportConfig)

def answer (request : RequestId) (response : SportResponse) : SportProg Unit :=
  .emit (.answer request response)

/-- `*active_sequence_`. -/
def activeSequence : SportProg SequenceRun := do
  match (← Prog.read).activeSequence with
  | some run => return run
  | none => .raise .emptyOptional

def setActiveSequence (run : Option SequenceRun) : SportProg Unit := do
  .write { (← Prog.read) with activeSequence := run }

def setSequenceTimer (timer : Option WallTimer) : SportProg Unit := do
  .write { (← Prog.read) with sequenceTimer := timer }

/-- `run.steps_[run.index_]`. -/
def currentStep (run : SequenceRun) : SportProg SportCommandStep :=
  match run.steps[run.index]? with
  | some st => .ret st
  | none => .raise .outOfRange

/-- `sequence_timer_ = create_wall_timer(wait, ...)`. -/
def createSequenceTimer (waitMs : Int) : SportProg Unit := do
  if waitMs < 0 then .raise .invalidPeriod
  else
    .emit (.timerCreated waitMs)
    setSequenceTimer (some ⟨waitMs, false⟩)

def finishSequence : SportProg Unit := do
  let run ← activeSequence
  setActiveSequence none
  setSequenceTimer none
  answer run.requestId (.mode run.ok ("mode " ++ run.name ++ ": " ++ run.lastMessage))

def onStepResult (result : ApiResult) : SportProg Unit := do
  let run ← activeSequence
  let st ← currentStep run
  setActiveSequence (some { run with
    ok := run.ok && result.ok
    lastMessage := describe st.apiId result cfg.waitForResponse
    index := run.index + 1 })
  if !result.ok then finishSequence
  else createSequenceTimer st.waitMsAfter

/-! ## The callbacks -/

/-- The answer of `speed_level` and `euler`, from the result of their request. -/
def onResult (apiId : Int) (respond : Bool → String → SportResponse) (request : RequestId)
    (result : ApiResult) : SportProg Unit :=
  answer request (respond result.ok (describe apiId result cfg.waitForResponse))

/-- The answer of `switch_joystick` and `pose`, which carry no message field: a failure is logged. -/
def onLoggedResult (apiId : Int) (name : String) (respond : Bool → SportResponse)
    (request : RequestId) (result : ApiResult) : SportProg Unit := do
  if !result.ok then
    .log .warn (name ++ " failed: " ++ describe apiId result cfg.waitForResponse)
  answer request (respond result.ok)

def onSpeedLevelResult : RequestId → ApiResult → SportProg Unit :=
  onResult cfg SportApiId.speedLevel.code .speedLevel

def onEulerResult : RequestId → ApiResult → SportProg Unit :=
  onResult cfg SportApiId.euler.code .euler

def onSwitchJoystickResult : RequestId → ApiResult → SportProg Unit :=
  onLoggedResult cfg SportApiId.switchJoystick.code "switch_joystick" .switchJoystick

def onPoseResult : RequestId → ApiResult → SportProg Unit :=
  onLoggedResult cfg SportApiId.pose.code "pose" .pose

/-- The flag of the robot's `{"data": <bool>}`, where the reply is one. -/
def readFlag (data : String) : Except Fault (Option Bool) :=
  match nl.parse data with
  | none => .ok none
  | some parsed =>
    if !parsed.contains "data" then .ok none
    else do
      let value ← parsed.member "data"
      if !value.isBoolean then .ok none
      else do return some (← value.getBool)

def onGetAutoRecoveryResult (request : RequestId) (result : ApiResult) : SportProg Unit := do
  let text := describe SportApiId.autoRecoveryGet.code result true
  if result.ok then
    match ← Prog.ofExcept (readFlag nl result.data) with
    | none =>
      answer request (.getAutoRecovery false ("could not read a flag out of the reply: " ++ result.data) false)
    | some enable => answer request (.getAutoRecovery true text enable)
  else answer request (.getAutoRecovery false text false)

end SportBridge

open SportBridge in
def Callback.body (nl : Nlohmann) (cfg : SportConfig) : Callback → ApiResult → SportProg Unit
  | .step => onStepResult cfg
  | .speedLevel request => onSpeedLevelResult cfg request
  | .switchJoystick request => onSwitchJoystickResult cfg request
  | .euler request => onEulerResult cfg request
  | .pose request => onPoseResult cfg request
  | .getAutoRecovery request => onGetAutoRecoveryResult nl request

namespace SportBridge

variable (nl : Nlohmann) (cfg : SportConfig)

/-- Invokes on_result once: on the reply, or at once without `wait_for_response_`. -/
def sendRequest (apiId : Int) (parameter : Json) (onResult : Callback) : SportProg Bool := do
  if cfg.waitForResponse then Prog.call apiId parameter onResult
  else
    Prog.send apiId parameter false
    .emit (.resultAtOnce apiId ⟨true, 0, ""⟩)
    onResult.body nl cfg ⟨true, 0, ""⟩
    return true

def advanceSequence : SportProg Unit := do
  let run ← activeSequence
  if run.index ≥ run.steps.length then finishSequence
  else
    let st ← currentStep run
    let sent ← sendRequest nl cfg st.apiId st.parameter .step
    if !sent then
      let run ← activeSequence
      setActiveSequence (some { run with ok := false, lastMessage := couldNotBeSent st.apiId })
      finishSequence

/-- The lambda of the sequence timer. -/
def onSequenceTimer : SportProg Unit := do
  match (← Prog.read).sequenceTimer with
  | none => .raise .nullTimer
  | some timer =>
    setSequenceTimer (some { timer with canceled := true })
    advanceSequence nl cfg

def startSequence (request : RequestId) (name : String) (steps : List SportCommandStep) :
    SportProg Unit := do
  if steps = [] then answer request (.mode false ("mode " ++ name ++ ": the preset has no steps"))
  else
    setActiveSequence (some ⟨name, steps, 0, request, "", true⟩)
    advanceSequence nl cfg

/-! ## The subscription and the services -/

structure Twist where
  linearX : Double
  linearY : Double
  angularZ : Double

def cmdVelCallback (msg : Twist) : SportProg Unit :=
  Prog.send SportApiId.move.code (xyzJson msg.linearX msg.linearY msg.angularZ) true

def handleMode (request : RequestId) (mode : String) : SportProg Unit := do
  match cfg.presets.lookup mode with
  | none =>
    answer request (.mode false
      ("invalid mode: " ++ mode ++ ". available: " ++ availableModes cfg.presets))
  | some steps =>
    if mode ∈ cfg.blockedModes then
      answer request (.mode false (mode ++
        " is listed in the blocked_modes parameter and was not sent. " ++
        "Send the Sport API id directly on api/sport/request if you really mean it."))
    else
      match (← Prog.read).activeSequence with
      | some run =>
        answer request (.mode false ("another mode sequence is in progress: " ++ run.name))
      | none => startSequence nl cfg request mode steps

/-- A request whose answer comes from its callback, or from `refused` when it could not be sent. -/
def deferred (apiId : Int) (parameter : Json) (onResult : Callback) (request : RequestId)
    (refused : SportResponse) : SportProg Unit := do
  let sent ← sendRequest nl cfg apiId parameter onResult
  if !sent then answer request refused

def handleSpeedLevel (request : RequestId) (level : Int) : SportProg Unit := do
  if level ≠ speedLevelLow ∧ level ≠ speedLevelHigh then
    answer request (.speedLevel false ("level must be " ++ toString speedLevelLow ++ " or " ++
      toString speedLevelHigh ++ ", got " ++ toString level))
  else
    deferred nl cfg SportApiId.speedLevel.code (dataJson (.integer level)) (.speedLevel request)
      request (.speedLevel false (couldNotBeSent SportApiId.speedLevel.code))

def handleSwitchJoystick (request : RequestId) (flag : Bool) : SportProg Unit :=
  deferred nl cfg SportApiId.switchJoystick.code (dataJson (.boolean flag))
    (.switchJoystick request) request (.switchJoystick false)

def handleEuler (request : RequestId) (roll pitch yaw : Double) : SportProg Unit :=
  deferred nl cfg SportApiId.euler.code (xyzJson roll pitch yaw) (.euler request) request
    (.euler false (couldNotBeSent SportApiId.euler.code))

def handlePose (request : RequestId) (flag : Bool) : SportProg Unit :=
  deferred nl cfg SportApiId.pose.code (dataJson (.boolean flag)) (.pose request) request
    (.pose false)

def handleGetAutoRecovery (request : RequestId) : SportProg Unit := do
  if !cfg.waitForResponse then
    answer request (.getAutoRecovery false
      "get_auto_recovery needs wait_for_response to be enabled" false)
  else
    deferred nl cfg SportApiId.autoRecoveryGet.code emptyJson (.getAutoRecovery request) request
      (.getAutoRecovery false (couldNotBeSent SportApiId.autoRecoveryGet.code) false)

end SportBridge

/-! ## Events -/

open SportBridge

inductive SportEvent
  | mode (request : RequestId) (name : String)
  | speedLevel (request : RequestId) (level : Int)
  | switchJoystick (request : RequestId) (flag : Bool)
  | euler (request : RequestId) (roll pitch yaw : Double)
  | pose (request : RequestId) (flag : Bool)
  | getAutoRecovery (request : RequestId)
  | cmdVel (msg : Twist)
  | response (msg : Response)
  | sweep (order : IterationOrder (PendingEntry Callback))
  | timer

/-- `sequence_timer_` is set and not cancelled. -/
def SportHost.armed (h : SportHost) : Bool :=
  match h.sequenceTimer with
  | some timer => !timer.canceled
  | none => false

section
variable (nl : Nlohmann) (cfg : SportConfig)

def SportEvent.toNode : SportEvent → NodeEvent Callback SportHost SportOut
  | .mode request name => .handler (handleMode nl cfg request name)
  | .speedLevel request level => .handler (handleSpeedLevel nl cfg request level)
  | .switchJoystick request flag => .handler (handleSwitchJoystick nl cfg request flag)
  | .euler request roll pitch yaw => .handler (handleEuler nl cfg request roll pitch yaw)
  | .pose request flag => .handler (handlePose nl cfg request flag)
  | .getAutoRecovery request => .handler (handleGetAutoRecovery nl cfg request)
  | .cmdVel msg => .handler (cmdVelCallback msg)
  | .response msg => .response msg
  | .sweep order => .sweep order
  | .timer => .handler (onSequenceTimer nl cfg)

/-- The executor fires the sequence timer only while it is armed. -/
def SportEvent.enabled (h : SportHost) : SportEvent → Bool
  | .timer => h.armed
  | _ => true

/-- One event of the bridge, up to where it returns or throws. -/
def SportState.perform (s : SportState) (e : SportEvent × Clock) :
    Node Callback SportHost SportOut × Except Fault Unit :=
  State.perform nl (Callback.body nl cfg) s (e.1.toNode nl cfg, e.2)

def sportBridgeStep (s : SportState) (e : SportEvent × Clock) :
    Option (SportState × List (Out Callback SportOut)) :=
  if e.1.enabled s.host then nodeStep nl (Callback.body nl cfg) s (e.1.toNode nl cfg, e.2)
  else none

end

end Go2
