import Go2Driver.Transitions
import Go2Driver.Truthful

/-!
# What the reply readers take

`get_auto_recovery`, `service_switch` and `service_list` read the string of a reply with
status code 0.  Whatever it holds, the reply is answered: each reader asks for a member
before it takes it, so none of them throws.

* `readers_accept_exactly`: the shapes that are accepted, and what is reported of each.
* `values_kept_iff`: an integer is reported as it came exactly if it fits an `int32_t`.
  The readers take any integer, and the conversion keeps its last 32 bits only, so a
  status of 2^32 is reported as 0, which is "running".
-/

namespace Go2

open Tables Runs SportBridge RobotStateBridge

/-! ## A reply settles a call -/

/-- The reply is to a pending call that holds the callback `cb`. -/
def Settles {κ θ : Type} (s : State κ θ) (msg : Response) (cb : κ) : Prop :=
  ∃ entry, s.client.pending.lookup msg.id = some entry ∧ entry.callback = cb

section
variable (nl : Nlohmann) (cfg : SportConfig) (clk : Clock) {msg : Response}

theorem Response.result_ok_iff : msg.result.ok = true ↔ msg.code = statusOk := decide_eq_true_iff

theorem Warnings.answersOf_eq_nil {κ ω ρ : Type} {answer? : ω → Option (RequestId × ρ)}
    {L : List (Out κ ω)} (h : Warnings L) : answersOf answer? L = [] :=
  h.filterMap_eq_nil fun _ => rfl

/-- A reply to a call of the robot state bridge is answered, and that is all. -/
theorem robot_replied_step {s : RobotState} {cb : RobotCallback} (h : Settles s msg cb) :
    ∃ s' out, robotStateBridgeStep nl s (.response msg, clk) = some (s', out) ∧
      answersOf RobotOut.answer? out = [(cb.request, cb.respond nl msg.result)] := by
  obtain ⟨entry, hl, rfl⟩ := h
  have hret := Node.responseCallback_some nl (RobotCallback.body nl) (n := ⟨s, clk, []⟩) hl
  rw [RobotCallback.reports] at hret
  refine ⟨_, _, (nodeStep_eq_some nl _).mpr ⟨_, hret, rfl, rfl⟩, ?_⟩
  simp only [List.nil_append, answersOf_append, (warnings_mismatchLog msg entry).answersOf_eq_nil]
  rfl

/-- So is a reply to a call of the sport bridge that no step of a sequence made. -/
theorem getAutoRecovery_replied_step {s : SportState} {r : RequestId}
    (h : Settles s msg (.getAutoRecovery r)) :
    ∃ s' out, sportBridgeStep nl cfg s (.response msg, clk) = some (s', out) ∧
      answersOf SportOut.answer? out = [(r, flagResponse nl msg.result)] := by
  obtain ⟨entry, hl, hcb⟩ := h
  have hne : entry.callback ≠ .step := by
    rw [hcb]
    intro hstep
    cases hstep
  refine ⟨_, _, replied_step entry hl hne, ?_⟩
  simp only [hcb, answersOf_append, (warnings_mismatchLog msg entry).answersOf_eq_nil]
  rfl

end

/-! ## The shapes -/

abbrev Members := List (String × Json)

/-- `data` parses to an object whose member `key` is `value`. -/
def Nlohmann.ObjectWith (nl : Nlohmann) (data key : String) (value : Json) : Prop :=
  ∃ members : Members, nl.parse data = some (.object members) ∧ members.lookup key = some value

/-- The elements that are objects. -/
def objectsOf : List Json → List Members
  | [] => []
  | .object members :: rest => members :: objectsOf rest
  | _ :: rest => objectsOf rest

/-- `got` is the value of the member `key` where it has the shape, and `otherwise` where it
is missing or has another. -/
def FieldRead {α β : Type} (shape : α → Json) (value : α → β) (otherwise : β) (key : String)
    (members : Members) (got : β) : Prop :=
  (∀ a, members.lookup key = some (shape a) → got = value a) ∧
    ((∀ a, members.lookup key ≠ some (shape a)) → got = otherwise)

/-- What one entry of the robot's list is reported as. -/
structure Describes (members : Members) (state : ServiceState) : Prop where
  name : FieldRead .string id "" "name" members state.name
  status : FieldRead .integer Json.toInt32 (-1) "status" members state.status
  protect : FieldRead .integer Json.toInt32 0 "protect" members state.protect
  version : FieldRead .string id "" "version" members state.version

/-- What a reader makes of a payload that has the shape `shape a` for some `a`, or for none:
success exactly in the first case, with `got` as `reports a` says, and else the default. -/
structure Read {α β : Type} (shape : α → Prop) (reports : α → β → Prop) (otherwise : β)
    (success : Bool) (got : β) : Prop where
  accepts : success = true ↔ ∃ a, shape a
  reads : ∀ a, shape a → reports a got
  failure : success = false → got = otherwise

/-- The answer of `get_auto_recovery` to the payload `data`. -/
def FlagRead (nl : Nlohmann) (data : String) : Bool → Bool → Prop :=
  Read (fun b => nl.ObjectWith data "data" (.boolean b)) (fun b enable => enable = b) false

/-- The answer of `service_switch`. -/
def StatusRead (nl : Nlohmann) (data : String) : Bool → Int → Prop :=
  Read (fun n => nl.ObjectWith data "status" (.integer n)) (fun n status => status = Json.toInt32 n) 0

/-- The answer of `service_list`. -/
def ListRead (nl : Nlohmann) (data : String) : Bool → List ServiceState → Prop :=
  Read (fun items => nl.parse data = some (.array items))
    (fun items services => List.Forall₂ Describes (objectsOf items) services) []

section
variable {nl : Nlohmann} {data : String}

theorem flagIn_eq_some_iff {b : Bool} :
    flagIn nl data = some b ↔ nl.ObjectWith data "data" (.boolean b) := by
  unfold flagIn Nlohmann.ObjectWith
  constructor
  · intro h
    split at h
    · next members hp =>
      split at h
      · next b' hm =>
        cases h
        exact ⟨members, hp, hm⟩
      · cases h
    · cases h
  · intro ⟨members, hp, hm⟩
    simp only [hp, hm]

theorem statusIn_eq_some_iff {status : Int} : statusIn nl data = some status ↔
    ∃ n, nl.ObjectWith data "status" (.integer n) ∧ status = Json.toInt32 n := by
  unfold statusIn Nlohmann.ObjectWith
  constructor
  · intro h
    split at h
    · next js hp =>
      split at h
      · next n hm =>
        cases h
        cases js with
        | object members => exact ⟨n, ⟨members, hp, hm⟩, rfl⟩
        | _ => cases hm
      · cases h
    · cases h
  · intro ⟨n, ⟨members, hp, hm⟩, hstatus⟩
    simp only [hp, Json.member?, hm, hstatus]

theorem fieldRead_stringAt (key : String) (members : Members) :
    FieldRead .string id "" key members (stringAt "" key (.object members)) := by
  unfold FieldRead stringAt
  simp only [Json.member?]
  constructor
  · intro t ht
    rw [ht]
    rfl
  · intro hne
    split
    · next t ht => exact absurd ht (hne t)
    · rfl

theorem fieldRead_intAt (otherwise : Int) (key : String) (members : Members) :
    FieldRead .integer Json.toInt32 otherwise key members (intAt otherwise key (.object members)) := by
  unfold FieldRead intAt
  simp only [Json.member?]
  constructor
  · intro n hn
    rw [hn]
  · intro hne
    split
    · next n hn => exact absurd hn (hne n)
    · rfl

theorem describes_serviceAt (members : Members) : Describes members (serviceAt (.object members)) where
  name := fieldRead_stringAt "name" members
  status := fieldRead_intAt (-1) "status" members
  protect := fieldRead_intAt 0 "protect" members
  version := fieldRead_stringAt "version" members

/-- One service an object, in the order of the array. -/
theorem map_serviceAt (items : List Json) :
    (items.filter Json.isObject).map serviceAt =
      (objectsOf items).map fun members => serviceAt (.object members) := by
  induction items with
  | nil => rfl
  | cons entry rest ih =>
    cases entry with
    | object members =>
      rw [List.filter_cons_of_pos rfl, List.map_cons, ih]
      rfl
    | _ =>
      rw [List.filter_cons_of_neg Bool.false_ne_true, ih]
      rfl

theorem servicesIn_eq_some_iff {services : List ServiceState} : servicesIn nl data = some services ↔
    ∃ items, nl.parse data = some (.array items) ∧
      services = (objectsOf items).map fun members => serviceAt (.object members) := by
  unfold servicesIn
  constructor
  · intro h
    split at h
    · next items hp =>
      cases h
      exact ⟨items, hp, map_serviceAt items⟩
    · cases h
  · intro ⟨items, hp, hservices⟩
    simp only [hp, map_serviceAt, hservices]

/-- A reader that takes `value a` out of a payload of the shape `shape a`, and nothing out
of another. -/
theorem Read.of_reader {α β : Type} {shape : α → Prop} {reports : α → β → Prop} {otherwise : β}
    {value : α → β} {o : Option β} (ho : ∀ v, o = some v ↔ ∃ a, shape a ∧ v = value a)
    (hrep : ∀ a, shape a → reports a (value a)) :
    Read shape reports otherwise o.isSome (o.getD otherwise) := by
  cases o with
  | none =>
    have hno : ∀ a, ¬ shape a := by
      intro a ha
      cases (ho _).mpr ⟨a, ha, rfl⟩
    constructor
    · constructor
      · intro h
        cases h
      · intro ⟨a, ha⟩
        exact absurd ha (hno a)
    · intro a ha
      exact absurd ha (hno a)
    · intro _
      rfl
  | some v =>
    obtain ⟨a, ha, rfl⟩ := (ho v).mp rfl
    constructor
    · exact iff_of_true rfl ⟨a, ha⟩
    · intro a' ha'
      have hv : value a = value a' := Option.some.inj ((ho _).mpr ⟨a', ha', rfl⟩)
      rw [Option.getD_some, hv]
      exact hrep a' ha'
    · intro h
      cases h

theorem flagRead (nl : Nlohmann) (data : String) :
    FlagRead nl data (flagIn nl data).isSome ((flagIn nl data).getD false) := by
  apply Read.of_reader
  · intro b
    rw [flagIn_eq_some_iff]
    constructor
    · intro h
      exact ⟨b, h, rfl⟩
    · rintro ⟨b', h, rfl⟩
      exact h
  · intro b _
    rfl

theorem statusRead (nl : Nlohmann) (data : String) :
    StatusRead nl data (statusIn nl data).isSome ((statusIn nl data).getD 0) := by
  apply Read.of_reader (fun _ => statusIn_eq_some_iff)
  intro n _
  rfl

theorem listRead (nl : Nlohmann) (data : String) :
    ListRead nl data (servicesIn nl data).isSome ((servicesIn nl data).getD []) := by
  apply Read.of_reader (fun _ => servicesIn_eq_some_iff)
  intro items _
  rw [List.forall₂_map_right_iff, List.forall₂_same]
  intro members _
  exact describes_serviceAt members

/-! ## What is answered -/

variable {result : ApiResult}

theorem flagResponse_ok (nl : Nlohmann) (hok : result.ok = true) : ∃ message, flagResponse nl result =
    .getAutoRecovery (flagIn nl result.data).isSome message ((flagIn nl result.data).getD false) := by
  unfold flagResponse
  rw [if_pos hok]
  cases flagIn nl result.data <;> exact ⟨_, rfl⟩

theorem respond_serviceSwitch_ok (nl : Nlohmann) (r : RequestId) (hok : result.ok = true) :
    ∃ message, (RobotCallback.serviceSwitch r).respond nl result =
      .serviceSwitch (statusIn nl result.data).isSome message ((statusIn nl result.data).getD 0) := by
  unfold RobotCallback.respond
  simp only [if_pos hok]
  cases statusIn nl result.data <;> exact ⟨_, rfl⟩

theorem respond_serviceList_ok (nl : Nlohmann) (r : RequestId) (hok : result.ok = true) :
    ∃ message, (RobotCallback.serviceList r).respond nl result =
      .serviceList (servicesIn nl result.data).isSome message
        ((servicesIn nl result.data).getD []) := by
  unfold RobotCallback.respond
  simp only [if_pos hok]
  cases servicesIn nl result.data <;> exact ⟨_, rfl⟩

variable {msg : Response} {r : RequestId}

theorem getAutoRecovery_read (nl : Nlohmann) (cfg : SportConfig) (clk : Clock) {s : SportState}
    (h : Settles s msg (.getAutoRecovery r)) (hcode : msg.code = statusOk) :
    ∃ s' out success message enable,
      sportBridgeStep nl cfg s (.response msg, clk) = some (s', out) ∧
        answersOf SportOut.answer? out = [(r, .getAutoRecovery success message enable)] ∧
        FlagRead nl msg.data success enable := by
  obtain ⟨s', out, hstep, hans⟩ := getAutoRecovery_replied_step nl cfg clk h
  obtain ⟨message, hresp⟩ := flagResponse_ok nl (Response.result_ok_iff.mpr hcode)
  rw [hresp] at hans
  exact ⟨s', out, _, message, _, hstep, hans, flagRead nl msg.data⟩

theorem serviceSwitch_read (nl : Nlohmann) (clk : Clock) {s : RobotState}
    (h : Settles s msg (.serviceSwitch r)) (hcode : msg.code = statusOk) :
    ∃ s' out success message status,
      robotStateBridgeStep nl s (.response msg, clk) = some (s', out) ∧
        answersOf RobotOut.answer? out = [(r, .serviceSwitch success message status)] ∧
        StatusRead nl msg.data success status := by
  obtain ⟨s', out, hstep, hans⟩ := robot_replied_step nl clk h
  obtain ⟨message, hresp⟩ := respond_serviceSwitch_ok nl r (Response.result_ok_iff.mpr hcode)
  rw [hresp] at hans
  exact ⟨s', out, _, message, _, hstep, hans, statusRead nl msg.data⟩

theorem serviceList_read (nl : Nlohmann) (clk : Clock) {s : RobotState}
    (h : Settles s msg (.serviceList r)) (hcode : msg.code = statusOk) :
    ∃ s' out success message services,
      robotStateBridgeStep nl s (.response msg, clk) = some (s', out) ∧
        answersOf RobotOut.answer? out = [(r, .serviceList success message services)] ∧
        ListRead nl msg.data success services := by
  obtain ⟨s', out, hstep, hans⟩ := robot_replied_step nl clk h
  obtain ⟨message, hresp⟩ := respond_serviceList_ok nl r (Response.result_ok_iff.mpr hcode)
  rw [hresp] at hans
  exact ⟨s', out, _, message, _, hstep, hans, listRead nl msg.data⟩

end

/-- **The reply readers accept exactly their shapes.**  A reply with status code 0 to
`get_auto_recovery`, `service_switch` or `service_list` never throws, whatever string it
carries: it is answered with success exactly if the string parses to an object with a
boolean under data, to an object with an integer under status, or to an array, and then
with that flag, that status, or one service for each object of the array in its order,
field by field; otherwise the value in the answer is the default. -/
theorem readers_accept_exactly (nl : Nlohmann) (cfg : SportConfig) (msg : Response) (clk : Clock)
    (r : RequestId) (hcode : msg.code = statusOk) :
    (∀ s, Settles s msg (.getAutoRecovery r) → ∃ s' out success message enable,
      sportBridgeStep nl cfg s (.response msg, clk) = some (s', out) ∧
        answersOf SportOut.answer? out = [(r, .getAutoRecovery success message enable)] ∧
        FlagRead nl msg.data success enable) ∧
    (∀ s, Settles s msg (.serviceSwitch r) → ∃ s' out success message status,
      robotStateBridgeStep nl s (.response msg, clk) = some (s', out) ∧
        answersOf RobotOut.answer? out = [(r, .serviceSwitch success message status)] ∧
        StatusRead nl msg.data success status) ∧
    (∀ s, Settles s msg (.serviceList r) → ∃ s' out success message services,
      robotStateBridgeStep nl s (.response msg, clk) = some (s', out) ∧
        answersOf RobotOut.answer? out = [(r, .serviceList success message services)] ∧
        ListRead nl msg.data success services) :=
  ⟨fun _ h => getAutoRecovery_read nl cfg clk h hcode, fun _ h => serviceSwitch_read nl clk h hcode,
    fun _ h => serviceList_read nl clk h hcode⟩

/-- Reads the replies of the runs below. -/
def Nlohmann.replies : Nlohmann where
  dump
    | .object [("name", .string "mcf"), ("switch", .integer 1)] =>
      some "\x7b\"name\":\"mcf\",\"switch\":1\x7d"
    | js => Nlohmann.small.dump js
  parse
    | "\x7b\"status\":4294967296\x7d" => some (.object [("status", .integer 4294967296)])
    | "[\x7b\"name\":\"mcf\",\"status\":1.5\x7d,3]" =>
      some (.array [.object [("name", .string "mcf"), ("status", .float (.finite (3 / 2)))], .integer 3])
    | text => Nlohmann.small.parse text

/-- The sport bridge while a call of `get_auto_recovery` is pending. -/
def awaitingFlag : SportState :=
  (execute (sportBridgeStep .replies (.ofParameters initPresets true defaultBlockedModes)) (.start 2000)
    [(.getAutoRecovery ⟨[], 1⟩, .at 5 0)]).2

/-- The robot state bridge while a switch and a list are pending. -/
def awaitingServices : RobotState :=
  (execute (robotStateBridgeStep .replies) (.start 5000 ())
    [(.serviceSwitch ⟨[], 1⟩ "mcf" true, .at 5 0), (.serviceList ⟨[], 1⟩, .at 5 0)]).2

theorem readers_accept_exactly_threeReplies :
    (∃ s' out message,
      sportBridgeStep .replies (.ofParameters initPresets true defaultBlockedModes) awaitingFlag
        (.response ⟨5, 2055, 0, "\x7b\"data\":true\x7d"⟩, .at 0 0) = some (s', out) ∧
      answersOf SportOut.answer? out = [(⟨[], 1⟩, .getAutoRecovery true message true)]) ∧
    (∃ s' out message,
      robotStateBridgeStep .replies awaitingServices (.response ⟨5, 1001, 0, "null"⟩, .at 0 0) =
        some (s', out) ∧
      answersOf RobotOut.answer? out = [(⟨[], 1⟩, .serviceSwitch false message 0)]) ∧
    (∃ s' out message state,
      robotStateBridgeStep .replies awaitingServices
        (.response ⟨6, 1003, 0, "[\x7b\"name\":\"mcf\",\"status\":1.5\x7d,3]"⟩, .at 0 0) =
        some (s', out) ∧
      answersOf RobotOut.answer? out = [(⟨[], 1⟩, .serviceList true message [state])] ∧
      state.name = "mcf" ∧ state.status = -1) := by
  refine ⟨?_, ?_, ?_⟩
  · obtain ⟨s', out, success, message, enable, hstep, hans, hread⟩ :=
      (readers_accept_exactly .replies (.ofParameters initPresets true defaultBlockedModes)
        ⟨5, 2055, 0, "\x7b\"data\":true\x7d"⟩ (.at 0 0) ⟨[], 1⟩ rfl).1 awaitingFlag ⟨_, rfl, rfl⟩
    have hflag : Nlohmann.replies.ObjectWith "\x7b\"data\":true\x7d" "data" (.boolean true) :=
      ⟨_, rfl, rfl⟩
    obtain rfl := hread.accepts.mpr ⟨true, hflag⟩
    obtain rfl := hread.reads true hflag
    exact ⟨s', out, message, hstep, hans⟩
  · obtain ⟨s', out, success, message, status, hstep, hans, hread⟩ :=
      (readers_accept_exactly .replies (.ofParameters initPresets true defaultBlockedModes)
        ⟨5, 1001, 0, "null"⟩ (.at 0 0) ⟨[], 1⟩ rfl).2.1 awaitingServices ⟨_, rfl, rfl⟩
    have hsuccess : success = false := by
      rw [← Bool.not_eq_true, hread.accepts]
      rintro ⟨n, members, hp, -⟩
      cases hp
    rw [hsuccess, hread.failure hsuccess] at hans
    exact ⟨s', out, message, hstep, hans⟩
  · obtain ⟨s', out, success, message, services, hstep, hans, hread⟩ :=
      (readers_accept_exactly .replies (.ofParameters initPresets true defaultBlockedModes)
        ⟨6, 1003, 0, "[\x7b\"name\":\"mcf\",\"status\":1.5\x7d,3]"⟩ (.at 0 0) ⟨[], 1⟩ rfl).2.2
        awaitingServices ⟨_, rfl, rfl⟩
    obtain rfl := hread.accepts.mpr ⟨_, rfl⟩
    obtain ⟨state, rest, hdesc, hrest, rfl⟩ := List.forall₂_cons_left_iff.mp (hread.reads _ rfl)
    obtain rfl := List.forall₂_nil_left_iff.mp hrest
    refine ⟨s', out, message, state, hstep, hans, hdesc.name.1 "mcf" rfl, hdesc.status.2 ?_⟩
    intro n hn
    cases hn

/-! ## Integers -/

/-- In the range of an `int32_t`. -/
def FitsInt32 (n : Int) : Prop := -2147483648 ≤ n ∧ n < 2147483648

theorem Json.toInt32_eq_self_iff (n : Int) : Json.toInt32 n = n ↔ FitsInt32 n := by
  unfold Json.toInt32 FitsInt32
  rw [Int.bmod_def]
  constructor
  · intro h
    split at h <;> omega
  · intro h
    split <;> omega

theorem Json.toInt32_eq_neg_one_iff (n : Int) : Json.toInt32 n = -1 ↔ n % 4294967296 = 4294967295 := by
  unfold Json.toInt32
  rw [Int.bmod_def]
  split <;> omega

/-- The answer of a switch reports the status as it came or as unreadable, and 0 for 0 only. -/
def StatusKept (nl : Nlohmann) (data : String) (success : Bool) (status : Int) : Prop :=
  (∀ n, nl.ObjectWith data "status" (.integer n) → success = false ∨ status = n) ∧
    (success = true → status = 0 → nl.ObjectWith data "status" (.integer 0))

/-- A service reports its two integers as they came, or its status as unreadable; and the
status 0 for 0 only. -/
structure EntryKept (members : Members) (state : ServiceState) : Prop where
  status : ∀ n, members.lookup "status" = some (.integer n) → state.status = n ∨ state.status = -1
  protect : ∀ n, members.lookup "protect" = some (.integer n) → state.protect = n
  running : state.status = 0 → members.lookup "status" = some (.integer 0)

/-- The integers of an entry of the list that the conversion keeps: those that fit, and a
status that comes out as the -1 of an unreadable one. -/
def Keepable (members : Members) : Prop :=
  (∀ n, members.lookup "status" = some (.integer n) → FitsInt32 n ∨ n % 4294967296 = 4294967295) ∧
    ∀ n, members.lookup "protect" = some (.integer n) → FitsInt32 n

theorem statusKept_iff {nl : Nlohmann} {data : String} {success : Bool} {status : Int}
    (h : StatusRead nl data success status) : StatusKept nl data success status ↔
      ∀ n, nl.ObjectWith data "status" (.integer n) → FitsInt32 n := by
  constructor
  · intro ⟨hkept, _⟩ n hn
    have hstatus : status = Json.toInt32 n := h.reads n hn
    rcases hkept n hn with hfail | hn'
    · rw [h.accepts.mpr ⟨n, hn⟩] at hfail
      cases hfail
    · exact (Json.toInt32_eq_self_iff n).mp (hstatus.symm.trans hn')
  · intro hfits
    have hkept : ∀ n, nl.ObjectWith data "status" (.integer n) → status = n := by
      intro n hn
      rw [h.reads n hn]
      exact (Json.toInt32_eq_self_iff n).mpr (hfits n hn)
    constructor
    · intro n hn
      exact .inr (hkept n hn)
    · intro hs hzero
      obtain ⟨n, hn⟩ := h.accepts.mp hs
      have hn0 : n = 0 := (hkept n hn).symm.trans hzero
      rwa [hn0] at hn

theorem entryKept_iff {members : Members} {state : ServiceState} (h : Describes members state) :
    EntryKept members state ↔ Keepable members := by
  constructor
  · intro hkept
    constructor
    · intro n hn
      rw [← Json.toInt32_eq_self_iff, ← Json.toInt32_eq_neg_one_iff, ← h.status.1 n hn]
      exact hkept.status n hn
    · intro n hn
      rw [← Json.toInt32_eq_self_iff, ← h.protect.1 n hn]
      exact hkept.protect n hn
  · intro ⟨hstatus, hprotect⟩
    have hkept : ∀ n, members.lookup "status" = some (.integer n) →
        state.status = n ∨ state.status = -1 := by
      intro n hn
      rw [h.status.1 n hn, Json.toInt32_eq_self_iff, Json.toInt32_eq_neg_one_iff]
      exact hstatus n hn
    constructor
    · exact hkept
    · intro n hn
      rw [h.protect.1 n hn, Json.toInt32_eq_self_iff]
      exact hprotect n hn
    · intro hzero
      by_cases hint : ∃ n, members.lookup "status" = some (.integer n)
      · obtain ⟨n, hn⟩ := hint
        rcases hkept n hn with heq | heq
        · rw [hn, ← heq, hzero]
        · omega
      · have hone := h.status.2 fun n hn => hint ⟨n, hn⟩
        omega

theorem forall₂_entryKept_iff {objects : List Members} {services : List ServiceState}
    (h : List.Forall₂ Describes objects services) :
    List.Forall₂ EntryKept objects services ↔ ∀ members ∈ objects, Keepable members := by
  induction h with
  | nil => simp
  | cons hd _ ih => rw [List.forall₂_cons, List.forall_mem_cons, entryKept_iff hd, ih]

/-- **When the states of the services are reported as they came.**  A reply with status
code 0 to a switch has its status reported as it came, or as unreadable, and as 0 only for
0, exactly if that status fits an `int32_t`.  A reply to a list has the status and protect
of its entries reported so exactly if each fits, or a status that does not fit is -1
modulo 2^32 and so comes out as an unreadable one. -/
theorem values_kept_iff (nl : Nlohmann) (msg : Response) (clk : Clock) (r : RequestId)
    (hcode : msg.code = statusOk) :
    (∀ s, Settles s msg (.serviceSwitch r) → ∃ s' out success message status,
      robotStateBridgeStep nl s (.response msg, clk) = some (s', out) ∧
        answersOf RobotOut.answer? out = [(r, .serviceSwitch success message status)] ∧
        (StatusKept nl msg.data success status ↔
          ∀ n, nl.ObjectWith msg.data "status" (.integer n) → FitsInt32 n)) ∧
    (∀ s, Settles s msg (.serviceList r) → ∃ s' out success message services,
      robotStateBridgeStep nl s (.response msg, clk) = some (s', out) ∧
        answersOf RobotOut.answer? out = [(r, .serviceList success message services)] ∧
        ∀ items, nl.parse msg.data = some (.array items) →
          (List.Forall₂ EntryKept (objectsOf items) services ↔
            ∀ members ∈ objectsOf items, Keepable members)) := by
  constructor
  · intro s h
    obtain ⟨s', out, success, message, status, hstep, hans, hread⟩ :=
      serviceSwitch_read nl clk h hcode
    exact ⟨s', out, success, message, status, hstep, hans, statusKept_iff hread⟩
  · intro s h
    obtain ⟨s', out, success, message, services, hstep, hans, hread⟩ :=
      serviceList_read nl clk h hcode
    refine ⟨s', out, success, message, services, hstep, hans, ?_⟩
    intro items hitems
    exact forall₂_entryKept_iff (hread.reads items hitems)

/-- The status 2^32 is reported as 0: running. -/
theorem wrapped_status_running :
    Nlohmann.replies.ObjectWith "\x7b\"status\":4294967296\x7d" "status" (.integer 4294967296) ∧
    ∃ s' out message,
      robotStateBridgeStep .replies awaitingServices
        (.response ⟨5, 1001, 0, "\x7b\"status\":4294967296\x7d"⟩, .at 0 0) = some (s', out) ∧
      answersOf RobotOut.answer? out = [(⟨[], 1⟩, .serviceSwitch true message 0)] ∧
      ¬ StatusKept .replies "\x7b\"status\":4294967296\x7d" true 0 := by
  have hwith : Nlohmann.replies.ObjectWith "\x7b\"status\":4294967296\x7d" "status"
      (.integer 4294967296) := ⟨_, rfl, rfl⟩
  refine ⟨hwith, ?_⟩
  have hset : Settles awaitingServices ⟨5, 1001, 0, "\x7b\"status\":4294967296\x7d"⟩
      (.serviceSwitch ⟨[], 1⟩) := ⟨_, rfl, rfl⟩
  obtain ⟨s', out, success, message, status, hstep, hans, hread⟩ :=
    serviceSwitch_read .replies (.at 0 0) hset rfl
  obtain rfl := hread.accepts.mpr ⟨_, hwith⟩
  obtain rfl : status = 0 := (hread.reads _ hwith).trans (by decide)
  refine ⟨s', out, message, hstep, hans, ?_⟩
  intro hkept
  rcases hkept.1 _ hwith with h | h
  · cases h
  · cases h

theorem values_kept_iff_twoReplies :
    (∃ s' out success message status,
      robotStateBridgeStep .replies awaitingServices
        (.response ⟨5, 1001, 0, "\x7b\"status\":4294967296\x7d"⟩, .at 0 0) = some (s', out) ∧
      answersOf RobotOut.answer? out = [(⟨[], 1⟩, .serviceSwitch success message status)] ∧
      ¬ StatusKept .replies "\x7b\"status\":4294967296\x7d" success status) ∧
    (∃ s' out success message services,
      robotStateBridgeStep .replies awaitingServices
        (.response ⟨6, 1003, 0, "[\x7b\"name\":\"mcf\",\"status\":1.5\x7d,3]"⟩, .at 0 0) =
        some (s', out) ∧
      answersOf RobotOut.answer? out = [(⟨[], 1⟩, .serviceList success message services)] ∧
      List.Forall₂ EntryKept
        [[("name", .string "mcf"), ("status", .float (.finite (3 / 2)))]] services) := by
  constructor
  · obtain ⟨s', out, success, message, status, hstep, hans, hiff⟩ :=
      (values_kept_iff .replies ⟨5, 1001, 0, "\x7b\"status\":4294967296\x7d"⟩ (.at 0 0) ⟨[], 1⟩ rfl).1
        awaitingServices ⟨_, rfl, rfl⟩
    refine ⟨s', out, success, message, status, hstep, hans, ?_⟩
    rw [hiff]
    intro hfits
    obtain ⟨-, hlt⟩ := hfits 4294967296 ⟨_, rfl, rfl⟩
    omega
  · obtain ⟨s', out, success, message, services, hstep, hans, hiff⟩ :=
      (values_kept_iff .replies ⟨6, 1003, 0, "[\x7b\"name\":\"mcf\",\"status\":1.5\x7d,3]"⟩ (.at 0 0)
        ⟨[], 1⟩ rfl).2 awaitingServices ⟨_, rfl, rfl⟩
    refine ⟨s', out, success, message, services, hstep, hans, (hiff _ rfl).mpr ?_⟩
    intro members hm
    rw [List.mem_singleton.mp hm]
    constructor
    · intro n hn
      cases hn
    · intro n hn
      cases hn

end Go2
