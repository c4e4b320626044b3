import Go2Driver.Json
import Go2Driver.Lib.Runs
import Go2Driver.Lib.Tables

/-!
# `UnitreeApiClient` and the node that owns it

The client keeps a table of calls that await a reply (`pending_`), stamps each
request with an id of its own (`nextId`) and hands each reply, or the time-out,
to the callback the call registered.

Everything runs on one executor thread.  What a callback of the node may do is
a `Prog`: it reaches the client only through `call` and `send`, reads and writes
the node's own fields `θ`, lets out values `ω` and log lines, and may end in a
`Fault`.  Callbacks held by the client are values of a type `κ`; their code is
a map `body : κ → ApiResult → Prog`.  So a statement for every `κ`, `θ` and
`body` holds of every node.

A node's event (`NodeEvent`) is a program started by the executor (a service,
subscription or timer callback), a Response message, or a firing of the sweep
timer.  `nodeStep` is the system of completed events: an exception out of a
callback leaves the executor and ends the process, so there is no state after
it.  `Node.perform` gives the node at that point as well.

Ids are `Int`: below the `int64_t` maximum the two agree.
-/

namespace Go2

open Tables Runs

/-! ## Messages and the client's fields -/

structure ApiResult where
  ok : Bool
  statusCode : Int
  data : String
deriving DecidableEq, Repr

/-- `unitree_api::msg::Request`. -/
structure Request where
  id : Int
  apiId : Int
  noreply : Bool
  parameter : String
deriving DecidableEq, Repr

/-- `unitree_api::msg::Response`. -/
structure Response where
  id : Int
  apiId : Int
  code : Int
  data : String
deriving DecidableEq, Repr

/-- `rmw_request_id_t`: the service request an answer is for. -/
structure RequestId where
  writerGuid : List UInt8
  sequenceNumber : Int
deriving DecidableEq, Repr

/-- The message of a service whose request `call` refused. -/
def couldNotBeSent (apiId : Int) : String := "api_id=" ++ toString apiId ++ " could not be sent"

structure PendingRequest (κ : Type) where
  apiId : Int
  deadline : Int
  callback : κ
deriving DecidableEq

structure UnitreeApiClient (κ : Type) where
  pending : Table Int (PendingRequest κ)
  timeoutMs : Int
  lastId : Int

abbrev PendingEntry (κ : Type) := Entry Int (PendingRequest κ)

def statusOk : Int := 0
def statusTimeout : Int := -1
def maxPending : Nat := 64
def sweepPeriodMs : Int := 100

/-- One reading of both clocks, in nanoseconds: `steady_clock` and the node's. -/
structure Reading where
  steady : Int
  now : Int

/-- The readings one event takes, in order. -/
abbrev Clock := Nat → Reading

def Clock.tail (c : Clock) : Clock := fun i => c (i + 1)

inductive Severity
  | debug | info | warn | error
deriving DecidableEq, Repr

/-! ## What callbacks may do -/

inductive Prog (κ θ ω α : Type) : Type
  | ret (a : α)
  | raise (f : Fault)
  | callThen (apiId : Int) (parameter : Json) (onResponse : κ) (next : Bool → Prog κ θ ω α)
  | sendThen (apiId : Int) (parameter : Json) (noreply : Bool) (next : Prog κ θ ω α)
  | readThen (next : θ → Prog κ θ ω α)
  | writeThen (host : θ) (next : Prog κ θ ω α)
  | emitThen (o : ω) (next : Prog κ θ ω α)
  | logThen (severity : Severity) (text : String) (next : Prog κ θ ω α)

namespace Prog

variable {κ θ ω α β : Type}

def bind : Prog κ θ ω α → (α → Prog κ θ ω β) → Prog κ θ ω β
  | .ret a, q => q a
  | .raise f, _ => .raise f
  | .callThen a p cb next, q => .callThen a p cb fun sent => (next sent).bind q
  | .sendThen a p noreply next, q => .sendThen a p noreply (next.bind q)
  | .readThen next, q => .readThen fun h => (next h).bind q
  | .writeThen h next, q => .writeThen h (next.bind q)
  | .emitThen o next, q => .emitThen o (next.bind q)
  | .logThen sev text next, q => .logThen sev text (next.bind q)

instance : Monad (Prog κ θ ω) where
  pure := .ret
  bind := .bind

/-- `api_client_->call(api_id, parameter, on_response)`. -/
def call (apiId : Int) (parameter : Json) (onResponse : κ) : Prog κ θ ω Bool :=
  .callThen apiId parameter onResponse .ret

/-- `api_client_->send(api_id, parameter, noreply)`. -/
def send (apiId : Int) (parameter : Json) (noreply : Bool) : Prog κ θ ω Unit :=
  .sendThen apiId parameter noreply (.ret ())

def read : Prog κ θ ω θ := .readThen .ret
def write (host : θ) : Prog κ θ ω Unit := .writeThen host (.ret ())
def emit (o : ω) : Prog κ θ ω Unit := .emitThen o (.ret ())
def log (severity : Severity) (text : String) : Prog κ θ ω Unit := .logThen severity text (.ret ())

def ofExcept : Except Fault α → Prog κ θ ω α
  | .ok a => .ret a
  | .error f => .raise f

end Prog

/-! ## A node in the middle of an event -/

/-- What a node lets out.  `published` and `invoked` are recorded with the entry
of `pending_` they belong to: the one `call` registered for the request, or the
one whose callback is run. -/
inductive Out (κ ω : Type)
  | published (req : Request) (entry : Option (PendingRequest κ))
  | invoked (id : Int) (entry : PendingRequest κ) (result : ApiResult)
  | log (severity : Severity) (text : String)
  | host (o : ω)
deriving DecidableEq

/-- A node between events. -/
structure State (κ θ : Type) where
  client : UnitreeApiClient κ
  host : θ

structure Node (κ θ ω : Type) extends State κ θ where
  clock : Clock
  out : List (Out κ ω)

variable {κ θ ω α β : Type}

def Node.emit (o : Out κ ω) (n : Node κ θ ω) : Node κ θ ω := { n with out := n.out ++ [o] }

def Node.log (severity : Severity) (text : String) (n : Node κ θ ω) : Node κ θ ω :=
  n.emit (.log severity text)

def Node.setPending (pending : Table Int (PendingRequest κ)) (n : Node κ θ ω) : Node κ θ ω :=
  { n with client := { n.client with pending } }

/-- `nextId`: `last_id_ = std::max(id, last_id_ + 1)`. -/
def UnitreeApiClient.nextId (c : UnitreeApiClient κ) (steady : Int) : Int × UnitreeApiClient κ :=
  (max steady (c.lastId + 1), { c with lastId := max steady (c.lastId + 1) })

section
variable (nl : Nlohmann)

def Node.publish (id apiId : Int) (parameter : Json) (noreply : Bool)
    (entry : Option (PendingRequest κ)) (n : Node κ θ ω) : Node κ θ ω × Except Fault Unit :=
  match nl.dump parameter with
  | none => (n, .error .typeError)
  | some text => (n.emit (.published ⟨id, apiId, noreply, text⟩ entry), .ok ())

def Node.send (apiId : Int) (parameter : Json) (noreply : Bool) (n : Node κ θ ω) :
    Node κ θ ω × Except Fault Unit :=
  let next := n.client.nextId (n.clock 0).steady
  Node.publish nl next.1 apiId parameter noreply none
    { n with client := next.2, clock := n.clock.tail }

def Node.call (apiId : Int) (parameter : Json) (onResponse : κ) (n : Node κ θ ω) :
    Node κ θ ω × Except Fault Bool :=
  if maxPending ≤ n.client.pending.entries.length then
    (n.log .error ("dropping api_id=" ++ toString apiId ++ ": " ++
      toString n.client.pending.entries.length ++ " requests are already awaiting a reply"), .ok false)
  else
    let next := n.client.nextId (n.clock 0).steady
    let entry : PendingRequest κ :=
      ⟨apiId, (n.clock 0).now + n.client.timeoutMs * 1000000, onResponse⟩
    -- emplaced before the parameter is serialised
    let registered : Node κ θ ω :=
      { n with
        client := { next.2 with pending := emplace next.1 entry next.2.pending }
        clock := n.clock.tail }
    match Node.publish nl next.1 apiId parameter false (some entry) registered with
    | (n', .ok ()) => (n', .ok true)
    | (n', .error f) => (n', .error f)

def exec : Prog κ θ ω α → Node κ θ ω → Node κ θ ω × Except Fault α
  | .ret a, n => (n, .ok a)
  | .raise f, n => (n, .error f)
  | .callThen apiId parameter onResponse next, n =>
    match n.call nl apiId parameter onResponse with
    | (n', .ok sent) => exec (next sent) n'
    | (n', .error f) => (n', .error f)
  | .sendThen apiId parameter noreply next, n =>
    match n.send nl apiId parameter noreply with
    | (n', .ok ()) => exec next n'
    | (n', .error f) => (n', .error f)
  | .readThen next, n => exec (next n.host) n
  | .writeThen h next, n => exec next { n with host := h }
  | .emitThen o next, n => exec next (n.emit (.host o))
  | .logThen sev text next, n => exec next (n.log sev text)

variable (body : κ → ApiResult → Prog κ θ ω Unit)

/-- `callback(result)` for the entry taken from `pending_` under `id`. -/
def Node.invoke (id : Int) (entry : PendingRequest κ) (result : ApiResult) (n : Node κ θ ω) :
    Node κ θ ω × Except Fault Unit :=
  exec nl (body entry.callback result) (n.emit (.invoked id entry result))

def Node.responseCallback (msg : Response) (n : Node κ θ ω) : Node κ θ ω × Except Fault Unit :=
  match n.client.pending.lookup msg.id with
  | none => (n.log .debug ("ignoring reply for id=" ++ toString msg.id), .ok ())
  | some entry =>
    let n₁ :=
      if entry.apiId ≠ msg.apiId then
        n.log .warn ("reply for id=" ++ toString msg.id ++ " carries api_id=" ++
          toString msg.apiId ++ ", expected " ++ toString entry.apiId)
      else n
    -- a mismatch is only logged: the entry is taken all the same
    Node.invoke nl body msg.id entry ⟨decide (msg.code = statusOk), msg.code, msg.data⟩
      (n₁.setPending (n₁.client.pending.erase msg.id))

/-- The loop of `sweepTimeouts` over the entries that are left to visit. -/
def Node.sweepLoop (now : Int) : List (PendingEntry κ) → Node κ θ ω →
    Node κ θ ω × List (PendingEntry κ)
  | [], n => (n, [])
  | e :: rest, n =>
    if e.2.deadline > now then Node.sweepLoop now rest n
    else
      let n₁ := n.log .warn ("no reply for api_id=" ++ toString e.2.apiId ++ " within the timeout")
      let swept := Node.sweepLoop now rest (n₁.setPending (n₁.client.pending.erase e.1))
      (swept.1, e :: swept.2)

/-- The callbacks of the entries a sweep took, one after the other. -/
def Node.invokeAll : List (PendingEntry κ) → Node κ θ ω → Node κ θ ω × Except Fault Unit
  | [], n => (n, .ok ())
  | e :: rest, n =>
    match Node.invoke nl body e.1 e.2 ⟨false, statusTimeout, ""⟩ n with
    | (n', .ok ()) => Node.invokeAll rest n'
    | (n', .error f) => (n', .error f)

def Node.sweepTimeouts (order : IterationOrder (PendingEntry κ)) (n : Node κ θ ω) :
    Node κ θ ω × Except Fault Unit :=
  if n.client.pending.entries = [] then (n, .ok ())
  else
    let swept := Node.sweepLoop (n.clock 0).now (order.arrange n.client.pending.entries)
      { n with clock := n.clock.tail }
    Node.invokeAll nl body swept.2 swept.1

/-! ## Events -/

inductive NodeEvent (κ θ ω : Type)
  | handler (p : Prog κ θ ω Unit)
  | response (msg : Response)
  | sweep (order : IterationOrder (PendingEntry κ))

def Node.perform : NodeEvent κ θ ω → Node κ θ ω → Node κ θ ω × Except Fault Unit
  | .handler p, n => exec nl p n
  | .response msg, n => n.responseCallback nl body msg
  | .sweep order, n => n.sweepTimeouts nl body order

/-- One event from a state, with the clock readings it takes. -/
def State.perform (s : State κ θ) (e : NodeEvent κ θ ω × Clock) :
    Node κ θ ω × Except Fault Unit :=
  Node.perform nl body e.1 ⟨s, e.2, []⟩

def nodeStep (s : State κ θ) (e : NodeEvent κ θ ω × Clock) : Option (State κ θ × List (Out κ ω)) :=
  match s.perform nl body e with
  | (n, .ok ()) => some (n.toState, n.out)
  | (_, .error _) => none

/-- A node whose client was just constructed. -/
def State.start (timeoutMs : Int) (host : θ) : State κ θ := ⟨⟨∅, timeoutMs, 0⟩, host⟩

end

end Go2
