import Mathlib.Data.List.Basic

/-!
# JSON values, as the bridges build and read them

The part of `nlohmann::json` the nodes use.  Printing and parsing are the
library's (`Nlohmann`, a parameter of the development); building a value,
asking for its type and taking it apart are here.  A `std::string` is a
`String` with one character a byte, so any byte sequence a ROS message can
carry is a value.

`Fault` is how a piece of C++ can end other than by returning: an exception,
or a use the language leaves undefined (`Fault.undefined`).
-/

namespace Go2

inductive Fault
  /-- `nlohmann::json::type_error`: a string that is not UTF-8, a value of another type -/
  | typeError
  /-- `std::invalid_argument` of `create_wall_timer` for a negative period -/
  | invalidPeriod
  /-- `operator[]` of a const value that has no such member -/
  | missingMember
  /-- `*optional` without a value -/
  | emptyOptional
  /-- a vector index past the end -/
  | outOfRange
  /-- a method of a null `shared_ptr` -/
  | nullTimer
deriving DecidableEq, Repr

/-- Not an exception: the language gives no meaning to it. -/
def Fault.undefined : Fault → Bool
  | typeError | invalidPeriod => false
  | missingMember | emptyOptional | outOfRange | nullTimer => true

/-- An IEEE double: a number, or one of the values that is none. -/
inductive Double
  | finite (value : Rat)
  | infinity (negative : Bool)
  | nan
deriving DecidableEq

inductive Json
  | null
  | boolean (b : Bool)
  | integer (n : Int)
  | float (d : Double)
  | string (s : String)
  | array (items : List Json)
  | object (members : List (String × Json))

/-- `dump()` with the strict handler (`none`: it throws) and `parse(s, nullptr, false)`
(`none`: discarded). -/
structure Nlohmann where
  dump : Json → Option String
  parse : String → Option Json

namespace Json

/-- Members are a `std::map`: sorted by key, one value a key. -/
def setMember (key : String) (value : Json) : List (String × Json) → List (String × Json)
  | [] => [(key, value)]
  | (k, v) :: rest =>
    if key < k then (key, value) :: (k, v) :: rest
    else if key = k then (key, value) :: rest
    else (k, v) :: setMember key value rest

/-- `js[key] = value` on a null value or an object. -/
def set (js : Json) (key : String) (value : Json) : Json :=
  match js with
  | .object members => .object (setMember key value members)
  | _ => .object [(key, value)]

def contains (key : String) : Json → Bool
  | .object members => (members.lookup key).isSome
  | _ => false

/-- `js[key]` of a const value. -/
def member (key : String) : Json → Except Fault Json
  | .object members =>
    match members.lookup key with
    | some value => .ok value
    | none => .error .missingMember
  | _ => .error .typeError

def isBoolean : Json → Bool
  | .boolean _ => true
  | _ => false

def isNumberInteger : Json → Bool
  | .integer _ => true
  | _ => false

def isString : Json → Bool
  | .string _ => true
  | _ => false

def isObject : Json → Bool
  | .object _ => true
  | _ => false

/-- `get<bool>()`. -/
def getBool : Json → Except Fault Bool
  | .boolean b => .ok b
  | _ => .error .typeError

/-- `get<std::string>()`. -/
def getString : Json → Except Fault String
  | .string s => .ok s
  | _ => .error .typeError

/-- A plain cast to `int32_t`. -/
def toInt32 (n : Int) : Int := Int.bmod n 4294967296

/-- `get<int32_t>()`, where the callers use it: on an integer. -/
def getInt32 : Json → Except Fault Int
  | .integer n => .ok (toInt32 n)
  | _ => .error .typeError

end Json

/-- `emptyJson`. -/
def emptyJson : Json := .object []

/-- `dataJson`. -/
def dataJson (value : Json) : Json := Json.null.set "data" value

/-- `xyzJson`: both Move and Euler take their three values under x / y / z. -/
def xyzJson (x y z : Double) : Json :=
  ((Json.null.set "x" (.float x)).set "y" (.float y)).set "z" (.float z)

example (x y z : Double) :
    xyzJson x y z = .object [("x", .float x), ("y", .float y), ("z", .float z)] := rfl

/-- A value's member under `key`, where it is an object that has one. -/
def Json.member? (key : String) : Json → Option Json
  | .object members => members.lookup key
  | _ => none

theorem Json.contains_iff (key : String) (js : Json) :
    js.contains key = true ↔ ∃ v, js.member? key = some v := by
  cases js <;> simp [contains, member?, Option.isSome_iff_exists]

theorem Json.member_eq {key : String} {js v : Json} (h : js.member? key = some v) :
    js.member key = .ok v := by
  cases js <;> simp_all [member?, member]

/-! ## The library on small values -/

def printScalar : Json → Option String
  | .null => some "null"
  | .boolean b => some (if b then "true" else "false")
  | .integer n => some (toString n)
  | .float .nan | .float (.infinity _) => some "null"
  | _ => none

def printMember (m : String × Json) : Option String :=
  (printScalar m.2).map fun text => "\"" ++ m.1 ++ "\":" ++ text

/-- Prints objects of plain members, and reads back the flag of a reply. -/
def Nlohmann.small : Nlohmann where
  dump
    | .object members =>
      (members.mapM printMember).map fun texts => "\x7b" ++ ",".intercalate texts ++ "\x7d"
    | js => printScalar js
  parse
    | "\x7b\"data\":true\x7d" => some (.object [("data", .boolean true)])
    | "\x7b\"data\":false\x7d" => some (.object [("data", .boolean false)])
    | "\x7b\x7d" => some (.object [])
    | "null" => some .null
    | _ => none

end Go2
