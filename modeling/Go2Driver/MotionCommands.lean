import Go2Driver.Transitions

/-!
# What a motion command carries

`cmd_vel` and `euler` put three doubles under x, y and z.  Nothing looks at them on the
way, and the JSON library writes a double that is not finite as `null`.  So a Move or
Euler request carries the numbers that were commanded exactly where all three are
finite; any other command is published all the same, with `null` in place of the number
(`motion_encoded_iff`), unless it is refused because too many calls wait.

What is used of the library is `Nlohmann.Writes`: these objects are printed, and read
back with `null` for each number that is none.
-/

namespace Go2

open Runs SportBridge

/-- A number that JSON can write. -/
def Double.isFinite : Double → Bool
  | .finite _ => true
  | .infinity _ | .nan => false

/-- What the library reads back for a double it wrote. -/
def Double.written : Double → Json
  | .finite q => .float (.finite q)
  | .infinity _ | .nan => .null

/-- The JSON number that equals a double: one with a fraction, or an integer. -/
def Json.IsNumber (js : Json) (d : Double) : Prop :=
  ∃ q, d = .finite q ∧ (js = .float (.finite q) ∨ ∃ n : Int, js = .integer n ∧ (n : Rat) = q)

theorem Double.isNumber_written_iff (d : Double) : d.written.IsNumber d ↔ d.isFinite = true := by
  constructor
  · intro ⟨q, hq, _⟩
    rw [hq]
    rfl
  · intro h
    cases d with
    | finite q => exact ⟨q, rfl, .inl rfl⟩
    | infinity negative => cases h
    | nan => cases h

/-- The three values of a command. -/
structure Motion where
  x : Double
  y : Double
  z : Double

def Motion.json (v : Motion) : Json := xyzJson v.x v.y v.z

def Motion.isFinite (v : Motion) : Prop :=
  v.x.isFinite = true ∧ v.y.isFinite = true ∧ v.z.isFinite = true

/-- The three values of a `Twist` or of an euler request. -/
def SportEvent.motion? : SportEvent → Option Motion
  | .cmdVel msg => some ⟨msg.linearX, msg.linearY, msg.angularZ⟩
  | .euler _ roll pitch yaw => some ⟨roll, pitch, yaw⟩
  | _ => none

variable (nl : Nlohmann)

/-- The library writes the command, and reads it back but for numbers that are none. -/
def Nlohmann.Writes (v : Motion) : Prop :=
  ∃ text, nl.dump v.json = some text ∧
    nl.parse text = some (.object [("x", v.x.written), ("y", v.y.written), ("z", v.z.written)])

/-- `text` is an object whose x, y and z are JSON numbers, equal to the command's. -/
def Carries (text : String) (v : Motion) : Prop :=
  ∃ js x y z, nl.parse text = some js ∧ js.member? "x" = some x ∧ js.member? "y" = some y ∧
    js.member? "z" = some z ∧ x.IsNumber v.x ∧ y.IsNumber v.y ∧ z.IsNumber v.z

/-- Every request among what was let out carries the command. -/
def Encoded (v : Motion) (out : List SportEmission) : Prop :=
  ∀ req entry, Out.published req entry ∈ out → Carries nl req.parameter v

/-- The event is refused unsent: an euler request while too many calls wait. -/
def MotionRefused (cfg : SportConfig) (s : SportState) : SportEvent → Prop
  | .euler _ _ _ _ => cfg.waitForResponse = true ∧ s.client.full
  | _ => False

variable {nl}

/-- What was written carries the command exactly where the command is finite. -/
theorem carries_iff {v : Motion} {text : String}
    (hp : nl.parse text = some (.object [("x", v.x.written), ("y", v.y.written), ("z", v.z.written)])) :
    Carries nl text v ↔ v.isFinite := by
  constructor
  · intro ⟨js, x, y, z, hjs, hx, hy, hz, hvx, hvy, hvz⟩
    rw [hp, Option.some.injEq] at hjs
    subst hjs
    cases hx
    cases hy
    cases hz
    exact ⟨v.x.isNumber_written_iff.mp hvx, v.y.isNumber_written_iff.mp hvy,
      v.z.isNumber_written_iff.mp hvz⟩
  · intro ⟨hx, hy, hz⟩
    exact ⟨_, _, _, _, hp, rfl, rfl, rfl, v.x.isNumber_written_iff.mpr hx,
      v.y.isNumber_written_iff.mpr hy, v.z.isNumber_written_iff.mpr hz⟩

/-- Where one request is published, its text decides. -/
theorem encoded_iff_of_published {v : Motion} {req : Request} {entry : Option (PendingRequest Callback)}
    {rest : List SportEmission} (hrest : ∀ req entry, Out.published req entry ∉ rest)
    (hp : nl.parse req.parameter =
      some (.object [("x", v.x.written), ("y", v.y.written), ("z", v.z.written)])) :
    Encoded nl v (.published req entry :: rest) ↔ v.isFinite := by
  constructor
  · intro h
    exact (carries_iff hp).mp (h req entry List.mem_cons_self)
  · intro h req' entry' hm
    rcases List.mem_cons.mp hm with heq | hm
    · cases heq
      exact (carries_iff hp).mpr h
    · exact absurd hm (hrest req' entry')

variable {cfg : SportConfig} {s : SportState} {clk : Clock}

theorem cmdVel_encoded {msg : Twist} {v : Motion} (hv : (SportEvent.cmdVel msg).motion? = some v)
    (h : nl.Writes v) : ∃ s' out, sportBridgeStep nl cfg s (.cmdVel msg, clk) = some (s', out) ∧
      (Encoded nl v out ↔ v.isFinite) := by
  cases hv
  obtain ⟨text, hd, hp⟩ := h
  refine ⟨_, _, cmdVel_step hd clk, ?_⟩
  apply encoded_iff_of_published _ hp
  intro req entry hm
  cases hm

theorem euler_encoded {r : RequestId} {roll pitch yaw : Double} {v : Motion}
    (hv : (SportEvent.euler r roll pitch yaw).motion? = some v) (h : nl.Writes v) :
    ∃ s' out, sportBridgeStep nl cfg s (.euler r roll pitch yaw, clk) = some (s', out) ∧
      (Encoded nl v out ↔ v.isFinite ∨ cfg.waitForResponse = true ∧ s.client.full) := by
  cases hv
  obtain ⟨text, hd, hp⟩ := h
  cases hw : cfg.waitForResponse with
  | true =>
    by_cases hf : s.client.full
    · refine ⟨_, _, notSent_step rfl hw hf clk, iff_of_true ?_ (.inr ⟨rfl, hf⟩)⟩
      intro req entry hm
      rcases List.mem_cons.mp hm with heq | hm
      · cases heq
      · cases List.mem_singleton.mp hm
    · refine ⟨_, _, sent_step rfl hw hf hd clk, ?_⟩
      rw [encoded_iff_of_published ?_ hp]
      · constructor
        · intro hfin
          exact .inl hfin
        · rintro (hfin | ⟨-, hfull⟩)
          · exact hfin
          · exact absurd hfull hf
      · intro req entry hm
        cases hm
  | false =>
    refine ⟨_, _, atOnce_step rfl hw hd clk, ?_⟩
    rw [encoded_iff_of_published ?_ hp]
    · constructor
      · intro hfin
        exact .inl hfin
      · rintro (hfin | ⟨hwait, -⟩)
        · exact hfin
        · cases hwait
    · intro req entry hm
      rcases List.mem_cons.mp hm with heq | hm
      · cases heq
      · exact published_notMem_report nl cfg req entry _ _ hm

/-- **When a motion command reaches the wire as it was commanded.**  From every state a
Twist or an euler request completes, and every request it publishes carries its three
numbers, exactly if the three are finite or the request is refused unsent.  A run has
that of all its commands exactly if each of them is finite or refused. -/
theorem motion_encoded_iff (nl : Nlohmann) (cfg : SportConfig) :
    (∀ s e clk v, e.motion? = some v → nl.Writes v →
      ∃ s' out, sportBridgeStep nl cfg s (e, clk) = some (s', out) ∧
        (Encoded nl v out ↔ v.isFinite ∨ MotionRefused cfg s e)) ∧
    (∀ timeoutMs tr s, SportRun nl cfg timeoutMs tr s →
      (∀ st ∈ tr, ∀ v, st.event.1.motion? = some v → nl.Writes v) →
      ((∀ st ∈ tr, ∀ v, st.event.1.motion? = some v → Encoded nl v st.out) ↔
        ∀ st ∈ tr, ∀ v, st.event.1.motion? = some v →
          v.isFinite ∨ MotionRefused cfg st.pre st.event.1)) := by
  have hstep : ∀ s e clk v, e.motion? = some v → nl.Writes v →
      ∃ s' out, sportBridgeStep nl cfg s (e, clk) = some (s', out) ∧
        (Encoded nl v out ↔ v.isFinite ∨ MotionRefused cfg s e) := by
    intro s e clk v hv hw
    cases e with
    | cmdVel msg =>
      obtain ⟨s', out, hs, hiff⟩ := cmdVel_encoded hv hw
      exact ⟨s', out, hs, hiff.trans (or_iff_left id).symm⟩
    | euler r roll pitch yaw => exact euler_encoded hv hw
    | _ => cases hv
  refine ⟨hstep, ?_⟩
  intro timeoutMs tr s h hwrites
  have hone : ∀ st ∈ tr, ∀ v, st.event.1.motion? = some v →
      (Encoded nl v st.out ↔ v.isFinite ∨ MotionRefused cfg st.pre st.event.1) := by
    intro st hst v hv
    obtain ⟨tr₁, tr₂, rfl⟩ := List.append_of_mem hst
    obtain ⟨-, hs, -⟩ := Run.split h
    obtain ⟨s', out, hs', hiff⟩ := hstep st.pre st.event.1 st.event.2 v hv (hwrites st hst v hv)
    rw [hs, Option.some.injEq, Prod.mk.injEq] at hs'
    rw [hs'.2]
    exact hiff
  constructor
  · intro henc st hst v hv
    exact (hone st hst v hv).mp (henc st hst v hv)
  · intro hcond st hst v hv
    exact (hone st hst v hv).mpr (hcond st hst v hv)

/-! ## Two velocities -/

/-- A velocity, and one with no number for x. -/
def forward : Motion := ⟨.finite (1 / 4), .finite 0, .finite (1 / 4)⟩
def unreadable : Motion := ⟨.nan, .finite 0, .finite (1 / 4)⟩

/-- The library on the two. -/
def Nlohmann.velocities : Nlohmann where
  dump
    | .object [("x", .float x), ("y", .float _), ("z", .float _)] =>
      some (if x = .nan then "\x7b\"x\":null,\"y\":0.0,\"z\":0.25\x7d"
        else "\x7b\"x\":0.25,\"y\":0.0,\"z\":0.25\x7d")
    | _ => none
  parse
    | "\x7b\"x\":null,\"y\":0.0,\"z\":0.25\x7d" =>
      some (.object [("x", .null), ("y", .float (.finite 0)), ("z", .float (.finite (1 / 4)))])
    | "\x7b\"x\":0.25,\"y\":0.0,\"z\":0.25\x7d" => some forward.json
    | _ => none

def Motion.twist (v : Motion) : Twist := ⟨v.x, v.y, v.z⟩

theorem writes_forward : Nlohmann.velocities.Writes forward := ⟨_, rfl, rfl⟩

theorem writes_unreadable : Nlohmann.velocities.Writes unreadable := ⟨_, rfl, rfl⟩

/-- The two velocities on a new bridge. -/
def twoVelocities : SportTrace × SportState :=
  execute (sportBridgeStep .velocities (.ofParameters initPresets true defaultBlockedModes)) (.start 2000)
    [(.cmdVel forward.twist, .at 5 0),
      (.euler ⟨[], 1⟩ (.finite (1 / 4)) (.finite 0) (.finite (1 / 4)), .at 5 0)]

theorem motion_encoded_iff_twoVelocities :
    (∃ s' out, sportBridgeStep .velocities (.ofParameters initPresets true defaultBlockedModes)
      (.start 2000) (.cmdVel forward.twist, .at 5 0) = some (s', out) ∧ Encoded .velocities forward out) ∧
    twoVelocities.1.length = 2 ∧ ∀ st ∈ twoVelocities.1, ∀ v, st.event.1.motion? = some v →
      Encoded .velocities v st.out := by
  obtain ⟨hone, hall⟩ := motion_encoded_iff .velocities (.ofParameters initPresets true defaultBlockedModes)
  have hmotion : ∀ st ∈ twoVelocities.1, ∀ v, st.event.1.motion? = some v → v = forward := by
    intro st hst v hv
    rcases List.mem_cons.mp hst with rfl | hst
    · cases hv
      rfl
    · rw [List.mem_singleton.mp hst] at hv
      cases hv
      rfl
  constructor
  · obtain ⟨s', out, hs, hiff⟩ := hone (.start 2000) (.cmdVel forward.twist) (.at 5 0) forward rfl writes_forward
    exact ⟨s', out, hs, hiff.mpr (.inl ⟨rfl, rfl, rfl⟩)⟩
  · refine ⟨rfl, (hall 2000 _ _ (Run.execute _ _ _) ?_).mpr ?_⟩
    · intro st hst v hv
      rw [hmotion st hst v hv]
      exact writes_forward
    · intro st hst v hv
      rw [hmotion st hst v hv]
      exact .inl ⟨rfl, rfl, rfl⟩

/-- The velocity without a number is published, with null for x. -/
theorem unreadable_published :
    (∃ s' req, sportBridgeStep .velocities (.ofParameters initPresets true defaultBlockedModes)
        (.start 2000) (.cmdVel unreadable.twist, .at 5 0) = some (s', [.published req none]) ∧
      req.apiId = SportApiId.move.code ∧
      (∃ js, Nlohmann.velocities.parse req.parameter = some js ∧ js.member? "x" = some .null) ∧
      ¬ Carries .velocities req.parameter unreadable) ∧
    ¬ ∀ (nl : Nlohmann) (cfg : SportConfig) timeoutMs tr s, SportRun nl cfg timeoutMs tr s →
      (∀ st ∈ tr, ∀ v, st.event.1.motion? = some v → nl.Writes v) →
      ∀ st ∈ tr, ∀ v, st.event.1.motion? = some v → Encoded nl v st.out := by
  have hnot : ∀ text, Nlohmann.velocities.parse text =
      some (.object [("x", .null), ("y", .float (.finite 0)), ("z", .float (.finite (1 / 4)))]) →
      ¬ Carries .velocities text unreadable := by
    intro text hp hc
    have := (carries_iff (v := unreadable) hp).mp hc
    cases this.1
  refine ⟨⟨_, _, rfl, rfl, ⟨_, rfl, rfl⟩, hnot _ rfl⟩, ?_⟩
  intro hall
  have hrun : SportRun .velocities (.ofParameters initPresets true defaultBlockedModes) 2000
      (execute (sportBridgeStep .velocities (.ofParameters initPresets true defaultBlockedModes))
        (.start 2000) [(.cmdVel unreadable.twist, .at 5 0)]).1 _ := Run.execute _ _ _
  have henc := hall _ _ _ _ _ hrun (by
    intro st hst v hv
    rw [List.mem_singleton.mp hst] at hv
    cases hv
    exact writes_unreadable) _ List.mem_cons_self unreadable rfl
  exact hnot _ rfl (henc _ _ List.mem_cons_self)

end Go2
