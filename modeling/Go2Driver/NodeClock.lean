import Go2Driver.CloudStamps

/-!
# Stamps from the node's own clock

With `use_msg_stamp_` off every stamp is a reading of the node's clock.  While the clock does
not run backward (`Clocked`) no callback throws, and the transforms and the clouds go out in
the order of their stamps.  A cloud is always read after the transform before it, so it always
leads it: from the first transform on, every cloud is given the stamp of the last one, and the
lead goes to the throttled logger where the clock has moved on by more than `staleTfWarnNs`
(`own_clock`).
-/

namespace Go2

open Runs

/-- What a `builtin_interfaces::msg::Time` can hold. -/
def RosTime.Representable (t : RosTime) : Prop := 0 ≤ t.nanoseconds ∧ t.nanoseconds < 2 ^ 31 * 1000000000

theorem RosTime.sec_toStamp {t : RosTime} (h : t.Representable) :
    t.toStamp.sec.toInt = t.nanoseconds / 1000000000 := by
  obtain ⟨h₀, h₁⟩ := h
  exact Int32.toInt_ofInt_of_le (by omega) (by omega)

theorem RosTime.sec_nonneg {t : RosTime} (h : t.Representable) : 0 ≤ t.toStamp.sec.toInt := by
  have := h.1
  rw [RosTime.sec_toStamp h]
  omega

theorem RosTime.total_toStamp {t : RosTime} (h : t.Representable) : t.toStamp.total = t.nanoseconds := by
  have hnano : (t.toStamp.nanosec.toNat : Int) = t.nanoseconds % 1000000000 := by
    unfold RosTime.toStamp
    rw [UInt32.toNat_ofNat']
    omega
  unfold Stamp.total
  rw [RosTime.sec_toStamp h, hnano]
  omega

section
variable {R : Type}

/-- The stamps of the transforms and of the clouds, in the order they went out. -/
def framesIn (L : List (DriverOut R)) : List Stamp :=
  L.filterMap fun
    | .transforms tfs => tfs.head?.map (·.stamp)
    | .cloud msg => some msg.stamp
    | _ => none

theorem framesIn_append (L L' : List (DriverOut R)) : framesIn (L ++ L') = framesIn L ++ framesIn L' :=
  List.filterMap_append

theorem framesIn_odomOut [Add R] (cfg : DriverConfig R) (stamp : Stamp) (msg : Odometry R) :
    framesIn (odomOut cfg stamp msg) = [] := by
  unfold odomOut
  split <;> rfl

theorem framesIn_staleWarning (cfg : DriverConfig R) (last : RosTime) (stamp : Stamp) :
    framesIn (staleWarning cfg last stamp) = [] := by
  unfold staleWarning
  split <;> rfl

/-- Stamps are taken from a clock that does not run backward. -/
structure Clocked (cfg : DriverConfig R) (tr : DriverTrace R) : Prop where
  own : cfg.useMsgStamp = false
  representable : ∀ st ∈ tr, st.event.2.Representable
  forward : tr.Pairwise fun a b => a.event.2.nanoseconds ≤ b.event.2.nanoseconds

variable {cfg : DriverConfig R} {tr tr₁ tr₂ : DriverTrace R}

theorem Clocked.left (h : Clocked cfg (tr₁ ++ tr₂)) : Clocked cfg tr₁ where
  own := h.own
  representable st hst := h.representable st (List.mem_append_left _ hst)
  forward := (List.pairwise_append.mp h.forward).1

theorem Clocked.before {st : Step DriverState (DriverEvent R × RosTime) (DriverOut R)}
    (h : Clocked cfg (tr₁ ++ st :: tr₂)) :
    ∀ x ∈ tr₁, x.event.2.nanoseconds ≤ st.event.2.nanoseconds :=
  fun x hx => (List.pairwise_append.mp h.forward).2.2 x hx st List.mem_cons_self

theorem Clocked.resolveStamp (h : Clocked cfg tr) (now : RosTime) (stamp : Stamp) :
    resolveStamp cfg now stamp = now.toStamp := by
  unfold Go2.resolveStamp
  rw [if_neg (by simp [h.own])]

/-- What holds once the clock reads `t`, after the history `L`: nothing leads the last transform. -/
structure Paced (t : Int) (L : List (DriverOut R)) (s : DriverState) : Prop where
  ordered : NonDecreasing (framesIn L)
  past : ∀ x ∈ framesIn L, x.total ≤ t
  behind : 0 < s.lastTfStamp.nanoseconds → ∀ x ∈ framesIn L, x.total ≤ s.lastTfStamp.nanoseconds
  recorded : s.lastTfStamp.Representable ∧ s.lastTfStamp.nanoseconds ≤ t
  silent : ∀ f, .threw f ∉ L

variable {t t' : Int} {L : List (DriverOut R)} {s s' : DriverState}

theorem Paced.start (ht : 0 ≤ t) : Paced t ([] : List (DriverOut R)) .start where
  ordered := List.Pairwise.nil
  past := by simp [framesIn]
  behind _ := by simp [framesIn]
  recorded := ⟨⟨Int.le_refl _, by decide⟩, ht⟩
  silent _ := List.not_mem_nil

/-- The clock moves on. -/
theorem Paced.later (h : Paced t L s) (ht : t ≤ t') : Paced t' L s where
  ordered := h.ordered
  past x hx := Int.le_trans (h.past x hx) ht
  behind := h.behind
  recorded := ⟨h.recorded.1, Int.le_trans h.recorded.2 ht⟩
  silent := h.silent

/-- Output with no transform and no cloud. -/
theorem Paced.quiet {out : List (DriverOut R)} (h : Paced t L s) (hq : framesIn out = [])
    (hs : ∀ f, .threw f ∉ out) : Paced t (L ++ out) s := by
  have hframes : framesIn (L ++ out) = framesIn L := by rw [framesIn_append, hq, List.append_nil]
  refine ⟨hframes ▸ h.ordered, hframes ▸ h.past, hframes ▸ h.behind, h.recorded, ?_⟩
  intro f hf
  rcases List.mem_append.mp hf with hf | hf
  · exact h.silent f hf
  · exact hs f hf

/-- One more stamp, that leads none before and is led by none after. -/
theorem Paced.frame {out : List (DriverOut R)} {x : Stamp} (h : Paced t L s) (hone : framesIn out = [x])
    (hx : ∀ y ∈ framesIn L, y.total ≤ x.total) (ht : x.total ≤ t)
    (hlast : 0 < s'.lastTfStamp.nanoseconds → x.total ≤ s'.lastTfStamp.nanoseconds)
    (hrec : s'.lastTfStamp.Representable ∧ s'.lastTfStamp.nanoseconds ≤ t) (hs : ∀ f, .threw f ∉ out) :
    Paced t (L ++ out) s' := by
  have hframes : framesIn (L ++ out) = framesIn L ++ [x] := by rw [framesIn_append, hone]
  refine ⟨?_, ?_, ?_, hrec, ?_⟩
  · rw [hframes]
    refine List.pairwise_append.mpr ⟨h.ordered, List.pairwise_singleton _ _, ?_⟩
    intro y hy z hz
    rw [List.mem_singleton.mp hz]
    exact hx y hy
  · intro y hy
    rw [hframes] at hy
    rcases List.mem_append.mp hy with hy | hy
    · exact h.past y hy
    · rwa [List.mem_singleton.mp hy]
  · intro hpos y hy
    have hle := hlast hpos
    rw [hframes] at hy
    rcases List.mem_append.mp hy with hy | hy
    · have := hx y hy
      omega
    · rwa [List.mem_singleton.mp hy]
  · intro f hf
    rcases List.mem_append.mp hf with hf | hf
    · exact h.silent f hf
    · exact hs f hf

theorem notMem_odomOut [Add R] (stamp : Stamp) (msg : Odometry R) (f : TimeFault) :
    .threw f ∉ odomOut cfg stamp msg := by
  unfold odomOut
  split <;> simp

theorem notMem_staleWarning (last : RosTime) (stamp : Stamp) (f : TimeFault) :
    .threw f ∉ staleWarning cfg last stamp := by
  unfold staleWarning
  split <;> simp

theorem mem_staleWarning_iff {last : RosTime} {stamp : Stamp} {lead : Int} {topic : String}
    (hpos : 0 < last.nanoseconds) : .staleTf lead topic ∈ staleWarning cfg last stamp ↔
      staleTfWarnNs < lead ∧ lead = stamp.total - last.nanoseconds ∧ topic = cfg.inputOdomTopic := by
  unfold staleWarning
  by_cases hstale : staleTfWarnNs < stamp.total - last.nanoseconds
  · rw [if_pos ⟨hpos, hstale⟩, List.mem_singleton, DriverOut.staleTf.injEq]
    constructor
    · rintro ⟨rfl, rfl⟩
      exact ⟨hstale, rfl, rfl⟩
    · exact And.right
  · rw [if_neg fun h => hstale h.2]
    constructor
    · intro h
      cases h
    · rintro ⟨h, rfl, -⟩
      exact absurd h hstale

variable [Add R] [Zero R] {tf2 : Tf2 R} {e : DriverEvent R} {now : RosTime} {out : List (DriverOut R)}

/-- One callback, whose clock reads `now`. -/
theorem DriverTransition.paced (h : DriverTransition cfg tf2 s (e, now) s' out)
    (hown : ∀ stamp, resolveStamp cfg now stamp = now.toStamp) (hr : now.Representable)
    (hp : Paced now.nanoseconds L s) : Paced now.nanoseconds (L ++ out) s' := by
  have htotal := RosTime.total_toStamp hr
  have hsec := RosTime.sec_nonneg hr
  cases h with
  | odomSilent msg _ htf => exact hp.quiet (framesIn_odomOut cfg _ msg) (notMem_odomOut _ msg)
  | odomDone msg _ htf hs =>
    rw [hown] at hs ⊢
    have hone : framesIn (.transforms (transformsOf cfg tf2 now.toStamp msg) ::
        odomOut cfg now.toStamp msg) = [now.toStamp] := by
      rw [← List.singleton_append, framesIn_append, framesIn_odomOut]
      rfl
    refine hp.frame hone (by rw [htotal]; exact hp.past) (by omega) (fun _ => Int.le_refl _) ?_ ?_
    · rw [htotal]
      exact ⟨hr, Int.le_refl _⟩
    · simpa using notMem_odomOut now.toStamp msg
  | odomThrew msg _ htf hs =>
    rw [hown] at hs
    omega
  | lidarDone msg _ hs =>
    rw [hown]
    obtain ⟨hrep, hle⟩ := hp.recorded
    have hone : framesIn (staleWarning cfg s.lastTfStamp now.toStamp ++ [.cloud { msg with
        stamp := clampStamp s.lastTfStamp now.toStamp, frameId := cfg.pointcloudFrame }]) =
          [clampStamp s.lastTfStamp now.toStamp] := by
      rw [framesIn_append, framesIn_staleWarning]
      rfl
    have hquiet : ∀ f, .threw f ∉ staleWarning cfg s.lastTfStamp now.toStamp ++ [.cloud { msg with
        stamp := clampStamp s.lastTfStamp now.toStamp, frameId := cfg.pointcloudFrame }] := by
      intro f hf
      rcases List.mem_append.mp hf with hf | hf
      · exact notMem_staleWarning _ _ f hf
      · cases List.mem_singleton.mp hf
    by_cases hpos : 0 < s.lastTfStamp.nanoseconds
    · -- the last transform was read no later
      have hclamp : (clampStamp s.lastTfStamp now.toStamp).total = s.lastTfStamp.nanoseconds := by
        unfold clampStamp
        split
        · exact RosTime.total_toStamp hrep
        · omega
      refine hp.frame hone ?_ (by omega) (fun _ => Int.le_of_eq hclamp) hp.recorded hquiet
      rw [hclamp]
      exact hp.behind hpos
    · have hclamp : clampStamp s.lastTfStamp now.toStamp = now.toStamp := if_neg fun h => hpos h.1
      refine hp.frame hone ?_ ?_ (fun h => absurd h hpos) hp.recorded hquiet
      · rw [hclamp, htotal]
        exact hp.past
      · exact Int.le_of_eq (by rw [hclamp, htotal])
  | lidarThrew msg _ hl hs =>
    rw [hown] at hs
    omega
  | lowState msg _ => exact hp.quiet rfl (by simp)

/-- A run whose clock reads no more than `t`. -/
theorem DriverRun.paced (h : DriverRun cfg tf2 tr s) (hc : Clocked cfg tr) (ht : 0 ≤ t)
    (hle : ∀ st ∈ tr, st.event.2.nanoseconds ≤ t) : Paced t (history tr) s := by
  unfold DriverRun at h
  induction h generalizing t with
  | nil => exact .start ht
  | @snoc tr s s' e out hr he ih =>
    obtain ⟨e, now⟩ := e
    have hnow := hc.representable _ (List.mem_append_right _ (List.mem_singleton.mpr rfl))
    have hlast := hle _ (List.mem_append_right _ (List.mem_singleton.mpr rfl))
    rw [history_snoc]
    exact ((driverStep_transition cfg tf2 he).paced (hc.resolveStamp now) hnow
      (ih hc.left hnow.1 hc.before)).later hlast

/-- The cloud that leads the last transform, or is read with it. -/
theorem clampStamp_read {last : Stamp} (hn : last.nanosec.toNat < 1000000000) (hpos : 0 < last.total)
    (hr : now.Representable) (hle : last.total ≤ now.nanoseconds) :
    clampStamp ⟨last.total⟩ now.toStamp = last := by
  have htotal := RosTime.total_toStamp hr
  rw [clampStamp_eq hn hpos]
  split
  · rfl
  · have heq : now = ⟨last.total⟩ := by
      obtain ⟨n⟩ := now
      congr 1
      simp only at hle htotal
      omega
    rw [heq, Stamp.total_toStamp hn]

/-- What a cloud finds, and what is made of it. -/
theorem DriverRun.cloud_read {st : Step DriverState (DriverEvent R × RosTime) (DriverOut R)}
    (h : DriverRun cfg tf2 (tr₁ ++ st :: tr₂) s) (hc : Clocked cfg (tr₁ ++ st :: tr₂))
    {msg : PointCloud2} (hev : st.event = (.lidar msg, now)) :
    now.Representable ∧ st.pre.lastTfStamp.nanoseconds ≤ now.nanoseconds ∧
      Tracks (history tr₁) st.pre ∧
      st.out = staleWarning cfg st.pre.lastTfStamp now.toStamp ++ [.cloud { msg with
        stamp := clampStamp st.pre.lastTfStamp now.toStamp, frameId := cfg.pointcloudFrame }] := by
  obtain ⟨pre, e, out, post⟩ := st
  obtain rfl : e = (.lidar msg, now) := hev
  have hnow : now.Representable := hc.representable _ (List.mem_append_right _ List.mem_cons_self)
  obtain ⟨hrun, hstep, -⟩ := Run.split h
  have hpaced := DriverRun.paced hrun hc.left hnow.1 hc.before
  have hnormal : ∀ st ∈ tr₁, NormalStamp cfg st.event := by
    intro st _
    rcases st.event with ⟨_ | _ | _, _⟩
    · intro huse
      rw [hc.own] at huse
      cases huse
    · trivial
    · trivial
  refine ⟨hnow, hpaced.recorded.2, DriverRun.tracks hrun hnormal, ?_⟩
  have hst : DriverTransition cfg tf2 pre (.lidar msg, now) post out := driverStep_transition cfg tf2 hstep
  have hsec := RosTime.sec_nonneg hnow
  cases hst with
  | lidarDone _ _ _ => rw [hc.resolveStamp]
  | lidarThrew _ _ _ hneg =>
    rw [hc.resolveStamp] at hneg
    omega

/-- **Stamps from the node's own clock**, in every run in which it does not run backward:

* no callback is left by an exception;
* the transforms and the clouds go out in the order of their stamps;
* from the first transform on each cloud is published with the stamp of the last one,
  whenever it was taken, and its lead is handed to the logger, which may drop it, if and
  only if the clock has moved on by more than `staleTfWarnNs`;
* before it each cloud is published with the reading of the clock. -/
theorem own_clock (h : DriverRun cfg tf2 tr s) (hc : Clocked cfg tr) :
    (∀ f, .threw f ∉ history tr) ∧ NonDecreasing (framesIn (history tr)) ∧
    (∀ tr₁ st tr₂ msg now, tr = tr₁ ++ st :: tr₂ → st.event = (.lidar msg, now) →
      (∀ last, lastBroadcast (history tr₁) = some last → 0 < last.total →
        clouds st.out = [{ msg with stamp := last, frameId := cfg.pointcloudFrame }] ∧
        ∀ lead topic, .staleTf lead topic ∈ st.out ↔
          staleTfWarnNs < lead ∧ lead = now.nanoseconds - last.total ∧ topic = cfg.inputOdomTopic) ∧
      (lastBroadcast (history tr₁) = none →
        clouds st.out = [{ msg with stamp := now.toStamp, frameId := cfg.pointcloudFrame }])) := by
  have hpaced : Paced (2 ^ 31 * 1000000000) (history tr) s :=
    h.paced hc (by decide) fun st hst => Int.le_of_lt (hc.representable st hst).2
  refine ⟨hpaced.silent, hpaced.ordered, ?_⟩
  rintro tr₁ st tr₂ msg now rfl hev
  obtain ⟨hnow, hle, htracks, hout⟩ := h.cloud_read hc hev
  constructor
  · intro last hl hpos
    obtain ⟨hn, hlast⟩ := htracks.of_some hl hpos
    rw [hlast] at hle hout
    rw [hout, clouds_append, clouds_staleWarning, clampStamp_read hn hpos hnow hle]
    refine ⟨rfl, fun lead topic => ?_⟩
    have hlast' : 0 < (⟨last.total⟩ : RosTime).nanoseconds := hpos
    rw [List.mem_append, mem_staleWarning_iff hlast', RosTime.total_toStamp hnow]
    simp
  · intro hl
    rw [hout, htracks.of_none hl, clouds_append, clouds_staleWarning, clampStamp_start]
    rfl

end

/-- The parameters with `use_msg_stamp` off. -/
def nodeClockConfig : DriverConfig Int := { DriverConfig.defaults Int with useMsgStamp := false }

/-- Clouds before a transform, soon after it and long after it; the messages' own stamps are no times. -/
def nodeClockRun : DriverTrace Int × DriverState :=
  execute (driverStep nodeClockConfig .level) .start
    [(.lidar ⟨⟨-1, 0⟩, "", []⟩, ⟨1000000000⟩), (.odom (.level ⟨-1, 0⟩), ⟨2000000000⟩),
      (.lidar ⟨⟨-1, 0⟩, "", []⟩, ⟨2050000000⟩), (.lidar ⟨⟨-1, 0⟩, "", []⟩, ⟨2200000000⟩)]

theorem own_clock_late :
    nodeClockRun.1.length = 4 ∧ NonDecreasing (framesIn (history nodeClockRun.1)) ∧
    clouds (nodeClockRun.1.get ⟨3, by decide⟩).out = [⟨⟨2, 0⟩, "utlidar_lidar", []⟩] ∧
    .staleTf 200000000 "/utlidar/robot_odom" ∈ (nodeClockRun.1.get ⟨3, by decide⟩).out := by
  have hrun : DriverRun nodeClockConfig .level nodeClockRun.1 nodeClockRun.2 := Run.execute _ _ _
  have hc : Clocked nodeClockConfig nodeClockRun.1 :=
    { own := rfl
      representable := by
        intro st hst
        have := event_mem_of_mem_execute hst
        simp only [List.mem_cons, List.not_mem_nil, or_false] at this
        rcases this with h | h | h | h <;> simp [h, RosTime.Representable]
      forward := by decide }
  obtain ⟨-, hordered, hclouds⟩ := own_clock hrun hc
  obtain ⟨hcloud, hstale⟩ := (hclouds (nodeClockRun.1.take 3) _ [] _ _ rfl rfl).1 ⟨2, 0⟩ rfl (by decide)
  exact ⟨rfl, hordered, hcloud, (hstale _ _).mpr ⟨by decide, by decide, rfl⟩⟩

end Go2
