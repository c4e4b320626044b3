import Go2Driver.OdomAtomic

/-!
# A republished cloud never leads the broadcast transforms

`publishLidar` compares a cloud's stamp with `last_tf_stamp_`, where zero means that
nothing was broadcast yet.  Over a run `last_tf_stamp_` follows the broadcasts
(`Tracks`): where the most recent one is positively stamped, it is that stamp.  So a
cloud goes out with the lesser of its own stamp and the most recent broadcast's, and
two streams of stamps that do not decrease make a third (`clouds_never_lead`).
The stamps a node clock gives are in normal form; those of messages are assumed to be.
-/

namespace Go2

open Runs

/-! ## One cloud -/

/-- Later stamps stand for no earlier time. -/
def NonDecreasing (l : List Stamp) : Prop := l.Pairwise fun a b => a.total ≤ b.total

theorem NonDecreasing.le_last {l : List Stamp} (h : NonDecreasing l) {x last : Stamp} (hx : x ∈ l)
    (hl : l.getLast? = some last) : x.total ≤ last.total := by
  obtain ⟨pre, rfl⟩ := List.getLast?_eq_some_iff.mp hl
  rcases List.mem_append.mp hx with hx | hx
  · exact (List.pairwise_append.mp h).2.2 x hx last (List.mem_singleton.mpr rfl)
  · exact Int.le_of_eq (congrArg Stamp.total (List.mem_singleton.mp hx))

/-- After a transform stamped `last`, a cloud gets the lesser of the two stamps. -/
theorem clampStamp_eq {last stamp : Stamp} (hn : last.nanosec.toNat < 1000000000)
    (hpos : 0 < last.total) :
    clampStamp ⟨last.total⟩ stamp = if last.total < stamp.total then last else stamp := by
  unfold clampStamp
  by_cases hlead : last.total < stamp.total
  · rw [if_pos ⟨hpos, hlead⟩, if_pos hlead, Stamp.total_toStamp hn]
  · rw [if_neg (fun h => hlead h.2), if_neg hlead]

theorem clampStamp_total {last stamp : Stamp} (hn : last.nanosec.toNat < 1000000000)
    (hpos : 0 < last.total) : (clampStamp ⟨last.total⟩ stamp).total = min stamp.total last.total := by
  rw [clampStamp_eq hn hpos]
  split
  · omega
  · omega

theorem clampStamp_start (stamp : Stamp) : clampStamp ⟨0⟩ stamp = stamp := by
  unfold clampStamp
  rw [if_neg]
  intro h
  exact absurd h.1 (by decide)

section
variable {R : Type} [Add R] [Zero R] {cfg : DriverConfig R} {tf2 : Tf2 R}
  {s s' : DriverState} {e : DriverEvent R × RosTime} {out : List (DriverOut R)}

/-! ## The recorded stamp and the broadcasts -/

/-- What the recorded stamp is after the history `L`, whatever the stamps in it. -/
def Tracks (L : List (DriverOut R)) (s : DriverState) : Prop :=
  match lastBroadcast L with
  | none => s.lastTfStamp = ⟨0⟩
  | some stamp => stamp.nanosec.toNat < 1000000000 ∧ (0 < stamp.total → s.lastTfStamp = ⟨stamp.total⟩)

/-- The event's odometry message has a stamp in normal form, if that is the stamp used. -/
def NormalStamp (cfg : DriverConfig R) : DriverEvent R × RosTime → Prop
  | (.odom msg, _) => cfg.useMsgStamp = true → msg.stamp.nanosec.toNat < 1000000000
  | (.lidar _, _) | (.lowState _, _) => True

omit [Add R] [Zero R] in
theorem resolveStamp_normal {msg : Odometry R} {now : RosTime}
    (h : NormalStamp cfg (.odom msg, now)) :
    (resolveStamp cfg now msg.stamp).nanosec.toNat < 1000000000 := by
  unfold resolveStamp
  split
  · next huse => exact h huse
  · exact now.toStamp_nanosec

theorem DriverTransition.tracks {L : List (DriverOut R)} (ht : Tracks L s) (hn : NormalStamp cfg e)
    (h : DriverTransition cfg tf2 s e s' out) : Tracks (L ++ out) s' := by
  have hsame : DriverEvent.broadcast cfg e = [] → s' = s → Tracks (L ++ out) s' := by
    intro hb hs
    unfold Tracks
    rw [lastBroadcast_append_of_none (h.broadcastStamps.trans hb), hs]
    exact ht
  have hone : ∀ stamp, DriverEvent.broadcast cfg e = [stamp] → stamp.nanosec.toNat < 1000000000 →
      (0 < stamp.total → s'.lastTfStamp = ⟨stamp.total⟩) → Tracks (L ++ out) s' := by
    intro stamp hb hnorm hlast
    unfold Tracks
    rw [lastBroadcast_append_of_one (h.broadcastStamps.trans hb)]
    exact ⟨hnorm, hlast⟩
  cases h with
  | odomSilent msg now htf => exact hsame (if_neg (by simp [htf])) rfl
  | odomDone msg now htf hs =>
    apply hone _ (if_pos htf) (resolveStamp_normal hn)
    intro _
    rfl
  | odomThrew msg now htf hs =>
    apply hone _ (if_pos htf) (resolveStamp_normal hn)
    intro hpos
    -- a negative stamp in normal form stands for a negative time
    have := Stamp.sec_nonneg (resolveStamp_normal hn) hpos
    omega
  | lidarDone msg now hs => exact hsame rfl rfl
  | lidarThrew msg now hl hs => exact hsame rfl rfl
  | lowState msg now => exact hsame rfl rfl

variable {tr tr₁ tr₂ : DriverTrace R}

theorem DriverRun.tracks (h : DriverRun cfg tf2 tr s) (hn : ∀ st ∈ tr, NormalStamp cfg st.event) :
    Tracks (history tr) s := by
  refine Run.historyInvariant Tracks (fun _ e => NormalStamp cfg e) rfl ?_ h hn
  intro L s e s' out ht hnorm hstep
  exact (driverStep_transition cfg tf2 hstep).tracks ht hnorm

/-- At every place of a run the recorded stamp follows the broadcasts before it. -/
theorem DriverRun.tracks_at {st : Step DriverState (DriverEvent R × RosTime) (DriverOut R)}
    (h : DriverRun cfg tf2 (tr₁ ++ st :: tr₂) s)
    (hn : ∀ x ∈ tr₁ ++ st :: tr₂, NormalStamp cfg x.event) :
    Tracks (history tr₁) st.pre ∧ DriverTransition cfg tf2 st.pre st.event st.post st.out := by
  obtain ⟨hpre, hst, -⟩ := Run.split h
  constructor
  · apply DriverRun.tracks hpre
    intro x hx
    exact hn x (List.mem_append_left _ hx)
  · exact driverStep_transition cfg tf2 hst

omit [Add R] [Zero R] in
theorem Tracks.of_some {L : List (DriverOut R)} (h : Tracks L s) {last : Stamp}
    (hl : lastBroadcast L = some last) (hpos : 0 < last.total) :
    last.nanosec.toNat < 1000000000 ∧ s.lastTfStamp = ⟨last.total⟩ := by
  unfold Tracks at h
  rw [hl] at h
  exact ⟨h.1, h.2 hpos⟩

omit [Add R] [Zero R] in
theorem Tracks.of_none {L : List (DriverOut R)} (h : Tracks L s) (hl : lastBroadcast L = none) :
    s.lastTfStamp = ⟨0⟩ := by
  unfold Tracks at h
  rw [hl] at h
  exact h

/-! ## Clouds in a run -/

/-- A cloud is let out by a `publishLidar` that returned, alone. -/
theorem DriverTransition.cloud {c : PointCloud2} (h : DriverTransition cfg tf2 s e s' out)
    (hc : c ∈ clouds out) : ∃ msg now, e = (.lidar msg, now) ∧ clouds out = [c] ∧
      c.stamp = clampStamp s.lastTfStamp (resolveStamp cfg now msg.stamp) := by
  cases h with
  | odomSilent msg now htf =>
    rw [clouds_odomOut] at hc
    cases hc
  | odomDone msg now htf hs =>
    rw [← List.singleton_append, clouds_append, clouds_odomOut] at hc
    cases hc
  | odomThrew msg now htf hs => cases hc
  | lidarDone msg now hs =>
    rw [clouds_append, clouds_staleWarning, List.nil_append] at hc ⊢
    rw [List.mem_singleton.mp hc]
    exact ⟨msg, now, rfl, rfl, rfl⟩
  | lidarThrew msg now hl hs => cases hc
  | lowState msg now => cases hc

/-- A cloud whose stamp is a time is published, and so is any before the first transform. -/
theorem DriverTransition.published {msg : PointCloud2} {now : RosTime}
    (h : DriverTransition cfg tf2 s (.lidar msg, now) s' out)
    (hs : 0 < s.lastTfStamp.nanoseconds → 0 ≤ (resolveStamp cfg now msg.stamp).sec.toInt) :
    ∃ c, clouds out = [c] ∧ c.stamp = clampStamp s.lastTfStamp (resolveStamp cfg now msg.stamp) := by
  cases h with
  | lidarDone msg now hs' =>
    rw [clouds_append, clouds_staleWarning, List.nil_append]
    exact ⟨_, rfl, rfl⟩
  | lidarThrew msg now hl hneg =>
    have := hs hl
    omega

variable (cfg) in
/-- The resolved stamps of the clouds a run received. -/
def resolvedStamps (tr : DriverTrace R) : List Stamp :=
  tr.filterMap fun st => match st.event with
    | (.lidar msg, now) => some (resolveStamp cfg now msg.stamp)
    | _ => none

/-- The stamp of a cloud published after a positively stamped transform. -/
theorem DriverRun.cloud_stamp {st : Step DriverState (DriverEvent R × RosTime) (DriverOut R)}
    (h : DriverRun cfg tf2 (tr₁ ++ st :: tr₂) s)
    (hn : ∀ x ∈ tr₁ ++ st :: tr₂, NormalStamp cfg x.event) {last : Stamp}
    (hl : lastBroadcast (history tr₁) = some last) (hpos : 0 < last.total) {c : PointCloud2}
    (hc : c ∈ clouds st.out) :
    ∃ msg now, st.event = (.lidar msg, now) ∧ clouds st.out = [c] ∧
      c.stamp.total = min (resolveStamp cfg now msg.stamp).total last.total := by
  obtain ⟨htracks, hst⟩ := h.tracks_at hn
  obtain ⟨hnorm, hrec⟩ := htracks.of_some hl hpos
  obtain ⟨msg, now, hev, hone, hstamp⟩ := hst.cloud hc
  refine ⟨msg, now, hev, hone, ?_⟩
  rw [hstamp, hrec]
  exact clampStamp_total hnorm hpos

omit [Add R] [Zero R] in
theorem resolvedStamps_append (tr tr' : DriverTrace R) :
    resolvedStamps cfg (tr ++ tr') = resolvedStamps cfg tr ++ resolvedStamps cfg tr' :=
  List.filterMap_append

omit [Add R] [Zero R] in
theorem mem_resolvedStamps {msg : PointCloud2} {now : RosTime}
    {st : Step DriverState (DriverEvent R × RosTime) (DriverOut R)} (hst : st ∈ tr)
    (hev : st.event = (.lidar msg, now)) : resolveStamp cfg now msg.stamp ∈ resolvedStamps cfg tr := by
  unfold resolvedStamps
  apply List.mem_filterMap.mpr
  refine ⟨st, hst, ?_⟩
  rw [hev]

omit [Add R] [Zero R] in
theorem mem_clouds_history {c : PointCloud2} (hc : c ∈ clouds (history tr)) :
    ∃ st ∈ tr, c ∈ clouds st.out := by
  unfold clouds history at hc
  rw [List.filterMap_flatMap] at hc
  exact List.mem_flatMap.mp hc

omit [Add R] [Zero R] in
/-- The broadcasts before a place in a run, the last of them after a positive one. -/
theorem positive_last (ht : NonDecreasing (broadcastStamps (history tr)))
    {first : Stamp} (hf : first ∈ broadcastStamps (history tr)) (hpos : 0 < first.total) :
    ∃ last, lastBroadcast (history tr) = some last ∧ 0 < last.total := by
  unfold lastBroadcast
  cases hl : (broadcastStamps (history tr)).getLast? with
  | none =>
    rw [List.getLast?_eq_none_iff] at hl
    rw [hl] at hf
    cases hf
  | some last =>
    refine ⟨last, rfl, ?_⟩
    have := ht.le_last hf hl
    omega

omit [Add R] [Zero R] in
theorem NonDecreasing.broadcasts_left (h : NonDecreasing (broadcastStamps (history (tr₁ ++ tr₂)))) :
    NonDecreasing (broadcastStamps (history tr₁)) := by
  rw [history_append, broadcastStamps_append] at h
  exact (List.pairwise_append.mp h).1

/-- Two clouds after a positive transform, in a run whose two streams of stamps do not decrease. -/
theorem DriverRun.clouds_ordered {x y : Step DriverState (DriverEvent R × RosTime) (DriverOut R)}
    {mid : DriverTrace R} (h : DriverRun cfg tf2 (tr₁ ++ x :: (mid ++ [y])) s)
    (hn : ∀ z ∈ tr₁ ++ x :: (mid ++ [y]), NormalStamp cfg z.event)
    (ht : NonDecreasing (broadcastStamps (history (tr₁ ++ x :: (mid ++ [y])))))
    (hr : NonDecreasing (resolvedStamps cfg (tr₁ ++ x :: (mid ++ [y]))))
    (hfirst : ∃ first ∈ broadcastStamps (history tr₁), 0 < first.total) {c d : PointCloud2}
    (hc : c ∈ clouds x.out) (hd : d ∈ clouds y.out) : c.stamp.total ≤ d.stamp.total := by
  obtain ⟨first, hf, hpos⟩ := hfirst
  have hcut : tr₁ ++ x :: (mid ++ [y]) = (tr₁ ++ x :: mid) ++ [y] := by simp
  have ht₂ : NonDecreasing (broadcastStamps (history (tr₁ ++ x :: mid))) := by
    rw [hcut] at ht
    exact ht.broadcasts_left
  have hsub : ∀ a ∈ broadcastStamps (history tr₁), a ∈ broadcastStamps (history (tr₁ ++ x :: mid)) := by
    intro a ha
    rw [history_append, broadcastStamps_append]
    exact List.mem_append_left _ ha
  obtain ⟨last₁, hl₁, hpos₁⟩ := positive_last ht₂.broadcasts_left hf hpos
  obtain ⟨last₂, hl₂, hpos₂⟩ := positive_last ht₂ (hsub first hf) hpos
  obtain ⟨msg, now, hev, -, hcs⟩ := h.cloud_stamp hn hl₁ hpos₁ hc
  have hend : DriverRun cfg tf2 ((tr₁ ++ x :: mid) ++ y :: []) s := hcut ▸ h
  obtain ⟨msg', now', hev', -, hds⟩ := hend.cloud_stamp (hcut ▸ hn) hl₂ hpos₂ hd
  have hlast : last₁.total ≤ last₂.total :=
    ht₂.le_last (hsub last₁ (List.mem_of_getLast? hl₁)) hl₂
  have hres : (resolveStamp cfg now msg.stamp).total ≤ (resolveStamp cfg now' msg'.stamp).total := by
    rw [hcut, resolvedStamps_append] at hr
    apply (List.pairwise_append.mp hr).2.2
    · exact mem_resolvedStamps (List.mem_append_right _ List.mem_cons_self) hev
    · exact mem_resolvedStamps (List.mem_singleton.mpr rfl) hev'
  omega

/-- Two streams of stamps that do not decrease make a third. -/
theorem DriverRun.clouds_nonDecreasing (h : DriverRun cfg tf2 (tr₁ ++ tr₂) s)
    (hn : ∀ x ∈ tr₁ ++ tr₂, NormalStamp cfg x.event)
    (ht : NonDecreasing (broadcastStamps (history (tr₁ ++ tr₂))))
    (hr : NonDecreasing (resolvedStamps cfg (tr₁ ++ tr₂)))
    (hfirst : ∃ first ∈ broadcastStamps (history tr₁), 0 < first.total) :
    NonDecreasing ((clouds (history tr₂)).map (·.stamp)) := by
  induction tr₂ using List.reverseRecOn generalizing s with
  | nil => exact List.Pairwise.nil
  | append_singleton tr₂ y ih =>
    rw [← List.append_assoc] at h hn ht hr
    obtain ⟨hpre, hst, -⟩ := Run.snoc_iff.mp h
    have hr' := hr
    rw [resolvedStamps_append] at hr'
    have hleft := ih hpre (fun z hz => hn z (List.mem_append_left _ hz)) ht.broadcasts_left
      (List.pairwise_append.mp hr').1
    rw [history_snoc, clouds_append, List.map_append]
    apply List.pairwise_append.mpr
    refine ⟨hleft, ?_, ?_⟩
    · -- an event publishes one cloud at most
      cases hy : clouds y.out with
      | nil => exact List.Pairwise.nil
      | cons d ds =>
        obtain ⟨-, -, -, hone, -⟩ :=
          (driverStep_transition cfg tf2 hst).cloud (c := d) (by rw [hy]; exact List.mem_cons_self)
        rw [← hy, hone]
        exact List.pairwise_singleton _ _
    · intro a ha b hb
      obtain ⟨c, hc, rfl⟩ := List.mem_map.mp ha
      obtain ⟨d, hd, rfl⟩ := List.mem_map.mp hb
      obtain ⟨x, hx, hcx⟩ := mem_clouds_history hc
      obtain ⟨before, mid, rfl⟩ := List.append_of_mem hx
      have hcut : tr₁ ++ (before ++ x :: mid) ++ [y] = (tr₁ ++ before) ++ x :: (mid ++ [y]) := by simp
      rw [hcut] at h hn ht hr
      obtain ⟨first, hf, hpos⟩ := hfirst
      refine DriverRun.clouds_ordered h hn ht hr ⟨first, ?_, hpos⟩ hcx hd
      rw [history_append, broadcastStamps_append]
      exact List.mem_append_left _ hf

/-- Without `publish_tf_` nothing is broadcast. -/
theorem DriverRun.broadcasts_nil (h : DriverRun cfg tf2 tr s) (htf : cfg.publishTf = false) :
    broadcastStamps (history tr) = [] := by
  refine Run.historyInvariant (fun L _ => broadcastStamps L = []) (fun _ _ => True) rfl ?_ h
    fun _ _ => trivial
  intro L s e s' out hL _ hstep
  rw [broadcastStamps_append, hL, (driverStep_transition cfg tf2 hstep).broadcastStamps]
  obtain ⟨_ | _ | _, _⟩ := e
  · exact if_neg (by simp [htf])
  · rfl
  · rfl

/-- A cloud that meets a positively stamped transform. -/
theorem DriverRun.cloud_after {st : Step DriverState (DriverEvent R × RosTime) (DriverOut R)}
    (h : DriverRun cfg tf2 (tr₁ ++ st :: tr₂) s)
    (hn : ∀ x ∈ tr₁ ++ st :: tr₂, NormalStamp cfg x.event) {msg : PointCloud2} {now : RosTime}
    (hev : st.event = (.lidar msg, now)) {last : Stamp} (hl : lastBroadcast (history tr₁) = some last)
    (hpos : 0 < last.total) (hs : 0 ≤ (resolveStamp cfg now msg.stamp).sec.toInt) :
    ∃ c, clouds st.out = [c] ∧
      c.stamp.total = min (resolveStamp cfg now msg.stamp).total last.total ∧
      ((resolveStamp cfg now msg.stamp).total ≤ last.total → c.stamp = resolveStamp cfg now msg.stamp) := by
  obtain ⟨htracks, hst⟩ := h.tracks_at hn
  obtain ⟨hnorm, hrec⟩ := htracks.of_some hl hpos
  rw [hev] at hst
  obtain ⟨c, hone, hstamp⟩ := hst.published fun _ => hs
  rw [hrec] at hstamp
  refine ⟨c, hone, ?_, ?_⟩
  · rw [hstamp]
    exact clampStamp_total hnorm hpos
  · intro hle
    rw [hstamp, clampStamp_eq hnorm hpos, if_neg (by omega)]

/-- A cloud before the first transform. -/
theorem DriverRun.cloud_before {st : Step DriverState (DriverEvent R × RosTime) (DriverOut R)}
    (h : DriverRun cfg tf2 (tr₁ ++ st :: tr₂) s)
    (hn : ∀ x ∈ tr₁ ++ st :: tr₂, NormalStamp cfg x.event) {msg : PointCloud2} {now : RosTime}
    (hev : st.event = (.lidar msg, now)) (hl : lastBroadcast (history tr₁) = none) :
    ∃ c, clouds st.out = [c] ∧ c.stamp = resolveStamp cfg now msg.stamp := by
  obtain ⟨htracks, hst⟩ := h.tracks_at hn
  have hrec := htracks.of_none hl
  rw [hev] at hst
  obtain ⟨c, hone, hstamp⟩ := hst.published (by
    intro hpos
    rw [hrec] at hpos
    exact absurd hpos (by decide))
  rw [hrec, clampStamp_start] at hstamp
  exact ⟨c, hone, hstamp⟩

end

/-- A cloud before the first transform, one behind it and one ahead of it. -/
def threeClouds : DriverTrace Int × DriverState :=
  execute (driverStep (.defaults Int) .level) .start
    [(.lidar ⟨⟨3, 0⟩, "", []⟩, ⟨0⟩), (.odom (.level ⟨5, 500⟩), ⟨0⟩), (.lidar ⟨⟨4, 0⟩, "", []⟩, ⟨0⟩),
      (.lidar ⟨⟨6, 0⟩, "", []⟩, ⟨0⟩)]

example : (clouds (history threeClouds.1)).map (·.stamp) = [⟨3, 0⟩, ⟨4, 0⟩, ⟨5, 500⟩] := by decide

end Go2
