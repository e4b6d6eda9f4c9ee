/-
When a SET_SENSOR_SYNC request takes effect.

After a request and any frames, each of the two delays is the countdown of the
request after one tick for the request and one for each vertical sync.  So the
exposure is set in the vertical sync whose number is the delay, once, and the
gain likewise.  The ISP gains are read once, by the first reader after their
delay.  A deferred command goes to the main camera, whoever asked for it.
-/
import AtomDrivers.Camera.Sync

namespace AtomDrivers
namespace Camera

def vsyncs (as : List FrameAction) : Nat := as.count .vsync

theorem vsyncs_snoc_vsync (as : List FrameAction) : vsyncs (as ++ [.vsync]) = vsyncs as + 1 := by
  simp [vsyncs]

theorem vsyncs_snoc_rawGain (as : List FrameAction) : vsyncs (as ++ [.rawGain]) = vsyncs as := by
  simp [vsyncs]

/-- The values of the commands for one feature. -/
def values (feature : SyncFeature) (cmds : List SyncCommand) : List (BitVec 16) :=
  (cmds.filter fun c => c.feature = feature).map SyncCommand.value

theorem values_append (feature : SyncFeature) (cmds cmds' : List SyncCommand) :
    values feature (cmds ++ cmds') = values feature cmds ++ values feature cmds' := by
  simp [values]

/-- The ISP gains have been read after their delay. -/
def RawServed (info : SensorSync) (as : List FrameAction) : Prop :=
  ∃ before after, as = before ++ .rawGain :: after ∧
    info.uISPGainDelayFrame.toNat - 1 ≤ vsyncs before

/-- The four gains of a request, in the order of a reader. -/
def ispGains (info : SensorSync) : List (BitVec 16) :=
  [info.u2ISPNewRGain, info.u2ISPNewGrGain, info.u2ISPNewGbGain, info.u2ISPNewBGain]

def SensorSync.delay (g : SensorSync) : SyncFeature → BitVec 8
  | .setEshutter => g.uSensorExpDelayFrame
  | .setGain => g.uSensorGainDelayFrame

def SensorSync.value (g : SensorSync) : SyncFeature → BitVec 16
  | .setEshutter => g.u2SensorNewExpTime
  | .setGain => g.u2SensorNewGain

/-- One tick issues the values whose countdown is due. -/
theorem values_syncTick (camera : BitVec 32) (g : SensorSync) (feature : SyncFeature) :
    values feature (syncTick camera g).2 =
      if Countdown.Due (framesLeft (g.delay feature)) then [g.value feature] else [] := by
  simp only [syncTick, (delayTick_eq _ _).2, values_append]
  cases feature with
  | setEshutter => split <;> split <;> simp_all [values, SensorSync.delay, SensorSync.value]
  | setGain => split <;> split <;> simp_all [values, SensorSync.delay, SensorSync.value]

/-! ## The two delays -/

/-- The delays of `g` are those of `g₀` after the frames `as`, and the values that
wait for them are still there. -/
structure Pending (g₀ g : SensorSync) (as : List FrameAction) : Prop where
  delay : ∀ f, framesLeft (g.delay f) = Countdown.after (framesLeft (g₀.delay f)) (vsyncs as)
  value : ∀ f, g.value f = g₀.value f

theorem Pending.start (g : SensorSync) : Pending g g [] := ⟨fun _ => rfl, fun _ => rfl⟩

theorem framesLeft_syncTick (camera : BitVec 32) (g : SensorSync) (f : SyncFeature) :
    framesLeft ((syncTick camera g).1.delay f) = Countdown.tick (framesLeft (g.delay f)) := by
  cases f with
  | setEshutter => exact (delayTick_eq _ _).1
  | setGain => exact (delayTick_eq _ _).1

theorem Pending.vsync {g₀ g : SensorSync} {as : List FrameAction} (h : Pending g₀ g as)
    (camera : BitVec 32) : Pending g₀ (syncTick camera g).1 (as ++ [.vsync]) where
  delay f := by
    rw [vsyncs_snoc_vsync, Countdown.after_succ, ← h.delay f, framesLeft_syncTick]
  value f := by
    rw [← h.value f]
    cases f <;> rfl

theorem Pending.rawGain {g₀ g : SensorSync} {as : List FrameAction} (h : Pending g₀ g as) :
    Pending g₀ (kdGetRawGainInfoPtr g).1 (as ++ [.rawGain]) := by
  have hsame : ∀ f, (kdGetRawGainInfoPtr g).1.delay f = g.delay f ∧
      (kdGetRawGainInfoPtr g).1.value f = g.value f := by
    intro f
    rw [kdGetRawGainInfoPtr]
    split <;> cases f <;> exact ⟨rfl, rfl⟩
  refine ⟨fun f => ?_, fun f => ?_⟩
  · rw [vsyncs_snoc_rawGain, (hsame f).1]
    exact h.delay f
  · rw [(hsame f).2]
    exact h.value f

theorem pending_run {main : BitVec 32} {g₀ g : SensorSync} {as : List FrameAction}
    {outs : List FrameOutput} (h : (frames main).run g₀ as = some (g, outs)) : Pending g₀ g as := by
  refine Machine.run_history (J := fun g as _ => Pending g₀ g as)
    (fun u bs _ a v o ih hstep => ?_) (Pending.start g₀) h
  obtain ⟨rfl, rfl, -⟩ | ⟨rfl, rfl, -⟩ := frames_step_cases main hstep
  · exact ih.vsync main
  · exact ih.rawGain

/-- The values issued over the frames, all together. -/
theorem values_run {main : BitVec 32} {g₀ g : SensorSync} {as : List FrameAction}
    {outs : List FrameOutput} (h : (frames main).run g₀ as = some (g, outs)) (f : SyncFeature) :
    values f (outs.flatMap FrameOutput.commands) =
      if Countdown.Fired (framesLeft (g₀.delay f)) (vsyncs as) then [g₀.value f] else [] := by
  refine (Machine.run_history (J := fun g as outs => Pending g₀ g as ∧
    values f (outs.flatMap FrameOutput.commands) =
      if Countdown.Fired (framesLeft (g₀.delay f)) (vsyncs as) then [g₀.value f] else [])
    (fun u bs ps a v o ih hstep => ?_) ⟨Pending.start g₀, ?_⟩ h).2
  · obtain ⟨hpending, hvalues⟩ := ih
    rw [List.flatMap_append, values_append, hvalues]
    obtain ⟨rfl, rfl, rfl⟩ | ⟨rfl, rfl, rfl⟩ := frames_step_cases main hstep
    · refine ⟨hpending.vsync main, ?_⟩
      rw [List.flatMap_singleton, vsyncs_snoc_vsync, values_syncTick, hpending.delay f,
        hpending.value f]
      by_cases hfired : Countdown.Fired (framesLeft (g₀.delay f)) (vsyncs bs)
      · have hnot := Countdown.not_due_of_fired hfired
        rw [if_pos hfired, if_neg hnot, if_pos (Countdown.fired_succ.mpr (Or.inl hfired))]
        rfl
      · rw [if_neg hfired, List.nil_append]
        simp only [Countdown.fired_succ, hfired, false_or]
    · refine ⟨hpending.rawGain, ?_⟩
      rw [vsyncs_snoc_rawGain]
      simp [values]
  · have hnone : ¬ Countdown.Fired (framesLeft (g₀.delay f)) (vsyncs []) :=
      Countdown.fired_zero _
    rw [if_neg hnone]
    rfl

/-! ## The ISP gains -/

section Request

variable {info : SensorSync}

theorem rawServed_nil : ¬ RawServed info [] := by
  intro h
  obtain ⟨before, after, heq, _⟩ := h
  simp at heq

theorem RawServed.snoc {as : List FrameAction} (h : RawServed info as) (a : FrameAction) :
    RawServed info (as ++ [a]) := by
  obtain ⟨before, after, rfl, hdue⟩ := h
  exact ⟨before, after ++ [a], by simp, hdue⟩

theorem rawServed_snoc_vsync (as : List FrameAction) :
    RawServed info (as ++ [.vsync]) ↔ RawServed info as := by
  constructor
  · intro h
    obtain ⟨before, after, heq, hdue⟩ := h
    obtain ⟨hlast, _⟩ | ⟨after', rfl⟩ := Machine.snoc_split heq
    · cases hlast
    · exact ⟨before, after', rfl, hdue⟩
  · exact fun h => h.snoc .vsync

theorem rawServed_snoc_rawGain (as : List FrameAction) :
    RawServed info (as ++ [.rawGain]) ↔
      RawServed info as ∨ info.uISPGainDelayFrame.toNat - 1 ≤ vsyncs as := by
  constructor
  · intro h
    obtain ⟨before, after, heq, hdue⟩ := h
    obtain ⟨_, rfl⟩ | ⟨after', rfl⟩ := Machine.snoc_split heq
    · exact Or.inr hdue
    · exact Or.inl ⟨before, after', rfl, hdue⟩
  · intro h
    cases h with
    | inl hserved => exact hserved.snoc .rawGain
    | inr hdue => exact ⟨as, [], rfl, hdue⟩

/-- The ISP delay of the request `info` after the frames `as`. -/
structure IspKept (info g : SensorSync) (as : List FrameAction) : Prop where
  waiting : ¬ RawServed info as → g.uISPGainDelayFrame ≠ 0xFF ∧
    g.uISPGainDelayFrame.toNat = info.uISPGainDelayFrame.toNat - 1 - vsyncs as
  served : RawServed info as → g.uISPGainDelayFrame = 0xFF
  gains : ispGains g = ispGains info

theorem IspKept.request (hisp : info.uISPGainDelayFrame ≠ 0xFF) (camera : BitVec 32) :
    IspKept info (setSensorSync camera info).1 [] where
  waiting _ := ispTick_toNat hisp
  served h := absurd h rawServed_nil
  gains := rfl

theorem IspKept.vsync {g : SensorSync} {as : List FrameAction} (h : IspKept info g as)
    (camera : BitVec 32) : IspKept info (syncTick camera g).1 (as ++ [.vsync]) where
  waiting hserved := by
    rw [rawServed_snoc_vsync] at hserved
    obtain ⟨hoff, hleft⟩ := h.waiting hserved
    have htick := ispTick_toNat hoff
    have hval : (syncTick camera g).1.uISPGainDelayFrame.toNat =
        g.uISPGainDelayFrame.toNat - 1 := htick.2
    rw [vsyncs_snoc_vsync]
    refine ⟨htick.1, ?_⟩
    omega
  served hserved := by
    rw [rawServed_snoc_vsync] at hserved
    have hoff := h.served hserved
    simp [syncTick, ispTick, hoff]
  gains := h.gains

/-- A reader gets the gains exactly when it is the first one after their delay. -/
theorem IspKept.rawGain {g : SensorSync} {as : List FrameAction} (h : IspKept info g as) :
    (info.uISPGainDelayFrame.toNat - 1 ≤ vsyncs as ∧ ¬ RawServed info as →
        (kdGetRawGainInfoPtr g).2 = ispGains info) ∧
      (¬ (info.uISPGainDelayFrame.toNat - 1 ≤ vsyncs as ∧ ¬ RawServed info as) →
        (kdGetRawGainInfoPtr g).2 = [0, 0, 0, 0]) ∧
      IspKept info (kdGetRawGainInfoPtr g).1 (as ++ [.rawGain]) := by
  by_cases hserved : RawServed info as
  · have hoff := h.served hserved
    have hzero : g.uISPGainDelayFrame ≠ 0 := by
      rw [hoff]
      decide
    have hserved' : RawServed info (as ++ [.rawGain]) :=
      (rawServed_snoc_rawGain as).mpr (Or.inl hserved)
    simp only [kdGetRawGainInfoPtr, if_neg hzero]
    exact ⟨fun hdue => absurd hserved hdue.2, fun _ => trivial,
      fun hn => absurd hserved' hn, fun _ => hoff, h.gains⟩
  · obtain ⟨hoff, hleft⟩ := h.waiting hserved
    by_cases hdue : info.uISPGainDelayFrame.toNat - 1 ≤ vsyncs as
    · have hzero : g.uISPGainDelayFrame = 0 := by
        apply BitVec.eq_of_toNat_eq
        have h0 : (0 : BitVec 8).toNat = 0 := rfl
        omega
      have hserved' : RawServed info (as ++ [.rawGain]) :=
        (rawServed_snoc_rawGain as).mpr (Or.inr hdue)
      simp only [kdGetRawGainInfoPtr, if_pos hzero]
      exact ⟨fun _ => h.gains, fun hn => absurd ⟨hdue, hserved⟩ hn,
        fun hn => absurd hserved' hn, fun _ => rfl, h.gains⟩
    · have hzero : g.uISPGainDelayFrame ≠ 0 := by
        intro he
        have h0 : (0 : BitVec 8).toNat = 0 := rfl
        rw [he, h0] at hleft
        omega
      have hserved' : ¬ RawServed info (as ++ [.rawGain]) := by
        rw [rawServed_snoc_rawGain]
        tauto
      simp only [kdGetRawGainInfoPtr, if_neg hzero]
      exact ⟨fun hn => absurd hn.1 hdue, fun _ => trivial,
        fun _ => by rw [vsyncs_snoc_rawGain]; exact ⟨hoff, hleft⟩,
        fun hs => absurd hs hserved', h.gains⟩

theorem ispKept_run (main camera : BitVec 32) (hisp : info.uISPGainDelayFrame ≠ 0xFF)
    {g : SensorSync} {as : List FrameAction} {outs : List FrameOutput}
    (h : (frames main).run (setSensorSync camera info).1 as = some (g, outs)) :
    IspKept info g as := by
  refine Machine.run_history (J := fun g as _ => IspKept info g as)
    (fun u bs _ a v o ih hstep => ?_) (IspKept.request hisp camera) h
  obtain ⟨rfl, rfl, -⟩ | ⟨rfl, rfl, -⟩ := frames_step_cases main hstep
  · exact ih.vsync main
  · exact ih.rawGain.2.2

end Request

/-! ## On time -/

/-- A reader after the frames `as` is the first one after the ISP delay. -/
def FirstReader (info : SensorSync) (as : List FrameAction) : Prop :=
  info.uISPGainDelayFrame.toNat - 1 ≤ vsyncs as ∧ ¬ RawServed info as

/-- The values of a request for one feature are issued in the request when the
delay is 0 and in the vertical sync with the number of the delay otherwise, and
never twice. -/
structure IssuedOnce (info : SensorSync) (f : SyncFeature) (request : List SyncCommand)
    (as : List FrameAction) (outs : List FrameOutput) : Prop where
  atRequest : values f request = if (info.delay f).toNat = 0 then [info.value f] else []
  frame : ∀ before a after o, as = before ++ a :: after → outs[before.length]? = some o →
    values f o.commands =
      if a = .vsync ∧ vsyncs before + 1 = (info.delay f).toNat then [info.value f] else []
  total : values f (request ++ outs.flatMap FrameOutput.commands) =
    if (info.delay f).toNat ≤ vsyncs as then [info.value f] else []

/-- Only the first reader after the delay gets the gains. -/
def ReadOnce (info : SensorSync) (as : List FrameAction) (outs : List FrameOutput) : Prop :=
  ∀ before after o, as = before ++ .rawGain :: after → outs[before.length]? = some o →
    (FirstReader info before → o.rawGain = ispGains info) ∧
    (¬ FirstReader info before → o.rawGain = [0, 0, 0, 0])

/-- Where the countdowns of a request are after the frames `as`. -/
structure CountedDown (info g : SensorSync) (as : List FrameAction) : Prop where
  delay : ∀ f, framesLeft (g.delay f) =
    if vsyncs as + 1 ≤ (info.delay f).toNat then some ((info.delay f).toNat - (vsyncs as + 1))
    else none
  isp : ¬ RawServed info as →
    framesLeft g.uISPGainDelayFrame = some (info.uISPGainDelayFrame.toNat - 1 - vsyncs as)
  ispServed : RawServed info as → framesLeft g.uISPGainDelayFrame = none

theorem frames_run (main : BitVec 32) (g : SensorSync) (as : List FrameAction) :
    ∃ t outs, (frames main).run g as = some (t, outs) := by
  induction as generalizing g with
  | nil => exact ⟨g, [], rfl⟩
  | cons a as ih =>
    obtain ⟨u, o, hstep⟩ : ∃ u o, (frames main).step g a = some (u, o) := by
      cases a <;> exact ⟨_, _, rfl⟩
    obtain ⟨t, outs, hrun⟩ := ih u
    exact ⟨t, o :: outs, Machine.run_cons hstep hrun⟩

/-- The frame at a place of a run, with the state it finds. -/
theorem frame_of_run {main : BitVec 32} {g₀ g : SensorSync} {before after : List FrameAction}
    {a : FrameAction} {outs : List FrameOutput} {o : FrameOutput}
    (h : (frames main).run g₀ (before ++ a :: after) = some (g, outs))
    (ho : outs[before.length]? = some o) :
    ∃ u outs₁ v, (frames main).run g₀ before = some (u, outs₁) ∧
      (frames main).step u a = some (v, o) := by
  obtain ⟨u, outs₁, outs₂, hbefore, hrest, rfl⟩ := Machine.run_append_iff.mp h
  obtain ⟨v, o', outs₃, hstep, _, rfl⟩ := Machine.run_cons_iff.mp hrest
  rw [← Machine.run_length hbefore, List.getElem?_append_right (Nat.le_refl _), Nat.sub_self,
    List.getElem?_cons_zero, Option.some.injEq] at ho
  exact ⟨u, outs₁, v, hbefore, ho ▸ hstep⟩

section Theorem

variable {info : SensorSync}

theorem framesLeft_eq {delay : BitVec 8} (h : delay ≠ 0xFF) : framesLeft delay = some delay.toNat :=
  if_neg h

/-- A request is the first tick of its delays. -/
theorem setSensorSync_eq
    (htime : info.u2SensorNewExpTime ≠ 0 ∧ info.u2SensorNewExpTime ≠ 0xFFFF)
    (camera : BitVec 32) : setSensorSync camera info = syncTick camera info := by
  have hno : ¬ (info.u2SensorNewExpTime = 0 ∨ info.u2SensorNewExpTime = 0xFFFF) := by tauto
  simp only [setSensorSync, if_neg hno]

theorem issuedOnce_run {main camera : BitVec 32} {f : SyncFeature} (hdelay : info.delay f ≠ 0xFF)
    {g : SensorSync} {as : List FrameAction} {outs : List FrameOutput}
    (h : (frames main).run (syncTick camera info).1 as = some (g, outs)) :
    IssuedOnce info f (syncTick camera info).2 as outs := by
  have hstart := framesLeft_syncTick camera info f
  have hleft := framesLeft_eq hdelay
  have hvalue : (syncTick camera info).1.value f = info.value f := by
    cases f <;> rfl
  have hreq : values f (syncTick camera info).2 =
      if (info.delay f).toNat = 0 then [info.value f] else [] := by
    rw [values_syncTick, hleft]
    simp only [Countdown.Due, Option.some.injEq]
  refine ⟨hreq, ?_, ?_⟩
  · intro before a after o has ho
    subst has
    obtain ⟨u, outs₁, v, hbefore, hstep⟩ := frame_of_run h ho
    have hpending := pending_run hbefore
    obtain ⟨rfl, -, rfl⟩ | ⟨rfl, -, rfl⟩ := frames_step_cases main hstep
    · rw [values_syncTick, hpending.delay f, hpending.value f, hstart, Countdown.after_tick, hleft,
        hvalue]
      simp only [Countdown.due_after_some, true_and]
    · simp [values]
  · rw [values_append, values_run h f, hreq, hstart, hleft, hvalue]
    exact Countdown.sent_once _ _ _

/-- Every exposure, gain and ISP gain of a request is applied exactly once and in
its frame, whatever frames follow. -/
theorem sync_on_time (main camera : BitVec 32) (info : SensorSync)
    (htime : info.u2SensorNewExpTime ≠ 0 ∧ info.u2SensorNewExpTime ≠ 0xFFFF)
    (hexp : info.uSensorExpDelayFrame ≠ 0xFF) (hgain : info.uSensorGainDelayFrame ≠ 0xFF)
    (hisp : info.uISPGainDelayFrame ≠ 0xFF) (as : List FrameAction) :
    ∃ g outs, (frames main).run (setSensorSync camera info).1 as = some (g, outs) ∧
      (∀ f, IssuedOnce info f (setSensorSync camera info).2 as outs) ∧
      ReadOnce info as outs ∧ CountedDown info g as := by
  obtain ⟨g, outs, hrun⟩ := frames_run main (setSensorSync camera info).1 as
  have hdelay : ∀ f, info.delay f ≠ 0xFF := by
    intro f
    cases f with
    | setEshutter => exact hexp
    | setGain => exact hgain
  have hisp_run : ∀ {u : SensorSync} {bs : List FrameAction} {ps : List FrameOutput},
      (frames main).run (setSensorSync camera info).1 bs = some (u, ps) → IspKept info u bs :=
    ispKept_run main camera hisp
  have hkept := hisp_run hrun
  refine ⟨g, outs, hrun, ?_, ?_, ?_, ?_, ?_⟩
  · rw [setSensorSync_eq htime camera] at hrun ⊢
    exact fun f => issuedOnce_run (hdelay f) hrun
  · intro before after o has ho
    subst has
    obtain ⟨u, outs₁, v, hbefore, hstep⟩ := frame_of_run hrun ho
    simp only [frames, Option.some.injEq, Prod.mk.injEq] at hstep
    have hread := (hisp_run hbefore).rawGain
    rw [← hstep.2]
    exact ⟨hread.1, hread.2.1⟩
  · intro f
    rw [setSensorSync_eq htime camera] at hrun
    rw [(pending_run hrun).delay f, framesLeft_syncTick, Countdown.after_tick,
      framesLeft_eq (hdelay f), Countdown.after_some]
  · intro hserved
    obtain ⟨hoff, hleft⟩ := hkept.waiting hserved
    rw [framesLeft_eq hoff, hleft]
  · intro hserved
    rw [hkept.served hserved]
    rfl

end Theorem

theorem sync_on_time_deferred :
    ∃ g outs, (frames 1).run
        (setSensorSync 2 { newSensorExpGain with uSensorExpDelayFrame := 2,
                                                 uSensorGainDelayFrame := 0,
                                                 uISPGainDelayFrame := 3 }).1
        [.vsync, .rawGain, .vsync, .rawGain] = some (g, outs) ∧
      IssuedOnce { newSensorExpGain with uSensorExpDelayFrame := 2, uSensorGainDelayFrame := 0,
                                         uISPGainDelayFrame := 3 } .setEshutter
        (setSensorSync 2 { newSensorExpGain with uSensorExpDelayFrame := 2,
                                                 uSensorGainDelayFrame := 0,
                                                 uISPGainDelayFrame := 3 }).2
        [.vsync, .rawGain, .vsync, .rawGain] outs := by
  obtain ⟨g, outs, hrun, honce, _⟩ := sync_on_time 1 2
    { newSensorExpGain with uSensorExpDelayFrame := 2, uSensorGainDelayFrame := 0,
                            uISPGainDelayFrame := 3 }
    (by decide) (by decide) (by decide) (by decide) [.vsync, .rawGain, .vsync, .rawGain]
  exact ⟨g, outs, hrun, honce .setEshutter⟩

/-! ## The camera that asked -/

/-- Every command issued because of a request, at once or in a later frame, goes
to the camera of the request. -/
def Addressed (main camera : BitVec 32) (info : SensorSync) : Prop :=
  (∀ c ∈ (setSensorSync camera info).2, c.camera = camera) ∧
    ∀ as g outs, (frames main).run (setSensorSync camera info).1 as = some (g, outs) →
      ∀ o ∈ outs, ∀ c ∈ o.commands, c.camera = camera

/-- The request leaves no command for a later frame. -/
def Immediate (info : SensorSync) : Prop :=
  (info.u2SensorNewExpTime = 0 ∨ info.u2SensorNewExpTime = 0xFFFF ∨
      info.uSensorExpDelayFrame = 0 ∨ info.uSensorExpDelayFrame = 0xFF) ∧
    (info.uSensorGainDelayFrame = 0 ∨ info.uSensorGainDelayFrame = 0xFF)

/-- The commands of one tick. -/
theorem mem_syncTick {camera : BitVec 32} {g : SensorSync} {c : SyncCommand} :
    c ∈ (syncTick camera g).2 ↔
      c = ⟨camera, c.feature, g.value c.feature⟩ ∧
        Countdown.Due (framesLeft (g.delay c.feature)) := by
  have hone : ∀ {p : Prop} [Decidable p] {d : SyncCommand},
      c ∈ (if p then [d] else []) ↔ c = d ∧ p := by
    intro p _ d
    by_cases hp : p
    · simp [hp]
    · simp [hp]
  simp only [syncTick, (delayTick_eq _ _).2, List.mem_append, hone]
  obtain ⟨cam, feature, value⟩ := c
  cases feature with
  | setEshutter => simp [SensorSync.delay, SensorSync.value]
  | setGain => simp [SensorSync.delay, SensorSync.value]

theorem syncTick_camera (camera : BitVec 32) (g : SensorSync) :
    ∀ c ∈ (syncTick camera g).2, c.camera = camera := by
  intro c hc
  rw [(mem_syncTick.mp hc).1]

/-- One tick ends a countdown at 0, and leaves one that is off. -/
theorem tick_framesLeft {delay : BitVec 8} :
    Countdown.tick (framesLeft delay) = none ↔ delay = 0 ∨ delay = 0xFF := by
  by_cases hoff : delay = 0xFF
  · subst hoff
    exact iff_of_true rfl (Or.inr rfl)
  · rw [framesLeft_eq hoff]
    constructor
    · intro h
      left
      apply BitVec.eq_of_toNat_eq
      cases hn : delay.toNat with
      | zero => rfl
      | succ n => simp [hn, Countdown.tick] at h
    · intro h
      cases h with
      | inl hzero =>
        subst hzero
        rfl
      | inr h => exact absurd h hoff

theorem forall_syncFeature {p : SyncFeature → Prop} :
    (∀ f, p f) ↔ p .setEshutter ∧ p .setGain := by
  constructor
  · exact fun h => ⟨h _, h _⟩
  · intro h f
    cases f with
    | setEshutter => exact h.1
    | setGain => exact h.2

/-- A request leaves a countdown for every feature that it does not finish. -/
theorem immediate_iff (camera : BitVec 32) (info : SensorSync) :
    Immediate info ↔ ∀ f, framesLeft ((setSensorSync camera info).1.delay f) = none := by
  have hexp : (info.u2SensorNewExpTime = 0 ∨ info.u2SensorNewExpTime = 0xFFFF ∨
        info.uSensorExpDelayFrame = 0 ∨ info.uSensorExpDelayFrame = 0xFF) ↔
      framesLeft ((setSensorSync camera info).1.delay .setEshutter) = none := by
    rw [setSensorSync, framesLeft_syncTick, tick_framesLeft, SensorSync.delay]
    by_cases hoff : info.u2SensorNewExpTime = 0 ∨ info.u2SensorNewExpTime = 0xFFFF
    · refine iff_of_true ?_ (Or.inr (if_pos hoff))
      exact hoff.elim Or.inl fun h => Or.inr (Or.inl h)
    · simp only [if_neg hoff]
      rw [← or_assoc]
      exact or_iff_right hoff
  have hgain : (info.uSensorGainDelayFrame = 0 ∨ info.uSensorGainDelayFrame = 0xFF) ↔
      framesLeft ((setSensorSync camera info).1.delay .setGain) = none := by
    rw [setSensorSync, framesLeft_syncTick, tick_framesLeft, SensorSync.delay]
  rw [forall_syncFeature, Immediate, hexp, hgain]

/-- A frame issues nothing when both countdowns are off. -/
theorem frame_quiet {main : BitVec 32} {g₀ : SensorSync}
    (hoff : ∀ f, framesLeft (g₀.delay f) = none) {as : List FrameAction} {g : SensorSync}
    {outs : List FrameOutput} (h : (frames main).run g₀ as = some (g, outs)) :
    ∀ o ∈ outs, o.commands = [] := by
  have hstep : ∀ u a t o, (∀ f, framesLeft (u.delay f) = none) → True →
      (frames main).step u a = some (t, o) →
      (∀ f, framesLeft (t.delay f) = none) ∧ o.commands = [] := by
    intro u a t o hu _ hone
    obtain ⟨rfl, rfl, rfl⟩ | ⟨rfl, rfl, rfl⟩ := frames_step_cases main hone
    · refine ⟨fun f => ?_, ?_⟩
      · rw [framesLeft_syncTick, hu f]
        rfl
      · apply List.eq_nil_iff_forall_not_mem.mpr
        intro c hc
        have hdue := (mem_syncTick.mp hc).2
        rw [hu] at hdue
        simp [Countdown.Due] at hdue
    · have hsame := (Pending.start u).rawGain
      refine ⟨fun f => ?_, rfl⟩
      rw [hsame.delay f, hu f]
      rfl
  exact (Machine.run_outputs (A := fun _ => True) hstep hoff (fun _ _ => trivial) h).2

/-- A countdown that is running fires in a later frame, for the main camera. -/
theorem deferred_to_main (main : BitVec 32) {g₀ : SensorSync} {f : SyncFeature} {n : Nat}
    (hleft : framesLeft (g₀.delay f) = some n) :
    ∃ as g outs, (frames main).run g₀ as = some (g, outs) ∧
      ∃ o ∈ outs, ∃ c ∈ o.commands, c.camera = main := by
  obtain ⟨u, outs, hrun⟩ := frames_run main g₀ (List.replicate n .vsync)
  have hcount : vsyncs (List.replicate n FrameAction.vsync) = n := by
    simp [vsyncs]
  have hpending := pending_run hrun
  have hdue : Countdown.Due (framesLeft (u.delay f)) := by
    rw [hpending.delay f, hleft, hcount, Countdown.due_after_some]
  refine ⟨_, _, _, Machine.run_append hrun (Machine.run_singleton (a := .vsync) rfl), _,
    List.mem_append_right _ (List.mem_singleton.mpr rfl), ⟨main, f, u.value f⟩,
    mem_syncTick.mpr ⟨rfl, hdue⟩, rfl⟩

/-- For every camera, request and sequence of frames: the commands of a request
go to its camera exactly when that is the main camera or nothing is deferred. -/
theorem addressed_iff (main camera : BitVec 32) (info : SensorSync) :
    Addressed main camera info ↔ camera = main ∨ Immediate info := by
  constructor
  · intro h
    by_cases himm : Immediate info
    · exact Or.inr himm
    · left
      rw [immediate_iff camera] at himm
      obtain ⟨f, hf⟩ := not_forall.mp himm
      obtain ⟨n, hn⟩ := Option.ne_none_iff_exists'.mp hf
      obtain ⟨as, g, outs, hrun, o, ho, c, hc, hmain⟩ := deferred_to_main main hn
      rw [← h.2 as g outs hrun o ho c hc, hmain]
  · intro h
    refine ⟨syncTick_camera camera _, fun as g outs hrun o ho c hc => ?_⟩
    rcases h with rfl | himm
    · have hstep : ∀ u a t o, True → True → (frames camera).step u a = some (t, o) →
          True ∧ ∀ c ∈ o.commands, c.camera = camera := by
        intro u a t o _ _ hone
        obtain ⟨rfl, -, rfl⟩ | ⟨rfl, -, rfl⟩ := frames_step_cases camera hone
        · exact ⟨trivial, syncTick_camera camera u⟩
        · exact ⟨trivial, by simp⟩
      exact (Machine.run_outputs (A := fun _ => True) hstep trivial (fun _ _ => trivial) hrun).2
        o ho c hc
    · have hquiet := frame_quiet ((immediate_iff camera info).mp himm) hrun o ho
      simp [hquiet] at hc

/-- A request of the second camera sets the main camera's exposure two frames
later. -/
theorem deferred_exposure_misaddressed :
    ¬ Addressed 1 2 { newSensorExpGain with uSensorExpDelayFrame := 2 } := by
  intro h
  have hmain := h.2 [.vsync, .vsync] _ _ rfl
    { commands := [⟨1, .setEshutter, 1000⟩] } (by decide) ⟨1, .setEshutter, 1000⟩ (by decide)
  exact absurd hmain (by decide)

end Camera
end AtomDrivers
