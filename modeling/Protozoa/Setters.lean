import Protozoa.Fields

/-!
# Any sequence of setters (`ccpacket.c`)

What the encoders rely on (`Represented`): speeds in their range, one flag in each field, and a
preset mode only with a preset number. Every setter (`ccpacket.c:72-486`) normalises its own part of
the packet and leaves the rest alone (`Call.frame`), but `ccpacket_set_tilt_speed`
(`ccpacket.c:224-226`) takes any speed.

* `Call`: a call of one of the setters, with the argument it gets; `run` is any sequence of them.
* `Getter.Same`: a getter gives the same before and after; `Call.sets` is what one call may change.
* **`represented_iff`**: a packet is represented after each of the calls, and each call leaves the
  getters of the other fields alone, exactly if every tilt speed in the calls is in range
  (`Call.TiltInRange`).
* `not_represented`: a tilt speed of -1.
-/

namespace Protozoa.Setters

open Lib.BitField

/-- A call of `ccpacket_clear` or of a setter. -/
inductive Call where
  | clear
  | setReceiver (receiver : Int)
  | setMenu (mc : CcFlags)
  | setCamera (cc : CcFlags)
  | setPan (pm : CcFlags) (speed : Int)
  | setPanSpeed (speed : Int)
  | setTilt (tm : CcFlags) (speed : Int)
  | setTiltSpeed (speed : Int)
  /-- at the time `now` -/
  | setTimeout (now : Timeval) (timeout : Nat)
  | setPreset (pm : CcFlags) (pNum : Int)
  | setZoom (zm : CcFlags)
  | setFocus (fm : CcFlags)
  | setIris (im : CcFlags)
  | setLens (lm : CcFlags)
  | setWiper (wm : CcFlags)
  | setAck (am : CcFlags)
  deriving DecidableEq

/-- What it makes of a packet. -/
def Call.apply (pkt : Ccpacket) : Call → Ccpacket
  | clear => ccpacketClear pkt
  | setReceiver receiver => ccpacketSetReceiver pkt receiver
  | setMenu mc => ccpacketSetMenu pkt mc
  | setCamera cc => ccpacketSetCamera pkt cc
  | setPan pm speed => ccpacketSetPan pkt pm speed
  | setPanSpeed speed => ccpacketSetPanSpeed pkt speed
  | setTilt tm speed => ccpacketSetTilt pkt tm speed
  | setTiltSpeed speed => ccpacketSetTiltSpeed pkt speed
  | setTimeout now timeout => ccpacketSetTimeout now pkt timeout
  | setPreset pm pNum => ccpacketSetPreset pkt pm pNum
  | setZoom zm => ccpacketSetZoom pkt zm
  | setFocus fm => ccpacketSetFocus pkt fm
  | setIris im => ccpacketSetIris pkt im
  | setLens lm => ccpacketSetLens pkt lm
  | setWiper wm => ccpacketSetWiper pkt wm
  | setAck am => ccpacketSetAck pkt am

/-- Calls, one after the other. -/
def run (pkt : Ccpacket) (calls : List Call) : Ccpacket := calls.foldl Call.apply pkt

/-! ## What the encoders rely on -/

/-- At most one flag of the field. -/
def OneFlag (x : Field) (flags : CcFlags) : Prop :=
  ∀ i j, (flags &&& x.mask).getLsbD i → (flags &&& x.mask).getLsbD j → i = j

/-- The representation of a command. -/
structure Represented (pkt : Ccpacket) : Prop where
  pan : 0 ≤ pkt.pan ∧ pkt.pan ≤ speedMax
  tilt : 0 ≤ pkt.tilt ∧ pkt.tilt ≤ speedMax
  flags : ∀ x, OneFlag x pkt.flags
  preset : pkt.flags &&& ccPreset ≠ 0 → 0 < pkt.preset

/-- A tilt speed is one. -/
def Call.TiltInRange : Call → Prop
  | setTilt _ speed | setTiltSpeed speed => 0 ≤ speed ∧ speed ≤ speedMax
  | _ => True

theorem clampSpeed_range (speed : Int) : 0 ≤ clampSpeed speed ∧ clampSpeed speed ≤ speedMax := by
  unfold clampSpeed speedMax
  split
  · decide
  · split
    · decide
    · omega

/-- The numbers of the bits of the members. -/
def bits : Field → List Nat
  | .pan => [0, 1, 2]
  | .tilt => [4, 5]
  | .preset => [6, 7, 8]
  | .menu => [9, 10, 11]
  | .camera => [12, 13]
  | .ack => [14]
  | .zoom => [15, 16]
  | .focus => [17, 18, 19]
  | .iris => [20, 21, 22]
  | .lens => [23]
  | .wiper => [24, 25]

theorem members_eq (x : Field) : x.members = (bits x).map (BitVec.twoPow 32) := by
  cases x <;> rfl

/-- A member of a field is one flag. -/
theorem oneFlag_of_proper {flags : CcFlags} (h : Proper flags) (x : Field) : OneFlag x flags := by
  unfold OneFlag
  rw [← h.get x]
  intro i j hi hj
  rcases x.get_mem flags with h0 | hmem
  · rw [h0] at hi
    simp at hi
  · rw [members_eq] at hmem
    obtain ⟨k, -, hk⟩ := List.mem_map.mp hmem
    rw [← hk, BitVec.getLsbD_twoPow] at hi hj
    simp only [Bool.and_eq_true, decide_eq_true_eq] at hi hj
    exact hi.2.symm.trans hj.2

theorem represented_of_wellFormed {pkt : Ccpacket} (h : WellFormed pkt) (hpan : 0 ≤ pkt.pan ∧ pkt.pan ≤ speedMax)
    (htilt : 0 ≤ pkt.tilt ∧ pkt.tilt ≤ speedMax) : Represented pkt := by
  refine ⟨hpan, htilt, oneFlag_of_proper h.proper, fun hne => ?_⟩
  by_contra hle
  exact hne ((h.proper.get .preset).symm.trans (h.preset (not_lt.mp hle)))

/-! ## One call -/

variable {pkt : Ccpacket}

theorem wellFormed_update (h : WellFormed pkt) {x : Field} (hx : x ≠ .preset) (m : CcFlags) :
    WellFormed (x.update pkt m) := by
  refine ⟨h.proper.set x m, fun hle => ?_⟩
  rw [Field.get_update, if_neg (Ne.symm hx)]
  exact h.preset hle

/-- **Setting a preset** writes no mode unless the number is positive. -/
theorem wellFormed_setPreset (h : WellFormed pkt) (pm : CcFlags) (pNum : Int) :
    WellFormed (ccpacketSetPreset pkt pm pNum) := by
  have hput : ∀ m, pkt.flags &&& ~~~ccPreset ||| Field.preset.get m = Field.preset.set m pkt.flags :=
    fun m => BitVec.or_comm _ _
  have hclear : pkt.flags &&& ~~~ccPreset = Field.preset.set 0 pkt.flags := by
    rw [← hput, Field.get_zero]
    exact BitVec.or_zero.symm
  have hset : ∃ m, (ccpacketSetPreset pkt pm pNum).flags = Field.preset.set m pkt.flags ∧
      ((ccpacketSetPreset pkt pm pNum).preset ≤ 0 → Field.preset.get m = 0) := by
    have hplain : ∃ m, pkt.flags &&& ~~~ccPreset ||| ccpacketPreset pm pNum = Field.preset.set m pkt.flags ∧
        (pNum ≤ 0 → Field.preset.get m = 0) := by
      unfold ccpacketPreset
      by_cases hle : pNum ≤ 0
      · rw [if_pos hle]
        exact ⟨0, BitVec.or_zero.trans hclear, fun _ => Field.get_zero _⟩
      · rw [if_neg hle]
        exact ⟨pm, hput pm, fun h => absurd h hle⟩
    simp only [ccpacketSetPreset]
    split
    · split
      · exact ⟨0, hclear, fun _ => Field.get_zero _⟩
      · exact hplain
    · exact hplain
  obtain ⟨m, hflags, hmode⟩ := hset
  refine ⟨hflags ▸ h.proper.set .preset m, fun hle => ?_⟩
  rw [hflags, Field.get_set, if_pos rfl]
  exact hmode hle

/-- What a call keeps, whatever its arguments. -/
structure Kept (pkt : Ccpacket) : Prop where
  wellFormed : WellFormed pkt
  pan : 0 ≤ pkt.pan ∧ pkt.pan ≤ speedMax

theorem Kept.setPreset (h : Kept pkt) (pm : CcFlags) (pNum : Int) : Kept (ccpacketSetPreset pkt pm pNum) := by
  refine ⟨wellFormed_setPreset h.wellFormed pm pNum, ?_⟩
  obtain ⟨flags, preset, hset, -⟩ := ccpacketSetPreset_rest pkt pm pNum
  rw [hset]
  exact h.pan

/-- **One call.** -/
theorem Kept.apply (h : Kept pkt) (call : Call) : Kept (call.apply pkt) := by
  have hupdate : ∀ {x : Field}, x ≠ .preset → ∀ m, Kept (x.update pkt m) := fun hx m =>
    ⟨wellFormed_update h.wellFormed hx m, h.pan⟩
  cases call with
  | clear => exact ⟨⟨proper_zero, fun _ => Field.get_zero _⟩, le_rfl, Int.le_of_lt (by decide : (0 : Int) < 2047)⟩
  | setReceiver | setTimeout => exact ⟨⟨h.wellFormed.proper, h.wellFormed.preset⟩, h.pan⟩
  | setMenu mc => exact hupdate (x := .menu) (by decide) mc
  | setCamera cc => exact hupdate (x := .camera) (by decide) cc
  | setPan pm speed =>
    have hpan := wellFormed_update h.wellFormed (x := .pan) (by decide) pm
    exact ⟨⟨hpan.proper, hpan.preset⟩, clampSpeed_range speed⟩
  | setPanSpeed speed => exact ⟨⟨h.wellFormed.proper, h.wellFormed.preset⟩, clampSpeed_range speed⟩
  | setTilt tm speed =>
    have htilt := wellFormed_update h.wellFormed (x := .tilt) (by decide) tm
    exact ⟨⟨htilt.proper, htilt.preset⟩, h.pan⟩
  | setTiltSpeed speed => exact ⟨⟨h.wellFormed.proper, h.wellFormed.preset⟩, h.pan⟩
  | setPreset pm pNum => exact h.setPreset pm pNum
  | setZoom zm => exact hupdate (x := .zoom) (by decide) zm
  | setFocus fm => exact hupdate (x := .focus) (by decide) fm
  | setIris im => exact hupdate (x := .iris) (by decide) im
  | setLens lm => exact hupdate (x := .lens) (by decide) lm
  | setWiper wm => exact hupdate (x := .wiper) (by decide) wm
  | setAck am => exact hupdate (x := .ack) (by decide) am

/-- A call writes the tilt speed that it is given, 0, or none. -/
theorem tilt_apply (call : Call) (htilt : 0 ≤ pkt.tilt ∧ pkt.tilt ≤ speedMax) :
    (0 ≤ (call.apply pkt).tilt ∧ (call.apply pkt).tilt ≤ speedMax) ↔ call.TiltInRange := by
  cases call with
  | setTilt | setTiltSpeed => exact Iff.rfl
  | clear => exact iff_of_true ⟨le_rfl, Int.le_of_lt (by decide : (0 : Int) < 2047)⟩ trivial
  | setPreset pm pNum =>
    obtain ⟨flags, preset, hset, -⟩ := ccpacketSetPreset_rest pkt pm pNum
    refine iff_of_true ?_ trivial
    show 0 ≤ (ccpacketSetPreset pkt pm pNum).tilt ∧ (ccpacketSetPreset pkt pm pNum).tilt ≤ speedMax
    rw [hset]
    exact htilt
  | _ => exact iff_of_true htilt trivial

/-! ## Any calls -/

theorem Kept.run (h : Kept pkt) : ∀ calls : List Call, Kept (run pkt calls) := by
  intro calls
  induction calls generalizing pkt with
  | nil => exact h
  | cons call calls ih => exact ih (h.apply call)

theorem run_take_succ {calls : List Call} {k : Nat} {call : Call} (h : calls[k]? = some call) :
    run pkt (calls.take (k + 1)) = call.apply (run pkt (calls.take k)) := by
  rw [List.take_add_one, h, Option.toList_some, run, List.foldl_append]
  rfl

/-- **Represented after each call**, as long as every tilt speed is in range. -/
theorem represented_take (h : Kept pkt) (htilt : 0 ≤ pkt.tilt ∧ pkt.tilt ≤ speedMax) (calls : List Call) :
    (∀ k, Represented (run pkt (calls.take k))) ↔ ∀ call ∈ calls, call.TiltInRange := by
  constructor
  · intro hall call hcall
    obtain ⟨k, hk⟩ := List.mem_iff_getElem?.mp hcall
    refine (tilt_apply call (hall k).tilt).mp ?_
    rw [← run_take_succ hk]
    exact (hall (k + 1)).tilt
  · intro hall k
    refine represented_of_wellFormed (h.run _).wellFormed (h.run _).pan ?_
    induction k with
    | zero => exact htilt
    | succ k ih =>
      cases hk : calls[k]? with
      | none =>
        rw [List.take_add_one, hk, Option.toList_none, List.append_nil]
        exact ih
      | some call =>
        rw [run_take_succ hk]
        exact (tilt_apply call ih).mpr (hall call (List.mem_of_getElem? hk))

/-! ## What a setter leaves alone -/

/-- The getters. -/
inductive Getter where
  | receiver
  | menu
  | camera
  | panMode
  | panSpeed
  | hasPan
  | tiltMode
  | tiltSpeed
  | hasTilt
  | isExpired
  | presetMode
  | presetNumber
  | zoom
  | focus
  | iris
  | lens
  | wiper
  | ack
  deriving DecidableEq

/-- A getter returns the same for two packets. -/
def Getter.Same (pkt pkt' : Ccpacket) : Getter → Prop
  | receiver => pkt'.receiver = pkt.receiver
  | menu => ccpacketGetMenu pkt' = ccpacketGetMenu pkt
  | camera => ccpacketGetCamera pkt' = ccpacketGetCamera pkt
  | panMode => ccpacketGetPanMode pkt' = ccpacketGetPanMode pkt
  | panSpeed => pkt'.pan = pkt.pan
  | hasPan => ccpacketHasPan pkt' = ccpacketHasPan pkt
  | tiltMode => ccpacketGetTiltMode pkt' = ccpacketGetTiltMode pkt
  | tiltSpeed => pkt'.tilt = pkt.tilt
  | hasTilt => ccpacketHasTilt pkt' = ccpacketHasTilt pkt
  | isExpired => ∀ now timeout, ccpacketIsExpired now pkt' timeout = ccpacketIsExpired now pkt timeout
  | presetMode => ccpacketGetPresetMode pkt' = ccpacketGetPresetMode pkt
  | presetNumber => pkt'.preset = pkt.preset
  | zoom => ccpacketGetZoom pkt' = ccpacketGetZoom pkt
  | focus => ccpacketGetFocus pkt' = ccpacketGetFocus pkt
  | iris => ccpacketGetIris pkt' = ccpacketGetIris pkt
  | lens => ccpacketGetLens pkt' = ccpacketGetLens pkt
  | wiper => ccpacketGetWiper pkt' = ccpacketGetWiper pkt
  | ack => ccpacketGetAck pkt' = ccpacketGetAck pkt

/-- The getters of what a call sets. -/
def Call.sets : Call → List Getter
  | clear => [.receiver, .menu, .camera, .panMode, .panSpeed, .hasPan, .tiltMode, .tiltSpeed, .hasTilt, .presetMode,
      .presetNumber, .zoom, .focus, .iris, .lens, .wiper, .ack]
  | setReceiver _ => [.receiver]
  | setMenu _ => [.menu]
  | setCamera _ => [.camera]
  | setPan .. => [.panMode, .hasPan, .panSpeed]
  | setPanSpeed _ => [.panSpeed, .hasPan]
  | setTilt .. => [.tiltMode, .hasTilt, .tiltSpeed]
  | setTiltSpeed _ => [.tiltSpeed, .hasTilt]
  | setTimeout .. => [.isExpired]
  | setPreset .. => [.presetMode, .presetNumber]
  | setZoom _ => [.zoom]
  | setFocus _ => [.focus]
  | setIris _ => [.iris]
  | setLens _ => [.lens]
  | setWiper _ => [.wiper]
  | setAck _ => [.ack]

/-- The field of the flags that a getter reads. -/
def Getter.field : Getter → Option Field
  | menu => some .menu
  | camera => some .camera
  | panMode | hasPan => some .pan
  | tiltMode | hasTilt => some .tilt
  | presetMode => some .preset
  | zoom => some .zoom
  | focus => some .focus
  | iris => some .iris
  | lens => some .lens
  | wiper => some .wiper
  | ack => some .ack
  | _ => none

/-- The getters that read the field only. -/
def getters : Field → List Getter
  | .menu => [.menu]
  | .camera => [.camera]
  | .pan => [.panMode, .hasPan]
  | .tilt => [.tiltMode, .hasTilt]
  | .preset => [.presetMode]
  | .zoom => [.zoom]
  | .focus => [.focus]
  | .iris => [.iris]
  | .lens => [.lens]
  | .wiper => [.wiper]
  | .ack => [.ack]

theorem mem_getters {g : Getter} {x : Field} (h : g.field = some x) : g ∈ getters x := by
  cases g <;> cases h <;> decide

/-- A field of the flags is written. -/
theorem same_update (pkt : Ccpacket) (x : Field) (m : CcFlags) {g : Getter} (h : g.field ≠ some x) :
    g.Same pkt (x.update pkt m) := by
  have hget : ∀ y : Field, some y ≠ some x → y.get (x.update pkt m).flags = y.get pkt.flags := fun y hy => by
    rw [Field.get_update, if_neg fun heq => hy (congrArg some heq)]
  cases g with
  | receiver | panSpeed | tiltSpeed | presetNumber => rfl
  | isExpired => exact fun _ _ => rfl
  | hasPan =>
    have hpan : ccpacketGetPanMode (x.update pkt m) = ccpacketGetPanMode pkt := hget .pan h
    show (_ && _) = (_ && _)
    rw [hpan]
    rfl
  | hasTilt =>
    have htilt : ccpacketGetTiltMode (x.update pkt m) = ccpacketGetTiltMode pkt := hget .tilt h
    show (_ && _) = (_ && _)
    rw [htilt]
    rfl
  | presetMode =>
    show ccpacketGetPresetMode _ = ccpacketGetPresetMode _
    rw [ccpacketGetPresetMode_eq, ccpacketGetPresetMode_eq, hget .preset h]
    rfl
  | menu => exact hget .menu h
  | camera => exact hget .camera h
  | panMode => exact hget .pan h
  | tiltMode => exact hget .tilt h
  | zoom => exact hget .zoom h
  | focus => exact hget .focus h
  | iris => exact hget .iris h
  | lens => exact hget .lens h
  | wiper => exact hget .wiper h
  | ack => exact hget .ack h

section

variable {pkt' : Ccpacket} {g : Getter}

theorem same_refl (pkt : Ccpacket) (g : Getter) : g.Same pkt pkt := by
  cases g <;> first | rfl | exact fun _ _ => rfl

theorem same_receiver (h : g.Same pkt pkt') (hg : g ≠ .receiver) (receiver : Int) :
    g.Same pkt { pkt' with receiver := receiver } := by
  cases g <;> first | exact h | exact absurd rfl hg

theorem same_expire (h : g.Same pkt pkt') (hg : g ≠ .isExpired) (expire : Timeval) :
    g.Same pkt { pkt' with expire := expire } := by
  cases g <;> first | exact absurd rfl hg | exact h

theorem same_panSpeed (h : g.Same pkt pkt') (hg : g ≠ .panSpeed) (hg' : g ≠ .hasPan) (speed : Int) :
    g.Same pkt { pkt' with pan := speed } := by
  cases g <;> first | exact absurd rfl hg | exact absurd rfl hg' | exact h

theorem same_tiltSpeed (h : g.Same pkt pkt') (hg : g ≠ .tiltSpeed) (hg' : g ≠ .hasTilt) (speed : Int) :
    g.Same pkt { pkt' with tilt := speed } := by
  cases g <;> first | exact absurd rfl hg | exact absurd rfl hg' | exact h

end

/-- **A setter leaves the rest alone.** -/
theorem Call.frame (call : Call) (hclear : call ≠ .clear) (hpreset : ∀ pm pNum, call ≠ .setPreset pm pNum)
    (pkt : Ccpacket) {g : Getter} (hg : g ∉ call.sets) : g.Same pkt (call.apply pkt) := by
  cases call with
  | clear => exact absurd rfl hclear
  | setPreset pm pNum => exact absurd rfl (hpreset pm pNum)
  | setReceiver receiver => exact same_receiver (same_refl pkt g) (List.ne_of_not_mem_cons hg) receiver
  | setTimeout now timeout => exact same_expire (same_refl pkt g) (List.ne_of_not_mem_cons hg) _
  | setPanSpeed speed =>
    simp only [sets, List.mem_cons, List.not_mem_nil, or_false, not_or] at hg
    exact same_panSpeed (same_refl pkt g) hg.1 hg.2 _
  | setTiltSpeed speed =>
    simp only [sets, List.mem_cons, List.not_mem_nil, or_false, not_or] at hg
    exact same_tiltSpeed (same_refl pkt g) hg.1 hg.2 _
  | setPan pm speed =>
    have hmode : g ∉ getters .pan := fun h => hg (List.mem_append_left [Getter.panSpeed] h)
    simp only [sets, List.mem_cons, List.not_mem_nil, or_false, not_or] at hg
    exact same_panSpeed (same_update pkt .pan pm fun h => hmode (mem_getters h)) hg.2.2 hg.2.1 _
  | setTilt tm speed =>
    have hmode : g ∉ getters .tilt := fun h => hg (List.mem_append_left [Getter.tiltSpeed] h)
    simp only [sets, List.mem_cons, List.not_mem_nil, or_false, not_or] at hg
    exact same_tiltSpeed (same_update pkt .tilt tm fun h => hmode (mem_getters h)) hg.2.2 hg.2.1 _
  | setMenu mc => exact same_update pkt .menu mc fun h => hg (mem_getters h)
  | setCamera cc => exact same_update pkt .camera cc fun h => hg (mem_getters h)
  | setZoom zm => exact same_update pkt .zoom zm fun h => hg (mem_getters h)
  | setFocus fm => exact same_update pkt .focus fm fun h => hg (mem_getters h)
  | setIris im => exact same_update pkt .iris im fun h => hg (mem_getters h)
  | setLens lm => exact same_update pkt .lens lm fun h => hg (mem_getters h)
  | setWiper wm => exact same_update pkt .wiper wm fun h => hg (mem_getters h)
  | setAck am => exact same_update pkt .ack am fun h => hg (mem_getters h)

/-! ## The packet invariant -/

/-- After each of the calls the packet is represented, and none of its setters but
`ccpacket_set_preset` has changed what the getters of other fields return. -/
def KeepsRepresented (pkt : Ccpacket) (calls : List Call) : Prop :=
  (∀ k, Represented (run pkt (calls.take k))) ∧
    ∀ (k : Nat) (call : Call), calls[k]? = some call → call ≠ .clear → (∀ pm pNum, call ≠ .setPreset pm pNum) →
      ∀ g ∉ call.sets, g.Same (run pkt (calls.take k)) (run pkt (calls.take (k + 1)))

/-- **The packet invariant** holds over a sequence of calls exactly if every tilt speed in them is
in range. -/
theorem represented_iff (now : Timeval) (calls : List Call) :
    KeepsRepresented (ccpacketCreate now) calls ↔ ∀ call ∈ calls, call.TiltInRange := by
  have hkept : Kept (ccpacketCreate now) :=
    ⟨⟨proper_zero, fun _ => Field.get_zero _⟩, le_rfl, Int.le_of_lt (by decide : (0 : Int) < 2047)⟩
  have htake := represented_take hkept hkept.pan calls
  refine ⟨fun h => htake.mp h.1, fun h => ⟨htake.mpr h, fun k call hk hclear hpreset g hg => ?_⟩⟩
  rw [run_take_succ hk]
  exact call.frame hclear hpreset _ hg

/-- A tilt speed of -1 stays. -/
theorem not_represented : ¬ ∀ (now : Timeval) (calls : List Call), KeepsRepresented (ccpacketCreate now) calls := by
  intro h
  have htilt := ((h ⟨0, 0⟩ [.setTiltSpeed (-1)]).1 1).tilt.1
  exact absurd htilt (by decide)

end Protozoa.Setters
