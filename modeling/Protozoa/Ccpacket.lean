import Protozoa.Lib.BitField
import Protozoa.Timeval

/-!
# Camera control packets (`ccpacket.c`)

The packet every reader fills and every writer encodes (`ccpacket.c:32-39`). Its `flags` hold ten
small enumerations (`enum cc_flags`, `ccpacket.h:12-50`), each under a mask of its own; a
`ccpacket_x` function of the source checks that exactly one of the values of the enumeration is set.
They are all `Lib.BitField.member` with their own mask and values, and the setters are
`Lib.BitField.put`.

Three setters stand out:
* `ccpacket_set_tilt_speed` (`ccpacket.c:224-226`) does not clamp as the pan one does
  (`ccpacket.c:178-180`, `clamp_speed` at 138-145);
* `ccpacket_pan` (`ccpacket.c:148-158`) knows no `CC_PAN_MANUAL`;
* `ccpacket_set_preset` (`ccpacket.c:296-306`) takes the flags before it lets `ccpacket_menu_preset`
  (`ccpacket.c:260-274`) change them.

`ccpacketIsStop`, `ccpacketHasCommand`, `ccpacketHasAutopan` and `ccpacketHasPower`
(`ccpacket.c:322-336`, `499-520`) are what writers ask of a packet. `IgnoresExpire` is what does not
look at the expiration time.

Out of scope: `ccpacket_log` and the functions it calls (`ccpacket.c:523-639`), which only print a
packet.
-/

namespace Protozoa

open Lib.BitField

/-- `enum cc_flags`. -/
abbrev CcFlags := BitVec 32

def ccPanLeft : CcFlags := 0x1
def ccPanRight : CcFlags := 0x2
def ccPanAuto : CcFlags := 0x4
def ccPanManual : CcFlags := 0x8
def ccPan : CcFlags := ccPanLeft ||| ccPanRight ||| ccPanAuto ||| ccPanManual
def ccTiltUp : CcFlags := 0x10
def ccTiltDown : CcFlags := 0x20
def ccTilt : CcFlags := ccTiltUp ||| ccTiltDown
def ccPresetRecall : CcFlags := 0x40
def ccPresetStore : CcFlags := 0x80
def ccPresetClear : CcFlags := 0x100
def ccPreset : CcFlags := ccPresetRecall ||| ccPresetStore ||| ccPresetClear
def ccMenuOpen : CcFlags := 0x200
def ccMenuEnter : CcFlags := 0x400
def ccMenuCancel : CcFlags := 0x800
def ccMenu : CcFlags := ccMenuOpen ||| ccMenuEnter ||| ccMenuCancel
def ccCameraOn : CcFlags := 0x1000
def ccCameraOff : CcFlags := 0x2000
def ccCamera : CcFlags := ccCameraOn ||| ccCameraOff
def ccAckAlarm : CcFlags := 0x4000
def ccAck : CcFlags := ccAckAlarm
def ccZoomIn : CcFlags := 0x8000
def ccZoomOut : CcFlags := 0x10000
def ccZoom : CcFlags := ccZoomIn ||| ccZoomOut
def ccFocusNear : CcFlags := 0x20000
def ccFocusFar : CcFlags := 0x40000
def ccFocusAuto : CcFlags := 0x80000
def ccFocus : CcFlags := ccFocusNear ||| ccFocusFar ||| ccFocusAuto
def ccIrisClose : CcFlags := 0x100000
def ccIrisOpen : CcFlags := 0x200000
def ccIrisAuto : CcFlags := 0x400000
def ccIris : CcFlags := ccIrisClose ||| ccIrisOpen ||| ccIrisAuto
def ccLensSpeed : CcFlags := 0x800000
def ccLens : CcFlags := ccLensSpeed
def ccWiperOn : CcFlags := 0x1000000
def ccWiperOff : CcFlags := 0x2000000
def ccWiper : CcFlags := ccWiperOn ||| ccWiperOff

/-- `SPEED_MAX`. -/
def speedMax : Int := 2047

/-- `struct ccpacket`. -/
structure Ccpacket where
  receiver : Int
  flags : CcFlags
  pan : Int
  tilt : Int
  preset : Int
  expire : Timeval
  deriving DecidableEq, Repr

/-- `ccpacket_clear`: everything but the expiration time. -/
def ccpacketClear (pkt : Ccpacket) : Ccpacket :=
  { pkt with receiver := 0, flags := 0, pan := 0, tilt := 0, preset := 0 }

/-- `ccpacket_create`. -/
def ccpacketCreate (now : Timeval) : Ccpacket := ⟨0, 0, 0, 0, 0, now⟩

/-- `ccpacket_set_receiver`. -/
def ccpacketSetReceiver (pkt : Ccpacket) (receiver : Int) : Ccpacket :=
  { pkt with receiver := receiver }

/-! ## The fields of the flags -/

def ccpacketMenu : CcFlags → CcFlags := member ccMenu [ccMenuOpen, ccMenuEnter, ccMenuCancel]
def ccpacketCamera : CcFlags → CcFlags := member ccCamera [ccCameraOn, ccCameraOff]
def ccpacketPan : CcFlags → CcFlags := member ccPan [ccPanLeft, ccPanRight, ccPanAuto]
def ccpacketTilt : CcFlags → CcFlags := member ccTilt [ccTiltUp, ccTiltDown]
def ccpacketZoom : CcFlags → CcFlags := member ccZoom [ccZoomIn, ccZoomOut]
def ccpacketFocus : CcFlags → CcFlags := member ccFocus [ccFocusNear, ccFocusFar, ccFocusAuto]
def ccpacketIris : CcFlags → CcFlags := member ccIris [ccIrisClose, ccIrisOpen, ccIrisAuto]
def ccpacketLens : CcFlags → CcFlags := member ccLens [ccLensSpeed]
def ccpacketWiper : CcFlags → CcFlags := member ccWiper [ccWiperOn, ccWiperOff]
def ccpacketAck : CcFlags → CcFlags := member ccAckAlarm [ccAckAlarm]

/-- `ccpacket_preset`: no mode without a preset number. -/
def ccpacketPreset (pm : CcFlags) (pNum : Int) : CcFlags :=
  if pNum ≤ 0 then 0 else member ccPreset [ccPresetRecall, ccPresetStore, ccPresetClear] pm

/-- A setter of the form `flags = ccpacket_x(m) | (flags & ~CC_X)`. -/
def setFlags (mask : CcFlags) (pkt : Ccpacket) (m : CcFlags) : Ccpacket :=
  { pkt with flags := put mask m pkt.flags }

def ccpacketSetMenu (pkt : Ccpacket) (mc : CcFlags) : Ccpacket :=
  setFlags ccMenu pkt (ccpacketMenu mc)
def ccpacketSetCamera (pkt : Ccpacket) (cc : CcFlags) : Ccpacket :=
  setFlags ccCamera pkt (ccpacketCamera cc)
def ccpacketSetZoom (pkt : Ccpacket) (zm : CcFlags) : Ccpacket :=
  setFlags ccZoom pkt (ccpacketZoom zm)
def ccpacketSetFocus (pkt : Ccpacket) (fm : CcFlags) : Ccpacket :=
  setFlags ccFocus pkt (ccpacketFocus fm)
def ccpacketSetIris (pkt : Ccpacket) (im : CcFlags) : Ccpacket :=
  setFlags ccIris pkt (ccpacketIris im)
def ccpacketSetLens (pkt : Ccpacket) (lm : CcFlags) : Ccpacket :=
  setFlags ccLens pkt (ccpacketLens lm)
def ccpacketSetWiper (pkt : Ccpacket) (wm : CcFlags) : Ccpacket :=
  setFlags ccWiper pkt (ccpacketWiper wm)
def ccpacketSetAck (pkt : Ccpacket) (am : CcFlags) : Ccpacket :=
  setFlags ccAck pkt (ccpacketAck am)

def ccpacketGetMenu (pkt : Ccpacket) : CcFlags := ccpacketMenu pkt.flags
def ccpacketGetCamera (pkt : Ccpacket) : CcFlags := ccpacketCamera pkt.flags
def ccpacketGetPanMode (pkt : Ccpacket) : CcFlags := ccpacketPan pkt.flags
def ccpacketGetTiltMode (pkt : Ccpacket) : CcFlags := ccpacketTilt pkt.flags
def ccpacketGetZoom (pkt : Ccpacket) : CcFlags := ccpacketZoom pkt.flags
def ccpacketGetFocus (pkt : Ccpacket) : CcFlags := ccpacketFocus pkt.flags
def ccpacketGetIris (pkt : Ccpacket) : CcFlags := ccpacketIris pkt.flags
def ccpacketGetLens (pkt : Ccpacket) : CcFlags := ccpacketLens pkt.flags
def ccpacketGetWiper (pkt : Ccpacket) : CcFlags := ccpacketWiper pkt.flags
def ccpacketGetAck (pkt : Ccpacket) : CcFlags := ccpacketAck pkt.flags
def ccpacketGetPresetMode (pkt : Ccpacket) : CcFlags := ccpacketPreset pkt.flags pkt.preset

/-! ## Pan, tilt and preset -/

/-- `clamp_speed`. -/
def clampSpeed (speed : Int) : Int :=
  if speed < 0 then 0 else if speed > speedMax then speedMax else speed

/-- `ccpacket_set_pan_speed`. -/
def ccpacketSetPanSpeed (pkt : Ccpacket) (speed : Int) : Ccpacket :=
  { pkt with pan := clampSpeed speed }

/-- `ccpacket_set_pan`. -/
def ccpacketSetPan (pkt : Ccpacket) (pm : CcFlags) (speed : Int) : Ccpacket :=
  ccpacketSetPanSpeed (setFlags ccPan pkt (ccpacketPan pm)) speed

/-- `ccpacket_has_pan`. -/
def ccpacketHasPan (pkt : Ccpacket) : Bool := ccpacketGetPanMode pkt != 0 && pkt.pan != 0

/-- `ccpacket_set_tilt_speed`: the speed is taken as it is. -/
def ccpacketSetTiltSpeed (pkt : Ccpacket) (speed : Int) : Ccpacket := { pkt with tilt := speed }

/-- `ccpacket_set_tilt`. -/
def ccpacketSetTilt (pkt : Ccpacket) (tm : CcFlags) (speed : Int) : Ccpacket :=
  ccpacketSetTiltSpeed (setFlags ccTilt pkt (ccpacketTilt tm)) speed

/-- `ccpacket_has_tilt`. -/
def ccpacketHasTilt (pkt : Ccpacket) : Bool := ccpacketGetTiltMode pkt != 0 && pkt.tilt != 0

/-- `ccpacket_set_timeout`, at the time `now`. -/
def ccpacketSetTimeout (now : Timeval) (pkt : Ccpacket) (timeout : Nat) : Ccpacket :=
  { pkt with expire := timevalAdjust now timeout }

/-- `ccpacket_is_expired`, at the time `now`. -/
def ccpacketIsExpired (now : Timeval) (pkt : Ccpacket) (timeout : Nat) : Bool :=
  timeFromNow now pkt.expire > timeout

def menuOpenPreset : Int := 77
def menuEnterPreset : Int := 78
def menuCancelPreset : Int := 79

/-- `ccpacket_menu_preset`. -/
def ccpacketMenuPreset (pkt : Ccpacket) (pNum : Int) : Bool × Ccpacket :=
  if pNum = menuOpenPreset then (true, ccpacketSetMenu pkt ccMenuOpen)
  else if pNum = menuEnterPreset then (true, ccpacketSetMenu pkt ccMenuEnter)
  else if pNum = menuCancelPreset then (true, ccpacketSetMenu pkt ccMenuCancel)
  else (false, pkt)

/-- `ccpacket_set_preset`. -/
def ccpacketSetPreset (pkt : Ccpacket) (pm : CcFlags) (pNum : Int) : Ccpacket :=
  let flags := pkt.flags &&& ~~~ccPreset
  let p := ccpacketPreset pm pNum
  if p = ccPresetStore then
    match ccpacketMenuPreset pkt pNum with
    | (true, pkt) => { pkt with flags := flags, preset := 0 }
    | (false, pkt) => { pkt with flags := flags ||| p, preset := pNum }
  else { pkt with flags := flags ||| p, preset := pNum }

/-! ## Tests of a packet -/

/-- `ccpacket_is_stop`. -/
def ccpacketIsStop (pkt : Ccpacket) : Bool :=
  let pm := ccpacketGetPanMode pkt
  pkt.pan == 0 && pkt.tilt == 0 && pm != ccPanAuto && pm != ccPanManual &&
    ccpacketGetPresetMode pkt == 0 && ccpacketGetMenu pkt == 0 && ccpacketGetAck pkt == 0 &&
    ccpacketGetCamera pkt == 0 && ccpacketGetZoom pkt == 0 && ccpacketGetFocus pkt == 0 &&
    ccpacketGetIris pkt == 0 && ccpacketGetWiper pkt == 0

/-- `ccpacket_has_command`. -/
def ccpacketHasCommand (pkt : Ccpacket) : Bool :=
  ccpacketGetPanMode pkt != 0 || ccpacketGetTiltMode pkt != 0 || ccpacketGetZoom pkt != 0 ||
    ccpacketGetFocus pkt != 0 || ccpacketGetIris pkt != 0

/-- `ccpacket_has_autopan`. -/
def ccpacketHasAutopan (pkt : Ccpacket) : Bool :=
  let pm := ccpacketGetPanMode pkt
  pm == ccPanAuto || pm == ccPanManual

/-- `ccpacket_has_power`. -/
def ccpacketHasPower (pkt : Ccpacket) : Bool := ccpacketGetCamera pkt != 0

/-! ## What does not look at the expiration time -/

/-- A change of a packet that neither reads nor writes its expiration time. -/
def IgnoresExpire (f : Ccpacket → Ccpacket) : Prop :=
  ∀ pkt e, f { pkt with expire := e } = { f pkt with expire := e }

namespace IgnoresExpire

variable {f g : Ccpacket → Ccpacket}

theorem id : IgnoresExpire fun pkt => pkt := fun _ _ => rfl

theorem comp (hg : IgnoresExpire g) (hf : IgnoresExpire f) : IgnoresExpire fun pkt => g (f pkt) := by
  intro pkt e
  show g (f _) = _
  rw [hf, hg]

theorem ite {c : Prop} [Decidable c] (hf : IgnoresExpire f) (hg : IgnoresExpire g) :
    IgnoresExpire fun pkt => if c then f pkt else g pkt := by
  intro pkt e
  by_cases hc : c
  · simp only [if_pos hc]
    exact hf pkt e
  · simp only [if_neg hc]
    exact hg pkt e

theorem setReceiver (r : Int) : IgnoresExpire fun pkt => ccpacketSetReceiver pkt r := fun _ _ => rfl

theorem setFlags (mask m : CcFlags) : IgnoresExpire fun pkt => Protozoa.setFlags mask pkt m :=
  fun _ _ => rfl

theorem setPan (pm : CcFlags) (speed : Int) : IgnoresExpire fun pkt => ccpacketSetPan pkt pm speed :=
  fun _ _ => rfl

theorem setTilt (tm : CcFlags) (speed : Int) :
    IgnoresExpire fun pkt => ccpacketSetTilt pkt tm speed := fun _ _ => rfl

theorem setPreset (pm : CcFlags) (pNum : Int) :
    IgnoresExpire fun pkt => ccpacketSetPreset pkt pm pNum := by
  intro pkt e
  simp only [ccpacketSetPreset, ccpacketMenuPreset]
  split
  · by_cases h₁ : pNum = menuOpenPreset
    · simp only [if_pos h₁]
      rfl
    by_cases h₂ : pNum = menuEnterPreset
    · simp only [if_neg h₁, if_pos h₂]
      rfl
    by_cases h₃ : pNum = menuCancelPreset
    · simp only [if_neg h₁, if_neg h₂, if_pos h₃]
      rfl
    · simp only [if_neg h₁, if_neg h₂, if_neg h₃]
  · rfl

/-- On a packet without a command, the outcome is that on a blank packet but for the time. -/
theorem blank (hf : IgnoresExpire f) (hr : ∀ pkt r, f (ccpacketSetReceiver pkt r) = f pkt) (r : Int)
    (e : Timeval) : f ⟨r, 0, 0, 0, 0, e⟩ = { f (ccpacketCreate ⟨0, 0⟩) with expire := e } := by
  rw [← hf]
  exact (hr ⟨r, 0, 0, 0, 0, e⟩ 0).symm

end IgnoresExpire

end Protozoa
