import Protozoa.Protocol.ViconRoundTrip

/-!
# Vicon toggles

A command of six bytes that switches the alarm, auto iris, auto pan or the lens speed
(`vicon.c:137-146`), and does nothing else but perhaps auxiliary 6 (`ToggleMess`).

* `ToggleMess.get`, `ToggleMess.speeds`: what is in its packet (`togglePacket`).
* `carriesToggle_message`: the packet is written as one message with the same toggles
  (`vicon.c:334-343`).
* `ToggleMess.isStop`: it counts as a stop if the lens speed is all there is: `ccpacket_is_stop`
  (`ccpacket.c:322-336`) looks at every field but the lens.

What the engine makes of it is in `Engine/Toggle.lean`.
-/

namespace Protozoa.Vicon

open Lib.Scan

variable {mess : List Byte} {blank : Ccpacket} {r : Int} {t : Nat} {e : Timeval}

/-- The bits of the toggles. -/
def toggleKeys : List Nat := [bitAckAlarm, bitAutoIris, bitAutoPan, bitLensSpeed]

/-- The bits of motion, of the other lens functions, and of presets. -/
def otherKeys : List Nat :=
  [bitTiltDown, bitTiltUp, bitPanRight, bitPanLeft, bitIrisClose, bitIrisOpen, bitFocusNear, bitFocusFar,
    bitZoomIn, bitZoomOut, bitRecall, bitStore]

/-- A command with the toggle `t`, with no motion, no other lens function and no preset. -/
structure ToggleMess (t : Nat) (mess : List Byte) : Prop where
  length : mess.length = sizeCommand
  command : isCommand mess = true
  plain : isExtendedCommand mess = false
  toggle : t ∈ toggleKeys
  set : bitIsSet mess t = true
  clear : ∀ k ∈ otherKeys, bitIsSet mess k = false

/-- The receiver of a message. -/
def receiverOf (mess : List Byte) : Int :=
  ((mess.getD 0 0 &&& 0x0f).toNat <<< 4 ||| (mess.getD 1 0 &&& 0x0f).toNat : Nat)

/-- One command for the receiver `r`, with the toggle `t`. -/
structure CarriesToggle (t : Nat) (r : Int) (mess : List Byte) : Prop where
  frames : frames.frames mess = [mess]
  command : isCommand mess = true
  receiver : receiverOf mess = r
  toggle : bitIsSet mess t = true

/-- The packet of a toggle, for the receiver `r` of the writer. -/
def togglePacket (blank : Ccpacket) (mess : List Byte) (r : Int) (e : Timeval) : Ccpacket :=
  { decodeFields blank mess with receiver := r, expire := e }

/-- The toggles that `ccpacket_is_stop` looks at. -/
def isSeen (mess : List Byte) : Bool :=
  bitIsSet mess bitAckAlarm || bitIsSet mess bitAutoIris || bitIsSet mess bitAutoPan ||
    bitIsSet mess bitAux6

/-- The bytes of the message that is written. -/
def toggleSize (mess : List Byte) : Nat := if bitIsSet mess bitAux6 then sizeExtended else sizeCommand

section

variable (h : ToggleMess t mess) (hflags : blank.flags = 0) (hpreset : blank.preset = 0)

include h

theorem ToggleMess.decode (flags : BitVec 32) : decode flags mess blank = decodeFields blank mess := by
  have hrecall := h.clear bitRecall (by simp [otherKeys])
  have hstore := h.clear bitStore (by simp [otherKeys])
  unfold Vicon.decode
  rw [h.plain]
  show decodePreset (decodeFields blank mess) mess = _
  unfold decodePreset
  rw [hrecall, hstore]
  rfl

theorem ToggleMess.speeds (hpreset : blank.preset = 0) : (togglePacket blank mess r e).pan = 0 ∧
    (togglePacket blank mess r e).tilt = 0 ∧ (togglePacket blank mess r e).preset = 0 := by
  have hclear := h.clear
  simp only [otherKeys, List.forall_mem_cons] at hclear
  obtain ⟨hdown, hup, hright, hleft, -⟩ := hclear
  obtain ⟨hpan, htilt⟩ := @speeds_decodeFields mess blank
  refine ⟨hpan.trans ?_, htilt.trans ?_, (preset_decodeFields mess).trans hpreset⟩
  · simp [hright, hleft]
  · simp [hup, hdown]

theorem ToggleMess.presetMode (hpreset : blank.preset = 0) :
    ccpacketGetPresetMode (togglePacket blank mess r e) = 0 := if_pos (h.speeds hpreset).2.2.le

include hflags

/-- The fields of the packet. -/
theorem ToggleMess.get (x : Field) : x.get (togglePacket blank mess r e).flags =
    match x with
    | .pan => if bitIsSet mess bitAutoPan then ccPanAuto else ccPanLeft
    | .tilt => ccTiltDown
    | .iris => if bitIsSet mess bitAutoIris then ccIrisAuto else 0
    | .ack => if bitIsSet mess bitAckAlarm then ccAckAlarm else 0
    | .lens => if bitIsSet mess bitLensSpeed then ccLensSpeed else 0
    | .wiper => if bitIsSet mess bitAux6 then ccWiperOn else 0
    | _ => 0 := by
  have hclear := h.clear
  simp only [otherKeys, List.forall_mem_cons] at hclear
  obtain ⟨-, hup, hright, -, hclose, hopen, hnear, hfar, hin, hout, -⟩ := hclear
  refine (get_decodeFields hflags x).trans ?_
  cases x <;> simp [fieldOf, hup, hright, hclose, hopen, hnear, hfar, hin, hout]

include hpreset

/-- The packet of a toggle fits in one message. -/
theorem ToggleMess.carried (hr : 1 ≤ r ∧ r ≤ 255) : Carried (togglePacket blank mess r e) where
  receiver := hr
  menu := h.get hflags .menu
  camera := h.get hflags .camera
  wiper := by
    rw [show ccpacketGetWiper _ = _ from h.get hflags .wiper]
    cases bitIsSet mess bitAux6
    · exact .inl rfl
    · exact .inr rfl
  focus := by
    rw [show ccpacketGetFocus _ = 0 from h.get hflags .focus]
    decide
  pan := by
    refine .inr ⟨?_, (h.speeds hpreset).1⟩
    rw [show ccpacketGetPanMode _ = _ from h.get hflags .pan]
    cases bitIsSet mess bitAutoPan
    · exact .inl rfl
    · exact .inr rfl
  tilt := .inr ⟨h.get hflags .tilt, (h.speeds hpreset).2.1⟩
  preset := .inl ⟨h.presetMode hpreset, (h.speeds hpreset).2.2⟩

/-- **The lens is forgotten**: a toggle is taken for a stop unless there is another one. -/
theorem ToggleMess.isStop : ccpacketIsStop (togglePacket blank mess r e) = !isSeen mess := by
  obtain ⟨hpan, htilt, -⟩ := @ToggleMess.speeds mess blank r t e h hpreset
  have hget : ∀ x : Field, x.get (togglePacket blank mess r e).flags = _ := h.get hflags
  unfold ccpacketIsStop isSeen
  rw [hpan, htilt, h.presetMode hpreset, show ccpacketGetPanMode _ = _ from hget .pan,
    show ccpacketGetMenu _ = _ from hget .menu, show ccpacketGetAck _ = _ from hget .ack,
    show ccpacketGetCamera _ = _ from hget .camera, show ccpacketGetZoom _ = _ from hget .zoom,
    show ccpacketGetFocus _ = _ from hget .focus, show ccpacketGetIris _ = _ from hget .iris,
    show ccpacketGetWiper _ = _ from hget .wiper]
  cases bitIsSet mess bitAutoPan <;> cases bitIsSet mess bitAckAlarm <;>
    cases bitIsSet mess bitAutoIris <;> cases bitIsSet mess bitAux6 <;> rfl

/-- The message has the toggles of the packet. -/
theorem carriesToggle_message (hr : 1 ≤ r ∧ r ≤ 255) :
    CarriesToggle t r (message (togglePacket blank mess r e)) := by
  have hcarried := @ToggleMess.carried mess blank r t e h hflags hpreset hr
  have hcodes := codes_message hcarried
  refine ⟨frames_message hcarried, hcodes.command, hcodes.receiver, ?_⟩
  have hbit := hcodes.agrees
  simp only [Agrees, fieldsTable, toggleBits, List.cons_append, List.nil_append, List.forall_mem_cons] at hbit
  obtain ⟨-, hlens, hpan, hiris, hack, -⟩ := hbit
  have hset := h.set
  have htoggle := h.toggle
  simp only [toggleKeys, List.mem_cons, List.not_mem_nil, or_false] at htoggle
  rcases htoggle with rfl | rfl | rfl | rfl
  · rw [hack, h.get hflags .ack, hset]
    rfl
  · rw [hiris, h.get hflags .iris, hset]
    rfl
  · rw [hpan, h.get hflags .pan, hset]
    rfl
  · rw [hlens, h.get hflags .lens, hset]
    rfl

theorem ToggleMess.length_message (hr : 1 ≤ r ∧ r ≤ 255) :
    (message (togglePacket blank mess r e)).length = toggleSize mess := by
  have hcarried := @ToggleMess.carried mess blank r t e h hflags hpreset hr
  obtain ⟨hpan, htilt, -⟩ := @ToggleMess.speeds mess blank r t e h hpreset
  have hext : isExtendedPreset (togglePacket blank mess r e) = false := by
    rw [hcarried.isExtendedPreset, h.presetMode hpreset]
    rfl
  have hspeed : isExtendedSpeed (togglePacket blank mess r e) = bitIsSet mess bitAux6 := by
    unfold isExtendedSpeed
    rw [hcarried.hasPan, hcarried.hasTilt, hpan, htilt,
      show ccpacketGetWiper _ = _ from h.get hflags .wiper]
    cases bitIsSet mess bitAux6 <;> rfl
  unfold message toggleSize
  rw [hext, hspeed]
  split
  · contradiction
  · split
    · exact (encodeSpeeds_spec (length_encodePreset.trans (length_base _ _ _))).1
    · exact length_encodePreset.trans (length_base _ _ _)

end

end Protozoa.Vicon
