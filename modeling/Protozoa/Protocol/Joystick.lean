import Protozoa.Ccreader

/-!
# Joystick (`joystick.c`)

Events of eight bytes from the joystick driver (`joystick.c:29-33`). A read decodes all events that
are there into the packet of the reader and then processes it once, if one of them asks for it
(`joystick_do_read`, `joystick.c:252-259`). The packet is not cleared: pan, tilt, zoom and the
buttons last until they change. Only the preset is taken out at the end of every read.

* `decodePanTiltZoom` (`joystick.c:98-122`) and `decodeButton` (`joystick.c:135-221`) change the
  packet; `remapSpeed` (`joystick.c:71-81`) is the integer arithmetic of the source.
* `decodePresetButton` and `decodeHeldButton` are what the cases of the `switch` have in common.
* `doRead_reads`: a read as a batch of events (`decodeBatch`), and `runReads_runBatches` a run of
  reads as a list of batches, on which the results on presses, releases and cameras are.
-/

namespace Protozoa.Joystick

open Lib.Scan Lib.BitField

variable {σ : Type}

/-- `JEVENT_OCTETS`. -/
def jeventOctets : Nat := 8

def jeventButton : Byte := 0x01
def jeventAxis : Byte := 0x02
def jeventInitial : Byte := 0x80

def jaxisPan : Byte := 0
def jaxisTilt : Byte := 1
def jaxisZoom : Byte := 2

/-- `JSPEED_MAX`. -/
def jspeedMax : Int := 32767

/-- `JOYSTICK_TIMEOUT`. -/
def joystickTimeout : Nat := 30000

def jbuttonFocusNear : Byte := 0
def jbuttonFocusFar : Byte := 1
def jbuttonIrisClose : Byte := 2
def jbuttonIrisOpen : Byte := 3
def jbuttonWiper : Byte := 4
def jbuttonCamera : Byte := 5
def jbuttonPreset1 : Byte := 6
def jbuttonPreset2 : Byte := 7
def jbuttonPreset3 : Byte := 8
def jbuttonPreset4 : Byte := 9
def jbuttonPrevious : Byte := 10
def jbuttonNext : Byte := 11

/-- `decode_speed`: the `short` at offset 4. -/
def decodeSpeed (mess : List Byte) : Int := (mess.getD 5 0 ++ mess.getD 4 0 : BitVec 16).toInt

/-- `decode_pressed`. -/
def decodePressed (mess : List Byte) : Bool := decodeSpeed mess != 0

/-- `remap_int`. -/
def remapInt (value irange orange : Int) : Int := (value.natAbs * orange) / irange

/-- `remap_speed`. -/
def remapSpeed (value : Int) : Int := remapInt value jspeedMax speedMax

/-- `decode_pan_mode`. -/
def decodePanMode (speed : Int) : CcFlags := if speed ≤ 0 then ccPanLeft else ccPanRight

/-- `decode_tilt_mode`. -/
def decodeTiltMode (speed : Int) : CcFlags := if speed < 0 then ccTiltUp else ccTiltDown

/-- The type and the number of an event. -/
def evType (mess : List Byte) : Byte := mess.getD 6 0
def evNumber (mess : List Byte) : Byte := mess.getD 7 0

/-- `decode_pan_tilt_zoom`: every axis takes the preset out, also one that moves nothing. -/
def decodePanTiltZoom (pkt : Ccpacket) (mess : List Byte) : Bool × Ccpacket :=
  let number := evNumber mess
  let speed := decodeSpeed mess
  let pkt :=
    if number = jaxisPan then ccpacketSetPan pkt (decodePanMode speed) (remapSpeed speed)
    else if number = jaxisTilt then ccpacketSetTilt pkt (decodeTiltMode speed) (remapSpeed speed)
    else if number = jaxisZoom then
      if speed < 0 then ccpacketSetZoom pkt ccZoomOut
      else if speed > 0 then ccpacketSetZoom pkt ccZoomIn
      else ccpacketSetZoom pkt 0
    else pkt
  (true, ccpacketSetPreset pkt 0 0)

/-- `moved_since_pressed`. -/
def movedSincePressed (pkt : Ccpacket) : Bool := ccpacketGetPresetMode pkt != ccPresetRecall

/-- A `case JBUTTON_PRESET_n` of `decode_button`, and the end of the function where it breaks. -/
def decodePresetButton (rdr : Ccreader) (pressed moved : Bool) (pNum : Int) : Bool × Ccreader :=
  if pressed then (true, { rdr with packet := ccpacketSetPreset rdr.packet ccPresetRecall pNum })
  else if moved then (true, { rdr with packet := ccpacketSetPreset rdr.packet ccPresetStore pNum })
  else (false, { rdr with packet := ccpacketSetPreset rdr.packet 0 0 })

/-- A button that sets a field of the packet while it is pressed. -/
def decodeHeldButton (rdr : Ccreader) (pressed : Bool) (set : Ccpacket → CcFlags → Ccpacket)
    (value : CcFlags) : Bool × Ccreader :=
  (true, { rdr with packet := set rdr.packet (if pressed then value else 0) })

/-- `decode_button`. -/
def decodeButton (rdr : Ccreader) (mess : List Byte) : Bool × Ccreader :=
  let number := evNumber mess
  let pressed := decodePressed mess
  let moved := movedSincePressed rdr.packet
  if number = jbuttonFocusNear then decodeHeldButton rdr pressed ccpacketSetFocus ccFocusNear
  else if number = jbuttonFocusFar then decodeHeldButton rdr pressed ccpacketSetFocus ccFocusFar
  else if number = jbuttonIrisClose then decodeHeldButton rdr pressed ccpacketSetIris ccIrisClose
  else if number = jbuttonIrisOpen then decodeHeldButton rdr pressed ccpacketSetIris ccIrisOpen
  else if number = jbuttonWiper then decodeHeldButton rdr pressed ccpacketSetWiper ccWiperOn
  else if number = jbuttonCamera then decodeHeldButton rdr pressed ccpacketSetCamera ccCameraOn
  else if number = jbuttonPreset1 then decodePresetButton rdr pressed moved 1
  else if number = jbuttonPreset2 then decodePresetButton rdr pressed moved 2
  else if number = jbuttonPreset3 then decodePresetButton rdr pressed moved 3
  else if number = jbuttonPreset4 then decodePresetButton rdr pressed moved 4
  else
    let rdr :=
      if number = jbuttonPrevious then if pressed then ccreaderPreviousCamera rdr else rdr
      else if number = jbuttonNext then if pressed then ccreaderNextCamera rdr else rdr
      else rdr
    (false, { rdr with packet := ccpacketSetPreset rdr.packet 0 0 })

/-- `ev_type & JEVENT_AXIS`. -/
def isAxis (mess : List Byte) : Bool := evType mess &&& jeventAxis != 0

/-- `(ev_type & JEVENT_BUTTON) && !(ev_type & JEVENT_INITIAL)`, of what is no axis event. -/
def isButton (mess : List Byte) : Bool :=
  !isAxis mess && evType mess &&& jeventButton != 0 && evType mess &&& jeventInitial == 0

/-- `joystick_decode_event`. -/
def joystickDecodeEvent (rdr : Ccreader) (mess : List Byte) : Bool × Ccreader :=
  if isAxis mess then
    let (m, pkt) := decodePanTiltZoom rdr.packet mess
    (m, { rdr with packet := pkt })
  else if isButton mess then decodeButton rdr mess
  else (false, rdr)

/-- `joystick_read_message`. -/
def joystickReadMessage (rdr : Ccreader) (rxbuf : Buffer) : Option (Bool × Ccreader × Buffer) := do
  let mess := rxbuf.data.take jeventOctets
  let (m, rdr) := joystickDecodeEvent rdr mess
  let rxbuf ← bufferConsume rxbuf jeventOctets
  return (m, rdr, rxbuf)

/-- `while(buffer_available(rxbuf) >= JEVENT_OCTETS) c += joystick_read_message(rdr, rxbuf);` -/
def readMessages : Nat → Ccreader → Buffer → Nat → Option (Ccreader × Buffer × Nat)
  | 0, _, _, _ => none
  | fuel + 1, rdr, rxbuf, c =>
    if bufferAvailable rxbuf ≥ jeventOctets then do
      let (m, rdr, rxbuf) ← joystickReadMessage rdr rxbuf
      readMessages fuel rdr rxbuf (c + m.toNat)
    else some (rdr, rxbuf, c)

/-- The end of `joystick_do_read`. -/
def joystickProcess (sink : Sink σ) (rdr : Ccreader) (c : Nat) (s : σ) : Ccreader × σ :=
  let (rdr, s) := if c ≠ 0 then ccreaderProcessPacketNoClear sink rdr s else (rdr, s)
  ({ rdr with packet := ccpacketSetPreset rdr.packet 0 0 }, s)

/-- `joystick_do_read`. -/
def doRead (σ : Type) (sink : Sink σ) : DoRead σ := fun st => do
  let (rdr, rxbuf, c) ← readMessages (bufferAvailable st.rxbuf + 1) st.rdr st.rxbuf 0
  let (rdr, world) := joystickProcess sink rdr c st.world
  return ⟨rdr, rxbuf, world⟩

/-! ## Reads as batches of events -/

/-- The events of a whole stream. -/
def frames : Scanner Byte := fixed jeventOctets (by decide) fun _ => true

/-- Decode one event, and count it. -/
def eventStep (x : Ccreader × Nat) (mess : List Byte) : Ccreader × Nat :=
  let (m, rdr) := joystickDecodeEvent x.1 mess
  (rdr, x.2 + m.toNat)

/-- The reader and the count at the end of the loop, for the events of one read. -/
def decodeBatch (rdr : Ccreader) (batch : List (List Byte)) : Ccreader × Nat :=
  batch.foldl eventStep (rdr, 0)

/-- One read with the given events. -/
def readBatch (sink : Sink σ) (batch : List (List Byte)) (x : Ccreader × σ) : Ccreader × σ :=
  let (rdr, c) := decodeBatch x.1 batch
  joystickProcess sink rdr c x.2

/-- The reads of a run, one after the other. -/
def runBatches (sink : Sink σ) (batches : List (List (List Byte))) (x : Ccreader × σ) : Ccreader × σ :=
  batches.foldl (fun x batch => readBatch sink batch x) x

theorem readMessages_spec : ∀ {fuel : Nat} {rdr : Ccreader} {rxbuf : Buffer} {c : Nat},
    rxbuf.data.length < fuel → ∃ rdr' rxbuf' c' out,
      readMessages fuel rdr rxbuf c = some (rdr', rxbuf', c') ∧
      Follows frames rxbuf.data out rxbuf'.data ∧ rxbuf'.data.length < jeventOctets ∧
      Consumed rxbuf rxbuf' ∧ (rdr', c') = out.foldl eventStep (rdr, c)
  | 0, _, _, _, h => absurd h (Nat.not_lt_zero _)
  | fuel + 1, rdr, rxbuf, c, h => by
    unfold readMessages bufferAvailable
    by_cases hlen : jeventOctets ≤ rxbuf.data.length
    · obtain ⟨buf, hbuf, hdata, hconsumed⟩ := bufferConsume_spec hlen
      have hshort : buf.data.length < fuel := by
        rw [hdata, List.length_drop]
        have : 0 < jeventOctets := by decide
        omega
      obtain ⟨rdr', rxbuf', c', out, hrun, hf, hl, hs, heff⟩ := @readMessages_spec fuel
        (joystickDecodeEvent rdr (rxbuf.data.take jeventOctets)).2 buf
        (c + (joystickDecodeEvent rdr (rxbuf.data.take jeventOctets)).1.toNat) hshort
      refine ⟨rdr', rxbuf', c', rxbuf.data.take jeventOctets :: out, ?_, ?_, hl, hconsumed.trans hs, heff⟩
      · rw [if_pos hlen]
        simp only [joystickReadMessage, hbuf]
        exact hrun
      · have hframe : Follows frames rxbuf.data [rxbuf.data.take jeventOctets] buf.data := by
          rw [hdata]
          exact follows_frame (fixed_frame hlen rfl)
        exact hframe.trans hf
    · rw [if_neg hlen]
      exact ⟨rdr, rxbuf, c, [], rfl, Follows.refl _ _, Nat.lt_of_not_le hlen, Consumed.refl _, rfl⟩

theorem doRead_reads (sink : Sink σ) :
    Reads frames jeventOctets (fun batch _ x => readBatch sink batch x) (doRead σ sink) := by
  intro st
  obtain ⟨rdr, rxbuf, c, out, hrun, hf, hlen, hconsumed, heff⟩ :=
    @readMessages_spec (bufferAvailable st.rxbuf + 1) st.rdr st.rxbuf 0 (Nat.lt_succ_self _)
  refine ⟨⟨(joystickProcess sink rdr c st.world).1, rxbuf, (joystickProcess sink rdr c st.world).2⟩,
    out, ?_, hf, fixed_wait hlen, hlen, hconsumed, ?_⟩
  · simp only [doRead, hrun]
    rfl
  · simp only [readBatch, decodeBatch, ← heff]

/-- **A joystick being read** is a run of batches, which together are the events of the stream. -/
theorem runReads_runBatches (sink : Sink σ) (rdr : Ccreader) (s : σ) (stream : List Byte)
    (ks : List Nat) :
    ∃ st taken rest, ∃ batches : List (List (List Byte)),
      runReads (doRead σ sink) ⟨rdr, bufferInit bufferSize, s⟩ stream ks = some (st, rest) ∧
      stream = taken ++ rest ∧ batches.flatten = frames.frames taken ∧
      (st.rdr, st.world) = runBatches sink batches (rdr, s) := by
  have hreads : ReadsMessages frames (fun _ sink batch _ x => readBatch sink batch x) doRead :=
    readsMessages (fun _ sink => doRead_reads sink) (fixed_wait (by decide)) (by decide) (by decide)
  obtain ⟨st, taken, rest, groups, hrun, hsplit, -, hframes, heff⟩ := hreads σ sink rdr s stream ks
  refine ⟨st, taken, rest, groups.map Prod.fst, hrun, hsplit, hframes, heff.trans ?_⟩
  rw [runBatches, List.foldl_map]
  rfl

end Protozoa.Joystick
