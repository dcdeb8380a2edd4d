import Protozoa.Protocol.AxisMotion
import Protozoa.Protocol.InfinovaFraming
import Protozoa.Protocol.Menu
import Protozoa.Protocol.Wires

/-!
# The motion of a Vicon command

A Vicon command without a direction bit is decoded to the modes left and down (`vicon.c:95-114`),
and its speeds are those of the bytes behind (`panSpeedOf`, `tiltSpeedOf`, `vicon.c:169-174`):
nothing asks for a direction before a speed is taken.

* `motion_decode`: modes and speeds of the packet of a command.
* `Unmoved`: what no writer makes a motion of, said for each protocol of a writer on the bytes that
  it appends. For Axis these are the parameters of the request.
* `Resting.unmoved`: a packet without speeds does not move a camera, whichever writer gets it.
* **`movesAsTold_iff`**: exactly the commands whose speeds, if any, come with a bit for their
  direction.
* `not_movesAsTold`: a recall with a speed and no direction.
-/

namespace Protozoa

open Pelco

variable {mess : List Byte} {pkt : Ccpacket} {rxbuf : Buffer}

namespace Vicon

/-! ## Modes and speeds -/

/-- The message has a bit for pan. -/
def pans (mess : List Byte) : Bool :=
  bitIsSet mess bitPanLeft || bitIsSet mess bitPanRight || bitIsSet mess bitAutoPan

/-- The message has a bit for tilt. -/
def tilts (mess : List Byte) : Bool := bitIsSet mess bitTiltUp || bitIsSet mess bitTiltDown

/-- A speed of the bytes `i` and `i + 1`. -/
def speedAt (mess : List Byte) (i : Nat) : Int :=
  ((mess.getD i 0 &&& 0x0f).toNat <<< 7 ||| (mess.getD (i + 1) 0 &&& 0x7f).toNat : Nat)

/-- The pan speed in the last four bytes of an extended message. -/
def panSpeedOf (mess : List Byte) : Int :=
  if isExtendedCommand mess then
    if bitIsSet mess bitExRequest then
      if bitIsSet mess bitExStatus then 0 else (mess.getD 8 0 &&& 0x7f).toNat
    else speedAt mess 6
  else 0

/-- The tilt speed in the last four bytes of an extended message. -/
def tiltSpeedOf (mess : List Byte) : Int :=
  if isExtendedCommand mess then
    if bitIsSet mess bitExRequest then
      if bitIsSet mess bitExStatus then 0 else (mess.getD 9 0 &&& 0x7f).toNat
    else speedAt mess 8
  else 0

theorem speedAt_range (mess : List Byte) (i : Nat) : 0 ≤ speedAt mess i ∧ speedAt mess i ≤ speedMax := by
  have hhi : (mess.getD i 0 &&& 0x0f).toNat < 16 := @toNat_and_lt 4 _ (by decide)
  have hlow : (mess.getD (i + 1) 0 &&& 0x7f).toNat < 2 ^ 7 := @toNat_and_lt 7 _ (by decide)
  unfold speedAt speedMax
  rw [shiftLeft_or hlow]
  omega

/-- The preset of a message changes nothing else. -/
theorem decodePreset_rest (p : Ccpacket) (mess : List Byte) :
    ∃ flags preset, decodePreset p mess = { p with flags := flags, preset := preset } ∧
      ∀ x, x ≠ Field.preset → x.get flags = x.get p.flags := by
  unfold decodePreset
  dsimp only
  split
  · exact ccpacketSetPreset_rest _ _ _
  split
  · exact ccpacketSetPreset_rest _ _ _
  · exact ⟨p.flags, p.preset, rfl, fun _ _ => rfl⟩

/-- The preset of a request changes nothing else but the speeds. -/
theorem decodeExPreset_rest (p : Ccpacket) (mess : List Byte) :
    ∃ flags preset, decodeExPreset p mess = { p with
        flags := flags, preset := preset, pan := (mess.getD 8 0 &&& 0x7f).toNat,
        tilt := (mess.getD 9 0 &&& 0x7f).toNat } ∧
      ∀ x, x ≠ Field.preset → x.get flags = x.get p.flags := by
  have hlow : (mess.getD 8 0 &&& 0x7f).toNat < 2 ^ 7 := @toNat_and_lt 7 _ (by decide)
  have hclamp : clampSpeed (mess.getD 8 0 &&& 0x7f).toNat = (mess.getD 8 0 &&& 0x7f).toNat :=
    clampSpeed_of_range ⟨Int.natCast_nonneg _, by unfold speedMax; omega⟩
  have hset : ∀ pm, ∃ flags preset,
      ccpacketSetPreset p pm (mess.getD 7 0 &&& 0x7f).toNat =
        { p with flags := flags, preset := preset } ∧
      ∀ x, x ≠ Field.preset → x.get flags = x.get p.flags := fun pm => ccpacketSetPreset_rest p pm _
  unfold decodeExPreset ccpacketSetTiltSpeed ccpacketSetPanSpeed
  dsimp only
  rw [hclamp]
  split
  · obtain ⟨flags, preset, heq, hget⟩ := hset ccPresetStore
    rw [heq]
    exact ⟨flags, preset, rfl, hget⟩
  · obtain ⟨flags, preset, heq, hget⟩ := hset ccPresetRecall
    rw [heq]
    exact ⟨flags, preset, rfl, hget⟩

/-- **The motion of a command**: modes by its bits, and its speeds where no bit gives one. -/
theorem motion_decode {blank : Ccpacket} (hblank : blank.flags = 0) (flags : BitVec 32)
    (mess : List Byte) :
    ccpacketGetPanMode (decode flags mess blank) = fieldOf mess .pan ∧
    ccpacketGetTiltMode (decode flags mess blank) = fieldOf mess .tilt ∧
    (pans mess = false → (decode flags mess blank).pan = panSpeedOf mess) ∧
    (tilts mess = false → (decode flags mess blank).tilt = tiltSpeedOf mess) := by
  obtain ⟨f, n, hcommand, hget⟩ := decodePreset_rest (decodeFields blank mess) mess
  have hcommand : decodeCommand blank mess =
      { decodeFields blank mess with flags := f, preset := n } := hcommand
  have hpan := (hget .pan nofun).trans (get_decodeFields hblank .pan)
  have htilt := (hget .tilt nofun).trans (get_decodeFields hblank .tilt)
  obtain ⟨hspeedPan, hspeedTilt⟩ := @speeds_decodeFields mess blank
  have hnoPan : pans mess = false → (decodeFields blank mess).pan = 0 := by
    intro hno
    simp only [pans, Bool.or_eq_false_iff] at hno
    rw [hspeedPan, hno.1.1, hno.1.2, hno.2]
    rfl
  have hnoTilt : tilts mess = false → (decodeFields blank mess).tilt = 0 := by
    intro hno
    simp only [tilts, Bool.or_eq_false_iff] at hno
    rw [hspeedTilt, hno.1, hno.2]
    rfl
  unfold decode panSpeedOf tiltSpeedOf
  by_cases hext : isExtendedCommand mess = true
  · simp only [if_pos hext, decodeExtended, hcommand]
    by_cases hrequest : bitIsSet mess bitExRequest = true
    · simp only [if_pos hrequest]
      by_cases hstatus : bitIsSet mess bitExStatus = true
      · simp only [if_pos hstatus]
        exact ⟨hpan, htilt, hnoPan, hnoTilt⟩
      · simp only [if_neg hstatus]
        obtain ⟨f', n', hpreset, hget'⟩ :=
          decodeExPreset_rest { decodeFields blank mess with flags := f, preset := n } mess
        rw [hpreset]
        exact ⟨(hget' .pan nofun).trans hpan, (hget' .tilt nofun).trans htilt, fun _ => rfl,
          fun _ => rfl⟩
    · simp only [if_neg hrequest]
      exact ⟨hpan, htilt, fun _ => clampSpeed_of_range (speedAt_range mess 6), fun _ => rfl⟩
  · simp only [if_neg hext, hcommand]
    exact ⟨hpan, htilt, hnoPan, hnoTilt⟩

end Vicon

/-! ## Packets that do not move a camera -/

/-- Neither pan nor tilt, by hand or automatic. -/
structure Still (pkt : Ccpacket) : Prop where
  pan : ccpacketHasPan pkt = false
  tilt : ccpacketHasTilt pkt = false
  scan : ccpacketHasAutopan pkt = false

/-- No speeds and no scan, and no menu command that a writer would translate. -/
structure Resting (pkt : Ccpacket) : Prop where
  pan : pkt.pan = 0
  tilt : pkt.tilt = 0
  scan : ccpacketGetPanMode pkt ≠ ccPanAuto
  menu : ccpacketGetMenu pkt = 0
  preset : 0 ≤ pkt.preset ∧ pkt.preset ≤ 127

theorem still_of_zero (hpan : pkt.pan = 0) (htilt : pkt.tilt = 0)
    (hscan : ccpacketGetPanMode pkt ≠ ccPanAuto) : Still pkt where
  pan := by
    unfold ccpacketHasPan
    rw [hpan]
    exact Bool.and_false _
  tilt := by
    unfold ccpacketHasTilt
    rw [htilt]
    exact Bool.and_false _
  scan := by
    unfold ccpacketHasAutopan
    simp only [Bool.or_eq_false_iff, beq_eq_false_iff_ne]
    exact ⟨hscan, PelcoD.get_pan_ne_manual pkt.flags⟩

theorem Resting.still (h : Resting pkt) : Still pkt := still_of_zero h.pan h.tilt h.scan

/-- The message that Vicon writes has no bit for a direction, and no speed. -/
theorem Resting.written (h : Resting pkt) (hr : 1 ≤ pkt.receiver ∧ pkt.receiver ≤ 255) :
    Vicon.pans (Vicon.written pkt) = false ∧ Vicon.tilts (Vicon.written pkt) = false ∧
      Vicon.panSpeedOf (Vicon.written pkt) = 0 ∧ Vicon.tiltSpeedOf (Vicon.written pkt) = 0 := by
  have hbits : ∀ {mess : List Byte}, Vicon.Carries mess pkt →
      Vicon.pans mess = false ∧ Vicon.tilts mess = false := by
    intro mess hmess
    have hscan : (Field.pan.get pkt.flags == ccPanAuto) = false := beq_eq_false_iff_ne.mpr h.scan
    have hbit := hmess.agrees
    simp only [Vicon.fieldsTable, Agrees, Vicon.toggleBits, Vicon.panTiltBits, h.still.pan, h.still.tilt,
      hscan, Bool.false_and, List.mem_append, or_imp, forall_and, List.forall_mem_cons] at hbit
    obtain ⟨⟨⟨-, -, hauto, -⟩, -⟩, hup, hdown, hleft, hright, -⟩ := hbit
    unfold Vicon.pans Vicon.tilts
    rw [hauto, hup, hdown, hleft, hright]
    exact ⟨rfl, rfl⟩
  have hspeed : Vicon.viconEncodeSpeed 0 = 0 := by decide
  unfold Vicon.written
  split
  · have hrequests := Vicon.requests_presetMess hr
    obtain ⟨-, hpan, htilt⟩ := hrequests.numbers
    rw [h.pan] at hpan
    rw [h.tilt] at htilt
    have hcarries := hrequests.toCarries
    rw [Vicon.atRest_of_zero h.pan h.tilt] at hcarries
    obtain ⟨hpans, htilts⟩ := hbits hcarries
    unfold Vicon.panSpeedOf Vicon.tiltSpeedOf
    rw [if_pos hrequests.request, if_pos hrequests.request, hrequests.plain.2.2, hpan, htilt]
    simp [hpans, htilts]
  split
  · obtain ⟨-, -, h6, h7, h8, h9⟩ := Vicon.speedMess_spec pkt
    obtain ⟨hpans, htilts⟩ := hbits (Vicon.carries_speedMess hr)
    have hrequest : bitIsSet (Vicon.speedMess pkt) Vicon.bitExRequest = false := by
      show ((Vicon.speedMess pkt).getD 6 0).getLsbD 4 = false
      rw [h6, h.pan, hspeed]
      rfl
    unfold Vicon.panSpeedOf Vicon.tiltSpeedOf Vicon.speedAt
    rw [hrequest, h6, h7, h8, h9, h.pan, h.tilt, hspeed]
    simp [hpans, htilts]
  · obtain ⟨hpans, htilts⟩ := hbits (Vicon.carries_commandMess hr)
    unfold Vicon.panSpeedOf Vicon.tiltSpeedOf Vicon.isExtendedCommand
    rw [Vicon.plain_commandMess pkt, Bool.and_false]
    exact ⟨hpans, htilts, rfl, rfl⟩

/-- What Vicon makes of a message without directions and speeds. -/
theorem still_decode {blank : Ccpacket} (hblank : blank.flags = 0)
    (hpans : Vicon.pans mess = false) (htilts : Vicon.tilts mess = false)
    (hpan : Vicon.panSpeedOf mess = 0) (htilt : Vicon.tiltSpeedOf mess = 0) (flags : BitVec 32) :
    (Vicon.decode flags mess blank).pan = 0 ∧ (Vicon.decode flags mess blank).tilt = 0 ∧
      ccpacketGetPanMode (Vicon.decode flags mess blank) ≠ ccPanAuto := by
  obtain ⟨hmode, -, hpanOf, htiltOf⟩ := Vicon.motion_decode hblank flags mess
  refine ⟨(hpanOf hpans).trans hpan, (htiltOf htilts).trans htilt, ?_⟩
  simp only [Vicon.pans, Bool.or_eq_false_iff] at hpans
  have hleft : Vicon.fieldOf mess .pan = ccPanLeft := by
    simp only [Vicon.fieldOf, hpans.2, hpans.1.2]
    rfl
  rw [hmode, hleft]
  decide

/-- A scan is read from its bit alone. -/
theorem PelcoD.scan_decodeCommand (p : Ccpacket) (hno : bitIsSet mess PelcoD.bitAutoPan = false) :
    ccpacketGetPanMode (PelcoD.pelcoDecodeCommand p mess) ≠ ccPanAuto := by
  have hmode := @get_pan_moves mess p PelcoD.lensBits (PelcoD.decodeSpeed (mess.getD 4 0))
    (PelcoD.decodeSpeed (mess.getD 5 0))
  have hcamera : ∀ q cc, Field.pan.get (ccpacketSetCamera q cc).flags = Field.pan.get q.flags :=
    fun q cc => (Field.get_update .pan .camera q cc).trans (if_neg nofun)
  have hkeep : ccpacketGetPanMode (PelcoD.pelcoDecodeCommand p mess) =
      if bitIsSet mess bitPanRight then ccPanRight else ccPanLeft := by
    rw [← hmode, ccpacketGetPanMode_eq]
    unfold PelcoD.pelcoDecodeCommand PelcoD.decodeSense
    rw [hno]
    cases bitIsSet mess PelcoD.bitSense <;> cases bitIsSet mess PelcoD.bitCameraOnOff <;>
      first
        | rfl
        | exact hcamera _ _
  rw [hkeep]
  split <;> decide

theorem PelcoP.scan_decodeCommand (flags : BitVec 32) (p : Ccpacket)
    (hno : bitIsSet mess PelcoP.bitAutoPan = false) :
    ccpacketGetPanMode (PelcoP.pelcoDecodeCommand flags p mess) ≠ ccPanAuto := by
  have hmode := @get_pan_moves mess p PelcoP.lensBits (PelcoP.decodeSpeed (mess.getD 4 0) flags)
    (PelcoP.decodeSpeed (mess.getD 5 0) flags)
  have hcamera : ∀ q cc, Field.pan.get (ccpacketSetCamera q cc).flags = Field.pan.get q.flags :=
    fun q cc => (Field.get_update .pan .camera q cc).trans (if_neg nofun)
  have hkeep : ccpacketGetPanMode (PelcoP.pelcoDecodeCommand flags p mess) =
      if bitIsSet mess bitPanRight then ccPanRight else ccPanLeft := by
    rw [← hmode, ccpacketGetPanMode_eq]
    unfold PelcoP.pelcoDecodeCommand PelcoP.decodeSense
    rw [hno]
    cases bitIsSet mess PelcoP.bitCameraOnOff <;> cases bitIsSet mess PelcoP.bitCameraOn <;>
      first
        | rfl
        | exact hcamera _ _
  rw [hkeep]
  split <;> decide

/-- What the Pelco protocols make of each message of a packet without speeds. -/
theorem Resting.decodeBy (h : Resting pkt) {c : Codec} {cmd : Ccpacket → List Byte → Ccpacket}
    {blank : Ccpacket} (hblank : Blank blank) (hnodup : ((c.commandBits pkt).map Prod.fst).Nodup)
    (hext : bitExtended ∉ (c.commandBits pkt).map Prod.fst)
    (hnumbers : ∀ p mess, Numbers mess p (cmd p mess))
    (hscan : ∀ p, ccpacketGetPanMode (cmd p (c.commandMess pkt)) ≠ ccPanAuto)
    (hmess : mess ∈ c.messages pkt) : Still (Codec.decodeBy cmd mess blank) := by
  have hblankMode : Field.pan.get blank.flags = 0 := by
    rw [hblank.flags]
    exact Field.get_zero .pan
  rcases Codec.decodeBy_mem hext blank hmess with hdecode | ⟨-, hdecode⟩ | ⟨wm, hdecode⟩
  · -- A command has none of the bits for a direction.
    have hpan : ccpacketHasPan pkt = false := h.still.pan
    have htilt : encodeSpeed pkt.tilt = 0 := by
      rw [h.tilt]
      decide
    have hmoves : ∀ e ∈ tiltMoves pkt ++ panMoves pkt, e ∈ moves c.bits pkt := fun e he =>
      List.mem_append_right _ (List.mem_append_right _ (List.mem_append_right _ he))
    have hclear : ∀ e ∈ tiltMoves pkt ++ panMoves pkt, InCommand e.1 → e.2 = false →
        ¬bitIsSet (c.commandMess pkt) e.1 = true := fun e he hk hv => by
      rw [Codec.bitIsSet_move hnodup (hmoves e he) hk, hv]
      exact Bool.false_ne_true
    have hall : ∀ e ∈ tiltMoves pkt ++ panMoves pkt, e.2 = false := by
      simp [tiltMoves, panMoves, hpan, htilt]
    have hno : ∀ {k v}, (k, v) ∈ tiltMoves pkt ++ panMoves pkt → InCommand k →
        ¬bitIsSet (c.commandMess pkt) k = true := fun hmem hk => hclear _ hmem hk (hall _ hmem)
    have hnum := hnumbers blank (c.commandMess pkt)
    rw [hdecode]
    refine still_of_zero (hnum.pan ?_) (hnum.tilt ?_) (hscan blank)
    · exact not_or.mpr ⟨hno (List.mem_append_right _ (List.mem_cons_of_mem _ List.mem_cons_self))
        (by decide), hno (List.mem_append_right _ List.mem_cons_self) (by decide)⟩
    · exact not_or.mpr ⟨hno List.mem_cons_self (by decide),
        hno (List.mem_cons_of_mem _ List.mem_cons_self) (by decide)⟩
  · obtain ⟨flags, preset, hset, hget⟩ := ccpacketSetPreset_rest
      (ccpacketSetReceiver blank (BitVec.ofInt 8 pkt.receiver).toNat) (ccpacketGetPresetMode pkt)
      (BitVec.ofInt 8 pkt.preset).toNat
    rw [hdecode, hset]
    refine still_of_zero hblank.pan hblank.tilt ?_
    rw [ccpacketGetPanMode_eq, (hget .pan nofun).trans hblankMode]
    decide
  · rw [hdecode]
    refine still_of_zero hblank.pan hblank.tilt ?_
    rw [ccpacketGetPanMode_eq, ccpacketSetWiper_eq, Field.get_update, if_neg nofun]
    exact fun heq => absurd (hblankMode.symm.trans heq) (by decide)

/-- What Manchester collects of a packet without speeds. -/
theorem Resting.collected (h : Resting pkt) {blank : Ccpacket} (hblank : Blank blank) :
    Still (Manchester.collected pkt blank) := by
  have hpan : ¬Manchester.SendsPan pkt := fun hsends => hsends.2 h.pan
  have htilt : ¬Manchester.SendsTilt pkt := fun hsends => hsends.2 h.tilt
  obtain ⟨-, hpanOf, htiltOf, -⟩ := Manchester.stages_rest pkt blank
  rw [if_neg hpan, hblank.pan] at hpanOf
  rw [if_neg htilt, hblank.tilt] at htiltOf
  have hmode := @Manchester.get_stages pkt blank hblank.flags .pan
  rw [Manchester.collected_eq]
  refine still_of_zero hpanOf htiltOf ?_
  rw [ccpacketGetPanMode_eq, hmode, show Manchester.sentField pkt .pan = 0 from if_neg hpan]
  decide

/-- **What is read back** of a packet without speeds does not move either. -/
theorem Resting.origin (h : Resting pkt) {w : Wire} {flags : BitVec 32} {q : Ccpacket}
    (hq : Wire.Origin w flags pkt q) : Still q := by
  have hscan : (Field.pan.get pkt.flags == ccPanAuto) = false := beq_eq_false_iff_ne.mpr h.scan
  cases w with
  | vicon =>
    obtain ⟨blank, hblank, hr, rfl⟩ := hq
    obtain ⟨hpans, htilts, hpan, htilt⟩ := h.written hr
    obtain ⟨hzeroPan, hzeroTilt, hmode⟩ := still_decode hblank.flags hpans htilts hpan htilt flags
    exact still_of_zero hzeroPan hzeroTilt hmode
  | pelcoD =>
    obtain ⟨blank, hblank, mess, hmess, rfl⟩ := hq
    have hbit : (PelcoD.bitAutoPan, Field.pan.get pkt.flags == ccPanAuto) ∈ PelcoD.senseBits pkt :=
      List.mem_cons_of_mem _ (List.mem_cons_of_mem _ List.mem_cons_self)
    have hno : bitIsSet (PelcoD.codec.commandMess pkt) PelcoD.bitAutoPan = false := by
      rw [Codec.bitIsSet_commandMess (by decide),
        tableBit_of_mem (PelcoD.commandBits_nodup pkt) (List.mem_append_left _ hbit), hscan]
    exact h.decodeBy (c := PelcoD.codec) hblank (PelcoD.commandBits_nodup pkt)
      (by rw [PelcoD.commandBits_keys]; decide) PelcoD.numbers_decodeCommand
      (fun p => PelcoD.scan_decodeCommand p hno) hmess
  | pelcoP =>
    obtain ⟨blank, hblank, mess, hmess, rfl⟩ := hq
    have hbit : (PelcoP.bitAutoPan, Field.pan.get pkt.flags == ccPanAuto) ∈ PelcoP.senseBits pkt :=
      List.mem_cons_of_mem _ (List.mem_cons_of_mem _ List.mem_cons_self)
    have hno : bitIsSet (PelcoP.codec.commandMess pkt) PelcoP.bitAutoPan = false := by
      rw [Codec.bitIsSet_commandMess (by decide),
        tableBit_of_mem (PelcoP.commandBits_nodup pkt) (List.mem_append_left _ hbit), hscan]
    exact h.decodeBy (c := PelcoP.codec) hblank (PelcoP.commandBits_nodup pkt)
      (by rw [PelcoP.commandBits_keys]; decide) (PelcoP.numbers_decodeCommand flags)
      (fun p => PelcoP.scan_decodeCommand flags p hno) hmess
  | manchester =>
    obtain ⟨blank, hblank, rfl | rfl⟩ := hq
    · refine still_of_zero hblank.pan hblank.tilt ?_
      rw [ccpacketGetPanMode_eq, hblank.flags, Field.get_zero]
      decide
    · exact h.collected hblank

/-! ## No writer moves a camera -/

/-- No writer makes a motion of the packet: none is read back by the protocol it was written in,
none is in the Pelco D messages of an Infinova channel, and an Axis request has no
`continuouspantiltmove`, or one that stops. -/
structure Unmoved (pkt : Ccpacket) : Prop where
  wire : ∀ (w : Wire) (now : Timeval) (timeout : Nat) (flags : BitVec 32) (rxbuf : Buffer),
    rxbuf.data = (w.doWrite (bufferInit bufferSize) pkt).1.data →
      ∃ pkts, readBack w.doRead now timeout flags rxbuf = some pkts ∧ ∀ q ∈ pkts, Still q
  infinova : ∀ isOpen, ∃ frames : List (List Byte),
    (Infinova.doWrite isOpen (bufferInit bufferSize) pkt).1.data =
      (if isOpen then [] else Infinova.authBlock) ++ (frames.map Infinova.ptzBlock).flatten ∧
    ∀ frame ∈ frames, ∀ flags, Still (PelcoD.packetOf flags frame)
  axis : ∀ auth, ∃ path ∈ Axis.cgiPaths, ∃ (params : List (List Byte × List Byte)) (rest : List Byte),
    (Axis.doWrite auth (bufferInit bufferSize) pkt).1.data = Axis.requestLine path params ++ rest ∧
    ∀ param ∈ params, (Axis.Plain param.1 ∧ Axis.Plain param.2) ∧
      (param.1 = Axis.ascii "continuouspantiltmove" → param.2 = Axis.ascii "0,0")

/-- **A packet without speeds** does not move a camera. -/
theorem Resting.unmoved (h : Resting pkt) : Unmoved pkt where
  wire w now timeout flags rxbuf hdata := by
    obtain ⟨pkts, hread, hpkts⟩ := w.readBack_origin h.menu now timeout flags hdata
    refine ⟨pkts, hread, fun q hq => ?_⟩
    obtain ⟨p, e, horigin, rfl⟩ := hpkts q hq
    have hstill := h.origin horigin
    exact ⟨hstill.pan, hstill.tilt, hstill.scan⟩
  infinova isOpen := by
    have hstill : ∀ frame ∈ Infinova.framesOf pkt, ∀ flags, Still (PelcoD.packetOf flags frame) := by
      intro frame hframe flags
      unfold Infinova.framesOf at hframe
      split at hframe
      · exact absurd hframe List.not_mem_nil
      · rw [adjustMenuCommands_of_none h.menu] at hframe
        exact h.origin (w := .pelcoD) ⟨ccpacketCreate ⟨0, 0⟩, ⟨rfl, rfl, rfl, rfl⟩, frame, hframe, rfl⟩
    cases isOpen with
    | true =>
      have hroom : Infinova.RoomFor (Infinova.framesOf pkt).length
          (bufferSpace (bufferInit bufferSize)) := by
        have hfew := @Infinova.length_framesOf pkt
        have hptz : Infinova.ptzSz = 31 ∧ bufferSpace (bufferInit bufferSize) = 256 := ⟨rfl, rfl⟩
        refine Or.inl ?_
        rw [hptz.1, hptz.2]
        omega
      obtain ⟨frames, hframes, hdata⟩ := Infinova.doWrite_open hroom
      exact ⟨frames, hdata, fun frame hframe => hstill frame (hframes hframe)⟩
    | false =>
      obtain ⟨frames, hframes, hdata⟩ :=
        @Infinova.doWrite_first (bufferInit bufferSize) rfl rfl pkt
      exact ⟨frames, hdata, fun frame hframe => hstill frame (hframes hframe)⟩
  axis auth := by
    have hsize : (bufferInit bufferSize).size = bufferSize := rfl
    by_cases hmode : ccpacketGetPresetMode pkt = 0
    · have hspeeds : Axis.Speeds pkt := ⟨by rw [h.pan]; decide, by rw [h.tilt]; decide⟩
      obtain ⟨rest, hdata⟩ := Axis.doWrite_line auth hsize hspeeds hmode
      refine ⟨_, Axis.mem_cgiPaths false, _, rest, hdata, fun param hparam => ?_⟩
      refine ⟨Axis.plain_paramsFor param hparam, fun hname => ?_⟩
      exact Axis.stops_paramsFor (by rw [h.still.pan, h.still.tilt]; rfl) hparam hname
    · have hpreset := h.preset
      obtain ⟨config, verb, hverb, rest, hdata⟩ := Axis.doWrite_presetLine auth hsize hmode (by omega)
      obtain ⟨hne, hplain⟩ := @Axis.presetParam_spec pkt verb hverb
      refine ⟨_, Axis.mem_cgiPaths config, _, rest, hdata, fun param hparam => ?_⟩
      rw [List.mem_singleton.mp hparam]
      exact ⟨hplain, fun hname => absurd hname hne⟩

/-! ## What a command may move -/

/-- A preset has seven bits at most. -/
theorem preset_decode {blank : Ccpacket} (hblank : Blank blank) (flags : BitVec 32) (mess : List Byte) :
    0 ≤ (Vicon.decode flags mess blank).preset ∧ (Vicon.decode flags mess blank).preset ≤ 127 := by
  have hset : ∀ p pm (n : Int), 0 ≤ n ∧ n ≤ 127 → 0 ≤ (ccpacketSetPreset p pm n).preset ∧
      (ccpacketSetPreset p pm n).preset ≤ 127 := by
    intro p pm n hn
    rcases preset_setPreset p pm n with h | h <;> omega
  have hcommand : 0 ≤ (Vicon.decodeCommand blank mess).preset ∧
      (Vicon.decodeCommand blank mess).preset ≤ 127 := by
    have hlow : (mess.getD 5 0 &&& 0x0f).toNat < 2 ^ 4 := @toNat_and_lt 4 _ (by decide)
    have hkeep : (Vicon.decodeFields blank mess).preset = 0 :=
      (Vicon.preset_decodeFields mess).trans hblank.preset
    show 0 ≤ (Vicon.decodePreset (Vicon.decodeFields blank mess) mess).preset ∧
      (Vicon.decodePreset (Vicon.decodeFields blank mess) mess).preset ≤ 127
    unfold Vicon.decodePreset
    dsimp only
    split
    · exact hset _ _ _ (by omega)
    split
    · exact hset _ _ _ (by omega)
    · omega
  have hrequest : 0 ≤ (Vicon.decodeExPreset (Vicon.decodeCommand blank mess) mess).preset ∧
      (Vicon.decodeExPreset (Vicon.decodeCommand blank mess) mess).preset ≤ 127 := by
    have hlow : (mess.getD 7 0 &&& 0x7f).toNat < 2 ^ 7 := @toNat_and_lt 7 _ (by decide)
    unfold Vicon.decodeExPreset ccpacketSetTiltSpeed ccpacketSetPanSpeed
    dsimp only
    split
    · exact hset _ _ _ (by omega)
    · exact hset _ _ _ (by omega)
  unfold Vicon.decode Vicon.decodeExtended Vicon.decodeExStatus
  dsimp only
  split
  · split
    · split
      · exact hcommand
      · exact hrequest
    · exact hcommand
  · exact hcommand

/-- With no bit for its direction, the packet of a command pans exactly where the command has a pan
speed. -/
theorem hasPan_decode {blank : Ccpacket} (hblank : blank.flags = 0) (flags : BitVec 32)
    (hno : Vicon.pans mess = false) :
    ccpacketHasPan (Vicon.decode flags mess blank) = true ↔ Vicon.panSpeedOf mess ≠ 0 := by
  obtain ⟨hmode, -, hspeed, -⟩ := Vicon.motion_decode hblank flags mess
  have hfield : Vicon.fieldOf mess .pan ≠ 0 := by
    simp only [Vicon.fieldOf]
    split
    · decide
    · split <;> decide
  rw [← hmode] at hfield
  rw [← hspeed hno]
  simp only [ccpacketHasPan, Bool.and_eq_true, bne_iff_ne]
  exact and_iff_right hfield

/-- The same of a tilt. -/
theorem hasTilt_decode {blank : Ccpacket} (hblank : blank.flags = 0) (flags : BitVec 32)
    (hno : Vicon.tilts mess = false) :
    ccpacketHasTilt (Vicon.decode flags mess blank) = true ↔ Vicon.tiltSpeedOf mess ≠ 0 := by
  obtain ⟨-, hmode, -, hspeed⟩ := Vicon.motion_decode hblank flags mess
  have hfield : Vicon.fieldOf mess .tilt ≠ 0 := by
    simp only [Vicon.fieldOf]
    split <;> decide
  rw [← hmode] at hfield
  rw [← hspeed hno]
  simp only [ccpacketHasTilt, Bool.and_eq_true, bne_iff_ne]
  exact and_iff_right hfield

/-- **What is asked of the reader**: the packet of a command pans or tilts only if a bit of the
command says so, and without such a bit no writer moves a camera, whichever receiver it has the
packet for. -/
def MovesAsTold (mess : List Byte) : Prop :=
  ∀ (now : Timeval) (timeout : Nat) (flags : BitVec 32) (rxbuf : Buffer), rxbuf.data = mess →
    ∃ pkt, readBack Vicon.doRead now timeout flags rxbuf = some [pkt] ∧
      (ccpacketHasPan pkt = true → Vicon.pans mess = true) ∧
      (ccpacketHasTilt pkt = true → Vicon.tilts mess = true) ∧
      (Vicon.pans mess = false → Vicon.tilts mess = false → ∀ r, Unmoved (ccpacketSetReceiver pkt r))

/-- **Which commands move only what they say**: those whose speeds, if any, come with a bit for
their direction. -/
theorem movesAsTold_iff (h : Vicon.Whole mess) (hr : 1 ≤ Vicon.receiverOf mess) :
    MovesAsTold mess ↔ (Vicon.panSpeedOf mess ≠ 0 → Vicon.pans mess = true) ∧
      (Vicon.tiltSpeedOf mess ≠ 0 → Vicon.tilts mess = true) := by
  constructor
  · intro hmoves
    have hroom : mess.length ≤ bufferSize := by
      rw [h.size]
      exact (Vicon.messageSize_le mess).trans (by decide)
    have hdata := (@ccwriterAppend_of_le (bufferInit bufferSize) mess hroom).1
    obtain ⟨pkt, hread, hpan, htilt, -⟩ := hmoves ⟨0, 0⟩ 0 0 _ hdata
    obtain rfl := List.singleton_inj.mp
      (Option.some.inj (hread.symm.trans (h.readBack hr ⟨0, 0⟩ 0 0 hdata)))
    have hblank := (blank_oneWriter ⟨0, 0⟩ 0 0).flags
    refine ⟨fun hspeed => ?_, fun hspeed => ?_⟩
    · by_contra hno
      exact hno (hpan ((hasPan_decode hblank 0 (Bool.eq_false_of_not_eq_true hno)).mpr hspeed))
    · by_contra hno
      exact hno (htilt ((hasTilt_decode hblank 0 (Bool.eq_false_of_not_eq_true hno)).mpr hspeed))
  · rintro ⟨hpan, htilt⟩ now timeout flags rxbuf hdata
    have hblank := blank_oneWriter now timeout flags
    have hpanZero : Vicon.pans mess = false → Vicon.panSpeedOf mess = 0 := by
      intro hno
      by_contra hspeed
      exact Bool.false_ne_true (hno.symm.trans (hpan hspeed))
    have htiltZero : Vicon.tilts mess = false → Vicon.tiltSpeedOf mess = 0 := by
      intro hno
      by_contra hspeed
      exact Bool.false_ne_true (hno.symm.trans (htilt hspeed))
    refine ⟨_, h.readBack hr now timeout flags hdata, fun hhas => ?_, fun hhas => ?_,
      fun hnoPan hnoTilt r => ?_⟩
    · by_contra hno
      rw [Bool.not_eq_true] at hno
      exact (hasPan_decode hblank.flags flags hno).mp hhas (hpanZero hno)
    · by_contra hno
      rw [Bool.not_eq_true] at hno
      exact (hasTilt_decode hblank.flags flags hno).mp hhas (htiltZero hno)
    · obtain ⟨hzeroPan, hzeroTilt, hscan⟩ := still_decode hblank.flags hnoPan hnoTilt
        (hpanZero hnoPan) (htiltZero hnoTilt) flags
      have hmenu : ccpacketGetMenu (Vicon.decode flags mess (oneWriter now timeout flags).packet) = 0 := by
        rw [keepsMenu_vicon flags mess, ccpacketGetMenu_eq, hblank.flags, Field.get_zero]
      exact Resting.unmoved ⟨hzeroPan, hzeroTilt, hscan, hmenu, preset_decode hblank flags mess⟩

/-- Receiver 1: recall preset 5, with no speeds. -/
def recallAtRest : List Byte := [0x80, 0x51, 0, 0, 0, 0, 0x10, 0x05, 0, 0]

theorem movesAsTold_iff_recallAtRest : MovesAsTold recallAtRest ↔
    (Vicon.panSpeedOf recallAtRest ≠ 0 → Vicon.pans recallAtRest = true) ∧
      (Vicon.tiltSpeedOf recallAtRest ≠ 0 → Vicon.tilts recallAtRest = true) :=
  movesAsTold_iff ⟨by decide, by decide, by decide⟩ (by decide)

/-- Receiver 1: recall preset 5, at a pan speed of 10. -/
def recallAtSpeed : List Byte := [0x80, 0x51, 0, 0, 0, 0, 0x10, 0x05, 0x0a, 0]

/-- The packet of this command pans to the left, and no bit of it says so. -/
theorem not_movesAsTold : Vicon.Whole recallAtSpeed ∧ 1 ≤ Vicon.receiverOf recallAtSpeed ∧
    ¬MovesAsTold recallAtSpeed := by
  have hwhole : Vicon.Whole recallAtSpeed := ⟨by decide, by decide, by decide⟩
  have hr : 1 ≤ Vicon.receiverOf recallAtSpeed := by decide
  refine ⟨hwhole, hr, fun hmoves => ?_⟩
  obtain ⟨pkt, hread, hpan, -⟩ := hmoves ⟨0, 0⟩ 15000 0
    ⟨bufferSize, 0, recallAtSpeed, by decide, fun _ => rfl⟩ rfl
  obtain rfl := List.singleton_inj.mp
    (Option.some.inj (hread.symm.trans (hwhole.readBack hr ⟨0, 0⟩ 15000 0 rfl)))
  exact absurd (hpan (by decide)) (by decide)

end Protozoa
