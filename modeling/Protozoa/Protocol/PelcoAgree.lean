import Protozoa.Protocol.PelcoCanonical
import Protozoa.Protocol.PelcoCodecs
import Protozoa.Protocol.ReadBack

/-!
# Pelco D and Pelco P agree

The packets read back from what the two writers append for one packet (`pelco_d.c:497-519`,
`pelco_p.c:514-529`). The messages of both are valid (`messages_valid`) and come in one order; an
extended message decodes the same by what it is (`decode_extended`), a command by its table of bits
(`decodeMoves_congr`). What remains is the sense bit of Pelco D (`pelco_d.c:160-172`, `406-421`):
with it, camera off and automatic scan exclude each other.

* `PelcoD.readBack_doWrite`, `PelcoP.readBack_doWrite`: what is read back, as the messages decoded.
* `decodeCommand_agrees`, `decodeCommand_clash`: one command in both, without and with the clash.
* **`codecs_agree_iff`**: the packets are the same if and only if there is no such clash (`Clash`).
* `codecs_disagree`: camera off and automatic pan in one packet.

Receivers above 254 are out of scope, and so is the dead zone of `pelco_p7`, which rounds on
purpose.
-/

namespace Protozoa

open Lib.Scan Pelco

variable {pkt : Ccpacket}

namespace Pelco.Codec

variable {c c' : Codec}

/-! ## What is written is valid -/

theorem length_extended (ex p0 : Byte) :
    (c.framing.encodeChecksum (extendedMess (c.framing.header pkt) ex p0)).length = c.framing.size := by
  rw [c.length_encodeChecksum, length_extendedMess, c.length_header]

theorem valid_extended (ex p0 : Byte) :
    c.valid (c.framing.encodeChecksum (extendedMess (c.framing.header pkt) ex p0)) = true := by
  refine c.valid_encodeChecksum _ pkt ((length_extendedMess _ _ _).trans (c.length_header pkt)) ?_
  intro i hi
  exact getD_extendedMess _ _ (by omega) (by omega)

theorem messages_valid {mess : List Byte} (h : mess ∈ c.messages pkt) :
    mess.length = c.framing.size ∧ c.valid mess = true := by
  rcases mem_messages h with rfl | ⟨-, rfl⟩ | rfl
  · refine ⟨(c.length_encodeChecksum _).trans length_commandBody, ?_⟩
    exact c.valid_encodeChecksum _ pkt length_commandBody fun i hi => getD_commandBody hi
  · exact ⟨length_extended _ _, valid_extended _ _⟩
  · exact ⟨length_extended _ _, valid_extended _ _⟩

/-- There is room for what is due in an empty buffer. -/
theorem length_flatten_messages : (c.messages pkt).flatten.length ≤ 3 * c.framing.size := by
  have hlen : ∀ l : List (List Byte), (∀ m ∈ l, m.length = c.framing.size) →
      l.flatten.length = l.length * c.framing.size := by
    intro l h
    induction l with
    | nil => exact (Nat.zero_mul _).symm
    | cons m l ih =>
      rw [List.flatten_cons, List.length_append, h m List.mem_cons_self,
        ih fun m' hm' => h m' (List.mem_cons_of_mem m hm'), List.length_cons, Nat.succ_mul, Nat.add_comm]
  rw [hlen _ fun m hm => (messages_valid hm).1]
  exact Nat.mul_le_mul_right _ (c.length_messages pkt)

/-! ## What is read back -/

/-- An extended message decodes by its function and parameter alone. -/
theorem decode_extended (p : Ccpacket) (ex p0 : Byte) :
    bitIsSet (c.framing.encodeChecksum (extendedMess (c.framing.header pkt) ex p0)) bitExtended = true ∧
    pelcoDecodeExtended p (c.framing.encodeChecksum (extendedMess (c.framing.header pkt) ex p0)) =
      decodeExtended (ccpacketSetReceiver p (BitVec.ofInt 8 pkt.receiver).toNat)
        ((1 ||| ex <<< 1) >>> 1 &&& 0x1f) p0 := by
  have hsize := c.size
  have hheader := c.length_header pkt
  have h3 : (c.framing.encodeChecksum (extendedMess (c.framing.header pkt) ex p0)).getD 3 0 =
      1 ||| ex <<< 1 := by
    rw [c.getD_encodeChecksum _ _ (by omega)]
    exact getD_extendedMess_three _ _ (by omega) (c.header_zero pkt 3 (by decide) (by decide))
  have h5 : (c.framing.encodeChecksum (extendedMess (c.framing.header pkt) ex p0)).getD 5 0 = p0 := by
    rw [c.getD_encodeChecksum _ _ (by omega), getD_extendedMess_five _ _ (by omega)]
  have h1 : (c.framing.encodeChecksum (extendedMess (c.framing.header pkt) ex p0)).getD 1 0 =
      BitVec.ofInt 8 pkt.receiver := by
    rw [c.getD_encodeChecksum _ _ (by omega), getD_extendedMess _ _ (by decide) (by decide),
      c.header_receiver]
  refine ⟨?_, ?_⟩
  · have hbit : bitExtended / 8 = 3 ∧ bitExtended % 8 = 0 := by decide
    rw [bitIsSet, hbit.1, hbit.2, h3]
    simp
  · rw [pelcoDecodeExtended, decodeReceiver, extendedFunction, h1, h3, h5]

/-- A bit of pan, tilt or lens is in the message as it is in the table. -/
theorem bitIsSet_move (h : ((c.commandBits pkt).map Prod.fst).Nodup) {k : Nat} {v : Bool}
    (hmem : (k, v) ∈ moves c.bits pkt) (hk : InCommand k) : bitIsSet (c.commandMess pkt) k = v :=
  (bitIsSet_commandMess hk).trans (tableBit_of_mem h (List.mem_append_right _ hmem))

/-- Pan, tilt and lens decode the same, each protocol with its own bits. -/
theorem decodeMoves_congr (p : Ccpacket) (h : ((c.commandBits pkt).map Prod.fst).Nodup)
    (h' : ((c'.commandBits pkt).map Prod.fst).Nodup) :
    decodeMoves c.bits p (c.commandMess pkt) = decodeMoves c'.bits p (c'.commandMess pkt) := by
  have hzoom : ∀ (bits : LensBits), ∀ e ∈ zoomMoves pkt, e ∈ moves bits pkt :=
    fun bits e he => List.mem_append_left _ he
  have hfocus : ∀ (bits : LensBits), ∀ e ∈ focusMoves bits pkt, e ∈ moves bits pkt :=
    fun bits e he => List.mem_append_right _ (List.mem_append_left _ he)
  have hiris : ∀ (bits : LensBits), ∀ e ∈ irisMoves bits pkt, e ∈ moves bits pkt :=
    fun bits e he => List.mem_append_right _ (List.mem_append_right _ (List.mem_append_left _ he))
  have htilt : ∀ (bits : LensBits), ∀ e ∈ tiltMoves pkt, e ∈ moves bits pkt := fun bits e he =>
    List.mem_append_right _ (List.mem_append_right _ (List.mem_append_right _
      (List.mem_append_left _ he)))
  have hpan : ∀ (bits : LensBits), ∀ e ∈ panMoves pkt, e ∈ moves bits pkt := fun bits e he =>
    List.mem_append_right _ (List.mem_append_right _ (List.mem_append_right _
      (List.mem_append_right _ he)))
  have hfst : ∀ {a b : Nat × Bool}, a ∈ [a, b] := List.mem_cons_self
  have hsnd : ∀ {a b : Nat × Bool}, b ∈ [a, b] := List.mem_cons_of_mem _ List.mem_cons_self
  have hbytes : ∀ c : Codec, (c.commandMess pkt).getD 1 0 = BitVec.ofInt 8 pkt.receiver ∧
      (c.commandMess pkt).getD 4 0 = panByte pkt ∧ (c.commandMess pkt).getD 5 0 = tiltByte pkt := by
    intro c
    have hsize := c.size
    refine ⟨?_, ?_, ?_⟩
    · rw [commandMess, c.getD_encodeChecksum _ _ (by omega), getD_commandBody (by decide),
        c.header_receiver]
    · rw [commandMess, c.getD_encodeChecksum _ _ (by omega), getD_commandBody_four]
    · rw [commandMess, c.getD_encodeChecksum _ _ (by omega), getD_commandBody_five]
  have hb := c.bits_inCommand
  have hb' := c'.bits_inCommand
  unfold decodeMoves decodeLens decodeTilt decodePan decodeReceiver
  simp only [hbytes,
    bitIsSet_move h (hpan _ _ hfst) (by decide), bitIsSet_move h' (hpan _ _ hfst) (by decide),
    bitIsSet_move h (hpan _ _ hsnd) (by decide), bitIsSet_move h' (hpan _ _ hsnd) (by decide),
    bitIsSet_move h (htilt _ _ hfst) (by decide), bitIsSet_move h' (htilt _ _ hfst) (by decide),
    bitIsSet_move h (htilt _ _ hsnd) (by decide), bitIsSet_move h' (htilt _ _ hsnd) (by decide),
    bitIsSet_move h (hzoom _ _ hfst) (by decide), bitIsSet_move h' (hzoom _ _ hfst) (by decide),
    bitIsSet_move h (hzoom _ _ hsnd) (by decide), bitIsSet_move h' (hzoom _ _ hsnd) (by decide),
    bitIsSet_move h (hfocus _ _ hfst) hb.focusNear, bitIsSet_move h' (hfocus _ _ hfst) hb'.focusNear,
    bitIsSet_move h (hfocus _ _ hsnd) hb.focusFar, bitIsSet_move h' (hfocus _ _ hsnd) hb'.focusFar,
    bitIsSet_move h (hiris _ _ hfst) hb.irisOpen, bitIsSet_move h' (hiris _ _ hfst) hb'.irisOpen,
    bitIsSet_move h (hiris _ _ hsnd) hb.irisClose, bitIsSet_move h' (hiris _ _ hsnd) hb'.irisClose]

end Pelco.Codec

/-! ## Receivers -/

/-- What `adjust_menu_commands` leaves alone. -/
theorem adjustMenuCommands_spec (pkt : Ccpacket) :
    (adjustMenuCommands pkt).receiver = pkt.receiver ∧
      ∀ x, x ≠ Field.preset → x ≠ Field.iris →
        x.get (adjustMenuCommands pkt).flags = x.get pkt.flags := by
  simp only [adjustMenuCommands]
  split
  · refine ⟨receiver_setPreset _ _ _, fun x hx _ => ?_⟩
    rw [ccpacketSetPreset_eq _ _ _ (by decide) (by decide) (by decide)]
    exact (Field.get_update x .preset pkt ccPresetStore).trans (if_neg hx)
  split
  · exact ⟨rfl, fun x _ hx => (Field.get_update x .iris pkt ccIrisOpen).trans (if_neg hx)⟩
  split
  · exact ⟨rfl, fun x _ hx => (Field.get_update x .iris pkt ccIrisClose).trans (if_neg hx)⟩
  · exact ⟨rfl, fun _ _ _ => rfl⟩

/-! ## The sense bit -/

/-- Pelco D has one sense bit for camera on and automatic scan, which camera off does not have. -/
def Clash (pkt : Ccpacket) : Prop :=
  Field.camera.get pkt.flags = ccCameraOff ∧ Field.pan.get pkt.flags = ccPanAuto

instance (pkt : Ccpacket) : Decidable (Clash pkt) := inferInstanceAs (Decidable (_ ∧ _))

/-- The sense bits of Pelco D, read. -/
theorem PelcoD.decodeCommand_commandMess (p : Ccpacket) :
    PelcoD.pelcoDecodeCommand p (PelcoD.codec.commandMess pkt) =
      decodeSensed PelcoD.lensBits
        (Field.camera.get pkt.flags == ccCameraOn ||
          Field.camera.get pkt.flags == ccCameraOff && Field.pan.get pkt.flags != ccPanAuto)
        (Field.pan.get pkt.flags == ccPanAuto)
        (if Field.camera.get pkt.flags == ccCameraOn || Field.pan.get pkt.flags == ccPanAuto
          then ccCameraOn else ccCameraOff)
        (if Field.camera.get pkt.flags == ccCameraOn || Field.pan.get pkt.flags == ccPanAuto
          then ccPanAuto else ccPanManual) p (PelcoD.codec.commandMess pkt) := by
  have hbit : ∀ {k : Nat} {v : Bool}, (k, v) ∈ PelcoD.senseBits pkt → InCommand k →
      bitIsSet (PelcoD.codec.commandMess pkt) k = v := fun hmem hk =>
    (Codec.bitIsSet_commandMess hk).trans
      (tableBit_of_mem (PelcoD.commandBits_nodup pkt) (List.mem_append_left _ hmem))
  rw [PelcoD.pelcoDecodeCommand_eq, PelcoD.cameraOf, PelcoD.scanOf,
    hbit List.mem_cons_self (by decide),
    hbit (List.mem_cons_of_mem _ List.mem_cons_self) (by decide),
    hbit (List.mem_cons_of_mem _ (List.mem_cons_of_mem _ List.mem_cons_self)) (by decide)]

/-- The sense bits of Pelco P, read. -/
theorem PelcoP.decodeCommand_commandMess {flags : BitVec 32} (hflags : flags &&& ptDeadzone = 0)
    (p : Ccpacket) :
    PelcoP.pelcoDecodeCommand flags p (PelcoP.codec.commandMess pkt) =
      decodeSensed PelcoP.lensBits
        (Field.camera.get pkt.flags == ccCameraOn || Field.camera.get pkt.flags == ccCameraOff)
        (Field.pan.get pkt.flags == ccPanAuto)
        (if Field.camera.get pkt.flags == ccCameraOn then ccCameraOn else ccCameraOff)
        ccPanAuto p (PelcoP.codec.commandMess pkt) := by
  have hbit : ∀ {k : Nat} {v : Bool}, (k, v) ∈ PelcoP.senseBits pkt → InCommand k →
      bitIsSet (PelcoP.codec.commandMess pkt) k = v := fun hmem hk =>
    (Codec.bitIsSet_commandMess hk).trans
      (tableBit_of_mem (PelcoP.commandBits_nodup pkt) (List.mem_append_left _ hmem))
  rw [PelcoP.pelcoDecodeCommand_eq hflags,
    hbit List.mem_cons_self (by decide),
    hbit (List.mem_cons_of_mem _ List.mem_cons_self) (by decide),
    hbit (List.mem_cons_of_mem _ (List.mem_cons_of_mem _ List.mem_cons_self)) (by decide)]

/-- Without a clash the commands decode the same. -/
theorem decodeCommand_agrees {flags : BitVec 32} (hflags : flags &&& ptDeadzone = 0)
    (hclash : ¬Clash pkt) (p : Ccpacket) :
    PelcoD.pelcoDecodeCommand p (PelcoD.codec.commandMess pkt) =
      PelcoP.pelcoDecodeCommand flags p (PelcoP.codec.commandMess pkt) := by
  have hmoves : decodeMoves PelcoD.lensBits p (PelcoD.codec.commandMess pkt) =
      decodeMoves PelcoP.lensBits p (PelcoP.codec.commandMess pkt) :=
    Codec.decodeMoves_congr p (PelcoD.commandBits_nodup pkt) (PelcoP.commandBits_nodup pkt)
  have hno : ¬(Field.camera.get pkt.flags == ccCameraOff && Field.pan.get pkt.flags == ccPanAuto) := by
    rw [Bool.and_eq_true, beq_iff_eq, beq_iff_eq]
    exact hclash
  rw [PelcoD.decodeCommand_commandMess, PelcoP.decodeCommand_commandMess hflags]
  simp only [decodeSensed, hmoves, bne]
  revert hno
  cases Field.camera.get pkt.flags == ccCameraOn <;> cases Field.camera.get pkt.flags == ccCameraOff <;>
    cases Field.pan.get pkt.flags == ccPanAuto <;> simp

/-- With a clash Pelco P alone has the camera command. -/
theorem decodeCommand_clash {flags : BitVec 32} (hflags : flags &&& ptDeadzone = 0)
    (hclash : Clash pkt) (e : Timeval) :
    Field.camera.get (PelcoD.pelcoDecodeCommand ⟨0, 0, 0, 0, 0, e⟩
        (PelcoD.codec.commandMess pkt)).flags = 0 ∧
      Field.camera.get (PelcoP.pelcoDecodeCommand flags ⟨0, 0, 0, 0, 0, e⟩
        (PelcoP.codec.commandMess pkt)).flags = ccCameraOff := by
  rw [PelcoD.decodeCommand_commandMess, PelcoP.decodeCommand_commandMess hflags, hclash.1, hclash.2]
  refine ⟨?_, ?_⟩
  · exact (sensed_decodeSensed rfl rfl _ _ (by decide) _).camera
  · exact (sensed_decodeSensed rfl rfl _ _ (by decide) _).camera

/-! ## The packets read back -/

namespace Pelco.Codec

variable {c : Codec} {cmd : Ccpacket → List Byte → Ccpacket}

/-- What a message decodes to, of either protocol. -/
def decodeBy (cmd : Ccpacket → List Byte → Ccpacket) (mess : List Byte) (p : Ccpacket) : Ccpacket :=
  if bitIsSet mess bitExtended then pelcoDecodeExtended p mess else cmd p mess

theorem decodeBy_extended (p : Ccpacket) (ex p0 : Byte) :
    decodeBy cmd (c.framing.encodeChecksum (extendedMess (c.framing.header pkt) ex p0)) p =
      decodeExtended (ccpacketSetReceiver p (BitVec.ofInt 8 pkt.receiver).toNat)
        ((1 ||| ex <<< 1) >>> 1 &&& 0x1f) p0 := by
  obtain ⟨hbit, hdec⟩ := @decode_extended pkt c p ex p0
  rw [decodeBy, if_pos hbit, hdec]

theorem decodeBy_command (p : Ccpacket) (h : bitExtended ∉ (c.commandBits pkt).map Prod.fst) :
    decodeBy cmd (c.commandMess pkt) p = cmd p (c.commandMess pkt) := by
  refine if_neg ?_
  rw [bitIsSet_commandMess (by decide), tableBit_of_not_mem h]
  exact Bool.false_ne_true

theorem getD_commandMess_one : (c.commandMess pkt).getD 1 0 = BitVec.ofInt 8 pkt.receiver := by
  have hsize := c.size
  rw [commandMess, c.getD_encodeChecksum _ _ (by omega), getD_commandBody (by decide),
    c.header_receiver]

theorem toNat_receiver (h : 1 ≤ pkt.receiver ∧ pkt.receiver ≤ 254) :
    ((BitVec.ofInt 8 pkt.receiver).toNat : Int) = pkt.receiver := by
  rw [BitVec.toNat_ofInt]
  omega

/-- **The messages of a packet**, decoded: a command, a preset, the wiper. -/
theorem decodeBy_mem (hext : bitExtended ∉ (c.commandBits pkt).map Prod.fst) (p : Ccpacket)
    {mess : List Byte} (hmess : mess ∈ c.messages pkt) :
    decodeBy cmd mess p = cmd p (c.commandMess pkt) ∨
      (ccpacketGetPresetMode pkt ≠ 0 ∧ decodeBy cmd mess p =
        ccpacketSetPreset (ccpacketSetReceiver p (BitVec.ofInt 8 pkt.receiver).toNat)
          (ccpacketGetPresetMode pkt) (BitVec.ofInt 8 pkt.preset).toNat) ∨
      ∃ wm, decodeBy cmd mess p =
        ccpacketSetWiper (ccpacketSetReceiver p (BitVec.ofInt 8 pkt.receiver).toNat) wm := by
  rcases mem_messages hmess with rfl | ⟨hmode, rfl⟩ | rfl
  · exact Or.inl (decodeBy_command p hext)
  · refine Or.inr (Or.inl ⟨hmode, ?_⟩)
    have hcases := presetMode_mem hmode
    simp only [Field.members, List.mem_cons, List.not_mem_nil, or_false] at hcases
    rw [presetMess, decodeBy_extended]
    rcases hcases with hm | hm | hm <;> rw [hm] <;> rfl
  · refine Or.inr (Or.inr ?_)
    rw [wiperMess, decodeBy_extended]
    split
    · exact ⟨ccWiperOn, rfl⟩
    · exact ⟨ccWiperOff, rfl⟩

/-- Every message is read for the receiver it was written for. -/
theorem receiver_decodeBy (h : 1 ≤ pkt.receiver ∧ pkt.receiver ≤ 254)
    (hext : bitExtended ∉ (c.commandBits pkt).map Prod.fst)
    (hcmd : ∀ p mess, (cmd p mess).receiver = (mess.getD 1 0).toNat) (p : Ccpacket) {mess : List Byte}
    (hmess : mess ∈ c.messages pkt) : (decodeBy cmd mess p).receiver = pkt.receiver := by
  rcases decodeBy_mem hext p hmess with hdecode | ⟨-, hdecode⟩ | ⟨wm, hdecode⟩
  · rw [hdecode, hcmd, getD_commandMess_one, toNat_receiver h]
  · rw [hdecode, receiver_setPreset]
    exact toNat_receiver h
  · rw [hdecode]
    exact toNat_receiver h

theorem map_messages {β : Type} (f : List Byte → β) : (c.messages pkt).map f =
    (if hasCommands pkt then [f (c.commandMess pkt)] else []) ++
      ((if ccpacketGetPresetMode pkt ≠ 0 then [f (presetMess c.framing pkt)] else []) ++
        if ccpacketGetWiper pkt ≠ 0 then [f (wiperMess c.framing pkt)] else []) := by
  simp only [messages, List.map_append, apply_ite (List.map f), List.map_cons, List.map_nil]

end Pelco.Codec

/-- The numbers of a packet after a command, whatever its speeds are read as. -/
structure Numbers (mess : List Byte) (blank pkt : Ccpacket) : Prop where
  receiver : pkt.receiver = (mess.getD 1 0).toNat
  preset : pkt.preset = blank.preset
  pan : ¬(bitIsSet mess bitPanRight ∨ bitIsSet mess bitPanLeft) → pkt.pan = 0
  tilt : ¬(bitIsSet mess bitTiltUp ∨ bitIsSet mess bitTiltDown) → pkt.tilt = 0

theorem numbers_moves (bits : LensBits) (pan tilt : Int) (p : Ccpacket) (mess : List Byte) :
    Numbers mess p
      (decodeLens bits (decodeTilt tilt (decodePan pan (decodeReceiver p mess) mess) mess) mess) := by
  obtain ⟨flags, hlens⟩ := @decodeLens_eq mess
    (decodeTilt tilt (decodePan pan (decodeReceiver p mess) mess) mess) bits
  rw [hlens, decodeTilt_eq, decodePan_eq]
  exact ⟨rfl, rfl, fun hno => if_neg hno, fun hno => if_neg hno⟩

/-- Camera commands and scans have no numbers. -/
theorem Numbers.sense {mess : List Byte} {blank pkt pkt' : Ccpacket} (h : Numbers mess blank pkt)
    (hreceiver : pkt'.receiver = pkt.receiver) (hpreset : pkt'.preset = pkt.preset)
    (hpan : pkt'.pan = pkt.pan ∨ pkt'.pan = 0) (htilt : pkt'.tilt = pkt.tilt) :
    Numbers mess blank pkt' where
  receiver := hreceiver.trans h.receiver
  preset := hpreset.trans h.preset
  pan hno := hpan.elim (fun heq => heq.trans (h.pan hno)) id
  tilt hno := htilt.trans (h.tilt hno)

theorem PelcoD.numbers_decodeCommand (p : Ccpacket) (mess : List Byte) :
    Numbers mess p (PelcoD.pelcoDecodeCommand p mess) := by
  have hmoves := numbers_moves PelcoD.lensBits (PelcoD.decodeSpeed (mess.getD 4 0))
    (PelcoD.decodeSpeed (mess.getD 5 0)) p mess
  unfold PelcoD.pelcoDecodeCommand PelcoD.decodeSense
  cases bitIsSet mess PelcoD.bitSense <;> cases bitIsSet mess PelcoD.bitCameraOnOff <;>
    cases bitIsSet mess PelcoD.bitAutoPan <;>
    first
      | exact hmoves.sense rfl rfl (Or.inl rfl) rfl
      | exact hmoves.sense rfl rfl (Or.inr rfl) rfl

theorem PelcoP.numbers_decodeCommand (flags : BitVec 32) (p : Ccpacket) (mess : List Byte) :
    Numbers mess p (PelcoP.pelcoDecodeCommand flags p mess) := by
  have hmoves := numbers_moves PelcoP.lensBits (PelcoP.decodeSpeed (mess.getD 4 0) flags)
    (PelcoP.decodeSpeed (mess.getD 5 0) flags) p mess
  unfold PelcoP.pelcoDecodeCommand PelcoP.decodeSense
  cases bitIsSet mess PelcoP.bitCameraOnOff <;> cases bitIsSet mess PelcoP.bitCameraOn <;>
    cases bitIsSet mess PelcoP.bitAutoPan <;>
    first
      | exact hmoves.sense rfl rfl (Or.inl rfl) rfl
      | exact hmoves.sense rfl rfl (Or.inr rfl) rfl

/-- The packets a Pelco D reader makes of what the writer appended. -/
theorem PelcoD.readBack_doWrite (h : 1 ≤ pkt.receiver ∧ pkt.receiver ≤ 254) (now : Timeval)
    (timeout : Nat) (flags : BitVec 32) {rxbuf : Buffer}
    (hdata : rxbuf.data = (PelcoD.doWrite (bufferInit bufferSize) pkt).1.data) :
    readBack PelcoD.doRead now timeout flags rxbuf =
      some ((PelcoD.codec.messages (adjustMenuCommands pkt)).map fun mess =>
        ccpacketSetTimeout now (PelcoD.packetOf flags mess) timeout) := by
  obtain ⟨hreceiver, -⟩ := adjustMenuCommands_spec pkt
  rw [PelcoD.doWrite_eq _ h] at hdata
  rw [← hreceiver] at h
  refine readBack_frames (fun _ sink => PelcoD.doRead_reads sink) PelcoD.decode_blank now timeout flags
    ?_ fun mess hmess => ?_
  · have hroom := @Codec.length_flatten_messages (adjustMenuCommands pkt) PelcoD.codec
    rw [hdata, foldl_ccwriterAppend (hroom.trans (by decide))]
    exact frames_flatten fun mess hmess => Codec.messages_valid hmess
  · have hr : (PelcoD.packetOf flags mess).receiver = (adjustMenuCommands pkt).receiver :=
      Codec.receiver_decodeBy (c := PelcoD.codec) h (by rw [PelcoD.commandBits_keys]; decide)
        (fun p mess => (PelcoD.numbers_decodeCommand p mess).receiver) _ hmess
    unfold InReach
    rw [hr]
    omega

/-- The packets a Pelco P reader makes of what the writer appended. -/
theorem PelcoP.readBack_doWrite (h : 1 ≤ pkt.receiver ∧ pkt.receiver ≤ 254) (now : Timeval)
    (timeout : Nat) (flags : BitVec 32) {rxbuf : Buffer}
    (hdata : rxbuf.data = (PelcoP.doWrite (bufferInit bufferSize) pkt).1.data) :
    readBack PelcoP.doRead now timeout flags rxbuf =
      some ((PelcoP.codec.messages (adjustMenuCommands pkt)).map fun mess =>
        ccpacketSetTimeout now (PelcoP.packetOf flags mess) timeout) := by
  obtain ⟨hreceiver, -⟩ := adjustMenuCommands_spec pkt
  rw [PelcoP.doWrite_eq _ h] at hdata
  rw [← hreceiver] at h
  refine readBack_frames (fun _ sink => PelcoP.doRead_reads sink) PelcoP.decode_blank now timeout flags
    ?_ fun mess hmess => ?_
  · have hroom := @Codec.length_flatten_messages (adjustMenuCommands pkt) PelcoP.codec
    rw [hdata, foldl_ccwriterAppend (hroom.trans (by decide))]
    exact frames_flatten fun mess hmess => Codec.messages_valid hmess
  · have hr : (PelcoP.packetOf flags mess).receiver = (adjustMenuCommands pkt).receiver :=
      Codec.receiver_decodeBy (c := PelcoP.codec) h (by rw [PelcoP.commandBits_keys]; decide)
        (fun p mess => (PelcoP.numbers_decodeCommand flags p mess).receiver) _ hmess
    unfold InReach
    rw [hr]
    omega

/-- The two lists of packets differ by a clash alone, in their first packets. -/
theorem map_packetOf_eq_iff (now : Timeval) (timeout : Nat) (flags : BitVec 32) {flags' : BitVec 32}
    (hflags : flags' &&& ptDeadzone = 0) (pkt : Ccpacket) :
    ((PelcoD.codec.messages pkt).map fun mess =>
        ccpacketSetTimeout now (PelcoD.packetOf flags mess) timeout) =
      ((PelcoP.codec.messages pkt).map fun mess =>
        ccpacketSetTimeout now (PelcoP.packetOf flags' mess) timeout) ↔ ¬Clash pkt := by
  have hD : PelcoD.packetOf flags (PelcoD.codec.commandMess pkt) =
      PelcoD.pelcoDecodeCommand (ccpacketCreate ⟨0, 0⟩) (PelcoD.codec.commandMess pkt) :=
    @Codec.decodeBy_command pkt PelcoD.codec PelcoD.pelcoDecodeCommand _
      (by rw [PelcoD.commandBits_keys]; decide)
  have hP : PelcoP.packetOf flags' (PelcoP.codec.commandMess pkt) =
      PelcoP.pelcoDecodeCommand flags' (ccpacketCreate ⟨0, 0⟩) (PelcoP.codec.commandMess pkt) :=
    @Codec.decodeBy_command pkt PelcoP.codec (PelcoP.pelcoDecodeCommand flags') _
      (by rw [PelcoP.commandBits_keys]; decide)
  have hext : ∀ ex p0, PelcoD.packetOf flags (PelcoD.codec.framing.encodeChecksum
        (extendedMess (PelcoD.codec.framing.header pkt) ex p0)) =
      PelcoP.packetOf flags' (PelcoP.codec.framing.encodeChecksum
        (extendedMess (PelcoP.codec.framing.header pkt) ex p0)) := fun ex p0 =>
    (@Codec.decodeBy_extended pkt PelcoD.codec PelcoD.pelcoDecodeCommand _ ex p0).trans
      (@Codec.decodeBy_extended pkt PelcoP.codec (PelcoP.pelcoDecodeCommand flags') _ ex p0).symm
  rw [Codec.map_messages, Codec.map_messages]
  unfold presetMess wiperMess
  simp only [hext]
  rw [List.append_left_inj, hD, hP]
  constructor
  · intro heq hclash
    have hcmd : hasCommands pkt = true := by
      have hpan : Field.pan.get pkt.flags ≠ 0 := by
        rw [hclash.2]
        decide
      unfold hasCommands ccpacketHasCommand
      rw [ccpacketGetPanMode_eq, bne_iff_ne.mpr hpan]
      rfl
    obtain ⟨hnone, hoff⟩ := decodeCommand_clash hflags hclash ⟨0, 0⟩
    rw [if_pos hcmd, if_pos hcmd] at heq
    have hflagsEq := congrArg Ccpacket.flags (List.head_eq_of_cons_eq heq)
    change (PelcoD.pelcoDecodeCommand (ccpacketCreate ⟨0, 0⟩) _).flags =
      (PelcoP.pelcoDecodeCommand flags' (ccpacketCreate ⟨0, 0⟩) _).flags at hflagsEq
    have hcamera := congrArg Field.camera.get hflagsEq
    exact absurd (hnone.symm.trans (hcamera.trans hoff)) (by decide)
  · intro hno
    rw [decodeCommand_agrees hflags hno]

theorem clash_adjustMenuCommands (pkt : Ccpacket) : Clash (adjustMenuCommands pkt) ↔ Clash pkt := by
  obtain ⟨-, hget⟩ := adjustMenuCommands_spec pkt
  rw [Clash, Clash, hget .camera (by decide) (by decide), hget .pan (by decide) (by decide)]

/-- **Pelco D and Pelco P agree** on the packets read back, if and only if the packet does not turn
the camera off and scan automatically in one. -/
theorem codecs_agree_iff (h : 1 ≤ pkt.receiver ∧ pkt.receiver ≤ 254) (now : Timeval) (timeout : Nat)
    (flags : BitVec 32) {flags' : BitVec 32} (hflags : flags' &&& ptDeadzone = 0) :
    ∃ pkts pkts',
      readBack PelcoD.doRead now timeout flags (PelcoD.doWrite (bufferInit bufferSize) pkt).1 =
        some pkts ∧
      readBack PelcoP.doRead now timeout flags' (PelcoP.doWrite (bufferInit bufferSize) pkt).1 =
        some pkts' ∧ (pkts = pkts' ↔ ¬Clash pkt) := by
  refine ⟨_, _, PelcoD.readBack_doWrite h now timeout flags rfl,
    PelcoP.readBack_doWrite h now timeout flags' rfl, ?_⟩
  rw [map_packetOf_eq_iff now timeout flags hflags, clash_adjustMenuCommands]

/-- Camera off, and an automatic scan. -/
def offAndAuto : Ccpacket :=
  ccpacketSetPan (ccpacketSetCamera (ccpacketSetReceiver (ccpacketCreate ⟨0, 0⟩) 1) ccCameraOff)
    ccPanAuto 0

/-- Camera on, and an automatic scan. -/
def onAndAuto : Ccpacket :=
  ccpacketSetPan (ccpacketSetCamera (ccpacketSetReceiver (ccpacketCreate ⟨0, 0⟩) 1) ccCameraOn)
    ccPanAuto 0

theorem codecs_agree_iff_onAndAuto : ∃ pkts pkts',
    readBack PelcoD.doRead ⟨0, 0⟩ 15000 0 (PelcoD.doWrite (bufferInit bufferSize) onAndAuto).1 =
      some pkts ∧
    readBack PelcoP.doRead ⟨0, 0⟩ 15000 0 (PelcoP.doWrite (bufferInit bufferSize) onAndAuto).1 =
      some pkts' ∧ (pkts = pkts' ↔ ¬Clash onAndAuto) :=
  codecs_agree_iff (by decide) ⟨0, 0⟩ 15000 0 rfl

/-- The packets of camera off with an automatic scan differ. -/
theorem codecs_disagree :
    readBack PelcoD.doRead ⟨0, 0⟩ 15000 0 (PelcoD.doWrite (bufferInit bufferSize) offAndAuto).1 ≠
      readBack PelcoP.doRead ⟨0, 0⟩ 15000 0 (PelcoP.doWrite (bufferInit bufferSize) offAndAuto).1 := by
  rw [PelcoD.readBack_doWrite (by decide) _ _ _ rfl, PelcoP.readBack_doWrite (by decide) _ _ _ rfl]
  intro heq
  rw [Option.some.injEq, map_packetOf_eq_iff ⟨0, 0⟩ 15000 0 (by decide)] at heq
  exact heq (by decide)

end Protozoa
