import Protozoa.Protocol.PelcoCodec
import Protozoa.Protocol.PelcoD
import Protozoa.Protocol.PelcoP

/-!
# The codecs of Pelco D and Pelco P

The two instances of `Pelco.Codec`, with the bits of `encode_sense` as tables, and `do_write` as a
list of messages (`doWrite_eq`).

* Pelco P has a bit for the camera that is on (`pelco_p.c:182-191`, `430-438`).
* Pelco D has one sense bit for camera and scan together (`pelco_d.c:160-172`, `406-421`), so a
  camera that is off gives way to a scan (`PelcoD.senseBits`).
* `valid_encodeChecksum`: a message with its checksum is valid (`pelco_d.c:426-428`,
  `pelco_p.c:443-445`).
* `pelcoDecodeCommand_eq`: decoding a command is the pairs of moves, and then the sense bits.
-/

namespace Protozoa

open Pelco

variable {mess : List Byte} {pkt : Ccpacket} {i k : Nat}

theorem foldl_getD_congr {mess' : List Byte} {f : Byte → Byte → Byte} :
    ∀ {is : List Nat} (sum : Byte), (∀ i ∈ is, mess'.getD i 0 = mess.getD i 0) →
      is.foldl (fun sum i => f sum (mess'.getD i 0)) sum = is.foldl (fun sum i => f sum (mess.getD i 0)) sum
  | [], _, _ => rfl
  | i :: is, sum, h => by
    rw [List.foldl_cons, List.foldl_cons, h i List.mem_cons_self]
    exact foldl_getD_congr _ fun j hj => h j (List.mem_cons_of_mem i hj)

/-- Replacing the last byte of a message by what it is. -/
theorem set_last_eq {mess' : List Byte} {n : Nat} (hlen : mess.length = n + 1)
    (hlen' : mess'.length = n + 1) (hbytes : ∀ i, i < n → mess'.getD i 0 = mess.getD i 0) :
    mess'.set n (mess.getD n 0) = mess := by
  refine ext_getD ((List.length_set).trans (hlen'.trans hlen.symm)) fun i hi => ?_
  rw [List.length_set, hlen'] at hi
  by_cases hlast : n = i
  · rw [hlast]
    exact getD_set_self (by omega)
  · rw [getD_set_of_ne hlast]
    exact hbytes i (by omega)

/-! ## Pelco D -/

namespace PelcoD

theorem lensBits_inCommand : lensBits.InCommand where
  focusNear := by decide
  focusFar := by decide
  irisOpen := by decide
  irisClose := by decide

/-- The bits of `encode_sense`. -/
def senseBits (pkt : Ccpacket) : List (Nat × Bool) :=
  [(bitSense, Field.camera.get pkt.flags == ccCameraOn || Field.pan.get pkt.flags == ccPanAuto),
    (bitCameraOnOff, Field.camera.get pkt.flags == ccCameraOn ||
      Field.camera.get pkt.flags == ccCameraOff && Field.pan.get pkt.flags != ccPanAuto),
    (bitAutoPan, Field.pan.get pkt.flags == ccPanAuto)]

/-- No packet has `CC_PAN_MANUAL` for `ccpacket_pan`. -/
theorem get_pan_ne_manual (flags : CcFlags) : Field.pan.get flags ≠ ccPanManual := by
  intro heq
  have hmem := Field.get_mem .pan flags
  rw [heq] at hmem
  exact absurd hmem (by decide)

theorem length_encodeSense (mess : List Byte) (pkt : Ccpacket) :
    (encodeSense mess pkt).length = mess.length := by
  simp only [encodeSense, apply_ite List.length, length_bitSet, ite_self]

theorem getD_encodeSense (mess : List Byte) (pkt : Ccpacket) (i : Nat) (h2 : 2 ≠ i) :
    (encodeSense mess pkt).getD i 0 = mess.getD i 0 := by
  have hbyte : bitSense / 8 ≠ i ∧ bitCameraOnOff / 8 ≠ i ∧ bitAutoPan / 8 ≠ i := ⟨h2, h2, h2⟩
  simp only [encodeSense]
  split
  · rw [getD_ite_bitSet hbyte.2.2, getD_ite_bitSet hbyte.2.1, getD_bitSet_of_ne hbyte.1]
  · split
    · rw [getD_ite_bitSet hbyte.2.2, getD_ite_bitSet hbyte.2.1]
    · rfl

theorem bitIsSet_encodeSense (mess : List Byte) (pkt : Ccpacket) (k : Nat) (hlen : 4 ≤ mess.length) :
    bitIsSet (encodeSense mess pkt) k = (tableBit (senseBits pkt) k || bitIsSet mess k) := by
  have honoff : ¬(ccpacketGetCamera pkt == ccCameraOn && ccpacketGetCamera pkt == ccCameraOff) := by
    rw [Bool.and_eq_true, beq_iff_eq, beq_iff_eq]
    exact fun h => absurd (h.1.symm.trans h.2) (by decide)
  have hite : ∀ {c : Prop} [Decidable c] (mess : List Byte) (bit : Nat), 4 ≤ mess.length →
      4 ≤ (if c then bitSet mess bit else mess).length := by
    intro c _ mess bit h
    simpa only [apply_ite List.length, length_bitSet, ite_self] using h
  have htable : tableBit (senseBits pkt) k =
      ((ccpacketGetCamera pkt == ccCameraOn || ccpacketGetPanMode pkt == ccPanAuto) && bitSense == k ||
        ((ccpacketGetCamera pkt == ccCameraOn ||
            ccpacketGetCamera pkt == ccCameraOff && ccpacketGetPanMode pkt != ccPanAuto) &&
          bitCameraOnOff == k || ccpacketGetPanMode pkt == ccPanAuto && bitAutoPan == k)) := by
    simp only [senseBits, tableBit, List.any_cons, List.any_nil, Bool.or_false]
    rfl
  rw [htable]
  simp only [encodeSense]
  by_cases hon : ccpacketGetCamera pkt = ccCameraOn ∨ ccpacketGetPanMode pkt = ccPanAuto
  · rw [if_pos hon, bitIsSet_one (by decide) (hite _ _ (by rwa [length_bitSet])),
      bitIsSet_one (by decide) (by rwa [length_bitSet]), bitIsSet_set (by decide) hlen]
    have hon' : (ccpacketGetCamera pkt == ccCameraOn || ccpacketGetPanMode pkt == ccPanAuto) = true := by
      rw [Bool.or_eq_true, beq_iff_eq, beq_iff_eq]
      exact hon
    revert hon' honoff
    simp only [bne]
    generalize (ccpacketGetCamera pkt == ccCameraOn) = a, (ccpacketGetCamera pkt == ccCameraOff) = b,
      (ccpacketGetPanMode pkt == ccPanAuto) = c, (bitSense == k) = x, (bitCameraOnOff == k) = y,
      (bitAutoPan == k) = z, bitIsSet mess k = m
    revert a b c x y z m
    decide
  · obtain ⟨hno, hnoauto⟩ := not_or.mp hon
    have hnomanual : ccpacketGetPanMode pkt ≠ ccPanManual := get_pan_ne_manual pkt.flags
    rw [if_neg hon, beq_eq_false_iff_ne.mpr hno, bne, beq_eq_false_iff_ne.mpr hnoauto]
    simp only [Bool.or_false, Bool.false_and, Bool.false_or, Bool.not_false, Bool.and_true]
    by_cases hoff : ccpacketGetCamera pkt = ccCameraOff
    · rw [if_pos (Or.inl hoff), if_neg hnomanual, bitIsSet_one (by decide) hlen]
    · rw [if_neg fun h => h.elim hoff hnomanual, beq_eq_false_iff_ne.mpr hoff]
      rfl

theorem calculateChecksum_congr {mess' : List Byte} (h : ∀ i, i < 6 → mess'.getD i 0 = mess.getD i 0) :
    calculateChecksum mess' = calculateChecksum mess := by
  refine foldl_getD_congr 0 fun i hi => h i ?_
  simp only [List.mem_cons, List.not_mem_nil, or_false] at hi
  omega

theorem length_header (pkt : Ccpacket) : (framing.header pkt).length = framing.size := rfl

theorem header_receiver (pkt : Ccpacket) :
    (framing.header pkt).getD 1 0 = BitVec.ofInt 8 pkt.receiver := rfl

theorem header_zero (pkt : Ccpacket) (i : Nat) (h : 2 ≤ i) (h' : i ≤ 5) :
    (framing.header pkt).getD i 0 = 0 := by
  have hcases : i = 2 ∨ i = 3 ∨ i = 4 ∨ i = 5 := by omega
  rcases hcases with rfl | rfl | rfl | rfl <;> rfl

theorem length_encodeChecksum (mess : List Byte) :
    (framing.encodeChecksum mess).length = mess.length := List.length_set

theorem getD_encodeChecksum (mess : List Byte) (i : Nat) (h : i < framing.size - 1) :
    (framing.encodeChecksum mess).getD i 0 = mess.getD i 0 := by
  refine getD_set_of_ne ?_
  change i < 6 at h
  omega

theorem valid_encodeChecksum (mess : List Byte) (pkt : Ccpacket) (hlen : mess.length = framing.size)
    (h : ∀ i, i < 2 ∨ 5 < i → mess.getD i 0 = (framing.header pkt).getD i 0) :
    valid (framing.encodeChecksum mess) = true := by
  rw [valid, checksumIsValid, Bool.and_eq_true, beq_iff_eq, beq_iff_eq]
  refine ⟨?_, ?_⟩
  · rw [getD_encodeChecksum mess 0 (by decide), h 0 (by decide)]
    rfl
  · rw [calculateChecksum_congr (getD_encodeChecksum mess)]
    exact (getD_set_self (by rw [hlen]; decide)).symm

theorem encodeChecksum_eq (mess mess' : List Byte) (hlen : mess.length = framing.size)
    (hlen' : mess'.length = framing.size) (hvalid : valid mess = true)
    (h : ∀ i, i < framing.size - 1 → mess'.getD i 0 = mess.getD i 0) :
    framing.encodeChecksum mess' = mess := by
  rw [valid, checksumIsValid, Bool.and_eq_true, beq_iff_eq, beq_iff_eq] at hvalid
  show mess'.set 6 (calculateChecksum mess') = mess
  rw [calculateChecksum_congr h, hvalid.2]
  exact set_last_eq hlen hlen' h

theorem header_eq (mess : List Byte) (pkt : Ccpacket) (hvalid : valid mess = true)
    (hreceiver : pkt.receiver = (mess.getD 1 0).toNat) (i : Nat) (hi : i < 2 ∨ 5 < i)
    (hlt : i < framing.size - 1) : (framing.header pkt).getD i 0 = mess.getD i 0 := by
  rw [valid, Bool.and_eq_true, beq_iff_eq] at hvalid
  change i < 6 at hlt
  have hcases : i = 0 ∨ i = 1 := by omega
  rcases hcases with rfl | rfl
  · exact hvalid.1.symm
  · rw [header_receiver, hreceiver, ofInt_toNat]

def codec : Codec where
  framing := framing
  bits := lensBits
  encodeSense := encodeSense
  senseBits := senseBits
  valid := valid
  bits_inCommand := lensBits_inCommand
  size := Nat.lt_of_sub_eq_succ rfl
  length_header := length_header
  header_receiver := header_receiver
  header_zero := header_zero
  length_encodeSense := length_encodeSense
  bitIsSet_encodeSense := bitIsSet_encodeSense
  getD_encodeSense := getD_encodeSense
  length_encodeChecksum := length_encodeChecksum
  getD_encodeChecksum := getD_encodeChecksum
  valid_encodeChecksum := valid_encodeChecksum
  encodeChecksum_eq := encodeChecksum_eq
  header_eq := header_eq

theorem commandBits_keys (pkt : Ccpacket) : (codec.commandBits pkt).map Prod.fst =
    [23, 19, 20, 29, 30, 16, 31, 17, 18, 27, 28, 26, 25] := rfl

theorem commandBits_nodup (pkt : Ccpacket) : ((codec.commandBits pkt).map Prod.fst).Nodup := by
  rw [commandBits_keys]
  decide

/-- The camera command of a message. -/
def cameraOf (mess : List Byte) : CcFlags :=
  if bitIsSet mess bitSense then ccCameraOn else ccCameraOff

/-- The scan mode of a message. -/
def scanOf (mess : List Byte) : CcFlags :=
  if bitIsSet mess bitSense then ccPanAuto else ccPanManual

theorem pelcoDecodeCommand_eq : pelcoDecodeCommand pkt mess = decodeSensed lensBits
    (bitIsSet mess bitCameraOnOff) (bitIsSet mess bitAutoPan) (cameraOf mess) (scanOf mess) pkt mess := by
  unfold pelcoDecodeCommand decodeSense decodeSensed cameraOf scanOf
  cases bitIsSet mess bitSense <;> rfl

theorem doWrite_eq (txbuf : Buffer) (h : 1 ≤ pkt.receiver ∧ pkt.receiver ≤ maxAddress) :
    doWrite txbuf pkt = ((codec.messages (adjustMenuCommands pkt)).foldl
      ccwriterAppend txbuf, adjustMenuCommands pkt, 1) := by
  have hrange : ¬(pkt.receiver < 1 ∨ pkt.receiver > maxAddress) := by omega
  rw [doWrite, doWriteCb, if_neg hrange, ← Codec.append_messages]
  rfl

end PelcoD

/-! ## Pelco P -/

namespace PelcoP

theorem lensBits_inCommand : lensBits.InCommand where
  focusNear := by decide
  focusFar := by decide
  irisOpen := by decide
  irisClose := by decide

/-- The bits of `encode_sense`. -/
def senseBits (pkt : Ccpacket) : List (Nat × Bool) :=
  [(bitCameraOnOff, Field.camera.get pkt.flags == ccCameraOn ||
      Field.camera.get pkt.flags == ccCameraOff),
    (bitCameraOn, Field.camera.get pkt.flags == ccCameraOn),
    (bitAutoPan, Field.pan.get pkt.flags == ccPanAuto)]

theorem length_encodeSense (mess : List Byte) (pkt : Ccpacket) :
    (encodeSense mess pkt).length = mess.length := by
  simp only [encodeSense, apply_ite List.length, length_bitSet, ite_self]

theorem getD_encodeSense (mess : List Byte) (pkt : Ccpacket) (i : Nat) (h2 : 2 ≠ i) :
    (encodeSense mess pkt).getD i 0 = mess.getD i 0 := by
  have hbyte : bitCameraOnOff / 8 ≠ i ∧ bitCameraOn / 8 ≠ i ∧ bitAutoPan / 8 ≠ i := ⟨h2, h2, h2⟩
  simp only [encodeSense]
  rw [getD_ite_bitSet hbyte.2.2]
  split
  · rw [getD_bitSet_of_ne hbyte.2.1, getD_bitSet_of_ne hbyte.1]
  · exact getD_ite_bitSet hbyte.1

theorem bitIsSet_encodeSense (mess : List Byte) (pkt : Ccpacket) (k : Nat) (hlen : 4 ≤ mess.length) :
    bitIsSet (encodeSense mess pkt) k = (tableBit (senseBits pkt) k || bitIsSet mess k) := by
  have htable : tableBit (senseBits pkt) k =
      ((ccpacketGetCamera pkt == ccCameraOn || ccpacketGetCamera pkt == ccCameraOff) &&
          bitCameraOnOff == k ||
        (ccpacketGetCamera pkt == ccCameraOn && bitCameraOn == k ||
          ccpacketGetPanMode pkt == ccPanAuto && bitAutoPan == k)) := by
    simp only [senseBits, tableBit, List.any_cons, List.any_nil, Bool.or_false]
    rfl
  rw [htable]
  simp only [encodeSense]
  by_cases hon : ccpacketGetCamera pkt = ccCameraOn
  · rw [if_pos hon, bitIsSet_one (by decide) (by rwa [length_bitSet, length_bitSet]),
      bitIsSet_set (by decide) (by rwa [length_bitSet]), bitIsSet_set (by decide) hlen, hon,
      beq_self_eq_true, Bool.true_or, Bool.true_and, Bool.true_and]
    ac_rfl
  · rw [if_neg hon, beq_eq_false_iff_ne.mpr hon, Bool.false_or, Bool.false_and, Bool.false_or]
    have hlen' : 4 ≤ (if ccpacketGetCamera pkt = ccCameraOff then bitSet mess bitCameraOnOff
        else mess).length := by
      simpa only [apply_ite List.length, length_bitSet, ite_self] using hlen
    rw [bitIsSet_one (by decide) hlen', bitIsSet_one (by decide) hlen]
    ac_rfl

theorem calculateChecksum_congr {mess' : List Byte} (h : ∀ i, i < 7 → mess'.getD i 0 = mess.getD i 0) :
    calculateChecksum mess' = calculateChecksum mess := by
  refine foldl_getD_congr 0 fun i hi => h i ?_
  simp only [List.mem_cons, List.not_mem_nil, or_false] at hi
  omega

theorem length_header (pkt : Ccpacket) : (framing.header pkt).length = framing.size := rfl

theorem header_receiver (pkt : Ccpacket) :
    (framing.header pkt).getD 1 0 = BitVec.ofInt 8 pkt.receiver := rfl

theorem header_zero (pkt : Ccpacket) (i : Nat) (h : 2 ≤ i) (h' : i ≤ 5) :
    (framing.header pkt).getD i 0 = 0 := by
  have hcases : i = 2 ∨ i = 3 ∨ i = 4 ∨ i = 5 := by omega
  rcases hcases with rfl | rfl | rfl | rfl <;> rfl

theorem length_encodeChecksum (mess : List Byte) :
    (framing.encodeChecksum mess).length = mess.length := List.length_set

theorem getD_encodeChecksum (mess : List Byte) (i : Nat) (h : i < framing.size - 1) :
    (framing.encodeChecksum mess).getD i 0 = mess.getD i 0 := by
  refine getD_set_of_ne ?_
  change i < 7 at h
  omega

theorem valid_encodeChecksum (mess : List Byte) (pkt : Ccpacket) (hlen : mess.length = framing.size)
    (h : ∀ i, i < 2 ∨ 5 < i → mess.getD i 0 = (framing.header pkt).getD i 0) :
    valid (framing.encodeChecksum mess) = true := by
  rw [valid, checksumIsValid, Bool.and_eq_true, Bool.and_eq_true, beq_iff_eq, beq_iff_eq, beq_iff_eq]
  refine ⟨⟨?_, ?_⟩, ?_⟩
  · rw [getD_encodeChecksum mess 0 (by decide), h 0 (by decide)]
    rfl
  · rw [getD_encodeChecksum mess 6 (by decide), h 6 (by decide)]
    rfl
  · rw [calculateChecksum_congr (getD_encodeChecksum mess)]
    exact (getD_set_self (by rw [hlen]; decide)).symm

theorem encodeChecksum_eq (mess mess' : List Byte) (hlen : mess.length = framing.size)
    (hlen' : mess'.length = framing.size) (hvalid : valid mess = true)
    (h : ∀ i, i < framing.size - 1 → mess'.getD i 0 = mess.getD i 0) :
    framing.encodeChecksum mess' = mess := by
  rw [valid, checksumIsValid, Bool.and_eq_true, beq_iff_eq] at hvalid
  show mess'.set 7 (calculateChecksum mess') = mess
  rw [calculateChecksum_congr h, hvalid.2]
  exact set_last_eq hlen hlen' h

theorem header_eq (mess : List Byte) (pkt : Ccpacket) (hvalid : valid mess = true)
    (hreceiver : pkt.receiver = (mess.getD 1 0).toNat) (i : Nat) (hi : i < 2 ∨ 5 < i)
    (hlt : i < framing.size - 1) : (framing.header pkt).getD i 0 = mess.getD i 0 := by
  rw [valid, Bool.and_eq_true, Bool.and_eq_true, beq_iff_eq, beq_iff_eq] at hvalid
  change i < 7 at hlt
  have hcases : i = 0 ∨ i = 1 ∨ i = 6 := by omega
  rcases hcases with rfl | rfl | rfl
  · exact hvalid.1.1.symm
  · rw [header_receiver, hreceiver, ofInt_toNat]
  · exact hvalid.1.2.symm

def codec : Codec where
  framing := framing
  bits := lensBits
  encodeSense := encodeSense
  senseBits := senseBits
  valid := valid
  bits_inCommand := lensBits_inCommand
  size := Nat.lt_of_sub_eq_succ rfl
  length_header := length_header
  header_receiver := header_receiver
  header_zero := header_zero
  length_encodeSense := length_encodeSense
  bitIsSet_encodeSense := bitIsSet_encodeSense
  getD_encodeSense := getD_encodeSense
  length_encodeChecksum := length_encodeChecksum
  getD_encodeChecksum := getD_encodeChecksum
  valid_encodeChecksum := valid_encodeChecksum
  encodeChecksum_eq := encodeChecksum_eq
  header_eq := header_eq

theorem commandBits_keys (pkt : Ccpacket) : (codec.commandBits pkt).map Prod.fst =
    [20, 22, 21, 29, 30, 17, 16, 18, 19, 27, 28, 26, 25] := rfl

theorem commandBits_nodup (pkt : Ccpacket) : ((codec.commandBits pkt).map Prod.fst).Nodup := by
  rw [commandBits_keys]
  decide

theorem pelcoDecodeCommand_eq {flags : BitVec 32} (hflags : flags &&& ptDeadzone = 0) :
    pelcoDecodeCommand flags pkt mess = decodeSensed lensBits (bitIsSet mess bitCameraOnOff)
      (bitIsSet mess bitAutoPan) (if bitIsSet mess bitCameraOn then ccCameraOn else ccCameraOff)
      ccPanAuto pkt mess := by
  have hspeed : ∀ val, decodeSpeed val flags = levelSpeed val := by
    intro val
    simp only [decodeSpeed, hflags, ne_eq, not_true_eq_false, if_false]
    rfl
  have hcamera : ∀ pkt, ccpacketSetCamera pkt
      (if bitIsSet mess bitCameraOn then ccCameraOn else ccCameraOff) =
      if bitIsSet mess bitCameraOn then ccpacketSetCamera pkt ccCameraOn
      else ccpacketSetCamera pkt ccCameraOff := fun pkt => apply_ite _ _ _ _
  simp only [pelcoDecodeCommand, hspeed, decodeSensed, hcamera]
  rfl

theorem doWrite_eq (txbuf : Buffer) (h : 1 ≤ pkt.receiver ∧ pkt.receiver ≤ maxAddress) :
    doWrite txbuf pkt = ((codec.messages (adjustMenuCommands pkt)).foldl
      ccwriterAppend txbuf, adjustMenuCommands pkt, 1) := by
  have hrange : ¬(pkt.receiver < 1 ∨ pkt.receiver > maxAddress) := by omega
  rw [doWrite, if_neg hrange, ← Codec.append_messages]
  rfl

end PelcoP

end Protozoa
