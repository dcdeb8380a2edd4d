import Protozoa.Protocol.PelcoCodec
import Protozoa.Protocol.Vicon
import Protozoa.Protocol.ReadBack

/-!
# Vicon there and back

The writer chooses one of three messages for a packet (`vicon.c:442-489`), the reader one of three
ways to decode a message (`vicon.c:259-274`). They meet at `Codes`: the fields are in the first
bytes of all three messages (`Carries`), and the reader finds the preset and the speeds where the
writer has put them. So each of the messages codes its packet (`codes_message`), and what it is
decoded to is this packet (`sameFields_delivered`).

* `bitIsSet_base`, `carries_base`: what the encoders of the fields set, as tables of bits.
* `HasPreset`, `Requests`: a preset in a command (`vicon.c:355-362`) and in an extended message
  (`vicon.c:421-437`).
* **`comes_back`**: of a packet that fits in one message (`Carried`), exactly one is written, and
  read as this packet.

Out of scope: packets that Vicon cannot carry, such as a camera to be switched, automatic focus, a
menu command, or a preset together with what its message has no room for. `Carried` lists them,
field by field.
-/

namespace Protozoa.Vicon

open Lib.Scan

variable {mess : List Byte} {pkt : Ccpacket}

/-- The lens commands are those of the Pelco protocols, at other bits. -/
def lensBits : Pelco.LensBits where
  focusNear := bitFocusNear
  focusFar := bitFocusFar
  irisOpen := bitIrisOpen
  irisClose := bitIrisClose

/-! ## Decoding -/

/-- The value of a field that a message has. -/
def fieldOf (mess : List Byte) : Field → CcFlags
  | .pan => if bitIsSet mess bitAutoPan then ccPanAuto
    else if bitIsSet mess bitPanRight then ccPanRight else ccPanLeft
  | .tilt => if bitIsSet mess bitTiltUp then ccTiltUp else ccTiltDown
  | .zoom => if bitIsSet mess bitZoomIn then ccZoomIn
    else if bitIsSet mess bitZoomOut then ccZoomOut else 0
  | .focus => if bitIsSet mess bitFocusNear then ccFocusNear
    else if bitIsSet mess bitFocusFar then ccFocusFar else 0
  | .iris => if bitIsSet mess bitAutoIris then ccIrisAuto
    else if bitIsSet mess bitIrisOpen then ccIrisOpen
    else if bitIsSet mess bitIrisClose then ccIrisClose else 0
  | .ack => if bitIsSet mess bitAckAlarm then ccAckAlarm else 0
  | .lens => if bitIsSet mess bitLensSpeed then ccLensSpeed else 0
  | .wiper => if bitIsSet mess bitAux6 then ccWiperOn else 0
  | .preset => 0
  | .menu => 0
  | .camera => 0

/-- `vicon_decode_command` up to the preset. -/
def decodeFields (pkt : Ccpacket) (mess : List Byte) : Ccpacket :=
  decodeAux (decodeToggles (decodeLens (decodeTilt (decodePan (decodeReceiver pkt mess) mess) mess)
    mess) mess) mess

/-- A field set on a condition. -/
theorem get_when (c : Bool) (x y : Field) (pkt : Ccpacket) {m : CcFlags} (hm : m ∈ y.members) :
    x.get (if c then y.update pkt m else pkt).flags =
      if x = y then if c then m else y.get pkt.flags else x.get pkt.flags := by
  cases c with
  | true =>
    refine (Field.get_update x y pkt m).trans (if_congr Iff.rfl ?_ rfl)
    exact Field.get_of_mem hm
  | false =>
    by_cases hxy : x = y
    · rw [if_pos hxy, hxy]
      rfl
    · rw [if_neg hxy]
      rfl

theorem get_decodePan (x : Field) : x.get (decodePan pkt mess).flags = if x = .pan then
    if bitIsSet mess bitPanRight then ccPanRight else ccPanLeft else x.get pkt.flags := by
  have hset : ∀ pm ∈ Field.pan.members, ∀ speed, x.get (ccpacketSetPan pkt pm speed).flags =
      if x = .pan then pm else x.get pkt.flags := fun pm hpm speed =>
    (Field.get_update x .pan pkt pm).trans (if_congr Iff.rfl (Field.get_of_mem hpm) rfl)
  unfold decodePan
  by_cases hr : bitIsSet mess bitPanRight = true
  · rw [if_pos hr, if_pos hr, hset _ (by decide)]
  · rw [if_neg hr, if_neg hr]
    split <;> exact hset _ (by decide) _

theorem get_decodeTilt (x : Field) : x.get (decodeTilt pkt mess).flags = if x = .tilt then
    if bitIsSet mess bitTiltUp then ccTiltUp else ccTiltDown else x.get pkt.flags := by
  have hset : ∀ tm ∈ Field.tilt.members, ∀ speed, x.get (ccpacketSetTilt pkt tm speed).flags =
      if x = .tilt then tm else x.get pkt.flags := fun tm htm speed =>
    (Field.get_update x .tilt pkt tm).trans (if_congr Iff.rfl (Field.get_of_mem htm) rfl)
  unfold decodeTilt
  by_cases hu : bitIsSet mess bitTiltUp = true
  · rw [if_pos hu, if_pos hu, hset _ (by decide)]
  · rw [if_neg hu, if_neg hu]
    split <;> exact hset _ (by decide) _

theorem decodeLens_eq : decodeLens pkt mess = Pelco.decodeLens lensBits pkt mess := rfl

theorem get_decodeToggles (x : Field) : x.get (decodeToggles pkt mess).flags =
    if x = .lens then if bitIsSet mess bitLensSpeed then ccLensSpeed else Field.lens.get pkt.flags
    else if x = .pan then if bitIsSet mess bitAutoPan then ccPanAuto else Field.pan.get pkt.flags
    else if x = .iris then if bitIsSet mess bitAutoIris then ccIrisAuto else Field.iris.get pkt.flags
    else if x = .ack then if bitIsSet mess bitAckAlarm then ccAckAlarm else Field.ack.get pkt.flags
    else x.get pkt.flags := by
  have hpan : ∀ p, (if bitIsSet mess bitAutoPan then ccpacketSetPan p ccPanAuto 0 else p).flags =
      (if bitIsSet mess bitAutoPan then Field.pan.update p ccPanAuto else p).flags := by
    intro p
    cases bitIsSet mess bitAutoPan <;> rfl
  simp only [decodeToggles, ccpacketSetAck_eq, ccpacketSetIris_eq, ccpacketSetLens_eq]
  rw [get_when _ x .lens _ (by decide)]
  simp only [hpan, get_when _ _ .pan _ (show ccPanAuto ∈ Field.members .pan by decide),
    get_when _ _ .iris _ (show ccIrisAuto ∈ Field.members .iris by decide),
    get_when _ _ .ack _ (show ccAckAlarm ∈ Field.members .ack by decide), reduceCtorEq, if_false]

theorem get_decodeAux (x : Field) : x.get (decodeAux pkt mess).flags = if x = .wiper then
    if bitIsSet mess bitAux6 then ccWiperOn else Field.wiper.get pkt.flags else x.get pkt.flags :=
  get_when _ x .wiper pkt (by decide)

/-- **Decoding the fields** of a message into a blank packet. -/
theorem get_decodeFields (hblank : pkt.flags = 0) (x : Field) :
    x.get (decodeFields pkt mess).flags = fieldOf mess x := by
  have hzero : ∀ y : Field, y.get (decodeReceiver pkt mess).flags = 0 := fun y =>
    (congrArg y.get hblank).trans y.get_zero
  unfold decodeFields
  simp only [get_decodeAux, get_decodeToggles, decodeLens_eq, Pelco.get_decodeLens, get_decodeTilt,
    get_decodePan, hzero]
  cases x <;> rfl

theorem keepsProper_decodeFields (mess : List Byte) :
    KeepsProper fun pkt => decodeAux (decodeToggles (decodeLens (decodeTilt (decodePan pkt mess) mess)
      mess) mess) mess := by
  have hpan : KeepsProper fun pkt => decodePan pkt mess :=
    .ite (.setPan _ _) (.ite (.setPan _ _) (.setPan _ _))
  have htilt : KeepsProper fun pkt => decodeTilt pkt mess :=
    .ite (.setTilt _ _) (.ite (.setTilt _ _) (.setTilt _ _))
  have hlens : KeepsProper fun pkt => decodeLens pkt mess :=
    .comp (.ite (.update .zoom _) (.ite (.update .zoom _) .id))
      (.comp (.ite (.update .focus _) (.ite (.update .focus _) .id))
        (.ite (.update .iris _) (.ite (.update .iris _) .id)))
  have htoggles : KeepsProper fun pkt => decodeToggles pkt mess :=
    .comp (.ite (.update .lens _) .id) (.comp (.ite (.setPan _ _) .id)
      (.comp (.ite (.update .iris _) .id) (.ite (.update .ack _) .id)))
  have haux : KeepsProper fun pkt => decodeAux pkt mess := .ite (.update .wiper _) .id
  exact .comp haux (.comp htoggles (.comp hlens (.comp htilt hpan)))

/-- The speeds without those of an extended message. -/
theorem speeds_decodeFields : (decodeFields pkt mess).pan =
      (if bitIsSet mess bitAutoPan then 0
      else if bitIsSet mess bitPanRight ∨ bitIsSet mess bitPanLeft then speedMax else 0) ∧
    (decodeFields pkt mess).tilt =
      if bitIsSet mess bitTiltUp ∨ bitIsSet mess bitTiltDown then speedMax else 0 := by
  obtain ⟨flags, hlens⟩ := @Pelco.decodeLens_eq mess (decodeTilt (decodePan (decodeReceiver pkt mess)
    mess) mess) lensBits
  have haux : ∀ p, (decodeAux p mess).pan = p.pan ∧ (decodeAux p mess).tilt = p.tilt := by
    intro p
    unfold decodeAux
    cases bitIsSet mess bitAux6 <;> exact ⟨rfl, rfl⟩
  have htoggles : ∀ p, (decodeToggles p mess).pan = (if bitIsSet mess bitAutoPan then 0 else p.pan) ∧
      (decodeToggles p mess).tilt = p.tilt := by
    intro p
    unfold decodeToggles
    cases bitIsSet mess bitAckAlarm <;> cases bitIsSet mess bitAutoIris <;>
      cases bitIsSet mess bitAutoPan <;> cases bitIsSet mess bitLensSpeed <;> exact ⟨rfl, rfl⟩
  rw [decodeFields, (haux _).1, (haux _).2, (htoggles _).1, (htoggles _).2, decodeLens_eq, hlens]
  unfold decodeTilt decodePan
  refine ⟨?_, ?_⟩
  · cases bitIsSet mess bitPanRight <;> cases bitIsSet mess bitPanLeft <;>
      cases bitIsSet mess bitTiltUp <;> cases bitIsSet mess bitTiltDown <;> rfl
  · cases bitIsSet mess bitTiltUp <;> cases bitIsSet mess bitTiltDown <;> rfl

/-! ## Numbers in a message -/

theorem and_0x0f (n : Nat) : n &&& 15 = n % 16 := Nat.and_two_pow_sub_one_eq_mod n 4
theorem and_0x7f (n : Nat) : n &&& 127 = n % 128 := Nat.and_two_pow_sub_one_eq_mod n 7

/-- The receiver from its two nibbles. -/
theorem receiver_eq {r : Int} (h : 1 ≤ r ∧ r ≤ 255) :
    ((((flag ||| ((BitVec.ofInt 32 r).sshiftRight 4 &&& 0x0f).setWidth 8) &&& 0x0f : Byte).toNat <<< 4 |||
      (((BitVec.ofInt 32 r &&& 0x0f).setWidth 8) &&& 0x0f : Byte).toNat : Nat) : Int) = r := by
  obtain ⟨m, rfl⟩ := Int.eq_ofNat_of_zero_le (show 0 ≤ r by omega)
  have hm : m < 256 := by omega
  have hmsb : (BitVec.ofNat 32 m).msb = false := by
    rw [BitVec.msb_eq_false_iff_two_mul_lt, BitVec.toNat_ofNat]
    omega
  have hhi : ((flag ||| ((BitVec.ofNat 32 m).sshiftRight 4 &&& 0x0f).setWidth 8) &&& 0x0f : Byte).toNat =
      m / 16 := by
    rw [BitVec.sshiftRight_eq_of_msb_false hmsb, BitVec.toNat_and, BitVec.toNat_or, BitVec.toNat_setWidth,
      BitVec.toNat_and, BitVec.toNat_ushiftRight, BitVec.toNat_ofNat, Nat.shiftRight_eq_div_pow]
    show (128 ||| (m % 2 ^ 32 / 2 ^ 4 &&& 15) % 2 ^ 8) &&& 15 = m / 16
    rw [Nat.and_or_distrib_right, show 128 &&& 15 = 0 from rfl, Nat.zero_or, and_0x0f, and_0x0f]
    omega
  have hlo : ((((BitVec.ofNat 32 m) &&& 0x0f).setWidth 8) &&& 0x0f : Byte).toNat = m % 16 := by
    rw [BitVec.toNat_and, BitVec.toNat_setWidth, BitVec.toNat_and, BitVec.toNat_ofNat]
    show (m % 2 ^ 32 &&& 15) % 2 ^ 8 &&& 15 = m % 16
    rw [and_0x0f, and_0x0f]
    omega
  rw [BitVec.ofInt_natCast, hhi, hlo, shiftLeft_or (by omega)]
  omega

/-- A speed from its two parts. -/
theorem speed_eq {v : Int} (h : 0 ≤ v ∧ v ≤ 2047) :
    ((((viconEncodeSpeed v >>> 7 &&& 0x0f).setWidth 8 &&& 0x0f : Byte).toNat <<< 7 |||
      ((viconEncodeSpeed v &&& 0x7f).setWidth 8 &&& 0x7f : Byte).toNat : Nat) : Int) = v := by
  obtain ⟨m, rfl⟩ := Int.eq_ofNat_of_zero_le h.1
  have hm : m < 2048 := by omega
  have hspeed : (viconEncodeSpeed m).toNat = m := by
    rw [viconEncodeSpeed, BitVec.ofInt_natCast, BitVec.toNat_and, BitVec.toNat_ofNat]
    show m % 2 ^ 32 &&& 2 ^ 11 - 1 = m
    rw [Nat.and_two_pow_sub_one_eq_mod]
    omega
  have hhi : ((viconEncodeSpeed m >>> 7 &&& 0x0f).setWidth 8 &&& 0x0f : Byte).toNat = m / 128 := by
    rw [BitVec.toNat_and, BitVec.toNat_setWidth, BitVec.toNat_and, BitVec.toNat_ushiftRight, hspeed,
      Nat.shiftRight_eq_div_pow]
    show (m / 2 ^ 7 &&& 15) % 2 ^ 8 &&& 15 = m / 128
    rw [and_0x0f, and_0x0f]
    omega
  have hlo : ((viconEncodeSpeed m &&& 0x7f).setWidth 8 &&& 0x7f : Byte).toNat = m % 128 := by
    rw [BitVec.toNat_and, BitVec.toNat_setWidth, BitVec.toNat_and, hspeed]
    show (m &&& 127) % 2 ^ 8 &&& 127 = m % 128
    rw [and_0x7f, and_0x7f]
    omega
  rw [hhi, hlo, shiftLeft_or (by omega)]
  omega

/-- The low bits of a byte, as a number. -/
theorem low_mod {i n : Nat} {v : Int} (hn : n ≤ 8)
    (hbits : ∀ j, j < n → bitIsSet mess (8 * i + j) = (BitVec.ofInt 32 v).getLsbD j) :
    (((mess.getD i 0 &&& BitVec.ofNat 8 (2 ^ n - 1)).toNat : Nat) : Int) = v % 2 ^ n := by
  have hle : 2 ^ n ≤ 2 ^ 8 := Nat.pow_le_pow_right (by decide) hn
  have hmask : (2 ^ n - 1) % 2 ^ 8 = 2 ^ n - 1 := Nat.mod_eq_of_lt (by omega)
  have hlow : (mess.getD i 0).toNat % 2 ^ n = (BitVec.ofInt 32 v).toNat % 2 ^ n := by
    refine Nat.eq_of_testBit_eq fun j => ?_
    rw [Nat.testBit_mod_two_pow, Nat.testBit_mod_two_pow]
    by_cases hj : j < n
    · have hbit := hbits j hj
      have hdiv : (8 * i + j) / 8 = i := by omega
      have hmod : (8 * i + j) % 8 = j := by omega
      rw [bitIsSet, hdiv, hmod] at hbit
      exact congrArg _ hbit
    · rw [decide_eq_false hj, Bool.false_and, Bool.false_and]
  have hdvd : (2 ^ n : Int) ∣ 2 ^ 32 := pow_dvd_pow 2 (by omega)
  rw [BitVec.toNat_and, BitVec.toNat_ofNat, hmask, Nat.and_two_pow_sub_one_eq_mod, hlow, Int.natCast_emod,
    BitVec.toNat_ofInt, Int.toNat_of_nonneg (Int.emod_nonneg _ (by decide))]
  exact_mod_cast Int.emod_emod_of_dvd v hdvd

/-- A number from its low bits. -/
theorem low_eq {i n : Nat} {v : Int} (hn : n ≤ 8) (h : 0 ≤ v ∧ v < 2 ^ n)
    (hbits : ∀ j, j < n → bitIsSet mess (8 * i + j) = (BitVec.ofInt 32 v).getLsbD j) :
    (((mess.getD i 0 &&& BitVec.ofNat 8 (2 ^ n - 1)).toNat : Nat) : Int) = v := by
  rw [low_mod hn hbits, Int.emod_eq_of_lt h.1 h.2]

/-! ## Encoding -/

/-- The bits of `encode_pan_tilt`. -/
def panTiltBits (pkt : Ccpacket) : List (Nat × Bool) :=
  [(bitTiltUp, ccpacketHasTilt pkt && Field.tilt.get pkt.flags == ccTiltUp),
    (bitTiltDown, ccpacketHasTilt pkt && Field.tilt.get pkt.flags == ccTiltDown),
    (bitPanLeft, ccpacketHasPan pkt && Field.pan.get pkt.flags == ccPanLeft),
    (bitPanRight, ccpacketHasPan pkt && Field.pan.get pkt.flags == ccPanRight)]

/-- The bits of `encode_toggles` and `encode_aux`. -/
def toggleBits (pkt : Ccpacket) : List (Nat × Bool) :=
  [(bitAux6, Field.wiper.get pkt.flags == ccWiperOn),
    (bitLensSpeed, Field.lens.get pkt.flags == ccLensSpeed),
    (bitAutoPan, Field.pan.get pkt.flags == ccPanAuto),
    (bitAutoIris, Field.iris.get pkt.flags == ccIrisAuto),
    (bitAckAlarm, Field.ack.get pkt.flags == ccAckAlarm)]

/-- The bits of `encode_lens`. -/
def lensTable (pkt : Ccpacket) : List (Nat × Bool) :=
  Pelco.zoomMoves pkt ++ (Pelco.focusMoves lensBits pkt ++ Pelco.irisMoves lensBits pkt)

theorem lensBits_inCommand : lensBits.InCommand where
  focusNear := by decide
  focusFar := by decide
  irisOpen := by decide
  irisClose := by decide

/-- What every message has in its first bytes, but for pan and tilt. -/
def encodeFields (mess : List Byte) (pkt : Ccpacket) : List Byte :=
  encodeAux (encodeToggles (encodeLens mess pkt) pkt) pkt

section Encoding

variable {k i : Nat}

theorem length_encodePanTilt : (encodePanTilt mess pkt).length = mess.length := by
  simp only [encodePanTilt, apply_ite List.length, length_bitSet, ite_self]

theorem length_encodeFields : (encodeFields mess pkt).length = mess.length := by
  simp only [encodeFields, encodeAux, encodeToggles, encodeLens, apply_ite List.length, length_bitSet,
    ite_self]

/-- One of two directions, if there is a speed. -/
theorem bitIsSet_direction {b : Bool} {x m m' : CcFlags} {bit bit' : Nat} (hne : m ≠ m')
    (h : bit / 8 < mess.length) (h' : bit' / 8 < mess.length) (k : Nat) :
    bitIsSet (if b then if x = m then bitSet mess bit else if x = m' then bitSet mess bit' else mess
        else mess) k = (tableBit [(bit, b && x == m), (bit', b && x == m')] k || bitIsSet mess k) := by
  cases b with
  | true => exact bitIsSet_two hne h h' k
  | false => simp [tableBit_pair]

theorem bitIsSet_encodePanTilt (hlen : 3 ≤ mess.length) :
    bitIsSet (encodePanTilt mess pkt) k = (tableBit (panTiltBits pkt) k || bitIsSet mess k) := by
  have hlen' : 3 ≤ (if ccpacketHasPan pkt then
      if ccpacketGetPanMode pkt = ccPanLeft then bitSet mess bitPanLeft
      else if ccpacketGetPanMode pkt = ccPanRight then bitSet mess bitPanRight else mess
      else mess).length := by
    simpa only [apply_ite List.length, length_bitSet, ite_self] using hlen
  refine (bitIsSet_direction (by decide) hlen' hlen' k).trans ?_
  refine (congrArg _ (bitIsSet_direction (by decide) hlen hlen k)).trans ?_
  rw [← Bool.or_assoc, ← tableBit_append]
  rfl

theorem bitIsSet_encodeFields (hlen : 5 ≤ mess.length) : bitIsSet (encodeFields mess pkt) k =
    (tableBit (toggleBits pkt ++ lensTable pkt) k || bitIsSet mess k) := by
  have hlens : bitIsSet (encodeLens mess pkt) k = (tableBit (lensTable pkt) k || bitIsSet mess k) := by
    refine (Pelco.bitIsSet_encodeLens lensBits_inCommand (by omega)).trans ?_
    rw [lensTable, tableBit_append, tableBit_append, Bool.or_assoc, Bool.or_assoc]
  have hlen' : ∀ {c : Prop} [Decidable c] {mess : List Byte} {bit : Nat}, 5 ≤ mess.length →
      5 ≤ (if c then bitSet mess bit else mess).length := by
    intro c _ mess bit h
    simpa only [apply_ite List.length, length_bitSet, ite_self] using h
  have hlt : ∀ {mess : List Byte} {bit : Nat}, 5 ≤ mess.length → bit < 40 → bit / 8 < mess.length := by
    omega
  have hlens' : 5 ≤ (encodeLens mess pkt).length := by
    simpa only [encodeLens, apply_ite List.length, length_bitSet, ite_self] using hlen
  unfold encodeFields encodeAux encodeToggles
  rw [bitIsSet_flag (hlt (hlen' (hlen' (hlen' (hlen' hlens')))) (by decide)),
    bitIsSet_flag (hlt (hlen' (hlen' (hlen' hlens'))) (by decide)),
    bitIsSet_flag (hlt (hlen' (hlen' hlens')) (by decide)),
    bitIsSet_flag (hlt (hlen' hlens') (by decide)), bitIsSet_flag (hlt hlens' (by decide)), hlens]
  simp only [← Bool.or_assoc, ← tableBit_append]
  rfl

theorem bitIsSet_orByte {value : Int} {mask : BitVec 32} (h : i < mess.length) :
    bitIsSet (orByte mess i value mask) k =
      (decide (k / 8 = i) && (BitVec.ofInt 32 value &&& mask).getLsbD (k % 8) || bitIsSet mess k) := by
  unfold orByte
  by_cases hk : k / 8 = i
  · subst hk
    have hlt := Nat.mod_lt k (show 8 > 0 by decide)
    unfold bitIsSet
    rw [getD_modify_self h, BitVec.getLsbD_or, BitVec.getLsbD_setWidth, decide_eq_true rfl,
      decide_eq_true hlt, Bool.true_and, Bool.or_comm]
  · rw [bitIsSet_modify_of_ne (Ne.symm hk), decide_eq_false hk, Bool.false_and, Bool.false_or]

/-- Setting many bits. -/
theorem bitIsSet_foldl_bitSet : ∀ (sets : List Nat) {mess : List Byte},
    (∀ bit ∈ sets, bit / 8 < mess.length) →
      bitIsSet (sets.foldl bitSet mess) k = (decide (k ∈ sets) || bitIsSet mess k)
  | [], _, _ => by simp
  | bit :: sets, mess, h => by
    have hlen : ∀ b ∈ sets, b / 8 < (bitSet mess bit).length := fun b hb => by
      rw [length_bitSet]
      exact h b (List.mem_cons_of_mem bit hb)
    rw [List.foldl_cons, bitIsSet_foldl_bitSet sets hlen, bitIsSet_bitSet (h bit List.mem_cons_self)]
    simp only [List.mem_cons, Bool.decide_or, Bool.or_assoc, Bool.or_left_comm]

theorem length_foldl_bitSet : ∀ (sets : List Nat) (mess : List Byte),
    (sets.foldl bitSet mess).length = mess.length
  | [], _ => rfl
  | bit :: sets, mess => (length_foldl_bitSet sets _).trans (length_bitSet mess bit)

/-! ### What the three messages have in common -/

/-- A message of `n` bytes with its receiver. -/
def header (n : Nat) (pkt : Ccpacket) : List Byte := encodeReceiver (List.replicate n 0) pkt

theorem length_header (n : Nat) (pkt : Ccpacket) : (header n pkt).length = n := by
  simp [header, encodeReceiver]

theorem getD_header {n : Nat} (h : 2 ≤ n) :
    (header n pkt).getD 0 0 = flag ||| ((BitVec.ofInt 32 pkt.receiver).sshiftRight 4 &&& 0x0f).setWidth 8 ∧
      (header n pkt).getD 1 0 = (BitVec.ofInt 32 pkt.receiver &&& 0x0f).setWidth 8 := by
  unfold header encodeReceiver
  refine ⟨?_, ?_⟩
  · rw [getD_set_of_ne (by decide), getD_set_self (by rw [List.length_replicate]; omega)]
  · rw [getD_set_self (by rw [List.length_set, List.length_replicate]; omega)]

/-- The header sets no bits after the receiver. -/
theorem bitIsSet_header {n : Nat} (h : 2 ≤ n) (hk : 12 ≤ k) : bitIsSet (header n pkt) k = false := by
  by_cases h1 : k / 8 = 1
  · unfold bitIsSet
    rw [h1, (getD_header h).2, BitVec.getLsbD_setWidth, BitVec.getLsbD_and]
    have hmask : (0x0f : BitVec 32).getLsbD (k % 8) = false := by
      have h4 : 4 ≤ k % 8 := by omega
      generalize k % 8 = j at h4
      have hpow : (0x0f : BitVec 32).toNat < 2 ^ j :=
        Nat.lt_of_lt_of_le (by decide) (Nat.pow_le_pow_right (by decide) h4)
      exact Nat.testBit_lt_two_pow hpow
    rw [hmask, Bool.and_false, Bool.and_false]
  · unfold header encodeReceiver
    rw [bitIsSet_set_of_ne (by omega), bitIsSet_set_of_ne (by omega), bitIsSet,
      List.getD_eq_getElem?_getD, List.getElem?_replicate]
    split <;> exact BitVec.getLsbD_zero

/-- The bits for the fields of a packet. -/
def fieldsTable (pkt : Ccpacket) : List (Nat × Bool) :=
  toggleBits pkt ++ lensTable pkt ++ panTiltBits pkt

theorem fieldsTable_keys (pkt : Ccpacket) : (fieldsTable pkt).map Prod.fst =
    [33, 24, 18, 17, 13, 29, 30, 27, 28, 26, 25, 20, 19, 22, 21] := rfl

/-- A message with its header, the bits `sets` and the fields. -/
def base (n : Nat) (sets : List Nat) (pkt : Ccpacket) : List Byte :=
  encodeFields (encodePanTilt (sets.foldl bitSet (header n pkt)) pkt) pkt

theorem length_base (n : Nat) (sets : List Nat) (pkt : Ccpacket) : (base n sets pkt).length = n := by
  rw [base, length_encodeFields, length_encodePanTilt, length_foldl_bitSet, length_header]

theorem bitIsSet_base {n : Nat} {sets : List Nat} (hn : 6 ≤ n) (hsets : ∀ bit ∈ sets, bit / 8 < n) :
    bitIsSet (base n sets pkt) k =
      (tableBit (fieldsTable pkt) k || (decide (k ∈ sets) || bitIsSet (header n pkt) k)) := by
  have hlen : (sets.foldl bitSet (header n pkt)).length = n :=
    (length_foldl_bitSet sets _).trans (length_header n pkt)
  rw [base, bitIsSet_encodeFields (by rw [length_encodePanTilt, hlen]; omega),
    bitIsSet_encodePanTilt (by rw [hlen]; omega),
    bitIsSet_foldl_bitSet sets (by rw [length_header]; exact hsets), fieldsTable,
    tableBit_append (toggleBits pkt ++ lensTable pkt), Bool.or_assoc]

end Encoding

/-! ## Packets that fit in one message -/

/-- The packets that come back as they were sent. -/
structure Carried (pkt : Ccpacket) : Prop where
  receiver : 1 ≤ pkt.receiver ∧ pkt.receiver ≤ 255
  menu : ccpacketGetMenu pkt = 0
  camera : ccpacketGetCamera pkt = 0
  wiper : ccpacketGetWiper pkt = 0 ∨ ccpacketGetWiper pkt = ccWiperOn
  focus : ccpacketGetFocus pkt ≠ ccFocusAuto
  pan : (ccpacketGetPanMode pkt = ccPanLeft ∨ ccpacketGetPanMode pkt = ccPanRight) ∧
      1 ≤ pkt.pan ∧ pkt.pan ≤ 2047 ∨
    (ccpacketGetPanMode pkt = ccPanLeft ∨ ccpacketGetPanMode pkt = ccPanAuto) ∧ pkt.pan = 0
  tilt : (ccpacketGetTiltMode pkt = ccTiltUp ∨ ccpacketGetTiltMode pkt = ccTiltDown) ∧
      1 ≤ pkt.tilt ∧ pkt.tilt ≤ 2047 ∨ ccpacketGetTiltMode pkt = ccTiltDown ∧ pkt.tilt = 0
  preset : ccpacketGetPresetMode pkt = 0 ∧ pkt.preset = 0 ∨
    (ccpacketGetPresetMode pkt = ccPresetRecall ∨ ccpacketGetPresetMode pkt = ccPresetStore) ∧
      (1 ≤ pkt.preset ∧ pkt.preset ≤ 127) ∧
      ¬(ccpacketGetPresetMode pkt = ccPresetStore ∧ 77 ≤ pkt.preset ∧ pkt.preset ≤ 79) ∧
      pkt.pan = 0 ∧ pkt.tilt = 0

/-- What the first five bytes of a message say of a packet. -/
structure Carries (mess : List Byte) (pkt : Ccpacket) : Prop where
  flagged : bitIsSet mess 7 = true
  command : isCommand mess = true
  receiver : (((mess.getD 0 0 &&& 0x0f).toNat <<< 4 ||| (mess.getD 1 0 &&& 0x0f).toNat : Nat) : Int) =
    pkt.receiver
  agrees : Agrees mess (fieldsTable pkt)

/-- Bytes with the same low bits. -/
theorem and_0x0f_ext {mess' : List Byte} (i : Nat)
    (h : ∀ j, j < 4 → bitIsSet mess (8 * i + j) = bitIsSet mess' (8 * i + j)) :
    mess.getD i 0 &&& 0x0f = mess'.getD i 0 &&& 0x0f := by
  refine BitVec.eq_of_getLsbD_eq fun j hj => ?_
  rw [BitVec.getLsbD_and, BitVec.getLsbD_and]
  by_cases h4 : j < 4
  · have hbit := h j h4
    have hdiv : (8 * i + j) / 8 = i := by omega
    have hmod : (8 * i + j) % 8 = j := by omega
    unfold bitIsSet at hbit
    rw [hdiv, hmod] at hbit
    rw [hbit]
  · have hmask : (0x0f : Byte).getLsbD j = false := by
      have hpow : (0x0f : Byte).toNat < 2 ^ j :=
        Nat.lt_of_lt_of_le (by decide) (Nat.pow_le_pow_right (by decide) (Nat.le_of_not_lt h4))
      exact Nat.testBit_lt_two_pow hpow
    rw [hmask, Bool.and_false, Bool.and_false]

/-- The bits that a message may set besides those of the fields. -/
def Framing (n : Nat) (sets : List Nat) : Prop :=
  12 ∈ sets ∧ ∀ bit ∈ sets, bit / 8 < n ∧ (bit = 12 ∨ bit = 14 ∨ bit = 48 ∨ bit = 52)

section Base

variable {n k : Nat} {sets : List Nat}

theorem bitIsSet_base_of_not_mem (hn : 6 ≤ n) (hsets : Framing n sets)
    (hkeys : k ∉ (fieldsTable pkt).map Prod.fst) (hk : k ∉ sets) :
    bitIsSet (base n sets pkt) k = bitIsSet (header n pkt) k := by
  rw [bitIsSet_base hn fun bit hbit => (hsets.2 bit hbit).1, tableBit_of_not_mem hkeys,
    decide_eq_false hk, Bool.false_or, Bool.false_or]

/-- A bit that nothing has set. -/
theorem bitIsSet_base_clear (hn : 6 ≤ n) (hsets : Framing n sets) (h12 : 12 ≤ k)
    (hkeys : k ∉ (fieldsTable pkt).map Prod.fst) (hk : k ∉ sets) :
    bitIsSet (base n sets pkt) k = false :=
  (bitIsSet_base_of_not_mem hn hsets hkeys hk).trans (bitIsSet_header (by omega) h12)

/-- What begins as a base does carries the packet. -/
theorem carries_base (hn : 6 ≤ n) (hsets : Framing n sets)
    (hr : 1 ≤ pkt.receiver ∧ pkt.receiver ≤ 255)
    (hlow : ∀ k, k < 40 → bitIsSet mess k = bitIsSet (base n sets pkt) k) : Carries mess pkt := by
  have hkeys : ∀ key ∈ (fieldsTable pkt).map Prod.fst, 13 ≤ key ∧ key < 40 ∧ key ≠ 14 := by
    rw [fieldsTable_keys]
    decide
  have hstart : ∀ k, k < 12 → bitIsSet mess k = bitIsSet (header n pkt) k := by
    intro k hk
    rw [hlow k (by omega), bitIsSet_base_of_not_mem hn hsets]
    · intro hmem
      have := hkeys k hmem
      omega
    · intro hmem
      have := (hsets.2 k hmem).2
      omega
  obtain ⟨hbyte0, hbyte1⟩ := @getD_header pkt n (by omega)
  have hfirst : mess.getD 0 0 = (header n pkt).getD 0 0 := getD_ext 0 fun k hk => hstart _ (by omega)
  refine ⟨?_, ?_, ?_, ?_⟩
  · rw [bitIsSet, hfirst, hbyte0, BitVec.getLsbD_or]
    exact Bool.true_or _
  · rw [isCommand, hlow bitCommand (by decide), bitIsSet_base hn fun bit hbit => (hsets.2 bit hbit).1,
      decide_eq_true (show bitCommand ∈ sets from hsets.1), Bool.true_or, Bool.or_true]
  · rw [hfirst, and_0x0f_ext 1 fun j hj => hstart _ (by omega), hbyte0, hbyte1]
    exact receiver_eq hr
  · intro e he
    obtain ⟨h13, h40, h14⟩ := hkeys e.1 (List.mem_map_of_mem he)
    have hnot : e.1 ∉ sets := fun hmem => by
      have := (hsets.2 e.1 hmem).2
      omega
    rw [hlow e.1 h40, bitIsSet_base hn fun bit hbit => (hsets.2 bit hbit).1,
      tableBit_of_mem (by rw [fieldsTable_keys]; decide) he, decide_eq_false hnot,
      bitIsSet_header (by omega) (by omega), Bool.or_false, Bool.or_false]

end Base

/-! ## What a carried packet decodes to -/

section Carried

/-- The direction bits are those of the packet, if it has a speed. -/
theorem Carried.hasPan (h : Carried pkt) :
    ccpacketHasPan pkt = (decide (0 < pkt.pan)) := by
  unfold ccpacketHasPan
  rcases h.pan with ⟨hmode, hspeed⟩ | ⟨-, hspeed⟩
  · rw [decide_eq_true (by omega), Bool.and_eq_true]
    refine ⟨?_, bne_iff_ne.mpr (by omega)⟩
    rcases hmode with hmode | hmode <;> rw [hmode] <;> rfl
  · rw [hspeed]
    exact Bool.and_false _

theorem Carried.hasTilt (h : Carried pkt) :
    ccpacketHasTilt pkt = (decide (0 < pkt.tilt)) := by
  unfold ccpacketHasTilt
  rcases h.tilt with ⟨hmode, hspeed⟩ | ⟨-, hspeed⟩
  · rw [decide_eq_true (by omega), Bool.and_eq_true]
    refine ⟨?_, bne_iff_ne.mpr (by omega)⟩
    rcases hmode with hmode | hmode <;> rw [hmode] <;> rfl
  · rw [hspeed]
    exact Bool.and_false _

/-- **The fields of a carried packet**, but for the preset. -/
theorem fieldOf_eq (hmess : Carries mess pkt) (h : Carried pkt) {x : Field} (hx : x ≠ .preset) :
    fieldOf mess x = x.get pkt.flags := by
  have hbit := hmess.agrees
  simp only [Agrees, fieldsTable, toggleBits, lensTable, Pelco.zoomMoves, Pelco.focusMoves,
    Pelco.irisMoves, panTiltBits, List.cons_append, List.nil_append, List.forall_mem_cons] at hbit
  obtain ⟨hwiper, hlens, hautoPan, hautoIris, hack, hzoomIn, hzoomOut, hnear, hfar, hopen, hclose,
    hup, hdown, hleft, hright, -⟩ := hbit
  cases x with
  | pan =>
    simp only [fieldOf]
    rw [hautoPan, hright, h.hasPan]
    rcases h.pan with ⟨hmode | hmode, hspeed⟩ | ⟨hmode | hmode, hspeed⟩
    · rw [show Field.pan.get pkt.flags = ccPanLeft from hmode, decide_eq_true (by omega)]
      rfl
    · rw [show Field.pan.get pkt.flags = ccPanRight from hmode, decide_eq_true (by omega)]
      rfl
    · rw [show Field.pan.get pkt.flags = ccPanLeft from hmode, hspeed]
      rfl
    · rw [show Field.pan.get pkt.flags = ccPanAuto from hmode]
      rfl
  | tilt =>
    simp only [fieldOf]
    rw [hup, h.hasTilt]
    rcases h.tilt with ⟨hmode | hmode, hspeed⟩ | ⟨hmode, hspeed⟩
    · rw [show Field.tilt.get pkt.flags = ccTiltUp from hmode, decide_eq_true (by omega)]
      rfl
    · rw [show Field.tilt.get pkt.flags = ccTiltDown from hmode, decide_eq_true (by omega)]
      rfl
    · rw [show Field.tilt.get pkt.flags = ccTiltDown from hmode, hspeed]
      rfl
  | preset => exact absurd rfl hx
  | menu => exact h.menu.symm
  | camera => exact h.camera.symm
  | ack =>
    simp only [fieldOf]
    rw [hack]
    rcases Field.get_mem .ack pkt.flags with hv | hv
    · rw [hv]
      rfl
    · rw [List.mem_singleton.mp hv]
      rfl
  | zoom =>
    simp only [fieldOf]
    rw [show bitIsSet mess bitZoomIn = _ from hzoomIn, show bitIsSet mess bitZoomOut = _ from hzoomOut]
    rcases Field.get_mem .zoom pkt.flags with hv | hv
    · rw [hv]
      rfl
    · rcases List.mem_pair.mp hv with hv | hv <;> rw [hv] <;> rfl
  | focus =>
    simp only [fieldOf]
    rw [show bitIsSet mess bitFocusNear = _ from hnear, show bitIsSet mess bitFocusFar = _ from hfar]
    have hauto : Field.focus.get pkt.flags ≠ ccFocusAuto := h.focus
    have hmem := Field.get_mem .focus pkt.flags
    simp only [Field.members, List.mem_cons, List.not_mem_nil, or_false, hauto] at hmem
    rcases hmem with hv | hv | hv <;> rw [hv] <;> rfl
  | iris =>
    simp only [fieldOf]
    rw [hautoIris, show bitIsSet mess bitIrisOpen = _ from hopen,
      show bitIsSet mess bitIrisClose = _ from hclose]
    have hmem := Field.get_mem .iris pkt.flags
    simp only [Field.members, List.mem_cons, List.not_mem_nil, or_false] at hmem
    rcases hmem with hv | hv | hv | hv <;> rw [hv] <;> rfl
  | lens =>
    simp only [fieldOf]
    rw [hlens]
    rcases Field.get_mem .lens pkt.flags with hv | hv
    · rw [hv]
      rfl
    · rw [List.mem_singleton.mp hv]
      rfl
  | wiper =>
    simp only [fieldOf]
    rw [hwiper]
    rcases h.wiper with hv | hv <;> rw [show Field.wiper.get pkt.flags = _ from hv] <;> rfl

/-- The preset of `pkt` in `q`. -/
def withPreset (pkt q : Ccpacket) : Ccpacket :=
  if ccpacketGetPresetMode pkt = 0 then q
  else ccpacketSetPreset q (ccpacketGetPresetMode pkt) pkt.preset

/-- Taking over the preset. -/
theorem withPreset_eq (h : Carried pkt) (q : Ccpacket) :
    withPreset pkt q = if ccpacketGetPresetMode pkt = 0 then q
      else { Field.preset.update q (ccpacketGetPresetMode pkt) with preset := pkt.preset } := by
  unfold withPreset
  split
  · rfl
  · rename_i hne
    rcases h.preset with ⟨hmode, -⟩ | ⟨hmode, hnum, hmenu, -⟩
    · exact absurd hmode hne
    · refine ccpacketSetPreset_eq q _ _ hmenu (by omega) ?_
      rcases hmode with hmode | hmode <;> rw [hmode] <;> decide

/-- The packet that comes back. -/
def delivered (pkt blank : Ccpacket) (mess : List Byte) : Ccpacket :=
  { withPreset pkt (decodeFields blank mess) with pan := pkt.pan, tilt := pkt.tilt }

variable {blank : Ccpacket}

theorem receiver_decodeFields (hmess : Carries mess pkt) :
    (decodeFields blank mess).receiver = pkt.receiver :=
  ((keepsProper_decodeFields mess).receiver (decodeReceiver blank mess)).trans hmess.receiver

theorem preset_decodeFields (mess : List Byte) : (decodeFields blank mess).preset = blank.preset :=
  (keepsProper_decodeFields mess).preset (decodeReceiver blank mess)

theorem sameFields_delivered (hmess : Carries mess pkt) (h : Carried pkt) (hflags : blank.flags = 0)
    (hpreset : blank.preset = 0) : SameFields pkt (delivered pkt blank mess) := by
  have hget : ∀ x, x ≠ Field.preset → x.get (decodeFields blank mess).flags = x.get pkt.flags :=
    fun x hx => (get_decodeFields hflags x).trans (fieldOf_eq hmess h hx)
  rw [delivered, withPreset_eq h]
  split
  · rename_i hmode
    refine ⟨receiver_decodeFields hmess, rfl, rfl, ?_, ?_, hget⟩
    · rcases h.preset with ⟨-, hnum⟩ | ⟨hne, -⟩
      · exact (preset_decodeFields mess).trans (hpreset.trans hnum.symm)
      · rw [hmode] at hne
        rcases hne with hne | hne <;> cases hne
    · rw [hmode]
      exact if_pos (le_of_eq ((preset_decodeFields mess).trans hpreset))
  · rename_i hmode
    rcases h.preset with ⟨hzero, -⟩ | ⟨hmem, hnum, -⟩
    · exact absurd hzero hmode
    refine ⟨receiver_decodeFields hmess, rfl, rfl, rfl, ?_, fun x hx => ?_⟩
    · have hself : ccpacketGetPresetMode pkt ∈ Field.preset.members := by
        rcases hmem with hm | hm <;> rw [hm] <;> decide
      refine (if_neg (show ¬pkt.preset ≤ 0 by omega)).trans ?_
      refine (Field.get_update .preset .preset (decodeFields blank mess) _).trans ?_
      rw [if_pos rfl, Field.get_of_mem hself]
    · refine (Field.get_update x .preset (decodeFields blank mess) _).trans ?_
      rw [if_neg hx, hget x hx]

theorem wellFormed_delivered (hmess : Carries mess pkt) (h : Carried pkt) (hflags : blank.flags = 0)
    (hpreset : blank.preset = 0) : WellFormed (delivered pkt blank mess) := by
  have hproper : Proper (decodeFields blank mess).flags :=
    (keepsProper_decodeFields mess).proper (decodeReceiver blank mess) (hflags ▸ proper_zero)
  have hsame := sameFields_delivered hmess h hflags hpreset
  rw [delivered, withPreset_eq h] at hsame ⊢
  split at hsame
  · rename_i hmode
    rw [if_pos hmode]
    exact ⟨hproper, fun _ => get_decodeFields hflags .preset⟩
  · rename_i hmode
    rw [if_neg hmode]
    refine ⟨hproper.set .preset _, fun hle => ?_⟩
    rcases h.preset with ⟨hzero, -⟩ | ⟨-, hnum, -⟩
    · exact absurd hzero hmode
    · have : pkt.preset ≤ 0 := hle
      omega

end Carried

/-! ## The three messages -/

section Messages

variable {n k : Nat} {sets : List Nat}

/-- The bits of a request. -/
def requestSets (pkt : Ccpacket) : List Nat :=
  if ccpacketGetPresetMode pkt = ccPresetStore then [bitCommand, bitExtended, bitExRequest, bitExStore]
  else [bitCommand, bitExtended, bitExRequest]

/-- The message of `encode_command`. -/
def commandMess (pkt : Ccpacket) : List Byte := encodePreset (base sizeCommand [bitCommand] pkt) pkt

/-- The message of `encode_extended_speed`. -/
def speedMess (pkt : Ccpacket) : List Byte :=
  encodeSpeeds (encodePreset (base sizeExtended [bitCommand, bitExtended] pkt) pkt) pkt

/-- The message of `encode_extended_preset`, if no speed is set. -/
def requestMess (pkt : Ccpacket) : List Byte :=
  orByte (orByte (orByte (base sizeExtended (requestSets pkt) pkt) 7 pkt.preset 0x7f) 8 pkt.pan 0x7f) 9
    pkt.tilt 0x7f

/-- The message that is written. -/
def message (pkt : Ccpacket) : List Byte :=
  if isExtendedPreset pkt then requestMess pkt
  else if isExtendedSpeed pkt then speedMess pkt else commandMess pkt

/-- What the reader needs of a message to make `pkt` of it. -/
structure Codes (mess : List Byte) (pkt : Ccpacket) : Prop extends Carries mess pkt where
  size : mess.length = messageSize mess
  unflagged : ∀ i, 0 < i → i < mess.length → bitIsSet mess (8 * i + 7) = false
  decode : ∀ flags blank, decode flags mess blank = delivered pkt blank mess

theorem Carried.isExtendedPreset (h : Carried pkt) :
    isExtendedPreset pkt = (ccpacketGetPresetMode pkt != 0 && decide (pkt.preset > 15)) := by
  unfold Vicon.isExtendedPreset
  rcases h.preset with ⟨hmode, -⟩ | ⟨hmode, -, -, hpan, htilt⟩
  · rw [hmode]
    rfl
  · rw [hpan, htilt]
    rcases hmode with hmode | hmode <;> rw [hmode] <;> simp [ccPresetRecall, ccPresetStore]

/-- The bit of every byte but the first that tells them from it. -/
theorem bitIsSet_base_flag {i : Nat} (hn : 6 ≤ n) (hsets : Framing n sets) (hi : 0 < i) :
    bitIsSet (base n sets pkt) (8 * i + 7) = false := by
  refine bitIsSet_base_clear hn hsets (by omega) ?_ ?_
  · intro hmem
    have hkeys : ∀ key ∈ (fieldsTable pkt).map Prod.fst, key % 8 ≠ 7 := by
      rw [fieldsTable_keys]
      decide
    exact hkeys _ hmem (by omega)
  · intro hmem
    have := (hsets.2 _ hmem).2
    omega

theorem length_encodePreset : (encodePreset mess pkt).length = mess.length := by
  simp only [encodePreset, orByte, List.length_modify, apply_ite List.length, length_bitSet, ite_self]

/-- The bits for a preset. -/
def presetBits (pkt : Ccpacket) : List (Nat × Bool) :=
  [(bitRecall, ccpacketGetPresetMode pkt == ccPresetRecall),
    (bitStore, ccpacketGetPresetMode pkt == ccPresetStore)]

theorem presetBits_keys (pkt : Ccpacket) : ((presetBits pkt).map Prod.fst).Nodup ∧
    ∀ key ∈ (presetBits pkt).map Prod.fst, 45 ≤ key ∧ key < 47 := by
  have hkeys : (presetBits pkt).map Prod.fst = [bitRecall, bitStore] := rfl
  rw [hkeys]
  decide

theorem bitIsSet_encodePreset (hlen : 6 ≤ mess.length) : bitIsSet (encodePreset mess pkt) k =
    (decide (k / 8 = 5) && (BitVec.ofInt 32 pkt.preset &&& 0x0f).getLsbD (k % 8) ||
      (tableBit (presetBits pkt) k || bitIsSet mess k)) := by
  have hlt : bitRecall / 8 < mess.length ∧ bitStore / 8 < mess.length := ⟨hlen, hlen⟩
  refine (bitIsSet_orByte ?_).trans (congrArg _ (bitIsSet_two (by decide) hlt.1 hlt.2 k))
  simp only [apply_ite List.length, length_bitSet, ite_self]
  omega

/-- Before the preset a message is as it was. -/
theorem bitIsSet_encodePreset_low (hlen : 6 ≤ mess.length) (hk : k < 40) :
    bitIsSet (encodePreset mess pkt) k = bitIsSet mess k := by
  rw [bitIsSet_encodePreset hlen, decide_eq_false (by omega), tableBit_of_not_mem, Bool.false_and,
    Bool.false_or, Bool.false_or]
  intro hmem
  have := (presetBits_keys pkt).2 k hmem
  omega

/-- The low bits of a masked number. -/
theorem getLsbD_mask {v : Int} {j n : Nat} (hn : n ≤ 8) (hj : j < n) :
    (BitVec.ofInt 32 v &&& BitVec.ofNat 32 (2 ^ n - 1)).getLsbD j = (BitVec.ofInt 32 v).getLsbD j := by
  rw [BitVec.getLsbD_and, BitVec.getLsbD_ofNat, Nat.testBit_two_pow_sub_one, decide_eq_true hj,
    decide_eq_true (show j < 32 by omega), Bool.true_and, Bool.and_true]

theorem getLsbD_mask_high {v : Int} {j n : Nat} (hj : n ≤ j) :
    (BitVec.ofInt 32 v &&& BitVec.ofNat 32 (2 ^ n - 1)).getLsbD j = false := by
  rw [BitVec.getLsbD_and, BitVec.getLsbD_ofNat, Nat.testBit_two_pow_sub_one,
    decide_eq_false (Nat.not_lt.mpr hj), Bool.and_false, Bool.and_false]

/-- What the reader finds of a preset that `encode_preset` has written. -/
structure HasPreset (mess : List Byte) (pkt : Ccpacket) : Prop where
  agrees : Agrees mess (presetBits pkt)
  number : ∀ j, j < 4 → bitIsSet mess (8 * 5 + j) = (BitVec.ofInt 32 pkt.preset).getLsbD j

theorem hasPreset_encodePreset (hn : 6 ≤ n) (hsets : Framing n sets) :
    HasPreset (encodePreset (base n sets pkt) pkt) pkt := by
  have hlen : 6 ≤ (base n sets pkt).length := hn.trans_eq (length_base n sets pkt).symm
  have hkeys : ∀ key ∈ (fieldsTable pkt).map Prod.fst, key < 40 := by
    rw [fieldsTable_keys]
    decide
  have hbase : ∀ k, 40 ≤ k → k < 48 → bitIsSet (base n sets pkt) k = false := by
    intro k h40 h48
    refine bitIsSet_base_clear hn hsets (by omega) ?_ ?_
    · intro hmem
      have := hkeys k hmem
      omega
    · intro hmem
      have := (hsets.2 k hmem).2
      omega
  refine ⟨fun e he => ?_, fun j hj => ?_⟩
  · obtain ⟨hnodup, hkeys⟩ := presetBits_keys pkt
    have hkey := hkeys e.1 (List.mem_map_of_mem he)
    have hmask : (BitVec.ofInt 32 pkt.preset &&& 0x0f).getLsbD (e.1 % 8) = false :=
      @getLsbD_mask_high pkt.preset (e.1 % 8) 4 (by omega)
    rw [bitIsSet_encodePreset hlen, tableBit_of_mem hnodup he, hbase _ (by omega) (by omega), hmask,
      Bool.and_false, Bool.false_or, Bool.or_false]
  · have hdiv : (8 * 5 + j) / 8 = 5 := by omega
    have hmod : (8 * 5 + j) % 8 = j := by omega
    have hmask : (BitVec.ofInt 32 pkt.preset &&& 0x0f).getLsbD j = (BitVec.ofInt 32 pkt.preset).getLsbD j :=
      @getLsbD_mask pkt.preset j 4 (by decide) hj
    have hnot : 8 * 5 + j ∉ (presetBits pkt).map Prod.fst := fun hmem => by
      have := (presetBits_keys pkt).2 _ hmem
      omega
    rw [bitIsSet_encodePreset hlen, hdiv, hmod, hbase _ (by omega) (by omega), tableBit_of_not_mem hnot,
      hmask, decide_eq_true rfl, Bool.true_and, Bool.or_false, Bool.or_false]

/-- **Decoding it**, if four bits are enough for the number. -/
theorem HasPreset.decode (hmess : HasPreset mess pkt)
    (hsmall : ccpacketGetPresetMode pkt = ccPresetRecall ∨ ccpacketGetPresetMode pkt = ccPresetStore →
      0 ≤ pkt.preset ∧ pkt.preset ≤ 15) (q : Ccpacket) :
    decodePreset q mess = if ccpacketGetPresetMode pkt = ccPresetRecall ∨
        ccpacketGetPresetMode pkt = ccPresetStore
      then ccpacketSetPreset q (ccpacketGetPresetMode pkt) pkt.preset else q := by
  have hrecall := hmess.agrees (bitRecall, _) List.mem_cons_self
  have hstore := hmess.agrees (bitStore, _) (List.mem_cons_of_mem _ List.mem_cons_self)
  unfold decodePreset
  simp only [hrecall, hstore]
  by_cases hmode : ccpacketGetPresetMode pkt = ccPresetRecall ∨
      ccpacketGetPresetMode pkt = ccPresetStore
  · obtain ⟨hpos, hle⟩ := hsmall hmode
    have hvalue : (((mess.getD 5 0 &&& 0x0f).toNat : Nat) : Int) = pkt.preset :=
      @low_eq mess 5 4 pkt.preset (by decide) ⟨hpos, by norm_num; omega⟩ hmess.number
    rw [hvalue, if_pos hmode]
    rcases hmode with hmode | hmode <;> rw [hmode] <;> rfl
  · obtain ⟨hnoRecall, hnoStore⟩ := not_or.mp hmode
    rw [if_neg hmode, beq_eq_false_iff_ne.mpr hnoRecall, beq_eq_false_iff_ne.mpr hnoStore]
    rfl

theorem decodePreset_eq (h : Carried pkt) (hext : ¬Vicon.isExtendedPreset pkt = true)
    (hmess : HasPreset mess pkt) (q : Ccpacket) : decodePreset q mess = withPreset pkt q := by
  rw [h.isExtendedPreset] at hext
  unfold withPreset
  rcases h.preset with ⟨hmode, -⟩ | ⟨hmode, hnum, -⟩
  · rw [hmess.decode fun hsome => absurd (hmode ▸ hsome) (by decide), hmode]
    rfl
  · have hsmall : 0 ≤ pkt.preset ∧ pkt.preset ≤ 15 := by
      refine ⟨by omega, ?_⟩
      by_contra hlarge
      refine hext ?_
      rw [decide_eq_true (by omega), Bool.and_true]
      rcases hmode with hmode | hmode <;> rw [hmode] <;> rfl
    rw [hmess.decode fun _ => hsmall, if_pos hmode]
    rcases hmode with hmode | hmode <;> rw [hmode] <;> rfl

/-- Bits outside of fields, preset and `sets`. -/
theorem bitIsSet_encodePreset_base_flag {i : Nat} (hn : 6 ≤ n) (hsets : Framing n sets) (hi : 0 < i) :
    bitIsSet (encodePreset (base n sets pkt) pkt) (8 * i + 7) = false := by
  have hmask : (BitVec.ofInt 32 pkt.preset &&& 0x0f).getLsbD ((8 * i + 7) % 8) = false :=
    @getLsbD_mask_high pkt.preset ((8 * i + 7) % 8) 4 (by omega)
  have hnot : 8 * i + 7 ∉ (presetBits pkt).map Prod.fst := fun hmem => by
    have := (presetBits_keys pkt).2 _ hmem
    omega
  rw [bitIsSet_encodePreset (hn.trans_eq (length_base n sets pkt).symm), hmask,
    tableBit_of_not_mem hnot, bitIsSet_base_flag hn hsets hi, Bool.and_false, Bool.false_or,
    Bool.false_or]

theorem withPreset_speeds (h : Carried pkt) (q : Ccpacket) :
    (withPreset pkt q).pan = q.pan ∧ (withPreset pkt q).tilt = q.tilt := by
  rw [withPreset_eq h]
  split <;> exact ⟨rfl, rfl⟩

/-- Bit 14 tells the extended messages. -/
theorem messageSize_eq (hcmd : isCommand mess = true) :
    messageSize mess = if bitIsSet mess bitExtended then sizeExtended else sizeCommand := by
  unfold messageSize isExtendedCommand
  rw [show bitIsSet mess bitCommand = true from hcmd, hcmd, Bool.true_and]
  rfl

theorem framing_command : Framing sizeCommand [bitCommand] := ⟨by decide, by decide⟩

theorem length_commandMess (pkt : Ccpacket) : (commandMess pkt).length = sizeCommand :=
  length_encodePreset.trans (length_base _ _ pkt)

theorem bitIsSet_commandMess_low (hk : k < 40) :
    bitIsSet (commandMess pkt) k = bitIsSet (base sizeCommand [bitCommand] pkt) k :=
  bitIsSet_encodePreset_low (le_of_eq (length_base _ _ pkt).symm) hk

theorem carries_commandMess (hr : 1 ≤ pkt.receiver ∧ pkt.receiver ≤ 255) :
    Carries (commandMess pkt) pkt :=
  carries_base le_rfl framing_command hr fun _ hk => bitIsSet_commandMess_low hk

theorem plain_commandMess (pkt : Ccpacket) : bitIsSet (commandMess pkt) bitExtended = false := by
  rw [bitIsSet_commandMess_low (by decide)]
  exact bitIsSet_base_clear le_rfl framing_command (by decide) (by rw [fieldsTable_keys]; decide)
    (by decide)

theorem hasPreset_commandMess (pkt : Ccpacket) : HasPreset (commandMess pkt) pkt :=
  hasPreset_encodePreset le_rfl framing_command

/-- A message that is not extended. -/
theorem decode_plain (hplain : bitIsSet mess bitExtended = false) (flags : BitVec 32)
    (blank : Ccpacket) : decode flags mess blank = decodePreset (decodeFields blank mess) mess := by
  unfold decode isExtendedCommand
  rw [hplain, Bool.and_false]
  rfl

theorem codes_commandMess (h : Carried pkt) (hext : ¬Vicon.isExtendedPreset pkt = true)
    (hspeed : ¬Vicon.isExtendedSpeed pkt = true) : Codes (commandMess pkt) pkt := by
  have hcarries := carries_commandMess h.receiver
  have hplain := plain_commandMess pkt
  refine ⟨hcarries, ?_, fun i hi _ => bitIsSet_encodePreset_base_flag le_rfl framing_command hi, ?_⟩
  · rw [messageSize_eq hcarries.command, hplain]
    exact length_commandMess pkt
  · intro flags blank
    have hnone : ccpacketHasPan pkt = false ∧ ccpacketHasTilt pkt = false := by
      simp only [Vicon.isExtendedSpeed, Bool.or_eq_true, not_or, Bool.not_eq_true] at hspeed
      exact hspeed.1
    obtain ⟨hnoPan, hnoTilt⟩ := hnone
    have hzero : pkt.pan = 0 ∧ pkt.tilt = 0 := by
      rw [h.hasPan, decide_eq_false_iff_not] at hnoPan
      rw [h.hasTilt, decide_eq_false_iff_not] at hnoTilt
      have hp := h.pan
      have ht := h.tilt
      omega
    have hbit := hcarries.agrees
    simp only [fieldsTable, Agrees, panTiltBits, hnoPan, hnoTilt, Bool.false_and, List.mem_append,
      or_imp, forall_and, List.forall_mem_cons] at hbit
    obtain ⟨-, hup, hdown, hleft, hright, -⟩ := hbit
    obtain ⟨hpan, htilt⟩ := @speeds_decodeFields (commandMess pkt) blank
    rw [hright, hleft] at hpan
    rw [hup, hdown] at htilt
    have hpan : (decodeFields blank (commandMess pkt)).pan = pkt.pan := by
      rw [hpan, hzero.1]
      split <;> rfl
    have htilt : (decodeFields blank (commandMess pkt)).tilt = pkt.tilt := by
      rw [htilt, hzero.2]
      rfl
    obtain ⟨hkeepPan, hkeepTilt⟩ := withPreset_speeds h (decodeFields blank (commandMess pkt))
    rw [decode_plain hplain, decodePreset_eq h hext (hasPreset_commandMess pkt), delivered, ← hpan,
      ← htilt, ← hkeepPan, ← hkeepTilt]

/-- The four bytes of the speeds. -/
theorem encodeSpeeds_spec (hlen : mess.length = sizeExtended) :
    (encodeSpeeds mess pkt).length = sizeExtended ∧
      (∀ k, k < 48 → bitIsSet (encodeSpeeds mess pkt) k = bitIsSet mess k) ∧
      (encodeSpeeds mess pkt).getD 6 0 = (viconEncodeSpeed pkt.pan >>> 7 &&& 0x0f).setWidth 8 ∧
      (encodeSpeeds mess pkt).getD 7 0 = (viconEncodeSpeed pkt.pan &&& 0x7f).setWidth 8 ∧
      (encodeSpeeds mess pkt).getD 8 0 = (viconEncodeSpeed pkt.tilt >>> 7 &&& 0x0f).setWidth 8 ∧
      (encodeSpeeds mess pkt).getD 9 0 = (viconEncodeSpeed pkt.tilt &&& 0x7f).setWidth 8 := by
  have hlen : mess.length = 10 := hlen
  unfold encodeSpeeds
  refine ⟨?_, fun k hk => ?_, ?_, ?_, ?_, ?_⟩
  · simp only [List.length_set]
    exact hlen
  · rw [bitIsSet_set_of_ne (by omega), bitIsSet_set_of_ne (by omega), bitIsSet_set_of_ne (by omega),
      bitIsSet_set_of_ne (by omega)]
  · simp [hlen]
  · simp [hlen]
  · simp [hlen]
  · simp [hlen]

/-- A masked byte has no bits above its mask. -/
theorem getLsbD_masked {v : BitVec 32} {j n : Nat} (hj : n ≤ j) :
    ((v &&& BitVec.ofNat 32 (2 ^ n - 1)).setWidth 8).getLsbD j = false := by
  rw [BitVec.getLsbD_setWidth, BitVec.getLsbD_and, BitVec.getLsbD_ofNat, Nat.testBit_two_pow_sub_one,
    decide_eq_false (Nat.not_lt.mpr hj), Bool.and_false, Bool.and_false, Bool.and_false]

theorem framing_speed : Framing sizeExtended [bitCommand, bitExtended] := ⟨by decide, by decide⟩

theorem speedMess_spec (pkt : Ccpacket) : (speedMess pkt).length = sizeExtended ∧
    (∀ k, k < 48 → bitIsSet (speedMess pkt) k =
      bitIsSet (encodePreset (base sizeExtended [bitCommand, bitExtended] pkt) pkt) k) ∧
    (speedMess pkt).getD 6 0 = (viconEncodeSpeed pkt.pan >>> 7 &&& 0x0f).setWidth 8 ∧
    (speedMess pkt).getD 7 0 = (viconEncodeSpeed pkt.pan &&& 0x7f).setWidth 8 ∧
    (speedMess pkt).getD 8 0 = (viconEncodeSpeed pkt.tilt >>> 7 &&& 0x0f).setWidth 8 ∧
    (speedMess pkt).getD 9 0 = (viconEncodeSpeed pkt.tilt &&& 0x7f).setWidth 8 :=
  encodeSpeeds_spec (length_encodePreset.trans (length_base _ _ pkt))

theorem bitIsSet_speedMess_low (hk : k < 40) :
    bitIsSet (speedMess pkt) k = bitIsSet (base sizeExtended [bitCommand, bitExtended] pkt) k := by
  rw [(speedMess_spec pkt).2.1 k (by omega)]
  exact bitIsSet_encodePreset_low (Nat.le_trans (by decide) (length_base _ _ pkt).ge) hk

theorem carries_speedMess (hr : 1 ≤ pkt.receiver ∧ pkt.receiver ≤ 255) : Carries (speedMess pkt) pkt :=
  carries_base (by decide) framing_speed hr fun _ hk => bitIsSet_speedMess_low hk

theorem extended_speedMess (pkt : Ccpacket) : bitIsSet (speedMess pkt) bitExtended = true := by
  rw [bitIsSet_speedMess_low (by decide),
    bitIsSet_base (by decide) fun bit hbit => (framing_speed.2 bit hbit).1]
  exact Bool.or_true _

theorem hasPreset_speedMess (pkt : Ccpacket) : HasPreset (speedMess pkt) pkt := by
  obtain ⟨hagrees, hnumber⟩ := @hasPreset_encodePreset pkt _ _ (by decide) framing_speed
  obtain ⟨-, hlow, -⟩ := speedMess_spec pkt
  refine ⟨fun e he => ?_, fun j hj => (hlow _ (by omega)).trans (hnumber j hj)⟩
  have hkey := (presetBits_keys pkt).2 e.1 (List.mem_map_of_mem he)
  exact (hlow e.1 (by omega)).trans (hagrees e he)

/-- An extended message that is no request. -/
theorem decode_speed (hcommand : isCommand mess = true) (hextended : bitIsSet mess bitExtended = true)
    (hrequest : bitIsSet mess bitExRequest = false) (flags : BitVec 32) (blank : Ccpacket) :
    decode flags mess blank = decodeExSpeed (decodePreset (decodeFields blank mess) mess) mess := by
  unfold Vicon.decode isExtendedCommand decodeExtended
  rw [hextended, show bitIsSet mess bitCommand = true from hcommand, hrequest]
  rfl

theorem decode_speedMess (hr : 1 ≤ pkt.receiver ∧ pkt.receiver ≤ 255) (flags : BitVec 32)
    (blank : Ccpacket) : decode flags (speedMess pkt) blank =
      decodeExSpeed (decodePreset (decodeFields blank (speedMess pkt)) (speedMess pkt))
        (speedMess pkt) := by
  obtain ⟨-, -, h6, -⟩ := speedMess_spec pkt
  refine decode_speed (carries_speedMess hr).command (extended_speedMess pkt) ?_ flags blank
  show ((speedMess pkt).getD 6 0).getLsbD 4 = false
  rw [h6]
  exact @getLsbD_masked _ 4 4 (by decide)

theorem codes_speedMess (h : Carried pkt) (hext : ¬Vicon.isExtendedPreset pkt = true) :
    Codes (speedMess pkt) pkt := by
  obtain ⟨hlen, hlow, h6, h7, h8, h9⟩ := speedMess_spec pkt
  have hcarries := carries_speedMess h.receiver
  refine ⟨hcarries, ?_, fun i hi hi10 => ?_, fun flags blank => ?_⟩
  · rw [messageSize_eq hcarries.command, extended_speedMess]
    exact hlen
  · by_cases h48 : i < 6
    · exact (hlow _ (by omega)).trans (bitIsSet_encodePreset_base_flag (by decide) framing_speed hi)
    · have hdiv : (8 * i + 7) / 8 = i := by omega
      have hmod : (8 * i + 7) % 8 = 7 := by omega
      have hi10 : i < 10 := hi10.trans_eq hlen
      unfold bitIsSet
      rw [hdiv, hmod]
      obtain rfl | rfl | rfl | rfl : i = 6 ∨ i = 7 ∨ i = 8 ∨ i = 9 := by omega
      · rw [h6]
        exact @getLsbD_masked _ 7 4 (by decide)
      · rw [h7]
        exact @getLsbD_masked _ 7 7 (by decide)
      · rw [h8]
        exact @getLsbD_masked _ 7 4 (by decide)
      · rw [h9]
        exact @getLsbD_masked _ 7 7 (by decide)
  · have hpan : 0 ≤ pkt.pan ∧ pkt.pan ≤ 2047 := by
      have := h.pan
      omega
    have htilt : 0 ≤ pkt.tilt ∧ pkt.tilt ≤ 2047 := by
      have := h.tilt
      omega
    have hclamp : clampSpeed pkt.pan = pkt.pan := clampSpeed_of_range hpan
    rw [decode_speedMess h.receiver, decodePreset_eq h hext (hasPreset_speedMess pkt)]
    unfold decodeExSpeed
    rw [h6, h7, h8, h9]
    simp only [speed_eq hpan, speed_eq htilt, ccpacketSetTiltSpeed, ccpacketSetPanSpeed, hclamp]
    rfl

/-- Above its mask nothing is added to a byte. -/
theorem bitIsSet_orByte_of_ne {i n : Nat} {value : Int} (h : i < mess.length)
    (hk : k / 8 ≠ i ∨ n ≤ k % 8) :
    bitIsSet (orByte mess i value (BitVec.ofNat 32 (2 ^ n - 1))) k = bitIsSet mess k := by
  rw [bitIsSet_orByte h]
  rcases hk with hk | hk
  · rw [decide_eq_false hk, Bool.false_and, Bool.false_or]
  · rw [getLsbD_mask_high hk, Bool.and_false, Bool.false_or]

theorem length_orByte {i : Nat} {value : Int} {mask : BitVec 32} :
    (orByte mess i value mask).length = mess.length := List.length_modify _ _ _

theorem bitIsSet_orByte_self {i j n : Nat} {value : Int} (hn : n ≤ 8) (h : i < mess.length) (hj : j < n)
    (hclear : bitIsSet mess (8 * i + j) = false) :
    bitIsSet (orByte mess i value (BitVec.ofNat 32 (2 ^ n - 1))) (8 * i + j) =
      (BitVec.ofInt 32 value).getLsbD j := by
  have hdiv : (8 * i + j) / 8 = i := by omega
  have hmod : (8 * i + j) % 8 = j := by omega
  rw [bitIsSet_orByte h, hdiv, hmod, getLsbD_mask hn hj, decide_eq_true rfl, Bool.true_and, hclear,
    Bool.or_false]

theorem framing_requestSets (pkt : Ccpacket) : Framing sizeExtended (requestSets pkt) := by
  unfold requestSets
  split <;> exact ⟨by decide, by decide⟩

/-- The three numbers of a request. -/
def withNumbers (mess : List Byte) (preset pan tilt : Int) : List Byte :=
  orByte (orByte (orByte mess 7 preset 0x7f) 8 pan 0x7f) 9 tilt 0x7f

section Numbers

variable {preset pan tilt : Int}

theorem length_withNumbers : (withNumbers mess preset pan tilt).length = mess.length := by
  rw [withNumbers, length_orByte, length_orByte, length_orByte]

/-- The bits of a request, but for its numbers. -/
theorem bitIsSet_withNumbers (hlen : mess.length = sizeExtended) (hk : k / 8 < 7 ∨ k % 8 = 7) :
    bitIsSet (withNumbers mess preset pan tilt) k = bitIsSet mess k := by
  have hlen : mess.length = 10 := hlen
  refine (@bitIsSet_orByte_of_ne _ k 9 7 tilt ?_ (by omega)).trans
    ((@bitIsSet_orByte_of_ne _ k 8 7 pan ?_ (by omega)).trans
      (@bitIsSet_orByte_of_ne _ k 7 7 preset ?_ (by omega)))
  · rw [length_orByte, length_orByte, hlen]
    decide
  · rw [length_orByte, hlen]
    decide
  · rw [hlen]
    decide

/-- The numbers are sent in seven bits. -/
theorem numbers_withNumbers (hlen : mess.length = sizeExtended)
    (hzero : ∀ i j, 7 ≤ i → bitIsSet mess (8 * i + j) = false) :
    ((((withNumbers mess preset pan tilt).getD 7 0 &&& 0x7f).toNat : Nat) : Int) = preset % 128 ∧
      ((((withNumbers mess preset pan tilt).getD 8 0 &&& 0x7f).toNat : Nat) : Int) = pan % 128 ∧
      ((((withNumbers mess preset pan tilt).getD 9 0 &&& 0x7f).toNat : Nat) : Int) = tilt % 128 := by
  have hlen : mess.length = 10 := hlen
  have h7 : 7 < mess.length := by omega
  have h8 : 8 < (orByte mess 7 preset 0x7f).length := by
    rw [length_orByte]
    omega
  have h9 : 9 < (orByte (orByte mess 7 preset 0x7f) 8 pan 0x7f).length := by
    rw [length_orByte, length_orByte]
    omega
  refine ⟨?_, ?_, ?_⟩
  · refine @low_mod _ 7 7 preset (by decide) fun j hj => ?_
    refine (@bitIsSet_orByte_of_ne _ _ 9 7 tilt h9 (by omega)).trans
      ((@bitIsSet_orByte_of_ne _ _ 8 7 pan h8 (by omega)).trans ?_)
    exact @bitIsSet_orByte_self _ 7 j 7 preset (by decide) h7 hj (hzero 7 j le_rfl)
  · refine @low_mod _ 8 7 pan (by decide) fun j hj => ?_
    refine (@bitIsSet_orByte_of_ne _ _ 9 7 tilt h9 (by omega)).trans ?_
    refine @bitIsSet_orByte_self _ 8 j 7 pan (by decide) h8 hj ?_
    exact (@bitIsSet_orByte_of_ne _ _ 7 7 preset h7 (by omega)).trans (hzero 8 j (by decide))
  · refine @low_mod _ 9 7 tilt (by decide) fun j hj => ?_
    refine @bitIsSet_orByte_self _ 9 j 7 tilt (by decide) h9 hj ?_
    exact (@bitIsSet_orByte_of_ne _ _ 8 7 pan h8 (by omega)).trans
      ((@bitIsSet_orByte_of_ne _ _ 7 7 preset h7 (by omega)).trans (hzero 9 j (by decide)))

end Numbers

theorem bitIsSet_base_high {i j : Nat} (hi : 7 ≤ i) :
    bitIsSet (base sizeExtended (requestSets pkt) pkt) (8 * i + j) = false := by
  refine bitIsSet_base_clear (by decide) (framing_requestSets pkt) (by omega) ?_ ?_
  · intro hmem
    have hkeys : ∀ key ∈ (fieldsTable pkt).map Prod.fst, key < 40 := by
      rw [fieldsTable_keys]
      decide
    have := hkeys _ hmem
    omega
  · intro hmem
    have := ((framing_requestSets pkt).2 _ hmem).2
    omega

/-- A message that asks for the preset of `pkt`, by seven bits of its number. -/
structure Requests (mess : List Byte) (pkt : Ccpacket) (pan tilt : Int) : Prop
    extends Carries mess pkt where
  size : mess.length = sizeExtended
  unflagged : ∀ i, 0 < i → bitIsSet mess (8 * i + 7) = false
  extended : bitIsSet mess bitExtended = true
  request : bitIsSet mess bitExRequest = true
  plain : bitIsSet mess bitRecall = false ∧ bitIsSet mess bitStore = false ∧
    bitIsSet mess bitExStatus = false
  store : bitIsSet mess bitExStore = (ccpacketGetPresetMode pkt == ccPresetStore)
  numbers : (((mess.getD 7 0 &&& 0x7f).toNat : Nat) : Int) = pkt.preset % 128 ∧
    (((mess.getD 8 0 &&& 0x7f).toNat : Nat) : Int) = pan % 128 ∧
    (((mess.getD 9 0 &&& 0x7f).toNat : Nat) : Int) = tilt % 128

theorem requests_withNumbers (hr : 1 ≤ pkt.receiver ∧ pkt.receiver ≤ 255) (pan tilt : Int) :
    Requests (withNumbers (base sizeExtended (requestSets pkt) pkt) pkt.preset pan tilt) pkt pan
      tilt := by
  have hn : 6 ≤ sizeExtended := by decide
  have hsets := framing_requestSets pkt
  have hlen : (base sizeExtended (requestSets pkt) pkt).length = sizeExtended := length_base _ _ pkt
  have hbit : ∀ {k}, k / 8 < 7 ∨ k % 8 = 7 →
      bitIsSet (withNumbers (base sizeExtended (requestSets pkt) pkt) pkt.preset pan tilt) k =
        bitIsSet (base sizeExtended (requestSets pkt) pkt) k := bitIsSet_withNumbers hlen
  have hset : ∀ {k}, k / 8 < 7 → k ∈ requestSets pkt →
      bitIsSet (withNumbers (base sizeExtended (requestSets pkt) pkt) pkt.preset pan tilt) k =
        true := by
    intro k hk hmem
    rw [hbit (Or.inl hk), bitIsSet_base hn fun bit hbit => (hsets.2 bit hbit).1, decide_eq_true hmem,
      Bool.true_or, Bool.or_true]
  have hclear : ∀ {k}, 40 ≤ k → k / 8 < 7 → k ∉ requestSets pkt →
      bitIsSet (withNumbers (base sizeExtended (requestSets pkt) pkt) pkt.preset pan tilt) k =
        false := by
    intro k h40 hk hmem
    refine (hbit (Or.inl hk)).trans (bitIsSet_base_clear hn hsets (by omega) (fun hkey => ?_) hmem)
    have hkeys : ∀ key ∈ (fieldsTable pkt).map Prod.fst, key < 40 := by
      rw [fieldsTable_keys]
      decide
    have := hkeys k hkey
    omega
  have hmem : bitExtended ∈ requestSets pkt ∧ bitExRequest ∈ requestSets pkt ∧
      bitRecall ∉ requestSets pkt ∧ bitStore ∉ requestSets pkt ∧ bitExStatus ∉ requestSets pkt ∧
      (bitExStore ∈ requestSets pkt ↔ ccpacketGetPresetMode pkt = ccPresetStore) := by
    unfold requestSets
    split
    · rename_i hstore
      rw [hstore]
      decide
    · rename_i hstore
      refine ⟨by decide, by decide, by decide, by decide, by decide, iff_of_false (by decide) hstore⟩
  obtain ⟨hextended, hrequest, hrecall, hstored, hstatus, hstore⟩ := hmem
  refine ⟨carries_base hn hsets hr fun k hk => hbit (by omega), length_withNumbers.trans hlen,
    fun i hi => ?_, hset (by decide) hextended, hset (by decide) hrequest,
    ⟨hclear (by decide) (by decide) hrecall, hclear (by decide) (by decide) hstored,
      hclear (by decide) (by decide) hstatus⟩, ?_, numbers_withNumbers hlen fun i j hi =>
        bitIsSet_base_high hi⟩
  · rw [hbit (Or.inr (by omega))]
    exact bitIsSet_base_flag hn hsets hi
  · by_cases hmode : ccpacketGetPresetMode pkt = ccPresetStore
    · rw [hset (by decide) (hstore.mpr hmode), hmode]
      rfl
    · rw [hclear (by decide) (by decide) (fun hmem => hmode (hstore.mp hmem)),
        beq_eq_false_iff_ne.mpr hmode]

/-- **Decoding a request**: the preset that seven bits give, and the speeds as they are. -/
theorem Requests.decode {pan tilt : Int} (h : Requests mess pkt pan tilt)
    (hmode : ccpacketGetPresetMode pkt = ccPresetRecall ∨ ccpacketGetPresetMode pkt = ccPresetStore)
    (flags : BitVec 32) (blank : Ccpacket) : decode flags mess blank =
      ccpacketSetTiltSpeed (ccpacketSetPanSpeed (ccpacketSetPreset (decodeFields blank mess)
        (ccpacketGetPresetMode pkt) (pkt.preset % 128)) (pan % 128)) (tilt % 128) := by
  obtain ⟨hrecall, hstored, hstatus⟩ := h.plain
  obtain ⟨hpreset, hpan, htilt⟩ := h.numbers
  have hfields : decodeCommand blank mess = decodeFields blank mess := by
    show decodePreset (decodeFields blank mess) mess = _
    unfold decodePreset
    rw [hrecall, hstored]
    rfl
  have hdecode : Vicon.decode flags mess blank = decodeExPreset (decodeFields blank mess) mess := by
    unfold Vicon.decode isExtendedCommand decodeExtended
    rw [h.extended, show bitIsSet mess bitCommand = true from h.command, h.request, hstatus, hfields]
    rfl
  rw [hdecode]
  unfold decodeExPreset
  simp only [hpreset, hpan, htilt, h.store]
  rcases hmode with hmode | hmode <;> rw [hmode] <;> rfl

theorem codes_requestMess (h : Carried pkt) (hext : Vicon.isExtendedPreset pkt = true) :
    Codes (requestMess pkt) pkt := by
  obtain ⟨hmode, hnum, hpan, htilt⟩ : (ccpacketGetPresetMode pkt = ccPresetRecall ∨
      ccpacketGetPresetMode pkt = ccPresetStore) ∧ (1 ≤ pkt.preset ∧ pkt.preset ≤ 127) ∧
      pkt.pan = 0 ∧ pkt.tilt = 0 := by
    rcases h.preset with ⟨hzero, -⟩ | ⟨hmode, hnum, -, hspeeds⟩
    · rw [h.isExtendedPreset, hzero] at hext
      cases hext
    · exact ⟨hmode, hnum, hspeeds⟩
  have hrequests : Requests (requestMess pkt) pkt pkt.pan pkt.tilt :=
    requests_withNumbers h.receiver pkt.pan pkt.tilt
  refine ⟨hrequests.toCarries, ?_, fun i hi _ => hrequests.unflagged i hi, fun flags blank => ?_⟩
  · rw [messageSize_eq hrequests.command, hrequests.extended]
    exact hrequests.size
  · rw [hrequests.decode hmode, Int.emod_eq_of_lt (by omega) (by omega), hpan, htilt]
    unfold delivered withPreset
    rw [hpan, htilt]
    rcases hmode with hmode | hmode <;> rw [hmode] <;> rfl

/-- The packet without its speeds. -/
def atRest (pkt : Ccpacket) : Ccpacket := { pkt with pan := 0, tilt := 0 }

theorem atRest_of_zero (hpan : pkt.pan = 0) (htilt : pkt.tilt = 0) : atRest pkt = pkt := by
  obtain ⟨receiver, flags, pan, tilt, preset, e⟩ := pkt
  obtain rfl : pan = 0 := hpan
  obtain rfl : tilt = 0 := htilt
  rfl

/-- The message of `encode_extended_preset`: it has the speeds, but no directions. -/
def presetMess (pkt : Ccpacket) : List Byte :=
  withNumbers (base sizeExtended (requestSets pkt) (atRest pkt)) pkt.preset pkt.pan pkt.tilt

theorem encodePanTilt_atRest (mess : List Byte) (pkt : Ccpacket) :
    encodePanTilt mess (atRest pkt) = mess := by
  have hnone : ccpacketHasPan (atRest pkt) = false ∧ ccpacketHasTilt (atRest pkt) = false :=
    ⟨Bool.and_false _, Bool.and_false _⟩
  unfold encodePanTilt
  rw [hnone.1, hnone.2]
  rfl

theorem encodeExtendedPreset_eq (txbuf : Buffer) (pkt : Ccpacket) :
    encodeExtendedPreset txbuf pkt = ccwriterAppend txbuf (presetMess pkt) := by
  unfold presetMess base requestSets
  rw [encodePanTilt_atRest]
  unfold encodeExtendedPreset
  split <;> rfl

theorem requests_presetMess (hr : 1 ≤ pkt.receiver ∧ pkt.receiver ≤ 255) :
    Requests (presetMess pkt) (atRest pkt) pkt.pan pkt.tilt :=
  @requests_withNumbers (atRest pkt) hr pkt.pan pkt.tilt

/-- The message of a packet without a menu command. -/
def written (pkt : Ccpacket) : List Byte :=
  if isExtendedPreset pkt then presetMess pkt
  else if isExtendedSpeed pkt then speedMess pkt else commandMess pkt

/-- **Writing** a packet without a menu command: one message, the packet as it was. -/
theorem doWrite_eq (hr : 1 ≤ pkt.receiver ∧ pkt.receiver ≤ 255) (hmenu : ccpacketGetMenu pkt = 0)
    (txbuf : Buffer) : doWrite txbuf pkt = (ccwriterAppend txbuf (written pkt), pkt, 1) := by
  have hadjust : adjustMenuCommands pkt = pkt := by
    unfold adjustMenuCommands
    rw [hmenu]
    rfl
  unfold doWrite
  rw [if_neg (by simp only [maxAddress]; omega), hadjust]
  simp only [written]
  by_cases hext : isExtendedPreset pkt = true
  · rw [if_pos hext, if_pos hext, encodeExtendedPreset_eq]
  · rw [if_neg hext, if_neg hext]
    split <;> rfl

theorem Carried.written (h : Carried pkt) : Vicon.written pkt = message pkt := by
  unfold Vicon.written message
  by_cases hext : Vicon.isExtendedPreset pkt = true
  · have hrest : atRest pkt = pkt := by
      rcases h.preset with ⟨hmode, -⟩ | ⟨-, -, -, hpan, htilt⟩
      · rw [h.isExtendedPreset, hmode] at hext
        cases hext
      · exact atRest_of_zero hpan htilt
    rw [if_pos hext, if_pos hext, presetMess, hrest]
    rfl
  · rw [if_neg hext, if_neg hext]

/-- **Writing a carried packet**: one message, the packet as it was. -/
theorem Carried.doWrite (h : Carried pkt) (txbuf : Buffer) :
    doWrite txbuf pkt = (ccwriterAppend txbuf (message pkt), pkt, 1) := by
  rw [doWrite_eq h.receiver h.menu, h.written]

/-- **The message of a carried packet** is decoded to it. -/
theorem codes_message (h : Carried pkt) : Codes (message pkt) pkt := by
  unfold message
  split
  · exact codes_requestMess h (by assumption)
  · rename_i hext
    split
    · exact codes_speedMess h hext
    · exact codes_commandMess h hext (by assumption)

end Messages

/-! ## There and back -/

/-- A whole message is one frame. -/
theorem judge_whole (hflagged : bitIsSet mess 7 = true) (hlen : mess.length = messageSize mess) :
    frames.judge mess = .frame mess.length := by
  have hsize := sizeStatus_le_messageSize mess
  have hflag : ¬mess.getD 0 0 &&& flag = 0 := by
    rw [and_flag]
    exact fun hno => Bool.false_ne_true (hno.symm.trans hflagged)
  show judge mess = _
  unfold judge
  rw [if_neg (by rw [hlen]; omega), if_neg hflag, if_neg (by rw [hlen]; omega), hlen]

/-- Alone in a stream, too. -/
theorem frames_whole (hflagged : bitIsSet mess 7 = true) (hlen : mess.length = messageSize mess) :
    frames.frames mess = [mess] := frames_single (judge_whole hflagged hlen) (judge_short (by decide))

theorem frames_message (h : Carried pkt) : frames.frames (message pkt) = [message pkt] :=
  frames_whole (codes_message h).flagged (codes_message h).size

/-- **Vicon there and back**: of a carried packet one message is written, in which only the first
byte has the flag, and a reader makes of it one packet, the packet that was written. -/
theorem comes_back (h : Carried pkt) (now : Timeval) (timeout : Nat) (flags : BitVec 32)
    {rxbuf : Buffer} (hdata : rxbuf.data = (doWrite (bufferInit bufferSize) pkt).1.data) :
    (∃ mess, (doWrite (bufferInit bufferSize) pkt).1.data = mess ∧ frames.frames mess = [mess] ∧
      ∀ i, i < mess.length → (mess.getD i 0 &&& flag ≠ 0 ↔ i = 0)) ∧
    ∃ pkt', readBack doRead now timeout flags rxbuf = some [pkt'] ∧ SameFields pkt pkt' ∧
      (WellFormed pkt → pkt' = { pkt with expire := pkt'.expire }) := by
  have hcodes := codes_message h
  have hroom : (message pkt).length ≤ bufferSize := by
    rw [hcodes.size]
    exact (messageSize_le _).trans (by decide)
  have hwrite : (doWrite (bufferInit bufferSize) pkt).1.data = message pkt := by
    rw [h.doWrite]
    exact (@ccwriterAppend_of_le (bufferInit bufferSize) (message pkt) hroom).1
  refine ⟨⟨message pkt, hwrite, frames_message h, fun i hi => ?_⟩, ?_⟩
  · rw [Ne, and_flag]
    rcases Nat.eq_zero_or_pos i with rfl | hpos
    · exact iff_of_true (fun hno => Bool.false_ne_true (hno.symm.trans hcodes.flagged)) rfl
    · have hbit := hcodes.unflagged i hpos hi
      have hdiv : (8 * i + 7) / 8 = i := by omega
      have hmod : (8 * i + 7) % 8 = 7 := by omega
      unfold bitIsSet at hbit
      rw [hdiv, hmod] at hbit
      exact iff_of_false (fun hno => hno hbit) (by omega)
  · have hdecode := hcodes.decode flags (oneWriter now timeout flags).packet
    have hsame := sameFields_delivered hcodes.toCarries h
      (show (oneWriter now timeout flags).packet.flags = 0 from rfl) rfl
    have hwell := wellFormed_delivered hcodes.toCarries h
      (show (oneWriter now timeout flags).packet.flags = 0 from rfl) rfl
    have hreach : InReach (decode flags (message pkt) (oneWriter now timeout flags).packet) := by
      rw [hdecode, InReach, hsame.receiver]
      have := h.receiver
      omega
    refine ⟨_, readBack_single (doRead_reads _) (fun _ x => if_pos hcodes.command)
      (by rw [hdata, hwrite]; exact frames_message h) hreach, ?_⟩
    rw [hdecode]
    set q := delivered pkt (oneWriter now timeout flags).packet (message pkt)
    have hsame' : SameFields pkt (ccpacketSetTimeout now q timeout) :=
      ⟨hsame.receiver, hsame.pan, hsame.tilt, hsame.preset, hsame.presetMode, hsame.get⟩
    exact ⟨hsame', fun hpkt => hsame'.eq hpkt ⟨hwell.proper, hwell.preset⟩⟩

/-- Receiver 18: recall preset 20, with auto iris and the wiper on. -/
def recall20 : Ccpacket :=
  ccpacketSetPreset (ccpacketSetWiper (ccpacketSetIris (ccpacketSetTilt (ccpacketSetPan
    (ccpacketSetReceiver (ccpacketCreate ⟨0, 0⟩) 18) ccPanAuto 0) ccTiltDown 0) ccIrisAuto) ccWiperOn)
    ccPresetRecall 20

theorem carried_recall20 : Carried recall20 where
  receiver := by decide
  menu := by decide
  camera := by decide
  wiper := by decide
  focus := by decide
  pan := by decide
  tilt := by decide
  preset := by decide

/-- A packet that comes back, from a request. -/
theorem comes_back_recall20 :
    (∃ mess, (doWrite (bufferInit bufferSize) recall20).1.data = mess ∧ frames.frames mess = [mess] ∧
      ∀ i, i < mess.length → (mess.getD i 0 &&& flag ≠ 0 ↔ i = 0)) ∧
    ∃ pkt', readBack doRead ⟨0, 0⟩ viconTimeout 0 (doWrite (bufferInit bufferSize) recall20).1 =
        some [pkt'] ∧ SameFields recall20 pkt' ∧
      (WellFormed recall20 → pkt' = { recall20 with expire := pkt'.expire }) :=
  comes_back carried_recall20 ⟨0, 0⟩ viconTimeout 0 rfl

end Protozoa.Vicon
