import Protozoa.Fields
import Protozoa.Message
import Protozoa.Protocol.Manchester
import Protozoa.Protocol.ReadBack

/-!
# Manchester there and back

A packet is written as up to seven messages, one function each (`functions`,
`manchester.c:458-472`); a reader that is given all of them at once collects them in one packet
again (`manchester.c:236-273`).

* `message_eq`, `holds_message`: one message, and what its bytes hold; `decodePacket_eq` is what a
  reader makes of it.
* `doWrite_eq`: the writer sends the messages of the packet's functions.
* `isLeast_roundUp`: a speed comes back as the least level of the table (`manchester.c:26-35`) that
  is not below it.
* `foldl_collected`: what all functions together leave in a cleared packet (`collected`).
* **`comes_back_collected`**: of a cleared reader the writers get one packet, with what the
  functions say of the packet that was written (`Returned`).

What Manchester has no message for does not come back: presets above 8, the lens speed, automatic
focus, iris and pan, and an acknowledgement.
-/

namespace Protozoa.Manchester

open Lib.Scan

variable {σ : Type} {pkt q : Ccpacket}

/-! ## One message -/

/-- A function of the protocol: the command code, the value, and the bit for pan and tilt. -/
structure Function where
  cmnd : Byte
  value : Byte
  b2 : Byte
  cmnd_lt : cmnd.toNat < 4
  value_lt : value.toNat < 8
  b2_mem : b2 = 0 ∨ b2 = ptCommand

/-- The message for a function. -/
def message (pkt : Ccpacket) (f : Function) : List Byte :=
  ((encodeReceiver (List.replicate sizeMsg 0) pkt).modify 1
    (· ||| (f.cmnd <<< 4 ||| f.value <<< 1))).modify 2 (· ||| f.b2)

theorem length_message (pkt : Ccpacket) (f : Function) : (message pkt f).length = sizeMsg := by
  simp [message, encodeReceiver]

/-- The bytes of a message, with the receiver in three parts. -/
theorem message_eq (h : 1 ≤ pkt.receiver ∧ pkt.receiver ≤ maxAddress) (f : Function) :
    ∃ hi mid low : Nat, hi < 16 ∧ mid < 2 ∧ low < 32 ∧ pkt.receiver = 1 + (64 * hi + 32 * mid + low : Nat) ∧
      message pkt f = [flag ||| BitVec.ofNat 8 hi,
        BitVec.ofNat 8 mid ||| (f.cmnd <<< 4 ||| f.value <<< 1), BitVec.ofNat 8 (4 * low) ||| f.b2] := by
  obtain ⟨h1, h1024⟩ := h
  simp only [maxAddress] at h1024
  obtain ⟨m, hm⟩ := Int.eq_ofNat_of_zero_le (show 0 ≤ pkt.receiver - 1 by omega)
  have hlt : m < 1024 := by omega
  refine ⟨m / 64, m / 32 % 2, m % 32, by omega, by omega, by omega, by omega, ?_⟩
  have hmsb : (BitVec.ofNat 32 m).msb = false := by
    rw [BitVec.msb_eq_false_iff_two_mul_lt, BitVec.toNat_ofNat]
    omega
  have hhi : (((BitVec.ofInt 32 (pkt.receiver - 1)).sshiftRight 6 &&& 0x0f).setWidth 8 : Byte) =
      BitVec.ofNat 8 (m / 64) := by
    apply BitVec.eq_of_toNat_eq
    rw [hm, BitVec.ofInt_natCast, BitVec.sshiftRight_eq_of_msb_false hmsb, BitVec.toNat_setWidth,
      BitVec.toNat_and, BitVec.toNat_ushiftRight, BitVec.toNat_ofNat, BitVec.toNat_ofNat,
      Nat.shiftRight_eq_div_pow]
    show (m % 2 ^ 32 / 2 ^ 6 &&& 2 ^ 4 - 1) % 2 ^ 8 = _
    rw [Nat.and_two_pow_sub_one_eq_mod]
    omega
  have hmid : (((BitVec.ofInt 32 (pkt.receiver - 1)).sshiftRight 5 &&& 0x01).setWidth 8 : Byte) =
      BitVec.ofNat 8 (m / 32 % 2) := by
    apply BitVec.eq_of_toNat_eq
    rw [hm, BitVec.ofInt_natCast, BitVec.sshiftRight_eq_of_msb_false hmsb, BitVec.toNat_setWidth,
      BitVec.toNat_and, BitVec.toNat_ushiftRight, BitVec.toNat_ofNat, BitVec.toNat_ofNat,
      Nat.shiftRight_eq_div_pow]
    show (m % 2 ^ 32 / 2 ^ 5 &&& 2 ^ 1 - 1) % 2 ^ 8 = _
    rw [Nat.and_two_pow_sub_one_eq_mod]
    omega
  have hlow : (((BitVec.ofInt 32 (pkt.receiver - 1) &&& 0x1f) <<< 2).setWidth 8 : Byte) =
      BitVec.ofNat 8 (4 * (m % 32)) := by
    apply BitVec.eq_of_toNat_eq
    rw [hm, BitVec.ofInt_natCast, BitVec.toNat_setWidth, BitVec.toNat_shiftLeft, BitVec.toNat_and,
      BitVec.toNat_ofNat, BitVec.toNat_ofNat, Nat.shiftLeft_eq]
    show ((m % 2 ^ 32 &&& 2 ^ 5 - 1) * 2 ^ 2) % 2 ^ 32 % 2 ^ 8 = _
    rw [Nat.and_two_pow_sub_one_eq_mod]
    omega
  rw [← hhi, ← hmid, ← hlow]
  rfl

/-- What a reader finds in the message of a function. -/
structure Holds (mess : List Byte) (receiver : Int) (f : Function) : Prop where
  flagged : (mess.getD 0 0 &&& flag != 0) = true
  receiver : decodeReceiver mess = receiver
  cmnd : decodeCommand mess = f.cmnd
  value : ptExtra mess = f.value
  isPanTilt : isPanTiltCommand mess = (f.b2 == ptCommand)

theorem byte0_spec : ∀ hi, hi < 16 → (flag ||| BitVec.ofNat 8 hi) &&& 0x0f = BitVec.ofNat 8 hi ∧
    ((flag ||| BitVec.ofNat 8 hi) &&& flag != 0) = true := by decide

theorem byte1_spec : ∀ mid, mid < 2 → ∀ c, c < 4 → ∀ v, v < 8 →
    (BitVec.ofNat 8 mid ||| (BitVec.ofNat 8 c <<< 4 ||| BitVec.ofNat 8 v <<< 1)) &&& 0x01 =
        BitVec.ofNat 8 mid ∧
      (BitVec.ofNat 8 mid ||| (BitVec.ofNat 8 c <<< 4 ||| BitVec.ofNat 8 v <<< 1)) >>> 4 &&& 0x03 =
        BitVec.ofNat 8 c ∧
      (BitVec.ofNat 8 mid ||| (BitVec.ofNat 8 c <<< 4 ||| BitVec.ofNat 8 v <<< 1)) >>> 1 &&& 0x07 =
        BitVec.ofNat 8 v := by decide +kernel

theorem byte2_spec : ∀ low, low < 32 → ∀ b2 ∈ [0, ptCommand],
    (BitVec.ofNat 8 (4 * low) ||| b2) >>> 2 &&& 0x1f = BitVec.ofNat 8 low ∧
      ((BitVec.ofNat 8 (4 * low) ||| b2) &&& ptCommand != 0) = (b2 == ptCommand) := by decide +kernel

theorem holds_message (h : 1 ≤ pkt.receiver ∧ pkt.receiver ≤ maxAddress) (f : Function) :
    Holds (message pkt f) pkt.receiver f := by
  obtain ⟨hi, mid, low, hhi, hmid, hlow, hreceiver, hmess⟩ := message_eq h f
  obtain ⟨hhiBits, hflag⟩ := byte0_spec hi hhi
  obtain ⟨hmidBits, hcmnd, hvalue⟩ := byte1_spec mid hmid f.cmnd.toNat f.cmnd_lt f.value.toNat f.value_lt
  obtain ⟨hlowBits, hpt⟩ := byte2_spec low hlow f.b2 (List.mem_pair.mpr f.b2_mem)
  simp only [BitVec.ofNat_toNat, BitVec.setWidth_eq] at hmidBits hcmnd hvalue
  rw [hmess]
  refine ⟨hflag, ?_, hcmnd, hvalue, hpt⟩
  show 1 + ((((flag ||| BitVec.ofNat 8 hi) &&& 0x0f).toNat <<< 6 |||
    ((BitVec.ofNat 8 mid ||| (f.cmnd <<< 4 ||| f.value <<< 1)) &&& 0x01).toNat <<< 5 |||
    ((BitVec.ofNat 8 (4 * low) ||| f.b2) >>> 2 &&& 0x1f).toNat : Nat) : Int) = _
  rw [hhiBits, hmidBits, hlowBits, hreceiver, BitVec.toNat_ofNat, BitVec.toNat_ofNat,
    BitVec.toNat_ofNat, Nat.mod_eq_of_lt (by omega), Nat.mod_eq_of_lt (by omega),
    Nat.mod_eq_of_lt (by omega), Nat.or_assoc, shiftLeft_or (show low < 2 ^ 5 from hlow),
    shiftLeft_or (show 2 ^ 5 * mid + low < 2 ^ 6 by omega)]
  omega

/-- What a reader does with a function. -/
def apply (q : Ccpacket) (f : Function) : Ccpacket :=
  if f.b2 = ptCommand then decodePanTilt q f.cmnd (speedTable.getD f.value.toNat 0)
  else decodeExtended q f.cmnd f.value

theorem decodePacket_eq {mess : List Byte} {receiver : Int} {f : Function} (h : Holds mess receiver f)
    (q : Ccpacket) : decodePacket q mess = apply q f := by
  unfold decodePacket apply
  simp only [h.isPanTilt, h.cmnd, decodeSpeed, h.value, beq_iff_eq]

/-! ## The functions of a packet -/

/-- A value up to seven. -/
theorem ofNat_lt {n : Nat} (h : n < 8) : (BitVec.ofNat 8 n).toNat < 8 := by
  rw [BitVec.toNat_ofNat]
  omega

/-- A function of the lens. -/
def lens (func : Byte) (h : func.toNat < 8 := by decide) : Function :=
  ⟨exLens, func, 0, by decide, h, Or.inl rfl⟩

/-- An auxiliary function. -/
def aux (func : Byte) (h : func.toNat < 8 := by decide) : Function :=
  ⟨exAux, func, 0, by decide, h, Or.inl rfl⟩

theorem manchesterEncodeSpeed_le (speed : Int) : manchesterEncodeSpeed speed ≤ speedFull :=
  List.findIdx_le_length

/-- A movement. -/
def move (cmnd : Byte) (speed : Int) (h : cmnd.toNat < 4 := by decide) : Function :=
  ⟨cmnd, BitVec.ofNat 8 (manchesterEncodeSpeed speed), ptCommand, h,
    ofNat_lt (Nat.lt_succ_of_le (manchesterEncodeSpeed_le speed)), Or.inr rfl⟩

/-- The functions of `encode_pan`. -/
def panFunctions (pkt : Ccpacket) : List Function :=
  if ccpacketGetPanMode pkt = ccPanLeft then
    [if manchesterEncodeSpeed pkt.pan = speedFull then lens xlPanLeft else move panLeft pkt.pan]
  else if ccpacketGetPanMode pkt = ccPanRight then
    [if manchesterEncodeSpeed pkt.pan = speedFull then aux exAuxFullRight else move panRight pkt.pan]
  else []

/-- The functions of `encode_tilt`. -/
def tiltFunctions (pkt : Ccpacket) : List Function :=
  if ccpacketGetTiltMode pkt = ccTiltDown then
    [if manchesterEncodeSpeed pkt.tilt = speedFull then lens xlTiltDown else move tiltDown pkt.tilt]
  else if ccpacketGetTiltMode pkt = ccTiltUp then
    [if manchesterEncodeSpeed pkt.tilt = speedFull then aux exAuxFullUp else move tiltUp pkt.tilt]
  else []

/-- One of two functions, or none. -/
def choose (x m m' : CcFlags) (f f' : Function) : List Function :=
  if x = m then [f] else if x = m' then [f'] else []

/-- The functions of `encode_zoom`, `encode_focus` and `encode_iris`. -/
def lensFunctions (pkt : Ccpacket) : List Function :=
  choose (ccpacketGetZoom pkt) ccZoomOut ccZoomIn (lens xlZoomOut) (lens xlZoomIn) ++
    (choose (ccpacketGetFocus pkt) ccFocusNear ccFocusFar (lens xlFocusNear) (lens xlFocusFar) ++
      choose (ccpacketGetIris pkt) ccIrisClose ccIrisOpen (lens xlIrisClose) (lens xlIrisOpen))

/-- The functions of `encode_aux`. -/
def auxFunctions (pkt : Ccpacket) : List Function :=
  if ccpacketGetCamera pkt = ccCameraOff then [aux exAux1]
  else if ccpacketGetCamera pkt = ccCameraOn then [aux exAux4]
  else if ccpacketGetWiper pkt = ccWiperOn then [aux exAux6]
  else []

/-- A preset. -/
def presetFunction (cmnd : Byte) (preset : Int) (h : 1 ≤ preset ∧ preset ≤ 8) (hcmnd : cmnd.toNat < 4) :
    Function where
  cmnd := cmnd
  value := BitVec.ofInt 8 (preset - 1)
  b2 := 0
  cmnd_lt := hcmnd
  value_lt := by
    obtain ⟨m, hm⟩ := Int.eq_ofNat_of_zero_le (show 0 ≤ preset - 1 by omega)
    rw [hm, BitVec.ofInt_natCast]
    exact ofNat_lt (by omega)
  b2_mem := Or.inl rfl

/-- The functions of `encode_preset`. -/
def presetFunctions (pkt : Ccpacket) : List Function :=
  if h : 1 ≤ pkt.preset ∧ pkt.preset ≤ 8 then
    if ccpacketGetPresetMode pkt = ccPresetRecall then [presetFunction exRecall pkt.preset h (by decide)]
    else if ccpacketGetPresetMode pkt = ccPresetStore then [presetFunction exStore pkt.preset h (by decide)]
    else []
  else []

/-- The functions of `manchester_do_write`. -/
def functions (pkt : Ccpacket) : List Function :=
  (if ccpacketHasPan pkt then panFunctions pkt else []) ++
    ((if pkt.tilt ≠ 0 then tiltFunctions pkt else []) ++
      (lensFunctions pkt ++ (auxFunctions pkt ++ presetFunctions pkt)))

/-- The messages of `manchester_do_write`. -/
def messages (pkt : Ccpacket) : List (List Byte) := (functions pkt).map (message pkt)

/-- Appending the messages of functions. -/
def send (txbuf : Buffer) (pkt : Ccpacket) (fs : List Function) : Buffer :=
  (fs.map (message pkt)).foldl ccwriterAppend txbuf

theorem send_append (txbuf : Buffer) (pkt : Ccpacket) (fs fs' : List Function) :
    send txbuf pkt (fs ++ fs') = send (send txbuf pkt fs) pkt fs' := by
  unfold send
  rw [List.map_append, List.foldl_append]

theorem encodePan_eq (txbuf : Buffer) (pkt : Ccpacket) :
    encodePan txbuf pkt = send txbuf pkt (panFunctions pkt) := by
  simp only [encodePan, panFunctions]
  split
  · split <;> rfl
  · split
    · split <;> rfl
    · rfl

theorem encodeTilt_eq (txbuf : Buffer) (pkt : Ccpacket) :
    encodeTilt txbuf pkt = send txbuf pkt (tiltFunctions pkt) := by
  simp only [encodeTilt, tiltFunctions]
  split
  · split <;> rfl
  · split
    · split <;> rfl
    · rfl

theorem send_choose (txbuf : Buffer) (pkt : Ccpacket) (x m m' : CcFlags) (f f' : Function) :
    send txbuf pkt (choose x m m' f f') =
      if x = m then ccwriterAppend txbuf (message pkt f)
      else if x = m' then ccwriterAppend txbuf (message pkt f') else txbuf := by
  unfold choose
  split
  · rfl
  · split <;> rfl

theorem encodeLens_eq (txbuf : Buffer) (pkt : Ccpacket) :
    encodeIris (encodeFocus (encodeZoom txbuf pkt) pkt) pkt = send txbuf pkt (lensFunctions pkt) := by
  rw [lensFunctions, send_append, send_append, send_choose, send_choose, send_choose]
  rfl

theorem encodeAux_eq (txbuf : Buffer) (pkt : Ccpacket) :
    encodeAux txbuf pkt = send txbuf pkt (auxFunctions pkt) := by
  unfold encodeAux auxFunctions
  split
  · rfl
  · split
    · rfl
    · split <;> rfl

theorem encodePreset_eq (txbuf : Buffer) (pkt : Ccpacket) :
    encodePreset txbuf pkt = send txbuf pkt (presetFunctions pkt) := by
  simp only [encodePreset, presetFunctions]
  by_cases h : 1 ≤ pkt.preset ∧ pkt.preset ≤ 8
  · rw [if_neg (by omega), dif_pos h]
    split
    · rfl
    · split <;> rfl
  · rw [if_pos (by omega), dif_neg h]
    rfl

/-- **Writing** is sending the functions. -/
theorem doWrite_eq (txbuf : Buffer) (h : 1 ≤ pkt.receiver ∧ pkt.receiver ≤ maxAddress) :
    doWrite txbuf pkt = (send txbuf pkt (functions pkt), pkt, 1) := by
  have hpan : (if ccpacketHasPan pkt then encodePan txbuf pkt else txbuf) =
      send txbuf pkt (if ccpacketHasPan pkt then panFunctions pkt else []) := by
    split
    · exact encodePan_eq txbuf pkt
    · rfl
  have htilt : ∀ txbuf, (if pkt.tilt ≠ 0 then encodeTilt txbuf pkt else txbuf) =
      send txbuf pkt (if pkt.tilt ≠ 0 then tiltFunctions pkt else []) := by
    intro txbuf
    split
    · exact encodeTilt_eq txbuf pkt
    · rfl
  unfold doWrite
  rw [if_neg (by omega)]
  simp only [hpan, htilt, encodeLens_eq, encodeAux_eq, encodePreset_eq, functions, send_append]

/-! ## What the functions say -/

/-- A speed as it is sent. -/
def roundUp (speed : Int) : Int := speedTable.getD (manchesterEncodeSpeed speed) 0

/-- **The next higher speed** of the table. -/
theorem roundUp_spec {speed : Int} (h : speed ≤ 2047) :
    roundUp speed ∈ speedTable ∧ speed ≤ roundUp speed ∧
      ∀ s ∈ speedTable, speed ≤ s → roundUp speed ≤ s := by
  simp only [roundUp, manchesterEncodeSpeed, speedTable, speedFull, speedMax, List.take_succ_cons,
    List.take_zero, List.findIdx_cons, List.findIdx_nil, List.mem_cons, List.not_mem_nil, or_false,
    forall_eq_or_imp, forall_eq]
  by_cases h0 : speed ≤ 256
  · simp [h0]
  by_cases h1 : speed ≤ 512
  · simp [h0, h1]
  by_cases h2 : speed ≤ 768
  · simp [h0, h1, h2]
  by_cases h3 : speed ≤ 1024
  · simp [h0, h1, h2, h3]
  by_cases h4 : speed ≤ 1280
  · simp [h0, h1, h2, h3, h4]
  by_cases h5 : speed ≤ 1536
  · simp [h0, h1, h2, h3, h4, h5]
  by_cases h6 : speed ≤ 1792
  · simp [h0, h1, h2, h3, h4, h5, h6]
  · simp [h0, h1, h2, h3, h4, h5, h6, h]

theorem roundUp_of_full {speed : Int} (h : manchesterEncodeSpeed speed = speedFull) :
    roundUp speed = speedMax := by
  rw [roundUp, h]
  rfl

theorem apply_move (q : Ccpacket) (cmnd : Byte) (speed : Int) (h : cmnd.toNat < 4) :
    apply q (move cmnd speed h) = decodePanTilt q cmnd (roundUp speed) := by
  have hle := manchesterEncodeSpeed_le speed
  have hvalue : (BitVec.ofNat 8 (manchesterEncodeSpeed speed)).toNat = manchesterEncodeSpeed speed := by
    rw [BitVec.toNat_ofNat]
    exact Nat.mod_eq_of_lt (by have : manchesterEncodeSpeed speed ≤ 7 := hle; omega)
  show decodePanTilt q cmnd (speedTable.getD (BitVec.ofNat 8 (manchesterEncodeSpeed speed)).toNat 0) = _
  rw [hvalue]
  rfl

theorem foldl_panFunctions (q : Ccpacket) : (panFunctions pkt).foldl apply q =
    if ccpacketGetPanMode pkt = ccPanLeft ∨ ccpacketGetPanMode pkt = ccPanRight then
      ccpacketSetPan q (ccpacketGetPanMode pkt) (roundUp pkt.pan) else q := by
  unfold panFunctions
  by_cases hleft : ccpacketGetPanMode pkt = ccPanLeft
  · rw [if_pos hleft, if_pos (Or.inl hleft), hleft]
    split
    · rename_i hfull
      rw [roundUp_of_full hfull]
      rfl
    · exact apply_move q panLeft pkt.pan (by decide)
  by_cases hright : ccpacketGetPanMode pkt = ccPanRight
  · rw [if_neg hleft, if_pos hright, if_pos (Or.inr hright), hright]
    split
    · rename_i hfull
      rw [roundUp_of_full hfull]
      rfl
    · exact apply_move q panRight pkt.pan (by decide)
  · rw [if_neg hleft, if_neg hright, if_neg (not_or.mpr ⟨hleft, hright⟩)]
    rfl

theorem foldl_tiltFunctions (q : Ccpacket) : (tiltFunctions pkt).foldl apply q =
    if ccpacketGetTiltMode pkt = ccTiltUp ∨ ccpacketGetTiltMode pkt = ccTiltDown then
      ccpacketSetTilt q (ccpacketGetTiltMode pkt) (roundUp pkt.tilt) else q := by
  unfold tiltFunctions
  by_cases hdown : ccpacketGetTiltMode pkt = ccTiltDown
  · rw [if_pos hdown, if_pos (Or.inr hdown), hdown]
    split
    · rename_i hfull
      rw [roundUp_of_full hfull]
      rfl
    · exact apply_move q tiltDown pkt.tilt (by decide)
  by_cases hup : ccpacketGetTiltMode pkt = ccTiltUp
  · rw [if_neg hdown, if_pos hup, if_pos (Or.inl hup), hup]
    split
    · rename_i hfull
      rw [roundUp_of_full hfull]
      rfl
    · exact apply_move q tiltUp pkt.tilt (by decide)
  · rw [if_neg hdown, if_neg hup, if_neg (not_or.mpr ⟨hup, hdown⟩)]
    rfl

theorem foldl_choose {x : Field} {m m' : CcFlags} {f f' : Function}
    (hf : ∀ q, apply q f = x.update q m) (hf' : ∀ q, apply q f' = x.update q m') (v : CcFlags)
    (q : Ccpacket) :
    (choose v m m' f f').foldl apply q = if v = m ∨ v = m' then x.update q v else q := by
  unfold choose
  by_cases h : v = m
  · rw [if_pos h, if_pos (Or.inl h), h]
    exact hf q
  by_cases h' : v = m'
  · rw [if_neg h, if_pos h', if_pos (Or.inr h'), h']
    exact hf' q
  · rw [if_neg h, if_neg h', if_neg (not_or.mpr ⟨h, h'⟩)]
    rfl

/-- The packet switches the camera on or off. -/
def SendsCamera (pkt : Ccpacket) : Prop :=
  ccpacketGetCamera pkt = ccCameraOff ∨ ccpacketGetCamera pkt = ccCameraOn

instance (pkt : Ccpacket) : Decidable (SendsCamera pkt) := inferInstanceAs (Decidable (_ ∨ _))

theorem foldl_auxFunctions (q : Ccpacket) : (auxFunctions pkt).foldl apply q =
    if SendsCamera pkt then Field.camera.update q (ccpacketGetCamera pkt)
    else if ccpacketGetWiper pkt = ccWiperOn then Field.wiper.update q ccWiperOn else q := by
  unfold auxFunctions
  by_cases hoff : ccpacketGetCamera pkt = ccCameraOff
  · rw [if_pos hoff, if_pos (show SendsCamera pkt from Or.inl hoff), hoff]
    rfl
  by_cases hon : ccpacketGetCamera pkt = ccCameraOn
  · rw [if_neg hoff, if_pos hon, if_pos (show SendsCamera pkt from Or.inr hon), hon]
    rfl
  · rw [if_neg hoff, if_neg hon, if_neg (show ¬SendsCamera pkt from not_or.mpr ⟨hoff, hon⟩)]
    split <;> rfl

/-- The preset of the packet can be sent. -/
def SendsPreset (pkt : Ccpacket) : Prop :=
  (1 ≤ pkt.preset ∧ pkt.preset ≤ 8) ∧
    (ccpacketGetPresetMode pkt = ccPresetRecall ∨ ccpacketGetPresetMode pkt = ccPresetStore)

instance (pkt : Ccpacket) : Decidable (SendsPreset pkt) := inferInstanceAs (Decidable (_ ∧ _))

theorem apply_presetFunction (q : Ccpacket) {preset : Int} (h : 1 ≤ preset ∧ preset ≤ 8) :
    apply q (presetFunction exRecall preset h (by decide)) =
        { Field.preset.update q ccPresetRecall with preset := preset } ∧
      apply q (presetFunction exStore preset h (by decide)) =
        { Field.preset.update q ccPresetStore with preset := preset } := by
  have hvalue : ((BitVec.ofInt 8 (preset - 1)).toNat : Int) + 1 = preset := by
    obtain ⟨m, hm⟩ := Int.eq_ofNat_of_zero_le (show 0 ≤ preset - 1 by omega)
    rw [hm, BitVec.ofInt_natCast, BitVec.toNat_ofNat]
    omega
  refine ⟨?_, ?_⟩
  · show ccpacketSetPreset q ccPresetRecall ((BitVec.ofInt 8 (preset - 1)).toNat + 1) = _
    rw [hvalue, ccpacketSetPreset_eq q _ _ (by omega) (by omega) (by decide)]
  · show ccpacketSetPreset q ccPresetStore ((BitVec.ofInt 8 (preset - 1)).toNat + 1) = _
    rw [hvalue, ccpacketSetPreset_eq q _ _ (by omega) (by omega) (by decide)]

theorem foldl_presetFunctions (q : Ccpacket) : (presetFunctions pkt).foldl apply q =
    if SendsPreset pkt then
      { Field.preset.update q (ccpacketGetPresetMode pkt) with preset := pkt.preset } else q := by
  unfold presetFunctions
  by_cases h : 1 ≤ pkt.preset ∧ pkt.preset ≤ 8
  · rw [dif_pos h]
    by_cases hrecall : ccpacketGetPresetMode pkt = ccPresetRecall
    · rw [if_pos hrecall, if_pos (show SendsPreset pkt from ⟨h, Or.inl hrecall⟩), hrecall]
      exact (apply_presetFunction q h).1
    by_cases hstore : ccpacketGetPresetMode pkt = ccPresetStore
    · rw [if_neg hrecall, if_pos hstore, if_pos (show SendsPreset pkt from ⟨h, Or.inr hstore⟩), hstore]
      exact (apply_presetFunction q h).2
    · rw [if_neg hrecall, if_neg hstore, if_neg (fun hs => hs.2.elim hrecall hstore)]
      rfl
  · rw [dif_neg h, if_neg (fun hs => h hs.1)]
    rfl

/-! ## The packet that comes back -/

/-- The packet pans left or right. -/
def SendsPan (pkt : Ccpacket) : Prop :=
  (ccpacketGetPanMode pkt = ccPanLeft ∨ ccpacketGetPanMode pkt = ccPanRight) ∧ pkt.pan ≠ 0

/-- The packet tilts up or down. -/
def SendsTilt (pkt : Ccpacket) : Prop :=
  (ccpacketGetTiltMode pkt = ccTiltUp ∨ ccpacketGetTiltMode pkt = ccTiltDown) ∧ pkt.tilt ≠ 0

instance (pkt : Ccpacket) : Decidable (SendsPan pkt) := inferInstanceAs (Decidable (_ ∧ _))
instance (pkt : Ccpacket) : Decidable (SendsTilt pkt) := inferInstanceAs (Decidable (_ ∧ _))

/-- `q` is what comes back of `pkt`. -/
structure Returned (pkt q : Ccpacket) : Prop where
  receiver : q.receiver = pkt.receiver
  zoom : ccpacketGetZoom q = ccpacketGetZoom pkt
  camera : ccpacketGetCamera q = ccpacketGetCamera pkt
  wiper : ccpacketGetWiper q = ccpacketGetWiper pkt
  focus : ccpacketGetFocus q = if ccpacketGetFocus pkt = ccFocusNear ∨ ccpacketGetFocus pkt = ccFocusFar
    then ccpacketGetFocus pkt else 0
  iris : ccpacketGetIris q = if ccpacketGetIris pkt = ccIrisClose ∨ ccpacketGetIris pkt = ccIrisOpen
    then ccpacketGetIris pkt else 0
  preset : ccpacketGetPresetMode q = (if SendsPreset pkt then ccpacketGetPresetMode pkt else 0) ∧
    q.preset = if SendsPreset pkt then pkt.preset else 0
  panMode : ccpacketGetPanMode q = if SendsPan pkt then ccpacketGetPanMode pkt else 0
  pan : if SendsPan pkt then IsLeast {s | s ∈ speedTable ∧ pkt.pan ≤ s} q.pan else q.pan = 0
  tiltMode : ccpacketGetTiltMode q = if SendsTilt pkt then ccpacketGetTiltMode pkt else 0
  tilt : if SendsTilt pkt then IsLeast {s | s ∈ speedTable ∧ pkt.tilt ≤ s} q.tilt else q.tilt = 0

theorem isLeast_roundUp {speed : Int} (h : speed ≤ 2047) :
    IsLeast {s | s ∈ speedTable ∧ speed ≤ s} (roundUp speed) := by
  obtain ⟨hmem, hle, hleast⟩ := roundUp_spec h
  exact ⟨⟨hmem, hle⟩, fun s hs => hleast s hs.1 hs.2⟩

theorem clampSpeed_roundUp (speed : Int) : clampSpeed (roundUp speed) = roundUp speed := by
  have hall : ∀ i, i < 8 → clampSpeed (speedTable.getD i 0) = speedTable.getD i 0 := by decide
  exact hall _ (Nat.lt_succ_of_le (manchesterEncodeSpeed_le speed))

/-- What a reader has collected after all functions. -/
def collected (pkt q : Ccpacket) : Ccpacket := (functions pkt).foldl apply q

/-- A field taken over on a condition. -/
def takeField (x : Field) (c : Prop) [Decidable c] (m : CcFlags) (q : Ccpacket) : Ccpacket :=
  if c then x.update q m else q

section Taking

variable {c : Prop} [Decidable c] {x : Field} {m : CcFlags}

theorem get_takeField (y : Field) (hm : x.get m = m) :
    y.get (takeField x c m q).flags =
      if y = x then if c then m else x.get q.flags else y.get q.flags := by
  unfold takeField
  by_cases hc : c
  · rw [if_pos hc, if_pos hc]
    refine (Field.get_update y x q m).trans ?_
    rw [hm]
  · rw [if_neg hc, if_neg hc]
    by_cases hy : y = x
    · rw [if_pos hy, hy]
    · rw [if_neg hy]

end Taking

/-- The stages of collecting. -/
def stages (pkt q : Ccpacket) : Ccpacket :=
  let q := { takeField .pan (SendsPan pkt) (ccpacketGetPanMode pkt) q with
    pan := if SendsPan pkt then roundUp pkt.pan else q.pan }
  let q := { takeField .tilt (SendsTilt pkt) (ccpacketGetTiltMode pkt) q with
    tilt := if SendsTilt pkt then roundUp pkt.tilt else q.tilt }
  let q := takeField .zoom (ccpacketGetZoom pkt = ccZoomOut ∨ ccpacketGetZoom pkt = ccZoomIn)
    (ccpacketGetZoom pkt) q
  let q := takeField .focus (ccpacketGetFocus pkt = ccFocusNear ∨ ccpacketGetFocus pkt = ccFocusFar)
    (ccpacketGetFocus pkt) q
  let q := takeField .iris (ccpacketGetIris pkt = ccIrisClose ∨ ccpacketGetIris pkt = ccIrisOpen)
    (ccpacketGetIris pkt) q
  let q := takeField .camera (SendsCamera pkt) (ccpacketGetCamera pkt) q
  let q := takeField .wiper (¬SendsCamera pkt ∧ ccpacketGetWiper pkt = ccWiperOn) ccWiperOn q
  { takeField .preset (SendsPreset pkt) (ccpacketGetPresetMode pkt) q with
    preset := if SendsPreset pkt then pkt.preset else q.preset }

theorem foldl_pan (q : Ccpacket) :
    (if ccpacketHasPan pkt then panFunctions pkt else []).foldl apply q =
      { takeField .pan (SendsPan pkt) (ccpacketGetPanMode pkt) q with
        pan := if SendsPan pkt then roundUp pkt.pan else q.pan } := by
  unfold takeField
  by_cases hs : SendsPan pkt
  · have hhas : ccpacketHasPan pkt = true := by
      unfold ccpacketHasPan
      rw [Bool.and_eq_true]
      refine ⟨?_, bne_iff_ne.mpr hs.2⟩
      rcases hs.1 with hm | hm <;> rw [hm] <;> rfl
    rw [if_pos hhas, foldl_panFunctions, if_pos hs.1, if_pos hs, if_pos hs, ccpacketSetPan_eq,
      clampSpeed_roundUp]
  · rw [if_neg hs, if_neg hs]
    split
    · rename_i hhas
      have hspeed : pkt.pan ≠ 0 := by
        unfold ccpacketHasPan at hhas
        exact bne_iff_ne.mp (Bool.and_eq_true_iff.mp hhas).2
      rw [foldl_panFunctions, if_neg fun hm => hs ⟨hm, hspeed⟩]
    · rfl

theorem foldl_tilt (q : Ccpacket) : (if pkt.tilt ≠ 0 then tiltFunctions pkt else []).foldl apply q =
    { takeField .tilt (SendsTilt pkt) (ccpacketGetTiltMode pkt) q with
      tilt := if SendsTilt pkt then roundUp pkt.tilt else q.tilt } := by
  unfold takeField
  by_cases hs : SendsTilt pkt
  · rw [if_pos hs.2, foldl_tiltFunctions, if_pos hs.1, if_pos hs, if_pos hs, ccpacketSetTilt_eq]
  · rw [if_neg hs, if_neg hs]
    split
    · rename_i hspeed
      rw [foldl_tiltFunctions, if_neg fun hm => hs ⟨hm, hspeed⟩]
    · rfl

theorem collected_eq (pkt q : Ccpacket) : collected pkt q = stages pkt q := by
  have hpreset : ∀ q, (presetFunctions pkt).foldl apply q =
      { takeField .preset (SendsPreset pkt) (ccpacketGetPresetMode pkt) q with
        preset := if SendsPreset pkt then pkt.preset else q.preset } := by
    intro q
    rw [foldl_presetFunctions]
    unfold takeField
    split <;> rfl
  have haux : ∀ q, (auxFunctions pkt).foldl apply q =
      takeField .wiper (¬SendsCamera pkt ∧ ccpacketGetWiper pkt = ccWiperOn) ccWiperOn
        (takeField .camera (SendsCamera pkt) (ccpacketGetCamera pkt) q) := by
    intro q
    rw [foldl_auxFunctions]
    unfold takeField
    by_cases hc : SendsCamera pkt
    · rw [if_pos hc, if_pos hc, if_neg fun hw => hw.1 hc]
    · rw [if_neg hc, if_neg hc]
      simp only [hc, not_false_iff, true_and]
  unfold collected functions lensFunctions stages
  rw [List.foldl_append, foldl_pan, List.foldl_append, foldl_tilt, List.foldl_append,
    List.foldl_append, List.foldl_append, List.foldl_append, hpreset, haux,
    foldl_choose (x := .iris) (fun _ => rfl) (fun _ => rfl),
    foldl_choose (x := .focus) (fun _ => rfl) (fun _ => rfl),
    foldl_choose (x := .zoom) (fun _ => rfl) (fun _ => rfl)]
  rfl

/-- The value that comes back in a field. -/
def sentField (pkt : Ccpacket) : Field → CcFlags
  | .pan => if SendsPan pkt then ccpacketGetPanMode pkt else 0
  | .tilt => if SendsTilt pkt then ccpacketGetTiltMode pkt else 0
  | .zoom => if ccpacketGetZoom pkt = ccZoomOut ∨ ccpacketGetZoom pkt = ccZoomIn then
      ccpacketGetZoom pkt else 0
  | .focus => if ccpacketGetFocus pkt = ccFocusNear ∨ ccpacketGetFocus pkt = ccFocusFar then
      ccpacketGetFocus pkt else 0
  | .iris => if ccpacketGetIris pkt = ccIrisClose ∨ ccpacketGetIris pkt = ccIrisOpen then
      ccpacketGetIris pkt else 0
  | .camera => if SendsCamera pkt then ccpacketGetCamera pkt else 0
  | .wiper => if ¬SendsCamera pkt ∧ ccpacketGetWiper pkt = ccWiperOn then ccWiperOn else 0
  | .preset => if SendsPreset pkt then ccpacketGetPresetMode pkt else 0
  | .menu => 0
  | .ack => 0
  | .lens => 0

theorem get_presetMode (pkt : Ccpacket) :
    Field.preset.get (ccpacketGetPresetMode pkt) = ccpacketGetPresetMode pkt := by
  rw [ccpacketGetPresetMode_eq]
  split
  · exact Field.get_zero .preset
  · exact Field.get_get .preset pkt.flags

/-- **The fields that have been collected.** -/
theorem get_stages (hq : q.flags = 0) (y : Field) :
    y.get (stages pkt q).flags = sentField pkt y := by
  have hzero : ∀ y : Field, y.get q.flags = 0 := by
    intro y
    rw [hq]
    exact y.get_zero
  have hpan : Field.pan.get (ccpacketGetPanMode pkt) = ccpacketGetPanMode pkt := Field.get_get _ _
  have htilt : Field.tilt.get (ccpacketGetTiltMode pkt) = ccpacketGetTiltMode pkt := Field.get_get _ _
  have hzoom : Field.zoom.get (ccpacketGetZoom pkt) = ccpacketGetZoom pkt := Field.get_get _ _
  have hfocus : Field.focus.get (ccpacketGetFocus pkt) = ccpacketGetFocus pkt := Field.get_get _ _
  have hiris : Field.iris.get (ccpacketGetIris pkt) = ccpacketGetIris pkt := Field.get_get _ _
  have hcamera : Field.camera.get (ccpacketGetCamera pkt) = ccpacketGetCamera pkt := Field.get_get _ _
  have hwiper : Field.wiper.get ccWiperOn = ccWiperOn := by decide
  cases y <;>
  simp only [stages, sentField, get_takeField _ hpan, get_takeField _ htilt, get_takeField _ hzoom,
    get_takeField _ hfocus, get_takeField _ hiris, get_takeField _ hcamera, get_takeField _ hwiper,
    get_takeField _ (get_presetMode pkt), hzero, reduceCtorEq, if_false, if_true]

/-- Nothing but flags is taken over. -/
theorem takeField_rest {c : Prop} [Decidable c] (x : Field) (m : CcFlags) (q : Ccpacket) :
    (takeField x c m q).receiver = q.receiver ∧ (takeField x c m q).pan = q.pan ∧
      (takeField x c m q).tilt = q.tilt ∧ (takeField x c m q).preset = q.preset := by
  unfold takeField
  split <;> exact ⟨rfl, rfl, rfl, rfl⟩

/-- The numbers that have been collected. -/
theorem stages_rest (pkt q : Ccpacket) : (stages pkt q).receiver = q.receiver ∧
    (stages pkt q).pan = (if SendsPan pkt then roundUp pkt.pan else q.pan) ∧
    (stages pkt q).tilt = (if SendsTilt pkt then roundUp pkt.tilt else q.tilt) ∧
    (stages pkt q).preset = if SendsPreset pkt then pkt.preset else q.preset := by
  simp only [stages, takeField_rest, and_self]

/-- The packets of which all that is sent comes back. -/
structure Sendable (pkt : Ccpacket) : Prop where
  receiver : 1 ≤ pkt.receiver ∧ pkt.receiver ≤ maxAddress
  pan : 0 ≤ pkt.pan ∧ pkt.pan ≤ 2047
  tilt : 0 ≤ pkt.tilt ∧ pkt.tilt ≤ 2047
  one : ccpacketGetCamera pkt = 0 ∨ ccpacketGetWiper pkt = 0
  wiper : ccpacketGetWiper pkt = 0 ∨ ccpacketGetWiper pkt = ccWiperOn

/-- **What has been collected** is what comes back. -/
theorem returned_collected (h : Sendable pkt) (e : Timeval) :
    Returned pkt (collected pkt ⟨pkt.receiver, 0, 0, 0, 0, e⟩) := by
  rw [collected_eq]
  set q : Ccpacket := ⟨pkt.receiver, 0, 0, 0, 0, e⟩ with hq
  obtain ⟨hreceiver, hpan, htilt, hpreset⟩ := stages_rest pkt q
  have hget : ∀ y : Field, y.get (stages pkt q).flags = sentField pkt y := get_stages rfl
  refine ⟨hreceiver, ?_, ?_, ?_, hget .focus, hget .iris, ⟨?_, hpreset⟩, hget .pan, ?_, hget .tilt, ?_⟩
  · refine (hget .zoom).trans ?_
    have hmem := Field.get_mem .zoom pkt.flags
    simp only [Field.members, List.mem_cons, List.not_mem_nil, or_false] at hmem
    rcases hmem with hv | hv | hv <;>
      rw [sentField, show ccpacketGetZoom pkt = _ from hv] <;> rfl
  · refine (hget .camera).trans ?_
    have hmem := Field.get_mem .camera pkt.flags
    simp only [Field.members, List.mem_cons, List.not_mem_nil, or_false] at hmem
    rcases hmem with hv | hv | hv <;>
      simp only [sentField, SendsCamera, show ccpacketGetCamera pkt = _ from hv, or_true, true_or,
        if_true, ite_self]
  · refine (hget .wiper).trans ?_
    rcases h.wiper with hw | hw
    · rw [sentField, hw, if_neg fun hon => absurd hon.2 (by decide)]
    · have hcamera : ¬SendsCamera pkt := by
        rcases h.one with hc | hc
        · rw [SendsCamera, hc]
          decide
        · rw [hw] at hc
          cases hc
      rw [sentField, if_pos ⟨hcamera, hw⟩, hw]
  · have hmode := hget .preset
    rw [ccpacketGetPresetMode_eq, hmode, hpreset]
    by_cases hs : SendsPreset pkt
    · rw [if_pos hs, if_neg (by have := hs.1; omega), sentField, if_pos hs]
    · rw [if_neg hs, if_neg hs, if_pos le_rfl]
  · rw [hpan]
    split
    · exact isLeast_roundUp h.pan.2
    · rfl
  · rw [htilt]
    split
    · exact isLeast_roundUp h.tilt.2
    · rfl

/-! ## Reading all messages -/

/-- Functions leave the receiver alone. -/
theorem receiver_apply (q : Ccpacket) (f : Function) : (apply q f).receiver = q.receiver := by
  simp only [apply, apply_ite Ccpacket.receiver, receiver_decodePanTilt, receiver_decodeExtended, ite_self]

/-- Once its receiver is known, a reader collects. -/
theorem foldl_decodePacket (sink : Sink σ) (hr : 1 ≤ pkt.receiver ∧ pkt.receiver ≤ maxAddress) :
    ∀ (fs : List Function) {rdr : Ccreader} (s : σ), rdr.packet.receiver = pkt.receiver →
      (fs.map (message pkt)).foldl (manchesterDecodePacket sink) (rdr, s) =
        ({ rdr with packet := fs.foldl apply rdr.packet }, s)
  | [], _, _, _ => rfl
  | f :: fs, rdr, s, h => by
    have hholds := holds_message hr f
    have hself : ccpacketSetReceiver rdr.packet pkt.receiver = rdr.packet := by
      rw [← h]
      rfl
    have hone : manchesterDecodePacket sink (rdr, s) (message pkt f) =
        ({ rdr with packet := apply rdr.packet f }, s) := by
      simp only [manchesterDecodePacket, hholds.receiver, h, ne_eq, not_true, if_false, hself,
        decodePacket_eq hholds]
    rw [List.map_cons, List.foldl_cons, hone, List.foldl_cons]
    exact foldl_decodePacket sink hr fs s ((receiver_apply _ _).trans h)

/-- Writers are not concerned with the receiver 0. -/
theorem doWritersLoop_zero (sink : Sink σ) : ∀ {nodes : List Ccnode}, (∀ node ∈ nodes, 1 ≤ node.rangeFirst) →
    ∀ (q : Ccpacket) (s : σ), doWritersLoop sink 0 nodes q s = (q, s)
  | [], _, _, _ => rfl
  | node :: nodes, h, q, s => by
    have hnode := h node List.mem_cons_self
    have hzero : ccnodeGetReceiver node 0 = 0 := if_pos (Or.inl (by omega))
    simp only [doWritersLoop, hzero, ne_eq, not_true, if_false]
    exact doWritersLoop_zero sink (fun n hn => h n (List.mem_cons_of_mem node hn)) q s

theorem processPacket_zero (sink : Sink σ) {rdr : Ccreader} (h : rdr.packet.receiver = 0)
    (hnodes : ∀ node ∈ rdr.head, 1 ≤ node.rangeFirst) (s : σ) : ∃ e,
    ccreaderProcessPacket sink rdr s =
      ({ rdr with packet := ⟨0, 0, 0, 0, 0, e⟩ }, (sink.now s).2) := by
  refine ⟨timevalAdjust (sink.now s).1 rdr.timeout, ?_⟩
  simp only [ccreaderProcessPacket, ccreaderProcessPacketNoClear, ccreaderDoWriters,
    ccpacketSetTimeout, h, doWritersLoop_zero sink hnodes]
  rfl

/-- The loop decodes all messages there are. -/
theorem readLoop_messages (sink : Sink σ) : ∀ (ms : List (List Byte)) {fuel : Nat} {st : ReadState σ},
    (∀ mess ∈ ms, mess.length = sizeMsg ∧ (mess.getD 0 0 &&& flag != 0) = true) →
    st.rxbuf.data = ms.flatten → ms.length < fuel →
      ∃ rxbuf, rxbuf.data = [] ∧ readLoop sizeMsg (manchesterReadMessage sink) fuel st =
        some ⟨(ms.foldl (manchesterDecodePacket sink) (st.rdr, st.world)).1, rxbuf,
          (ms.foldl (manchesterDecodePacket sink) (st.rdr, st.world)).2⟩
  | [], fuel + 1, st, _, hdata, _ => by
    refine ⟨st.rxbuf, hdata, if_neg ?_⟩
    rw [bufferAvailable, hdata]
    decide
  | mess :: ms, fuel + 1, st, hms, hdata, hfuel => by
    obtain ⟨hlen, hflag⟩ := hms mess List.mem_cons_self
    rw [List.flatten_cons] at hdata
    have havail : sizeMsg ≤ st.rxbuf.data.length := by
      rw [hdata, List.length_append, hlen]
      exact Nat.le_add_right _ _
    have htake : st.rxbuf.data.take sizeMsg = mess := by
      rw [hdata, ← hlen, List.take_left]
    have hfirst : ¬st.rxbuf.data.getD 0 0 &&& flag = 0 := by
      rw [← getD_take_zero, htake]
      exact bne_iff_ne.mp hflag
    obtain ⟨buf, hrest, -, hread⟩ :=
      @readMessageWith_frame σ (manchesterDecodePacket sink) st havail hfirst
    rw [htake] at hread
    rw [hdata, ← hlen, List.drop_left] at hrest
    obtain ⟨rxbuf, hnil, hloop⟩ := @readLoop_messages sink ms fuel
      ⟨(manchesterDecodePacket sink (st.rdr, st.world) mess).1, buf,
        (manchesterDecodePacket sink (st.rdr, st.world) mess).2⟩
      (fun m hm => hms m (List.mem_cons_of_mem mess hm)) hrest (Nat.lt_of_succ_lt_succ hfuel)
    refine ⟨rxbuf, hnil, ?_⟩
    have hread : manchesterReadMessage sink st = _ := hread
    have havail : bufferAvailable st.rxbuf ≥ sizeMsg := havail
    simp only [readLoop, if_pos havail, hread]
    exact hloop

theorem length_messages (pkt : Ccpacket) (fs : List Function) :
    (fs.map (message pkt)).flatten.length = fs.length * sizeMsg := by
  induction fs with
  | nil => rfl
  | cons f fs ih =>
    rw [List.map_cons, List.flatten_cons, List.length_append, ih, length_message, List.length_cons,
      Nat.succ_mul, Nat.add_comm]

/-- What is written for a packet fits in an empty buffer. -/
theorem data_send (hr : 1 ≤ pkt.receiver ∧ pkt.receiver ≤ maxAddress) :
    (doWrite (bufferInit bufferSize) pkt).1.data = ((functions pkt).map (message pkt)).flatten := by
  have hone : ∀ {c : Prop} [Decidable c] {f : Function} {fs : List Function}, fs.length ≤ 1 →
      (if c then [f] else fs).length ≤ 1 := by
    intro c _ f fs h
    split
    · exact le_rfl
    · exact h
  have hchoose : ∀ v m m' f f', (choose v m m' f f').length ≤ 1 := fun _ _ _ _ _ =>
    hone (hone (Nat.zero_le 1))
  have hpan : (if ccpacketHasPan pkt then panFunctions pkt else []).length ≤ 1 := by
    split
    · exact hone (hone (Nat.zero_le 1))
    · exact Nat.zero_le 1
  have htilt : (if pkt.tilt ≠ 0 then tiltFunctions pkt else []).length ≤ 1 := by
    split
    · exact hone (hone (Nat.zero_le 1))
    · exact Nat.zero_le 1
  have haux : (auxFunctions pkt).length ≤ 1 := hone (hone (hone (Nat.zero_le 1)))
  have hpreset : (presetFunctions pkt).length ≤ 1 := by
    unfold presetFunctions
    split
    · exact hone (hone (Nat.zero_le 1))
    · exact Nat.zero_le 1
  have hfew : (functions pkt).length ≤ 7 := by
    unfold functions lensFunctions
    simp only [List.length_append]
    have hzoom := hchoose (ccpacketGetZoom pkt) ccZoomOut ccZoomIn (lens xlZoomOut) (lens xlZoomIn)
    have hfocus := hchoose (ccpacketGetFocus pkt) ccFocusNear ccFocusFar (lens xlFocusNear)
      (lens xlFocusFar)
    have hiris := hchoose (ccpacketGetIris pkt) ccIrisClose ccIrisOpen (lens xlIrisClose)
      (lens xlIrisOpen)
    omega
  rw [doWrite_eq _ hr]
  refine foldl_ccwriterAppend ?_
  rw [length_messages]
  show (functions pkt).length * 3 ≤ 256
  omega

/-- **Reading all that was written** for a packet: its messages are decoded, and what has been
collected of them is processed. -/
theorem doRead_messages (hr : 1 ≤ pkt.receiver ∧ pkt.receiver ≤ maxAddress) (sink : Sink σ)
    {st : ReadState σ} (hdata : st.rxbuf.data = ((functions pkt).map (message pkt)).flatten) :
    ∃ st', doRead σ sink st = some st' ∧ st'.rxbuf.data = [] ∧
      let x := ((functions pkt).map (message pkt)).foldl (manchesterDecodePacket sink) (st.rdr, st.world)
      (st'.rdr, st'.world) = ccreaderProcessPacket sink x.1 x.2 := by
  have hms : ∀ mess ∈ (functions pkt).map (message pkt),
      mess.length = sizeMsg ∧ (mess.getD 0 0 &&& flag != 0) = true := by
    intro mess hmess
    obtain ⟨f, -, rfl⟩ := List.mem_map.mp hmess
    exact ⟨length_message pkt f, (holds_message hr f).flagged⟩
  have hfuel : ((functions pkt).map (message pkt)).length < bufferAvailable st.rxbuf + 1 := by
    rw [bufferAvailable, hdata, length_messages, List.length_map]
    simp only [sizeMsg]
    omega
  obtain ⟨rxbuf, hnil, hloop⟩ := readLoop_messages sink _ hms hdata hfuel
  set x := ((functions pkt).map (message pkt)).foldl (manchesterDecodePacket sink) (st.rdr, st.world)
  refine ⟨⟨(ccreaderProcessPacket sink x.1 x.2).1, rxbuf, (ccreaderProcessPacket sink x.1 x.2).2⟩, ?_,
    hnil, rfl⟩
  have havail : bufferAvailable rxbuf = 0 := by
    rw [bufferAvailable, hnil]
    rfl
  simp only [doRead, hloop, Option.bind_eq_bind, Option.bind_some, if_pos havail]
  rfl

/-- A reader that begins to collect for the receiver of the packet. -/
theorem foldl_collected (hr : 1 ≤ pkt.receiver ∧ pkt.receiver ≤ maxAddress) (sink : Sink σ)
    {x : Ccreader × σ} {rdr : Ccreader} {s : σ} {e : Timeval} {f : Function} {fs : List Function}
    (hfs : functions pkt = f :: fs) (hfirst : manchesterDecodePacket sink x (message pkt f) =
      ({ rdr with packet := apply ⟨pkt.receiver, 0, 0, 0, 0, e⟩ f }, s)) :
    ((functions pkt).map (message pkt)).foldl (manchesterDecodePacket sink) x =
      ({ rdr with packet := collected pkt ⟨pkt.receiver, 0, 0, 0, 0, e⟩ }, s) := by
  unfold collected
  rw [hfs, List.map_cons, List.foldl_cons, hfirst,
    foldl_decodePacket sink hr fs _ (receiver_apply _ f)]
  rfl

/-- **Manchester there and back**: a cleared reader that is given all that was written for a packet
hands one packet to the writers, besides one for no receiver, and this is the packet that was
written, as far as the protocol goes. -/
theorem comes_back_collected (h : Sendable pkt) (hne : (doWrite (bufferInit bufferSize) pkt).1.data ≠ [])
    (sink : Sink σ) {st : ReadState σ} (hcleared : ccpacketClear st.rdr.packet = st.rdr.packet)
    (hnodes : ∀ node ∈ st.rdr.head, 1 ≤ node.rangeFirst)
    (hdata : st.rxbuf.data = (doWrite (bufferInit bufferSize) pkt).1.data) :
    ∃ q st', Returned pkt q ∧ doRead σ sink st = some st' ∧ st'.rxbuf.data = [] ∧
      (st'.rdr, st'.world) =
        ccreaderProcessPacket sink { st.rdr with packet := q } (sink.now st.world).2 := by
  rw [data_send h.receiver] at hne hdata
  obtain ⟨e, hzero⟩ := processPacket_zero sink
    (show st.rdr.packet.receiver = 0 by rw [← hcleared]; rfl) hnodes st.world
  obtain ⟨f, fs, hfs⟩ := List.exists_cons_of_ne_nil
    (show functions pkt ≠ [] from fun hnone => hne (by rw [hnone]; rfl))
  have hfirst : manchesterDecodePacket sink (st.rdr, st.world) (message pkt f) =
      ({ st.rdr with packet := apply ⟨pkt.receiver, 0, 0, 0, 0, e⟩ f }, (sink.now st.world).2) := by
    have hholds := holds_message h.receiver f
    have hchange : st.rdr.packet.receiver ≠ pkt.receiver := by
      have := h.receiver
      rw [← hcleared]
      show (0 : Int) ≠ _
      omega
    simp only [manchesterDecodePacket, hholds.receiver, if_pos hchange, hzero, decodePacket_eq hholds]
    rfl
  obtain ⟨st', hread, hnil, heff⟩ := doRead_messages h.receiver sink hdata
  rw [foldl_collected h.receiver sink hfs hfirst] at heff
  exact ⟨_, st', returned_collected h e, hread, hnil, heff⟩

/-- Receiver 100: pan left at full speed, tilt up slowly, zoom in, camera on and store preset 3. -/
def leftUp100 : Ccpacket :=
  ccpacketSetPreset (ccpacketSetCamera (ccpacketSetZoom (ccpacketSetTilt (ccpacketSetPan
    (ccpacketSetReceiver (ccpacketCreate ⟨0, 0⟩) 100) ccPanLeft 2000) ccTiltUp 300) ccZoomIn) ccCameraOn)
    ccPresetStore 3

theorem sendable_leftUp100 : Sendable leftUp100 where
  receiver := by decide
  pan := by decide
  tilt := by decide
  one := by decide
  wiper := by decide

/-- A cleared reader with one writer. -/
def cleared : Ccreader := ⟨⟨0, 0, 0, 0, 0, ⟨0, 0⟩⟩, manchesterTimeout, 0, [⟨0, 1, 1024, 0⟩]⟩

/-- A packet that comes back. -/
theorem comes_back_collected_leftUp100 : ∃ q st', Returned leftUp100 q ∧
    doRead _ (recorder ⟨0, 0⟩) ⟨cleared, (doWrite (bufferInit bufferSize) leftUp100).1, []⟩ = some st' ∧
    st'.rxbuf.data = [] ∧ (st'.rdr, st'.world) =
      ccreaderProcessPacket (recorder ⟨0, 0⟩) { cleared with packet := q } [] :=
  comes_back_collected sendable_leftUp100 (by decide) (recorder ⟨0, 0⟩) rfl (by decide) rfl

end Protozoa.Manchester
