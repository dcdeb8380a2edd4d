import Protozoa.Ccreader

/-!
# Vicon (`vicon.c`)

Messages of ten, six or two bytes, by bits 12 and 14 (`vicon.c:22-24`, `81-90`); the first byte has
the bit `FLAG`. Messages of two bytes are status messages, which the reader passes over
(`vicon.c:245-255`).

* `decodePan` to `decodeExPreset` (`vicon.c:95-195`): the stages of decoding, each for one field of
  the packet.
* `decodeSized`: the three functions that take a message of one size (`vicon.c:199-255`) have one
  body; `decodeMessage` (`vicon.c:259-274`) chooses among them.
* `encodeCommand`, `encodeExtendedSpeed`, `encodeExtendedPreset` (`vicon.c:289-437`) and `doWrite`
  (`vicon.c:477-489`), which chooses one of the three messages.
* `doRead_reads` is the reader against the scanner `frames`, and `doRead_wait` says that it leaves
  an incomplete message alone.
-/

namespace Protozoa.Vicon

open Lib.Scan

variable {σ : Type}

/-- `FLAG`. -/
def flag : Byte := 0x80

def sizeStatus : Nat := 2
def sizeCommand : Nat := 6
def sizeExtended : Nat := 10

/-- `VICON_MAX_ADDRESS`. -/
def maxAddress : Int := 255

def viconGaptime : Nat := 80
def viconTimeout : Nat := 15000

/-- `VICON_PRESET_MENU_OPEN`. -/
def viconPresetMenuOpen : Int := 94

def bitCommand : Nat := 12
def bitAckAlarm : Nat := 13
def bitExtended : Nat := 14
def bitAutoIris : Nat := 17
def bitAutoPan : Nat := 18
def bitTiltDown : Nat := 19
def bitTiltUp : Nat := 20
def bitPanRight : Nat := 21
def bitPanLeft : Nat := 22
def bitLensSpeed : Nat := 24
def bitIrisClose : Nat := 25
def bitIrisOpen : Nat := 26
def bitFocusNear : Nat := 27
def bitFocusFar : Nat := 28
def bitZoomIn : Nat := 29
def bitZoomOut : Nat := 30
def bitAux6 : Nat := 33
def bitRecall : Nat := 45
def bitStore : Nat := 46
def bitExStore : Nat := 48
def bitExStatus : Nat := 49
def bitExRequest : Nat := 52

/-- `is_command`. -/
def isCommand (mess : List Byte) : Bool := bitIsSet mess bitCommand

/-- `is_extended_command`. -/
def isExtendedCommand (mess : List Byte) : Bool := bitIsSet mess bitCommand && bitIsSet mess bitExtended

/-! ## Reading -/

/-- `decode_receiver`. -/
def decodeReceiver (pkt : Ccpacket) (mess : List Byte) : Ccpacket :=
  ccpacketSetReceiver pkt
    ((mess.getD 0 0 &&& 0x0f).toNat <<< 4 ||| (mess.getD 1 0 &&& 0x0f).toNat : Nat)

/-- `decode_pan`. -/
def decodePan (pkt : Ccpacket) (mess : List Byte) : Ccpacket :=
  if bitIsSet mess bitPanRight then ccpacketSetPan pkt ccPanRight speedMax
  else if bitIsSet mess bitPanLeft then ccpacketSetPan pkt ccPanLeft speedMax
  else ccpacketSetPan pkt ccPanLeft 0

/-- `decode_tilt`. -/
def decodeTilt (pkt : Ccpacket) (mess : List Byte) : Ccpacket :=
  if bitIsSet mess bitTiltUp then ccpacketSetTilt pkt ccTiltUp speedMax
  else if bitIsSet mess bitTiltDown then ccpacketSetTilt pkt ccTiltDown speedMax
  else ccpacketSetTilt pkt ccTiltDown 0

/-- `decode_lens`. -/
def decodeLens (pkt : Ccpacket) (mess : List Byte) : Ccpacket :=
  let pkt :=
    if bitIsSet mess bitIrisOpen then ccpacketSetIris pkt ccIrisOpen
    else if bitIsSet mess bitIrisClose then ccpacketSetIris pkt ccIrisClose
    else pkt
  let pkt :=
    if bitIsSet mess bitFocusNear then ccpacketSetFocus pkt ccFocusNear
    else if bitIsSet mess bitFocusFar then ccpacketSetFocus pkt ccFocusFar
    else pkt
  if bitIsSet mess bitZoomIn then ccpacketSetZoom pkt ccZoomIn
  else if bitIsSet mess bitZoomOut then ccpacketSetZoom pkt ccZoomOut
  else pkt

/-- `decode_toggles`. -/
def decodeToggles (pkt : Ccpacket) (mess : List Byte) : Ccpacket :=
  let pkt := if bitIsSet mess bitAckAlarm then ccpacketSetAck pkt ccAckAlarm else pkt
  let pkt := if bitIsSet mess bitAutoIris then ccpacketSetIris pkt ccIrisAuto else pkt
  let pkt := if bitIsSet mess bitAutoPan then ccpacketSetPan pkt ccPanAuto 0 else pkt
  if bitIsSet mess bitLensSpeed then ccpacketSetLens pkt ccLensSpeed else pkt

/-- `decode_aux`. -/
def decodeAux (pkt : Ccpacket) (mess : List Byte) : Ccpacket :=
  if bitIsSet mess bitAux6 then ccpacketSetWiper pkt ccWiperOn else pkt

/-- `decode_preset`. -/
def decodePreset (pkt : Ccpacket) (mess : List Byte) : Ccpacket :=
  let pNum : Int := (mess.getD 5 0 &&& 0x0f).toNat
  if bitIsSet mess bitRecall then ccpacketSetPreset pkt ccPresetRecall pNum
  else if bitIsSet mess bitStore then ccpacketSetPreset pkt ccPresetStore pNum
  else pkt

/-- `decode_ex_speed`. -/
def decodeExSpeed (pkt : Ccpacket) (mess : List Byte) : Ccpacket :=
  let pan := (mess.getD 6 0 &&& 0x0f).toNat <<< 7 ||| (mess.getD 7 0 &&& 0x7f).toNat
  let tilt := (mess.getD 8 0 &&& 0x0f).toNat <<< 7 ||| (mess.getD 9 0 &&& 0x7f).toNat
  ccpacketSetTiltSpeed (ccpacketSetPanSpeed pkt pan) tilt

/-- `decode_ex_status`: nothing. -/
def decodeExStatus (pkt : Ccpacket) (_mess : List Byte) : Ccpacket := pkt

/-- `decode_ex_preset`. -/
def decodeExPreset (pkt : Ccpacket) (mess : List Byte) : Ccpacket :=
  let pNum : Int := (mess.getD 7 0 &&& 0x7f).toNat
  let pan : Int := (mess.getD 8 0 &&& 0x7f).toNat
  let tilt : Int := (mess.getD 9 0 &&& 0x7f).toNat
  let pkt :=
    if bitIsSet mess bitExStore then ccpacketSetPreset pkt ccPresetStore pNum
    else ccpacketSetPreset pkt ccPresetRecall pNum
  ccpacketSetTiltSpeed (ccpacketSetPanSpeed pkt pan) tilt

/-- `vicon_decode_command`, what it does to the packet. -/
def decodeCommand (pkt : Ccpacket) (mess : List Byte) : Ccpacket :=
  let pkt := decodeReceiver pkt mess
  let pkt := decodePan pkt mess
  let pkt := decodeTilt pkt mess
  let pkt := decodeLens pkt mess
  let pkt := decodeToggles pkt mess
  let pkt := decodeAux pkt mess
  decodePreset pkt mess

/-- `vicon_decode_extended`, what it does to the packet; it begins as `vicon_decode_command` does.
-/
def decodeExtended (pkt : Ccpacket) (mess : List Byte) : Ccpacket :=
  let pkt := decodeCommand pkt mess
  if bitIsSet mess bitExRequest then
    if bitIsSet mess bitExStatus then decodeExStatus pkt mess else decodeExPreset pkt mess
  else decodeExSpeed pkt mess

/-- What a command or an extended message does to the packet; the flags of the reader play no part.
-/
def decode (_flags : BitVec 32) (mess : List Byte) (pkt : Ccpacket) : Ccpacket :=
  if isExtendedCommand mess then decodeExtended pkt mess else decodeCommand pkt mess

/-- What a message does to the reader and the world. -/
def process (sink : Sink σ) (x : Ccreader × σ) (mess : List Byte) : Ccreader × σ :=
  if isCommand mess then decodeAndProcess decode sink x mess else x

/-- The functions for one kind of message wait until `size` bytes are there. -/
def decodeSized (size : Nat) (process : Ccreader × σ → List Byte → Ccreader × σ) (st : ReadState σ) :
    Option (DecodeT × ReadState σ) :=
  if bufferAvailable st.rxbuf < size then some (.done, st)
  else do
    let (rdr, world) := process (st.rdr, st.world) (st.rxbuf.data.take size)
    let rxbuf ← bufferConsume st.rxbuf size
    return (.more, ⟨rdr, rxbuf, world⟩)

/-- `vicon_decode_extended`. -/
def viconDecodeExtended (sink : Sink σ) : ReadState σ → Option (DecodeT × ReadState σ) :=
  decodeSized sizeExtended (decodeAndProcess (fun _ mess pkt => decodeExtended pkt mess) sink)

/-- `vicon_decode_command`. -/
def viconDecodeCommand (sink : Sink σ) : ReadState σ → Option (DecodeT × ReadState σ) :=
  decodeSized sizeCommand (decodeAndProcess (fun _ mess pkt => decodeCommand pkt mess) sink)

/-- `vicon_decode_status`: status messages are ignored. -/
def viconDecodeStatus : ReadState σ → Option (DecodeT × ReadState σ) :=
  decodeSized sizeStatus fun x _ => x

/-- `vicon_decode_message`. -/
def decodeMessage (sink : Sink σ) (st : ReadState σ) : Option (DecodeT × ReadState σ) :=
  let mess := st.rxbuf.data
  if mess.getD 0 0 &&& flag = 0 then do
    let rxbuf ← bufferConsume st.rxbuf 1
    return (.more, { st with rxbuf := rxbuf })
  else if isExtendedCommand mess then viconDecodeExtended sink st
  else if isCommand mess then viconDecodeCommand sink st
  else viconDecodeStatus st

/-- `vicon_do_read`. -/
def doRead (σ : Type) (sink : Sink σ) : DoRead σ := fun st =>
  readLoop sizeStatus (decodeMessage sink) (bufferAvailable st.rxbuf + 1) st

/-- A byte that begins a message has the flag. -/
theorem and_flag (b : Byte) : b &&& flag = 0 ↔ b.getLsbD 7 = false := by
  have hflag : flag = BitVec.twoPow 8 7 := by decide
  rw [hflag, BitVec.and_twoPow]
  cases b.getLsbD 7 <;> decide

/-- The length of the message that begins with these bytes. -/
def messageSize (mess : List Byte) : Nat :=
  if isExtendedCommand mess then sizeExtended else if isCommand mess then sizeCommand else sizeStatus

theorem sizeStatus_le_messageSize (mess : List Byte) : sizeStatus ≤ messageSize mess := by
  unfold messageSize
  split
  · decide
  · split <;> decide

theorem messageSize_le (mess : List Byte) : messageSize mess ≤ sizeExtended := by
  unfold messageSize
  split
  · decide
  · split <;> decide

theorem isCommand_append {s : List Byte} (h : sizeStatus ≤ s.length) (t : List Byte) :
    isCommand (s ++ t) = isCommand s := bitIsSet_append (show 1 < s.length from h) t

theorem isExtendedCommand_append {s : List Byte} (h : sizeStatus ≤ s.length) (t : List Byte) :
    isExtendedCommand (s ++ t) = isExtendedCommand s := by
  have hext : bitIsSet (s ++ t) bitExtended = bitIsSet s bitExtended :=
    bitIsSet_append (show 1 < s.length from h) t
  have hcmd := isCommand_append h t
  unfold isCommand at hcmd
  unfold isExtendedCommand
  rw [hext, hcmd]

/-- The size of a message does not change when more bytes arrive. -/
theorem messageSize_append {s : List Byte} (h : sizeStatus ≤ s.length) (t : List Byte) :
    messageSize (s ++ t) = messageSize s := by
  unfold messageSize
  rw [isExtendedCommand_append h, isCommand_append h]

/-- The decision about the bytes that have arrived. -/
def judge (s : List Byte) : Verdict :=
  if s.length < sizeStatus then .wait
  else if s.getD 0 0 &&& flag = 0 then .skip
  else if s.length < messageSize s then .wait
  else .frame (messageSize s)

/-- The messages of a whole stream. -/
def frames : Scanner Byte where
  judge := judge
  skip_ne := by
    intro s h hs
    subst hs
    cases h
  frame_le := by
    intro s k h
    unfold judge at h
    split at h
    · cases h
    split at h
    · cases h
    split at h
    · cases h
    rename_i hlen
    cases h
    exact ⟨Nat.lt_of_lt_of_le (by decide) (sizeStatus_le_messageSize s), Nat.le_of_not_lt hlen⟩
  append := by
    intro s t h
    by_cases h2 : s.length < sizeStatus
    · exact absurd (if_pos h2) h
    have hle := Nat.le_of_not_lt h2
    have h0 : (s ++ t).getD 0 0 = s.getD 0 0 := getD_append_left (Nat.lt_of_lt_of_le (by decide) hle) t
    have hlong : ¬(s ++ t).length < sizeStatus := by
      rw [List.length_append]
      omega
    unfold judge at h ⊢
    rw [if_neg h2] at h ⊢
    rw [if_neg hlong, h0, messageSize_append hle]
    split
    · rfl
    · rename_i hflag
      rw [if_neg hflag] at h
      have hsize : ¬s.length < messageSize s := fun hlt => h (if_pos hlt)
      rw [if_neg hsize, if_neg]
      rw [List.length_append]
      omega

theorem judge_short {s : List Byte} (h : s.length < sizeStatus) : frames.judge s = .wait := if_pos h

/-- `vicon_decode_message` is one decision about the bytes that have arrived. -/
theorem decodeMessage_eq (sink : Sink σ) {st : ReadState σ} (hlen : sizeStatus ≤ st.rxbuf.data.length) :
    decodeMessage sink st =
      if st.rxbuf.data.getD 0 0 &&& flag = 0 then
        (bufferConsume st.rxbuf 1).map fun rxbuf => (.more, { st with rxbuf := rxbuf })
      else decodeSized (messageSize st.rxbuf.data) (process sink) st := by
  have htake : ∀ n, sizeStatus ≤ n →
      isCommand (st.rxbuf.data.take n) = isCommand st.rxbuf.data ∧
        isExtendedCommand (st.rxbuf.data.take n) = isExtendedCommand st.rxbuf.data := by
    intro n hn
    have hle : sizeStatus ≤ (st.rxbuf.data.take n).length := by
      rw [List.length_take]
      exact Nat.le_min.mpr ⟨hn, hlen⟩
    have hc := isCommand_append hle (st.rxbuf.data.drop n)
    have he := isExtendedCommand_append hle (st.rxbuf.data.drop n)
    rw [List.take_append_drop] at hc he
    exact ⟨hc.symm, he.symm⟩
  simp only [decodeMessage]
  by_cases hflag : st.rxbuf.data.getD 0 0 &&& flag = 0
  · rw [if_pos hflag, if_pos hflag]
    cases bufferConsume st.rxbuf 1 <;> rfl
  rw [if_neg hflag, if_neg hflag]
  cases he : isExtendedCommand st.rxbuf.data with
  | true =>
    have hc : isCommand st.rxbuf.data = true := by
      unfold isExtendedCommand at he
      exact (Bool.and_eq_true_iff.mp he).1
    simp [viconDecodeExtended, decodeSized, process, decodeAndProcess, decode, messageSize, he, hc,
      htake sizeExtended (by decide)]
  | false =>
    cases hc : isCommand st.rxbuf.data with
    | true =>
      simp [viconDecodeCommand, decodeSized, process, decodeAndProcess, decode, messageSize, he, hc,
        htake sizeCommand (by decide)]
    | false =>
      simp [viconDecodeStatus, decodeSized, process, messageSize, he, hc,
        htake sizeStatus le_rfl]

/-- **What one `vicon_decode_message` does**: it passes over a byte that begins no message, takes a
message, or leaves an incomplete one. -/
theorem decodeMessage_cases (sink : Sink σ) {st : ReadState σ}
    (hlen : sizeStatus ≤ st.rxbuf.data.length) :
    (judge st.rxbuf.data = .skip ∧ st.rxbuf.data.getD 0 0 &&& flag = 0 ∧ ∃ buf,
      decodeMessage sink st = some (.more, { st with rxbuf := buf }) ∧
      buf.data = st.rxbuf.data.drop 1 ∧ Consumed st.rxbuf buf) ∨
    (judge st.rxbuf.data = .frame (messageSize st.rxbuf.data) ∧ ¬st.rxbuf.data.getD 0 0 &&& flag = 0 ∧
      ∃ buf, decodeMessage sink st = (
        let x := process sink (st.rdr, st.world) (st.rxbuf.data.take (messageSize st.rxbuf.data))
        some (.more, ⟨x.1, buf, x.2⟩)) ∧
      buf.data = st.rxbuf.data.drop (messageSize st.rxbuf.data) ∧ Consumed st.rxbuf buf) ∨
    (judge st.rxbuf.data = .wait ∧ st.rxbuf.data.length < sizeExtended ∧
      decodeMessage sink st = some (.done, st)) := by
  have hmin : ¬st.rxbuf.data.length < sizeStatus := Nat.not_lt.mpr hlen
  by_cases hflag : st.rxbuf.data.getD 0 0 &&& flag = 0
  · obtain ⟨buf, hbuf, hdata, hconsumed⟩ :=
      @bufferConsume_spec st.rxbuf 1 (Nat.le_trans (by decide) hlen)
    refine Or.inl ⟨?_, hflag, buf, ?_, hdata, hconsumed⟩
    · rw [judge, if_neg hmin, if_pos hflag]
    · rw [decodeMessage_eq sink hlen, if_pos hflag, hbuf]
      rfl
  by_cases hshort : st.rxbuf.data.length < messageSize st.rxbuf.data
  · refine Or.inr (Or.inr ⟨?_, Nat.lt_of_lt_of_le hshort (messageSize_le _), ?_⟩)
    · rw [judge, if_neg hmin, if_neg hflag, if_pos hshort]
    · rw [decodeMessage_eq sink hlen, if_neg hflag]
      exact if_pos hshort
  · obtain ⟨buf, hbuf, hdata, hconsumed⟩ := bufferConsume_spec (Nat.le_of_not_lt hshort)
    refine Or.inr (Or.inl ⟨?_, hflag, buf, ?_, hdata, hconsumed⟩)
    · rw [judge, if_neg hmin, if_neg hflag, if_neg hshort]
    · rw [decodeMessage_eq sink hlen, if_neg hflag]
      simp only [decodeSized, bufferAvailable, if_neg hshort, hbuf]
      rfl

/-- A message that is incomplete so far is left alone. -/
theorem decodeMessage_done (sink : Sink σ) {st : ReadState σ}
    (hwait : frames.judge st.rxbuf.data = .wait) (hlen : sizeStatus ≤ st.rxbuf.data.length) :
    decodeMessage sink st = some (.done, st) ∧ st.rxbuf.data.length < sizeExtended := by
  have hwait : judge st.rxbuf.data = .wait := hwait
  obtain ⟨hj, -⟩ | ⟨hj, -⟩ | ⟨-, hlt, hdone⟩ := decodeMessage_cases sink hlen
  · rw [hwait] at hj
    cases hj
  · rw [hwait] at hj
    cases hj
  · exact ⟨hdone, hlt⟩

theorem decodeMessage_decodes (sink : Sink σ) :
    Decodes frames sizeStatus sizeExtended (process sink) (decodeMessage sink) := by
  intro st hlen
  have hpos : 0 < st.rxbuf.data.length := Nat.lt_of_lt_of_le (by decide) hlen
  obtain ⟨hj, -, buf, hdec, hdata, hconsumed⟩ | ⟨hj, -, buf, hdec, hdata, hconsumed⟩ | ⟨hj, hlt, hdone⟩ :=
    decodeMessage_cases sink hlen
  · refine Or.inl ⟨_, [], hdec, ⟨?_, hconsumed, rfl⟩, ?_⟩
    · show Follows frames _ _ buf.data
      rw [hdata, List.drop_one]
      exact follows_skip hj
    · show buf.data.length < _
      rw [hdata, List.length_drop]
      omega
  · have hk := frames.frame_le hj
    refine Or.inl ⟨_, [st.rxbuf.data.take (messageSize st.rxbuf.data)], hdec, ⟨?_, hconsumed, rfl⟩, ?_⟩
    · show Follows frames _ _ buf.data
      rw [hdata]
      exact follows_frame hj
    · show buf.data.length < _
      rw [hdata, List.length_drop]
      omega
  · exact Or.inr ⟨hdone, hj, hlt⟩

theorem doRead_reads (sink : Sink σ) :
    Reads frames sizeExtended (fun out _ x => out.foldl (process sink) x) (doRead σ sink) :=
  (decodeMessage_decodes sink).reads (fun _ => judge_short) (by decide)

/-- **An incomplete message** leaves buffer, packet and writers as they are. -/
theorem doRead_wait (sink : Sink σ) {st : ReadState σ}
    (hwait : frames.judge st.rxbuf.data = .wait) : doRead σ sink st = some st :=
  readLoop_wait (fun _ hw hlen => (decodeMessage_done sink hw hlen).1) hwait

/-! ## Writing -/

/-- `encode_receiver`. -/
def encodeReceiver (mess : List Byte) (pkt : Ccpacket) : List Byte :=
  let receiver := BitVec.ofInt 32 pkt.receiver
  (mess.set 0 (flag ||| (receiver.sshiftRight 4 &&& 0x0f).setWidth 8)).set 1
    ((receiver &&& 0x0f).setWidth 8)

/-- `encode_pan_tilt`. -/
def encodePanTilt (mess : List Byte) (pkt : Ccpacket) : List Byte :=
  let mess :=
    if ccpacketHasPan pkt then
      if ccpacketGetPanMode pkt = ccPanLeft then bitSet mess bitPanLeft
      else if ccpacketGetPanMode pkt = ccPanRight then bitSet mess bitPanRight
      else mess
    else mess
  if ccpacketHasTilt pkt then
    if ccpacketGetTiltMode pkt = ccTiltUp then bitSet mess bitTiltUp
    else if ccpacketGetTiltMode pkt = ccTiltDown then bitSet mess bitTiltDown
    else mess
  else mess

/-- `encode_lens`. -/
def encodeLens (mess : List Byte) (pkt : Ccpacket) : List Byte :=
  let mess :=
    if ccpacketGetIris pkt = ccIrisOpen then bitSet mess bitIrisOpen
    else if ccpacketGetIris pkt = ccIrisClose then bitSet mess bitIrisClose
    else mess
  let mess :=
    if ccpacketGetFocus pkt = ccFocusNear then bitSet mess bitFocusNear
    else if ccpacketGetFocus pkt = ccFocusFar then bitSet mess bitFocusFar
    else mess
  if ccpacketGetZoom pkt = ccZoomIn then bitSet mess bitZoomIn
  else if ccpacketGetZoom pkt = ccZoomOut then bitSet mess bitZoomOut
  else mess

/-- `encode_toggles`. -/
def encodeToggles (mess : List Byte) (pkt : Ccpacket) : List Byte :=
  let mess := if ccpacketGetAck pkt = ccAckAlarm then bitSet mess bitAckAlarm else mess
  let mess := if ccpacketGetIris pkt = ccIrisAuto then bitSet mess bitAutoIris else mess
  let mess := if ccpacketGetPanMode pkt = ccPanAuto then bitSet mess bitAutoPan else mess
  if ccpacketGetLens pkt = ccLensSpeed then bitSet mess bitLensSpeed else mess

/-- `encode_aux`. -/
def encodeAux (mess : List Byte) (pkt : Ccpacket) : List Byte :=
  if ccpacketGetWiper pkt = ccWiperOn then bitSet mess bitAux6 else mess

/-- `mess[i] |= value & mask`. -/
def orByte (mess : List Byte) (i : Nat) (value : Int) (mask : BitVec 32) : List Byte :=
  mess.modify i (· ||| (BitVec.ofInt 32 value &&& mask).setWidth 8)

/-- `encode_preset`. -/
def encodePreset (mess : List Byte) (pkt : Ccpacket) : List Byte :=
  let pm := ccpacketGetPresetMode pkt
  let mess :=
    if pm = ccPresetRecall then bitSet mess bitRecall
    else if pm = ccPresetStore then bitSet mess bitStore
    else mess
  orByte mess 5 pkt.preset 0x0f

/-- `encode_command`. -/
def encodeCommand (txbuf : Buffer) (pkt : Ccpacket) : Buffer :=
  let mess := encodeReceiver (List.replicate sizeCommand 0) pkt
  let mess := bitSet mess bitCommand
  let mess := encodePanTilt mess pkt
  let mess := encodeLens mess pkt
  let mess := encodeToggles mess pkt
  let mess := encodeAux mess pkt
  ccwriterAppend txbuf (encodePreset mess pkt)

/-- `vicon_encode_speed`. -/
def viconEncodeSpeed (speed : Int) : BitVec 32 := BitVec.ofInt 32 speed &&& 0x7ff

/-- `encode_speeds`. -/
def encodeSpeeds (mess : List Byte) (pkt : Ccpacket) : List Byte :=
  let pan := viconEncodeSpeed pkt.pan
  let tilt := viconEncodeSpeed pkt.tilt
  (((mess.set 6 ((pan >>> 7 &&& 0x0f).setWidth 8)).set 7 ((pan &&& 0x7f).setWidth 8)).set 8
    ((tilt >>> 7 &&& 0x0f).setWidth 8)).set 9 ((tilt &&& 0x7f).setWidth 8)

/-- `encode_extended_speed`. -/
def encodeExtendedSpeed (txbuf : Buffer) (pkt : Ccpacket) : Buffer :=
  let mess := encodeReceiver (List.replicate sizeExtended 0) pkt
  let mess := bitSet (bitSet mess bitCommand) bitExtended
  let mess := encodePanTilt mess pkt
  let mess := encodeLens mess pkt
  let mess := encodeToggles mess pkt
  let mess := encodeAux mess pkt
  let mess := encodePreset mess pkt
  ccwriterAppend txbuf (encodeSpeeds mess pkt)

/-- `encode_extended_preset`. -/
def encodeExtendedPreset (txbuf : Buffer) (pkt : Ccpacket) : Buffer :=
  let mess := encodeReceiver (List.replicate sizeExtended 0) pkt
  let mess := bitSet (bitSet (bitSet mess bitCommand) bitExtended) bitExRequest
  let mess := if ccpacketGetPresetMode pkt = ccPresetStore then bitSet mess bitExStore else mess
  let mess := encodeLens mess pkt
  let mess := encodeToggles mess pkt
  let mess := encodeAux mess pkt
  let mess := orByte mess 7 pkt.preset 0x7f
  let mess := orByte mess 8 pkt.pan 0x7f
  ccwriterAppend txbuf (orByte mess 9 pkt.tilt 0x7f)

/-- `is_extended_preset`. -/
def isExtendedPreset (pkt : Ccpacket) : Bool :=
  let pm := ccpacketGetPresetMode pkt
  if pm = ccPresetRecall ∨ pm = ccPresetStore then
    pkt.preset > 15 || pkt.pan != 0 || pkt.tilt != 0
  else false

/-- `is_extended_speed`. -/
def isExtendedSpeed (pkt : Ccpacket) : Bool :=
  ccpacketHasPan pkt || ccpacketHasTilt pkt || ccpacketGetWiper pkt != 0

/-- `adjust_menu_commands`. -/
def adjustMenuCommands (pkt : Ccpacket) : Ccpacket :=
  let mc := ccpacketGetMenu pkt
  if mc = ccMenuOpen then ccpacketSetPreset pkt ccPresetStore viconPresetMenuOpen
  else if mc = ccMenuEnter then ccpacketSetPan pkt ccPanAuto 0
  else if mc = ccMenuCancel then ccpacketSetIris pkt ccIrisAuto
  else pkt

/-- `vicon_do_write`: the transmit buffer, the packet, and the count of packets. -/
def doWrite (txbuf : Buffer) (pkt : Ccpacket) : Buffer × Ccpacket × Nat :=
  if pkt.receiver < 1 ∨ pkt.receiver > maxAddress then (txbuf, pkt, 0)
  else
    let pkt := adjustMenuCommands pkt
    let txbuf :=
      if isExtendedPreset pkt then encodeExtendedPreset txbuf pkt
      else if isExtendedSpeed pkt then encodeExtendedSpeed txbuf pkt
      else encodeCommand txbuf pkt
    (txbuf, pkt, 1)

end Protozoa.Vicon
