import Protozoa.Ccreader
import Protozoa.Fields

/-!
# Manchester (`manchester.c`)

Messages of three bytes, the first with the bit `FLAG` (`manchester.c:20-23`); one command a
message. The reader collects the messages to one receiver in its packet, and processes it when the
receiver changes (`manchester_decode_packet`, `manchester.c:236-242`) or when a read leaves the
buffer empty (`manchester_do_read`, `manchester.c:265-273`).

* `decodePanTilt`, `decodeExtended` (`manchester.c:116-220`): what one message does to the packet.
* `encodePan`, `encodeTilt`, … (`manchester.c:278-453`) write a message each, and `doWrite`
  (`manchester.c:458-472`) one after the other.
* `readMessageWith` and `doReadWith` have what becomes of a message as an argument, so that the
  ghost of `Protocol/ManchesterAttribution.lean` reads as the reader does.
* `doRead_reads` is the reader against the scanner `frames`; `doReadWith_left` says that what it
  leaves in the buffer is what the scanner leaves, and `doRead_wait` that it leaves an incomplete
  message alone.
-/

namespace Protozoa.Manchester

open Lib.Scan

variable {σ : Type}

/-- `FLAG`. -/
def flag : Byte := 0x80

/-- `PT_COMMAND`. -/
def ptCommand : Byte := 0x02

/-- `SIZE_MSG`. -/
def sizeMsg : Nat := 3

/-- `SPEED_FULL`. -/
def speedFull : Nat := 7

/-- `MANCHESTER_MAX_ADDRESS`. -/
def maxAddress : Int := 1024

def manchesterGaptime : Nat := 0
def manchesterTimeout : Nat := 80

/-- `SPEED`. -/
def speedTable : List Int := [256, 512, 768, 1024, 1280, 1536, 1792, speedMax]

/-- `enum pt_command_t`. -/
def tiltDown : Byte := 0
def tiltUp : Byte := 1
def panLeft : Byte := 2
def panRight : Byte := 3

/-- `enum ex_function_t`. -/
def exLens : Byte := 0
def exAux : Byte := 1
def exRecall : Byte := 2
def exStore : Byte := 3

/-- `enum xl_lens_t`. -/
def xlTiltDown : Byte := 0
def xlIrisOpen : Byte := 1
def xlFocusFar : Byte := 2
def xlZoomIn : Byte := 3
def xlIrisClose : Byte := 4
def xlFocusNear : Byte := 5
def xlZoomOut : Byte := 6
def xlPanLeft : Byte := 7

/-- `enum ex_aux_t`, those with a meaning to a reader or a writer. -/
def exAuxFullUp : Byte := 0
def exAuxFullRight : Byte := 1
def exAux1 : Byte := 2
def exAux4 : Byte := 3
def exAux6 : Byte := 7

/-! ## Reading -/

/-- `is_pan_tilt_command`. -/
def isPanTiltCommand (mess : List Byte) : Bool := mess.getD 2 0 &&& ptCommand != 0

/-- `decode_receiver`. -/
def decodeReceiver (mess : List Byte) : Int :=
  1 + ((mess.getD 0 0 &&& 0x0f).toNat <<< 6 ||| (mess.getD 1 0 &&& 0x01).toNat <<< 5 |||
    (mess.getD 2 0 >>> 2 &&& 0x1f).toNat : Nat)

/-- `decode_command`. -/
def decodeCommand (mess : List Byte) : Byte := mess.getD 1 0 >>> 4 &&& 0x03

/-- `pt_extra`. -/
def ptExtra (mess : List Byte) : Byte := mess.getD 1 0 >>> 1 &&& 0x07

/-- `decode_speed`. -/
def decodeSpeed (mess : List Byte) : Int := speedTable.getD (ptExtra mess).toNat 0

/-- `decode_pan_tilt`. -/
def decodePanTilt (pkt : Ccpacket) (cmnd : Byte) (speed : Int) : Ccpacket :=
  if cmnd = panLeft then ccpacketSetPan pkt ccPanLeft speed
  else if cmnd = panRight then ccpacketSetPan pkt ccPanRight speed
  else if cmnd = tiltDown then ccpacketSetTilt pkt ccTiltDown speed
  else if cmnd = tiltUp then ccpacketSetTilt pkt ccTiltUp speed
  else pkt

/-- `decode_lens`. -/
def decodeLens (pkt : Ccpacket) (extra : Byte) : Ccpacket :=
  if extra = xlZoomIn then ccpacketSetZoom pkt ccZoomIn
  else if extra = xlZoomOut then ccpacketSetZoom pkt ccZoomOut
  else if extra = xlFocusFar then ccpacketSetFocus pkt ccFocusFar
  else if extra = xlFocusNear then ccpacketSetFocus pkt ccFocusNear
  else if extra = xlIrisOpen then ccpacketSetIris pkt ccIrisOpen
  else if extra = xlIrisClose then ccpacketSetIris pkt ccIrisClose
  else if extra = xlTiltDown then ccpacketSetTilt pkt ccTiltDown speedMax
  else if extra = xlPanLeft then ccpacketSetPan pkt ccPanLeft speedMax
  else pkt

/-- `decode_aux`. -/
def decodeAux (pkt : Ccpacket) (extra : Byte) : Ccpacket :=
  if extra = exAuxFullUp then ccpacketSetTilt pkt ccTiltUp speedMax
  else if extra = exAuxFullRight then ccpacketSetPan pkt ccPanRight speedMax
  else if extra = exAux1 then ccpacketSetCamera pkt ccCameraOff
  else if extra = exAux4 then ccpacketSetCamera pkt ccCameraOn
  else if extra = exAux6 then ccpacketSetWiper pkt ccWiperOn
  else pkt

/-- `decode_recall`. -/
def decodeRecall (pkt : Ccpacket) (extra : Byte) : Ccpacket :=
  ccpacketSetPreset pkt ccPresetRecall (extra.toNat + 1)

/-- `decode_extended`. -/
def decodeExtended (pkt : Ccpacket) (cmnd extra : Byte) : Ccpacket :=
  if cmnd = exLens then decodeLens pkt extra
  else if cmnd = exAux then decodeAux pkt extra
  else if cmnd = exRecall then decodeRecall pkt extra
  else if cmnd = exStore then ccpacketSetPreset pkt ccPresetStore (extra.toNat + 1)
  else pkt

/-- `decode_packet`. -/
def decodePacket (pkt : Ccpacket) (mess : List Byte) : Ccpacket :=
  let cmnd := decodeCommand mess
  if isPanTiltCommand mess then decodePanTilt pkt cmnd (decodeSpeed mess)
  else decodeExtended pkt cmnd (ptExtra mess)

theorem receiver_decodePanTilt (pkt : Ccpacket) (cmnd : Byte) (speed : Int) :
    (decodePanTilt pkt cmnd speed).receiver = pkt.receiver := by
  have hpan : ∀ pm speed, (ccpacketSetPan pkt pm speed).receiver = pkt.receiver := fun _ _ => rfl
  have htilt : ∀ tm speed, (ccpacketSetTilt pkt tm speed).receiver = pkt.receiver := fun _ _ => rfl
  simp only [decodePanTilt, apply_ite Ccpacket.receiver, hpan, htilt, ite_self]

theorem receiver_decodeExtended (pkt : Ccpacket) (cmnd extra : Byte) :
    (decodeExtended pkt cmnd extra).receiver = pkt.receiver := by
  have hpan : ∀ pm speed, (ccpacketSetPan pkt pm speed).receiver = pkt.receiver := fun _ _ => rfl
  have htilt : ∀ tm speed, (ccpacketSetTilt pkt tm speed).receiver = pkt.receiver := fun _ _ => rfl
  have hflags : ∀ mask m, (setFlags mask pkt m).receiver = pkt.receiver := fun _ _ => rfl
  simp only [decodeExtended, decodeLens, decodeAux, decodeRecall, ccpacketSetZoom, ccpacketSetFocus,
    ccpacketSetIris, ccpacketSetCamera, ccpacketSetWiper, apply_ite Ccpacket.receiver, hpan, htilt, hflags,
    receiver_setPreset, ite_self]

/-- Decoding a message leaves the receiver of the packet alone. -/
theorem receiver_decodePacket (pkt : Ccpacket) (mess : List Byte) :
    (decodePacket pkt mess).receiver = pkt.receiver := by
  simp only [decodePacket, apply_ite Ccpacket.receiver, receiver_decodePanTilt, receiver_decodeExtended,
    ite_self]

/-- `manchester_decode_packet`. -/
def manchesterDecodePacket (sink : Sink σ) (x : Ccreader × σ) (mess : List Byte) : Ccreader × σ :=
  let receiver := decodeReceiver mess
  let (rdr, s) := if x.1.packet.receiver ≠ receiver then ccreaderProcessPacket sink x.1 x.2 else x
  ({ rdr with packet := decodePacket (ccpacketSetReceiver rdr.packet receiver) mess }, s)

/-- `manchester_read_message`. -/
def manchesterReadMessage (sink : Sink σ) (st : ReadState σ) : Option (DecodeT × ReadState σ) :=
  let mess := st.rxbuf.data
  if mess.getD 0 0 &&& flag = 0 then do
    let rxbuf ← bufferConsume st.rxbuf 1
    return (.more, { st with rxbuf := rxbuf })
  else do
    let (rdr, world) := manchesterDecodePacket sink (st.rdr, st.world) (mess.take sizeMsg)
    let rxbuf ← bufferConsume st.rxbuf sizeMsg
    return (.more, ⟨rdr, rxbuf, world⟩)

/-- `manchester_do_read`: a partial message in the buffer holds the packet back. -/
def doRead (σ : Type) (sink : Sink σ) : DoRead σ := fun st => do
  let st ← readLoop sizeMsg (manchesterReadMessage sink) (bufferAvailable st.rxbuf + 1) st
  if bufferAvailable st.rxbuf = 0 then
    let (rdr, world) := ccreaderProcessPacket sink st.rdr st.world
    return ⟨rdr, st.rxbuf, world⟩
  else return st

/-- What a read with the given messages does, which may leave the buffer empty. -/
def readEffect (sink : Sink σ) (messages : List (List Byte)) (empty : Bool) (x : Ccreader × σ) :
    Ccreader × σ :=
  let x := messages.foldl (manchesterDecodePacket sink) x
  if empty then ccreaderProcessPacket sink x.1 x.2 else x

/-- The messages of a whole stream. -/
def frames : Scanner Byte := fixed sizeMsg (by decide) fun mess => mess.getD 0 0 &&& flag != 0

section Reading

variable {σ : Type} (decodePacket : Ccreader × σ → List Byte → Ccreader × σ)
  (process : Ccreader → σ → Ccreader × σ)

/-- `manchester_read_message`, with any `manchester_decode_packet`. -/
def readMessageWith (st : ReadState σ) : Option (DecodeT × ReadState σ) :=
  let mess := st.rxbuf.data
  if mess.getD 0 0 &&& flag = 0 then do
    let rxbuf ← bufferConsume st.rxbuf 1
    return (.more, { st with rxbuf := rxbuf })
  else do
    let (rdr, world) := decodePacket (st.rdr, st.world) (mess.take sizeMsg)
    let rxbuf ← bufferConsume st.rxbuf sizeMsg
    return (.more, ⟨rdr, rxbuf, world⟩)

/-- `manchester_do_read`, with any `manchester_decode_packet` and `ccreader_process_packet`. -/
def doReadWith : DoRead σ := fun st => do
  let st ← readLoop sizeMsg (readMessageWith decodePacket) (bufferAvailable st.rxbuf + 1) st
  if bufferAvailable st.rxbuf = 0 then
    let (rdr, world) := process st.rdr st.world
    return ⟨rdr, st.rxbuf, world⟩
  else return st

/-- What a read does, with these. -/
def effectWith (messages : List (List Byte)) (empty : Bool) (x : Ccreader × σ) : Ccreader × σ :=
  let x := messages.foldl decodePacket x
  if empty then process x.1 x.2 else x

theorem doRead_eq (sink : Sink σ) :
    doRead σ sink = doReadWith (manchesterDecodePacket sink) (ccreaderProcessPacket sink) := rfl

theorem getD_take_zero {s : List Byte} : (s.take sizeMsg).getD 0 0 = s.getD 0 0 := by
  rw [List.getD_eq_getElem?_getD, List.getD_eq_getElem?_getD, List.getElem?_take_of_lt (by decide)]

variable {decodePacket process}

/-- A byte that begins no message is left out. -/
theorem readMessageWith_skip {st : ReadState σ} (hpos : 0 < st.rxbuf.data.length)
    (hflag : st.rxbuf.data.getD 0 0 &&& flag = 0) : ∃ rxbuf,
      rxbuf.data = st.rxbuf.data.drop 1 ∧ Consumed st.rxbuf rxbuf ∧
      readMessageWith decodePacket st = some (.more, { st with rxbuf := rxbuf }) := by
  obtain ⟨rxbuf, hbuf, hdata, hconsumed⟩ := @bufferConsume_spec st.rxbuf 1 hpos
  refine ⟨rxbuf, hdata, hconsumed, ?_⟩
  simp only [readMessageWith, if_pos hflag, hbuf]
  rfl

/-- A message is decoded. -/
theorem readMessageWith_frame {st : ReadState σ} (hlen : sizeMsg ≤ st.rxbuf.data.length)
    (hflag : ¬st.rxbuf.data.getD 0 0 &&& flag = 0) : ∃ rxbuf,
      rxbuf.data = st.rxbuf.data.drop sizeMsg ∧ Consumed st.rxbuf rxbuf ∧
      readMessageWith decodePacket st = some (.more,
        ⟨(decodePacket (st.rdr, st.world) (st.rxbuf.data.take sizeMsg)).1, rxbuf,
          (decodePacket (st.rdr, st.world) (st.rxbuf.data.take sizeMsg)).2⟩) := by
  obtain ⟨rxbuf, hbuf, hdata, hconsumed⟩ := bufferConsume_spec hlen
  refine ⟨rxbuf, hdata, hconsumed, ?_⟩
  simp only [readMessageWith, if_neg hflag, hbuf]
  rfl

theorem judge_skip {s : List Byte} (hlen : sizeMsg ≤ s.length) (hflag : s.getD 0 0 &&& flag = 0) :
    frames.judge s = .skip := by
  refine fixed_skip hlen ?_
  rw [getD_take_zero, hflag]
  rfl

theorem judge_frame {s : List Byte} (hlen : sizeMsg ≤ s.length) (hflag : ¬s.getD 0 0 &&& flag = 0) :
    frames.judge s = .frame sizeMsg := by
  refine fixed_frame hlen ?_
  rw [getD_take_zero]
  exact bne_iff_ne.mpr hflag

theorem readMessageWith_decodes :
    Decodes frames sizeMsg sizeMsg decodePacket (readMessageWith decodePacket) := by
  intro st hlen
  refine Or.inl ?_
  have hpos : 0 < st.rxbuf.data.length := Nat.lt_of_lt_of_le (by decide) hlen
  by_cases hflag : st.rxbuf.data.getD 0 0 &&& flag = 0
  · obtain ⟨buf, hdata, hconsumed, hread⟩ := readMessageWith_skip hpos hflag
    refine ⟨{ st with rxbuf := buf }, [], hread, ⟨?_, hconsumed, rfl⟩, ?_⟩
    · show Follows frames _ _ buf.data
      rw [hdata, List.drop_one]
      exact follows_skip (judge_skip hlen hflag)
    · show buf.data.length < _
      rw [hdata, List.length_drop]
      omega
  · obtain ⟨buf, hdata, hconsumed, hread⟩ := readMessageWith_frame hlen hflag
    refine ⟨⟨_, buf, _⟩, [st.rxbuf.data.take sizeMsg], hread, ⟨?_, hconsumed, rfl⟩, ?_⟩
    · show Follows frames _ _ buf.data
      rw [hdata]
      exact follows_frame (judge_frame hlen hflag)
    · show buf.data.length < _
      rw [hdata, List.length_drop]
      have : 0 < sizeMsg := by decide
      omega

theorem doReadWith_reads :
    Reads frames sizeMsg (effectWith decodePacket process) (doReadWith decodePacket process) := by
  intro st
  obtain ⟨st', out, hloop, htakes, hwait, hlen⟩ :=
    readLoop_spec readMessageWith_decodes (fun _ => fixed_wait) le_rfl
      (Nat.lt_succ_self st.rxbuf.data.length)
  have hloop : readLoop sizeMsg (readMessageWith decodePacket) (bufferAvailable st.rxbuf + 1) st =
      some st' := hloop
  by_cases hempty : bufferAvailable st'.rxbuf = 0
  · refine ⟨⟨(process st'.rdr st'.world).1, st'.rxbuf, (process st'.rdr st'.world).2⟩, out, ?_,
      htakes.follows, hwait, hlen, htakes.consumed, ?_⟩
    · simp only [doReadWith, hloop, Option.bind_eq_bind, Option.bind_some, if_pos hempty]
      rfl
    · simp [effectWith, ← htakes.effect, bufferIsEmpty, hempty]
  · refine ⟨st', out, ?_, htakes.follows, hwait, hlen, htakes.consumed, ?_⟩
    · simp only [doReadWith, hloop, Option.bind_eq_bind, Option.bind_some, if_neg hempty]
      rfl
    · simp [effectWith, ← htakes.effect, bufferIsEmpty, hempty]

/-- **The loop** leaves what is behind the last message. -/
theorem readLoop_left : ∀ {fuel : Nat} {st st' : ReadState σ},
    readLoop sizeMsg (readMessageWith decodePacket) fuel st = some st' →
      st'.rxbuf.data = frames.left st.rxbuf.data
  | 0, _, _, h => by cases h
  | fuel + 1, st, st', h => by
    unfold readLoop at h
    by_cases hlen : sizeMsg ≤ st.rxbuf.data.length
    · have havail : bufferAvailable st.rxbuf ≥ sizeMsg := hlen
      rw [if_pos havail] at h
      by_cases hflag : st.rxbuf.data.getD 0 0 &&& flag = 0
      · obtain ⟨buf, hdata, -, hread⟩ :=
          @readMessageWith_skip σ decodePacket st (Nat.lt_of_lt_of_le (by decide) hlen) hflag
        rw [hread] at h
        have hrest := readLoop_left h
        rw [hrest, Scanner.left_skip (judge_skip hlen hflag), hdata, List.drop_one]
      · obtain ⟨buf, hdata, -, hread⟩ := @readMessageWith_frame σ decodePacket st hlen hflag
        rw [hread] at h
        have hrest := readLoop_left h
        rw [hrest, Scanner.left_frame (judge_frame hlen hflag), hdata]
    · have havail : ¬bufferAvailable st.rxbuf ≥ sizeMsg := hlen
      rw [if_neg havail, Option.some.injEq] at h
      have hwait : frames.judge st.rxbuf.data = .wait := fixed_wait (Nat.lt_of_not_le hlen)
      rw [← h, Scanner.left_wait hwait]

theorem doReadWith_left : LeavesRest frames (doReadWith decodePacket process) := by
  intro st st' h
  unfold doReadWith at h
  cases hloop : readLoop sizeMsg (readMessageWith decodePacket) (bufferAvailable st.rxbuf + 1) st with
  | none =>
    rw [hloop] at h
    cases h
  | some st₁ =>
    have hbuf : st'.rxbuf = st₁.rxbuf := by
      rw [hloop] at h
      simp only [Option.bind_eq_bind, Option.bind_some] at h
      split at h <;>
      · cases h
        rfl
    rw [hbuf]
    exact readLoop_left hloop

end Reading

theorem doRead_reads (sink : Sink σ) : Reads frames sizeMsg (readEffect sink) (doRead σ sink) :=
  doReadWith_reads

/-- **An incomplete message** leaves buffer, packet and writers as they are. -/
theorem doRead_wait (sink : Sink σ) {st : ReadState σ} (hwait : frames.judge st.rxbuf.data = .wait)
    (hne : st.rxbuf.data ≠ []) : doRead σ sink st = some st := by
  have hshort : st.rxbuf.data.length < sizeMsg := by
    by_contra hlen
    have hlen := Nat.le_of_not_lt hlen
    by_cases hflag : st.rxbuf.data.getD 0 0 &&& flag = 0
    · rw [judge_skip hlen hflag] at hwait
      cases hwait
    · rw [judge_frame hlen hflag] at hwait
      cases hwait
  have hempty : ¬bufferAvailable st.rxbuf = 0 := fun h => hne (List.length_eq_zero_iff.mp h)
  have hloop : readLoop sizeMsg (manchesterReadMessage sink) (bufferAvailable st.rxbuf + 1) st =
      some st := if_neg (Nat.not_le.mpr hshort)
  simp only [doRead, hloop, Option.bind_eq_bind, Option.bind_some, if_neg hempty]
  rfl

/-! ## Writing -/

/-- `encode_receiver`. -/
def encodeReceiver (mess : List Byte) (pkt : Ccpacket) : List Byte :=
  let rdr := BitVec.ofInt 32 (pkt.receiver - 1)
  ((mess.set 0 (flag ||| (rdr.sshiftRight 6 &&& 0x0f).setWidth 8)).set 1
    ((rdr.sshiftRight 5 &&& 0x01).setWidth 8)).set 2 (((rdr &&& 0x1f) <<< 2).setWidth 8)

/-- A message with a command in bits 4 and 5 of byte 1 and a value in bits 1 to 3. -/
def encodeMessage (txbuf : Buffer) (pkt : Ccpacket) (cmnd value b2 : Byte) : Buffer :=
  let mess := encodeReceiver (List.replicate sizeMsg 0) pkt
  let mess := mess.modify 1 (· ||| (cmnd <<< 4 ||| value <<< 1))
  ccwriterAppend txbuf (mess.modify 2 (· ||| b2))

/-- `encode_pan_tilt_command`. -/
def encodePanTiltCommand (txbuf : Buffer) (pkt : Ccpacket) (cmnd : Byte) (speed : Nat) : Buffer :=
  encodeMessage txbuf pkt cmnd (BitVec.ofNat 8 speed) ptCommand

/-- `encode_lens_function`. -/
def encodeLensFunction (txbuf : Buffer) (pkt : Ccpacket) (func : Byte) : Buffer :=
  encodeMessage txbuf pkt exLens func 0

/-- `encode_aux_function`. -/
def encodeAuxFunction (txbuf : Buffer) (pkt : Ccpacket) (aux : Byte) : Buffer :=
  encodeMessage txbuf pkt exAux aux 0

/-- `encode_recall_function`. -/
def encodeRecallFunction (txbuf : Buffer) (pkt : Ccpacket) (preset : Int) : Buffer :=
  encodeMessage txbuf pkt exRecall (BitVec.ofInt 8 preset) 0

/-- `encode_store_function`. -/
def encodeStoreFunction (txbuf : Buffer) (pkt : Ccpacket) (preset : Int) : Buffer :=
  encodeMessage txbuf pkt exStore (BitVec.ofInt 8 preset) 0

/-- `manchester_encode_speed`: the next higher speed of the table. -/
def manchesterEncodeSpeed (speed : Int) : Nat :=
  (speedTable.take speedFull).findIdx fun s => decide (s ≥ speed)

/-- `encode_pan`. -/
def encodePan (txbuf : Buffer) (pkt : Ccpacket) : Buffer :=
  let pm := ccpacketGetPanMode pkt
  let speed := manchesterEncodeSpeed pkt.pan
  if pm = ccPanLeft then
    if speed = speedFull then encodeLensFunction txbuf pkt xlPanLeft
    else encodePanTiltCommand txbuf pkt panLeft speed
  else if pm = ccPanRight then
    if speed = speedFull then encodeAuxFunction txbuf pkt exAuxFullRight
    else encodePanTiltCommand txbuf pkt panRight speed
  else txbuf

/-- `encode_tilt`. -/
def encodeTilt (txbuf : Buffer) (pkt : Ccpacket) : Buffer :=
  let tm := ccpacketGetTiltMode pkt
  let speed := manchesterEncodeSpeed pkt.tilt
  if tm = ccTiltDown then
    if speed = speedFull then encodeLensFunction txbuf pkt xlTiltDown
    else encodePanTiltCommand txbuf pkt tiltDown speed
  else if tm = ccTiltUp then
    if speed = speedFull then encodeAuxFunction txbuf pkt exAuxFullUp
    else encodePanTiltCommand txbuf pkt tiltUp speed
  else txbuf

/-- `encode_zoom`. -/
def encodeZoom (txbuf : Buffer) (pkt : Ccpacket) : Buffer :=
  if ccpacketGetZoom pkt = ccZoomOut then encodeLensFunction txbuf pkt xlZoomOut
  else if ccpacketGetZoom pkt = ccZoomIn then encodeLensFunction txbuf pkt xlZoomIn
  else txbuf

/-- `encode_focus`. -/
def encodeFocus (txbuf : Buffer) (pkt : Ccpacket) : Buffer :=
  if ccpacketGetFocus pkt = ccFocusNear then encodeLensFunction txbuf pkt xlFocusNear
  else if ccpacketGetFocus pkt = ccFocusFar then encodeLensFunction txbuf pkt xlFocusFar
  else txbuf

/-- `encode_iris`. -/
def encodeIris (txbuf : Buffer) (pkt : Ccpacket) : Buffer :=
  if ccpacketGetIris pkt = ccIrisClose then encodeLensFunction txbuf pkt xlIrisClose
  else if ccpacketGetIris pkt = ccIrisOpen then encodeLensFunction txbuf pkt xlIrisOpen
  else txbuf

/-- `encode_aux`. -/
def encodeAux (txbuf : Buffer) (pkt : Ccpacket) : Buffer :=
  if ccpacketGetCamera pkt = ccCameraOff then encodeAuxFunction txbuf pkt exAux1
  else if ccpacketGetCamera pkt = ccCameraOn then encodeAuxFunction txbuf pkt exAux4
  else if ccpacketGetWiper pkt = ccWiperOn then encodeAuxFunction txbuf pkt exAux6
  else txbuf

/-- `encode_preset`: presets 1 to 8 only. -/
def encodePreset (txbuf : Buffer) (pkt : Ccpacket) : Buffer :=
  let preset := pkt.preset
  if preset < 1 ∨ preset > 8 then txbuf
  else if ccpacketGetPresetMode pkt = ccPresetRecall then encodeRecallFunction txbuf pkt (preset - 1)
  else if ccpacketGetPresetMode pkt = ccPresetStore then encodeStoreFunction txbuf pkt (preset - 1)
  else txbuf

/-- `manchester_do_write`: the transmit buffer, the packet, and the count of packets. -/
def doWrite (txbuf : Buffer) (pkt : Ccpacket) : Buffer × Ccpacket × Nat :=
  if pkt.receiver < 1 ∨ pkt.receiver > maxAddress then (txbuf, pkt, 0)
  else
    let txbuf := if ccpacketHasPan pkt then encodePan txbuf pkt else txbuf
    let txbuf := if pkt.tilt ≠ 0 then encodeTilt txbuf pkt else txbuf
    let txbuf := encodeZoom txbuf pkt
    let txbuf := encodeFocus txbuf pkt
    let txbuf := encodeIris txbuf pkt
    let txbuf := encodeAux txbuf pkt
    (encodePreset txbuf pkt, pkt, 1)

end Protozoa.Manchester
