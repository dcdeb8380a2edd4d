import Protozoa.Protocol.Pelco

/-!
# Pelco D (`pelco_d.c`)

Messages of seven bytes: `FLAG`, receiver, four bytes of command, and the sum of bytes 1 to 5
(`pelco_d.c:84-90`).

* `decodeSense` (`pelco_d.c:160-172`), `decode` (`pelco_d.c:177-244`), `pelcoDecodeMessage`
  (`pelco_d.c:292-309`) and `doRead` (`pelco_d.c:314-319`).
* `encodeSense` (`pelco_d.c:406-421`), `encodeCommand` (`pelco_d.c:433-443`); `doWriteCb`
  (`pelco_d.c:497-519`) writes up to three messages for a packet, each behind what `prepare_writer`
  puts there. Infinova has one of its own.
* `packetOf`: the packet of a frame, which depends on nothing that was read before (`decode_blank`).
* `doRead_reads` is the reader against the scanner `frames`.

Out of scope: `pelco_log_discard` (`pelco_d.c:249-263`) but for its loop, which
`Protocol/Checked.lean` has.
-/

namespace Protozoa.PelcoD

open Lib.Scan Pelco

variable {σ : Type}

/-- `PELCO_D_SZ`. -/
def pelcoDSz : Nat := 7

/-- `PELCO_D_MAX_ADDRESS`. -/
def maxAddress : Int := 254

def pelcoDGaptime : Nat := 80
def pelcoDTimeout : Nat := 15000

/-- `FLAG`. -/
def flag : Byte := 0xff

def lensBits : LensBits where
  focusNear := 16
  irisOpen := 17
  irisClose := 18
  focusFar := 31

def bitCameraOnOff : Nat := 19
def bitAutoPan : Nat := 20
def bitSense : Nat := 23

/-- `calculate_checksum`: the sum of bytes 1 to 5, as a `uint8_t`. -/
def calculateChecksum (mess : List Byte) : Byte :=
  [1, 2, 3, 4, 5].foldl (fun checksum i => checksum + mess.getD i 0) 0

/-- `checksum_is_valid`. -/
def checksumIsValid (mess : List Byte) : Bool := calculateChecksum mess == mess.getD 6 0

/-! ## Reading -/

/-- `decode_speed`. -/
def decodeSpeed (val : Byte) : Int :=
  let speed : Int := (val.toNat <<< 5 : Nat)
  if speed > speedMax then speedMax else speed

/-- `decode_sense`. -/
def decodeSense (pkt : Ccpacket) (mess : List Byte) : Ccpacket :=
  if bitIsSet mess bitSense then
    let pkt := if bitIsSet mess bitCameraOnOff then ccpacketSetCamera pkt ccCameraOn else pkt
    if bitIsSet mess bitAutoPan then ccpacketSetPan pkt ccPanAuto 0 else pkt
  else
    let pkt := if bitIsSet mess bitCameraOnOff then ccpacketSetCamera pkt ccCameraOff else pkt
    if bitIsSet mess bitAutoPan then ccpacketSetPan pkt ccPanManual 0 else pkt

/-- `pelco_decode_command`, up to `ccreader_process_packet`. -/
def pelcoDecodeCommand (pkt : Ccpacket) (mess : List Byte) : Ccpacket :=
  let pkt := decodeReceiver pkt mess
  let pkt := decodePan (decodeSpeed (mess.getD 4 0)) pkt mess
  let pkt := decodeTilt (decodeSpeed (mess.getD 5 0)) pkt mess
  let pkt := decodeLens lensBits pkt mess
  decodeSense pkt mess

/-- What a message does to the packet of the reader; the flags of the reader play no part. -/
def decode (_flags : BitVec 32) (mess : List Byte) (pkt : Ccpacket) : Ccpacket :=
  if bitIsSet mess bitExtended then pelcoDecodeExtended pkt mess else pelcoDecodeCommand pkt mess

/-- The packet of a message. -/
def packetOf (flags : BitVec 32) (mess : List Byte) : Ccpacket :=
  decode flags mess (ccpacketCreate ⟨0, 0⟩)

/-- `pelco_decode_message`. -/
def pelcoDecodeMessage (sink : Sink σ) (st : ReadState σ) : Option (DecodeT × ReadState σ) :=
  let mess := st.rxbuf.data.take pelcoDSz
  if mess.getD 0 0 ≠ flag then pelcoDiscardGarbage flag st
  else if ¬checksumIsValid mess then pelcoDiscardGarbage flag st
  else do
    let rxbuf ← bufferConsume st.rxbuf pelcoDSz
    let (rdr, world) := decodeAndProcess decode sink (st.rdr, st.world) mess
    return (.more, ⟨rdr, rxbuf, world⟩)

/-- `pelco_d_do_read`. -/
def doRead (σ : Type) (sink : Sink σ) : DoRead σ := fun st =>
  readLoop pelcoDSz (pelcoDecodeMessage sink) (bufferAvailable st.rxbuf + 1) st

/-- A whole message is valid. -/
def valid (mess : List Byte) : Bool := mess.getD 0 0 == flag && checksumIsValid mess

/-- The naive scan for messages. -/
def frames : Scanner Byte := fixed pelcoDSz (by decide) valid

theorem ignoresExpire_decode (flags : BitVec 32) (mess : List Byte) :
    IgnoresExpire fun pkt => decode flags mess pkt := by
  have hsense : IgnoresExpire fun pkt => decodeSense pkt mess := by
    refine .ite ?_ ?_
    · exact .comp (.ite (.setPan _ _) .id) (.ite (.setFlags _ _) .id)
    · exact .comp (.ite (.setPan _ _) .id) (.ite (.setFlags _ _) .id)
  refine .ite (ignoresExpire_decodeExtended mess) ?_
  exact .comp hsense (.comp (ignoresExpire_decodeLens _ _) (.comp (ignoresExpire_decodeTilt _ _)
    (.comp (ignoresExpire_decodePan _ _) (.setReceiver _))))

theorem decode_blank (flags : BitVec 32) (mess : List Byte) (r : Int) (e : Timeval) :
    decode flags mess ⟨r, 0, 0, 0, 0, e⟩ = { packetOf flags mess with expire := e } :=
  (ignoresExpire_decode flags mess).blank (fun _ _ => rfl) r e

theorem decodeMessage_decodes (sink : Sink σ) :
    Decodes frames pelcoDSz pelcoDSz (decodeAndProcess decode sink) (pelcoDecodeMessage sink) := by
  refine @pelco_decodes σ pelcoDSz (by decide) valid flag _ _ ?_ ?_ ?_
  · intro b hb f
    simp [valid, hb]
  · intro st hv
    simp only [valid, Bool.and_eq_false_iff, beq_eq_false_iff_ne] at hv
    simp only [pelcoDecodeMessage]
    split
    · rfl
    · rename_i h0
      have hsum := hv.resolve_left h0
      rw [hsum]
      rfl
  · intro st buf hv hbuf
    simp only [valid, Bool.and_eq_true, beq_iff_eq] at hv
    simp only [pelcoDecodeMessage, hv.1, hv.2, hbuf]
    rfl

theorem doRead_reads (sink : Sink σ) :
    Reads frames pelcoDSz (fun out _ x => out.foldl (decodeAndProcess decode sink) x)
      (doRead σ sink) :=
  (decodeMessage_decodes sink).reads (fun _ => fixed_wait) le_rfl

/-! ## Writing -/

/-- `encode_receiver`, `encode_checksum`. -/
def framing : Framing where
  size := pelcoDSz
  encodeReceiver mess pkt := (mess.set 0 flag).set 1 (BitVec.ofInt 8 pkt.receiver)
  encodeChecksum mess := mess.set 6 (calculateChecksum mess)

/-- `encode_sense`. -/
def encodeSense (mess : List Byte) (pkt : Ccpacket) : List Byte :=
  let cc := ccpacketGetCamera pkt
  let pm := ccpacketGetPanMode pkt
  if cc = ccCameraOn ∨ pm = ccPanAuto then
    let mess := bitSet mess bitSense
    let mess := if cc = ccCameraOn then bitSet mess bitCameraOnOff else mess
    if pm = ccPanAuto then bitSet mess bitAutoPan else mess
  else if cc = ccCameraOff ∨ pm = ccPanManual then
    let mess := if cc = ccCameraOff then bitSet mess bitCameraOnOff else mess
    if pm = ccPanManual then bitSet mess bitAutoPan else mess
  else mess

/-- `encode_command`. -/
def encodeCommand (txbuf : Buffer) (pkt : Ccpacket) : Buffer :=
  let mess := framing.encodeReceiver (List.replicate pelcoDSz 0) pkt
  let mess := encodePan mess pkt
  let mess := encodeTilt mess pkt
  let mess := encodeLens lensBits mess pkt
  let mess := encodeSense mess pkt
  ccwriterAppend txbuf (framing.encodeChecksum mess)

/-- `if(prepare_writer(wtr)) encode_x(wtr, pkt)`. -/
def prepared (prepareWriter : Buffer → Bool × Buffer) (encode : Buffer → Ccpacket → Buffer)
    (txbuf : Buffer) (pkt : Ccpacket) : Buffer :=
  match prepareWriter txbuf with
  | (true, txbuf) => encode txbuf pkt
  | (false, txbuf) => txbuf

/-- `pelco_d_do_write_cb`: the transmit buffer, the packet, and the count of packets. -/
def doWriteCb (prepareWriter : Buffer → Bool × Buffer) (txbuf : Buffer) (pkt : Ccpacket) :
    Buffer × Ccpacket × Nat :=
  if pkt.receiver < 1 ∨ pkt.receiver > maxAddress then (txbuf, pkt, 0)
  else
    let pkt := adjustMenuCommands pkt
    let txbuf :=
      if ccpacketHasCommand pkt || ccpacketHasAutopan pkt || ccpacketHasPower pkt then
        prepared prepareWriter encodeCommand txbuf pkt
      else txbuf
    let txbuf :=
      if ccpacketGetPresetMode pkt ≠ 0 then prepared prepareWriter (encodePreset framing) txbuf pkt
      else txbuf
    let txbuf :=
      if ccpacketGetWiper pkt ≠ 0 then prepared prepareWriter (encodeWiper framing) txbuf pkt
      else txbuf
    (txbuf, pkt, 1)

/-- `pelco_d_prepare_true`. -/
def pelcoDPrepareTrue (txbuf : Buffer) : Bool × Buffer := (true, txbuf)

/-- `pelco_d_do_write`. -/
def doWrite (txbuf : Buffer) (pkt : Ccpacket) : Buffer × Ccpacket × Nat :=
  doWriteCb pelcoDPrepareTrue txbuf pkt

end Protozoa.PelcoD
