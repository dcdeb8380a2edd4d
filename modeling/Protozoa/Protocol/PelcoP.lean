import Protozoa.Protocol.Pelco

/-!
# Pelco P (`pelco_p.c`)

Messages of eight bytes: `STX`, receiver, four bytes of command, `ETX`, and the exclusive or of
bytes 0 to 6 (`pelco_p.c:86-92`). A reader with `PT_DEADZONE` (protocol `pelco_p7`) takes speeds
below 7 as none (`decode_speed0`, `decode_speed7`, `pelco_p.c:107-129`).

* `decodeSense` (`pelco_p.c:182-191`), `decode` (`pelco_p.c:196-263`), `pelcoDecodeMessage`
  (`pelco_p.c:311-332`) and `doRead` (`pelco_p.c:337-342`).
* `encodeSense` (`pelco_p.c:430-438`), `encodeCommand` (`pelco_p.c:450-460`) and `doWrite`
  (`pelco_p.c:514-529`).
* `packetOf`, `doRead_reads`: as for Pelco D.
-/

namespace Protozoa.PelcoP

open Lib.Scan Pelco

variable {σ : Type}

/-- `SIZE_MSG`. -/
def sizeMsg : Nat := 8

/-- `PELCO_P_MAX_ADDRESS`. -/
def maxAddress : Int := 254

def pelcoPGaptime : Nat := 80
def pelcoPTimeout : Nat := 15000

/-- `STX`. -/
def stx : Byte := 0xa0

/-- `ETX`. -/
def etx : Byte := 0xaf

def lensBits : LensBits where
  focusFar := 16
  focusNear := 17
  irisOpen := 18
  irisClose := 19

def bitCameraOnOff : Nat := 20
def bitAutoPan : Nat := 21
def bitCameraOn : Nat := 22

/-- `calculate_checksum`: the exclusive or of bytes 0 to 6. -/
def calculateChecksum (mess : List Byte) : Byte :=
  [0, 1, 2, 3, 4, 5, 6].foldl (fun checksum i => checksum ^^^ mess.getD i 0) 0

/-- `checksum_is_valid`. -/
def checksumIsValid (mess : List Byte) : Bool := calculateChecksum mess == mess.getD 7 0

/-! ## Reading -/

/-- `decode_speed0`. -/
def decodeSpeed0 (val : Byte) : Int := (val.toNat <<< 5 : Nat)

/-- `decode_speed7`. -/
def decodeSpeed7 (val : Byte) : Int :=
  if val.toNat ≥ 7 then ((val.toNat : Int) - 6) * speedMax / (64 - 6) else 0

/-- `decode_speed`. -/
def decodeSpeed (val : Byte) (flags : BitVec 32) : Int :=
  let speed := if flags &&& ptDeadzone ≠ 0 then decodeSpeed7 val else decodeSpeed0 val
  if speed > speedMax then speedMax else speed

/-- `decode_sense`. -/
def decodeSense (pkt : Ccpacket) (mess : List Byte) : Ccpacket :=
  let pkt :=
    if bitIsSet mess bitCameraOnOff then
      if bitIsSet mess bitCameraOn then ccpacketSetCamera pkt ccCameraOn
      else ccpacketSetCamera pkt ccCameraOff
    else pkt
  if bitIsSet mess bitAutoPan then ccpacketSetPan pkt ccPanAuto 0 else pkt

/-- `pelco_decode_command`, up to `ccreader_process_packet`. -/
def pelcoDecodeCommand (flags : BitVec 32) (pkt : Ccpacket) (mess : List Byte) : Ccpacket :=
  let pkt := decodeReceiver pkt mess
  let pkt := decodePan (decodeSpeed (mess.getD 4 0) flags) pkt mess
  let pkt := decodeTilt (decodeSpeed (mess.getD 5 0) flags) pkt mess
  let pkt := decodeLens lensBits pkt mess
  decodeSense pkt mess

/-- What a message does to the packet of the reader. -/
def decode (flags : BitVec 32) (mess : List Byte) (pkt : Ccpacket) : Ccpacket :=
  if bitIsSet mess bitExtended then pelcoDecodeExtended pkt mess
  else pelcoDecodeCommand flags pkt mess

/-- The packet of a message. -/
def packetOf (flags : BitVec 32) (mess : List Byte) : Ccpacket :=
  decode flags mess (ccpacketCreate ⟨0, 0⟩)

/-- `pelco_decode_message`. -/
def pelcoDecodeMessage (sink : Sink σ) (st : ReadState σ) : Option (DecodeT × ReadState σ) :=
  let mess := st.rxbuf.data.take sizeMsg
  if mess.getD 0 0 ≠ stx then pelcoDiscardGarbage stx st
  else if mess.getD 6 0 ≠ etx then pelcoDiscardGarbage stx st
  else if ¬checksumIsValid mess then pelcoDiscardGarbage stx st
  else do
    let rxbuf ← bufferConsume st.rxbuf sizeMsg
    let (rdr, world) := decodeAndProcess decode sink (st.rdr, st.world) mess
    return (.more, ⟨rdr, rxbuf, world⟩)

/-- `pelco_p_do_read`. -/
def doRead (σ : Type) (sink : Sink σ) : DoRead σ := fun st =>
  readLoop sizeMsg (pelcoDecodeMessage sink) (bufferAvailable st.rxbuf + 1) st

/-- A whole message is valid. -/
def valid (mess : List Byte) : Bool :=
  mess.getD 0 0 == stx && mess.getD 6 0 == etx && checksumIsValid mess

/-- The naive scan for messages. -/
def frames : Scanner Byte := fixed sizeMsg (by decide) valid

theorem ignoresExpire_decode (flags : BitVec 32) (mess : List Byte) :
    IgnoresExpire fun pkt => decode flags mess pkt := by
  have hsense : IgnoresExpire fun pkt => decodeSense pkt mess :=
    .comp (.ite (.setPan _ _) .id) (.ite (.ite (.setFlags _ _) (.setFlags _ _)) .id)
  refine .ite (ignoresExpire_decodeExtended mess) ?_
  exact .comp hsense (.comp (ignoresExpire_decodeLens _ _) (.comp (ignoresExpire_decodeTilt _ _)
    (.comp (ignoresExpire_decodePan _ _) (.setReceiver _))))

theorem decode_blank (flags : BitVec 32) (mess : List Byte) (r : Int) (e : Timeval) :
    decode flags mess ⟨r, 0, 0, 0, 0, e⟩ = { packetOf flags mess with expire := e } :=
  (ignoresExpire_decode flags mess).blank (fun _ _ => rfl) r e

theorem decodeMessage_decodes (sink : Sink σ) :
    Decodes frames sizeMsg sizeMsg (decodeAndProcess decode sink) (pelcoDecodeMessage sink) := by
  refine @pelco_decodes σ sizeMsg (by decide) valid stx _ _ ?_ ?_ ?_
  · intro b hb f
    simp [valid, hb]
  · intro st hv
    simp only [valid, Bool.and_eq_false_iff, beq_eq_false_iff_ne] at hv
    simp only [pelcoDecodeMessage]
    split
    · rfl
    rename_i h0
    split
    · rfl
    rename_i h6
    have hsum := hv.resolve_left fun h => h.elim h0 h6
    rw [hsum]
    rfl
  · intro st buf hv hbuf
    simp only [valid, Bool.and_eq_true, beq_iff_eq] at hv
    simp only [pelcoDecodeMessage, hv.1.1, hv.1.2, hv.2, hbuf]
    rfl

theorem doRead_reads (sink : Sink σ) :
    Reads frames sizeMsg (fun out _ x => out.foldl (decodeAndProcess decode sink) x)
      (doRead σ sink) :=
  (decodeMessage_decodes sink).reads (fun _ => fixed_wait) le_rfl

/-! ## Writing -/

/-- `encode_receiver`, `encode_checksum`. -/
def framing : Framing where
  size := sizeMsg
  encodeReceiver mess pkt := ((mess.set 0 stx).set 1 (BitVec.ofInt 8 pkt.receiver)).set 6 etx
  encodeChecksum mess := mess.set 7 (calculateChecksum mess)

/-- `encode_sense`. -/
def encodeSense (mess : List Byte) (pkt : Ccpacket) : List Byte :=
  let mess :=
    if ccpacketGetCamera pkt = ccCameraOn then bitSet (bitSet mess bitCameraOnOff) bitCameraOn
    else if ccpacketGetCamera pkt = ccCameraOff then bitSet mess bitCameraOnOff
    else mess
  if ccpacketGetPanMode pkt = ccPanAuto then bitSet mess bitAutoPan else mess

/-- `encode_command`. -/
def encodeCommand (txbuf : Buffer) (pkt : Ccpacket) : Buffer :=
  let mess := framing.encodeReceiver (List.replicate sizeMsg 0) pkt
  let mess := encodePan mess pkt
  let mess := encodeTilt mess pkt
  let mess := encodeLens lensBits mess pkt
  let mess := encodeSense mess pkt
  ccwriterAppend txbuf (framing.encodeChecksum mess)

/-- `pelco_p_do_write`. -/
def doWrite (txbuf : Buffer) (pkt : Ccpacket) : Buffer × Ccpacket × Nat :=
  if pkt.receiver < 1 ∨ pkt.receiver > maxAddress then (txbuf, pkt, 0)
  else
    let pkt := adjustMenuCommands pkt
    let txbuf :=
      if ccpacketHasCommand pkt || ccpacketHasAutopan pkt || ccpacketHasPower pkt then
        encodeCommand txbuf pkt
      else txbuf
    let txbuf := if ccpacketGetPresetMode pkt ≠ 0 then encodePreset framing txbuf pkt else txbuf
    let txbuf := if ccpacketGetWiper pkt ≠ 0 then encodeWiper framing txbuf pkt else txbuf
    (txbuf, pkt, 1)

end Protozoa.PelcoP
