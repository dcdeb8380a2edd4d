import Protozoa.Ccreader

/-!
# What Pelco D and Pelco P share (`pelco_d.c`, `pelco_p.c`)

The two files of the source define most of their functions twice. Here is one copy, with what
differs as a parameter: the length of a message, its first byte, the bits of the lens commands, the
frame around a message (`Framing`) and the speeds. `PelcoD` and `PelcoP` apply these to their own
values.

* Decoding: `decodePan`, `decodeTilt`, `decodeLens` (`pelco_d.c:116-155`, `pelco_p.c:134-177`) and
  `decodeExtended` (`pelco_d.c:206-229`, `pelco_p.c:225-248`).
* `pelcoDiscardGarbage` (`pelco_d.c:268-280`, `pelco_p.c:287-299`) may drop many bytes at once, up
  to the next byte a message can begin with.
* Encoding: `encodePan` to `encodeLens` (`pelco_d.c:356-401`, `pelco_p.c:380-425`), `encodePreset`,
  `encodeWiper` and `adjustMenuCommands` (`pelco_d.c:448-492`, `pelco_p.c:465-509`).

`ignoresExpire_decodeExtended` and its fellows say that decoding does not look at the expiration
time, and **`pelco_decodes`** that discarding loses no message, whatever has arrived of the stream.

The functions in which the two files differ, `decode_sense` and `encode_sense`, the checksums and
the speeds, are in `Protocol/PelcoD.lean` and `Protocol/PelcoP.lean`.
-/

namespace Protozoa.Pelco

open Lib.Scan

variable {σ : Type}

/-- The bits both protocols share. -/
def bitExtended : Nat := 24
def bitPanRight : Nat := 25
def bitPanLeft : Nat := 26
def bitTiltUp : Nat := 27
def bitTiltDown : Nat := 28
def bitZoomIn : Nat := 29
def bitZoomOut : Nat := 30

/-- The bits of focus and iris. -/
structure LensBits where
  focusNear : Nat
  focusFar : Nat
  irisOpen : Nat
  irisClose : Nat

/-- `enum extended_t`, those with a meaning to a reader or a writer. -/
def exStore : Byte := 1
def exClear : Byte := 2
def exRecall : Byte := 3
def exAuxSet : Byte := 4
def exAuxClear : Byte := 5

/-- `EX_AUX_WIPER`. -/
def exAuxWiper : Byte := 1

/-- `PELCO_PRESET_MENU_OPEN`. -/
def pelcoPresetMenuOpen : Int := 95

/-- `TURBO_SPEED`. -/
def turboSpeed : Int := 64

/-! ## Decoding -/

/-- `decode_receiver`. -/
def decodeReceiver (pkt : Ccpacket) (mess : List Byte) : Ccpacket :=
  ccpacketSetReceiver pkt (mess.getD 1 0).toNat

/-- `decode_pan`, with the speed of the message. -/
def decodePan (pan : Int) (pkt : Ccpacket) (mess : List Byte) : Ccpacket :=
  if bitIsSet mess bitPanRight then ccpacketSetPan pkt ccPanRight pan
  else if bitIsSet mess bitPanLeft then ccpacketSetPan pkt ccPanLeft pan
  else ccpacketSetPan pkt ccPanLeft 0

/-- `decode_tilt`, with the speed of the message. -/
def decodeTilt (tilt : Int) (pkt : Ccpacket) (mess : List Byte) : Ccpacket :=
  if bitIsSet mess bitTiltUp then ccpacketSetTilt pkt ccTiltUp tilt
  else if bitIsSet mess bitTiltDown then ccpacketSetTilt pkt ccTiltDown tilt
  else ccpacketSetTilt pkt ccTiltDown 0

/-- `decode_lens`. -/
def decodeLens (bits : LensBits) (pkt : Ccpacket) (mess : List Byte) : Ccpacket :=
  let pkt :=
    if bitIsSet mess bits.irisOpen then ccpacketSetIris pkt ccIrisOpen
    else if bitIsSet mess bits.irisClose then ccpacketSetIris pkt ccIrisClose
    else pkt
  let pkt :=
    if bitIsSet mess bits.focusNear then ccpacketSetFocus pkt ccFocusNear
    else if bitIsSet mess bits.focusFar then ccpacketSetFocus pkt ccFocusFar
    else pkt
  if bitIsSet mess bitZoomIn then ccpacketSetZoom pkt ccZoomIn
  else if bitIsSet mess bitZoomOut then ccpacketSetZoom pkt ccZoomOut
  else pkt

/-- `decode_aux_set`. -/
def decodeAuxSet (pkt : Ccpacket) (p0 : Byte) : Ccpacket :=
  if p0 = exAuxWiper then ccpacketSetWiper pkt ccWiperOn else pkt

/-- `decode_aux_clear`. -/
def decodeAuxClear (pkt : Ccpacket) (p0 : Byte) : Ccpacket :=
  if p0 = exAuxWiper then ccpacketSetWiper pkt ccWiperOff else pkt

/-- `decode_extended`. -/
def decodeExtended (pkt : Ccpacket) (ex p0 : Byte) : Ccpacket :=
  if ex = exStore then ccpacketSetPreset pkt ccPresetStore p0.toNat
  else if ex = exRecall then ccpacketSetPreset pkt ccPresetRecall p0.toNat
  else if ex = exClear then ccpacketSetPreset pkt ccPresetClear p0.toNat
  else if ex = exAuxSet then decodeAuxSet pkt p0
  else if ex = exAuxClear then decodeAuxClear pkt p0
  else pkt

/-- `mess[3] >> 1 & 0x1f`, the extended function of a message. -/
def extendedFunction (mess : List Byte) : Byte := (mess.getD 3 0) >>> 1 &&& 0x1f

/-- `pelco_decode_extended`, up to `ccreader_process_packet`. -/
def pelcoDecodeExtended (pkt : Ccpacket) (mess : List Byte) : Ccpacket :=
  decodeExtended (decodeReceiver pkt mess) (extendedFunction mess) (mess.getD 5 0)

/-- `pelco_discard_garbage`: the loop passes the bytes up to the next one that can begin a message.
-/
def pelcoDiscardGarbage (start : Byte) (st : ReadState σ) : Option (DecodeT × ReadState σ) := do
  let nBytes := 1 + ((st.rxbuf.data.drop 1).takeWhile (· ≠ start)).length
  let rxbuf ← bufferConsume st.rxbuf nBytes
  return (.more, { st with rxbuf := rxbuf })

/-! ## Encoding -/

/-- What `encode_receiver` and `encode_checksum` put around a message. -/
structure Framing where
  size : Nat
  encodeReceiver : List Byte → Ccpacket → List Byte
  encodeChecksum : List Byte → List Byte

/-- `pelco_d_encode_speed`, `pelco_p_encode_speed`. -/
def encodeSpeed (speed : Int) : Int :=
  let s := speed >>> (5 : Nat) + (speed.tmod 32) >>> (4 : Nat)
  if s < turboSpeed then s else turboSpeed - 1

/-- `pelco_d_encode_pan_speed`, `pelco_p_encode_pan_speed`. -/
def encodePanSpeed (speed : Int) : Int :=
  if speed > speedMax - 8 then turboSpeed else encodeSpeed speed

/-- `encode_pan`. -/
def encodePan (mess : List Byte) (pkt : Ccpacket) : List Byte :=
  let mess := mess.set 4 (BitVec.ofInt 8 (encodePanSpeed pkt.pan))
  if ccpacketHasPan pkt then
    if ccpacketGetPanMode pkt = ccPanLeft then bitSet mess bitPanLeft
    else if ccpacketGetPanMode pkt = ccPanRight then bitSet mess bitPanRight
    else mess.set 4 0
  else mess

/-- `encode_tilt`. -/
def encodeTilt (mess : List Byte) (pkt : Ccpacket) : List Byte :=
  let tilt := encodeSpeed pkt.tilt
  let mess := mess.set 5 (BitVec.ofInt 8 tilt)
  if tilt ≠ 0 then
    if ccpacketGetTiltMode pkt = ccTiltUp then bitSet mess bitTiltUp
    else if ccpacketGetTiltMode pkt = ccTiltDown then bitSet mess bitTiltDown
    else mess.set 5 0
  else mess

/-- `encode_lens`. -/
def encodeLens (bits : LensBits) (mess : List Byte) (pkt : Ccpacket) : List Byte :=
  let mess :=
    if ccpacketGetIris pkt = ccIrisOpen then bitSet mess bits.irisOpen
    else if ccpacketGetIris pkt = ccIrisClose then bitSet mess bits.irisClose
    else mess
  let mess :=
    if ccpacketGetFocus pkt = ccFocusNear then bitSet mess bits.focusNear
    else if ccpacketGetFocus pkt = ccFocusFar then bitSet mess bits.focusFar
    else mess
  if ccpacketGetZoom pkt = ccZoomIn then bitSet mess bitZoomIn
  else if ccpacketGetZoom pkt = ccZoomOut then bitSet mess bitZoomOut
  else mess

/-- `mess[3] |= ex << 1`. -/
def setExtendedFunction (mess : List Byte) (ex : Byte) : List Byte := mess.modify 3 (· ||| ex <<< 1)

/-- `encode_preset`. -/
def encodePreset (fr : Framing) (txbuf : Buffer) (pkt : Ccpacket) : Buffer :=
  let pm := ccpacketGetPresetMode pkt
  let mess := fr.encodeReceiver (List.replicate fr.size 0) pkt
  let mess := bitSet mess bitExtended
  let mess :=
    if pm = ccPresetRecall then setExtendedFunction mess exRecall
    else if pm = ccPresetStore then setExtendedFunction mess exStore
    else if pm = ccPresetClear then setExtendedFunction mess exClear
    else mess
  let mess := mess.set 5 (BitVec.ofInt 8 pkt.preset)
  ccwriterAppend txbuf (fr.encodeChecksum mess)

/-- `encode_wiper`. -/
def encodeWiper (fr : Framing) (txbuf : Buffer) (pkt : Ccpacket) : Buffer :=
  let ex := if ccpacketGetWiper pkt = ccWiperOn then exAuxSet else exAuxClear
  let mess := fr.encodeReceiver (List.replicate fr.size 0) pkt
  let mess := bitSet mess bitExtended
  let mess := setExtendedFunction mess ex
  let mess := mess.set 5 exAuxWiper
  ccwriterAppend txbuf (fr.encodeChecksum mess)

/-- `adjust_menu_commands`. -/
def adjustMenuCommands (pkt : Ccpacket) : Ccpacket :=
  let mc := ccpacketGetMenu pkt
  if mc = ccMenuOpen then ccpacketSetPreset pkt ccPresetStore pelcoPresetMenuOpen
  else if mc = ccMenuEnter then ccpacketSetIris pkt ccIrisOpen
  else if mc = ccMenuCancel then ccpacketSetIris pkt ccIrisClose
  else pkt

/-! ## Decoding does not see what was decoded before -/

theorem ignoresExpire_decodePan (pan : Int) (mess : List Byte) :
    IgnoresExpire fun pkt => decodePan pan pkt mess :=
  .ite (.setPan _ _) (.ite (.setPan _ _) (.setPan _ _))

theorem ignoresExpire_decodeTilt (tilt : Int) (mess : List Byte) :
    IgnoresExpire fun pkt => decodeTilt tilt pkt mess :=
  .ite (.setTilt _ _) (.ite (.setTilt _ _) (.setTilt _ _))

theorem ignoresExpire_decodeLens (bits : LensBits) (mess : List Byte) :
    IgnoresExpire fun pkt => decodeLens bits pkt mess := by
  have hiris : IgnoresExpire fun pkt => if bitIsSet mess bits.irisOpen then ccpacketSetIris pkt ccIrisOpen
      else if bitIsSet mess bits.irisClose then ccpacketSetIris pkt ccIrisClose else pkt :=
    .ite (.setFlags _ _) (.ite (.setFlags _ _) .id)
  have hfocus : IgnoresExpire fun pkt =>
      if bitIsSet mess bits.focusNear then ccpacketSetFocus pkt ccFocusNear
      else if bitIsSet mess bits.focusFar then ccpacketSetFocus pkt ccFocusFar else pkt :=
    .ite (.setFlags _ _) (.ite (.setFlags _ _) .id)
  have hzoom : IgnoresExpire fun pkt => if bitIsSet mess bitZoomIn then ccpacketSetZoom pkt ccZoomIn
      else if bitIsSet mess bitZoomOut then ccpacketSetZoom pkt ccZoomOut else pkt :=
    .ite (.setFlags _ _) (.ite (.setFlags _ _) .id)
  exact .comp hzoom (.comp hfocus hiris)

theorem ignoresExpire_decodeExtended (mess : List Byte) :
    IgnoresExpire fun pkt => pelcoDecodeExtended pkt mess := by
  have hex : ∀ ex p0, IgnoresExpire fun pkt => decodeExtended pkt ex p0 := by
    intro ex p0
    refine .ite (.setPreset _ _) (.ite (.setPreset _ _) (.ite (.setPreset _ _) (.ite ?_ (.ite ?_ .id))))
    · exact .ite (.setFlags _ _) .id
    · exact .ite (.setFlags _ _) .id
  exact .comp (hex _ _) (.setReceiver _)

/-! ## Following the scanner -/

/-- Discarding garbage drops the first byte and all after it that begin no message. -/
theorem pelcoDiscardGarbage_spec (start : Byte) {st : ReadState σ} (h : 0 < st.rxbuf.data.length) :
    ∃ buf, pelcoDiscardGarbage start st = some (.more, { st with rxbuf := buf }) ∧
      buf.data = st.rxbuf.data.tail.dropWhile (· ≠ start) ∧ Consumed st.rxbuf buf := by
  have hsplit := List.takeWhile_append_dropWhile (p := (· ≠ start)) (l := st.rxbuf.data.tail)
  have hlen := congrArg List.length hsplit
  rw [List.length_append, List.length_tail] at hlen
  obtain ⟨buf, hbuf, hdata, hconsumed⟩ := @bufferConsume_spec st.rxbuf
    (1 + (st.rxbuf.data.tail.takeWhile (· ≠ start)).length) (by omega)
  refine ⟨buf, ?_, ?_, hconsumed⟩
  · simp only [pelcoDiscardGarbage, List.drop_one, hbuf]
    rfl
  · rw [hdata, ← List.drop_drop, List.drop_one]
    conv => lhs; arg 2; rw [← hsplit]
    exact List.drop_left

/-- **A `pelco_decode_message`** that takes a message of `n` bytes if it is valid and discards
garbage if not. -/
theorem pelco_decodes {n : Nat} {hn : 0 < n} {valid : List Byte → Bool} {start : Byte}
    {process : Ccreader × σ → List Byte → Ccreader × σ}
    {decodeMessage : ReadState σ → Option (DecodeT × ReadState σ)}
    (hstart : ∀ b, b ≠ start → ∀ f, valid (b :: f) = false)
    (hbad : ∀ st, valid (st.rxbuf.data.take n) = false →
      decodeMessage st = pelcoDiscardGarbage start st)
    (hgood : ∀ st buf, valid (st.rxbuf.data.take n) = true → bufferConsume st.rxbuf n = some buf →
      decodeMessage st =
        let x := process (st.rdr, st.world) (st.rxbuf.data.take n)
        some (.more, ⟨x.1, buf, x.2⟩)) :
    Decodes (fixed n hn valid) n n process decodeMessage := by
  intro st hlen
  refine Or.inl ?_
  cases hv : valid (st.rxbuf.data.take n) with
  | true =>
    obtain ⟨buf, hbuf, hdata, hconsumed⟩ := bufferConsume_spec hlen
    refine ⟨_, [st.rxbuf.data.take n], hgood st buf hv hbuf, ⟨?_, hconsumed, rfl⟩, ?_⟩
    · show Follows _ _ _ buf.data
      rw [hdata]
      exact follows_frame (fixed_frame hlen hv)
    · show buf.data.length < _
      rw [hdata, List.length_drop]
      omega
  | false =>
    obtain ⟨buf, hbuf, hdata, hconsumed⟩ :=
      pelcoDiscardGarbage_spec start (Nat.lt_of_lt_of_le hn hlen)
    refine ⟨_, [], (hbad st hv).trans hbuf, ⟨?_, hconsumed, rfl⟩, ?_⟩
    · show Follows _ _ _ buf.data
      rw [hdata]
      have hskip : (fixed n hn valid).judge st.rxbuf.data = .skip := fixed_skip hlen hv
      refine (follows_skip hskip).trans (follows_dropWhile ?_ _)
      intro b hb f
      exact hstart b (of_decide_eq_true hb) f
    · show buf.data.length < _
      have hle := (List.dropWhile_sublist (l := st.rxbuf.data.tail) (· ≠ start)).length_le
      rw [List.length_tail] at hle
      rw [hdata]
      omega

end Protozoa.Pelco
