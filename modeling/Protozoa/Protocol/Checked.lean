import Protozoa.Protocol.Deliver

/-!
# The readers with their bounds checked (`joystick.c`, `manchester.c`, `pelco_d.c`, `pelco_p.c`, `vicon.c`)

The decoders of the five readers once more (`joystick.c:226-259`, `manchester.c:203-273`,
`pelco_d.c:206-319`, `pelco_p.c:225-342`, `vicon.c:158-284`), with `none` for a byte that has not
arrived (`fetch`, `fetchBit`) and for a `buffer_consume` of no byte, which would not get the loop
any further (`consume`). Where a decoder knows the length of its message, a byte behind the message
counts as not arrived.

* `decodeMessage_eq`, `doRead_eq` in the namespace of each protocol: with the checks it does what it
  does without.
* `Reader.checked_eq`: no check of a `do_read` ever fails.
* **`Reader.receives`**: nor does any in a run of reads, in which there is always room for the next
  read.

A check stands at every index, at every `buffer_consume` and at every round of a loop; the bodies
are those of the source otherwise.
-/

namespace Protozoa

open Lib.Scan

variable {σ : Type}

namespace Checked

/-- `mess[i]`. -/
def fetch (mess : List Byte) (i : Nat) : Option Byte := mess[i]?

/-- `bit_is_set`. -/
def fetchBit (mess : List Byte) (bit : Nat) : Option Bool :=
  (fetch mess (bit / 8)).map fun b => b.getLsbD (bit % 8)

/-- `if(bit_is_set(mess, bit)) … else if(bit_is_set(mess, bit')) … else …`. -/
def either (mess : List Byte) (bit bit' : Nat) (pkt₁ pkt₂ pkt₃ : Ccpacket) : Option Ccpacket := do
  if ← fetchBit mess bit then return pkt₁
  else if ← fetchBit mess bit' then return pkt₂
  else return pkt₃

/-- `buffer_consume`, of one byte at least. -/
def consume (buf : Buffer) (nBytes : Nat) : Option Buffer :=
  if 0 < nBytes then bufferConsume buf nBytes else none

/-- `decodeAndProcess`. -/
def decodeThenProcess (decode : BitVec 32 → List Byte → Ccpacket → Option Ccpacket) (sink : Sink σ)
    (x : Ccreader × σ) (mess : List Byte) : Option (Ccreader × σ) := do
  let pkt ← decode x.1.flags mess x.1.packet
  return ccreaderProcessPacket sink { x.1 with packet := pkt } x.2

variable {mess : List Byte} {n : Nat}

/-- A message that has arrived whole, as `buffer_output` gives it. -/
theorem le_length_take (h : n ≤ mess.length) : n ≤ (mess.take n).length := by
  rw [List.length_take]
  exact Nat.le_min.mpr ⟨le_rfl, h⟩

theorem ite_some {α : Type} (c : Prop) [Decidable c] (a b : α) :
    (if c then some a else some b) = some (if c then a else b) := (apply_ite some c a b).symm

theorem fetch_eq (h : n ≤ mess.length) {i : Nat} (hi : i < n) : fetch mess i = some (mess.getD i 0) := by
  have hlt : i < mess.length := Nat.lt_of_lt_of_le hi h
  rw [fetch, List.getD_eq_getElem?_getD, List.getElem?_eq_getElem hlt]
  rfl

theorem fetchBit_eq (h : n ≤ mess.length) {bit : Nat} (hbit : bit / 8 < n) :
    fetchBit mess bit = some (bitIsSet mess bit) := by
  rw [fetchBit, fetch_eq h hbit]
  rfl

theorem either_eq (h : n ≤ mess.length) {bit bit' : Nat} (hbit : bit / 8 < n) (hbit' : bit' / 8 < n)
    (pkt₁ pkt₂ pkt₃ : Ccpacket) :
    either mess bit bit' pkt₁ pkt₂ pkt₃ = some (if bitIsSet mess bit then pkt₁
      else if bitIsSet mess bit' then pkt₂ else pkt₃) := by
  simp only [either, fetchBit_eq h hbit, fetchBit_eq h hbit', Option.bind_eq_bind, Option.bind_some,
    Option.pure_def, ite_some]

theorem consume_eq {buf : Buffer} (h : 0 < n) : consume buf n = bufferConsume buf n := if_pos h

theorem decodeThenProcess_eq {decode : BitVec 32 → List Byte → Ccpacket → Option Ccpacket}
    {decode' : BitVec 32 → List Byte → Ccpacket → Ccpacket} (sink : Sink σ) (x : Ccreader × σ)
    (h : ∀ flags pkt, decode flags mess pkt = some (decode' flags mess pkt)) :
    decodeThenProcess decode sink x mess = some (decodeAndProcess decode' sink x mess) := by
  rw [decodeThenProcess, h]
  rfl

/-- A loop reads the same if each of its messages is. -/
theorem readLoop_congr {size : Nat} {decodeMessage decodeMessage' : ReadState σ → Option (DecodeT × ReadState σ)}
    (h : ∀ st : ReadState σ, size ≤ st.rxbuf.data.length → decodeMessage st = decodeMessage' st)
    (fuel : Nat) (st : ReadState σ) :
    readLoop size decodeMessage fuel st = readLoop size decodeMessage' fuel st := by
  induction fuel generalizing st with
  | zero => rfl
  | succ fuel ih =>
    have hloop : readLoop size decodeMessage fuel = readLoop size decodeMessage' fuel := funext ih
    unfold readLoop
    by_cases hlen : size ≤ st.rxbuf.data.length
    · rw [h st hlen, hloop]
    · have havail : ¬bufferAvailable st.rxbuf ≥ size := hlen
      rw [if_neg havail, if_neg havail]

end Checked

/-! ## Vicon -/

namespace Vicon.Checked

open Protozoa.Checked

/-- `is_command`. -/
def isCommand (mess : List Byte) : Option Bool := fetchBit mess bitCommand

/-- `is_extended_command`. -/
def isExtendedCommand (mess : List Byte) : Option Bool := do
  if ← fetchBit mess bitCommand then fetchBit mess bitExtended else return false

/-- `decode_receiver`. -/
def decodeReceiver (pkt : Ccpacket) (mess : List Byte) : Option Ccpacket := do
  let b0 ← fetch mess 0
  let b1 ← fetch mess 1
  return ccpacketSetReceiver pkt ((b0 &&& 0x0f).toNat <<< 4 ||| (b1 &&& 0x0f).toNat : Nat)

/-- `decode_pan`. -/
def decodePan (pkt : Ccpacket) (mess : List Byte) : Option Ccpacket :=
  either mess bitPanRight bitPanLeft (ccpacketSetPan pkt ccPanRight speedMax)
    (ccpacketSetPan pkt ccPanLeft speedMax) (ccpacketSetPan pkt ccPanLeft 0)

/-- `decode_tilt`. -/
def decodeTilt (pkt : Ccpacket) (mess : List Byte) : Option Ccpacket :=
  either mess bitTiltUp bitTiltDown (ccpacketSetTilt pkt ccTiltUp speedMax)
    (ccpacketSetTilt pkt ccTiltDown speedMax) (ccpacketSetTilt pkt ccTiltDown 0)

/-- `decode_lens`. -/
def decodeLens (pkt : Ccpacket) (mess : List Byte) : Option Ccpacket := do
  let pkt ← either mess bitIrisOpen bitIrisClose (ccpacketSetIris pkt ccIrisOpen)
    (ccpacketSetIris pkt ccIrisClose) pkt
  let pkt ← either mess bitFocusNear bitFocusFar (ccpacketSetFocus pkt ccFocusNear)
    (ccpacketSetFocus pkt ccFocusFar) pkt
  either mess bitZoomIn bitZoomOut (ccpacketSetZoom pkt ccZoomIn) (ccpacketSetZoom pkt ccZoomOut) pkt

/-- `decode_toggles`. -/
def decodeToggles (pkt : Ccpacket) (mess : List Byte) : Option Ccpacket := do
  let pkt := if ← fetchBit mess bitAckAlarm then ccpacketSetAck pkt ccAckAlarm else pkt
  let pkt := if ← fetchBit mess bitAutoIris then ccpacketSetIris pkt ccIrisAuto else pkt
  let pkt := if ← fetchBit mess bitAutoPan then ccpacketSetPan pkt ccPanAuto 0 else pkt
  return if ← fetchBit mess bitLensSpeed then ccpacketSetLens pkt ccLensSpeed else pkt

/-- `decode_aux`. -/
def decodeAux (pkt : Ccpacket) (mess : List Byte) : Option Ccpacket := do
  return if ← fetchBit mess bitAux6 then ccpacketSetWiper pkt ccWiperOn else pkt

/-- `decode_preset`. -/
def decodePreset (pkt : Ccpacket) (mess : List Byte) : Option Ccpacket := do
  let b5 ← fetch mess 5
  let pNum : Int := (b5 &&& 0x0f).toNat
  either mess bitRecall bitStore (ccpacketSetPreset pkt ccPresetRecall pNum)
    (ccpacketSetPreset pkt ccPresetStore pNum) pkt

/-- `decode_ex_speed`. -/
def decodeExSpeed (pkt : Ccpacket) (mess : List Byte) : Option Ccpacket := do
  let b6 ← fetch mess 6
  let b7 ← fetch mess 7
  let b8 ← fetch mess 8
  let b9 ← fetch mess 9
  let pan := (b6 &&& 0x0f).toNat <<< 7 ||| (b7 &&& 0x7f).toNat
  let tilt := (b8 &&& 0x0f).toNat <<< 7 ||| (b9 &&& 0x7f).toNat
  return ccpacketSetTiltSpeed (ccpacketSetPanSpeed pkt pan) tilt

/-- `decode_ex_preset`. -/
def decodeExPreset (pkt : Ccpacket) (mess : List Byte) : Option Ccpacket := do
  let b7 ← fetch mess 7
  let b8 ← fetch mess 8
  let b9 ← fetch mess 9
  let pNum : Int := (b7 &&& 0x7f).toNat
  let pan : Int := (b8 &&& 0x7f).toNat
  let tilt : Int := (b9 &&& 0x7f).toNat
  let pkt :=
    if ← fetchBit mess bitExStore then ccpacketSetPreset pkt ccPresetStore pNum
    else ccpacketSetPreset pkt ccPresetRecall pNum
  return ccpacketSetTiltSpeed (ccpacketSetPanSpeed pkt pan) tilt

/-- `vicon_decode_command`, what it does to the packet. -/
def decodeCommand (pkt : Ccpacket) (mess : List Byte) : Option Ccpacket := do
  let pkt ← decodeReceiver pkt mess
  let pkt ← decodePan pkt mess
  let pkt ← decodeTilt pkt mess
  let pkt ← decodeLens pkt mess
  let pkt ← decodeToggles pkt mess
  let pkt ← decodeAux pkt mess
  decodePreset pkt mess

/-- `vicon_decode_extended`, what it does to the packet. -/
def decodeExtended (pkt : Ccpacket) (mess : List Byte) : Option Ccpacket := do
  let pkt ← decodeCommand pkt mess
  if ← fetchBit mess bitExRequest then
    if ← fetchBit mess bitExStatus then return decodeExStatus pkt mess else decodeExPreset pkt mess
  else decodeExSpeed pkt mess

/-- The functions for one kind of message. -/
def decodeSized (size : Nat) (process : Ccreader × σ → List Byte → Option (Ccreader × σ))
    (st : ReadState σ) : Option (DecodeT × ReadState σ) :=
  if bufferAvailable st.rxbuf < size then some (.done, st)
  else do
    let (rdr, world) ← process (st.rdr, st.world) (st.rxbuf.data.take size)
    let rxbuf ← consume st.rxbuf size
    return (.more, ⟨rdr, rxbuf, world⟩)

/-- `vicon_decode_extended`. -/
def viconDecodeExtended (sink : Sink σ) : ReadState σ → Option (DecodeT × ReadState σ) :=
  decodeSized sizeExtended (decodeThenProcess (fun _ mess pkt => decodeExtended pkt mess) sink)

/-- `vicon_decode_command`. -/
def viconDecodeCommand (sink : Sink σ) : ReadState σ → Option (DecodeT × ReadState σ) :=
  decodeSized sizeCommand (decodeThenProcess (fun _ mess pkt => decodeCommand pkt mess) sink)

/-- `vicon_decode_status`. -/
def viconDecodeStatus : ReadState σ → Option (DecodeT × ReadState σ) :=
  decodeSized sizeStatus fun x _ => some x

/-- `vicon_decode_message`. -/
def decodeMessage (sink : Sink σ) (st : ReadState σ) : Option (DecodeT × ReadState σ) := do
  let mess := st.rxbuf.data
  if (← fetch mess 0) &&& flag = 0 then do
    let rxbuf ← consume st.rxbuf 1
    return (.more, { st with rxbuf := rxbuf })
  else if ← isExtendedCommand mess then viconDecodeExtended sink st
  else if ← isCommand mess then viconDecodeCommand sink st
  else viconDecodeStatus st

/-- `vicon_do_read`. -/
def doRead (σ : Type) (sink : Sink σ) : DoRead σ := fun st =>
  readLoop sizeStatus (decodeMessage sink) (bufferAvailable st.rxbuf + 1) st

variable {mess : List Byte}

section Command

variable (h : sizeCommand ≤ mess.length) (pkt : Ccpacket)
include h

theorem decodeReceiver_eq : decodeReceiver pkt mess = some (Vicon.decodeReceiver pkt mess) := by
  simp (disch := decide) only [decodeReceiver, fetch_eq h, Option.bind_eq_bind, Option.bind_some]
  rfl

theorem decodePan_eq : decodePan pkt mess = some (Vicon.decodePan pkt mess) :=
  either_eq h (by decide) (by decide) _ _ _

theorem decodeTilt_eq : decodeTilt pkt mess = some (Vicon.decodeTilt pkt mess) :=
  either_eq h (by decide) (by decide) _ _ _

theorem decodeLens_eq : decodeLens pkt mess = some (Vicon.decodeLens pkt mess) := by
  simp (disch := decide) only [decodeLens, either_eq h, Option.bind_eq_bind, Option.bind_some]
  rfl

theorem decodeToggles_eq : decodeToggles pkt mess = some (Vicon.decodeToggles pkt mess) := by
  simp (disch := decide) only [decodeToggles, fetchBit_eq h, Option.bind_eq_bind, Option.bind_some]
  rfl

theorem decodeAux_eq : decodeAux pkt mess = some (Vicon.decodeAux pkt mess) := by
  simp (disch := decide) only [decodeAux, fetchBit_eq h, Option.bind_eq_bind, Option.bind_some]
  rfl

theorem decodePreset_eq : decodePreset pkt mess = some (Vicon.decodePreset pkt mess) := by
  simp (disch := decide) only [decodePreset, fetch_eq h, either_eq h, Option.bind_eq_bind,
    Option.bind_some]
  rfl

theorem decodeCommand_eq : decodeCommand pkt mess = some (Vicon.decodeCommand pkt mess) := by
  simp only [decodeCommand, decodeReceiver_eq h, decodePan_eq h, decodeTilt_eq h, decodeLens_eq h,
    decodeToggles_eq h, decodeAux_eq h, decodePreset_eq h, Option.bind_eq_bind, Option.bind_some]
  rfl

end Command

section Extended

variable (h : sizeExtended ≤ mess.length) (pkt : Ccpacket)
include h

theorem decodeExSpeed_eq : decodeExSpeed pkt mess = some (Vicon.decodeExSpeed pkt mess) := by
  simp (disch := decide) only [decodeExSpeed, fetch_eq h, Option.bind_eq_bind, Option.bind_some]
  rfl

theorem decodeExPreset_eq : decodeExPreset pkt mess = some (Vicon.decodeExPreset pkt mess) := by
  simp (disch := decide) only [decodeExPreset, fetch_eq h, fetchBit_eq h, Option.bind_eq_bind,
    Option.bind_some]
  rfl

theorem decodeExtended_eq : decodeExtended pkt mess = some (Vicon.decodeExtended pkt mess) := by
  have hcommand : sizeCommand ≤ mess.length := Nat.le_trans (by decide) h
  simp (disch := decide) only [decodeExtended, decodeCommand_eq hcommand, decodeExSpeed_eq h,
    decodeExPreset_eq h, fetchBit_eq h, Option.bind_eq_bind, Option.bind_some, Option.pure_def, ite_some]
  rfl

end Extended

theorem decodeSized_eq {size : Nat} (hpos : 0 < size)
    {process : Ccreader × σ → List Byte → Option (Ccreader × σ)}
    {process' : Ccreader × σ → List Byte → Ccreader × σ}
    (h : ∀ x mess, size ≤ mess.length → process x mess = some (process' x mess)) (st : ReadState σ) :
    decodeSized size process st = Vicon.decodeSized size process' st := by
  unfold decodeSized Vicon.decodeSized
  by_cases hshort : bufferAvailable st.rxbuf < size
  · rw [if_pos hshort, if_pos hshort]
  · have hlen : size ≤ (st.rxbuf.data.take size).length := le_length_take (Nat.le_of_not_lt hshort)
    rw [if_neg hshort, if_neg hshort, h _ _ hlen, consume_eq hpos]
    rfl

theorem isExtendedCommand_eq (h : sizeStatus ≤ mess.length) :
    isExtendedCommand mess = some (Vicon.isExtendedCommand mess) := by
  simp (disch := decide) only [isExtendedCommand, Vicon.isExtendedCommand, fetchBit_eq h,
    Option.bind_eq_bind, Option.bind_some]
  cases bitIsSet mess bitCommand <;> rfl

theorem decodeMessage_eq (sink : Sink σ) {st : ReadState σ}
    (hlen : sizeStatus ≤ st.rxbuf.data.length) :
    decodeMessage sink st = Vicon.decodeMessage sink st := by
  have hextended : viconDecodeExtended sink st = Vicon.viconDecodeExtended sink st :=
    decodeSized_eq (by decide) (fun x _ h => decodeThenProcess_eq sink x fun _ => decodeExtended_eq h) st
  have hcommand : viconDecodeCommand sink st = Vicon.viconDecodeCommand sink st :=
    decodeSized_eq (by decide) (fun x _ h => decodeThenProcess_eq sink x fun _ => decodeCommand_eq h) st
  have hstatus : viconDecodeStatus st = Vicon.viconDecodeStatus st :=
    decodeSized_eq (by decide) (fun _ _ _ => rfl) st
  simp (disch := decide) only [decodeMessage, isExtendedCommand_eq hlen, isCommand, fetch_eq hlen,
    fetchBit_eq hlen, Option.bind_eq_bind, Option.bind_some, hextended, hcommand, hstatus, consume_eq]
  rfl

theorem doRead_eq (sink : Sink σ) : doRead σ sink = Vicon.doRead σ sink :=
  funext fun _ => readLoop_congr (fun _ h => decodeMessage_eq sink h) _ _

end Vicon.Checked

/-! ## Manchester -/

namespace Manchester.Checked

open Protozoa.Checked

/-- `is_pan_tilt_command`. -/
def isPanTiltCommand (mess : List Byte) : Option Bool := do
  return (← fetch mess 2) &&& ptCommand != 0

/-- `decode_receiver`. -/
def decodeReceiver (mess : List Byte) : Option Int := do
  let b0 ← fetch mess 0
  let b1 ← fetch mess 1
  let b2 ← fetch mess 2
  return 1 + ((b0 &&& 0x0f).toNat <<< 6 ||| (b1 &&& 0x01).toNat <<< 5 ||| (b2 >>> 2 &&& 0x1f).toNat : Nat)

/-- `decode_command`. -/
def decodeCommand (mess : List Byte) : Option Byte := do return (← fetch mess 1) >>> 4 &&& 0x03

/-- `pt_extra`. -/
def ptExtra (mess : List Byte) : Option Byte := do return (← fetch mess 1) >>> 1 &&& 0x07

/-- `decode_speed`, with an entry that the table has. -/
def decodeSpeed (mess : List Byte) : Option Int := do speedTable[(← ptExtra mess).toNat]?

/-- `decode_packet`. -/
def decodePacket (pkt : Ccpacket) (mess : List Byte) : Option Ccpacket := do
  let cmnd ← decodeCommand mess
  if ← isPanTiltCommand mess then return decodePanTilt pkt cmnd (← decodeSpeed mess)
  else return decodeExtended pkt cmnd (← ptExtra mess)

/-- `manchester_decode_packet`. -/
def manchesterDecodePacket (sink : Sink σ) (x : Ccreader × σ) (mess : List Byte) :
    Option (Ccreader × σ) := do
  let receiver ← decodeReceiver mess
  let (rdr, s) := if x.1.packet.receiver ≠ receiver then ccreaderProcessPacket sink x.1 x.2 else x
  let pkt ← decodePacket (ccpacketSetReceiver rdr.packet receiver) mess
  return ({ rdr with packet := pkt }, s)

/-- `manchester_read_message`. -/
def manchesterReadMessage (sink : Sink σ) (st : ReadState σ) : Option (DecodeT × ReadState σ) := do
  let mess := st.rxbuf.data
  if (← fetch mess 0) &&& flag = 0 then do
    let rxbuf ← consume st.rxbuf 1
    return (.more, { st with rxbuf := rxbuf })
  else do
    let (rdr, world) ← manchesterDecodePacket sink (st.rdr, st.world) (mess.take sizeMsg)
    let rxbuf ← consume st.rxbuf sizeMsg
    return (.more, ⟨rdr, rxbuf, world⟩)

/-- `manchester_do_read`. -/
def doRead (σ : Type) (sink : Sink σ) : DoRead σ := fun st => do
  let st ← readLoop sizeMsg (manchesterReadMessage sink) (bufferAvailable st.rxbuf + 1) st
  if bufferAvailable st.rxbuf = 0 then
    let (rdr, world) := ccreaderProcessPacket sink st.rdr st.world
    return ⟨rdr, st.rxbuf, world⟩
  else return st

variable {mess : List Byte}

theorem decodeSpeed_eq (h : sizeMsg ≤ mess.length) :
    decodeSpeed mess = some (Manchester.decodeSpeed mess) := by
  have hlt : (Manchester.ptExtra mess).toNat < speedTable.length := by
    have hand := Nat.and_le_right (n := (mess.getD 1 0 >>> 1).toNat) (m := 7)
    exact Nat.lt_succ_of_le (by simpa [Manchester.ptExtra] using hand)
  simp (disch := decide) only [decodeSpeed, ptExtra, fetch_eq h, Option.bind_eq_bind, Option.bind_some,
    Option.pure_def]
  show speedTable[(Manchester.ptExtra mess).toNat]? = _
  rw [Manchester.decodeSpeed, List.getD_eq_getElem?_getD, List.getElem?_eq_getElem hlt]
  rfl

theorem decodePacket_eq (h : sizeMsg ≤ mess.length) (pkt : Ccpacket) :
    decodePacket pkt mess = some (Manchester.decodePacket pkt mess) := by
  simp (disch := decide) only [decodePacket, decodeCommand, isPanTiltCommand, ptExtra, decodeSpeed_eq h,
    fetch_eq h, Option.bind_eq_bind, Option.bind_some, Option.pure_def, ite_some]
  rfl

theorem manchesterDecodePacket_eq (sink : Sink σ) (x : Ccreader × σ) (h : sizeMsg ≤ mess.length) :
    manchesterDecodePacket sink x mess = some (Manchester.manchesterDecodePacket sink x mess) := by
  simp (disch := decide) only [manchesterDecodePacket, decodeReceiver, decodePacket_eq h, fetch_eq h,
    Option.bind_eq_bind, Option.bind_some, Option.pure_def]
  rfl

theorem readMessage_eq (sink : Sink σ) {st : ReadState σ} (hlen : sizeMsg ≤ st.rxbuf.data.length) :
    manchesterReadMessage sink st = Manchester.manchesterReadMessage sink st := by
  have htake : sizeMsg ≤ (st.rxbuf.data.take sizeMsg).length := le_length_take hlen
  simp (disch := decide) only [manchesterReadMessage, manchesterDecodePacket_eq sink _ htake,
    fetch_eq hlen, Option.bind_eq_bind, Option.bind_some, consume_eq]
  rfl

theorem doRead_eq (sink : Sink σ) : doRead σ sink = Manchester.doRead σ sink := by
  funext st
  unfold doRead Manchester.doRead
  rw [readLoop_congr fun _ h => readMessage_eq sink h]

end Manchester.Checked

/-! ## Pelco D and Pelco P -/

namespace Pelco.Checked

open Protozoa.Checked

/-- `decode_receiver`. -/
def decodeReceiver (pkt : Ccpacket) (mess : List Byte) : Option Ccpacket := do
  return ccpacketSetReceiver pkt (← fetch mess 1).toNat

/-- `decode_pan`, with the speed of the message. -/
def decodePan (pan : Int) (pkt : Ccpacket) (mess : List Byte) : Option Ccpacket :=
  either mess bitPanRight bitPanLeft (ccpacketSetPan pkt ccPanRight pan)
    (ccpacketSetPan pkt ccPanLeft pan) (ccpacketSetPan pkt ccPanLeft 0)

/-- `decode_tilt`, with the speed of the message. -/
def decodeTilt (tilt : Int) (pkt : Ccpacket) (mess : List Byte) : Option Ccpacket :=
  either mess bitTiltUp bitTiltDown (ccpacketSetTilt pkt ccTiltUp tilt)
    (ccpacketSetTilt pkt ccTiltDown tilt) (ccpacketSetTilt pkt ccTiltDown 0)

/-- `decode_lens`. -/
def decodeLens (bits : LensBits) (pkt : Ccpacket) (mess : List Byte) : Option Ccpacket := do
  let pkt ← either mess bits.irisOpen bits.irisClose (ccpacketSetIris pkt ccIrisOpen)
    (ccpacketSetIris pkt ccIrisClose) pkt
  let pkt ← either mess bits.focusNear bits.focusFar (ccpacketSetFocus pkt ccFocusNear)
    (ccpacketSetFocus pkt ccFocusFar) pkt
  either mess bitZoomIn bitZoomOut (ccpacketSetZoom pkt ccZoomIn) (ccpacketSetZoom pkt ccZoomOut) pkt

/-- `pelco_decode_extended`, up to `ccreader_process_packet`. -/
def pelcoDecodeExtended (pkt : Ccpacket) (mess : List Byte) : Option Ccpacket := do
  let pkt ← decodeReceiver pkt mess
  let ex := (← fetch mess 3) >>> 1 &&& 0x1f
  let p0 ← fetch mess 5
  let _p1 ← fetch mess 4
  return decodeExtended pkt ex p0

/-- The loop of `pelco_discard_garbage`, with `k` bytes to look at. -/
def discardLoop (start : Byte) (mess : List Byte) : Nat → Nat → Option Nat
  | 0, nBytes => some nBytes
  | k + 1, nBytes => do
    if (← fetch mess nBytes) = start then return nBytes
    else discardLoop start mess k (nBytes + 1)

/-- The bytes that `pelco_log_discard` prints. -/
def pelcoLogDiscard (mess : List Byte) (nBytes : Nat) : Option (List Byte) :=
  (List.range (min nBytes 24)).mapM (fetch mess)

/-- `pelco_discard_garbage`. -/
def pelcoDiscardGarbage (start : Byte) (st : ReadState σ) : Option (DecodeT × ReadState σ) := do
  let mess := st.rxbuf.data
  let nBytes ← discardLoop start mess (bufferAvailable st.rxbuf - 1) 1
  let rxbuf ← consume st.rxbuf nBytes
  let _ ← pelcoLogDiscard mess nBytes
  return (.more, { st with rxbuf := rxbuf })

variable {mess : List Byte} {n : Nat}

theorem decodeLens_eq {bits : LensBits} (h : 4 ≤ mess.length)
    (hbits : bits.irisOpen / 8 < 4 ∧ bits.irisClose / 8 < 4 ∧ bits.focusNear / 8 < 4 ∧
      bits.focusFar / 8 < 4) (pkt : Ccpacket) :
    decodeLens bits pkt mess = some (Pelco.decodeLens bits pkt mess) := by
  obtain ⟨hio, hic, hfn, hff⟩ := hbits
  simp (disch := decide) only [decodeLens, either_eq h hio hic, either_eq h hfn hff, either_eq h,
    Option.bind_eq_bind, Option.bind_some]
  rfl

theorem pelcoDecodeExtended_eq (h : 6 ≤ mess.length) (pkt : Ccpacket) :
    pelcoDecodeExtended pkt mess = some (Pelco.pelcoDecodeExtended pkt mess) := by
  simp (disch := decide) only [pelcoDecodeExtended, decodeReceiver, fetch_eq h, Option.bind_eq_bind,
    Option.bind_some, Option.pure_def]
  rfl

/-- The loop stops at the first byte that can begin a message, or at the end. -/
theorem discardLoop_eq (start : Byte) {k : Nat} (h : n + k = mess.length) :
    discardLoop start mess k n = some (n + ((mess.drop n).takeWhile (· ≠ start)).length) := by
  induction k generalizing n with
  | zero =>
    have hnil : mess.drop n = [] := List.drop_eq_nil_of_le (by omega)
    rw [hnil]
    rfl
  | succ k ih =>
    have hlt : n < mess.length := by omega
    have hfetch : fetch mess n = some mess[n] := List.getElem?_eq_getElem hlt
    rw [List.drop_eq_getElem_cons hlt, discardLoop, hfetch, Option.bind_eq_bind, Option.bind_some,
      List.takeWhile_cons]
    by_cases hstart : mess[n] = start
    · simp [hstart]
    · have hnext := @ih (n + 1) (by omega)
      simp only [hstart, if_false, hnext, ne_eq, not_false_eq_true, decide_true, if_true,
        List.length_cons, Option.some.injEq]
      omega

theorem mapM_fetch {indices : List Nat} (h : ∀ i ∈ indices, i < mess.length) :
    indices.mapM (fetch mess) = some (indices.map fun i => mess.getD i 0) := by
  induction indices with
  | nil => rfl
  | cons i indices ih =>
    rw [List.mapM_cons, fetch_eq le_rfl (h i List.mem_cons_self),
      ih fun j hj => h j (List.mem_cons_of_mem i hj)]
    rfl

theorem pelcoDiscardGarbage_eq (start : Byte) {st : ReadState σ} (h : 0 < st.rxbuf.data.length) :
    pelcoDiscardGarbage start st = Pelco.pelcoDiscardGarbage start st := by
  have hloop : discardLoop start st.rxbuf.data (bufferAvailable st.rxbuf - 1) 1 =
      some (1 + ((st.rxbuf.data.drop 1).takeWhile (· ≠ start)).length) :=
    discardLoop_eq start (Nat.add_sub_cancel' h)
  have hle : 1 + ((st.rxbuf.data.drop 1).takeWhile (· ≠ start)).length ≤ st.rxbuf.data.length := by
    have hle := (List.takeWhile_sublist (l := st.rxbuf.data.drop 1) (· ≠ start)).length_le
    rw [List.length_drop] at hle
    omega
  have hlog : pelcoLogDiscard st.rxbuf.data (1 + ((st.rxbuf.data.drop 1).takeWhile (· ≠ start)).length) =
      some _ := mapM_fetch fun i hi => by
    rw [List.mem_range] at hi
    omega
  simp only [pelcoDiscardGarbage, hloop, Option.bind_eq_bind, Option.bind_some, hlog,
    consume_eq (Nat.lt_of_lt_of_le Nat.one_pos (Nat.le_add_right _ _))]
  rfl

end Pelco.Checked

namespace PelcoD.Checked

open Protozoa.Checked Pelco.Checked
open Pelco (bitExtended)

/-- `calculate_checksum`. -/
def calculateChecksum (mess : List Byte) : Option Byte :=
  [1, 2, 3, 4, 5].foldlM (fun checksum i => do return checksum + (← fetch mess i)) 0

/-- `checksum_is_valid`. -/
def checksumIsValid (mess : List Byte) : Option Bool := do
  return (← calculateChecksum mess) == (← fetch mess 6)

/-- `decode_sense`. -/
def decodeSense (pkt : Ccpacket) (mess : List Byte) : Option Ccpacket := do
  if ← fetchBit mess bitSense then
    let pkt := if ← fetchBit mess bitCameraOnOff then ccpacketSetCamera pkt ccCameraOn else pkt
    return if ← fetchBit mess bitAutoPan then ccpacketSetPan pkt ccPanAuto 0 else pkt
  else
    let pkt := if ← fetchBit mess bitCameraOnOff then ccpacketSetCamera pkt ccCameraOff else pkt
    return if ← fetchBit mess bitAutoPan then ccpacketSetPan pkt ccPanManual 0 else pkt

/-- `pelco_decode_command`, up to `ccreader_process_packet`. -/
def pelcoDecodeCommand (pkt : Ccpacket) (mess : List Byte) : Option Ccpacket := do
  let pkt ← decodeReceiver pkt mess
  let pkt ← decodePan (decodeSpeed (← fetch mess 4)) pkt mess
  let pkt ← decodeTilt (decodeSpeed (← fetch mess 5)) pkt mess
  let pkt ← decodeLens lensBits pkt mess
  decodeSense pkt mess

/-- What a message does to the packet of the reader. -/
def decode (_flags : BitVec 32) (mess : List Byte) (pkt : Ccpacket) : Option Ccpacket := do
  if ← fetchBit mess bitExtended then pelcoDecodeExtended pkt mess else pelcoDecodeCommand pkt mess

/-- `pelco_decode_message`. -/
def pelcoDecodeMessage (sink : Sink σ) (st : ReadState σ) : Option (DecodeT × ReadState σ) := do
  let mess := st.rxbuf.data.take pelcoDSz
  if (← fetch mess 0) ≠ flag then pelcoDiscardGarbage flag st
  else if ¬(← checksumIsValid mess) then pelcoDiscardGarbage flag st
  else do
    let rxbuf ← consume st.rxbuf pelcoDSz
    let (rdr, world) ← decodeThenProcess decode sink (st.rdr, st.world) mess
    return (.more, ⟨rdr, rxbuf, world⟩)

/-- `pelco_d_do_read`. -/
def doRead (σ : Type) (sink : Sink σ) : DoRead σ := fun st =>
  readLoop pelcoDSz (pelcoDecodeMessage sink) (bufferAvailable st.rxbuf + 1) st

variable {mess : List Byte}

theorem decode_eq (h : pelcoDSz ≤ mess.length) (flags : BitVec 32) (pkt : Ccpacket) :
    decode flags mess pkt = some (PelcoD.decode flags mess pkt) := by
  have hextended := pelcoDecodeExtended_eq (Nat.le_trans (by decide) h) pkt
  have hlens := @decodeLens_eq mess lensBits (Nat.le_trans (by decide) h) (by decide)
  have hsense : ∀ pkt, decodeSense pkt mess = some (PelcoD.decodeSense pkt mess) := by
    intro pkt
    simp (disch := decide) only [decodeSense, fetchBit_eq h, Option.bind_eq_bind, Option.bind_some,
      Option.pure_def, ite_some]
    rfl
  simp (disch := decide) only [decode, pelcoDecodeCommand, decodeReceiver, decodePan, decodeTilt,
    hextended, hlens, hsense, fetch_eq h, fetchBit_eq h, either_eq h, Option.bind_eq_bind,
    Option.bind_some, Option.pure_def, ite_some]
  rfl

theorem checksumIsValid_eq (h : pelcoDSz ≤ mess.length) :
    checksumIsValid mess = some (PelcoD.checksumIsValid mess) := by
  simp (disch := decide) only [checksumIsValid, calculateChecksum, List.foldlM_cons, List.foldlM_nil,
    fetch_eq h, Option.bind_eq_bind, Option.bind_some, Option.pure_def]
  rfl

theorem decodeMessage_eq (sink : Sink σ) {st : ReadState σ} (hlen : pelcoDSz ≤ st.rxbuf.data.length) :
    pelcoDecodeMessage sink st = PelcoD.pelcoDecodeMessage sink st := by
  have htake : pelcoDSz ≤ (st.rxbuf.data.take pelcoDSz).length := le_length_take hlen
  have hpos : 0 < st.rxbuf.data.length := Nat.lt_of_lt_of_le (by decide) hlen
  simp (disch := decide) only [pelcoDecodeMessage, checksumIsValid_eq htake, fetch_eq htake,
    pelcoDiscardGarbage_eq _ hpos, decodeThenProcess_eq sink _ (decode_eq htake), Option.bind_eq_bind,
    Option.bind_some, consume_eq]
  rfl

theorem doRead_eq (sink : Sink σ) : doRead σ sink = PelcoD.doRead σ sink :=
  funext fun _ => readLoop_congr (fun _ h => decodeMessage_eq sink h) _ _

end PelcoD.Checked

namespace PelcoP.Checked

open Protozoa.Checked Pelco.Checked
open Pelco (bitExtended)

/-- `calculate_checksum`. -/
def calculateChecksum (mess : List Byte) : Option Byte :=
  [0, 1, 2, 3, 4, 5, 6].foldlM (fun checksum i => do return checksum ^^^ (← fetch mess i)) 0

/-- `checksum_is_valid`. -/
def checksumIsValid (mess : List Byte) : Option Bool := do
  return (← calculateChecksum mess) == (← fetch mess 7)

/-- `decode_sense`. -/
def decodeSense (pkt : Ccpacket) (mess : List Byte) : Option Ccpacket := do
  let pkt ←
    if ← fetchBit mess bitCameraOnOff then
      if ← fetchBit mess bitCameraOn then pure (ccpacketSetCamera pkt ccCameraOn)
      else pure (ccpacketSetCamera pkt ccCameraOff)
    else pure pkt
  return if ← fetchBit mess bitAutoPan then ccpacketSetPan pkt ccPanAuto 0 else pkt

/-- `pelco_decode_command`, up to `ccreader_process_packet`. -/
def pelcoDecodeCommand (flags : BitVec 32) (pkt : Ccpacket) (mess : List Byte) : Option Ccpacket := do
  let pkt ← decodeReceiver pkt mess
  let pkt ← decodePan (decodeSpeed (← fetch mess 4) flags) pkt mess
  let pkt ← decodeTilt (decodeSpeed (← fetch mess 5) flags) pkt mess
  let pkt ← decodeLens lensBits pkt mess
  decodeSense pkt mess

/-- What a message does to the packet of the reader. -/
def decode (flags : BitVec 32) (mess : List Byte) (pkt : Ccpacket) : Option Ccpacket := do
  if ← fetchBit mess bitExtended then pelcoDecodeExtended pkt mess
  else pelcoDecodeCommand flags pkt mess

/-- `pelco_decode_message`. -/
def pelcoDecodeMessage (sink : Sink σ) (st : ReadState σ) : Option (DecodeT × ReadState σ) := do
  let mess := st.rxbuf.data.take sizeMsg
  if (← fetch mess 0) ≠ stx then pelcoDiscardGarbage stx st
  else if (← fetch mess 6) ≠ etx then pelcoDiscardGarbage stx st
  else if ¬(← checksumIsValid mess) then pelcoDiscardGarbage stx st
  else do
    let rxbuf ← consume st.rxbuf sizeMsg
    let (rdr, world) ← decodeThenProcess decode sink (st.rdr, st.world) mess
    return (.more, ⟨rdr, rxbuf, world⟩)

/-- `pelco_p_do_read`. -/
def doRead (σ : Type) (sink : Sink σ) : DoRead σ := fun st =>
  readLoop sizeMsg (pelcoDecodeMessage sink) (bufferAvailable st.rxbuf + 1) st

variable {mess : List Byte}

theorem decode_eq (h : sizeMsg ≤ mess.length) (flags : BitVec 32) (pkt : Ccpacket) :
    decode flags mess pkt = some (PelcoP.decode flags mess pkt) := by
  have hextended := pelcoDecodeExtended_eq (Nat.le_trans (by decide) h) pkt
  have hlens := @decodeLens_eq mess lensBits (Nat.le_trans (by decide) h) (by decide)
  have hsense : ∀ pkt, decodeSense pkt mess = some (PelcoP.decodeSense pkt mess) := by
    intro pkt
    simp (disch := decide) only [decodeSense, fetchBit_eq h, Option.bind_eq_bind, Option.bind_some,
      Option.pure_def, ite_some]
    unfold PelcoP.decodeSense
    cases bitIsSet mess bitCameraOnOff <;> cases bitIsSet mess bitCameraOn <;> rfl
  simp (disch := decide) only [decode, pelcoDecodeCommand, decodeReceiver, decodePan, decodeTilt,
    hextended, hlens, hsense, fetch_eq h, fetchBit_eq h, either_eq h, Option.bind_eq_bind,
    Option.bind_some, Option.pure_def, ite_some]
  rfl

theorem checksumIsValid_eq (h : sizeMsg ≤ mess.length) :
    checksumIsValid mess = some (PelcoP.checksumIsValid mess) := by
  simp (disch := decide) only [checksumIsValid, calculateChecksum, List.foldlM_cons, List.foldlM_nil,
    fetch_eq h, Option.bind_eq_bind, Option.bind_some, Option.pure_def]
  rfl

theorem decodeMessage_eq (sink : Sink σ) {st : ReadState σ} (hlen : sizeMsg ≤ st.rxbuf.data.length) :
    pelcoDecodeMessage sink st = PelcoP.pelcoDecodeMessage sink st := by
  have htake : sizeMsg ≤ (st.rxbuf.data.take sizeMsg).length := le_length_take hlen
  have hpos : 0 < st.rxbuf.data.length := Nat.lt_of_lt_of_le (by decide) hlen
  simp (disch := decide) only [pelcoDecodeMessage, checksumIsValid_eq htake, fetch_eq htake,
    pelcoDiscardGarbage_eq _ hpos, decodeThenProcess_eq sink _ (decode_eq htake), Option.bind_eq_bind,
    Option.bind_some, consume_eq]
  rfl

theorem doRead_eq (sink : Sink σ) : doRead σ sink = PelcoP.doRead σ sink :=
  funext fun _ => readLoop_congr (fun _ h => decodeMessage_eq sink h) _ _

end PelcoP.Checked

/-! ## Joystick -/

namespace Joystick.Checked

open Protozoa.Checked

/-- `decode_speed`. -/
def decodeSpeed (mess : List Byte) : Option Int := do
  return ((← fetch mess 5) ++ (← fetch mess 4) : BitVec 16).toInt

/-- `decode_pressed`. -/
def decodePressed (mess : List Byte) : Option Bool := do return (← decodeSpeed mess) != 0

/-- `decode_pan_tilt_zoom`. -/
def decodePanTiltZoom (pkt : Ccpacket) (mess : List Byte) : Option (Bool × Ccpacket) := do
  let number ← fetch mess 7
  let speed ← decodeSpeed mess
  let pkt :=
    if number = jaxisPan then ccpacketSetPan pkt (decodePanMode speed) (remapSpeed speed)
    else if number = jaxisTilt then ccpacketSetTilt pkt (decodeTiltMode speed) (remapSpeed speed)
    else if number = jaxisZoom then
      if speed < 0 then ccpacketSetZoom pkt ccZoomOut
      else if speed > 0 then ccpacketSetZoom pkt ccZoomIn
      else ccpacketSetZoom pkt 0
    else pkt
  return (true, ccpacketSetPreset pkt 0 0)

/-- `decode_button`. -/
def decodeButton (rdr : Ccreader) (mess : List Byte) : Option (Bool × Ccreader) := do
  let number ← fetch mess 7
  let pressed ← decodePressed mess
  let moved := movedSincePressed rdr.packet
  return if number = jbuttonFocusNear then decodeHeldButton rdr pressed ccpacketSetFocus ccFocusNear
  else if number = jbuttonFocusFar then decodeHeldButton rdr pressed ccpacketSetFocus ccFocusFar
  else if number = jbuttonIrisClose then decodeHeldButton rdr pressed ccpacketSetIris ccIrisClose
  else if number = jbuttonIrisOpen then decodeHeldButton rdr pressed ccpacketSetIris ccIrisOpen
  else if number = jbuttonWiper then decodeHeldButton rdr pressed ccpacketSetWiper ccWiperOn
  else if number = jbuttonCamera then decodeHeldButton rdr pressed ccpacketSetCamera ccCameraOn
  else if number = jbuttonPreset1 then decodePresetButton rdr pressed moved 1
  else if number = jbuttonPreset2 then decodePresetButton rdr pressed moved 2
  else if number = jbuttonPreset3 then decodePresetButton rdr pressed moved 3
  else if number = jbuttonPreset4 then decodePresetButton rdr pressed moved 4
  else
    let rdr :=
      if number = jbuttonPrevious then if pressed then ccreaderPreviousCamera rdr else rdr
      else if number = jbuttonNext then if pressed then ccreaderNextCamera rdr else rdr
      else rdr
    (false, { rdr with packet := ccpacketSetPreset rdr.packet 0 0 })

/-- `joystick_decode_event`. -/
def joystickDecodeEvent (rdr : Ccreader) (mess : List Byte) : Option (Bool × Ccreader) := do
  let evType ← fetch mess 6
  if evType &&& jeventAxis ≠ 0 then
    let (m, pkt) ← decodePanTiltZoom rdr.packet mess
    return (m, { rdr with packet := pkt })
  else if evType &&& jeventButton ≠ 0 ∧ evType &&& jeventInitial = 0 then decodeButton rdr mess
  else return (false, rdr)

/-- `joystick_read_message`. -/
def joystickReadMessage (rdr : Ccreader) (rxbuf : Buffer) : Option (Bool × Ccreader × Buffer) := do
  let mess := rxbuf.data.take jeventOctets
  let (m, rdr) ← joystickDecodeEvent rdr mess
  let rxbuf ← consume rxbuf jeventOctets
  return (m, rdr, rxbuf)

/-- `while(buffer_available(rxbuf) >= JEVENT_OCTETS) c += joystick_read_message(rdr, rxbuf);` -/
def readMessages : Nat → Ccreader → Buffer → Nat → Option (Ccreader × Buffer × Nat)
  | 0, _, _, _ => none
  | fuel + 1, rdr, rxbuf, c =>
    if bufferAvailable rxbuf ≥ jeventOctets then do
      let (m, rdr, rxbuf) ← joystickReadMessage rdr rxbuf
      readMessages fuel rdr rxbuf (c + m.toNat)
    else some (rdr, rxbuf, c)

/-- `joystick_do_read`. -/
def doRead (σ : Type) (sink : Sink σ) : DoRead σ := fun st => do
  let (rdr, rxbuf, c) ← readMessages (bufferAvailable st.rxbuf + 1) st.rdr st.rxbuf 0
  let (rdr, world) := joystickProcess sink rdr c st.world
  return ⟨rdr, rxbuf, world⟩

variable {mess : List Byte}

theorem decodeSpeed_eq (h : jeventOctets ≤ mess.length) :
    decodeSpeed mess = some (Joystick.decodeSpeed mess) := by
  simp (disch := decide) only [decodeSpeed, fetch_eq h, Option.bind_eq_bind, Option.bind_some]
  rfl

theorem decodeButton_eq (h : jeventOctets ≤ mess.length) (rdr : Ccreader) :
    decodeButton rdr mess = some (Joystick.decodeButton rdr mess) := by
  unfold decodeButton decodePressed
  rw [fetch_eq h (by decide), decodeSpeed_eq h]
  rfl

theorem decodePanTiltZoom_eq (h : jeventOctets ≤ mess.length) (pkt : Ccpacket) :
    decodePanTiltZoom pkt mess = some (Joystick.decodePanTiltZoom pkt mess) := by
  unfold decodePanTiltZoom
  rw [fetch_eq h (by decide), decodeSpeed_eq h]
  rfl

theorem decodeEvent_eq (h : jeventOctets ≤ mess.length) (rdr : Ccreader) :
    joystickDecodeEvent rdr mess = some (Joystick.joystickDecodeEvent rdr mess) := by
  have haxis : Joystick.isAxis mess = true ↔ mess.getD 6 0 &&& jeventAxis ≠ 0 := bne_iff_ne
  simp (disch := decide) only [joystickDecodeEvent, Joystick.joystickDecodeEvent, decodePanTiltZoom_eq h,
    decodeButton_eq h, fetch_eq h, Option.bind_eq_bind, Option.bind_some, Option.pure_def, ite_some]
  by_cases hax : mess.getD 6 0 &&& jeventAxis ≠ 0
  · rw [if_pos hax, if_pos (haxis.mpr hax)]
  · have hbutton : Joystick.isButton mess = true ↔
        mess.getD 6 0 &&& jeventButton ≠ 0 ∧ mess.getD 6 0 &&& jeventInitial = 0 := by
      have hnot : Joystick.isAxis mess = false := Bool.eq_false_iff.mpr fun h => hax (haxis.mp h)
      rw [Joystick.isButton, hnot, Bool.and_eq_true, Bool.and_eq_true, bne_iff_ne, beq_iff_eq]
      exact ⟨fun h => ⟨h.1.2, h.2⟩, fun h => ⟨⟨rfl, h.1⟩, h.2⟩⟩
    rw [if_neg hax, if_neg (fun h => hax (haxis.mp h))]
    simp only [hbutton]

theorem readMessages_eq (fuel : Nat) (rdr : Ccreader) (rxbuf : Buffer) (c : Nat) :
    readMessages fuel rdr rxbuf c = Joystick.readMessages fuel rdr rxbuf c := by
  induction fuel generalizing rdr rxbuf c with
  | zero => rfl
  | succ fuel ih =>
    unfold readMessages Joystick.readMessages
    by_cases hlen : bufferAvailable rxbuf ≥ jeventOctets
    · have htake : jeventOctets ≤ (rxbuf.data.take jeventOctets).length := le_length_take hlen
      simp (disch := decide) only [if_pos hlen, joystickReadMessage, decodeEvent_eq htake, ih,
        Option.bind_eq_bind, Option.bind_some, consume_eq]
      rfl
    · rw [if_neg hlen, if_neg hlen]

theorem doRead_eq (sink : Sink σ) : doRead σ sink = Joystick.doRead σ sink := by
  funext st
  unfold doRead Joystick.doRead
  rw [readMessages_eq]

end Joystick.Checked

/-! ## All five -/

/-- `do_read` of a reader, checked. -/
def Reader.checked : Reader → (σ : Type) → Sink σ → DoRead σ
  | joystick => Joystick.Checked.doRead
  | manchester => Manchester.Checked.doRead
  | pelcoD => PelcoD.Checked.doRead
  | pelcoP => PelcoP.Checked.doRead
  | vicon => Vicon.Checked.doRead

/-- **No check of a reader ever fails.** -/
theorem Reader.checked_eq (p : Reader) (sink : Sink σ) : p.checked σ sink = p.doRead σ sink := by
  cases p with
  | joystick => exact Joystick.Checked.doRead_eq sink
  | manchester => exact Manchester.Checked.doRead_eq sink
  | pelcoD => exact PelcoD.Checked.doRead_eq sink
  | pelcoP => exact PelcoP.Checked.doRead_eq sink
  | vicon => exact Vicon.Checked.doRead_eq sink

/-- **Any stream in any chunks** is read with every check passed: there is always room for the next
read, and after each there is less than one message left. -/
theorem Reader.receives (p : Reader) (sink : Sink σ) (rdr : Ccreader) (s : σ) (stream : List Byte)
    (ks : List Nat) :
    ∃ st rest, runReads (p.checked σ sink) ⟨rdr, bufferInit bufferSize, s⟩ stream ks = some (st, rest) ∧
      runReads (p.doRead σ sink) ⟨rdr, bufferInit bufferSize, s⟩ stream ks = some (st, rest) ∧
      bufferAvailable st.rxbuf ≤ 9 := by
  obtain ⟨S, bound, hpos, hle, hnil, hreads⟩ := p.reads
  have hsize : bound ≤ bufferSize := Nat.le_trans hle (by decide)
  obtain ⟨st, -, rest, -, hrun, -, -, -, -, hlen, -⟩ :=
    @runReads_spec σ S bound _ _ (hreads σ sink) ks ⟨rdr, bufferInit bufferSize, s⟩ [] [] stream
      (Follows.refl _ _) hnil hpos hsize
  refine ⟨st, rest, ?_, hrun, Nat.le_of_lt_succ (Nat.lt_of_lt_of_le hlen hle)⟩
  rw [p.checked_eq, hrun]

end Protozoa
