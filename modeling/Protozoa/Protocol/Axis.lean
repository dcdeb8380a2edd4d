import Protozoa.Buffer
import Protozoa.Ccpacket

/-!
# Axis (`axis.c`)

A packet becomes one HTTP request (`axis_do_write`, `axis.c:249-271`): a preset, a command with pan,
tilt, focus and zoom, or a stop. The request is put together piece by piece in the transmit buffer
(`axis_add_to_buffer`, `axis.c:35-39`), where a request that has not been sent yet is dropped for
the new one.

* `encodePanTilt` (`axis.c:73-129`): speeds from -100 to 100; `encode_tilt` (`axis.c:91-101`) writes
  a comma of its own behind the tilt.
* `encodeStop`, `encodeFocus`, `encodeZoom`, `encodeCommand`, `encodePreset`: `axis.c:137-241`.
* `formatInt` is `%d`, and `axisEncodeSpeed` (`axis.c:63-65`) takes the speeds to 1 to 100, by a
  division toward zero.
* `packetMotion` is the velocity a packet asks for, for the results on cameras.

Out of scope: the sizes of `mess` and `num` in the source, which are larger than anything that is
formatted into them, but for the 8 bytes of a speed. The results are in the modules after this one,
on requests (`Protocol/AxisRequest.lean`, `Protocol/AxisCamera.lean`) and on the channel
(`Protocol/AxisChannel.lean`, `Protocol/AxisTransfer.lean`).
-/

namespace Protozoa.Axis

/-- The bytes of a text. -/
def ascii (s : String) : List Byte := s.toList.map fun c => BitVec.ofNat 8 c.toNat

/-- `AXIS_MAX_SPEED`. -/
def axisMaxSpeed : Int := 100

/-- `AXIS_MAX_ADDRESS`. -/
def maxAddress : Int := 1

def axisGaptime : Nat := 250
def axisTimeout : Nat := 30000

def defaultSpeed : List Byte := ascii "100"
def axisHeader : List Byte := ascii "GET /axis-cgi/com/ptz.cgi?"
def axisHeaderConfig : List Byte := ascii "GET /axis-cgi/com/ptzconfig.cgi?"
def axisTrailer : List Byte := ascii " HTTP/1.0"
def axisAuth : List Byte := ascii "\r\nAuthorization: Basic "
def axisEnding : List Byte := ascii "\r\n\r\n"

/-- `%d` of `printf`. -/
def formatInt (n : Int) : List Byte :=
  let digits := (Nat.toDigits 10 n.natAbs).map fun c => BitVec.ofNat 8 c.toNat
  if n < 0 then ascii "-" ++ digits else digits

/-- `axis_add_to_buffer`. -/
def axisAddToBuffer (txbuf : Buffer) (msg : List Byte) : Buffer := ccwriterAppend txbuf msg

/-- What `axis_prepare_buffer` adds. -/
def prefixOf (somein config : Bool) : List Byte :=
  if somein then ascii "&" else if config then axisHeaderConfig else axisHeader

/-- `axis_prepare_buffer`. -/
def axisPrepareBuffer (txbuf : Buffer) (somein config : Bool) : Bool × Buffer :=
  (true, axisAddToBuffer txbuf (prefixOf somein config))

/-- `axis_encode_speed`. -/
def axisEncodeSpeed (speed : Int) : Int := (speed * axisMaxSpeed).tdiv (speedMax + 1) + 1

/-- `snprintf(speed_str, 8, "%d,", speed)`. -/
def speedStr (speed : Int) : List Byte := (formatInt speed ++ ascii ",").take 7

/-- `encode_pan`, what it appends. -/
def encodePan (pkt : Ccpacket) : List Byte :=
  let speed := axisEncodeSpeed pkt.pan
  speedStr (if ccpacketGetPanMode pkt = ccPanLeft then -speed else speed)

/-- `encode_tilt`, what it appends. -/
def encodeTilt (pkt : Ccpacket) : List Byte :=
  let speed := axisEncodeSpeed pkt.tilt
  speedStr (if ccpacketGetTiltMode pkt = ccTiltDown then -speed else speed)

/-- The text of `encode_pan_tilt`. -/
def panTiltText (pkt : Ccpacket) : List Byte :=
  ascii "continuouspantiltmove=" ++
    (if ccpacketHasPan pkt then encodePan pkt else ascii "0,") ++
    (if pkt.tilt ≠ 0 then encodeTilt pkt else ascii "0")

/-- `encode_pan_tilt`. -/
def encodePanTilt (txbuf : Buffer) (pkt : Ccpacket) (somein : Bool) : Bool × Buffer :=
  if ccpacketHasPan pkt || ccpacketHasTilt pkt then
    let (somein, txbuf) := axisPrepareBuffer txbuf somein false
    (somein, axisAddToBuffer txbuf (panTiltText pkt))
  else (somein, txbuf)

/-- The text of `encode_stop`. -/
def stopText : List Byte := ascii "continuouspantiltmove=0,0"

/-- `encode_stop`. -/
def encodeStop (txbuf : Buffer) (somein : Bool) : Bool × Buffer :=
  let (somein, txbuf) := axisPrepareBuffer txbuf somein false
  (somein, axisAddToBuffer txbuf stopText)

/-- A text that moves at full speed one way, the other, or not. -/
def moveText (name : List Byte) (forth back : Bool) : List Byte :=
  name ++ if forth then defaultSpeed else if back then ascii "-" ++ defaultSpeed else ascii "0"

/-- The text of `encode_focus`. -/
def focusText (pkt : Ccpacket) : List Byte :=
  moveText (ascii "continuousfocusmove=") (ccpacketGetFocus pkt == ccFocusNear)
    (ccpacketGetFocus pkt == ccFocusFar)

/-- The text of `encode_zoom`. -/
def zoomText (pkt : Ccpacket) : List Byte :=
  moveText (ascii "continuouszoommove=") (ccpacketGetZoom pkt == ccZoomIn)
    (ccpacketGetZoom pkt == ccZoomOut)

/-- `encode_focus`. -/
def encodeFocus (txbuf : Buffer) (pkt : Ccpacket) (somein : Bool) : Bool × Buffer :=
  let (somein, txbuf) := axisPrepareBuffer txbuf somein false
  (somein, axisAddToBuffer txbuf (focusText pkt))

/-- `encode_zoom`. -/
def encodeZoom (txbuf : Buffer) (pkt : Ccpacket) (somein : Bool) : Bool × Buffer :=
  let (somein, txbuf) := axisPrepareBuffer txbuf somein false
  (somein, axisAddToBuffer txbuf (zoomText pkt))

/-- `encode_command`. -/
def encodeCommand (txbuf : Buffer) (pkt : Ccpacket) (somein : Bool) : Bool × Buffer :=
  let (somein, txbuf) := encodePanTilt txbuf pkt somein
  let (somein, txbuf) := encodeFocus txbuf pkt somein
  encodeZoom txbuf pkt somein

/-- `encode_preset`, which is called with one of the three modes. -/
def encodePreset (txbuf : Buffer) (pkt : Ccpacket) (somein : Bool) : Bool × Buffer :=
  let pm := ccpacketGetPresetMode pkt
  let (somein, txbuf, mess) :=
    if pm = ccPresetRecall then
      let (somein, txbuf) := axisPrepareBuffer txbuf somein false
      (somein, txbuf, ascii "goto")
    else if pm = ccPresetStore then
      let (somein, txbuf) := axisPrepareBuffer txbuf somein true
      (somein, txbuf, ascii "set")
    else
      let (somein, txbuf) := axisPrepareBuffer txbuf somein true
      (somein, txbuf, ascii "remove")
  (somein, axisAddToBuffer txbuf (mess ++ ascii "serverpresetname=" ++ ascii "Pos" ++ formatInt pkt.preset))

/-- The end of a request. -/
def addTrailer (auth : Option (List Byte)) (txbuf : Buffer) : Buffer :=
  let txbuf := axisAddToBuffer txbuf axisTrailer
  let txbuf :=
    match auth with
    | none => txbuf
    | some auth => axisAddToBuffer (axisAddToBuffer txbuf axisAuth) auth
  axisAddToBuffer txbuf axisEnding

/-- `axis_do_write`: the transmit buffer, the packet, and the count of packets. -/
def doWrite (auth : Option (List Byte)) (txbuf : Buffer) (pkt : Ccpacket) : Buffer × Ccpacket × Nat :=
  let txbuf := if bufferIsEmpty txbuf then txbuf else bufferClear txbuf
  let (somein, txbuf) :=
    if ccpacketGetPresetMode pkt ≠ 0 then encodePreset txbuf pkt false
    else if ccpacketHasCommand pkt then encodeCommand txbuf pkt false
    else encodeStop txbuf false
  if somein then (addTrailer auth txbuf, pkt, 1) else (txbuf, pkt, 0)

/-- The motion of a packet, in the speeds of the camera. -/
def packetMotion (pkt : Ccpacket) : Int × Int :=
  (if ccpacketHasPan pkt then
      if ccpacketGetPanMode pkt = ccPanLeft then -axisEncodeSpeed pkt.pan else axisEncodeSpeed pkt.pan
    else 0,
   if ccpacketHasTilt pkt then
      if ccpacketGetTiltMode pkt = ccTiltDown then -axisEncodeSpeed pkt.tilt
      else axisEncodeSpeed pkt.tilt
    else 0)

end Protozoa.Axis
