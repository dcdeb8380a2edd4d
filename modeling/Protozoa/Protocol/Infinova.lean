import Protozoa.Protocol.PelcoD

/-!
# Infinova (`infinova.c`)

Pelco D messages, each behind two headers of twelve bytes (`infinova_header` and
`infinova_d_header`, `infinova.c:26-70`). A writer whose channel is closed puts the authentication
first (`infinova_d_do_write`, `infinova.c:75-81`, with `infinova_authenticate`, `infinova.c:48-54`).

`doWrite` is `doWriteCb` of `Protocol/PelcoD.lean` with `infinovaDHeader` as its `prepare_writer`:
when there is no room for the headers, there is no message either.

What is queued for a connection is the subject of `Protocol/InfinovaFraming.lean`.
-/

namespace Protozoa.Infinova

open PelcoD

/-- `HEADER_SZ`. -/
def headerSz : Nat := 12

/-- `AUTH_SZ`. -/
def authSz : Nat := 64

def msgIdAuth : Byte := 0x01
def msgIdPtz : Byte := 0x13

/-- The bytes of `infinova_header`. -/
def header (msgId : Byte) (nBytes : Nat) : List Byte :=
  let mess := (((List.replicate headerSz 0).set 0 0x49).set 1 0x4e).set 2 0x46
  let mess := mess.set 3 msgId
  let mess := if msgId = msgIdAuth then (mess.set 5 1).set 7 1 else mess
  mess.set 11 (BitVec.ofNat 8 nBytes)

/-- `infinova_header`. -/
def infinovaHeader (txbuf : Buffer) (msgId : Byte) (nBytes : Nat) : Bool × Buffer :=
  match bufferAppend txbuf (header msgId nBytes) with
  | some txbuf => (true, txbuf)
  | none => (false, txbuf)

/-- `infinova_authenticate`. -/
def infinovaAuthenticate (txbuf : Buffer) : Buffer :=
  match infinovaHeader txbuf msgIdAuth authSz with
  | (true, txbuf) => ccwriterAppend txbuf (List.replicate (authSz + 2) 0)
  | (false, txbuf) => txbuf

/-- The second header of `infinova_d_header`. -/
def ptzHeader : List Byte :=
  ((List.replicate headerSz 0).set 0 1).set 7 (BitVec.ofNat 8 pelcoDSz)

/-- `infinova_d_header`. -/
def infinovaDHeader (txbuf : Buffer) : Bool × Buffer :=
  match infinovaHeader txbuf msgIdPtz (headerSz + pelcoDSz) with
  | (true, txbuf) =>
    match bufferAppend txbuf ptzHeader with
    | some txbuf => (true, txbuf)
    | none => (false, txbuf)
  | (false, txbuf) => (false, txbuf)

/-- `infinova_d_do_write`: the transmit buffer, the packet, and the count of packets. -/
def doWrite (isOpen : Bool) (txbuf : Buffer) (pkt : Ccpacket) : Buffer × Ccpacket × Nat :=
  let txbuf := if isOpen then txbuf else infinovaAuthenticate txbuf
  doWriteCb infinovaDHeader txbuf pkt

theorem infinovaHeader_eq (txbuf : Buffer) (msgId : Byte) (nBytes : Nat) :
    (infinovaHeader txbuf msgId nBytes).2 = ccwriterAppend txbuf (header msgId nBytes) := by
  unfold infinovaHeader ccwriterAppend
  cases bufferAppend txbuf (header msgId nBytes) <;> rfl

end Protozoa.Infinova
