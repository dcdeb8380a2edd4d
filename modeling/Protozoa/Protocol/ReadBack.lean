import Protozoa.Ccreader

/-!
# Reading back

What a reader makes of bytes that a writer has left in a buffer: `readBack` is one `do_read` of
them, by a reader with one writer for all receivers (`oneWriter`), whose calls of
`ccwriter_do_write` are recorded (`recorder`).

* `readBack_frames`: for a protocol that processes each message as it is decoded, these are the
  packets of the frames.
* `readBack_single`: for any protocol, one frame is one packet.

The round trips of Vicon, Manchester and Pelco are stated with it.
-/

namespace Protozoa

open Lib.Scan

/-- Writers that keep the packets they are handed. -/
def recorder (now : Timeval) : Sink (List Ccpacket) where
  now s := (now, s)
  doWrite s _ pkt := (s ++ [pkt], pkt)

/-- A reader with one writer, for all receivers. -/
def oneWriter (now : Timeval) (timeout : Nat) (flags : BitVec 32) : Ccreader :=
  ccreaderStart now timeout flags [⟨0, 1, 1024, 0⟩]

/-- The packets that reach the writer in one read of what is in the buffer. -/
def readBack (doRead : (σ : Type) → Sink σ → DoRead σ) (now : Timeval) (timeout : Nat)
    (flags : BitVec 32) (rxbuf : Buffer) : Option (List Ccpacket) :=
  (doRead _ (recorder now) ⟨oneWriter now timeout flags, rxbuf, []⟩).map ReadState.world

/-- A writer has this receiver. -/
def InReach (pkt : Ccpacket) : Prop := 1 ≤ pkt.receiver ∧ pkt.receiver ≤ 1024

instance (pkt : Ccpacket) : Decidable (InReach pkt) := inferInstanceAs (Decidable (_ ∧ _))

/-- The packet of the reader reaches the writer. -/
theorem processPacket_recorder (now : Timeval) {rdr : Ccreader} (hhead : rdr.head = [⟨0, 1, 1024, 0⟩])
    (hreach : InReach rdr.packet) (s : List Ccpacket) :
    (ccreaderProcessPacket (recorder now) rdr s).2 =
      s ++ [ccpacketSetTimeout now rdr.packet rdr.timeout] := by
  obtain ⟨h0, h1⟩ := hreach
  have hrange : ¬(rdr.packet.receiver < 1 ∨ rdr.packet.receiver > 1024) := by omega
  have hneg : ¬rdr.packet.receiver < 0 := by omega
  have hne : rdr.packet.receiver ≠ 0 := by omega
  simp [ccreaderProcessPacket, ccreaderProcessPacketNoClear, ccreaderDoWriters, hhead, doWritersLoop,
    ccnodeGetReceiver, recorder, ccpacketSetTimeout, ccpacketSetReceiver, hrange, hneg, hne]

theorem foldl_recorder {decode : BitVec 32 → List Byte → Ccpacket → Ccpacket}
    {packetOf : BitVec 32 → List Byte → Ccpacket}
    (hdec : ∀ flags mess r e,
      decode flags mess ⟨r, 0, 0, 0, 0, e⟩ = { packetOf flags mess with expire := e }) (now : Timeval) :
    ∀ (messages : List (List Byte)) {rdr : Ccreader} (s : List Ccpacket), rdr.Idle →
      rdr.head = [⟨0, 1, 1024, 0⟩] → (∀ mess ∈ messages, InReach (packetOf rdr.flags mess)) →
      (messages.foldl (decodeAndProcess decode (recorder now)) (rdr, s)).2 =
        s ++ messages.map fun mess => ccpacketSetTimeout now (packetOf rdr.flags mess) rdr.timeout
  | [], _, s, _, _, _ => (List.append_nil s).symm
  | mess :: messages, rdr, s, hidle, hhead, hreach => by
    obtain ⟨⟨r, flags, pan, tilt, preset, e⟩, timeout, rflags, head⟩ := rdr
    obtain ⟨rfl, rfl, rfl, rfl⟩ := hidle
    have hpacket := hdec rflags mess r e
    set rdr : Ccreader := ⟨decode rflags mess ⟨r, 0, 0, 0, 0, e⟩, timeout, rflags, head⟩ with hrdr
    have hnow := @processPacket_recorder now rdr hhead
      (by rw [hrdr, hpacket]; exact hreach mess List.mem_cons_self) s
    have hrest := @foldl_recorder decode packetOf hdec now messages
      (ccreaderProcessPacket (recorder now) rdr s).1 (ccreaderProcessPacket (recorder now) rdr s).2
      (idle_processPacket _ _ _) hhead fun m hm => hreach m (List.mem_cons_of_mem mess hm)
    refine hrest.trans ?_
    rw [hnow, List.append_assoc, hrdr, hpacket]
    rfl

/-- **Reading frames back**: the packets of the frames, in order. -/
theorem readBack_frames {S : Scanner Byte} {bound : Nat}
    {decode : BitVec 32 → List Byte → Ccpacket → Ccpacket}
    {packetOf : BitVec 32 → List Byte → Ccpacket} {doRead : (σ : Type) → Sink σ → DoRead σ}
    (hreads : ∀ (σ : Type) (sink : Sink σ),
      Reads S bound (fun out _ x => out.foldl (decodeAndProcess decode sink) x) (doRead σ sink))
    (hdec : ∀ flags mess r e,
      decode flags mess ⟨r, 0, 0, 0, 0, e⟩ = { packetOf flags mess with expire := e })
    (now : Timeval) (timeout : Nat) (flags : BitVec 32) {rxbuf : Buffer} {frames : List (List Byte)}
    (hframes : S.frames rxbuf.data = frames)
    (hreach : ∀ mess ∈ frames, InReach (packetOf flags mess)) :
    readBack doRead now timeout flags rxbuf =
      some (frames.map fun mess => ccpacketSetTimeout now (packetOf flags mess) timeout) := by
  obtain ⟨st, out, hdo, hfollows, hwait, -, -, heff⟩ :=
    hreads _ (recorder now) ⟨oneWriter now timeout flags, rxbuf, []⟩
  have hout : frames = out := hframes.symm.trans (hfollows.frames_eq hwait)
  have hworld := congrArg Prod.snd heff
  rw [← hout] at hworld
  have hfold := @foldl_recorder decode packetOf hdec now frames (oneWriter now timeout flags) []
    (idle_start _ _ _ _) rfl hreach
  rw [readBack, hdo, Option.map_some]
  exact congrArg some (hworld.trans hfold)

/-- **Reading one frame back**: the packet it decodes to. -/
theorem readBack_single {S : Scanner Byte} {bound : Nat}
    {decode : BitVec 32 → List Byte → Ccpacket → Ccpacket} {doRead : (σ : Type) → Sink σ → DoRead σ}
    {effect : List (List Byte) → Bool → Ccreader × List Ccpacket → Ccreader × List Ccpacket}
    {now : Timeval} (hreads : Reads S bound effect (doRead _ (recorder now))) {mess : List Byte}
    (heffect : ∀ empty x, effect [mess] empty x = decodeAndProcess decode (recorder now) x mess)
    {timeout : Nat} {flags : BitVec 32} {rxbuf : Buffer} (hframes : S.frames rxbuf.data = [mess])
    (hreach : InReach (decode flags mess (oneWriter now timeout flags).packet)) :
    readBack doRead now timeout flags rxbuf =
      some [ccpacketSetTimeout now (decode flags mess (oneWriter now timeout flags).packet) timeout] := by
  obtain ⟨st', out, hdo, hfollows, hwait, -, -, heff⟩ :=
    hreads ⟨oneWriter now timeout flags, rxbuf, []⟩
  have hout : [mess] = out := hframes.symm.trans (hfollows.frames_eq hwait)
  rw [← hout, heffect] at heff
  have hworld := congrArg Prod.snd heff
  set rdr : Ccreader := { oneWriter now timeout flags with
    packet := decode flags mess (oneWriter now timeout flags).packet } with hrdr
  have hprocess := @processPacket_recorder now rdr rfl hreach []
  rw [readBack, hdo, Option.map_some]
  exact congrArg some (hworld.trans hprocess)

/-- A frame that is all there is. -/
theorem frames_single {S : Scanner Byte} {mess : List Byte} (h : S.judge mess = .frame mess.length)
    (hnil : S.judge [] = .wait) : S.frames mess = [mess] := by
  rw [S.frames_frame h, List.take_length, List.drop_length, S.frames_wait hnil]

end Protozoa
