import Protozoa.Protocol.ManchesterRoundTrip
import Protozoa.Protocol.PelcoAgree
import Protozoa.Protocol.ViconToggle

/-!
# What is read back of a packet

The protocols that have a reader and a writer (`Wire`). What a writer appends to an empty buffer for
a packet without a menu command is read back as packets of known origin (`Origin`): for Vicon the
one message, for the Pelco protocols each message, for Manchester what has been collected of all of
them.

* `whole_written`, `Whole.readBack`: a Vicon message that is written, and one that is read.
* **`Wire.readBack_origin`**: every packet that is read back has such an origin.

What holds of all four protocols is proved by cases on `Origin`, in `Protocol/PresetKept.lean` and
`Protocol/ViconMotion.lean`.
-/

namespace Protozoa

open Lib.Scan Pelco

variable {pkt : Ccpacket} {mess : List Byte} {rxbuf : Buffer}

/-- A packet with nothing in it, but perhaps a receiver. -/
structure Blank (pkt : Ccpacket) : Prop where
  flags : pkt.flags = 0
  pan : pkt.pan = 0
  tilt : pkt.tilt = 0
  preset : pkt.preset = 0

theorem blank_oneWriter (now : Timeval) (timeout : Nat) (flags : BitVec 32) :
    Blank (oneWriter now timeout flags).packet := ⟨rfl, rfl, rfl, rfl⟩

/-- Nothing is read back of nothing. -/
theorem readBack_nil {S : Scanner Byte} {bound : Nat}
    {doRead : (σ : Type) → Sink σ → DoRead σ}
    {effect : List (List Byte) → Bool → Ccreader × List Ccpacket → Ccreader × List Ccpacket}
    {now : Timeval} (hreads : Reads S bound effect (doRead _ (recorder now)))
    (heffect : ∀ empty x, effect [] empty x = x) (hnil : S.judge [] = .wait) {timeout : Nat}
    {flags : BitVec 32} (hdata : rxbuf.data = []) :
    readBack doRead now timeout flags rxbuf = some [] := by
  obtain ⟨st', out, hdo, hfollows, hwait, -, -, heff⟩ := hreads ⟨oneWriter now timeout flags, rxbuf, []⟩
  have hout : [] = out := by
    rw [← S.frames_wait hnil, ← hdata]
    exact hfollows.frames_eq hwait
  rw [← hout, heffect] at heff
  rw [readBack, hdo, Option.map_some, (Prod.mk.inj heff).2]

/-! ## Vicon -/

namespace Vicon

/-- A message is decoded for its receiver. -/
theorem receiver_decode (flags : BitVec 32) (mess : List Byte) (blank : Ccpacket) :
    (decode flags mess blank).receiver = receiverOf mess := by
  have hfields : (decodeFields blank mess).receiver = receiverOf mess :=
    (keepsProper_decodeFields mess).receiver (decodeReceiver blank mess)
  have hcommand : (decodeCommand blank mess).receiver = receiverOf mess := by
    refine Eq.trans ?_ hfields
    show (decodePreset (decodeFields blank mess) mess).receiver = _
    simp only [decodePreset, apply_ite Ccpacket.receiver, receiver_setPreset, ite_self]
  have hpreset : (decodeExPreset (decodeCommand blank mess) mess).receiver = receiverOf mess := by
    refine Eq.trans ?_ hcommand
    simp only [decodeExPreset, ccpacketSetTiltSpeed, ccpacketSetPanSpeed, apply_ite Ccpacket.receiver,
      receiver_setPreset, ite_self]
  have hspeed : (decodeExSpeed (decodeCommand blank mess) mess).receiver = receiverOf mess := hcommand
  unfold decode decodeExtended decodeExStatus
  simp only [apply_ite Ccpacket.receiver, hcommand, hpreset, hspeed, ite_self]

/-- A whole command, alone in a stream. -/
structure Whole (mess : List Byte) : Prop where
  flagged : bitIsSet mess 7 = true
  command : isCommand mess = true
  size : mess.length = messageSize mess

theorem receiverOf_le (mess : List Byte) : receiverOf mess ≤ 255 := by
  have hhi : (mess.getD 0 0 &&& 0x0f).toNat < 2 ^ 4 := @toNat_and_lt 4 _ (by decide)
  have hlow : (mess.getD 1 0 &&& 0x0f).toNat < 2 ^ 4 := @toNat_and_lt 4 _ (by decide)
  unfold receiverOf
  rw [shiftLeft_or hlow]
  omega

/-- **Reading a command**: its packet reaches the writers. -/
theorem Whole.readBack (h : Whole mess) (hr : 1 ≤ receiverOf mess) (now : Timeval) (timeout : Nat)
    (flags : BitVec 32) (hdata : rxbuf.data = mess) :
    readBack doRead now timeout flags rxbuf =
      some [ccpacketSetTimeout now (decode flags mess (oneWriter now timeout flags).packet)
        timeout] := by
  have hreach : InReach (decode flags mess (oneWriter now timeout flags).packet) := by
    have hle := receiverOf_le mess
    rw [InReach, receiver_decode]
    omega
  exact readBack_single (doRead_reads _) (fun _ x => if_pos h.command)
    (by rw [hdata, frames_whole h.flagged h.size]) hreach

/-- What is written is a whole command for the receiver of the packet. -/
theorem whole_written (hr : 1 ≤ pkt.receiver ∧ pkt.receiver ≤ 255) :
    Whole (written pkt) ∧ receiverOf (written pkt) = pkt.receiver := by
  unfold written
  split
  · have h := requests_presetMess hr
    refine ⟨⟨h.flagged, h.command, ?_⟩, h.receiver⟩
    rw [messageSize_eq h.command, h.extended]
    exact h.size
  · split
    · have h := carries_speedMess hr
      refine ⟨⟨h.flagged, h.command, ?_⟩, h.receiver⟩
      rw [messageSize_eq h.command, extended_speedMess]
      exact (speedMess_spec pkt).1
    · have h := carries_commandMess hr
      refine ⟨⟨h.flagged, h.command, ?_⟩, h.receiver⟩
      rw [messageSize_eq h.command, plain_commandMess]
      exact length_commandMess pkt

/-- Nothing is written for a receiver that no message has. -/
theorem doWrite_of_range {txbuf : Buffer} (hr : ¬(1 ≤ pkt.receiver ∧ pkt.receiver ≤ 255)) :
    doWrite txbuf pkt = (txbuf, pkt, 0) := if_pos (by simp only [maxAddress]; omega)

theorem readBack_doWrite (hmenu : ccpacketGetMenu pkt = 0) (now : Timeval) (timeout : Nat)
    (flags : BitVec 32) (hdata : rxbuf.data = (doWrite (bufferInit bufferSize) pkt).1.data) :
    Protozoa.readBack doRead now timeout flags rxbuf =
      some (if 1 ≤ pkt.receiver ∧ pkt.receiver ≤ 255 then
        [ccpacketSetTimeout now (decode flags (written pkt) (oneWriter now timeout flags).packet)
          timeout] else []) := by
  by_cases hr : 1 ≤ pkt.receiver ∧ pkt.receiver ≤ 255
  · obtain ⟨hwhole, hreceiver⟩ := whole_written hr
    have hroom : (written pkt).length ≤ bufferSize := by
      rw [hwhole.size]
      exact (messageSize_le _).trans (by decide)
    rw [doWrite_eq hr hmenu] at hdata
    have happend := (@ccwriterAppend_of_le (bufferInit bufferSize) (written pkt) hroom).1
    rw [if_pos hr]
    exact hwhole.readBack (by omega) now timeout flags (hdata.trans happend)
  · rw [doWrite_of_range hr] at hdata
    rw [if_neg hr]
    exact readBack_nil (doRead_reads _) (fun _ _ => rfl) (judge_short (by decide)) hdata

end Vicon

/-! ## Manchester -/

namespace Manchester

theorem receiver_collected (pkt q : Ccpacket) : (collected pkt q).receiver = q.receiver := by
  rw [collected_eq]
  exact (stages_rest pkt q).1

/-- What a reader begins with is processed as it is. -/
theorem processPacket_blank (now : Timeval) (timeout : Nat) (flags : BitVec 32) :
    ∃ q e, Blank q ∧ ccreaderProcessPacket (recorder now) (oneWriter now timeout flags) [] =
      ({ oneWriter now timeout flags with packet := ⟨0, 0, 0, 0, 0, e⟩ }, [q]) := by
  have hreach : InReach (oneWriter now timeout flags).packet := by
    show (1 : Int) ≤ 1 ∧ (1 : Int) ≤ 1024
    decide
  have hprocess := @processPacket_recorder now (oneWriter now timeout flags) rfl hreach []
  exact ⟨_, timevalAdjust now timeout, ⟨rfl, rfl, rfl, rfl⟩, Prod.ext rfl hprocess⟩

/-- A reader begins to collect with the first function, whatever receiver it was set to before. -/
theorem decodePacket_first (hr : 1 ≤ pkt.receiver ∧ pkt.receiver ≤ maxAddress) (f : Function)
    (now : Timeval) (timeout : Nat) (flags : BitVec 32) :
    ∃ e s, (∀ q ∈ s, Blank q) ∧
      manchesterDecodePacket (recorder now) (oneWriter now timeout flags, []) (message pkt f) =
        ({ oneWriter now timeout flags with packet := apply ⟨pkt.receiver, 0, 0, 0, 0, e⟩ f }, s) := by
  have hholds := holds_message hr f
  by_cases hone : (oneWriter now timeout flags).packet.receiver = pkt.receiver
  · refine ⟨now, [], fun q hq => absurd hq List.not_mem_nil, ?_⟩
    have hself : ccpacketSetReceiver (oneWriter now timeout flags).packet pkt.receiver =
        ⟨pkt.receiver, 0, 0, 0, 0, now⟩ := rfl
    simp only [manchesterDecodePacket, hholds.receiver, hone, ne_eq, not_true, if_false, hself,
      decodePacket_eq hholds]
  · obtain ⟨q, e, hblank, hprocess⟩ := processPacket_blank now timeout flags
    refine ⟨e, [q], fun q' hq' => List.mem_singleton.mp hq' ▸ hblank, ?_⟩
    have hset : ccpacketSetReceiver ⟨0, 0, 0, 0, 0, e⟩ pkt.receiver = ⟨pkt.receiver, 0, 0, 0, 0, e⟩ := rfl
    simp only [manchesterDecodePacket, hholds.receiver, if_pos hone, hprocess, hset,
      decodePacket_eq hholds]

theorem readBack_doWrite (now : Timeval) (timeout : Nat) (flags : BitVec 32)
    (hdata : rxbuf.data = (doWrite (bufferInit bufferSize) pkt).1.data) :
    ∃ pkts, readBack doRead now timeout flags rxbuf = some pkts ∧ ∀ q ∈ pkts, Blank q ∨
      ∃ e, q = ccpacketSetTimeout now (collected pkt ⟨pkt.receiver, 0, 0, 0, 0, e⟩) timeout := by
  have hnone : rxbuf.data = [] → ∃ pkts, readBack doRead now timeout flags rxbuf = some pkts ∧
      ∀ q ∈ pkts, Blank q ∨
        ∃ e, q = ccpacketSetTimeout now (collected pkt ⟨pkt.receiver, 0, 0, 0, 0, e⟩) timeout := by
    intro hnil
    obtain ⟨q, e, hblank, hprocess⟩ := processPacket_blank now timeout flags
    have hempty : bufferAvailable rxbuf = 0 := List.length_eq_zero_iff.mpr hnil
    refine ⟨[q], ?_, fun q' hq' => Or.inl (List.mem_singleton.mp hq' ▸ hblank)⟩
    have hloop : readLoop sizeMsg (manchesterReadMessage (recorder now)) (bufferAvailable rxbuf + 1)
        ⟨oneWriter now timeout flags, rxbuf, []⟩ = some ⟨oneWriter now timeout flags, rxbuf, []⟩ := by
      refine if_neg ?_
      rw [hempty]
      decide
    simp only [readBack, doRead, hloop, Option.bind_eq_bind, Option.bind_some, if_pos hempty, hprocess]
    rfl
  by_cases hr : 1 ≤ pkt.receiver ∧ pkt.receiver ≤ maxAddress
  · rw [data_send hr] at hdata
    cases hfs : functions pkt with
    | nil =>
      refine hnone (hdata.trans ?_)
      rw [hfs]
      rfl
    | cons f fs =>
      obtain ⟨e, s, hblank, hfirst⟩ := decodePacket_first hr f now timeout flags
      obtain ⟨st', hread, -, heff⟩ := @doRead_messages _ _ hr (recorder now)
        ⟨oneWriter now timeout flags, rxbuf, []⟩ hdata
      rw [foldl_collected hr (recorder now) hfs hfirst] at heff
      have hreach : InReach (collected pkt ⟨pkt.receiver, 0, 0, 0, 0, e⟩) := by
        unfold InReach
        rw [receiver_collected]
        exact hr
      have hprocess := @processPacket_recorder now { oneWriter now timeout flags with
        packet := collected pkt ⟨pkt.receiver, 0, 0, 0, 0, e⟩ } rfl hreach s
      have hworld : st'.world = _ := (congrArg Prod.snd heff).trans hprocess
      refine ⟨_, by rw [readBack, hread, Option.map_some, hworld], fun q hq => ?_⟩
      rcases List.mem_append.mp hq with hq | hq
      · exact Or.inl (hblank q hq)
      · exact Or.inr ⟨e, List.mem_singleton.mp hq⟩
  · refine hnone (hdata.trans ?_)
    rw [show doWrite (bufferInit bufferSize) pkt = _ from if_pos (by omega)]
    rfl

end Manchester

/-! ## The four protocols -/

/-- The protocols with a reader and a writer. -/
inductive Wire where
  | vicon
  | pelcoD
  | pelcoP
  | manchester
  deriving DecidableEq

namespace Wire

def doWrite : Wire → Buffer → Ccpacket → Buffer × Ccpacket × Nat
  | vicon => Vicon.doWrite
  | pelcoD => PelcoD.doWrite
  | pelcoP => PelcoP.doWrite
  | manchester => Manchester.doWrite

def doRead : Wire → (σ : Type) → Sink σ → DoRead σ
  | vicon => Vicon.doRead
  | pelcoD => PelcoD.doRead
  | pelcoP => PelcoP.doRead
  | manchester => Manchester.doRead

/-- Where a packet comes from that is read back of `pkt`, but for its expiration time. -/
def Origin (w : Wire) (flags : BitVec 32) (pkt q : Ccpacket) : Prop :=
  ∃ blank, Blank blank ∧
    match w with
    | vicon => (1 ≤ pkt.receiver ∧ pkt.receiver ≤ 255) ∧ q = Vicon.decode flags (Vicon.written pkt) blank
    | pelcoD => ∃ mess ∈ PelcoD.codec.messages pkt, q = PelcoD.decode flags mess blank
    | pelcoP => ∃ mess ∈ PelcoP.codec.messages pkt, q = PelcoP.decode flags mess blank
    | manchester => q = blank ∨ q = Manchester.collected pkt blank

/-- **Reading back** what has been written for a packet without a menu command. -/
theorem readBack_origin (w : Wire) (hmenu : ccpacketGetMenu pkt = 0) (now : Timeval) (timeout : Nat)
    (flags : BitVec 32) (hdata : rxbuf.data = (w.doWrite (bufferInit bufferSize) pkt).1.data) :
    ∃ pkts, readBack w.doRead now timeout flags rxbuf = some pkts ∧
      ∀ q ∈ pkts, ∃ p e, Origin w flags pkt p ∧ q = { p with expire := e } := by
  have hadjust : Pelco.adjustMenuCommands pkt = pkt := Pelco.adjustMenuCommands_of_none hmenu
  have hnothing : ∀ q ∈ ([] : List Ccpacket), ∃ p e, Origin w flags pkt p ∧ q = { p with expire := e } :=
    fun q hq => absurd hq List.not_mem_nil
  cases w with
  | vicon =>
    refine ⟨_, Vicon.readBack_doWrite hmenu now timeout flags hdata, fun q hq => ?_⟩
    split at hq
    · exact ⟨_, _, ⟨_, blank_oneWriter now timeout flags, by assumption, rfl⟩,
        List.mem_singleton.mp hq⟩
    · exact absurd hq List.not_mem_nil
  | pelcoD =>
    by_cases hr : 1 ≤ pkt.receiver ∧ pkt.receiver ≤ 254
    · refine ⟨_, PelcoD.readBack_doWrite hr now timeout flags hdata, fun q hq => ?_⟩
      rw [hadjust] at hq
      obtain ⟨mess, hmess, rfl⟩ := List.mem_map.mp hq
      exact ⟨_, _, ⟨ccpacketCreate ⟨0, 0⟩, ⟨rfl, rfl, rfl, rfl⟩, mess, hmess, rfl⟩, rfl⟩
    · rw [show Wire.doWrite .pelcoD (bufferInit bufferSize) pkt = _ from
        if_pos (by simp only [PelcoD.maxAddress]; omega)] at hdata
      exact ⟨[], readBack_nil (PelcoD.doRead_reads _) (fun _ _ => rfl) (fixed_wait (by decide)) hdata,
        hnothing⟩
  | pelcoP =>
    by_cases hr : 1 ≤ pkt.receiver ∧ pkt.receiver ≤ 254
    · refine ⟨_, PelcoP.readBack_doWrite hr now timeout flags hdata, fun q hq => ?_⟩
      rw [hadjust] at hq
      obtain ⟨mess, hmess, rfl⟩ := List.mem_map.mp hq
      exact ⟨_, _, ⟨ccpacketCreate ⟨0, 0⟩, ⟨rfl, rfl, rfl, rfl⟩, mess, hmess, rfl⟩, rfl⟩
    · rw [show Wire.doWrite .pelcoP (bufferInit bufferSize) pkt = _ from
        if_pos (by simp only [PelcoP.maxAddress]; omega)] at hdata
      exact ⟨[], readBack_nil (PelcoP.doRead_reads _) (fun _ _ => rfl) (fixed_wait (by decide)) hdata,
        hnothing⟩
  | manchester =>
    obtain ⟨pkts, hread, hpkts⟩ := Manchester.readBack_doWrite now timeout flags hdata
    refine ⟨pkts, hread, fun q hq => ?_⟩
    rcases hpkts q hq with hblank | ⟨e, hq⟩
    · exact ⟨q, q.expire, ⟨q, hblank, Or.inl rfl⟩, rfl⟩
    · exact ⟨_, _, ⟨_, ⟨rfl, rfl, rfl, rfl⟩, Or.inr rfl⟩, hq⟩

end Wire

end Protozoa
