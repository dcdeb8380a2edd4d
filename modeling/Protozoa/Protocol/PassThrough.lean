import Protozoa.Protocol.PelcoCanonical
import Protozoa.Protocol.PelcoCodecs
import Protozoa.Protocol.ReadBack

/-!
# Passing Pelco messages through

A canonical message holds nothing but what a packet can carry. What such a message decodes to is
encoded as the message again: every command has a bit of its own (`commandBits`), and of the three
messages `do_write` may append (`pelco_d.c:497-519`, `pelco_p.c:514-529`) exactly one is due.

* `CanonicalCommand`, `Canonical`: for each protocol, the bytes of a command or of an extended
  message that its documentation gives.
* **`PelcoP.passes_through`**: every canonical message of Pelco P comes out as it went in.
* **`PelcoD.passes_through_iff`**: of Pelco D it does unless the message starts a manual scan
  (`ManualScan`), which `ccpacket_pan` (`ccpacket.c:148-158`) does not know.
* `not_passes_through`: the message FF 01 10 00 00 00 11.
-/

namespace Protozoa

open Lib.Scan Pelco

variable {mess : List Byte} {pkt : Ccpacket}

/-! ## Pelco P -/

namespace PelcoP

/-- A command that a packet can carry. -/
structure CanonicalCommand (mess : List Byte) : Prop extends CanonicalMoves lensBits mess where
  extended : bitIsSet mess bitExtended = false
  reserved : bitIsSet mess 23 = false ∧ bitIsSet mess 31 = false
  camera : bitIsSet mess bitCameraOn → bitIsSet mess bitCameraOnOff
  autoPan : bitIsSet mess bitAutoPan → ¬(bitIsSet mess bitPanRight ∨ bitIsSet mess bitPanLeft)

/-- A command, decoded into a blank packet, is there bit by bit. -/
theorem command_decoded (h : CanonicalCommand mess)
    (hpkt : Sensed lensBits mess (bitIsSet mess bitCameraOnOff) (bitIsSet mess bitAutoPan)
      (if bitIsSet mess bitCameraOn then ccCameraOn else ccCameraOff) ccPanAuto pkt) :
    Agrees mess (codec.commandBits pkt) ∧ panByte pkt = mess.getD 4 0 ∧ tiltByte pkt = mess.getD 5 0 := by
  obtain ⟨hmoves, hpan, htilt⟩ := agrees_sensed h.toCanonicalMoves hpkt h.autoPan
  refine ⟨Agrees.append ?_ hmoves, hpan, htilt⟩
  have hcamera : bitIsSet mess bitCameraOnOff = (Field.camera.get pkt.flags == ccCameraOn ||
        Field.camera.get pkt.flags == ccCameraOff) ∧
      bitIsSet mess bitCameraOn = (Field.camera.get pkt.flags == ccCameraOn) := by
    rw [hpkt.camera]
    cases honoff : bitIsSet mess bitCameraOnOff with
    | false =>
      have hon : bitIsSet mess bitCameraOn = false :=
        Bool.eq_false_iff.mpr fun hon => Bool.false_ne_true (honoff.symm.trans (h.camera hon))
      rw [hon]
      decide
    | true => cases bitIsSet mess bitCameraOn <;> decide
  have hauto : bitIsSet mess bitAutoPan = (Field.pan.get pkt.flags == ccPanAuto) := by
    rw [hpkt.panMode]
    cases bitIsSet mess bitAutoPan <;> cases bitIsSet mess bitPanRight <;> decide
  intro e he
  change e ∈ senseBits pkt at he
  simp only [senseBits, List.mem_cons, List.not_mem_nil, or_false] at he
  rcases he with rfl | rfl | rfl
  · exact hcamera.1
  · exact hcamera.2
  · exact hauto

/-- A message that can be passed through. -/
structure Canonical (mess : List Byte) : Prop where
  length : mess.length = sizeMsg
  valid : valid mess = true
  receiver : 1 ≤ (mess.getD 1 0).toNat ∧ (mess.getD 1 0).toNat ≤ 254
  kind : CanonicalCommand mess ∨ CanonicalExtended mess

theorem messages_command (h : CanonicalCommand mess) (hlen : mess.length = sizeMsg)
    (hvalid : valid mess = true)
    (hpkt : Sensed lensBits mess (bitIsSet mess bitCameraOnOff) (bitIsSet mess bitAutoPan)
      (if bitIsSet mess bitCameraOn then ccCameraOn else ccCameraOff) ccPanAuto pkt) :
    codec.messages (adjustMenuCommands pkt) = [mess] := by
  obtain ⟨hbits, hpan, htilt⟩ := command_decoded h hpkt
  refine (messages_moved codec hpkt.toMoved).trans (congrArg (fun m => [m]) ?_)
  refine codec.commandMess_eq hlen hvalid hpkt.receiver (commandBits_nodup pkt) ?_ hbits hpan htilt
  -- what is no command is the bit of extended messages or reserved
  intro k hk hmem
  have hrest : k = 23 ∨ k = 24 ∨ k = 31 := by
    obtain ⟨h₀, h₁⟩ := hk
    rw [commandBits_keys] at hmem
    simp only [List.mem_cons, List.not_mem_nil, or_false] at hmem
    omega
  rcases hrest with rfl | rfl | rfl
  · exact h.reserved.1
  · exact h.extended
  · exact h.reserved.2

/-- What is due for the packet of a canonical message is this message. -/
theorem messages_decode {flags : BitVec 32} (hflags : flags &&& ptDeadzone = 0) (h : Canonical mess)
    (e : Timeval) :
    (decode flags mess ⟨0, 0, 0, 0, 0, e⟩).receiver = (mess.getD 1 0).toNat ∧
      codec.messages (adjustMenuCommands (decode flags mess ⟨0, 0, 0, 0, 0, e⟩)) =
        [mess] := by
  rcases h.kind with hcmd | hext
  · have hdecode : decode flags mess ⟨0, 0, 0, 0, 0, e⟩ =
        pelcoDecodeCommand flags ⟨0, 0, 0, 0, 0, e⟩ mess :=
      if_neg (by rw [hcmd.extended]; decide)
    rw [hdecode, pelcoDecodeCommand_eq hflags]
    have hpkt := @sensed_decodeSensed mess ⟨0, 0, 0, 0, 0, e⟩ lensBits rfl rfl
      (bitIsSet mess bitCameraOnOff) (bitIsSet mess bitAutoPan)
      (if bitIsSet mess bitCameraOn then ccCameraOn else ccCameraOff) (by split <;> decide) ccPanAuto
    exact ⟨hpkt.receiver, messages_command hcmd h.length h.valid hpkt⟩
  · have hdecode : decode flags mess ⟨0, 0, 0, 0, 0, e⟩ = pelcoDecodeExtended ⟨0, 0, 0, 0, 0, e⟩ mess :=
      if_pos hext.extended
    rw [hdecode]
    exact codec.messages_extended hext h.length h.valid rfl rfl

/-- **Pelco P passes through**: a canonical message is read as one packet, and this packet is
written as the message. -/
theorem passes_through {flags : BitVec 32} (hflags : flags &&& ptDeadzone = 0) (h : Canonical mess)
    (now : Timeval) (timeout : Nat) {rxbuf : Buffer} (hdata : rxbuf.data = mess) :
    ∃ pkt, readBack doRead now timeout flags rxbuf = some [pkt] ∧
      (doWrite (bufferInit bufferSize) pkt).1.data = mess := by
  have hframes : frames.frames rxbuf.data = [mess] := by
    rw [hdata]
    exact frames_fixed h.length h.valid
  have hreceiver : (packetOf flags mess).receiver = (mess.getD 1 0).toNat :=
    (messages_decode hflags h ⟨0, 0⟩).1
  have hin := h.receiver
  refine ⟨ccpacketSetTimeout now (packetOf flags mess) timeout,
    readBack_frames (fun _ sink => doRead_reads sink) decode_blank now timeout flags hframes ?_, ?_⟩
  · intro m hm
    rw [List.mem_singleton.mp hm, InReach, hreceiver]
    omega
  · have hpkt : ccpacketSetTimeout now (packetOf flags mess) timeout =
        decode flags mess ⟨0, 0, 0, 0, 0, timevalAdjust now timeout⟩ := (decode_blank _ _ _ _).symm
    rw [hpkt]
    obtain ⟨hr, hmess⟩ := messages_decode hflags h (timevalAdjust now timeout)
    rw [doWrite_eq _ (by rw [hr, maxAddress]; omega), hmess]
    refine (foldl_ccwriterAppend ?_).trans List.flatten_singleton
    rw [List.flatten_singleton, h.length]
    decide

/-- Receiver 1: pan left at turbo speed. -/
def turboLeft : List Byte := [0xa0, 0x01, 0x00, 0x04, 0x40, 0x00, 0xaf, 0x4a]

theorem canonical_turboLeft : Canonical turboLeft where
  length := by decide
  valid := by decide
  receiver := by decide
  kind := Or.inl {
    pan := by decide
    tilt := by decide
    zoom := by decide
    focus := by decide
    iris := by decide
    panSpeed := by decide
    tiltSpeed := by decide
    extended := by decide
    reserved := by decide
    camera := by decide
    autoPan := by decide }

/-- A message that is passed through. -/
theorem passes_through_turboLeft : ∃ pkt,
    readBack doRead ⟨0, 0⟩ pelcoPTimeout 0 (bufferPush (bufferInit bufferSize) turboLeft (by decide)) =
      some [pkt] ∧ (doWrite (bufferInit bufferSize) pkt).1.data = turboLeft :=
  passes_through rfl canonical_turboLeft ⟨0, 0⟩ pelcoPTimeout rfl

end PelcoP

/-! ## Pelco D -/

namespace PelcoD

/-- A command that a packet can carry, as far as the documentation of the protocol goes. -/
structure CanonicalCommand (mess : List Byte) : Prop extends CanonicalMoves lensBits mess where
  length : mess.length = pelcoDSz
  valid : valid mess = true
  receiver : 1 ≤ (mess.getD 1 0).toNat ∧ (mess.getD 1 0).toNat ≤ 254
  extended : bitIsSet mess bitExtended = false
  reserved : bitIsSet mess 21 = false ∧ bitIsSet mess 22 = false
  scan : bitIsSet mess bitAutoPan → ¬(bitIsSet mess bitPanRight ∨ bitIsSet mess bitPanLeft)
  sense : bitIsSet mess bitSense → bitIsSet mess bitCameraOnOff ∨ bitIsSet mess bitAutoPan

/-- The message starts a manual scan. -/
def ManualScan (mess : List Byte) : Prop := bitIsSet mess bitAutoPan ∧ ¬bitIsSet mess bitSense

instance (mess : List Byte) : Decidable (ManualScan mess) := inferInstanceAs (Decidable (_ ∧ _))

/-- The sense bits, but for a manual scan. -/
theorem agrees_senseBits (h : CanonicalCommand mess) (hauto : ¬ManualScan mess)
    (hpkt : Sensed lensBits mess (bitIsSet mess bitCameraOnOff) (bitIsSet mess bitAutoPan)
      (cameraOf mess) (scanOf mess) pkt) : Agrees mess (senseBits pkt) := by
  have hsense := h.sense
  have hpan : (Field.pan.get pkt.flags == ccPanAuto) = bitIsSet mess bitAutoPan := by
    rw [hpkt.panMode, scanOf]
    unfold ManualScan at hauto
    revert hauto
    cases bitIsSet mess bitAutoPan <;> cases bitIsSet mess bitSense <;>
      cases bitIsSet mess bitPanRight <;> decide
  have hcamera : (Field.camera.get pkt.flags == ccCameraOn) =
        (bitIsSet mess bitCameraOnOff && bitIsSet mess bitSense) ∧
      (Field.camera.get pkt.flags == ccCameraOff) =
        (bitIsSet mess bitCameraOnOff && !bitIsSet mess bitSense) := by
    rw [hpkt.camera, cameraOf]
    cases bitIsSet mess bitCameraOnOff <;> cases bitIsSet mess bitSense <;> decide
  intro e he
  simp only [senseBits, bne, hpan, hcamera, List.mem_cons, List.not_mem_nil, or_false] at he
  unfold ManualScan at hauto
  revert hsense hauto
  rcases he with rfl | rfl | rfl
  all_goals
    simp only
    cases bitIsSet mess bitCameraOnOff <;> cases bitIsSet mess bitSense <;>
      cases bitIsSet mess bitAutoPan <;> decide

/-- The message is due again unless it starts a manual scan. -/
theorem commandMess_eq_iff (h : CanonicalCommand mess)
    (hpkt : Sensed lensBits mess (bitIsSet mess bitCameraOnOff) (bitIsSet mess bitAutoPan)
      (cameraOf mess) (scanOf mess) pkt) : codec.commandMess pkt = mess ↔ ¬ManualScan mess := by
  constructor
  · rintro heq ⟨hscan, hsense⟩
    have hpan : Field.pan.get pkt.flags = 0 := by
      rw [hpkt.panMode, if_pos hscan, scanOf, if_neg hsense]
      decide
    have hbit := @Codec.bitIsSet_commandMess pkt codec bitAutoPan (by decide)
    rw [heq, hscan, tableBit_of_mem (commandBits_nodup pkt) (List.mem_append_left _
      (List.mem_cons_of_mem _ (List.mem_cons_of_mem _ List.mem_cons_self))), hpan] at hbit
    exact absurd hbit (by decide)
  · intro hauto
    obtain ⟨hmoves, hpan, htilt⟩ := agrees_sensed h.toCanonicalMoves hpkt h.scan
    have hbits : Agrees mess (codec.commandBits pkt) :=
      Agrees.append (agrees_senseBits h hauto hpkt) hmoves
    refine codec.commandMess_eq h.length h.valid hpkt.receiver (commandBits_nodup pkt) ?_ hbits hpan
      htilt
    -- what is no command is the bit of extended messages or reserved
    intro k hk hmem
    have hrest : k = 21 ∨ k = 22 ∨ k = 24 := by
      obtain ⟨h₀, h₁⟩ := hk
      rw [commandBits_keys] at hmem
      simp only [List.mem_cons, List.not_mem_nil, or_false] at hmem
      omega
    rcases hrest with rfl | rfl | rfl
    · exact h.reserved.1
    · exact h.reserved.2
    · exact h.extended

/-- A canonical command is read as one packet, for which one command is written. -/
theorem readBack_command (h : CanonicalCommand mess) (now : Timeval) (timeout : Nat)
    (flags : BitVec 32) {rxbuf : Buffer} (hdata : rxbuf.data = mess) :
    ∃ pkt, readBack doRead now timeout flags rxbuf = some [pkt] ∧
      (doWrite (bufferInit bufferSize) pkt).1.data = codec.commandMess pkt ∧
      Sensed lensBits mess (bitIsSet mess bitCameraOnOff) (bitIsSet mess bitAutoPan) (cameraOf mess)
        (scanOf mess) pkt := by
  have hframes : frames.frames rxbuf.data = [mess] := by
    rw [hdata]
    exact frames_fixed h.length h.valid
  have hdecode : ∀ e, decode flags mess ⟨0, 0, 0, 0, 0, e⟩ = decodeSensed lensBits
      (bitIsSet mess bitCameraOnOff) (bitIsSet mess bitAutoPan) (cameraOf mess) (scanOf mess)
      ⟨0, 0, 0, 0, 0, e⟩ mess := fun e => by
    rw [← pelcoDecodeCommand_eq]
    exact if_neg (by rw [h.extended]; decide)
  have hcamera : cameraOf mess ∈ Field.camera.members := by
    unfold cameraOf
    split <;> decide
  have hsensed : ∀ e, Sensed lensBits mess (bitIsSet mess bitCameraOnOff) (bitIsSet mess bitAutoPan)
      (cameraOf mess) (scanOf mess) (decode flags mess ⟨0, 0, 0, 0, 0, e⟩) := fun e => by
    rw [hdecode]
    exact sensed_decodeSensed rfl rfl _ _ hcamera _
  have hpkt := hsensed (timevalAdjust now timeout)
  have hin := h.receiver
  refine ⟨decode flags mess ⟨0, 0, 0, 0, 0, timevalAdjust now timeout⟩, ?_, ?_, hpkt⟩
  · rw [decode_blank]
    refine readBack_frames (fun _ sink => doRead_reads sink) decode_blank now timeout flags hframes ?_
    intro m hm
    have hreceiver : (packetOf flags mess).receiver = (mess.getD 1 0).toNat := (hsensed ⟨0, 0⟩).receiver
    rw [List.mem_singleton.mp hm, InReach, hreceiver]
    omega
  · rw [doWrite_eq _ (by rw [hpkt.receiver, maxAddress]; omega), messages_moved codec hpkt.toMoved]
    refine (foldl_ccwriterAppend ?_).trans List.flatten_singleton
    have hlen : (codec.commandMess (decode flags mess ⟨0, 0, 0, 0, 0, timevalAdjust now timeout⟩)).length =
        7 := (codec.length_encodeChecksum _).trans codec.length_commandBody
    rw [List.flatten_singleton, hlen]
    decide

/-- **Pelco D passes through** a canonical command if and only if it does not start a manual scan.
-/
theorem passes_through_iff (h : CanonicalCommand mess) (now : Timeval) (timeout : Nat)
    (flags : BitVec 32) {rxbuf : Buffer} (hdata : rxbuf.data = mess) :
    ∃ pkt, readBack doRead now timeout flags rxbuf = some [pkt] ∧
      ((doWrite (bufferInit bufferSize) pkt).1.data = mess ↔ ¬ManualScan mess) := by
  obtain ⟨pkt, hread, hwrite, hpkt⟩ := readBack_command h now timeout flags hdata
  refine ⟨pkt, hread, ?_⟩
  rw [hwrite]
  exact commandMess_eq_iff h hpkt

/-- Receiver 1: start an automatic scan. -/
def autoScan : List Byte := [0xff, 0x01, 0x90, 0x00, 0x00, 0x00, 0x91]

/-- Receiver 1: start a manual scan. -/
def manualScan : List Byte := [0xff, 0x01, 0x10, 0x00, 0x00, 0x00, 0x11]

theorem canonical_autoScan : CanonicalCommand autoScan where
  pan := by decide
  tilt := by decide
  zoom := by decide
  focus := by decide
  iris := by decide
  panSpeed := by decide
  tiltSpeed := by decide
  length := by decide
  valid := by decide
  receiver := by decide
  extended := by decide
  reserved := by decide
  scan := by decide
  sense := by decide

theorem canonical_manualScan : CanonicalCommand manualScan where
  pan := by decide
  tilt := by decide
  zoom := by decide
  focus := by decide
  iris := by decide
  panSpeed := by decide
  tiltSpeed := by decide
  length := by decide
  valid := by decide
  receiver := by decide
  extended := by decide
  reserved := by decide
  scan := by decide
  sense := by decide

/-- A scan that is passed through. -/
theorem passes_through_iff_autoScan : ∃ pkt,
    readBack doRead ⟨0, 0⟩ pelcoDTimeout 0 (bufferPush (bufferInit bufferSize) autoScan (by decide)) =
      some [pkt] ∧ ((doWrite (bufferInit bufferSize) pkt).1.data = autoScan ↔ ¬ManualScan autoScan) :=
  passes_through_iff canonical_autoScan ⟨0, 0⟩ pelcoDTimeout 0 rfl

/-- A manual scan is not passed through. -/
theorem not_passes_through : ¬∀ (mess : List Byte) (now : Timeval) (timeout : Nat) (flags : BitVec 32)
    (rxbuf : Buffer), CanonicalCommand mess → rxbuf.data = mess →
      ∃ pkt, readBack doRead now timeout flags rxbuf = some [pkt] ∧
        (doWrite (bufferInit bufferSize) pkt).1.data = mess := by
  intro hall
  obtain ⟨pkt, hread, hsame⟩ := hall manualScan ⟨0, 0⟩ pelcoDTimeout 0
    (bufferPush (bufferInit bufferSize) manualScan (by decide)) canonical_manualScan rfl
  obtain ⟨pkt', hread', hwrite, hpkt⟩ := @readBack_command manualScan canonical_manualScan ⟨0, 0⟩
    pelcoDTimeout 0 (bufferPush (bufferInit bufferSize) manualScan (by decide)) rfl
  obtain rfl : pkt = pkt' := by
    have hsome := hread.symm.trans hread'
    rw [Option.some.injEq] at hsome
    exact List.head_eq_of_cons_eq hsome
  have hno := (commandMess_eq_iff canonical_manualScan hpkt).mp (hwrite.symm.trans hsame)
  exact hno (by decide)

end PelcoD

end Protozoa
