import Protozoa.Engine.FullBuffer
import Protozoa.Program.Moves
import Protozoa.Protocol.Wires

/-!
# What goes out on a connection

A port may have several writers, and the socket takes any number of bytes at a time
(`channel_write`, `channel.c:634-643`). What has gone out on a connection and what still waits in
the transmit buffer are whole messages all the same (`Wired`), each of a packet that was written for
the port, in that order and none twice; a message for which there was no room is missing
(`ccwriter_append`, `ccwriter.c:139-150`).

* `scanner`: the scanner of a protocol, whose frames are its messages (`isFrame_message`).
* `foldl_output_whole`: what one move of the engine appends.
* `Wired.move`, `Wired.moves`: a move of the program, and a run of them.
* `Wired.frames`: the bytes that a listener has got are read as messages of these packets and no
  others.

Out of scope: Axis and Infinova writers, which do not append whole messages;
`Protocol/AxisRequest.lean` and `Protocol/InfinovaFraming.lean` have theirs.
-/

namespace Protozoa.Program

open Engine Lib.Scan Relation

variable {os : Os} {wtrs : Nat → Ccwriter Nat} {ok : Nat → Int → Prop} {p p' : Poller} {k : Nat}

/-! ## Messages -/

/-- The scanner of the readers of a protocol. -/
def scanner : Protocol → Option (Scanner Byte)
  | .manchester => some Manchester.frames
  | .pelcoD => some PelcoD.frames
  | .pelcoP => some PelcoP.frames
  | .vicon => some Vicon.frames
  | .infinovaD | .axis => none

theorem byMessages_of_scanner {protocol : Protocol} {S : Scanner Byte} (hS : scanner protocol = some S) :
    protocol.ByMessages := by
  cases protocol with
  | infinovaD | axis => cases hS
  | _ => decide

/-- A scanner waits for the first byte. -/
theorem scanner_nil {protocol : Protocol} {S : Scanner Byte} (hS : scanner protocol = some S) : S.judge [] = .wait := by
  cases protocol with
  | manchester => exact Option.some.inj hS ▸ fixed_wait (by decide)
  | pelcoD => exact Option.some.inj hS ▸ fixed_wait (by decide)
  | pelcoP => exact Option.some.inj hS ▸ fixed_wait (by decide)
  | vicon => exact Option.some.inj hS ▸ Vicon.judge_short (by decide)
  | infinovaD | axis => cases hS

theorem isFrame_fixed {n : Nat} {hn : 0 < n} {valid : List Byte → Bool} {mess : List Byte} (hlen : mess.length = n)
    (hvalid : valid mess = true) : IsFrame (fixed n hn valid) mess := by
  unfold IsFrame
  rw [hlen]
  refine fixed_frame hlen.ge ?_
  rwa [← hlen, List.take_length]

/-- **A message** is one frame for the readers of its protocol. -/
theorem isFrame_message {protocol : Protocol} {S : Scanner Byte} (hS : S ∈ scanner protocol) {pkt : Ccpacket}
    (hr : 1 ≤ pkt.receiver ∧ pkt.receiver ≤ protocol.nRcv) {mess : List Byte} (hmess : mess ∈ protocol.messages pkt) :
    IsFrame S mess := by
  cases protocol with
  | manchester =>
    obtain rfl := Option.some.inj hS
    obtain ⟨f, -, rfl⟩ := List.mem_map.mp hmess
    obtain ⟨hi, mid, low, -, -, -, -, heq⟩ := Manchester.message_eq hr f
    exact isFrame_fixed (by rw [heq]; rfl) (Manchester.holds_message hr f).flagged
  | pelcoD =>
    obtain rfl := Option.some.inj hS
    obtain ⟨hlen, hvalid⟩ := Pelco.Codec.messages_valid hmess
    exact isFrame_fixed hlen hvalid
  | pelcoP =>
    obtain rfl := Option.some.inj hS
    obtain ⟨hlen, hvalid⟩ := Pelco.Codec.messages_valid hmess
    exact isFrame_fixed hlen hvalid
  | vicon =>
    obtain rfl := Option.some.inj hS
    obtain rfl := List.mem_singleton.mp hmess
    have hreceiver := (settles_adjust .vicon).receiver pkt
    have hrange : 1 ≤ (Vicon.adjustMenuCommands pkt).receiver ∧ (Vicon.adjustMenuCommands pkt).receiver ≤ 255 := by
      rw [show (Vicon.adjustMenuCommands pkt).receiver = pkt.receiver from hreceiver]
      exact hr
    obtain ⟨hwhole, -⟩ := Vicon.whole_written hrange
    exact Vicon.judge_whole hwhole.flagged hwhole.size
  | infinovaD | axis => cases hS

/-- Of some messages those are appended that there is room for. -/
theorem foldl_ccwriterAppend_sublist (parts : List (List Byte)) (txbuf : Buffer) :
    ∃ kept : List (List Byte), kept.Sublist parts ∧
      (parts.foldl ccwriterAppend txbuf).data = txbuf.data ++ kept.flatten := by
  induction parts generalizing txbuf with
  | nil => exact ⟨[], List.Sublist.refl _, (List.append_nil _).symm⟩
  | cons mess parts ih =>
    obtain ⟨kept, hkept, hdata⟩ := ih (ccwriterAppend txbuf mess)
    rw [List.foldl_cons, hdata]
    by_cases hroom : mess.length ≤ bufferSpace txbuf
    · refine ⟨mess :: kept, hkept.cons_cons mess, ?_⟩
      rw [(ccwriterAppend_of_le hroom).1, List.flatten_cons, List.append_assoc]
    · refine ⟨kept, hkept.cons mess, ?_⟩
      have hfull : ccwriterAppend txbuf mess = txbuf := by
        unfold ccwriterAppend bufferAppend
        rw [dif_pos (Nat.lt_of_not_le hroom)]
        rfl
      rw [hfull]

/-- What is sent is taken from the buffer. -/
theorem bufferWrite_data {buf buf' : Buffer} {n : Nat} {sent : List Byte} (h : bufferWrite buf n = some (buf', sent)) :
    buf.data = sent ++ buf'.data := by
  unfold bufferWrite at h
  split at h
  · cases h
  · obtain ⟨b, hconsume, heq⟩ := Option.map_eq_some_iff.mp h
    obtain ⟨rfl, rfl⟩ := Prod.mk.inj heq
    by_cases hn : n ≤ buf.data.length
    · obtain ⟨b', hconsume', hdata, -⟩ := bufferConsume_spec hn
      obtain rfl := Option.some.inj (hconsume.symm.trans hconsume')
      rw [hdata, List.take_append_drop]
    · unfold bufferConsume at hconsume
      rw [dif_neg hn] at hconsume
      cases hconsume

/-! ## Connections -/

/-- The messages of the packets that are written for a port. -/
def sentTo (wtrs : Nat → Ccwriter Nat) (k : Nat) (sent : List (Nat × Ccpacket)) : List (List Byte) :=
  sent.flatMap fun x => if (wtrs x.1).chn = k then (wtrs x.1).protocol.messages x.2 else []

theorem sentTo_append (wtrs : Nat → Ccwriter Nat) (k : Nat) (xs ys : List (Nat × Ccpacket)) :
    sentTo wtrs k (xs ++ ys) = sentTo wtrs k xs ++ sentTo wtrs k ys := List.flatMap_append

/-- What is on its way are whole messages of the packets that have been written. -/
def Wired (wtrs : Nat → Ccwriter Nat) (k : Nat) (p : Poller) : Prop :=
  ∃ mess : List (List Byte), mess.Sublist (sentTo wtrs k (writes p.world.trace)) ∧
    p.wire k ++ (p.channel k).txbuf.data = mess.flatten

/-- What the engine sends on a channel. -/
theorem foldl_output_whole (hk : ∀ i r, ok i r → (wtrs i).chn = k → (wtrs i).protocol.ByMessages)
    {sent : List (Nat × Ccpacket)} (hsent : ∀ x ∈ sent, InRange wtrs x.1 x.2 ∧ ok x.1 x.2.receiver)
    (channels : Nat → Channel) :
    ∃ kept : List (List Byte), kept.Sublist (sentTo wtrs k sent) ∧
      (sent.foldl (output wtrs) channels k).txbuf.data = (channels k).txbuf.data ++ kept.flatten := by
  induction sent generalizing channels with
  | nil => exact ⟨[], List.Sublist.refl _, (List.append_nil _).symm⟩
  | cons x sent ih =>
    obtain ⟨hx, hrest⟩ := List.forall_mem_cons.mp hsent
    obtain ⟨kept, hkept, hdata⟩ := ih hrest (output wtrs channels x)
    rw [List.foldl_cons, hdata]
    unfold sentTo
    rw [List.flatMap_cons]
    unfold output
    dsimp only
    by_cases hchn : (wtrs x.1).chn = k
    · obtain ⟨mess, hmess, hone⟩ := foldl_ccwriterAppend_sublist ((wtrs x.1).protocol.messages x.2) (channels k).txbuf
      rw [if_pos hchn, hchn, Function.update_self, doWrite_messages (hk x.1 _ hx.2 hchn) _ _ _ hx.1, hone,
        List.append_assoc, ← List.flatten_append]
      exact ⟨mess ++ kept, hmess.append hkept, rfl⟩
    · rw [if_neg hchn, Function.update_of_ne fun heq => hchn heq.symm]
      exact ⟨kept, hkept, rfl⟩

/-- **One move** -/
theorem Wired.move (hk : ∀ i r, ok i r → (wtrs i).chn = k → (wtrs i).protocol.ByMessages)
    (hsound : Sound wtrs ok p.world) (h : Wired wtrs k p) (hmove : Move os wtrs ok p p') :
    Sound wtrs ok p'.world ∧ Wired wtrs k p' := by
  obtain ⟨mess, hmess, hwire⟩ := h
  cases hmove with
  | turn ht hturn =>
    obtain ⟨w', hturn', hsound', sent, hsent⟩ := turn_spec os wtrs hsound ht
    obtain rfl := Option.some.inj (hturn.symm.trans hturn')
    obtain ⟨kept, hkept, hdata⟩ := foldl_output_whole hk hsent.allowed p.world.channels
    refine ⟨hsound', mess ++ kept, ?_, ?_⟩
    · dsimp only
      rw [hsent.writes, sentTo_append]
      exact hmess.append hkept
    · rw [List.flatten_append, ← hwire, List.append_assoc]
      refine congrArg (p.wire k ++ ·) (Eq.trans ?_ hdata)
      rw [← hsent.channels]
      rfl
  | reader => exact ⟨hsound, mess, hmess, hwire⟩
  | @channel j chn hkeeps =>
    refine ⟨⟨hsound.shaped, hsound.confined, hsound.written⟩, mess, hmess, ?_⟩
    by_cases hj : k = j
    · rw [hj] at hwire ⊢
      rw [Poller.setChannel_channel_self, hkeeps.txbuf]
      exact hwire
    · rw [Poller.setChannel_channel_of_ne p chn hj]
      exact hwire
  | @send j n flags txbuf sent hwrite =>
    refine ⟨⟨hsound.shaped, hsound.confined, hsound.written⟩, mess, hmess, ?_⟩
    by_cases hj : k = j
    · rw [hj] at hwire ⊢
      show Function.update p.wire j _ j ++ ((p.setChannel j _).channel j).txbuf.data = _
      rw [Function.update_self, Poller.setChannel_channel_self, List.append_assoc, ← hwire]
      exact congrArg (p.wire j ++ ·) (bufferWrite_data hwrite).symm
    · show Function.update p.wire j _ k ++ ((p.setChannel j _).channel k).txbuf.data = _
      rw [Function.update_of_ne hj, Poller.setChannel_channel_of_ne _ _ hj]
      exact hwire
  | @close j chn htxbuf hreader =>
    by_cases hj : k = j
    · refine ⟨⟨hsound.shaped, hsound.confined, hsound.written⟩, [], List.nil_sublist _, ?_⟩
      rw [hj]
      show Function.update p.wire j [] j ++ ((p.setChannel j chn).channel j).txbuf.data = _
      rw [Function.update_self, Poller.setChannel_channel_self, htxbuf]
      rfl
    · refine ⟨⟨hsound.shaped, hsound.confined, hsound.written⟩, mess, hmess, ?_⟩
      show Function.update p.wire j [] k ++ ((p.setChannel j chn).channel k).txbuf.data = _
      rw [Function.update_of_ne hj, Poller.setChannel_channel_of_ne _ _ hj]
      exact hwire
  | poll => exact ⟨hsound, mess, hmess, hwire⟩

/-- **Moves** -/
theorem Wired.moves (hk : ∀ i r, ok i r → (wtrs i).chn = k → (wtrs i).protocol.ByMessages)
    (hsound : Sound wtrs ok p.world) (h : Wired wtrs k p) (hmoves : Moves os wtrs ok p p') : Wired wtrs k p' := by
  suffices hboth : Sound wtrs ok p'.world ∧ Wired wtrs k p' from hboth.2
  induction hmoves with
  | refl => exact ⟨hsound, h⟩
  | tail _ hmove ih => exact ih.2.move hk ih.1 hmove

/-- **A listener** with the scanner of the writers' protocol takes messages that have been sent to
it, and no others. -/
theorem Wired.frames {S : Scanner Byte} (hS : ∀ i r, ok i r → (wtrs i).chn = k → S ∈ scanner (wtrs i).protocol)
    (hnil : S.judge [] = .wait) (hsound : Sound wtrs ok p.world) (h : Wired wtrs k p) :
    (S.frames (p.wire k)).Sublist (sentTo wtrs k (writes p.world.trace)) := by
  obtain ⟨mess, hmess, hwire⟩ := h
  have hframe : ∀ f ∈ mess, IsFrame S f := by
    intro f hf
    obtain ⟨x, hx, hfx⟩ := List.mem_flatMap.mp (hmess.subset hf)
    by_cases hchn : (wtrs x.1).chn = k
    · rw [if_pos hchn] at hfx
      exact isFrame_message (hS x.1 _ (hsound.written x hx).2 hchn) (hsound.written x hx).1 hfx
    · rw [if_neg hchn] at hfx
      exact absurd hfx List.not_mem_nil
  exact (frames_of_append hnil hframe ⟨_, hwire⟩).sublist.trans hmess

end Protozoa.Program
