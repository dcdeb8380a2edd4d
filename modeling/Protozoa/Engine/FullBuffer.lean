import Protozoa.Engine.Passes
import Protozoa.Protocol.ManchesterRoundTrip
import Protozoa.Protocol.PelcoCodecs
import Protozoa.Protocol.ViconRoundTrip

/-!
# Writing to a full buffer

Manchester, Pelco and Vicon writers append the messages for a packet one by one. `ccwriter_append`
(`ccwriter.c:139-150`) logs a message that does not fit and drops it, and `do_write` returns 1 all
the same (`pelco_d.c:497-519`, `pelco_p.c:514-529`, `vicon.c:477-489`, `manchester.c:458-472`), so
that `ccwriter_do_write` takes the packet for sent (`ccwriter.c:198-204`).

* `doWrite_messages`: what `do_write` does is append `Protocol.messages`.
* `foldl_ccwriterAppend_iff`: all parts of a message are appended exactly if there is room for all
  of them.
* `keepsDropped_iff`: one call of `ccwriter_do_write`, in any state of the engine.
* **`allOrNothing_iff`**: both, for `do_write` and for the engine in every state that it reaches
  (`Reached`).

Out of scope: Axis, which clears what is left before it writes, and Infinova, which prepares a
block.
-/

namespace Protozoa.Engine

/-- The messages for a packet, of the protocols that append them one by one. -/
def Protocol.messages (p : Protocol) (pkt : Ccpacket) : List (List Byte) :=
  match p with
  | .manchester => Manchester.messages pkt
  | .pelcoD => PelcoD.codec.messages (Pelco.adjustMenuCommands pkt)
  | .pelcoP => PelcoP.codec.messages (Pelco.adjustMenuCommands pkt)
  | .vicon => [Vicon.written (Vicon.adjustMenuCommands pkt)]
  | .infinovaD | .axis => []

/-- Manchester, Pelco and Vicon. -/
def Protocol.ByMessages (p : Protocol) : Prop := p ∈ [.manchester, .pelcoD, .pelcoP, .vicon]

instance (p : Protocol) : Decidable p.ByMessages := inferInstanceAs (Decidable (_ ∈ _))

theorem vicon_doWrite_eq {pkt : Ccpacket} (hr : 1 ≤ pkt.receiver ∧ pkt.receiver ≤ Vicon.maxAddress)
    (txbuf : Buffer) : Vicon.doWrite txbuf pkt =
      (ccwriterAppend txbuf (Vicon.written (Vicon.adjustMenuCommands pkt)), Vicon.adjustMenuCommands pkt, 1) := by
  unfold Vicon.doWrite Vicon.written
  rw [if_neg (by omega)]
  simp only
  split
  · rw [Vicon.encodeExtendedPreset_eq]
  · split <;> rfl

/-- **The messages** are appended one by one. -/
theorem doWrite_messages {p : Protocol} (hp : p.ByMessages) (auth : Option (List Byte)) (isOpen : Bool)
    (txbuf : Buffer) {pkt : Ccpacket} (hr : 1 ≤ pkt.receiver ∧ pkt.receiver ≤ p.nRcv) :
    p.doWrite auth isOpen txbuf pkt = ((p.messages pkt).foldl ccwriterAppend txbuf, p.adjust pkt, 1) := by
  cases p with
  | manchester => exact Manchester.doWrite_eq txbuf hr
  | pelcoD => exact PelcoD.doWrite_eq txbuf hr
  | pelcoP => exact PelcoP.doWrite_eq txbuf hr
  | vicon => exact vicon_doWrite_eq hr txbuf
  | infinovaD | axis => exact absurd hp (by decide)

/-! ## All or nothing -/

/-- Every message for the packet is appended and counted, or nothing is. -/
def AllOrNothing (p : Protocol) (auth : Option (List Byte)) (isOpen : Bool) (txbuf : Buffer) (pkt : Ccpacket) : Prop :=
  let (txbuf', _, count) := p.doWrite auth isOpen txbuf pkt
  (txbuf'.data = txbuf.data ++ (p.messages pkt).flatten ∧ 0 < count) ∨ (txbuf' = txbuf ∧ count = 0)

/-- There is room for the messages for the packet. -/
def Protocol.Fits (p : Protocol) (txbuf : Buffer) (pkt : Ccpacket) : Prop :=
  (p.messages pkt).flatten.length ≤ bufferSpace txbuf

theorem foldl_ccwriterAppend_size (parts : List (List Byte)) (txbuf : Buffer) :
    (parts.foldl ccwriterAppend txbuf).size = txbuf.size ∧ (parts.foldl ccwriterAppend txbuf).pout = txbuf.pout := by
  induction parts generalizing txbuf with
  | nil => exact ⟨rfl, rfl⟩
  | cons mess parts ih =>
    have hpout : (ccwriterAppend txbuf mess).pout = txbuf.pout := by
      unfold ccwriterAppend bufferAppend
      split <;> rfl
    obtain ⟨hsize, hout⟩ := ih (ccwriterAppend txbuf mess)
    exact ⟨hsize.trans (ccwriterAppend_size txbuf mess), hout.trans hpout⟩

/-- Parts of a message are all appended exactly if there is room for all of them. -/
theorem foldl_ccwriterAppend_iff (parts : List (List Byte)) (txbuf : Buffer) :
    (parts.foldl ccwriterAppend txbuf).data = txbuf.data ++ parts.flatten ↔
      parts.flatten.length ≤ bufferSpace txbuf := by
  refine ⟨fun hall => ?_, foldl_ccwriterAppend⟩
  obtain ⟨hsize, hout⟩ := foldl_ccwriterAppend_size parts txbuf
  have hfits := (parts.foldl ccwriterAppend txbuf).fits
  rw [hall, hsize, hout, List.length_append] at hfits
  unfold bufferSpace
  omega

theorem doWrite_outOfRange {p : Protocol} (hp : p.ByMessages) (auth : Option (List Byte)) (isOpen : Bool)
    (txbuf : Buffer) {pkt : Ccpacket} (hr : ¬(1 ≤ pkt.receiver ∧ pkt.receiver ≤ p.nRcv)) :
    p.doWrite auth isOpen txbuf pkt = (txbuf, pkt, 0) := by
  have hrange : pkt.receiver < 1 ∨ pkt.receiver > p.nRcv := by omega
  cases p with
  | manchester => exact if_pos hrange
  | pelcoD => exact if_pos hrange
  | pelcoP => exact if_pos hrange
  | vicon => exact if_pos hrange
  | infinovaD | axis => exact absurd hp (by decide)

/-- **All or nothing**: a packet for a receiver of the writer is counted, whatever becomes of its
messages. -/
theorem allOrNothing_doWrite {p : Protocol} (hp : p.ByMessages) (auth : Option (List Byte)) (isOpen : Bool)
    (txbuf : Buffer) (pkt : Ccpacket) :
    AllOrNothing p auth isOpen txbuf pkt ↔ (1 ≤ pkt.receiver ∧ pkt.receiver ≤ p.nRcv → p.Fits txbuf pkt) := by
  unfold AllOrNothing
  by_cases hr : 1 ≤ pkt.receiver ∧ pkt.receiver ≤ p.nRcv
  · rw [doWrite_messages hp auth isOpen txbuf hr, Protocol.Fits, ← foldl_ccwriterAppend_iff]
    simp [hr]
  · rw [doWrite_outOfRange hp auth isOpen txbuf hr]
    exact iff_of_true (.inr ⟨rfl, rfl⟩) fun h => absurd h hr

/-! ## What the engine takes for sent -/

variable {ι κ : Type} [DecidableEq ι] [DecidableEq κ] {os : Os} {wtrs : ι → Ccwriter κ} {w w' : World ι κ} {i : ι}
  {pkt pkt' : Ccpacket}

/-- `ccwriter_too_soon`. -/
def TooSoon (os : Os) (wtrs : ι → Ccwriter κ) (w : World ι κ) (i : ι) (pkt : Ccpacket) : Prop :=
  timeSince (os.clock w.reading) (w.slots (slotOf i pkt)).sent < (wtrs i).protocol.gaptime

/-- A packet that is not deferred for being too soon is appended with all its messages, or it is not
counted, and its slot and the queue are left alone. -/
def KeepsDropped (os : Os) (wtrs : ι → Ccwriter κ) (w : World ι κ) (i : ι) (pkt : Ccpacket) : Prop :=
  ∀ c pkt' w', ccwriterDoWrite os wtrs w i pkt = some (c, pkt', w') →
    TooSoon os wtrs w i pkt ∨
    (w'.channels (wtrs i).chn).txbuf.data =
      (w.channels (wtrs i).chn).txbuf.data ++ ((wtrs i).protocol.messages pkt).flatten ∨
    (c = 0 ∧ (w'.slots (slotOf i pkt)).sent = (w.slots (slotOf i pkt)).sent ∧ w'.entries = w.entries)

/-- A state of some run. -/
def Reached (os : Os) (wtrs : ι → Ccwriter κ) (w : World ι κ) : Prop :=
  ∃ slots channels actions, run os wtrs (start slots channels) actions = some w

theorem Reached.shaped (h : Reached os wtrs w) : Shaped w := by
  obtain ⟨slots, channels, actions, hrun⟩ := h
  exact (run_grows (shaped_start slots channels) hrun).1

theorem Share.ccwriterCheckDeferred_chn (sh : Share) (os : Os) (m : Nat) (p : Protocol) (pkt : Ccpacket) (n : Nat) :
    (sh.ccwriterCheckDeferred os m p pkt n).chn = sh.chn := by
  simp only [ccwriterCheckDeferred]
  split_ifs <;> rfl

/-- What stands in the transmit buffer after a transmission. -/
theorem ccwriterDoWrite_txbuf {c : Nat} (h : ccwriterDoWrite os wtrs w i pkt = some (c, pkt', w'))
    (hrange : InRange wtrs i pkt) (hsoon : ¬TooSoon os wtrs w i pkt) :
    (w'.channels (wtrs i).chn).txbuf = ((wtrs i).protocol.doWrite (wtrs i).auth
      (channelIsOpen (w.channels (wtrs i).chn)) (w.channels (wtrs i).chn).txbuf pkt).1 := by
  obtain ⟨hshare, -, -⟩ := ccwriterDoWrite_share wtrs h
  have hsoon' : ¬timeSince (os.clock w.reading) ((share wtrs w i).slots (pkt.receiver - 1).toNat).sent <
      (wtrs i).protocol.gaptime := hsoon
  obtain ⟨txbuf, hwrite⟩ : ∃ txbuf, (wtrs i).protocol.doWrite (wtrs i).auth (channelIsOpen (share wtrs w i).chn)
      (share wtrs w i).chn.txbuf pkt = (txbuf, (wtrs i).protocol.adjust pkt, 1) :=
    ⟨_, Prod.ext rfl (doWrite_spec _ _ _ _ hrange.1 hrange.2)⟩
  have hchn := congrArg (fun out : Ccpacket × Share => out.2.chn.txbuf) hshare
  simp only [Share.ccwriterDoWrite, Share.ccwriterDoWrite_,
    if_pos (show 0 < pkt.receiver ∧ pkt.receiver ≤ (wtrs i).protocol.nRcv from hrange), if_neg hsoon', hwrite,
    gt_iff_lt, Nat.one_pos, if_true, Share.ccwriterCheckDeferred_chn] at hchn
  exact hchn.trans (congrArg Prod.fst hwrite).symm

/-- **What is dropped** is taken for sent. -/
theorem keepsDropped_iff (hp : (wtrs i).protocol.ByMessages) (hw : Shaped w) (pkt : Ccpacket) :
    KeepsDropped os wtrs w i pkt ↔
      (InRange wtrs i pkt → ¬TooSoon os wtrs w i pkt →
        (wtrs i).protocol.Fits (w.channels (wtrs i).chn).txbuf pkt) := by
  obtain ⟨c, pkt', w', hrun, -⟩ := ccwriterDoWrite_writes os wtrs hw i pkt
  have hone : KeepsDropped os wtrs w i pkt ↔ TooSoon os wtrs w i pkt ∨
      (w'.channels (wtrs i).chn).txbuf.data =
        (w.channels (wtrs i).chn).txbuf.data ++ ((wtrs i).protocol.messages pkt).flatten ∨
      (c = 0 ∧ (w'.slots (slotOf i pkt)).sent = (w.slots (slotOf i pkt)).sent ∧ w'.entries = w.entries) := by
    refine ⟨fun h => h c pkt' w' hrun, fun h c₁ pkt₁ w₁ hrun₁ => ?_⟩
    obtain ⟨rfl, heq⟩ := Prod.mk.inj (Option.some.inj (hrun.symm.trans hrun₁))
    obtain ⟨rfl, rfl⟩ := Prod.mk.inj heq
    exact h
  rw [hone]
  cases (ccwriterDoWrite_passed hrun hw).1 with
  | unknown hrange hsame => exact iff_of_true (.inr (.inr ⟨rfl, by rw [hsame], by rw [hsame]⟩)) fun h => absurd h hrange
  | tooSoon hrange hsoon => exact iff_of_true (.inl hsoon) fun _ h => absurd hsoon h
  | sent hrange hsoon =>
    have htxbuf := ccwriterDoWrite_txbuf hrun hrange hsoon
    rw [doWrite_messages hp _ _ _ hrange] at htxbuf
    rw [htxbuf, foldl_ccwriterAppend_iff]
    constructor
    · rintro (h | h | ⟨h, -⟩)
      · exact absurd h hsoon
      · exact fun _ _ => h
      · cases h
    · exact fun h => .inr (.inl (h hrange hsoon))

/-- **All or nothing on a full buffer**: a Manchester, Pelco or Vicon writer appends all messages
for a packet and counts it, or appends none and does not, exactly if there is room for all of them
or the receiver is none of its own. So it is with what `ccwriter_do_write` counts, stamps and takes
out of the queue, for a packet that is not too soon. -/
theorem allOrNothing_iff {p : Protocol} (hp : p.ByMessages) (pkt : Ccpacket) :
    (∀ auth isOpen txbuf, AllOrNothing p auth isOpen txbuf pkt ↔
      (1 ≤ pkt.receiver ∧ pkt.receiver ≤ p.nRcv → p.Fits txbuf pkt)) ∧
    ∀ (ι κ : Type) [DecidableEq ι] [DecidableEq κ] (os : Os) (wtrs : ι → Ccwriter κ) (w : World ι κ) (i : ι),
      (wtrs i).protocol = p → Reached os wtrs w →
        (KeepsDropped os wtrs w i pkt ↔
          (InRange wtrs i pkt → ¬TooSoon os wtrs w i pkt → p.Fits (w.channels (wtrs i).chn).txbuf pkt)) := by
  refine ⟨fun auth isOpen txbuf => allOrNothing_doWrite hp auth isOpen txbuf pkt, ?_⟩
  rintro ι κ _ _ os wtrs w i rfl hreached
  exact keepsDropped_iff hp hreached.shaped pkt

/-- A pan to the left. -/
def viconLeft : Ccpacket := ⟨1, ccPanLeft, 1024, 0, 0, ⟨0, 0⟩⟩

/-- A transmit buffer with room for four bytes. -/
def fourLeft : Buffer := ⟨256, 0, List.replicate 252 0, by rw [List.length_replicate]; decide, fun _ => rfl⟩

/-- The pan has ten bytes. -/
theorem fits_viconLeft {txbuf : Buffer} : Protocol.vicon.Fits txbuf viconLeft ↔ 10 ≤ bufferSpace txbuf := by
  have hlen : (Protocol.vicon.messages viconLeft).flatten.length = 10 := by decide
  unfold Protocol.Fits
  rw [hlen]

theorem not_fits_fourLeft : ¬Protocol.vicon.Fits fourLeft viconLeft := by
  have hspace : bufferSpace fourLeft = 4 := by
    simp only [bufferSpace, fourLeft, List.length_replicate]
  rw [fits_viconLeft, hspace]
  decide

/-- One Vicon writer. -/
def viconWriter : Unit → Ccwriter Unit := fun _ => ⟨.vicon, (), none⟩

/-- Into an empty buffer and behind a first message the pan goes as a whole; where it does not fit,
it is lost. -/
theorem allOrNothing_iff_vicon :
    AllOrNothing .vicon none false (bufferInit bufferSize) viconLeft ∧
    ¬AllOrNothing .vicon none false fourLeft viconLeft ∧
    ∃ w, run ticking viconWriter (start (fun _ => (⟨1, 0⟩, ⟨1, 0⟩)) fun _ => channelInit "/dev/ttyS0".toList 0)
        [.submit () viconLeft] = some w ∧
      (w.channels ()).txbuf.data.length = 10 ∧ KeepsDropped ticking viconWriter w () viconLeft := by
  obtain ⟨hwrite, hkeeps⟩ := @allOrNothing_iff .vicon (by decide) viconLeft
  refine ⟨(hwrite none false (bufferInit bufferSize)).mpr fun _ => fits_viconLeft.mpr (by decide), fun h => ?_, ?_⟩
  · exact not_fits_fourLeft ((hwrite none false fourLeft).mp h (by decide))
  · obtain ⟨w, hrun, hlen, hspace⟩ : ∃ w, run ticking viconWriter
        (start (fun _ => (⟨1, 0⟩, ⟨1, 0⟩)) fun _ => channelInit "/dev/ttyS0".toList 0) [.submit () viconLeft] = some w ∧
        (w.channels ()).txbuf.data.length = 10 ∧ bufferSpace (w.channels ()).txbuf = 246 := ⟨_, rfl, rfl, rfl⟩
    refine ⟨w, hrun, hlen, (hkeeps Unit Unit ticking viconWriter w () rfl ⟨_, _, _, hrun⟩).mpr fun _ _ => ?_⟩
    exact fits_viconLeft.mpr (by rw [show (viconWriter ()).chn = () from rfl, hspace]; decide)

/-- The ten bytes of a pan do not fit, and it is counted. -/
theorem not_allOrNothing : ¬ ∀ (p : Protocol), p.ByMessages → ∀ auth isOpen txbuf pkt,
    ccpacketHasCommand pkt = true → p.messages pkt ≠ [] → AllOrNothing p auth isOpen txbuf pkt := by
  intro h
  exact not_fits_fourLeft ((allOrNothing_doWrite (by decide) none false fourLeft viconLeft).mp
    (h .vicon (by decide) none false fourLeft viconLeft (by decide) (List.cons_ne_nil _ _)) (by decide))

end Protozoa.Engine
