import Protozoa.Engine.Isolation
import Protozoa.Engine.Toggle
import Protozoa.Protocol.Deliver

/-!
# Messages with a function that is not supported

An extended Pelco message with another function than those the readers know, or with preset 0
(`decode_extended`, `pelco_d.c:206-229`, `pelco_p.c:225-248`), decodes to a packet without a
command. The readers process it all the same (`pelco_d.c:234-244`), and a packet without a command
is a stop (`ccpacket_is_stop`, `ccpacket.c:322-336`).

* `doRead_unsupported`: what a read of the frame does (`UnsupportedFrame`).
* `routed_defers`: where a writer has the receiver, `defer_packet` is called for it, in any state.
* **`inert_iff`**: such a message leaves the engine alone (`Inert`) exactly if no writer has the
  receiver it is routed to.
* `not_inert`: function 7 to a receiver that is routed.
-/

namespace Protozoa.Engine

open Lib.BitField Lib.Scan Pelco

variable {κ : Type} [DecidableEq κ] {os : Os} {wtrs : Nat → Ccwriter κ} {w w' : World Nat κ}
  {rdr : Ccreader} {mess : List Byte} {pkt : Ccpacket} {receiver : Int}

/-! ## The messages -/

/-- The function is none of those that a reader of Pelco messages acts on. -/
def Unsupported (mess : List Byte) : Prop :=
  ¬(extendedFunction mess ∈ [exStore, exRecall, exClear] ∧ mess.getD 5 0 ≠ 0) ∧
    ¬(extendedFunction mess ∈ [exAuxSet, exAuxClear] ∧ mess.getD 5 0 = exAuxWiper)

instance (mess : List Byte) : Decidable (Unsupported mess) := inferInstanceAs (Decidable (_ ∧ _))

/-- A valid extended message with such a function. -/
def UnsupportedFrame : Reader → List Byte → Prop
  | .pelcoD, mess => mess.length = PelcoD.pelcoDSz ∧ PelcoD.valid mess = true ∧
      bitIsSet mess bitExtended = true ∧ Unsupported mess
  | .pelcoP, mess => mess.length = PelcoP.sizeMsg ∧ PelcoP.valid mess = true ∧
      bitIsSet mess bitExtended = true ∧ Unsupported mess
  | _, _ => False

/-- The receiver in a Pelco message. -/
def receiverOf (mess : List Byte) : Int := (mess.getD 1 0).toNat

/-- The packet has no command. -/
def NoCommand (pkt : Ccpacket) : Prop :=
  pkt.flags = 0 ∧ pkt.pan = 0 ∧ pkt.tilt = 0 ∧ pkt.preset = 0

theorem setPreset_zero (h : NoCommand pkt) (pm : CcFlags) : ccpacketSetPreset pkt pm 0 = pkt := by
  have hmode : ccpacketPreset pm 0 = 0 := if_pos le_rfl
  have hstore : (0 : CcFlags) ≠ ccPresetStore := by decide
  obtain ⟨receiver, flags, pan, tilt, preset, expire⟩ := pkt
  obtain ⟨rfl, rfl, rfl, rfl⟩ := h
  simp only [ccpacketSetPreset, hmode, if_neg hstore]
  rfl

/-- **Decoding it** sets the receiver only. -/
theorem pelcoDecodeExtended_unsupported (h : Unsupported mess) (hpkt : NoCommand pkt) :
    pelcoDecodeExtended pkt mess = ccpacketSetReceiver pkt (receiverOf mess) := by
  obtain ⟨hpreset, haux⟩ := h
  have hzero : extendedFunction mess ∈ [exStore, exRecall, exClear] → mess.getD 5 0 = 0 :=
    fun hex => by_contra fun hne => hpreset ⟨hex, hne⟩
  have hother : extendedFunction mess ∈ [exAuxSet, exAuxClear] → mess.getD 5 0 ≠ exAuxWiper :=
    fun hex heq => haux ⟨hex, heq⟩
  have hset : ∀ pm, mess.getD 5 0 = 0 →
      ccpacketSetPreset (decodeReceiver pkt mess) pm ((mess.getD 5 0).toNat : Int) =
        decodeReceiver pkt mess := by
    intro pm h0
    rw [h0]
    exact @setPreset_zero (decodeReceiver pkt mess) hpkt pm
  show decodeExtended (decodeReceiver pkt mess) (extendedFunction mess) (mess.getD 5 0) = decodeReceiver pkt mess
  simp only [List.mem_cons, List.not_mem_nil, or_false] at hzero hother
  unfold decodeExtended
  split_ifs with hstore hrecall hclear hauxSet hauxClear
  · exact hset _ (hzero (.inl hstore))
  · exact hset _ (hzero (.inr (.inl hrecall)))
  · exact hset _ (hzero (.inr (.inr hclear)))
  · exact if_neg (hother (.inl hauxSet))
  · exact if_neg (hother (.inr hauxClear))
  · rfl

/-- **Reading it** processes the packet. -/
theorem doRead_unsupported {σ : Type} (sink : Sink σ) {p : Reader} (h : UnsupportedFrame p mess)
    (hidle : rdr.Idle) {rxbuf : Buffer} (hdata : rxbuf.data = mess) (s : σ) :
    ∃ st, p.doRead σ sink ⟨rdr, rxbuf, s⟩ = some st ∧ st.world = (ccreaderProcessPacket sink
      { rdr with packet := ccpacketSetReceiver rdr.packet (receiverOf mess) } s).2 := by
  have hprocess : ∀ {decode : BitVec 32 → List Byte → Ccpacket → Ccpacket} {x : Ccreader × σ},
      decode rdr.flags mess rdr.packet = pelcoDecodeExtended rdr.packet mess → Unsupported mess →
      x = [mess].foldl (decodeAndProcess decode sink) (rdr, s) →
      x.2 = (ccreaderProcessPacket sink
        { rdr with packet := ccpacketSetReceiver rdr.packet (receiverOf mess) } s).2 := by
    intro decode x hdecode hun hx
    rw [hx]
    simp only [List.foldl_cons, List.foldl_nil, decodeAndProcess]
    rw [hdecode, pelcoDecodeExtended_unsupported hun hidle]
  cases p with
  | pelcoD =>
    obtain ⟨hlen, hvalid, hext, hun⟩ := h
    obtain ⟨st, out, hdo, hfollows, hwait, -, -, heff⟩ := PelcoD.doRead_reads sink ⟨rdr, rxbuf, s⟩
    have hframes : PelcoD.frames.frames rxbuf.data = [mess] := by
      rw [hdata]
      exact frames_fixed hlen hvalid
    obtain rfl : [mess] = out := hframes.symm.trans (hfollows.frames_eq hwait)
    exact ⟨st, hdo, hprocess (if_pos hext) hun heff⟩
  | pelcoP =>
    obtain ⟨hlen, hvalid, hext, hun⟩ := h
    obtain ⟨st, out, hdo, hfollows, hwait, -, -, heff⟩ := PelcoP.doRead_reads sink ⟨rdr, rxbuf, s⟩
    have hframes : PelcoP.frames.frames rxbuf.data = [mess] := by
      rw [hdata]
      exact frames_fixed hlen hvalid
    obtain rfl : [mess] = out := hframes.symm.trans (hfollows.frames_eq hwait)
    exact ⟨st, hdo, hprocess (if_pos hext) hun heff⟩
  | joystick => exact h.elim
  | manchester => exact h.elim
  | vicon => exact h.elim

/-! ## The writers it is routed to -/

/-- A packet is put into the queue of deferred packets, or one is taken out. -/
def Obs.Queues : Obs Nat → Prop
  | .packet _ true _ _ => True
  | .packet dpkt false before _ => ∃ tv, (dpkt, tv) ∈ before
  | _ => False

/-- Nothing is appended to a channel, and no deferred packet is added or cancelled. -/
structure Untouched (w w' : World Nat κ) : Prop where
  buffers : ∀ k, (w'.channels k).txbuf.data = (w.channels k).txbuf.data
  deferred : ∃ new, w'.trace = new ++ w.trace ∧ ∀ o ∈ new, ¬o.Queues

/-- **A message that does nothing**, in whatever state it is read. -/
def Inert (os : Os) (wtrs : Nat → Ccwriter κ) (p : Reader) (rdr : Ccreader) (mess : List Byte) : Prop :=
  ∀ w, Reachable os wtrs w → ∀ rxbuf : Buffer, rxbuf.data = mess →
    ∃ st w', p.doRead _ (engineSink os wtrs) ⟨rdr, rxbuf, some w⟩ = some st ∧ st.world = some w' ∧
      Untouched w w'

/-- A writer that does not have the receiver is called for nothing. -/
theorem doWrite_unrouted {node : Ccnode} (h : ¬Routed (wtrs node.writer) node receiver) (pkt : Ccpacket)
    (w : World Nat κ) :
    (engineSink os wtrs).doWrite (some w) node.writer
        (ccpacketSetReceiver pkt (ccnodeGetReceiver node receiver)) =
      (some (w.observe (.submit node.writer (ccpacketSetReceiver pkt (ccnodeGetReceiver node receiver)))),
        ccpacketSetReceiver pkt (ccnodeGetReceiver node receiver)) := by
  have hunknown : ∀ w : World Nat κ, ccwriterDoWrite os wtrs w node.writer
      (ccpacketSetReceiver pkt (ccnodeGetReceiver node receiver)) =
        some (0, ccpacketSetReceiver pkt (ccnodeGetReceiver node receiver), w) := fun w => if_neg h
  simp only [engineSink, hunknown]

/-- The loop over writers of which none has the receiver. -/
theorem doWritersLoop_unrouted (nodes : List Ccnode)
    (h : ∀ node ∈ nodes, ¬Routed (wtrs node.writer) node receiver) (pkt : Ccpacket) (w : World Nat κ) :
    ∃ r new, doWritersLoop (engineSink os wtrs) receiver nodes pkt (some w) =
        (ccpacketSetReceiver pkt r, some { w with trace := new ++ w.trace }) ∧
      ∀ o ∈ new, ∃ i sent, o = .submit i sent := by
  induction nodes generalizing pkt w with
  | nil => exact ⟨pkt.receiver, [], rfl, fun o ho => absurd ho List.not_mem_nil⟩
  | cons node nodes ih =>
    obtain ⟨hnode, hnodes⟩ := List.forall_mem_cons.mp h
    by_cases hne : ccnodeGetReceiver node receiver ≠ 0
    · obtain ⟨r, new, hloop, hnew⟩ := ih hnodes
        (ccpacketSetReceiver pkt (ccnodeGetReceiver node receiver))
        (w.observe (.submit node.writer (ccpacketSetReceiver pkt (ccnodeGetReceiver node receiver))))
      refine ⟨r, new ++ [.submit node.writer (ccpacketSetReceiver pkt (ccnodeGetReceiver node receiver))],
        ?_, fun o ho => ?_⟩
      · simp only [doWritersLoop, if_pos hne, doWrite_unrouted hnode, hloop]
        simp [World.observe, ccpacketSetReceiver]
      · rcases List.mem_append.mp ho with ho | ho
        · exact hnew o ho
        · exact ⟨_, _, List.mem_singleton.mp ho⟩
    · obtain ⟨r, new, hloop, hnew⟩ := ih hnodes pkt w
      refine ⟨r, new, ?_, hnew⟩
      simp only [doWritersLoop, if_neg hne, hloop]

/-- The loop returns, and forgets nothing that has happened. -/
theorem doWritersLoop_grows (nodes : List Ccnode) (pkt : Ccpacket) (hw : Shaped w) :
    ∃ pkt' w', doWritersLoop (engineSink os wtrs) receiver nodes pkt (some w) = (pkt', some w') ∧
      w.trace <:+ w'.trace := by
  induction nodes generalizing pkt w with
  | nil => exact ⟨pkt, w, rfl, List.suffix_rfl⟩
  | cons node nodes ih =>
    by_cases hne : ccnodeGetReceiver node receiver ≠ 0
    · obtain ⟨c, pkt₁, w₁, hrun, hwrites⟩ := @ccwriterDoWrite_writes Nat κ _ _ os wtrs
        (w.observe (.submit node.writer (ccpacketSetReceiver pkt (ccnodeGetReceiver node receiver)))) hw
        node.writer (ccpacketSetReceiver pkt (ccnodeGetReceiver node receiver))
      obtain ⟨pkt', w', hloop, hgrows⟩ := ih pkt₁ (hwrites.shaped hw)
      refine ⟨pkt', w', ?_, (List.suffix_cons _ _).trans (hwrites.grows.trans hgrows)⟩
      simp only [doWritersLoop, if_pos hne, engineSink, hrun]
      exact hloop
    · obtain ⟨pkt', w', hloop, hgrows⟩ := ih pkt hw
      refine ⟨pkt', w', ?_, hgrows⟩
      simp only [doWritersLoop, if_neg hne, hloop]

/-! ## A writer that has the receiver -/

omit [DecidableEq κ] in
/-- A call of `ccwriter_do_write` ends with one of `defer_packet`, with a packet if it is a first
stop. -/
theorem Share.ccwriterDoWrite_calls (sh : Share) (os : Os) (m : Nat) (wtr : Ccwriter κ) {pkt : Ccpacket}
    (h : 0 < pkt.receiver ∧ pkt.receiver ≤ wtr.protocol.nRcv) :
    ∃ queued new, (sh.ccwriterDoWrite os m wtr pkt).2.calls =
        .deferPacket (pkt.receiver - 1).toNat queued :: (new ++ sh.calls) ∧
      (ccpacketIsStop (wtr.protocol.adjust pkt) = true → (sh.slots (pkt.receiver - 1).toNat).nCnt < 1 →
        queued = true) := by
  obtain ⟨txbuf, hwrite⟩ : ∃ txbuf, wtr.protocol.doWrite wtr.auth (channelIsOpen sh.chn)
      sh.chn.txbuf pkt = (txbuf, wtr.protocol.adjust pkt, 1) :=
    ⟨_, Prod.ext rfl (doWrite_spec _ _ _ _ h.1 h.2)⟩
  simp only [ccwriterDoWrite, if_pos h, ccwriterDoWrite_, hwrite, gt_iff_lt, Nat.zero_lt_one, if_true]
  split
  · exact ⟨true, [], rfl, fun _ _ => rfl⟩
  simp only [ccwriterCheckDeferred, setSlot_slots_self]
  split
  · split
    · exact ⟨true, [.doWrite pkt], rfl, fun _ _ => rfl⟩
    · rename_i hcnt
      exact ⟨false, [.doWrite pkt], rfl, fun _ hlt => absurd hlt hcnt⟩
  · rename_i hstop
    split
    · exact ⟨true, [.doWrite pkt], rfl, fun _ _ => rfl⟩
    · exact ⟨false, [.doWrite pkt], rfl, fun hyes => absurd hyes hstop⟩

/-- What is called for a writer has been observed. -/
theorem mem_of_callsOf {i n : Nat} {queued : Bool} {trace : List (Obs Nat)}
    (h : .deferPacket n queued ∈ callsOf i trace) : ∃ before after, .packet (i, n) queued before after ∈ trace := by
  obtain ⟨o, ho, hcall⟩ := List.mem_filterMap.mp h
  cases o with
  | packet dpkt q before after =>
    obtain ⟨j, k⟩ := dpkt
    dsimp only at hcall
    split at hcall
    · rename_i hj
      obtain ⟨rfl, rfl⟩ : k = n ∧ q = queued := by simpa using hcall
      exact ⟨before, after, hj ▸ ho⟩
    · cases hcall
  | write j sent =>
    dsimp only at hcall
    split at hcall <;> simp at hcall
  | submit => cases hcall
  | remove => cases hcall
  | rearm => cases hcall
  | hand => cases hcall

/-- **A packet for a receiver of the writer** is deferred, or what is deferred for it is cancelled.
-/
theorem submitted_defers (hw : Shaped w) {i c : Nat} {pkt' : Ccpacket} (hrange : InRange wtrs i pkt)
    (hrun : ccwriterDoWrite os wtrs w i pkt = some (c, pkt', w')) :
    ∃ new queued before after, w'.trace = new ++ w.trace ∧
      .packet (slotOf i pkt) queued before after ∈ new ∧
      (ccpacketIsStop ((wtrs i).protocol.adjust pkt) = true → (w.slots (slotOf i pkt)).nCnt < 1 →
        queued = true) := by
  obtain ⟨c₁, pkt₁, w₁, hrun₁, hwrites⟩ := ccwriterDoWrite_writes os wtrs hw i pkt
  obtain ⟨-, hrest⟩ := Prod.mk.inj (Option.some.inj (hrun.symm.trans hrun₁))
  obtain ⟨-, rfl⟩ := Prod.mk.inj hrest
  obtain ⟨new, htrace⟩ := hwrites.grows
  obtain ⟨hself, -, -⟩ := ccwriterDoWrite_share wtrs hrun
  obtain ⟨queued, calls, hcalls, hqueued⟩ :=
    (share wtrs w i).ccwriterDoWrite_calls os w.reading (wtrs i) hrange
  have hnew : callsOf i new ++ callsOf i w.trace =
      (.deferPacket (pkt.receiver - 1).toNat queued :: calls) ++ callsOf i w.trace := by
    have hall : callsOf i w'.trace = _ := (congrArg (fun x => (Prod.snd x).calls) hself).trans hcalls
    rw [← htrace, callsOf, List.filterMap_append] at hall
    exact hall
  have hcall : .deferPacket (pkt.receiver - 1).toNat queued ∈ callsOf i new :=
    List.append_cancel_right hnew ▸ List.mem_cons_self
  obtain ⟨before, after, hmem⟩ := mem_of_callsOf hcall
  exact ⟨new, queued, before, after, htrace.symm, hmem, hqueued⟩

theorem NoCommand.menu (h : NoCommand pkt) : ccpacketGetMenu pkt = 0 := by
  rw [ccpacketGetMenu_eq, h.1]
  exact Field.get_zero .menu

/-- A packet without a command is a stop. -/
theorem isStop_noCommand (h : NoCommand pkt) : ccpacketIsStop pkt = true := by
  obtain ⟨receiver, flags, pan, tilt, preset, expire⟩ := pkt
  obtain ⟨rfl, rfl, rfl, rfl⟩ := h
  show ccpacketIsStop (ccpacketCreate ⟨0, 0⟩) = true
  decide

/-- The loop over writers of which one has the receiver. -/
theorem doWritersLoop_defers (nodes : List Ccnode)
    (h : ∃ node ∈ nodes, Routed (wtrs node.writer) node receiver) (hpkt : NoCommand pkt) (hw : Shaped w) :
    ∃ pkt' w' new s queued before after,
      doWritersLoop (engineSink os wtrs) receiver nodes pkt (some w) = (pkt', some w') ∧
      w'.trace = new ++ w.trace ∧ .packet s queued before after ∈ new ∧
      ((∀ s, (w.slots s).nCnt < 1) → queued = true) := by
  induction nodes generalizing pkt w with
  | nil =>
    obtain ⟨node, hnode, -⟩ := h
    exact absurd hnode List.not_mem_nil
  | cons node nodes ih =>
    by_cases hnode : Routed (wtrs node.writer) node receiver
    · have hne : ccnodeGetReceiver node receiver ≠ 0 := hnode.1.ne'
      obtain ⟨c, pkt₁, w₁, hrun, hwrites⟩ := @ccwriterDoWrite_writes Nat κ _ _ os wtrs
        (w.observe (.submit node.writer (ccpacketSetReceiver pkt (ccnodeGetReceiver node receiver)))) hw
        node.writer (ccpacketSetReceiver pkt (ccnodeGetReceiver node receiver))
      have hrange : InRange wtrs node.writer
          (ccpacketSetReceiver pkt (ccnodeGetReceiver node receiver)) := hnode
      obtain ⟨new, queued, before, after, htrace, hmem, hqueued⟩ :=
        submitted_defers (show Shaped (w.observe _) from hw) hrange hrun
      obtain ⟨pkt', w', hloop, later, hlater⟩ := @doWritersLoop_grows κ _ os wtrs w₁ receiver nodes pkt₁
        (hwrites.shaped hw)
      have hsent : NoCommand (ccpacketSetReceiver pkt (ccnodeGetReceiver node receiver)) := hpkt
      refine ⟨pkt', w', later ++ (new ++ [.submit node.writer
        (ccpacketSetReceiver pkt (ccnodeGetReceiver node receiver))]), _, queued, before, after, ?_, ?_,
        List.mem_append_right _ (List.mem_append_left _ hmem), fun hcnt => hqueued ?_ (hcnt _)⟩
      · simp only [doWritersLoop, if_pos hne, engineSink, hrun]
        exact hloop
      · rw [← hlater, htrace]
        simp [World.observe]
      · rw [adjust_of_noMenu _ hsent.menu]
        exact isStop_noCommand hsent
    · have hrest : ∃ node ∈ nodes, Routed (wtrs node.writer) node receiver := by
        obtain ⟨other, hother, hrouted⟩ := h
        rcases List.mem_cons.mp hother with rfl | hother
        · exact absurd hrouted hnode
        · exact ⟨other, hother, hrouted⟩
      by_cases hne : ccnodeGetReceiver node receiver ≠ 0
      · have hsent : NoCommand (ccpacketSetReceiver pkt (ccnodeGetReceiver node receiver)) := hpkt
        have hshaped : Shaped (w.observe (.submit node.writer
          (ccpacketSetReceiver pkt (ccnodeGetReceiver node receiver)))) := hw
        obtain ⟨pkt', w', new, s, queued, before, after, hloop, htrace, hmem, hqueued⟩ :=
          ih hrest hsent hshaped
        refine ⟨pkt', w', new ++ [.submit node.writer
          (ccpacketSetReceiver pkt (ccnodeGetReceiver node receiver))], s, queued, before, after, ?_, ?_,
          List.mem_append_left _ hmem, hqueued⟩
        · simp only [doWritersLoop, if_pos hne, doWrite_unrouted hnode, hloop]
        · rw [htrace]
          simp [World.observe]
      · obtain ⟨pkt', w', new, s, queued, before, after, hloop, hdefers⟩ := ih hrest hpkt hw
        refine ⟨pkt', w', new, s, queued, before, after, ?_, hdefers⟩
        simp only [doWritersLoop, if_neg hne, hloop]

/-! ## The messages that do nothing -/

/-- **A message that a writer has the receiver for** changes what is deferred, in any state; where
no stop is counted, it adds a deferred packet. -/
theorem routed_defers {p : Reader} (h : UnsupportedFrame p mess) (hidle : rdr.Idle)
    (hrouted : ∃ node ∈ rdr.head, Routed (wtrs node.writer) node (receiverOf mess)) (hw : Shaped w)
    {rxbuf : Buffer} (hdata : rxbuf.data = mess) :
    ∃ st w' new s queued before after,
      p.doRead _ (engineSink os wtrs) ⟨rdr, rxbuf, some w⟩ = some st ∧ st.world = some w' ∧
      w'.trace = new ++ w.trace ∧ .packet s queued before after ∈ new ∧
      ((∀ s, (w.slots s).nCnt < 1) → queued = true) := by
  obtain ⟨st, hdo, hworld⟩ := doRead_unsupported (engineSink os wtrs) h hidle hdata (some w)
  have hpkt : NoCommand (ccpacketSetTimeout (os.clock w.reading)
      (ccpacketSetReceiver rdr.packet (receiverOf mess)) rdr.timeout) := hidle
  obtain ⟨pkt', w', new, s, queued, before, after, hloop, hdefers⟩ :=
    @doWritersLoop_defers κ _ os wtrs w.tick _ (receiverOf mess) rdr.head hrouted hpkt hw
  exact ⟨st, w', new, s, queued, before, after, hdo, hworld.trans (congrArg Prod.snd hloop), hdefers⟩

/-- **Which messages do nothing**: those whose receiver is routed to no receiver of a writer. -/
theorem inert_iff (os : Os) (wtrs : Nat → Ccwriter κ) (p : Reader) (rdr : Ccreader) (mess : List Byte)
    (h : UnsupportedFrame p mess) (hidle : rdr.Idle) :
    Inert os wtrs p rdr mess ↔
      ∀ node ∈ rdr.head, ¬Routed (wtrs node.writer) node (receiverOf mess) := by
  constructor
  · intro hinert node hnode hrouted
    have hlen : mess.length ≤ bufferSize := by
      cases p with
      | pelcoD => exact h.1.le.trans (by decide)
      | pelcoP => exact h.1.le.trans (by decide)
      | joystick => exact h.elim
      | manchester => exact h.elim
      | vicon => exact h.elim
    have hreach : Reachable os wtrs
        (start (fun _ => (⟨0, 0⟩, ⟨0, 0⟩)) fun _ => channelInit [] 0) := ⟨_, _, [], rfl⟩
    obtain ⟨st, w', hdo, hworld, -, new, htrace, hnew⟩ := hinert _ hreach (received mess hlen) rfl
    obtain ⟨st₁, w₁, new₁, s, queued, before, after, hdo₁, hworld₁, htrace₁, hmem, hqueued⟩ :=
      @routed_defers κ _ os wtrs _ rdr mess p h hidle ⟨node, hnode, hrouted⟩ hreach.shaped
        (received mess hlen) rfl
    obtain rfl := Option.some.inj (hdo.symm.trans hdo₁)
    obtain rfl := Option.some.inj (hworld.symm.trans hworld₁)
    obtain rfl := List.append_cancel_right (htrace.symm.trans htrace₁)
    obtain rfl : queued = true := hqueued fun _ => Nat.zero_lt_one
    exact hnew _ hmem trivial
  · intro hunrouted w hw rxbuf hdata
    obtain ⟨st, hdo, hworld⟩ := doRead_unsupported (engineSink os wtrs) h hidle hdata (some w)
    obtain ⟨r, new, hloop, hnew⟩ := @doWritersLoop_unrouted κ _ os wtrs (receiverOf mess) rdr.head hunrouted
      (ccpacketSetTimeout (os.clock w.reading) (ccpacketSetReceiver rdr.packet (receiverOf mess))
        rdr.timeout) w.tick
    refine ⟨st, _, hdo, hworld.trans (congrArg Prod.snd hloop), fun _ => rfl, new, rfl, fun o ho => ?_⟩
    obtain ⟨i, sent, rfl⟩ := hnew o ho
    exact not_false

/-- Receiver 1: function 7. -/
def function7 : List Byte := [0xff, 0x01, 0x00, 0x0f, 0x00, 0x00, 0x10]

/-- A Pelco D reader that passes everything to a Vicon writer. -/
def pelcoReader : Ccreader := ccreaderStart ⟨0, 0⟩ PelcoD.pelcoDTimeout 0 [⟨0, 1, 1024, 0⟩]

theorem inert_iff_function7 : Inert ticking viconWriters .pelcoD pelcoReader function7 ↔
    ∀ node ∈ pelcoReader.head, ¬Routed (viconWriters node.writer) node (receiverOf function7) :=
  inert_iff ticking viconWriters .pelcoD pelcoReader function7 ⟨rfl, by decide, by decide, by decide⟩
    (idle_start _ _ _ _)

/-- The camera pans, and the message appends a stop. -/
theorem not_inert : ¬∀ (os : Os) (wtrs : Nat → Ccwriter Unit) (p : Reader) (rdr : Ccreader) (mess : List Byte),
    UnsupportedFrame p mess → rdr.Idle → Inert os wtrs p rdr mess := by
  intro hall
  have hinert := hall ticking viconWriters .pelcoD pelcoReader function7
    ⟨rfl, by decide, by decide, by decide⟩ (idle_start _ _ _ _)
  obtain ⟨w, hrun, -⟩ := @run_induction Nat Unit _ _ ticking viconWriters (fun _ => True)
    [.submit 0 ⟨1, ccPanLeft, 1000, 0, 0, ⟨40, 0⟩⟩] (fun _ _ _ _ _ _ _ => trivial) startVicon
    (shaped_start _ _) trivial
  obtain ⟨st, w', hdo, hworld, hbuffers, -⟩ :=
    hinert w ⟨_, _, _, hrun⟩ (received function7 (by decide)) rfl
  have hstops : ∀ w ∈ run ticking viconWriters startVicon [.submit 0 ⟨1, ccPanLeft, 1000, 0, 0, ⟨40, 0⟩⟩],
      ∀ st ∈ PelcoD.doRead _ (engineSink ticking viconWriters)
        ⟨pelcoReader, received function7 (by decide), some w⟩, ∀ w' ∈ st.world,
      (w'.channels ()).txbuf.data =
        (w.channels ()).txbuf.data ++ [0x80, 0x11, 0x00, 0x00, 0x00, 0x00] := by
    decide +kernel
  have hlen := congrArg List.length ((hbuffers ()).symm.trans (hstops w hrun st hdo w' hworld))
  rw [List.length_append] at hlen
  exact absurd hlen (Nat.ne_of_lt (Nat.lt_add_of_pos_right (by decide)))

end Protozoa.Engine
