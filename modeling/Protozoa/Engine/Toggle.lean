import Protozoa.Engine.Isolation
import Protozoa.Engine.Once
import Protozoa.Protocol.ViconToggle

/-!
# A toggle on its way through the engine

A Vicon reader (`vicon.c:226-241`) passes a toggle to one Vicon writer. A toggle that is sent twice
cancels itself, so the writer must not repeat it. A message with the lens speed alone is a stop for
`ccpacket_is_stop` (`ccpacket.c:322-336`), which does not look at the lens.

* `Passes`: the reader has one node, which leads to the writer and takes the receiver.
* `doRead_toggle`: reading the message is one call of `ccwriter_do_write`, with `togglePacket`.
* `Smooth`: what is asked of the run besides: room in the buffer, punctual wake-ups, and slots that
  are found by their own entries.
* **`toggle_once`**: one message with the toggle is appended, in whatever run the read stands, if
  the message has another toggle than the lens speed or the slot has a stop counted already.
* `not_toggle_once`: a message with the lens speed alone, which is sent twice.
-/

namespace Protozoa.Engine

open Lib.Scan

variable {κ : Type} [DecidableEq κ] {os : Os} {wtrs : Nat → Ccwriter κ} {w w' : World Nat κ}
  {rdr : Ccreader} {mess : List Byte} {t i : Nat} {r r₀ : Int}

/-! ## The reader -/

/-- A Vicon reader between two messages that passes packets for `r₀` to the writer `i` only, for its
receiver `r`. -/
structure Passes (rdr : Ccreader) (r₀ : Int) (i : Nat) (r : Int) : Prop where
  timeout : rdr.timeout = Vicon.viconTimeout
  idle : rdr.Idle
  valid : 1 ≤ r ∧ r ≤ 255
  route : ∃ pre node post, rdr.head = pre ++ node :: post ∧ node.writer = i ∧
    ccnodeGetReceiver node r₀ = r ∧ ∀ other ∈ pre ++ post, ccnodeGetReceiver other r₀ = 0

theorem doWritersLoop_none {σ : Type} (sink : Sink σ) {receiver : Int} : ∀ {nodes : List Ccnode},
    (∀ node ∈ nodes, ccnodeGetReceiver node receiver = 0) → ∀ (pkt : Ccpacket) (s : σ),
      doWritersLoop sink receiver nodes pkt s = (pkt, s)
  | [], _, _, _ => rfl
  | node :: nodes, h, pkt, s => by
    obtain ⟨hnode, hnodes⟩ := List.forall_mem_cons.mp h
    rw [doWritersLoop, if_neg (not_not_intro hnode)]
    exact doWritersLoop_none sink hnodes pkt s

/-- The packet that the writer gets. -/
def togglePacket (os : Os) (w : World Nat κ) (rdr : Ccreader) (mess : List Byte) (r : Int) : Ccpacket :=
  Vicon.togglePacket rdr.packet mess r (timevalAdjust (os.clock w.reading) Vicon.viconTimeout)

/-- **Reading a toggle** submits its packet. -/
theorem doRead_toggle (h : Passes rdr (Vicon.receiverOf mess) i r) (hmess : Vicon.ToggleMess t mess)
    {rxbuf : Buffer} (hframes : Vicon.frames.frames rxbuf.data = [mess]) (hw : Shaped w) :
    ∃ st w', Vicon.doRead _ (engineSink os wtrs) ⟨rdr, rxbuf, some w⟩ = some st ∧ st.world = some w' ∧
      step os wtrs w.tick (.submit i (togglePacket os w rdr mess r)) = some w' := by
  obtain ⟨st, out, hdo, hfollows, hwait, -, -, heff⟩ :=
    Vicon.doRead_reads (engineSink os wtrs) ⟨rdr, rxbuf, some w⟩
  obtain rfl : [mess] = out := hframes.symm.trans (hfollows.frames_eq hwait)
  obtain ⟨c, pkt', w', hrun, -⟩ := ccwriterDoWrite_writes os wtrs
    (w := w.tick.observe (.submit i (togglePacket os w rdr mess r))) hw i (togglePacket os w rdr mess r)
  have hstep : step os wtrs w.tick (.submit i (togglePacket os w rdr mess r)) = some w' := by
    simp only [step, hrun, Option.map_some]
  refine ⟨st, w', hdo, ?_, hstep⟩
  obtain ⟨pre, node, post, hhead, rfl, hr, hothers⟩ := h.route
  have hpre : ∀ other ∈ pre, ccnodeGetReceiver other (Vicon.receiverOf mess) = 0 :=
    fun other hother => hothers other (List.mem_append_left _ hother)
  have hpost : ∀ other ∈ post, ccnodeGetReceiver other (Vicon.receiverOf mess) = 0 :=
    fun other hother => hothers other (List.mem_append_right _ hother)
  have hne : r ≠ 0 := by
    have := h.valid
    omega
  set pkt := ccpacketSetTimeout (os.clock w.reading) (Vicon.decode rdr.flags mess rdr.packet) rdr.timeout
    with hpkt
  have hsubmitted : ccpacketSetReceiver pkt r = togglePacket os w rdr mess r := by
    rw [hpkt, hmess.decode, h.timeout]
    rfl
  have hloop : doWritersLoop (engineSink os wtrs) (Vicon.receiverOf mess) rdr.head pkt (some w.tick) =
      (pkt', some w') := by
    rw [hhead, doWritersLoop_append, doWritersLoop_none _ hpre]
    simp only [doWritersLoop, hr, if_pos hne, hsubmitted]
    simp only [engineSink, hrun]
    exact doWritersLoop_none _ hpost _ _
  have hreceiver : pkt.receiver = Vicon.receiverOf mess := by
    rw [hpkt, hmess.decode]
    exact (Vicon.keepsProper_decodeFields mess).receiver (Vicon.decodeReceiver rdr.packet mess)
  have hprocess : (Vicon.process (engineSink os wtrs) (rdr, some w) mess).2 = some w' := by
    unfold Vicon.process
    rw [if_pos hmess.command]
    show (doWritersLoop (engineSink os wtrs) pkt.receiver rdr.head pkt (some w.tick)).2 = _
    rw [hreceiver, hloop]
  exact (congrArg Prod.snd heff).trans hprocess

/-! ## The packet -/

/-- A packet that a Vicon reader has just made does not expire later than a Vicon writer allows. -/
theorem not_expired {m k : Nat} {pkt : Ccpacket} (hk : m ≤ k)
    (h : pkt.expire = timevalAdjust (os.clock m) Vicon.viconTimeout) :
    ccpacketIsExpired (os.clock k) pkt Vicon.viconTimeout = false := by
  have hexpire := (@timevalAdjust_spec _ Vicon.viconTimeout (os.normal m)).1
  have hlt := timeElapsed_lt (os.clock k) pkt.expire
  have hmono := os.mono hk
  have hnat : ((Vicon.viconTimeout * 1000 % 2 ^ 32 : Nat) : Int) = 15000000 := rfl
  have htimeout : ((Vicon.viconTimeout : Nat) : Int) = 15000 := rfl
  rw [← h, hnat] at hexpire
  unfold ccpacketIsExpired timeFromNow
  simp only [decide_eq_false_iff_not, htimeout]
  split <;> omega

omit [DecidableEq κ] in
theorem single_toggle (hvicon : (wtrs i).protocol = .vicon) (hidle : rdr.Idle)
    (hmess : Vicon.ToggleMess t mess) (hr : 1 ≤ r ∧ r ≤ 255) :
    Single os wtrs i (togglePacket os w rdr mess r) (Vicon.message (togglePacket os w rdr mess r))
      (Vicon.toggleSize mess) w.reading := by
  obtain ⟨hflags, -, -, hpreset⟩ := hidle
  have hcarried : Vicon.Carried (togglePacket os w rdr mess r) := hmess.carried hflags hpreset hr
  have hlen := hmess.length_message hflags hpreset hr
    (e := timevalAdjust (os.clock w.reading) Vicon.viconTimeout)
  refine ⟨?_, ?_, fun _ k hk => ?_, fun isOpen txbuf hroom => ?_⟩
  · unfold InRange
    rw [hvicon]
    exact ⟨hr.1, hr.2⟩
  · rw [hvicon]
    exact adjust_of_noMenu _ hcarried.menu
  · rw [hvicon]
    exact not_expired hk rfl
  · rw [hvicon]
    show (Vicon.doWrite txbuf _).1.data = _
    rw [hcarried.doWrite]
    exact (ccwriterAppend_of_le (hlen.trans_le hroom)).1

/-! ## Sent once -/

/-- From `w` over the read to `w₁`, and in the run from there to `w₂`, one message is appended for
the receiver, with the toggle: none as long as the slot waits for its first wake-up. -/
def SentOnce (os : Os) (wtrs : Nat → Ccwriter κ) (t i : Nat) (r : Int) (w w₁ : World Nat κ)
    (after : List (Action Nat κ)) (w₂ : World Nat κ) : Prop :=
  let s : Slot Nat := (i, (r - 1).toNat)
  (s ∈ w₂.queue → handsOf s w₂.trace = handsOf s w.trace) ∧
    ∃ m, Vicon.CarriesToggle t r m ∧
      appended r (share wtrs w i) (share wtrs w₁ i) ++ outputs os wtrs i r w₁ after =
        if s ∈ w₂.queue then [] else [m]

/-- Nothing keeps the engine from sending one message of `size` bytes: the slots that are looked up
are found, no wake-up is early, and there is room whenever the slot is written. -/
structure Smooth (os : Os) (wtrs : Nat → Ccwriter κ) (s : Slot Nat) (size : Nat) (w w₁ : World Nat κ)
    (after : List (Action Nat κ)) (w₂ : World Nat κ) : Prop where
  removesFirst : ∀ o ∈ w₂.trace, o.RemovesFirst
  punctual : ∀ o ∈ w₂.trace, o.Punctual
  room : size ≤ bufferSpace (w.channels (wtrs s.1).chn).txbuf
  allRoom : AllRoom os wtrs s size w₁ after

/-- **A toggle is sent once**, when it is read after any run of the engine and any run follows
without another packet for its receiver: if it has a toggle besides the lens speed, or a stop was
counted for its slot. -/
theorem toggle_once (os : Os) (wtrs : Nat → Ccwriter κ) (slots : Slot Nat → Timeval × Timeval)
    (channels : κ → Channel) {before after : List (Action Nat κ)} {rdr : Ccreader} {rxbuf : Buffer}
    {mess : List Byte} {t i : Nat} {r : Int} (hvicon : (wtrs i).protocol = .vicon)
    (hpasses : Passes rdr (Vicon.receiverOf mess) i r) (hmess : Vicon.ToggleMess t mess)
    (hframes : Vicon.frames.frames rxbuf.data = [mess])
    (hslots : ∀ s, (slots s).1.toUsec ≤ (os.clock 0).toUsec) (hbefore : ∀ a ∈ before, a.ByWriters)
    (hafter : ∀ a ∈ after, a.ByWriters ∧ ¬a.SubmitsTo i r) :
    ∃ w st w₁ w₂, run os wtrs (start slots channels) before = some w ∧
      Vicon.doRead _ (engineSink os wtrs) ⟨rdr, rxbuf, some w⟩ = some st ∧ st.world = some w₁ ∧
      run os wtrs w₁ after = some w₂ ∧
      (Smooth os wtrs (i, (r - 1).toNat) (Vicon.toggleSize mess) w w₁ after w₂ →
        Vicon.isSeen mess = true ∨ 1 ≤ (w.slots (i, (r - 1).toNat)).nCnt →
        SentOnce os wtrs t i r w w₁ after w₂) := by
  obtain ⟨w, hrun, hshaped, hcurrent⟩ := run_induction_of Obs.RemovesFirst before
    (fun a ha w w' _ hw hfollows hC => hfollows.current (hbefore a ha) hw hC)
    (shaped_start slots channels) (current_start wtrs slots channels)
  have hpast : SentPast os w := by
    have hstart : SentPast os (start slots channels : World Nat κ) := hslots
    exact hstart.run hbefore hrun (shaped_start slots channels)
  obtain ⟨st, w₁, hdo, hworld, hstep⟩ := @doRead_toggle κ _ os wtrs w rdr mess t i r hpasses hmess rxbuf
    hframes hshaped
  have hfollows := follows_of_step hstep hshaped
  have hshaped₁ := hfollows.shaped hshaped
  obtain ⟨w₂, hrun₂, -⟩ := @run_induction Nat κ _ _ os wtrs (fun _ => True) after
    (fun _ _ _ _ _ _ _ => trivial) w₁ hshaped₁ trivial
  refine ⟨w, st, w₁, w₂, hrun, hdo, hworld, hrun₂, fun hsmooth hcond => ?_⟩
  have hgrows := (run_grows hshaped₁ hrun₂).2
  have hsingle : Single os wtrs i (togglePacket os w rdr mess r)
      (Vicon.message (togglePacket os w rdr mess r)) (Vicon.toggleSize mess) w.reading :=
    single_toggle hvicon hpasses.idle hmess hpasses.valid
  obtain ⟨hflags, -, -, hpreset⟩ := hpasses.idle
  have hcarries : Vicon.CarriesToggle t r (Vicon.message (togglePacket os w rdr mess r)) :=
    Vicon.carriesToggle_message hmess hflags hpreset hpasses.valid
  have hC₁ : ∀ o ∈ w₁.trace, o.RemovesFirst := fun o ho => hsmooth.removesFirst o (hgrows.subset ho)
  have htick : Current wtrs w.tick none := by
    obtain ⟨⟨hsorted, hnodup, hdefers⟩, hfresh, hstored⟩ :=
      hcurrent fun o ho => hC₁ o (hfollows.grows.subset ho)
    exact ⟨⟨hsorted, hnodup, hdefers⟩, hfresh, hstored⟩
  -- a stop has been counted, or the packet is no stop
  have hstop : ccpacketIsStop (togglePacket os w rdr mess r) = true →
      1 ≤ (w.tick.slots (slotOf i (togglePacket os w rdr mess r))).nCnt := by
    intro hstop
    have hunseen : (!Vicon.isSeen mess) = true := (hmess.isStop hflags hpreset).symm.trans hstop
    rcases hcond with hseen | hcnt
    · rw [hseen] at hunseen
      cases hunseen
    · exact hcnt
  have htracks := tracks_submit htick hsingle (Nat.le_succ _) hshaped hstep hstop
    ((hpast _).trans (os.mono (Nat.le_succ _))) hsmooth.room hC₁
  have hend := htracks.run hsingle ((Nat.le_succ _).trans (step_reading hstep hshaped)) hshaped₁ hafter
    hsmooth.allRoom hrun₂ hsmooth.removesFirst hsmooth.punctual
  exact ⟨fun hin => (hend.waits hin).hands, _, hcarries, hend.out⟩

/-! ## The lens speed -/

instance : DecidablePred (Obs.Punctual : Obs Nat → Prop)
  | .submit .. => inferInstanceAs (Decidable True)
  | .write .. => inferInstanceAs (Decidable True)
  | .remove .. => inferInstanceAs (Decidable True)
  | .packet .. => inferInstanceAs (Decidable True)
  | .rearm .. => inferInstanceAs (Decidable True)
  | .hand _ tv now => inferInstanceAs (Decidable (tv.toUsec ≤ now.toUsec))

instance (s : Slot Nat) (size : Nat) (w : World Nat κ) :
    (a : Action Nat κ) → Decidable (RoomAt wtrs s size w a)
  | .submit .. => inferInstanceAs (Decidable True)
  | .defer .. => inferInstanceAs (Decidable True)
  | .next => inferInstanceAs (Decidable (_ → _))
  | .alarm => inferInstanceAs (Decidable True)
  | .channel .. => inferInstanceAs (Decidable True)

instance decidableAllRoom (s : Slot Nat) (size : Nat) :
    (w : World Nat κ) → (actions : List (Action Nat κ)) → Decidable (AllRoom os wtrs s size w actions)
  | _, [] => inferInstanceAs (Decidable True)
  | w, a :: actions =>
    haveI : DecidablePred fun w' => AllRoom os wtrs s size w' actions :=
      fun w' => decidableAllRoom s size w' actions
    inferInstanceAs (Decidable (RoomAt wtrs s size w a ∧
      ∀ w' ∈ step os wtrs w a, AllRoom os wtrs s size w' actions))

/-- A Vicon writer. -/
def viconWriters : Nat → Ccwriter Unit := fun _ => ⟨.vicon, (), none⟩

/-- A Vicon reader that passes everything to it. -/
def viconReader : Ccreader := ccreaderStart ⟨0, 0⟩ Vicon.viconTimeout 0 [⟨0, 1, 1024, 0⟩]

theorem passes_viconReader : Passes viconReader 1 0 1 :=
  ⟨rfl, idle_start _ _ _ _, by decide, [], ⟨0, 1, 1024, 0⟩, [], rfl, rfl, rfl, by simp⟩

/-- The engine as it is started. -/
def startVicon : World Nat Unit := start (fun _ => (⟨0, 0⟩, ⟨0, 0⟩)) fun _ => channelInit [] 0

/-- Receiver 1: the lens speed. -/
def lensMess : List Byte := [0x80, 0x11, 0x00, 0x01, 0x00, 0x00]

/-- Receiver 1: auto iris. -/
def irisMess : List Byte := [0x80, 0x11, 0x02, 0x00, 0x00, 0x00]

/-- A message in the buffer of a channel. -/
def received (mess : List Byte) (h : mess.length ≤ bufferSize) : Buffer where
  size := bufferSize
  pout := 0
  data := mess
  fits := (Nat.zero_add _).trans_le h
  home _ := rfl

instance (s : Slot Nat) (size : Nat) (w w₁ : World Nat κ) (after : List (Action Nat κ)) (w₂ : World Nat κ) :
    Decidable (Smooth os wtrs s size w w₁ after w₂) :=
  decidable_of_iff ((∀ o ∈ w₂.trace, o.RemovesFirst) ∧ (∀ o ∈ w₂.trace, o.Punctual) ∧
      size ≤ bufferSpace (w.channels (wtrs s.1).chn).txbuf ∧ AllRoom os wtrs s size w₁ after)
    ⟨fun ⟨h₁, h₂, h₃, h₄⟩ => ⟨h₁, h₂, h₃, h₄⟩, fun ⟨h₁, h₂, h₃, h₄⟩ => ⟨h₁, h₂, h₃, h₄⟩⟩

/-- Auto iris is switched by one message. -/
theorem toggle_once_iris : ∃ st w₁ w₂,
    Vicon.doRead _ (engineSink (pausing 6) viconWriters)
      ⟨viconReader, received irisMess (by decide), some startVicon⟩ = some st ∧ st.world = some w₁ ∧
    run (pausing 6) viconWriters w₁ [.alarm, .next] = some w₂ ∧
    SentOnce (pausing 6) viconWriters Vicon.bitAutoIris 0 1 startVicon w₁ [.alarm, .next] w₂ := by
  have hmess : Vicon.ToggleMess Vicon.bitAutoIris irisMess :=
    ⟨rfl, rfl, rfl, by decide, rfl, by decide⟩
  have hframes : Vicon.frames.frames (received irisMess (by decide)).data = [irisMess] := by
    decide +kernel
  obtain ⟨w, st, w₁, w₂, hrun, hdo, hworld, hrun₂, honce⟩ := @toggle_once Unit _ (pausing 6) viconWriters
    (fun _ => (⟨0, 0⟩, ⟨0, 0⟩)) (fun _ => channelInit [] 0) [] [.alarm, .next] viconReader _ irisMess _ 0 1 rfl
    passes_viconReader hmess hframes (fun _ => by decide) (by simp)
    (by simp [Action.ByWriters, Action.SubmitsTo])
  obtain rfl : startVicon = w := Option.some.inj hrun
  have hsmooth : ∀ st ∈ Vicon.doRead _ (engineSink (pausing 6) viconWriters)
      ⟨viconReader, received irisMess (by decide), some startVicon⟩, ∀ w₁ ∈ st.world,
      ∀ w₂ ∈ run (pausing 6) viconWriters w₁ [.alarm, .next],
        Smooth (pausing 6) viconWriters (0, 0) 6 startVicon w₁ [.alarm, .next] w₂ := by
    decide +kernel
  exact ⟨st, w₁, w₂, hdo, hworld, hrun₂,
    honce (hsmooth st hdo w₁ hworld w₂ hrun₂) (.inl (by decide))⟩

/-- The lens speed is switched by one message, and back by another when the gap time is over. -/
theorem not_toggle_once : ¬∀ (os : Os) (wtrs : Nat → Ccwriter Unit) (slots : Slot Nat → Timeval × Timeval)
    (channels : Unit → Channel) (before after : List (Action Nat Unit)) (rdr : Ccreader) (rxbuf : Buffer)
    (mess : List Byte) (t i : Nat) (r : Int), (wtrs i).protocol = .vicon →
    Passes rdr (Vicon.receiverOf mess) i r → Vicon.ToggleMess t mess →
    Vicon.frames.frames rxbuf.data = [mess] → (∀ s, (slots s).1.toUsec ≤ (os.clock 0).toUsec) →
    (∀ a ∈ before, a.ByWriters) → (∀ a ∈ after, a.ByWriters ∧ ¬a.SubmitsTo i r) → ∀ w st w₁ w₂,
    run os wtrs (start slots channels) before = some w →
    Vicon.doRead _ (engineSink os wtrs) ⟨rdr, rxbuf, some w⟩ = some st → st.world = some w₁ →
    run os wtrs w₁ after = some w₂ →
    Smooth os wtrs (i, (r - 1).toNat) (Vicon.toggleSize mess) w w₁ after w₂ →
    SentOnce os wtrs t i r w w₁ after w₂ := by
  intro hall
  have hmess : Vicon.ToggleMess Vicon.bitLensSpeed lensMess :=
    ⟨rfl, rfl, rfl, by decide, rfl, by decide⟩
  have hframes : Vicon.frames.frames (received lensMess (by decide)).data = [lensMess] := by
    decide +kernel
  have hstart : Shaped startVicon := shaped_start _ _
  obtain ⟨st, w₁, hdo, hworld, hstep⟩ := @doRead_toggle Unit _ (pausing 6) viconWriters startVicon viconReader
    lensMess _ 0 1 passes_viconReader hmess _ hframes hstart
  obtain ⟨w₂, hrun₂, -⟩ := @run_induction Nat Unit _ _ (pausing 6) viconWriters (fun _ => True)
    [.alarm, .next] (fun _ _ _ _ _ _ _ => trivial) w₁ ((follows_of_step hstep hstart).shaped hstart) trivial
  have htwice : ∀ st ∈ Vicon.doRead _ (engineSink (pausing 6) viconWriters)
      ⟨viconReader, received lensMess (by decide), some startVicon⟩, ∀ w₁ ∈ st.world,
      ∀ w₂ ∈ run (pausing 6) viconWriters w₁ [.alarm, .next],
        Smooth (pausing 6) viconWriters (0, 0) 6 startVicon w₁ [.alarm, .next] w₂ ∧
        (appended 1 (share viconWriters startVicon 0) (share viconWriters w₁ 0) ++
          outputs (pausing 6) viconWriters 0 1 w₁ [.alarm, .next]).length = 2 := by
    decide +kernel
  obtain ⟨hsmooth, hlen⟩ := htwice st hdo w₁ hworld w₂ hrun₂
  obtain ⟨-, m, -, hout⟩ := hall (pausing 6) viconWriters (fun _ => (⟨0, 0⟩, ⟨0, 0⟩))
    (fun _ => channelInit [] 0) [] [.alarm, .next] viconReader (received lensMess (by decide)) lensMess _ 0 1
    rfl passes_viconReader hmess hframes (fun _ => by decide) (by simp)
    (by simp [Action.ByWriters, Action.SubmitsTo]) startVicon st w₁ w₂ rfl hdo hworld hrun₂ hsmooth
  rw [hout] at hlen
  split at hlen <;> simp at hlen

end Protozoa.Engine
