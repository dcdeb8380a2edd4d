import Protozoa.Protocol.Joystick
import Protozoa.Protocol.Menu

/-!
# The packets that readers deliver

Any of the five readers (`Reader`), any writers behind it, any stream and any chunks of it: the
packets that reach the writers (`ccreader_process_packet`, `ccreader.c:196-215`) are `Deliverable`.
Whatever every change of a reader's packet keeps (`KeptByReaders`) holds of them.

* `Reader.reads`, `Reader.readsMessages`: what a run of reads does, as a fold over its messages
  (`Reader.effect`).
* `Carries`: the packet of the reader and all packets handed on have a property; one lemma for each
  function in which a packet changes.
* **`Deliverable.of_kept`**: what the changes of the packet keep holds of every packet delivered.
* `Deliverable.menu`: no packet that a reader delivers has a menu command, and no writer has one to
  translate.
-/

namespace Protozoa

open Lib.Scan

/-- The protocols with a reader. -/
inductive Reader where
  | joystick
  | manchester
  | pelcoD
  | pelcoP
  | vicon
  deriving DecidableEq

def Reader.doRead : Reader → (σ : Type) → Sink σ → DoRead σ
  | joystick => Joystick.doRead
  | manchester => Manchester.doRead
  | pelcoD => PelcoD.doRead
  | pelcoP => PelcoP.doRead
  | vicon => Vicon.doRead

/-- **A packet that reaches a writer** in a run of reads. -/
def Deliverable (pkt : Ccpacket) : Prop :=
  ∃ (p : Reader) (now : Timeval) (timeout : Nat) (flags : BitVec 32) (nodes : List Ccnode)
    (stream : List Byte) (ks : List Nat) (st : ReadState (List Ccpacket)) (rest : List Byte),
    runReads (p.doRead _ (recorder now))
      ⟨ccreaderStart now timeout flags nodes, bufferInit bufferSize, []⟩ stream ks = some (st, rest) ∧
    pkt ∈ st.world

/-! ## Reads -/

/-- What a reader does with the messages of one read. -/
def Reader.effect : Reader → (σ : Type) → Sink σ → List (List Byte) → Bool → Ccreader × σ → Ccreader × σ
  | joystick => fun _ sink messages _ x => Joystick.readBatch sink messages x
  | manchester => fun _ => Manchester.readEffect
  | pelcoD => fun _ sink messages _ x => messages.foldl (decodeAndProcess PelcoD.decode sink) x
  | pelcoP => fun _ sink messages _ x => messages.foldl (decodeAndProcess PelcoP.decode sink) x
  | vicon => fun _ sink messages _ x => messages.foldl (Vicon.process sink) x

/-- Every `do_read` follows the scanner of its protocol and leaves less than a message. -/
theorem Reader.reads (p : Reader) : ∃ (S : Scanner Byte) (bound : Nat), 0 < bound ∧ bound ≤ 10 ∧
    S.judge [] = .wait ∧ ∀ (σ : Type) (sink : Sink σ), Reads S bound (p.effect σ sink) (p.doRead σ sink) := by
  cases p with
  | joystick =>
    exact ⟨Joystick.frames, _, by decide, by decide, fixed_wait (by decide),
      fun _ sink => Joystick.doRead_reads sink⟩
  | manchester =>
    exact ⟨Manchester.frames, _, by decide, by decide, fixed_wait (by decide),
      fun _ sink => Manchester.doRead_reads sink⟩
  | pelcoD =>
    exact ⟨PelcoD.frames, _, by decide, by decide, fixed_wait (by decide),
      fun _ sink => PelcoD.doRead_reads sink⟩
  | pelcoP =>
    exact ⟨PelcoP.frames, _, by decide, by decide, fixed_wait (by decide),
      fun _ sink => PelcoP.doRead_reads sink⟩
  | vicon =>
    exact ⟨Vicon.frames, _, by decide, by decide, Vicon.judge_short (by decide),
      fun _ sink => Vicon.doRead_reads sink⟩

/-- Every reader takes the messages of its channel. -/
theorem Reader.readsMessages (p : Reader) : ∃ S, ReadsMessages S p.effect p.doRead := by
  obtain ⟨S, bound, hpos, hle, hnil, hreads⟩ := p.reads
  exact ⟨S, Protozoa.readsMessages hreads hnil hpos (Nat.le_trans hle (by decide))⟩

/-! ## What the readers keep -/

/-- A property of packets that every change a reader makes to its packet keeps. -/
structure KeptByReaders (P : Ccpacket → Prop) : Prop where
  blank : ∀ receiver expire, P ⟨receiver, 0, 0, 0, 0, expire⟩
  setReceiver : ∀ pkt receiver, P pkt → P (ccpacketSetReceiver pkt receiver)
  setTimeout : ∀ now pkt timeout, P pkt → P (ccpacketSetTimeout now pkt timeout)
  noPreset : ∀ pkt, P pkt → P (ccpacketSetPreset pkt 0 0)
  joystick : ∀ (rdr : Ccreader) (mess : List Byte), P rdr.packet →
    P (Joystick.joystickDecodeEvent rdr mess).2.packet
  manchester : ∀ pkt mess, P pkt → P (Manchester.decodePacket pkt mess)
  pelcoD : ∀ flags mess pkt, P pkt → P (PelcoD.decode flags mess pkt)
  pelcoP : ∀ flags mess pkt, P pkt → P (PelcoP.decode flags mess pkt)
  vicon : ∀ flags mess pkt, P pkt → P (Vicon.decode flags mess pkt)

/-- The packet of the reader and those that have been delivered have a property. -/
structure Carries (P : Ccpacket → Prop) (x : Ccreader × List Ccpacket) : Prop where
  reader : P x.1.packet
  delivered : ∀ q ∈ x.2, P q

namespace Carries

variable {P : Ccpacket → Prop} {rdr : Ccreader} {s : List Ccpacket} {x : Ccreader × List Ccpacket}
  (hP : KeptByReaders P) (now : Timeval)

theorem update {f : Ccpacket → Ccpacket} (h : Carries P (rdr, s)) (hf : ∀ pkt, P pkt → P (f pkt)) :
    Carries P ({ rdr with packet := f rdr.packet }, s) := ⟨hf rdr.packet h.reader, h.delivered⟩

include hP

/-- The writers, one after the other. -/
theorem doWritersLoop {receiver : Int} (nodes : List Ccnode) {pkt : Ccpacket} {s : List Ccpacket}
    (hpkt : P pkt) (hs : ∀ q ∈ s, P q) :
    P (Protozoa.doWritersLoop (recorder now) receiver nodes pkt s).1 ∧
      ∀ q ∈ (Protozoa.doWritersLoop (recorder now) receiver nodes pkt s).2, P q := by
  induction nodes generalizing pkt s with
  | nil => exact ⟨hpkt, hs⟩
  | cons node nodes ih =>
    unfold Protozoa.doWritersLoop
    by_cases hr : ccnodeGetReceiver node receiver ≠ 0
    · have hpkt' := hP.setReceiver pkt (ccnodeGetReceiver node receiver) hpkt
      simp only [if_pos hr]
      refine ih hpkt' fun q hq => ?_
      rcases List.mem_append.mp hq with hq | hq
      · exact hs q hq
      · rw [List.mem_singleton.mp hq]
        exact hpkt'
    · simp only [if_neg hr]
      exact ih hpkt hs

/-- Delivering the packet. -/
theorem noClear (h : Carries P (rdr, s)) :
    Carries P (ccreaderProcessPacketNoClear (recorder now) rdr s) := by
  obtain ⟨hpkt, hs⟩ := @doWritersLoop P hP now rdr.packet.receiver rdr.head _ s
    (hP.setTimeout now rdr.packet rdr.timeout h.reader) h.delivered
  exact ⟨hP.setReceiver _ _ hpkt, hs⟩

/-- Delivering it, and clearing it afterwards. -/
theorem process (h : Carries P (rdr, s)) : Carries P (ccreaderProcessPacket (recorder now) rdr s) :=
  ⟨hP.blank _ _, (h.noClear hP now).delivered⟩

theorem decodeAndProcess {decode : BitVec 32 → List Byte → Ccpacket → Ccpacket}
    (hdecode : ∀ flags mess pkt, P pkt → P (decode flags mess pkt)) (h : Carries P x)
    (mess : List Byte) : Carries P (Protozoa.decodeAndProcess decode (recorder now) x mess) :=
  (h.update (hdecode x.1.flags mess)).process hP now

theorem readBatch (messages : List (List Byte)) (h : Carries P x) :
    Carries P (Joystick.readBatch (recorder now) messages x) := by
  have hevents : P (messages.foldl Joystick.eventStep (x.1, 0)).1.packet :=
    List.foldlRecOn messages Joystick.eventStep (motive := fun x : Ccreader × Nat => P x.1.packet)
      h.reader fun x hx mess _ => hP.joystick x.1 mess hx
  have hbatch : Carries P ((Joystick.decodeBatch x.1 messages).1, x.2) := ⟨hevents, h.delivered⟩
  unfold Joystick.readBatch Joystick.joystickProcess
  by_cases hc : (Joystick.decodeBatch x.1 messages).2 ≠ 0
  · simp only [if_pos hc]
    exact (hbatch.noClear hP now).update hP.noPreset
  · simp only [if_neg hc]
    exact hbatch.update hP.noPreset

theorem manchesterDecodePacket (mess : List Byte) (h : Carries P x) :
    Carries P (Manchester.manchesterDecodePacket (recorder now) x mess) := by
  have hdecode : ∀ pkt, P pkt → P (Manchester.decodePacket
      (ccpacketSetReceiver pkt (Manchester.decodeReceiver mess)) mess) :=
    fun pkt hpkt => hP.manchester _ mess (hP.setReceiver pkt _ hpkt)
  unfold Manchester.manchesterDecodePacket
  by_cases hr : x.1.packet.receiver ≠ Manchester.decodeReceiver mess
  · simp only [if_pos hr]
    exact (h.process hP now).update hdecode
  · simp only [if_neg hr]
    exact h.update hdecode

theorem readEffect (messages : List (List Byte)) (empty : Bool) (h : Carries P x) :
    Carries P (Manchester.readEffect (recorder now) messages empty x) := by
  have hall : Carries P (messages.foldl (Manchester.manchesterDecodePacket (recorder now)) x) :=
    List.foldlRecOn messages _ h fun _ hx mess _ => hx.manchesterDecodePacket hP now mess
  unfold Manchester.readEffect
  cases empty with
  | false => exact hall
  | true => exact hall.process hP now

/-- One read of any reader. -/
theorem effect (p : Reader) (messages : List (List Byte)) (empty : Bool) (h : Carries P x) :
    Carries P (p.effect _ (recorder now) messages empty x) := by
  cases p with
  | joystick => exact h.readBatch hP now messages
  | manchester => exact h.readEffect hP now messages empty
  | pelcoD =>
    exact List.foldlRecOn messages _ h fun _ hx mess _ => hx.decodeAndProcess hP now hP.pelcoD mess
  | pelcoP =>
    exact List.foldlRecOn messages _ h fun _ hx mess _ => hx.decodeAndProcess hP now hP.pelcoP mess
  | vicon =>
    refine List.foldlRecOn messages _ h fun x hx mess _ => ?_
    unfold Vicon.process
    split
    · exact hx.decodeAndProcess hP now hP.vicon mess
    · exact hx

end Carries

/-- **What holds of every packet delivered**: what each change of the packet of a reader keeps. -/
theorem Deliverable.of_kept {P : Ccpacket → Prop} (hP : KeptByReaders P) {pkt : Ccpacket}
    (h : Deliverable pkt) : P pkt := by
  obtain ⟨p, now, timeout, flags, nodes, stream, ks, st, rest, hrun, hmem⟩ := h
  obtain ⟨S, hreads⟩ := p.readsMessages
  obtain ⟨st', taken, rest', groups, hrun', -, -, -, heff⟩ := hreads _ (recorder now)
    (ccreaderStart now timeout flags nodes) [] stream ks
  obtain ⟨rfl, -⟩ := Prod.mk.inj (Option.some.inj (hrun.symm.trans hrun'))
  obtain ⟨hflags, hpan, htilt, hpreset⟩ := idle_start now timeout flags nodes
  have hstart : Carries P (ccreaderStart now timeout flags nodes, []) := by
    refine ⟨?_, fun q hq => absurd hq List.not_mem_nil⟩
    generalize (ccreaderStart now timeout flags nodes).packet = pkt₀ at hflags hpan htilt hpreset
    obtain ⟨receiver, _, _, _, _, expire⟩ := pkt₀
    subst hflags hpan htilt hpreset
    exact hP.blank receiver expire
  have hend : Carries P (runGroups (p.effect _ (recorder now)) groups
      (ccreaderStart now timeout flags nodes, [])) :=
    List.foldlRecOn groups _ hstart fun x hx g _ => hx.effect hP now p g.1 g.2
  rw [← heff] at hend
  exact hend.delivered pkt hmem

/-! ## No menu command -/

theorem ccpacketGetMenu_congr {pkt pkt' : Ccpacket} (h : pkt'.flags = pkt.flags) :
    ccpacketGetMenu pkt' = ccpacketGetMenu pkt := congrArg ccpacketMenu h

theorem keepsMenu_manchester (mess : List Byte) :
    KeepsMenu fun pkt => Manchester.decodePacket pkt mess := by
  have hpanTilt : ∀ cmnd speed, KeepsMenu fun pkt => Manchester.decodePanTilt pkt cmnd speed :=
    fun cmnd speed => .ite (.setPan _ _) (.ite (.setPan _ _) (.ite (.setTilt _ _)
      (.ite (.setTilt _ _) .id)))
  have hlens : ∀ extra, KeepsMenu fun pkt => Manchester.decodeLens pkt extra := fun extra =>
    .ite (.update .zoom nofun _) (.ite (.update .zoom nofun _) (.ite (.update .focus nofun _)
      (.ite (.update .focus nofun _) (.ite (.update .iris nofun _) (.ite (.update .iris nofun _)
        (.ite (.setTilt _ _) (.ite (.setPan _ _) .id)))))))
  have haux : ∀ extra, KeepsMenu fun pkt => Manchester.decodeAux pkt extra := fun extra =>
    .ite (.setTilt _ _) (.ite (.setPan _ _) (.ite (.update .camera nofun _)
      (.ite (.update .camera nofun _) (.ite (.update .wiper nofun _) .id))))
  have hextended : ∀ cmnd extra, KeepsMenu fun pkt => Manchester.decodeExtended pkt cmnd extra :=
    fun cmnd extra => .ite (hlens _) (.ite (haux _) (.ite (.setPreset _ _) (.ite (.setPreset _ _) .id)))
  exact .ite (hpanTilt _ _) (hextended _ _)

/-- The end of a joystick event, whichever way it was decoded. -/
theorem getMenu_ite {c : Prop} [Decidable c] {m : CcFlags} {x y : Bool × Ccreader}
    (hx : ccpacketGetMenu x.2.packet = m) (hy : ccpacketGetMenu y.2.packet = m) :
    ccpacketGetMenu (if c then x else y).2.packet = m := by
  split
  · exact hx
  · exact hy

theorem getMenu_decodePanTiltZoom (pkt : Ccpacket) (mess : List Byte) :
    ccpacketGetMenu (Joystick.decodePanTiltZoom pkt mess).2 = ccpacketGetMenu pkt := by
  have hmove : KeepsMenu fun pkt => if Joystick.evNumber mess = Joystick.jaxisPan then
      ccpacketSetPan pkt (Joystick.decodePanMode (Joystick.decodeSpeed mess))
        (Joystick.remapSpeed (Joystick.decodeSpeed mess))
    else if Joystick.evNumber mess = Joystick.jaxisTilt then
      ccpacketSetTilt pkt (Joystick.decodeTiltMode (Joystick.decodeSpeed mess))
        (Joystick.remapSpeed (Joystick.decodeSpeed mess))
    else if Joystick.evNumber mess = Joystick.jaxisZoom then
      if Joystick.decodeSpeed mess < 0 then ccpacketSetZoom pkt ccZoomOut
      else if Joystick.decodeSpeed mess > 0 then ccpacketSetZoom pkt ccZoomIn
      else ccpacketSetZoom pkt 0
    else pkt :=
    .ite (.setPan _ _) (.ite (.setTilt _ _) (.ite (.ite (.update .zoom nofun _)
      (.ite (.update .zoom nofun _) (.update .zoom nofun _))) .id))
  exact (KeepsMenu.setPreset 0 0 _).trans (hmove pkt)

theorem getMenu_decodeButton (rdr : Ccreader) (mess : List Byte) :
    ccpacketGetMenu (Joystick.decodeButton rdr mess).2.packet = ccpacketGetMenu rdr.packet := by
  have hpreset : ∀ pressed moved n, ccpacketGetMenu
      (Joystick.decodePresetButton rdr pressed moved n).2.packet = ccpacketGetMenu rdr.packet := by
    intro pressed moved n
    exact getMenu_ite (ccpacketGetMenu_setPreset _ _ _)
      (getMenu_ite (ccpacketGetMenu_setPreset _ _ _) (ccpacketGetMenu_setPreset _ _ _))
  have hcamera : ∀ rdr' : Ccreader, rdr'.packet.flags = rdr.packet.flags →
      ccpacketGetMenu (ccpacketSetPreset rdr'.packet 0 0) = ccpacketGetMenu rdr.packet :=
    fun rdr' hflags => (ccpacketGetMenu_setPreset _ _ _).trans (ccpacketGetMenu_congr hflags)
  have hprevious : (ccreaderPreviousCamera rdr).packet.flags = rdr.packet.flags := by
    unfold ccreaderPreviousCamera
    dsimp only
    split <;> rfl
  have hnext : (ccreaderNextCamera rdr).packet.flags = rdr.packet.flags := by
    unfold ccreaderNextCamera
    dsimp only
    split <;> rfl
  unfold Joystick.decodeButton
  -- In the order of the `case`s: lens, wiper and camera, presets, and the change of camera.
  refine getMenu_ite (KeepsMenu.update .focus nofun _ _) (getMenu_ite (KeepsMenu.update .focus nofun _ _)
    (getMenu_ite (KeepsMenu.update .iris nofun _ _) (getMenu_ite (KeepsMenu.update .iris nofun _ _)
      (getMenu_ite (KeepsMenu.update .wiper nofun _ _) (getMenu_ite (KeepsMenu.update .camera nofun _ _)
        (getMenu_ite (hpreset _ _ _) (getMenu_ite (hpreset _ _ _) (getMenu_ite (hpreset _ _ _)
          (getMenu_ite (hpreset _ _ _) (hcamera _ ?_))))))))))
  split
  · split
    · exact hprevious
    · rfl
  split
  · split
    · exact hnext
    · rfl
  · rfl

/-- A joystick event. -/
theorem getMenu_joystickDecodeEvent (rdr : Ccreader) (mess : List Byte) :
    ccpacketGetMenu (Joystick.joystickDecodeEvent rdr mess).2.packet = ccpacketGetMenu rdr.packet :=
  getMenu_ite (getMenu_decodePanTiltZoom rdr.packet mess) (getMenu_ite (getMenu_decodeButton rdr mess) rfl)

/-- The readers do not touch the menu command. -/
theorem menu_keptByReaders : KeptByReaders fun pkt => ccpacketGetMenu pkt = 0 where
  blank _ _ := Field.get_zero .menu
  setReceiver _ _ h := h
  setTimeout _ _ _ h := h
  noPreset pkt h := (ccpacketGetMenu_setPreset pkt 0 0).trans h
  joystick rdr mess h := (getMenu_joystickDecodeEvent rdr mess).trans h
  manchester pkt mess h := (keepsMenu_manchester mess pkt).trans h
  pelcoD flags mess pkt h := (keepsMenu_pelcoD flags mess pkt).trans h
  pelcoP flags mess pkt h := (keepsMenu_pelcoP flags mess pkt).trans h
  vicon flags mess pkt h := (keepsMenu_vicon flags mess pkt).trans h

/-- **No menu command is delivered** in any run of any reader. -/
theorem Deliverable.menu {pkt : Ccpacket} (h : Deliverable pkt) : ccpacketGetMenu pkt = 0 :=
  h.of_kept menu_keptByReaders

end Protozoa
