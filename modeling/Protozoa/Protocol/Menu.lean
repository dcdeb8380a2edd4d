import Protozoa.Fields
import Protozoa.Protocol.ReadBack
import Protozoa.Protocol.Streams

/-!
# On-screen menus

Storing preset 77, 78 or 79 is documented to open, enter or cancel the menu of a camera.
`ccpacket_set_preset` (`ccpacket.c:296-306`) does call `ccpacket_menu_preset`
(`ccpacket.c:260-274`), but puts back the flags it saved before, so the menu command is gone:
setting a preset keeps the menu as it was (`ccpacketGetMenu_setPreset`), and no decoder sets it
otherwise (`KeepsMenu`).

* `keepsMenu_pelcoD`, `keepsMenu_pelcoP`, `keepsMenu_vicon`: one lemma for each decoder.
* `Encodes`: the messages of each protocol that store one of the three presets (`pelco_d.c:206-229`,
  `pelco_p.c:225-248`, `vicon.c:158-195`).
* **`menu_never_delivered`**: no message that stores one of the three presets gets a menu command to
  a writer.
* `not_menuDelivered`: storing preset 77 in Pelco D.

The protocols that never store such a preset, Manchester and the joystick, are in
`Protocol/Deliver.lean`.
-/

namespace Protozoa

open Lib.BitField Lib.Scan

theorem ccpacketGetMenu_setFlags {mask m : CcFlags} (pkt : Ccpacket) (hm : Within mask m)
    (h : ccMenu &&& mask = 0) : ccpacketGetMenu (setFlags mask pkt m) = ccpacketGetMenu pkt :=
  member_put_other hm h

/-- **Setting a preset** leaves the menu command as it was, also where `ccpacket_menu_preset` has
just set it. -/
theorem ccpacketGetMenu_setPreset (pkt : Ccpacket) (pm : CcFlags) (pNum : Int) :
    ccpacketGetMenu (ccpacketSetPreset pkt pm pNum) = ccpacketGetMenu pkt :=
  Field.get_setPreset (x := .menu) nofun pkt pm pNum

/-! ## No reader sets the menu -/

/-- A change of a packet that leaves the menu command as it was. -/
def KeepsMenu (f : Ccpacket → Ccpacket) : Prop := ∀ pkt, ccpacketGetMenu (f pkt) = ccpacketGetMenu pkt

namespace KeepsMenu

variable {f g : Ccpacket → Ccpacket}

theorem id : KeepsMenu fun pkt => pkt := fun _ => rfl

theorem comp (hg : KeepsMenu g) (hf : KeepsMenu f) : KeepsMenu fun pkt => g (f pkt) :=
  fun pkt => (hg (f pkt)).trans (hf pkt)

theorem ite {c : Prop} [Decidable c] (hf : KeepsMenu f) (hg : KeepsMenu g) :
    KeepsMenu fun pkt => if c then f pkt else g pkt := by
  intro pkt
  by_cases hc : c
  · simp only [if_pos hc]
    exact hf pkt
  · simp only [if_neg hc]
    exact hg pkt

theorem setPan (pm : CcFlags) (speed : Int) : KeepsMenu fun pkt => ccpacketSetPan pkt pm speed :=
  fun pkt => ccpacketGetMenu_setFlags pkt (within_member _ _ _) (by decide)

theorem setTilt (tm : CcFlags) (speed : Int) : KeepsMenu fun pkt => ccpacketSetTilt pkt tm speed :=
  fun pkt => ccpacketGetMenu_setFlags pkt (within_member _ _ _) (by decide)

/-- The other fields. -/
theorem update (x : Field) (hx : x ≠ .menu) (m : CcFlags) : KeepsMenu fun pkt => x.update pkt m :=
  fun pkt => (Field.get_update .menu x pkt m).trans (if_neg hx.symm)

theorem setPreset (pm : CcFlags) (pNum : Int) : KeepsMenu fun pkt => ccpacketSetPreset pkt pm pNum :=
  fun pkt => ccpacketGetMenu_setPreset pkt pm pNum

end KeepsMenu

theorem keepsMenu_pelcoDecodeExtended (mess : List Byte) :
    KeepsMenu fun pkt => Pelco.pelcoDecodeExtended pkt mess := by
  have hex : ∀ ex p0, KeepsMenu fun pkt => Pelco.decodeExtended pkt ex p0 := by
    intro ex p0
    refine .ite (.setPreset _ _) (.ite (.setPreset _ _) (.ite (.setPreset _ _) (.ite ?_ (.ite ?_ .id))))
    · exact .ite (.update .wiper nofun _) .id
    · exact .ite (.update .wiper nofun _) .id
  exact .comp (hex _ _) fun _ => rfl

theorem keepsMenu_pelcoDecodeLens (bits : Pelco.LensBits) (mess : List Byte) :
    KeepsMenu fun pkt => Pelco.decodeLens bits pkt mess := by
  have hiris : KeepsMenu fun pkt => if bitIsSet mess bits.irisOpen then ccpacketSetIris pkt ccIrisOpen
      else if bitIsSet mess bits.irisClose then ccpacketSetIris pkt ccIrisClose else pkt :=
    .ite (.update .iris nofun _) (.ite (.update .iris nofun _) .id)
  have hfocus : KeepsMenu fun pkt =>
      if bitIsSet mess bits.focusNear then ccpacketSetFocus pkt ccFocusNear
      else if bitIsSet mess bits.focusFar then ccpacketSetFocus pkt ccFocusFar else pkt :=
    .ite (.update .focus nofun _) (.ite (.update .focus nofun _) .id)
  exact .comp (.ite (.update .zoom nofun _) (.ite (.update .zoom nofun _) .id)) (.comp hfocus hiris)

theorem keepsMenu_pelcoDecodePanTilt (pan tilt : Int) (mess : List Byte) :
    KeepsMenu fun pkt => Pelco.decodeTilt tilt (Pelco.decodePan pan pkt mess) mess :=
  .comp (.ite (.setTilt _ _) (.ite (.setTilt _ _) (.setTilt _ _)))
    (.ite (.setPan _ _) (.ite (.setPan _ _) (.setPan _ _)))

theorem keepsMenu_pelcoD (flags : BitVec 32) (mess : List Byte) :
    KeepsMenu (PelcoD.decode flags mess) := by
  have hsense : KeepsMenu fun pkt => PelcoD.decodeSense pkt mess := by
    refine .ite ?_ ?_
    · exact .comp (.ite (.setPan _ _) .id) (.ite (.update .camera nofun _) .id)
    · exact .comp (.ite (.setPan _ _) .id) (.ite (.update .camera nofun _) .id)
  refine .ite (keepsMenu_pelcoDecodeExtended mess) ?_
  exact .comp hsense (.comp (keepsMenu_pelcoDecodeLens _ _)
    (.comp (keepsMenu_pelcoDecodePanTilt _ _ _) fun _ => rfl))

theorem keepsMenu_pelcoP (flags : BitVec 32) (mess : List Byte) :
    KeepsMenu (PelcoP.decode flags mess) := by
  have hsense : KeepsMenu fun pkt => PelcoP.decodeSense pkt mess :=
    .comp (.ite (.setPan _ _) .id) (.ite (.ite (.update .camera nofun _) (.update .camera nofun _)) .id)
  refine .ite (keepsMenu_pelcoDecodeExtended mess) ?_
  exact .comp hsense (.comp (keepsMenu_pelcoDecodeLens _ _)
    (.comp (keepsMenu_pelcoDecodePanTilt _ _ _) fun _ => rfl))

theorem keepsMenu_vicon (flags : BitVec 32) (mess : List Byte) :
    KeepsMenu (Vicon.decode flags mess) := by
  have hpan : KeepsMenu fun pkt => Vicon.decodePan pkt mess :=
    .ite (.setPan _ _) (.ite (.setPan _ _) (.setPan _ _))
  have htilt : KeepsMenu fun pkt => Vicon.decodeTilt pkt mess :=
    .ite (.setTilt _ _) (.ite (.setTilt _ _) (.setTilt _ _))
  have hlens : KeepsMenu fun pkt => Vicon.decodeLens pkt mess :=
    .comp (.ite (.update .zoom nofun _) (.ite (.update .zoom nofun _) .id))
      (.comp (.ite (.update .focus nofun _) (.ite (.update .focus nofun _) .id))
        (.ite (.update .iris nofun _) (.ite (.update .iris nofun _) .id)))
  have htoggles : KeepsMenu fun pkt => Vicon.decodeToggles pkt mess :=
    .comp (.ite (.update .lens nofun _) .id) (.comp (.ite (.setPan _ _) .id)
      (.comp (.ite (.update .iris nofun _) .id) (.ite (.update .ack nofun _) .id)))
  have haux : KeepsMenu fun pkt => Vicon.decodeAux pkt mess := .ite (.update .wiper nofun _) .id
  have hpreset : KeepsMenu fun pkt => Vicon.decodePreset pkt mess :=
    .ite (.setPreset _ _) (.ite (.setPreset _ _) .id)
  have hcmd : KeepsMenu fun pkt => Vicon.decodeCommand pkt mess :=
    .comp hpreset (.comp haux (.comp htoggles (.comp hlens (.comp htilt (.comp hpan fun _ => rfl)))))
  have hspeeds : ∀ pan tilt : Int, KeepsMenu fun pkt =>
      ccpacketSetTiltSpeed (ccpacketSetPanSpeed pkt pan) tilt := fun _ _ _ => rfl
  have hexpreset : KeepsMenu fun pkt => Vicon.decodeExPreset pkt mess :=
    .comp (hspeeds _ _) (.ite (.setPreset _ _) (.setPreset _ _))
  refine .ite (.comp (.ite (.ite .id hexpreset) (hspeeds _ _)) hcmd) hcmd

/-! ## A message that stores a menu preset -/

/-- The readers that can store presets 77 to 79. -/
inductive MenuReader where
  | pelcoD
  | pelcoP
  | vicon
  deriving DecidableEq

namespace MenuReader

def decode : MenuReader → BitVec 32 → List Byte → Ccpacket → Ccpacket
  | pelcoD => PelcoD.decode
  | pelcoP => PelcoP.decode
  | vicon => Vicon.decode

def doRead : MenuReader → (σ : Type) → Sink σ → DoRead σ
  | pelcoD => PelcoD.doRead
  | pelcoP => PelcoP.doRead
  | vicon => Vicon.doRead

/-- One whole message that decodes to a store of preset `pNum`. -/
def Stores : MenuReader → List Byte → Int → Prop
  | pelcoD, mess, pNum =>
    mess.length = PelcoD.pelcoDSz ∧ PelcoD.valid mess = true ∧ bitIsSet mess Pelco.bitExtended = true ∧
      Pelco.extendedFunction mess = Pelco.exStore ∧ ((mess.getD 5 0).toNat : Int) = pNum
  | pelcoP, mess, pNum =>
    mess.length = PelcoP.sizeMsg ∧ PelcoP.valid mess = true ∧ bitIsSet mess Pelco.bitExtended = true ∧
      Pelco.extendedFunction mess = Pelco.exStore ∧ ((mess.getD 5 0).toNat : Int) = pNum
  | vicon, mess, pNum =>
    mess.length = Vicon.sizeExtended ∧ mess.getD 0 0 &&& Vicon.flag ≠ 0 ∧
      Vicon.isExtendedCommand mess = true ∧ bitIsSet mess Vicon.bitExRequest = true ∧
      bitIsSet mess Vicon.bitExStatus = false ∧ bitIsSet mess Vicon.bitExStore = true ∧
      ((mess.getD 7 0 &&& 0x7f).toNat : Int) = pNum

instance (p : MenuReader) (mess : List Byte) (pNum : Int) : Decidable (p.Stores mess pNum) := by
  cases p <;> exact inferInstanceAs (Decidable (_ ∧ _))

end MenuReader

/-- The menu command documented for a preset. -/
def menuCommand (pNum : Int) : CcFlags :=
  if pNum = menuOpenPreset then ccMenuOpen
  else if pNum = menuEnterPreset then ccMenuEnter
  else if pNum = menuCancelPreset then ccMenuCancel
  else 0

/-- The packets a reader hands to its writers in one read of what its buffer holds. -/
def handed (p : MenuReader) (now : Timeval) (rdr : Ccreader) (rxbuf : Buffer) :
    Option (List Ccpacket) :=
  (p.doRead (List Ccpacket) (recorder now) ⟨rdr, rxbuf, []⟩).map ReadState.world

/-- The function of a Vicon message for a menu preset: a store of preset 94, the auto-pan toggle,
the auto-iris toggle. -/
def ViconMenuFunction (pNum : Int) (mess : List Byte) : Prop :=
  if pNum = menuOpenPreset then
    bitIsSet mess Vicon.bitExRequest = true ∧ bitIsSet mess Vicon.bitExStore = true ∧
      mess.getD 7 0 &&& 0x7f = 94
  else if pNum = menuEnterPreset then bitIsSet mess Vicon.bitAutoPan = true
  else bitIsSet mess Vicon.bitAutoIris = true

/-- The function of a Pelco message for a menu preset: a store of preset 95, iris open, iris close.
-/
def PelcoMenuFunction (bits : Pelco.LensBits) (pNum : Int) (mess : List Byte) : Prop :=
  if pNum = menuOpenPreset then
    bitIsSet mess Pelco.bitExtended = true ∧ Pelco.extendedFunction mess = Pelco.exStore ∧
      mess.getD 5 0 = 95
  else if pNum = menuEnterPreset then
    bitIsSet mess Pelco.bitExtended = false ∧ bitIsSet mess bits.irisOpen = true
  else bitIsSet mess Pelco.bitExtended = false ∧ bitIsSet mess bits.irisClose = true

/-- With room for three messages in the buffer, a writer appends one with the function. -/
def Encodes (doWrite : Buffer → Ccpacket → Buffer × Ccpacket × Nat) (function : List Byte → Prop)
    (pkt : Ccpacket) : Prop :=
  ∀ txbuf : Buffer, 24 ≤ bufferSpace txbuf → ∃ before mess after,
    (doWrite txbuf pkt).1.data = txbuf.data ++ (before ++ mess ++ after) ∧ function mess

/-- **What the documentation promises** of storing a menu preset: the packets handed to the writers
carry the menu command, and each protocol encodes its function for it. -/
def MenuDelivered (p : MenuReader) (now : Timeval) (rdr : Ccreader) (rxbuf : Buffer) (pNum : Int) :
    Prop :=
  ∃ pkts, handed p now rdr rxbuf = some pkts ∧ ∀ pkt ∈ pkts,
    ccpacketGetMenu pkt = menuCommand pNum ∧
    Encodes Vicon.doWrite (ViconMenuFunction pNum) pkt ∧
    Encodes PelcoD.doWrite (PelcoMenuFunction PelcoD.lensBits pNum) pkt ∧
    Encodes PelcoP.doWrite (PelcoMenuFunction PelcoP.lensBits pNum) pkt

/-- The recorded packets have the flags of the packet, which keeps them, and there is one for a node
in range. -/
theorem doWritersLoop_recorder {now : Timeval} {receiver : Int} :
    ∀ (nodes : List Ccnode) (pkt : Ccpacket) (s : List Ccpacket),
      (doWritersLoop (recorder now) receiver nodes pkt s).1.flags = pkt.flags ∧
      ∃ pkts, (doWritersLoop (recorder now) receiver nodes pkt s).2 = s ++ pkts ∧
        (∀ x ∈ pkts, x.flags = pkt.flags) ∧
        ((∃ node ∈ nodes, ccnodeGetReceiver node receiver ≠ 0) → pkts ≠ [])
  | [], _, s => ⟨rfl, [], (List.append_nil s).symm, by simp, by simp⟩
  | node :: nodes, pkt, s => by
    unfold doWritersLoop
    by_cases hr : ccnodeGetReceiver node receiver ≠ 0
    · obtain ⟨hkeep, pkts, hrun, hflags, -⟩ := @doWritersLoop_recorder now receiver nodes
        (ccpacketSetReceiver pkt (ccnodeGetReceiver node receiver))
        (s ++ [ccpacketSetReceiver pkt (ccnodeGetReceiver node receiver)])
      simp only [if_pos hr]
      refine ⟨hkeep, ccpacketSetReceiver pkt (ccnodeGetReceiver node receiver) :: pkts, ?_, ?_,
        fun _ => List.cons_ne_nil _ _⟩
      · refine hrun.trans ?_
        rw [List.append_assoc]
        rfl
      · intro x hx
        rcases List.mem_cons.mp hx with rfl | hx
        · rfl
        · exact hflags x hx
    · obtain ⟨hkeep, pkts, hrun, hflags, hne⟩ := @doWritersLoop_recorder now receiver nodes pkt s
      simp only [if_neg hr]
      refine ⟨hkeep, pkts, hrun, hflags, ?_⟩
      rintro ⟨n, hn, hne'⟩
      rcases List.mem_cons.mp hn with rfl | hn
      · exact absurd hne' hr
      · exact hne ⟨n, hn, hne'⟩

namespace MenuReader

theorem keepsMenu (p : MenuReader) (flags : BitVec 32) (mess : List Byte) :
    KeepsMenu (p.decode flags mess) := by
  cases p with
  | pelcoD => exact keepsMenu_pelcoD flags mess
  | pelcoP => exact keepsMenu_pelcoP flags mess
  | vicon => exact keepsMenu_vicon flags mess

/-- One read of a message that stores a preset decodes and processes this message. -/
theorem doRead_stores {p : MenuReader} {σ : Type} {sink : Sink σ} {rdr : Ccreader} {rxbuf : Buffer}
    {s : σ} {pNum : Int} (h : p.Stores rxbuf.data pNum) :
    ∃ st, p.doRead σ sink ⟨rdr, rxbuf, s⟩ = some st ∧
      (st.rdr, st.world) = decodeAndProcess p.decode sink (rdr, s) rxbuf.data := by
  cases p with
  | pelcoD =>
    obtain ⟨hlen, hvalid, -⟩ := h
    obtain ⟨st, out, hdo, hf, hwait, -, -, heff⟩ := PelcoD.doRead_reads sink ⟨rdr, rxbuf, s⟩
    obtain rfl : [rxbuf.data] = out := (frames_fixed hlen hvalid).symm.trans (hf.frames_eq hwait)
    exact ⟨st, hdo, heff⟩
  | pelcoP =>
    obtain ⟨hlen, hvalid, -⟩ := h
    obtain ⟨st, out, hdo, hf, hwait, -, -, heff⟩ := PelcoP.doRead_reads sink ⟨rdr, rxbuf, s⟩
    obtain rfl : [rxbuf.data] = out := (frames_fixed hlen hvalid).symm.trans (hf.frames_eq hwait)
    exact ⟨st, hdo, heff⟩
  | vicon =>
    obtain ⟨hlen, hflag, hext, -⟩ := h
    obtain ⟨st, out, hdo, hf, hwait, -, -, heff⟩ := Vicon.doRead_reads sink ⟨rdr, rxbuf, s⟩
    have hframe : Vicon.frames.judge rxbuf.data = .frame rxbuf.data.length := by
      have hsize : Vicon.messageSize rxbuf.data = Vicon.sizeExtended := if_pos hext
      show Vicon.judge rxbuf.data = _
      unfold Vicon.judge
      rw [hsize, hlen]
      exact (if_neg (by decide)).trans ((if_neg hflag).trans (if_neg (by decide)))
    have hsingle := frames_single hframe (Vicon.judge_short (by decide))
    obtain rfl : [rxbuf.data] = out := hsingle.symm.trans (hf.frames_eq hwait)
    have hcmd : Vicon.isCommand rxbuf.data = true := (Bool.and_eq_true_iff.mp hext).1
    exact ⟨st, hdo, heff.trans (if_pos hcmd)⟩

end MenuReader

theorem menuCommand_ne_zero {pNum : Int} (h : 77 ≤ pNum ∧ pNum ≤ 79) : menuCommand pNum ≠ 0 := by
  obtain rfl | rfl | rfl : pNum = 77 ∨ pNum = 78 ∨ pNum = 79 := by omega
  all_goals decide

/-- **No menu command is ever delivered**: whatever message stores preset 77, 78 or 79, for whatever
receiver there is a writer for, the packets handed to the writers carry no menu command. -/
theorem menu_never_delivered (p : MenuReader) (now : Timeval) (rdr : Ccreader) (rxbuf : Buffer)
    (pNum : Int) (hidle : rdr.Idle) (hstore : p.Stores rxbuf.data pNum)
    (hmenu : 77 ≤ pNum ∧ pNum ≤ 79)
    (hnode : ∃ node ∈ rdr.head,
      ccnodeGetReceiver node (p.decode rdr.flags rxbuf.data rdr.packet).receiver ≠ 0) :
    ¬MenuDelivered p now rdr rxbuf pNum := by
  rintro ⟨pkts, hpkts, hall⟩
  obtain ⟨st, hdo, heff⟩ := @MenuReader.doRead_stores p _ (recorder now) rdr rxbuf [] _ hstore
  unfold handed at hpkts
  rw [hdo] at hpkts
  cases hpkts
  have hworld := congrArg Prod.snd heff
  obtain ⟨-, pkts, hrun, hflags, hne⟩ := @doWritersLoop_recorder now
    (p.decode rdr.flags rxbuf.data rdr.packet).receiver rdr.head
    (ccpacketSetTimeout now (p.decode rdr.flags rxbuf.data rdr.packet) rdr.timeout) []
  have hsame : st.world = pkts := hworld.trans hrun
  obtain ⟨pkt, hpkt⟩ := List.exists_mem_of_ne_nil _ (hne hnode)
  have hnone : ccpacketGetMenu pkt = 0 := by
    unfold ccpacketGetMenu
    rw [hflags pkt hpkt]
    show ccpacketGetMenu (p.decode rdr.flags rxbuf.data rdr.packet) = 0
    rw [p.keepsMenu, ccpacketGetMenu, hidle.1]
    decide
  refine menuCommand_ne_zero hmenu ?_
  rw [← (hall pkt (hsame ▸ hpkt)).1, hnone]

/-- A Pelco D message that stores preset 77 for receiver 1. -/
def storeMenuOpen : Buffer :=
  ⟨bufferSize, 0, [0xff, 0x01, 0x00, 0x03, 0x00, 0x4d, 0x51], by decide, fun _ => rfl⟩

theorem menu_never_delivered_pelcoD :
    ¬MenuDelivered .pelcoD ⟨0, 0⟩ (ccreaderStart ⟨0, 0⟩ 15000 0 [⟨0, 1, 254, 0⟩]) storeMenuOpen 77 :=
  menu_never_delivered .pelcoD ⟨0, 0⟩ _ storeMenuOpen 77 ⟨rfl, rfl, rfl, rfl⟩ (by decide) (by decide)
    (by decide)

/-- The promise fails for a store of preset 77 in Pelco D. -/
theorem not_menuDelivered : ¬∀ (p : MenuReader) (now : Timeval) (rdr : Ccreader) (rxbuf : Buffer)
    (pNum : Int), rdr.Idle → p.Stores rxbuf.data pNum → 77 ≤ pNum ∧ pNum ≤ 79 →
    (∃ node ∈ rdr.head,
      ccnodeGetReceiver node (p.decode rdr.flags rxbuf.data rdr.packet).receiver ≠ 0) →
    MenuDelivered p now rdr rxbuf pNum := by
  intro h
  obtain ⟨pkts, hpkts, hall⟩ := h .pelcoD ⟨0, 0⟩
    (ccreaderStart ⟨0, 0⟩ 15000 0 [⟨0, 1, 254, 0⟩]) storeMenuOpen 77 ⟨rfl, rfl, rfl, rfl⟩ (by decide)
    (by decide) (by decide)
  have hhanded : handed .pelcoD ⟨0, 0⟩ (ccreaderStart ⟨0, 0⟩ 15000 0 [⟨0, 1, 254, 0⟩]) storeMenuOpen =
      some [⟨1, 0, 0, 0, 0, ⟨15, 0⟩⟩] := by decide
  rw [hhanded] at hpkts
  cases hpkts
  have hmenu := (hall _ (List.mem_singleton_self _)).1
  revert hmenu
  decide

end Protozoa
