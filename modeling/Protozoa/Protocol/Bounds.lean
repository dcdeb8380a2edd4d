import Protozoa.Protocol.Deliver
import Protozoa.Protocol.ViconMotion
import Protozoa.Setters

/-!
# How large the numbers of a packet are

The packets that readers deliver have speeds up to `SPEED_MAX` (`ccpacket.h:52`) and preset numbers
of one byte (`Bounded`). The setters see to the pan speed alone (`ccpacket.c:178-180`, `224-226`):
tilt speeds and presets are in range because each decoder computes them from so few bits.

* `keepsBounds_pelcoD`, `keepsBounds_pelcoP`, `keepsBounds_vicon`, `keepsBounds_manchester`,
  `keepsBounds_decodePanTiltZoom`: one lemma for each decoder.
* `bounded_keptByReaders`: every change a reader makes of its packet.
* **`Deliverable.bounded`**: so every packet that any reader delivers, whatever it reads.

The results on the requests of Axis writers rely on it.
-/

namespace Protozoa

/-- Speeds in their range, and a preset number of one byte. -/
structure Bounded (pkt : Ccpacket) : Prop where
  pan : 0 ≤ pkt.pan ∧ pkt.pan ≤ speedMax
  tilt : 0 ≤ pkt.tilt ∧ pkt.tilt ≤ speedMax
  preset : 0 ≤ pkt.preset ∧ pkt.preset ≤ 255

/-- A change of a packet that keeps its numbers in range. -/
def KeepsBounds (f : Ccpacket → Ccpacket) : Prop := ∀ pkt, Bounded pkt → Bounded (f pkt)

theorem zero_inRange : 0 ≤ (0 : Int) ∧ (0 : Int) ≤ speedMax := by decide

theorem speedMax_inRange : 0 ≤ speedMax ∧ speedMax ≤ speedMax := by decide

theorem toNat_le_255 (b : Byte) : 0 ≤ (b.toNat : Int) ∧ (b.toNat : Int) ≤ 255 := by
  have hb := b.isLt
  omega

namespace KeepsBounds

variable {f g : Ccpacket → Ccpacket}

theorem id : KeepsBounds fun pkt => pkt := fun _ h => h

theorem comp (hg : KeepsBounds g) (hf : KeepsBounds f) : KeepsBounds fun pkt => g (f pkt) :=
  fun pkt h => hg (f pkt) (hf pkt h)

theorem ite {c : Prop} [Decidable c] (hf : KeepsBounds f) (hg : KeepsBounds g) :
    KeepsBounds fun pkt => if c then f pkt else g pkt := by
  intro pkt h
  by_cases hc : c
  · simp only [if_pos hc]
    exact hf pkt h
  · simp only [if_neg hc]
    exact hg pkt h

theorem setReceiver (r : Int) : KeepsBounds fun pkt => ccpacketSetReceiver pkt r :=
  fun _ h => ⟨h.pan, h.tilt, h.preset⟩

theorem update (x : Field) (m : CcFlags) : KeepsBounds fun pkt => x.update pkt m :=
  fun _ h => ⟨h.pan, h.tilt, h.preset⟩

/-- The pan speed is clamped. -/
theorem setPanSpeed (speed : Int) : KeepsBounds fun pkt => ccpacketSetPanSpeed pkt speed :=
  fun _ h => ⟨Setters.clampSpeed_range speed, h.tilt, h.preset⟩

theorem setPan (pm : CcFlags) (speed : Int) : KeepsBounds fun pkt => ccpacketSetPan pkt pm speed :=
  .comp (.setPanSpeed speed) (.update .pan pm)

theorem setTiltSpeed {speed : Int} (hs : 0 ≤ speed ∧ speed ≤ speedMax) :
    KeepsBounds fun pkt => ccpacketSetTiltSpeed pkt speed :=
  fun _ h => ⟨h.pan, hs, h.preset⟩

theorem setTilt (tm : CcFlags) {speed : Int} (hs : 0 ≤ speed ∧ speed ≤ speedMax) :
    KeepsBounds fun pkt => ccpacketSetTilt pkt tm speed :=
  .comp (.setTiltSpeed hs) (.update .tilt tm)

theorem setPreset (pm : CcFlags) {pNum : Int} (hn : 0 ≤ pNum ∧ pNum ≤ 255) :
    KeepsBounds fun pkt => ccpacketSetPreset pkt pm pNum := by
  intro pkt h
  obtain ⟨flags, preset, hset, -⟩ := ccpacketSetPreset_rest pkt pm pNum
  have hpan : (ccpacketSetPreset pkt pm pNum).pan = pkt.pan := by rw [hset]
  have htilt : (ccpacketSetPreset pkt pm pNum).tilt = pkt.tilt := by rw [hset]
  refine ⟨hpan.symm ▸ h.pan, htilt.symm ▸ h.tilt, ?_⟩
  rcases preset_setPreset pkt pm pNum with hnum | hzero
  · exact hnum.symm ▸ hn
  · rw [hzero]
    decide

theorem noPreset : KeepsBounds fun pkt => ccpacketSetPreset pkt 0 0 :=
  .setPreset 0 (show 0 ≤ (0 : Int) ∧ (0 : Int) ≤ 255 by decide)

end KeepsBounds

/-! ## Pelco D and Pelco P -/

namespace Pelco

theorem keepsBounds_decodeExtended (mess : List Byte) :
    KeepsBounds fun pkt => pelcoDecodeExtended pkt mess := by
  have hbyte := toNat_le_255 (mess.getD 5 0)
  have hex : ∀ ex, KeepsBounds fun pkt => decodeExtended pkt ex (mess.getD 5 0) := fun ex =>
    .ite (.setPreset _ hbyte) (.ite (.setPreset _ hbyte) (.ite (.setPreset _ hbyte)
      (.ite (.ite (.update .wiper _) .id) (.ite (.ite (.update .wiper _) .id) .id))))
  exact .comp (hex _) (.setReceiver _)

theorem keepsBounds_decodeLens (bits : LensBits) (mess : List Byte) :
    KeepsBounds fun pkt => decodeLens bits pkt mess := by
  have hiris : KeepsBounds fun pkt => if bitIsSet mess bits.irisOpen then ccpacketSetIris pkt ccIrisOpen
      else if bitIsSet mess bits.irisClose then ccpacketSetIris pkt ccIrisClose else pkt :=
    .ite (.update .iris _) (.ite (.update .iris _) .id)
  have hfocus : KeepsBounds fun pkt =>
      if bitIsSet mess bits.focusNear then ccpacketSetFocus pkt ccFocusNear
      else if bitIsSet mess bits.focusFar then ccpacketSetFocus pkt ccFocusFar else pkt :=
    .ite (.update .focus _) (.ite (.update .focus _) .id)
  exact .comp (.ite (.update .zoom _) (.ite (.update .zoom _) .id)) (.comp hfocus hiris)

theorem keepsBounds_decodePanTilt (pan : Int) {tilt : Int} (ht : 0 ≤ tilt ∧ tilt ≤ speedMax)
    (mess : List Byte) : KeepsBounds fun pkt => decodeTilt tilt (decodePan pan pkt mess) mess :=
  .comp (.ite (.setTilt _ ht) (.ite (.setTilt _ ht) (.setTilt _ zero_inRange)))
    (.ite (.setPan _ _) (.ite (.setPan _ _) (.setPan _ _)))

end Pelco

theorem PelcoD.decodeSpeed_range (val : Byte) :
    0 ≤ PelcoD.decodeSpeed val ∧ PelcoD.decodeSpeed val ≤ speedMax := by
  unfold PelcoD.decodeSpeed
  dsimp only
  split
  · exact speedMax_inRange
  · omega

theorem PelcoP.decodeSpeed_range (val : Byte) (flags : BitVec 32) :
    0 ≤ PelcoP.decodeSpeed val flags ∧ PelcoP.decodeSpeed val flags ≤ speedMax := by
  have h7 : 0 ≤ PelcoP.decodeSpeed7 val := by
    unfold PelcoP.decodeSpeed7 speedMax
    split
    · omega
    · decide
  have h0 : 0 ≤ PelcoP.decodeSpeed0 val := Int.natCast_nonneg _
  have hclamp : ∀ speed : Int, 0 ≤ speed →
      0 ≤ (if speed > speedMax then speedMax else speed) ∧
        (if speed > speedMax then speedMax else speed) ≤ speedMax := by
    intro speed hs
    split
    · exact speedMax_inRange
    · omega
  refine hclamp _ ?_
  split
  · exact h7
  · exact h0

theorem keepsBounds_pelcoD (flags : BitVec 32) (mess : List Byte) :
    KeepsBounds (PelcoD.decode flags mess) := by
  have hsense : KeepsBounds fun pkt => PelcoD.decodeSense pkt mess := by
    refine .ite ?_ ?_
    · exact .comp (.ite (.setPan _ _) .id) (.ite (.update .camera _) .id)
    · exact .comp (.ite (.setPan _ _) .id) (.ite (.update .camera _) .id)
  refine .ite (Pelco.keepsBounds_decodeExtended mess) ?_
  exact .comp hsense (.comp (Pelco.keepsBounds_decodeLens _ _)
    (.comp (Pelco.keepsBounds_decodePanTilt _ (PelcoD.decodeSpeed_range _) _) (.setReceiver _)))

theorem keepsBounds_pelcoP (flags : BitVec 32) (mess : List Byte) :
    KeepsBounds (PelcoP.decode flags mess) := by
  have hsense : KeepsBounds fun pkt => PelcoP.decodeSense pkt mess :=
    .comp (.ite (.setPan _ _) .id) (.ite (.ite (.update .camera _) (.update .camera _)) .id)
  refine .ite (Pelco.keepsBounds_decodeExtended mess) ?_
  exact .comp hsense (.comp (Pelco.keepsBounds_decodeLens _ _)
    (.comp (Pelco.keepsBounds_decodePanTilt _ (PelcoP.decodeSpeed_range _ _) _) (.setReceiver _)))

/-! ## Vicon -/

theorem keepsBounds_vicon (flags : BitVec 32) (mess : List Byte) :
    KeepsBounds (Vicon.decode flags mess) := by
  have hpan : KeepsBounds fun pkt => Vicon.decodePan pkt mess :=
    .ite (.setPan _ _) (.ite (.setPan _ _) (.setPan _ _))
  have htilt : KeepsBounds fun pkt => Vicon.decodeTilt pkt mess :=
    .ite (.setTilt _ speedMax_inRange) (.ite (.setTilt _ speedMax_inRange) (.setTilt _ zero_inRange))
  have hlens : KeepsBounds fun pkt => Vicon.decodeLens pkt mess :=
    .comp (.ite (.update .zoom _) (.ite (.update .zoom _) .id))
      (.comp (.ite (.update .focus _) (.ite (.update .focus _) .id))
        (.ite (.update .iris _) (.ite (.update .iris _) .id)))
  have htoggles : KeepsBounds fun pkt => Vicon.decodeToggles pkt mess :=
    .comp (.ite (.update .lens _) .id) (.comp (.ite (.setPan _ _) .id)
      (.comp (.ite (.update .iris _) .id) (.ite (.update .ack _) .id)))
  have haux : KeepsBounds fun pkt => Vicon.decodeAux pkt mess := .ite (.update .wiper _) .id
  have hnum : ∀ b : Byte, 0 ≤ (b.toNat : Int) ∧ (b.toNat : Int) ≤ 255 := toNat_le_255
  have hpreset : KeepsBounds fun pkt => Vicon.decodePreset pkt mess :=
    .ite (.setPreset _ (hnum _)) (.ite (.setPreset _ (hnum _)) .id)
  have hcmd : KeepsBounds fun pkt => Vicon.decodeCommand pkt mess :=
    .comp hpreset (.comp haux (.comp htoggles (.comp hlens (.comp htilt (.comp hpan (.setReceiver _))))))
  have hbyte : ∀ b : Byte, 0 ≤ (b.toNat : Int) ∧ (b.toNat : Int) ≤ speedMax := by
    intro b
    have hle := toNat_le_255 b
    unfold speedMax
    omega
  have hspeed : KeepsBounds fun pkt => Vicon.decodeExSpeed pkt mess :=
    .comp (.setTiltSpeed (Vicon.speedAt_range mess 8)) (.setPanSpeed _)
  have hexpreset : KeepsBounds fun pkt => Vicon.decodeExPreset pkt mess :=
    .comp (.setTiltSpeed (hbyte _)) (.comp (.setPanSpeed _)
      (.ite (.setPreset _ (hnum _)) (.setPreset _ (hnum _))))
  exact .ite (.comp (.ite (.ite .id hexpreset) hspeed) hcmd) hcmd

/-! ## Manchester -/

theorem keepsBounds_manchester (mess : List Byte) :
    KeepsBounds fun pkt => Manchester.decodePacket pkt mess := by
  have hspeed : 0 ≤ Manchester.decodeSpeed mess ∧ Manchester.decodeSpeed mess ≤ speedMax := by
    have htable : ∀ n, 0 ≤ Manchester.speedTable.getD n 0 ∧ Manchester.speedTable.getD n 0 ≤ speedMax := by
      intro n
      have hall : ∀ speed ∈ Manchester.speedTable, 0 ≤ speed ∧ speed ≤ speedMax := by decide
      rw [List.getD_eq_getElem?_getD]
      cases hn : Manchester.speedTable[n]? with
      | none => exact zero_inRange
      | some speed => exact hall speed (List.mem_of_getElem? hn)
    exact htable _
  have hpanTilt : ∀ cmnd, KeepsBounds fun pkt =>
      Manchester.decodePanTilt pkt cmnd (Manchester.decodeSpeed mess) := fun cmnd =>
    .ite (.setPan _ _) (.ite (.setPan _ _) (.ite (.setTilt _ hspeed) (.ite (.setTilt _ hspeed) .id)))
  have hlens : ∀ extra, KeepsBounds fun pkt => Manchester.decodeLens pkt extra := fun extra =>
    .ite (.update .zoom _) (.ite (.update .zoom _) (.ite (.update .focus _) (.ite (.update .focus _)
      (.ite (.update .iris _) (.ite (.update .iris _) (.ite (.setTilt _ speedMax_inRange)
        (.ite (.setPan _ _) .id)))))))
  have haux : ∀ extra, KeepsBounds fun pkt => Manchester.decodeAux pkt extra := fun extra =>
    .ite (.setTilt _ speedMax_inRange) (.ite (.setPan _ _) (.ite (.update .camera _)
      (.ite (.update .camera _) (.ite (.update .wiper _) .id))))
  have hextra : 0 ≤ ((Manchester.ptExtra mess).toNat : Int) + 1 ∧
      ((Manchester.ptExtra mess).toNat : Int) + 1 ≤ 255 := by
    have hlt : (mess.getD 1 0 >>> 1 &&& 0x07).toNat < 8 := @toNat_and_lt 3 _ (by decide)
    unfold Manchester.ptExtra
    omega
  have hextended : ∀ cmnd, KeepsBounds fun pkt =>
      Manchester.decodeExtended pkt cmnd (Manchester.ptExtra mess) := fun cmnd =>
    .ite (hlens _) (.ite (haux _) (.ite (.setPreset _ hextra) (.ite (.setPreset _ hextra) .id)))
  exact .ite (hpanTilt _) (hextended _)

/-! ## Joystick -/

theorem Joystick.remapSpeed_range (mess : List Byte) :
    0 ≤ remapSpeed (decodeSpeed mess) ∧ remapSpeed (decodeSpeed mess) ≤ speedMax := by
  have hlo := BitVec.le_toInt (mess.getD 5 0 ++ mess.getD 4 0 : BitVec 16)
  have hhi := @BitVec.toInt_lt 16 (mess.getD 5 0 ++ mess.getD 4 0 : BitVec 16)
  unfold remapSpeed remapInt decodeSpeed speedMax jspeedMax
  omega

theorem keepsBounds_decodePanTiltZoom (mess : List Byte) :
    KeepsBounds fun pkt => (Joystick.decodePanTiltZoom pkt mess).2 := by
  have hmove : KeepsBounds fun pkt => if Joystick.evNumber mess = Joystick.jaxisPan then
      ccpacketSetPan pkt (Joystick.decodePanMode (Joystick.decodeSpeed mess))
        (Joystick.remapSpeed (Joystick.decodeSpeed mess))
    else if Joystick.evNumber mess = Joystick.jaxisTilt then
      ccpacketSetTilt pkt (Joystick.decodeTiltMode (Joystick.decodeSpeed mess))
        (Joystick.remapSpeed (Joystick.decodeSpeed mess))
    else if Joystick.evNumber mess = Joystick.jaxisZoom then
      if Joystick.decodeSpeed mess < 0 then ccpacketSetZoom pkt ccZoomOut
      else if Joystick.decodeSpeed mess > 0 then ccpacketSetZoom pkt ccZoomIn
      else ccpacketSetZoom pkt 0
    else pkt :=
    .ite (.setPan _ _) (.ite (.setTilt _ (Joystick.remapSpeed_range mess))
      (.ite (.ite (.update .zoom _) (.ite (.update .zoom _) (.update .zoom _))) .id))
  exact fun pkt h => KeepsBounds.noPreset _ (hmove pkt h)

theorem Bounded.ite {c : Prop} [Decidable c] {x y : Bool × Ccreader} (hx : Bounded x.2.packet)
    (hy : Bounded y.2.packet) : Bounded (if c then x else y).2.packet := by
  split
  · exact hx
  · exact hy

theorem bounded_decodeButton (rdr : Ccreader) (mess : List Byte) (h : Bounded rdr.packet) :
    Bounded (Joystick.decodeButton rdr mess).2.packet := by
  have hpreset : ∀ pressed moved n, (0 : Int) ≤ n ∧ n ≤ 255 →
      Bounded (Joystick.decodePresetButton rdr pressed moved n).2.packet := fun pressed moved n hn =>
    .ite (KeepsBounds.setPreset _ hn _ h)
      (.ite (KeepsBounds.setPreset _ hn _ h) (KeepsBounds.noPreset _ h))
  have hprevious : Bounded (ccreaderPreviousCamera rdr).packet := by
    unfold ccreaderPreviousCamera
    dsimp only
    split
    · exact KeepsBounds.setReceiver _ _ h
    · exact h
  have hnext : Bounded (ccreaderNextCamera rdr).packet := by
    unfold ccreaderNextCamera
    dsimp only
    split
    · exact KeepsBounds.setReceiver _ _ h
    · exact h
  unfold Joystick.decodeButton
  -- In the order of the `case`s: lens, wiper and camera, presets, and the change of camera.
  refine .ite (KeepsBounds.update .focus _ _ h) (.ite (KeepsBounds.update .focus _ _ h)
    (.ite (KeepsBounds.update .iris _ _ h) (.ite (KeepsBounds.update .iris _ _ h)
      (.ite (KeepsBounds.update .wiper _ _ h) (.ite (KeepsBounds.update .camera _ _ h)
        (.ite (hpreset _ _ 1 (by decide)) (.ite (hpreset _ _ 2 (by decide))
          (.ite (hpreset _ _ 3 (by decide)) (.ite (hpreset _ _ 4 (by decide))
            (KeepsBounds.noPreset _ ?_))))))))))
  split
  · split
    · exact hprevious
    · exact h
  split
  · split
    · exact hnext
    · exact h
  · exact h

/-! ## Every reader -/

theorem bounded_keptByReaders : KeptByReaders Bounded where
  blank _ _ := ⟨zero_inRange, zero_inRange, show 0 ≤ (0 : Int) ∧ (0 : Int) ≤ 255 by decide⟩
  setReceiver pkt r h := KeepsBounds.setReceiver r pkt h
  setTimeout _ _ _ h := ⟨h.pan, h.tilt, h.preset⟩
  noPreset pkt h := KeepsBounds.noPreset pkt h
  joystick rdr mess h :=
    .ite (keepsBounds_decodePanTiltZoom mess rdr.packet h) (.ite (bounded_decodeButton rdr mess h) h)
  manchester pkt mess h := keepsBounds_manchester mess pkt h
  pelcoD flags mess pkt h := keepsBounds_pelcoD flags mess pkt h
  pelcoP flags mess pkt h := keepsBounds_pelcoP flags mess pkt h
  vicon flags mess pkt h := keepsBounds_vicon flags mess pkt h

/-- **The numbers of a packet that is delivered** are in range, in any run of any reader. -/
theorem Deliverable.bounded {pkt : Ccpacket} (h : Deliverable pkt) : Bounded pkt :=
  h.of_kept bounded_keptByReaders

end Protozoa
