import Protozoa.Ccpacket

/-!
# The fields of a packet

The flags of a packet as a record: eleven fields (`ccpacket.h:12-50`), each with its mask and its
members, none of which sees the others (`Field.get_set`). The getters and setters of `ccpacket.c`
are those of a field, with pan, tilt and preset beside them for their numbers.

* `SameFields` is equality of packets as far as the functions of `ccpacket.c` can tell, up to the
  expiration time; of packets these functions have made (`WellFormed`) it is equality
  (`SameFields.eq`).
* `KeepsProper`: every change a decoder makes leaves the flags proper (`Proper`): in each field a
  member or none, and no bits beside the fields.

The round trips of the protocols are stated with `SameFields` and proved field by field.
-/

namespace Protozoa

open Lib.BitField

inductive Field where
  | pan
  | tilt
  | preset
  | menu
  | camera
  | ack
  | zoom
  | focus
  | iris
  | lens
  | wiper
  deriving DecidableEq

namespace Field

def all : List Field := [pan, tilt, preset, menu, camera, ack, zoom, focus, iris, lens, wiper]

def mask : Field → CcFlags
  | pan => ccPan
  | tilt => ccTilt
  | preset => ccPreset
  | menu => ccMenu
  | camera => ccCamera
  | ack => ccAck
  | zoom => ccZoom
  | focus => ccFocus
  | iris => ccIris
  | lens => ccLens
  | wiper => ccWiper

/-- The values that the functions of `ccpacket.c` take for one. -/
def members : Field → List CcFlags
  | pan => [ccPanLeft, ccPanRight, ccPanAuto]
  | tilt => [ccTiltUp, ccTiltDown]
  | preset => [ccPresetRecall, ccPresetStore, ccPresetClear]
  | menu => [ccMenuOpen, ccMenuEnter, ccMenuCancel]
  | camera => [ccCameraOn, ccCameraOff]
  | ack => [ccAckAlarm]
  | zoom => [ccZoomIn, ccZoomOut]
  | focus => [ccFocusNear, ccFocusFar, ccFocusAuto]
  | iris => [ccIrisClose, ccIrisOpen, ccIrisAuto]
  | lens => [ccLensSpeed]
  | wiper => [ccWiperOn, ccWiperOff]

/-- The value of the field, or 0. -/
def get (x : Field) : CcFlags → CcFlags := member x.mask x.members

/-- The flags with another value in the field. -/
def set (x : Field) (m f : CcFlags) : CcFlags := put x.mask (x.get m) f

theorem disjoint {x y : Field} (h : x ≠ y) : x.mask &&& y.mask = 0#32 := by
  cases x <;> cases y <;> first | contradiction | decide

/-- **Reading a field** that has been written, or another one. -/
@[simp] theorem get_set (x y : Field) (m f : CcFlags) :
    x.get (y.set m f) = if x = y then y.get m else x.get f := by
  by_cases h : x = y
  · rw [if_pos h, h]
    exact member_put_self _ _ _ _
  · rw [if_neg h]
    exact member_put_other (within_member _ _ _) (disjoint h)

@[simp] theorem get_zero (x : Field) : x.get 0 = 0 := member_of_and_eq_zero BitVec.zero_and

theorem get_of_mem {x : Field} {m : CcFlags} (h : m ∈ x.members) : x.get m = m := by
  have hall : x.members.map x.get = x.members.map id := by
    cases x <;> decide
  exact List.map_inj_left.mp hall m h

theorem get_mem (x : Field) (f : CcFlags) : x.get f = 0 ∨ x.get f ∈ x.members := by
  unfold get member
  split
  · exact Or.inr (by assumption)
  · exact Or.inl rfl

@[simp] theorem get_get (x : Field) (f : CcFlags) : x.get (x.get f) = x.get f := by
  rcases x.get_mem f with h | h
  · rw [h]
    exact x.get_zero
  · exact get_of_mem h

end Field

/-! ## The functions of `ccpacket.c` by field -/

section

variable (pkt : Ccpacket) (m : CcFlags) (n : Int)

theorem ccpacketGetMenu_eq : ccpacketGetMenu pkt = Field.menu.get pkt.flags := rfl
theorem ccpacketGetCamera_eq : ccpacketGetCamera pkt = Field.camera.get pkt.flags := rfl
theorem ccpacketGetPanMode_eq : ccpacketGetPanMode pkt = Field.pan.get pkt.flags := rfl
theorem ccpacketGetTiltMode_eq : ccpacketGetTiltMode pkt = Field.tilt.get pkt.flags := rfl
theorem ccpacketGetZoom_eq : ccpacketGetZoom pkt = Field.zoom.get pkt.flags := rfl
theorem ccpacketGetFocus_eq : ccpacketGetFocus pkt = Field.focus.get pkt.flags := rfl
theorem ccpacketGetIris_eq : ccpacketGetIris pkt = Field.iris.get pkt.flags := rfl
theorem ccpacketGetWiper_eq : ccpacketGetWiper pkt = Field.wiper.get pkt.flags := rfl

theorem ccpacketGetPresetMode_eq :
    ccpacketGetPresetMode pkt = if pkt.preset ≤ 0 then 0 else Field.preset.get pkt.flags := rfl

/-- Another value in one field. -/
def Field.update (x : Field) (pkt : Ccpacket) (m : CcFlags) : Ccpacket :=
  { pkt with flags := x.set m pkt.flags }

theorem Field.get_update (x y : Field) (pkt : Ccpacket) (m : CcFlags) :
    x.get (y.update pkt m).flags = if x = y then y.get m else x.get pkt.flags :=
  Field.get_set x y m pkt.flags

theorem ccpacketSetCamera_eq : ccpacketSetCamera pkt m = Field.camera.update pkt m := rfl
theorem ccpacketSetZoom_eq : ccpacketSetZoom pkt m = Field.zoom.update pkt m := rfl
theorem ccpacketSetFocus_eq : ccpacketSetFocus pkt m = Field.focus.update pkt m := rfl
theorem ccpacketSetIris_eq : ccpacketSetIris pkt m = Field.iris.update pkt m := rfl
theorem ccpacketSetLens_eq : ccpacketSetLens pkt m = Field.lens.update pkt m := rfl
theorem ccpacketSetWiper_eq : ccpacketSetWiper pkt m = Field.wiper.update pkt m := rfl
theorem ccpacketSetAck_eq : ccpacketSetAck pkt m = Field.ack.update pkt m := rfl

theorem clampSpeed_of_range {speed : Int} (h : 0 ≤ speed ∧ speed ≤ speedMax) :
    clampSpeed speed = speed := by
  unfold clampSpeed
  rw [if_neg (by omega), if_neg (by omega)]

theorem ccpacketSetPan_eq :
    ccpacketSetPan pkt m n = { Field.pan.update pkt m with pan := clampSpeed n } := rfl

theorem ccpacketSetTilt_eq :
    ccpacketSetTilt pkt m n = { Field.tilt.update pkt m with tilt := n } := rfl

/-- **Setting a preset** changes nothing but the preset and its mode. -/
theorem ccpacketSetPreset_rest (pkt : Ccpacket) (pm : CcFlags) (n : Int) :
    ∃ flags preset, ccpacketSetPreset pkt pm n = { pkt with flags := flags, preset := preset } ∧
      ∀ x, x ≠ Field.preset → x.get flags = x.get pkt.flags := by
  have hother : ∀ a, Within ccPreset a → ∀ x, x ≠ Field.preset →
      x.get (pkt.flags &&& ~~~ccPreset ||| a) = x.get pkt.flags := by
    intro a ha x hx
    rw [BitVec.or_comm]
    exact member_put_other ha (Field.disjoint hx)
  have hmode : Within ccPreset (ccpacketPreset pm n) := by
    unfold ccpacketPreset
    split
    · exact within_zero _
    · exact within_member _ _ _
  have hclear := hother 0#32 (within_zero _)
  rw [BitVec.or_zero] at hclear
  simp only [ccpacketSetPreset, ccpacketMenuPreset]
  split
  · by_cases h77 : n = menuOpenPreset
    · simp only [if_pos h77]
      exact ⟨_, _, rfl, hclear⟩
    by_cases h78 : n = menuEnterPreset
    · simp only [if_neg h77, if_pos h78]
      exact ⟨_, _, rfl, hclear⟩
    by_cases h79 : n = menuCancelPreset
    · simp only [if_neg h77, if_neg h78, if_pos h79]
      exact ⟨_, _, rfl, hclear⟩
    · simp only [if_neg h77, if_neg h78, if_neg h79]
      exact ⟨_, _, rfl, hother _ hmode⟩
  · exact ⟨_, _, rfl, hother _ hmode⟩

theorem preset_setPreset (pkt : Ccpacket) (pm : CcFlags) (n : Int) :
    (ccpacketSetPreset pkt pm n).preset = n ∨ (ccpacketSetPreset pkt pm n).preset = 0 := by
  simp only [ccpacketSetPreset]
  split
  · split
    · exact Or.inr rfl
    · exact Or.inl rfl
  · exact Or.inl rfl

theorem receiver_setPreset (pkt : Ccpacket) (pm : CcFlags) (n : Int) :
    (ccpacketSetPreset pkt pm n).receiver = pkt.receiver := by
  obtain ⟨flags, preset, hset, -⟩ := ccpacketSetPreset_rest pkt pm n
  rw [hset]

theorem Field.get_setPreset {x : Field} (hx : x ≠ .preset) (pkt : Ccpacket) (pm : CcFlags) (n : Int) :
    x.get (ccpacketSetPreset pkt pm n).flags = x.get pkt.flags := by
  obtain ⟨flags, preset, hset, hget⟩ := ccpacketSetPreset_rest pkt pm n
  rw [hset]
  exact hget x hx

/-- Setting a preset that is not stored for a menu. -/
theorem ccpacketSetPreset_eq (h : ¬(m = ccPresetStore ∧ 77 ≤ n ∧ n ≤ 79)) (hn : 0 < n)
    (hm : m ∈ Field.preset.members) :
    ccpacketSetPreset pkt m n = { Field.preset.update pkt m with preset := n } := by
  have hget : ccpacketPreset m n = Field.preset.get m := if_neg (by omega)
  have hput : ∀ a, pkt.flags &&& ~~~ccPreset ||| a = put ccPreset a pkt.flags :=
    fun a => BitVec.or_comm _ _
  have hmem := Field.get_of_mem hm
  simp only [ccpacketSetPreset, hget, hmem]
  split
  · rename_i hstore
    have hplain : ccpacketMenuPreset pkt n = (false, pkt) := by
      simp only [hstore, true_and, not_and, not_le] at h
      unfold ccpacketMenuPreset menuOpenPreset menuEnterPreset menuCancelPreset
      rw [if_neg (by omega), if_neg (by omega), if_neg (by omega)]
    rw [hplain]
    simp only [hput, Field.update, Field.set, hmem]
    rfl
  · simp only [hput, Field.update, Field.set, hmem]
    rfl

/-- **What becomes of a preset**: no mode without a number, and none of a preset that is stored for
a menu. -/
theorem ccpacketGetPresetMode_setPreset (hm : m ∈ Field.preset.members) :
    ccpacketGetPresetMode (ccpacketSetPreset pkt m n) =
      if 0 < n ∧ ¬(m = ccPresetStore ∧ 77 ≤ n ∧ n ≤ 79) then m else 0 := by
  by_cases hn : 0 < n
  · by_cases hmenu : m = ccPresetStore ∧ 77 ≤ n ∧ n ≤ 79
    · rw [if_neg fun h => h.2 hmenu]
      obtain ⟨rfl, hmenu⟩ := hmenu
      obtain rfl | rfl | rfl : n = 77 ∨ n = 78 ∨ n = 79 := by omega
      all_goals rfl
    · rw [if_pos ⟨hn, hmenu⟩, ccpacketSetPreset_eq pkt m n hmenu hn hm, ccpacketGetPresetMode_eq]
      refine (if_neg (not_le.mpr hn)).trans ((Field.get_update .preset .preset pkt m).trans ?_)
      rw [if_pos rfl, Field.get_of_mem hm]
  · rw [if_neg fun h => hn h.1]
    have hnone : ccpacketPreset m n = 0 := if_pos (not_lt.mp hn)
    have hpreset : (ccpacketSetPreset pkt m n).preset = n := by
      simp only [ccpacketSetPreset, hnone]
      rfl
    exact if_pos (hpreset.trans_le (not_lt.mp hn))

end

/-! ## Packets with the same fields -/

/-- The bits that are in no field. -/
def Field.rest : CcFlags := 0xfc000000

/-- Nothing but members of the fields. -/
structure Proper (f : CcFlags) : Prop where
  get : ∀ x : Field, x.get f = f &&& x.mask
  rest : f &&& Field.rest = 0

theorem proper_zero : Proper 0 where
  get x := (x.get_zero).trans BitVec.zero_and.symm
  rest := BitVec.zero_and

theorem Proper.set {f : CcFlags} (h : Proper f) (y : Field) (m : CcFlags) : Proper (y.set m f) where
  get x := by
    by_cases hxy : x = y
    · subst hxy
      rw [Field.get_set, if_pos rfl]
      exact (put_and_mask (within_member _ _ _)).symm
    · rw [Field.get_set, if_neg hxy, h.get x]
      exact (put_and_other (within_member _ _ _) (Field.disjoint hxy)).symm
  rest := by
    have hrest : Field.rest &&& y.mask = 0#32 := by cases y <;> rfl
    exact (put_and_other (within_member _ _ _) hrest).trans h.rest

/-- Proper flags are known by their fields. -/
theorem Proper.eq {f g : CcFlags} (hf : Proper f) (hg : Proper g) (h : ∀ x : Field, x.get f = x.get g) :
    f = g := by
  have hmask : ∀ x : Field, f &&& x.mask = g &&& x.mask := fun x => by
    rw [← hf.get x, h x, hg.get x]
  have hall : ∀ f : CcFlags, f = (Field.all.map fun x => f &&& x.mask).foldl (· ||| ·) (f &&& Field.rest) := by
    intro f
    have hone : Field.rest ||| ccPan ||| ccTilt ||| ccPreset ||| ccMenu ||| ccCamera ||| ccAck |||
      ccZoom ||| ccFocus ||| ccIris ||| ccLens ||| ccWiper = BitVec.allOnes 32 := by decide
    simp only [Field.all, List.map_cons, List.map_nil, List.foldl_cons, List.foldl_nil, Field.mask,
      ← BitVec.and_or_distrib_left, hone, BitVec.and_allOnes]
  rw [hall f, hall g, hf.rest, hg.rest, List.map_congr_left fun x _ => hmask x]

/-- The packet is the same for the functions of `ccpacket.c`. -/
structure SameFields (pkt pkt' : Ccpacket) : Prop where
  receiver : pkt'.receiver = pkt.receiver
  pan : pkt'.pan = pkt.pan
  tilt : pkt'.tilt = pkt.tilt
  preset : pkt'.preset = pkt.preset
  presetMode : ccpacketGetPresetMode pkt' = ccpacketGetPresetMode pkt
  get : ∀ x, x ≠ Field.preset → x.get pkt'.flags = x.get pkt.flags

/-- What the setters keep: proper flags, and no preset mode without a preset. -/
structure WellFormed (pkt : Ccpacket) : Prop where
  proper : Proper pkt.flags
  preset : pkt.preset ≤ 0 → Field.preset.get pkt.flags = 0

/-- The preset mode of a well-formed packet is in its flags. -/
theorem WellFormed.presetMode {pkt : Ccpacket} (h : WellFormed pkt) :
    ccpacketGetPresetMode pkt = Field.preset.get pkt.flags := by
  rw [ccpacketGetPresetMode_eq]
  split
  · rename_i hle
    exact (h.preset hle).symm
  · rfl

theorem SameFields.eq {pkt pkt' : Ccpacket} (h : SameFields pkt pkt') (hpkt : WellFormed pkt)
    (hpkt' : WellFormed pkt') : pkt' = { pkt with expire := pkt'.expire } := by
  have hflags : pkt'.flags = pkt.flags := by
    refine hpkt'.proper.eq hpkt.proper fun x => ?_
    by_cases hx : x = .preset
    · rw [hx, ← hpkt'.presetMode, ← hpkt.presetMode, h.presetMode]
    · exact h.get x hx
  obtain ⟨receiver, flags, pan, tilt, preset, e⟩ := pkt
  obtain ⟨receiver', flags', pan', tilt', preset', e'⟩ := pkt'
  rw [Ccpacket.mk.injEq]
  exact ⟨h.receiver, hflags, h.pan, h.tilt, h.preset, rfl⟩

/-! ## What the setters keep -/

/-- A change of a packet that keeps receiver and preset number, and proper flags proper. -/
structure KeepsProper (f : Ccpacket → Ccpacket) : Prop where
  receiver : ∀ pkt, (f pkt).receiver = pkt.receiver
  preset : ∀ pkt, (f pkt).preset = pkt.preset
  proper : ∀ pkt, Proper pkt.flags → Proper (f pkt).flags

namespace KeepsProper

variable {f g : Ccpacket → Ccpacket}

theorem id : KeepsProper fun pkt => pkt := ⟨fun _ => rfl, fun _ => rfl, fun _ h => h⟩

theorem comp (hg : KeepsProper g) (hf : KeepsProper f) : KeepsProper fun pkt => g (f pkt) where
  receiver pkt := (hg.receiver (f pkt)).trans (hf.receiver pkt)
  preset pkt := (hg.preset (f pkt)).trans (hf.preset pkt)
  proper pkt h := hg.proper (f pkt) (hf.proper pkt h)

theorem ite {c : Prop} [Decidable c] (hf : KeepsProper f) (hg : KeepsProper g) :
    KeepsProper fun pkt => if c then f pkt else g pkt := by
  by_cases hc : c
  · simpa only [if_pos hc] using hf
  · simpa only [if_neg hc] using hg

theorem update (x : Field) (m : CcFlags) : KeepsProper fun pkt => x.update pkt m :=
  ⟨fun _ => rfl, fun _ => rfl, fun _ h => h.set x m⟩

theorem setPan (pm : CcFlags) (speed : Int) : KeepsProper fun pkt => ccpacketSetPan pkt pm speed :=
  ⟨fun _ => rfl, fun _ => rfl, fun _ h => h.set .pan pm⟩

theorem setTilt (tm : CcFlags) (speed : Int) : KeepsProper fun pkt => ccpacketSetTilt pkt tm speed :=
  ⟨fun _ => rfl, fun _ => rfl, fun _ h => h.set .tilt tm⟩

end KeepsProper

end Protozoa
