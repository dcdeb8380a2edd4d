import Protozoa.Protocol.Deliver
import Protozoa.Protocol.Wires

/-!
# Presets there and back

A packet with a preset, written in a protocol and read back. Pelco has eight bits for a preset
number (`pelco_d.c:448-463`, `pelco_p.c:465-480`) and Manchester three, and what does not fit is not
sent (`manchester.c:445-453`). Vicon has seven, or four in a message of six bytes, and masks the
number (`vicon.c:355-362`, `421-437`).

* `decode_written`: what Vicon reads of a recall or a store is the number modulo 128.
* `Wire.Origin.same`: what comes back of a preset in the other protocols.
* **`presetKept_iff`**: which presets come back as they are or not at all (`PresetKept`), for every
  protocol and every number from 1 to 255.
* `not_presetKept`: a recall of preset 200 in Vicon, which comes back as preset 72.
-/

namespace Protozoa

open Pelco

variable {pkt q : Ccpacket}

/-- A command to recall, store or clear a preset, or for a menu. -/
def Commands (q : Ccpacket) : Prop := ccpacketGetPresetMode q ≠ 0 ∨ ccpacketGetMenu q ≠ 0

/-- The same preset command. -/
structure SamePreset (pkt q : Ccpacket) : Prop where
  mode : ccpacketGetPresetMode q = ccpacketGetPresetMode pkt
  number : q.preset = pkt.preset
  menu : ccpacketGetMenu q = 0

/-- **What is asked of a protocol**: what is read back of the packet has its preset command, or
none. -/
def PresetKept (w : Wire) (pkt : Ccpacket) : Prop :=
  ∀ (now : Timeval) (timeout : Nat) (flags : BitVec 32) (rxbuf : Buffer),
    rxbuf.data = (w.doWrite (bufferInit bufferSize) pkt).1.data →
      ∃ pkts, readBack w.doRead now timeout flags rxbuf = some pkts ∧
        ∀ q ∈ pkts, Commands q → SamePreset pkt q

/-! ## Vicon -/

/-- A preset that has been set. -/
theorem number_setPreset {m : CcFlags} {n : Int} (hm : m ∈ Field.preset.members)
    (h : ccpacketGetPresetMode (ccpacketSetPreset q m n) ≠ 0) :
    ccpacketGetPresetMode (ccpacketSetPreset q m n) = m ∧ (ccpacketSetPreset q m n).preset = n ∧
      0 < n ∧ ¬(m = ccPresetStore ∧ 77 ≤ n ∧ n ≤ 79) := by
  rw [ccpacketGetPresetMode_setPreset q m n hm] at h ⊢
  split at h
  · rename_i hset
    refine ⟨if_pos hset, ?_, hset⟩
    rw [ccpacketSetPreset_eq q m n hset.2 hset.1 hm]
  · exact absurd rfl h

namespace Vicon

/-- **A recall or a store** is read with seven bits of its number. -/
theorem decode_written (hr : 1 ≤ pkt.receiver ∧ pkt.receiver ≤ 255) (hn : 0 ≤ pkt.preset)
    (hmode : ccpacketGetPresetMode pkt = ccPresetRecall ∨ ccpacketGetPresetMode pkt = ccPresetStore)
    (flags : BitVec 32) (blank : Ccpacket) :
    ∃ q, ccpacketGetPresetMode (decode flags (written pkt) blank) = ccpacketGetPresetMode
        (ccpacketSetPreset q (ccpacketGetPresetMode pkt) (pkt.preset % 128)) ∧
      (decode flags (written pkt) blank).preset =
        (ccpacketSetPreset q (ccpacketGetPresetMode pkt) (pkt.preset % 128)).preset := by
  unfold written
  split
  · have hrequests := requests_presetMess hr
    rw [hrequests.decode hmode]
    exact ⟨_, rfl, rfl⟩
  · rename_i hext
    have hsmall : pkt.preset ≤ 15 := by
      by_contra hlarge
      refine hext ?_
      unfold isExtendedPreset
      rw [if_pos hmode, decide_eq_true (by omega), Bool.true_or, Bool.true_or]
    have hmod : pkt.preset % 128 = pkt.preset := Int.emod_eq_of_lt hn (by omega)
    rw [hmod]
    split
    · refine ⟨decodeFields blank (speedMess pkt), ?_⟩
      rw [decode_speedMess hr, (hasPreset_speedMess pkt).decode fun _ => ⟨hn, hsmall⟩, if_pos hmode]
      exact ⟨rfl, rfl⟩
    · refine ⟨decodeFields blank (commandMess pkt), ?_⟩
      rw [decode_plain (plain_commandMess pkt),
        (hasPreset_commandMess pkt).decode fun _ => ⟨hn, hsmall⟩, if_pos hmode]
      exact ⟨rfl, rfl⟩

/-- No preset is sent otherwise. -/
theorem preset_decode_written (hr : 1 ≤ pkt.receiver ∧ pkt.receiver ≤ 255)
    (hmode : ¬(ccpacketGetPresetMode pkt = ccPresetRecall ∨ ccpacketGetPresetMode pkt = ccPresetStore))
    (flags : BitVec 32) (blank : Ccpacket) :
    (decode flags (written pkt) blank).preset = blank.preset := by
  have hext : ¬isExtendedPreset pkt = true := by
    unfold isExtendedPreset
    rw [if_neg hmode]
    exact Bool.false_ne_true
  unfold written
  rw [if_neg hext]
  split
  · rw [decode_speedMess hr, (hasPreset_speedMess pkt).decode fun h => absurd h hmode, if_neg hmode]
    exact preset_decodeFields (speedMess pkt)
  · rw [decode_plain (plain_commandMess pkt),
      (hasPreset_commandMess pkt).decode fun h => absurd h hmode, if_neg hmode]
    exact preset_decodeFields (commandMess pkt)

end Vicon

/-! ## What is read back -/

/-- The number is masked to another one, which is then recalled or stored. -/
def Masked (pkt : Ccpacket) : Prop :=
  (1 ≤ pkt.receiver ∧ pkt.receiver ≤ 255) ∧
    (ccpacketGetPresetMode pkt = ccPresetRecall ∨ ccpacketGetPresetMode pkt = ccPresetStore) ∧
    128 < pkt.preset ∧
    ¬(ccpacketGetPresetMode pkt = ccPresetStore ∧ 205 ≤ pkt.preset ∧ pkt.preset ≤ 207)

instance (pkt : Ccpacket) : Decidable (Masked pkt) := inferInstanceAs (Decidable (_ ∧ _))

theorem presetMode_of_zero (h : q.preset = 0) : ccpacketGetPresetMode q = 0 := if_pos h.le

theorem blank_menu {blank : Ccpacket} (h : Blank blank) : ccpacketGetMenu blank = 0 := by
  rw [ccpacketGetMenu_eq, h.flags]
  exact Field.get_zero .menu

/-- No menu command is read back. -/
theorem Wire.Origin.menu {w : Wire} {flags : BitVec 32} (h : Origin w flags pkt q) :
    ccpacketGetMenu q = 0 := by
  obtain ⟨blank, hblank, h⟩ := h
  cases w with
  | vicon =>
    obtain ⟨-, rfl⟩ := h
    exact (keepsMenu_vicon flags _ blank).trans (blank_menu hblank)
  | pelcoD =>
    obtain ⟨mess, -, rfl⟩ := h
    exact (keepsMenu_pelcoD flags mess blank).trans (blank_menu hblank)
  | pelcoP =>
    obtain ⟨mess, -, rfl⟩ := h
    exact (keepsMenu_pelcoP flags mess blank).trans (blank_menu hblank)
  | manchester =>
    rcases h with rfl | rfl
    · exact blank_menu hblank
    · rw [Manchester.collected_eq]
      exact @Manchester.get_stages pkt blank hblank.flags .menu

/-- The presets of Pelco, of either protocol. -/
theorem Pelco.Codec.preset_decodeBy {c : Codec} {cmd : Ccpacket → List Byte → Ccpacket} {blank : Ccpacket}
    {mess : List Byte} (hn : 1 ≤ pkt.preset ∧ pkt.preset ≤ 255) (hblank : Blank blank)
    (hext : bitExtended ∉ (c.commandBits pkt).map Prod.fst)
    (hnumbers : ∀ p mess, Numbers mess p (cmd p mess)) (hmess : mess ∈ c.messages pkt)
    (hmode : ccpacketGetPresetMode (decodeBy cmd mess blank) ≠ 0) :
    ccpacketGetPresetMode (decodeBy cmd mess blank) = ccpacketGetPresetMode pkt ∧
      (decodeBy cmd mess blank).preset = pkt.preset := by
  rcases decodeBy_mem hext blank hmess with hdecode | ⟨hsent, hdecode⟩ | ⟨wm, hdecode⟩
  · rw [hdecode] at hmode
    exact absurd (presetMode_of_zero ((hnumbers _ _).preset.trans hblank.preset)) hmode
  · have hvalue : (((BitVec.ofInt 8 pkt.preset).toNat : Nat) : Int) = pkt.preset := by
      rw [BitVec.toNat_ofInt]
      omega
    rw [hvalue] at hdecode
    rw [hdecode] at hmode ⊢
    obtain ⟨hset, hnumber, -⟩ := number_setPreset (presetMode_mem hsent) hmode
    exact ⟨hset, hnumber⟩
  · have hnone : (ccpacketSetWiper (ccpacketSetReceiver blank (BitVec.ofInt 8 pkt.receiver).toNat)
        wm).preset = 0 := hblank.preset
    rw [hdecode] at hmode
    exact absurd (presetMode_of_zero hnone) hmode

/-- The presets of Manchester. -/
theorem Manchester.preset_collected {blank : Ccpacket} (hblank : Blank blank)
    (hmode : ccpacketGetPresetMode (collected pkt blank) ≠ 0) :
    ccpacketGetPresetMode (collected pkt blank) = ccpacketGetPresetMode pkt ∧
      (collected pkt blank).preset = pkt.preset := by
  have hget := @get_stages pkt blank hblank.flags .preset
  obtain ⟨-, -, -, hpreset⟩ := stages_rest pkt blank
  rw [collected_eq] at hmode ⊢
  by_cases hsends : SendsPreset pkt
  · have hrange := hsends.1
    rw [if_pos hsends] at hpreset
    refine ⟨?_, hpreset⟩
    rw [ccpacketGetPresetMode_eq, if_neg (by omega), hget]
    exact if_pos hsends
  · rw [if_neg hsends, hblank.preset] at hpreset
    exact absurd (presetMode_of_zero hpreset) hmode

/-- **What is read back** of a preset is this preset or none, if the number is not masked. -/
theorem Wire.Origin.same {w : Wire} {flags : BitVec 32} (h : Origin w flags pkt q)
    (hsent : ccpacketGetPresetMode pkt ≠ 0) (hn : 1 ≤ pkt.preset ∧ pkt.preset ≤ 255)
    (hmasked : ¬(w = .vicon ∧ Masked pkt)) (hcommands : Commands q) : SamePreset pkt q := by
  have hmenu := h.menu
  have hmode : ccpacketGetPresetMode q ≠ 0 := hcommands.resolve_right fun hno => hno hmenu
  obtain ⟨blank, hblank, h⟩ := h
  cases w with
  | vicon =>
    obtain ⟨hr, rfl⟩ := h
    by_cases hkind : ccpacketGetPresetMode pkt = ccPresetRecall ∨
        ccpacketGetPresetMode pkt = ccPresetStore
    · obtain ⟨p, hsame, hpreset⟩ := Vicon.decode_written hr (by omega) hkind flags blank
      rw [hsame] at hmode
      obtain ⟨hset, hnumber, hpos, hplain⟩ := number_setPreset (presetMode_mem hsent) hmode
      have hexact : pkt.preset % 128 = pkt.preset := by
        by_contra hother
        refine hmasked ⟨rfl, hr, hkind, by omega, fun hstore => hplain ⟨hstore.1, ?_⟩⟩
        omega
      exact ⟨hsame.trans hset, (hpreset.trans hnumber).trans hexact, hmenu⟩
    · have hpreset := Vicon.preset_decode_written hr hkind flags blank
      exact absurd (presetMode_of_zero (hpreset.trans hblank.preset)) hmode
  | pelcoD =>
    obtain ⟨mess, hmess, rfl⟩ := h
    obtain ⟨hsame, hnumber⟩ := Codec.preset_decodeBy (c := PelcoD.codec) hn hblank
      (by rw [PelcoD.commandBits_keys]; decide) PelcoD.numbers_decodeCommand hmess hmode
    exact ⟨hsame, hnumber, hmenu⟩
  | pelcoP =>
    obtain ⟨mess, hmess, rfl⟩ := h
    obtain ⟨hsame, hnumber⟩ := Codec.preset_decodeBy (c := PelcoP.codec) hn hblank
      (by rw [PelcoP.commandBits_keys]; decide) (PelcoP.numbers_decodeCommand flags) hmess hmode
    exact ⟨hsame, hnumber, hmenu⟩
  | manchester =>
    rcases h with rfl | rfl
    · exact absurd (presetMode_of_zero hblank.preset) hmode
    · obtain ⟨hsame, hnumber⟩ := Manchester.preset_collected hblank hmode
      exact ⟨hsame, hnumber, hmenu⟩

/-- **Which presets are kept**: all, but for a recall or a store of a number above 128 that Vicon
sends. -/
theorem presetKept_iff (w : Wire) (pkt : Ccpacket) (h : Deliverable pkt)
    (hmode : ccpacketGetPresetMode pkt ≠ 0) (hn : 1 ≤ pkt.preset ∧ pkt.preset ≤ 255) :
    PresetKept w pkt ↔ ¬(w = .vicon ∧ Masked pkt) := by
  constructor
  · rintro hkept ⟨rfl, hr, hkind, hlarge, hplain⟩
    obtain ⟨pkts, hread, hall⟩ := hkept ⟨0, 0⟩ 0 0 _ rfl
    have hback := Vicon.readBack_doWrite h.menu ⟨0, 0⟩ 0 0
      (show (Vicon.doWrite (bufferInit bufferSize) pkt).1.data = _ from rfl)
    rw [if_pos hr] at hback
    obtain rfl := Option.some.inj (hread.symm.trans hback)
    obtain ⟨p, hsame, hpreset⟩ := Vicon.decode_written hr (by omega) hkind 0
      (oneWriter ⟨0, 0⟩ 0 0).packet
    have hset : ccpacketGetPresetMode
        (ccpacketSetPreset p (ccpacketGetPresetMode pkt) (pkt.preset % 128)) ≠ 0 := by
      rw [ccpacketGetPresetMode_setPreset _ _ _ (presetMode_mem hmode),
        if_pos ⟨by omega, fun hstore => hplain ⟨hstore.1, by omega⟩⟩]
      exact hmode
    obtain ⟨-, hnumber, -⟩ := number_setPreset (presetMode_mem hmode) hset
    have hnumber' := (hall _ List.mem_cons_self (Or.inl (hsame.trans_ne hset))).number
    have hmod : pkt.preset % 128 = pkt.preset := (hpreset.trans hnumber).symm.trans hnumber'
    omega
  · intro hmasked now timeout flags rxbuf hdata
    obtain ⟨pkts, hread, hpkts⟩ := w.readBack_origin h.menu now timeout flags hdata
    refine ⟨pkts, hread, fun q hq hcommands => ?_⟩
    obtain ⟨p, e, horigin, rfl⟩ := hpkts q hq
    have hsame := horigin.same hmode hn hmasked hcommands
    exact ⟨hsame.mode, hsame.number, hsame.menu⟩

/-- Receiver 1: recall preset 200, as a Pelco D reader makes it of `FF 01 00 07 00 C8 D0`. -/
def recall200 : Ccpacket := ⟨1, ccPresetRecall, 0, 0, 200, ⟨15, 0⟩⟩

theorem deliverable_recall200 : Deliverable recall200 :=
  ⟨.pelcoD, ⟨0, 0⟩, 15000, 0, [⟨0, 1, 1024, 0⟩], [0xff, 0x01, 0x00, 0x07, 0x00, 0xc8, 0xd0], [7], _, _,
    rfl, by decide⟩

theorem presetKept_iff_recall200 : PresetKept .vicon recall200 ↔ ¬(Wire.vicon = .vicon ∧ Masked recall200) :=
  presetKept_iff .vicon recall200 deliverable_recall200 (by decide) (by decide)

/-- Vicon makes preset 72 of preset 200. -/
theorem not_presetKept : Deliverable recall200 ∧ ccpacketGetPresetMode recall200 = ccPresetRecall ∧
    recall200.preset = 200 ∧ ¬PresetKept .vicon recall200 := by
  refine ⟨deliverable_recall200, by decide, rfl, fun hkept => ?_⟩
  obtain ⟨pkts, hread, hall⟩ := hkept ⟨0, 0⟩ 0 0 _ rfl
  have hback := Vicon.readBack_doWrite (show ccpacketGetMenu recall200 = 0 by decide) ⟨0, 0⟩ 0 0
    (show (Vicon.doWrite (bufferInit bufferSize) recall200).1.data = _ from rfl)
  rw [if_pos (by decide)] at hback
  obtain rfl := Option.some.inj (hread.symm.trans hback)
  exact absurd (hall _ List.mem_cons_self (Or.inl (by decide))).number (by decide)

end Protozoa
