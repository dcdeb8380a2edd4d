import Protozoa.Channel
import Protozoa.Protocol.Axis
import Protozoa.Protocol.Infinova
import Protozoa.Protocol.Manchester
import Protozoa.Protocol.PelcoP
import Protozoa.Protocol.Vicon

/-!
# Camera control writers (`ccwriter.c`)

What `ccwriter_set_protocol` gives a writer for each protocol (`ccwriter.c:52-88`): how many
receivers it has, its gap time and its timeout; and what its `do_write` does to a packet for one of
the writer's receivers.

* `doWrite_spec`: it counts one packet, and changes the packet as `adjust` says, which is the
  `adjust_menu_commands` of the protocol (`pelco_d.c:484-492`, `pelco_p.c:501-509`,
  `vicon.c:465-473`) and nothing for the others.
* `settles_adjust`: the adjustment leaves the receiver and the expiration time alone and has no more
  to change a second time (`Settles`).

The slots of the writer (`ccwriter.c:31-44`) are in `Engine/Defer.lean`, what stands in its messages
in `Protocol`.
-/

namespace Protozoa.Engine

open Lib.BitField

/-- The protocols a writer can have. -/
inductive Protocol where
  | manchester
  | infinovaD
  | pelcoD
  | pelcoP
  | vicon
  | axis
  deriving DecidableEq

/-- `struct ccwriter`; the slots for its deferred packets are kept by the engine. -/
structure Ccwriter (κ : Type) where
  protocol : Protocol
  chn : κ
  auth : Option (List Byte)

/-- `wtr->n_rcv`. -/
def Protocol.nRcv : Protocol → Int
  | .manchester => Manchester.maxAddress
  | .infinovaD => PelcoD.maxAddress
  | .pelcoD => PelcoD.maxAddress
  | .pelcoP => PelcoP.maxAddress
  | .vicon => Vicon.maxAddress
  | .axis => Axis.maxAddress

/-- `wtr->gaptime`. -/
def Protocol.gaptime : Protocol → Nat
  | .manchester => Manchester.manchesterGaptime
  | .infinovaD => PelcoD.pelcoDGaptime
  | .pelcoD => PelcoD.pelcoDGaptime
  | .pelcoP => PelcoP.pelcoPGaptime
  | .vicon => Vicon.viconGaptime
  | .axis => Axis.axisGaptime

/-- `wtr->timeout`. -/
def Protocol.timeout : Protocol → Nat
  | .manchester => Manchester.manchesterTimeout
  | .infinovaD => PelcoD.pelcoDTimeout
  | .pelcoD => PelcoD.pelcoDTimeout
  | .pelcoP => PelcoP.pelcoPTimeout
  | .vicon => Vicon.viconTimeout
  | .axis => Axis.axisTimeout

/-- `wtr->do_write`: the transmit buffer, the packet, and the count of packets. -/
def Protocol.doWrite (p : Protocol) (auth : Option (List Byte)) (isOpen : Bool) (txbuf : Buffer)
    (pkt : Ccpacket) : Buffer × Ccpacket × Nat :=
  match p with
  | .manchester => Manchester.doWrite txbuf pkt
  | .infinovaD => Infinova.doWrite isOpen txbuf pkt
  | .pelcoD => PelcoD.doWrite txbuf pkt
  | .pelcoP => PelcoP.doWrite txbuf pkt
  | .vicon => Vicon.doWrite txbuf pkt
  | .axis => Axis.doWrite auth txbuf pkt

/-- What `do_write` makes of the packet. -/
def Protocol.adjust : Protocol → Ccpacket → Ccpacket
  | .manchester => fun pkt => pkt
  | .infinovaD => Pelco.adjustMenuCommands
  | .pelcoD => Pelco.adjustMenuCommands
  | .pelcoP => Pelco.adjustMenuCommands
  | .vicon => Vicon.adjustMenuCommands
  | .axis => fun pkt => pkt

theorem axis_doWrite_spec (auth : Option (List Byte)) (txbuf : Buffer) (pkt : Ccpacket) :
    (Axis.doWrite auth txbuf pkt).2 = (pkt, 1) := by
  have hpreset : ∀ b, (Axis.encodePreset b pkt false).1 = true := by
    intro b
    simp only [Axis.encodePreset, Axis.axisPrepareBuffer]
    split_ifs <;> rfl
  have hcommand : ∀ b, (Axis.encodeCommand b pkt false).1 = true := fun _ => rfl
  have hstop : ∀ b, (Axis.encodeStop b false).1 = true := fun _ => rfl
  simp only [Axis.doWrite]
  by_cases hp : ccpacketGetPresetMode pkt ≠ 0
  · rw [if_pos hp, if_pos (hpreset _)]
  · by_cases hc : ccpacketHasCommand pkt = true
    · rw [if_neg hp, if_pos hc, if_pos (hcommand _)]
    · rw [if_neg hp, if_neg hc, if_pos (hstop _)]

/-- **A packet for one of the writer's receivers** is counted. -/
theorem doWrite_spec (p : Protocol) (auth : Option (List Byte)) (isOpen : Bool) (txbuf : Buffer)
    {pkt : Ccpacket} (h0 : 0 < pkt.receiver) (h1 : pkt.receiver ≤ p.nRcv) :
    (p.doWrite auth isOpen txbuf pkt).2 = (p.adjust pkt, 1) := by
  have hrange : ¬(pkt.receiver < 1 ∨ pkt.receiver > p.nRcv) := by omega
  cases p with
  | manchester => exact congrArg Prod.snd (if_neg hrange)
  | infinovaD => exact congrArg Prod.snd (if_neg hrange)
  | pelcoD => exact congrArg Prod.snd (if_neg hrange)
  | pelcoP => exact congrArg Prod.snd (if_neg hrange)
  | vicon => exact congrArg Prod.snd (if_neg hrange)
  | axis => exact axis_doWrite_spec auth txbuf pkt

/-! ## The menu adjustment -/

/-- A change of the packet that keeps its menu command, receiver and expiration time, and does
nothing the second time. -/
structure Settles (f : Ccpacket → Ccpacket) : Prop where
  menu : ∀ pkt, ccpacketGetMenu (f pkt) = ccpacketGetMenu pkt
  receiver : ∀ pkt, (f pkt).receiver = pkt.receiver
  expire : ∀ pkt, (f pkt).expire = pkt.expire
  twice : ∀ pkt, f (f pkt) = f pkt

theorem settles_id : Settles fun pkt => pkt := ⟨fun _ => rfl, fun _ => rfl, fun _ => rfl, fun _ => rfl⟩

theorem settles_setFlags {mask m : CcFlags} (hw : Within mask m) (hmenu : ccMenu &&& mask = 0#32) :
    Settles fun pkt => setFlags mask pkt m := by
  refine ⟨fun pkt => member_put_other hw hmenu, fun _ => rfl, fun _ => rfl, fun pkt => ?_⟩
  simp only [setFlags, put_put hw]

theorem settles_setPan (pm : CcFlags) : Settles fun pkt => ccpacketSetPan pkt pm 0 := by
  have h := settles_setFlags (within_member ccPan [ccPanLeft, ccPanRight, ccPanAuto] pm) (by decide)
  refine ⟨h.menu, fun _ => rfl, fun _ => rfl, fun pkt => ?_⟩
  have htwice := congrArg Ccpacket.flags (h.twice pkt)
  simp only [setFlags] at htwice
  simp only [ccpacketSetPan, ccpacketSetPanSpeed, setFlags, ccpacketPan, htwice]

theorem setPreset_store {n : Int} (h0 : 0 < n) (hmenu : n ∉ [77, 78, 79]) (pkt : Ccpacket) :
    ccpacketSetPreset pkt ccPresetStore n =
      { pkt with flags := put ccPreset ccPresetStore pkt.flags, preset := n } := by
  have hstore : ccpacketPreset ccPresetStore n = ccPresetStore := by
    unfold ccpacketPreset
    rw [if_neg (by omega)]
    decide
  have hplain : ccpacketMenuPreset pkt n = (false, pkt) := by
    simp only [List.mem_cons, List.not_mem_nil, or_false, not_or] at hmenu
    unfold ccpacketMenuPreset menuOpenPreset menuEnterPreset menuCancelPreset
    rw [if_neg hmenu.1, if_neg hmenu.2.1, if_neg hmenu.2.2]
  have hput : put ccPreset ccPresetStore pkt.flags = pkt.flags &&& ~~~ccPreset ||| ccPresetStore :=
    BitVec.or_comm _ _
  simp only [ccpacketSetPreset, hstore, hplain, if_true, hput]

theorem within_presetStore : Within ccPreset ccPresetStore := by
  unfold Within
  decide

theorem settles_setPreset {n : Int} (h0 : 0 < n) (hmenu : n ∉ [77, 78, 79]) :
    Settles fun pkt => ccpacketSetPreset pkt ccPresetStore n := by
  have hset := fun pkt => setPreset_store h0 hmenu pkt
  refine ⟨fun pkt => ?_, fun pkt => ?_, fun pkt => ?_, fun pkt => ?_⟩
  · rw [hset]
    exact member_put_other within_presetStore (by decide)
  · rw [hset]
  · rw [hset]
  · simp only [hset, put_put within_presetStore]

/-- One of three changes, by the menu command. -/
theorem settles_byMenu {f₁ f₂ f₃ : Ccpacket → Ccpacket} (h₁ : Settles f₁) (h₂ : Settles f₂)
    (h₃ : Settles f₃) : Settles fun pkt =>
      if ccpacketGetMenu pkt = ccMenuOpen then f₁ pkt
      else if ccpacketGetMenu pkt = ccMenuEnter then f₂ pkt
      else if ccpacketGetMenu pkt = ccMenuCancel then f₃ pkt
      else pkt := by
  refine ⟨fun pkt => ?_, fun pkt => ?_, fun pkt => ?_, fun pkt => ?_⟩
  · split_ifs
    exacts [h₁.menu pkt, h₂.menu pkt, h₃.menu pkt, rfl]
  · split_ifs
    exacts [h₁.receiver pkt, h₂.receiver pkt, h₃.receiver pkt, rfl]
  · split_ifs
    exacts [h₁.expire pkt, h₂.expire pkt, h₃.expire pkt, rfl]
  · by_cases hopen : ccpacketGetMenu pkt = ccMenuOpen
    · simp only [if_pos hopen, h₁.menu, h₁.twice]
    · by_cases henter : ccpacketGetMenu pkt = ccMenuEnter
      · simp only [if_neg hopen, if_pos henter, h₂.menu, h₂.twice]
      · by_cases hcancel : ccpacketGetMenu pkt = ccMenuCancel
        · simp only [if_neg hopen, if_neg henter, if_pos hcancel, h₃.menu, h₃.twice]
        · simp only [if_neg hopen, if_neg henter, if_neg hcancel]

theorem settles_pelco : Settles Pelco.adjustMenuCommands :=
  settles_byMenu (settles_setPreset (by decide) (by decide))
    (settles_setFlags (within_member _ _ _) (by decide))
    (settles_setFlags (within_member _ _ _) (by decide))

theorem settles_vicon : Settles Vicon.adjustMenuCommands :=
  settles_byMenu (settles_setPreset (by decide) (by decide)) (settles_setPan _)
    (settles_setFlags (within_member _ _ _) (by decide))

/-- **The adjustment** settles for every protocol. -/
theorem settles_adjust (p : Protocol) : Settles p.adjust := by
  cases p with
  | manchester => exact settles_id
  | infinovaD => exact settles_pelco
  | pelcoD => exact settles_pelco
  | pelcoP => exact settles_pelco
  | vicon => exact settles_vicon
  | axis => exact settles_id

end Protozoa.Engine
