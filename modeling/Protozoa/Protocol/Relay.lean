import Protozoa.Engine.Writer
import Protozoa.Lib.Rounding
import Protozoa.Protocol.Deliver
import Protozoa.Protocol.PelcoAgree
import Protozoa.Protocol.ViconRoundTrip

/-!
# What a camera is told behind other protocols

A packet that is sent in one protocol and read from it is sent in the next, by this program or by
another one. `motionOf` is what a camera is to do for a packet, whatever protocol it came by. Of the
packets that only move a camera (`Movable`) Vicon keeps all of the motion (`vicon.c:390-398`); Pelco
D and Pelco P have 64 speeds, and round to them (`Motion.rounded`, `pelco_d.c:332-351`,
`pelco_p.c:356-375`).

* `rounds_tiltLevel`, `rounds_panLevel`: the rounding, as an instance of `Lib/Rounding.lean`.
* `Movable.sensed`: what Pelco makes of such a packet.
* `Movable.readBack_vicon`: what Vicon makes of it.
* `Movable.carry`: one link, which gives one packet that is movable again.
* **`relay_motion`**: behind any number of links the motion is the one that was sent, rounded at
  most once.

Out of scope: packets with automatic focus or iris, presets and menus, and links by Manchester,
which has eight speeds.
-/

namespace Protozoa

open Lib.Rounding Pelco

variable {pkt q : Ccpacket}

/-! ## Motions -/

/-- What a camera is to do: its speeds to the right and upwards, and its lens. -/
structure Motion where
  pan : Int
  scan : Bool
  tilt : Int
  zoom : CcFlags
  focus : CcFlags
  iris : CcFlags

/-- A speed to one side or the other. -/
def towards (m m' side : CcFlags) (v : Int) : Int := if side = m then v else if side = m' then -v else 0

/-- The motion of a packet. -/
def motionOf (pkt : Ccpacket) : Motion where
  pan := towards ccPanRight ccPanLeft (Field.pan.get pkt.flags) pkt.pan
  scan := Field.pan.get pkt.flags == ccPanAuto
  tilt := towards ccTiltUp ccTiltDown (Field.tilt.get pkt.flags) pkt.tilt
  zoom := Field.zoom.get pkt.flags
  focus := Field.focus.get pkt.flags
  iris := Field.iris.get pkt.flags

/-- The 64 speeds of tilt. -/
def tiltLevel : Int → Int := nearest 32 63

/-- The speeds of pan: one more, the greatest. -/
def panLevel : Int → Int := topped (speedMax - 8) speedMax (nearest 32 63)

/-- A motion in the speeds of Pelco. -/
def Motion.rounded (m : Motion) : Motion :=
  { m with pan := signed panLevel m.pan, tilt := signed tiltLevel m.tilt }

theorem rounds_tiltLevel : Rounds speedMax 31 tiltLevel :=
  @rounds_nearest speedMax 32 63 (by decide) (by decide) (by decide) (by decide)

theorem rounds_panLevel : Rounds speedMax 31 panLevel := by
  refine rounds_tiltLevel.topped (by decide) (by decide) (fun v _ _ => ?_) (by decide)
  refine le_trans (Int.mul_le_mul_of_nonneg_left (min_le_right _ _) (by decide)) ?_
  decide

/-- A packet that only moves a camera, in a way that all of these protocols know. -/
structure Movable (pkt : Ccpacket) : Prop where
  receiver : 1 ≤ pkt.receiver ∧ pkt.receiver ≤ 254
  pan : (Field.pan.get pkt.flags = ccPanLeft ∨ Field.pan.get pkt.flags = ccPanRight) ∧
      0 ≤ pkt.pan ∧ pkt.pan ≤ speedMax ∨ Field.pan.get pkt.flags = ccPanAuto ∧ pkt.pan = 0
  tilt : (Field.tilt.get pkt.flags = ccTiltUp ∨ Field.tilt.get pkt.flags = ccTiltDown) ∧
      0 ≤ pkt.tilt ∧ pkt.tilt ≤ speedMax
  focus : Field.focus.get pkt.flags ≠ ccFocusAuto
  iris : Field.iris.get pkt.flags ≠ ccIrisAuto
  preset : pkt.preset = 0
  rest : ∀ x, x = Field.camera ∨ x = Field.wiper ∨ x = Field.lens ∨ x = Field.ack ∨ x = Field.menu →
    x.get pkt.flags = 0

/-! ## The speeds of Pelco -/

theorem encodeSpeed_eq {v : Int} (h : 0 ≤ v ∧ v ≤ speedMax) : encodeSpeed v = min ((v + 16) / 32) 63 := by
  unfold speedMax at h
  unfold encodeSpeed turboSpeed
  rw [Int.shiftRight_eq_div_pow, Int.shiftRight_eq_div_pow, Int.tmod_eq_emod_of_nonneg h.1]
  dsimp only
  split <;> omega

theorem levelSpeed_encodeSpeed {v : Int} (h : 0 ≤ v ∧ v ≤ speedMax) :
    levelSpeed (BitVec.ofInt 8 (encodeSpeed v)) = tiltLevel v := by
  have heq := encodeSpeed_eq h
  have hbyte : (BitVec.ofInt 8 (encodeSpeed v)).toNat = (encodeSpeed v).toNat := by
    rw [BitVec.toNat_ofInt]
    omega
  rw [levelSpeed_of_lt (by omega), hbyte, heq]
  unfold tiltLevel nearest
  omega

theorem levelSpeed_encodePanSpeed {v : Int} (h : 0 ≤ v ∧ v ≤ speedMax) :
    clampSpeed (levelSpeed (BitVec.ofInt 8 (encodePanSpeed v))) = panLevel v := by
  unfold encodePanSpeed panLevel topped
  by_cases hturbo : v > speedMax - 8
  · rw [if_pos hturbo, if_pos hturbo]
    decide
  · rw [if_neg hturbo, if_neg hturbo, levelSpeed_encodeSpeed h]
    exact clampSpeed_of_range (rounds_tiltLevel.range v h.1 h.2)

/-! ## One link -/

section

variable {c : Codec}

theorem getD_commandMess_four : (c.commandMess pkt).getD 4 0 = panByte pkt := by
  have hsize := c.size
  rw [Codec.commandMess, c.getD_encodeChecksum _ _ (by omega), Codec.getD_commandBody_four]

theorem getD_commandMess_five : (c.commandMess pkt).getD 5 0 = tiltByte pkt := by
  have hsize := c.size
  rw [Codec.commandMess, c.getD_encodeChecksum _ _ (by omega), Codec.getD_commandBody_five]

/-- A field that is neither of two members has none. -/
theorem choose_get {x m m' : CcFlags} (hx : x = 0 ∨ x = m ∨ x = m') :
    (if (x == m) = true then m else if (x == m') = true then m' else 0) = x := by
  simp only [beq_iff_eq]
  by_cases hm : x = m
  · rw [if_pos hm, hm]
  by_cases hm' : x = m'
  · rw [if_neg hm, if_pos hm', hm']
  · rw [if_neg hm, if_neg hm']
    exact (hx.resolve_right fun hor => hor.elim hm hm').symm

/-- The bits of a move in the message. -/
theorem bitIsSet_pair (hnodup : ((c.commandBits pkt).map Prod.fst).Nodup) {a b : Nat} {v v' : Bool}
    (hmem : ∀ e ∈ [(a, v), (b, v')], e ∈ moves c.bits pkt) (ha : InCommand a) (hb : InCommand b) :
    bitIsSet (c.commandMess pkt) a = v ∧ bitIsSet (c.commandMess pkt) b = v' :=
  ⟨Codec.bitIsSet_move hnodup (hmem _ List.mem_cons_self) ha,
    Codec.bitIsSet_move hnodup (hmem _ (List.mem_cons_of_mem _ List.mem_cons_self)) hb⟩

/-- **A speed, as it is read**: to the same side, at the level it has. If none is sent, it has none.
-/
theorem towards_sensed {f : Int → Int} (hf : Rounds speedMax 31 f) {m m' side side' : CcFlags} {v v' : Int}
    {sent bit bit' : Bool} (hne : m' ≠ m) (hside : side = m ∨ side = m') (hrange : 0 ≤ v ∧ v ≤ speedMax)
    (hsent : sent = false → f v = 0) (hbit : bit = (sent && side == m)) (hbit' : bit' = (sent && side == m'))
    (hspeed : v' = if bit ∨ bit' then f v else 0) (hmode : side' = if bit then m else m') :
    (side' = m ∨ side' = m') ∧ (0 ≤ v' ∧ v' ≤ speedMax) ∧ towards m m' side' v' = signed f (towards m m' side v) := by
  have hat : ∀ u, towards m m' m u = u ∧ towards m m' m' u = -u := fun u =>
    ⟨if_pos rfl, (if_neg hne).trans (if_pos rfl)⟩
  have hrounded : signed f (towards m m' m v) = f v ∧ signed f (towards m m' m' v) = -f v := by
    rw [(hat v).1, (hat v).2, hf.signed_neg, signed_of_nonneg hrange.1]
    exact ⟨rfl, rfl⟩
  have hnew := hf.range v hrange.1 hrange.2
  cases sent with
  | false =>
    -- neither bit is set, and the side is lost with the speed
    rw [Bool.false_and] at hbit hbit'
    rw [hbit, hbit', if_neg (by decide)] at hspeed
    rw [hbit, if_neg Bool.false_ne_true] at hmode
    have hstill : signed f (towards m m' side v) = 0 := by
      rcases hside with rfl | rfl
      · rw [hrounded.1, hsent rfl]
      · rw [hrounded.2, hsent rfl, Int.neg_zero]
    refine ⟨Or.inr hmode, by rw [hspeed]; decide, ?_⟩
    rw [hstill, hmode, (hat v').2, hspeed, Int.neg_zero]
  | true =>
    rw [Bool.true_and] at hbit hbit'
    rcases hside with rfl | rfl
    · rw [beq_self_eq_true] at hbit
      rw [hbit, if_pos (Or.inl rfl)] at hspeed
      rw [hbit, if_pos rfl] at hmode
      refine ⟨Or.inl hmode, by rwa [hspeed], ?_⟩
      rw [hrounded.1, hmode, (hat v').1, hspeed]
    · rw [beq_eq_false_iff_ne.mpr hne] at hbit
      rw [beq_self_eq_true] at hbit'
      rw [hbit', if_pos (Or.inr rfl)] at hspeed
      rw [hbit, if_neg Bool.false_ne_true] at hmode
      refine ⟨Or.inr hmode, by rwa [hspeed], ?_⟩
      rw [hrounded.2, hmode, (hat v').2, hspeed]

/-- The tilt of a command, as it is read. -/
theorem Movable.tilt_sensed (h : Movable pkt) (hnodup : ((c.commandBits pkt).map Prod.fst).Nodup)
    (hspeed : q.tilt = if bitIsSet (c.commandMess pkt) bitTiltUp ∨ bitIsSet (c.commandMess pkt) bitTiltDown
      then levelSpeed ((c.commandMess pkt).getD 5 0) else 0)
    (hmode : Field.tilt.get q.flags = if bitIsSet (c.commandMess pkt) bitTiltUp then ccTiltUp else ccTiltDown) :
    ((Field.tilt.get q.flags = ccTiltUp ∨ Field.tilt.get q.flags = ccTiltDown) ∧ 0 ≤ q.tilt ∧ q.tilt ≤ speedMax) ∧
      (motionOf q).tilt = signed tiltLevel (motionOf pkt).tilt := by
  obtain ⟨hside, hrange⟩ := h.tilt
  obtain ⟨hup, hdown⟩ := bitIsSet_pair hnodup (fun e he => List.mem_append_right _ (List.mem_append_right _
    (List.mem_append_right _ (List.mem_append_left _ he))) : ∀ e ∈ tiltMoves pkt, _) (by decide) (by decide)
  have hbyte : tiltByte pkt = BitVec.ofInt 8 (encodeSpeed pkt.tilt) :=
    if_neg fun hno => hside.elim hno.2.1 hno.2.2
  rw [getD_commandMess_five, hbyte, levelSpeed_encodeSpeed hrange] at hspeed
  have hstill : decide (encodeSpeed pkt.tilt ≠ 0) = false → tiltLevel pkt.tilt = 0 := fun hno => by
    rw [← levelSpeed_encodeSpeed hrange, not_not.mp (of_decide_eq_false hno)]
    rfl
  obtain ⟨hside', hrange', hmotion⟩ := towards_sensed rounds_tiltLevel (by decide) hside hrange hstill hup hdown
    hspeed hmode
  exact ⟨⟨hside', hrange'⟩, hmotion⟩

/-- The pan of a command, as it is read. -/
theorem Movable.pan_sensed (h : Movable pkt) (hnodup : ((c.commandBits pkt).map Prod.fst).Nodup)
    (hspeed : q.pan = if Field.pan.get pkt.flags == ccPanAuto then 0
      else if bitIsSet (c.commandMess pkt) bitPanRight ∨ bitIsSet (c.commandMess pkt) bitPanLeft
      then clampSpeed (levelSpeed ((c.commandMess pkt).getD 4 0)) else 0)
    (hmode : Field.pan.get q.flags = if Field.pan.get pkt.flags == ccPanAuto then Field.pan.get ccPanAuto
      else if bitIsSet (c.commandMess pkt) bitPanRight then ccPanRight else ccPanLeft) :
    ((Field.pan.get q.flags = ccPanLeft ∨ Field.pan.get q.flags = ccPanRight) ∧ 0 ≤ q.pan ∧ q.pan ≤ speedMax ∨
        Field.pan.get q.flags = ccPanAuto ∧ q.pan = 0) ∧
      (motionOf q).pan = signed panLevel (motionOf pkt).pan ∧ (motionOf q).scan = (motionOf pkt).scan := by
  rcases h.pan with ⟨hside, hrange⟩ | ⟨hauto, hzero⟩
  · have hscan : (Field.pan.get pkt.flags == ccPanAuto) = false := by
      rcases hside with hside | hside <;> rw [hside] <;> rfl
    rw [hscan, if_neg Bool.false_ne_true] at hspeed hmode
    obtain ⟨hleft, hright⟩ := bitIsSet_pair hnodup (fun e he => List.mem_append_right _ (List.mem_append_right _
      (List.mem_append_right _ (List.mem_append_right _ he))) : ∀ e ∈ panMoves pkt, _) (by decide) (by decide)
    have hbyte : panByte pkt = BitVec.ofInt 8 (encodePanSpeed pkt.pan) :=
      if_neg fun hno => hside.elim hno.2.1 hno.2.2
    rw [getD_commandMess_four, hbyte, levelSpeed_encodePanSpeed hrange] at hspeed
    have hstill : ccpacketHasPan pkt = false → panLevel pkt.pan = 0 := fun hno => by
      have hmode : (ccpacketGetPanMode pkt != 0) = true := by
        rw [ccpacketGetPanMode_eq]
        rcases hside with hside | hside <;> rw [hside] <;> rfl
      rw [ccpacketHasPan, hmode, Bool.true_and, bne_eq_false_iff_eq] at hno
      rw [hno]
      rfl
    obtain ⟨hside', hrange', hmotion⟩ := towards_sensed rounds_panLevel (by decide) hside.symm hrange hstill hright
      hleft hspeed hmode
    refine ⟨Or.inl ⟨hside'.symm, hrange'⟩, hmotion, Eq.trans ?_ hscan.symm⟩
    rcases hside' with hside' | hside' <;> exact beq_eq_false_iff_ne.mpr (by rw [hside']; decide)
  · rw [hauto, beq_self_eq_true, if_pos rfl] at hspeed hmode
    have hmode' : Field.pan.get q.flags = ccPanAuto := hmode.trans (by decide)
    have hstill : ∀ v : Int, towards ccPanRight ccPanLeft ccPanAuto v = 0 := fun _ => rfl
    refine ⟨Or.inr ⟨hmode', hspeed⟩, ?_, by rw [motionOf, motionOf, hmode', hauto]⟩
    rw [motionOf, motionOf, hmode', hauto, hstill, hstill]
    rfl

/-- **A command of Pelco**, as it is read: the same motion, in the speeds there are. -/
theorem Movable.sensed (h : Movable pkt) (hnodup : ((c.commandBits pkt).map Prod.fst).Nodup) {cc : CcFlags}
    (hq : Sensed c.bits (c.commandMess pkt) false (Field.pan.get pkt.flags == ccPanAuto) cc ccPanAuto q) :
    Movable q ∧ q.receiver = pkt.receiver ∧ motionOf q = (motionOf pkt).rounded := by
  have hb := c.bits_inCommand
  have hreceiver : q.receiver = pkt.receiver := by
    rw [hq.receiver, Codec.getD_commandMess_one, Codec.toNat_receiver h.receiver]
  obtain ⟨htilt, htilt'⟩ := h.tilt_sensed hnodup hq.tilt (hq.get .tilt (by decide) (by decide))
  obtain ⟨hpan, hpan', hscan⟩ := h.pan_sensed hnodup hq.pan hq.panMode
  -- the lens has no speeds, and its fields come as they were
  obtain ⟨hzoomIn, hzoomOut⟩ := bitIsSet_pair hnodup (fun e he => List.mem_append_left _ he : ∀ e ∈ zoomMoves pkt, _)
    (by decide) (by decide)
  obtain ⟨hnear, hfar⟩ := bitIsSet_pair hnodup
    (fun e he => List.mem_append_right _ (List.mem_append_left _ he) : ∀ e ∈ focusMoves c.bits pkt, _)
    hb.focusNear hb.focusFar
  obtain ⟨hopen, hclose⟩ := bitIsSet_pair hnodup
    (fun e he => List.mem_append_right _ (List.mem_append_right _ (List.mem_append_left _ he)) :
      ∀ e ∈ irisMoves c.bits pkt, _) hb.irisOpen hb.irisClose
  have hzoom : Field.zoom.get q.flags = Field.zoom.get pkt.flags := by
    refine (hq.get .zoom (by decide) (by decide)).trans ?_
    rw [if_pos rfl, hzoomIn, hzoomOut]
    refine choose_get ((Field.zoom.get_mem pkt.flags).imp_right fun hmem => ?_)
    simpa [Field.members] using hmem
  have hfocus : Field.focus.get q.flags = Field.focus.get pkt.flags := by
    refine (hq.get .focus (by decide) (by decide)).trans ?_
    rw [if_neg (by decide), if_pos rfl, hnear, hfar]
    refine choose_get ((Field.focus.get_mem pkt.flags).imp_right fun hmem => ?_)
    simpa [Field.members, h.focus] using hmem
  have hiris : Field.iris.get q.flags = Field.iris.get pkt.flags := by
    refine (hq.get .iris (by decide) (by decide)).trans ?_
    rw [if_neg (by decide), if_neg (by decide), if_pos rfl, hopen, hclose]
    refine choose_get ((Field.iris.get_mem pkt.flags).imp_right fun hmem => ?_)
    simpa [Field.members, h.iris, or_comm] using hmem
  refine ⟨⟨by rw [hreceiver]; exact h.receiver, hpan, htilt, by rw [hfocus]; exact h.focus,
    by rw [hiris]; exact h.iris, hq.preset, ?_⟩, hreceiver, ?_⟩
  · rintro x (rfl | rfl | rfl | rfl | rfl)
    · exact hq.camera
    all_goals exact hq.get _ (by decide) (by decide)
  · have hmotion : motionOf q = ⟨(motionOf q).pan, (motionOf q).scan, (motionOf q).tilt, Field.zoom.get q.flags,
        Field.focus.get q.flags, Field.iris.get q.flags⟩ := rfl
    rw [hmotion, hpan', hscan, htilt', hzoom, hfocus, hiris]
    rfl

end

theorem Movable.presetMode (h : Movable pkt) : ccpacketGetPresetMode pkt = 0 := by
  rw [ccpacketGetPresetMode_eq]
  exact if_pos (le_of_eq h.preset)

/-- Such a packet is one message of Pelco. -/
theorem Movable.messages (h : Movable pkt) (c : Codec) : c.messages (adjustMenuCommands pkt) = [c.commandMess pkt] := by
  rw [adjustMenuCommands_of_none (h.rest .menu (by decide))]
  have htilt : Field.tilt.get pkt.flags ≠ 0 := by
    rcases h.tilt.1 with hside | hside <;> rw [hside] <;> decide
  have hcmd : hasCommands pkt = true := by
    unfold hasCommands ccpacketHasCommand
    rw [ccpacketGetTiltMode_eq, bne_iff_ne.mpr htilt, Bool.or_true]
    rfl
  have hnowiper : ¬ccpacketGetWiper pkt ≠ 0 := not_not.mpr (h.rest .wiper (by decide))
  rw [Codec.messages, if_pos hcmd, if_neg (not_not.mpr h.presetMode), if_neg hnowiper]
  rfl

/-- A packet with another time, or other flags for the same fields, moves the camera as well. -/
theorem Movable.congr (h : Movable pkt) (hsame : SameFields pkt q) :
    Movable q ∧ q.receiver = pkt.receiver ∧ motionOf q = motionOf pkt := by
  have hget : ∀ x, x ≠ Field.preset → x.get q.flags = x.get pkt.flags := hsame.get
  refine ⟨⟨?_, ?_, ?_, ?_, ?_, hsame.preset.trans h.preset, ?_⟩, hsame.receiver, ?_⟩
  · rw [hsame.receiver]
    exact h.receiver
  · rw [hget .pan (by decide), hsame.pan]
    exact h.pan
  · rw [hget .tilt (by decide), hsame.tilt]
    exact h.tilt
  · rw [hget .focus (by decide)]
    exact h.focus
  · rw [hget .iris (by decide)]
    exact h.iris
  · intro x hx
    rw [hget x (by rcases hx with rfl | rfl | rfl | rfl | rfl <;> decide)]
    exact h.rest x hx
  · rw [motionOf, motionOf, hget .pan (by decide), hget .tilt (by decide), hget .zoom (by decide),
      hget .focus (by decide), hget .iris (by decide), hsame.pan, hsame.tilt]

/-! ## Vicon -/

/-- The packet without the sides that have no speed: Vicon sends none of them. -/
def settled (pkt : Ccpacket) : Ccpacket :=
  let panned :=
    if pkt.pan = 0 ∧ Field.pan.get pkt.flags ≠ ccPanAuto then Field.pan.set ccPanLeft pkt.flags else pkt.flags
  { pkt with flags := if pkt.tilt = 0 then Field.tilt.set ccTiltDown panned else panned }

theorem get_settled (x : Field) : x.get (settled pkt).flags =
    if x = .tilt ∧ pkt.tilt = 0 then ccTiltDown
    else if x = .pan ∧ pkt.pan = 0 ∧ Field.pan.get pkt.flags ≠ ccPanAuto then ccPanLeft
    else x.get pkt.flags := by
  have hpanned : x.get (if pkt.pan = 0 ∧ Field.pan.get pkt.flags ≠ ccPanAuto then Field.pan.set ccPanLeft pkt.flags
      else pkt.flags) = if x = .pan ∧ pkt.pan = 0 ∧ Field.pan.get pkt.flags ≠ ccPanAuto then ccPanLeft
        else x.get pkt.flags := by
    by_cases hstill : pkt.pan = 0 ∧ Field.pan.get pkt.flags ≠ ccPanAuto
    · rw [if_pos hstill, Field.get_set, Field.get_of_mem (by decide)]
      exact if_congr (and_iff_left hstill).symm rfl rfl
    · rw [if_neg hstill, if_neg fun hand => hstill hand.2]
  unfold settled
  dsimp only
  by_cases hstill : pkt.tilt = 0
  · rw [if_pos hstill, Field.get_set, Field.get_of_mem (by decide), hpanned]
    exact if_congr (and_iff_left hstill).symm rfl rfl
  · rw [if_neg hstill, hpanned]
    exact (if_neg fun hand => hstill hand.2).symm

theorem get_settled_of_ne {x : Field} (hpan : x ≠ .pan) (htilt : x ≠ .tilt) :
    x.get (settled pkt).flags = x.get pkt.flags := by
  rw [get_settled, if_neg fun hand => htilt hand.1, if_neg fun hand => hpan hand.1]

theorem movable_settled (h : Movable pkt) : Movable (settled pkt) where
  receiver := h.receiver
  pan := by
    rw [get_settled, if_neg fun hand => absurd hand.1 (by decide)]
    change (_ ∧ 0 ≤ pkt.pan ∧ pkt.pan ≤ speedMax ∨ _ ∧ pkt.pan = 0)
    split
    · rename_i hstill
      exact Or.inl ⟨Or.inl rfl, by rw [hstill.2.1]; decide⟩
    · exact h.pan
  tilt := by
    rw [get_settled]
    change (_ ∧ 0 ≤ pkt.tilt ∧ pkt.tilt ≤ speedMax)
    refine ⟨?_, h.tilt.2⟩
    split
    · exact Or.inr rfl
    · rw [if_neg fun hand => absurd hand.1 (by decide)]
      exact h.tilt.1
  focus := by
    rw [get_settled_of_ne (by decide) (by decide)]
    exact h.focus
  iris := by
    rw [get_settled_of_ne (by decide) (by decide)]
    exact h.iris
  preset := h.preset
  rest x hx := by
    rw [get_settled_of_ne (by rcases hx with rfl | rfl | rfl | rfl | rfl <;> decide)
      (by rcases hx with rfl | rfl | rfl | rfl | rfl <;> decide)]
    exact h.rest x hx

theorem towards_zero (m m' side : CcFlags) : towards m m' side 0 = 0 := by
  unfold towards
  rw [Int.neg_zero, ite_self, ite_self]

theorem motionOf_settled : motionOf (settled pkt) = motionOf pkt := by
  have hpan : (motionOf (settled pkt)).pan = (motionOf pkt).pan ∧
      (motionOf (settled pkt)).scan = (motionOf pkt).scan := by
    have hget := @get_settled pkt .pan
    rw [if_neg fun hand => absurd hand.1 (by decide)] at hget
    change towards _ _ (Field.pan.get (settled pkt).flags) pkt.pan = towards _ _ _ pkt.pan ∧
      (Field.pan.get (settled pkt).flags == ccPanAuto) = (Field.pan.get pkt.flags == ccPanAuto)
    rw [hget]
    split
    · rename_i hstill
      rw [hstill.2.1, towards_zero, towards_zero, beq_eq_false_iff_ne.mpr hstill.2.2]
      exact ⟨rfl, rfl⟩
    · exact ⟨rfl, rfl⟩
  have htilt : (motionOf (settled pkt)).tilt = (motionOf pkt).tilt := by
    have hget := @get_settled pkt .tilt
    rw [if_neg fun hand : Field.tilt = .pan ∧ _ => absurd hand.1 (by decide)] at hget
    change towards _ _ (Field.tilt.get (settled pkt).flags) pkt.tilt = towards _ _ _ pkt.tilt
    rw [hget]
    split
    · rename_i hstill
      rw [hstill.2, towards_zero, towards_zero]
    · rfl
  have hmotion : motionOf (settled pkt) = ⟨(motionOf (settled pkt)).pan, (motionOf (settled pkt)).scan,
      (motionOf (settled pkt)).tilt, Field.zoom.get (settled pkt).flags, Field.focus.get (settled pkt).flags,
      Field.iris.get (settled pkt).flags⟩ := rfl
  rw [hmotion, hpan.1, hpan.2, htilt, get_settled_of_ne (by decide) (by decide),
    get_settled_of_ne (by decide) (by decide), get_settled_of_ne (by decide) (by decide)]
  rfl

/-- A settled packet comes back from Vicon. -/
theorem Movable.carried (h : Movable pkt) : Vicon.Carried (settled pkt) where
  receiver := ⟨h.receiver.1, h.receiver.2.trans (by decide : (254 : Int) ≤ 255)⟩
  menu := (movable_settled h).rest .menu (by decide)
  camera := (movable_settled h).rest .camera (by decide)
  wiper := Or.inl ((movable_settled h).rest .wiper (by decide))
  focus := (movable_settled h).focus
  pan := by
    rw [ccpacketGetPanMode_eq]
    have hget := @get_settled pkt .pan
    rw [if_neg fun hand => absurd hand.1 (by decide)] at hget
    change (_ ∧ 1 ≤ pkt.pan ∧ pkt.pan ≤ 2047 ∨ _ ∧ pkt.pan = 0)
    rcases h.pan with ⟨hside, hrange⟩ | ⟨hauto, hzero⟩
    · rw [hget]
      by_cases hstill : pkt.pan = 0
      · refine Or.inr ⟨Or.inl (if_pos ⟨rfl, hstill, ?_⟩), hstill⟩
        rcases hside with hside | hside <;> rw [hside] <;> decide
      · rw [if_neg fun hand => hstill hand.2.1]
        exact Or.inl ⟨hside, by omega, hrange.2⟩
    · rw [if_neg fun hand => hand.2.2 hauto] at hget
      exact Or.inr ⟨Or.inr (hget.trans hauto), hzero⟩
  tilt := by
    rw [ccpacketGetTiltMode_eq, get_settled, if_neg fun hand : Field.tilt = .pan ∧ _ => absurd hand.1 (by decide)]
    change (_ ∧ 1 ≤ pkt.tilt ∧ pkt.tilt ≤ 2047 ∨ _ ∧ pkt.tilt = 0)
    by_cases hstill : pkt.tilt = 0
    · exact Or.inr ⟨if_pos ⟨rfl, hstill⟩, hstill⟩
    · obtain ⟨hside, hrange⟩ := h.tilt
      rw [if_neg fun hand => hstill hand.2]
      exact Or.inl ⟨hside, by omega, hrange.2⟩
  preset := Or.inl ⟨(movable_settled h).presetMode, h.preset⟩

/-- A side without a speed plays no part. -/
theorem direction_congr {b b' : Bool} {x x' m m' : CcFlags} {bit bit' : Nat} (mess : List Byte) (hb : b' = b)
    (hx : b = true → x' = x) :
    (if b' then if x' = m then bitSet mess bit else if x' = m' then bitSet mess bit' else mess else mess) =
      if b then if x = m then bitSet mess bit else if x = m' then bitSet mess bit' else mess else mess := by
  rw [hb]
  cases b with
  | true => rw [hx rfl]
  | false => rfl

theorem hasPan_settled : ccpacketHasPan (settled pkt) = ccpacketHasPan pkt ∧
    (ccpacketHasPan pkt = true → ccpacketGetPanMode (settled pkt) = ccpacketGetPanMode pkt) := by
  unfold ccpacketHasPan
  change (_ && pkt.pan != 0) = _ ∧ _
  by_cases hstill : pkt.pan = 0
  · rw [hstill, bne_self_eq_false, Bool.and_false, Bool.and_false]
    exact ⟨rfl, fun hno => absurd hno Bool.false_ne_true⟩
  · rw [ccpacketGetPanMode_eq, get_settled, if_neg fun hand => absurd hand.1 (by decide),
      if_neg fun hand => hstill hand.2.1]
    exact ⟨rfl, fun _ => rfl⟩

theorem hasTilt_settled : ccpacketHasTilt (settled pkt) = ccpacketHasTilt pkt ∧
    (ccpacketHasTilt pkt = true → ccpacketGetTiltMode (settled pkt) = ccpacketGetTiltMode pkt) := by
  unfold ccpacketHasTilt
  change (_ && pkt.tilt != 0) = _ ∧ _
  by_cases hstill : pkt.tilt = 0
  · rw [hstill, bne_self_eq_false, Bool.and_false, Bool.and_false]
    exact ⟨rfl, fun hno => absurd hno Bool.false_ne_true⟩
  · rw [ccpacketGetTiltMode_eq, get_settled, if_neg fun hand => hstill hand.2,
      if_neg fun hand => absurd hand.1 (by decide)]
    exact ⟨rfl, fun _ => rfl⟩

theorem encodePanTilt_settled (mess : List Byte) :
    Vicon.encodePanTilt mess (settled pkt) = Vicon.encodePanTilt mess pkt := by
  unfold Vicon.encodePanTilt
  dsimp only
  rw [direction_congr mess hasPan_settled.1 hasPan_settled.2]
  exact direction_congr _ hasTilt_settled.1 hasTilt_settled.2

theorem encodeFields_settled (mess : List Byte) :
    Vicon.encodeFields mess (settled pkt) = Vicon.encodeFields mess pkt := by
  have hauto : ccpacketGetPanMode (settled pkt) = ccPanAuto ↔ ccpacketGetPanMode pkt = ccPanAuto := by
    rw [ccpacketGetPanMode_eq, ccpacketGetPanMode_eq, get_settled, if_neg fun hand => absurd hand.1 (by decide)]
    split
    · rename_i hstill
      exact iff_of_false (by decide) hstill.2.2
    · exact Iff.rfl
  have hget := fun x (hpan : x ≠ Field.pan) (htilt : x ≠ .tilt) => @get_settled_of_ne pkt x hpan htilt
  have hlens : ccpacketGetIris (settled pkt) = ccpacketGetIris pkt ∧
      ccpacketGetFocus (settled pkt) = ccpacketGetFocus pkt ∧ ccpacketGetZoom (settled pkt) = ccpacketGetZoom pkt :=
    ⟨hget .iris (by decide) (by decide), hget .focus (by decide) (by decide), hget .zoom (by decide) (by decide)⟩
  have htoggles : ccpacketGetAck (settled pkt) = ccpacketGetAck pkt ∧
      ccpacketGetLens (settled pkt) = ccpacketGetLens pkt ∧ ccpacketGetWiper (settled pkt) = ccpacketGetWiper pkt :=
    ⟨hget .ack (by decide) (by decide), hget .lens (by decide) (by decide), hget .wiper (by decide) (by decide)⟩
  unfold Vicon.encodeFields Vicon.encodeAux Vicon.encodeToggles Vicon.encodeLens
  simp only [hauto, hlens, htoggles]

/-- Vicon sends the same for a settled packet. -/
theorem Movable.written_settled (h : Movable pkt) : Vicon.written (settled pkt) = Vicon.written pkt := by
  have hpreset : ccpacketGetPresetMode (settled pkt) = ccpacketGetPresetMode pkt := by
    rw [h.presetMode, (movable_settled h).presetMode]
  have hwiper : ccpacketGetWiper (settled pkt) = ccpacketGetWiper pkt :=
    @get_settled_of_ne pkt .wiper (by decide) (by decide)
  have hbase : ∀ n sets, Vicon.base n sets (settled pkt) = Vicon.base n sets pkt := fun n sets => by
    unfold Vicon.base
    rw [encodePanTilt_settled, encodeFields_settled]
    rfl
  unfold Vicon.written Vicon.speedMess Vicon.commandMess Vicon.isExtendedPreset Vicon.encodePreset
    Vicon.isExtendedSpeed
  rw [hpreset, hbase, hbase, hasPan_settled.1, hasTilt_settled.1, hwiper, h.presetMode]
  rfl

/-- **Vicon**: all of the motion comes back. -/
theorem Movable.readBack_vicon (h : Movable pkt) (now : Timeval) (timeout : Nat) (flags : BitVec 32) :
    ∃ q, readBack Vicon.doRead now timeout flags (Vicon.doWrite (bufferInit bufferSize) pkt).1 = some [q] ∧
      Movable q ∧ q.receiver = pkt.receiver ∧ motionOf q = motionOf pkt := by
  have hcarried := h.carried
  have hcodes := Vicon.codes_message hcarried
  have hwrite : (Vicon.doWrite (bufferInit bufferSize) pkt).1.data = Vicon.message (settled pkt) := by
    rw [Vicon.doWrite_eq ⟨h.receiver.1, by have := h.receiver.2; omega⟩ (h.rest .menu (by decide)),
      ← h.written_settled, hcarried.written]
    refine (@ccwriterAppend_of_le (bufferInit bufferSize) (Vicon.message (settled pkt)) ?_).1
    rw [hcodes.size]
    exact (Vicon.messageSize_le _).trans (by decide)
  set blank := (oneWriter now timeout flags).packet with hblank
  have hflags : blank.flags = 0 := rfl
  have hsame := Vicon.sameFields_delivered hcodes.toCarries hcarried hflags rfl
  have hdecode := hcodes.decode flags blank
  have hreach : InReach (Vicon.decode flags (Vicon.message (settled pkt)) blank) := by
    have hrange := hcarried.receiver
    rw [hdecode, InReach, hsame.receiver]
    omega
  have hread := readBack_single (Vicon.doRead_reads (recorder now)) (fun _ _ => if_pos hcodes.command)
    (by rw [hwrite]; exact Vicon.frames_message hcarried) hreach
  have hsame' : SameFields (settled pkt)
      (ccpacketSetTimeout now (Vicon.decode flags (Vicon.message (settled pkt)) blank) timeout) := by
    rw [hdecode]
    exact ⟨hsame.receiver, hsame.pan, hsame.tilt, hsame.preset, hsame.presetMode, hsame.get⟩
  obtain ⟨hmovable, hreceiver, hmotion⟩ := (movable_settled h).congr hsame'
  exact ⟨_, hread, hmovable, hreceiver, hmotion.trans motionOf_settled⟩

/-! ## Pelco -/

/-- The time of a packet is no part of the motion. -/
theorem Movable.setTimeout {m : Motion} {r : Int} (h : Movable q ∧ q.receiver = r ∧ motionOf q = m) (now : Timeval)
    (timeout : Nat) : Movable (ccpacketSetTimeout now q timeout) ∧ (ccpacketSetTimeout now q timeout).receiver = r ∧
      motionOf (ccpacketSetTimeout now q timeout) = m := by
  obtain ⟨hmovable, hreceiver, hmotion⟩ := h
  obtain ⟨hmovable', hreceiver', hmotion'⟩ :=
    hmovable.congr (⟨rfl, rfl, rfl, rfl, rfl, fun _ _ => rfl⟩ : SameFields q (ccpacketSetTimeout now q timeout))
  exact ⟨hmovable', hreceiver'.trans hreceiver, hmotion'.trans hmotion⟩

/-- **Pelco D**: the motion comes back rounded. -/
theorem Movable.readBack_pelcoD (h : Movable pkt) (now : Timeval) (timeout : Nat) (flags : BitVec 32) :
    ∃ q, readBack PelcoD.doRead now timeout flags (PelcoD.doWrite (bufferInit bufferSize) pkt).1 = some [q] ∧
      Movable q ∧ q.receiver = pkt.receiver ∧ motionOf q = (motionOf pkt).rounded := by
  have hpacket : PelcoD.packetOf flags (PelcoD.codec.commandMess pkt) =
      PelcoD.pelcoDecodeCommand (ccpacketCreate ⟨0, 0⟩) (PelcoD.codec.commandMess pkt) :=
    @Codec.decodeBy_command pkt PelcoD.codec PelcoD.pelcoDecodeCommand _ (by rw [PelcoD.commandBits_keys]; decide)
  have hsensed : Sensed PelcoD.lensBits (PelcoD.codec.commandMess pkt) false
      (Field.pan.get pkt.flags == ccPanAuto) ccCameraOn ccPanAuto
      (PelcoD.packetOf flags (PelcoD.codec.commandMess pkt)) := by
    rw [hpacket, PelcoD.decodeCommand_commandMess, h.rest .camera (by decide)]
    cases Field.pan.get pkt.flags == ccPanAuto with
    | true => exact sensed_decodeSensed rfl rfl false true (by decide) ccPanAuto
    | false => exact sensed_decodeSensed rfl rfl false false (by decide) ccPanAuto
  refine ⟨_, ?_, Movable.setTimeout (h.sensed (PelcoD.commandBits_nodup pkt) hsensed) now timeout⟩
  rw [PelcoD.readBack_doWrite h.receiver now timeout flags rfl, h.messages]
  rfl

/-- **Pelco P**: the motion comes back rounded, in the same way. -/
theorem Movable.readBack_pelcoP (h : Movable pkt) (now : Timeval) (timeout : Nat) {flags : BitVec 32}
    (hflags : flags &&& ptDeadzone = 0) :
    ∃ q, readBack PelcoP.doRead now timeout flags (PelcoP.doWrite (bufferInit bufferSize) pkt).1 = some [q] ∧
      Movable q ∧ q.receiver = pkt.receiver ∧ motionOf q = (motionOf pkt).rounded := by
  have hpacket : PelcoP.packetOf flags (PelcoP.codec.commandMess pkt) =
      PelcoP.pelcoDecodeCommand flags (ccpacketCreate ⟨0, 0⟩) (PelcoP.codec.commandMess pkt) :=
    @Codec.decodeBy_command pkt PelcoP.codec (PelcoP.pelcoDecodeCommand flags) _
      (by rw [PelcoP.commandBits_keys]; decide)
  have hsensed : Sensed PelcoP.lensBits (PelcoP.codec.commandMess pkt) false
      (Field.pan.get pkt.flags == ccPanAuto) ccCameraOff ccPanAuto
      (PelcoP.packetOf flags (PelcoP.codec.commandMess pkt)) := by
    rw [hpacket, PelcoP.decodeCommand_commandMess hflags, h.rest .camera (by decide)]
    exact sensed_decodeSensed rfl rfl false _ (by decide) ccPanAuto
  refine ⟨_, ?_, Movable.setTimeout (h.sensed (PelcoP.commandBits_nodup pkt) hsensed) now timeout⟩
  rw [PelcoP.readBack_doWrite h.receiver now timeout flags rfl, h.messages]
  rfl

/-! ## Any number of links -/

open Engine

/-- The protocols of the links. -/
inductive Link where
  | vicon
  | pelcoD
  | pelcoP
  deriving DecidableEq

/-- The protocol it is written in. -/
def Link.protocol : Link → Engine.Protocol
  | vicon => .vicon
  | pelcoD => .pelcoD
  | pelcoP => .pelcoP

/-- The protocol it is read in. -/
def Link.reader : Link → Reader
  | vicon => .vicon
  | pelcoD => .pelcoD
  | pelcoP => .pelcoP

/-- A writer, and the reader at the other end: its clock, its timeout and its flags. -/
structure Hop where
  link : Link
  now : Timeval
  timeout : Nat
  flags : BitVec 32
  noDeadzone : flags &&& ptDeadzone = 0

/-- The packet that comes out of a link, if there is exactly one. -/
def Hop.carry (hop : Hop) (pkt : Ccpacket) : Option Ccpacket :=
  match readBack hop.link.reader.doRead hop.now hop.timeout hop.flags
      (hop.link.protocol.doWrite none true (bufferInit bufferSize) pkt).1 with
  | some [q] => some q
  | _ => none

/-- One link behind the other. -/
def relay : List Hop → Ccpacket → Option Ccpacket
  | [], pkt => some pkt
  | hop :: hops, pkt => (hop.carry pkt).bind (relay hops)

/-- What a link makes of a motion. -/
def Hop.motion (hop : Hop) (m : Motion) : Motion := if hop.link = .vicon then m else m.rounded

theorem Movable.carry (h : Movable pkt) (hop : Hop) : ∃ q, hop.carry pkt = some q ∧
    Movable q ∧ q.receiver = pkt.receiver ∧ motionOf q = hop.motion (motionOf pkt) := by
  obtain ⟨link, now, timeout, flags, hflags⟩ := hop
  cases link with
  | vicon =>
    obtain ⟨q, hread, hq⟩ := h.readBack_vicon now timeout flags
    refine ⟨q, ?_, hq⟩
    unfold Hop.carry Link.reader Link.protocol Reader.doRead Protocol.doWrite
    rw [hread]
  | pelcoD =>
    obtain ⟨q, hread, hq⟩ := h.readBack_pelcoD now timeout flags
    refine ⟨q, ?_, hq⟩
    unfold Hop.carry Link.reader Link.protocol Reader.doRead Protocol.doWrite
    rw [hread]
  | pelcoP =>
    obtain ⟨q, hread, hq⟩ := h.readBack_pelcoP now timeout hflags
    refine ⟨q, ?_, hq⟩
    unfold Hop.carry Link.reader Link.protocol Reader.doRead Protocol.doWrite
    rw [hread]

/-- Motions that differ by a step at most, and by no direction. -/
structure Motion.Near (m m' : Motion) : Prop where
  pan : |m'.pan - m.pan| ≤ 31 ∧ 0 ≤ m'.pan * m.pan
  tilt : |m'.tilt - m.tilt| ≤ 31 ∧ 0 ≤ m'.tilt * m.tilt
  rest : m'.scan = m.scan ∧ m'.zoom = m.zoom ∧ m'.focus = m.focus ∧ m'.iris = m.iris

theorem abs_towards_le {m m' side : CcFlags} {v : Int} (h : 0 ≤ v ∧ v ≤ speedMax) :
    |towards m m' side v| ≤ speedMax := by
  unfold towards
  rw [abs_le]
  split
  · omega
  split
  · omega
  · rw [Int.neg_nonpos_iff]
    exact ⟨by decide, by decide⟩

theorem Movable.range (h : Movable pkt) : |(motionOf pkt).pan| ≤ speedMax ∧ |(motionOf pkt).tilt| ≤ speedMax := by
  refine ⟨abs_towards_le ?_, abs_towards_le h.tilt.2⟩
  rcases h.pan with ⟨-, hrange⟩ | ⟨-, hzero⟩
  · exact hrange
  · rw [hzero]
    decide

theorem Motion.near_self (m : Motion) : m.Near m where
  pan := ⟨by rw [sub_self, abs_zero]; decide, mul_self_nonneg _⟩
  tilt := ⟨by rw [sub_self, abs_zero]; decide, mul_self_nonneg _⟩
  rest := ⟨rfl, rfl, rfl, rfl⟩

theorem Motion.near_rounded {m : Motion} (h : |m.pan| ≤ speedMax ∧ |m.tilt| ≤ speedMax) : m.Near m.rounded where
  pan := ⟨rounds_panLevel.signed_near h.1, rounds_panLevel.signed_mul_nonneg h.1⟩
  tilt := ⟨rounds_tiltLevel.signed_near h.2, rounds_tiltLevel.signed_mul_nonneg h.2⟩
  rest := ⟨rfl, rfl, rfl, rfl⟩

/-- Rounding twice is rounding once. -/
theorem Motion.rounded_rounded {m : Motion} (h : |m.pan| ≤ speedMax ∧ |m.tilt| ≤ speedMax) :
    m.rounded.rounded = m.rounded := by
  have hpan := rounds_panLevel.signed_idem h.1
  have htilt := rounds_tiltLevel.signed_idem h.2
  unfold Motion.rounded
  dsimp only
  rw [hpan, htilt]

/-- **Any number of links**: of a packet that only moves a camera, exactly one comes out of every
link. It has its receiver, and the motion that was sent, which has been rounded once if any link is
not Vicon. -/
theorem relay_motion (h : Movable pkt) (hops : List Hop) : ∃ q, relay hops pkt = some q ∧ Movable q ∧
    q.receiver = pkt.receiver ∧ (motionOf pkt).Near (motionOf q) ∧
    motionOf q = if ∃ hop ∈ hops, hop.link ≠ .vicon then (motionOf pkt).rounded else motionOf pkt := by
  -- the motion of what comes out decides whether it is near
  suffices hmotion : ∃ q, relay hops pkt = some q ∧ Movable q ∧ q.receiver = pkt.receiver ∧
      motionOf q = if ∃ hop ∈ hops, hop.link ≠ .vicon then (motionOf pkt).rounded else motionOf pkt by
    obtain ⟨q, hrelay, hq, hreceiver, hmotion⟩ := hmotion
    refine ⟨q, hrelay, hq, hreceiver, ?_, hmotion⟩
    rw [hmotion]
    split
    · exact Motion.near_rounded h.range
    · exact Motion.near_self _
  induction hops generalizing pkt with
  | nil => exact ⟨pkt, rfl, h, rfl, (if_neg (by simp)).symm⟩
  | cons hop hops ih =>
    obtain ⟨p, hcarry, hp, hreceiver, hmotion⟩ := h.carry hop
    obtain ⟨q, hrelay, hq, hreceiver', hmotion'⟩ := ih hp
    refine ⟨q, by rw [relay, hcarry]; exact hrelay, hq, hreceiver'.trans hreceiver, ?_⟩
    rw [hmotion', hmotion]
    unfold Hop.motion
    by_cases hlink : hop.link = .vicon
    · rw [if_pos hlink]
      refine if_congr ?_ rfl rfl
      simp [hlink]
    · refine Eq.trans ?_ (if_pos ⟨hop, List.mem_cons_self, hlink⟩).symm
      rw [if_neg hlink, Motion.rounded_rounded h.range, ite_self]

/-- Receiver 7: to the right and upwards, and nearer. -/
def rightAndUp : Ccpacket :=
  ccpacketSetFocus (ccpacketSetTilt (ccpacketSetPan (ccpacketSetReceiver (ccpacketCreate ⟨0, 0⟩) 7) ccPanRight 1000)
    ccTiltUp 2047) ccFocusNear

theorem movable_rightAndUp : Movable rightAndUp where
  receiver := by decide
  pan := by decide
  tilt := by decide
  focus := by decide
  iris := by decide
  preset := by decide
  rest := by
    rintro x (rfl | rfl | rfl | rfl | rfl) <;> rfl

/-- From Vicon to Pelco D, to Vicon again and to Pelco P. -/
def fourHops : List Hop :=
  [⟨.vicon, ⟨0, 0⟩, 30000, 0, rfl⟩, ⟨.pelcoD, ⟨0, 0⟩, 15000, 0, rfl⟩, ⟨.vicon, ⟨1, 0⟩, 30000, 0, rfl⟩,
    ⟨.pelcoP, ⟨2, 0⟩, 15000, 0, rfl⟩]

/-- The speed to the right becomes 992, the one upwards 2016. -/
theorem relay_motion_rightAndUp : ∃ q, relay fourHops rightAndUp = some q ∧ Movable q ∧
    q.receiver = rightAndUp.receiver ∧ (motionOf rightAndUp).Near (motionOf q) ∧
    motionOf q = if ∃ hop ∈ fourHops, hop.link ≠ .vicon then (motionOf rightAndUp).rounded
      else motionOf rightAndUp :=
  relay_motion movable_rightAndUp fourHops

example : (motionOf rightAndUp).rounded.pan = 992 ∧ (motionOf rightAndUp).rounded.tilt = 2016 := by decide

end Protozoa
