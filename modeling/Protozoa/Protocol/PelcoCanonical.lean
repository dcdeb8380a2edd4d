import Protozoa.Protocol.PelcoCodec

/-!
# Canonical Pelco messages

A canonical message has nothing a packet cannot carry: at most one bit of each pair of commands,
speeds only where there is a direction, and, if it is extended, a function that is known with its
number (`CanonicalMoves`, `CanonicalExtended`).

* `encodeSpeed_level`, `encodePanSpeed_level`: the 64 speeds of Pelco, and turbo, come back.
* `Sensed` is what decoding a command leaves in a blank packet, and `agrees_sensed` that its table
  of bits is the message's.
* `messages_moved`, `messages_isPreset`, `messages_wiper`: which of the three messages are due for
  such a packet.
* `messages_extended`: an extended message is written again as itself.

All of it is over a `Codec`, so that it is proved once for both protocols.
-/

namespace Protozoa

open Pelco

variable {mess : List Byte} {pkt : Ccpacket} {bits : LensBits}

namespace Pelco

/-! ## Canonical commands -/

theorem encodeSpeed_level {n : Nat} (h : n < 64) : encodeSpeed (32 * n : Nat) = n := by
  unfold encodeSpeed turboSpeed
  rw [Int.shiftRight_eq_div_pow, Int.shiftRight_eq_div_pow, Int.tmod_eq_emod_of_nonneg (by omega)]
  rw [if_pos (by omega)]
  omega

theorem levelSpeed_of_lt {val : Byte} (h : val.toNat < 64) :
    levelSpeed val = (32 * val.toNat : Nat) := by
  unfold levelSpeed speedMax
  rw [Nat.shiftLeft_eq, if_neg (by omega)]
  omega

/-- Each level of pan has its speed. -/
theorem encodePanSpeed_level {val : Byte} (h : val.toNat ≤ 64) :
    encodePanSpeed (clampSpeed (levelSpeed val)) = val.toNat := by
  rcases Nat.lt_or_eq_of_le h with hlt | heq
  · have hclamp : clampSpeed (levelSpeed val) = (32 * val.toNat : Nat) := by
      rw [levelSpeed_of_lt hlt, clampSpeed, speedMax, if_neg (by omega), if_neg (by omega)]
    rw [hclamp, encodePanSpeed, speedMax, if_neg (by omega), encodeSpeed_level hlt]
  · have hturbo : val = 64 := BitVec.eq_of_toNat_eq heq
    rw [hturbo]
    decide

theorem clampSpeed_level_ne {val : Byte} (h : 1 ≤ val.toNat) : clampSpeed (levelSpeed val) ≠ 0 := by
  have hpos : 0 < levelSpeed val := by
    unfold levelSpeed
    rw [Nat.shiftLeft_eq]
    split
    · decide
    · omega
  unfold clampSpeed speedMax
  split
  · omega
  · split <;> omega

/-- A command with at most one bit of each pair, and speeds where there is a direction. -/
structure CanonicalMoves (bits : LensBits) (mess : List Byte) : Prop where
  pan : ¬(bitIsSet mess bitPanRight ∧ bitIsSet mess bitPanLeft)
  tilt : ¬(bitIsSet mess bitTiltUp ∧ bitIsSet mess bitTiltDown)
  zoom : ¬(bitIsSet mess bitZoomIn ∧ bitIsSet mess bitZoomOut)
  focus : ¬(bitIsSet mess bits.focusNear ∧ bitIsSet mess bits.focusFar)
  iris : ¬(bitIsSet mess bits.irisOpen ∧ bitIsSet mess bits.irisClose)
  panSpeed : if bitIsSet mess bitPanRight ∨ bitIsSet mess bitPanLeft
    then 1 ≤ (mess.getD 4 0).toNat ∧ (mess.getD 4 0).toNat ≤ 64 else mess.getD 4 0 = 0
  tiltSpeed : if bitIsSet mess bitTiltUp ∨ bitIsSet mess bitTiltDown
    then 1 ≤ (mess.getD 5 0).toNat ∧ (mess.getD 5 0).toNat ≤ 63 else mess.getD 5 0 = 0

/-- A pair of commands that the packet holds by its field. -/
theorem agrees_choose {a b : Nat} {x m m' : CcFlags}
    (hx : x = if bitIsSet mess a then m else if bitIsSet mess b then m' else 0)
    (hex : ¬(bitIsSet mess a ∧ bitIsSet mess b)) (hm : m ≠ 0) (hm' : m' ≠ 0) (hne : m ≠ m') :
    Agrees mess [(a, x == m), (b, x == m')] := by
  obtain ⟨h, h'⟩ := choose_iff hex hm hm' hne
  rw [← hx] at h h'
  exact agrees_pair (by rw [Bool.eq_iff_iff, beq_iff_eq, h]) (by rw [Bool.eq_iff_iff, beq_iff_eq, h'])

/-- A direction that counts if there is a bit for one. -/
theorem agrees_direction {a b : Nat} {d : Bool} {x m m' : CcFlags}
    (hx : x = if bitIsSet mess a then m else m') (hex : ¬(bitIsSet mess a ∧ bitIsSet mess b))
    (hd : d = (bitIsSet mess a || bitIsSet mess b)) (hne : m ≠ m') :
    bitIsSet mess a = (d && x == m) ∧ bitIsSet mess b = (d && x == m') := by
  have hmm' := beq_eq_false_iff_ne.mpr hne
  have hm'm := beq_eq_false_iff_ne.mpr hne.symm
  rw [hx, hd]
  cases ha : bitIsSet mess a with
  | true =>
    have hb : bitIsSet mess b = false := Bool.eq_false_iff.mpr fun hb => hex ⟨ha, hb⟩
    simp [hb, hmm']
  | false => simp [hm'm]

/-- Without a pan speed there is neither a pan bit nor a speed byte. -/
theorem agrees_noPan (h : CanonicalMoves bits mess)
    (hno : ¬(bitIsSet mess bitPanRight ∨ bitIsSet mess bitPanLeft)) (hspeed : pkt.pan = 0) :
    Agrees mess (panMoves pkt) ∧ panByte pkt = mess.getD 4 0 := by
  have hbyte := h.panSpeed
  rw [if_neg hno] at hbyte
  obtain ⟨hr, hl⟩ := not_or.mp hno
  have hhas : ccpacketHasPan pkt = false := by
    rw [ccpacketHasPan, hspeed]
    exact Bool.and_false _
  unfold panMoves panByte
  rw [hhas, hspeed, if_neg fun hno => Bool.false_ne_true hno.1, hbyte]
  exact ⟨agrees_pair (Bool.eq_false_iff.mpr hl) (Bool.eq_false_iff.mpr hr), by decide⟩

theorem agrees_panMoves (h : CanonicalMoves bits mess)
    (hmode : Field.pan.get pkt.flags = if bitIsSet mess bitPanRight then ccPanRight else ccPanLeft)
    (hspeed : pkt.pan = if bitIsSet mess bitPanRight ∨ bitIsSet mess bitPanLeft
      then clampSpeed (levelSpeed (mess.getD 4 0)) else 0) :
    Agrees mess (panMoves pkt) ∧ panByte pkt = mess.getD 4 0 := by
  by_cases hmove : bitIsSet mess bitPanRight = true ∨ bitIsSet mess bitPanLeft = true
  · have hbyte := h.panSpeed
    rw [if_pos hmove] at hspeed hbyte
    have hhas : ccpacketHasPan pkt = true := by
      rw [ccpacketHasPan, ccpacketGetPanMode_eq, hmode, hspeed, Bool.and_eq_true, bne_iff_ne,
        bne_iff_ne]
      refine ⟨?_, clampSpeed_level_ne hbyte.1⟩
      split <;> decide
    obtain ⟨hr, hl⟩ := agrees_direction hmode h.pan
      (hhas.trans (by rwa [eq_comm, Bool.or_eq_true])) (by decide)
    refine ⟨agrees_pair hl hr, ?_⟩
    have hside : ¬(ccpacketHasPan pkt ∧ Field.pan.get pkt.flags ≠ ccPanLeft ∧
        Field.pan.get pkt.flags ≠ ccPanRight) := by
      rintro ⟨-, hnl, hnr⟩
      rw [hmode] at hnl hnr
      split at hnl
      · exact hnr (if_pos (by assumption))
      · exact hnl rfl
    rw [panByte, if_neg hside, hspeed, encodePanSpeed_level hbyte.2, ofInt_toNat]
  · exact agrees_noPan h hmove (hspeed.trans (if_neg hmove))

theorem agrees_tiltMoves (h : CanonicalMoves bits mess)
    (hmode : Field.tilt.get pkt.flags = if bitIsSet mess bitTiltUp then ccTiltUp else ccTiltDown)
    (hspeed : pkt.tilt = if bitIsSet mess bitTiltUp ∨ bitIsSet mess bitTiltDown
      then levelSpeed (mess.getD 5 0) else 0) :
    Agrees mess (tiltMoves pkt) ∧ tiltByte pkt = mess.getD 5 0 := by
  have hbyte := h.tiltSpeed
  -- the speed is encoded as the byte, and is none without a direction
  have henc : encodeSpeed pkt.tilt = (mess.getD 5 0).toNat ∧
      (encodeSpeed pkt.tilt ≠ 0 ↔ bitIsSet mess bitTiltUp ∨ bitIsSet mess bitTiltDown) := by
    by_cases hmove : bitIsSet mess bitTiltUp = true ∨ bitIsSet mess bitTiltDown = true
    · rw [if_pos hmove] at hspeed hbyte
      have hlt : (mess.getD 5 0).toNat < 64 := by omega
      have henc : encodeSpeed pkt.tilt = (mess.getD 5 0).toNat := by
        rw [hspeed, levelSpeed_of_lt hlt, encodeSpeed_level hlt]
      refine ⟨henc, iff_of_true ?_ hmove⟩
      rw [henc]
      omega
    · rw [if_neg hmove] at hspeed hbyte
      rw [hspeed, hbyte]
      exact ⟨by decide, iff_of_false (by decide) hmove⟩
  obtain ⟨hu, hd⟩ := agrees_direction (d := decide (encodeSpeed pkt.tilt ≠ 0)) hmode h.tilt
    (by rw [Bool.eq_iff_iff, decide_eq_true_eq, henc.2, Bool.or_eq_true]) (by decide)
  refine ⟨agrees_pair hu hd, ?_⟩
  have hside : ¬(encodeSpeed pkt.tilt ≠ 0 ∧ Field.tilt.get pkt.flags ≠ ccTiltUp ∧
      Field.tilt.get pkt.flags ≠ ccTiltDown) := by
    rintro ⟨-, hnu, hnd⟩
    rw [hmode] at hnu hnd
    split at hnu
    · exact hnu rfl
    · exact hnd (if_neg (by assumption))
  rw [tiltByte, if_neg hside, henc.1, ofInt_toNat]

/-- What a packet holds, but for camera and pan, after a command has been decoded. -/
structure Moved (bits : LensBits) (mess : List Byte) (pkt : Ccpacket) : Prop where
  receiver : pkt.receiver = (mess.getD 1 0).toNat
  preset : pkt.preset = 0
  tilt : pkt.tilt = if bitIsSet mess bitTiltUp ∨ bitIsSet mess bitTiltDown
    then levelSpeed (mess.getD 5 0) else 0
  get : ∀ x : Field, x ≠ .camera → x ≠ .pan → x.get pkt.flags =
    if x = .zoom then
      if bitIsSet mess bitZoomIn then ccZoomIn else if bitIsSet mess bitZoomOut then ccZoomOut else 0
    else if x = .focus then
      if bitIsSet mess bits.focusNear then ccFocusNear
      else if bitIsSet mess bits.focusFar then ccFocusFar else 0
    else if x = .iris then
      if bitIsSet mess bits.irisOpen then ccIrisOpen
      else if bitIsSet mess bits.irisClose then ccIrisClose else 0
    else if x = .tilt then if bitIsSet mess bitTiltUp then ccTiltUp else ccTiltDown
    else 0

theorem moved_decodeMoves (hflags : pkt.flags = 0) (hpreset : pkt.preset = 0) :
    Moved bits mess (decodeMoves bits pkt mess) := by
  obtain ⟨flags, hlens⟩ := @decodeLens_eq mess (decodeTilt (levelSpeed (mess.getD 5 0))
    (decodePan (levelSpeed (mess.getD 4 0)) (decodeReceiver pkt mess) mess) mess) bits
  refine ⟨?_, ?_, ?_, fun x hcamera hpan => ?_⟩
  · rw [decodeMoves, hlens, decodeTilt_eq, decodePan_eq]
    rfl
  · rw [decodeMoves, hlens, decodeTilt_eq, decodePan_eq]
    exact hpreset
  · rw [decodeMoves, hlens, decodeTilt_eq]
  · have hzero : ∀ y : Field, y ≠ .tilt → y ≠ .pan → y.get (decodeTilt (levelSpeed (mess.getD 5 0))
        (decodePan (levelSpeed (mess.getD 4 0)) (decodeReceiver pkt mess) mess) mess).flags = 0 := by
      intro y htilt hpan
      rw [decodeTilt_eq, Field.get_update, if_neg htilt, decodePan_eq]
      refine (Field.get_update _ _ _ _).trans ?_
      rw [if_neg hpan]
      exact (congrArg y.get hflags).trans (Field.get_zero y)
    rw [decodeMoves, get_decodeLens, hzero .zoom (by decide) (by decide),
      hzero .focus (by decide) (by decide), hzero .iris (by decide) (by decide)]
    refine if_congr Iff.rfl rfl (if_congr Iff.rfl rfl (if_congr Iff.rfl rfl ?_))
    by_cases htilt : x = .tilt
    · rw [if_pos htilt, htilt, decodeTilt_eq, Field.get_update, if_pos rfl]
      refine Field.get_of_mem ?_
      split <;> decide
    · rw [if_neg htilt]
      exact hzero x htilt hpan

/-- `Moved` says nothing of the camera. -/
theorem Moved.setCamera (h : Moved bits mess pkt) (cc : CcFlags) :
    Moved bits mess (ccpacketSetCamera pkt cc) where
  receiver := h.receiver
  preset := h.preset
  tilt := h.tilt
  get x hcamera hpan := by
    rw [ccpacketSetCamera_eq, Field.get_update, if_neg hcamera]
    exact h.get x hcamera hpan

/-- `Moved` says nothing of pan. -/
theorem Moved.setPan (h : Moved bits mess pkt) (pm : CcFlags) (speed : Int) :
    Moved bits mess (ccpacketSetPan pkt pm speed) where
  receiver := h.receiver
  preset := h.preset
  tilt := h.tilt
  get x hcamera hpan := by
    rw [ccpacketSetPan_eq]
    refine (Field.get_update _ _ _ _).trans ?_
    rw [if_neg hpan]
    exact h.get x hcamera hpan

theorem pan_decodeMoves : (decodeMoves bits pkt mess).pan =
    if bitIsSet mess bitPanRight ∨ bitIsSet mess bitPanLeft
      then clampSpeed (levelSpeed (mess.getD 4 0)) else 0 := by
  obtain ⟨flags, hlens⟩ := @decodeLens_eq mess (decodeTilt (levelSpeed (mess.getD 5 0))
    (decodePan (levelSpeed (mess.getD 4 0)) (decodeReceiver pkt mess) mess) mess) bits
  rw [decodeMoves, hlens, decodeTilt_eq, decodePan_eq]
  rfl

/-- The pan mode by the bits of the message, whatever its speeds are read as. -/
theorem get_pan_moves (pan tilt : Int) : Field.pan.get
    (decodeLens bits (decodeTilt tilt (decodePan pan (decodeReceiver pkt mess) mess) mess) mess).flags =
      if bitIsSet mess bitPanRight then ccPanRight else ccPanLeft := by
  rw [get_decodeLens, if_neg (by decide), if_neg (by decide), if_neg (by decide), decodeTilt_eq]
  refine (Field.get_update _ _ _ _).trans ?_
  rw [if_neg (by decide), decodePan_eq]
  refine (Field.get_update _ _ _ _).trans ?_
  rw [if_pos rfl]
  refine Field.get_of_mem ?_
  split <;> decide

theorem get_pan_decodeMoves : Field.pan.get (decodeMoves bits pkt mess).flags =
    if bitIsSet mess bitPanRight then ccPanRight else ccPanLeft := get_pan_moves _ _

theorem get_camera_decodeMoves (hflags : pkt.flags = 0) :
    Field.camera.get (decodeMoves bits pkt mess).flags = 0 := by
  rw [decodeMoves, get_decodeLens, if_neg (by decide), if_neg (by decide), if_neg (by decide),
    decodeTilt_eq]
  refine (Field.get_update _ _ _ _).trans ?_
  rw [if_neg (by decide), decodePan_eq]
  refine (Field.get_update _ _ _ _).trans ?_
  rw [if_neg (by decide)]
  exact (congrArg Field.camera.get hflags).trans (Field.get_zero _)

theorem agrees_moves (h : CanonicalMoves bits mess) (hpkt : Moved bits mess pkt)
    (hpan : Agrees mess (panMoves pkt)) :
    Agrees mess (moves bits pkt) ∧ tiltByte pkt = mess.getD 5 0 := by
  have hget := fun x hcamera hpan => hpkt.get x hcamera hpan
  have htilt := agrees_tiltMoves h (hget .tilt (by decide) (by decide)) hpkt.tilt
  have hzoom := agrees_choose (hget .zoom (by decide) (by decide)) h.zoom (by decide) (by decide)
    (by decide)
  have hfocus := agrees_choose (hget .focus (by decide) (by decide)) h.focus (by decide)
    (by decide) (by decide)
  have hiris := agrees_choose (hget .iris (by decide) (by decide)) h.iris (by decide) (by decide)
    (by decide)
  exact ⟨hzoom.append (hfocus.append (hiris.append (htilt.1.append hpan))), htilt.2⟩

/-- What such a command leaves in a blank packet. -/
structure Sensed (bits : LensBits) (mess : List Byte) (camera scan : Bool) (cc pm : CcFlags)
    (pkt : Ccpacket) : Prop extends Moved bits mess pkt where
  camera : Field.camera.get pkt.flags = if camera then cc else 0
  panMode : Field.pan.get pkt.flags = if scan then Field.pan.get pm
    else if bitIsSet mess bitPanRight then ccPanRight else ccPanLeft
  pan : pkt.pan = if scan then 0 else if bitIsSet mess bitPanRight ∨ bitIsSet mess bitPanLeft
    then clampSpeed (levelSpeed (mess.getD 4 0)) else 0

theorem sensed_decodeSensed (hflags : pkt.flags = 0) (hpreset : pkt.preset = 0) (camera scan : Bool)
    {cc : CcFlags} (hcc : cc ∈ Field.camera.members) (pm : CcFlags) :
    Sensed bits mess camera scan cc pm (decodeSensed bits camera scan cc pm pkt mess) := by
  have hcamera : Sensed bits mess camera false cc pm (decodeSensed bits camera false cc pm pkt mess) := by
    cases camera with
    | false =>
      exact ⟨moved_decodeMoves hflags hpreset, get_camera_decodeMoves hflags, get_pan_decodeMoves,
        pan_decodeMoves⟩
    | true =>
      refine ⟨(moved_decodeMoves hflags hpreset).setCamera cc, ?_, ?_, pan_decodeMoves⟩
      · exact ((Field.get_update .camera .camera _ cc).trans (if_pos rfl)).trans
          (Field.get_of_mem hcc)
      · exact ((Field.get_update .pan .camera _ cc).trans (if_neg (by decide))).trans
          get_pan_decodeMoves
  cases scan with
  | false => exact hcamera
  | true =>
    refine ⟨hcamera.toMoved.setPan pm 0, ?_, ?_, rfl⟩
    · exact ((Field.get_update .camera .pan _ pm).trans (if_neg (by decide))).trans hcamera.camera
    · exact (Field.get_update .pan .pan _ pm).trans (if_pos rfl)

/-- All but the sense bits of a canonical command. -/
theorem agrees_sensed {camera scan : Bool} {cc pm : CcFlags} (h : CanonicalMoves bits mess)
    (hpkt : Sensed bits mess camera scan cc pm pkt)
    (hscan : scan = true → ¬(bitIsSet mess bitPanRight ∨ bitIsSet mess bitPanLeft)) :
    Agrees mess (moves bits pkt) ∧ panByte pkt = mess.getD 4 0 ∧ tiltByte pkt = mess.getD 5 0 := by
  have hpan : Agrees mess (panMoves pkt) ∧ panByte pkt = mess.getD 4 0 := by
    cases scan with
    | false => exact agrees_panMoves h hpkt.panMode hpkt.pan
    | true => exact agrees_noPan h (hscan rfl) hpkt.pan
  obtain ⟨hmoves, htilt⟩ := agrees_moves h hpkt.toMoved hpan.1
  exact ⟨hmoves, hpan.2, htilt⟩

/-- A decoded command is one message: there is a tilt mode at least. -/
theorem messages_moved (c : Codec) (h : Moved bits mess pkt) :
    c.messages (adjustMenuCommands pkt) = [c.commandMess pkt] := by
  rw [adjustMenuCommands_of_none (h.get .menu (by decide) (by decide))]
  have htilt : Field.tilt.get pkt.flags ≠ 0 := by
    rw [h.get .tilt (by decide) (by decide)]
    show (if bitIsSet mess bitTiltUp then ccTiltUp else ccTiltDown) ≠ 0
    split <;> decide
  have hcmd : hasCommands pkt = true := by
    unfold hasCommands ccpacketHasCommand
    rw [ccpacketGetTiltMode_eq, bne_iff_ne.mpr htilt, Bool.or_true]
    rfl
  have hnopreset : ¬ccpacketGetPresetMode pkt ≠ 0 := by
    rw [not_not, ccpacketGetPresetMode_eq]
    exact if_pos (le_of_eq h.preset)
  have hnowiper : ¬ccpacketGetWiper pkt ≠ 0 :=
    fun hne => hne (h.get .wiper (by decide) (by decide))
  rw [Codec.messages, if_pos hcmd, if_neg hnopreset, if_neg hnowiper]
  rfl

/-! ## Canonical extended messages -/

/-- A preset that is stored as such, not for a menu. -/
def StoresPlain (mess : List Byte) : Prop :=
  0 < (mess.getD 5 0).toNat ∧ ¬(77 ≤ (mess.getD 5 0).toNat ∧ (mess.getD 5 0).toNat ≤ 79)

/-- An extended message with nothing but a function that packets have, and its parameter. -/
structure CanonicalExtended (mess : List Byte) : Prop where
  extended : bitIsSet mess bitExtended = true
  reserved : bitIsSet mess 30 = false ∧ bitIsSet mess 31 = false
  zero : mess.getD 2 0 = 0 ∧ mess.getD 4 0 = 0
  function : (extendedFunction mess = exStore ∧ StoresPlain mess) ∨
    ((extendedFunction mess = exRecall ∨ extendedFunction mess = exClear) ∧
      0 < (mess.getD 5 0).toNat) ∨
    ((extendedFunction mess = exAuxSet ∨ extendedFunction mess = exAuxClear) ∧
      mess.getD 5 0 = exAuxWiper)

/-- Byte 3 is its function. -/
theorem CanonicalExtended.getD_three (h : CanonicalExtended mess) :
    mess.getD 3 0 = 1 ||| extendedFunction mess <<< 1 := by
  have hext : (mess.getD 3 0).getLsbD 0 = true := h.extended
  have h6 : (mess.getD 3 0).getLsbD 6 = false := h.reserved.1
  have h7 : (mess.getD 3 0).getLsbD 7 = false := h.reserved.2
  unfold extendedFunction
  generalize mess.getD 3 0 = b at hext h6 h7 ⊢
  have h6' : b[6] = false := h6
  have h7' : b[7] = false := h7
  refine BitVec.eq_of_getLsbD_eq fun i hi => ?_
  have hcases : i = 0 ∨ i = 1 ∨ i = 2 ∨ i = 3 ∨ i = 4 ∨ i = 5 ∨ i = 6 ∨ i = 7 := by omega
  rcases hcases with rfl | rfl | rfl | rfl | rfl | rfl | rfl | rfl <;> simp [hext, h6', h7']

/-- The packet of a preset command. -/
structure IsPreset (pkt : Ccpacket) (pm : CcFlags) (n : Int) : Prop where
  mode : ccpacketGetPresetMode pkt = pm
  number : pkt.preset = n
  other : ∀ x, x ≠ Field.preset → x.get pkt.flags = 0

theorem isPreset_set {pm : CcFlags} {n : Int} (hblank : pkt.flags = 0)
    (hpm : pm ∈ Field.preset.members) (hn : 0 < n) (hstore : ¬(pm = ccPresetStore ∧ 77 ≤ n ∧ n ≤ 79)) :
    IsPreset (ccpacketSetPreset pkt pm n) pm n := by
  rw [ccpacketSetPreset_eq pkt pm n hstore hn hpm]
  have hget : ∀ x : Field, x.get (Field.preset.update pkt pm).flags =
      if x = .preset then pm else 0 := by
    intro x
    rw [Field.get_update, Field.get_of_mem hpm, hblank]
    exact if_congr Iff.rfl rfl (Field.get_zero x)
  refine ⟨?_, rfl, fun x hx => ?_⟩
  · rw [ccpacketGetPresetMode_eq]
    refine (if_neg (not_le.mpr hn)).trans ?_
    exact (hget .preset).trans (if_pos rfl)
  · exact (hget x).trans (if_neg hx)

theorem hasCommands_of_zero (h : ∀ x, x ≠ Field.preset → x ≠ Field.wiper → x.get pkt.flags = 0) :
    hasCommands pkt = false := by
  have hpan := h .pan (by decide) (by decide)
  have htilt := h .tilt (by decide) (by decide)
  have hzoom := h .zoom (by decide) (by decide)
  have hfocus := h .focus (by decide) (by decide)
  have hiris := h .iris (by decide) (by decide)
  have hcamera := h .camera (by decide) (by decide)
  unfold hasCommands ccpacketHasCommand ccpacketHasAutopan ccpacketHasPower
  simp only [ccpacketGetPanMode_eq, ccpacketGetTiltMode_eq, ccpacketGetZoom_eq, ccpacketGetFocus_eq,
    ccpacketGetIris_eq, ccpacketGetCamera_eq, hpan, htilt, hzoom, hfocus, hiris, hcamera]
  decide

/-- A preset command is one message. -/
theorem messages_isPreset (c : Codec) {pm : CcFlags}
    {n : Int} (h : IsPreset pkt pm n) (hpm : pm ∈ Field.preset.members) :
    c.messages (adjustMenuCommands pkt) = [presetMess c.framing pkt] := by
  rw [adjustMenuCommands_of_none (h.other .menu (by decide))]
  have hmode : ccpacketGetPresetMode pkt ≠ 0 := by
    rw [h.mode]
    rintro rfl
    exact absurd hpm (by decide)
  have hwiper : ¬ccpacketGetWiper pkt ≠ 0 := fun hne => hne (h.other .wiper (by decide))
  rw [Codec.messages, hasCommands_of_zero fun x hx _ => h.other x hx, if_pos hmode, if_neg hwiper]
  rfl

/-- A wiper command is one message. -/
theorem messages_wiper (c : Codec) {wm : CcFlags}
    (hblank : pkt.flags = 0) (hpreset : pkt.preset = 0) (hwm : wm ∈ Field.wiper.members) :
    c.messages (adjustMenuCommands (ccpacketSetWiper pkt wm)) =
      [wiperMess c.framing (ccpacketSetWiper pkt wm)] := by
  have hget : ∀ x : Field, x.get (ccpacketSetWiper pkt wm).flags = if x = .wiper then wm else 0 := by
    intro x
    rw [ccpacketSetWiper_eq, Field.get_update, Field.get_of_mem hwm, hblank]
    exact if_congr Iff.rfl rfl (Field.get_zero x)
  rw [adjustMenuCommands_of_none ((hget .menu).trans (if_neg (by decide)))]
  have hmode : ¬ccpacketGetPresetMode (ccpacketSetWiper pkt wm) ≠ 0 := by
    rw [not_not, ccpacketGetPresetMode_eq]
    exact if_pos (le_of_eq hpreset)
  have hwiper : ccpacketGetWiper (ccpacketSetWiper pkt wm) ≠ 0 := by
    rw [ccpacketGetWiper_eq, hget, if_pos rfl]
    rintro rfl
    exact absurd hwm (by decide)
  rw [Codec.messages, hasCommands_of_zero fun x _ hx => (hget x).trans (if_neg hx), if_neg hmode,
    if_pos hwiper]
  rfl

/-! ## Writing a canonical message again -/

namespace Codec

variable {c : Codec}

/-- A command, from a packet whose table of bits agrees with it. -/
theorem commandMess_eq (hlen : mess.length = c.framing.size) (hvalid : c.valid mess = true)
    (hreceiver : pkt.receiver = (mess.getD 1 0).toNat)
    (hnodup : ((c.commandBits pkt).map Prod.fst).Nodup)
    (hreserved : ∀ k, InCommand k → k ∉ (c.commandBits pkt).map Prod.fst → bitIsSet mess k = false)
    (hbits : Agrees mess (c.commandBits pkt)) (hpan : panByte pkt = mess.getD 4 0)
    (htilt : tiltByte pkt = mess.getD 5 0) : c.commandMess pkt = mess := by
  have hbit : ∀ k, InCommand k → bitIsSet (c.commandBody pkt) k = bitIsSet mess k := by
    intro k hk
    rw [bitIsSet_commandBody hk]
    by_cases hmem : k ∈ (c.commandBits pkt).map Prod.fst
    · obtain ⟨e, he, rfl⟩ := List.mem_map.mp hmem
      exact (tableBit_of_mem hnodup he).trans (hbits e he).symm
    · rw [tableBit_of_not_mem hmem, hreserved k hk hmem]
  refine c.encodeChecksum_eq mess _ hlen length_commandBody hvalid fun i hi => ?_
  have hcases : (i < 2 ∨ 5 < i) ∨ (i = 2 ∨ i = 3) ∨ i = 4 ∨ i = 5 := by omega
  rcases hcases with hside | hcmd | rfl | rfl
  · rw [getD_commandBody hside]
    exact c.header_eq mess pkt hvalid hreceiver i hside hi
  · exact getD_ext i fun k hk => hbit _ ⟨by omega, by omega⟩
  · rw [getD_commandBody_four, hpan]
  · rw [getD_commandBody_five, htilt]

/-- The message of an extended function. -/
theorem extendedMess_eq (h : CanonicalExtended mess) (hlen : mess.length = c.framing.size)
    (hvalid : c.valid mess = true) (hreceiver : pkt.receiver = (mess.getD 1 0).toNat) {ex p0 : Byte}
    (hex : ex = extendedFunction mess) (hp0 : p0 = mess.getD 5 0) :
    c.framing.encodeChecksum (extendedMess (c.framing.header pkt) ex p0) = mess := by
  have hsize := c.size
  have hheader := c.length_header pkt
  refine c.encodeChecksum_eq mess _ hlen ((length_extendedMess _ _ _).trans hheader) hvalid
    fun i hi => ?_
  have hcases : (i < 2 ∨ 5 < i) ∨ i = 2 ∨ i = 3 ∨ i = 4 ∨ i = 5 := by omega
  rcases hcases with hside | rfl | rfl | rfl | rfl
  · rw [getD_extendedMess _ _ (by omega) (by omega)]
    exact c.header_eq mess pkt hvalid hreceiver i hside hi
  · rw [getD_extendedMess _ _ (by decide) (by decide), h.zero.1,
      c.header_zero pkt 2 (by decide) (by decide)]
  · rw [getD_extendedMess_three _ _ (by omega) (c.header_zero pkt 3 (by decide) (by decide)), hex,
      h.getD_three]
  · rw [getD_extendedMess _ _ (by decide) (by decide), h.zero.2,
      c.header_zero pkt 4 (by decide) (by decide)]
  · rw [getD_extendedMess_five _ _ (by omega), hp0]

theorem messages_setPreset (h : CanonicalExtended mess) (hlen : mess.length = c.framing.size)
    (hvalid : c.valid mess = true) (hflags : pkt.flags = 0)
    (hreceiver : pkt.receiver = (mess.getD 1 0).toNat) {pm : CcFlags}
    (hpm : pm ∈ Field.preset.members) (hfn : extendedFunction mess = presetFunction pm)
    (hn : 0 < (mess.getD 5 0).toNat)
    (hstore : ¬(pm = ccPresetStore ∧ 77 ≤ (mess.getD 5 0).toNat ∧ (mess.getD 5 0).toNat ≤ 79)) :
    (ccpacketSetPreset pkt pm (mess.getD 5 0).toNat).receiver = (mess.getD 1 0).toNat ∧
      c.messages (adjustMenuCommands (ccpacketSetPreset pkt pm (mess.getD 5 0).toNat)) = [mess] := by
  have hn' : (0 : Int) < (mess.getD 5 0).toNat := by omega
  have hstore' : ¬(pm = ccPresetStore ∧ (77 : Int) ≤ (mess.getD 5 0).toNat ∧
      ((mess.getD 5 0).toNat : Int) ≤ 79) := fun hst => hstore ⟨hst.1, by omega, by omega⟩
  have hreceiver' : (ccpacketSetPreset pkt pm (mess.getD 5 0).toNat).receiver =
      (mess.getD 1 0).toNat := by
    rw [ccpacketSetPreset_eq pkt pm _ hstore' hn' hpm]
    exact hreceiver
  have his := isPreset_set hflags hpm hn' hstore'
  refine ⟨hreceiver', ?_⟩
  rw [messages_isPreset _ his hpm, presetMess, his.mode, his.number, ofInt_toNat,
    c.extendedMess_eq h hlen hvalid hreceiver' hfn.symm rfl]

theorem messages_setWiper (h : CanonicalExtended mess) (hlen : mess.length = c.framing.size)
    (hvalid : c.valid mess = true) (hflags : pkt.flags = 0) (hpreset : pkt.preset = 0)
    (hreceiver : pkt.receiver = (mess.getD 1 0).toNat) {wm : CcFlags} (hwm : wm ∈ Field.wiper.members)
    (hfn : extendedFunction mess = if wm = ccWiperOn then exAuxSet else exAuxClear)
    (hp0 : mess.getD 5 0 = exAuxWiper) :
    (ccpacketSetWiper pkt wm).receiver = (mess.getD 1 0).toNat ∧
      c.messages (adjustMenuCommands (ccpacketSetWiper pkt wm)) = [mess] := by
  have hmode : ccpacketGetWiper (ccpacketSetWiper pkt wm) = wm := by
    rw [ccpacketGetWiper_eq, ccpacketSetWiper_eq, Field.get_update, if_pos rfl, Field.get_of_mem hwm]
  have hreceiver' : (ccpacketSetWiper pkt wm).receiver = (mess.getD 1 0).toNat := hreceiver
  refine ⟨hreceiver', ?_⟩
  rw [messages_wiper _ hflags hpreset hwm, wiperMess, hmode,
    c.extendedMess_eq h hlen hvalid hreceiver' hfn.symm hp0.symm]

/-- An extended message, decoded into a blank packet, is due again. -/
theorem messages_extended (h : CanonicalExtended mess) (hlen : mess.length = c.framing.size)
    (hvalid : c.valid mess = true) (hblank : pkt.flags = 0) (hpreset : pkt.preset = 0) :
    (pelcoDecodeExtended pkt mess).receiver = (mess.getD 1 0).toNat ∧
      c.messages (adjustMenuCommands (pelcoDecodeExtended pkt mess)) = [mess] := by
  have hp : (decodeReceiver pkt mess).flags = 0 ∧ (decodeReceiver pkt mess).preset = 0 ∧
      (decodeReceiver pkt mess).receiver = (mess.getD 1 0).toNat := ⟨hblank, hpreset, rfl⟩
  unfold pelcoDecodeExtended
  generalize decodeReceiver pkt mess = p at hp ⊢
  obtain ⟨hflags, hpreset, hreceiver⟩ := hp
  rcases h.function with ⟨hfn, hn, hplain⟩ | ⟨hfn | hfn, hn⟩ | ⟨hfn | hfn, hp0⟩
  · have hset := @messages_setPreset mess p c h hlen hvalid hflags hreceiver ccPresetStore (by decide)
      hfn hn fun h => hplain h.2
    rw [hfn]
    exact hset
  · have hset := @messages_setPreset mess p c h hlen hvalid hflags hreceiver ccPresetRecall
      (by decide) hfn hn fun h => absurd h.1 (by decide)
    rw [hfn]
    exact hset
  · have hset := @messages_setPreset mess p c h hlen hvalid hflags hreceiver ccPresetClear (by decide)
      hfn hn fun h => absurd h.1 (by decide)
    rw [hfn]
    exact hset
  · have hset := @messages_setWiper mess p c h hlen hvalid hflags hpreset hreceiver ccWiperOn
      (by decide) hfn hp0
    rw [hfn, hp0]
    exact hset
  · have hset := @messages_setWiper mess p c h hlen hvalid hflags hpreset hreceiver ccWiperOff
      (by decide) hfn hp0
    rw [hfn, hp0]
    exact hset

end Codec

end Pelco

end Protozoa
