import Protozoa.Fields
import Protozoa.Message
import Protozoa.Protocol.Pelco

/-!
# Pelco messages, bit by bit

For each stage of decoding a command (`pelco_d.c:116-187`, `pelco_p.c:134-206`): what it leaves in
the fields of the packet. For each stage of encoding one (`pelco_d.c:356-443`, `pelco_p.c:380-460`):
which bits it sets, as a table (`moves`), and what becomes of the two speed bytes.

* `get_decodeLens`, `decodePan_eq`, `decodeTilt_eq`: decoding, as a choice of a member for each
  field.
* `bitIsSet_encodeMoves`, `getD_encodeMoves`: encoding, as a table and two bytes.
* `Codec` is what one of the two protocols adds: its framing, its sense bits, and the laws by which
  both are put together once, in `bitIsSet_commandMess` and the lemmas after it.
* `messages`: what `do_write` appends for a packet, as a list of messages; `mem_messages`,
  `append_messages`.
-/

namespace Protozoa

open Pelco

variable {mess : List Byte} {pkt : Ccpacket} {bits : LensBits} {pan tilt : Int}

/-! ## Choosing a member of a field -/

/-- The field takes one of two values, or stays. -/
theorem Field.get_choose {c c' : Prop} [Decidable c] [Decidable c'] (x y : Field) (pkt : Ccpacket)
    (m m' : CcFlags) :
    x.get (if c then y.update pkt m else if c' then y.update pkt m' else pkt).flags =
      if x = y then if c then y.get m else if c' then y.get m' else y.get pkt.flags
      else x.get pkt.flags := by
  by_cases hxy : x = y
  · subst hxy
    by_cases hc : c
    · simp only [if_pos hc, get_update, if_true]
    by_cases hc' : c'
    · simp only [if_neg hc, if_pos hc', get_update, if_true]
    · simp only [if_neg hc, if_neg hc', if_true]
  · by_cases hc : c
    · simp only [if_pos hc, get_update, if_neg hxy]
    by_cases hc' : c'
    · simp only [if_neg hc, if_pos hc', get_update, if_neg hxy]
    · simp only [if_neg hc, if_neg hc', if_neg hxy]

/-- Of two bits that exclude each other the choice tells which is set. -/
theorem choose_iff {c c' : Prop} [Decidable c] [Decidable c'] {m m' : CcFlags} (hex : ¬(c ∧ c'))
    (hm : m ≠ 0) (hm' : m' ≠ 0) (hne : m ≠ m') :
    ((if c then m else if c' then m' else 0) = m ↔ c) ∧
      ((if c then m else if c' then m' else 0) = m' ↔ c') := by
  by_cases hc : c
  · have hc' : ¬c' := fun hc' => hex ⟨hc, hc'⟩
    simp [hc, hc', hne]
  · by_cases hc' : c'
    · simp [hc, hc', hne.symm]
    · simp only [hc, hc', if_false, iff_false]
      exact ⟨Ne.symm hm, Ne.symm hm'⟩

namespace Pelco

/-! ## Decoding -/

theorem decodePan_eq : decodePan pan pkt mess =
    { Field.pan.update pkt (if bitIsSet mess bitPanRight then ccPanRight else ccPanLeft) with
      pan := if bitIsSet mess bitPanRight ∨ bitIsSet mess bitPanLeft then clampSpeed pan else 0 } := by
  unfold decodePan
  by_cases hr : bitIsSet mess bitPanRight = true
  · rw [if_pos hr, if_pos hr, if_pos (Or.inl hr)]
    rfl
  by_cases hl : bitIsSet mess bitPanLeft = true
  · rw [if_neg hr, if_neg hr, if_pos hl, if_pos (Or.inr hl)]
    rfl
  · rw [if_neg hr, if_neg hr, if_neg hl, if_neg fun h => h.elim hr hl]
    rfl

theorem decodeTilt_eq : decodeTilt tilt pkt mess =
    { Field.tilt.update pkt (if bitIsSet mess bitTiltUp then ccTiltUp else ccTiltDown) with
      tilt := if bitIsSet mess bitTiltUp ∨ bitIsSet mess bitTiltDown then tilt else 0 } := by
  unfold decodeTilt
  by_cases hu : bitIsSet mess bitTiltUp = true
  · rw [if_pos hu, if_pos hu, if_pos (Or.inl hu)]
    rfl
  by_cases hd : bitIsSet mess bitTiltDown = true
  · rw [if_neg hu, if_neg hu, if_pos hd, if_pos (Or.inr hd)]
    rfl
  · rw [if_neg hu, if_neg hu, if_neg hd, if_neg fun h => h.elim hu hd]
    rfl

/-- Decoding the lens writes flags only. -/
theorem decodeLens_eq : ∃ flags, decodeLens bits pkt mess = { pkt with flags := flags } := by
  have hchoose : ∀ (c c' : Bool) (y : Field) (m m' : CcFlags) (flags : CcFlags), ∃ flags',
      (if c then y.update { pkt with flags := flags } m
        else if c' then y.update { pkt with flags := flags } m' else { pkt with flags := flags }) =
        { pkt with flags := flags' } := by
    intro c c' y m m' flags
    cases c
    · cases c'
      · exact ⟨flags, rfl⟩
      · exact ⟨y.set m' flags, rfl⟩
    · exact ⟨y.set m flags, rfl⟩
  obtain ⟨f₁, h₁⟩ := hchoose (bitIsSet mess bits.irisOpen) (bitIsSet mess bits.irisClose) .iris
    ccIrisOpen ccIrisClose pkt.flags
  obtain ⟨f₂, h₂⟩ := hchoose (bitIsSet mess bits.focusNear) (bitIsSet mess bits.focusFar) .focus
    ccFocusNear ccFocusFar f₁
  obtain ⟨f₃, h₃⟩ := hchoose (bitIsSet mess bitZoomIn) (bitIsSet mess bitZoomOut) .zoom
    ccZoomIn ccZoomOut f₂
  refine ⟨f₃, ?_⟩
  simp only [decodeLens, ccpacketSetIris_eq, ccpacketSetFocus_eq, ccpacketSetZoom_eq]
  rw [h₁, h₂, h₃]

theorem get_decodeLens (x : Field) : x.get (decodeLens bits pkt mess).flags =
    if x = .zoom then
      if bitIsSet mess bitZoomIn then ccZoomIn else if bitIsSet mess bitZoomOut then ccZoomOut
      else Field.zoom.get pkt.flags
    else if x = .focus then
      if bitIsSet mess bits.focusNear then ccFocusNear
      else if bitIsSet mess bits.focusFar then ccFocusFar else Field.focus.get pkt.flags
    else if x = .iris then
      if bitIsSet mess bits.irisOpen then ccIrisOpen
      else if bitIsSet mess bits.irisClose then ccIrisClose else Field.iris.get pkt.flags
    else x.get pkt.flags := by
  have hmem : ∀ {y : Field} {m : CcFlags}, m ∈ y.members → y.get m = m := Field.get_of_mem
  simp only [decodeLens, ccpacketSetIris_eq, ccpacketSetFocus_eq, ccpacketSetZoom_eq,
    Field.get_choose, reduceCtorEq, if_false]
  rw [hmem (show ccZoomIn ∈ Field.members .zoom by decide),
    hmem (show ccZoomOut ∈ Field.members .zoom by decide),
    hmem (show ccFocusNear ∈ Field.members .focus by decide),
    hmem (show ccFocusFar ∈ Field.members .focus by decide),
    hmem (show ccIrisOpen ∈ Field.members .iris by decide),
    hmem (show ccIrisClose ∈ Field.members .iris by decide)]

/-- A speed from its level; with `TURBO_SPEED` it is the greatest. -/
def levelSpeed (val : Byte) : Int :=
  if ((val.toNat <<< 5 : Nat) : Int) > speedMax then speedMax else (val.toNat <<< 5 : Nat)

/-- Receiver, pan, tilt and lens of a command, as both protocols decode them. -/
def decodeMoves (bits : LensBits) (pkt : Ccpacket) (mess : List Byte) : Ccpacket :=
  decodeLens bits (decodeTilt (levelSpeed (mess.getD 5 0))
    (decodePan (levelSpeed (mess.getD 4 0)) (decodeReceiver pkt mess) mess) mess) mess

/-- A command with a camera command `cc` if `camera` is set and scan mode `pm` if `scan` is. -/
def decodeSensed (bits : LensBits) (camera scan : Bool) (cc pm : CcFlags) (pkt : Ccpacket)
    (mess : List Byte) : Ccpacket :=
  let pkt := decodeMoves bits pkt mess
  let pkt := if camera then ccpacketSetCamera pkt cc else pkt
  if scan then ccpacketSetPan pkt pm 0 else pkt

/-! ## Encoding -/

/-- The bits of `encode_pan`. -/
def panMoves (pkt : Ccpacket) : List (Nat × Bool) :=
  [(bitPanLeft, ccpacketHasPan pkt && Field.pan.get pkt.flags == ccPanLeft),
    (bitPanRight, ccpacketHasPan pkt && Field.pan.get pkt.flags == ccPanRight)]

/-- The bits of `encode_tilt`. -/
def tiltMoves (pkt : Ccpacket) : List (Nat × Bool) :=
  [(bitTiltUp, decide (encodeSpeed pkt.tilt ≠ 0) && Field.tilt.get pkt.flags == ccTiltUp),
    (bitTiltDown, decide (encodeSpeed pkt.tilt ≠ 0) && Field.tilt.get pkt.flags == ccTiltDown)]

/-- The bits of `encode_lens`, from the last to the first. -/
def zoomMoves (pkt : Ccpacket) : List (Nat × Bool) :=
  [(bitZoomIn, Field.zoom.get pkt.flags == ccZoomIn),
    (bitZoomOut, Field.zoom.get pkt.flags == ccZoomOut)]

def focusMoves (bits : LensBits) (pkt : Ccpacket) : List (Nat × Bool) :=
  [(bits.focusNear, Field.focus.get pkt.flags == ccFocusNear),
    (bits.focusFar, Field.focus.get pkt.flags == ccFocusFar)]

def irisMoves (bits : LensBits) (pkt : Ccpacket) : List (Nat × Bool) :=
  [(bits.irisOpen, Field.iris.get pkt.flags == ccIrisOpen),
    (bits.irisClose, Field.iris.get pkt.flags == ccIrisClose)]

section Encoding

variable {k i : Nat}

@[simp] theorem length_encodePan : (encodePan mess pkt).length = mess.length := by
  simp only [encodePan, apply_ite List.length, List.length_set, length_bitSet, ite_self]

@[simp] theorem length_encodeTilt : (encodeTilt mess pkt).length = mess.length := by
  simp only [encodeTilt, apply_ite List.length, List.length_set, length_bitSet, ite_self]

@[simp] theorem length_encodeLens : (encodeLens bits mess pkt).length = mess.length := by
  simp only [encodeLens, apply_ite List.length, length_bitSet, ite_self]

/-- A speed byte `i`, and the bit of one direction or the other if the speed counts. -/
theorem bitIsSet_speed {c : Prop} [Decidable c] {x m m' : CcFlags} {bit bit' : Nat} {b : Bool}
    (v : Byte) (hne : m ≠ m') (hbit : bit / 8 < mess.length) (hbit' : bit' / 8 < mess.length)
    (hb : b = true ↔ c) (hk : i ≠ k / 8) :
    bitIsSet (if c then if x = m then bitSet (mess.set i v) bit
        else if x = m' then bitSet (mess.set i v) bit' else (mess.set i v).set i 0
        else mess.set i v) k =
      (tableBit [(bit, b && x == m), (bit', b && x == m')] k || bitIsSet mess k) := by
  have hset : ∀ b, bitIsSet (mess.set i b) k = bitIsSet mess k := fun b => bitIsSet_set_of_ne hk
  have hmm' := beq_eq_false_iff_ne.mpr hne
  have hm'm := beq_eq_false_iff_ne.mpr hne.symm
  rw [tableBit_pair]
  by_cases hc : c
  · rw [if_pos hc, hb.mpr hc]
    by_cases hm : x = m
    · rw [if_pos hm, bitIsSet_bitSet (by rwa [List.length_set]), hset]
      simp [hm, hmm', beq_eq_decide, eq_comm (a := k)]
    rw [if_neg hm]
    by_cases hm' : x = m'
    · rw [if_pos hm', bitIsSet_bitSet (by rwa [List.length_set]), hset]
      simp [hm', hm'm, beq_eq_decide, eq_comm (a := k)]
    · rw [if_neg hm', List.set_set, hset, beq_eq_false_iff_ne.mpr hm, beq_eq_false_iff_ne.mpr hm']
      simp
  · rw [if_neg hc, hset, Bool.eq_false_iff.mpr fun h => hc (hb.mp h)]
    simp

theorem bitIsSet_encodePan (hlen : 4 ≤ mess.length) (hk : 4 ≠ k / 8) :
    bitIsSet (encodePan mess pkt) k = (tableBit (panMoves pkt) k || bitIsSet mess k) :=
  bitIsSet_speed _ (by decide) hlen hlen Iff.rfl hk

theorem bitIsSet_encodeTilt (hlen : 4 ≤ mess.length) (hk : 5 ≠ k / 8) :
    bitIsSet (encodeTilt mess pkt) k = (tableBit (tiltMoves pkt) k || bitIsSet mess k) :=
  bitIsSet_speed _ (by decide) hlen hlen decide_eq_true_iff hk

/-- A bit of bytes 2 and 3. -/
def InCommand (bit : Nat) : Prop := 16 ≤ bit ∧ bit < 32

instance (bit : Nat) : Decidable (InCommand bit) := inferInstanceAs (Decidable (_ ∧ _))

structure LensBits.InCommand (bits : LensBits) : Prop where
  focusNear : Pelco.InCommand bits.focusNear
  focusFar : Pelco.InCommand bits.focusFar
  irisOpen : Pelco.InCommand bits.irisOpen
  irisClose : Pelco.InCommand bits.irisClose

/-- One of two commands, or none. -/
theorem bitIsSet_command {x m m' : CcFlags} {bit bit' : Nat} (hne : m ≠ m') (hbit : InCommand bit)
    (hbit' : InCommand bit') (hlen : 4 ≤ mess.length) :
    bitIsSet (if x = m then bitSet mess bit else if x = m' then bitSet mess bit' else mess) k =
      (tableBit [(bit, x == m), (bit', x == m')] k || bitIsSet mess k) := by
  unfold InCommand at hbit hbit'
  exact bitIsSet_two hne (by omega) (by omega) k

theorem bitIsSet_set {bit : Nat} (hbit : InCommand bit) (hlen : 4 ≤ mess.length) :
    bitIsSet (bitSet mess bit) k = (bit == k || bitIsSet mess k) := by
  unfold InCommand at hbit
  rw [bitIsSet_bitSet (by omega), beq_eq_decide, decide_eq_decide.mpr (eq_comm (a := k))]

theorem bitIsSet_one {x m : CcFlags} {bit : Nat} (hbit : InCommand bit) (hlen : 4 ≤ mess.length) :
    bitIsSet (if x = m then bitSet mess bit else mess) k =
      (x == m && bit == k || bitIsSet mess k) := by
  unfold InCommand at hbit
  rw [bitIsSet_flag (by omega), tableBit, List.any_cons, List.any_nil, Bool.or_false]

theorem getD_command {x m m' : CcFlags} {bit bit' : Nat} (hbit : InCommand bit)
    (hbit' : InCommand bit') (h2 : 2 ≠ i) (h3 : 3 ≠ i) :
    (if x = m then bitSet mess bit else if x = m' then bitSet mess bit' else mess).getD i 0 =
      mess.getD i 0 := by
  unfold InCommand at hbit hbit'
  by_cases hm : x = m
  · rw [if_pos hm, getD_bitSet_of_ne (by omega)]
  by_cases hm' : x = m'
  · rw [if_neg hm, if_pos hm', getD_bitSet_of_ne (by omega)]
  · rw [if_neg hm, if_neg hm']

theorem bitIsSet_encodeLens (hbits : bits.InCommand) (hlen : 4 ≤ mess.length) :
    bitIsSet (encodeLens bits mess pkt) k =
      (tableBit (zoomMoves pkt) k || (tableBit (focusMoves bits pkt) k ||
        (tableBit (irisMoves bits pkt) k || bitIsSet mess k))) := by
  refine (bitIsSet_command (by decide) (by decide) (by decide) ?_).trans ?_
  · simpa only [apply_ite List.length, length_bitSet, ite_self] using hlen
  refine congrArg _ ((bitIsSet_command (by decide) hbits.focusNear hbits.focusFar ?_).trans ?_)
  · simpa only [apply_ite List.length, length_bitSet, ite_self] using hlen
  exact congrArg _ (bitIsSet_command (by decide) hbits.irisOpen hbits.irisClose hlen)

theorem getD_encodeLens (hbits : bits.InCommand) (h2 : 2 ≠ i) (h3 : 3 ≠ i) :
    (encodeLens bits mess pkt).getD i 0 = mess.getD i 0 := by
  have hzoom : InCommand bitZoomIn ∧ InCommand bitZoomOut := by decide
  refine (getD_command hzoom.1 hzoom.2 h2 h3).trans ?_
  refine (getD_command hbits.focusNear hbits.focusFar h2 h3).trans ?_
  exact getD_command hbits.irisOpen hbits.irisClose h2 h3

theorem getD_speed_self {c : Prop} [Decidable c] {x m m' : CcFlags} {bit bit' : Nat} (v : Byte)
    (hlen : i < mess.length) (hbit : bit / 8 ≠ i) (hbit' : bit' / 8 ≠ i) :
    (if c then if x = m then bitSet (mess.set i v) bit
        else if x = m' then bitSet (mess.set i v) bit' else (mess.set i v).set i 0
        else mess.set i v).getD i 0 = if c ∧ x ≠ m ∧ x ≠ m' then 0 else v := by
  have hset : ∀ b, (mess.set i b).getD i 0 = b := fun b => getD_set_self hlen
  by_cases hc : c
  · rw [if_pos hc]
    by_cases hm : x = m
    · rw [if_pos hm, getD_bitSet_of_ne hbit, hset, if_neg fun h => h.2.1 hm]
    rw [if_neg hm]
    by_cases hm' : x = m'
    · rw [if_pos hm', getD_bitSet_of_ne hbit', hset, if_neg fun h => h.2.2 hm']
    · rw [if_neg hm', List.set_set, hset, if_pos ⟨hc, hm, hm'⟩]
  · rw [if_neg hc, hset, if_neg fun h => hc h.1]

theorem getD_speed_of_ne {c : Prop} [Decidable c] {x m m' : CcFlags} {bit bit' j : Nat} (v : Byte)
    (hj : i ≠ j) (hbit : bit / 8 ≠ j) (hbit' : bit' / 8 ≠ j) :
    (if c then if x = m then bitSet (mess.set i v) bit
        else if x = m' then bitSet (mess.set i v) bit' else (mess.set i v).set i 0
        else mess.set i v).getD j 0 = mess.getD j 0 := by
  have hset : ∀ b, (mess.set i b).getD j 0 = mess.getD j 0 := fun b => getD_set_of_ne hj
  by_cases hc : c
  · rw [if_pos hc]
    by_cases hm : x = m
    · rw [if_pos hm, getD_bitSet_of_ne hbit, hset]
    rw [if_neg hm]
    by_cases hm' : x = m'
    · rw [if_pos hm', getD_bitSet_of_ne hbit', hset]
    · rw [if_neg hm', List.set_set, hset]
  · rw [if_neg hc, hset]

theorem getD_encodePan_four (hlen : 4 < mess.length) : (encodePan mess pkt).getD 4 0 =
    if ccpacketHasPan pkt ∧ Field.pan.get pkt.flags ≠ ccPanLeft ∧
      Field.pan.get pkt.flags ≠ ccPanRight then 0 else BitVec.ofInt 8 (encodePanSpeed pkt.pan) :=
  getD_speed_self _ hlen (by decide) (by decide)

theorem getD_encodePan (h3 : 3 ≠ i) (h4 : 4 ≠ i) :
    (encodePan mess pkt).getD i 0 = mess.getD i 0 := getD_speed_of_ne _ h4 h3 h3

theorem getD_encodeTilt_five (hlen : 5 < mess.length) : (encodeTilt mess pkt).getD 5 0 =
    if encodeSpeed pkt.tilt ≠ 0 ∧ Field.tilt.get pkt.flags ≠ ccTiltUp ∧
      Field.tilt.get pkt.flags ≠ ccTiltDown then 0 else BitVec.ofInt 8 (encodeSpeed pkt.tilt) :=
  getD_speed_self _ hlen (by decide) (by decide)

theorem getD_encodeTilt (h3 : 3 ≠ i) (h5 : 5 ≠ i) :
    (encodeTilt mess pkt).getD i 0 = mess.getD i 0 := getD_speed_of_ne _ h5 h3 h3

end Encoding

/-! ## Pan, tilt and lens of a command -/

/-- The bits of pan, tilt and lens. -/
def moves (bits : LensBits) (pkt : Ccpacket) : List (Nat × Bool) :=
  zoomMoves pkt ++ (focusMoves bits pkt ++ (irisMoves bits pkt ++ (tiltMoves pkt ++ panMoves pkt)))

/-- The speed byte of pan. -/
def panByte (pkt : Ccpacket) : Byte :=
  if ccpacketHasPan pkt ∧ Field.pan.get pkt.flags ≠ ccPanLeft ∧
    Field.pan.get pkt.flags ≠ ccPanRight then 0 else BitVec.ofInt 8 (encodePanSpeed pkt.pan)

/-- The speed byte of tilt. -/
def tiltByte (pkt : Ccpacket) : Byte :=
  if encodeSpeed pkt.tilt ≠ 0 ∧ Field.tilt.get pkt.flags ≠ ccTiltUp ∧
    Field.tilt.get pkt.flags ≠ ccTiltDown then 0 else BitVec.ofInt 8 (encodeSpeed pkt.tilt)

/-- Pan, tilt and lens, as both protocols encode them. -/
def encodeMoves (bits : LensBits) (mess : List Byte) (pkt : Ccpacket) : List Byte :=
  encodeLens bits (encodeTilt (encodePan mess pkt) pkt) pkt

section Moves

variable {k i : Nat}

theorem length_encodeMoves : (encodeMoves bits mess pkt).length = mess.length := by
  simp only [encodeMoves, length_encodeLens, length_encodeTilt, length_encodePan]

theorem bitIsSet_encodeMoves (hbits : bits.InCommand) (hlen : 4 ≤ mess.length) (hk : InCommand k) :
    bitIsSet (encodeMoves bits mess pkt) k = (tableBit (moves bits pkt) k || bitIsSet mess k) := by
  obtain ⟨hk₀, hk₁⟩ := hk
  unfold encodeMoves moves
  rw [bitIsSet_encodeLens hbits (by simpa using hlen), bitIsSet_encodeTilt (by simpa using hlen)
    (by omega), bitIsSet_encodePan hlen (by omega)]
  simp only [tableBit_append, Bool.or_assoc]

theorem getD_encodeMoves_four (hbits : bits.InCommand) (hlen : 4 < mess.length) :
    (encodeMoves bits mess pkt).getD 4 0 = panByte pkt := by
  unfold encodeMoves
  rw [getD_encodeLens hbits (by decide) (by decide), getD_encodeTilt (by decide) (by decide),
    getD_encodePan_four hlen]
  rfl

theorem getD_encodeMoves_five (hbits : bits.InCommand) (hlen : 5 < mess.length) :
    (encodeMoves bits mess pkt).getD 5 0 = tiltByte pkt := by
  unfold encodeMoves
  rw [getD_encodeLens hbits (by decide) (by decide), getD_encodeTilt_five (by simpa using hlen)]
  rfl

theorem getD_encodeMoves (hbits : bits.InCommand) (hi : i < 2 ∨ 5 < i) :
    (encodeMoves bits mess pkt).getD i 0 = mess.getD i 0 := by
  unfold encodeMoves
  rw [getD_encodeLens hbits (by omega) (by omega), getD_encodeTilt (by omega) (by omega),
    getD_encodePan (by omega) (by omega)]

end Moves

/-! ## Extended messages -/

/-- An extended message behind a header, up to its checksum. -/
def extendedMess (header : List Byte) (ex p0 : Byte) : List Byte :=
  (setExtendedFunction (bitSet header bitExtended) ex).set 5 p0

theorem length_extendedMess (header : List Byte) (ex p0 : Byte) :
    (extendedMess header ex p0).length = header.length := by
  simp only [extendedMess, setExtendedFunction, List.length_set, List.length_modify, length_bitSet]

theorem getD_extendedMess {header : List Byte} (ex p0 : Byte) {i : Nat} (h3 : 3 ≠ i) (h5 : 5 ≠ i) :
    (extendedMess header ex p0).getD i 0 = header.getD i 0 := by
  unfold extendedMess setExtendedFunction
  rw [getD_set_of_ne h5, getD_modify_of_ne h3]
  exact getD_bitSet_of_ne h3

theorem getD_extendedMess_three {header : List Byte} (ex p0 : Byte) (hlen : 3 < header.length)
    (hzero : header.getD 3 0 = 0) : (extendedMess header ex p0).getD 3 0 = 1 ||| ex <<< 1 := by
  unfold extendedMess setExtendedFunction bitSet
  rw [getD_set_of_ne (by decide), getD_modify_self (by rwa [List.length_modify])]
  have hbit := @getD_modify_self header 3 (· ||| BitVec.twoPow 8 (bitExtended % 8)) hlen
  rw [hzero] at hbit
  exact congrArg (· ||| ex <<< 1) hbit

theorem getD_extendedMess_five {header : List Byte} (ex p0 : Byte) (hlen : 5 < header.length) :
    (extendedMess header ex p0).getD 5 0 = p0 := by
  refine getD_set_self ?_
  simpa only [setExtendedFunction, List.length_modify, length_bitSet] using hlen

/-- The header of a framing, of a message that has nothing else yet. -/
def Framing.header (fr : Framing) (pkt : Ccpacket) : List Byte :=
  fr.encodeReceiver (List.replicate fr.size 0) pkt

/-- The extended function of a preset command. -/
def presetFunction (pm : CcFlags) : Byte :=
  if pm = ccPresetRecall then exRecall else if pm = ccPresetStore then exStore else exClear

/-- The message of a preset command. -/
def presetMess (fr : Framing) (pkt : Ccpacket) : List Byte :=
  fr.encodeChecksum (extendedMess (fr.header pkt) (presetFunction (ccpacketGetPresetMode pkt))
    (BitVec.ofInt 8 pkt.preset))

/-- The message of a wiper command. -/
def wiperMess (fr : Framing) (pkt : Ccpacket) : List Byte :=
  fr.encodeChecksum (extendedMess (fr.header pkt)
    (if ccpacketGetWiper pkt = ccWiperOn then exAuxSet else exAuxClear) exAuxWiper)

theorem presetMode_mem (h : ccpacketGetPresetMode pkt ≠ 0) :
    ccpacketGetPresetMode pkt ∈ Field.preset.members := by
  rw [ccpacketGetPresetMode_eq] at h ⊢
  split at h
  · exact absurd rfl h
  · rename_i hpos
    rw [if_neg hpos]
    exact (Field.get_mem _ _).resolve_left h

theorem encodePreset_eq (fr : Framing) (txbuf : Buffer) (h : ccpacketGetPresetMode pkt ≠ 0) :
    encodePreset fr txbuf pkt = ccwriterAppend txbuf (presetMess fr pkt) := by
  have h₁ : ¬ccPresetStore = ccPresetRecall := by decide
  have h₂ : ¬ccPresetClear = ccPresetRecall := by decide
  have h₃ : ¬ccPresetClear = ccPresetStore := by decide
  have hmem := presetMode_mem h
  simp only [Field.members, List.mem_cons, List.not_mem_nil, or_false] at hmem
  unfold presetMess presetFunction
  rcases hmem with hm | hm | hm
  · simp only [encodePreset, hm, if_true]
    rfl
  · simp only [encodePreset, hm, if_neg h₁, if_true]
    rfl
  · simp only [encodePreset, hm, if_neg h₂, if_neg h₃, if_true]
    rfl

theorem encodeWiper_eq (fr : Framing) (txbuf : Buffer) (pkt : Ccpacket) :
    encodeWiper fr txbuf pkt = ccwriterAppend txbuf (wiperMess fr pkt) := rfl

/-- There is a command to encode. -/
def hasCommands (pkt : Ccpacket) : Bool :=
  ccpacketHasCommand pkt || ccpacketHasAutopan pkt || ccpacketHasPower pkt

theorem adjustMenuCommands_of_none (h : Field.menu.get pkt.flags = 0) :
    adjustMenuCommands pkt = pkt := by
  have hne : ∀ m ∈ Field.menu.members, ccpacketGetMenu pkt ≠ m := by
    intro m hm heq
    rw [← heq, ccpacketGetMenu_eq, h] at hm
    exact absurd hm (by decide)
  simp only [adjustMenuCommands, if_neg (hne ccMenuOpen (by decide)),
    if_neg (hne ccMenuEnter (by decide)), if_neg (hne ccMenuCancel (by decide))]

/-! ## One of the two protocols -/

/-- What one protocol adds to what both share. -/
structure Codec where
  framing : Framing
  bits : LensBits
  encodeSense : List Byte → Ccpacket → List Byte
  /-- The bits `encode_sense` sets. -/
  senseBits : Ccpacket → List (Nat × Bool)
  valid : List Byte → Bool
  bits_inCommand : bits.InCommand
  size : 6 < framing.size
  length_header : ∀ pkt, (framing.header pkt).length = framing.size
  header_receiver : ∀ pkt, (framing.header pkt).getD 1 0 = BitVec.ofInt 8 pkt.receiver
  header_zero : ∀ pkt i, 2 ≤ i → i ≤ 5 → (framing.header pkt).getD i 0 = 0
  length_encodeSense : ∀ mess pkt, (encodeSense mess pkt).length = mess.length
  bitIsSet_encodeSense : ∀ mess pkt k, 4 ≤ mess.length →
    bitIsSet (encodeSense mess pkt) k = (tableBit (senseBits pkt) k || bitIsSet mess k)
  getD_encodeSense : ∀ mess pkt i, 2 ≠ i → (encodeSense mess pkt).getD i 0 = mess.getD i 0
  length_encodeChecksum : ∀ mess, (framing.encodeChecksum mess).length = mess.length
  getD_encodeChecksum : ∀ mess i, i < framing.size - 1 →
    (framing.encodeChecksum mess).getD i 0 = mess.getD i 0
  /-- Behind a header, a message with its checksum is valid. -/
  valid_encodeChecksum : ∀ mess pkt, mess.length = framing.size →
    (∀ i, i < 2 ∨ 5 < i → mess.getD i 0 = (framing.header pkt).getD i 0) →
    valid (framing.encodeChecksum mess) = true
  /-- A valid message is what stands before its checksum. -/
  encodeChecksum_eq : ∀ mess mess', mess.length = framing.size → mess'.length = framing.size →
    valid mess = true → (∀ i, i < framing.size - 1 → mess'.getD i 0 = mess.getD i 0) →
    framing.encodeChecksum mess' = mess
  /-- Valid messages to one receiver have one header. -/
  header_eq : ∀ (mess : List Byte) (pkt : Ccpacket), valid mess = true →
    pkt.receiver = (mess.getD 1 0).toNat →
    ∀ i, i < 2 ∨ 5 < i → i < framing.size - 1 → (framing.header pkt).getD i 0 = mess.getD i 0

namespace Codec

variable (c : Codec)

/-- The bits of a command. -/
def commandBits (pkt : Ccpacket) : List (Nat × Bool) := c.senseBits pkt ++ moves c.bits pkt

/-- A command up to its checksum. -/
def commandBody (pkt : Ccpacket) : List Byte :=
  c.encodeSense (encodeMoves c.bits (c.framing.header pkt) pkt) pkt

/-- The message of a command. -/
def commandMess (pkt : Ccpacket) : List Byte := c.framing.encodeChecksum (c.commandBody pkt)

variable {c}

theorem length_commandBody : (c.commandBody pkt).length = c.framing.size := by
  rw [commandBody, c.length_encodeSense, length_encodeMoves, c.length_header]

theorem bitIsSet_commandBody {k : Nat} (hk : InCommand k) :
    bitIsSet (c.commandBody pkt) k = tableBit (c.commandBits pkt) k := by
  have hsize := c.size
  have hheader : bitIsSet (c.framing.header pkt) k = false := by
    unfold InCommand at hk
    rw [bitIsSet, c.header_zero pkt _ (by omega) (by omega)]
    exact BitVec.getLsbD_zero
  rw [commandBody, c.bitIsSet_encodeSense _ _ _ (by rw [length_encodeMoves, c.length_header]; omega),
    bitIsSet_encodeMoves c.bits_inCommand (by rw [c.length_header]; omega) hk, hheader, Bool.or_false,
    commandBits, tableBit_append]

theorem bitIsSet_commandMess {k : Nat} (hk : InCommand k) :
    bitIsSet (c.commandMess pkt) k = tableBit (c.commandBits pkt) k := by
  rw [← bitIsSet_commandBody hk, commandMess, bitIsSet]
  have hsize := c.size
  unfold InCommand at hk
  rw [c.getD_encodeChecksum _ _ (by omega)]
  rfl

theorem getD_commandBody_four : (c.commandBody pkt).getD 4 0 = panByte pkt := by
  have hsize := c.size
  rw [commandBody, c.getD_encodeSense _ _ _ (by decide), getD_encodeMoves_four c.bits_inCommand
    (by rw [c.length_header]; omega)]

theorem getD_commandBody_five : (c.commandBody pkt).getD 5 0 = tiltByte pkt := by
  have hsize := c.size
  rw [commandBody, c.getD_encodeSense _ _ _ (by decide), getD_encodeMoves_five c.bits_inCommand
    (by rw [c.length_header]; omega)]

theorem getD_commandBody {i : Nat} (hi : i < 2 ∨ 5 < i) :
    (c.commandBody pkt).getD i 0 = (c.framing.header pkt).getD i 0 := by
  rw [commandBody, c.getD_encodeSense _ _ _ (by omega), getD_encodeMoves c.bits_inCommand hi]

/-- The messages of an adjusted packet, in order. -/
def messages (c : Codec) (pkt : Ccpacket) : List (List Byte) :=
  (if hasCommands pkt then [c.commandMess pkt] else []) ++
    ((if ccpacketGetPresetMode pkt ≠ 0 then [presetMess c.framing pkt] else []) ++
      if ccpacketGetWiper pkt ≠ 0 then [wiperMess c.framing pkt] else [])

/-- Which message it is. -/
theorem mem_messages {c : Codec} {pkt : Ccpacket} {mess : List Byte} (h : mess ∈ c.messages pkt) :
    mess = c.commandMess pkt ∨ (ccpacketGetPresetMode pkt ≠ 0 ∧ mess = presetMess c.framing pkt) ∨
      mess = wiperMess c.framing pkt := by
  have hone : ∀ {p : Prop} [Decidable p] {m : List Byte}, mess ∈ (if p then [m] else []) →
      p ∧ mess = m := by
    intro p _ m hmem
    split at hmem
    · exact ⟨by assumption, List.mem_singleton.mp hmem⟩
    · exact absurd hmem List.not_mem_nil
  rcases List.mem_append.mp h with h | h
  · exact Or.inl (hone h).2
  rcases List.mem_append.mp h with h | h
  · exact Or.inr (Or.inl (hone h))
  · exact Or.inr (Or.inr (hone h).2)

/-- There are three at most. -/
theorem length_messages (c : Codec) (pkt : Ccpacket) : (c.messages pkt).length ≤ 3 := by
  have hone : ∀ {p : Prop} [Decidable p] {m : List Byte}, (if p then [m] else []).length ≤ 1 := by
    intro p _ m
    split
    · exact le_rfl
    · exact Nat.zero_le 1
  unfold messages
  rw [List.length_append, List.length_append]
  exact Nat.add_le_add hone (Nat.add_le_add hone hone)

/-- Appending what is due, one message after the other. -/
theorem append_messages (c : Codec) (txbuf : Buffer) (pkt : Ccpacket) :
    (let txbuf := if hasCommands pkt then ccwriterAppend txbuf (c.commandMess pkt) else txbuf
     let txbuf := if ccpacketGetPresetMode pkt ≠ 0 then encodePreset c.framing txbuf pkt else txbuf
     if ccpacketGetWiper pkt ≠ 0 then encodeWiper c.framing txbuf pkt else txbuf) =
      (c.messages pkt).foldl ccwriterAppend txbuf := by
  have hstep : ∀ (c : Prop) [Decidable c] (txbuf : Buffer) (mess : List Byte),
      (if c then ccwriterAppend txbuf mess else txbuf) =
        (if c then [mess] else []).foldl ccwriterAppend txbuf := by
    intro c _ txbuf mess
    split <;> rfl
  have hpreset : ∀ txbuf,
      (if ccpacketGetPresetMode pkt ≠ 0 then encodePreset c.framing txbuf pkt else txbuf) =
        if ccpacketGetPresetMode pkt ≠ 0 then ccwriterAppend txbuf (presetMess c.framing pkt)
        else txbuf := by
    intro txbuf
    split
    · rename_i h
      exact encodePreset_eq c.framing txbuf h
    · rfl
  unfold messages
  simp only [List.foldl_append, hpreset, encodeWiper_eq, hstep]

end Codec

end Pelco

end Protozoa
