import Protozoa.Engine.Isolation
import Protozoa.Protocol.Menu
import Protozoa.Protocol.PressPreset

/-!
# Switching cameras with the joystick

The previous and next buttons change the receiver in the packet of the reader (`joystick.c:135-221`,
`ccreader.c:89-99`), which nothing hands to the writers for their sake. The motion of the packet is
that of the stick (`Tracks`): it goes to the camera of the end of the read, and stays with the
camera it was sent to last if the buttons go on to another one.

* `Tracks.event`, `Tracks.read`: one event, and one read; `tracks_runBatches` is the run.
* `NeverAbandons`: whenever a read ends with another receiver, the packet that the first camera got
  last does not move it.
* **`neverAbandons_iff`**: no camera is left moving exactly when the stick is at rest at the start
  of every read in which a button changes the receiver (`SwitchesAtRest`).
* `not_neverAbandons`: a pan in one read and the next button in another.
-/

namespace Protozoa.Joystick

open Lib.BitField

variable {σ : Type}

/-! ## The stick -/

/-- The last value of an axis. -/
def lastValue (axis : Byte) (history : List (List Byte)) : Int :=
  history.foldl (fun v mess => if isAxis mess && evNumber mess == axis then decodeSpeed mess else v) 0

/-- The stick is where its pan and tilt speeds are 0, and it does not zoom. -/
def AtRest (history : List (List Byte)) : Prop :=
  remapSpeed (lastValue jaxisPan history) = 0 ∧ remapSpeed (lastValue jaxisTilt history) = 0 ∧
    lastValue jaxisZoom history = 0

/-- The packet has neither pan, tilt nor zoom motion. -/
def Still (pkt : Ccpacket) : Prop :=
  ccpacketHasPan pkt = false ∧ ccpacketHasTilt pkt = false ∧ ccpacketGetZoom pkt = 0

instance (history : List (List Byte)) : Decidable (AtRest history) :=
  inferInstanceAs (Decidable (_ ∧ _ ∧ _))
instance (pkt : Ccpacket) : Decidable (Still pkt) := inferInstanceAs (Decidable (_ ∧ _ ∧ _))

/-- An event is a press of the previous or the next button that changes the receiver. -/
def Switches (receiver : Int) (mess : List Byte) : Prop :=
  isButton mess = true ∧ decodePressed mess = true ∧
    (evNumber mess = jbuttonPrevious ∧ receiver > 0 ∨ evNumber mess = jbuttonNext ∧ receiver < 1024)

instance (receiver : Int) (mess : List Byte) : Decidable (Switches receiver mess) :=
  inferInstanceAs (Decidable (_ ∧ _ ∧ _))

/-- The packets that a run hands to the writers, but for their expiration times. -/
def deliveries (sink : Sink σ) : List (List (List Byte)) → Ccreader × σ → List Ccpacket
  | [], _ => []
  | batch :: batches, x =>
    (handed x.1 batch).toList ++ deliveries sink batches (readBatch sink batch x)

/-- The last of them for one receiver. -/
def lastFor (receiver : Int) (pkts : List Ccpacket) : Option Ccpacket :=
  (pkts.filter (·.receiver == receiver)).getLast?

/-- **What is promised of the camera buttons**: when one of them changes the receiver, the last
packet delivered for the old receiver does not move its camera. -/
def NeverAbandons (sink : Sink σ) (batches : List (List (List Byte))) (x : Ccreader × σ) : Prop :=
  ∀ before batch after pre e post, batches = before ++ batch :: after → batch = pre ++ e :: post →
    let receiver := (decodeBatch (runBatches sink before x).1 pre).1.packet.receiver
    Switches receiver e → ∀ pkt ∈ lastFor receiver (deliveries sink before x), Still pkt

/-- A camera button changes the receiver in this read. -/
def SwitchesIn (rdr : Ccreader) (batch : List (List Byte)) : Prop :=
  ∃ pre e post, batch = pre ++ e :: post ∧ Switches (decodeBatch rdr pre).1.packet.receiver e

/-- The stick is at rest at the start of every read with a change of the receiver. -/
def SwitchesAtRest (sink : Sink σ) (batches : List (List (List Byte))) (x : Ccreader × σ) : Prop :=
  ∀ before batch after, batches = before ++ batch :: after →
    SwitchesIn (runBatches sink before x).1 batch → AtRest before.flatten

/-- The writers leave a packet without a menu command alone. -/
def LeavesPlain (sink : Sink σ) : Prop :=
  ∀ s w pkt, ccpacketGetMenu pkt = 0 → (sink.doWrite s w pkt).2 = pkt

/-! ## What an event does to the motion -/

/-- What the results look at in a packet. -/
def motion (pkt : Ccpacket) : Bool × Bool × CcFlags × CcFlags :=
  (ccpacketHasPan pkt, ccpacketHasTilt pkt, ccpacketGetZoom pkt, ccpacketGetMenu pkt)

/-- The packet moves as the stick does. -/
structure Tracks (history : List (List Byte)) (pkt : Ccpacket) : Prop where
  pan : ccpacketHasPan pkt = decide (remapSpeed (lastValue jaxisPan history) ≠ 0)
  tilt : ccpacketHasTilt pkt = decide (remapSpeed (lastValue jaxisTilt history) ≠ 0)
  zoom : ccpacketGetZoom pkt = 0 ↔ lastValue jaxisZoom history = 0
  menu : ccpacketGetMenu pkt = 0

section

variable {history : List (List Byte)} {pkt : Ccpacket} {rdr : Ccreader} {mess : List Byte}

theorem lastValue_snoc (axis : Byte) (history : List (List Byte)) (mess : List Byte) :
    lastValue axis (history ++ [mess]) =
      if isAxis mess && evNumber mess == axis then decodeSpeed mess else lastValue axis history := by
  unfold lastValue
  rw [List.foldl_append]
  rfl

theorem Tracks.still_iff (h : Tracks history pkt) : Still pkt ↔ AtRest history := by
  unfold Still AtRest
  rw [h.pan, h.tilt, h.zoom, decide_eq_false_iff_not, decide_eq_false_iff_not, not_not, not_not]

theorem Tracks.congr (h : Tracks history pkt) {pkt' : Ccpacket} (hmotion : motion pkt' = motion pkt) :
    Tracks history pkt' := by
  simp only [motion, Prod.mk.injEq] at hmotion
  obtain ⟨hpan, htilt, hzoom, hmenu⟩ := hmotion
  exact ⟨hpan.trans h.pan, htilt.trans h.tilt, hzoom ▸ h.zoom, hmenu.trans h.menu⟩

/-- The motion is in the pan, tilt, zoom and menu of a packet. -/
theorem motion_setFlags {mask m : CcFlags} (pkt : Ccpacket) (hm : Within mask m)
    (h : ccPan &&& mask = 0 ∧ ccTilt &&& mask = 0 ∧ ccZoom &&& mask = 0 ∧ ccMenu &&& mask = 0) :
    motion (setFlags mask pkt m) = motion pkt := by
  obtain ⟨hpan, htilt, hzoom, hmenu⟩ := h
  have hpan' : ccpacketGetPanMode (setFlags mask pkt m) = ccpacketGetPanMode pkt := member_put_other hm hpan
  have htilt' : ccpacketGetTiltMode (setFlags mask pkt m) = ccpacketGetTiltMode pkt :=
    member_put_other hm htilt
  have hzoom' : ccpacketGetZoom (setFlags mask pkt m) = ccpacketGetZoom pkt := member_put_other hm hzoom
  have hmenu' : ccpacketGetMenu (setFlags mask pkt m) = ccpacketGetMenu pkt := member_put_other hm hmenu
  unfold motion ccpacketHasPan ccpacketHasTilt
  rw [hpan', htilt', hzoom', hmenu']
  rfl

theorem motion_setPreset (pkt : Ccpacket) (pm : CcFlags) {pNum : Int} (h : pNum < 77) :
    motion (ccpacketSetPreset pkt pm pNum) = motion pkt := by
  have hwithin : Within ccPreset (ccpacketPreset pm pNum) := by
    unfold ccpacketPreset
    split
    · exact within_zero _
    · exact within_member _ _ _
  rw [setPreset_of_lt pkt pm h]
  exact motion_setFlags pkt hwithin (by decide)

/-- The reader after a camera button. -/
def turned (rdr : Ccreader) (mess : List Byte) : Ccreader :=
  if evNumber mess = jbuttonPrevious then if decodePressed mess then ccreaderPreviousCamera rdr else rdr
  else if evNumber mess = jbuttonNext then if decodePressed mess then ccreaderNextCamera rdr else rdr
  else rdr

/-- **A button** changes what is in its field, the preset and the receiver. -/
theorem observe_button {α : Type} (f : Ccpacket → α) (rdr : Ccreader) (mess : List Byte)
    (hfield : ∀ mask ∈ [ccFocus, ccIris, ccWiper, ccCamera], ∀ pkt m, Within mask m →
      f (setFlags mask pkt m) = f pkt)
    (hpreset : ∀ pkt pm n, n < 77 → f (ccpacketSetPreset pkt pm n) = f pkt) :
    f (decodeButton rdr mess).2.packet = f (turned rdr mess).packet := by
  have hturned : ∀ number, evNumber mess = number → number ≠ jbuttonPrevious → number ≠ jbuttonNext →
      turned rdr mess = rdr := by
    intro number hnumber hprevious hnext
    unfold turned
    rw [hnumber, if_neg hprevious, if_neg hnext]
  have hchoose : ∀ (number : Byte) (a b : Bool × Ccreader), number ≠ jbuttonPrevious →
      number ≠ jbuttonNext → f a.2.packet = f rdr.packet → f b.2.packet = f (turned rdr mess).packet →
      f (if evNumber mess = number then a else b).2.packet = f (turned rdr mess).packet := by
    intro number a b hprevious hnext ha hb
    by_cases hnumber : evNumber mess = number
    · rw [if_pos hnumber, ha, hturned number hnumber hprevious hnext]
    · rw [if_neg hnumber, hb]
  have hheld : ∀ (pressed : Bool) (mask value : CcFlags) (members : List CcFlags),
      mask ∈ [ccFocus, ccIris, ccWiper, ccCamera] →
      f (decodeHeldButton rdr pressed (fun pkt m => setFlags mask pkt (member mask members m))
        value).2.packet = f rdr.packet := fun _ mask _ _ hmask => hfield mask hmask _ _ (within_member _ _ _)
  have hbutton : ∀ (pressed moved : Bool) (n : Int), n < 77 →
      f (decodePresetButton rdr pressed moved n).2.packet = f rdr.packet := by
    intro pressed moved n hn
    unfold decodePresetButton
    split
    · exact hpreset _ _ _ hn
    split
    · exact hpreset _ _ _ hn
    · exact hpreset _ 0 0 (by decide)
  refine hchoose _ _ _ (by decide) (by decide) (hheld _ ccFocus _ _ (by decide)) ?_
  refine hchoose _ _ _ (by decide) (by decide) (hheld _ ccFocus _ _ (by decide)) ?_
  refine hchoose _ _ _ (by decide) (by decide) (hheld _ ccIris _ _ (by decide)) ?_
  refine hchoose _ _ _ (by decide) (by decide) (hheld _ ccIris _ _ (by decide)) ?_
  refine hchoose _ _ _ (by decide) (by decide) (hheld _ ccWiper _ _ (by decide)) ?_
  refine hchoose _ _ _ (by decide) (by decide) (hheld _ ccCamera _ _ (by decide)) ?_
  refine hchoose _ _ _ (by decide) (by decide) (hbutton _ _ 1 (by decide)) ?_
  refine hchoose _ _ _ (by decide) (by decide) (hbutton _ _ 2 (by decide)) ?_
  refine hchoose _ _ _ (by decide) (by decide) (hbutton _ _ 3 (by decide)) ?_
  refine hchoose _ _ _ (by decide) (by decide) (hbutton _ _ 4 (by decide)) ?_
  exact hpreset _ 0 0 (by decide)

/-- No button moves the camera. -/
theorem motion_button (rdr : Ccreader) (mess : List Byte) :
    motion (decodeButton rdr mess).2.packet = motion rdr.packet := by
  have hturned : motion (turned rdr mess).packet = motion rdr.packet := by
    have hprevious : motion (ccreaderPreviousCamera rdr).packet = motion rdr.packet := by
      simp only [ccreaderPreviousCamera]
      split <;> rfl
    have hnext : motion (ccreaderNextCamera rdr).packet = motion rdr.packet := by
      simp only [ccreaderNextCamera]
      split <;> rfl
    unfold turned
    split_ifs
    · exact hprevious
    · rfl
    · exact hnext
    · rfl
    · rfl
  refine (observe_button motion rdr mess (fun mask hmask pkt m hm => ?_)
    fun pkt pm n hn => motion_setPreset pkt pm hn).trans hturned
  simp only [List.mem_cons, List.not_mem_nil, or_false] at hmask
  rcases hmask with rfl | rfl | rfl | rfl <;> exact motion_setFlags pkt hm (by decide)

/-- The receiver changes where a camera button is pressed. -/
theorem receiver_event (h : ¬Switches rdr.packet.receiver mess) :
    (joystickDecodeEvent rdr mess).2.packet.receiver = rdr.packet.receiver := by
  have hset : ∀ (pkt : Ccpacket) pm n, n < 77 → (ccpacketSetPreset pkt pm n).receiver = pkt.receiver :=
    fun pkt pm n _ => receiver_setPreset pkt pm n
  unfold joystickDecodeEvent
  split
  · simp only [decodePanTiltZoom, receiver_setPreset]
    split_ifs <;> rfl
  split
  · rename_i hbutton
    refine (observe_button Ccpacket.receiver rdr mess (fun _ _ _ _ _ => rfl) hset).trans ?_
    unfold turned ccreaderPreviousCamera ccreaderNextCamera
    dsimp only
    split_ifs with hprevious hpressed hreceiver hnext hpressed hreceiver
    · exact absurd ⟨hbutton, hpressed, Or.inl ⟨hprevious, hreceiver⟩⟩ h
    · rfl
    · rfl
    · exact absurd ⟨hbutton, hpressed, Or.inr ⟨hnext, hreceiver⟩⟩ h
    · rfl
    · rfl
    · rfl
  · rfl

theorem clampSpeed_remapSpeed_ne (v : Int) : clampSpeed (remapSpeed v) ≠ 0 ↔ remapSpeed v ≠ 0 := by
  have hnonneg : 0 ≤ remapSpeed v := by
    unfold remapSpeed remapInt speedMax jspeedMax
    positivity
  unfold clampSpeed speedMax
  split_ifs <;> omega

/-- A stick at another value of one axis. -/
theorem lastValue_axis (axis : Byte) {axis' : Byte} (haxis : isAxis mess = true)
    (hnumber : evNumber mess = axis') : lastValue axis (history ++ [mess]) =
      if axis' = axis then decodeSpeed mess else lastValue axis history := by
  rw [lastValue_snoc, haxis, hnumber, Bool.true_and]
  simp only [beq_iff_eq]

/-- A packet with another value in one field, and what the others are then. -/
theorem motion_get {q : Ccpacket} {y : Field} {m : CcFlags} (hq : q.flags = y.set m pkt.flags) :
    (y ≠ .pan → ccpacketGetPanMode q = ccpacketGetPanMode pkt) ∧
      (y ≠ .tilt → ccpacketGetTiltMode q = ccpacketGetTiltMode pkt) ∧
      (y ≠ .zoom → ccpacketGetZoom q = ccpacketGetZoom pkt) ∧
      (y ≠ .menu → ccpacketGetMenu q = ccpacketGetMenu pkt) := by
  have hget : ∀ x : Field, y ≠ x → x.get q.flags = x.get pkt.flags := by
    intro x hxy
    rw [hq, Field.get_set, if_neg hxy.symm]
  exact ⟨hget .pan, hget .tilt, hget .zoom, hget .menu⟩

theorem get_setSelf {q : Ccpacket} {y : Field} {m : CcFlags} (hq : q.flags = y.set m pkt.flags) :
    y.get q.flags = y.get m := by
  rw [hq, Field.get_set, if_pos rfl]

theorem Tracks.panEvent (h : Tracks history pkt) (haxis : isAxis mess = true)
    (hnumber : evNumber mess = jaxisPan) : Tracks (history ++ [mess])
      (ccpacketSetPan pkt (decodePanMode (decodeSpeed mess)) (remapSpeed (decodeSpeed mess))) := by
  have hvalue := fun axis => @lastValue_axis history mess axis _ haxis hnumber
  have hq : (ccpacketSetPan pkt (decodePanMode (decodeSpeed mess)) (remapSpeed (decodeSpeed mess))).flags =
      Field.pan.set (decodePanMode (decodeSpeed mess)) pkt.flags := rfl
  obtain ⟨-, htilt, hzoom, hmenu⟩ := motion_get hq
  have hpan : ccpacketGetPanMode (ccpacketSetPan pkt (decodePanMode (decodeSpeed mess))
      (remapSpeed (decodeSpeed mess))) ≠ 0 := by
    rw [ccpacketGetPanMode_eq, get_setSelf hq]
    unfold decodePanMode
    split <;> decide
  refine ⟨?_, ?_, ?_, (hmenu (by decide)).trans h.menu⟩
  · rw [hvalue, if_pos rfl, ← decide_eq_decide.mpr (clampSpeed_remapSpeed_ne _)]
    unfold ccpacketHasPan
    rw [bne_iff_ne.mpr hpan, Bool.true_and, Bool.eq_iff_iff, bne_iff_ne, decide_eq_true_iff]
    rfl
  · rw [hvalue, if_neg (by decide), ← h.tilt]
    unfold ccpacketHasTilt
    rw [htilt (by decide)]
    rfl
  · rw [hvalue, if_neg (by decide), ← h.zoom, hzoom (by decide)]

theorem Tracks.tiltEvent (h : Tracks history pkt) (haxis : isAxis mess = true)
    (hnumber : evNumber mess = jaxisTilt) : Tracks (history ++ [mess])
      (ccpacketSetTilt pkt (decodeTiltMode (decodeSpeed mess)) (remapSpeed (decodeSpeed mess))) := by
  have hvalue := fun axis => @lastValue_axis history mess axis _ haxis hnumber
  have hq : (ccpacketSetTilt pkt (decodeTiltMode (decodeSpeed mess)) (remapSpeed (decodeSpeed mess))).flags =
      Field.tilt.set (decodeTiltMode (decodeSpeed mess)) pkt.flags := rfl
  obtain ⟨hpan, -, hzoom, hmenu⟩ := motion_get hq
  have htilt : ccpacketGetTiltMode (ccpacketSetTilt pkt (decodeTiltMode (decodeSpeed mess))
      (remapSpeed (decodeSpeed mess))) ≠ 0 := by
    rw [ccpacketGetTiltMode_eq, get_setSelf hq]
    unfold decodeTiltMode
    split <;> decide
  refine ⟨?_, ?_, ?_, (hmenu (by decide)).trans h.menu⟩
  · rw [hvalue, if_neg (by decide), ← h.pan]
    unfold ccpacketHasPan
    rw [hpan (by decide)]
    rfl
  · rw [hvalue, if_pos rfl]
    unfold ccpacketHasTilt
    rw [bne_iff_ne.mpr htilt, Bool.true_and, Bool.eq_iff_iff, bne_iff_ne, decide_eq_true_iff]
    rfl
  · rw [hvalue, if_neg (by decide), ← h.zoom, hzoom (by decide)]

theorem Tracks.zoomEvent (h : Tracks history pkt) (haxis : isAxis mess = true)
    (hnumber : evNumber mess = jaxisZoom) {m : CcFlags} (hm : Field.zoom.get m = 0 ↔ decodeSpeed mess = 0) :
    Tracks (history ++ [mess]) (ccpacketSetZoom pkt m) := by
  have hvalue := fun axis => @lastValue_axis history mess axis _ haxis hnumber
  have hq : (ccpacketSetZoom pkt m).flags = Field.zoom.set m pkt.flags := rfl
  obtain ⟨hpan, htilt, -, hmenu⟩ := motion_get hq
  refine ⟨?_, ?_, ?_, (hmenu (by decide)).trans h.menu⟩
  · rw [hvalue, if_neg (by decide), ← h.pan]
    unfold ccpacketHasPan
    rw [hpan (by decide)]
    rfl
  · rw [hvalue, if_neg (by decide), ← h.tilt]
    unfold ccpacketHasTilt
    rw [htilt (by decide)]
    rfl
  · rw [hvalue, if_pos rfl, ← hm, ccpacketGetZoom_eq, get_setSelf hq]

/-- **One event** moves the packet as it moves the stick. -/
theorem Tracks.event (h : Tracks history rdr.packet) :
    Tracks (history ++ [mess]) (joystickDecodeEvent rdr mess).2.packet := by
  have hvalue := fun axis => lastValue_snoc axis history mess
  unfold joystickDecodeEvent
  by_cases haxis : isAxis mess = true
  · rw [if_pos haxis]
    refine Tracks.congr ?_ (motion_setPreset _ 0 (by decide))
    split_ifs with hpan htilt hzoom hout hin
    · exact h.panEvent haxis hpan
    · exact h.tiltEvent haxis htilt
    · refine h.zoomEvent haxis hzoom (iff_of_false (by decide) ?_)
      exact hout.ne
    · refine h.zoomEvent haxis hzoom (iff_of_false (by decide) ?_)
      exact hin.ne'
    · refine h.zoomEvent haxis hzoom (iff_of_true (by decide) ?_)
      exact Int.le_antisymm (Int.not_lt.mp hin) (Int.not_lt.mp hout)
    · have hkeep : ∀ axis ∈ [jaxisPan, jaxisTilt, jaxisZoom],
          lastValue axis (history ++ [mess]) = lastValue axis history := by
        intro axis hmem
        rw [hvalue, if_neg]
        rw [Bool.and_eq_true, beq_iff_eq]
        rintro ⟨-, rfl⟩
        simp only [List.mem_cons, List.not_mem_nil, or_false] at hmem
        rcases hmem with hmem | hmem | hmem
        · exact hpan hmem
        · exact htilt hmem
        · exact hzoom hmem
      refine ⟨?_, ?_, ?_, h.menu⟩
      · rw [hkeep _ (by decide), h.pan]
      · rw [hkeep _ (by decide), h.tilt]
      · rw [hkeep _ (by decide), h.zoom]
  · have hkeep : ∀ axis, lastValue axis (history ++ [mess]) = lastValue axis history := by
      intro axis
      rw [hvalue, if_neg fun hc => haxis (Bool.and_eq_true_iff.mp hc).1]
    rw [if_neg haxis]
    have hsame : Tracks (history ++ [mess]) rdr.packet := by
      refine ⟨?_, ?_, ?_, h.menu⟩
      · rw [hkeep, h.pan]
      · rw [hkeep, h.tilt]
      · rw [hkeep, h.zoom]
    split
    · exact hsame.congr (motion_button rdr mess)
    · exact hsame

end

/-! ## One read -/

section

variable {history batch : List (List Byte)} {rdr : Ccreader} {sink : Sink σ}

theorem decodeBatch_snoc (rdr : Ccreader) (pre : List (List Byte)) (e : List Byte) :
    (decodeBatch rdr (pre ++ [e])).1 = (joystickDecodeEvent (decodeBatch rdr pre).1 e).2 := by
  unfold decodeBatch
  rw [List.foldl_append]
  rfl

theorem Tracks.read (h : Tracks history rdr.packet) (batch : List (List Byte)) :
    Tracks (history ++ batch) (decodeBatch rdr batch).1.packet := by
  induction batch using List.reverseRecOn with
  | nil => rwa [List.append_nil]
  | append_singleton pre e ih =>
    rw [← List.append_assoc, decodeBatch_snoc]
    exact ih.event

/-- A change of the receiver is at the last event, or before it. -/
theorem switchesIn_snoc (rdr : Ccreader) (pre : List (List Byte)) (e : List Byte) :
    SwitchesIn rdr (pre ++ [e]) ↔
      SwitchesIn rdr pre ∨ Switches (decodeBatch rdr pre).1.packet.receiver e := by
  constructor
  · rintro ⟨pre', e', post, hsplit, hswitch⟩
    rcases List.eq_nil_or_concat post with rfl | ⟨post, last, rfl⟩
    · obtain ⟨rfl, hlast⟩ := List.append_inj' hsplit rfl
      obtain rfl := List.singleton_inj.mp hlast
      exact Or.inr hswitch
    · rw [List.concat_eq_append, ← List.cons_append, ← List.append_assoc] at hsplit
      obtain ⟨rfl, -⟩ := List.append_inj' hsplit rfl
      exact Or.inl ⟨pre', e', post, rfl, hswitch⟩
  · rintro (⟨pre', e', post, rfl, hswitch⟩ | hswitch)
    · exact ⟨pre', e', post ++ [e], by rw [List.append_assoc]; rfl, hswitch⟩
    · exact ⟨pre, e, [], rfl, hswitch⟩

/-- The receiver stays where no button changes it. -/
theorem receiver_read (h : ¬SwitchesIn rdr batch) :
    (decodeBatch rdr batch).1.packet.receiver = rdr.packet.receiver := by
  induction batch using List.reverseRecOn with
  | nil => rfl
  | append_singleton pre e ih =>
    rw [switchesIn_snoc, not_or] at h
    rw [decodeBatch_snoc, receiver_event h.2, ih h.1]

/-- **The first change** of the receiver in a read is from the receiver at its start. -/
theorem SwitchesIn.first (h : SwitchesIn rdr batch) : ∃ pre e post, batch = pre ++ e :: post ∧
    (decodeBatch rdr pre).1.packet.receiver = rdr.packet.receiver ∧ Switches rdr.packet.receiver e := by
  induction batch using List.reverseRecOn with
  | nil =>
    obtain ⟨pre, e, post, hsplit, -⟩ := h
    exact absurd hsplit (by simp)
  | append_singleton pre e ih =>
    by_cases hpre : SwitchesIn rdr pre
    · obtain ⟨pre', e', post, hsplit, hfirst⟩ := ih hpre
      exact ⟨pre', e', post ++ [e], by rw [hsplit, List.append_assoc]; rfl, hfirst⟩
    · have hswitch := ((switchesIn_snoc rdr pre e).mp h).resolve_left hpre
      exact ⟨pre, e, [], rfl, receiver_read hpre, receiver_read hpre ▸ hswitch⟩

/-- Where nothing is handed to the writers the stick has not moved. -/
theorem atRest_of_not_handed (h : handed rdr batch = none) :
    AtRest (history ++ batch) ↔ AtRest history := by
  have haxis : ∀ e ∈ batch, isAxis e = false := by
    intro e he
    by_contra hno
    rw [Bool.not_eq_false] at hno
    have hcounts : ∀ rdr, (joystickDecodeEvent rdr e).1 = true := by
      intro rdr
      unfold joystickDecodeEvent
      rw [if_pos hno]
      rfl
    unfold handed at h
    rw [if_pos (decodeBatch_pos he hcounts)] at h
    cases h
  have hvalue : ∀ axis, lastValue axis (history ++ batch) = lastValue axis history := by
    intro axis
    clear h
    induction batch using List.reverseRecOn with
    | nil => rw [List.append_nil]
    | append_singleton pre e ih =>
      rw [← List.append_assoc, lastValue_snoc, haxis e (by simp), Bool.false_and, if_neg Bool.false_ne_true]
      exact ih fun e' he' => haxis e' (List.mem_append_left _ he')
  unfold AtRest
  rw [hvalue, hvalue, hvalue]

theorem handed_eq (rdr : Ccreader) (batch : List (List Byte)) :
    handed rdr batch = none ∨ handed rdr batch = some (decodeBatch rdr batch).1.packet := by
  unfold handed
  split
  · exact Or.inr rfl
  · exact Or.inl rfl

/-- The writers leave the packet of the joystick alone. -/
theorem ccreaderDoWriters_packet (hsink : LeavesPlain sink) {rdr : Ccreader}
    (hmenu : ccpacketGetMenu rdr.packet = 0) (s : σ) :
    (ccreaderDoWriters sink rdr s).1.packet = rdr.packet := by
  have hloop : ∀ (nodes : List Ccnode) (pkt : Ccpacket) (s : σ), ccpacketGetMenu pkt = 0 →
      ∃ r, (doWritersLoop sink rdr.packet.receiver nodes pkt s).1 = ccpacketSetReceiver pkt r := by
    intro nodes
    induction nodes with
    | nil => exact fun pkt _ _ => ⟨pkt.receiver, rfl⟩
    | cons node nodes ih =>
      intro pkt s hpkt
      simp only [doWritersLoop]
      split
      · have hplain : ccpacketGetMenu (ccpacketSetReceiver pkt
            (ccnodeGetReceiver node rdr.packet.receiver)) = 0 := hpkt
        obtain ⟨r, hr⟩ := ih (ccpacketSetReceiver pkt (ccnodeGetReceiver node rdr.packet.receiver))
          (sink.doWrite s node.writer (ccpacketSetReceiver pkt
            (ccnodeGetReceiver node rdr.packet.receiver))).1 hplain
        refine ⟨r, ?_⟩
        rw [hsink _ _ _ hplain, hr]
        rfl
      · exact ih pkt s hpkt
  obtain ⟨r, hr⟩ := hloop rdr.head rdr.packet s hmenu
  show ccpacketSetReceiver _ rdr.packet.receiver = rdr.packet
  rw [hr]
  rfl

/-- After a read the packet is the one that was decoded, without a preset. -/
theorem readBatch_packet (hsink : LeavesPlain sink) (x : Ccreader × σ)
    (hmenu : ccpacketGetMenu (decodeBatch x.1 batch).1.packet = 0) :
    motion (readBatch sink batch x).1.packet = motion (decodeBatch x.1 batch).1.packet ∧
      (readBatch sink batch x).1.packet.receiver = (decodeBatch x.1 batch).1.packet.receiver := by
  have hpreset : ∀ pkt, motion (ccpacketSetPreset pkt 0 0) = motion pkt ∧
      (ccpacketSetPreset pkt 0 0).receiver = pkt.receiver := fun pkt =>
    ⟨motion_setPreset pkt 0 (by decide), receiver_setPreset pkt 0 0⟩
  have hprocess : (ccreaderProcessPacketNoClear sink (decodeBatch x.1 batch).1 x.2).1.packet =
      ccpacketSetTimeout (sink.now x.2).1 (decodeBatch x.1 batch).1.packet
        (decodeBatch x.1 batch).1.timeout := by
    unfold ccreaderProcessPacketNoClear
    refine ccreaderDoWriters_packet hsink ?_ _
    exact hmenu
  unfold readBatch joystickProcess
  dsimp only
  split
  · rw [(hpreset _).1, (hpreset _).2, hprocess]
    exact ⟨rfl, rfl⟩
  · exact hpreset _

end

/-! ## Whole runs -/

section

variable {sink : Sink σ} {x : Ccreader × σ} {before batch : List (List Byte)}

theorem lastFor_append (r : Int) (pkts : List Ccpacket) (o : Option Ccpacket) :
    lastFor r (pkts ++ o.toList) =
      match o with
      | some pkt => if pkt.receiver = r then some pkt else lastFor r pkts
      | none => lastFor r pkts := by
  cases o with
  | none => rw [Option.toList_none, List.append_nil]
  | some pkt =>
    unfold lastFor
    rw [Option.toList_some, List.filter_append]
    by_cases hr : pkt.receiver = r
    · simp [hr]
    · simp [hr]

theorem runBatches_snoc (sink : Sink σ) (before : List (List (List Byte))) (batch : List (List Byte))
    (x : Ccreader × σ) :
    runBatches sink (before ++ [batch]) x = readBatch sink batch (runBatches sink before x) := by
  unfold runBatches
  rw [List.foldl_append]
  rfl

theorem deliveries_snoc (sink : Sink σ) (batch : List (List Byte)) :
    ∀ (before : List (List (List Byte))) (x : Ccreader × σ), deliveries sink (before ++ [batch]) x =
      deliveries sink before x ++ (handed (runBatches sink before x).1 batch).toList
  | [], _ => List.append_nil _
  | b :: before, x => by
    rw [List.cons_append, deliveries, deliveries_snoc sink batch before, deliveries, List.append_assoc]
    rfl

/-- The packet moves as the stick does, at the start of every read. -/
theorem tracks_runBatches (hsink : LeavesPlain sink) (hstart : Tracks [] x.1.packet)
    (before : List (List (List Byte))) :
    Tracks before.flatten (runBatches sink before x).1.packet := by
  induction before using List.reverseRecOn with
  | nil => exact hstart
  | append_singleton before batch ih =>
    have hread := ih.read batch
    rw [runBatches_snoc, List.flatten_append, List.flatten_singleton]
    exact hread.congr (readBatch_packet hsink _ hread.menu).1

/-- **A camera that moves** is the one of the reader, with the stick off rest, if the stick has been
at rest whenever the receiver changed. -/
theorem moving_of_switchesAtRest (hsink : LeavesPlain sink) (hstart : Tracks [] x.1.packet)
    (before : List (List (List Byte))) (h : SwitchesAtRest sink before x) :
    ∀ r, ∀ pkt ∈ lastFor r (deliveries sink before x), ¬Still pkt →
      r = (runBatches sink before x).1.packet.receiver ∧ ¬AtRest before.flatten := by
  induction before using List.reverseRecOn with
  | nil =>
    intro r pkt hpkt
    cases hpkt
  | append_singleton before batch ih =>
    have htracks := tracks_runBatches hsink hstart before
    have hread := htracks.read batch
    have hpacket := (readBatch_packet hsink _ hread.menu).2
    have ih := ih fun before' batch' after hsplit =>
      h before' batch' (after ++ [batch]) (by rw [hsplit, List.append_assoc]; rfl)
    intro r pkt hpkt hmoves
    rw [deliveries_snoc, lastFor_append] at hpkt
    rw [runBatches_snoc, List.flatten_append, List.flatten_singleton, hpacket]
    -- what has been delivered before is of a camera that the reader has not left
    have hearlier : pkt ∈ lastFor r (deliveries sink before x) →
        ¬SwitchesIn (runBatches sink before x).1 batch ∧
          r = (runBatches sink before x).1.packet.receiver ∧ ¬AtRest before.flatten := by
      intro hlast
      obtain ⟨hr, hoff⟩ := ih r pkt hlast hmoves
      exact ⟨fun hin => hoff (h before batch [] rfl hin), hr, hoff⟩
    rcases handed_eq (runBatches sink before x).1 batch with hnone | hsome
    · rw [hnone] at hpkt
      obtain ⟨hin, hr, hoff⟩ := hearlier hpkt
      rw [receiver_read hin, atRest_of_not_handed hnone]
      exact ⟨hr, hoff⟩
    · rw [hsome] at hpkt
      simp only at hpkt
      split at hpkt
      · rename_i hr
        obtain rfl := Option.some.inj hpkt
        exact ⟨hr.symm, fun hrest => hmoves (hread.still_iff.mpr hrest)⟩
      · rename_i hr
        obtain ⟨hin, hr', -⟩ := hearlier hpkt
        exact absurd ((receiver_read hin).trans hr'.symm) hr

/-- **A stick off rest** moves the camera of the reader, if no camera has been left moving. -/
theorem moving_of_neverAbandons (hsink : LeavesPlain sink) (hstart : Tracks [] x.1.packet)
    (before : List (List (List Byte))) (h : NeverAbandons sink before x) (hoff : ¬AtRest before.flatten) :
    ∃ pkt ∈ lastFor (runBatches sink before x).1.packet.receiver (deliveries sink before x), ¬Still pkt := by
  induction before using List.reverseRecOn with
  | nil => exact absurd (by decide) hoff
  | append_singleton before batch ih =>
    have hread := (tracks_runBatches hsink hstart before).read batch
    have hpacket := (readBatch_packet hsink _ hread.menu).2
    rw [List.flatten_append, List.flatten_singleton] at hoff
    rw [runBatches_snoc, deliveries_snoc, hpacket, lastFor_append]
    rcases handed_eq (runBatches sink before x).1 batch with hnone | hsome
    · rw [atRest_of_not_handed hnone] at hoff
      obtain ⟨pkt, hpkt, hmoves⟩ := ih (fun before' batch' after pre e post hsplit =>
        h before' batch' (after ++ [batch]) pre e post (by rw [hsplit, List.append_assoc]; rfl)) hoff
      have hin : ¬SwitchesIn (runBatches sink before x).1 batch := by
        intro hin
        obtain ⟨pre, e, post, hsplit, hreceiver, hswitch⟩ := hin.first
        refine hmoves (h before batch [] pre e post rfl hsplit (hreceiver ▸ hswitch) pkt ?_)
        rw [hreceiver]
        exact hpkt
      rw [hnone, receiver_read hin]
      exact ⟨pkt, hpkt, hmoves⟩
    · rw [hsome]
      simp only [if_pos]
      exact ⟨_, rfl, fun hstill => hoff (hread.still_iff.mp hstill)⟩

/-- **Leaving cameras**: no camera is left moving exactly when the stick is at rest at the start of
every read in which the receiver changes. -/
theorem neverAbandons_iff_of_leavesPlain (hsink : LeavesPlain sink) (hstart : Tracks [] x.1.packet)
    (batches : List (List (List Byte))) :
    NeverAbandons sink batches x ↔ SwitchesAtRest sink batches x := by
  constructor
  · rintro h before batch after hsplit hin
    by_contra hoff
    obtain ⟨pkt, hpkt, hmoves⟩ := moving_of_neverAbandons hsink hstart before
      (fun before' batch' after' pre e post hsplit' =>
        h before' batch' (after' ++ batch :: after) pre e post (by rw [hsplit, hsplit', List.append_assoc]; rfl))
      hoff
    obtain ⟨pre, e, post, hbatch, hreceiver, hswitch⟩ := hin.first
    refine hmoves (h before batch after pre e post hsplit hbatch (hreceiver ▸ hswitch) pkt ?_)
    rw [hreceiver]
    exact hpkt
  · intro h before batch after pre e post hsplit hbatch r hswitch pkt hpkt
    by_contra hmoves
    have hrest := h before batch after hsplit ⟨pre, e, post, hbatch, hswitch⟩
    refine (moving_of_switchesAtRest hsink hstart before (fun before' batch' after' hsplit' => ?_) _ pkt hpkt
      hmoves).2 hrest
    exact h before' batch' (after' ++ batch :: after) (by rw [hsplit, hsplit', List.append_assoc]; rfl)

end

/-! ## The writers of the engine -/

section

open Engine

variable {κ : Type} [DecidableEq κ]

/-- The writers of the program change packets with a menu command only. -/
theorem leavesPlain_engineSink (os : Os) (wtrs : Nat → Ccwriter κ) : LeavesPlain (engineSink os wtrs) := by
  intro s i pkt hmenu
  have hsettled : (wtrs i).protocol.adjust pkt = pkt := adjust_of_noMenu _ hmenu
  cases s with
  | none => rfl
  | some w =>
    simp only [engineSink]
    split
    · rename_i c pkt' w' hrun
      have hpacket := congrArg Prod.fst (ccwriterDoWrite_share wtrs hrun).1
      rw [Share.ccwriterDoWrite_packet, hsettled, ite_self] at hpacket
      exact hpacket
    · rfl

theorem tracks_start (now : Timeval) (timeout : Nat) (flags : BitVec 32) (nodes : List Ccnode) :
    Tracks [] (ccreaderStart now timeout flags nodes).packet := by
  obtain ⟨hflags, hpan, htilt, -⟩ := idle_start now timeout flags nodes
  refine ⟨?_, ?_, ?_, ?_⟩
  · unfold ccpacketHasPan
    rw [hpan]
    exact Bool.and_false _
  · unfold ccpacketHasTilt
    rw [htilt]
    exact Bool.and_false _
  · unfold ccpacketGetZoom
    rw [hflags]
    decide
  · unfold ccpacketGetMenu
    rw [hflags]
    decide

/-- **Switching cameras** abandons no moving camera, however the events are split into reads,
exactly when the stick is at rest at the start of every read in which a camera button changes the
receiver. -/
theorem neverAbandons_iff (os : Os) (wtrs : Nat → Ccwriter κ) (s : Option (World Nat κ)) (now : Timeval)
    (timeout : Nat) (flags : BitVec 32) (nodes : List Ccnode) (batches : List (List (List Byte))) :
    NeverAbandons (engineSink os wtrs) batches (ccreaderStart now timeout flags nodes, s) ↔
      SwitchesAtRest (engineSink os wtrs) batches (ccreaderStart now timeout flags nodes, s) :=
  neverAbandons_iff_of_leavesPlain (leavesPlain_engineSink os wtrs) (tracks_start now timeout flags nodes)
    batches

/-- The stick to the right, and the next button. -/
def panRight : List Byte := [0, 0, 0, 0, 0xff, 0x7f, 2, 0]
def pressNext : List Byte := [0, 0, 0, 0, 1, 0, 1, 11]

/-- A camera that pans is left by the next button. -/
theorem not_neverAbandons : ¬∀ (os : Os) (wtrs : Nat → Ccwriter Unit) (s : Option (World Nat Unit))
    (now : Timeval) (timeout : Nat) (flags : BitVec 32) (nodes : List Ccnode)
    (batches : List (List (List Byte))),
    NeverAbandons (engineSink os wtrs) batches (ccreaderStart now timeout flags nodes, s) := by
  intro h
  have hstill := h standing (fun _ => ⟨.vicon, (), none⟩) (some (start (fun _ => (⟨0, 0⟩, ⟨0, 0⟩))
    fun _ => channelInit [] 0)) ⟨0, 0⟩ joystickTimeout 0 [⟨0, 1, 255, 0⟩] [[panRight], [pressNext]] [[panRight]]
    [pressNext] [] [] pressNext [] rfl rfl (by decide)
  revert hstill
  decide

end

end Protozoa.Joystick
