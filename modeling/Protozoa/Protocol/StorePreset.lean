import Protozoa.Protocol.Joystick

/-!
# Storing a preset from the joystick

A preset button recalls its preset when it is pressed and stores it when it is released after the
stick has moved (`joystick.c:178-209`). Whether it has is read off the preset of the packet
(`movedSincePressed`, `joystick.c:124-130`), which is taken out at the end of every read
(`joystick.c:252-259`); so a release in a later read than its press looks moved.

* `held`, `heldStep`: the preset of the packet, event by event; `foldl_heldStep_store` says when the
  events of a read end in a store.
* `delivers_iff`, `released_readBatch`: what a read hands to the writers.
* **`storesOnlyMoved_iff`**: a run stores only what was moved exactly when no unmoved release is
  decisive in its read (`ReleasesShadowed`).
* `not_storesOnlyMoved`: a press in one read and its release in the next.
-/

namespace Protozoa.Joystick

open Lib.BitField

variable {σ : Type}

/-! ## Events and the preset -/

/-- The preset of a preset button. -/
def presetButton (mess : List Byte) : Option Int :=
  if isButton mess then
    if evNumber mess = jbuttonPreset1 then some 1
    else if evNumber mess = jbuttonPreset2 then some 2
    else if evNumber mess = jbuttonPreset3 then some 3
    else if evNumber mess = jbuttonPreset4 then some 4
    else none
  else none

/-- Preset button `n` is pressed. -/
def IsPress (n : Int) (mess : List Byte) : Prop := presetButton mess = some n ∧ decodePressed mess = true

/-- Preset button `n` is released. -/
def IsRelease (n : Int) (mess : List Byte) : Prop :=
  presetButton mess = some n ∧ decodePressed mess = false

/-- An event of the pan, tilt or zoom axis. -/
def IsMove (mess : List Byte) : Prop :=
  isAxis mess = true ∧
    (evNumber mess = jaxisPan ∨ evNumber mess = jaxisTilt ∨ evNumber mess = jaxisZoom)

/-- An event that sets the preset of the packet: any axis, and any button but those for focus, iris,
wiper and camera. -/
def AffectsPreset (mess : List Byte) : Prop :=
  isAxis mess = true ∨ (isButton mess = true ∧ evNumber mess ∉
    [jbuttonFocusNear, jbuttonFocusFar, jbuttonIrisClose, jbuttonIrisOpen, jbuttonWiper, jbuttonCamera])

instance (n : Int) (mess : List Byte) : Decidable (IsPress n mess) := inferInstanceAs (Decidable (_ ∧ _))
instance (n : Int) (mess : List Byte) : Decidable (IsRelease n mess) :=
  inferInstanceAs (Decidable (_ ∧ _))
instance (mess : List Byte) : Decidable (IsMove mess) := inferInstanceAs (Decidable (_ ∧ _))
instance (mess : List Byte) : Decidable (AffectsPreset mess) := inferInstanceAs (Decidable (_ ∨ _))

/-- Whether the stick has moved since button `n` was pressed last; `none` if it never was. -/
def sincePress (n : Int) (history : List (List Byte)) : Option Bool :=
  history.foldl (fun moved mess =>
    if IsPress n mess then some false else if IsMove mess then moved.map fun _ => true else moved) none

/-- Mode and number of the preset in a packet. -/
def held (pkt : Ccpacket) : CcFlags × Int := (ccpacketGetPresetMode pkt, pkt.preset)

/-- What an event makes of the preset in the packet. -/
def heldStep (h : CcFlags × Int) (mess : List Byte) : CcFlags × Int :=
  if AffectsPreset mess then
    match presetButton mess with
    | none => (0, 0)
    | some n =>
      if decodePressed mess then (ccPresetRecall, n)
      else if h.1 ≠ ccPresetRecall then (ccPresetStore, n)
      else (0, 0)
  else h

theorem held_setFlags {mask m : CcFlags} (pkt : Ccpacket) (hm : Within mask m)
    (h : ccPreset &&& mask = 0) : held (setFlags mask pkt m) = held pkt := by
  have hflags : member ccPreset [ccPresetRecall, ccPresetStore, ccPresetClear] (put mask m pkt.flags) =
      member ccPreset [ccPresetRecall, ccPresetStore, ccPresetClear] pkt.flags :=
    member_put_other hm h
  simp only [held, ccpacketGetPresetMode, ccpacketPreset, setFlags, hflags]

/-- A preset that is no menu preset is set as it is. -/
theorem setPreset_of_lt (pkt : Ccpacket) (pm : CcFlags) {pNum : Int} (h : pNum < 77) :
    ccpacketSetPreset pkt pm pNum =
      { setFlags ccPreset pkt (ccpacketPreset pm pNum) with preset := pNum } := by
  have hno : ccpacketMenuPreset pkt pNum = (false, pkt) := by
    have hopen : ¬pNum = menuOpenPreset := by unfold menuOpenPreset; omega
    have henter : ¬pNum = menuEnterPreset := by unfold menuEnterPreset; omega
    have hcancel : ¬pNum = menuCancelPreset := by unfold menuCancelPreset; omega
    unfold ccpacketMenuPreset
    rw [if_neg hopen, if_neg henter, if_neg hcancel]
  simp only [ccpacketSetPreset, hno, setFlags, put, BitVec.or_comm]
  split <;> rfl

/-- A preset that is no menu preset is read back as it was set. -/
theorem held_setPreset (pkt : Ccpacket) (pm : CcFlags) {pNum : Int} (h : pNum < 77) :
    held (ccpacketSetPreset pkt pm pNum) = (ccpacketPreset pm pNum, pNum) := by
  rw [setPreset_of_lt pkt pm h]
  simp only [held, ccpacketGetPresetMode, setFlags, Prod.mk.injEq, and_true]
  unfold ccpacketPreset
  split
  · rfl
  · exact member_put_self _ _ _ _

theorem held_heldButton (rdr : Ccreader) (pressed : Bool) {mask value : CcFlags}
    (members : List CcFlags) (h : ccPreset &&& mask = 0) :
    held (decodeHeldButton rdr pressed (fun pkt m => setFlags mask pkt (member mask members m))
      value).2.packet = held rdr.packet :=
  held_setFlags _ (within_member _ _ _) h

theorem held_presetButton (rdr : Ccreader) (pressed : Bool) {pNum : Int} (h0 : 0 < pNum)
    (h : pNum < 77) :
    held (decodePresetButton rdr pressed (movedSincePressed rdr.packet) pNum).2.packet =
      if pressed then (ccPresetRecall, pNum)
      else if (held rdr.packet).1 ≠ ccPresetRecall then (ccPresetStore, pNum)
      else (0, 0) := by
  have hmode : ∀ pm, pm = ccPresetRecall ∨ pm = ccPresetStore → ccpacketPreset pm pNum = pm := by
    intro pm hpm
    unfold ccpacketPreset
    rw [if_neg (Int.not_le.mpr h0)]
    rcases hpm with rfl | rfl <;> decide
  unfold decodePresetButton
  cases pressed with
  | true => exact (held_setPreset _ _ h).trans (by rw [hmode _ (Or.inl rfl)]; rfl)
  | false =>
    by_cases hm : ccpacketGetPresetMode rdr.packet = ccPresetRecall
    · have hmoved : movedSincePressed rdr.packet = false := by simp [movedSincePressed, hm]
      rw [hmoved, if_neg (show ¬(held rdr.packet).1 ≠ ccPresetRecall from not_not.mpr hm)]
      exact held_setPreset _ _ (by decide)
    · have hmoved : movedSincePressed rdr.packet = true := bne_iff_ne.mpr hm
      rw [hmoved, if_pos (show (held rdr.packet).1 ≠ ccPresetRecall from hm)]
      exact (held_setPreset _ _ h).trans (by rw [hmode _ (Or.inr rfl)]; rfl)

/-- A button changes the preset of the packet as `heldStep` says. -/
theorem held_button {rdr : Ccreader} {mess : List Byte} (haxis : isAxis mess = false)
    (hbutton : isButton mess = true) :
    held (decodeButton rdr mess).2.packet = heldStep (held rdr.packet) mess := by
  by_cases hheld : evNumber mess ∈ [jbuttonFocusNear, jbuttonFocusFar, jbuttonIrisClose,
      jbuttonIrisOpen, jbuttonWiper, jbuttonCamera]
  · have hno : ¬AffectsPreset mess := by
      rintro (h | h)
      · rw [haxis] at h
        cases h
      · exact h.2 hheld
    rw [heldStep, if_neg hno]
    simp only [List.mem_cons, List.not_mem_nil, or_false] at hheld
    unfold decodeButton
    rcases hheld with h | h | h | h | h | h <;> rw [h]
    · exact held_heldButton rdr _ _ (by decide)
    · exact held_heldButton rdr _ _ (by decide)
    · exact held_heldButton rdr _ _ (by decide)
    · exact held_heldButton rdr _ _ (by decide)
    · exact held_heldButton rdr _ _ (by decide)
    · exact held_heldButton rdr _ _ (by decide)
  · have haff : AffectsPreset mess := Or.inr ⟨hbutton, hheld⟩
    rw [heldStep, if_pos haff]
    simp only [List.mem_cons, List.not_mem_nil, or_false, not_or] at hheld
    obtain ⟨h0, h1, h2, h3, h4, h5⟩ := hheld
    unfold decodeButton presetButton
    simp only [if_neg h0, if_neg h1, if_neg h2, if_neg h3, if_neg h4, if_neg h5, if_pos hbutton]
    split
    · exact held_presetButton rdr _ (by decide) (by decide)
    split
    · exact held_presetButton rdr _ (by decide) (by decide)
    split
    · exact held_presetButton rdr _ (by decide) (by decide)
    split
    · exact held_presetButton rdr _ (by decide) (by decide)
    · exact held_setPreset _ 0 (by decide)

/-- **One event** changes the preset of the packet as `heldStep` says. -/
theorem held_event (rdr : Ccreader) (mess : List Byte) :
    held (joystickDecodeEvent rdr mess).2.packet = heldStep (held rdr.packet) mess := by
  unfold joystickDecodeEvent
  cases haxis : isAxis mess with
  | true =>
    have hno : presetButton mess = none := by simp [presetButton, isButton, haxis]
    have hstep : heldStep (held rdr.packet) mess = (0, 0) := by
      unfold heldStep
      rw [if_pos (show AffectsPreset mess from Or.inl haxis), hno]
    rw [hstep]
    exact held_setPreset _ 0 (by decide)
  | false =>
    cases hbutton : isButton mess with
    | false =>
      have hno : ¬AffectsPreset mess := by simp [AffectsPreset, haxis, hbutton]
      rw [heldStep, if_neg hno]
      rfl
    | true => exact held_button haxis hbutton

/-! ## The events of one read -/

theorem affects_of_presetButton {mess : List Byte} {n : Int} (h : presetButton mess = some n) :
    AffectsPreset mess ∧ isAxis mess = false := by
  unfold presetButton at h
  split at h
  · rename_i hbutton
    refine ⟨Or.inr ⟨hbutton, ?_⟩, ?_⟩
    · intro hmem
      simp only [List.mem_cons, List.not_mem_nil, or_false] at hmem
      rcases hmem with hm | hm | hm | hm | hm | hm <;> rw [hm] at h <;> cases h
    · simp only [isButton, Bool.and_eq_true, Bool.not_eq_true'] at hbutton
      exact hbutton.1.1
  · cases h

theorem affects_of_isMove {mess : List Byte} (h : IsMove mess) : AffectsPreset mess := Or.inl h.1

/-- A list has a last element with a property, or none. -/
theorem exists_last {α : Type} (P : α → Prop) [DecidablePred P] :
    ∀ l : List α, (∀ x ∈ l, ¬P x) ∨ ∃ pre e post, l = pre ++ e :: post ∧ P e ∧ ∀ x ∈ post, ¬P x
  | [] => Or.inl fun _ h => absurd h List.not_mem_nil
  | a :: l => by
    rcases exists_last P l with hnone | ⟨pre, e, post, rfl, he, hpost⟩
    · by_cases ha : P a
      · exact Or.inr ⟨[], a, l, rfl, ha, hnone⟩
      · refine Or.inl fun x hx => ?_
        rcases List.mem_cons.mp hx with rfl | hx
        · exact ha
        · exact hnone x hx
    · exact Or.inr ⟨a :: pre, e, post, rfl, he, hpost⟩

theorem foldl_heldStep_keep {l : List (List Byte)} (h : CcFlags × Int)
    (hl : ∀ x ∈ l, ¬AffectsPreset x) : l.foldl heldStep h = h := by
  induction l with
  | nil => rfl
  | cons x l ih =>
    have hx : heldStep h x = h := if_neg (hl x List.mem_cons_self)
    rw [List.foldl_cons, hx]
    exact ih fun y hy => hl y (List.mem_cons_of_mem _ hy)

/-- Only the last event that sets the preset counts. -/
theorem foldl_heldStep_last (h : CcFlags × Int) (pre : List (List Byte)) (e : List Byte) {post : List (List Byte)}
    (hpost : ∀ x ∈ post, ¬AffectsPreset x) :
    (pre ++ e :: post).foldl heldStep h = heldStep (pre.foldl heldStep h) e := by
  rw [List.foldl_append, List.foldl_cons, foldl_heldStep_keep _ hpost]

theorem heldStep_eq_store {h : CcFlags × Int} {mess : List Byte} {n : Int}
    (haff : AffectsPreset mess) :
    heldStep h mess = (ccPresetStore, n) ↔ IsRelease n mess ∧ h.1 ≠ ccPresetRecall := by
  have h0 : 0#32 ≠ ccPresetStore := by decide
  have h1 : ccPresetRecall ≠ ccPresetStore := by decide
  unfold heldStep IsRelease
  rw [if_pos haff]
  cases hb : presetButton mess with
  | none => simp [h0]
  | some k =>
    cases hp : decodePressed mess with
    | true => simp [h1]
    | false =>
      by_cases hr : h.1 = ccPresetRecall
      · simp [hr, h0]
      · simp [hr]

theorem heldStep_eq_recallOf {h : CcFlags × Int} {mess : List Byte} {n : Int} (haff : AffectsPreset mess) :
    heldStep h mess = (ccPresetRecall, n) ↔ IsPress n mess := by
  have h0 : 0#32 ≠ ccPresetRecall := by decide
  have h1 : ccPresetStore ≠ ccPresetRecall := by decide
  unfold heldStep IsPress
  rw [if_pos haff]
  cases hb : presetButton mess with
  | none => simp [h0]
  | some k =>
    cases hp : decodePressed mess with
    | true => simp
    | false =>
      by_cases hr : h.1 = ccPresetRecall
      · simp [hr, h0]
      · simp [hr, h1]

theorem heldStep_eq_recall {h : CcFlags × Int} {mess : List Byte} (haff : AffectsPreset mess) :
    (heldStep h mess).1 = ccPresetRecall ↔ ∃ k, IsPress k mess := by
  constructor
  · intro hrecall
    exact ⟨(heldStep h mess).2, (heldStep_eq_recallOf haff).mp (Prod.ext hrecall rfl)⟩
  · rintro ⟨k, hk⟩
    rw [(heldStep_eq_recallOf haff).mpr hk]

/-- The last event that sets the preset is a press. -/
def EndsPressed (l : List (List Byte)) : Prop :=
  ∃ pre p post, l = pre ++ p :: post ∧ (∃ k, IsPress k p) ∧ ∀ x ∈ post, ¬AffectsPreset x

theorem foldl_heldStep_recall (l : List (List Byte)) :
    (l.foldl heldStep (0, 0)).1 = ccPresetRecall ↔ EndsPressed l := by
  constructor
  · intro h
    rcases exists_last AffectsPreset l with hnone | ⟨pre, e, post, rfl, he, hpost⟩
    · rw [foldl_heldStep_keep _ hnone] at h
      exact absurd h (by decide)
    · rw [foldl_heldStep_last _ _ _ hpost] at h
      exact ⟨pre, e, post, rfl, (heldStep_eq_recall he).mp h, hpost⟩
  · rintro ⟨pre, p, post, rfl, ⟨k, hk⟩, hpost⟩
    rw [foldl_heldStep_last _ _ _ hpost]
    exact (heldStep_eq_recall (affects_of_presetButton hk.1).1).mpr ⟨k, hk⟩

/-- **A read ends in a store** of preset `n` when the last event that sets the preset is a release
of button `n`, and the one before it in the read is no press. -/
theorem foldl_heldStep_store (l : List (List Byte)) (n : Int) :
    l.foldl heldStep (0, 0) = (ccPresetStore, n) ↔
      ∃ pre e post, l = pre ++ e :: post ∧ IsRelease n e ∧ (∀ x ∈ post, ¬AffectsPreset x) ∧
        ¬EndsPressed pre := by
  constructor
  · intro h
    rcases exists_last AffectsPreset l with hnone | ⟨pre, e, post, rfl, he, hpost⟩
    · rw [foldl_heldStep_keep _ hnone, Prod.mk.injEq] at h
      exact absurd h.1 (by decide)
    · rw [foldl_heldStep_last _ _ _ hpost] at h
      obtain ⟨hrel, hmode⟩ := (heldStep_eq_store he).mp h
      exact ⟨pre, e, post, rfl, hrel, hpost, fun hp => hmode ((foldl_heldStep_recall pre).mpr hp)⟩
  · rintro ⟨pre, e, post, rfl, hrel, hpost, hpre⟩
    rw [foldl_heldStep_last _ _ _ hpost]
    refine (heldStep_eq_store (affects_of_presetButton hrel.1).1).mpr ⟨hrel, fun hm => hpre ?_⟩
    exact (foldl_heldStep_recall pre).mp hm

/-! ## The reader in one read -/

theorem held_foldl_eventStep : ∀ (l : List (List Byte)) (rdr : Ccreader) (c : Nat),
    held (l.foldl eventStep (rdr, c)).1.packet = l.foldl heldStep (held rdr.packet)
  | [], _, _ => rfl
  | mess :: l, rdr, c => by
    rw [List.foldl_cons, List.foldl_cons, ← held_event]
    exact held_foldl_eventStep l _ _

theorem le_foldl_eventStep : ∀ (l : List (List Byte)) (x : Ccreader × Nat),
    x.2 ≤ (l.foldl eventStep x).2
  | [], _ => le_rfl
  | mess :: l, x => by
    have hstep : x.2 ≤ (eventStep x mess).2 := Nat.le_add_right _ _
    exact hstep.trans (le_foldl_eventStep l (eventStep x mess))

theorem presetButton_number {mess : List Byte} {n : Int} (h : presetButton mess = some n) :
    isButton mess = true ∧ ∀ rdr, decodeButton rdr mess =
      decodePresetButton rdr (decodePressed mess) (movedSincePressed rdr.packet) n := by
  unfold presetButton at h
  split at h
  · rename_i hbutton
    refine ⟨hbutton, fun rdr => ?_⟩
    unfold decodeButton
    split at h
    · rename_i hn
      cases h
      rw [hn]
      rfl
    split at h
    · rename_i hn
      cases h
      rw [hn]
      rfl
    split at h
    · rename_i hn
      cases h
      rw [hn]
      rfl
    split at h
    · rename_i hn
      cases h
      rw [hn]
      rfl
    · cases h
  · cases h

/-- An event that stores a preset counts. -/
theorem joystickDecodeEvent_release {rdr : Ccreader} {mess : List Byte} {n : Int}
    (hrel : IsRelease n mess) (hmode : (held rdr.packet).1 ≠ ccPresetRecall) :
    (joystickDecodeEvent rdr mess).1 = true := by
  obtain ⟨hbutton, hdec⟩ := presetButton_number hrel.1
  have hmoved : movedSincePressed rdr.packet = true := bne_iff_ne.mpr hmode
  unfold joystickDecodeEvent
  rw [if_neg (by rw [(affects_of_presetButton hrel.1).2]; decide), if_pos hbutton, hdec, hrel.2, hmoved]
  rfl

/-- The read hands the writers a packet that stores preset `n`. -/
def Delivers (n : Int) (rdr : Ccreader) (batch : List (List Byte)) : Prop :=
  (decodeBatch rdr batch).2 ≠ 0 ∧ held (decodeBatch rdr batch).1.packet = (ccPresetStore, n)

/-- A reader between two reads. -/
def Released (rdr : Ccreader) : Prop := held rdr.packet = (0, 0)

theorem delivers_iff {n : Int} {rdr : Ccreader} {batch : List (List Byte)} (hr : Released rdr) :
    Delivers n rdr batch ↔ ∃ pre e post, batch = pre ++ e :: post ∧ IsRelease n e ∧
      (∀ x ∈ post, ¬AffectsPreset x) ∧ ¬EndsPressed pre := by
  rw [← foldl_heldStep_store, Delivers, decodeBatch, held_foldl_eventStep, hr]
  refine and_iff_right_of_imp fun h => ?_
  obtain ⟨pre, e, post, rfl, hrel, -, hpre⟩ := (foldl_heldStep_store _ _).mp h
  have hmode : (held (pre.foldl eventStep (rdr, 0)).1.packet).1 ≠ ccPresetRecall := by
    rw [held_foldl_eventStep, hr]
    exact fun hm => hpre ((foldl_heldStep_recall pre).mp hm)
  have hcount := le_foldl_eventStep post (eventStep (pre.foldl eventStep (rdr, 0)) e)
  rw [List.foldl_append, List.foldl_cons]
  have hpos : 0 < (eventStep (pre.foldl eventStep (rdr, 0)) e).2 := by
    show 0 < _ + Bool.toNat (joystickDecodeEvent _ e).1
    rw [joystickDecodeEvent_release hrel hmode]
    exact Nat.succ_pos _
  omega

theorem released_readBatch (sink : Sink σ) (batch : List (List Byte)) (x : Ccreader × σ) :
    Released (readBatch sink batch x).1 := held_setPreset _ 0 (by decide)

theorem released_runBatches (sink : Sink σ) : ∀ (batches : List (List (List Byte))) {x : Ccreader × σ},
    Released x.1 → Released (runBatches sink batches x).1
  | [], _, h => h
  | batch :: batches, x, _ => released_runBatches sink batches (released_readBatch sink batch x)

theorem released_start (now : Timeval) (timeout : Nat) (flags : BitVec 32) (nodes : List Ccnode) :
    Released (ccreaderStart now timeout flags nodes) := by
  have hidle := idle_start now timeout flags nodes
  unfold Released held ccpacketGetPresetMode
  rw [hidle.2.2.2]
  rfl

/-! ## Whole runs -/

theorem sincePress_append_keep {n : Int} {history l : List (List Byte)}
    (h : ∀ x ∈ l, ¬IsPress n x ∧ ¬IsMove x) : sincePress n (history ++ l) = sincePress n history := by
  unfold sincePress
  rw [List.foldl_append]
  induction l with
  | nil => rfl
  | cons x l ih =>
    obtain ⟨hp, hm⟩ := h x List.mem_cons_self
    rw [List.foldl_cons, if_neg hp, if_neg hm]
    exact ih fun y hy => h y (List.mem_cons_of_mem _ hy)

/-- A release, and what does not set the preset after it, does not change whether the stick moved.
-/
theorem sincePress_release {n : Int} {history post : List (List Byte)} {e : List Byte}
    (hrel : IsRelease n e) (hpost : ∀ x ∈ post, ¬AffectsPreset x) :
    sincePress n (history ++ e :: post) = sincePress n history := by
  refine sincePress_append_keep fun x hx => ?_
  rcases List.mem_cons.mp hx with rfl | hx
  · refine ⟨fun hp => ?_, fun hm => ?_⟩
    · exact absurd (hp.2.symm.trans hrel.2) (by decide)
    · exact absurd (hm.1.symm.trans (affects_of_presetButton hrel.1).2) (by decide)
  · exact ⟨fun hp => hpost x hx (affects_of_presetButton hp.1).1, fun hm => hpost x hx (affects_of_isMove hm)⟩

/-- **What is promised of the joystick**: a read stores preset `n` only if the stick has moved since
button `n` was pressed last. -/
def StoresOnlyMoved (sink : Sink σ) (batches : List (List (List Byte))) (x : Ccreader × σ) : Prop :=
  ∀ before batch after n, batches = before ++ batch :: after →
    Delivers n (runBatches sink before x).1 batch → sincePress n (before.flatten ++ batch) = some true

/-- Each release of a button without a move since its press is in one read with a press of a preset
button that is the last event before it to set the preset, or with a later event that sets it. -/
def ReleasesShadowed (batches : List (List (List Byte))) : Prop :=
  ∀ before batch after n pre e post, batches = before ++ batch :: after → batch = pre ++ e :: post →
    IsRelease n e → sincePress n (before.flatten ++ pre) ≠ some true →
    EndsPressed pre ∨ ∃ x ∈ post, AffectsPreset x

/-- **Stores and moves**: however the events are split into reads, the presets stored are those of
moved sticks exactly when every unmoved release is shadowed in its read. -/
theorem storesOnlyMoved_iff (sink : Sink σ) (now : Timeval) (timeout : Nat) (flags : BitVec 32)
    (nodes : List Ccnode) (s : σ) (batches : List (List (List Byte))) :
    StoresOnlyMoved sink batches (ccreaderStart now timeout flags nodes, s) ↔
      ReleasesShadowed batches := by
  have hreleased : ∀ before, Released
      (runBatches sink before (ccreaderStart now timeout flags nodes, s)).1 :=
    fun before => released_runBatches sink before (released_start now timeout flags nodes)
  constructor
  · intro h before batch after n pre e post hb hsplit hrel hmoved
    by_contra hno
    obtain ⟨hpre, hpost⟩ := not_or.mp hno
    have hpost : ∀ x ∈ post, ¬AffectsPreset x := fun x hx ha => hpost ⟨x, hx, ha⟩
    have hdel := (delivers_iff (hreleased before)).mpr ⟨pre, e, post, hsplit, hrel, hpost, hpre⟩
    have hmove := h before batch after n hb hdel
    rw [hsplit, ← List.append_assoc, sincePress_release hrel hpost] at hmove
    exact hmoved hmove
  · intro h before batch after n hb hdel
    obtain ⟨pre, e, post, hsplit, hrel, hpost, hpre⟩ := (delivers_iff (hreleased before)).mp hdel
    by_contra hmoved
    have hmoved' : sincePress n (before.flatten ++ pre) ≠ some true := by
      rw [hsplit, ← List.append_assoc, sincePress_release hrel hpost] at hmoved
      exact hmoved
    rcases h before batch after n pre e post hb hsplit hrel hmoved' with hp | ⟨x, hx, hax⟩
    · exact hpre hp
    · exact hpost x hx hax

/-- Press and release of the first preset button. -/
def press1 : List Byte := [0, 0, 0, 0, 1, 0, 1, 6]
def release1 : List Byte := [0, 0, 0, 0, 0, 0, 1, 6]

/-- A press and a release in two reads store the preset although nothing moved. -/
theorem not_storesOnlyMoved : ¬∀ (sink : Sink Unit) (now : Timeval) (timeout : Nat)
    (flags : BitVec 32) (nodes : List Ccnode) (batches : List (List (List Byte))),
    StoresOnlyMoved sink batches (ccreaderStart now timeout flags nodes, ()) := by
  intro h
  have hdel : Delivers 1 (runBatches ⟨fun s => (⟨0, 0⟩, s), fun s _ pkt => (s, pkt)⟩ [[press1]]
      (ccreaderStart ⟨0, 0⟩ joystickTimeout 0 [⟨0, 1, 1, 0⟩], ())).1 [release1] := by
    constructor <;> decide
  have hmove := h ⟨fun s => (⟨0, 0⟩, s), fun s _ pkt => (s, pkt)⟩ ⟨0, 0⟩ joystickTimeout 0
    [⟨0, 1, 1, 0⟩] [[press1], [release1]] [[press1]] [release1] [] 1 rfl hdel
  revert hmove
  decide

end Protozoa.Joystick
