import Protozoa.Protocol.StorePreset

/-!
# Recalling a preset from the joystick

A press puts its preset into the packet (`joystick.c:178-209`), and the packet is handed to the
writers at the end of the read (`joystick.c:252-259`). So a press counts if nothing sets the preset
after it in its read, or if what does so last is a press of the same button (`EndsInPress`). A
release, another button or an axis in the same read takes it out.

* `handed_recall_iff`: the packet of a read recalls a preset exactly if the events of the read end
  in its press.
* **`pressesDelivered_iff`**: a run delivers every press exactly when every read with a press of a
  button ends in one.
* `not_pressesDelivered`: a press and its release in one read.

Delivered is what is handed to `ccreader_process_packet_no_clear`; which writers it is routed to is
configuration.
-/

namespace Protozoa.Joystick

variable {σ : Type}

/-- The packet that a read hands to `ccreader_process_packet_no_clear`, if it does. -/
def handed (rdr : Ccreader) (batch : List (List Byte)) : Option Ccpacket :=
  if (decodeBatch rdr batch).2 ≠ 0 then some (decodeBatch rdr batch).1.packet else none

/-- It is what the writers get. -/
theorem readBatch_handed (sink : Sink σ) (batch : List (List Byte)) (x : Ccreader × σ) :
    (readBatch sink batch x).2 = match handed x.1 batch with
      | some pkt =>
        (ccreaderProcessPacketNoClear sink { (decodeBatch x.1 batch).1 with packet := pkt } x.2).2
      | none => x.2 := by
  unfold readBatch joystickProcess handed
  by_cases hc : (decodeBatch x.1 batch).2 ≠ 0
  · simp only [if_pos hc]
  · simp only [if_neg hc]

/-- **What is promised of the buttons**: a read with a press of preset button `n` hands the writers
a packet that recalls preset `n`. -/
def PressesDelivered (sink : Sink σ) (batches : List (List (List Byte))) (x : Ccreader × σ) : Prop :=
  ∀ before batch after n e, batches = before ++ batch :: after → e ∈ batch → IsPress n e →
    ∃ pkt ∈ handed (runBatches sink before x).1 batch, held pkt = (ccPresetRecall, n)

/-- The last event of a read that sets the preset is a press of button `n`. -/
def EndsInPress (n : Int) (batch : List (List Byte)) : Prop :=
  ∃ pre p post, batch = pre ++ p :: post ∧ IsPress n p ∧ ∀ x ∈ post, ¬AffectsPreset x

/-! ## One read -/

section

variable {n : Int} {mess : List Byte}

/-- **A read ends in a recall** of preset `n` when the last event that sets the preset is a press of
it. -/
theorem foldl_heldStep_recallOf (l : List (List Byte)) (n : Int) :
    l.foldl heldStep (0, 0) = (ccPresetRecall, n) ↔ EndsInPress n l := by
  constructor
  · intro h
    rcases exists_last AffectsPreset l with hnone | ⟨pre, e, post, rfl, he, hpost⟩
    · rw [foldl_heldStep_keep _ hnone, Prod.mk.injEq] at h
      exact absurd h.1 (by decide)
    · rw [foldl_heldStep_last _ _ _ hpost] at h
      exact ⟨pre, e, post, rfl, (heldStep_eq_recallOf he).mp h, hpost⟩
  · rintro ⟨pre, p, post, rfl, hp, hpost⟩
    rw [foldl_heldStep_last _ _ _ hpost]
    exact (heldStep_eq_recallOf (affects_of_presetButton hp.1).1).mpr hp

/-- A press counts. -/
theorem joystickDecodeEvent_press (rdr : Ccreader) (hp : IsPress n mess) :
    (joystickDecodeEvent rdr mess).1 = true := by
  obtain ⟨hbutton, hdec⟩ := presetButton_number hp.1
  have haxis : ¬isAxis mess = true := by
    rw [(affects_of_presetButton hp.1).2]
    exact Bool.false_ne_true
  unfold joystickDecodeEvent
  rw [if_neg haxis, if_pos hbutton, hdec, hp.2]
  rfl

/-- A read counts what any of its events does. -/
theorem decodeBatch_pos {rdr : Ccreader} {batch : List (List Byte)} {e : List Byte} (he : e ∈ batch)
    (hcounts : ∀ rdr, (joystickDecodeEvent rdr e).1 = true) : (decodeBatch rdr batch).2 ≠ 0 := by
  obtain ⟨pre, post, rfl⟩ := List.append_of_mem he
  unfold decodeBatch
  rw [List.foldl_append, List.foldl_cons]
  have hstep : 0 < (eventStep (pre.foldl eventStep (rdr, 0)) e).2 := by
    show 0 < _ + Bool.toNat (joystickDecodeEvent _ e).1
    rw [hcounts]
    exact Nat.succ_pos _
  exact (Nat.lt_of_lt_of_le hstep (le_foldl_eventStep post _)).ne'

/-- **One read** delivers the presses of button `n` exactly when it ends in one. -/
theorem handed_recall_iff {rdr : Ccreader} {batch : List (List Byte)} (hr : Released rdr) :
    (∃ pkt ∈ handed rdr batch, held pkt = (ccPresetRecall, n)) ↔ EndsInPress n batch := by
  have hheld : held (decodeBatch rdr batch).1.packet = batch.foldl heldStep (0, 0) := by
    rw [decodeBatch, held_foldl_eventStep, hr]
  unfold handed
  constructor
  · rintro ⟨pkt, hpkt, hrecall⟩
    split at hpkt
    · obtain rfl := Option.some.inj hpkt
      rw [hheld] at hrecall
      exact (foldl_heldStep_recallOf batch n).mp hrecall
    · cases hpkt
  · intro hends
    have hpress : ∃ p ∈ batch, IsPress n p := by
      obtain ⟨pre, p, post, rfl, hp, -⟩ := hends
      exact ⟨p, List.mem_append_right pre List.mem_cons_self, hp⟩
    obtain ⟨p, hmem, hp⟩ := hpress
    rw [if_pos (decodeBatch_pos hmem fun rdr => joystickDecodeEvent_press rdr hp)]
    exact ⟨_, rfl, hheld.trans ((foldl_heldStep_recallOf batch n).mpr hends)⟩

end

/-! ## Whole runs -/

/-- **No press is lost**, however the events are split into reads, exactly when every read with a
press of a preset button ends in a press of that button. -/
theorem pressesDelivered_iff (sink : Sink σ) (now : Timeval) (timeout : Nat) (flags : BitVec 32)
    (nodes : List Ccnode) (s : σ) (batches : List (List (List Byte))) :
    PressesDelivered sink batches (ccreaderStart now timeout flags nodes, s) ↔
      ∀ batch ∈ batches, ∀ n, (∃ e ∈ batch, IsPress n e) → EndsInPress n batch := by
  have hreleased : ∀ before, Released
      (runBatches sink before (ccreaderStart now timeout flags nodes, s)).1 :=
    fun before => released_runBatches sink before (released_start now timeout flags nodes)
  constructor
  · rintro h batch hbatch n ⟨e, he, hp⟩
    obtain ⟨before, after, hsplit⟩ := List.append_of_mem hbatch
    exact (handed_recall_iff (hreleased before)).mp (h before batch after n e hsplit he hp)
  · intro h before batch after n e hsplit he hp
    have hbatch : batch ∈ batches := hsplit ▸ List.mem_append_right before List.mem_cons_self
    exact (handed_recall_iff (hreleased before)).mpr (h batch hbatch n ⟨e, he, hp⟩)

/-- A press and its release in one read are lost. -/
theorem not_pressesDelivered : ¬∀ (sink : Sink Unit) (now : Timeval) (timeout : Nat) (flags : BitVec 32)
    (nodes : List Ccnode) (batches : List (List (List Byte))),
    PressesDelivered sink batches (ccreaderStart now timeout flags nodes, ()) := by
  intro h
  obtain ⟨pkt, hpkt, hrecall⟩ := h ⟨fun s => (⟨0, 0⟩, s), fun s _ pkt => (s, pkt)⟩ ⟨0, 0⟩ joystickTimeout 0
    [⟨0, 1, 1, 0⟩] [[press1, release1]] [] [press1, release1] [] 1 press1 rfl List.mem_cons_self (by decide)
  obtain rfl := Option.some.inj hpkt
  revert hrecall
  decide

end Protozoa.Joystick
