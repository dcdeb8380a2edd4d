import Protozoa.Engine.Passes

/-!
# The repetition of a stop

A stop is transmitted twice, the second time from the queue. Whether a stop that is transmitted is
the first or the second is taken from `n_cnt` of the slot (`ccwriter.c:165-183`), which counts the
stops that were transmitted, modulo 2 (`Counts`). A packet that takes the place of the queued stop
leaves `n_cnt` as it is, so that the next stop is taken for the repetition.

* `Pass.Called.nCnt`: what one call does to the count.
* `repeated_iff`: a stop that is no repetition is queued exactly when an even number of stops was
  transmitted to its receiver before.
* **`stops_repeated_iff`**: the run, for every call in it.
* `not_stops_repeated`: a stop, a pan in its place before it is repeated, and a stop again.
-/

namespace Protozoa.Engine

variable {ι κ : Type}

/-- A stop is transmitted. -/
def Pass.Stops (p : Pass ι κ) : Prop := 0 < p.count ∧ ccpacketIsStop p.pkt = true

instance (p : Pass ι κ) : Decidable p.Stops := inferInstanceAs (Decidable (_ ∧ _))

/-- The call is for a receiver of a writer. -/
def Pass.To (p : Pass ι κ) (i : ι) (r : Int) : Prop := p.wtr = i ∧ p.pkt.receiver = r

variable [DecidableEq ι]

instance (p : Pass ι κ) (i : ι) (r : Int) : Decidable (p.To i r) := inferInstanceAs (Decidable (_ ∧ _))

/-- The stop that was transmitted last to the receiver is queued for its repetition. The calls are
the latest first. -/
def awaits (i : ι) (r : Int) : List (Pass ι κ) → Bool
  | [] => false
  | p :: earlier =>
    if p.To i r then
      -- a repetition that comes too soon is put off
      if p.deferred && awaits i r earlier then p.count == 0 else decide p.Stops
    else awaits i r earlier

/-- The call is for the queued repetition of a stop. -/
def Pass.Repeats (p : Pass ι κ) (earlier : List (Pass ι κ)) : Prop :=
  p.deferred = true ∧ awaits p.wtr p.pkt.receiver earlier = true

instance (p : Pass ι κ) (earlier : List (Pass ι κ)) : Decidable (p.Repeats earlier) :=
  inferInstanceAs (Decidable (_ ∧ _))

/-- The stops that were transmitted to a receiver. -/
def stopsTo (i : ι) (r : Int) (earlier : List (Pass ι κ)) : Nat := earlier.countP fun p => p.To i r ∧ p.Stops

/-- The slot of the receiver is queued with the packet, and due after the gap time. -/
def Pass.Queued (os : Os) (wtrs : ι → Ccwriter κ) (p : Pass ι κ) : Prop :=
  slotOf p.wtr p.pkt ∈ p.after.queue ∧ (p.after.slots (slotOf p.wtr p.pkt)).packet = p.pkt ∧
    ∃ m < p.after.reading, p.before.reading ≤ m ∧
      (p.after.slots (slotOf p.wtr p.pkt)).tv = timevalAdjust (os.clock m) (wtrs p.wtr).protocol.gaptime

instance (os : Os) (wtrs : ι → Ccwriter κ) (p : Pass ι κ) : Decidable (p.Queued os wtrs) :=
  inferInstanceAs (Decidable (_ ∧ _ ∧ ∃ m < _, _))

/-- A stop that is no repetition is queued. -/
def Pass.Repeated (os : Os) (wtrs : ι → Ccwriter κ) (earlier : List (Pass ι κ)) (p : Pass ι κ) : Prop :=
  p.Stops → ¬p.Repeats earlier → p.Queued os wtrs

/-- A stop that is no repetition comes after an even number of stops. -/
def Pass.InStep (earlier : List (Pass ι κ)) (p : Pass ι κ) : Prop :=
  p.Stops → ¬p.Repeats earlier → stopsTo p.wtr p.pkt.receiver earlier % 2 = 0

instance (os : Os) (wtrs : ι → Ccwriter κ) (earlier : List (Pass ι κ)) (p : Pass ι κ) :
    Decidable (p.Repeated os wtrs earlier) := inferInstanceAs (Decidable (_ → _ → _))

instance (earlier : List (Pass ι κ)) (p : Pass ι κ) : Decidable (p.InStep earlier) :=
  inferInstanceAs (Decidable (_ → _ → _))

theorem stopsTo_cons (i : ι) (r : Int) (p : Pass ι κ) (earlier : List (Pass ι κ)) :
    stopsTo i r (p :: earlier) = stopsTo i r earlier + if p.To i r ∧ p.Stops then 1 else 0 := by
  simp [stopsTo, List.countP_cons]

/-- Without a menu command there is nothing to adjust. -/
theorem adjust_of_menu (protocol : Protocol) {pkt : Ccpacket} (h : ccpacketGetMenu pkt = 0) :
    protocol.adjust pkt = pkt := by
  have hopen : ccpacketGetMenu pkt ≠ ccMenuOpen := by rw [h]; decide
  have henter : ccpacketGetMenu pkt ≠ ccMenuEnter := by rw [h]; decide
  have hcancel : ccpacketGetMenu pkt ≠ ccMenuCancel := by rw [h]; decide
  have hpelco : Pelco.adjustMenuCommands pkt = pkt := by
    simp only [Pelco.adjustMenuCommands, if_neg hopen, if_neg henter, if_neg hcancel]
  have hvicon : Vicon.adjustMenuCommands pkt = pkt := by
    simp only [Vicon.adjustMenuCommands, if_neg hopen, if_neg henter, if_neg hcancel]
  cases protocol with
  | manchester => rfl
  | infinovaD => exact hpelco
  | pelcoD => exact hpelco
  | pelcoP => exact hpelco
  | vicon => exact hvicon
  | axis => rfl

theorem menu_of_isStop {pkt : Ccpacket} (h : ccpacketIsStop pkt = true) : ccpacketGetMenu pkt = 0 := by
  simp only [ccpacketIsStop, Bool.and_eq_true, beq_iff_eq] at h
  tauto

/-- A menu command is no stop. -/
theorem isStop_adjust (protocol : Protocol) (pkt : Ccpacket) :
    ccpacketIsStop (protocol.adjust pkt) = ccpacketIsStop pkt := by
  by_cases hmenu : ccpacketGetMenu pkt = 0
  · rw [adjust_of_menu protocol hmenu]
  · have hnot : ∀ q, ccpacketGetMenu q = ccpacketGetMenu pkt → ccpacketIsStop q = false := by
      intro q hq
      by_contra hstop
      exact hmenu (hq.symm.trans (menu_of_isStop (Bool.not_eq_false _ ▸ hstop)))
    rw [hnot pkt rfl, hnot _ ((settles_adjust protocol).menu pkt)]

variable [DecidableEq κ] {os : Os} {wtrs : ι → Ccwriter κ} {w w' : World ι κ} {p : Pass ι κ}
  {earlier : List (Pass ι κ)}

/-- **A stop that is transmitted**: it is queued, or counted as the repetition. -/
theorem Pass.Called.stops (h : p.Called os wtrs) (hstops : p.Stops) :
    (p.before.slots (slotOf p.wtr p.pkt)).nCnt < 1 ∧ p.Queued os wtrs ∧
        (p.after.slots (slotOf p.wtr p.pkt)).nCnt = (p.before.slots (slotOf p.wtr p.pkt)).nCnt + 1 ∨
      ¬(p.before.slots (slotOf p.wtr p.pkt)).nCnt < 1 ∧
        (Orderly p.before → (∀ o ∈ p.after.trace, o.RemovesFirst) → slotOf p.wtr p.pkt ∉ p.after.queue) ∧
        (p.after.slots (slotOf p.wtr p.pkt)).nCnt = 0 := by
  obtain ⟨hcount, hstop⟩ := hstops
  obtain ⟨hpassed, -⟩ := h.passed
  have hleft := adjust_of_menu (wtrs p.wtr).protocol (menu_of_isStop hstop)
  generalize p.count = c, p.left = pkt' at hpassed hcount
  cases hpassed with
  | unknown => exact absurd hcount (Nat.lt_irrefl 0)
  | tooSoon => exact absurd hcount (Nat.lt_irrefl 0)
  | sent hrange hsoon hquiet hslots hreading hlater hchecked =>
    rw [hleft] at hchecked
    cases hchecked with
    | again _ hcnt hread hqueue hslot =>
      left
      rw [hslots] at hcnt
      refine ⟨hcnt, ⟨hqueue, ?_, p.before.reading + 2, ?_, Nat.le_add_right _ _, ?_⟩, ?_⟩
      · rw [hslot]
      · rw [hreading] at hread
        exact hread
      · rw [hslot, hreading]
      · rw [hslot, hslots]
    | enough _ hcnt hqueue hslot =>
      right
      rw [hslots] at hcnt
      refine ⟨hcnt, fun horderly hC => hqueue (hquiet.orderly (by simp [Obs.DefersOnly]) horderly) hC, ?_⟩
      rw [hslot]
    | held hnot => cases hstop.symm.trans hnot
    | ended hnot => cases hstop.symm.trans hnot

/-- A call that transmits no stop to a receiver counts none. -/
theorem Pass.Called.nCnt {i : ι} {r : Int} (h : p.Called os wtrs) (hr : 0 < r)
    (hstops : ¬(p.To i r ∧ p.Stops)) :
    (p.after.slots (i, (r - 1).toNat)).nCnt = (p.before.slots (i, (r - 1).toNat)).nCnt := by
  by_cases hsent : p.Sent i r
  · obtain ⟨rfl, rfl, hcount⟩ := hsent
    have hstop : ccpacketIsStop p.pkt ≠ true := fun hstop => hstops ⟨⟨rfl, rfl⟩, hcount, hstop⟩
    have hadjust := isStop_adjust (wtrs p.wtr).protocol p.pkt
    obtain ⟨hpassed, -⟩ := h.passed
    generalize p.count = c, p.left = pkt' at hpassed hcount
    cases hpassed with
    | unknown => exact absurd hcount (Nat.lt_irrefl 0)
    | tooSoon => exact absurd hcount (Nat.lt_irrefl 0)
    | sent hrange hsoon hquiet hslots hreading hlater hchecked =>
      rw [← hslots, show (p.wtr, (p.pkt.receiver - 1).toNat) = slotOf p.wtr p.pkt from rfl]
      cases hchecked with
      | again hagain => exact absurd (hadjust.symm.trans hagain) hstop
      | enough hagain => exact absurd (hadjust.symm.trans hagain) hstop
      | held _ _ _ _ hslot => rw [hslot]
      | ended _ _ _ _ hslot => rw [hslot]
  · exact (h.not_sent hr hsent).2

/-- The counters of the slots are the numbers of stops, modulo 2. -/
def Counts (w : World ι κ) (earlier : List (Pass ι κ)) : Prop :=
  ∀ i r, 0 < r → (w.slots (i, (r - 1).toNat)).nCnt = stopsTo i r earlier % 2

omit [DecidableEq κ] in
theorem Counts.still (h : Counts w earlier) (hsame : SameSends w w') : Counts w' earlier := by
  intro i r hr
  rw [hsame.nCnt]
  exact h i r hr

theorem Counts.pass (h : Counts p.before earlier) (hcalled : p.Called os wtrs) :
    Counts p.after (p :: earlier) := by
  intro i r hr
  have hbefore := h i r hr
  rw [stopsTo_cons]
  by_cases hstops : p.To i r ∧ p.Stops
  · rw [if_pos hstops]
    obtain ⟨⟨rfl, rfl⟩, hstops⟩ := hstops
    rcases hcalled.stops hstops with ⟨hcnt, -, hafter⟩ | ⟨hcnt, -, hafter⟩
    · unfold slotOf at hcnt hafter
      omega
    · unfold slotOf at hcnt hafter
      omega
  · rw [if_neg hstops, hcalled.nCnt hr hstops]
    exact hbefore

/-- **A stop that is no repetition** is queued exactly when it comes after an even number of stops.
-/
theorem repeated_iff (h : Counts p.before earlier) (hcalled : p.Called os wtrs) :
    (p.InStep earlier → p.Repeated os wtrs earlier) ∧
      (p.Clean → p.Repeated os wtrs earlier → p.InStep earlier) := by
  have hcnt : p.Stops → (p.before.slots (slotOf p.wtr p.pkt)).nCnt =
      stopsTo p.wtr p.pkt.receiver earlier % 2 := fun hstops =>
    h p.wtr p.pkt.receiver (hcalled.sent ⟨rfl, rfl, hstops.1⟩).1.1
  refine ⟨fun hstep hstops hfirst => ?_, fun hclean hrepeated hstops hfirst => ?_⟩
  · have heven := hstep hstops hfirst
    rcases hcalled.stops hstops with ⟨-, hqueued, -⟩ | ⟨hnot, -⟩
    · exact hqueued
    · rw [hcnt hstops, heven] at hnot
      exact absurd Nat.one_pos hnot
  · obtain ⟨hin, -⟩ := hrepeated hstops hfirst
    rcases hcalled.stops hstops with ⟨hlt, -⟩ | ⟨-, hout, -⟩
    · rw [hcnt hstops] at hlt
      exact Nat.lt_one_iff.mp hlt
    · exact absurd hin (hout hclean.1 hclean.2)

omit [DecidableEq κ] in
theorem counts_start (slots : Slot ι → Timeval × Timeval) (channels : κ → Channel) :
    Counts (start slots channels : World ι κ) [] := fun _ _ _ => rfl

/-- **A stop that is no repetition is queued again** in every run in which every such stop comes
after an even number of stops for its receiver, and, unless another slot is taken for one that is
removed, in no other. -/
theorem stops_repeated_iff (os : Os) (wtrs : ι → Ccwriter κ) (slots : Slot ι → Timeval × Timeval)
    (channels : κ → Channel) (actions : List (Action ι κ)) :
    ∃ w, run os wtrs (start slots channels) actions = some w ∧
      (AtEvery (fun earlier p => p.InStep earlier) [] (passes os wtrs (start slots channels) actions) →
        AtEvery (fun earlier p => p.Repeated os wtrs earlier) []
          (passes os wtrs (start slots channels) actions)) ∧
      ((∀ o ∈ w.trace, o.RemovesFirst) →
        AtEvery (fun earlier p => p.Repeated os wtrs earlier) []
          (passes os wtrs (start slots channels) actions) →
        AtEvery (fun earlier p => p.InStep earlier) [] (passes os wtrs (start slots channels) actions)) := by
  have hshaped : Shaped (start slots channels : World ι κ) := shaped_start slots channels
  obtain ⟨w, hrun, -, -⟩ := run_induction actions (motive := fun _ => True) (fun _ _ _ _ _ _ _ => trivial)
    hshaped trivial
  have hevery := @atEvery_passes ι κ _ _ os wtrs
    (fun earlier p => (p.InStep earlier → p.Repeated os wtrs earlier) ∧
      (p.Clean → p.Repeated os wtrs earlier → p.InStep earlier)) Counts
    (fun hsame h => h.still hsame) (fun hcalled h => ⟨repeated_iff h hcalled, h.pass hcalled⟩) actions _ _
    hshaped (counts_start slots channels)
  refine ⟨w, hrun, fun hstep => ?_, fun hC hrepeated => ?_⟩
  · exact (hevery.imp fun _ _ h => h.1).mp hstep
  · have hclean : AtEvery (fun _ p => p.Clean) [] (passes os wtrs (start slots channels) actions) :=
      atEvery_of_forall fun p hp _ => clean_of_mem hshaped (orderly_start slots channels) hrun hC hp
    exact ((hevery.imp fun _ _ h => h.2).mp hclean).mp hrepeated

/-- The camera is stopped, moved before the stop is repeated, and stopped again. -/
theorem not_stops_repeated : ¬ ∀ (os : Os) (wtrs : Bool → Ccwriter Unit)
    (slots : Slot Bool → Timeval × Timeval) (channels : Unit → Channel) (actions : List (Action Bool Unit)),
      AtEvery (fun earlier p => p.Repeated os wtrs earlier) []
        (passes os wtrs (start slots channels) actions) := by
  intro h
  have hrun := h ticking pelcoWriters (fun _ => (⟨1, 0⟩, ⟨1, 0⟩))
    (fun _ => channelInit "/dev/ttyS0".toList 0)
    [.submit false stopPacket, .submit false panPacket, .submit false stopPacket]
  revert hrun
  decide

end Protozoa.Engine
