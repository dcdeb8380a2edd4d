import Protozoa.Engine.Passes

/-!
# The gap time

A writer leaves a pause of its gap time between two packets for one receiver. Every transmission is
checked against `dpkt->sent` (`ccwriter_too_soon`, `ccwriter.c:156-160`), and sets it
(`ccwriter.c:168`); `time_elapsed` may find one millisecond too much (`timeval.c:39-42`).

* `transmissions`: the calls of `ccwriter_do_write` of a run that reach `do_write`, for one
  receiver.
* `Spaced`: the transmissions that are to come are apart from the last one, and from one another.
  `Spaced.still` and `Spaced.transmit` are the steps.
* **`transmissions_apart`**: the run, in which the clock does not advance within a call.
-/

namespace Protozoa.Engine

variable {ι κ : Type} [DecidableEq ι] [DecidableEq κ] {os : Os} {wtrs : ι → Ccwriter κ} {w w' : World ι κ}
  {i : ι} {r : Int}

/-- The transmissions to a receiver. -/
def transmissions (i : ι) (r : Int) (ps : List (Pass ι κ)) : List (Pass ι κ) := ps.filter (·.Sent i r)

/-- More than `ms - 1` milliseconds lie between the two. -/
def Distant (ms : Nat) (s t : Timeval) : Prop := ((ms : Int) - 1) * 1000 < t.toUsec - s.toUsec

theorem distant_of_not_tooSoon {ms : Nat} {sent now : Timeval} (hms : 0 < ms)
    (h : ¬timeSince now sent < ms) : Distant ms sent now := by
  have hlt := timeElapsed_lt sent now
  unfold timeSince at h
  unfold Distant
  simp only at h
  split_ifs at h <;> omega

theorem Distant.later {ms : Nat} {s t u : Timeval} (h : Distant ms s t) (htu : t.toUsec ≤ u.toUsec) :
    Distant ms s u := by
  unfold Distant at h ⊢
  omega

/-- The transmissions to a receiver, from a state on. -/
structure Spaced (os : Os) (gaptime : Nat) (w : World ι κ) (s : Slot ι) (ps : List (Pass ι κ)) : Prop where
  /-- They come later -/
  later : ∀ p ∈ ps, (os.clock w.reading).toUsec ≤ (p.time os).toUsec
  /-- than what has been sent last, -/
  last : 0 < gaptime → ∀ p ∈ ps, Distant gaptime (w.slots s).sent (p.time os)
  /-- and one after the other. -/
  pairwise : ps.Pairwise fun p q => Distant gaptime (p.time os) (q.time os)

omit [DecidableEq ι] [DecidableEq κ] in
theorem Spaced.still {gaptime : Nat} {s : Slot ι} {ps : List (Pass ι κ)} (h : Spaced os gaptime w' s ps)
    (hsent : (w'.slots s).sent = (w.slots s).sent) (hreading : w.reading ≤ w'.reading) :
    Spaced os gaptime w s ps := by
  refine ⟨fun p hp => (os.mono hreading).trans (h.later p hp), ?_, h.pairwise⟩
  rw [← hsent]
  exact h.last

/-- **A transmission** comes before those that are to come. -/
theorem Spaced.transmit {p : Pass ι κ} {ps : List (Pass ι κ)}
    (h : Spaced os (wtrs i).protocol.gaptime w' (i, (r - 1).toNat) ps) (hwithin : p.Within os wtrs w w')
    (hsent : p.Sent i r) (hfixed : p.Fixed os) :
    Spaced os (wtrs i).protocol.gaptime w (i, (r - 1).toNat) (p :: ps) := by
  obtain ⟨-, hsoon, hnow, hlater⟩ := hwithin.toCalled.sent hsent
  have hlast : (w'.slots (i, (r - 1).toNat)).sent = p.time os := by
    rw [hwithin.after.sent, hnow]
    exact hfixed _ hlater (Nat.le_succ _)
  have hwhen : (os.clock w.reading).toUsec ≤ (p.time os).toUsec := os.mono hwithin.before.reading
  have hmono : ∀ q ∈ ps, (p.time os).toUsec ≤ (q.time os).toUsec := fun q hq =>
    (os.mono (hwithin.toCalled.reading.trans hwithin.after.reading)).trans (h.later q hq)
  have hfirst : 0 < (wtrs i).protocol.gaptime →
      Distant (wtrs i).protocol.gaptime (w.slots (i, (r - 1).toNat)).sent (p.time os) := by
    intro hgap
    rw [← hwithin.before.sent]
    exact distant_of_not_tooSoon hgap hsoon
  refine ⟨?_, fun hgap => ?_, List.pairwise_cons.mpr ⟨fun q hq => ?_, h.pairwise⟩⟩
  · exact List.forall_mem_cons.mpr ⟨hwhen, fun q hq => hwhen.trans (hmono q hq)⟩
  · exact List.forall_mem_cons.mpr ⟨hfirst hgap, fun q hq => (hfirst hgap).later (hmono q hq)⟩
  · by_cases hgap : 0 < (wtrs i).protocol.gaptime
    · rw [← hlast]
      exact h.last hgap q hq
    · have hq := hmono q hq
      unfold Distant
      omega

/-- **A run.** -/
theorem spaced_passes (hr : 0 < r) : ∀ {actions : List (Action ι κ)} {w : World ι κ}, Shaped w →
    (∀ p ∈ passes os wtrs w actions, p.Fixed os) →
      Spaced os (wtrs i).protocol.gaptime w (i, (r - 1).toNat)
        (transmissions i r (passes os wtrs w actions))
  | [], w, _, _ => ⟨by simp [transmissions, passes], by simp [transmissions, passes], List.Pairwise.nil⟩
  | a :: actions, w, hw, hfixed => by
    obtain ⟨w', hstep, hfollows⟩ := step_follows os wtrs hw a
    rw [passes_cons hstep] at hfixed ⊢
    have hrest := spaced_passes hr (hfollows.shaped hw) fun p hp => hfixed p (List.mem_append_right _ hp)
    unfold transmissions at hrest ⊢
    rw [List.filter_append]
    rcases step_passed hstep hw with ⟨hnone, hsame⟩ | ⟨p, hpass, hwithin⟩
    · rw [hnone]
      exact hrest.still (hsame.sent _) hsame.reading
    · rw [hpass] at hfixed ⊢
      by_cases hsent : p.Sent i r
      · have hp := hfixed p (List.mem_append_left _ List.mem_cons_self)
        rw [show (some p).toList.filter (·.Sent i r) = [p] by simp [hsent]]
        exact hrest.transmit hwithin hsent hp
      · rw [show (some p).toList.filter (·.Sent i r) = [] by simp [hsent]]
        refine hrest.still ?_ hwithin.later
        rw [hwithin.after.sent, (hwithin.not_sent hr hsent).1, hwithin.before.sent]

/-- **Two transmissions by one writer to one receiver** are more than `gaptime - 1` milliseconds
apart, in every run in which the clock does not advance within a call of `ccwriter_do_write`. -/
theorem transmissions_apart (os : Os) (wtrs : ι → Ccwriter κ) (slots : Slot ι → Timeval × Timeval)
    (channels : κ → Channel) (actions : List (Action ι κ))
    (hfixed : ∀ p ∈ passes os wtrs (start slots channels) actions, p.Fixed os) (i : ι) (r : Int) :
    ∃ w, run os wtrs (start slots channels) actions = some w ∧
      (transmissions i r (passes os wtrs (start slots channels) actions)).Pairwise fun p q =>
        ((wtrs i).protocol.gaptime - 1 : Int) * 1000 < (q.time os).toUsec - (p.time os).toUsec := by
  have hshaped : Shaped (start slots channels : World ι κ) := shaped_start slots channels
  obtain ⟨w, hrun, -, -⟩ := run_induction actions (motive := fun _ => True) (fun _ _ _ _ _ _ _ => trivial)
    hshaped trivial
  refine ⟨w, hrun, ?_⟩
  by_cases hr : 0 < r
  · exact (spaced_passes hr hshaped hfixed).pairwise
  · -- there is no such receiver
    refine List.Pairwise.imp_of_mem (fun hp _ _ => ?_) (List.pairwise_of_forall fun _ _ => trivial)
    obtain ⟨hmem, hsent⟩ := List.mem_filter.mp hp
    have hrange := (called_of_mem hshaped hmem).sent (of_decide_eq_true hsent)
    exact absurd hrange.1.1 hr

/-- A stop and its repetition one fifth of a second later. -/
theorem transmissions_apart_stop : ∃ w,
    run (pausing 5) pelcoWriters (start (fun _ => (⟨0, 0⟩, ⟨0, 0⟩)) fun _ => channelInit "/dev/ttyS0".toList 0)
      [.submit false stopPacket, .alarm, .next] = some w ∧
    (transmissions false 1 (passes (pausing 5) pelcoWriters
      (start (fun _ => (⟨0, 0⟩, ⟨0, 0⟩)) fun _ => channelInit "/dev/ttyS0".toList 0)
      [.submit false stopPacket, .alarm, .next])).Pairwise fun p q =>
        (((pelcoWriters false).protocol.gaptime : Int) - 1) * 1000 <
          (q.time (pausing 5)).toUsec - (p.time (pausing 5)).toUsec :=
  transmissions_apart (pausing 5) pelcoWriters (fun _ => (⟨0, 0⟩, ⟨0, 0⟩))
    (fun _ => channelInit "/dev/ttyS0".toList 0) [.submit false stopPacket, .alarm, .next] (by decide) false 1

end Protozoa.Engine
