import Protozoa.Engine.Steps

/-!
# What is handed over is due

`defer_next` (`defer.c:101-111`) hands over the first slot of the queue whenever there is a wake-up
in the pipe. That the slot is due then rests on `World.Wakes`: no wake-up that is in the pipe, or
comes when the interval timer expires, is early for the first slot. Arming the timer establishes it,
but for one case: it leaves a wake-up in the pipe that was for another slot, or for the same slot
before it was deferred again (`Obs.NotStale` excludes it).

* `Rearms.due`, `Defers.due`, `Writes.due`, `Nexts.onTime`: one lemma for each relation of
  `Engine/Steps.lean`.
* **`hands_due`**: every slot that is handed over is due, or will be within a millisecond, in every
  run without such a wake-up.
* `not_hands_due`: a packet that was due is sent with the next one for its receiver, before its
  wake-up is taken from the pipe; the second one is then handed over at once.
-/

namespace Protozoa.Engine

variable {ι κ : Type}

/-- A slot is handed over at most one millisecond before it is due. -/
def Obs.Due : Obs ι → Prop
  | .hand _ tv now => tv.toUsec ≤ now.toUsec + 1000
  | _ => True

instance : DecidablePred (Obs.Due : Obs ι → Prop)
  | .submit .. => inferInstanceAs (Decidable True)
  | .write .. => inferInstanceAs (Decidable True)
  | .remove .. => inferInstanceAs (Decidable True)
  | .packet .. => inferInstanceAs (Decidable True)
  | .rearm .. => inferInstanceAs (Decidable True)
  | .hand _ tv now => inferInstanceAs (Decidable (tv.toUsec ≤ now.toUsec + 1000))

instance : DecidablePred (Obs.NotStale : Obs ι → Prop)
  | .submit .. => inferInstanceAs (Decidable True)
  | .write .. => inferInstanceAs (Decidable True)
  | .remove .. => inferInstanceAs (Decidable True)
  | .packet .. => inferInstanceAs (Decidable True)
  | .rearm pipe tv now => inferInstanceAs (Decidable (0 < pipe → tv.toUsec ≤ now.toUsec + 1000))
  | .hand .. => inferInstanceAs (Decidable True)

/-- Every slot so far was due, and no wake-up is early for the next one. -/
structure OnTime (os : Os) (w : World ι κ) : Prop where
  due : ∀ o ∈ w.trace, o.Due
  wakes : w.Wakes os

section

variable {os : Os} {wtrs : ι → Ccwriter κ} {w w' : World ι κ} {i : ι} {dpkt : Slot ι}
  {pkt pkt' : Ccpacket}

theorem Rearms.due (h : Rearms os w w') (hw : ∀ o ∈ w.trace, o.Due) : ∀ o ∈ w'.trace, o.Due := by
  obtain ⟨new, htrace, hnew⟩ := h.new
  rw [htrace]
  intro o ho
  rcases List.mem_append.mp ho with ho | ho
  · obtain ⟨pipe, tv, now, rfl⟩ := hnew o ho
    trivial
  · exact hw o ho

theorem Defers.due {again : Option Ccpacket} (h : Defers os w w' dpkt again)
    (hw : ∀ o ∈ w.trace, o.Due) : ∀ o ∈ w'.trace, o.Due := by
  obtain ⟨new, htrace, hnew⟩ := h.trace
  rw [htrace]
  intro o ho
  rcases List.mem_append.mp ho with ho | ho
  · obtain ⟨pipe, tv, now, rfl⟩ := hnew o ho
    trivial
  · exact List.forall_mem_cons.mpr ⟨trivial, List.forall_mem_cons.mpr ⟨trivial, hw⟩⟩ o ho

theorem Writes.due (h : Writes os wtrs w i pkt pkt' w') (hw : ∀ o ∈ w.trace, o.Due) :
    ∀ o ∈ w'.trace, o.Due := by
  cases h with
  | unknown => exact hw
  | tooSoon _ h₁ hdefer =>
    refine hdefer.due ?_
    rw [h₁.trace]
    exact hw
  | written _ h₁ hdefer _ h₂ =>
    rw [h₂.trace]
    refine hdefer.due ?_
    rw [h₁.trace]
    exact List.forall_mem_cons.mpr ⟨trivial, hw⟩

theorem Writes.wakes (h : Writes os wtrs w i pkt pkt' w') (hw : w.Wakes os)
    (hC : ∀ o ∈ w'.trace, o.NotStale) : w'.Wakes os := by
  cases h with
  | unknown => exact hw
  | tooSoon _ _ hdefer => exact hdefer.wakes hC
  | written _ _ hdefer _ h₂ => exact h₂.wakes (hdefer.wakes fun o ho => hC o (h₂.grows.subset ho))

/-- A slot that is due now is handed over. -/
theorem Sends.due [DecidableEq ι] (h : Sends os wtrs w dpkt w') (hw : ∀ o ∈ w.trace, o.Due)
    (hdue : (w.slots dpkt).tv.toUsec ≤ (os.clock w.reading).toUsec + 1000) :
    ∀ o ∈ w'.trace, o.Due := by
  obtain ⟨hremove, hwrite⟩ := h
  refine hwrite.due (List.forall_mem_cons.mpr ⟨?_, ?_⟩)
  · rw [hremove.slots, hremove.reading]
    exact hdue
  · rw [show (World.tick _).trace = _ from hremove.trace]
    exact List.forall_mem_cons.mpr ⟨trivial, hw⟩

theorem Nexts.onTime [DecidableEq ι] (h : Nexts os wtrs w w') (hw : OnTime os w)
    (hC : ∀ o ∈ w'.trace, o.NotStale) : OnTime os w' := by
  cases h with
  | asleep => exact hw
  | idle _ _ hrearm => exact ⟨hrearm.due hw.due, hrearm.wakes hC⟩
  | @first _ _ dpkt hpipe hqueue hsend hrearm =>
    -- The wake-up is for the first slot, whichever slot it was written for.
    have hdue := (hw.wakes dpkt hqueue).pipe hpipe
    exact ⟨hrearm.due (hsend.due hw.due hdue), hrearm.wakes hC⟩

theorem Follows.onTime [DecidableEq ι] {a : Action ι κ} (h : Follows os wtrs w a w')
    (hw : OnTime os w) (hC : ∀ o ∈ w'.trace, o.NotStale) : OnTime os w' := by
  cases h with
  | submit hwrite =>
    exact ⟨hwrite.due (List.forall_mem_cons.mpr ⟨trivial, hw.due⟩), hwrite.wakes hw.wakes hC⟩
  | defer hdefer => exact ⟨hdefer.due hw.due, hdefer.wakes hC⟩
  | next hnext => exact hnext.onTime hw hC
  | alarm hexpired => exact ⟨hw.due, fun s hs => (hw.wakes s hs).handler hexpired⟩
  | quiet => exact hw
  | channel => exact ⟨hw.due, hw.wakes⟩

theorem onTime_start (os : Os) (slots : Slot ι → Timeval × Timeval) (channels : κ → Channel) :
    OnTime os (start slots channels) := by
  refine ⟨fun o ho => absurd ho List.not_mem_nil, fun s hs => ?_⟩
  rw [queue_start] at hs
  cases hs

end

variable [DecidableEq ι] [DecidableEq κ]

/-- **Every slot that is handed over is due** within a millisecond, in a run in which the timer is
never armed for a slot that is not due with a wake-up left in the pipe. -/
theorem hands_due (os : Os) (wtrs : ι → Ccwriter κ) (slots : Slot ι → Timeval × Timeval)
    (channels : κ → Channel) (actions : List (Action ι κ)) :
    ∃ w, run os wtrs (start slots channels) actions = some w ∧
      ((∀ o ∈ w.trace, o.NotStale) → ∀ o ∈ w.trace, o.Due) := by
  obtain ⟨w, hrun, -, honTime⟩ := run_induction_of Obs.NotStale actions
    (fun a _ w w' _ hw hfollows hC => hfollows.onTime hw hC) (shaped_start slots channels)
    (onTime_start os slots channels)
  exact ⟨w, hrun, fun hC => (honTime hC).due⟩

/-- A deferred packet is sent when it is due. -/
theorem hands_due_stop : ∃ w, run (pausing 4) pelcoWriters startPair
      [.submit false stopPacket, .alarm, .next] = some w ∧ ∀ o ∈ w.trace, o.Due := by
  obtain ⟨w, hrun, h⟩ := hands_due (pausing 4) pelcoWriters (fun _ => (⟨1, 0⟩, ⟨1, 0⟩))
    (fun _ => channelInit "/dev/ttyS0".toList 0) [.submit false stopPacket, .alarm, .next]
  have hstale : ∀ w' ∈ run (pausing 4) pelcoWriters startPair
      [.submit false stopPacket, .alarm, .next], ∀ o ∈ w'.trace, o.NotStale := by
    decide
  exact ⟨w, hrun, h (hstale w hrun)⟩

/-- The packet that was due is sent, with another one for the same receiver, before its wake-up is
taken from the pipe: the second one is handed over at once, 80 milliseconds early. -/
theorem not_hands_due : ¬ ∀ (os : Os) (wtrs : Bool → Ccwriter Unit)
    (slots : Slot Bool → Timeval × Timeval) (channels : Unit → Channel)
    (actions : List (Action Bool Unit)), ∀ w ∈ run os wtrs (start slots channels) actions,
      ∀ o ∈ w.trace, o.Due := by
  intro h
  have hrun := h (pausing 4) pelcoWriters (fun _ => (⟨1, 0⟩, ⟨1, 0⟩))
    (fun _ => channelInit "/dev/ttyS0".toList 0)
    [.submit false stopPacket, .alarm, .submit false stopPacket, .next]
  revert hrun
  decide

end Protozoa.Engine
