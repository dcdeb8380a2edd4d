import Protozoa.Engine.Steps

/-!
# No wake-up is lost

While there is a slot in the queue, there is a wake-up in the pipe or one to come: every function
that changes the queue ends with `defer_rearm` (`defer.c:63-69`), and `defer_next`
(`defer.c:101-111`) does so too after it has taken a wake-up. The wake-up to come is at most a
rounding error late, and as much more as the clock goes on within one call (`CallsWithin`), between
the reading that `time_from_now` takes (`timeval.c:47-58`) and `setitimer`.

* `Follows.armed`: one action keeps `World.Armed`; `run_armed` is the run.
* **`wakeUp_comes`**: when a slot is first in the queue after any run, a wake-up is there or comes
  in time.

Out of scope: whether the poller reads the pipe then, which `Program.lean` has.
-/

namespace Protozoa.Engine

open Clump

variable {ι κ : Type}

section

variable {os : Os} {wtrs : ι → Ccwriter κ} {w w' : World ι κ} {i : ι} {dpkt : Slot ι}
  {pkt pkt' : Ccpacket} {lag : Int}

theorem Alike.armed {new : List (Obs ι)} (h : Alike w w' new) (hw : w.Armed lag) : w'.Armed lag := by
  intro s hs
  rw [h.queue] at hs
  rw [h.timer, h.tv]
  exact hw s hs

theorem Writes.reading (h : Writes os wtrs w i pkt pkt' w') : w.reading ≤ w'.reading := by
  cases h with
  | unknown => exact le_rfl
  | tooSoon _ h₁ hdefer => exact h₁.reading.trans hdefer.reading
  | written _ h₁ hdefer _ h₂ => exact h₁.reading.trans (hdefer.reading.trans h₂.reading)

theorem Writes.armed (h : Writes os wtrs w i pkt pkt' w') (hpipe : 0 < os.pipeSize)
    (hlag : os.Lag lag w.reading w'.reading) (hw : w.Armed lag) : w'.Armed lag := by
  cases h with
  | unknown => exact hw
  | tooSoon _ h₁ hdefer => exact hdefer.armed hpipe lag (hlag.sub h₁.reading le_rfl)
  | written _ h₁ hdefer _ h₂ =>
    exact h₂.armed (hdefer.armed hpipe lag (hlag.sub h₁.reading h₂.reading))

theorem Sends.reading [DecidableEq ι] (h : Sends os wtrs w dpkt w') : w.reading ≤ w'.reading := by
  obtain ⟨hremove, hwrite⟩ := h
  refine Nat.le_trans ?_ hwrite.reading
  change w.reading ≤ _ + 1
  rw [hremove.reading]
  exact Nat.le_succ _

/-- The timer is armed anew once the slot has been sent. -/
theorem Nexts.armed [DecidableEq ι] (h : Nexts os wtrs w w') (hpipe : 0 < os.pipeSize)
    (hlag : os.Lag lag w.reading w'.reading) (hw : w.Armed lag) : w'.Armed lag := by
  cases h with
  | asleep => exact hw
  | idle _ _ hrearm => exact hrearm.armed hpipe lag hlag
  | first _ _ hsend hrearm => exact hrearm.armed hpipe lag (hlag.sub hsend.reading le_rfl)

theorem Follows.armed [DecidableEq ι] {a : Action ι κ} (h : Follows os wtrs w a w')
    (hpipe : 0 < os.pipeSize) (hlag : os.Lag lag w.reading w'.reading) (hw : w.Armed lag) :
    w'.Armed lag := by
  cases h with
  | submit hwrite => exact hwrite.armed hpipe hlag hw
  | defer hdefer => exact hdefer.armed hpipe lag hlag
  | next hnext => exact hnext.armed hpipe hlag hw
  | alarm => exact fun s _ => Timer.Armed.handler hpipe
  | quiet => exact hw
  | channel => exact hw

theorem armed_start (slots : Slot ι → Timeval × Timeval) (channels : κ → Channel) :
    (start slots channels : World ι κ).Armed lag := by
  intro s hs
  rw [queue_start] at hs
  cases hs

end

variable [DecidableEq ι] [DecidableEq κ]

/-- Within one action the clock goes on by `lag` microseconds at most; between two actions it may go
on as it likes. -/
def CallsWithin (os : Os) (wtrs : ι → Ccwriter κ) (lag : Int) :
    World ι κ → List (Action ι κ) → Prop
  | _, [] => True
  | w, a :: actions => ∀ w' ∈ step os wtrs w a,
    os.Lag lag w.reading w'.reading ∧ CallsWithin os wtrs lag w' actions

theorem callsWithin_of_lag {os : Os} {wtrs : ι → Ccwriter κ} {lag : Int}
    (h : ∀ m n, os.Lag lag m n) :
    ∀ (actions : List (Action ι κ)) (w : World ι κ), CallsWithin os wtrs lag w actions
  | [], _ => trivial
  | _ :: actions, _ => fun w' _ => ⟨h _ _, callsWithin_of_lag h actions w'⟩

theorem run_armed {os : Os} {wtrs : ι → Ccwriter κ} {lag : Int} (hpipe : 0 < os.pipeSize)
    (actions : List (Action ι κ)) {w : World ι κ} (hshaped : Shaped w) (hw : w.Armed lag)
    (hcalls : CallsWithin os wtrs lag w actions) :
    ∃ w', run os wtrs w actions = some w' ∧ Shaped w' ∧ w'.Armed lag := by
  induction actions generalizing w with
  | nil => exact ⟨w, rfl, hshaped, hw⟩
  | cons a actions ih =>
    obtain ⟨w₁, hrun₁, hfollows⟩ := step_follows os wtrs hshaped a
    obtain ⟨hlag, hcalls₁⟩ := hcalls w₁ hrun₁
    obtain ⟨w', hrun, hw'⟩ :=
      ih (hfollows.shaped hshaped) (hfollows.armed hpipe hlag hw) hcalls₁
    refine ⟨w', ?_, hw'⟩
    rw [run, List.foldlM_cons, hrun₁]
    exact hrun

/-- **No wake-up is lost**: when a slot is first in the queue after any run, there is a wake-up in
the pipe, or the interval timer is armed and expires less than a millisecond after the slot is due,
where `lag` is how far the clock goes on within one call. -/
theorem wakeUp_comes (os : Os) (wtrs : ι → Ccwriter κ) (slots : Slot ι → Timeval × Timeval)
    (channels : κ → Channel) {lag : Int} {actions : List (Action ι κ)} (hpipe : 0 < os.pipeSize)
    (hcalls : CallsWithin os wtrs lag (start slots channels) actions) :
    ∃ w, run os wtrs (start slots channels) actions = some w ∧
      ∀ dpkt, clRbtreePeek w.tree = some (some dpkt) →
        0 < w.timer.pipe ∨ ∃ deadline, w.timer.itimer = some deadline ∧
          deadline < (w.slots dpkt).tv.toUsec + 1000 + lag := by
  obtain ⟨w, hrun, hshaped, harmed⟩ := run_armed hpipe actions (shaped_start slots channels)
    (armed_start slots channels) hcalls
  exact ⟨w, hrun, fun dpkt hpeek => harmed dpkt (Option.some.inj (hshaped.peek.symm.trans hpeek))⟩

/-- A packet that has been deferred. -/
theorem wakeUp_comes_stop : ∃ w, run (pausing 0) pelcoWriters startPair [.submit false stopPacket] =
      some w ∧ ∀ dpkt, clRbtreePeek w.tree = some (some dpkt) →
        0 < w.timer.pipe ∨ ∃ deadline, w.timer.itimer = some deadline ∧
          deadline < (w.slots dpkt).tv.toUsec + 1000 + 0 :=
  wakeUp_comes (pausing 0) pelcoWriters (fun _ => (⟨1, 0⟩, ⟨1, 0⟩))
    (fun _ => channelInit "/dev/ttyS0".toList 0) (by decide)
    (callsWithin_of_lag (fun m _ k _ _ => (Int.add_zero ((pausing 0).clock m).toUsec).ge) _ _)

end Protozoa.Engine
