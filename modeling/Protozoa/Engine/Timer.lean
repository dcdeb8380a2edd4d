import Protozoa.Timeval

/-!
# The timer (`timer.c`)

The timer is a pipe and an interval timer of the kernel (`timer.c:50-64`). A wake-up is a byte in
the pipe, written by the handler of `SIGALRM` (`timer.c:28-32`) or by `timer_arm(0)`
(`timer.c:113-126`); it says nothing about what is due. Both ends of the pipe are non-blocking:
reading an empty pipe and writing a full one fail (`timer_read` and `timer_write`,
`timer.c:85-108`).

* `Os` is what the system brings along: the readings of the clock, in order, and the size of the
  pipe.
* `setitimer` sets the interval timer (`timer.c:125`, `137`); the kernel reads the clock once when
  it does.
* `wakes_timerArm`: after `timer_arm` for a time, no wake-up that comes is early for it, if none is
  in the pipe.
* `armed_timerArm`: and one comes, less than a millisecond and the time the clock goes on in the
  call (`Os.Lag`) late.

Out of scope: `timer_install_handler` and `timer_remove_handler` (`timer.c:37-45`, `69-71`), and a
signal that comes in the middle of a function.
-/

namespace Protozoa.Engine

/-- What the program gets from the system: the readings of the clock in the order they are taken,
which never goes back, and the bytes the pipe holds. -/
structure Os where
  clock : Nat → Timeval
  normal : ∀ n, (clock n).Normal
  mono : ∀ {m n}, m ≤ n → (clock m).toUsec ≤ (clock n).toUsec
  pipeSize : Nat

/-- `struct timer`: the bytes in the pipe, and when the interval timer expires, in microseconds. -/
structure Timer where
  pipe : Nat
  itimer : Option Int
  deriving DecidableEq

/-- `timer_init`. -/
def timerInit : Timer := ⟨0, none⟩

/-- `timer_read`: the number of bytes read, or `-1`. -/
def timerRead (t : Timer) : Int × Timer :=
  if t.pipe = 0 then (-1, t) else (1, { t with pipe := t.pipe - 1 })

/-- `timer_write`: the number of bytes written, or `-1`. -/
def timerWrite (os : Os) (t : Timer) : Int × Timer :=
  if t.pipe < os.pipeSize then (1, { t with pipe := t.pipe + 1 }) else (-1, t)

/-- `setitimer`, at the time `now`. -/
def setitimer (now : Timeval) (msec : Nat) (t : Timer) : Int × Timer :=
  (0, { t with itimer := if msec = 0 then none else some (now.toUsec + msec * 1000) })

/-- `timer_arm`, at the time `now`. -/
def timerArm (os : Os) (now : Timeval) (msec : Nat) (t : Timer) : Int × Timer :=
  if msec = 0 then
    -- too late to arm the timer, so that the wake-up is written here
    let (b, t) := timerWrite os t
    if b < 0 then (b, t) else setitimer now msec t
  else setitimer now msec t

/-- `timer_disarm`. -/
def timerDisarm (t : Timer) : Int × Timer := (0, { t with itimer := none })

/-- The interval timer has expired at the time `now`. -/
def Timer.expired (t : Timer) (now : Timeval) : Bool :=
  match t.itimer with
  | none => false
  | some deadline => deadline ≤ now.toUsec

/-- `timer_handler`, once the interval timer has expired. -/
def timerHandler (os : Os) (t : Timer) : Timer := { (timerWrite os t).2 with itimer := none }

/-! ## A wake-up comes for what is due -/

/-- **A wake-up is not early**: one that is in the pipe, or will be when the interval timer expires,
comes less than a millisecond before `tv`. -/
structure Timer.Wakes (t : Timer) (now tv : Timeval) : Prop where
  pipe : 0 < t.pipe → tv.toUsec ≤ now.toUsec + 1000
  itimer : ∀ deadline, t.itimer = some deadline → tv.toUsec ≤ max deadline now.toUsec + 1000

theorem Timer.Wakes.later {t : Timer} {now now' tv : Timeval} (h : t.Wakes now tv)
    (hle : now.toUsec ≤ now'.toUsec) : t.Wakes now' tv := by
  refine ⟨fun hpipe => ?_, fun deadline hd => ?_⟩
  · have := h.pipe hpipe
    omega
  · have := h.itimer deadline hd
    omega

theorem Timer.Wakes.handler {os : Os} {t : Timer} {now tv : Timeval} (h : t.Wakes now tv)
    (hexp : t.expired now = true) : (timerHandler os t).Wakes now tv := by
  refine ⟨fun _ => ?_, fun deadline hd => ?_⟩
  · unfold Timer.expired at hexp
    split at hexp
    · cases hexp
    · rename_i deadline hd
      have hle : deadline ≤ now.toUsec := of_decide_eq_true hexp
      have := h.itimer deadline hd
      omega
  · cases hd

/-- **Arming** for the time that is left until `tv`, with no wake-up in the pipe unless `tv` is due.
-/
theorem wakes_timerArm {os : Os} {t : Timer} {now kernel tv : Timeval}
    (hle : now.toUsec ≤ kernel.toUsec)
    (hpipe : 0 < t.pipe → tv.toUsec ≤ now.toUsec + 1000) :
    (timerArm os kernel (timeFromNow now tv).toNat t).2.Wakes kernel tv := by
  have helapsed := lt_timeElapsed now tv
  have hfrom := timeElapsed_le_timeFromNow now tv
  have hnonneg := timeFromNow_nonneg now tv
  unfold timerArm
  by_cases hzero : (timeFromNow now tv).toNat = 0
  · -- `tv` is due within the millisecond, whatever is in the pipe
    have hdue : tv.toUsec ≤ kernel.toUsec + 1000 := by omega
    rw [if_pos hzero]
    refine ⟨fun _ => hdue, fun deadline _ => ?_⟩
    omega
  · rw [if_neg hzero]
    refine ⟨fun h => ?_, fun deadline hd => ?_⟩
    · have := hpipe h
      omega
    · simp only [setitimer, if_neg hzero, Option.some.injEq] at hd
      omega

/-! ## A wake-up comes -/

/-- From the reading `m` to the reading `n` the clock goes on by `lag` microseconds at most. -/
def Os.Lag (os : Os) (lag : Int) (m n : Nat) : Prop :=
  ∀ k, m ≤ k → k < n → (os.clock k).toUsec ≤ (os.clock m).toUsec + lag

theorem Os.Lag.sub {os : Os} {lag : Int} {m n m' n' : Nat} (h : os.Lag lag m n) (hm : m ≤ m')
    (hn : n' ≤ n) : os.Lag lag m' n' := by
  intro k hk hkn
  have hclock := h k (Nat.le_trans hm hk) (Nat.lt_of_lt_of_le hkn hn)
  have hmono := os.mono hm
  omega

/-- There is a wake-up in the pipe, or one will come less than a millisecond, and `lag`, after `tv`.
-/
def Timer.Armed (lag : Int) (t : Timer) (tv : Timeval) : Prop :=
  0 < t.pipe ∨ ∃ deadline, t.itimer = some deadline ∧ deadline < tv.toUsec + 1000 + lag

theorem Timer.Armed.handler {os : Os} {lag : Int} {t : Timer} {tv : Timeval} (hpipe : 0 < os.pipeSize) :
    (timerHandler os t).Armed lag tv := by
  refine Or.inl ?_
  unfold timerHandler timerWrite
  split
  · exact Nat.succ_pos _
  · rename_i hfull
    exact Nat.lt_of_lt_of_le hpipe (Nat.le_of_not_lt hfull)

/-- **Arming** brings a wake-up, also when the pipe is full. -/
theorem armed_timerArm {os : Os} {lag : Int} {t : Timer} {now kernel tv : Timeval}
    (hpipe : 0 < os.pipeSize) (hlag : kernel.toUsec ≤ now.toUsec + lag) :
    (timerArm os kernel (timeFromNow now tv).toNat t).2.Armed lag tv := by
  unfold timerArm
  by_cases hzero : (timeFromNow now tv).toNat = 0
  · rw [if_pos hzero]
    refine Or.inl ?_
    unfold timerWrite
    by_cases hfull : t.pipe < os.pipeSize
    · rw [if_pos hfull]
      exact Nat.succ_pos _
    · rw [if_neg hfull]
      exact Nat.lt_of_lt_of_le hpipe (Nat.le_of_not_lt hfull)
  · rw [if_neg hzero]
    refine Or.inr ⟨kernel.toUsec + (timeFromNow now tv).toNat * 1000, if_neg hzero, ?_⟩
    have helapsed := timeElapsed_lt now tv
    have hfrom := @timeFromNow_of_pos now tv (by omega)
    omega

end Protozoa.Engine
