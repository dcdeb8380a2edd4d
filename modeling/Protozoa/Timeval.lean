import Mathlib.Tactic.Linarith

/-!
# Time values (`timeval.c`)

`struct timeval` with its two fields as integers. `gettimeofday` is no function of the program: a
function that calls it takes the reading as an argument `now`.

* `timeval_adjust` (`timeval.c:28-34`) multiplies in `unsigned int`, so `ms * 1000` is taken modulo
  2³².
* `time_elapsed` (`timeval.c:39-42`) divides as C does, toward zero, and the microseconds apart from
  the seconds (`timeElapsed_eq`): what it finds is rounded down, or one millisecond more than has
  passed.
* `time_from_now` and `time_since` (`timeval.c:47-74`) are at least 0.
* `timeval_compare` (`timeval.c:79-92`) compares the seconds first and then the microseconds
  (`timevalCompare_eq_lex`), which is the order of time for values that are `Normal`.

Results:
* **`neverOverstated_iff`**: what is reported is rounded down if and only if the microseconds do not
  go back by a part of a millisecond.
* `timeElapsed_lt`, `lt_timeElapsed`: in any case it is less than one millisecond too much, and
  never a whole one too little. The engine's results on pauses rest on the two.
-/

namespace Protozoa

/-- `struct timeval`. -/
@[ext] structure Timeval where
  sec : Int
  usec : Int
  deriving DecidableEq, Repr

namespace Timeval

/-- The microseconds of a `timeval`. -/
def toUsec (t : Timeval) : Int := t.sec * 1000000 + t.usec

/-- What `gettimeofday` gives: the microseconds are below one second. -/
def Normal (t : Timeval) : Prop := 0 ≤ t.usec ∧ t.usec < 1000000

instance (t : Timeval) : Decidable t.Normal := inferInstanceAs (Decidable (_ ∧ _))

end Timeval

/-- `while(tv->tv_usec >= 1000000) { … }` of `timeval_adjust`. -/
def timevalCarry : Nat → Timeval → Timeval
  | 0, tv => tv
  | fuel + 1, tv =>
    if tv.usec ≥ 1000000 then timevalCarry fuel ⟨tv.sec + 1, tv.usec - 1000000⟩ else tv

/-- `timeval_adjust`. -/
def timevalAdjust (tv : Timeval) (ms : Nat) : Timeval :=
  let usec := tv.usec + (ms * 1000 % 2 ^ 32 : Nat)
  timevalCarry (usec / 1000000).toNat ⟨tv.sec, usec⟩

/-- `time_elapsed`, in milliseconds. -/
def timeElapsed (start stop : Timeval) : Int :=
  (stop.sec - start.sec) * 1000 + (stop.usec - start.usec).tdiv 1000

/-- `time_from_now`: how far a `timeval` is in the future, in milliseconds. -/
def timeFromNow (now tv : Timeval) : Int :=
  let ms := timeElapsed now tv
  if ms < 0 then 0 else ms

/-- `time_since`: how far a `timeval` is in the past, in milliseconds. -/
def timeSince (now tv : Timeval) : Int :=
  let ms := timeElapsed tv now
  if ms < 0 then 0 else ms

/-- `timeval_compare`. -/
def timevalCompare (t0 t1 : Timeval) : Ordering :=
  if t0.sec < t1.sec then .lt
  else if t0.sec > t1.sec then .gt
  else if t0.usec < t1.usec then .lt
  else if t0.usec > t1.usec then .gt
  else .eq

theorem timevalCarry_spec : ∀ {fuel : Nat} {tv : Timeval}, 0 ≤ tv.usec →
    (tv.usec / 1000000).toNat ≤ fuel →
      (timevalCarry fuel tv).toUsec = tv.toUsec ∧ (timevalCarry fuel tv).Normal
  | 0, tv, h0, hf => by
    refine ⟨rfl, h0, ?_⟩
    show tv.usec < 1000000
    omega
  | fuel + 1, tv, h0, hf => by
    unfold timevalCarry
    split
    · rename_i hge
      have hrec := @timevalCarry_spec fuel ⟨tv.sec + 1, tv.usec - 1000000⟩
        (show 0 ≤ tv.usec - 1000000 by omega)
        (show ((tv.usec - 1000000) / 1000000).toNat ≤ fuel by omega)
      refine ⟨hrec.1.trans ?_, hrec.2⟩
      simp only [Timeval.toUsec]
      omega
    · exact ⟨rfl, h0, by omega⟩

/-- **`timeval_adjust`** moves a time by as many milliseconds as fit in an `unsigned int` of
microseconds. -/
theorem timevalAdjust_spec {tv : Timeval} {ms : Nat} (h : tv.Normal) :
    (timevalAdjust tv ms).toUsec = tv.toUsec + (ms * 1000 % 2 ^ 32 : Nat) ∧
      (timevalAdjust tv ms).Normal := by
  have h0 : (0 : Int) ≤ tv.usec + (ms * 1000 % 2 ^ 32 : Nat) := by
    have := h.1
    omega
  have hspec := @timevalCarry_spec _ ⟨tv.sec, tv.usec + (ms * 1000 % 2 ^ 32 : Nat)⟩ h0 le_rfl
  refine ⟨hspec.1.trans ?_, hspec.2⟩
  simp only [Timeval.toUsec]
  omega

/-- **`time_elapsed`** is the time that has passed in whole milliseconds, and one more where the
microseconds have gone back by a part of a millisecond. -/
theorem timeElapsed_eq (start stop : Timeval) :
    timeElapsed start stop = (stop.toUsec - start.toUsec) / 1000 +
      if start.usec ≤ stop.usec ∨ 1000 ∣ stop.usec - start.usec then 0 else 1 := by
  have hsplit : stop.toUsec - start.toUsec = stop.usec - start.usec + (stop.sec - start.sec) * 1000 * 1000 := by
    simp only [Timeval.toUsec]
    omega
  rw [timeElapsed, Int.tdiv_eq_ediv, hsplit, Int.add_mul_ediv_right _ _ (by decide)]
  simp only [Int.sub_nonneg, show Int.sign 1000 = 1 from rfl]
  omega

/-- The time that is left is less than one millisecond more than `time_elapsed` says. -/
theorem lt_timeElapsed (start stop : Timeval) :
    stop.toUsec - start.toUsec < timeElapsed start stop * 1000 + 1000 := by
  rw [timeElapsed_eq]
  split <;> omega

/-- Milliseconds that have passed are found. -/
theorem not_timeSince_lt {now tv : Timeval} {ms : Nat} (h : tv.toUsec + ms * 1000 ≤ now.toUsec) :
    ¬timeSince now tv < ms := by
  have hlt := lt_timeElapsed tv now
  unfold timeSince
  simp only
  split_ifs <;> omega

/-- `time_elapsed` says less than one millisecond more than the time that is left. -/
theorem timeElapsed_lt (start stop : Timeval) :
    timeElapsed start stop * 1000 < stop.toUsec - start.toUsec + 1000 := by
  rw [timeElapsed_eq]
  simp only [Timeval.toUsec]
  split <;> omega

theorem timeElapsed_le_timeFromNow (now tv : Timeval) : timeElapsed now tv ≤ timeFromNow now tv := by
  simp only [timeFromNow]
  split <;> omega

theorem timeFromNow_nonneg (now tv : Timeval) : 0 ≤ timeFromNow now tv := by
  simp only [timeFromNow]
  split <;> omega

theorem timeFromNow_of_pos {now tv : Timeval} (h : 0 < timeFromNow now tv) :
    timeFromNow now tv = timeElapsed now tv := by
  unfold timeFromNow at h ⊢
  simp only at h ⊢
  split
  · rename_i hneg
    rw [if_pos hneg] at h
    omega
  · rfl

theorem timevalCompare_eq_lex :
    timevalCompare = compareLex (compareOn Timeval.sec) (compareOn Timeval.usec) := by
  funext s t
  simp only [timevalCompare, compareLex, compareOn]
  rcases lt_trichotomy s.sec t.sec with h | h | h
  · simp [h, compare_lt_iff_lt.mpr h]
  · rw [h, compare_eq_iff_eq.mpr rfl]
    rcases lt_trichotomy s.usec t.usec with h' | h' | h'
    · simp [h', compare_lt_iff_lt.mpr h']
    · simp [h']
    · simp [h', not_lt.mpr h'.le, compare_gt_iff_gt.mpr h']
  · simp [h, not_lt.mpr h.le, compare_gt_iff_gt.mpr h]

instance : Std.TransCmp timevalCompare := by
  rw [timevalCompare_eq_lex]
  infer_instance

theorem timevalCompare_eq {s t : Timeval} : timevalCompare s t = .eq ↔ s = t := by
  unfold timevalCompare
  constructor
  · intro h
    split_ifs at h
    ext <;> omega
  · rintro rfl
    simp

/-! ## Elapsed time -/

/-- What must hold of the time from `start` to `stop`, that it is never overstated, and of the times
after `start`. -/
structure NeverOverstated (start stop : Timeval) : Prop where
  /-- rounded down -/
  elapsed : timeElapsed start stop = (stop.toUsec - start.toUsec) / 1000
  since : timeSince stop start * 1000 ≤ stop.toUsec - start.toUsec
  fromNow : timeFromNow start stop * 1000 ≤ stop.toUsec - start.toUsec
  adjusted : ∀ ms ≤ 30000,
    (timevalAdjust start ms).Normal ∧ timeElapsed start (timevalAdjust start ms) = ms

variable {start stop : Timeval}

theorem timeElapsed_nonneg (h : start.toUsec ≤ stop.toUsec) : 0 ≤ timeElapsed start stop := by
  rw [timeElapsed_eq]
  split <;> omega

theorem timeElapsed_timevalAdjust (h : start.Normal) {ms : Nat} (hms : ms ≤ 30000) :
    timeElapsed start (timevalAdjust start ms) = ms := by
  have hmod : ms * 1000 % 2 ^ 32 = ms * 1000 := Nat.mod_eq_of_lt (by omega)
  have hadjust : (timevalAdjust start ms).toUsec = start.toUsec + (ms * 1000 % 2 ^ 32 : Nat) :=
    (timevalAdjust_spec h).1
  rw [hmod] at hadjust
  have hdvd : 1000 ∣ (timevalAdjust start ms).usec - start.usec := by
    simp only [Timeval.toUsec] at hadjust
    omega
  rw [timeElapsed_eq, if_pos (Or.inr hdvd)]
  omega

/-- **Elapsed time is never overstated** if and only if the microseconds do not go back, or by whole
milliseconds. -/
theorem neverOverstated_iff (hstart : start.Normal) (hle : start.toUsec ≤ stop.toUsec) :
    NeverOverstated start stop ↔ start.usec ≤ stop.usec ∨ 1000 ∣ stop.usec - start.usec := by
  constructor
  · intro h
    by_contra hback
    have hmore := h.elapsed
    rw [timeElapsed_eq, if_neg hback] at hmore
    omega
  · intro hexact
    have helapsed : timeElapsed start stop = (stop.toUsec - start.toUsec) / 1000 := by
      rw [timeElapsed_eq, if_pos hexact, Int.add_zero]
    have hpos := timeElapsed_nonneg hle
    have hsince : timeSince stop start = timeElapsed start stop := if_neg (Int.not_lt.mpr hpos)
    have hfromNow : timeFromNow start stop = timeElapsed start stop := if_neg (Int.not_lt.mpr hpos)
    have hfloor : timeElapsed start stop * 1000 ≤ stop.toUsec - start.toUsec := by omega
    exact ⟨helapsed, hsince ▸ hfloor, hfromNow ▸ hfloor, fun ms hms =>
      ⟨(timevalAdjust_spec hstart).2, timeElapsed_timevalAdjust hstart hms⟩⟩

/-- A quarter of a second, over the end of a second. -/
theorem neverOverstated_iff_quarter : NeverOverstated ⟨7, 900500⟩ ⟨8, 150500⟩ :=
  (neverOverstated_iff (by decide) (by decide)).mpr (by decide)

/-- From half a millisecond after one second to the next there are 999 whole milliseconds, and 1000
are found, by `time_since` and `time_from_now` too. -/
theorem not_neverOverstated :
    timeElapsed ⟨0, 500⟩ ⟨1, 0⟩ = 1000 ∧ timeSince ⟨1, 0⟩ ⟨0, 500⟩ = 1000 ∧
    timeFromNow ⟨0, 500⟩ ⟨1, 0⟩ = 1000 ∧ Timeval.toUsec ⟨1, 0⟩ - Timeval.toUsec ⟨0, 500⟩ = 999500 ∧
    ¬NeverOverstated ⟨0, 500⟩ ⟨1, 0⟩ :=
  ⟨by decide, by decide, by decide, by decide, fun h => absurd h.elapsed (by decide)⟩

end Protozoa
