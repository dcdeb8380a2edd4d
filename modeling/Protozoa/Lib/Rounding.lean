import Mathlib.Algebra.Order.Group.Int
import Mathlib.Algebra.Order.Group.Abs
import Mathlib.Algebra.Order.Ring.Int

/-!
# Rounding to levels

`Rounds top err f`: `f` takes the numbers from 0 to `top` to some of them, none farther than `err`,
in order, and leaves alone what it has made.

* `rounds_nearest`: `nearest` does so with the multiples of a step, of which there are so many.
* `Rounds.topped`: and so does `topped`, with one more level at the top.
* `signed` is the same on both sides of 0: near (`signed_near`), made once (`signed_idem`), and no
  number is turned round (`signed_mul_nonneg`).
-/

namespace Lib.Rounding

variable {top err : Int} {f : Int → Int}

/-- What rounding does to the numbers from 0 to `top`. -/
structure Rounds (top err : Int) (f : Int → Int) : Prop where
  zero : f 0 = 0
  range : ∀ v, 0 ≤ v → v ≤ top → 0 ≤ f v ∧ f v ≤ top
  mono : ∀ v w, 0 ≤ v → v ≤ w → w ≤ top → f v ≤ f w
  near : ∀ v, 0 ≤ v → v ≤ top → |f v - v| ≤ err
  idem : ∀ v, 0 ≤ v → v ≤ top → f (f v) = f v

/-! ## Multiples of a step -/

/-- The nearest multiple of `step`, but at most `most` times `step`. -/
def nearest (step most v : Int) : Int := step * min ((v + step / 2) / step) most

section

variable {step most : Int}

theorem nearest_mul {k : Int} (hstep : 0 < step) (hk : k ≤ most) : nearest step most (step * k) = step * k := by
  have hhalf : step / 2 / step = 0 := Int.ediv_eq_zero_of_lt (by omega) (by omega)
  unfold nearest
  rw [Int.add_comm, Int.add_mul_ediv_left _ _ hstep.ne', hhalf, Int.zero_add, min_eq_left hk]

theorem nearest_mono (hstep : 0 < step) {v w : Int} (h : v ≤ w) : nearest step most v ≤ nearest step most w :=
  Int.mul_le_mul_of_nonneg_left (min_le_min_right _ (Int.ediv_le_ediv hstep (by omega))) hstep.le

/-- Below the last multiple the error is half a step, and behind it less than a step. -/
theorem rounds_nearest (hstep : 0 < step) (hmost : 0 ≤ most) (hle : step * most ≤ top)
    (hlt : top < step * most + step) : Rounds top (step - 1) (nearest step most) where
  zero := by
    have hzero := @nearest_mul step most 0 hstep hmost
    rwa [Int.mul_zero] at hzero
  range v hv _ := by
    refine ⟨Int.mul_nonneg hstep.le (le_min (Int.ediv_nonneg (by omega) hstep.le) hmost), le_trans ?_ hle⟩
    exact Int.mul_le_mul_of_nonneg_left (min_le_right _ _) hstep.le
  mono _ _ _ hvw _ := nearest_mono hstep hvw
  near v _ hv := by
    have hdiv := Int.mul_ediv_add_emod (v + step / 2) step
    have hpos := Int.emod_nonneg (v + step / 2) hstep.ne'
    have hsmall := Int.emod_lt_of_pos (v + step / 2) hstep
    unfold nearest
    rw [abs_le]
    rcases le_total ((v + step / 2) / step) most with hk | hk
    · rw [min_eq_left hk]
      omega
    · have hmul := Int.mul_le_mul_of_nonneg_left hk hstep.le
      rw [min_eq_right hk]
      omega
  idem v _ _ := nearest_mul hstep (min_le_right _ _)

end

/-! ## One more level -/

/-- Behind `cut` there is only `top`. -/
def topped (cut top : Int) (f : Int → Int) (v : Int) : Int := if cut < v then top else f v

theorem Rounds.topped {cut : Int} (h : Rounds top err f) (hcut : 0 ≤ cut) (hcut' : cut < top)
    (hbelow : ∀ v, 0 ≤ v → v ≤ cut → f v ≤ cut) (herr : top - cut - 1 ≤ err) : Rounds top err (topped cut top f) where
  zero := (if_neg (by omega)).trans h.zero
  range v hv hle := by
    unfold Rounding.topped
    split
    · exact ⟨by omega, le_rfl⟩
    · exact h.range v hv hle
  mono v w hv hvw hw := by
    unfold Rounding.topped
    by_cases hwcut : cut < w
    · rw [if_pos hwcut]
      split
      · exact le_rfl
      · exact (h.range v hv (by omega)).2
    · rw [if_neg hwcut, if_neg (by omega)]
      exact h.mono v w hv hvw hw
  near v hv hle := by
    unfold Rounding.topped
    split
    · rw [abs_le]
      omega
    · exact h.near v hv hle
  idem v hv hle := by
    unfold Rounding.topped
    by_cases hvcut : cut < v
    · rw [if_pos hvcut, if_pos hcut']
    · have hlow := hbelow v hv (by omega)
      rw [if_neg hvcut, if_neg (by omega)]
      exact h.idem v hv hle

/-! ## Both sides of 0 -/

/-- Rounding on both sides of 0. -/
def signed (f : Int → Int) (v : Int) : Int := if v < 0 then -f (-v) else f v

theorem signed_of_nonneg {v : Int} (hv : 0 ≤ v) : signed f v = f v := if_neg (by omega)

namespace Rounds

variable (h : Rounds top err f)

include h

theorem signed_neg (v : Int) : signed f (-v) = -signed f v := by
  unfold signed
  rcases lt_trichotomy v 0 with hv | hv | hv
  · rw [if_pos hv, if_neg (by omega), Int.neg_neg]
  · rw [hv, Int.neg_zero, if_neg (by omega), h.zero]
    rfl
  · rw [if_pos (by omega), if_neg (by omega), Int.neg_neg]

/-- The error is the same on both sides. -/
theorem signed_near {v : Int} (hv : |v| ≤ top) : |signed f v - v| ≤ err := by
  obtain ⟨hlow, hhigh⟩ := abs_le.mp hv
  unfold signed
  by_cases hneg : v < 0
  · have hnear := abs_le.mp (h.near (-v) (by omega) (by omega))
    rw [if_pos hneg, abs_le]
    omega
  · rw [if_neg hneg]
    exact h.near v (by omega) hhigh

/-- **No number is turned round.** -/
theorem signed_mul_nonneg {v : Int} (hv : |v| ≤ top) : 0 ≤ signed f v * v := by
  obtain ⟨hlow, hhigh⟩ := abs_le.mp hv
  unfold signed
  by_cases hneg : v < 0
  · have hrange := h.range (-v) (by omega) (by omega)
    rw [if_pos hneg]
    exact Int.mul_nonneg_of_nonpos_of_nonpos (by omega) hneg.le
  · rw [if_neg hneg]
    exact Int.mul_nonneg (h.range v (by omega) hhigh).1 (by omega)

/-- **Rounding twice** is rounding once. -/
theorem signed_idem {v : Int} (hv : |v| ≤ top) : signed f (signed f v) = signed f v := by
  obtain ⟨hlow, hhigh⟩ := abs_le.mp hv
  have hnonneg : ∀ u, 0 ≤ u → u ≤ top → signed f (f u) = f u := fun u hu hle => by
    unfold signed
    rw [if_neg (by have := h.range u hu hle; omega), h.idem u hu hle]
  by_cases hneg : v < 0
  · have hone : signed f v = -f (-v) := if_pos hneg
    rw [hone, h.signed_neg, hnonneg (-v) (by omega) (by omega)]
  · have hone : signed f v = f v := if_neg hneg
    rw [hone, hnonneg v (by omega) hhigh]

end Rounds

end Lib.Rounding
