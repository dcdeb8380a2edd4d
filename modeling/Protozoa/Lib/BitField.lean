import Mathlib.Data.BitVec

/-!
# Fields of a bit mask

A record of small enumerations packed in one word: each field has a mask, and a few of the values
under the mask are its members. `member` reads a field (0 for what is no member) and `put` writes
one.

* `member_put_self`: reading what was written gives it back, if it is a member.
* `member_put_other`, `put_and_other`: a field with a disjoint mask is left alone.
* `put_put`, `put_eq_self`: writing a value again changes nothing, and so does writing the value
  that is there.
* `member_eq_iff`: what it takes for a field to have a given member.

Words are of any width. A mask need not be contiguous, nor its members single bits.
-/

namespace Lib.BitField

variable {w : Nat} {mask mask' a f : BitVec w} {members members' : List (BitVec w)}

/-- The value under the mask, if it is one of the members. -/
def member (mask : BitVec w) (members : List (BitVec w)) (f : BitVec w) : BitVec w :=
  if f &&& mask ∈ members then f &&& mask else 0#w

/-- Replace what is under the mask. -/
def put (mask a f : BitVec w) : BitVec w := a ||| (f &&& ~~~mask)

/-- The word `a` has no bit outside the mask. -/
def Within (mask a : BitVec w) : Prop := a &&& mask = a

theorem within_zero (mask : BitVec w) : Within mask 0#w := BitVec.zero_and

theorem within_member (mask : BitVec w) (members : List (BitVec w)) (f : BitVec w) :
    Within mask (member mask members f) := by
  unfold member Within
  split
  · rw [BitVec.and_assoc, BitVec.and_self]
  · exact BitVec.zero_and

/-- Membership of the bits, one by one. -/
theorem within_getElem (ha : Within mask a) {i : Nat} (hi : i < w) :
    (a[i] && mask[i]) = a[i] := by
  have h := congrArg (fun x : BitVec w => x[i]) ha
  simpa only [BitVec.getElem_and] using h

theorem disjoint_getElem (h : mask' &&& mask = 0#w) {i : Nat} (hi : i < w) :
    (mask'[i] && mask[i]) = false := by
  have h := congrArg (fun x : BitVec w => x[i]) h
  simpa only [BitVec.getElem_and, BitVec.getElem_zero] using h

theorem put_and_mask (ha : Within mask a) : put mask a f &&& mask = a := by
  ext i hi
  have hw := within_getElem ha hi
  simp only [put, BitVec.getElem_and, BitVec.getElem_or, BitVec.getElem_not]
  revert hw
  generalize a[i] = x, f[i] = y, mask[i] = z
  revert x y z
  decide

theorem put_and_other (ha : Within mask a) (h : mask' &&& mask = 0#w) :
    put mask a f &&& mask' = f &&& mask' := by
  ext i hi
  have hw := within_getElem ha hi
  have hd := disjoint_getElem h hi
  simp only [put, BitVec.getElem_and, BitVec.getElem_or, BitVec.getElem_not]
  revert hw hd
  generalize a[i] = x, f[i] = y, mask[i] = z, mask'[i] = u
  revert x y z u
  decide

/-- The last write counts. -/
theorem put_put {b : BitVec w} (hb : Within mask b) : put mask a (put mask b f) = put mask a f := by
  ext i hi
  have hw := within_getElem hb hi
  simp only [put, BitVec.getElem_and, BitVec.getElem_or, BitVec.getElem_not]
  revert hw
  generalize a[i] = x, f[i] = y, mask[i] = z, b[i] = u
  revert x y z u
  decide

theorem put_eq_self (ha : Within mask a) : put mask a f = f ↔ f &&& mask = a := by
  refine ⟨fun h => ?_, fun h => ?_⟩
  · rw [← h]
    exact put_and_mask ha
  · unfold put
    rw [← h]
    ext i hi
    simp only [BitVec.getElem_and, BitVec.getElem_or, BitVec.getElem_not]
    cases f[i] <;> cases mask[i] <;> rfl

/-- A member that is read stands under the mask. -/
theorem member_eq_iff (hmem : a ∈ members) (hne : a ≠ 0#w) : member mask members f = a ↔ f &&& mask = a := by
  unfold member
  split
  · exact Iff.rfl
  · rename_i hno
    exact ⟨fun h => absurd h.symm hne, fun h => absurd (h ▸ hmem) hno⟩

/-- **Reading a field back.** -/
theorem member_put_self (mask : BitVec w) (members : List (BitVec w)) (x f : BitVec w) :
    member mask members (put mask (member mask members x) f) = member mask members x := by
  have hself := put_and_mask (f := f) (within_member mask members x)
  rw [member, hself]
  split
  · rfl
  · rename_i hno
    by_contra hne
    refine hno ?_
    unfold member at hne ⊢
    split
    · assumption
    · rename_i hx
      exact absurd (if_neg hx).symm hne

/-- **Writing a field** leaves the others alone. -/
theorem member_put_other (ha : Within mask a) (h : mask' &&& mask = 0#w) :
    member mask' members' (put mask a f) = member mask' members' f := by
  simp only [member, put_and_other ha h]

/-- A mask that holds nothing reads as no member. -/
theorem member_of_and_eq_zero (h : f &&& mask = 0#w) : member mask members f = 0#w := by
  rw [member, h]
  split <;> rfl

end Lib.BitField
