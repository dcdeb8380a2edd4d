import Mathlib.Data.List.Pairwise
import Mathlib.Logic.Function.Basic
import Mathlib.Tactic.Ring

/-!
# Lists linked in memory

A memory is a map from addresses to bytes. A pointer takes `w` bytes, the low one first. A cell is a
place in memory that begins with a pointer to the next cell.

* `load_store`, `sameOn_store`: a pointer that has been stored is loaded again, and no other bytes
  change (`Apart`, `SameOn`).
* `Linked`: the cells that a pointer leads to, up to where the last one points; only their pointers
  matter (`Linked.congr`), and two lists after one another are one (`linked_append`).
* `cells`: cells of one size, side by side, pairwise apart (`pairwise_cells`).

Addresses are natural numbers without an upper end. A pointer that is stored is below `256 ^ w`,
which is a hypothesis of `load_store`.
-/

namespace Lib.LinkedList

/-- A memory of bytes. -/
abbrev Memory := Nat → BitVec 8

/-- The pointer at an address. -/
def load : Nat → Memory → Nat → Nat
  | 0, _, _ => 0
  | w + 1, mem, a => (mem a).toNat + 256 * load w mem (a + 1)

/-- A pointer is written to an address. -/
def store : Nat → Memory → Nat → Nat → Memory
  | 0, mem, _, _ => mem
  | w + 1, mem, a, v => store w (Function.update mem a (BitVec.ofNat 8 v)) (a + 1) (v / 256)

/-- Two memories are the same on some bytes. -/
def SameOn (mem mem' : Memory) (a n : Nat) : Prop := ∀ x, a ≤ x → x < a + n → mem' x = mem x

variable {w n k a b p q v x : Nat} {mem mem' : Memory} {l l' : List Nat}

/-! ## Pointers -/

theorem store_of_apart (h : x < a ∨ a + w ≤ x) : store w mem a v x = mem x := by
  induction w generalizing mem a v with
  | zero => rfl
  | succ w ih =>
    have hne : x ≠ a := by omega
    rw [store, ih (by omega), Function.update_of_ne hne]

/-- **No other bytes change.** -/
theorem sameOn_store (h : b + n ≤ a ∨ a + w ≤ b) : SameOn mem (store w mem a v) b n :=
  fun x hlo hhi => store_of_apart (by omega)

theorem load_congr (h : SameOn mem mem' a w) : load w mem' a = load w mem a := by
  induction w generalizing a with
  | zero => rfl
  | succ w ih =>
    have hrest : SameOn mem mem' (a + 1) w := fun x hlo hhi => h x (by omega) (by omega)
    rw [load, load, h a le_rfl (by omega), ih hrest]

/-- **A pointer is loaded as it has been stored**, if it fits. -/
theorem load_store (hv : v < 256 ^ w) : load w (store w mem a v) a = v := by
  induction w generalizing mem a v with
  | zero => exact (Nat.lt_one_iff.mp hv).symm
  | succ w ih =>
    have hhigh : v / 256 < 256 ^ w := Nat.div_lt_of_lt_mul (by rwa [← Nat.pow_succ'])
    rw [load, store, store_of_apart (Or.inl a.lt_succ_self), ih hhigh, Function.update_self, BitVec.toNat_ofNat]
    exact Nat.mod_add_div v 256

/-! ## Cells -/

/-- The pointer `p` leads to the cells `l`, each of which points to the next, and the last one to
`q`. -/
def Linked (w : Nat) (mem : Memory) : Nat → List Nat → Nat → Prop
  | p, [], q => p = q
  | p, a :: l, q => p = a ∧ Linked w mem (load w mem a) l q

theorem linked_append {r : Nat} :
    Linked w mem p (l ++ l') r ↔ ∃ q, Linked w mem p l q ∧ Linked w mem q l' r := by
  induction l generalizing p with
  | nil => exact ⟨fun h => ⟨p, rfl, h⟩, fun ⟨q, hpq, h⟩ => hpq ▸ h⟩
  | cons a l ih =>
    constructor
    · rintro ⟨rfl, h⟩
      obtain ⟨q, hl, hl'⟩ := ih.mp h
      exact ⟨q, ⟨rfl, hl⟩, hl'⟩
    · rintro ⟨q, ⟨rfl, hl⟩, hl'⟩
      exact ⟨rfl, ih.mpr ⟨q, hl, hl'⟩⟩

/-- **Only the pointers of the cells matter.** -/
theorem Linked.congr (h : Linked w mem p l q) (hsame : ∀ a ∈ l, SameOn mem mem' a w) : Linked w mem' p l q := by
  induction l generalizing p with
  | nil => exact h
  | cons a l ih =>
    obtain ⟨rfl, h⟩ := h
    obtain ⟨ha, hl⟩ := List.forall_mem_cons.mp hsame
    refine ⟨rfl, ?_⟩
    rw [load_congr ha]
    exact ih h hl

/-- A list that leads from `NULL` to `NULL` has no cells. -/
theorem Linked.eq_nil (h : Linked w mem 0 l 0) (hl : ∀ a ∈ l, a ≠ 0) : l = [] := by
  cases l with
  | nil => rfl
  | cons a l => exact absurd h.1.symm (hl a List.mem_cons_self)

/-- Where a pointer leads to. -/
theorem Linked.mem_or_eq (h : Linked w mem p l q) : p ∈ l ∨ p = q := by
  cases l with
  | nil => exact Or.inr h
  | cons a l => exact Or.inl (h.1 ▸ List.mem_cons_self)

/-- The first cell of a list. -/
theorem Linked.eq_cons (h : Linked w mem p l q) (hne : p ≠ q) :
    ∃ l', l = p :: l' ∧ Linked w mem (load w mem p) l' q := by
  cases l with
  | nil => exact absurd h hne
  | cons a l =>
    obtain ⟨rfl, h⟩ := h
    exact ⟨l, rfl, h⟩

/-! ## Cells side by side -/

/-- Two cells of `n` bytes that do not overlap. -/
abbrev Apart (n a b : Nat) : Prop := a + n ≤ b ∨ b + n ≤ a

theorem Apart.symm (h : Apart n a b) : Apart n b a := Or.symm h

instance : Std.Symm (Apart n) := ⟨fun _ _ => Apart.symm⟩

/-- `k` cells of `n` bytes from `a` on. -/
def cells (n : Nat) : Nat → Nat → List Nat
  | _, 0 => []
  | a, k + 1 => a :: cells n (a + n) k

theorem length_cells (n a k : Nat) : (cells n a k).length = k := by
  induction k generalizing a with
  | zero => rfl
  | succ k ih => exact congrArg (· + 1) (ih (a + n))

theorem bounds_of_mem_cells (h : x ∈ cells n a k) : a ≤ x ∧ x + n ≤ a + k * n := by
  induction k generalizing a with
  | zero => cases h
  | succ k ih =>
    rw [Nat.succ_mul]
    rcases List.mem_cons.mp h with rfl | h
    · exact ⟨le_rfl, by omega⟩
    · have := ih h
      omega

theorem pairwise_cells (n a k : Nat) : (cells n a k).Pairwise (Apart n) := by
  induction k generalizing a with
  | zero => exact List.Pairwise.nil
  | succ k ih => exact List.Pairwise.cons (fun x hx => Or.inl (bounds_of_mem_cells hx).1) (ih (a + n))

end Lib.LinkedList
