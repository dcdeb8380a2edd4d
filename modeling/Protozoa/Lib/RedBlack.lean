import Mathlib.Algebra.Group.Nat.Defs
import Protozoa.Lib.LinkedTree

/-!
# Red-black trees with a hole

`RB t n`: `t` has black height `n` on every path and no red node has a red kid. `CtxRB ctx n`: the
path `ctx` accepts a tree of black height `n` in its hole, a red one only when `TopNotRed ctx`.

* `rb_plug`: a path and a tree it accepts are a red-black tree together.
* `ctxRB_push`: what a path becomes when a node is pushed onto it; `rb_fill_red` and `rb_fill_black`
  are the frames of the two colours.
* `rb_blacken`, `notRed_blacken`: the root may be made black at the end.
* **`RB.height_le_log`**: a tree whose root is black is at most twice as high as the logarithm of
  its size.

The order of the values plays no part here.
-/

namespace Lib.RedBlack

open Lib.LinkedTree

variable {α : Type}

/-- Black height `n` on every path and no red node with a red kid. -/
def RB : BinTree α → Nat → Prop
  | .nil, n => n = 0
  | .node _ .red _ k, n => ∀ d, RB (k d) n ∧ (k d).NotRed
  | .node _ .black _ k, n => ∃ m, n = m + 1 ∧ ∀ d, RB (k d) m

@[simp] theorem rb_nil {n : Nat} : RB (.nil : BinTree α) n ↔ n = 0 := Iff.rfl

@[simp] theorem rb_red {a : Nat} {v : α} {k : Side → BinTree α} {n : Nat} :
    RB (.node a .red v k) n ↔ ∀ d, RB (k d) n ∧ (k d).NotRed := Iff.rfl

@[simp] theorem rb_black {a : Nat} {v : α} {k : Side → BinTree α} {n : Nat} :
    RB (.node a .black v k) (n + 1) ↔ ∀ d, RB (k d) n :=
  ⟨fun ⟨m, e, h⟩ => by obtain rfl : n = m := by omega
                       exact h, fun h => ⟨n, rfl, h⟩⟩

theorem RB.kid {a : Nat} {c : Colour} {v : α} {k : Side → BinTree α} {n : Nat}
    (h : RB (.node a c v k) n) (d : Side) : ∃ m, RB (k d) m := by
  cases c with
  | red => exact ⟨n, (h d).1⟩
  | black => obtain ⟨m, -, h⟩ := h; exact ⟨m, h d⟩

/-- A tree of black height 0 that is not red is empty. -/
theorem RB.nil_of_zero {t : BinTree α} (h : RB t 0) (hc : t.NotRed) : t = .nil := by
  cases t with
  | nil => rfl
  | node a c v k =>
    rw [BinTree.notRed_node] at hc
    subst hc
    obtain ⟨m, e, -⟩ := h
    omega

/-- The node above the hole is not red. -/
def TopNotRed : Ctx α → Prop
  | [] => True
  | f :: _ => f.c = .black

/-- The path accepts black height `n` in its hole. -/
def CtxRB : Ctx α → Nat → Prop
  | [], _ => True
  | ⟨_, .black, _, _, sib⟩ :: ctx, n => RB sib n ∧ CtxRB ctx (n + 1)
  | ⟨_, .red, _, _, sib⟩ :: ctx, n => RB sib n ∧ sib.NotRed ∧ TopNotRed ctx ∧ CtxRB ctx n

@[simp] theorem ctxRB_nil {n : Nat} : CtxRB ([] : Ctx α) n := trivial

@[simp] theorem ctxRB_black {a : Nat} {v : α} {d : Side} {sib : BinTree α} {ctx : Ctx α} {n : Nat} :
    CtxRB (⟨a, .black, v, d, sib⟩ :: ctx) n ↔ RB sib n ∧ CtxRB ctx (n + 1) := Iff.rfl

@[simp] theorem ctxRB_red {a : Nat} {v : α} {d : Side} {sib : BinTree α} {ctx : Ctx α} {n : Nat} :
    CtxRB (⟨a, .red, v, d, sib⟩ :: ctx) n ↔
      RB sib n ∧ sib.NotRed ∧ TopNotRed ctx ∧ CtxRB ctx n := Iff.rfl

@[simp] theorem topNotRed_nil : TopNotRed ([] : Ctx α) := trivial

@[simp] theorem topNotRed_cons {f : Frame α} {ctx : Ctx α} :
    TopNotRed (f :: ctx) ↔ f.c = .black := Iff.rfl

theorem rb_fill_red {a : Nat} {v : α} {d : Side} {sib t : BinTree α} {n : Nat} (ht : RB t n)
    (hc : t.NotRed) (hs : RB sib n) (hsc : sib.NotRed) :
    RB ((⟨a, .red, v, d, sib⟩ : Frame α).fill t) n := by
  simp only [Frame.fill, rb_red, Side.forall_iff d, kids_self, kids_other]
  exact ⟨⟨ht, hc⟩, hs, hsc⟩

theorem rb_fill_black {a : Nat} {v : α} {d : Side} {sib t : BinTree α} {n : Nat} (ht : RB t n)
    (hs : RB sib n) : RB ((⟨a, .black, v, d, sib⟩ : Frame α).fill t) (n + 1) := by
  simp only [Frame.fill, rb_black, Side.forall_iff d, kids_self, kids_other]
  exact ⟨ht, hs⟩

/-- **A path with a fitting tree in its hole is a red-black tree.** -/
theorem rb_plug : ∀ {ctx : Ctx α} {t : BinTree α} {n : Nat}, CtxRB ctx n → RB t n →
    (TopNotRed ctx ∨ t.NotRed) → ∃ m, RB (plug ctx t) m
  | [], _, n, _, ht, _ => ⟨n, ht⟩
  | ⟨a, .black, v, d, sib⟩ :: ctx, t, n, hctx, ht, _ => by
    obtain ⟨hs, hctx⟩ := hctx
    rw [plug]
    exact rb_plug hctx (rb_fill_black ht hs) (Or.inr rfl)
  | ⟨a, .red, v, d, sib⟩ :: ctx, t, n, hctx, ht, hc => by
    obtain ⟨hs, hsc, htop, hctx⟩ := hctx
    have htc : t.NotRed := hc.resolve_left (by simp)
    rw [plug]
    exact rb_plug hctx (rb_fill_red ht htc hs hsc) (Or.inl htop)

/-- **Going down** from a node leaves a path that accepts the kid. -/
theorem ctxRB_push {ctx : Ctx α} {a : Nat} {c : Colour} {v : α} {k : Side → BinTree α} {n : Nat}
    (hctx : CtxRB ctx n) (ht : RB (.node a c v k) n) (hc : TopNotRed ctx ∨ c = .black) (d : Side) :
    ∃ m, CtxRB (Frame.ofNode a c v k d :: ctx) m ∧ RB (k d) m ∧ (c = .black ∨ (k d).NotRed) := by
  cases c with
  | red =>
    refine ⟨n, ⟨(ht d.other).1, (ht d.other).2, ?_, hctx⟩, (ht d).1, Or.inr (ht d).2⟩
    exact hc.resolve_right (by decide)
  | black =>
    obtain ⟨m, rfl, h⟩ := ht
    exact ⟨m, ⟨h d.other, hctx⟩, h d, Or.inl rfl⟩

/-- Turn the root black. -/
def blacken : BinTree α → BinTree α
  | .nil => .nil
  | .node a _ v k => .node a .black v k

@[simp] theorem inorder_blacken (t : BinTree α) : (blacken t).inorder = t.inorder := by
  cases t <;> rfl

@[simp] theorem root_blacken (t : BinTree α) : (blacken t).root = t.root := by cases t <;> rfl

@[simp] theorem addrs_blacken (t : BinTree α) : (blacken t).addrs = t.addrs := by cases t <;> rfl

@[simp] theorem size_blacken (t : BinTree α) : (blacken t).size = t.size := by cases t <;> rfl

theorem notRed_blacken (t : BinTree α) : (blacken t).NotRed := by cases t <;> trivial

/-- A red tree turned black gains one in black height. -/
theorem rb_blacken_red {t : BinTree α} {n : Nat} (h : RB t n) (hc : ¬ t.NotRed) :
    RB (blacken t) (n + 1) := by
  cases t with
  | nil => exact absurd trivial hc
  | node a c v k =>
    cases c with
    | red => exact ⟨n, rfl, fun d => (h d).1⟩
    | black => exact absurd rfl hc

theorem rb_blacken {t : BinTree α} {n : Nat} (h : RB t n) : ∃ m, RB (blacken t) m := by
  cases t with
  | nil => exact ⟨n, h⟩
  | node a c v k =>
    cases c with
    | red => exact ⟨n + 1, n, rfl, fun d => (h d).1⟩
    | black => exact ⟨n, h⟩

theorem RB.replace {b : Nat} {w : α} {t : BinTree α} {n : Nat} (h : RB t n) : RB (t.replace b w) n := by
  induction t generalizing n with
  | nil => exact h
  | node a c v k ih =>
    cases c with
    | red => exact fun d => ⟨ih d (h d).1, BinTree.notRed_replace.mpr (h d).2⟩
    | black =>
      obtain ⟨m, rfl, hk⟩ := h
      exact ⟨m, rfl, fun d => ih d (hk d)⟩

/-! ## The height -/

def height : BinTree α → Nat
  | .nil => 0
  | .node _ _ _ k => max (height (k .left)) (height (k .right)) + 1

theorem height_kid (a : Nat) (c : Colour) (v : α) (k : Side → BinTree α) (d : Side) :
    height (k d) < height (.node a c v k) := by
  cases d with
  | left => exact Nat.lt_succ_of_le (Nat.le_max_left _ _)
  | right => exact Nat.lt_succ_of_le (Nat.le_max_right _ _)

theorem RB.pow_le {t : BinTree α} {n : Nat} (h : RB t n) : 2 ^ n ≤ t.size + 1 := by
  induction t generalizing n with
  | nil =>
    obtain rfl := rb_nil.mp h
    exact Nat.le_refl _
  | node a c v k ih =>
    rw [BinTree.size]
    cases c with
    | red =>
      have hl := ih .left (h .left).1
      omega
    | black =>
      obtain ⟨m, rfl, hk⟩ := h
      have hl := ih .left (hk .left)
      have hr := ih .right (hk .right)
      rw [Nat.pow_succ]
      omega

/-- Red nodes at most double a path. -/
theorem RB.height_le {t : BinTree α} {n : Nat} (h : RB t n) :
    height t ≤ 2 * n + 1 ∧ (t.NotRed → height t ≤ 2 * n) := by
  induction t generalizing n with
  | nil => exact ⟨Nat.zero_le _, fun _ => Nat.zero_le _⟩
  | node a c v k ih =>
    cases c with
    | red =>
      have hkid : ∀ d, height (k d) ≤ 2 * n := fun d => (ih d (h d).1).2 (h d).2
      have hmax := Nat.max_le.mpr ⟨hkid .left, hkid .right⟩
      exact ⟨Nat.succ_le_succ hmax, fun hred => absurd (show Colour.red = .black from hred) (by decide)⟩
    | black =>
      obtain ⟨m, rfl, hk⟩ := h
      have hmax := Nat.max_le.mpr ⟨(ih .left (hk .left)).1, (ih .right (hk .right)).1⟩
      have hle : height (.node a .black v k) ≤ 2 * (m + 1) := Nat.succ_le_succ hmax
      exact ⟨Nat.le_succ_of_le hle, fun _ => hle⟩

/-- **A red-black tree is low.** -/
theorem RB.height_le_log {t : BinTree α} {n : Nat} (h : RB t n) (hroot : t.NotRed) :
    height t ≤ 2 * Nat.log2 (t.size + 1) := by
  have hlog : n ≤ Nat.log2 (t.size + 1) := (Nat.le_log2 (Nat.succ_ne_zero _)).mpr h.pow_le
  have hle := h.height_le.2 hroot
  omega

end Lib.RedBlack
