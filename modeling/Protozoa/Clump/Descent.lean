import Protozoa.Clump.Layout
import Protozoa.Lib.SortedBag

/-!
# The search down the tree

Both loops of `rbtree.c` (`rbtree.c:107-153`, `267-315`) go down by comparing the value of each node
with the one they look for. `OnPath` says that the path follows these comparisons, and
`OnPath.search` what it then separates in a sorted tree: what stands before the hole is less, what
stands behind it is not.

* `Loose`: laid out on the cells `A`, holding the values `L` in order, and red-black but for a red
  violation at the hole.
* `Fits`: the same without one, which a path and the tree in its hole keep between two rounds in any
  tree. `Fits.push` takes one step down.

Nothing here needs the tree to be sorted but the two lemmas on `Search`.
-/

namespace Protozoa.Clump

open Lib.LinkedTree Lib.RedBlack Lib.SortedBag

variable {α : Type} {compare : α → α → Ordering} {v : α} {L : List α} {A : List Nat}

/-- Every value before the hole is below `v`, none after it is. -/
structure Search (compare : α → α → Ordering) (v : α) (ctx : Ctx α) : Prop where
  lefts : ∀ x ∈ lefts ctx, compare x v = .lt
  rights : ∀ x ∈ rights ctx, compare x v ≠ .lt

/-- `dir = cl_direction(compare(q->value, value) == CL_LESS)`. -/
def dirOf (compare : α → α → Ordering) (v x : α) : Side := clDirection (compare x v == .lt)

theorem dirOf_right {compare : α → α → Ordering} {v x : α} :
    dirOf compare v x = .right ↔ compare x v = .lt := by
  unfold dirOf clDirection
  cases compare x v <;> decide

theorem dirOf_left {compare : α → α → Ordering} {v x : α} :
    dirOf compare v x = .left ↔ compare x v ≠ .lt := by
  unfold dirOf clDirection
  cases compare x v <;> decide

/-- Each frame of the path was left on the side its comparison says. -/
def OnPath (compare : α → α → Ordering) (v : α) (ctx : Ctx α) : Prop :=
  ∀ f ∈ ctx, dirOf compare v f.v = f.side

/-- **What the comparisons separate** when the whole is sorted. -/
theorem OnPath.search [Std.TransCmp compare] : ∀ {ctx : Ctx α} {l : List α},
    OnPath compare v ctx → Sorted compare (lefts ctx ++ l ++ rights ctx) → Search compare v ctx
  | [], _, _, _ => ⟨by simp [Lib.LinkedTree.lefts], by simp [Lib.LinkedTree.rights]⟩
  | ⟨a, c, w, side, sib⟩ :: ctx, l, h, hs => by
    have hw := h _ List.mem_cons_self
    have htail : OnPath compare v ctx := fun f hf => h f (List.mem_cons_of_mem _ hf)
    cases side with
    | left =>
      have hw := dirOf_left.mp hw
      have hs' : Sorted compare (lefts ctx ++ (l ++ w :: sib.inorder) ++ rights ctx) := by
        simpa [Lib.LinkedTree.lefts, Lib.LinkedTree.rights] using hs
      obtain ⟨hl, hr⟩ := htail.search hs'
      refine ⟨hl, fun x hx => ?_⟩
      simp only [Lib.LinkedTree.rights, List.mem_cons, List.mem_append] at hx
      rcases hx with rfl | hx | hx
      · exact hw
      · -- `w` is not below `v`, and `x` comes after `w`
        simp only [Sorted, List.pairwise_append, List.pairwise_cons] at hs'
        have hwx : compare w x ≠ .gt := hs'.1.2.1.2.1.1 x hx
        intro hlt
        exact hw (Std.TransCmp.lt_of_isLE_of_lt (by cases hc : compare w x <;> simp_all) hlt)
      · exact hr x hx
    | right =>
      have hw := dirOf_right.mp hw
      have hs' : Sorted compare (lefts ctx ++ (sib.inorder ++ w :: l) ++ rights ctx) := by
        simpa [Lib.LinkedTree.lefts, Lib.LinkedTree.rights] using hs
      obtain ⟨hl, hr⟩ := htail.search hs'
      refine ⟨fun x hx => ?_, hr⟩
      simp only [Lib.LinkedTree.lefts, List.mem_append, List.mem_singleton] at hx
      rcases hx with hx | hx | rfl
      · exact hl x hx
      · simp only [Sorted, List.pairwise_append, List.pairwise_cons] at hs'
        have hxw : compare x w ≠ .gt := hs'.1.2.1.2.2 x hx w List.mem_cons_self
        exact Std.TransCmp.lt_of_isLE_of_lt (by cases hc : compare x w <;> simp_all) hw
      · exact hw

theorem OnPath.push {ctx : Ctx α} (h : OnPath compare v ctx) (a : Nat) (c : Colour) (w : α)
    (k : Side → BinTree α) : OnPath compare v (Frame.ofNode a c w k (dirOf compare v w) :: ctx) :=
  List.forall_mem_cons.mpr ⟨rfl, h⟩

/-- A path and the tree in its hole hold the values `L` on the cells `A`; a red node may still have
a red parent at the hole. -/
structure Loose (L : List α) (A : List Nat) (mem : Mem α) (ctx : Ctx α) (t : BinTree α) : Prop where
  layout : Layout mem ctx t
  order : lefts ctx ++ t.inorder ++ rights ctx = L
  cells : (t.addrs ++ ctxAddrs froot ctx).Perm A
  rb : ∃ h, RB t h ∧ CtxRB ctx h

/-- The same without a red violation. -/
structure Fits (L : List α) (A : List Nat) (mem : Mem α) (ctx : Ctx α) (t : BinTree α) : Prop
    extends Loose L A mem ctx t where
  red : TopNotRed ctx ∨ t.NotRed

theorem Loose.search [Std.TransCmp compare] {mem : Mem α} {ctx : Ctx α} {t : BinTree α}
    (h : Loose L A mem ctx t) (hpath : OnPath compare v ctx) (hL : Sorted compare L) :
    Search compare v ctx :=
  hpath.search (l := t.inorder) (by rw [h.order]; exact hL)

/-- **One step down.** -/
theorem Fits.push {mem : Mem α} {ctx : Ctx α} {a : Nat} {c : Colour} {w : α}
    {k : Side → BinTree α} (h : Fits L A mem ctx (.node a c w k)) (d : Side) :
    Fits L A mem (Frame.ofNode a c w k d :: ctx) (k d) := by
  have hfill := Frame.fill_ofNode a c w k d
  obtain ⟨b, hb, hctx⟩ := h.rb
  obtain ⟨m, hctx', hk, hred⟩ := ctxRB_push hctx hb h.red d
  refine ⟨⟨Layout.push (by rw [kids_eq]; exact h.layout), ?_, ?_, m, hk, hctx'⟩, hred⟩
  · have hwhole := inorder_plug (Frame.ofNode a c w k d :: ctx) (k d)
    rw [plug, hfill, inorder_plug, h.order] at hwhole
    exact hwhole.symm
  · refine (cells_fill _ ctx _).trans ?_
    rw [hfill]
    exact h.cells

end Protozoa.Clump
