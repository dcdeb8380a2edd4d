import Protozoa.Clump.Descent

/-!
# Top-down removal

Correctness of `cl_rbtree_remove2` (`rbtree.c:267-315`). The loop goes down to a node without a kid
in the direction of the search and sees to it that this node is red, so that it can be unlinked:
`Spot` is what holds each time the condition of the `while` is tested, with the path `ctx` to `q`
and the tree `t` below `q->link[dir]`. The node below which the search ends is the in-order
predecessor of the found node `f`, or `f` itself.

* `found_push`: `f` is the last node the search left to the left, if that one compares equal. All
  others it left to the left come later in order.
* `fixRemove_flip` / `fixRemove_rotate`: the two outcomes of `cl_rbnode_fix_remove`
  (`rbtree.c:242-265`).
* `Spot.step`: one round, by the three branches of the loop (`removeStep_pass`, `removeStep_rotate`,
  `removeStep_fix`).
* **`removeLoop_spec`**: the loop ends at a node without kids, red unless it is the root.
* **`removeFound_spec`**: what follows the loop takes the value of `f` out, and the slot of the node
  unlinked.
-/

namespace Protozoa.Clump

open Lib.LinkedTree Lib.RedBlack Lib.SortedBag

variable {α : Type} {compare : α → α → Ordering} {v : α} {L : List α} {A : List Nat}

/-- The node above the hole or the tree in the hole is red; above the root the sibling may stand in
for them. -/
def Safe : Ctx α → BinTree α → Prop
  | [], _ => True
  | [f], t => f.c = .red ∨ ¬ t.NotRed ∨ f.sib.NotRed
  | f :: _ :: _, t => f.c = .red ∨ ¬ t.NotRed

/-- The node `f` points at. -/
def foundAt (compare : α → α → Ordering) (v : α) (ctx : Ctx α) : Option Nat :=
  match nextUp ctx with
  | none => none
  | some x => if compare x.2 v = .eq then some x.1 else none

/-- The state when the condition of the `while` is tested. -/
structure Spot (compare : α → α → Ordering) (v : α) (L : List α) (A : List Nat) (s : RemoveState α)
    (ctx : Ctx α) (t : BinTree α) : Prop where
  fits : Fits L A s.mem ctx t
  q : s.q = top froot ctx
  dir : s.dir = holeSide ctx
  p : ctx ≠ [] → s.p = some (top froot (ctx.drop 1))
  passed : ∀ a, s.f = some a → ∃ f ∈ ctx, f.a = a ∧ compare f.v v = .eq
  onPath : Sorted compare L → OnPath compare v ctx
  found : Sorted compare L → s.f = foundAt compare v ctx
  safe : Safe ctx t
  root : ctx = [] → t ≠ .nil

theorem safe_of_red {f : Frame α} {ctx : Ctx α} {t : BinTree α} (h : f.c = .red ∨ ¬ t.NotRed) :
    Safe (f :: ctx) t := by
  cases ctx with
  | nil => exact h.imp_right Or.inl
  | cons g ctx => exact h

/-- `if (c == CL_EQUAL) f = q;` -/
theorem found_push [Std.TransCmp compare] {mem : Mem α} {ctx : Ctx α} {a : Nat} {c : Colour} {w : α}
    {k : Side → BinTree α} (h : Fits L A mem ctx (.node a c w k)) (hL : Sorted compare L) :
    (if compare w v = .eq then some a else foundAt compare v ctx) =
      foundAt compare v (Frame.ofNode a c w k (dirOf compare v w) :: ctx) := by
  cases hd : dirOf compare v w with
  | right =>
    have hw := dirOf_right.mp hd
    simp [foundAt, nextUp, Frame.ofNode, hw]
  | left =>
    have hw := dirOf_left.mp hd
    by_cases heq : compare w v = .eq
    · simp [foundAt, nextUp, Frame.ofNode, heq]
    · -- `w` is above `v`, and so is everything after it
      rw [if_neg heq]
      simp only [foundAt, nextUp, Frame.ofNode, if_true, heq, if_false]
      cases hu : nextUp ctx with
      | none => rfl
      | some x =>
        obtain ⟨rest, hr⟩ := nextUp_rights hu
        have hs := hL
        rw [Sorted, ← h.order, List.pairwise_append] at hs
        have hwx : compare w x.2 ≠ .gt := hs.2.2 w (by simp [BinTree.inorder]) x.2 (by simp [hr])
        refine if_neg fun hx => ?_
        have hle : (compare w v).isLE :=
          Std.TransCmp.isLE_trans (by cases hc : compare w x.2 <;> simp_all) (by simp [hx])
        cases hc : compare w v <;> simp_all

/-! ## `cl_rbnode_fix_remove` -/

/-- The sibling of a black node is a node. -/
theorem sibling {f : Frame α} {ctx : Ctx α} {a : Nat} {w : α} {k : Side → BinTree α} {b : Nat}
    (hb : RB (.node a .black w k) b) (hctx : CtxRB (f :: ctx) b) (hsib : f.sib.NotRed) :
    ∃ sa sv sk m, f.sib = .node sa .black sv sk ∧ b = m + 1 ∧ (∀ d, RB (k d) m) ∧
      ∀ d, RB (sk d) m := by
  obtain ⟨m, rfl, hk⟩ := hb
  have hs : RB f.sib (m + 1) := by
    obtain ⟨p, c, pv, e, sib⟩ := f
    cases c with
    | red => exact hctx.1
    | black => exact hctx.1
  cases hsb : f.sib with
  | nil => rw [hsb, rb_nil] at hs; omega
  | node sa c sv sk =>
    rw [hsb] at hs hsib
    obtain rfl : c = .black := hsib
    exact ⟨sa, sv, sk, m, rfl, rfl, hk, rb_black.mp hs⟩

/-- The path above the parent accepts a tree one higher, as a red one or none would be. -/
theorem ctxRB_above {f : Frame α} {ctx : Ctx α} {b : Nat} (hctx : CtxRB (f :: ctx) b)
    (hsafe : f.c = .red ∨ ctx = []) : CtxRB ctx b ∧ TopNotRed ctx := by
  rcases hsafe with hf | rfl
  · obtain ⟨p, c, pv, e, sib⟩ := f
    obtain rfl : c = .red := hf
    exact ⟨hctx.2.2.2, hctx.2.2.1⟩
  · exact ⟨trivial, trivial⟩

/-- The colour flip of a removal: the parent gives its red to its two kids. -/
theorem fixRemove_flip {mem : Mem α} {f : Frame α} {ctx : Ctx α} {a : Nat} {w : α}
    {k : Side → BinTree α} {g : Option Nat} {sa : Nat} {sv : α} {sk : Side → BinTree α}
    (h : Fits L A mem (f :: ctx) (.node a .black w k)) (hk : ∀ d, (k d).NotRed)
    (hs : f.sib = .node sa .black sv sk) (hsk : ∀ d, (sk d).NotRed)
    (hsafe : f.c = .red ∨ ctx = []) :
    ∃ mem', clRbnodeFixRemove mem a f.a g f.side = some mem' ∧
      Fits L A mem' (⟨f.a, .black, f.v, f.side, .node sa .red sv sk⟩ :: ctx)
        (.node a .red w k) := by
  obtain ⟨p, c, pv, e, sib⟩ := f
  obtain rfl : sib = .node sa .black sv sk := hs
  obtain ⟨hcell, hsib, -⟩ := h.layout.path
  have hnd := h.layout.nodup
  simp only [ctxAddrs, List.nodup_append, List.nodup_cons, List.mem_append, List.mem_cons] at hnd
  have hma : a ∈ (BinTree.node a .black w k).addrs := List.mem_cons_self
  have hms : sa ∈ (BinTree.node sa .black sv sk).addrs := List.mem_cons_self
  have hpt : p ∉ (BinTree.node a .black w k).addrs := by grind
  have hps : p ∉ (BinTree.node sa .black sv sk).addrs := by grind
  have hst : sa ∉ (BinTree.node a .black w k).addrs := by grind
  have has : a ∉ (BinTree.node sa .black sv sk).addrs := by grind
  have hne : p ≠ sa ∧ p ≠ a := ⟨fun e => hps (e ▸ hms), fun e => hpt (e ▸ hma)⟩
  have hlay : Layout (setColor (setColor (setColor mem p .black) sa .red) a .red) ctx
      ((⟨p, .black, pv, e, .node sa .red sv sk⟩ : Frame α).fill (.node a .red w k)) := by
    refine h.layout.pop.rewrite (stored_kids.mpr ⟨?_, ?_, ?_⟩) rfl ?_ fun x hx => ?_
    · rw [setColor_ne _ _ hne.2, setColor_ne _ _ hne.1, setColor_self, hcell]
      simp only [Cell.mk.injEq, true_and, and_true]
      funext d
      by_cases hd : d = e <;> simp [kids, hd]
    · exact setColor_stored (setColor_apart (setColor_apart h.layout.tree hpt _) hst _) hnd.1
    · have hsib' : Stored (setColor (setColor mem p .black) sa .red) (.node sa .red sv sk) :=
        setColor_stored (setColor_apart hsib hps _) hnd.2.1.2.1
      exact setColor_apart hsib' has _
    · refine List.perm_iff_count.mpr fun z => ?_
      simp only [Frame.fill, count_addrs_kids]
      rfl
    · simp only [Frame.fill, mem_addrs_kids, not_or] at hx
      have hxa : x ≠ a := fun e => hx.2.1 (e ▸ hma)
      have hxs : x ≠ sa := fun e => hx.2.2 (e ▸ hms)
      rw [setColor_ne _ _ hxa, setColor_ne _ _ hxs, setColor_ne _ _ hx.1]
  refine ⟨_, ?_, ⟨hlay.push, ?_, ?_, ?_⟩, Or.inl rfl⟩
  · have hnr := fun d => (isNotRed_root (hsib.2 d)).mpr (hsk d)
    simp [clRbnodeFixRemove, hcell, hsib.1, hnr]
  · rw [← h.order]
    cases e <;> simp [lefts, rights, BinTree.inorder]
  · exact h.cells
  · obtain ⟨b, hb, hctx⟩ := h.rb
    obtain ⟨sa', sv', sk', m, hse, rfl, hkm, hskm⟩ := sibling hb hctx rfl
    obtain ⟨rfl, -, rfl, rfl⟩ := BinTree.node.inj hse
    exact ⟨m, fun d => ⟨hkm d, hk d⟩, fun d => ⟨hskm d, hsk d⟩, (ctxRB_above hctx hsafe).1⟩

theorem blacken_kids (d : Side) (x y : BinTree α) :
    (fun e => blacken (kids d x y e)) = kids d (blacken x) (blacken y) := by
  funext e
  unfold kids
  split <;> rfl

/-- The three colours written at the end of `cl_rbnode_fix_remove`, and `q` turned red. -/
theorem recolour {mem : Mem α} {ctx : Ctx α} {m p a : Nat} {mv pv w : α} {e : Side}
    {x y : BinTree α} {k : Side → BinTree α} (h : Layout mem ctx (.node m .black mv
      (kids e (.node p .red pv (kids e (.node a .black w k) x)) y))) (hy : y ≠ .nil) :
    ∃ l r mem', (setColor (setColor mem a .red) m .red m).link .left = some l ∧
      (setColor (setColor (setColor mem a .red) m .red) l .black m).link .right = some r ∧
      mem' = setColor (setColor (setColor (setColor mem a .red) m .red) l .black) r .black ∧
      Layout mem' ctx (.node m .red mv
        (kids e (.node p .black pv (kids e (.node a .red w k) x)) (blacken y))) := by
  have hred : Layout (setColor mem a .red) ctx (.node m .black mv
      (kids e (.node p .red pv (kids e (.node a .red w k) x)) y)) := by
    have hdown := h.push.push
    have hst : Stored (setColor mem a .red) (.node a .red w k) :=
      setColor_stored hdown.tree (List.nodup_append.mp hdown.nodup).1
    exact (hdown.rewrite hst rfl (List.Perm.refl _) (same_write _ List.mem_cons_self _)).pop.pop
  have hroot : ∀ d, ∃ b, (kids e (.node p .red pv (kids e (.node a .red w k) x)) y d).root
      = some b := fun d => by
    rcases Side.eq_or_other e d with rfl | rfl
    · exact ⟨p, by rw [kids_self, BinTree.root_node]⟩
    · rw [kids_other]
      exact Option.ne_none_iff_exists'.mp fun hn => hy (BinTree.root_eq_none.mp hn)
  obtain ⟨l, hl⟩ := hroot .left
  obtain ⟨r, hr⟩ := hroot .right
  have hnd := (List.nodup_append.mp hred.nodup).1
  have hlm : m ≠ l := fun he => by
    have hm := hnd
    rw [← kids_eq .left (kids e _ y), nodup_addrs_kids] at hm
    exact hm.1.1 (he ▸ BinTree.root_mem hl)
  obtain ⟨hst, hsame⟩ := colourFlip_stored hred.tree hnd hl hr
  refine ⟨l, r, _, ?_, ?_, rfl, ?_⟩
  · rw [setColor_self, hred.tree.1]
    exact hl
  · rw [setColor_ne _ _ hlm, setColor_self, hred.tree.1]
    exact hr
  · rw [blacken_kids] at hst
    refine hred.rewrite hst rfl (List.perm_iff_count.mpr fun z => ?_) hsame
    simp only [count_addrs_kids, addrs_blacken]

/-- The rotation of `cl_rbnode_fix_remove`: a red kid of the sibling ends up beside the parent. -/
theorem rotateParent {mem : Mem α} {f : Frame α} {ctx : Ctx α} {t : BinTree α} {sa : Nat} {sv : α}
    {sk : Side → BinTree α} {b : Nat} (h : Layout mem (f :: ctx) t) (hs : f.sib = .node sa .black sv sk)
    (hsk : ∃ d, ¬ (sk d).NotRed) (hb : ∀ d, RB (sk d) b) :
    ∃ mem' m mv x y,
      fixRemoveRotate mem f.a sa (top froot ctx) (holeSide ctx) f.side = some mem' ∧
      Layout mem' ctx (.node m .black mv
        (kids f.side (.node f.a .red f.v (kids f.side t x)) y)) ∧
      f.sib.inorder = (BinTree.node m .black mv (kids f.side x y)).inorder ∧
      f.sib.addrs.Perm (BinTree.node m .black mv (kids f.side x y)).addrs ∧
      RB x b ∧ RB (blacken y) (b + 1) ∧ y ≠ .nil := by
  obtain ⟨p, c, pv, e, sib⟩ := f
  obtain rfl : sib = .node sa .black sv sk := hs
  have hlay := h.pop
  obtain ⟨hcell, hkids⟩ := h.path.2.1
  have hred := fun d => isRed_root (hkids d)
  simp only [Frame.fill] at hlay
  by_cases hin : (sk e).NotRed
  · have hout : ¬ (sk e.other).NotRed := fun ho => by
      obtain ⟨d, hd⟩ := hsk
      rcases Side.eq_or_other e d with rfl | rfl
      exacts [hd hin, hd ho]
    rw [← kids_eq e sk] at hlay
    obtain ⟨mem', he, hlay', -⟩ := hlay.rotateSingle
    refine ⟨_, sa, sv, sk e, sk e.other, ?_, hlay', ?_, ?_, hb e, rb_blacken_red (hb _) hout, ?_⟩
    · rw [fixRemoveRotate, hcell, if_neg fun hr => (hred e).mp hr hin,
        if_pos ((hred _).mpr hout), he]
      rfl
    · rw [kids_eq]
    · rw [kids_eq]
    · exact fun hn => hout (by rw [hn]; trivial)
  · obtain ⟨r, rv, rk, hr⟩ : ∃ r rv rk, sk e = .node r .red rv rk := by
      cases hse : sk e with
      | nil => exact absurd (by rw [hse]; trivial) hin
      | node r rc rv rk =>
        cases rc with
        | red => exact ⟨r, rv, rk, rfl⟩
        | black => exact absurd (by rw [hse]; rfl) hin
    have hbr := hb e
    rw [hr, rb_red] at hbr
    have hke : kids e (.node r .red rv (kids e (rk e) (rk e.other))) (sk e.other) = sk := by
      rw [kids_eq, ← hr, kids_eq]
    rw [← hke] at hlay
    obtain ⟨mem', he, hlay', -⟩ := hlay.rotateDouble
    refine ⟨_, r, rv, rk e, .node sa .red sv (kids e (rk e.other) (sk e.other)), ?_, hlay', ?_, ?_,
      (hbr e).1, ?_, fun hn => by cases hn⟩
    · rw [fixRemoveRotate, hcell, if_pos ((hred e).mpr hin), he]
      rfl
    · conv_lhs => rw [← hke]
      cases e <;> simp [BinTree.inorder, kids]
    · conv_lhs => rw [← hke]
      refine List.perm_iff_count.mpr fun z => ?_
      simp only [count_addrs_kids]
      omega
    · simp only [blacken, rb_black, Side.forall_iff e, kids_self, kids_other]
      exact ⟨(hbr _).1, hb _⟩

/-- The rotation of a removal: the parent turns black above `q`, below a new red grandparent. -/
theorem fixRemove_rotate {mem : Mem α} {f : Frame α} {ctx : Ctx α} {a : Nat}
    {w : α} {k : Side → BinTree α} {sa : Nat} {sv : α} {sk : Side → BinTree α}
    (h : Fits L A mem (f :: ctx) (.node a .black w k)) (hk : ∀ d, (k d).NotRed)
    (hs : f.sib = .node sa .black sv sk) (hsk : ∃ d, ¬ (sk d).NotRed)
    (hsafe : f.c = .red ∨ ctx = []) :
    ∃ mem' m mv x y, mv ∈ f.sib.inorder ∧
      clRbnodeFixRemove mem a f.a (some (top froot ctx)) f.side = some mem' ∧
      Fits L A mem' (⟨f.a, .black, f.v, f.side, x⟩ :: ⟨m, .red, mv, f.side, y⟩ :: ctx)
        (.node a .red w k) := by
  obtain ⟨b, hb, hctx⟩ := h.rb
  obtain ⟨sa', sv', sk', n, hse, rfl, hkn, hskn⟩ := sibling hb hctx (by rw [hs]; rfl)
  obtain ⟨rfl, -, rfl, rfl⟩ := BinTree.node.inj (hs.symm.trans hse)
  obtain ⟨mem₁, m, mv, x, y, hrot, hlay₁, hord, hperm, hx, hy, hyn⟩ :=
    rotateParent h.layout hs hsk hskn
  obtain ⟨l, r, mem₂, hl, hr, hmem₂, hlay₂⟩ := recolour hlay₁ hyn
  have hd : clDirection ((mem (top froot ctx)).link .right == some f.a) = holeSide ctx :=
    holeSide_eq h.layout.pop rfl
  have hm : (mem₁ (top froot ctx)).link (holeSide ctx) = some m := ctxStored_top hlay₁.path
  have hma : (setColor mem₁ a .red (top froot ctx)).link (holeSide ctx) = some m := by
    rw [setColor_ne, hm]
    have := hlay₁.push.push.disjoint List.mem_cons_self
    simp only [ctxAddrs, List.mem_cons, List.mem_append, not_or] at this
    exact fun e => this.2.2.2.2 (e ▸ top_mem froot ctx)
  refine ⟨mem₂, m, mv, x, blacken y, ?_, ?_, ⟨hlay₂.push.push, ?_, ?_, ?_⟩, Or.inl rfl⟩
  · rw [hord]
    simp [BinTree.inorder]
  · have hcell := h.layout.path.1
    have hscell := h.layout.path.2.1
    rw [hs] at hscell hcell
    obtain ⟨d, hd'⟩ := hsk
    have hnr : (clRbnodeIsNotRed mem (sk .left).root && clRbnodeIsNotRed mem (sk .right).root)
        = false := by
      have := (isNotRed_root (hscell.2 d)).not.mpr hd'
      cases d <;> simp [this]
    simp [clRbnodeFixRemove, hcell, hscell.1, hd, hnr, hrot, hma, hl, hr, hmem₂, -setColor_self]
  · rw [← h.order]
    cases hs : f.side <;> simp [lefts, rights, BinTree.inorder, kids, hs, hord]
  · refine .trans (List.perm_iff_count.mpr fun z => ?_) h.cells
    have hz := hperm.count_eq z
    rw [count_addrs_kids, List.count_singleton] at hz
    have ha : (BinTree.node a .red w k).addrs = (BinTree.node a .black w k).addrs := rfl
    simp only [ctxAddrs, List.count_append, List.count_cons, addrs_blacken, hz, ha]
    omega
  · have habove := ctxRB_above hctx hsafe
    exact ⟨n, fun d => ⟨hkn d, hk d⟩, hx, hy, notRed_blacken y, habove.2, habove.1⟩

/-- The new grandparent comes from the sibling, whose values the comparison with the parent rules.
-/
theorem onPath_rotate [Std.TransCmp compare] {mem : Mem α} {f : Frame α} {ctx : Ctx α} {t : BinTree α}
    {m : Nat} {mv : α} {x y : BinTree α} (h : Fits L A mem (f :: ctx) t) (hL : Sorted compare L)
    (hpath : OnPath compare v (f :: ctx)) (hmv : mv ∈ f.sib.inorder) :
    OnPath compare v (⟨f.a, .black, f.v, f.side, x⟩ :: ⟨m, .red, mv, f.side, y⟩ :: ctx) := by
  obtain ⟨hf, hctx⟩ := List.forall_mem_cons.mp hpath
  refine List.forall_mem_cons.mpr ⟨hf, List.forall_mem_cons.mpr ⟨?_, hctx⟩⟩
  have hs := h.search hpath hL
  cases hside : f.side with
  | left => exact dirOf_left.mpr (hs.rights mv (by simp [rights, hside, hmv]))
  | right => exact dirOf_right.mpr (hs.lefts mv (by simp [lefts, hside, hmv]))

/-! ## The loop -/

/-- A round has moved to `q`, whose kid in the direction of the search is as before. -/
theorem Spot.go [Std.TransCmp compare] {s : RemoveState α} {mem : Mem α} {ctx ctx' : Ctx α}
    {a : Nat} {c c' : Colour} {w : α} {k k' : Side → BinTree α} {g : Option Nat}
    (h : Spot compare v L A s ctx (.node a c' w k'))
    (hfits : Fits L A mem ctx' (.node a c w k))
    (hkept : ∀ f ∈ ctx, ∃ f' ∈ ctx', f'.a = f.a ∧ f'.v = f.v)
    (hpath : Sorted compare L → OnPath compare v ctx')
    (hup : nextUp (Frame.ofNode a c w k (dirOf compare v w) :: ctx') =
      nextUp (Frame.ofNode a c' w k' (dirOf compare v w) :: ctx))
    (hsafe : Safe (Frame.ofNode a c w k (dirOf compare v w) :: ctx') (k (dirOf compare v w))) :
    Spot compare v L A
      ⟨mem, a, some (top froot ctx'), g, if compare w v = .eq then some a else s.f,
        dirOf compare v w⟩
      (Frame.ofNode a c w k (dirOf compare v w) :: ctx') (k (dirOf compare v w)) := by
  refine ⟨hfits.push _, rfl, rfl, fun _ => rfl, fun b hb => ?_, fun hL => (hpath hL).push a c w k,
    fun hL => ?_, hsafe, fun e => absurd e (List.cons_ne_nil _ _)⟩
  · by_cases heq : compare w v = .eq
    · rw [if_pos heq] at hb
      exact ⟨_, List.mem_cons_self, Option.some.inj hb, heq⟩
    · rw [if_neg heq] at hb
      obtain ⟨f, hf, hfa, hfv⟩ := h.passed b hb
      obtain ⟨f', hf', ha, hv⟩ := hkept f hf
      exact ⟨f', List.mem_cons_of_mem _ hf', ha.trans hfa, by rw [hv]; exact hfv⟩
  · rw [h.found hL, found_push h.fits hL, foundAt, foundAt, hup]

/-- The round looks no further when `q` or the kid it goes to is red. -/
theorem removeStep_pass {s : RemoveState α} {a : Nat} {c : Colour} {w : α} {k : Side → BinTree α}
    (h : Stored s.mem (.node a c w k)) (hc : c = .red ∨ ¬ (k (dirOf compare v w)).NotRed) :
    removeStep compare v s a = some ⟨s.mem, a, some s.q, s.p,
      if compare w v = .eq then some a else s.f, dirOf compare v w⟩ := by
  have hfalse : (clRbnodeIsNotRed s.mem (some a) &&
      clRbnodeIsNotRed s.mem (k (dirOf compare v w)).root) = false := by
    rcases hc with rfl | hk
    · simp [clRbnodeIsNotRed, h.1]
    · simp [(isNotRed_root (h.2 _)).not.mpr hk]
  simp only [dirOf] at hfalse ⊢
  simp only [removeStep, h.1, Option.bind_eq_bind, Option.bind_some, hfalse]
  simp

theorem removeStep_rotate {s : RemoveState α} {mem : Mem α} {a m : Nat} {w : α} {k : Side → BinTree α}
    (h : Stored s.mem (.node a .black w k)) (hk : (k (dirOf compare v w)).NotRed)
    (ho : ¬ (k (dirOf compare v w).other).NotRed)
    (hrot : clRbnodeRotateSingle s.mem a (dirOf compare v w) = some (mem, m)) :
    removeStep compare v s a = some ⟨setLink mem s.q s.dir (some m), a, some m, s.p,
      if compare w v = .eq then some a else s.f, dirOf compare v w⟩ := by
  have hq : clRbnodeIsNotRed s.mem (some a) = true := by simp [clRbnodeIsNotRed, h.1]
  have hkid := (isNotRed_root (h.2 _)).mpr hk
  have hother := (isRed_root (h.2 _)).mpr ho
  simp only [dirOf] at hkid hother hrot ⊢
  simp [removeStep, h.1, hq, hkid, hother, hrot]

theorem removeStep_fix {s : RemoveState α} {mem : Mem α} {a : Nat} {w : α} {k : Side → BinTree α}
    (h : Stored s.mem (.node a .black w k)) (hk : ∀ d, (k d).NotRed)
    (hfix : clRbnodeFixRemove s.mem a s.q s.p s.dir = some mem) :
    removeStep compare v s a = some ⟨mem, a, some s.q, s.p,
      if compare w v = .eq then some a else s.f, dirOf compare v w⟩ := by
  have hq : clRbnodeIsNotRed s.mem (some a) = true := by simp [clRbnodeIsNotRed, h.1]
  have hkid := fun d => (isNotRed_root (h.2 d)).mpr (hk d)
  have hother := fun d => (isRed_root (h.2 d)).not.mpr (not_not.mpr (hk d))
  simp [removeStep, h.1, hq, hkid, hother, hfix, dirOf]

/-- The sibling of a black focus is not red, and only the root can be a black parent of it. -/
theorem Safe.parent {f : Frame α} {ctx : Ctx α} {t : BinTree α} {b : Nat} (h : Safe (f :: ctx) t)
    (ht : t.NotRed) (hctx : CtxRB (f :: ctx) b) : (f.c = .red ∨ ctx = []) ∧ f.sib.NotRed := by
  obtain ⟨p, c, pv, e, sib⟩ := f
  cases c with
  | red => exact ⟨Or.inl rfl, hctx.2.1⟩
  | black =>
    cases ctx with
    | nil =>
      simp only [Safe, ht, not_true_eq_false, false_or, reduceCtorEq] at h
      exact ⟨Or.inr rfl, h⟩
    | cons g ctx => simp [Safe, ht] at h

/-- The rotation at `q`: its red kid comes up, and `q` turns red. -/
theorem rotate_fits {mem : Mem α} {ctx : Ctx α} {a : Nat} {w : α} {k : Side → BinTree α} {d : Side}
    (h : Fits L A mem ctx (.node a .black w k)) (hk : (k d).NotRed) (ho : ¬ (k d.other).NotRed) :
    ∃ mem' m mv x y, mv ∈ (k d.other).inorder ∧ clRbnodeRotateSingle mem a d = some (mem', m) ∧
      Fits L A (setLink mem' (top froot ctx) (holeSide ctx) (some m))
        (⟨m, .black, mv, d, y⟩ :: ctx) (.node a .red w (kids d (k d) x)) := by
  obtain ⟨m, mv, mk, hm⟩ : ∃ m mv mk, k d.other = .node m .red mv mk := by
    cases hko : k d.other with
    | nil => exact absurd (by rw [hko]; trivial) ho
    | node m c mv mk =>
      cases c with
      | red => exact ⟨m, mv, mk, rfl⟩
      | black => exact absurd (by rw [hko]; rfl) ho
  have hkk : kids d (k d) (.node m .red mv (kids d (mk d) (mk d.other))) = k := by
    rw [kids_eq d mk, ← hm, kids_eq]
  have hlay := h.layout
  rw [← hkk] at hlay
  obtain ⟨mem', he, hlay', -⟩ := hlay.rotateSingle
  refine ⟨mem', m, mv, mk d, mk d.other, ?_, he, ⟨hlay'.push, ?_, ?_, ?_⟩, Or.inl rfl⟩
  · rw [hm]
    simp [BinTree.inorder]
  · rw [← h.order]
    conv_rhs => rw [← hkk]
    cases d <;> simp [lefts, rights, BinTree.inorder, kids]
  · refine .trans (List.perm_iff_count.mpr fun z => ?_) h.cells
    conv_rhs => rw [← hkk]
    simp only [ctxAddrs, List.count_append, List.count_cons, List.count_nil, count_addrs_kids]
    omega
  · obtain ⟨b, hb, hctx⟩ := h.rb
    obtain ⟨n, rfl, hkn⟩ := hb
    have hmn := hkn d.other
    rw [hm, rb_red] at hmn
    refine ⟨n, ?_, (hmn _).1, hctx⟩
    simp only [rb_red, Side.forall_iff d, kids_self, kids_other]
    exact ⟨⟨hkn d, hk⟩, hmn d⟩

/-- The kid that comes up is ruled by the comparison with `q`. -/
theorem onPath_rise [Std.TransCmp compare] {mem : Mem α} {ctx : Ctx α} {a m : Nat} {c : Colour}
    {w mv : α} {k : Side → BinTree α} {y : BinTree α} (h : Fits L A mem ctx (.node a c w k))
    (hL : Sorted compare L) (hpath : OnPath compare v ctx)
    (hmv : mv ∈ (k (dirOf compare v w).other).inorder) :
    OnPath compare v (⟨m, .black, mv, dirOf compare v w, y⟩ :: ctx) := by
  refine List.forall_mem_cons.mpr ⟨?_, hpath⟩
  have hs := (h.push _).search (hpath.push a c w k) hL
  cases hside : dirOf compare v w with
  | left =>
    rw [hside] at hs hmv
    rw [Side.other_left] at hmv
    exact dirOf_left.mpr (hs.rights mv (by simp [rights, Frame.ofNode, hmv]))
  | right =>
    rw [hside] at hs hmv
    rw [Side.other_right] at hmv
    exact dirOf_right.mpr (hs.lefts mv (by simp [lefts, Frame.ofNode, hmv]))

/-- **One round of the loop.** -/
theorem Spot.step [Std.TransCmp compare] {s : RemoveState α} {ctx : Ctx α} {a : Nat} {c : Colour}
    {w : α} {k : Side → BinTree α} (h : Spot compare v L A s ctx (.node a c w k)) :
    ∃ s' ctx' t', removeStep compare v s a = some s' ∧ Spot compare v L A s' ctx' t' ∧
      t'.size < (BinTree.node a c w k).size := by
  have hst := h.fits.layout.tree
  have hsize := BinTree.size_kid a c w k (dirOf compare v w)
  have hsame : ∀ f ∈ ctx, ∃ f' ∈ ctx, f'.a = f.a ∧ f'.v = f.v := fun f hf => ⟨f, hf, rfl, rfl⟩
  by_cases hred : c = .red ∨ ¬ (k (dirOf compare v w)).NotRed
  · have hstep := removeStep_pass hst hred
    rw [h.q] at hstep
    exact ⟨_, _, _, hstep, h.go h.fits hsame h.onPath rfl (safe_of_red hred), hsize⟩
  · obtain ⟨hcr, hk⟩ := not_or.mp hred
    rw [not_not] at hk
    obtain rfl : c = .black := by cases c with
      | red => exact absurd rfl hcr
      | black => rfl
    by_cases hother : (k (dirOf compare v w).other).NotRed
    · have hboth : ∀ d, (k d).NotRed := (Side.forall_iff (dirOf compare v w)).mpr ⟨hk, hother⟩
      match ctx, h, hsame with
      | [], h, hsame =>
        -- The root has no sibling, and `cl_rbnode_fix_remove` nothing to do.
        have hfix : clRbnodeFixRemove s.mem a s.q s.p s.dir = some s.mem := by
          have hp := h.fits.layout.path
          simp only [CtxStored] at hp
          simp [clRbnodeFixRemove, h.q, h.dir, top, holeSide, hp]
        have hstep : removeStep compare v s a = some _ := removeStep_fix hst hboth hfix
        rw [h.q] at hstep
        exact ⟨_, _, _, hstep, h.go h.fits hsame h.onPath rfl (Or.inr (Or.inr hother)), hsize⟩
      | f :: ctx, h, hsame =>
        obtain ⟨b, hb, hctx⟩ := h.fits.rb
        obtain ⟨hsafe, hsib⟩ := h.safe.parent rfl hctx
        obtain ⟨sa, sv, sk, -, hs, -⟩ := sibling hb hctx hsib
        by_cases hsk : ∀ d, (sk d).NotRed
        · obtain ⟨mem', hfix, hfits⟩ := fixRemove_flip h.fits hboth hs hsk hsafe
          have hstep : removeStep compare v s a = some _ :=
            removeStep_fix hst hboth (by rw [h.q, h.dir]; exact hfix)
          rw [h.q] at hstep
          have hkept : ∀ g ∈ f :: ctx, ∃ g' ∈ (⟨f.a, .black, f.v, f.side, .node sa .red sv sk⟩ ::
              ctx : Ctx α), g'.a = g.a ∧ g'.v = g.v :=
            List.forall_mem_cons.mpr ⟨⟨_, List.mem_cons_self, rfl, rfl⟩,
              fun g hg => ⟨g, List.mem_cons_of_mem _ hg, rfl, rfl⟩⟩
          have hpath : Sorted compare L → OnPath compare v
              (⟨f.a, .black, f.v, f.side, .node sa .red sv sk⟩ :: ctx) := fun hL =>
            List.forall_mem_cons.mpr (List.forall_mem_cons.mp (h.onPath hL))
          have hspot := h.go (g := s.p) hfits hkept hpath rfl (safe_of_red (Or.inl rfl))
          exact ⟨_, _, _, hstep, hspot, hsize⟩
        · have hsk' : ∃ d, ¬ (sk d).NotRed := not_forall.mp hsk
          obtain ⟨mem', m, mv, x, y, hmv, hfix, hfits⟩ := fixRemove_rotate h.fits hboth hs hsk' hsafe
          have hstep : removeStep compare v s a = some _ := removeStep_fix hst hboth
            (by rw [h.q, h.dir, h.p (List.cons_ne_nil _ _)]; exact hfix)
          rw [h.q] at hstep
          have hup : nextUp (⟨f.a, .black, f.v, f.side, x⟩ :: ⟨m, .red, mv, f.side, y⟩ :: ctx) =
              nextUp (f :: ctx) := nextUp_twin rfl
          have hkept : ∀ g ∈ f :: ctx, ∃ g' ∈ (⟨f.a, .black, f.v, f.side, x⟩ ::
              ⟨m, .red, mv, f.side, y⟩ :: ctx : Ctx α), g'.a = g.a ∧ g'.v = g.v :=
            List.forall_mem_cons.mpr ⟨⟨_, List.mem_cons_self, rfl, rfl⟩,
              fun g hg => ⟨g, List.mem_cons_of_mem _ (List.mem_cons_of_mem _ hg), rfl, rfl⟩⟩
          have hspot := h.go (g := s.p) hfits hkept
            (fun hL => onPath_rotate h.fits hL (h.onPath hL) hmv)
            (by rw [nextUp, hup]; rfl) (safe_of_red (Or.inl rfl))
          exact ⟨_, _, _, hstep, hspot, hsize⟩
    · obtain ⟨mem', m, mv, x, y, hmv, hrot, hfits⟩ := rotate_fits h.fits hk hother
      have hstep := removeStep_rotate hst hk hother hrot
      rw [h.q, h.dir] at hstep
      refine ⟨_, _, _, hstep, h.go hfits ?_ (fun hL => onPath_rise h.fits hL (h.onPath hL) hmv) ?_
        (safe_of_red (Or.inl rfl)), ?_⟩
      · exact fun f hf => ⟨f, List.mem_cons_of_mem _ hf, rfl, rfl⟩
      · exact nextUp_twin rfl
      · rw [kids_self]
        exact hsize

/-- **The loop ends** below the last node of the search, given fuel for the nodes below the hole. -/
theorem removeLoop_spec [Std.TransCmp compare] :
    ∀ {fuel : Nat} {s : RemoveState α} {ctx : Ctx α} {t : BinTree α}, Spot compare v L A s ctx t →
      t.size < fuel → ∃ s' ctx', removeLoop compare v fuel s = some s' ∧
        Spot compare v L A s' ctx' .nil
  | 0, _, _, _, _, hlt => absurd hlt (Nat.not_lt_zero _)
  | fuel + 1, s, ctx, t, h, hlt => by
    have hlink : (s.mem s.q).link s.dir = t.root := by
      rw [h.q, h.dir]
      exact ctxStored_top h.fits.layout.path
    cases t with
    | nil => exact ⟨s, ctx, by simp [removeLoop, hlink], h⟩
    | node a c w k =>
      obtain ⟨s', ctx', t', hstep, h', hsize⟩ := h.step
      obtain ⟨s'', ctx'', hrun, h''⟩ := removeLoop_spec h' (show t'.size < fuel by omega)
      exact ⟨s'', ctx'', by simp [removeLoop, hlink, hstep, hrun], h''⟩

/-! ## What follows the loop -/

/-- The node below which the search ended has no kid on the other side either. -/
theorem Spot.sib_nil {s : RemoveState α} {f : Frame α} {ctx : Ctx α}
    (h : Spot compare v L A s (f :: ctx) .nil) : f.sib = .nil ∧ (f.c = .red ∨ ctx = []) := by
  obtain ⟨b, hb, hctx⟩ := h.fits.rb
  obtain rfl : b = 0 := hb
  obtain ⟨hsafe, hsib⟩ := h.safe.parent (t := .nil) trivial hctx
  refine ⟨RB.nil_of_zero ?_ hsib, hsafe⟩
  obtain ⟨p, c, pv, e, sib⟩ := f
  cases c with
  | red => exact hctx.1
  | black => exact hctx.1

/-- No value compares equal when the search found none. -/
theorem Spot.not_found [Std.TransCmp compare] {s : RemoveState α} {ctx : Ctx α}
    (h : Spot compare v L A s ctx .nil) (hL : Sorted compare L) (hf : s.f = none) :
    ∀ x ∈ L, compare x v ≠ .eq := by
  intro x hx
  rw [h.found hL, foundAt] at hf
  have hsearch := h.fits.search (h.onPath hL) hL
  have hs := hL
  rw [Sorted, ← h.fits.order, List.pairwise_append] at hs
  rw [← h.fits.order] at hx
  simp only [BinTree.inorder, List.append_nil, List.mem_append] at hx
  rcases hx with hx | hx
  · rw [hsearch.lefts x hx]
    decide
  · cases hu : nextUp ctx with
    | none => rw [nextUp_eq_none hu] at hx; cases hx
    | some u =>
      obtain ⟨rest, hr⟩ := nextUp_rights hu
      rw [hu] at hf
      have hne : compare u.2 v ≠ .eq := fun he => by simp [he] at hf
      rw [hr] at hx hs
      have hux : (compare u.2 x).isLE := by
        rcases List.mem_cons.mp hx with rfl | hx
        · simp [Std.ReflCmp.compare_self]
        · have := (List.pairwise_cons.mp hs.2.1).1 x hx
          cases hc : compare u.2 x <;> simp_all
      intro he
      have hle : (compare u.2 v).isLE := Std.TransCmp.isLE_trans hux (by simp [he])
      have hlt := hsearch.rights u.2 (by simp [hr])
      cases hc : compare u.2 v <;> simp_all

/-- What a removal leaves when it found a node: the values but an equal one, the first if they are
sorted, on the cells but the one given back. -/
structure Unlinked (compare : α → α → Ordering) (v : α) (L : List α) (A : List Nat) (x : α) (q : Nat)
    (mem : Mem α) (t : BinTree α) : Prop where
  layout : Layout mem [] t
  equal : compare x v = .eq
  order : Sorted compare L →
    ∃ l r, L = l ++ x :: r ∧ t.inorder = l ++ r ∧ ∀ y ∈ l, compare y v = .lt
  cells : (q :: (t.addrs ++ [froot])).Perm A
  rb : ∃ h, RB t h

theorem ctxRB_setAt (a : Nat) (x : α) : ∀ {ctx : Ctx α} {b : Nat}, CtxRB ctx b →
    CtxRB (setAt a x ctx) b
  | [], _, h => h
  | ⟨p, c, pv, e, sib⟩ :: ctx, b, h => by
    have htop : TopNotRed ctx → TopNotRed (setAt a x ctx) := fun ht => by
      cases ctx with
      | nil => trivial
      | cons g ctx =>
        simp only [setAt, List.map_cons]
        split <;> exact ht
    have hrest : ∀ {n : Nat}, CtxRB ctx n → CtxRB (setAt a x ctx) n := ctxRB_setAt a x
    unfold setAt at htop hrest
    simp only [setAt, List.map_cons]
    cases c with
    | black => split <;> exact ⟨h.1, hrest h.2⟩
    | red => split <;> exact ⟨h.1, h.2.1, htop h.2.2.1, hrest h.2.2.2⟩

/-- The node found takes the last node's value. -/
theorem setAt_layout {mem : Mem α} {ctx : Ctx α} {a : Nat} {x : α} (h : Layout mem ctx .nil)
    (ha : ∃ f ∈ ctx, f.a = a) : Layout (setValue mem a (some x)) (setAt a x ctx) .nil := by
  have hnd := (List.nodup_append.mp h.nodup).2.1
  refine ⟨ctxStored_setAt h.path hnd ha (setValue_self _ _ _) fun y _ hy => setValue_ne _ _ hy,
    trivial, ?_⟩
  rw [ctxAddrs_setAt]
  exact h.nodup

/-- Unlinking a node without kids. -/
theorem unlink_layout {mem : Mem α} {f : Frame α} {ctx : Ctx α} (h : Layout mem (f :: ctx) .nil) :
    Layout (setLink mem (top froot ctx) (holeSide ctx) none) ctx .nil := by
  have hpop := h.pop
  have hnd := (List.nodup_append.mp hpop.nodup).2.1
  refine ⟨ctxStored_link hpop.path hnd (setLink_self _ _ _ _) fun x _ hx => setLink_ne _ _ _ hx,
    trivial, ?_⟩
  simpa [BinTree.addrs] using hnd

/-- In a sorted tree the node found comes after the hole, and all before the hole is below it. -/
theorem Spot.order [Std.TransCmp compare] {s : RemoveState α} {f : Frame α} {ctx : Ctx α} {a : Nat}
    {g : Frame α} (h : Spot compare v L A s (f :: ctx) .nil) (hL : Sorted compare L)
    (hsib : f.sib = .nil) (hf : s.f = some a) (hg : g ∈ f :: ctx) (hga : g.a = a) :
    ∃ l r, L = l ++ g.v :: r ∧ lefts (setAt a f.v ctx) ++ rights (setAt a f.v ctx) = l ++ r ∧
      ∀ y ∈ l, compare y v = .lt := by
  have hnd := (List.nodup_append.mp h.fits.layout.nodup).2.1
  obtain ⟨u, hu⟩ : ∃ u, nextUp (f :: ctx) = some (a, u) := by
    have hfound := h.found hL
    rw [hf, foundAt] at hfound
    cases hn : nextUp (f :: ctx) with
    | none =>
      rw [hn] at hfound
      cases hfound
    | some x =>
      rw [hn] at hfound
      dsimp only at hfound
      split at hfound
      · exact ⟨x.2, by rw [Option.some.inj hfound]⟩
      · cases hfound
  -- The frame at `a` is the one of `nextUp`.
  obtain rfl : g.v = u := by
    have hgv := frame_value h.fits.layout.path hg
    obtain ⟨g', hg', hga', hgv'⟩ := nextUp_frame hu
    have hgv'' := frame_value h.fits.layout.path hg'
    rw [hga', hgv', ← hga, hgv] at hgv''
    exact Option.some.inj hgv''
  obtain ⟨rest, hrest⟩ := nextUp_rights hu
  obtain ⟨ctx', hset, hord⟩ := setUp_last hsib hu
  rw [setUp_eq_setAt hnd hu, setAt_last] at hset
  obtain rfl := (List.cons.inj hset).2
  refine ⟨lefts (f :: ctx), rest, ?_, ?_, (h.fits.search (h.onPath hL) hL).lefts⟩
  · rw [← h.fits.order, hrest]
    simp [BinTree.inorder]
  · rw [hord, hrest, List.tail_cons]

/-- **Removing the node found.** -/
theorem removeFound_spec [Std.TransCmp compare] (tree : ClRbtree α) {s : RemoveState α} {ctx : Ctx α}
    {a : Nat} (h : Spot compare v L A s ctx .nil) (hf : s.f = some a) :
    ∃ mem t x, removeFound tree s a = some (some x, { tree with
        pool := clPoolRelease tree.pool s.q
        nItems := tree.nItems - 1
        mem := mem }) ∧
      Unlinked compare v L A x s.q mem t := by
  match ctx, h with
  | [], h => exact absurd rfl (h.root rfl)
  | f :: ctx, h =>
    obtain ⟨hsib, hsafe⟩ := h.sib_nil
    obtain ⟨g, hg, hga, heq⟩ := h.passed a hf
    have hq : s.q = f.a := h.q
    have hp : s.p = some (top froot ctx) := h.p (List.cons_ne_nil _ _)
    have hqv : (s.mem f.a).value = some f.v := by rw [h.fits.layout.path.1]
    have hgv : (s.mem a).value = some g.v := hga ▸ frame_value h.fits.layout.path hg
    have hlay₁ : Layout (setValue s.mem a (some f.v)) (f :: setAt a f.v ctx) .nil := by
      rw [← setAt_last]
      exact setAt_layout h.fits.layout ⟨g, hg, hga⟩
    have hd : clDirection ((setValue s.mem a (some f.v) (top froot ctx)).link .right == some f.a) =
        holeSide (setAt a f.v ctx) := by
      rw [← top_setAt froot a f.v]
      exact holeSide_eq hlay₁.pop rfl
    have hlink : ∀ d, (setValue s.mem a (some f.v) f.a).link d = none := fun d => by
      rw [hlay₁.path.1]
      simp [hsib]
    refine ⟨_, plug (setAt a f.v ctx) .nil, g.v, ?_, (unlink_layout hlay₁).whole, heq,
      fun hL => ?_, ?_, ?_⟩
    · rw [top_setAt]
      simp [removeFound, hp, hq, hqv, hd, hlink, hgv]
    · obtain ⟨l, r, hLr, hord, hl⟩ := h.order hL hsib hf hg hga
      refine ⟨l, r, hLr, ?_, hl⟩
      rw [inorder_plug, ← hord]
      simp [BinTree.inorder]
    · rw [hq]
      have hcells : (f.a :: ctxAddrs froot (setAt a f.v ctx)).Perm A := by
        have hc := h.fits.cells
        rw [← ctxAddrs_setAt froot a f.v, setAt_last, ctxAddrs, hsib] at hc
        exact hc
      exact (List.Perm.cons f.a (List.perm_append_comm.trans
        (plug_addrs froot (setAt a f.v ctx) .nil))).trans hcells
    · obtain ⟨b, hb, hctx⟩ := h.fits.rb
      have hctx' := ctxRB_setAt a f.v hctx
      rw [setAt_last] at hctx'
      have hnil : ctx = [] → setAt a f.v ctx = [] := fun e => by rw [e]; rfl
      exact rb_plug (ctxRB_above hctx' (hsafe.imp_right hnil)).1 hb (Or.inr trivial)

end Protozoa.Clump
