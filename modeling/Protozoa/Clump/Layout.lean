import Protozoa.Clump.Rotate

/-!
# A tree hung below the fake root

`Layout mem ctx t`: the path `ctx` from `froot` (`rbtree.c:108`, `268`) down to a hole, and `t` in
the hole, are laid out in `mem` on distinct cells. Both loops of `rbtree.c` keep such a path and
subtree.

* `Layout.push` and `Layout.pop` walk it, and `Layout.whole` is the tree without a hole.
* `Layout.rehang` is a rewrite of the subtree followed by the write of the link above it;
  `Layout.rotateSingle` and `Layout.rotateDouble` are the rotations in place.
* `holeSide_eq` is what `t->link[RIGHT] == g` computes: on which side of `t` the subtree hangs.
-/

namespace Protozoa.Clump

open Lib.LinkedTree Lib.RedBlack

variable {α : Type}

/-- The path `ctx` and the tree `t` in its hole are laid out in `mem`, on distinct cells. -/
structure Layout (mem : Mem α) (ctx : Ctx α) (t : BinTree α) : Prop where
  path : CtxStored mem froot ctx t.root
  tree : Stored mem t
  nodup : (t.addrs ++ ctxAddrs froot ctx).Nodup

theorem Layout.disjoint {mem : Mem α} {ctx : Ctx α} {t : BinTree α} (h : Layout mem ctx t) {x : Nat}
    (hx : x ∈ t.addrs) : x ∉ ctxAddrs froot ctx := fun hc =>
  (List.nodup_append.mp h.nodup).2.2 x hx x hc rfl

/-- Going down from a node to one of its kids. -/
theorem Layout.push {mem : Mem α} {ctx : Ctx α} {a : Nat} {c : Colour} {v : α} {d : Side}
    {x y : BinTree α} (h : Layout mem ctx (.node a c v (kids d x y))) :
    Layout mem (⟨a, c, v, d, y⟩ :: ctx) x := by
  obtain ⟨hcell, hx, hy⟩ := stored_kids.mp h.tree
  refine ⟨⟨?_, hy, h.path⟩, hx, ?_⟩
  · rw [hcell]
    congr 1
    funext e
    by_cases he : e = d <;> simp [kids, he]
  · have := h.nodup
    simp only [List.nodup_append, nodup_addrs_kids, mem_addrs_kids, ctxAddrs, List.nodup_cons,
      List.mem_append, List.mem_cons] at this ⊢
    grind

/-- Going back up. -/
theorem Layout.pop {mem : Mem α} {f : Frame α} {ctx : Ctx α} {t : BinTree α}
    (h : Layout mem (f :: ctx) t) : Layout mem ctx (f.fill t) := by
  refine ⟨h.path.2.2, stored_kids.mpr ⟨?_, h.tree, h.path.2.1⟩, ?_⟩
  · rw [h.path.1]
    congr 1
    funext e
    by_cases he : e = f.side <;> simp [kids, he]
  · have := h.nodup
    simp only [Frame.fill, List.nodup_append, nodup_addrs_kids, mem_addrs_kids, ctxAddrs,
      List.nodup_cons, List.mem_append, List.mem_cons] at this ⊢
    grind

/-- The whole tree, from anywhere on the path. -/
theorem Layout.whole {mem : Mem α} : ∀ {ctx : Ctx α} {t : BinTree α}, Layout mem ctx t →
    Layout mem [] (plug ctx t)
  | [], _, h => h
  | _ :: ctx, _, h => by rw [plug]; exact h.pop.whole

theorem nodup_of_perm {ctx : Ctx α} {t t' : BinTree α} (h : (t.addrs ++ ctxAddrs froot ctx).Nodup)
    (hp : t'.addrs.Perm t.addrs) : (t'.addrs ++ ctxAddrs froot ctx).Nodup :=
  (hp.append_right _).nodup_iff.mpr h

/-- **Rewriting the subtree** and then the link above it. -/
theorem Layout.rehang {mem mem' : Mem α} {ctx : Ctx α} {t t' : BinTree α} (h : Layout mem ctx t)
    (hs : Stored mem' t') (hp : t'.addrs.Perm t.addrs) (hsame : Same mem mem' t.addrs) :
    Layout (setLink mem' (top froot ctx) (holeSide ctx) t'.root) ctx t' := by
  have hkeep : ∀ x ∈ ctxAddrs froot ctx, mem' x = mem x := fun x hx =>
    hsame x fun hm => h.disjoint hm hx
  refine ⟨ctxStored_link h.path (List.nodup_append.mp h.nodup).2.1 ?_ ?_, ?_, nodup_of_perm h.nodup hp⟩
  · rw [setLink_self, hkeep _ (top_mem froot ctx)]
  · exact fun x hx hne => (setLink_ne _ _ _ hne).trans (hkeep x hx)
  · refine hs.congr fun x hx => setLink_ne _ _ _ fun e => ?_
    exact h.disjoint (hp.subset hx) (e ▸ top_mem froot ctx)

/-- Rewriting the subtree without moving its root. -/
theorem Layout.rewrite {mem mem' : Mem α} {ctx : Ctx α} {t t' : BinTree α} (h : Layout mem ctx t)
    (hs : Stored mem' t') (hr : t'.root = t.root) (hp : t'.addrs.Perm t.addrs)
    (hsame : Same mem mem' t.addrs) : Layout mem' ctx t' := by
  refine ⟨?_, hs, nodup_of_perm h.nodup hp⟩
  rw [hr]
  exact h.path.congr fun x hx => hsame x fun hm => h.disjoint hm hx

theorem count_addrs_kids {a : Nat} {c : Colour} {v : α} {d : Side} {x y : BinTree α} (z : Nat) :
    (BinTree.node a c v (kids d x y)).addrs.count z =
      [a].count z + (x.addrs.count z + y.addrs.count z) := by
  rw [(BinTree.addrs_perm a c v _ d).count_eq, kids_self, kids_other, List.count_cons,
    List.count_append, List.count_singleton, Nat.add_comm]

/-- The cells of a path and of the tree in its hole stay the same when the hole moves. -/
theorem cells_fill (f : Frame α) (ctx : Ctx α) (t : BinTree α) :
    (t.addrs ++ ctxAddrs froot (f :: ctx)).Perm ((f.fill t).addrs ++ ctxAddrs froot ctx) := by
  refine List.perm_iff_count.mpr fun z => ?_
  simp only [Frame.fill, ctxAddrs, List.count_append, List.count_cons, count_addrs_kids,
    List.count_nil]
  omega

/-- **A single rotation below the path**, with the write of the link above it. -/
theorem Layout.rotateSingle {mem : Mem α} {ctx : Ctx α} {n m : Nat} {c c' : Colour} {v v' : α}
    {dir : Side} {x y z : BinTree α}
    (h : Layout mem ctx (.node n c v (kids dir x (.node m c' v' (kids dir y z))))) :
    ∃ mem', clRbnodeRotateSingle mem n dir = some (mem', m) ∧
      Layout (setLink mem' (top froot ctx) (holeSide ctx) (some m)) ctx
        (.node m .black v' (kids dir (.node n .red v (kids dir x y)) z)) ∧
      Same mem mem' [n, m] := by
  obtain ⟨mem', he, hs, hsame⟩ := rotateSingle_stored h.tree (List.nodup_append.mp h.nodup).1
  refine ⟨mem', he, h.rehang hs ?_ (hsame.mono fun a ha => ?_), hsame⟩
  · refine List.perm_iff_count.mpr fun a => ?_
    simp only [count_addrs_kids]
    omega
  · simp only [List.mem_cons, List.not_mem_nil, or_false] at ha
    simp only [mem_addrs_kids]
    rcases ha with rfl | rfl <;> simp

/-- **A double rotation below the path**, with the write of the link above it. -/
theorem Layout.rotateDouble {mem : Mem α} {ctx : Ctx α} {n m r : Nat} {c c₁ c₂ : Colour}
    {v v₁ v₂ : α} {dir : Side} {w x y z : BinTree α}
    (h : Layout mem ctx (.node n c v (kids dir w
      (.node m c₁ v₁ (kids dir (.node r c₂ v₂ (kids dir x y)) z))))) :
    ∃ mem', clRbnodeRotateDouble mem n dir = some (mem', r) ∧
      Layout (setLink mem' (top froot ctx) (holeSide ctx) (some r)) ctx
        (.node r .black v₂ (kids dir (.node n .red v (kids dir w x))
          (.node m .red v₁ (kids dir y z)))) ∧
      Same mem mem' [n, m, r] := by
  obtain ⟨mem', he, hs, hsame⟩ := rotateDouble_stored h.tree (List.nodup_append.mp h.nodup).1
  refine ⟨mem', he, h.rehang hs ?_ (hsame.mono fun a ha => ?_), hsame⟩
  · refine List.perm_iff_count.mpr fun a => ?_
    simp only [count_addrs_kids]
    omega
  · simp only [List.mem_cons, List.not_mem_nil, or_false] at ha
    simp only [mem_addrs_kids]
    rcases ha with rfl | rfl | rfl <;> simp

/-- `cl_direction(t->link[RIGHT] == g)`, asked of the node above the hole, is the hole's side. -/
theorem holeSide_eq {mem : Mem α} {ctx : Ctx α} {t : BinTree α} {a : Nat} (h : Layout mem ctx t)
    (ha : t.root = some a) :
    clDirection ((mem (top froot ctx)).link .right == some a) = holeSide ctx := by
  have hlink := ctxStored_top h.path
  cases hd : holeSide ctx with
  | right => rw [hd] at hlink; rw [hlink, ha]; simp [clDirection]
  | left =>
    cases ctx with
    | nil => simp [holeSide] at hd
    | cons f ctx =>
      have hsib : f.sib.root ≠ some a := fun hs =>
        h.disjoint (BinTree.root_mem ha) (by simp [ctxAddrs, BinTree.root_mem hs])
      simp only [holeSide] at hd
      rw [top, h.path.1]
      simp [hd, clDirection, hsib]

end Protozoa.Clump
