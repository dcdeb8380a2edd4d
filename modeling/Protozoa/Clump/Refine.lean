import Protozoa.Clump.Insert
import Protozoa.Clump.Remove

/-!
# `rbtree.c` as a sorted bag

`Represents tree t`: the pointers of `tree` spell out the red-black tree `t`, whose root is black,
on slots of the pool that are not on its freelist, and `n_items` counts its nodes. Each function of
`rbtree.c` takes a represented tree to a represented one and does to its values what
`Lib/SortedBag.lean` says:

* `clRbtreeAdd_spec` (`rbtree.c:155-172`), `clRbtreeRemove_spec` (`rbtree.c:267-326`);
* `clRbtreePeek_spec` (`rbtree.c:375-382`), `clRbtreeForEach_spec` (`rbtree.c:351-369`).

Both `clRbtreeAdd` and `clRbtreeRemove` keep the red-black shape of any tree: insertion hangs the
new value at the end of its search path (`clRbtreeAdd_any`), and removal takes out a value that
compares equal, or none (`clRbtreeRemove_any`). That this is what the order says needs the tree to
be sorted. The engine uses these two, since the due times of its slots change while they are queued.

**`run_refines`** is the run of any sequence of additions and removals, over any values and any
lawful comparison.
-/

namespace Protozoa.Clump

open Lib.LinkedTree Lib.RedBlack Lib.SortedBag

variable {α : Type} {compare : α → α → Ordering}

/-- The slots `used` were handed out by the pool and not given back. -/
structure PoolHolds (p : ClPool) (used : List Nat) : Prop where
  nodup : (froot :: (used ++ p.head)).Nodup
  bound : ∀ x ∈ froot :: (used ++ p.head), x < p.next

/-- The pointers spell out a red-black tree with a black root. -/
structure Represents (tree : ClRbtree α) (t : BinTree α) : Prop where
  root : tree.root = t.root
  stored : Stored tree.mem t
  pool : PoolHolds tree.pool t.addrs
  black : t.NotRed
  rb : ∃ h, RB t h

theorem PoolHolds.perm {p : ClPool} {l l' : List Nat} (h : PoolHolds p l) (hp : l'.Perm l) :
    PoolHolds p l' := by
  have hperm : (froot :: (l' ++ p.head)).Perm (froot :: (l ++ p.head)) :=
    (hp.append_right _).cons _
  exact ⟨hperm.nodup_iff.mpr h.nodup, fun x hx => h.bound x (hperm.subset hx)⟩

theorem PoolHolds.alloc {p : ClPool} {l : List Nat} (h : PoolHolds p l) :
    PoolHolds (clPoolAlloc p).2 ((clPoolAlloc p).1 :: l) := by
  obtain ⟨head, next⟩ := p
  obtain ⟨hnd, hb⟩ := h
  cases head with
  | nil =>
    simp only [clPoolAlloc, List.append_nil] at *
    have hnew : next ∉ froot :: l := fun hx => absurd (hb next hx) (Nat.lt_irrefl _)
    refine ⟨?_, fun x hx => ?_⟩
    · simp only [List.append_nil]
      exact (List.Perm.swap _ _ _).nodup_iff.mpr (List.nodup_cons.mpr ⟨hnew, hnd⟩)
    · simp only [List.append_nil, List.mem_cons] at hx
      rcases hx with rfl | rfl | hx
      · exact Nat.lt_succ_of_lt (hb _ List.mem_cons_self)
      · exact Nat.lt_succ_self _
      · exact Nat.lt_succ_of_lt (hb x (List.mem_cons_of_mem _ hx))
  | cons slot head =>
    have hperm : (froot :: (slot :: l ++ head)).Perm (froot :: (l ++ slot :: head)) :=
      (List.perm_middle.symm).cons _
    exact ⟨hperm.nodup_iff.mpr hnd, fun x hx => hb x (hperm.subset hx)⟩

theorem PoolHolds.release {p : ClPool} {l l' : List Nat} {m : Nat} (h : PoolHolds p l)
    (hp : (m :: l').Perm l) : PoolHolds (clPoolRelease p m) l' := by
  have hperm : (froot :: (l' ++ m :: p.head)).Perm (froot :: (l ++ p.head)) :=
    (List.perm_middle.trans (hp.append_right _)).cons _
  exact ⟨hperm.nodup_iff.mpr h.nodup, fun x hx => h.bound x (hperm.subset hx)⟩

theorem length_addrs : ∀ t : BinTree α, t.addrs.length = t.size
  | .nil => rfl
  | .node a c v k => by
    simp only [BinTree.addrs, BinTree.size, List.length_cons, List.length_append, length_addrs (k .left),
      length_addrs (k .right)]

/-- A tree is no larger than its pool. -/
theorem PoolHolds.size_lt {p : ClPool} {t : BinTree α} (h : PoolHolds p t.addrs) : t.size < p.next := by
  have hsub : froot :: (t.addrs ++ p.head) ⊆ List.range p.next := fun x hx =>
    List.mem_range.mpr (h.bound x hx)
  have hlen := h.nodup.length_le_of_subset hsub
  rw [List.length_range, List.length_cons, List.length_append, length_addrs] at hlen
  omega

/-- `froot.link[RIGHT] = tree->root;` -/
theorem layout_init {mem : Mem α} {t : BinTree α} (hs : Stored mem t)
    (hnd : (t.addrs ++ [froot]).Nodup) :
    Layout (setLink (mem.write froot frootInit) froot .right t.root) [] t := by
  refine ⟨?_, hs.congr fun x hx => ?_, hnd⟩
  · simp only [CtxStored, setLink_self, Mem.write_self, frootInit]
    congr 1
    funext d
    cases d <;> simp [Function.update]
  · have hne : x ≠ froot := fun e => by
      rw [List.nodup_append] at hnd
      exact hnd.2.2 x hx froot (List.mem_singleton.mpr rfl) e
    rw [setLink_ne _ _ _ hne, Mem.write_ne _ _ hne]

/-- What both loops leave turns into a tree by colouring its root black. -/
theorem represents_blacken {mem : Mem α} {t : BinTree α} {pool : ClPool} (nItems : UInt32)
    (h : Layout mem [] t) (hpool : PoolHolds pool t.addrs) (hrb : ∃ h, RB t h) :
    Represents
      { pool := pool
        mem := match (mem froot).link .right with
          | none => mem
          | some r => setColor mem r .black
        root := (mem froot).link .right
        nItems := nItems } (blacken t) := by
  obtain ⟨b, hb⟩ := hrb
  have hlink : (mem froot).link .right = t.root := ctxStored_top h.path
  rw [hlink]
  refine ⟨(root_blacken t).symm, ?_, by rw [addrs_blacken]; exact hpool, notRed_blacken t,
    rb_blacken hb⟩
  · cases hr : t.root with
    | none =>
      rw [BinTree.root_eq_none.mp hr]
      trivial
    | some r => exact blacken_stored h.tree (List.nodup_append.mp h.nodup).1 hr

theorem represents_init : Represents (clRbtreeInit : ClRbtree α) .nil := by
  refine ⟨rfl, trivial, ⟨List.nodup_singleton froot, fun x hx => ?_⟩, trivial, 0, rfl⟩
  obtain rfl := List.mem_singleton.mp hx
  exact Nat.zero_lt_succ 0

/-! ## Addition -/

/-- `cl_rbtree_insert2` on a tree that is not empty. -/
theorem clRbtreeInsert2_spec (compare : α → α → Ordering) [Std.TransCmp compare]
    (tree : ClRbtree α) {t : BinTree α} {n : Nat} {v : α} (hroot : tree.root = t.root)
    (hst : Stored tree.mem t) (hblack : t.NotRed)
    (hne : t ≠ .nil) (hrb : ∃ h, RB t h) (hnd : (t.addrs ++ [froot]).Nodup)
    (hn : tree.mem n = clRbnodeInit v) (hfresh : n ∉ t.addrs ++ [froot])
    (hsize : t.size < tree.pool.next) :
    ∃ mem t', clRbtreeInsert2 compare tree n =
        some { tree with mem := mem, root := (mem froot).link .right } ∧
      Inserted compare n v t.inorder (t.addrs ++ [froot]) mem t' := by
  obtain ⟨b, hb⟩ := hrb
  have hnf : n ≠ froot := fun e => hfresh (by simp [e])
  have hlay := layout_init hst hnd
  have hround : Round compare n v t.inorder (t.addrs ++ [froot])
      ⟨setLink (tree.mem.write froot frootInit) froot .right tree.root, froot, none, none,
        tree.root, .left, .left⟩ [] t (2 * t.size + 1) := by
    rw [hroot]
    exact
      { fits := ⟨⟨hlay, by simp [lefts, rights], .refl _, b, hb, trivial⟩, Or.inl trivial⟩
        onPath := fun f hf => by simp at hf
        ptrs := ⟨rfl, rfl, fun f hf => by simp at hf⟩
        mode := .normal ⟨rfl, fun f hf => by simp at hf⟩ rfl trivial
        root := fun _ => ⟨hblack, hne⟩
        node := by rw [setLink_ne _ _ _ hnf, Mem.write_ne _ _ hnf, hn]
        fresh := hfresh }
  obtain ⟨mem, t', hrun, hins⟩ := insertLoop_spec hround
    (show 2 * t.size + 1 ≤ loopFuel tree by unfold loopFuel; omega)
  exact ⟨mem, t', by simp [clRbtreeInsert2, hrun], hins⟩

/-- **`cl_rbtree_add`** on any red-black tree: the value stands where its search path ended. -/
theorem clRbtreeAdd_any (compare : α → α → Ordering) [Std.TransCmp compare] {tree : ClRbtree α} {t : BinTree α} {v : α}
    (h : Represents tree t) :
    ∃ tree' t', clRbtreeAdd compare tree v = some (v, tree') ∧ Represents tree' t' ∧
      tree'.nItems = tree.nItems + 1 ∧ ∃ l r, t.inorder = l ++ r ∧ t'.inorder = l ++ v :: r ∧
        (Sorted compare t.inorder →
          (∀ x ∈ l, compare x v = .lt) ∧ ∀ x ∈ r, compare x v ≠ .lt) := by
  have hpool := h.pool.alloc
  obtain ⟨n, pool, halloc⟩ : ∃ n pool, clPoolAlloc tree.pool = (n, pool) := ⟨_, _, rfl⟩
  rw [halloc] at hpool
  simp only at hpool
  have hnd := hpool.nodup
  simp only [List.cons_append, List.nodup_cons, List.mem_cons, List.mem_append, not_or,
    List.nodup_append] at hnd
  have hst : Stored (tree.mem.write n (clRbnodeInit v)) t :=
    h.stored.congr fun x hx => Mem.write_ne _ _ fun e => hnd.2.1.1 (e ▸ hx)
  cases t with
  | nil =>
    refine ⟨{ tree with
        pool := pool
        mem := setColor (tree.mem.write n (clRbnodeInit v)) n .black
        root := some n
        nItems := tree.nItems + 1 }, .node n .black v fun _ => .nil, ?_,
      ⟨rfl, ⟨by simp [clRbnodeInit], fun _ => trivial⟩, hpool, rfl, 1, ?_⟩, rfl,
      [], [], rfl, rfl, fun _ => by simp⟩
    · simp [clRbtreeAdd, halloc, clRbtreeInsert, h.root]
    · exact rb_black.mpr fun _ => rfl
  | node a c w k =>
    have hsize := (hpool.release (m := n) (.refl _)).size_lt
    obtain ⟨mem, t', hins, hspec⟩ := clRbtreeInsert2_spec compare
      { tree with pool := pool, mem := tree.mem.write n (clRbnodeInit v) }
      h.root hst h.black (fun e => by cases e) h.rb (by simp only [List.nodup_append]; grind)
      (Mem.write_self _ _ _) (by simp only [List.mem_append, List.mem_singleton]; grind) hsize
    obtain ⟨l, r, hlr, hord, hsort⟩ := hspec.order
    obtain ⟨m, hm⟩ : ∃ m, t'.root = some m := by
      refine Option.ne_none_iff_exists'.mp fun hn => ?_
      rw [BinTree.root_eq_none.mp hn] at hord
      simp [BinTree.inorder] at hord
    have hlink : (mem froot).link .right = some m := (ctxStored_top hspec.layout.path).trans hm
    have hcells : t'.addrs.Perm (n :: (BinTree.node a c w k).addrs) :=
      (List.perm_append_right_iff [froot]).mp hspec.cells
    have hrep := represents_blacken (tree.nItems + 1) hspec.layout (hpool.perm hcells) hspec.rb
    simp only [hlink] at hrep
    refine ⟨_, _, ?_, hrep, rfl, l, r, hlr, by rw [inorder_blacken, hord], hsort⟩
    have hr : tree.root = some a := h.root
    rw [hr] at hins
    simp [clRbtreeAdd, halloc, clRbtreeInsert, hr, hins, hlink]

/-- **`cl_rbtree_add`** on a sorted tree. -/
theorem clRbtreeAdd_spec [Std.TransCmp compare] {tree : ClRbtree α} {t : BinTree α} {v : α}
    (h : Represents tree t) (hs : Sorted compare t.inorder) :
    ∃ tree' t', clRbtreeAdd compare tree v = some (v, tree') ∧ Represents tree' t' ∧
      tree'.nItems = tree.nItems + 1 ∧ t'.inorder = add compare v t.inorder := by
  obtain ⟨tree', t', hrun, hrep, hn, l, r, hlr, hord, hsort⟩ := clRbtreeAdd_any compare (v := v) h
  obtain ⟨hl, hr⟩ := hsort hs
  exact ⟨tree', t', hrun, hrep, hn, by rw [hord, hlr, add_of_split hl hr]⟩

/-! ## Removal -/

/-- **`cl_rbtree_remove`** on any red-black tree takes out an equal value or none; on a sorted tree
it is the first one. -/
theorem clRbtreeRemove_any [Std.TransCmp compare] {tree : ClRbtree α} {t : BinTree α} (key : α)
    (h : Represents tree t) :
    ∃ out tree' t', clRbtreeRemove compare tree key = some (out, tree') ∧ Represents tree' t' ∧
      (∀ x ∈ out, compare x key = .eq) ∧
      (Sorted compare t.inorder → remove compare key t.inorder = (out, t'.inorder)) ∧
      tree'.nItems = match out with
        | some _ => tree.nItems - 1
        | none => tree.nItems := by
  cases ht : t with
  | nil =>
    subst ht
    exact ⟨none, tree, .nil, by simp [clRbtreeRemove, h.root], h, by simp, fun _ => rfl, rfl⟩
  | node a c w k =>
    rw [← ht]
    have hr : tree.root = some a := by rw [h.root, ht]; rfl
    obtain ⟨b, hb⟩ := h.rb
    have hnd : (t.addrs ++ [froot]).Nodup := by
      have := h.pool.nodup
      simp only [List.nodup_cons, List.mem_append, List.nodup_append] at this ⊢
      grind
    have hspot : Spot compare key t.inorder (t.addrs ++ [froot])
        ⟨setLink (tree.mem.write froot frootInit) froot .right tree.root, froot, none, none, none,
          .right⟩ [] t := by
      rw [h.root]
      exact
        { fits := ⟨⟨layout_init h.stored hnd, by simp [lefts, rights], .refl _, b, hb, trivial⟩,
            Or.inl trivial⟩
          q := rfl
          dir := rfl
          p := fun e => absurd rfl e
          passed := fun a ha => by cases ha
          onPath := fun _ f hf => by simp at hf
          found := fun _ => rfl
          safe := trivial
          root := fun _ => by rw [ht]; exact fun e => by cases e }
    have hfuel : t.size < loopFuel tree := by
      have := h.pool.size_lt
      unfold loopFuel
      omega
    obtain ⟨s, ctx, hrun, hend⟩ := removeLoop_spec hspot hfuel
    have hrun' : clRbtreeRemove compare tree key = clRbtreeRemove2 compare tree key := by
      simp [clRbtreeRemove, hr]
    rw [hrun']
    cases hf : s.f with
    | none =>
      have hwhole := hend.fits.layout.whole
      have hcells : (plug ctx .nil).addrs.Perm t.addrs := by
        have hp := (plug_addrs froot ctx .nil).trans hend.fits.cells
        exact (List.perm_append_right_iff [froot]).mp (List.perm_append_comm.trans hp)
      obtain ⟨n, hn, hctx⟩ := hend.fits.rb
      have hrep := represents_blacken tree.nItems hwhole (h.pool.perm hcells)
        (rb_plug hctx hn hend.fits.red)
      refine ⟨none, _, _, ?_, hrep, by simp, fun hs => ?_, rfl⟩
      · simp only [clRbtreeRemove2, hrun, hf, Option.bind_eq_bind, Option.bind_some]
        rfl
      · rw [remove_of_forall_ne (hend.not_found hs hf), inorder_blacken, inorder_plug,
          hend.fits.order]
    | some f =>
      obtain ⟨mem, t', x, hfound, hun⟩ := removeFound_spec tree hend hf
      have hcells : (s.q :: t'.addrs).Perm t.addrs :=
        (List.perm_append_right_iff [froot]).mp hun.cells
      have hrep := represents_blacken (tree.nItems - 1) hun.layout (h.pool.release hcells) hun.rb
      refine ⟨some x, _, _, ?_, hrep, ?_, fun hs => ?_, rfl⟩
      · simp only [clRbtreeRemove2, hrun, hf, hfound, Option.bind_eq_bind, Option.bind_some]
        rfl
      · intro y hy
        obtain rfl := Option.some.inj hy
        exact hun.equal
      · obtain ⟨l, r, hL, hord, hl⟩ := hun.order hs
        rw [hL, remove_of_split (fun y hy => by rw [hl y hy]; decide) hun.equal, inorder_blacken,
          hord]

/-- **`cl_rbtree_remove`** on a sorted tree. -/
theorem clRbtreeRemove_spec [Std.TransCmp compare] {tree : ClRbtree α} {t : BinTree α} (key : α)
    (h : Represents tree t) (hs : Sorted compare t.inorder) :
    ∃ tree' t', clRbtreeRemove compare tree key =
        some ((remove compare key t.inorder).1, tree') ∧
      Represents tree' t' ∧ t'.inorder = (remove compare key t.inorder).2 ∧
      tree'.nItems = match (remove compare key t.inorder).1 with
        | some _ => tree.nItems - 1
        | none => tree.nItems := by
  obtain ⟨out, tree', t', hrun, hrep, -, hsort, hn⟩ := @clRbtreeRemove_any _ compare _ _ _ key h
  rw [hsort hs]
  exact ⟨tree', t', hrun, hrep, rfl, hn⟩

/-! ## Reading -/

theorem peekLoop_spec {mem : Mem α} : ∀ {fuel : Nat} {n : Nat} {c : Colour} {v : α}
    {k : Side → BinTree α}, Stored mem (.node n c v k) → (k .left).size < fuel →
      ∃ m, peekLoop mem fuel n = some m ∧ (mem m).value = (BinTree.node n c v k).inorder.head?
  | 0, _, _, _, _, _, hlt => absurd hlt (Nat.not_lt_zero _)
  | fuel + 1, n, c, v, k, h, hlt => by
    have hlink : (mem n).link .left = (k .left).root := by rw [h.1]
    cases hk : k .left with
    | nil => exact ⟨n, by simp [peekLoop, hlink, hk], by simp [h.1, BinTree.inorder, hk]⟩
    | node m c' v' k' =>
      have hst := h.2 .left
      rw [hk] at hst hlt
      have hsize := BinTree.size_kid m c' v' k' .left
      obtain ⟨x, hx, hv⟩ := peekLoop_spec hst (show (k' .left).size < fuel by omega)
      refine ⟨x, by simp [peekLoop, hlink, hk, hx], ?_⟩
      rw [hv, BinTree.inorder.eq_2 n, hk, List.head?_append]
      simp [BinTree.inorder]

/-- **`cl_rbtree_peek`**: the first value in order. -/
theorem clRbtreePeek_spec {tree : ClRbtree α} {t : BinTree α} (h : Represents tree t) :
    clRbtreePeek tree = some t.inorder.head? := by
  cases ht : t with
  | nil => simp [clRbtreePeek, h.root, ht, BinTree.inorder]
  | node n c v k =>
    have hst := h.stored
    have hsize := h.pool.size_lt
    rw [ht] at hst hsize
    have hkid := BinTree.size_kid n c v k .left
    obtain ⟨m, hm, hv⟩ := peekLoop_spec hst
      (show (k .left).size < loopFuel tree by unfold loopFuel; omega)
    simp [clRbtreePeek, h.root, ht, hm, hv]

theorem clRbtreeIterate_spec {mem : Mem α} : ∀ {fuel : Nat} {t : BinTree α}, Stored mem t →
    t.size < fuel → clRbtreeIterate mem fuel t.root = t.inorder
  | 0, _, _, hlt => absurd hlt (Nat.not_lt_zero _)
  | _ + 1, .nil, _, _ => rfl
  | fuel + 1, .node a c v k, h, hlt => by
    have hl := BinTree.size_kid a c v k .left
    have hr := BinTree.size_kid a c v k .right
    rw [BinTree.root_node, clRbtreeIterate, h.1]
    simp only [Option.toList_some]
    rw [clRbtreeIterate_spec (h.2 .left) (by omega), clRbtreeIterate_spec (h.2 .right) (by omega)]
    simp [BinTree.inorder]

/-- **`cl_rbtree_for_each`**: the values in order. -/
theorem clRbtreeForEach_spec {tree : ClRbtree α} {t : BinTree α} (h : Represents tree t) :
    clRbtreeForEach tree = t.inorder := by
  have hsize := h.pool.size_lt
  rw [clRbtreeForEach, h.root]
  exact clRbtreeIterate_spec h.stored (by unfold loopFuel; omega)

/-! ## Runs -/

/-- One call, with the pointer it returns. -/
def runOp (compare : α → α → Ordering) (tree : ClRbtree α) :
    Op α → Option (Option α × ClRbtree α)
  | .add v => (clRbtreeAdd compare tree v).map fun (v, tree) => (some v, tree)
  | .remove key => clRbtreeRemove compare tree key

/-- A sequence of calls, with the pointers they return. -/
def runOps (compare : α → α → Ordering) (tree : ClRbtree α) :
    List (Op α) → Option (List (Option α) × ClRbtree α)
  | [] => some ([], tree)
  | op :: ops => do
    let (out, tree) ← runOp compare tree op
    let (outs, tree) ← runOps compare tree ops
    return (out :: outs, tree)

/-- What holds of a tree after any sequence of calls: its values are the list `l`, in order. -/
structure Holds (compare : α → α → Ordering) (tree : ClRbtree α) (l : List α) : Prop where
  shape : ∃ t, Represents tree t ∧ t.inorder = l
  sorted : Sorted compare l
  nItems : tree.nItems = UInt32.ofNat l.length

theorem holds_init (compare : α → α → Ordering) : Holds compare (clRbtreeInit : ClRbtree α) [] :=
  ⟨⟨.nil, represents_init, rfl⟩, List.Pairwise.nil, rfl⟩

/-- **One call** does to the tree what it does to the sorted list. -/
theorem runOp_holds [Std.TransCmp compare] {tree : ClRbtree α} {l : List α} (op : Op α)
    (h : Holds compare tree l) :
    ∃ tree', runOp compare tree op = some ((run compare l op).1, tree') ∧
      Holds compare tree' (run compare l op).2 := by
  obtain ⟨⟨t, hrep, rfl⟩, hs, hn⟩ := h
  have hs' := sorted_run op hs
  cases op with
  | add v =>
    obtain ⟨tree', t', hrun, hrep', hn', hord⟩ := clRbtreeAdd_spec (v := v) hrep hs
    refine ⟨tree', by simp [runOp, hrun, run], ⟨t', hrep', hord⟩, hs', ?_⟩
    rw [hn', hn, run, length_add]
    exact (UInt32.ofNat_add _ _).symm
  | remove key =>
    obtain ⟨tree', t', hrun, hrep', hord, hn'⟩ := clRbtreeRemove_spec key hrep hs
    refine ⟨tree', hrun, ⟨t', hrep', hord⟩, hs', ?_⟩
    rcases remove_cases compare key t.inorder with ⟨x, l₁, l₂, hl, -, -, hr⟩ | ⟨-, hr⟩
    · have hlen : t.inorder.length = (l₁ ++ l₂).length + 1 := by
        rw [hl]
        simp only [List.length_append, List.length_cons]
        omega
      simp only [hr, hn, hlen] at hn'
      rw [hn', run, hr, UInt32.ofNat_add]
      simp
    · simp only [hr] at hn'
      rw [hn', hn, run, hr]

/-- A sequence of calls does to the tree what it does to the multiset of its values. -/
theorem runOps_holds [Std.TransCmp compare] : ∀ (ops : List (Op α)) {tree : ClRbtree α} {l : List α},
    Holds compare tree l → ∃ outs tree' l', runOps compare tree ops = some (outs, tree') ∧
      Holds compare tree' l' ∧ BagRun compare (l : Multiset α) ops outs (l' : Multiset α)
  | [], tree, l, h => ⟨[], tree, l, rfl, h, .nil _⟩
  | op :: ops, tree, l, h => by
    obtain ⟨tree', hop, h'⟩ := runOp_holds op h
    obtain ⟨outs, tree'', l'', hops, h'', hbag⟩ := runOps_holds ops h'
    exact ⟨_, tree'', l'', by simp [runOps, hop, hops], h'', .cons (run_bagStep op l) hbag⟩

/-- **`rbtree.c` is a sorted bag.** Any sequence of additions and removals, begun with an empty
tree that allows duplicates, returns and leaves what it does on a multiset; the tree is sorted,
counted and red-black, and its minimum is what `cl_rbtree_peek` returns. -/
theorem run_refines (compare : α → α → Ordering) [Std.TransCmp compare] (ops : List (Op α)) :
    ∃ outs tree t s, runOps compare clRbtreeInit ops = some (outs, tree) ∧
      BagRun compare 0 ops outs s ∧
      Represents tree t ∧ Sorted compare t.inorder ∧ (t.inorder : Multiset α) = s ∧
      clRbtreeForEach tree = t.inorder ∧
      tree.nItems = UInt32.ofNat (Multiset.card s) ∧
      (s = 0 ∧ clRbtreePeek tree = some none ∨
        ∃ m ∈ s, clRbtreePeek tree = some (some m) ∧ ∀ x ∈ s, compare m x ≠ .gt) ∧
      t.NotRed ∧ ∃ h, RB t h := by
  obtain ⟨outs, tree, l, hrun, ⟨⟨t, hrep, rfl⟩, hs, hn⟩, hbag⟩ := runOps_holds ops (holds_init compare)
  refine ⟨outs, tree, t, _, hrun, hbag, hrep, hs, rfl, clRbtreeForEach_spec hrep, hn, ?_,
    hrep.black, hrep.rb⟩
  rw [clRbtreePeek_spec hrep]
  cases hl : t.inorder with
  | nil => exact Or.inl ⟨rfl, rfl⟩
  | cons m l =>
    rw [hl] at hs
    refine Or.inr ⟨m, by simp, rfl, fun x hx => ?_⟩
    rcases List.mem_cons.mp (Multiset.mem_coe.mp hx) with rfl | hx
    · simp [Std.ReflCmp.compare_self]
    · exact (List.pairwise_cons.mp hs).1 x hx

/-- The same, on pairs compared by their first component. -/
theorem run_refines_pairs :
    ∃ outs tree t s, runOps (compareOn (Prod.fst : Nat × Nat → Nat)) clRbtreeInit
        [.add (3, 0), .add (1, 0), .add (3, 1), .remove (3, 2), .remove (2, 0)] =
          some (outs, tree) ∧
      BagRun (compareOn Prod.fst) 0
        [.add (3, 0), .add (1, 0), .add (3, 1), .remove (3, 2), .remove (2, 0)] outs s ∧
      Represents tree t ∧ Sorted (compareOn Prod.fst) t.inorder ∧ (t.inorder : Multiset _) = s ∧
      clRbtreeForEach tree = t.inorder ∧
      tree.nItems = UInt32.ofNat (Multiset.card s) ∧
      (s = 0 ∧ clRbtreePeek tree = some none ∨
        ∃ m ∈ s, clRbtreePeek tree = some (some m) ∧ ∀ x ∈ s, compareOn Prod.fst m x ≠ .gt) ∧
      t.NotRed ∧ ∃ h, RB t h :=
  run_refines (compareOn Prod.fst) _

end Protozoa.Clump
