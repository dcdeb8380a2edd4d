import Protozoa.Clump.Descent

/-!
# Top-down insertion

Correctness of `cl_rbtree_insert2` (`rbtree.c:107-153`). The descent keeps a path `ctx` and the tree
`t` in its hole (`Fits`): between two rounds the whole is a red-black tree with the values it had
before, and the search for the new value goes on in `t`. What the pointers `t`, `g` and `last` are
worth depends on the round (`Mode`):

* `normal`: `g` is the grandparent, `t` the node above it, and the two nodes just passed are such
  that a red violation at `q` has a black uncle (`Passed`);
* `double`: the round after a double rotation. `t` and `g` are stale; `q` is red and its next kid is
  quiet, so the two rounds that need them do not look at them;
* `safe`: the round after a single rotation, or the second one after a double rotation. `t` is
  stale, `g` is not, and `q` is quiet (black, without a red kid).

`insertPlace_nil`, `insertPlace_flip` and `insertFix_single`, `insertFix_double` are the branches of
the two `if`s, `Round.go` and `Round.flip` a round. **`insertLoop_spec`** puts the rounds together
by induction on the fuel, which `Mode` bounds.
-/

namespace Protozoa.Clump

open Lib.LinkedTree Lib.RedBlack Lib.SortedBag

variable {α : Type} {compare : α → α → Ordering} {n : Nat} {v : α} {L : List α} {A : List Nat}

/-- A black node without a red kid. -/
def Quiet : BinTree α → Prop
  | .nil => False
  | .node _ c _ k => c = .black ∧ ∀ d, (k d).NotRed

/-- What the descent left behind: of two kids one is not red, and neither is the uncle of a node
that may still turn red. -/
def Passed : Ctx α → BinTree α → Prop
  | [], _ => True
  | [f], t => (t.NotRed ∨ f.sib.NotRed) ∧ (f.c = .black ∨ Quiet t)
  | f :: g :: _, t => (t.NotRed ∨ f.sib.NotRed) ∧ (f.c = .black ∨ g.sib.NotRed ∨ Quiet t)

/-- The pointers `q`, `p` and `dir`. -/
structure Ptrs (s : InsertState α) (ctx : Ctx α) (t : BinTree α) : Prop where
  q : s.q = t.root
  p : s.p = ctx.head?.map Frame.a
  dir : ∀ f ∈ ctx.head?, s.dir = f.side

/-- The pointers `g` and `last`. -/
structure Above (s : InsertState α) (ctx : Ctx α) : Prop where
  g : s.g = (ctx.drop 1).head?.map Frame.a
  last : ∀ f ∈ (ctx.drop 1).head?, s.last = f.side

/-- The kind of round, with the rounds that may still be needed. -/
inductive Mode (compare : α → α → Ordering) (v : α) (s : InsertState α) (ctx : Ctx α) :
    BinTree α → Nat → Prop
  | normal {t : BinTree α} (above : Above s ctx) (t_eq : s.t = top froot (ctx.drop 2))
      (passed : Passed ctx t) : Mode compare v s ctx t (2 * t.size + 1)
  | safe {t : BinTree α} (above : Above s ctx) (deep : 2 ≤ ctx.length) (quiet : Quiet t) :
      Mode compare v s ctx t (2 * t.size + 1)
  | double {a : Nat} {w : α} {k : Side → BinTree α} (deep : ctx ≠ [])
      (quiet : Quiet (k (dirOf compare v w))) :
      Mode compare v s ctx (.node a .red w k) (2 * (k (dirOf compare v w)).size + 2)

/-- The node the loop hangs in. -/
def leaf (n : Nat) (v : α) : BinTree α := .node n .red v fun _ => .nil

/-! ## The first `if` -/

theorem insertPlace_nil {s : InsertState α} {f : Frame α} {ctx : Ctx α}
    (h : Fits L A s.mem (f :: ctx) .nil) (hs : Ptrs s (f :: ctx) .nil)
    (hn : s.mem n = clRbnodeInit v) (hA : n ∉ A) :
    ∃ mem', insertPlace n s = some (mem', n) ∧
      Loose (lefts (f :: ctx) ++ v :: rights (f :: ctx)) (n :: A) mem' (f :: ctx)
        (leaf n v) := by
  have hout : n ∉ ctxAddrs froot (f :: ctx) := fun hc =>
    hA (h.cells.subset (List.mem_append_right _ hc))
  have hne : n ≠ f.a := fun e => hout (e ▸ List.mem_cons_self)
  refine ⟨setLink s.mem f.a f.side (some n), ?_, ⟨?_, ?_, ?_⟩, ?_, ?_, ?_⟩
  · simp [insertPlace, hs.q, hs.p, hs.dir f rfl]
  · refine ctxStored_link h.layout.path (List.nodup_append.mp h.layout.nodup).2.1
      (setLink_self _ _ _ _) ?_
    exact fun x _ hx => setLink_ne _ _ _ hx
  · exact ⟨by rw [setLink_ne _ _ _ hne, hn]; rfl, fun _ => trivial⟩
  · have hnd := h.layout.nodup
    simp only [BinTree.addrs, List.nil_append] at hnd
    simpa [leaf, BinTree.addrs] using ⟨hout, hnd⟩
  · simp [leaf, BinTree.inorder]
  · simpa [leaf, BinTree.addrs] using h.cells
  · obtain ⟨b, hb, hctx⟩ := h.rb
    exact ⟨b, fun _ => ⟨hb, trivial⟩, hctx⟩

/-- The colour flip: a red node over two black kids. -/
theorem insertPlace_flip {s : InsertState α} {ctx : Ctx α} {a : Nat} {c : Colour} {w : α}
    {k : Side → BinTree α} (h : Fits L A s.mem ctx (.node a c w k))
    (hs : Ptrs s ctx (.node a c w k)) (hk : ∀ d, ¬ (k d).NotRed) :
    ∃ mem', insertPlace n s = some (mem', a) ∧
      Loose L A mem' ctx (.node a .red w fun d => blacken (k d)) ∧
      Same s.mem mem' A := by
  obtain ⟨b, hb, hctx⟩ := h.rb
  obtain ⟨hcell, hst⟩ := h.layout.tree
  have hc : c = .black := by
    cases c with
    | black => rfl
    | red => exact absurd (hb .left).2 (hk .left)
  subst hc
  have hroot : ∀ d, ∃ x, (k d).root = some x := fun d => by
    cases hkd : k d with
    | nil => exact absurd (by simp [hkd]) (hk d)
    | node x c w k' => exact ⟨x, rfl⟩
  obtain ⟨l, hl⟩ := hroot .left
  obtain ⟨r, hr⟩ := hroot .right
  have hnd := (List.nodup_append.mp h.layout.nodup).1
  have hal : l ≠ a := fun e => by
    rw [← kids_eq .left k, nodup_addrs_kids] at hnd
    exact hnd.1.1 (e ▸ BinTree.root_mem hl)
  obtain ⟨hs', hsame⟩ := colourFlip_stored h.layout.tree hnd hl hr
  refine ⟨_, ?_, ⟨h.layout.rewrite hs' rfl (by simp [BinTree.addrs]) hsame, ?_, ?_, ?_⟩,
    hsame.mono fun x hx => h.cells.subset (List.mem_append_left _ hx)⟩
  · have hisred := fun d => (isRed_root (hst d)).mpr (hk d)
    have hisl := hisred .left
    have hisr := hisred .right
    rw [hl] at hisl
    rw [hr] at hisr
    simp [insertPlace, hs.q, hcell, hisl, hisr, hl, hr, Ne.symm hal]
  · rw [← h.order]
    simp [BinTree.inorder]
  · simpa [BinTree.addrs] using h.cells
  · obtain ⟨m, rfl, hm⟩ := hb
    exact ⟨m + 1, fun d => ⟨rb_blacken_red (hm d) (hk d), notRed_blacken _⟩, hctx⟩

theorem insertPlace_skip {s : InsertState α} {ctx : Ctx α} {a : Nat} {c : Colour} {w : α}
    {k : Side → BinTree α} (h : Layout s.mem ctx (.node a c w k)) (hs : Ptrs s ctx (.node a c w k))
    (hk : ∃ d, (k d).NotRed) : insertPlace n s = some (s.mem, a) := by
  obtain ⟨hcell, hst⟩ := h.tree
  have hred := fun d => isRed_root (hst d)
  obtain ⟨d, hd⟩ := hk
  have hfalse : (clRbnodeIsRed s.mem (k .left).root && clRbnodeIsRed s.mem (k .right).root)
      = false := by
    have := (hred d).not.mpr (not_not.mpr hd)
    cases d <;> simp [this]
  simp [insertPlace, hs.q, hcell, hfalse]

/-! ## The second `if` -/

theorem insertFix_skip {mem : Mem α} {s : InsertState α} {ctx : Ctx α} {a : Nat} {c : Colour}
    {w : α} {k : Side → BinTree α} (h : Layout mem ctx (.node a c w k)) (hp : s.p = ctx.head?.map Frame.a)
    (hc : TopNotRed ctx ∨ c = .black) : insertFix mem a s = some mem := by
  have hq : clRbnodeIsRed mem (some a) = (c == .red) := by simp [clRbnodeIsRed, h.tree.1]
  have hfalse : (clRbnodeIsRed mem (some a) && clRbnodeIsRed mem s.p) = false := by
    rcases hc with hc | rfl
    · cases ctx with
      | nil => simp [hp, clRbnodeIsRed]
      | cons f ctx =>
        rw [topNotRed_cons] at hc
        simp [hp, clRbnodeIsRed, h.path.1, hc]
    · simp [hq]
  simp [insertFix, hfalse]

/-- The guard of the second `if`, the direction it computes, and the inner `if`. -/
theorem insertFix_red {mem : Mem α} {s : InsertState α} {f g : Frame α} {ctx : Ctx α} {a : Nat}
    {w : α} {k : Side → BinTree α} (h : Layout mem (f :: g :: ctx) (.node a .red w k))
    (hf : f.c = .red) (hp : s.p = some f.a) (hg : s.g = some g.a) (ht : s.t = top froot ctx)
    (hlast : s.last = g.side) :
    insertFix mem a s =
      if f.side = g.side then do
        let (mem, m) ← clRbnodeRotateSingle mem g.a g.side.other
        return setLink mem (top froot ctx) (holeSide ctx) (some m)
      else do
        let (mem, m) ← clRbnodeRotateDouble mem g.a g.side.other
        return setLink mem (top froot ctx) (holeSide ctx) (some m) := by
  have hd : clDirection ((mem (top froot ctx)).link .right == some g.a) = holeSide ctx :=
    holeSide_eq h.pop.pop rfl
  have hside : (some a = (mem f.a).link g.side) ↔ f.side = g.side := by
    rw [h.path.1]
    rcases Side.eq_or_other f.side g.side with he | he
    · simp [he]
    · have hsib : f.sib.root ≠ some a := fun hs =>
        h.disjoint (BinTree.root_mem rfl) (by simp [ctxAddrs, BinTree.root_mem hs])
      simp [he, Ne.symm hsib]
  have hqr : clRbnodeIsRed mem (some a) = true := by simp [clRbnodeIsRed, h.tree.1]
  have hpr : clRbnodeIsRed mem (some f.a) = true := by simp [clRbnodeIsRed, h.path.1, hf]
  simp only [insertFix, hp, hg, ht, hlast, hqr, hpr, hd, hside, Bool.and_self, if_true,
    Option.bind_eq_bind, Option.bind_some]

/-- The outer case: the parent comes up, and the grandparent becomes the uncle's parent. -/
theorem insertFix_single {mem : Mem α} {s : InsertState α} {f g : Frame α} {ctx : Ctx α} {a : Nat}
    {w : α} {k : Side → BinTree α} (h : Loose L A mem (f :: g :: ctx) (.node a .red w k))
    (hf : f.c = .red) (hunc : g.sib.NotRed) (hp : s.p = some f.a) (hg : s.g = some g.a)
    (ht : s.t = top froot ctx) (hlast : s.last = g.side) (hside : f.side = g.side) :
    ∃ mem', insertFix mem a s = some mem' ∧ Same mem mem' A ∧
      Loose L A mem'
        (⟨f.a, .black, f.v, f.side, .node g.a .red g.v (kids f.side.other g.sib f.sib)⟩ :: ctx)
        (.node a .red w k) := by
  rw [insertFix_red h.layout hf hp hg ht hlast, if_pos hside, ← hside]
  obtain ⟨p, cp, vp, e, sp⟩ := f
  obtain ⟨gg, cg, vg, e', sg⟩ := g
  obtain rfl : cp = .red := hf
  obtain rfl : e = e' := hside
  have hlay := h.layout.pop.pop
  simp only [Frame.fill] at hlay
  rw [← kids_swap e, ← kids_swap e] at hlay
  obtain ⟨mem', he, hlay', hsame⟩ := hlay.rotateSingle
  rw [kids_swap e (.node gg .red vg _)] at hlay'
  have hcell : ∀ x ∈ [gg, p], x ∈ A := fun x hx => h.cells.subset (by
    simp only [List.mem_cons, List.not_mem_nil, or_false] at hx
    rcases hx with rfl | rfl <;> simp [ctxAddrs])
  refine ⟨_, by simp [he], ?_, hlay'.push, ?_, ?_, ?_⟩
  · exact (hsame.mono hcell).trans (same_write _ (h.cells.subset (by simp [ctxAddrs, top_mem])) _)
  · rw [← h.order]
    cases e <;> simp [lefts, rights, BinTree.inorder, kids]
  · refine .trans (List.perm_iff_count.mpr fun z => ?_) h.cells
    simp only [ctxAddrs, List.count_append, List.count_cons, List.count_nil, count_addrs_kids]
    omega
  · obtain ⟨b, hb, hsp, hspc, hgc, hctx⟩ := h.rb
    obtain rfl : cg = .black := hgc
    refine ⟨b, hb, ?_, hctx.2⟩
    simp only [rb_red, kids_swap, Side.forall_iff e, kids_self, kids_other]
    exact ⟨⟨hsp, hspc⟩, hctx.1, hunc⟩

/-- The inner case: `q` comes up, between its parent and its grandparent. -/
theorem insertFix_double {mem : Mem α} {s : InsertState α} {f g : Frame α} {ctx : Ctx α} {a : Nat}
    {w : α} {k : Side → BinTree α} (h : Loose L A mem (f :: g :: ctx) (.node a .red w k))
    (hf : f.c = .red) (hunc : g.sib.NotRed) (hp : s.p = some f.a) (hg : s.g = some g.a)
    (ht : s.t = top froot ctx) (hlast : s.last = g.side) (hside : f.side ≠ g.side) :
    ∃ mem', insertFix mem a s = some mem' ∧ Same mem mem' A ∧
      Loose L A mem' ctx (.node a .black w (kids g.side
        (.node f.a .red f.v (kids g.side f.sib (k g.side)))
        (.node g.a .red g.v (kids g.side (k g.side.other) g.sib)))) := by
  rw [insertFix_red h.layout hf hp hg ht hlast, if_neg hside]
  obtain ⟨p, cp, vp, e', sp⟩ := f
  obtain ⟨gg, cg, vg, e, sg⟩ := g
  obtain rfl : cp = .red := hf
  obtain rfl : e' = e.other := Side.eq_other_of_ne hside
  have hlay := h.layout.pop.pop
  simp only [Frame.fill] at hlay
  rw [← kids_swap e, ← kids_eq e.other k, Side.other_other] at hlay
  obtain ⟨mem', he, hlay', hsame⟩ := hlay.rotateDouble
  rw [kids_swap e, kids_swap e, kids_swap e] at hlay'
  have hcell : ∀ x ∈ [gg, p, a], x ∈ A := fun x hx => h.cells.subset (by
    simp only [List.mem_cons, List.not_mem_nil, or_false] at hx
    rcases hx with rfl | rfl | rfl <;> simp [ctxAddrs, BinTree.addrs])
  refine ⟨_, by simp [he], ?_, hlay', ?_, ?_, ?_⟩
  · exact (hsame.mono hcell).trans (same_write _ (h.cells.subset (by simp [ctxAddrs, top_mem])) _)
  · rw [← h.order]
    cases e <;> simp [lefts, rights, BinTree.inorder, kids]
  · refine .trans (List.perm_iff_count.mpr fun z => ?_) h.cells
    have hk := @count_addrs_kids _ a .red w e (k e) (k e.other) z
    rw [kids_eq] at hk
    simp only [ctxAddrs, List.count_append, List.count_cons, List.count_nil, count_addrs_kids, hk]
    omega
  · obtain ⟨b, hb, hsp, hspc, hgc, hctx⟩ := h.rb
    obtain rfl : cg = .black := hgc
    refine ⟨b + 1, ?_, hctx.2⟩
    simp only [rb_black, rb_red, Side.forall_iff e, kids_self, kids_other]
    exact ⟨⟨⟨hsp, hspc⟩, hb e⟩, hb e.other, hctx.1, hunc⟩

/-! ## Going down -/

/-- The pointers of the next round, one node further down from `a`. -/
def advance (s : InsertState α) (mem : Mem α) (a : Nat) (d : Side) : InsertState α where
  mem := mem
  t := match s.g with
    | some g => g
    | none => s.t
  g := s.p
  p := some a
  q := (mem a).link d
  dir := d
  last := s.dir

/-- The round ends one node further down. -/
theorem insertLoop_advance {s : InsertState α} {mem₁ mem₂ : Mem α} {a : Nat} {c : Colour} {w : α}
    {k : Side → BinTree α} {fuel : Nat} (hplace : insertPlace n s = some (mem₁, a))
    (hfix : insertFix mem₁ a s = some mem₂) (ha : a ≠ n)
    (hst : mem₂ a = ⟨c, fun d => (k d).root, some w⟩) (hn : mem₂ n = clRbnodeInit v) :
    insertLoop compare n (fuel + 1) s =
      insertLoop compare n fuel (advance s mem₂ a (dirOf compare v w)) := by
  simp only [insertLoop, hplace, hfix, Option.bind_eq_bind, Option.bind_some, insertDescend, ha,
    if_false, hst, hn, clRbnodeInit, advance, dirOf]
  rfl

/-- The round ends the loop. -/
theorem insertLoop_stop {s : InsertState α} {mem₁ mem₂ : Mem α} {fuel : Nat}
    (hplace : insertPlace n s = some (mem₁, n)) (hfix : insertFix mem₁ n s = some mem₂) :
    insertLoop compare n (fuel + 1) s = some mem₂ := by
  simp [insertLoop, hplace, hfix, insertDescend]

theorem ptrs_advance {s : InsertState α} {mem : Mem α} {ctx : Ctx α} {a : Nat} {c : Colour} {w : α}
    {k : Side → BinTree α} (h : Layout mem ctx (.node a c w k)) (d : Side) :
    Ptrs (advance s mem a d) (Frame.ofNode a c w k d :: ctx) (k d) := by
  refine ⟨?_, rfl, ?_⟩
  · simp [advance, h.tree.1]
  · simp [advance, Frame.ofNode]

/-- `p` and `dir` become `g` and `last`; where they point is all that matters of the path. -/
theorem above_advance {s : InsertState α} {mem : Mem α} {ctx : Ctx α} {f : Frame α} {a : Nat}
    {d : Side} (hp : s.p = ctx.head?.map Frame.a) (hdir : ∀ f ∈ ctx.head?, s.dir = f.side) :
    Above (advance s mem a d) (f :: ctx) := ⟨by simp [advance, hp], by simpa [advance] using hdir⟩

theorem t_advance {s : InsertState α} {mem : Mem α} {ctx : Ctx α} {a : Nat} {d : Side}
    (h : Above s ctx) (ht : ctx.length < 2 → s.t = froot) :
    (advance s mem a d).t = top froot (ctx.drop 1) := by
  have hg := h.g
  match ctx, ht, hg with
  | [], ht, hg => simpa [advance, hg, top] using ht (by simp)
  | [_], ht, hg => simpa [advance, hg, top] using ht (by simp)
  | _ :: _ :: _, _, hg => simp [advance, hg, top]

/-- What the loop leaves: the new value stands before the first one that is not below it. -/
structure Inserted (compare : α → α → Ordering) (n : Nat) (v : α) (L : List α) (A : List Nat)
    (mem : Mem α) (t : BinTree α) : Prop where
  layout : Layout mem [] t
  order : ∃ l r, L = l ++ r ∧ t.inorder = l ++ v :: r ∧
    (Sorted compare L → (∀ x ∈ l, compare x v = .lt) ∧ ∀ x ∈ r, compare x v ≠ .lt)
  cells : (t.addrs ++ [froot]).Perm (n :: A)
  rb : ∃ h, RB t h

/-- A placed and repaired node ends the insertion. -/
theorem inserted_whole {mem : Mem α} {ctx : Ctx α} {t : BinTree α} {l r : List α}
    (h : Fits (l ++ v :: r) (n :: A) mem ctx t)
    (hsort : Sorted compare (l ++ r) →
      (∀ x ∈ l, compare x v = .lt) ∧ ∀ x ∈ r, compare x v ≠ .lt) :
    Inserted compare n v (l ++ r) A mem (plug ctx t) := by
  obtain ⟨b, hb, hctx⟩ := h.rb
  refine ⟨h.layout.whole, ⟨l, r, rfl, (inorder_plug ctx t).trans h.order, hsort⟩, ?_,
    rb_plug hctx hb h.red⟩
  refine .trans ?_ ((plug_addrs froot ctx t).trans h.cells)
  exact List.perm_append_comm

/-! ## The loop -/

/-- Where the loop stands, with the rounds it may still need. -/
structure Round (compare : α → α → Ordering) (n : Nat) (v : α) (L : List α) (A : List Nat)
    (s : InsertState α) (ctx : Ctx α) (t : BinTree α) (need : Nat) : Prop where
  fits : Fits L A s.mem ctx t
  onPath : OnPath compare v ctx
  ptrs : Ptrs s ctx t
  mode : Mode compare v s ctx t need
  root : ctx = [] → t.NotRed ∧ t ≠ .nil
  node : s.mem n = clRbnodeInit v
  fresh : n ∉ A

theorem Round.ne_node {s : InsertState α} {ctx : Ctx α} {a : Nat} {c : Colour} {w : α}
    {k : Side → BinTree α} {need : Nat} (h : Round compare n v L A s ctx (.node a c w k) need) :
    a ≠ n := fun e =>
  h.fresh (e ▸ h.fits.cells.subset (List.mem_append_left _ List.mem_cons_self))

/-- The two nodes just passed, when `q` was not flipped. -/
theorem passed_ofNode {ctx : Ctx α} {a : Nat} {c : Colour} {w : α} {k : Side → BinTree α} {d : Side}
    (hk : ∃ d, (k d).NotRed) (hc : ctx = [] → c = .black)
    (hsib : ∀ f ∈ ctx.head?, c = .black ∨ f.sib.NotRed) :
    Passed (Frame.ofNode a c w k d :: ctx) (k d) := by
  have hkids : (k d).NotRed ∨ (k d.other).NotRed := by
    obtain ⟨e, he⟩ := hk
    rcases Side.eq_or_other d e with rfl | rfl
    exacts [Or.inl he, Or.inr he]
  cases ctx with
  | nil => exact ⟨hkids, Or.inl (hc rfl)⟩
  | cons f ctx => exact ⟨hkids, (hsib f rfl).imp_right Or.inl⟩

theorem Passed.notRed {f : Frame α} {ctx : Ctx α} {t : BinTree α} (h : Passed (f :: ctx) t) :
    t.NotRed ∨ f.sib.NotRed := by
  cases ctx with
  | nil => exact h.1
  | cons g ctx => exact h.1

/-- Going down without a colour flip leaves one kind of round for the next. -/
theorem Mode.pass {s : InsertState α} (mem : Mem α) {ctx : Ctx α} {a : Nat} {c : Colour} {w : α}
    {k : Side → BinTree α} {need : Nat} (h : Mode compare v s ctx (.node a c w k) need)
    (hptrs : Ptrs s ctx (.node a c w k)) (hroot : ctx = [] → c = .black)
    (hk : ∃ d, (k d).NotRed) :
    ∃ need' < need, Mode compare v (advance s mem a (dirOf compare v w))
      (Frame.ofNode a c w k (dirOf compare v w) :: ctx) (k (dirOf compare v w)) need' := by
  have hlt := BinTree.size_kid a c w k (dirOf compare v w)
  have habove : Above (advance s mem a (dirOf compare v w))
      (Frame.ofNode a c w k (dirOf compare v w) :: ctx) := above_advance hptrs.p hptrs.dir
  cases h with
  | normal above t_eq passed =>
    refine ⟨_, by omega, .normal habove (t_advance above fun hl => ?_) ?_⟩
    · rw [t_eq, List.drop_eq_nil_of_le (by omega)]
      rfl
    · refine passed_ofNode hk hroot fun f hf => ?_
      cases ctx with
      | nil => cases hf
      | cons g ctx =>
        obtain rfl := Option.some.inj hf
        exact passed.notRed
  | safe above deep quiet =>
    refine ⟨_, by omega, .normal habove (t_advance above fun hl => by omega) ?_⟩
    exact passed_ofNode hk (fun _ => quiet.1) fun _ _ => Or.inl quiet.1
  | double deep quiet =>
    refine ⟨_, by omega, .safe habove ?_ quiet⟩
    have := List.length_pos_of_ne_nil deep
    simp only [List.length_cons]
    omega

/-- A round ends one node down, in the round `Mode` says. -/
theorem Round.go {s : InsertState α} {mem₁ mem₂ : Mem α} {ctx ctx' : Ctx α}
    {a : Nat} {c : Colour} {w : α} {t : BinTree α} {k : Side → BinTree α} {need need' : Nat}
    (h : Round compare n v L A s ctx t need) (ha : a ≠ n)
    (hplace : insertPlace n s = some (mem₁, a)) (hfix : insertFix mem₁ a s = some mem₂)
    (hsame : Same s.mem mem₂ A) (hfits : Fits L A mem₂ ctx' (.node a c w k))
    (hpath : OnPath compare v ctx') (hlt : need' < need) (hmode : Mode compare v (advance s mem₂ a (dirOf compare v w))
      (Frame.ofNode a c w k (dirOf compare v w) :: ctx') (k (dirOf compare v w)) need') :
    ∃ s' ctx' t', ∃ need' < need, Round compare n v L A s' ctx' t' need' ∧
      ∀ fuel, insertLoop compare n (fuel + 1) s = insertLoop compare n fuel s' := by
  have hn : mem₂ n = clRbnodeInit v := (hsame n h.fresh).trans h.node
  exact ⟨_, _, _, need', hlt, ⟨hfits.push _, hpath.push a c w k, ptrs_advance hfits.layout _,
    hmode, fun e => absurd e (List.cons_ne_nil _ _), hn, h.fresh⟩,
    fun fuel => insertLoop_advance hplace hfix ha hfits.layout.tree.1 hn⟩

/-- **A round that only goes down**: no colour flip, and so no violation. -/
theorem Round.pass {s : InsertState α} {ctx : Ctx α} {a : Nat} {c : Colour}
    {w : α} {k : Side → BinTree α} {need : Nat} (h : Round compare n v L A s ctx (.node a c w k) need)
    (hk : ∃ d, (k d).NotRed) :
    ∃ s' ctx' t', ∃ need' < need, Round compare n v L A s' ctx' t' need' ∧
      ∀ fuel, insertLoop compare n (fuel + 1) s = insertLoop compare n fuel s' := by
  have hlay := h.fits.layout
  obtain ⟨need', hlt, hmode⟩ := h.mode.pass s.mem h.ptrs (fun e => (h.root e).1) hk
  exact h.go h.ne_node (insertPlace_skip hlay h.ptrs hk)
    (insertFix_skip hlay h.ptrs.p h.fits.red) (Same.refl _ _) h.fits h.onPath hlt hmode

theorem quiet_blacken {t : BinTree α} {b : Nat} (h : RB t b) (hc : ¬ t.NotRed) :
    Quiet (blacken t) := by
  cases t with
  | nil => exact absurd trivial hc
  | node a c w k =>
    cases c with
    | red => exact ⟨rfl, fun d => (h d).2⟩
    | black => exact absurd rfl hc

theorem mode_double {s : InsertState α} {ctx : Ctx α} {t : BinTree α} {a : Nat} {w : α}
    {k : Side → BinTree α} {d : Side} (hctx : ctx ≠ []) (ht : t = .node a .red w k)
    (hd : dirOf compare v w = d) (hq : Quiet (k d)) :
    Mode compare v s ctx t (2 * (k d).size + 2) := by
  subst ht hd
  exact .double hctx hq

/-- **A round that flips colours**, and repairs the violation it may make. -/
theorem Round.flip {s : InsertState α} {ctx : Ctx α} {a : Nat} {c : Colour}
    {w : α} {k : Side → BinTree α} {need : Nat} (h : Round compare n v L A s ctx (.node a c w k) need)
    (hk : ∀ d, ¬ (k d).NotRed) :
    ∃ s' ctx' t', ∃ need' < need, Round compare n v L A s' ctx' t' need' ∧
      ∀ fuel, insertLoop compare n (fuel + 1) s = insertLoop compare n fuel s' := by
  obtain ⟨mem₁, hplace, hloose, hsame₁⟩ := insertPlace_flip (n := n) h.fits h.ptrs hk
  have hquiet : ∀ d, Quiet (blacken (k d)) := fun d => by
    obtain ⟨b, hb, -⟩ := h.fits.rb
    obtain ⟨m, hm⟩ := hb.kid d
    exact quiet_blacken hm (hk d)
  have hsize := fun d => BinTree.size_kid a c w k d
  have hn₁ : mem₁ n = clRbnodeInit v := (hsame₁ n h.fresh).trans h.node
  -- A quiet node has no red kid, and neither has a red one.
  obtain ⟨above, t_eq, passed, rfl⟩ :
      Above s ctx ∧ s.t = top froot (ctx.drop 2) ∧ Passed ctx (.node a c w k) ∧
        need = 2 * (BinTree.node a c w k).size + 1 := by
    obtain ⟨b, hb, -⟩ := h.fits.rb
    cases h.mode with
    | normal above t_eq passed => exact ⟨above, t_eq, passed, rfl⟩
    | safe _ _ quiet => exact absurd (quiet.2 .left) (hk .left)
    | double _ _ => exact absurd (hb .left).2 (hk .left)
  have hnotQuiet : ¬ Quiet (.node a c w k) := fun hq => hk .left (hq.2 .left)
  by_cases htop : TopNotRed ctx
  · -- no violation
    refine h.go h.ne_node hplace (insertFix_skip hloose.layout h.ptrs.p (Or.inl htop)) hsame₁
      ⟨hloose, Or.inl htop⟩ h.onPath ?_ (.normal (above_advance h.ptrs.p h.ptrs.dir)
        (t_advance above fun hl => ?_) ?_)
    · have := hsize (dirOf compare v w)
      rw [size_blacken]
      omega
    · rw [t_eq, List.drop_eq_nil_of_le (by omega)]
      rfl
    · cases ctx with
      | nil => exact ⟨Or.inl (notRed_blacken _), Or.inr (hquiet _)⟩
      | cons f ctx => exact ⟨Or.inl (notRed_blacken _), Or.inr (Or.inr (hquiet _))⟩
  · match ctx, h, htop, passed, above, t_eq, hloose with
    | [], _, htop, _, _, _, _ => exact absurd trivial htop
    | [f], _, htop, passed, _, _, _ => exact absurd (passed.2.resolve_right hnotQuiet) htop
    | f :: g :: ctx, h, htop, passed, above, t_eq, hloose =>
      have hf : f.c = .red := by
        cases hfc : f.c with
        | red => rfl
        | black => exact absurd hfc htop
      have hunc : g.sib.NotRed := (passed.2.resolve_left htop).resolve_right hnotQuiet
      have hlast : s.last = g.side := above.last g rfl
      by_cases hside : f.side = g.side
      · obtain ⟨mem₂, hfix, hsame₂, hloose₂⟩ :=
          insertFix_single hloose hf hunc h.ptrs.p above.g t_eq hlast hside
        have hpath := List.forall_mem_cons.mp h.onPath
        refine h.go h.ne_node hplace hfix (hsame₁.trans hsame₂) ⟨hloose₂, Or.inl rfl⟩
          (List.forall_mem_cons.mpr ⟨hpath.1, (List.forall_mem_cons.mp hpath.2).2⟩) ?_
          (.safe (above_advance h.ptrs.p (by simpa using h.ptrs.dir)) (by simp) (hquiet _))
        have := hsize (dirOf compare v w)
        rw [size_blacken]
        omega
      · obtain ⟨mem₂, hfix, hsame₂, hloose₂⟩ :=
          insertFix_double hloose hf hunc h.ptrs.p above.g t_eq hlast hside
        have hsf : dirOf compare v f.v = g.side.other := by
          rw [h.onPath f List.mem_cons_self]
          exact Side.eq_other_of_ne hside
        have hsg : dirOf compare v g.v = g.side := 
          h.onPath g (List.mem_cons_of_mem _ List.mem_cons_self)
        have hpath : OnPath compare v ctx := fun f hf => h.onPath f (by simp [hf])
        -- Whichever of parent and grandparent is next, the search turns to a kid of `q`.
        rcases Side.eq_or_other g.side (dirOf compare v w) with hd | hd
        · refine h.go h.ne_node hplace hfix (hsame₁.trans hsame₂) ⟨hloose₂, Or.inr rfl⟩ hpath ?_
            (mode_double (List.cons_ne_nil _ _) (by rw [hd, kids_self]) hsf ?_)
          · rw [kids_other, size_blacken]
            have := hsize g.side
            omega
          · rw [kids_other]
            exact hquiet _
        · refine h.go h.ne_node hplace hfix (hsame₁.trans hsame₂) ⟨hloose₂, Or.inr rfl⟩ hpath ?_
            (mode_double (List.cons_ne_nil _ _) (by rw [hd, kids_other]) hsg ?_)
          · rw [kids_self, size_blacken]
            have := hsize g.side.other
            omega
          · rw [kids_self]
            exact hquiet _

/-- **The last round** hangs the new node and repairs the violation it may make. -/
theorem Round.leaf [Std.TransCmp compare] {s : InsertState α} {ctx : Ctx α} {need : Nat}
    (h : Round compare n v L A s ctx .nil need) :
    ∃ mem t, (∀ fuel, insertLoop compare n (fuel + 1) s = some mem) ∧
      Inserted compare n v L A mem t := by
  obtain ⟨above, t_eq, passed⟩ :
      Above s ctx ∧ s.t = top froot (ctx.drop 2) ∧ Passed ctx (.nil : BinTree α) := by
    cases h.mode with
    | normal above t_eq passed => exact ⟨above, t_eq, passed⟩
    | safe _ _ quiet => exact absurd quiet id
  have hL : L = lefts ctx ++ rights ctx := by simpa [BinTree.inorder] using h.fits.order.symm
  cases ctx with
  | nil => exact absurd rfl (h.root rfl).2
  | cons f ctx =>
    have hsearch : Sorted compare (lefts (f :: ctx) ++ rights (f :: ctx)) →
        (∀ x ∈ lefts (f :: ctx), compare x v = .lt) ∧
          ∀ x ∈ rights (f :: ctx), compare x v ≠ .lt := fun hs => by
      have := h.fits.search h.onPath (by rw [hL]; exact hs)
      exact ⟨this.lefts, this.rights⟩
    obtain ⟨mem₁, hplace, hloose⟩ := insertPlace_nil h.fits h.ptrs h.node h.fresh
    rw [hL]
    by_cases htop : f.c = .black
    · exact ⟨mem₁, _, fun _ => insertLoop_stop hplace
        (insertFix_skip hloose.layout h.ptrs.p (Or.inl htop)),
        inserted_whole ⟨hloose, Or.inl htop⟩ hsearch⟩
    · have hf : f.c = .red := by
        cases hfc : f.c with
        | red => rfl
        | black => exact absurd hfc htop
      cases ctx with
      | nil => exact absurd passed.2 (by simp [htop, Quiet])
      | cons g ctx =>
        have hunc : g.sib.NotRed := (passed.2.resolve_left htop).resolve_right id
        have hlast : s.last = g.side := above.last g rfl
        by_cases hside : f.side = g.side
        · obtain ⟨mem₂, hfix, -, hloose₂⟩ :=
            insertFix_single hloose hf hunc h.ptrs.p above.g t_eq hlast hside
          exact ⟨mem₂, _, fun _ => insertLoop_stop hplace hfix,
            inserted_whole ⟨hloose₂, Or.inl rfl⟩ hsearch⟩
        · obtain ⟨mem₂, hfix, -, hloose₂⟩ :=
            insertFix_double hloose hf hunc h.ptrs.p above.g t_eq hlast hside
          exact ⟨mem₂, _, fun _ => insertLoop_stop hplace hfix,
            inserted_whole ⟨hloose₂, Or.inr rfl⟩ hsearch⟩

theorem Mode.pos {s : InsertState α} {ctx : Ctx α} {t : BinTree α} {need : Nat}
    (h : Mode compare v s ctx t need) : 0 < need := by
  cases h <;> omega

/-- **The loop hangs the new node**, given fuel for the rounds it may need. -/
theorem insertLoop_spec [Std.TransCmp compare] :
    ∀ {fuel : Nat} {s : InsertState α} {ctx : Ctx α} {t : BinTree α} {need : Nat},
      Round compare n v L A s ctx t need → need ≤ fuel →
        ∃ mem t, insertLoop compare n fuel s = some mem ∧ Inserted compare n v L A mem t
  | 0, _, _, _, _, h, hle => absurd h.mode.pos (by omega)
  | fuel + 1, s, ctx, .nil, need, h, _ => by
    obtain ⟨mem, t, hrun, hins⟩ := h.leaf
    exact ⟨mem, t, hrun fuel, hins⟩
  | fuel + 1, s, ctx, .node a c w k, need, h, hle => by
    obtain ⟨s', ctx', t', need', hlt, h', hstep⟩ :
        ∃ s' ctx' t', ∃ need' < need, Round compare n v L A s' ctx' t' need' ∧
          ∀ fuel, insertLoop compare n (fuel + 1) s = insertLoop compare n fuel s' := by
      by_cases hk : ∃ d, (k d).NotRed
      · exact h.pass hk
      · exact h.flip fun d hd => hk ⟨d, hd⟩
    rw [hstep]
    exact insertLoop_spec h' (by omega)

end Protozoa.Clump
