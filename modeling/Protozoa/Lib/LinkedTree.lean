import Mathlib.Logic.Function.Basic
import Mathlib.Data.List.Basic

/-!
# Binary trees linked in memory

A memory is a map from addresses to cells; a cell has a colour, two links and a value. `BinTree` is
the shape a set of cells spells out (each node with its own address), `Frame` one step of the path
from a hole up to the anchor cell, and `Stored` / `CtxStored` say that a memory holds a tree, or a
path of frames above a hole whose root is given. The anchor is a cell outside the tree whose right
link is the root, so a path never has to treat the root apart.

* `Stored.congr` / `CtxStored.congr`: only the cells of a tree (of a path) matter to it.
* `ctxStored_link`: writing the link of the hole replaces what hangs in it and nothing else.
* `inorder_plug`, `lefts`, `rights`: the values before and after the hole in order; a rotation on
  the path is an exchange of frames with the same `lefts` and `rights`.
* `ctxStored_setAt`, `lefts_setUp`, `rights_setUp`: writing the value of a node on the path, as a
  removal does that moves a value up.

Sides and colours are inductive types; a lemma that holds for both sides is stated once, with
`Side.other`.
-/

namespace Lib.LinkedTree

inductive Side where
  | left
  | right
  deriving DecidableEq, Repr

/-- The opposite side. -/
def Side.other : Side → Side
  | .left => .right
  | .right => .left

@[simp] theorem Side.other_left : Side.left.other = .right := rfl
@[simp] theorem Side.other_right : Side.right.other = .left := rfl
@[simp] theorem Side.other_other (d : Side) : d.other.other = d := by cases d <;> rfl
@[simp] theorem Side.other_ne (d : Side) : d.other ≠ d := by cases d <;> decide
@[simp] theorem Side.ne_other (d : Side) : d ≠ d.other := by cases d <;> decide

theorem Side.eq_or_other (d e : Side) : e = d ∨ e = d.other := by
  cases d <;> cases e <;> simp

theorem Side.eq_other_of_ne {d e : Side} (h : e ≠ d) : e = d.other :=
  (Side.eq_or_other d e).resolve_left h

theorem Side.forall_iff {P : Side → Prop} (d : Side) : (∀ e, P e) ↔ P d ∧ P d.other :=
  ⟨fun h => ⟨h _, h _⟩, fun h e => by rcases Side.eq_or_other d e with rfl | rfl; exacts [h.1, h.2]⟩

inductive Colour where
  | black
  | red
  deriving DecidableEq, Repr

/-- One cell of memory. -/
structure Cell (α : Type) where
  colour : Colour
  link : Side → Option Nat
  value : Option α

/-- A memory of cells. -/
structure Mem (α : Type) where
  cell : Nat → Cell α

instance (α : Type) : CoeFun (Mem α) fun _ => Nat → Cell α := ⟨Mem.cell⟩

/-- Overwrite one cell. -/
def Mem.write {α : Type} (mem : Mem α) (a : Nat) (c : Cell α) : Mem α :=
  ⟨fun x => if x = a then c else mem x⟩

@[simp] theorem Mem.write_self {α : Type} (mem : Mem α) (a : Nat) (c : Cell α) :
    mem.write a c a = c := if_pos rfl

@[simp] theorem Mem.write_ne {α : Type} (mem : Mem α) {a x : Nat} (c : Cell α) (h : x ≠ a) :
    mem.write a c x = mem x := if_neg h

/-- A tree whose nodes know their addresses. -/
inductive BinTree (α : Type) where
  | nil
  | node (a : Nat) (c : Colour) (v : α) (kids : Side → BinTree α)

variable {α : Type}

namespace BinTree

/-- The address of the root, `none` for the empty tree. -/
def root : BinTree α → Option Nat
  | nil => none
  | node a _ _ _ => some a

/-- The values in order. -/
def inorder : BinTree α → List α
  | nil => []
  | node _ _ v kids => (kids .left).inorder ++ v :: (kids .right).inorder

/-- The addresses the tree occupies. -/
def addrs : BinTree α → List Nat
  | nil => []
  | node a _ _ kids => a :: ((kids .left).addrs ++ (kids .right).addrs)

def size : BinTree α → Nat
  | nil => 0
  | node _ _ _ kids => (kids .left).size + (kids .right).size + 1

def NotRed : BinTree α → Prop
  | nil => True
  | node _ c _ _ => c = .black

@[simp] theorem root_nil : (nil : BinTree α).root = none := rfl
@[simp] theorem root_node (a : Nat) (c : Colour) (v : α) (k : Side → BinTree α) :
    (node a c v k).root = some a := rfl
@[simp] theorem notRed_nil : (nil : BinTree α).NotRed := trivial
@[simp] theorem notRed_node (a : Nat) (c : Colour) (v : α) (k : Side → BinTree α) :
    (node a c v k).NotRed ↔ c = .black := Iff.rfl

theorem root_eq_none {t : BinTree α} : t.root = none ↔ t = nil := by cases t <;> simp

theorem root_mem {t : BinTree α} {a : Nat} (h : t.root = some a) : a ∈ t.addrs := by
  cases t with
  | nil => simp at h
  | node b c v k => simp only [root_node, Option.some.injEq] at h; simp [addrs, h]

theorem size_kid (a : Nat) (c : Colour) (v : α) (k : Side → BinTree α) (d : Side) :
    (k d).size < (node a c v k).size := by
  cases d <;> simp only [size] <;> omega

theorem length_inorder (t : BinTree α) : t.inorder.length = t.size := by
  induction t with
  | nil => rfl
  | node a c v k ih =>
    rw [inorder, size, List.length_append, List.length_cons, ih, ih, Nat.add_assoc]

theorem mem_addrs_kid {a : Nat} {c : Colour} {v : α} {k : Side → BinTree α} (d : Side) {x : Nat}
    (h : x ∈ (k d).addrs) : x ∈ (node a c v k).addrs := by
  cases d <;> simp [addrs, h]

/-- Both kids, listed from a given side. -/
theorem addrs_perm (a : Nat) (c : Colour) (v : α) (k : Side → BinTree α) (d : Side) :
    (node a c v k).addrs.Perm (a :: ((k d).addrs ++ (k d.other).addrs)) := by
  cases d with
  | left => exact List.Perm.refl _
  | right => exact List.perm_append_comm.cons a

end BinTree

/-- The two kids of a node, `x` on side `d` and `y` on the other. -/
def kids (d : Side) (x y : BinTree α) : Side → BinTree α := fun e => if e = d then x else y

@[simp] theorem kids_self (d : Side) (x y : BinTree α) : kids d x y d = x := if_pos rfl
@[simp] theorem kids_other (d : Side) (x y : BinTree α) : kids d x y d.other = y :=
  if_neg (Side.other_ne d)

theorem kids_eq (d : Side) (k : Side → BinTree α) : kids d (k d) (k d.other) = k := by
  funext e
  unfold kids
  by_cases h : e = d
  · rw [if_pos h, h]
  · rw [if_neg h, Side.eq_other_of_ne h]

theorem kids_swap (d : Side) (x y : BinTree α) : kids d.other x y = kids d y x := by
  funext e
  cases d <;> cases e <;> rfl

theorem mem_addrs_kids {a : Nat} {c : Colour} {v : α} {d : Side} {x y : BinTree α} {z : Nat} :
    z ∈ (BinTree.node a c v (kids d x y)).addrs ↔ z = a ∨ z ∈ x.addrs ∨ z ∈ y.addrs := by
  rw [(BinTree.addrs_perm a c v _ d).mem_iff]
  simp

theorem nodup_addrs_kids {a : Nat} {c : Colour} {v : α} {d : Side} {x y : BinTree α} :
    (BinTree.node a c v (kids d x y)).addrs.Nodup ↔
      (a ∉ x.addrs ∧ a ∉ y.addrs) ∧ x.addrs.Nodup ∧ y.addrs.Nodup ∧
        ∀ z ∈ x.addrs, z ∉ y.addrs := by
  rw [(BinTree.addrs_perm a c v _ d).nodup_iff]
  simp only [kids_self, kids_other, List.nodup_cons, List.mem_append, not_or, List.nodup_append]
  grind

/-- The tree is laid out in memory. -/
def Stored (mem : Mem α) : BinTree α → Prop
  | .nil => True
  | .node a c v kids => mem a = ⟨c, fun d => (kids d).root, some v⟩ ∧ ∀ d, Stored mem (kids d)

theorem Stored.congr {mem mem' : Mem α} : ∀ {t : BinTree α}, Stored mem t →
    (∀ x ∈ t.addrs, mem' x = mem x) → Stored mem' t
  | .nil, _, _ => trivial
  | .node a _ _ _, h, e =>
    ⟨(e a List.mem_cons_self).trans h.1,
      fun d => (h.2 d).congr fun x hx => e x (BinTree.mem_addrs_kid d hx)⟩

theorem stored_kids {mem : Mem α} {a : Nat} {c : Colour} {v : α} {d : Side} {x y : BinTree α} :
    Stored mem (.node a c v (kids d x y)) ↔
      mem a = ⟨c, fun e => (kids d x y e).root, some v⟩ ∧ Stored mem x ∧ Stored mem y := by
  simp only [Stored, Side.forall_iff d, kids_self, kids_other]

/-- The value at an address gives way to another one. -/
def BinTree.replace (b : Nat) (w : α) : BinTree α → BinTree α
  | nil => nil
  | node a c v kids => node a c (if a = b then w else v) fun d => (kids d).replace b w

namespace BinTree

variable {b : Nat} {w : α} {t : BinTree α}

@[simp] theorem root_replace : (t.replace b w).root = t.root := by cases t <;> rfl

@[simp] theorem notRed_replace : (t.replace b w).NotRed ↔ t.NotRed := by cases t <;> rfl

@[simp] theorem addrs_replace : (t.replace b w).addrs = t.addrs := by
  induction t with
  | nil => rfl
  | node a c v k ih => rw [replace, addrs, addrs, ih, ih]

theorem replace_of_not_mem (h : b ∉ t.addrs) : t.replace b w = t := by
  induction t with
  | nil => rfl
  | node a c v k ih =>
    have hne : a ≠ b := fun heq => h (heq ▸ List.mem_cons_self)
    rw [replace, if_neg hne]
    exact congrArg _ (funext fun d => ih d fun hb => h (mem_addrs_kid d hb))

end BinTree

/-- One step of the path above a hole: the node at `a`, the hole on `side`, `sib` on the other. -/
structure Frame (α : Type) where
  a : Nat
  c : Colour
  v : α
  side : Side
  sib : BinTree α

/-- The node a frame and the tree in its hole make. -/
def Frame.fill (f : Frame α) (t : BinTree α) : BinTree α :=
  .node f.a f.c f.v (kids f.side t f.sib)

/-- The frame left by taking the kid on side `d` out of a node. -/
def Frame.ofNode (a : Nat) (c : Colour) (v : α) (k : Side → BinTree α) (d : Side) : Frame α :=
  ⟨a, c, v, d, k d.other⟩

theorem Frame.fill_ofNode (a : Nat) (c : Colour) (v : α) (k : Side → BinTree α) (d : Side) :
    (Frame.ofNode a c v k d).fill (k d) = .node a c v k := by
  unfold Frame.fill Frame.ofNode
  rw [kids_eq]

/-- A path from a hole up to the anchor, innermost frame first. -/
abbrev Ctx (α : Type) := List (Frame α)

/-- The whole tree: the path with `t` in its hole. -/
def plug : Ctx α → BinTree α → BinTree α
  | [], t => t
  | f :: ctx, t => plug ctx (f.fill t)

/-- The values before the hole. -/
def lefts : Ctx α → List α
  | [] => []
  | f :: ctx =>
    match f.side with
    | .left => lefts ctx
    | .right => lefts ctx ++ (f.sib.inorder ++ [f.v])

/-- The values after the hole. -/
def rights : Ctx α → List α
  | [] => []
  | f :: ctx =>
    match f.side with
    | .left => f.v :: (f.sib.inorder ++ rights ctx)
    | .right => rights ctx

theorem inorder_plug : ∀ (ctx : Ctx α) (t : BinTree α),
    (plug ctx t).inorder = lefts ctx ++ t.inorder ++ rights ctx
  | [], t => by simp [plug, lefts, rights]
  | ⟨a, c, v, side, sib⟩ :: ctx, t => by
    rw [plug, inorder_plug ctx]
    cases side <;> simp [Frame.fill, kids, BinTree.inorder, lefts, rights]

/-- The addresses a path occupies, the anchor's included. -/
def ctxAddrs (anchor : Nat) : Ctx α → List Nat
  | [] => [anchor]
  | f :: ctx => f.a :: (f.sib.addrs ++ ctxAddrs anchor ctx)

theorem plug_addrs (anchor : Nat) : ∀ (ctx : Ctx α) (t : BinTree α),
    (anchor :: (plug ctx t).addrs).Perm (t.addrs ++ ctxAddrs anchor ctx)
  | [], t => by
    simp only [plug, ctxAddrs]
    exact @List.perm_append_comm _ [anchor] t.addrs
  | f :: ctx, t => by
    refine (plug_addrs anchor ctx (f.fill t)).trans ?_
    refine ((BinTree.addrs_perm f.a f.c f.v _ f.side).append_right _).trans ?_
    simp only [kids_self, kids_other, ctxAddrs, List.cons_append]
    rw [List.append_assoc]
    exact List.perm_middle.symm

/-- A value in the hole gives way to another one. -/
theorem replace_plug {anchor b : Nat} (w : α) {ctx : Ctx α} {t : BinTree α} (h : b ∉ ctxAddrs anchor ctx) :
    (plug ctx t).replace b w = plug ctx (t.replace b w) := by
  induction ctx generalizing t with
  | nil => rfl
  | cons f ctx ih =>
    simp only [ctxAddrs, List.mem_cons, List.mem_append, not_or] at h
    obtain ⟨hne, hsib, hctx⟩ := h
    have hkids : (fun d => (kids f.side t f.sib d).replace b w) = kids f.side (t.replace b w) f.sib := by
      funext d
      unfold kids
      split
      · rfl
      · exact BinTree.replace_of_not_mem hsib
    rw [plug, plug, ih hctx, Frame.fill, BinTree.replace, if_neg (Ne.symm hne), hkids]
    rfl

/-- The address of the node above the hole: the innermost frame's, or the anchor's. -/
def top (anchor : Nat) : Ctx α → Nat
  | [] => anchor
  | f :: _ => f.a

/-- The side of that node the hole hangs on. -/
def holeSide : Ctx α → Side
  | [] => .right
  | f :: _ => f.side

theorem top_mem (anchor : Nat) : ∀ ctx : Ctx α, top anchor ctx ∈ ctxAddrs anchor ctx
  | [] => List.mem_singleton.mpr rfl
  | _ :: _ => List.mem_cons_self

/-- The path is laid out in memory above a hole whose root is `h`. -/
def CtxStored (mem : Mem α) (anchor : Nat) : Ctx α → Option Nat → Prop
  | [], h => mem anchor = ⟨.black, fun d => if d = .right then h else none, none⟩
  | f :: ctx, h =>
    mem f.a = ⟨f.c, fun d => if d = f.side then h else f.sib.root, some f.v⟩ ∧
      Stored mem f.sib ∧ CtxStored mem anchor ctx (some f.a)

theorem CtxStored.congr {mem mem' : Mem α} {anchor : Nat} : ∀ {ctx : Ctx α} {h : Option Nat},
    CtxStored mem anchor ctx h → (∀ x ∈ ctxAddrs anchor ctx, mem' x = mem x) →
      CtxStored mem' anchor ctx h
  | [], _, hs, e => (e anchor (List.mem_singleton.mpr rfl)).trans hs
  | f :: ctx, _, hs, e =>
    ⟨(e f.a List.mem_cons_self).trans hs.1,
      hs.2.1.congr fun x hx => e x (by simp [ctxAddrs, hx]),
      hs.2.2.congr fun x hx => e x (by simp [ctxAddrs, hx])⟩

theorem ctxStored_top {mem : Mem α} {anchor : Nat} {ctx : Ctx α} {h : Option Nat}
    (hs : CtxStored mem anchor ctx h) : (mem (top anchor ctx)).link (holeSide ctx) = h := by
  cases ctx with
  | nil => simp [CtxStored] at hs; simp [top, holeSide, hs]
  | cons f ctx => simp [CtxStored] at hs; simp [top, holeSide, hs.1]

/-- **Writing the link of the hole** hangs another tree there; the rest of the path stands. -/
theorem ctxStored_link {mem mem' : Mem α} {anchor : Nat} {ctx : Ctx α} {h h' : Option Nat}
    (hs : CtxStored mem anchor ctx h) (hnd : (ctxAddrs anchor ctx).Nodup)
    (htop : mem' (top anchor ctx) = { mem (top anchor ctx) with
      link := Function.update (mem (top anchor ctx)).link (holeSide ctx) h' })
    (hrest : ∀ x ∈ ctxAddrs anchor ctx, x ≠ top anchor ctx → mem' x = mem x) :
    CtxStored mem' anchor ctx h' := by
  cases ctx with
  | nil =>
    simp only [CtxStored, top, holeSide] at *
    rw [htop, hs]
    congr 1
    funext d
    cases d <;> simp [Function.update]
  | cons f ctx =>
    simp only [CtxStored, top, holeSide, ctxAddrs, List.nodup_cons, List.mem_cons] at *
    have hne : ∀ x ∈ f.sib.addrs ++ ctxAddrs anchor ctx, mem' x = mem x := fun x hx =>
      hrest x (Or.inr hx) (fun e => hnd.1 (e ▸ hx))
    refine ⟨?_, hs.2.1.congr fun x hx => hne x (List.mem_append_left _ hx),
      hs.2.2.congr fun x hx => hne x (List.mem_append_right _ hx)⟩
    rw [htop, hs.1]
    congr 1
    funext d
    by_cases hd : d = f.side <;> simp [Function.update, hd]

/-- The next node after the hole in order: the innermost one whose hole is on the left. -/
def nextUp : Ctx α → Option (Nat × α)
  | [] => none
  | f :: ctx => if f.side = .left then some (f.a, f.v) else nextUp ctx

theorem nextUp_rights : ∀ {ctx : Ctx α} {x : Nat × α}, nextUp ctx = some x →
    ∃ rest, rights ctx = x.2 :: rest
  | f :: ctx, x, h => by
    unfold nextUp at h
    split at h
    · rename_i hs
      obtain rfl := Option.some.inj h
      exact ⟨f.sib.inorder ++ rights ctx, by simp [rights, hs]⟩
    · rename_i hs
      obtain ⟨rest, hr⟩ := nextUp_rights h
      exact ⟨rest, by simp [rights, Side.eq_other_of_ne hs, hr]⟩

theorem nextUp_eq_none : ∀ {ctx : Ctx α}, nextUp ctx = none → rights ctx = []
  | [], _ => rfl
  | f :: ctx, h => by
    unfold nextUp at h
    split at h
    · cases h
    · rename_i hs
      simp [rights, Side.eq_other_of_ne hs, nextUp_eq_none h]

/-- A frame slipped in above another one of the same side hides below it. -/
theorem nextUp_twin {f g : Frame α} {ctx : Ctx α} (h : f.side = g.side) :
    nextUp (f :: g :: ctx) = nextUp (f :: ctx) := by
  simp only [nextUp, ← h]
  split <;> rfl

/-- Write another value into the next node after the hole. -/
def setUp (v : α) : Ctx α → Ctx α
  | [] => []
  | f :: ctx => if f.side = .left then { f with v := v } :: ctx else f :: setUp v ctx

theorem lefts_setUp (v : α) : ∀ ctx : Ctx α, lefts (setUp v ctx) = lefts ctx
  | [] => rfl
  | f :: ctx => by
    unfold setUp
    split
    · rename_i hs
      simp only [lefts, hs]
    · simp only [lefts, lefts_setUp v ctx]

theorem rights_setUp (v : α) : ∀ ctx : Ctx α,
    rights (setUp v ctx) = (rights ctx).modifyHead fun _ => v
  | [] => rfl
  | f :: ctx => by
    unfold setUp
    split
    · rename_i hs
      simp [rights, hs]
    · rename_i hs
      simp [rights, Side.eq_other_of_ne hs, rights_setUp v ctx]

theorem nextUp_frame : ∀ {ctx : Ctx α} {x : Nat × α}, nextUp ctx = some x →
    ∃ f ∈ ctx, f.a = x.1 ∧ f.v = x.2
  | f :: ctx, x, h => by
    unfold nextUp at h
    split at h
    · obtain rfl := Option.some.inj h
      exact ⟨f, List.mem_cons_self, rfl, rfl⟩
    · obtain ⟨f', hf', hx⟩ := nextUp_frame h
      exact ⟨f', List.mem_cons_of_mem _ hf', hx⟩

/-- The last node before the hole gives its value to the next node after the hole; its own cell
then drops out of the order. -/
theorem setUp_last {f : Frame α} {ctx : Ctx α} {x : Nat × α} (hsib : f.sib = .nil)
    (hx : nextUp (f :: ctx) = some x) : ∃ ctx', setUp f.v (f :: ctx) = f :: ctx' ∧
      lefts ctx' ++ rights ctx' = lefts (f :: ctx) ++ (rights (f :: ctx)).tail := by
  obtain ⟨p, c, v, side, sib⟩ := f
  obtain rfl : sib = .nil := hsib
  cases side with
  | left => exact ⟨ctx, rfl, by simp [lefts, rights, BinTree.inorder]⟩
  | right =>
    refine ⟨setUp v ctx, rfl, ?_⟩
    obtain ⟨rest, hr⟩ := nextUp_rights hx
    simp only [rights] at hr
    simp [lefts, rights, lefts_setUp, rights_setUp, BinTree.inorder, hr]

/-! ## Writing a value on the path -/

/-- Write another value into the frame at `a`. -/
def setAt (a : Nat) (v : α) (ctx : Ctx α) : Ctx α :=
  ctx.map fun f => if f.a = a then { f with v := v } else f

theorem setAt_of_notMem {a : Nat} {v : α} {ctx : Ctx α} (h : ∀ f ∈ ctx, f.a ≠ a) :
    setAt a v ctx = ctx := by
  refine (List.map_congr_left fun f hf => ?_).trans (List.map_id ctx)
  rw [if_neg (h f hf), id]

/-- The last node before the hole gives its value away. -/
theorem setAt_last (a : Nat) (f : Frame α) (ctx : Ctx α) :
    setAt a f.v (f :: ctx) = f :: setAt a f.v ctx := by
  simp only [setAt, List.map_cons, ite_self]

theorem ctxAddrs_setAt (anchor a : Nat) (v : α) : ∀ ctx : Ctx α,
    ctxAddrs anchor (setAt a v ctx) = ctxAddrs anchor ctx
  | [] => rfl
  | f :: ctx => by
    have hrest := ctxAddrs_setAt anchor a v ctx
    unfold setAt at hrest
    simp only [setAt, List.map_cons, ctxAddrs, hrest]
    split <;> rfl

theorem top_setAt (anchor a : Nat) (v : α) (ctx : Ctx α) :
    top anchor (setAt a v ctx) = top anchor ctx := by
  cases ctx with
  | nil => rfl
  | cons f ctx =>
    simp only [setAt, List.map_cons]
    split <;> rfl

theorem frame_mem_ctxAddrs {anchor : Nat} {f : Frame α} : ∀ {ctx : Ctx α}, f ∈ ctx →
    f.a ∈ ctxAddrs anchor ctx
  | g :: ctx, h => by
    rcases List.mem_cons.mp h with rfl | h
    · exact List.mem_cons_self
    · exact List.mem_cons_of_mem _ (List.mem_append_right _ (frame_mem_ctxAddrs h))

/-- The next node after the hole is a frame of its own. -/
theorem setUp_eq_setAt {v : α} {x : Nat × α} {anchor : Nat} : ∀ {ctx : Ctx α},
    (ctxAddrs anchor ctx).Nodup → nextUp ctx = some x → setUp v ctx = setAt x.1 v ctx
  | f :: ctx, hnd, hx => by
    simp only [ctxAddrs, List.nodup_cons, List.nodup_append, List.mem_append, not_or] at hnd
    have hdis : ∀ g ∈ ctx, g.a ≠ f.a := fun g hg e => hnd.1.2 (e ▸ frame_mem_ctxAddrs hg)
    unfold nextUp at hx
    unfold setUp
    split at hx
    · rename_i hleft
      obtain rfl := Option.some.inj hx
      have hrest := setAt_of_notMem (v := v) hdis
      unfold setAt at hrest
      simp only [if_pos hleft, setAt, List.map_cons, if_true, hrest]
    · rename_i hleft
      obtain ⟨g, hg, hga, -⟩ := nextUp_frame hx
      have hne : f.a ≠ x.1 := fun e => hdis g hg (hga.trans e.symm)
      rw [if_neg hleft, setUp_eq_setAt hnd.2.2.1 hx]
      simp only [setAt, List.map_cons, if_neg hne]

/-- **Writing a value on the path**, in memory. -/
theorem ctxStored_setAt {mem mem' : Mem α} {anchor a : Nat} {v : α} : ∀ {ctx : Ctx α}
    {h : Option Nat}, CtxStored mem anchor ctx h → (ctxAddrs anchor ctx).Nodup →
      (∃ f ∈ ctx, f.a = a) → mem' a = { mem a with value := some v } →
        (∀ y ∈ ctxAddrs anchor ctx, y ≠ a → mem' y = mem y) →
          CtxStored mem' anchor (setAt a v ctx) h
  | f :: ctx, h, hs, hnd, hx, hself, hrest => by
    simp only [ctxAddrs, List.nodup_cons, List.nodup_append, List.mem_append, not_or] at hnd
    obtain ⟨⟨hfs, hfc⟩, hnds, hndc, hdis⟩ := hnd
    by_cases hfa : f.a = a
    · subst hfa
      have hothers : ∀ g ∈ ctx, g.a ≠ f.a := fun g hg e => hfc (e ▸ frame_mem_ctxAddrs hg)
      have htail := setAt_of_notMem (v := v) hothers
      unfold setAt at htail
      simp only [setAt, List.map_cons, if_true, htail]
      have hne : ∀ y ∈ f.sib.addrs ++ ctxAddrs anchor ctx, mem' y = mem y := fun y hy =>
        hrest y (List.mem_cons_of_mem _ hy) fun e => by
          obtain rfl : y = f.a := e
          exact (List.mem_append.mp hy).elim hfs hfc
      refine ⟨?_, hs.2.1.congr fun y hy => hne y (List.mem_append_left _ hy),
        hs.2.2.congr fun y hy => hne y (List.mem_append_right _ hy)⟩
      rw [hself, hs.1]
    · have hx' : ∃ g ∈ ctx, g.a = a := by
        obtain ⟨g, hg, hga⟩ := hx
        rcases List.mem_cons.mp hg with rfl | hg
        · exact absurd hga hfa
        · exact ⟨g, hg, hga⟩
      have hmem : a ∈ ctxAddrs anchor ctx := by
        obtain ⟨g, hg, rfl⟩ := hx'
        exact frame_mem_ctxAddrs hg
      have htail := ctxStored_setAt hs.2.2 hndc hx' hself fun y hy => hrest y (by simp [ctxAddrs, hy])
      unfold setAt at htail
      simp only [setAt, List.map_cons, if_neg hfa]
      refine ⟨?_, hs.2.1.congr fun y hy => ?_, htail⟩
      · rw [hrest f.a List.mem_cons_self hfa, hs.1]
      · exact hrest y (by simp [ctxAddrs, hy]) fun e => hdis y hy a hmem e

theorem frame_value {mem : Mem α} {anchor : Nat} {f : Frame α} : ∀ {ctx : Ctx α} {h : Option Nat},
    CtxStored mem anchor ctx h → f ∈ ctx → (mem f.a).value = some f.v
  | g :: ctx, h, hs, hf => by
    rcases List.mem_cons.mp hf with rfl | hf
    · rw [hs.1]
    · exact frame_value hs.2.2 hf

end Lib.LinkedTree
