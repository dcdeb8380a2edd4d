import Protozoa.Clump.RbTree
import Protozoa.Lib.RedBlack

/-!
# The rotations

What the pointer writes of `cl_rbnode_rotate_single` (`rbtree.c:60-72`), `cl_rbnode_rotate_double`
(`rbtree.c:74-79`) and of a colour flip (`rbtree.c:127-129`) do to a tree laid out in memory
(`rotateSingle_stored`, `rotateDouble_stored`, `colourFlip_stored`, `setColor_stored`): the rotated
tree is laid out in the new memory, the returned pointer is its root, and every cell outside the
tree is as before (`Same`).

Both sides are one case: a rotation to the left is one to the right with `Side.other`.
-/

namespace Protozoa.Clump

open Lib.LinkedTree Lib.RedBlack

variable {α : Type}

/-- The memories agree outside `l`. -/
def Same (mem mem' : Mem α) (l : List Nat) : Prop := ∀ x, x ∉ l → mem' x = mem x

theorem Same.refl (mem : Mem α) (l : List Nat) : Same mem mem l := fun _ _ => rfl

theorem Same.trans {a b c : Mem α} {l : List Nat} (h₁ : Same a b l) (h₂ : Same b c l) :
    Same a c l := fun x hx => (h₂ x hx).trans (h₁ x hx)

theorem Same.mono {a b : Mem α} {l l' : List Nat} (h : Same a b l) (hl : ∀ x ∈ l, x ∈ l') :
    Same a b l' := fun x hx => h x fun hm => hx (hl x hm)

theorem same_write (mem : Mem α) {a : Nat} {l : List Nat} (h : a ∈ l) (c : Cell α) :
    Same mem (mem.write a c) l := fun _ hx => Mem.write_ne _ _ (fun e => hx (e ▸ h))

/-! ## Single cells -/

@[simp] theorem setColor_self (mem : Mem α) (n : Nat) (c : Colour) :
    setColor mem n c n = { mem n with colour := c } := Mem.write_self _ _ _

@[simp] theorem setColor_ne (mem : Mem α) {n x : Nat} (c : Colour) (h : x ≠ n) :
    setColor mem n c x = mem x := Mem.write_ne _ _ h

@[simp] theorem setLink_self (mem : Mem α) (n : Nat) (d : Side) (m : Option Nat) :
    setLink mem n d m n = { mem n with link := Function.update (mem n).link d m } :=
  Mem.write_self _ _ _

@[simp] theorem setLink_ne (mem : Mem α) {n x : Nat} (d : Side) (m : Option Nat) (h : x ≠ n) :
    setLink mem n d m x = mem x := Mem.write_ne _ _ h

@[simp] theorem setValue_self (mem : Mem α) (n : Nat) (v : Option α) :
    setValue mem n v n = { mem n with value := v } := Mem.write_self _ _ _

@[simp] theorem setValue_ne (mem : Mem α) {n x : Nat} (v : Option α) (h : x ≠ n) :
    setValue mem n v x = mem x := Mem.write_ne _ _ h

/-- The links of a laid-out node. -/
def linkOf (k : Side → BinTree α) : Side → Option Nat := fun d => (k d).root

theorem update_linkOf (d : Side) (x y z : BinTree α) :
    Function.update (linkOf (kids d x y)) d z.root = linkOf (kids d z y) := by
  funext e
  by_cases h : e = d
  · simp [Function.update, linkOf, h]
  · simp [Function.update, linkOf, kids, h]

theorem update_linkOf_other (d : Side) (x y z : BinTree α) :
    Function.update (linkOf (kids d x y)) d.other z.root = linkOf (kids d x z) := by
  have h := update_linkOf d.other y x z
  rwa [kids_swap, kids_swap] at h

theorem isRed_root {mem : Mem α} {t : BinTree α} (h : Stored mem t) :
    clRbnodeIsRed mem t.root = true ↔ ¬ t.NotRed := by
  cases t with
  | nil => simp [clRbnodeIsRed]
  | node a c v k => simp [clRbnodeIsRed, h.1]; cases c <;> decide

theorem isNotRed_root {mem : Mem α} {t : BinTree α} (h : Stored mem t) :
    clRbnodeIsNotRed mem t.root = true ↔ t.NotRed := by
  cases t with
  | nil => simp [clRbnodeIsNotRed]
  | node a c v k => simp [clRbnodeIsNotRed, h.1]; cases c <;> decide

/-! ## Trees -/

/-- Recolouring the root. -/
theorem setColor_stored {mem : Mem α} {a : Nat} {c c' : Colour} {v : α} {k : Side → BinTree α}
    (h : Stored mem (.node a c v k)) (hnd : (BinTree.node a c v k).addrs.Nodup) :
    Stored (setColor mem a c') (.node a c' v k) := by
  refine ⟨by simp [h.1], fun d => (h.2 d).congr fun x hx => setColor_ne _ _ ?_⟩
  rw [← kids_eq d k, nodup_addrs_kids] at hnd
  exact fun e => hnd.1.1 (e ▸ hx)

/-- Recolouring a cell elsewhere. -/
theorem setColor_apart {mem : Mem α} {t : BinTree α} {a : Nat} (h : Stored mem t) (ha : a ∉ t.addrs)
    (c : Colour) : Stored (setColor mem a c) t :=
  h.congr fun _ hx => setColor_ne _ _ fun e => ha (e ▸ hx)

/-- Turning the root black. -/
theorem blacken_stored {mem : Mem α} {t : BinTree α} {a : Nat} (h : Stored mem t)
    (hnd : t.addrs.Nodup) (ha : t.root = some a) : Stored (setColor mem a .black) (blacken t) := by
  cases t with
  | nil => trivial
  | node b c v k =>
    obtain rfl := Option.some.inj ha
    exact setColor_stored h hnd

/-- **A colour flip**: a node turns red and its two kids black. -/
theorem colourFlip_stored {mem : Mem α} {a l r : Nat} {c : Colour} {v : α} {k : Side → BinTree α}
    (h : Stored mem (.node a c v k)) (hnd : (BinTree.node a c v k).addrs.Nodup)
    (hl : (k .left).root = some l) (hr : (k .right).root = some r) :
    Stored (setColor (setColor (setColor mem a .red) l .black) r .black)
        (.node a .red v fun d => blacken (k d)) ∧
      Same mem (setColor (setColor (setColor mem a .red) l .black) r .black)
        (BinTree.node a c v k).addrs := by
  have hla := BinTree.root_mem hl
  have hra := BinTree.root_mem hr
  have hmem : ∀ d : Side, ∀ x ∈ (k d).addrs, x ∈ (BinTree.node a c v k).addrs := fun d _ =>
    BinTree.mem_addrs_kid d
  rw [← kids_eq .left k, nodup_addrs_kids] at hnd
  simp only [Side.other_left] at hnd
  obtain ⟨⟨hal, har⟩, hndl, hndr, hlr⟩ := hnd
  obtain ⟨hcell, hst⟩ := h
  have hne : a ≠ l ∧ a ≠ r ∧ l ≠ r := by grind
  refine ⟨⟨?_, (Side.forall_iff .left).mpr ⟨?_, ?_⟩⟩, fun x hx => ?_⟩
  · simp [hne.1, hne.2.1, hcell]
  · have hs : Stored (setColor mem a .red) (k .left) :=
      (hst .left).congr fun x hx => setColor_ne _ _ fun e => hal (e ▸ hx)
    refine (blacken_stored hs hndl hl).congr fun x hx => setColor_ne _ _ fun e => ?_
    rw [addrs_blacken] at hx
    exact hlr x hx (by rw [e]; exact hra)
  · refine blacken_stored ((hst .right).congr fun x hx => ?_) hndr hr
    have hxl : x ≠ l := fun e => hlr l hla (e ▸ hx)
    have hxa : x ≠ a := fun e => har (e ▸ hx)
    rw [setColor_ne _ _ hxl, setColor_ne _ _ hxa]
  · have hxl : x ≠ l := fun e => hx (e ▸ hmem .left l hla)
    have hxr : x ≠ r := fun e => hx (e ▸ hmem .right r hra)
    have hxa : x ≠ a := fun e => hx (e ▸ List.mem_cons_self)
    rw [setColor_ne _ _ hxr, setColor_ne _ _ hxl, setColor_ne _ _ hxa]

/-- `cl_rbnode_rotate_single`, cell by cell. -/
theorem rotateSingle_cells {mem : Mem α} {n m : Nat} {dir : Side}
    (hm : (mem n).link dir.other = some m) (hne : m ≠ n) :
    ∃ mem', clRbnodeRotateSingle mem n dir = some (mem', m) ∧
      mem' n = ⟨.red, Function.update (mem n).link dir.other ((mem m).link dir), (mem n).value⟩ ∧
      mem' m = ⟨.black, Function.update (mem m).link dir (some n), (mem m).value⟩ ∧
      Same mem mem' [n, m] := by
  refine ⟨_, by simp [clRbnodeRotateSingle, hm]; rfl, ?_, ?_, fun x hx => ?_⟩
  · simp [hne.symm]
  · simp [hne]
  · simp only [List.mem_cons, List.not_mem_nil, or_false, not_or] at hx
    simp [hx.1, hx.2]

/-- **A single rotation** brings the kid on `dir.other` up. -/
theorem rotateSingle_stored {mem : Mem α} {n m : Nat} {c c' : Colour} {v v' : α} {dir : Side}
    {A B C : BinTree α}
    (h : Stored mem (.node n c v (kids dir A (.node m c' v' (kids dir B C)))))
    (hnd : (BinTree.node n c v (kids dir A (.node m c' v' (kids dir B C)))).addrs.Nodup) :
    ∃ mem', clRbnodeRotateSingle mem n dir = some (mem', m) ∧
      Stored mem' (.node m .black v' (kids dir (.node n .red v (kids dir A B)) C)) ∧
      Same mem mem' [n, m] := by
  rw [stored_kids, stored_kids] at h
  obtain ⟨hn, hA, hm, hB, hC⟩ := h
  simp only [nodup_addrs_kids, mem_addrs_kids, not_or] at hnd
  obtain ⟨⟨hnA, hnm, hnB, hnC⟩, -, ⟨⟨hmB, hmC⟩, -, -, -⟩, hAm⟩ := hnd
  have hmA : m ∉ A.addrs := fun hx => (hAm m hx).1 rfl
  obtain ⟨mem', he, hn', hm', hs⟩ :=
    rotateSingle_cells (show (mem n).link dir.other = some m by rw [hn]; simp) (Ne.symm hnm)
  have keep : ∀ {t : BinTree α}, n ∉ t.addrs → m ∉ t.addrs → Stored mem t → Stored mem' t :=
    fun h1 h2 ht => ht.congr fun x hx => hs x (by
      simp only [List.mem_cons, List.not_mem_nil, or_false, not_or]
      exact ⟨fun e => h1 (e ▸ hx), fun e => h2 (e ▸ hx)⟩)
  refine ⟨mem', he, ?_, hs⟩
  rw [stored_kids, stored_kids]
  refine ⟨?_, ⟨?_, keep hnA hmA hA, keep hnB hmB hB⟩, keep hnC hmC hC⟩
  · rw [hm', hm]
    simp only [Cell.mk.injEq, true_and, and_true]
    exact update_linkOf dir B C (.node n .red v (kids dir A B))
  · rw [hn', hn, hm]
    simp only [Cell.mk.injEq, true_and, and_true]
    rw [kids_self]
    exact update_linkOf_other dir A (.node m c' v' (kids dir B C)) B

/-- Hanging another tree on one side of a node, whose cells were left alone by the other tree. -/
theorem setLink_stored {mem mem' : Mem α} {n : Nat} {c : Colour} {v : α} {d : Side}
    {A B B' : BinTree α} (h : Stored mem (.node n c v (kids d A B)))
    (hn : mem' n = mem n) (hA : ∀ x ∈ A.addrs, mem' x = mem x) (hB : Stored mem' B')
    (hnA : n ∉ A.addrs) (hnB : n ∉ B'.addrs) :
    Stored (setLink mem' n d.other B'.root) (.node n c v (kids d A B')) := by
  rw [stored_kids] at h ⊢
  obtain ⟨hcell, hsA, -⟩ := h
  have keep : ∀ {t : BinTree α}, n ∉ t.addrs → Stored mem' t →
      Stored (setLink mem' n d.other B'.root) t :=
    fun h1 ht => ht.congr fun x hx => setLink_ne _ _ _ fun e => h1 (e ▸ hx)
  refine ⟨?_, keep hnA (hsA.congr hA), keep hnB hB⟩
  rw [setLink_self, hn, hcell]
  simp only [Cell.mk.injEq, true_and, and_true]
  exact update_linkOf_other d A B B'

/-- **A double rotation** brings the inner grandkid up. -/
theorem rotateDouble_stored {mem : Mem α} {n m r : Nat} {c c₁ c₂ : Colour} {v v₁ v₂ : α}
    {dir : Side} {A B C D : BinTree α}
    (h : Stored mem (.node n c v (kids dir A
      (.node m c₁ v₁ (kids dir (.node r c₂ v₂ (kids dir B C)) D)))))
    (hnd : (BinTree.node n c v (kids dir A
      (.node m c₁ v₁ (kids dir (.node r c₂ v₂ (kids dir B C)) D)))).addrs.Nodup) :
    ∃ mem', clRbnodeRotateDouble mem n dir = some (mem', r) ∧
      Stored mem' (.node r .black v₂ (kids dir (.node n .red v (kids dir A B))
        (.node m .red v₁ (kids dir C D)))) ∧
      Same mem mem' [n, m, r] := by
  have hsub := (stored_kids.mp h).2.2
  have hlink : (mem n).link dir.other = some m := by rw [(stored_kids.mp h).1]; simp
  simp only [nodup_addrs_kids, mem_addrs_kids, not_or] at hnd
  -- The kid turns away from `dir`: its inner kid `r` comes up.
  have hkid : (BinTree.node m c₁ v₁ (kids dir.other D
      (.node r c₂ v₂ (kids dir.other C B)))).addrs.Nodup := by
    simp only [nodup_addrs_kids, mem_addrs_kids, not_or]
    grind
  obtain ⟨mem₁, he₁, hs₁, hsame₁⟩ :=
    rotateSingle_stored (by simpa only [kids_swap] using hsub) hkid
  have hs₁' : Stored mem₁ (.node r .black v₂ (kids dir B (.node m .red v₁ (kids dir C D)))) := by
    simpa only [kids_swap] using hs₁
  -- Then `r` hangs below `n`, and `n` turns toward `dir`.
  have hs₂ := setLink_stored h (hsame₁ n (by simp; grind))
    (fun x hx => hsame₁ x (by simp; grind)) hs₁' (by grind)
    (by simp only [mem_addrs_kids, not_or]; grind)
  obtain ⟨mem₃, he₃, hs₃, hsame₃⟩ := rotateSingle_stored hs₂ (by
    simp only [nodup_addrs_kids, mem_addrs_kids, not_or]
    grind)
  refine ⟨mem₃, ?_, hs₃, fun x hx => ?_⟩
  · simp only [clRbnodeRotateDouble, hlink, he₁, Option.bind_eq_bind, Option.bind_some]
    exact he₃
  · simp only [List.mem_cons, List.not_mem_nil, or_false, not_or] at hx
    rw [hsame₃ x (by simp; grind), setLink_ne _ _ _ hx.1, hsame₁ x (by simp; grind)]

end Protozoa.Clump
