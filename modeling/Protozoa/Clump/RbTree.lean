import Mathlib.Data.List.Sort
import Protozoa.Lib.LinkedTree

/-!
# The red-black tree of `rbtree.c`

Model of `clump.h` and `rbtree.c` at the level of the pointers. A node is a `Cell` (`color`,
`link[2]`, `value`, `rbtree.c:39-43`) in a memory `Nat → Cell`; `NULL` is `none`. Address `0` is the
local `froot` of `cl_rbtree_insert2` and `cl_rbtree_remove2`, so the pool never hands it out. The
loops run the C bodies statement by statement on the local pointers (`t`, `g`, `p`, `q`, `f`), which
are ordinary addresses and may go stale as they do in C; dereferencing `NULL` makes the run `none`.

* `clRbnodeRotateSingle`, `clRbnodeRotateDouble`: `rbtree.c:60-79`.
* `insertPlace`, `insertFix`, `insertDescend`, `insertLoop`: the two `if`s and the rest of the loop
  of `cl_rbtree_insert2` (`rbtree.c:107-153`).
* `clRbnodeFixRemove`, `removeStep`, `removeLoop`, `removeFound`: `cl_rbnode_fix_remove` and the
  loop of `cl_rbtree_remove2`, and what follows it (`rbtree.c:242-315`).
* `clRbtreePeek`, `clRbtreeForEach`: `rbtree.c:351-382`.

Conventions:
* `cl_compare_t` is `Ordering`: `CL_LESS` is `lt`, `CL_EQUAL` is `eq`, `CL_GREATER` is `gt`.
* `n_items` is the `unsigned int` of the struct, a `UInt32`.
* The pool hands out the slot released last, or a slot never used before (`Pool/Slots.lean` has the
  reason); it does not fail.
* A loop takes fuel (twice the number of slots the pool ever made, and two more); `none` is also
  what running out of it would give. `Clump/Insert.lean` and `Clump/Remove.lean` show it suffices.

Out of scope here: duplicates that are refused or replaced, looking up and clearing
(`Clump/Collection.lean`).
-/

namespace Protozoa.Clump

open Lib.LinkedTree

/-- `cl_direction`: `RIGHT` when the condition holds. -/
def clDirection (b : Bool) : Side := if b then .right else .left

/-- `struct cl_rbnode`. -/
abbrev ClRbnode (α : Type) := Cell α

/-- The address of the fake root. -/
def froot : Nat := 0

/-- `struct cl_pool`: the freelist, and the first slot never handed out. -/
structure ClPool where
  head : List Nat
  next : Nat

/-- `cl_pool_init`. -/
def clPoolInit : ClPool := ⟨[], froot + 1⟩

/-- `cl_pool_alloc`. -/
def clPoolAlloc (p : ClPool) : Nat × ClPool :=
  match p.head with
  | slot :: head => (slot, { p with head := head })
  | [] => (p.next, { p with next := p.next + 1 })

/-- `cl_pool_release`. -/
def clPoolRelease (p : ClPool) (m : Nat) : ClPool := { p with head := m :: p.head }

/-- `struct cl_rbtree`, with the memory its nodes live in. -/
structure ClRbtree (α : Type) where
  pool : ClPool
  mem : Mem α
  root : Option Nat
  nItems : UInt32

variable {α : Type}

/-- `cl_rbnode_init`. -/
def clRbnodeInit (value : α) : ClRbnode α := ⟨.red, fun _ => none, some value⟩

/-- `struct cl_rbnode froot = {0}`. -/
def frootInit : ClRbnode α := ⟨.black, fun _ => none, none⟩

/-- `cl_rbtree_init` with `CL_DUP_ALLOW`. -/
def clRbtreeInit : ClRbtree α := ⟨clPoolInit, ⟨fun _ => frootInit⟩, none, 0⟩

/-- `n->color = c`. -/
def setColor (mem : Mem α) (n : Nat) (c : Colour) : Mem α :=
  mem.write n { mem n with colour := c }

/-- `n->link[d] = m`. -/
def setLink (mem : Mem α) (n : Nat) (d : Side) (m : Option Nat) : Mem α :=
  mem.write n { mem n with link := Function.update (mem n).link d m }

/-- `n->value = v`. -/
def setValue (mem : Mem α) (n : Nat) (v : Option α) : Mem α :=
  mem.write n { mem n with value := v }

/-- `cl_rbnode_is_red`. -/
def clRbnodeIsRed (mem : Mem α) : Option Nat → Bool
  | none => false
  | some n => (mem n).colour == .red

/-- `cl_rbnode_is_not_red`. -/
def clRbnodeIsNotRed (mem : Mem α) : Option Nat → Bool
  | none => true
  | some n => (mem n).colour != .red

/-- `cl_rbnode_rotate_single`. -/
def clRbnodeRotateSingle (mem : Mem α) (n : Nat) (dir : Side) : Option (Mem α × Nat) := do
  let m ← (mem n).link dir.other
  let mem := setLink mem n dir.other ((mem m).link dir)
  let mem := setLink mem m dir (some n)
  let mem := setColor mem n .red
  let mem := setColor mem m .black
  return (mem, m)

/-- `cl_rbnode_rotate_double`. -/
def clRbnodeRotateDouble (mem : Mem α) (n : Nat) (dir : Side) : Option (Mem α × Nat) := do
  let k ← (mem n).link dir.other
  let (mem, m) ← clRbnodeRotateSingle mem k dir.other
  let mem := setLink mem n dir.other (some m)
  clRbnodeRotateSingle mem n dir

/-! ## Insertion -/

/-- The locals of `cl_rbtree_insert2`. -/
structure InsertState (α : Type) where
  mem : Mem α
  /-- great grandparent -/
  t : Nat
  /-- grandparent -/
  g : Option Nat
  /-- parent -/
  p : Option Nat
  /-- iterator -/
  q : Option Nat
  dir : Side
  last : Side

/-- The first `if` of the loop body: place the node at a leaf, or flip the colours of `q`. -/
def insertPlace (n : Nat) (s : InsertState α) : Option (Mem α × Nat) :=
  match s.q with
  | none => do
    let p ← s.p
    return (setLink s.mem p s.dir (some n), n)
  | some q =>
    if clRbnodeIsRed s.mem ((s.mem q).link .left) && clRbnodeIsRed s.mem ((s.mem q).link .right)
    then do
      let mem := setColor s.mem q .red
      let mem := setColor mem (← (mem q).link .left) .black
      let mem := setColor mem (← (mem q).link .right) .black
      return (mem, q)
    else return (s.mem, q)

/-- The second `if`: repair a red violation at `q`. -/
def insertFix (mem : Mem α) (q : Nat) (s : InsertState α) : Option (Mem α) :=
  if clRbnodeIsRed mem (some q) && clRbnodeIsRed mem s.p then do
    let p ← s.p
    let d := clDirection ((mem s.t).link .right == s.g)
    let g ← s.g
    if some q = (mem p).link s.last then
      let (mem, m) ← clRbnodeRotateSingle mem g s.last.other
      return setLink mem s.t d (some m)
    else
      let (mem, m) ← clRbnodeRotateDouble mem g s.last.other
      return setLink mem s.t d (some m)
  else return mem

/-- The rest of the body: `none` for `break`, else the pointers for the next round. -/
def insertDescend (compare : α → α → Ordering) (mem : Mem α) (q n : Nat) (s : InsertState α) :
    Option (Option (InsertState α)) :=
  if q = n then return none
  else do
    let qv ← (mem q).value
    let nv ← (mem n).value
    let dir := clDirection (compare qv nv == .lt)
    return some {
      mem := mem
      t := match s.g with
        | some g => g
        | none => s.t
      g := s.p
      p := some q
      q := (mem q).link dir
      dir := dir
      last := s.dir }

/-- `while(1) { … }` of `cl_rbtree_insert2`. -/
def insertLoop (compare : α → α → Ordering) (n : Nat) : Nat → InsertState α → Option (Mem α)
  | 0, _ => none
  | fuel + 1, s => do
    let (mem, q) ← insertPlace n s
    let mem ← insertFix mem q s
    match ← insertDescend compare mem q n s with
    | none => return mem
    | some s => insertLoop compare n fuel s

/-- The fuel the loops get. -/
def loopFuel (tree : ClRbtree α) : Nat := 2 * tree.pool.next + 2

/-- `cl_rbtree_insert2`. -/
def clRbtreeInsert2 (compare : α → α → Ordering) (tree : ClRbtree α) (n : Nat) :
    Option (ClRbtree α) := do
  let mem := setLink (tree.mem.write froot frootInit) froot .right tree.root
  let mem ← insertLoop compare n (loopFuel tree)
    ⟨mem, froot, none, none, tree.root, .left, .left⟩
  return { tree with mem := mem, root := (mem froot).link .right }

/-- `cl_rbtree_insert`. -/
def clRbtreeInsert (compare : α → α → Ordering) (tree : ClRbtree α) (n : Nat) :
    Option (ClRbtree α) := do
  let tree ← match tree.root with
    | none => some { tree with root := some n }
    | some _ => clRbtreeInsert2 compare tree n
  let root ← tree.root
  return { tree with mem := setColor tree.mem root .black }

/-- `cl_rbtree_add` of a tree set up with `CL_DUP_ALLOW` (`cl_rbtree_add_dup_allow`). -/
def clRbtreeAdd (compare : α → α → Ordering) (tree : ClRbtree α) (value : α) :
    Option (α × ClRbtree α) := do
  let (n, pool) := clPoolAlloc tree.pool
  let tree := { tree with pool := pool, mem := tree.mem.write n (clRbnodeInit value) }
  let tree ← clRbtreeInsert compare tree n
  return (value, { tree with nItems := tree.nItems + 1 })

/-! ## Removal -/

/-- The inner `if` of `cl_rbnode_fix_remove`: a red kid of the sibling `s` comes up to `p`. -/
def fixRemoveRotate (mem : Mem α) (p s g : Nat) (d last : Side) : Option (Mem α) :=
  if clRbnodeIsRed mem ((mem s).link last) then do
    let (mem, m) ← clRbnodeRotateDouble mem p last
    return setLink mem g d (some m)
  else if clRbnodeIsRed mem ((mem s).link last.other) then do
    let (mem, m) ← clRbnodeRotateSingle mem p last
    return setLink mem g d (some m)
  else return mem

/-- `cl_rbnode_fix_remove`. -/
def clRbnodeFixRemove (mem : Mem α) (q p : Nat) (g : Option Nat) (last : Side) :
    Option (Mem α) :=
  match (mem p).link last.other with
  | none => return mem
  | some s =>
    if clRbnodeIsNotRed mem ((mem s).link .left) && clRbnodeIsNotRed mem ((mem s).link .right)
    then
      let mem := setColor mem p .black
      let mem := setColor mem s .red
      return setColor mem q .red
    else do
      let g ← g
      let d := clDirection ((mem g).link .right == some p)
      let mem ← fixRemoveRotate mem p s g d last
      let mem := setColor mem q .red
      let m ← (mem g).link d
      let mem := setColor mem m .red
      let mem := setColor mem (← (mem m).link .left) .black
      return setColor mem (← (mem m).link .right) .black

/-- The locals of `cl_rbtree_remove2`. -/
structure RemoveState (α : Type) where
  mem : Mem α
  /-- iterator -/
  q : Nat
  /-- parent -/
  p : Option Nat
  /-- grandparent -/
  g : Option Nat
  /-- found node -/
  f : Option Nat
  dir : Side

/-- The body of the `while` loop, entered with `q->link[dir]` at `q`. -/
def removeStep (compare : α → α → Ordering) (value : α) (s : RemoveState α) (q : Nat) :
    Option (RemoveState α) := do
  let last := s.dir
  let g := s.p
  let p := s.q
  let qv ← (s.mem q).value
  let c := compare qv value
  let f := if c = .eq then some q else s.f
  let dir := clDirection (c == .lt)
  if clRbnodeIsNotRed s.mem (some q) && clRbnodeIsNotRed s.mem ((s.mem q).link dir) then
    if clRbnodeIsRed s.mem ((s.mem q).link dir.other) then
      let (mem, m) ← clRbnodeRotateSingle s.mem q dir
      return ⟨setLink mem p last (some m), q, some m, g, f, dir⟩
    else
      let mem ← clRbnodeFixRemove s.mem q p g last
      return ⟨mem, q, some p, g, f, dir⟩
  else return ⟨s.mem, q, some p, g, f, dir⟩

/-- `while(q->link[dir] != NULL) { … }` of `cl_rbtree_remove2`. -/
def removeLoop (compare : α → α → Ordering) (value : α) :
    Nat → RemoveState α → Option (RemoveState α)
  | 0, _ => none
  | fuel + 1, s =>
    match (s.mem s.q).link s.dir with
    | none => some s
    | some q => do
      let s ← removeStep compare value s q
      removeLoop compare value fuel s

/-- What follows the loop when a node was found: its value gives way to `q`'s, and `q` is unlinked.
-/
def removeFound (tree : ClRbtree α) (s : RemoveState α) (f : Nat) :
    Option (Option α × ClRbtree α) := do
  let v := (s.mem f).value
  let mem := setValue s.mem f (s.mem s.q).value
  let p ← s.p
  let mem := setLink mem p (clDirection ((mem p).link .right == some s.q))
    ((mem s.q).link (clDirection ((mem s.q).link .left == none)))
  return (v, { tree with
    pool := clPoolRelease tree.pool s.q
    nItems := tree.nItems - 1
    mem := mem })

/-- `cl_rbtree_remove2`. -/
def clRbtreeRemove2 (compare : α → α → Ordering) (tree : ClRbtree α) (value : α) :
    Option (Option α × ClRbtree α) := do
  let mem := setLink (tree.mem.write froot frootInit) froot .right tree.root
  let s ← removeLoop compare value (loopFuel tree) ⟨mem, froot, none, none, none, .right⟩
  let (v, tree) ← match s.f with
    | none => some (none, { tree with mem := s.mem })
    | some f => removeFound tree s f
  let root := (tree.mem froot).link .right
  let mem := match root with
    | none => tree.mem
    | some r => setColor tree.mem r .black
  return (v, { tree with root := root, mem := mem })

/-- `cl_rbtree_remove`. -/
def clRbtreeRemove (compare : α → α → Ordering) (tree : ClRbtree α) (value : α) :
    Option (Option α × ClRbtree α) :=
  match tree.root with
  | none => some (none, tree)
  | some _ => clRbtreeRemove2 compare tree value

/-! ## Reading -/

/-- `while(n->link[LEFT] != NULL) n = n->link[LEFT];` of `cl_rbtree_peek`. -/
def peekLoop (mem : Mem α) : Nat → Nat → Option Nat
  | 0, _ => none
  | fuel + 1, n =>
    match (mem n).link .left with
    | none => some n
    | some n => peekLoop mem fuel n

/-- `cl_rbtree_peek`: the first value, `none` for an empty tree. -/
def clRbtreePeek (tree : ClRbtree α) : Option (Option α) :=
  match tree.root with
  | none => some none
  | some n => (peekLoop tree.mem (loopFuel tree) n).map fun n => (tree.mem n).value

/-- `cl_rbtree_iterate`, with the values listed in the order the callback gets them. -/
def clRbtreeIterate (mem : Mem α) : Nat → Option Nat → List α
  | 0, _ => []
  | _, none => []
  | fuel + 1, some n =>
    clRbtreeIterate mem fuel ((mem n).link .left) ++ (mem n).value.toList ++
      clRbtreeIterate mem fuel ((mem n).link .right)

/-- `cl_rbtree_for_each`: the values in order. -/
def clRbtreeForEach (tree : ClRbtree α) : List α :=
  clRbtreeIterate tree.mem (loopFuel tree) tree.root

end Protozoa.Clump
