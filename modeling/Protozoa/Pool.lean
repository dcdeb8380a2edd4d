import Protozoa.Lib.LinkedList

/-!
# Memory pools (`pool.c`)

Model of `struct cl_pool` (`clump.h:23-27`) at the level of bytes. A pool slices blocks of
`MALLOC_SIZE` bytes into slots of `n_bytes`. The slots that are free are linked through their first
bytes, the blocks through theirs. `w` is `sizeof(void *)`, a pointer is an address, and `NULL` is 0.

The memory is that of the whole program: the pool writes the links, and whoever has been given a
slot writes to all of it. `malloc` is no function of the program: `cl_pool_alloc` (`pool.c:107-116`)
takes what it returns as an argument, and `FreshBlock` is what is relied on of it.

* `clPoolInitBlock` (`pool.c:60-69`) links the slots of a new block, `clPoolAddBlock`
  (`pool.c:76-89`) the block itself.
* `clPoolRelease` (`pool.c:123-128`) puts one slot at the head, `clPoolReleaseAll`
  (`pool.c:135-146`) all of all blocks.
* `Op`, `run`: what is done with a pool, writes of its users included.

A loop gets as many rounds as it may need; `none` is what running out of them would give
(`Pool/Freelist.lean` shows that it never does). `cl_pool_destroy` is in `Pool/Slots.lean`.
-/

namespace Protozoa.Pool

open Lib.LinkedList

/-- `MALLOC_SIZE`. -/
def mallocSize : Nat := 4096

/-- `struct cl_pool`. -/
structure ClPool where
  nBytes : Nat
  block : Nat
  head : Nat

/-- `cl_pool_init`. -/
def clPoolInit (s : Nat) : ClPool := ⟨s, 0, 0⟩

/-- `cl_pool_block_slots`. -/
def clPoolBlockSlots (w : Nat) (p : ClPool) : Nat := (mallocSize - w) / p.nBytes

/-- `for(next += p->n_bytes; next < last; next += p->n_bytes) …`, with the memory and the slot it
ends with. -/
def initLoop (w nBytes last : Nat) : Nat → Memory → Nat → Nat → Option (Memory × Nat)
  | 0, _, _, _ => none
  | fuel + 1, mem, slot, next =>
    if next < last then initLoop w nBytes last fuel (store w mem slot next) next (next + nBytes)
    else some (mem, slot)

/-- `cl_pool_init_block`. -/
def clPoolInitBlock (w : Nat) (p : ClPool) (mem : Memory) (block : Nat) : Option (Memory × Nat) :=
  let slot := block + w
  let next := slot
  let last := next + clPoolBlockSlots w p * p.nBytes
  initLoop w p.nBytes last (clPoolBlockSlots w p) mem slot (next + p.nBytes)

/-- `cl_pool_add_block`: what it returns, the pool and the memory. -/
def clPoolAddBlock (w : Nat) (p : ClPool) (mem : Memory) (block : Nat) : Option (Nat × ClPool × Memory) :=
  if block = 0 then some (0, p, mem)
  else do
    let mem := store w mem block p.block
    let p := { p with block := block, head := block + w }
    let (mem, last) ← clPoolInitBlock w p mem block
    return (block, p, store w mem last 0)

/-- `slot = p->head; p->head = *slot; return slot;`. -/
def takeSlot (w : Nat) (p : ClPool) (mem : Memory) : Nat × ClPool × Memory :=
  (p.head, { p with head := load w mem p.head }, mem)

/-- `cl_pool_alloc`. -/
def clPoolAlloc (w : Nat) (p : ClPool) (mem : Memory) (malloc : Nat) : Option (Nat × ClPool × Memory) :=
  if p.head = 0 then do
    let (block, p, mem) ← clPoolAddBlock w p mem malloc
    if block = 0 then return (0, p, mem) else return takeSlot w p mem
  else some (takeSlot w p mem)

/-- `cl_pool_release`. -/
def clPoolRelease (w : Nat) (p : ClPool) (mem : Memory) (m : Nat) : ClPool × Memory :=
  ({ p with head := m }, store w mem m p.head)

/-- `while(block) …` of `cl_pool_release_all`, with the memory and the `next` it ends with. -/
def releaseLoop (w : Nat) (p : ClPool) : Nat → Memory → Nat → Nat → Option (Memory × Nat)
  | 0, _, _, _ => none
  | fuel + 1, mem, block, next =>
    if block = 0 then some (mem, next)
    else do
      let (mem, slot) ← clPoolInitBlock w p mem block
      let mem := store w mem slot next
      releaseLoop w p fuel mem (load w mem block) (block + w)

/-- `cl_pool_release_all`, of a pool with less than `fuel` blocks. -/
def clPoolReleaseAll (w : Nat) (p : ClPool) (mem : Memory) (fuel : Nat) : Option (ClPool × Memory) := do
  let (mem, next) ← releaseLoop w p fuel mem p.block 0
  return ({ p with head := next }, mem)

/-! ## What is done with a pool -/

/-- A pool and the memory, with the blocks that it has got, the latest first, and the objects that
are in use. -/
structure State where
  pool : ClPool
  mem : Memory
  blocks : List Nat
  live : List Nat

/-- An operation, and what the system does in it. -/
inductive Op where
  /-- `malloc` returns this if it is called -/
  | alloc (malloc : Nat)
  | release (m : Nat)
  | releaseAll
  /-- a byte is written by someone else -/
  | write (a : Nat) (b : BitVec 8)

/-- A new pool. -/
def start (nBytes : Nat) (mem : Memory) : State := ⟨clPoolInit nBytes, mem, [], []⟩

/-- An operation. -/
def step (w : Nat) (s : State) : Op → Option State
  | .alloc malloc => do
    let (slot, pool, mem) ← clPoolAlloc w s.pool s.mem malloc
    return {
      pool := pool
      mem := mem
      blocks := if s.pool.head = 0 ∧ malloc ≠ 0 then malloc :: s.blocks else s.blocks
      live := if slot = 0 then s.live else slot :: s.live }
  | .release m =>
    let (pool, mem) := clPoolRelease w s.pool s.mem m
    some { s with pool := pool, mem := mem, live := s.live.erase m }
  | .releaseAll => do
    let (pool, mem) ← clPoolReleaseAll w s.pool s.mem (s.blocks.length + 1)
    return { s with pool := pool, mem := mem, live := [] }
  | .write a b => some { s with mem := Function.update s.mem a b }

/-- Operations, one after the other. -/
def run (w : Nat) (s : State) : List Op → Option State
  | [] => some s
  | op :: ops => do
    let s ← step w s op
    run w s ops

/-- What `malloc` returns: `NULL`, or a block with a place of its own. -/
structure FreshBlock (w : Nat) (blocks : List Nat) (block : Nat) : Prop where
  fits : block + mallocSize ≤ 256 ^ w
  apart : ∀ b ∈ blocks, Apart mallocSize block b

/-- Objects are released while they are in use, and bytes are written in them or outside the pool.
-/
def Op.Allowed (w : Nat) (s : State) : Op → Prop
  | .alloc malloc => malloc ≠ 0 → FreshBlock w s.blocks malloc
  | .release m => m ∈ s.live
  | .releaseAll => True
  | .write a _ =>
    (∃ m ∈ s.live, m ≤ a ∧ a < m + s.pool.nBytes) ∨ ∀ b ∈ s.blocks, a < b ∨ b + mallocSize ≤ a

/-- It is so in every operation. -/
def AllAllowed (w : Nat) : State → List Op → Prop
  | _, [] => True
  | s, op :: ops => op.Allowed w s ∧ ∀ s' ∈ step w s op, AllAllowed w s' ops

end Protozoa.Pool
