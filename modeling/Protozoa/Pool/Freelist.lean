import Mathlib.Data.List.Perm.Basic
import Protozoa.Pool

/-!
# The freelist of a memory pool (`pool.c`)

The freelist is what the head of the pool leads to in memory (`Linked`), the list of blocks what
`p->block` leads to. The slots of the blocks are the cells of the freelist and the objects in use,
each once (`Holds.slots`), so no write to an object meets a link, and no object is handed out again.

* `initBlock_spec`: a block becomes a list of its slots (`pool.c:60-69`).
* `Holds`: what holds between two operations; `Holds.step` for one operation (`pool.c:107-146`) and
  `Holds.run` for any sequence.
* **`run_sound`**: after any sequence of operations its callers may make (`AllAllowed`), with writes
  to the objects in between and a `malloc` that may fail, the run is not stuck and the objects in
  use are aligned slots of the blocks, apart from one another.

Out of scope: `malloc` itself. It is relied on to give blocks apart from those it has given before,
and not at address 0 (`FreshBlock`).
-/

namespace Protozoa.Pool

open Lib.LinkedList

/-- The slots of a block. -/
def slots (w n block : Nat) : List Nat := cells n (block + w) ((mallocSize - w) / n)

/-- What must hold of a pool of slots of `n` bytes. -/
structure Sound (w n : Nat) (s : State) : Prop where
  apart : s.live.Pairwise (Apart n)
  inside : ∀ a ∈ s.live, ∃ b ∈ s.blocks, a ∈ slots w n b ∧ b + w ≤ a ∧ a + n ≤ b + mallocSize
  links : ∀ a ∈ s.live, ∀ b ∈ s.blocks, a + n ≤ b ∨ b + w ≤ a
  freelist : ∃ free, Linked w s.mem s.pool.head free 0 ∧ free.Nodup ∧
    ∀ a, a ∈ free ↔ (∃ b ∈ s.blocks, a ∈ slots w n b) ∧ a ∉ s.live
  fresh : ∀ malloc, (Op.alloc malloc).Allowed w s →
    ∀ slot pool mem, clPoolAlloc w s.pool s.mem malloc = some (slot, pool, mem) → slot ∉ s.live

/-- The sizes of the pointers and of the objects of a pool. -/
structure Sizes (w n : Nat) : Prop where
  pointer : 0 < w
  object : w ≤ n
  block : n + w ≤ mallocSize

variable {w n : Nat} {p : ClPool} {mem : Memory} {s s' : State}

/-! ## Slots -/

theorem bounds_of_mem_slots (h : Sizes w n) {block a : Nat} (ha : a ∈ slots w n block) :
    block + w ≤ a ∧ a + n ≤ block + mallocSize := by
  have hbounds := bounds_of_mem_cells ha
  have hle := Nat.div_mul_le_self (mallocSize - w) n
  have := h.block
  omega

/-- A block has a slot. -/
theorem Sizes.exists_succ (h : Sizes w n) : ∃ k, (mallocSize - w) / n = k + 1 :=
  Nat.exists_eq_succ_of_ne_zero (Nat.ne_of_gt
    (Nat.div_pos (Nat.le_sub_of_add_le h.block) (Nat.lt_of_lt_of_le h.pointer h.object)))

theorem exists_slots (h : Sizes w n) (block : Nat) : ∃ rest, slots w n block = (block + w) :: rest := by
  obtain ⟨k, hk⟩ := h.exists_succ
  rw [slots, hk]
  exact ⟨_, rfl⟩

/-- **The slots of blocks** that have their own places do not overlap. -/
theorem pairwise_slots (h : Sizes w n) {blocks : List Nat} (hblocks : blocks.Pairwise (Apart mallocSize)) :
    (blocks.flatMap (slots w n)).Pairwise (Apart n) := by
  refine List.pairwise_flatMap.mpr ⟨fun b _ => pairwise_cells n _ _, hblocks.imp ?_⟩
  intro b b' hapart x hx y hy
  have hbx := bounds_of_mem_slots h hx
  have hby := bounds_of_mem_slots h hy
  omega

/-! ## A block -/

/-- The loop links the slots up to the last one, which the caller then sets. -/
theorem initLoop_spec (h : Sizes w n) (mem : Memory) (slot k : Nat) (hfits : slot + (k + 1) * n ≤ 256 ^ w) :
    ∃ mem' last, initLoop w n (slot + (k + 1) * n) (k + 1) mem slot (slot + n) = some (mem', last) ∧
      ∀ v < 256 ^ w, Linked w (store w mem' last v) slot (cells n slot (k + 1)) v ∧
        ∀ x, x < slot ∨ slot + (k + 1) * n ≤ x → store w mem' last v x = mem x := by
  have hobject := h.object
  induction k generalizing mem slot with
  | zero =>
    refine ⟨mem, slot, if_neg (by omega), fun v hv => ⟨⟨rfl, load_store hv⟩, fun x hx => ?_⟩⟩
    exact store_of_apart (by omega)
  | succ k ih =>
    have hmul : (k + 1 + 1) * n = n + (k + 1) * n := by ring
    rw [hmul, ← Nat.add_assoc] at hfits ⊢
    obtain ⟨mem', last, hloop, hspec⟩ := ih (store w mem slot (slot + n)) (slot + n) hfits
    have hlt : slot + n < slot + n + (k + 1) * n :=
      Nat.lt_add_of_pos_right (Nat.mul_pos k.succ_pos (Nat.lt_of_lt_of_le h.pointer hobject))
    refine ⟨mem', last, ?_, fun v hv => ?_⟩
    · rw [initLoop, if_pos hlt]
      exact hloop
    · obtain ⟨hlinked, hsame⟩ := hspec v hv
      have hlink : load w (store w mem' last v) slot = slot + n := by
        rw [load_congr fun x hlo hhi => hsame x (Or.inl (by omega)), load_store (Nat.lt_of_lt_of_le hlt hfits)]
      refine ⟨⟨rfl, ?_⟩, fun x hx => ?_⟩
      · rw [hlink]
        exact hlinked
      · rw [hsame x (by omega), store_of_apart (by omega)]

/-- **A block becomes a list of its slots**, whatever the last one is then set to. -/
theorem initBlock_spec (h : Sizes w n) (hp : p.nBytes = n) (mem : Memory) {block : Nat}
    (hfits : block + mallocSize ≤ 256 ^ w) :
    ∃ mem' last, clPoolInitBlock w p mem block = some (mem', last) ∧
      ∀ v < 256 ^ w, Linked w (store w mem' last v) (block + w) (slots w n block) v ∧
        ∀ x, x < block + w ∨ block + mallocSize ≤ x → store w mem' last v x = mem x := by
  subst hp
  have hle := Nat.div_mul_le_self (mallocSize - w) p.nBytes
  have hblock := h.block
  obtain ⟨k, hk⟩ := h.exists_succ
  rw [hk] at hle
  obtain ⟨mem', last, hloop, hspec⟩ := initLoop_spec h mem (block + w) k (by omega)
  refine ⟨mem', last, ?_, fun v hv => ?_⟩
  · unfold clPoolInitBlock clPoolBlockSlots
    rw [hk]
    exact hloop
  · obtain ⟨hlinked, hsame⟩ := hspec v hv
    refine ⟨?_, fun x hx => hsame x (by omega)⟩
    rw [slots, hk]
    exact hlinked

/-- **The loop over the blocks** chains the slots of each before those that it has chained already.
-/
theorem releaseLoop_spec (h : Sizes w n) (hp : p.nBytes = n) {bs l : List Nat} {block next : Nat}
    (hplaced : ∀ b ∈ bs, b ≠ 0 ∧ b + mallocSize ≤ 256 ^ w) (hapart : bs.Pairwise (Apart mallocSize))
    (hblocks : Linked w mem block bs 0) (hnext : Linked w mem next l 0) (hlt : next < 256 ^ w)
    (hl : ∀ a ∈ l, ∀ b ∈ bs, a + w ≤ b ∨ b + mallocSize ≤ a) :
    ∃ mem' next', releaseLoop w p (bs.length + 1) mem block next = some (mem', next') ∧
      Linked w mem' next' (bs.reverse.flatMap (slots w n) ++ l) 0 ∧
        ∀ x, (∀ b ∈ bs, x < b + w ∨ b + mallocSize ≤ x) → mem' x = mem x := by
  induction bs generalizing mem block next l with
  | nil =>
    obtain rfl := hblocks
    exact ⟨mem, next, if_pos rfl, hnext, fun _ _ => rfl⟩
  | cons b bs ih =>
    obtain ⟨rfl, hblocks⟩ := hblocks
    obtain ⟨hb, hplaced⟩ := List.forall_mem_cons.mp hplaced
    obtain ⟨hother, hapart⟩ := List.pairwise_cons.mp hapart
    obtain ⟨mem₁, last, hinit, hspec⟩ := initBlock_spec h hp mem hb.2
    obtain ⟨hlinked, hsame⟩ := hspec next hlt
    have hpointer := h.pointer
    have hobject := h.object
    have hblock := h.block
    have hlink : load w (store w mem₁ last next) block = load w mem block :=
      load_congr fun x _ hhi => hsame x (Or.inl hhi)
    have hblocks' : Linked w (store w mem₁ last next) (load w mem block) bs 0 :=
      hblocks.congr fun b hb x hlo hhi => hsame x (by
        have := hother b hb
        omega)
    have hnext' : Linked w (store w mem₁ last next) (block + w) (slots w n block ++ l) 0 :=
      linked_append.mpr ⟨next, hlinked, hnext.congr fun a ha x hlo hhi => hsame x (by
        have := hl a ha block List.mem_cons_self
        omega)⟩
    have hl' : ∀ a ∈ slots w n block ++ l, ∀ b ∈ bs, a + w ≤ b ∨ b + mallocSize ≤ a := by
      intro a ha b hb
      rcases List.mem_append.mp ha with ha | ha
      · have hbounds := bounds_of_mem_slots h ha
        have := hother b hb
        omega
      · exact hl a ha b (List.mem_cons_of_mem _ hb)
    obtain ⟨mem', next', hloop, hlinked', hsame'⟩ := ih hplaced hapart hblocks' hnext' (by omega) hl'
    refine ⟨mem', next', ?_, ?_, fun x hx => ?_⟩
    · rw [List.length_cons, releaseLoop, if_neg hb.1]
      simp only [hinit, Option.bind_eq_bind, Option.bind_some, hlink]
      exact hloop
    · rwa [List.reverse_cons, List.flatMap_append, List.flatMap_singleton, List.append_assoc]
    · obtain ⟨hx, hrest⟩ := List.forall_mem_cons.mp hx
      rw [hsame' x hrest, hsame x hx]

/-! ## The lists of a pool -/

/-- The blocks, the free slots and the objects in use. -/
structure Holds (w n : Nat) (s : State) (free : List Nat) : Prop where
  nBytes : s.pool.nBytes = n
  placed : ∀ b ∈ s.blocks, b ≠ 0 ∧ b + mallocSize ≤ 256 ^ w
  apart : s.blocks.Pairwise (Apart mallocSize)
  blocks : Linked w s.mem s.pool.block s.blocks 0
  freelist : Linked w s.mem s.pool.head free 0
  slots : (free ++ s.live).Perm (s.blocks.flatMap (slots w n))

theorem holds_start (w n : Nat) (mem : Memory) : Holds w n (start n mem) [] :=
  ⟨rfl, nofun, List.Pairwise.nil, rfl, rfl, List.Perm.nil⟩

namespace Holds

variable {free : List Nat} {a : Nat}

theorem pairwise (hs : Holds w n s free) (h : Sizes w n) : (free ++ s.live).Pairwise (Apart n) :=
  (hs.slots.pairwise_iff Apart.symm).mpr (pairwise_slots h hs.apart)

theorem nodup (hs : Holds w n s free) (h : Sizes w n) : (free ++ s.live).Nodup := by
  refine (hs.pairwise h).imp ?_
  rintro a b hapart rfl
  have hpos := Nat.lt_of_lt_of_le h.pointer h.object
  omega

/-- The block of a slot. -/
theorem block (hs : Holds w n s free) (ha : a ∈ free ++ s.live) : ∃ b ∈ s.blocks, a ∈ Pool.slots w n b :=
  List.mem_flatMap.mp (hs.slots.mem_iff.mp ha)

/-- A slot is a pointer that fits. -/
theorem fits (hs : Holds w n s free) (h : Sizes w n) (ha : a ∈ free ++ s.live) : a ≠ 0 ∧ a < 256 ^ w := by
  obtain ⟨b, hb, hslot⟩ := hs.block ha
  have hbounds := bounds_of_mem_slots h hslot
  have hplaced := (hs.placed b hb).2
  have hpos := h.pointer
  have hobject := h.object
  omega

/-- **No slot meets the link of a block.** -/
theorem link (hs : Holds w n s free) (h : Sizes w n) (ha : a ∈ free ++ s.live) {b : Nat} (hb : b ∈ s.blocks) :
    a + n ≤ b ∨ b + w ≤ a := by
  obtain ⟨b', hb', hslot⟩ := hs.block ha
  have hbounds := bounds_of_mem_slots h hslot
  by_cases hsame : b = b'
  · subst hsame
    exact Or.inr hbounds.1
  · have hapart := hs.apart.forall hb hb' hsame
    have hblock := h.block
    omega

theorem head_lt (hs : Holds w n s free) (h : Sizes w n) : s.pool.head < 256 ^ w := by
  rcases hs.freelist.mem_or_eq with hmem | hnull
  · exact (hs.fits h (List.mem_append_left _ hmem)).2
  · exact hnull ▸ Nat.pow_pos (by decide)

theorem block_lt (hs : Holds w n s free) : s.pool.block < 256 ^ w := by
  rcases hs.blocks.mem_or_eq with hmem | hnull
  · exact Nat.lt_of_lt_of_le (Nat.lt_add_of_pos_right (by decide)) (hs.placed _ hmem).2
  · exact hnull ▸ Nat.pow_pos (by decide)

/-- A free slot and an object in use. -/
theorem free_live (hs : Holds w n s free) (h : Sizes w n) {b : Nat} (ha : a ∈ free) (hb : b ∈ s.live) :
    Apart n a b :=
  (List.pairwise_append.mp (hs.pairwise h)).2.2 a ha b hb

/-! ## The operations -/

/-- **A byte that someone else writes** is none of the links. -/
theorem write (hs : Holds w n s free) (h : Sizes w n) {byte : BitVec 8} (ha : (Op.write a byte).Allowed w s) :
    Holds w n { s with mem := Function.update s.mem a byte } free := by
  have hsame {c : Nat} (hc : a < c ∨ c + w ≤ a) : SameOn s.mem (Function.update s.mem a byte) c w :=
    fun x hlo hhi => Function.update_of_ne (by omega) _ _
  have hobject := h.object
  have hblock := h.block
  refine ⟨hs.nBytes, hs.placed, hs.apart, hs.blocks.congr fun b hb => hsame ?_,
    hs.freelist.congr fun c hc => hsame ?_, hs.slots⟩
  · rcases ha with ⟨m, hm, hlo, hhi⟩ | hout
    · have hlink := hs.link h (List.mem_append_right free hm) hb
      rw [hs.nBytes] at hhi
      omega
    · have := hout b hb
      omega
  · rcases ha with ⟨m, hm, hlo, hhi⟩ | hout
    · have hapart := hs.free_live h hc hm
      rw [hs.nBytes] at hhi
      omega
    · obtain ⟨b, hb, hslot⟩ := hs.block (List.mem_append_left s.live hc)
      have hbounds := bounds_of_mem_slots h hslot
      have := hout b hb
      omega

/-- **`cl_pool_release`** puts an object on the freelist. -/
theorem release (hs : Holds w n s free) (h : Sizes w n) {m : Nat} (hm : m ∈ s.live) :
    Holds w n
      { s with
        pool := (clPoolRelease w s.pool s.mem m).1
        mem := (clPoolRelease w s.pool s.mem m).2
        live := s.live.erase m } (m :: free) := by
  have hobject := h.object
  refine ⟨hs.nBytes, hs.placed, hs.apart, hs.blocks.congr fun b hb => sameOn_store ?_, ⟨rfl, ?_⟩, ?_⟩
  · have := hs.link h (List.mem_append_right free hm) hb
    omega
  · show Linked w (store w s.mem m s.pool.head) (load w (store w s.mem m s.pool.head) m) free 0
    rw [load_store (hs.head_lt h)]
    refine hs.freelist.congr fun c hc => sameOn_store ?_
    have hapart := hs.free_live h hc hm
    omega
  · have herase : (s.live).Perm (m :: s.live.erase m) := List.perm_cons_erase hm
    exact (List.perm_middle.symm.trans (herase.symm.append_left free)).trans hs.slots

/-- The first free slot is taken. -/
theorem take {a : Nat} {free : List Nat} (hs : Holds w n s (a :: free)) :
    takeSlot w s.pool s.mem = (a, { s.pool with head := load w s.mem a }, s.mem) ∧
      Holds w n { s with pool := { s.pool with head := load w s.mem a }, live := a :: s.live } free := by
  obtain ⟨hhead, hrest⟩ := hs.freelist
  refine ⟨?_, hs.nBytes, hs.placed, hs.apart, hs.blocks, hrest, List.perm_middle.trans hs.slots⟩
  rw [takeSlot, hhead]

/-- **`cl_pool_add_block`** makes a freelist of the slots of the new block. -/
theorem addBlock (hs : Holds w n s []) (h : Sizes w n) {block : Nat} (hne : block ≠ 0)
    (hfresh : FreshBlock w s.blocks block) :
    ∃ pool mem, clPoolAddBlock w s.pool s.mem block = some (block, pool, mem) ∧
      Holds w n { s with pool := pool, mem := mem, blocks := block :: s.blocks } (Pool.slots w n block) := by
  have hblock := h.block
  obtain ⟨mem', last, hinit, hspec⟩ := initBlock_spec
    (p := { s.pool with block := block, head := block + w }) h hs.nBytes (store w s.mem block s.pool.block) hfresh.fits
  obtain ⟨hlinked, hsame⟩ := hspec 0 (Nat.pow_pos (by decide))
  refine ⟨{ s.pool with block := block, head := block + w }, store w mem' last 0, ?_, hs.nBytes, ?_, ?_, ?_, hlinked,
    ?_⟩
  · unfold clPoolAddBlock
    rw [if_neg hne]
    simp only [hinit]
    rfl
  · exact List.forall_mem_cons.mpr ⟨⟨hne, hfresh.fits⟩, hs.placed⟩
  · exact List.pairwise_cons.mpr ⟨hfresh.apart, hs.apart⟩
  · refine ⟨rfl, ?_⟩
    show Linked w (store w mem' last 0) (load w (store w mem' last 0) block) s.blocks 0
    rw [load_congr fun x hlo hhi => hsame x (Or.inl hhi), load_store hs.block_lt]
    refine hs.blocks.congr fun b hb x hlo hhi => ?_
    have hapart := hfresh.apart b hb
    rw [hsame x (by omega), store_of_apart (by omega)]
  · exact List.Perm.append_left (Pool.slots w n block) hs.slots

/-- **`cl_pool_alloc`** gives the first slot of the freelist or of a new block, or nothing if there
is no block. -/
theorem alloc (hs : Holds w n s free) (h : Sizes w n) {malloc : Nat} (hm : (Op.alloc malloc).Allowed w s) :
    ∃ slot pool mem free', clPoolAlloc w s.pool s.mem malloc = some (slot, pool, mem) ∧
      Holds w n
        { pool := pool
          mem := mem
          blocks := if s.pool.head = 0 ∧ malloc ≠ 0 then malloc :: s.blocks else s.blocks
          live := if slot = 0 then s.live else slot :: s.live } free' := by
  unfold clPoolAlloc
  by_cases hhead : s.pool.head = 0
  · have hnil : free = [] := by
      have hlinked := hs.freelist
      rw [hhead] at hlinked
      exact hlinked.eq_nil fun a ha => (hs.fits h (List.mem_append_left _ ha)).1
    subst hnil
    by_cases hnull : malloc = 0
    · refine ⟨0, s.pool, s.mem, [], ?_, ?_⟩
      · rw [if_pos hhead, hnull]
        rfl
      · rw [if_neg fun hand => hand.2 hnull, if_pos rfl]
        exact hs
    · obtain ⟨pool, mem, hadd, hs'⟩ := hs.addBlock h hnull (hm hnull)
      obtain ⟨rest, hrest⟩ := exists_slots h malloc
      rw [hrest] at hs'
      obtain ⟨htake, htaken⟩ := hs'.take
      have hpos := h.pointer
      refine ⟨malloc + w, { pool with head := load w mem (malloc + w) }, mem, rest, ?_, ?_⟩
      · rw [if_pos hhead, hadd]
        exact (if_neg hnull).trans (congrArg some htake)
      · rw [if_pos ⟨hhead, hnull⟩, if_neg (by omega)]
        exact htaken
  · obtain ⟨free', rfl, -⟩ := hs.freelist.eq_cons hhead
    obtain ⟨htake, htaken⟩ := hs.take
    refine ⟨s.pool.head, { s.pool with head := load w s.mem s.pool.head }, s.mem, free', ?_, ?_⟩
    · rw [if_neg hhead, htake]
    · rw [if_neg fun hand => hhead hand.1, if_neg hhead]
      exact htaken

/-- **`cl_pool_release_all`** makes a freelist of the slots of all blocks. -/
theorem releaseAll (hs : Holds w n s free) (h : Sizes w n) :
    ∃ pool mem free', clPoolReleaseAll w s.pool s.mem (s.blocks.length + 1) = some (pool, mem) ∧
      Holds w n { s with pool := pool, mem := mem, live := [] } free' := by
  obtain ⟨mem', next', hloop, hlinked, hsame⟩ := releaseLoop_spec h hs.nBytes hs.placed hs.apart hs.blocks
    (show Linked w s.mem 0 [] 0 from rfl) (Nat.pow_pos (by decide)) nofun
  have hblock := h.block
  refine ⟨{ s.pool with head := next' }, mem', _, ?_, hs.nBytes, hs.placed, hs.apart, ?_, hlinked, ?_⟩
  · rw [clPoolReleaseAll, hloop]
    rfl
  · refine hs.blocks.congr fun b hb x hlo hhi => hsame x fun b' hb' => ?_
    by_cases hsame : b = b'
    · omega
    · have := hs.apart.forall hb hb' hsame
      omega
  · rw [List.append_nil, List.append_nil]
    exact (List.reverse_perm s.blocks).flatMap_right _

/-- **Every operation** keeps the lists. -/
theorem step (hs : Holds w n s free) (h : Sizes w n) {op : Op} (hop : op.Allowed w s) :
    ∃ s' free', Pool.step w s op = some s' ∧ Holds w n s' free' := by
  cases op with
  | alloc malloc =>
    obtain ⟨slot, pool, mem, free', halloc, hs'⟩ := hs.alloc h hop
    refine ⟨_, free', ?_, hs'⟩
    rw [Pool.step, halloc]
    rfl
  | release m => exact ⟨_, _, rfl, hs.release h hop⟩
  | releaseAll =>
    obtain ⟨pool, mem, free', hrelease, hs'⟩ := hs.releaseAll h
    refine ⟨_, free', ?_, hs'⟩
    rw [Pool.step, hrelease]
    rfl
  | write a byte => exact ⟨_, _, rfl, hs.write h hop⟩

theorem run (hs : Holds w n s free) (h : Sizes w n) {ops : List Op} (hops : AllAllowed w s ops) :
    ∃ s' free', Pool.run w s ops = some s' ∧ Holds w n s' free' := by
  induction ops generalizing s free with
  | nil => exact ⟨s, free, rfl, hs⟩
  | cons op ops ih =>
    obtain ⟨hop, hrest⟩ := hops
    obtain ⟨s₁, free₁, hstep, hs₁⟩ := hs.step h hop
    obtain ⟨s', free', hrun, hs'⟩ := ih hs₁ (hrest s₁ hstep)
    refine ⟨s', free', ?_, hs'⟩
    rw [Pool.run, hstep]
    exact hrun

/-- What the lists say. -/
theorem sound (hs : Holds w n s free) (h : Sizes w n) : Sound w n s where
  apart := (List.pairwise_append.mp (hs.pairwise h)).2.1
  inside := by
    intro a ha
    obtain ⟨b, hb, hslot⟩ := hs.block (List.mem_append_right free ha)
    exact ⟨b, hb, hslot, bounds_of_mem_slots h hslot⟩
  links := fun a ha b hb => hs.link h (List.mem_append_right free ha) hb
  freelist := by
    obtain ⟨hnodup, -, hdisjoint⟩ := List.nodup_append.mp (hs.nodup h)
    refine ⟨free, hs.freelist, hnodup, fun a => ⟨fun ha => ?_, fun ⟨hslot, hnot⟩ => ?_⟩⟩
    · exact ⟨hs.block (List.mem_append_left _ ha), fun hlive => hdisjoint a ha a hlive rfl⟩
    · exact (List.mem_append.mp (hs.slots.mem_iff.mpr (List.mem_flatMap.mpr hslot))).resolve_right hnot
  fresh := by
    intro malloc hm slot pool mem halloc hlive
    obtain ⟨slot', pool', mem', free', halloc', hs'⟩ := hs.alloc h hm
    obtain rfl : slot = slot' := congrArg Prod.fst (Option.some.inj (halloc.symm.trans halloc'))
    have hnull := (hs.fits h (List.mem_append_right free hlive)).1
    have hnodup := (List.nodup_append.mp (hs'.nodup h)).2.1
    rw [if_neg hnull] at hnodup
    exact (List.nodup_cons.mp hnodup).1 hlive

end Holds

/-- **A pool after any operations**: the objects in use do not overlap, the freelist has every other
slot once, and no object in use is handed out again. -/
theorem run_sound (h : Sizes w n) (mem : Memory) (ops : List Op) (hops : AllAllowed w (start n mem) ops) :
    ∃ s, run w (start n mem) ops = some s ∧ Sound w n s := by
  obtain ⟨s, free, hrun, hs⟩ := (holds_start w n mem).run h hops
  exact ⟨s, hrun, hs.sound h⟩

/-- Two objects of a block; one is written to and released, then all are. -/
theorem run_sound_two :
    ∃ s, run 8 (start 2040 fun _ => 0) [.alloc 4096, .write 4104 255, .alloc 0, .release 4104, .releaseAll] =
      some s ∧ Sound 8 2040 s := by
  refine run_sound ⟨by decide, by decide, by decide⟩ (fun _ => 0) _ ⟨fun _ => ⟨by decide, nofun⟩, ?_⟩
  rintro s ⟨⟩
  refine ⟨Or.inl ⟨4104, by decide, by decide⟩, ?_⟩
  rintro s ⟨⟩
  refine ⟨fun h => absurd rfl h, ?_⟩
  rintro s ⟨⟩
  refine ⟨show 4104 ∈ [6144, 4104] by decide, ?_⟩
  rintro s ⟨⟩
  exact ⟨trivial, fun _ _ => trivial⟩

end Protozoa.Pool
