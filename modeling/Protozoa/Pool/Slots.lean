import Protozoa.Clump.RbTree
import Protozoa.Pool.Freelist

/-!
# The slots that a tree is given (`pool.c`)

The model of `rbtree.c` has slots with numbers: `Clump.ClPool` gives the slot that was released
last, or the next one that was never used. Here the pool of `pool.c`, with its blocks and the links
in their memory, does the same: number the slots in the order in which blocks are made of them
(`addrOf`), and each call of `cl_pool_alloc` gives the address of the slot that the other pool gives
(`Sim`).

`cl_pool_destroy` (`pool.c:153-163`) gives each block back to `free` once, and follows no link of a
block that is gone: what `free` makes of the block is an argument.

* **`slots_refine`**: any sequence of allocations, releases and writes gives the same slots at both
  levels, and no two slots have one address.
* **`destroy_frees`**: the blocks given to `free` are the blocks of the pool, each once, whatever
  `free` writes into them.
-/

namespace Protozoa.Pool

open Lib.LinkedList

variable {w n : Nat} {s : State} {free : List Nat}

/-! ## Slots with numbers -/

/-- A call of the pool of slots with numbers. -/
inductive SlotOp where
  | alloc
  | release (k : Nat)

/-- The pool, and the slots in use. -/
def slotStep (x : Clump.ClPool × List Nat) : SlotOp → Clump.ClPool × List Nat
  | .alloc =>
    let (k, p) := Clump.clPoolAlloc x.1
    (p, k :: x.2)
  | .release k => (Clump.clPoolRelease x.1 k, x.2.erase k)

/-- The address of a slot, where `names` are the addresses in their order. -/
def addrOf (names : List Nat) (k : Nat) : Nat := names.getD (k - 1) 0

/-- The objects in use, by addresses and by numbers. -/
structure SameLive (names : List Nat) (s : State) (x : Clump.ClPool × List Nat) : Prop where
  live : s.live = x.2.map (addrOf names)
  named : ∀ k ∈ x.2, 0 < k ∧ k ≤ names.length

/-- A run by addresses and the same run by numbers; what others write is no call. -/
inductive SameRun (w : Nat) (names : List Nat) :
    State → List Op → Clump.ClPool × List Nat → List SlotOp → Prop
  | nil {s : State} {x : Clump.ClPool × List Nat} (hlive : SameLive names s x) : SameRun w names s [] x []
  | alloc {s s' : State} {x : Clump.ClPool × List Nat} {malloc : Nat} {ops : List Op} {calls : List SlotOp}
      (hlive : SameLive names s x) (hstep : step w s (.alloc malloc) = some s')
      (hrest : SameRun w names s' ops (slotStep x .alloc) calls) :
      SameRun w names s (.alloc malloc :: ops) x (.alloc :: calls)
  | release {s s' : State} {x : Clump.ClPool × List Nat} {k : Nat} {ops : List Op} {calls : List SlotOp}
      (hlive : SameLive names s x) (hk : k ∈ x.2) (hstep : step w s (.release (addrOf names k)) = some s')
      (hrest : SameRun w names s' ops (slotStep x (.release k)) calls) :
      SameRun w names s (.release (addrOf names k) :: ops) x (.release k :: calls)
  | write {s s' : State} {x : Clump.ClPool × List Nat} {a : Nat} {b : BitVec 8} {ops : List Op}
      {calls : List SlotOp} (hlive : SameLive names s x) (hstep : step w s (.write a b) = some s')
      (hrest : SameRun w names s' ops x calls) : SameRun w names s (.write a b :: ops) x calls

/-- The two pools. -/
structure Sim (w n : Nat) (s : State) (p : Clump.ClPool) (live names : List Nat) : Prop where
  holds : Holds w n s (p.head.map (addrOf names) ++ names.drop (p.next - 1))
  next : 0 < p.next ∧ p.next ≤ names.length + 1
  used : ∀ k ∈ p.head ++ live, 0 < k ∧ k < p.next
  live : s.live = live.map (addrOf names)
  names : names.Perm (s.blocks.flatMap (slots w n))

theorem addrOf_append {names : List Nat} {k : Nat} (more : List Nat) (h : 0 < k ∧ k ≤ names.length) :
    addrOf (names ++ more) k = addrOf names k := by
  unfold addrOf
  rw [List.getD_eq_getElem?_getD, List.getD_eq_getElem?_getD, List.getElem?_append_left (by omega)]

theorem sim_start (w n : Nat) (mem : Memory) : Sim w n (start n mem) Clump.clPoolInit [] [] where
  holds := holds_start w n mem
  next := ⟨Nat.one_pos, le_rfl⟩
  used := nofun
  live := rfl
  names := .nil

namespace Holds

/-- The first slot of the freelist is given. -/
theorem alloc_cons {a : Nat} (hs : Holds w n s (a :: free)) (h : Sizes w n) (malloc : Nat) :
    ∃ s', Pool.step w s (.alloc malloc) = some s' ∧ Holds w n s' free ∧ s'.live = a :: s.live ∧
      s'.blocks = s.blocks := by
  obtain ⟨htake, htaken⟩ := hs.take
  have hne := (hs.fits h (List.mem_append_left s.live List.mem_cons_self)).1
  have hhead : s.pool.head ≠ 0 := hs.freelist.1 ▸ hne
  refine ⟨_, ?_, htaken, rfl, rfl⟩
  simp only [Pool.step, clPoolAlloc, if_neg hhead, htake, Option.bind_eq_bind, Option.bind_some, if_neg hne,
    if_neg fun hand : s.pool.head = 0 ∧ malloc ≠ 0 => hhead hand.1]
  rfl

/-- The first slot of a new block is given. -/
theorem alloc_nil (hs : Holds w n s []) (h : Sizes w n) {malloc : Nat} (hne : malloc ≠ 0)
    (hfresh : FreshBlock w s.blocks malloc) :
    ∃ s' a rest, Pool.slots w n malloc = a :: rest ∧ Pool.step w s (.alloc malloc) = some s' ∧ Holds w n s' rest ∧
      s'.live = a :: s.live ∧ s'.blocks = malloc :: s.blocks := by
  have hhead : s.pool.head = 0 := hs.freelist
  obtain ⟨pool, mem, hadd, hs'⟩ := hs.addBlock h hne hfresh
  obtain ⟨rest, hrest⟩ := exists_slots h malloc
  rw [hrest] at hs'
  obtain ⟨htake, htaken⟩ := hs'.take
  have hpos := h.pointer
  refine ⟨_, malloc + w, rest, hrest, ?_, htaken, rfl, rfl⟩
  have halloc : clPoolAlloc w s.pool s.mem malloc =
      some (malloc + w, { pool with head := load w mem (malloc + w) }, mem) := by
    unfold clPoolAlloc
    rw [if_pos hhead, hadd]
    exact (if_neg hne).trans (congrArg some htake)
  simp only [Pool.step, halloc, Option.bind_eq_bind, Option.bind_some, if_pos (And.intro hhead hne),
    if_neg (show malloc + w ≠ 0 by omega)]
  rfl

end Holds

/-- What is erased, by its name. -/
theorem map_erase {f : Nat → Nat} {k : Nat} {l : List Nat} (h : (l.map f).Nodup) (hk : k ∈ l) :
    (l.map f).erase (f k) = (l.erase k).map f := by
  induction l with
  | nil => exact absurd hk List.not_mem_nil
  | cons x l ih =>
    by_cases hx : x = k
    · rw [hx, List.map_cons, List.erase_cons_head, List.erase_cons_head]
    · have hmem : k ∈ l := (List.mem_cons.mp hk).resolve_left (Ne.symm hx)
      obtain ⟨hnot, hnodup⟩ := List.nodup_cons.mp h
      have hne : f x ≠ f k := fun heq => hnot (heq ▸ List.mem_map_of_mem hmem)
      rw [List.map_cons, List.erase_cons_tail (by simpa using hne), ih hnodup hmem,
        List.erase_cons_tail (by simpa using hx), List.map_cons]

namespace Sim

variable {p : Clump.ClPool} {live names : List Nat}

/-- **`cl_pool_alloc`** gives the address of the slot that is next. -/
theorem alloc (hs : Sim w n s p live names) (h : Sizes w n) {malloc : Nat} (hne : malloc ≠ 0)
    (hop : (Op.alloc malloc).Allowed w s) :
    ∃ s' more, step w s (.alloc malloc) = some s' ∧
      Sim w n s' (slotStep (p, live) .alloc).1 (slotStep (p, live) .alloc).2 (names ++ more) := by
  obtain ⟨head, next⟩ := p
  obtain ⟨hholds, ⟨hpos, hle⟩, hused, hlive, hnames⟩ := hs
  dsimp only at hpos hle hused
  cases head with
  | cons k head =>
    obtain ⟨s', hstep, hholds', hlive', hblocks⟩ := hholds.alloc_cons h malloc
    refine ⟨s', [], hstep, ?_⟩
    rw [List.append_nil]
    refine ⟨hholds', ⟨hpos, hle⟩, fun j hj => hused j (List.perm_middle.mem_iff.mp hj), ?_, hblocks ▸ hnames⟩
    rw [hlive', hlive]
    rfl
  | nil =>
    -- every slot but those in use is new
    have hnew : ∀ j ∈ next :: live, 0 < j ∧ j < next + 1 := by
      intro j hj
      rcases List.mem_cons.mp hj with rfl | hj
      · exact ⟨hpos, Nat.lt_succ_self _⟩
      · exact ⟨(hused j hj).1, Nat.lt_succ_of_lt (hused j hj).2⟩
    rcases Nat.lt_or_eq_of_le hle with hlt | heq
    · have hlt' : next - 1 < names.length := by omega
      have hdrop : names.drop (next - 1) = addrOf names next :: names.drop (next + 1 - 1) := by
        rw [List.drop_eq_getElem_cons hlt', addrOf, List.getD_eq_getElem?_getD, List.getElem?_eq_getElem hlt',
          Nat.sub_add_cancel hpos, Nat.add_sub_cancel]
        rfl
      have hcons : Holds w n s (addrOf names next :: names.drop (next + 1 - 1)) := hdrop ▸ hholds
      obtain ⟨s', hstep, hholds', hlive', hblocks⟩ := hcons.alloc_cons h malloc
      refine ⟨s', [], hstep, ?_⟩
      rw [List.append_nil]
      refine ⟨hholds', ⟨Nat.succ_pos _, Nat.succ_le_succ (Nat.lt_succ_iff.mp hlt)⟩, hnew, ?_, hblocks ▸ hnames⟩
      rw [hlive', hlive]
      rfl
    · have hnil : Holds w n s [] := by
        have hdrop : names.drop (next - 1) = [] := List.drop_eq_nil_of_le (by omega)
        rw [hdrop] at hholds
        exact hholds
      obtain ⟨s', a, rest, hslots, hstep, hholds', hlive', hblocks⟩ := hnil.alloc_nil h hne (hop hne)
      have hlen : next - 1 = names.length := by omega
      have hnext : addrOf (names ++ a :: rest) next = a := by
        rw [addrOf, hlen, List.getD_eq_getElem?_getD, List.getElem?_append_right le_rfl, Nat.sub_self]
        rfl
      have hdrop : (names ++ a :: rest).drop (next + 1 - 1) = rest := by
        have hsucc : next + 1 - 1 = names.length + 1 := by omega
        rw [hsucc, ← List.drop_drop, List.drop_left]
        rfl
      refine ⟨s', a :: rest, hstep, ?_, ⟨Nat.succ_pos _, ?_⟩, hnew, ?_, ?_⟩
      · show Holds w n s' (names ++ a :: rest |>.drop (next + 1 - 1))
        rw [hdrop]
        exact hholds'
      · show next + 1 ≤ _
        rw [List.length_append, List.length_cons]
        omega
      · rw [hlive', hlive]
        show _ = (next :: live).map _
        rw [List.map_cons, hnext]
        refine congrArg _ (List.map_congr_left fun j hj => ?_)
        have hbounds := hused j hj
        exact (addrOf_append _ ⟨hbounds.1, by omega⟩).symm
      · rw [hblocks, List.flatMap_cons, hslots]
        exact (hnames.append_right _).trans List.perm_append_comm

/-- **`cl_pool_release`** of the address of a slot. -/
theorem release (hs : Sim w n s p live names) (h : Sizes w n) {k : Nat} (hk : k ∈ live) :
    ∃ s', step w s (.release (addrOf names k)) = some s' ∧
      Sim w n s' (slotStep (p, live) (.release k)).1 (slotStep (p, live) (.release k)).2 names := by
  obtain ⟨hholds, hnext, hused, hlive, hnames⟩ := hs
  have hmem : addrOf names k ∈ s.live := hlive ▸ List.mem_map_of_mem hk
  have hnodup : (live.map (addrOf names)).Nodup := hlive ▸ (List.nodup_append.mp (hholds.nodup h)).2.1
  refine ⟨_, rfl, hholds.release h hmem, hnext, fun j hj => ?_, ?_, hnames⟩
  · rcases List.mem_append.mp hj with hj | hj
    · rcases List.mem_cons.mp hj with rfl | hj
      · exact hused j (List.mem_append_right _ hk)
      · exact hused j (List.mem_append_left _ hj)
    · exact hused j (List.mem_append_right _ (List.mem_of_mem_erase hj))
  · show s.live.erase _ = _
    rw [hlive, map_erase hnodup hk]
    rfl

/-- What someone else writes is no slot that is free. -/
theorem write (hs : Sim w n s p live names) (h : Sizes w n) {a : Nat} {b : BitVec 8}
    (hop : (Op.write a b).Allowed w s) :
    ∃ s', step w s (.write a b) = some s' ∧ Sim w n s' p live names :=
  ⟨_, rfl, hs.holds.write h hop, hs.next, hs.used, hs.live, hs.names⟩

/-- The names that are there stay. -/
theorem sameLive (hs : Sim w n s p live names) (more : List Nat) : SameLive (names ++ more) s (p, live) := by
  have hbounds : ∀ k ∈ live, 0 < k ∧ k ≤ names.length := by
    intro k hk
    have hused := hs.used k (List.mem_append_right _ hk)
    have hnext := hs.next.2
    omega
  refine ⟨hs.live.trans (List.map_congr_left fun k hk => (addrOf_append more (hbounds k hk)).symm), fun k hk => ?_⟩
  have hk := hbounds k hk
  rw [List.length_append]
  omega

theorem nodup (hs : Sim w n s p live names) (h : Sizes w n) : names.Nodup := by
  refine hs.names.nodup_iff.mpr ((pairwise_slots h hs.holds.apart).imp ?_)
  rintro a b hapart rfl
  have hpos := Nat.lt_of_lt_of_le h.pointer h.object
  omega

theorem run (hs : Sim w n s p live names) (h : Sizes w n) {ops : List Op} (hops : AllAllowed w s ops)
    (hplain : ∀ op ∈ ops, op ≠ .releaseAll ∧ op ≠ .alloc 0) :
    ∃ more calls, (names ++ more).Nodup ∧ SameRun w (names ++ more) s ops (p, live) calls := by
  induction ops generalizing s p live names with
  | nil => exact ⟨[], [], by rw [List.append_nil]; exact hs.nodup h, .nil (hs.sameLive [])⟩
  | cons op ops ih =>
    obtain ⟨hop, hrest⟩ := hops
    obtain ⟨hplain₁, hplain'⟩ := List.forall_mem_cons.mp hplain
    cases op with
    | alloc malloc =>
      obtain ⟨s', more, hstep, hs'⟩ := hs.alloc h (fun hzero => hplain₁.2 (hzero ▸ rfl)) hop
      obtain ⟨more', calls, hnodup, hrun⟩ := ih hs' (hrest s' hstep) hplain'
      rw [List.append_assoc] at hnodup hrun
      exact ⟨more ++ more', .alloc :: calls, hnodup, .alloc (hs.sameLive _) hstep hrun⟩
    | release m =>
      have hm : m ∈ s.live := hop
      rw [hs.live] at hm
      obtain ⟨k, hk, rfl⟩ := List.mem_map.mp hm
      obtain ⟨s', hstep, hs'⟩ := hs.release h hk
      obtain ⟨more, calls, hnodup, hrun⟩ := ih hs' (hrest s' hstep) hplain'
      have hused := hs.used k (List.mem_append_right _ hk)
      have hnext := hs.next.2
      have haddr : addrOf (names ++ more) k = addrOf names k := addrOf_append more ⟨hused.1, by omega⟩
      refine ⟨more, .release k :: calls, hnodup, ?_⟩
      rw [← haddr] at hstep ⊢
      exact .release (hs.sameLive more) hk hstep hrun
    | releaseAll => exact absurd rfl hplain₁.1
    | write a b =>
      obtain ⟨s', hstep, hs'⟩ := hs.write h hop
      obtain ⟨more, calls, hnodup, hrun⟩ := ih hs' (hrest s' hstep) hplain'
      exact ⟨more, calls, hnodup, .write (hs.sameLive more) hstep hrun⟩

end Sim

/-- **The pool of `pool.c` does what the pool of slots with numbers does**: in any sequence of calls
while memory lasts, and whatever is written to the objects in use, each object that is given or
given back is the one at the address of the slot that the other pool gives or is given back. -/
theorem slots_refine (h : Sizes w n) (mem : Memory) (ops : List Op) (hops : AllAllowed w (start n mem) ops)
    (hplain : ∀ op ∈ ops, op ≠ .releaseAll ∧ op ≠ .alloc 0) :
    ∃ names calls, names.Nodup ∧ SameRun w names (start n mem) ops (Clump.clPoolInit, []) calls :=
  (sim_start w n mem).run h hops hplain

/-- Two objects of a block; one is written to and released. -/
theorem slots_refine_two : ∃ names calls, names.Nodup ∧ SameRun 8 names (start 2040 fun _ => 0)
    [.alloc 4096, .write 4104 255, .alloc 8192, .release 4104] (Clump.clPoolInit, []) calls := by
  refine slots_refine ⟨by decide, by decide, by decide⟩ (fun _ => 0) _ ⟨fun _ => ⟨by decide, nofun⟩, ?_⟩ ?_
  · rintro s ⟨⟩
    refine ⟨Or.inl ⟨4104, by decide, by decide⟩, ?_⟩
    rintro s ⟨⟩
    refine ⟨fun _ => ⟨by decide, show ∀ b ∈ [4096], Apart mallocSize 8192 b by decide⟩, ?_⟩
    rintro s ⟨⟩
    exact ⟨show 4104 ∈ [6144, 4104] by decide, fun _ _ => trivial⟩
  · intro op hop
    simp only [List.mem_cons, List.not_mem_nil, or_false] at hop
    rcases hop with rfl | rfl | rfl | rfl <;> exact ⟨nofun, nofun⟩

/-! ## Destroying a pool -/

/-- `while(block) …` of `cl_pool_destroy`, with the memory that `free` leaves and the blocks it is
given. -/
def destroyLoop (w : Nat) (free : Memory → Nat → Memory) : Nat → Memory → Nat → Option (Memory × List Nat)
  | 0, _, _ => none
  | fuel + 1, mem, block =>
    if block = 0 then some (mem, [])
    else do
      let next := load w mem block
      let (mem, freed) ← destroyLoop w free fuel (free mem block) next
      return (mem, block :: freed)

/-- `cl_pool_destroy`, of a pool with less than `fuel` blocks. -/
def clPoolDestroy (w : Nat) (free : Memory → Nat → Memory) (p : ClPool) (mem : Memory) (fuel : Nat) :
    Option (ClPool × Memory × List Nat) := do
  let (mem, freed) ← destroyLoop w free fuel mem p.block
  return ({ p with block := 0, head := 0 }, mem, freed)

theorem destroyLoop_spec (h : Sizes w n) {free : Memory → Nat → Memory}
    (hfree : ∀ mem b x, x < b ∨ b + mallocSize ≤ x → free mem b x = mem x) {bs : List Nat} {mem : Memory} {block : Nat}
    (hlinked : Linked w mem block bs 0) (hne : ∀ b ∈ bs, b ≠ 0) (hapart : bs.Pairwise (Apart mallocSize)) :
    ∃ mem', destroyLoop w free (bs.length + 1) mem block = some (mem', bs) ∧
      ∀ x, (∀ b ∈ bs, x < b ∨ b + mallocSize ≤ x) → mem' x = mem x := by
  induction bs generalizing mem block with
  | nil =>
    obtain rfl := hlinked
    exact ⟨mem, if_pos rfl, fun _ _ => rfl⟩
  | cons b bs ih =>
    obtain ⟨rfl, hlinked⟩ := hlinked
    obtain ⟨hb, hne⟩ := List.forall_mem_cons.mp hne
    obtain ⟨hother, hapart⟩ := List.pairwise_cons.mp hapart
    have hblock := h.block
    have hlinked' : Linked w (free mem block) (load w mem block) bs 0 :=
      hlinked.congr fun b hb x hlo hhi => hfree mem block x (by
        have := hother b hb
        omega)
    obtain ⟨mem', hloop, hsame⟩ := ih hlinked' hne hapart
    refine ⟨mem', ?_, fun x hx => ?_⟩
    · rw [List.length_cons, destroyLoop, if_neg hb]
      simp only [hloop, Option.bind_eq_bind, Option.bind_some]
      rfl
    · obtain ⟨hx, hrest⟩ := List.forall_mem_cons.mp hx
      rw [hsame x hrest, hfree mem block x hx]

/-- **Every block is freed once**, whatever was done with the pool, and whatever `free` makes of a
block; the pool is as it was when it was new. -/
theorem destroy_frees (h : Sizes w n) (mem : Memory) (ops : List Op) (hops : AllAllowed w (start n mem) ops)
    {free : Memory → Nat → Memory} (hfree : ∀ mem b x, x < b ∨ b + mallocSize ≤ x → free mem b x = mem x) :
    ∃ s mem', run w (start n mem) ops = some s ∧
      clPoolDestroy w free s.pool s.mem (s.blocks.length + 1) = some (clPoolInit n, mem', s.blocks) ∧ s.blocks.Nodup ∧
      ∀ x, (∀ b ∈ s.blocks, x < b ∨ b + mallocSize ≤ x) → mem' x = s.mem x := by
  obtain ⟨s, slots, hrun, hs⟩ := (holds_start w n mem).run h hops
  obtain ⟨mem', hloop, hsame⟩ := destroyLoop_spec h hfree hs.blocks (fun b hb => (hs.placed b hb).1) hs.apart
  refine ⟨s, mem', hrun, ?_, hs.apart.imp ?_, hsame⟩
  · unfold clPoolDestroy clPoolInit
    rw [hloop, ← hs.nBytes]
    rfl
  · rintro a b hapart rfl
    have hpos : 0 < mallocSize := by decide
    omega

/-- A `free` that leaves nothing of a block. -/
def overwrite (mem : Memory) (block : Nat) : Memory :=
  fun x => if block ≤ x ∧ x < block + mallocSize then 255 else mem x

/-- Three objects, for which there are two blocks. -/
theorem destroy_frees_two : ∃ s mem', run 8 (start 2040 fun _ => 0) [.alloc 4096, .alloc 0, .alloc 8192] = some s ∧
    s.blocks = [8192, 4096] ∧
    clPoolDestroy 8 overwrite s.pool s.mem (s.blocks.length + 1) = some (clPoolInit 2040, mem', s.blocks) ∧
    s.blocks.Nodup ∧ ∀ x, (∀ b ∈ s.blocks, x < b ∨ b + mallocSize ≤ x) → mem' x = s.mem x := by
  obtain ⟨s, mem', hrun, hdestroy⟩ :=
    @destroy_frees 8 2040 ⟨by decide, by decide, by decide⟩ (fun _ => 0) [.alloc 4096, .alloc 0, .alloc 8192] (by
      refine ⟨fun _ => ⟨by decide, nofun⟩, ?_⟩
      rintro s ⟨⟩
      refine ⟨fun h => absurd rfl h, ?_⟩
      rintro s ⟨⟩
      exact ⟨fun _ => ⟨by decide, show ∀ b ∈ [4096], Apart mallocSize 8192 b by decide⟩, fun _ _ => trivial⟩)
      overwrite fun mem b x hout => if_neg (by omega)
  obtain ⟨s', hrun', hblocks⟩ : ∃ s', run 8 (start 2040 fun _ => 0) [.alloc 4096, .alloc 0, .alloc 8192] = some s' ∧
      s'.blocks = [8192, 4096] := ⟨_, rfl, rfl⟩
  obtain rfl := Option.some.inj (hrun.symm.trans hrun')
  exact ⟨s, mem', hrun, hblocks, hdestroy⟩

end Protozoa.Pool
