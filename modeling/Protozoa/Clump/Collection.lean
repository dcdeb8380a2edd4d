import Protozoa.Clump.Refine

/-!
# The rest of `rbtree.c`: looking up, duplicates, clearing

The deferred packets are in a tree with `CL_DUP_ALLOW`. This is the other half of the collection:
`cl_rbtree_lookup` (`rbtree.c:174-189`) and what is made of it, `cl_rbtree_get` (`rbtree.c:234-240`)
and the additions of `CL_DUP_REJECT` and `CL_DUP_REPLACE` (`rbtree.c:191-207`); and
`cl_rbtree_clear` (`rbtree.c:328-349`), which gives the slots back while it still walks the tree.
What `cl_pool_release` leaves of a node is an argument (`freed`): a walk that looked at a released
node again would see it.

* `lookupLoop_spec`: the path down to the value that is found, or to where it would be (`Looked`).
* **`lookup_short`**: after any calls a look-up takes no more steps than twice the logarithm of the
  number of items (`Represents.height_le`), and gives what an unbounded one would.
* `Keeps`: what a tree with one of the three methods holds between two calls; one lemma for each
  call.
* **`calls_refine`**: any sequence of calls on a tree with any of the three methods of addition
  gives what the sorted bag or the map of `Lib/SortedBag.lean` gives.
-/

namespace Protozoa.Clump

open Lib.LinkedTree Lib.RedBlack Lib.SortedBag

variable {α : Type}

/-! ## The source -/

/-- `while(c != CL_EQUAL) { … }` of `cl_rbtree_lookup`. -/
def lookupLoop (compare : α → α → Ordering) (mem : Mem α) (value : α) : Nat → Nat → Ordering → Option (Option Nat)
  | 0, _, _ => none
  | fuel + 1, n, c =>
    if c = .eq then some (some n)
    else
      match (mem n).link (if c = .gt then .left else .right) with
      | none => some none
      | some n => do
        let v ← (mem n).value
        lookupLoop compare mem value fuel n (compare v value)

/-- `cl_rbtree_lookup`, with so many steps at most. -/
def lookupWithin (compare : α → α → Ordering) (tree : ClRbtree α) (value : α) (fuel : Nat) : Option (Option Nat) :=
  match tree.root with
  | none => some none
  | some n => do
    let v ← (tree.mem n).value
    lookupLoop compare tree.mem value fuel n (compare v value)

/-- `cl_rbtree_lookup`. -/
def clRbtreeLookup (compare : α → α → Ordering) (tree : ClRbtree α) (value : α) : Option (Option Nat) :=
  lookupWithin compare tree value (loopFuel tree)

/-- `cl_rbtree_add_dup_reject`. -/
def clRbtreeAddDupReject (compare : α → α → Ordering) (tree : ClRbtree α) (value : α) :
    Option (α × ClRbtree α) := do
  match ← clRbtreeLookup compare tree value with
  | some n => return (← (tree.mem n).value, tree)
  | none => clRbtreeAdd compare tree value

/-- `cl_rbtree_add_dup_replace`. -/
def clRbtreeAddDupReplace (compare : α → α → Ordering) (tree : ClRbtree α) (value : α) :
    Option (α × ClRbtree α) := do
  match ← clRbtreeLookup compare tree value with
  | some n =>
    let v ← (tree.mem n).value
    return (v, { tree with mem := setValue tree.mem n (some value) })
  | none => clRbtreeAdd compare tree value

/-- `cl_dup_add_method`. -/
def clDupAddMethod (compare : α → α → Ordering) : Dup → ClRbtree α → α → Option (α × ClRbtree α)
  | .reject => clRbtreeAddDupReject compare
  | .allow => clRbtreeAdd compare
  | .replace => clRbtreeAddDupReplace compare

/-- `cl_rbtree_get`. -/
def clRbtreeGet (compare : α → α → Ordering) (tree : ClRbtree α) (value : α) : Option (Option α) := do
  match ← clRbtreeLookup compare tree value with
  | none => return none
  | some n => return (tree.mem n).value

/-- `cl_rbtree_count`. -/
def clRbtreeCount (tree : ClRbtree α) : UInt32 := tree.nItems

/-- What `cl_rbtree_clear_node` works on, and the values the callback has been given. -/
structure ClearState (α : Type) where
  pool : ClPool
  mem : Mem α
  called : List α

/-- `cl_rbtree_clear_node`. -/
def clRbtreeClearNode (freed : ClPool → Nat → Cell α) : Nat → Option Nat → ClearState α → Option (ClearState α)
  | _, none, s => some s
  | 0, some _, _ => none
  | fuel + 1, some n, s => do
    let s ← clRbtreeClearNode freed fuel ((s.mem n).link .left) s
    let s := { s with called := s.called ++ [← (s.mem n).value] }
    let s ← clRbtreeClearNode freed fuel ((s.mem n).link .right) s
    return { s with pool := clPoolRelease s.pool n, mem := s.mem.write n (freed s.pool n) }

/-- `cl_pool_destroy`: what is handed out next is in a new block. -/
def clPoolDestroy (p : ClPool) : ClPool := { p with head := [] }

/-- `cl_rbtree_clear`, with the values that the callback is given. -/
def clRbtreeClear (freed : ClPool → Nat → Cell α) (tree : ClRbtree α) : Option (List α × ClRbtree α) := do
  let s ← clRbtreeClearNode freed (loopFuel tree) tree.root ⟨tree.pool, tree.mem, []⟩
  return (s.called, ⟨clPoolDestroy s.pool, s.mem, none, 0⟩)

variable {compare : α → α → Ordering} {key : α} {tree : ClRbtree α} {t : BinTree α}

/-! ## Looking up -/

/-- No value on the path is equal to the one that is looked for. -/
def Passes (compare : α → α → Ordering) (key : α) (ctx : Ctx α) : Prop :=
  OnPath compare key ctx ∧ ∀ f ∈ ctx, compare f.v key ≠ .eq

theorem Passes.push {ctx : Ctx α} (h : Passes compare key ctx) (a : Nat) (c : Colour) {w : α}
    (k : Side → BinTree α) (hw : compare w key ≠ .eq) :
    Passes compare key (Frame.ofNode a c w k (dirOf compare key w) :: ctx) :=
  ⟨h.1.push a c w k, List.forall_mem_cons.mpr ⟨hw, h.2⟩⟩

/-- Of a sorted tree such a path passes all that is equal. -/
theorem Passes.not_after [Std.TransCmp compare] {ctx : Ctx α} {l : List α} (h : Passes compare key ctx)
    (hs : Sorted compare (lefts ctx ++ l ++ rights ctx)) : ∀ x ∈ rights ctx, compare x key ≠ .eq := by
  induction ctx generalizing l with
  | nil => exact fun x hx => absurd hx List.not_mem_nil
  | cons f ctx ih =>
    obtain ⟨a, c, w, side, sib⟩ := f
    obtain ⟨hpath, hne⟩ := h
    have hw : compare w key ≠ .eq := hne _ List.mem_cons_self
    have htail : Passes compare key ctx :=
      ⟨fun f hf => hpath f (List.mem_cons_of_mem _ hf), fun f hf => hne f (List.mem_cons_of_mem _ hf)⟩
    cases side with
    | left =>
      have hlt : compare w key ≠ .lt := dirOf_left.mp (hpath _ List.mem_cons_self)
      have hs' : Sorted compare (lefts ctx ++ (l ++ w :: sib.inorder) ++ rights ctx) := by
        simpa [Lib.LinkedTree.lefts, Lib.LinkedTree.rights] using hs
      intro x hx
      simp only [Lib.LinkedTree.rights, List.mem_cons, List.mem_append] at hx
      rcases hx with rfl | hx | hx
      · exact hw
      · -- `w` is above the key, and `x` is not below `w`
        simp only [Sorted, List.pairwise_append, List.pairwise_cons] at hs'
        have hwx : compare w x ≠ .gt := hs'.1.2.1.2.1.1 x hx
        intro hxk
        rw [Std.TransCmp.congr_right hxk] at hwx
        cases hc : compare w key
        · exact hlt hc
        · exact hw hc
        · exact hwx hc
      · exact ih htail hs' x hx
    | right =>
      have hs' : Sorted compare (lefts ctx ++ (sib.inorder ++ w :: l) ++ rights ctx) := by
        simpa [Lib.LinkedTree.lefts, Lib.LinkedTree.rights] using hs
      exact ih htail hs'

/-- What the look-up has found: a node with an equal value, or the end of the path where one would
be. -/
def Looked (compare : α → α → Ordering) (key : α) (t : BinTree α) : Option Nat → Prop
  | some a => ∃ ctx c x k, t = plug ctx (.node a c x k) ∧ compare x key = .eq ∧ Passes compare key ctx
  | none => ∃ ctx, t = plug ctx .nil ∧ Passes compare key ctx

/-- **The look-up goes down** to what it looks for, one level in each step. -/
theorem lookupLoop_spec {mem : Mem α} {ctx : Ctx α} (h : Stored mem t) (hpath : Passes compare key ctx) :
    ∃ out, Looked compare key (plug ctx t) out ∧ (t = .nil → out = none) ∧
      ∀ n c x k, t = .node n c x k → ∀ fuel, height t ≤ fuel →
        lookupLoop compare mem key fuel n (compare x key) = some out := by
  induction t generalizing ctx with
  | nil => exact ⟨none, ⟨ctx, rfl, hpath⟩, fun _ => rfl, nofun⟩
  | node n c x k ih =>
    by_cases heq : compare x key = .eq
    · refine ⟨some n, ⟨ctx, c, x, k, rfl, heq, hpath⟩, nofun, fun n' c' x' k' hnode fuel hfuel => ?_⟩
      cases hnode
      cases fuel with
      | zero => exact absurd hfuel (Nat.not_le.mpr (Nat.succ_pos _))
      | succ fuel => rw [lookupLoop, if_pos heq]
    set d := dirOf compare key x with hd
    have hside : (if compare x key = .gt then Side.left else .right) = d := by
      rw [hd, dirOf, clDirection]
      cases hc : compare x key
      · rfl
      · exact absurd hc heq
      · rfl
    have hlink : (mem n).link d = (k d).root := by rw [h.1]
    obtain ⟨out, hout, hnil, hrun⟩ := ih d (h.2 d) (hpath.push n c k heq)
    rw [plug, Frame.fill_ofNode] at hout
    refine ⟨out, hout, nofun, fun n' c' x' k' hnode fuel hfuel => ?_⟩
    cases hnode
    have hkid := height_kid n c x k d
    obtain ⟨fuel, rfl⟩ : ∃ fuel', fuel = fuel' + 1 := ⟨fuel - 1, by omega⟩
    rw [lookupLoop, if_neg heq, hside, hlink]
    cases hk : k d with
    | nil => rw [hnil hk]; rfl
    | node m c' x' k' =>
      have hst := h.2 d
      rw [hk] at hst
      have hvalue : (mem m).value = some x' := by rw [hst.1]
      simp only [BinTree.root_node, hvalue, Option.bind_eq_bind, Option.bind_some]
      exact hrun m c' x' k' hk fuel (by omega)

/-- **`cl_rbtree_lookup`**, with as many steps as the tree is high. -/
theorem lookupWithin_any (compare : α → α → Ordering) (key : α) (h : Represents tree t) :
    ∃ out, Looked compare key t out ∧ ∀ fuel, height t ≤ fuel → lookupWithin compare tree key fuel = some out := by
  have htop : Passes compare key ([] : Ctx α) :=
    ⟨fun f hf => absurd hf List.not_mem_nil, fun f hf => absurd hf List.not_mem_nil⟩
  obtain ⟨out, hout, hnil, hrun⟩ := lookupLoop_spec h.stored htop
  refine ⟨out, hout, fun fuel hfuel => ?_⟩
  unfold lookupWithin
  rw [h.root]
  cases ht : t with
  | nil => rw [hnil ht]; rfl
  | node n c x k =>
    have hst := h.stored
    rw [ht] at hst
    have hvalue : (tree.mem n).value = some x := by rw [hst.1]
    simp only [BinTree.root_node, hvalue, Option.bind_eq_bind, Option.bind_some]
    exact hrun n c x k ht _ hfuel

theorem Represents.height_le (h : Represents tree t) : height t ≤ 2 * Nat.log2 (t.size + 1) := by
  obtain ⟨b, hb⟩ := h.rb
  exact hb.height_le_log h.black

theorem Represents.height_le_fuel (h : Represents tree t) : height t ≤ loopFuel tree := by
  have hsize := h.pool.size_lt
  have hlow := h.height_le
  have hlog := Nat.log2_le_self (t.size + 1)
  unfold loopFuel
  omega

/-- A node that is found is in the tree. -/
theorem looked_some {a : Nat} (h : Represents tree t) (hout : Looked compare key t (some a)) :
    ∃ ctx c x k, t = plug ctx (.node a c x k) ∧ compare x key = .eq ∧ (tree.mem a).value = some x := by
  obtain ⟨ctx, c, x, k, ht, hx, -⟩ := hout
  have hstored : ∀ {ctx : Ctx α} {s : BinTree α}, Stored tree.mem (plug ctx s) → Stored tree.mem s := by
    intro ctx
    induction ctx with
    | nil => exact id
    | cons f ctx ih => exact fun hs => (stored_kids.mp (ih hs)).2.1
  have hst := h.stored
  rw [ht] at hst
  exact ⟨ctx, c, x, k, ht, hx, by rw [(hstored hst).1]⟩

/-- `n->value = value` of a node that is found. -/
theorem represents_replace (h : Represents tree t) (a : Nat) (v : α) :
    Represents { tree with mem := setValue tree.mem a (some v) } (t.replace a v) := by
  have hstored : ∀ {s : BinTree α}, Stored tree.mem s → Stored (setValue tree.mem a (some v)) (s.replace a v) := by
    intro s hs
    induction s with
    | nil => trivial
    | node b c x k ih =>
      refine ⟨?_, fun d => ih d (hs.2 d)⟩
      have hlinks : (fun d => ((k d).replace a v).root) = fun d => (k d).root :=
        funext fun d => BinTree.root_replace
      rw [hlinks]
      by_cases hb : b = a
      · rw [if_pos hb, hb, setValue, Mem.write_self, ← hb, hs.1]
      · rw [if_neg hb, setValue, Mem.write_ne _ _ hb, hs.1]
  obtain ⟨b, hb⟩ := h.rb
  refine ⟨h.root.trans BinTree.root_replace.symm, hstored h.stored, ?_, BinTree.notRed_replace.mpr h.black,
    b, hb.replace⟩
  rw [BinTree.addrs_replace]
  exact h.pool

/-- The other values stay. -/
theorem inorder_replace {a : Nat} {ctx : Ctx α} {c : Colour} {x : α} {k : Side → BinTree α} (v : α)
    (h : Represents tree (plug ctx (.node a c x k))) :
    ((plug ctx (.node a c x k)).replace a v).inorder =
      lefts ctx ++ (k .left).inorder ++ v :: ((k .right).inorder ++ rights ctx) := by
  have hnd : ((BinTree.node a c x k).addrs ++ ctxAddrs froot ctx).Nodup := by
    have hpool := h.pool.nodup
    rw [List.nodup_cons, List.nodup_append] at hpool
    refine (plug_addrs froot ctx _).nodup_iff.mp (List.nodup_cons.mpr ⟨fun hf => hpool.1 ?_, hpool.2.1⟩)
    exact List.mem_append_left _ hf
  obtain ⟨hnode, -, hdisj⟩ := List.nodup_append.mp hnd
  have hctx : a ∉ ctxAddrs froot ctx := fun ha => hdisj a List.mem_cons_self a ha rfl
  have hkid : ∀ d, (k d).replace a v = k d := by
    intro d
    refine BinTree.replace_of_not_mem fun ha => (List.nodup_cons.mp hnode).1 ?_
    cases d with
    | left => exact List.mem_append_left _ ha
    | right => exact List.mem_append_right _ ha
  rw [replace_plug v hctx, inorder_plug, BinTree.replace, if_pos rfl, BinTree.inorder, hkid, hkid]
  simp only [List.append_assoc, List.cons_append]

/-- Nothing is equal to what is not found. -/
theorem looked_none [Std.TransCmp compare] (hs : Sorted compare t.inorder) (hout : Looked compare key t none) :
    Fresh compare key t.inorder := by
  obtain ⟨ctx, rfl, hpath⟩ := hout
  rw [inorder_plug] at hs ⊢
  obtain ⟨hlefts, -⟩ := hpath.1.search hs
  intro x hx
  simp only [BinTree.inorder, List.append_nil, Multiset.mem_coe, List.mem_append] at hx
  rcases hx with hx | hx
  · rw [hlefts x hx]
    decide
  · exact hpath.not_after hs x hx

/-! ## Calls -/

/-- What holds of a tree with this method of addition: its values are the list `l`, in order. -/
structure Keeps (compare : α → α → Ordering) (dup : Dup) (tree : ClRbtree α) (l : List α) : Prop
    extends Holds compare tree l where
  distinct : dup ≠ .allow → Distinct compare l

variable {dup : Dup} {l : List α}

theorem Keeps.ordered (h : Keeps compare dup tree l) : Ordered compare dup l := ⟨h.sorted, h.distinct⟩

theorem Holds.keeps {l : List α} (h : Holds compare tree l) (ho : Ordered compare dup l) : Keeps compare dup tree l :=
  ⟨h, ho.distinct⟩

/-- A value without an equal is added. -/
theorem Keeps.add_fresh [Std.TransCmp compare] (h : Keeps compare dup tree l) (v : α)
    (hv : dup ≠ .allow → Fresh compare v l) :
    ∃ tree', clRbtreeAdd compare tree v = some (v, tree') ∧ Keeps compare dup tree' (add compare v l) := by
  obtain ⟨tree', hrun, hholds⟩ := runOp_holds (.add v) h.toHolds
  obtain ⟨⟨v', tree''⟩, hadd, heq⟩ := Option.map_eq_some_iff.mp hrun
  obtain ⟨hv', rfl⟩ := Prod.mk.inj heq
  obtain rfl : v' = v := Option.some.inj hv'
  exact ⟨tree'', hadd, hholds.keeps (h.ordered.add hv)⟩

theorem coe_add (compare : α → α → Ordering) (v : α) (l : List α) :
    ((add compare v l : List α) : Multiset α) = v ::ₘ (l : Multiset α) :=
  Multiset.coe_eq_coe.mpr (perm_add compare v l)

/-- **`cl_rbtree_lookup`** gives a node with an equal value, or there is none. -/
theorem Keeps.lookup [Std.TransCmp compare] (h : Keeps compare dup tree l) (key : α) :
    ∃ out, clRbtreeLookup compare tree key = some out ∧ match out with
      | some a => ∃ x l₁ l₂, l = l₁ ++ x :: l₂ ∧ compare x key = .eq ∧ (tree.mem a).value = some x ∧
          ∀ v, compare x v = .eq →
            Keeps compare dup { tree with mem := setValue tree.mem a (some v) } (l₁ ++ v :: l₂)
      | none => Fresh compare key l := by
  obtain ⟨⟨⟨t, hrep, rfl⟩, hsorted, hn⟩, hdistinct⟩ := h
  obtain ⟨out, hout, hrun⟩ := lookupWithin_any compare key hrep
  refine ⟨out, hrun _ hrep.height_le_fuel, ?_⟩
  cases out with
  | none => exact looked_none hsorted hout
  | some a =>
    obtain ⟨ctx, c, x, k, rfl, hx, hvalue⟩ := looked_some hrep hout
    have hl : (plug ctx (.node a c x k)).inorder =
        lefts ctx ++ (k .left).inorder ++ x :: ((k .right).inorder ++ rights ctx) := by
      rw [inorder_plug, BinTree.inorder]
      simp only [List.append_assoc, List.cons_append]
    refine ⟨x, _, _, hl, hx, hvalue, fun v hv => ?_⟩
    rw [hl] at hsorted hdistinct hn
    have hordered : Ordered compare dup _ := Ordered.exchange hv ⟨hsorted, hdistinct⟩
    refine Holds.keeps ⟨⟨_, represents_replace hrep a v, inorder_replace v hrep⟩, hordered.sorted, ?_⟩ hordered
    show tree.nItems = _
    rw [hn]
    simp only [List.length_append, List.length_cons]

/-- **`cl_rbtree_add`** with any of the three methods. -/
theorem Keeps.dupAddMethod [Std.TransCmp compare] (h : Keeps compare dup tree l) (v : α) :
    ∃ out tree' l', clDupAddMethod compare dup tree v = some (out, tree') ∧ Keeps compare dup tree' l' ∧
      AddStep compare v out l l' dup := by
  obtain ⟨found, hlookup, hfound⟩ := h.lookup v
  have hadd : (dup ≠ .allow → Fresh compare v l) →
      ∃ tree', clRbtreeAdd compare tree v = some (v, tree') ∧ Keeps compare dup tree' (add compare v l) := h.add_fresh v
  cases dup with
  | allow =>
    obtain ⟨tree', hrun, hkeeps⟩ := hadd fun hne => absurd rfl hne
    exact ⟨v, tree', _, hrun, hkeeps, rfl, coe_add compare v l⟩
  | reject =>
    show ∃ out tree' l', clRbtreeAddDupReject compare tree v = some (out, tree') ∧ _ ∧ _
    unfold clRbtreeAddDupReject
    rw [hlookup]
    cases found with
    | none =>
      obtain ⟨tree', hrun, hkeeps⟩ := hadd fun _ => hfound
      exact ⟨v, tree', _, hrun, hkeeps, Or.inr ⟨hfound, rfl, coe_add compare v l⟩⟩
    | some a =>
      obtain ⟨x, l₁, l₂, hl, hx, hvalue, -⟩ := hfound
      refine ⟨x, tree, l, ?_, h, Or.inl ⟨?_, hx, rfl⟩⟩
      · simp only [Option.bind_eq_bind, Option.bind_some, hvalue]
        rfl
      · rw [hl]
        exact List.mem_append_right _ List.mem_cons_self
  | replace =>
    show ∃ out tree' l', clRbtreeAddDupReplace compare tree v = some (out, tree') ∧ _ ∧ _
    unfold clRbtreeAddDupReplace
    rw [hlookup]
    cases found with
    | none =>
      obtain ⟨tree', hrun, hkeeps⟩ := hadd fun _ => hfound
      exact ⟨v, tree', _, hrun, hkeeps, Or.inr ⟨hfound, rfl, coe_add compare v l⟩⟩
    | some a =>
      obtain ⟨x, l₁, l₂, hl, hx, hvalue, hkeeps⟩ := hfound
      refine ⟨x, _, _, ?_, hkeeps v hx, Or.inl ⟨(l₁ ++ l₂ : List α), hx, ?_, ?_⟩⟩
      · simp only [Option.bind_eq_bind, Option.bind_some, hvalue]
        rfl
      · rw [hl]
        exact Multiset.coe_eq_coe.mpr List.perm_middle
      · exact Multiset.coe_eq_coe.mpr List.perm_middle

/-- **`cl_rbtree_get`** -/
theorem Keeps.get [Std.TransCmp compare] (h : Keeps compare dup tree l) (key : α) :
    ∃ out, clRbtreeGet compare tree key = some out ∧ CallStep compare dup (.get key) (.value out) l l := by
  obtain ⟨found, hlookup, hfound⟩ := h.lookup key
  unfold clRbtreeGet
  rw [hlookup]
  cases found with
  | none => exact ⟨none, rfl, rfl, Or.inr ⟨hfound, rfl⟩⟩
  | some a =>
    obtain ⟨x, l₁, l₂, hl, hx, hvalue, -⟩ := hfound
    refine ⟨some x, congrArg some hvalue, rfl, Or.inl ⟨x, ?_, hx, rfl⟩⟩
    rw [hl]
    exact List.mem_append_right _ List.mem_cons_self

/-- **`cl_rbtree_remove`** -/
theorem Keeps.remove [Std.TransCmp compare] (h : Keeps compare dup tree l) (key : α) :
    ∃ out tree' l', clRbtreeRemove compare tree key = some (out, tree') ∧ Keeps compare dup tree' l' ∧
      CallStep compare dup (.remove key) (.value out) l l' := by
  obtain ⟨tree', hrun, hholds⟩ := runOp_holds (.remove key) h.toHolds
  refine ⟨_, tree', _, hrun, hholds.keeps h.ordered.remove, ?_⟩
  rcases @run_bagStep _ compare (.remove key) l with ⟨x, hx, hout, hl⟩ | ⟨hne, hout, hl⟩
  · exact Or.inl ⟨x, hx, congrArg Ret.value hout, hl⟩
  · exact Or.inr ⟨hne, congrArg Ret.value hout, hl⟩

/-- **`cl_rbtree_clear_node`** gives the callback the values in order and releases each node once,
whatever becomes of a released node: it is not looked at again. -/
theorem clRbtreeClearNode_spec (freed : ClPool → Nat → Cell α) {fuel : Nat} {s : ClearState α}
    (h : Stored s.mem t) (hnd : t.addrs.Nodup) (hfuel : t.size ≤ fuel) :
    ∃ s', clRbtreeClearNode freed fuel t.root s = some s' ∧ s'.called = s.called ++ t.inorder ∧
      s'.pool.head.Perm (t.addrs ++ s.pool.head) ∧ s'.pool.next = s.pool.next ∧
      ∀ x, x ∉ t.addrs → s'.mem x = s.mem x := by
  induction t generalizing fuel s with
  | nil => exact ⟨s, by cases fuel <;> rfl, (List.append_nil _).symm, .refl _, rfl, fun _ _ => rfl⟩
  | node n c v k ih =>
    obtain ⟨fuel, rfl⟩ : ∃ fuel', fuel = fuel' + 1 := ⟨fuel - 1, by rw [BinTree.size] at hfuel; omega⟩
    rw [BinTree.size] at hfuel
    rw [BinTree.addrs, List.nodup_cons, List.nodup_append, List.mem_append, not_or] at hnd
    obtain ⟨⟨hnl, hnr⟩, hndl, hndr, hdisj⟩ := hnd
    obtain ⟨s₁, hrun₁, hcalled₁, hpool₁, hnext₁, hmem₁⟩ := ih .left (h.2 .left) hndl (show _ ≤ fuel by omega)
    -- the node itself is as it was, and so is what is on its right
    have hnode : s₁.mem n = ⟨c, fun d => (k d).root, some v⟩ := (hmem₁ n hnl).trans h.1
    have hright : Stored s₁.mem (k .right) :=
      (h.2 .right).congr fun x hx => hmem₁ x fun hx' => hdisj x hx' x hx rfl
    obtain ⟨s₂, hrun₂, hcalled₂, hpool₂, hnext₂, hmem₂⟩ :=
      ih .right (s := { s₁ with called := s₁.called ++ [v] }) hright hndr (show _ ≤ fuel by omega)
    refine ⟨{ s₂ with pool := clPoolRelease s₂.pool n, mem := s₂.mem.write n (freed s₂.pool n) }, ?_, ?_, ?_, ?_,
      fun x hx => ?_⟩
    · have hlink : (s.mem n).link .left = (k .left).root := by rw [h.1]
      rw [BinTree.root_node, clRbtreeClearNode, hlink, hrun₁]
      simp only [Option.bind_eq_bind, Option.bind_some, hnode, hrun₂]
      rfl
    · rw [BinTree.inorder]
      show s₂.called = _
      rw [hcalled₂, hcalled₁]
      simp only [List.append_assoc, List.cons_append, List.nil_append]
    · refine (hpool₂.cons n).trans (.cons n ?_)
      refine (hpool₁.append_left _).trans ?_
      rw [← List.append_assoc]
      exact List.perm_append_comm.append_right _
    · exact hnext₂.trans hnext₁
    · rw [BinTree.addrs, List.mem_cons, List.mem_append, not_or, not_or] at hx
      obtain ⟨hne, hxl, hxr⟩ := hx
      exact (Mem.write_ne _ _ hne).trans ((hmem₂ x hxr).trans (hmem₁ x hxl))

/-- **`cl_rbtree_clear`** -/
theorem Keeps.clear [Std.TransCmp compare] (freed : ClPool → Nat → Cell α) (h : Keeps compare dup tree l) :
    ∃ tree', clRbtreeClear freed tree = some (l, tree') ∧ Keeps compare dup tree' [] := by
  obtain ⟨⟨⟨t, hrep, rfl⟩, hsorted, hn⟩, hdistinct⟩ := h
  have hnd : t.addrs.Nodup := by
    have hpool := hrep.pool.nodup
    rw [List.nodup_cons, List.nodup_append] at hpool
    exact hpool.2.1
  obtain ⟨s, hrun, hcalled, -, hnext, -⟩ := clRbtreeClearNode_spec freed (s := ⟨tree.pool, tree.mem, []⟩)
    hrep.stored hnd (show t.size ≤ loopFuel tree by have := hrep.pool.size_lt; unfold loopFuel; omega)
  refine ⟨⟨clPoolDestroy s.pool, s.mem, none, 0⟩, ?_,
    Holds.keeps ⟨⟨.nil, ?_, rfl⟩, .nil, rfl⟩ (ordered_nil compare dup)⟩
  · unfold clRbtreeClear
    rw [hrep.root, hrun]
    show some (s.called, _) = _
    rw [hcalled]
    rfl
  · refine ⟨rfl, trivial, ⟨List.nodup_singleton froot, fun x hx => ?_⟩, trivial, 0, rfl⟩
    obtain rfl := List.mem_singleton.mp hx
    have hfroot := hrep.pool.bound froot List.mem_cons_self
    show froot < s.pool.next
    rw [hnext]
    exact hfroot

/-- One call, with what it gives. -/
def runCall (compare : α → α → Ordering) (dup : Dup) (freed : ClPool → Nat → Cell α) (tree : ClRbtree α) :
    Call α → Option (Ret α × ClRbtree α)
  | .add v => (clDupAddMethod compare dup tree v).map fun x => (.value (some x.1), x.2)
  | .get key => (clRbtreeGet compare tree key).map fun out => (.value out, tree)
  | .remove key => (clRbtreeRemove compare tree key).map fun x => (.value x.1, x.2)
  | .clear => (clRbtreeClear freed tree).map fun x => (.each x.1, x.2)

/-- A sequence of calls, with what they give. -/
def runCalls (compare : α → α → Ordering) (dup : Dup) (freed : ClPool → Nat → Cell α) (tree : ClRbtree α) :
    List (Call α) → Option (List (Ret α) × ClRbtree α)
  | [] => some ([], tree)
  | call :: calls => do
    let (ret, tree) ← runCall compare dup freed tree call
    let (rets, tree) ← runCalls compare dup freed tree calls
    return (ret :: rets, tree)

/-- **One call** does to the tree what it does to the multiset. -/
theorem runCall_keeps [Std.TransCmp compare] (freed : ClPool → Nat → Cell α) (h : Keeps compare dup tree l)
    (call : Call α) : ∃ ret tree' l', runCall compare dup freed tree call = some (ret, tree') ∧
      Keeps compare dup tree' l' ∧ CallStep compare dup call ret l l' := by
  cases call with
  | add v =>
    obtain ⟨out, tree', l', hrun, hkeeps, hstep⟩ := h.dupAddMethod v
    exact ⟨_, tree', l', congrArg (Option.map _) hrun, hkeeps, out, rfl, hstep⟩
  | get key =>
    obtain ⟨out, hrun, hstep⟩ := h.get key
    exact ⟨_, tree, l, congrArg (Option.map _) hrun, h, hstep⟩
  | remove key =>
    obtain ⟨out, tree', l', hrun, hkeeps, hstep⟩ := h.remove key
    exact ⟨_, tree', l', congrArg (Option.map _) hrun, hkeeps, hstep⟩
  | clear =>
    obtain ⟨tree', hrun, hkeeps⟩ := h.clear freed
    exact ⟨_, tree', [], congrArg (Option.map _) hrun, hkeeps, l, rfl, h.sorted, rfl, rfl⟩

theorem runCalls_keeps [Std.TransCmp compare] (freed : ClPool → Nat → Cell α) (calls : List (Call α))
    (h : Keeps compare dup tree l) : ∃ rets tree' l', runCalls compare dup freed tree calls = some (rets, tree') ∧
      Keeps compare dup tree' l' ∧ CallRun compare dup l calls rets l' := by
  induction calls generalizing tree l with
  | nil => exact ⟨[], tree, l, rfl, h, .nil _⟩
  | cons call calls ih =>
    obtain ⟨ret, tree₁, l₁, hcall, hkeeps₁, hstep⟩ := runCall_keeps freed h call
    obtain ⟨rets, tree₂, l₂, hcalls, hkeeps₂, hrest⟩ := ih hkeeps₁
    refine ⟨ret :: rets, tree₂, l₂, ?_, hkeeps₂, .cons hstep hrest⟩
    rw [runCalls, hcall]
    simp only [Option.bind_eq_bind, Option.bind_some, hcalls]
    rfl

theorem keeps_init (compare : α → α → Ordering) (dup : Dup) : Keeps compare dup (clRbtreeInit : ClRbtree α) [] :=
  (holds_init compare).keeps (ordered_nil compare dup)

/-- **The collection**: any sequence of calls, begun with an empty tree, returns and does what it
does on a multiset, where an addition of a value that has an equal one is allowed, refused or a
replacement; the tree is sorted, and has no two equal values unless they are allowed. -/
theorem calls_refine (compare : α → α → Ordering) [Std.TransCmp compare] (dup : Dup) (freed : ClPool → Nat → Cell α)
    (calls : List (Call α)) :
    ∃ rets tree, ∃ l : List α, runCalls compare dup freed clRbtreeInit calls = some (rets, tree) ∧
      CallRun compare dup 0 calls rets (l : Multiset α) ∧ Ordered compare dup l ∧ clRbtreeForEach tree = l ∧
      clRbtreePeek tree = some l.head? ∧ clRbtreeCount tree = UInt32.ofNat l.length := by
  obtain ⟨rets, tree, l, hrun, hkeeps, hcalls⟩ := runCalls_keeps freed calls (keeps_init compare dup)
  obtain ⟨t, hrep, hl⟩ := hkeeps.shape
  exact ⟨rets, tree, l, hrun, hcalls, hkeeps.ordered, (clRbtreeForEach_spec hrep).trans hl,
    (clRbtreePeek_spec hrep).trans (hl ▸ rfl), hkeeps.nItems⟩

theorem calls_refine_pairs :
    ∃ rets tree, ∃ l : List (Nat × Nat), runCalls (compareOn (Prod.fst : Nat × Nat → Nat)) .replace
        (fun _ _ => frootInit) clRbtreeInit
        [.add (3, 0), .add (1, 0), .add (3, 1), .get (3, 2), .clear, .add (2, 0)] = some (rets, tree) ∧
      CallRun (compareOn Prod.fst) .replace 0
        [.add (3, 0), .add (1, 0), .add (3, 1), .get (3, 2), .clear, .add (2, 0)] rets (l : Multiset _) ∧
      Ordered (compareOn Prod.fst) .replace l ∧ clRbtreeForEach tree = l ∧
      clRbtreePeek tree = some l.head? ∧ clRbtreeCount tree = UInt32.ofNat l.length :=
  calls_refine (compareOn Prod.fst) .replace _ _

/-- **A look-up is short**: after any sequence of calls, no more steps than twice the logarithm of
the number of items, for every value. -/
theorem lookup_short (compare : α → α → Ordering) [Std.TransCmp compare] (dup : Dup) (freed : ClPool → Nat → Cell α)
    (calls : List (Call α)) :
    ∃ rets tree, runCalls compare dup freed clRbtreeInit calls = some (rets, tree) ∧
      ∀ key, ∃ out, clRbtreeLookup compare tree key = some out ∧
        lookupWithin compare tree key (2 * Nat.log2 ((clRbtreeForEach tree).length + 1)) = some out := by
  obtain ⟨rets, tree, l, hrun, hkeeps, -⟩ := runCalls_keeps freed calls (keeps_init compare dup)
  obtain ⟨t, hrep, -⟩ := hkeeps.shape
  refine ⟨rets, tree, hrun, fun key => ?_⟩
  obtain ⟨out, -, hwithin⟩ := lookupWithin_any compare key hrep
  refine ⟨out, hwithin _ hrep.height_le_fuel, hwithin _ ?_⟩
  rw [clRbtreeForEach_spec hrep, BinTree.length_inorder]
  exact hrep.height_le

theorem lookup_short_pairs :
    ∃ rets tree, runCalls (compareOn (Prod.fst : Nat × Nat → Nat)) .reject (fun _ _ => frootInit) clRbtreeInit
        [.add (3, 0), .add (1, 0), .add (3, 1)] = some (rets, tree) ∧
      ∀ key, ∃ out, clRbtreeLookup (compareOn Prod.fst) tree key = some out ∧
        lookupWithin (compareOn Prod.fst) tree key (2 * Nat.log2 ((clRbtreeForEach tree).length + 1)) = some out :=
  lookup_short (compareOn Prod.fst) .reject _ _

end Protozoa.Clump
