import Mathlib.Data.List.Sort
import Mathlib.Data.Multiset.Basic
import Mathlib.Data.Multiset.AddSub

/-!
# Sorted bags

What an ordered container with duplicates is for, in two views. As a list (`add`, `remove`) it is
deterministic: among equal values the newest comes first and is removed first. As a multiset
(`BagStep`, `BagRun`) it leaves open which of several equal values a removal takes.

* `sorted_add`, `sorted_remove`, `sorted_run`: the list stays sorted.
* `run_bagStep`: the list is an implementation of the multiset.
* `add_of_split`, `remove_of_split`: what a search that splits the values at the right place has to
  do, which is how a tree uses this.

A container may also refuse a value that is there, or put it in the place of the old one (`Dup`).
Then it has no two equal values (`Distinct`): it is a map from what is compared to the values
(`CallStep`, `Ordered.add`, `Ordered.remove`, `Ordered.exchange`).
-/

namespace Lib.SortedBag

variable {α : Type} {compare : α → α → Ordering} {v x key : α} {l r : List α}

/-- In order: no value is above a later one. -/
def Sorted (compare : α → α → Ordering) (l : List α) : Prop :=
  l.Pairwise fun a b => compare a b ≠ .gt

/-- Put `v` before the first value that is not below it. -/
def add (compare : α → α → Ordering) (v : α) (l : List α) : List α :=
  l.orderedInsert (fun a b => compare b a ≠ .lt) v

/-- Take out the first value equal to `key`. -/
def remove (compare : α → α → Ordering) (key : α) (l : List α) : Option α × List α :=
  (l.find? fun x => compare x key == .eq, l.eraseP fun x => compare x key == .eq)

theorem add_of_split (hl : ∀ x ∈ l, compare x v = .lt) (hr : ∀ x ∈ r, compare x v ≠ .lt) :
    add compare v (l ++ r) = l ++ v :: r := by
  induction l with
  | nil =>
    cases r with
    | nil => rfl
    | cons y r => exact List.orderedInsert_cons_of_le _ r (hr y List.mem_cons_self)
  | cons y l ih =>
    have hy : ¬ compare y v ≠ .lt := not_not.mpr (hl y List.mem_cons_self)
    rw [List.cons_append, add, List.orderedInsert_of_not_le _ (l ++ r) hy]
    exact congrArg (y :: ·) (ih fun x hx => hl x (List.mem_cons_of_mem _ hx))

theorem remove_of_split (hl : ∀ y ∈ l, compare y key ≠ .eq) (hx : compare x key = .eq) :
    remove compare key (l ++ x :: r) = (some x, l ++ r) := by
  have hnone : l.find? (fun y => compare y key == .eq) = none := by simpa using hl
  have herase : (l ++ x :: r).eraseP (fun y => compare y key == .eq) = l ++ r := by
    rw [List.eraseP_append_right _ (by simpa using hl), List.eraseP_cons_of_pos (by simp [hx])]
  simp [remove, hnone, hx, herase]

theorem remove_of_forall_ne (h : ∀ x ∈ l, compare x key ≠ .eq) :
    remove compare key l = (none, l) := by
  have herase := List.eraseP_of_forall_not (p := fun x => compare x key == .eq) (l := l)
    (by simpa using h)
  rw [remove, herase]
  simpa using h

theorem perm_add (compare : α → α → Ordering) (v : α) (l : List α) :
    (add compare v l).Perm (v :: l) := List.perm_orderedInsert _ _ _

theorem mem_add : x ∈ add compare v l ↔ x = v ∨ x ∈ l := List.mem_orderedInsert _

theorem length_add (compare : α → α → Ordering) (v : α) (l : List α) :
    (add compare v l).length = l.length + 1 := List.orderedInsert_length _ _ _

theorem sorted_add [Std.TransCmp compare] (h : Sorted compare l) :
    Sorted compare (add compare v l) := by
  induction l with
  | nil => exact List.pairwise_singleton _ _
  | cons y l ih =>
    obtain ⟨hy, hl⟩ := List.pairwise_cons.mp h
    by_cases hc : compare y v = .lt
    · rw [add, List.orderedInsert_of_not_le _ l (not_not.mpr hc)]
      refine List.pairwise_cons.mpr ⟨fun z hz => ?_, ih hl⟩
      rcases mem_add.mp hz with rfl | hz
      exacts [by rw [hc]; decide, hy z hz]
    · rw [add, List.orderedInsert_cons_of_le _ l hc]
      have hvy : (compare v y).isLE := by
        rw [@Std.OrientedCmp.eq_swap _ compare]
        cases hcv : compare y v <;> simp_all
      refine List.pairwise_cons.mpr ⟨fun z hz => ?_, h⟩
      rcases List.mem_cons.mp hz with rfl | hz
      · cases hz' : compare v z <;> simp_all
      · have hyz : (compare y z).isLE := by
          have := hy z hz
          cases hc' : compare y z <;> simp_all
        have hvz := Std.TransCmp.isLE_trans hvy hyz
        cases hz' : compare v z <;> simp_all

theorem sorted_remove (h : Sorted compare l) : Sorted compare (remove compare key l).2 :=
  h.sublist List.eraseP_sublist

/-! ## As a multiset -/

inductive Op (α : Type) where
  | add (v : α)
  | remove (key : α)

/-- An operation, what it returns, and the multiset before and after it. -/
def BagStep (compare : α → α → Ordering) : Op α → Option α → Multiset α → Multiset α → Prop
  | .add v, out, s, s' => out = some v ∧ s' = v ::ₘ s
  | .remove key, out, s, s' =>
    (∃ x, compare x key = .eq ∧ out = some x ∧ s = x ::ₘ s') ∨
      (∀ x ∈ s, compare x key ≠ .eq) ∧ out = none ∧ s' = s

/-- The operations one after the other. -/
inductive BagRun (compare : α → α → Ordering) :
    Multiset α → List (Op α) → List (Option α) → Multiset α → Prop
  | nil (s : Multiset α) : BagRun compare s [] [] s
  | cons {s s' s'' : Multiset α} {op : Op α} {ops : List (Op α)} {out : Option α}
      {outs : List (Option α)} (hstep : BagStep compare op out s s')
      (hrun : BagRun compare s' ops outs s'') : BagRun compare s (op :: ops) (out :: outs) s''

/-- The operation on the list. -/
def run (compare : α → α → Ordering) (l : List α) : Op α → Option α × List α
  | .add v => (some v, add compare v l)
  | .remove key => remove compare key l

theorem remove_cases (compare : α → α → Ordering) (key : α) : ∀ l : List α,
    (∃ x l₁ l₂, l = l₁ ++ x :: l₂ ∧ compare x key = .eq ∧ (∀ y ∈ l₁, compare y key ≠ .eq) ∧
      remove compare key l = (some x, l₁ ++ l₂)) ∨
    (∀ x ∈ l, compare x key ≠ .eq) ∧ remove compare key l = (none, l) := fun l => by
  by_cases h : ∃ x ∈ l, compare x key = .eq
  · refine Or.inl ?_
    obtain ⟨x, hx⟩ : ∃ x, l.find? (fun x => compare x key == .eq) = some x := by
      rw [← Option.isSome_iff_exists, List.find?_isSome]
      simpa using h
    obtain ⟨hxe, l₁, l₂, rfl, hl₁⟩ := List.find?_eq_some_iff_append.mp hx
    have hxe : compare x key = .eq := by simpa using hxe
    have hl₁ : ∀ y ∈ l₁, compare y key ≠ .eq := by simpa using hl₁
    exact ⟨x, l₁, l₂, rfl, hxe, hl₁, remove_of_split hl₁ hxe⟩
  · have h' : ∀ x ∈ l, compare x key ≠ .eq := fun x hx he => h ⟨x, hx, he⟩
    exact Or.inr ⟨h', remove_of_forall_ne h'⟩

/-- A value that is the first of its equals is the one that is taken out. -/
theorem remove_of_first [BEq α] [LawfulBEq α] (hkey : compare key key = .eq)
    (hfirst : ∀ x ∈ (remove compare key l).1, x = key) : (remove compare key l).2 = l.erase key := by
  rcases remove_cases compare key l with ⟨x, l₁, l₂, rfl, -, hl₁, hr⟩ | ⟨hne, hr⟩
  · rw [hr] at hfirst ⊢
    obtain rfl : x = key := hfirst x rfl
    have hx : x ∉ l₁ := fun hmem => hl₁ x hmem hkey
    rw [List.erase_append_right _ hx, List.erase_cons_head]
  · rw [hr, List.erase_of_not_mem fun hmem => hne key hmem hkey]

theorem not_mem_remove (h : l.Nodup) (hx : x ∈ (remove compare key l).1) :
    x ∉ (remove compare key l).2 := by
  rcases remove_cases compare key l with ⟨y, l₁, l₂, rfl, -, -, hr⟩ | ⟨-, hr⟩
  · rw [hr] at hx ⊢
    obtain rfl : y = x := Option.some.inj hx
    exact (List.nodup_middle.mp h).notMem
  · rw [hr] at hx
    cases hx

/-- **The list implements the multiset.** -/
theorem run_bagStep (op : Op α) (l : List α) :
    BagStep compare op (run compare l op).1 (l : Multiset α) ((run compare l op).2 : Multiset α) := by
  cases op with
  | add v => exact ⟨rfl, Multiset.coe_eq_coe.mpr (perm_add compare v l)⟩
  | remove key =>
    rcases remove_cases compare key l with ⟨x, l₁, l₂, rfl, hx, -, hr⟩ | ⟨hne, hr⟩
    · refine Or.inl ⟨x, hx, by simp [run, hr], ?_⟩
      simp only [run, hr, Multiset.cons_coe, Multiset.coe_eq_coe]
      exact List.perm_middle
    · exact Or.inr ⟨by simpa using hne, by simp [run, hr], by simp [run, hr]⟩

theorem sorted_run [Std.TransCmp compare] (op : Op α) (h : Sorted compare l) :
    Sorted compare (run compare l op).2 := by
  cases op with
  | add v => exact sorted_add h
  | remove key => exact sorted_remove h

/-! ## Without duplicates -/

/-- In order, and no two values equal. -/
def Distinct (compare : α → α → Ordering) (l : List α) : Prop := l.Pairwise fun a b => compare a b = .lt

/-- No value is equal to this one. -/
def Fresh (compare : α → α → Ordering) (v : α) (s : Multiset α) : Prop := ∀ x ∈ s, compare x v ≠ .eq

theorem distinct_iff : Distinct compare l ↔ Sorted compare l ∧ l.Pairwise fun a b => compare a b ≠ .eq := by
  have hlt : ∀ {a b : α}, compare a b = .lt ↔ compare a b ≠ .gt ∧ compare a b ≠ .eq := by
    intro a b
    cases compare a b <;> decide
  unfold Distinct Sorted
  rw [← List.pairwise_and_iff]
  exact ⟨fun h => h.imp hlt.mp, fun h => h.imp hlt.mpr⟩

theorem distinct_add [Std.TransCmp compare] (h : Distinct compare l) (hv : Fresh compare v l) :
    Distinct compare (add compare v l) := by
  obtain ⟨hsorted, hne⟩ := distinct_iff.mp h
  refine distinct_iff.mpr ⟨sorted_add hsorted, ?_⟩
  have hsymm : ∀ {a b : α}, compare a b ≠ .eq → compare b a ≠ .eq :=
    fun hab hba => hab (Std.OrientedCmp.eq_comm.mp hba)
  exact ((perm_add compare v l).pairwise_iff hsymm).mpr
    (List.pairwise_cons.mpr ⟨fun x hx => hsymm (hv x hx), hne⟩)

theorem distinct_remove (h : Distinct compare l) : Distinct compare (remove compare key l).2 :=
  h.sublist List.eraseP_sublist

/-- A value gives way to an equal one. -/
theorem pairwise_exchange [Std.TransCmp compare] {P : Ordering → Prop} (hx : compare x v = .eq)
    (h : (l ++ x :: r).Pairwise fun a b => P (compare a b)) :
    (l ++ v :: r).Pairwise fun a b => P (compare a b) := by
  obtain ⟨hl, hxr, hlr⟩ := List.pairwise_append.mp h
  obtain ⟨hx', hr⟩ := List.pairwise_cons.mp hxr
  refine List.pairwise_append.mpr ⟨hl, List.pairwise_cons.mpr ⟨fun b hb => ?_, hr⟩, fun a ha b hb => ?_⟩
  · rw [← Std.TransCmp.congr_left hx]
    exact hx' b hb
  · rcases List.mem_cons.mp hb with rfl | hb
    · rw [← Std.TransCmp.congr_right hx]
      exact hlr a ha x List.mem_cons_self
    · exact hlr a ha b (List.mem_cons_of_mem _ hb)

/-- What an addition does if an equal value is there. -/
inductive Dup where
  | reject
  | allow
  | replace
  deriving DecidableEq

inductive Call (α : Type) where
  | add (v : α)
  | get (key : α)
  | remove (key : α)
  | clear

/-- What a call gives: a value or none, or each value in turn. -/
inductive Ret (α : Type) where
  | value (out : Option α)
  | each (vs : List α)

/-- An addition, what it returns, and the multiset before and after it. -/
def AddStep (compare : α → α → Ordering) (v : α) (out : α) (s s' : Multiset α) : Dup → Prop
  | .allow => out = v ∧ s' = v ::ₘ s
  | .reject => (out ∈ s ∧ compare out v = .eq ∧ s' = s) ∨ Fresh compare v s ∧ out = v ∧ s' = v ::ₘ s
  | .replace => (∃ rest, compare out v = .eq ∧ s = out ::ₘ rest ∧ s' = v ::ₘ rest) ∨
      Fresh compare v s ∧ out = v ∧ s' = v ::ₘ s

/-- A call, what it gives, and the multiset before and after it. -/
def CallStep (compare : α → α → Ordering) (dup : Dup) : Call α → Ret α → Multiset α → Multiset α → Prop
  | .add v, ret, s, s' => ∃ out, ret = .value (some out) ∧ AddStep compare v out s s' dup
  | .get key, ret, s, s' => s' = s ∧ ((∃ x ∈ s, compare x key = .eq ∧ ret = .value (some x)) ∨
      Fresh compare key s ∧ ret = .value none)
  | .remove key, ret, s, s' => (∃ x, compare x key = .eq ∧ ret = .value (some x) ∧ s = x ::ₘ s') ∨
      Fresh compare key s ∧ ret = .value none ∧ s' = s
  | .clear, ret, s, s' => ∃ vs, ret = .each vs ∧ Sorted compare vs ∧ (vs : Multiset α) = s ∧ s' = 0

/-- The calls one after the other. -/
inductive CallRun (compare : α → α → Ordering) (dup : Dup) :
    Multiset α → List (Call α) → List (Ret α) → Multiset α → Prop
  | nil (s : Multiset α) : CallRun compare dup s [] [] s
  | cons {s s' s'' : Multiset α} {call : Call α} {calls : List (Call α)} {ret : Ret α}
      {rets : List (Ret α)} (hstep : CallStep compare dup call ret s s')
      (hrun : CallRun compare dup s' calls rets s'') :
      CallRun compare dup s (call :: calls) (ret :: rets) s''

/-- In order, and without equal values unless they are allowed. -/
structure Ordered (compare : α → α → Ordering) (dup : Dup) (l : List α) : Prop where
  sorted : Sorted compare l
  distinct : dup ≠ .allow → Distinct compare l

theorem ordered_nil (compare : α → α → Ordering) (dup : Dup) : Ordered compare dup ([] : List α) :=
  ⟨List.Pairwise.nil, fun _ => List.Pairwise.nil⟩

theorem Ordered.add [Std.TransCmp compare] {dup : Dup} (h : Ordered compare dup l)
    (hv : dup ≠ .allow → Fresh compare v l) : Ordered compare dup (add compare v l) :=
  ⟨sorted_add h.sorted, fun hdup => distinct_add (h.distinct hdup) (hv hdup)⟩

theorem Ordered.remove {dup : Dup} (h : Ordered compare dup l) : Ordered compare dup (remove compare key l).2 :=
  ⟨sorted_remove h.sorted, fun hdup => distinct_remove (h.distinct hdup)⟩

theorem Ordered.exchange [Std.TransCmp compare] {dup : Dup} (hx : compare x v = .eq)
    (h : Ordered compare dup (l ++ x :: r)) : Ordered compare dup (l ++ v :: r) :=
  ⟨pairwise_exchange (P := (· ≠ .gt)) hx h.sorted,
    fun hdup => pairwise_exchange (P := (· = .lt)) hx (h.distinct hdup)⟩

end Lib.SortedBag
