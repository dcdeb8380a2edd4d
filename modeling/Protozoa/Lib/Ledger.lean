import Mathlib.Data.List.Induction
import Mathlib.Data.List.Nodup
import Mathlib.Data.List.TakeWhile
import Mathlib.Data.Multiset.AddSub

/-!
# A ledger of handles

A ledger records, in order, which handles were opened and which were closed; a handle may be opened
again once it is closed. `held` is what has been opened and not closed since.

* `Sound`: no handle is opened while it is held. `Fair`: none is closed while it is not.
* **`closedOnce_iff`**: of a ledger that is both, every opening is followed by one closing
  (`ClosedOnce`) exactly when nothing is held.
* `Keeps`: what a program has taken, and what it still owns of it. `Keeps.opened`, `Keeps.closed`
  and `Keeps.closedAll` are the steps of a program, and `Keeps.closedOnce_iff` is what follows for
  one that starts with nothing.

`split_concat` is the induction behind all of it: a place in a ledger with one more entry is the new
entry or a place in the old one.
-/

namespace Protozoa.Lib.Ledger

/-- An entry of the ledger. -/
inductive Entry (α : Type*) where
  | opened (a : α)
  | closed (a : α)
  deriving DecidableEq

variable {α : Type*} [DecidableEq α]

/-- What is held after one more entry. -/
def post (held : List α) : Entry α → List α
  | .opened a => a :: held
  | .closed a => held.erase a

/-- What has been opened and not closed since. -/
def held (es : List (Entry α)) : List α := es.foldl post []

@[simp] theorem held_nil : held ([] : List (Entry α)) = [] := rfl

@[simp] theorem held_opened (es : List (Entry α)) (a : α) : held (es ++ [.opened a]) = a :: held es := by
  rw [held, List.foldl_append]
  rfl

@[simp] theorem held_closed (es : List (Entry α)) (a : α) :
    held (es ++ [.closed a]) = (held es).erase a := by
  rw [held, List.foldl_append]
  rfl

/-- No handle is opened while it is held. -/
def Sound (es : List (Entry α)) : Prop :=
  ∀ before a after, es = before ++ .opened a :: after → a ∉ held before

/-- No handle is closed unless it is held. -/
def Fair (es : List (Entry α)) : Prop :=
  ∀ before a after, es = before ++ .closed a :: after → a ∈ held before

/-- How often a handle is closed before it is opened again. -/
def closings (a : α) (after : List (Entry α)) : Nat := (after.takeWhile (· ≠ .opened a)).count (.closed a)

/-- Every opening is followed by one closing. -/
def ClosedOnce (es : List (Entry α)) : Prop :=
  ∀ before a after, es = before ++ .opened a :: after → closings a after = 1

section

omit [DecidableEq α]

/-- Where an entry of a longer ledger stands. -/
theorem split_concat {es before after : List (Entry α)} {e x : Entry α}
    (h : es ++ [e] = before ++ x :: after) :
    (before = es ∧ x = e ∧ after = []) ∨ ∃ after', after = after' ++ [e] ∧ es = before ++ x :: after' := by
  rcases after.eq_nil_or_concat with rfl | ⟨after', y, rfl⟩
  · obtain ⟨rfl, hx⟩ := List.append_inj' h rfl
    exact .inl ⟨rfl, (List.cons.inj hx).1.symm, rfl⟩
  · rw [List.concat_eq_append, ← List.cons_append, ← List.append_assoc] at h
    obtain ⟨rfl, hy⟩ := List.append_inj' h rfl
    obtain rfl := (List.cons.inj hy).1
    exact .inr ⟨after', List.concat_eq_append, rfl⟩

end

theorem sound_nil : Sound ([] : List (Entry α)) := by
  intro before a after h
  exact absurd h.symm (List.append_ne_nil_of_right_ne_nil _ (List.cons_ne_nil _ _))

theorem fair_nil : Fair ([] : List (Entry α)) := by
  intro before a after h
  exact absurd h.symm (List.append_ne_nil_of_right_ne_nil _ (List.cons_ne_nil _ _))

theorem Sound.before {es es' : List (Entry α)} (h : Sound es') (hle : es <+: es') : Sound es := by
  obtain ⟨rest, rfl⟩ := hle
  rintro before a after rfl
  exact h before a (after ++ rest) (by rw [List.append_assoc, List.cons_append])

/-- A handle that is opened last was not held. -/
theorem Sound.last {es : List (Entry α)} {a : α} (h : Sound (es ++ [.opened a])) : a ∉ held es :=
  h es a [] rfl

theorem Sound.opened {es : List (Entry α)} (h : Sound es) {a : α} (ha : a ∉ held es) :
    Sound (es ++ [.opened a]) := by
  intro before b after hsplit
  rcases split_concat hsplit with ⟨rfl, hb, -⟩ | ⟨after', -, hes⟩
  · cases hb
    exact ha
  · exact h before b after' hes

theorem Sound.closed {es : List (Entry α)} (h : Sound es) (a : α) : Sound (es ++ [.closed a]) := by
  intro before b after hsplit
  rcases split_concat hsplit with ⟨-, hne, -⟩ | ⟨after', -, hes⟩
  · cases hne
  · exact h before b after' hes

theorem Fair.before {es es' : List (Entry α)} (h : Fair es') (hle : es <+: es') : Fair es := by
  obtain ⟨rest, rfl⟩ := hle
  rintro before a after rfl
  exact h before a (after ++ rest) (by rw [List.append_assoc, List.cons_append])

theorem Fair.last {es : List (Entry α)} {a : α} (h : Fair (es ++ [.closed a])) : a ∈ held es :=
  h es a [] rfl

theorem Fair.opened {es : List (Entry α)} (h : Fair es) (a : α) : Fair (es ++ [.opened a]) := by
  intro before b after hsplit
  rcases split_concat hsplit with ⟨-, hne, -⟩ | ⟨after', -, hes⟩
  · cases hne
  · exact h before b after' hes

theorem Fair.closed {es : List (Entry α)} (h : Fair es) {a : α} (ha : a ∈ held es) :
    Fair (es ++ [.closed a]) := by
  intro before b after hsplit
  rcases split_concat hsplit with ⟨rfl, hb, -⟩ | ⟨after', -, hes⟩
  · cases hb
    exact ha
  · exact h before b after' hes

theorem Sound.nodup {es : List (Entry α)} (h : Sound es) : (held es).Nodup := by
  induction es using List.reverseRecOn with
  | nil => exact List.nodup_nil
  | append_singleton es e ih =>
    have hes := ih (h.before (List.prefix_append _ _))
    cases e with
    | opened a =>
      rw [held_opened]
      exact List.nodup_cons.mpr ⟨h.last, hes⟩
    | closed a =>
      rw [held_closed]
      exact hes.erase a

/-- `Sound`, when so much is held already. -/
def soundFrom : List α → List (Entry α) → Bool
  | _, [] => true
  | hs, .opened a :: es => decide (a ∉ hs) && soundFrom (a :: hs) es
  | hs, .closed a :: es => soundFrom (hs.erase a) es

theorem soundFrom_iff (hs : List α) (es : List (Entry α)) : soundFrom hs es = true ↔
    ∀ before a after, es = before ++ .opened a :: after → a ∉ before.foldl post hs := by
  induction es generalizing hs with
  | nil =>
    refine iff_of_true rfl fun before a after h => ?_
    exact absurd h.symm (List.append_ne_nil_of_right_ne_nil _ (List.cons_ne_nil _ _))
  | cons e es ih =>
    have hrest : (∀ before a after, e :: es = before ++ .opened a :: after → a ∉ before.foldl post hs) ↔
        (∀ a, e = .opened a → a ∉ hs) ∧
          ∀ before a after, es = before ++ .opened a :: after → a ∉ before.foldl post (post hs e) := by
      constructor
      · intro h
        exact ⟨fun a ha => h [] a es (by rw [ha]; rfl),
          fun before a after hes => h (e :: before) a after (by rw [hes]; rfl)⟩
      · rintro ⟨hfirst, h⟩ before a after hes
        cases before with
        | nil => exact hfirst a (List.cons.inj hes).1
        | cons e' before =>
          obtain ⟨rfl, htail⟩ := List.cons.inj hes
          exact h before a after htail
    rw [hrest, ← ih]
    cases e with
    | opened a =>
      rw [soundFrom, Bool.and_eq_true, decide_eq_true_eq]
      refine and_congr_left fun _ => ⟨fun ha b hb => ?_, fun h => h a rfl⟩
      cases hb
      exact ha
    | closed a => exact (and_iff_right fun b hb => by cases hb).symm

instance (es : List (Entry α)) : Decidable (Sound es) := decidable_of_iff _ (soundFrom_iff [] es)

/-! ## One closing for each opening -/

section

variable {a : α} {after : List (Entry α)}

/-- What comes after the next opening does not count. -/
theorem closings_concat_of_mem (h : .opened a ∈ after) (e : Entry α) :
    closings a (after ++ [e]) = closings a after := by
  unfold closings
  rw [List.takeWhile_append, if_neg]
  intro hlen
  have hall : after.takeWhile (fun x => decide (x ≠ Entry.opened a)) = after :=
    (List.takeWhile_sublist _).eq_of_length hlen
  exact of_decide_eq_true (List.takeWhile_eq_self_iff.mp hall _ h) rfl

theorem closings_concat_of_not_mem (h : .opened a ∉ after) (e : Entry α) :
    closings a (after ++ [e]) = closings a after + if e = .closed a then 1 else 0 := by
  have hall : after.takeWhile (fun x => decide (x ≠ .opened a)) = after := by
    refine List.takeWhile_eq_self_iff.mpr fun x hx => decide_eq_true ?_
    rintro rfl
    exact h hx
  unfold closings
  rw [List.takeWhile_append, if_pos (congrArg List.length hall), List.count_append, hall]
  congr 1
  by_cases he : e = .opened a
  · subst he
    simp
  · by_cases hc : e = .closed a
    · subst hc
      simp
    · simp [he, hc]

end

/-- An opening has been followed by one closing, unless its handle is still held. -/
theorem closings_eq {es : List (Entry α)} (hsound : Sound es) (hfair : Fair es) :
    ∀ {before : List (Entry α)} {a : α} {after : List (Entry α)}, es = before ++ .opened a :: after →
      closings a after = if .opened a ∉ after ∧ a ∈ held es then 0 else 1 := by
  induction es using List.reverseRecOn with
  | nil =>
    intro before a after h
    exact absurd h.symm (List.append_ne_nil_of_right_ne_nil _ (List.cons_ne_nil _ _))
  | append_singleton es e ih =>
    intro before a after hsplit
    have hsound' := hsound.before (List.prefix_append es [e])
    rcases split_concat hsplit with ⟨-, rfl, rfl⟩ | ⟨after', rfl, hes⟩
    · rw [if_pos ⟨List.not_mem_nil, by simp⟩]
      rfl
    have hbefore := ih hsound' (hfair.before (List.prefix_append es [e])) hes
    by_cases hmem : Entry.opened a ∈ after'
    · rw [closings_concat_of_mem hmem, hbefore, if_neg (fun h => h.1 hmem),
        if_neg (fun h => h.1 (List.mem_append_left _ hmem))]
    rw [closings_concat_of_not_mem hmem, hbefore]
    by_cases he : e = .opened a
    · -- the handle is opened again, so that it was not held
      subst he
      have hnot := hsound.last
      simp [hnot]
    by_cases hc : e = .closed a
    · -- it is closed, so that it was held
      subst hc
      have hheld := hfair.last
      have hgone : a ∉ (held es).erase a := hsound'.nodup.not_mem_erase
      simp [hmem, hheld, hgone]
    · have hsame : a ∈ held (es ++ [e]) ↔ a ∈ held es := by
        cases e with
        | opened b =>
          have hne : a ≠ b := fun h => he (h ▸ rfl)
          simp [hne]
        | closed b =>
          have hne : a ≠ b := fun h => hc (h ▸ rfl)
          rw [held_closed, List.mem_erase_of_ne hne]
      simp [hsame, hmem, hc, Ne.symm he]

/-- A handle that is held has been opened, and not again since. -/
theorem exists_opening {es : List (Entry α)} {a : α} (h : a ∈ held es) :
    ∃ before after, es = before ++ .opened a :: after ∧ Entry.opened a ∉ after := by
  induction es using List.reverseRecOn with
  | nil => cases h
  | append_singleton es e ih =>
    by_cases he : e = .opened a
    · exact ⟨es, [], by rw [he], List.not_mem_nil⟩
    · have hes : a ∈ held es := by
        cases e with
        | opened b =>
          rw [held_opened] at h
          exact (List.mem_cons.mp h).resolve_left fun hab => he (hab ▸ rfl)
        | closed b =>
          rw [held_closed] at h
          exact List.mem_of_mem_erase h
      obtain ⟨before, after, rfl, hnot⟩ := ih hes
      refine ⟨before, after ++ [e], by rw [List.append_assoc, List.cons_append], ?_⟩
      simp [hnot, Ne.symm he]

/-- **Every opening is followed by one closing** exactly when nothing is held. -/
theorem closedOnce_iff {es : List (Entry α)} (hsound : Sound es) (hfair : Fair es) :
    ClosedOnce es ↔ held es = [] := by
  constructor
  · intro h
    refine List.eq_nil_iff_forall_not_mem.mpr fun a ha => ?_
    obtain ⟨before, after, hes, hnot⟩ := exists_opening ha
    have hone := h before a after hes
    rw [closings_eq hsound hfair hes, if_pos ⟨hnot, ha⟩] at hone
    exact absurd hone (by decide)
  · intro h before a after hes
    rw [closings_eq hsound hfair hes, if_neg]
    rw [h]
    exact fun hmem => List.not_mem_nil hmem.2

/-! ## What a program owns -/

/-- The ledger of a program that owns this, each as often as it is held, and has closed nothing
else. -/
structure Keeps (es : List (Entry α)) (owned : Multiset α) : Prop where
  fair : Fair es
  held : (held es : Multiset α) = owned

namespace Keeps

variable {es : List (Entry α)} {owned : Multiset α}

theorem nil : Keeps ([] : List (Entry α)) 0 := ⟨fair_nil, rfl⟩

theorem congr (h : Keeps es owned) {owned' : Multiset α} (heq : owned = owned') : Keeps es owned' := heq ▸ h

theorem opened (h : Keeps es owned) (a : α) : Keeps (es ++ [.opened a]) ({a} + owned) := by
  refine ⟨h.fair.opened a, ?_⟩
  rw [held_opened, ← h.held]
  rfl

theorem closed {a : α} (h : Keeps es ({a} + owned)) : Keeps (es ++ [.closed a]) owned := by
  have hmem : a ∈ Ledger.held es := by
    rw [← Multiset.mem_coe, h.held]
    exact Multiset.mem_add.mpr (Or.inl (Multiset.mem_singleton_self a))
  refine ⟨h.fair.closed hmem, ?_⟩
  rw [held_closed, ← Multiset.coe_erase, h.held, Multiset.singleton_add, Multiset.erase_cons_head]

/-- Some handles are closed, one after the other. -/
theorem closedAll {as : List α} (h : Keeps es ((as : Multiset α) + owned)) : Keeps (es ++ as.map .closed) owned := by
  induction as generalizing es with
  | nil =>
    rw [List.map_nil, List.append_nil]
    exact h.congr (Multiset.zero_add _)
  | cons a as ih =>
    have hcons : ((a :: as : List α) : Multiset α) = {a} + (as : Multiset α) := rfl
    rw [hcons, Multiset.add_assoc] at h
    have hrest := ih h.closed
    rwa [List.append_assoc] at hrest

/-- **Everything has been closed once** exactly when nothing is owned any more. -/
theorem closedOnce_iff (h : Keeps es owned) (hsound : Sound es) : ClosedOnce es ↔ owned = 0 := by
  rw [Ledger.closedOnce_iff hsound h.fair, ← h.held, Multiset.coe_eq_zero]

end Keeps

end Protozoa.Lib.Ledger
