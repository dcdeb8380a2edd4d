import Mathlib.Data.List.Basic

/-!
# What a queue owes

What goes into a queue and comes out of it, as a history of events (`tally`). `Owes` says that a
queue with the contents `xs` has lost, doubled and reordered nothing: what has gone in since it was
last cleared is what has come out, followed by `xs`.

* `owes_nil`, `Owes.put`, `Owes.take`, `owes_clear`: one lemma for each event, from which a run
  follows by induction on its history.

What the queue is made of, and whether it is bounded, is left to the user: an event that is refused
is no event.
-/

namespace Protozoa.Lib.Fifo

variable {α : Type*}

/-- What happens to a queue. -/
inductive Event (α : Type*) where
  | put (xs : List α)
  | take (xs : List α)
  | clear

/-- What has gone in and come out, one more event later. -/
def tally (x : List α × List α) : Event α → List α × List α
  | .put xs => (x.1 ++ xs, x.2)
  | .take xs => (x.1, x.2 ++ xs)
  | .clear => ([], [])

/-- What has gone in since the last `clear`. -/
def entered (es : List (Event α)) : List α := (es.foldl tally ([], [])).1

/-- What has come out since the last `clear`. -/
def departed (es : List (Event α)) : List α := (es.foldl tally ([], [])).2

/-- The contents are what has gone in and not come out, in order. -/
def Owes (es : List (Event α)) (xs : List α) : Prop := entered es = departed es ++ xs

variable {es : List (Event α)} {xs ys zs : List α}

theorem tally_concat (es : List (Event α)) (e : Event α) :
    (es ++ [e]).foldl tally ([], []) = tally (entered es, departed es) e := by
  rw [List.foldl_append]
  rfl

theorem owes_nil : Owes ([] : List (Event α)) [] := rfl

theorem Owes.put (h : Owes es xs) (ys : List α) : Owes (es ++ [.put ys]) (xs ++ ys) := by
  unfold Owes entered departed at *
  rw [tally_concat]
  show (es.foldl tally ([], [])).1 ++ ys = (es.foldl tally ([], [])).2 ++ (xs ++ ys)
  rw [h, List.append_assoc]

/-- What comes out is what stands first. -/
theorem Owes.take (h : Owes es xs) (hxs : xs = ys ++ zs) : Owes (es ++ [.take ys]) zs := by
  unfold Owes entered departed at *
  rw [tally_concat]
  show (es.foldl tally ([], [])).1 = (es.foldl tally ([], [])).2 ++ ys ++ zs
  rw [h, hxs, List.append_assoc]

theorem owes_clear (es : List (Event α)) : Owes (es ++ [.clear]) [] := by
  unfold Owes entered departed
  rw [tally_concat]
  rfl

end Protozoa.Lib.Fifo
