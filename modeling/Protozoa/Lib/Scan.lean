import Mathlib.Data.List.Basic

/-!
# Scanning a stream that arrives in chunks

A `Scanner` looks at the bytes it has and waits, skips one byte or takes a frame; more bytes never
change a decision once it is made. `Scanner.frames` scans a whole stream at once, and `Scanner.left`
is what stands behind its last frame.

`Follows S s out c` relates it to a reader that has seen the bytes `s`, taken the frames `out` and
still holds `c`: whatever comes next, the frames of the stream are `out` and those of what is held.
A reader need not hold what the scanner would hold; it may drop bytes earlier, as long as no frame
can begin in them (`follows_dropWhile`).

* `follows_frame`, `follows_skip`, `Follows.append`, `Follows.trans`: the steps of a reader, and
  their composition. `Follows.frames_eq` is what a run of them gives.
* `Scanner.left_spec`: the scanner waits on what is left, and more bytes are scanned as if behind
  that alone.
* `Scanner.frames_append`: the frames of two chunks are those of the first, and those of what is
  left of it together with the second.
* `fixed`: the scanner of frames of one length that pass a test. What ends a frame early, and what
  lies between two frames, is skipped byte by byte.

Out of scope: a reader that gives up after some time. What comes next may be anything, but it comes.
-/

namespace Lib.Scan

variable {β : Type}

inductive Verdict where
  | wait
  | skip
  | frame (k : Nat)

structure Scanner (β : Type) where
  judge : List β → Verdict
  skip_ne : ∀ {s}, judge s = .skip → s ≠ []
  frame_le : ∀ {s k}, judge s = .frame k → 0 < k ∧ k ≤ s.length
  append : ∀ {s} (t), judge s ≠ .wait → judge (s ++ t) = judge s

namespace Scanner

variable (S : Scanner β)

/-- The frames of a whole stream. -/
def frames (s : List β) : List (List β) :=
  match _h : S.judge s with
  | .wait => []
  | .skip => frames s.tail
  | .frame k => s.take k :: frames (s.drop k)
termination_by s.length
decreasing_by
  · have := List.length_pos_of_ne_nil (S.skip_ne _h)
    rw [List.length_tail]
    omega
  · have := S.frame_le _h
    rw [List.length_drop]
    omega

/-- What is left of a stream behind its frames. -/
def left (s : List β) : List β :=
  match _h : S.judge s with
  | .wait => s
  | .skip => left s.tail
  | .frame k => left (s.drop k)
termination_by s.length
decreasing_by
  · have := List.length_pos_of_ne_nil (S.skip_ne _h)
    rw [List.length_tail]
    omega
  · have := S.frame_le _h
    rw [List.length_drop]
    omega

variable {S}

theorem frames_wait {s : List β} (h : S.judge s = .wait) : S.frames s = [] := by
  rw [frames]
  split
  · rfl
  · rename_i h'
    rw [h] at h'
    cases h'
  · rename_i h'
    rw [h] at h'
    cases h'

theorem frames_skip {s : List β} (h : S.judge s = .skip) : S.frames s = S.frames s.tail := by
  rw [frames]
  split
  · rename_i h'
    rw [h] at h'
    cases h'
  · rfl
  · rename_i h'
    rw [h] at h'
    cases h'

theorem frames_frame {s : List β} {k : Nat} (h : S.judge s = .frame k) :
    S.frames s = s.take k :: S.frames (s.drop k) := by
  rw [frames]
  split
  · rename_i h'
    rw [h] at h'
    cases h'
  · rename_i h'
    rw [h] at h'
    cases h'
  · rename_i k' h'
    rw [h] at h'
    cases h'
    rfl

theorem left_wait {s : List β} (h : S.judge s = .wait) : S.left s = s := by
  rw [left]
  split
  · rfl
  · rename_i h'
    rw [h] at h'
    cases h'
  · rename_i h'
    rw [h] at h'
    cases h'

theorem left_skip {s : List β} (h : S.judge s = .skip) : S.left s = S.left s.tail := by
  rw [left]
  split
  · rename_i h'
    rw [h] at h'
    cases h'
  · rfl
  · rename_i h'
    rw [h] at h'
    cases h'

theorem left_frame {s : List β} {k : Nat} (h : S.judge s = .frame k) : S.left s = S.left (s.drop k) := by
  rw [left]
  split
  · rename_i h'
    rw [h] at h'
    cases h'
  · rename_i h'
    rw [h] at h'
    cases h'
  · rename_i k' h'
    rw [h] at h'
    cases h'
    rfl

end Scanner

/-- Having read `s`, a reader has taken `out` and holds `c`. -/
def Follows (S : Scanner β) (s : List β) (out : List (List β)) (c : List β) : Prop :=
  ∀ ys, S.frames (s ++ ys) = out ++ S.frames (c ++ ys)

variable {S : Scanner β} {s t c c' : List β} {out out' : List (List β)}

theorem Follows.refl (S : Scanner β) (c : List β) : Follows S c [] c := fun _ => rfl

theorem Follows.trans (h : Follows S s out c) (h' : Follows S c out' c') :
    Follows S s (out ++ out') c' := by
  intro ys
  rw [h ys, h' ys, List.append_assoc]

/-- **More bytes arrive.** -/
theorem Follows.append (h : Follows S s out c) (t : List β) : Follows S (s ++ t) out (c ++ t) := by
  intro ys
  rw [List.append_assoc, List.append_assoc]
  exact h (t ++ ys)

/-- **A reader that cannot go on** has taken all frames of what it has read. -/
theorem Follows.frames_eq (h : Follows S s out c) (hc : S.judge c = .wait) : S.frames s = out := by
  have h := h []
  rwa [List.append_nil, List.append_nil, S.frames_wait hc, List.append_nil] at h

theorem follows_frame {k : Nat} (h : S.judge c = .frame k) : Follows S c [c.take k] (c.drop k) := by
  intro ys
  have happ : S.judge (c ++ ys) = .frame k := by rw [S.append ys (by rw [h]; exact nofun), h]
  have hle := (S.frame_le h).2
  rw [S.frames_frame happ, List.take_append_of_le_length hle, List.drop_append_of_le_length hle]
  rfl

theorem follows_skip (h : S.judge c = .skip) : Follows S c [] c.tail := by
  intro ys
  have happ : S.judge (c ++ ys) = .skip := by rw [S.append ys (by rw [h]; exact nofun), h]
  rw [S.frames_skip happ, List.tail_append_of_ne_nil (S.skip_ne h)]
  rfl

/-- **What is left of the first part** is all the second part needs to know of it. -/
theorem Scanner.left_spec (S : Scanner β) (s : List β) :
    S.judge (S.left s) = .wait ∧ Follows S s (S.frames s) (S.left s) ∧
      ∀ t, S.left (s ++ t) = S.left (S.left s ++ t) := by
  induction s using Scanner.left.induct S with
  | case1 s h =>
    rw [Scanner.left_wait h, Scanner.frames_wait h]
    exact ⟨h, Follows.refl S s, fun _ => rfl⟩
  | case2 s h ih =>
    obtain ⟨hwait, hfollows, happend⟩ := ih
    rw [Scanner.left_skip h, Scanner.frames_skip h]
    refine ⟨hwait, (follows_skip h).trans hfollows, fun t => ?_⟩
    have happ : S.judge (s ++ t) = .skip := by rw [S.append t (by rw [h]; exact nofun), h]
    rw [Scanner.left_skip happ, List.tail_append_of_ne_nil (S.skip_ne h), happend t]
  | case3 s k h ih =>
    obtain ⟨hwait, hfollows, happend⟩ := ih
    rw [Scanner.left_frame h, Scanner.frames_frame h]
    refine ⟨hwait, (follows_frame h).trans hfollows, fun t => ?_⟩
    have happ : S.judge (s ++ t) = .frame k := by rw [S.append t (by rw [h]; exact nofun), h]
    rw [Scanner.left_frame happ, List.drop_append_of_le_length (S.frame_le h).2, happend t]

theorem Scanner.judge_left (S : Scanner β) (s : List β) : S.judge (S.left s) = .wait := (S.left_spec s).1

theorem Scanner.frames_append (S : Scanner β) (s t : List β) :
    S.frames (s ++ t) = S.frames s ++ S.frames (S.left s ++ t) := (S.left_spec s).2.1 t

theorem Scanner.left_append (S : Scanner β) (s t : List β) : S.left (s ++ t) = S.left (S.left s ++ t) :=
  (S.left_spec s).2.2 t

/-! ## Frames one after the other -/

/-- A frame from its first byte to its last. -/
def IsFrame (S : Scanner β) (f : List β) : Prop := S.judge f = .frame f.length

/-- The scanner waits for the rest of a frame. -/
theorem IsFrame.wait {f : List β} (h : IsFrame S f) (hs : s <+: f) (hne : s ≠ f) : S.judge s = .wait := by
  obtain ⟨t, rfl⟩ := hs
  by_contra hjudge
  have hsame := (S.append t hjudge).symm.trans h
  have hle := (S.frame_le hsame).2
  rw [List.length_append] at hle
  exact hne (by rw [List.length_eq_zero_iff.mp (show t.length = 0 by omega), List.append_nil])

/-- **Of what has arrived of some frames** the scanner takes those that are there. -/
theorem frames_of_append (hnil : S.judge [] = .wait) {fs : List (List β)} (h : ∀ f ∈ fs, IsFrame S f)
    (hs : s <+: fs.flatten) : S.frames s <+: fs := by
  induction fs generalizing s with
  | nil =>
    have hnone : S.frames s = [] := by rw [List.prefix_nil.mp hs, Scanner.frames_wait hnil]
    exact hnone ▸ List.nil_prefix
  | cons f fs ih =>
    obtain ⟨hf, hfs⟩ := List.forall_mem_cons.mp h
    rw [List.flatten_cons] at hs
    by_cases hle : s.length < f.length
    · have hpre : s <+: f := List.prefix_of_prefix_length_le hs (List.prefix_append _ _) (Nat.le_of_lt hle)
      rw [Scanner.frames_wait (hf.wait hpre fun heq => Nat.ne_of_lt hle (congrArg List.length heq))]
      exact List.nil_prefix
    · obtain ⟨t, rfl⟩ : f <+: s := List.prefix_of_prefix_length_le (List.prefix_append _ _) hs (Nat.le_of_not_lt hle)
      have hjudge : S.judge (f ++ t) = .frame f.length := by
        rw [S.append t (by rw [hf]; exact nofun), hf]
      rw [Scanner.frames_frame hjudge, List.take_left, List.drop_left]
      exact (List.prefix_cons_inj f).mpr (ih hfs ((List.prefix_append_right_inj f).mp hs))

/-! ## Frames of one length -/

/-- Frames of `n` bytes that pass a test. -/
def fixed (n : Nat) (hn : 0 < n) (valid : List β → Bool) : Scanner β where
  judge s := if s.length < n then .wait else if valid (s.take n) then .frame n else .skip
  skip_ne := by
    intro s h hs
    subst hs
    rw [List.length_nil, if_pos hn] at h
    cases h
  frame_le := by
    intro s k h
    split at h
    · cases h
    · split at h
      · cases h
        omega
      · cases h
  append := by
    intro s t h
    split at h
    · exact absurd rfl h
    · rename_i hlen
      have hle : n ≤ s.length := Nat.le_of_not_lt hlen
      rw [if_neg hlen, if_neg (by rw [List.length_append]; omega),
        List.take_append_of_le_length hle]

variable {n : Nat} {hn : 0 < n} {valid : List β → Bool}

theorem fixed_wait (h : s.length < n) : (fixed n hn valid).judge s = .wait := if_pos h

theorem fixed_frame (h : n ≤ s.length) (hv : valid (s.take n) = true) :
    (fixed n hn valid).judge s = .frame n := by
  show (if s.length < n then Verdict.wait else _) = _
  rw [if_neg (Nat.not_lt.mpr h), if_pos hv]

theorem fixed_skip (h : n ≤ s.length) (hv : valid (s.take n) = false) :
    (fixed n hn valid).judge s = .skip := by
  show (if s.length < n then Verdict.wait else _) = _
  rw [if_neg (Nat.not_lt.mpr h), if_neg (by rw [hv]; decide)]

/-- Frames one after the other. -/
theorem frames_flatten {fs : List (List β)} (h : ∀ f ∈ fs, f.length = n ∧ valid f = true) :
    (fixed n hn valid).frames fs.flatten = fs := by
  induction fs with
  | nil => exact Scanner.frames_wait (fixed_wait hn)
  | cons f fs ih =>
    obtain ⟨hlen, hvalid⟩ := h f List.mem_cons_self
    have htake : (f ++ fs.flatten).take n = f := by rw [← hlen, List.take_left]
    have hdrop : (f ++ fs.flatten).drop n = fs.flatten := by rw [← hlen, List.drop_left]
    have hle : n ≤ (f ++ fs.flatten).length := by
      rw [List.length_append]
      omega
    have hframe : (fixed n hn valid).judge (f ++ fs.flatten) = .frame n :=
      fixed_frame hle (htake.symm ▸ hvalid)
    rw [List.flatten_cons, Scanner.frames_frame hframe, htake, hdrop,
      ih fun f' hf' => h f' (List.mem_cons_of_mem f hf')]

/-- One frame alone. -/
theorem frames_fixed (hlen : s.length = n) (hv : valid s = true) : (fixed n hn valid).frames s = [s] := by
  have hflatten := @frames_flatten β n hn valid [s] (List.forall_mem_singleton.mpr ⟨hlen, hv⟩)
  rwa [List.flatten_singleton] at hflatten

/-- A byte no frame begins with may go at once. -/
theorem follows_cons {b : β} (hb : ∀ f, valid (b :: f) = false) :
    Follows (fixed n hn valid) (b :: c) [] c := by
  intro ys
  rw [List.nil_append, List.cons_append]
  by_cases hlen : (b :: (c ++ ys)).length < n
  · have hlen' : (c ++ ys).length < n := by
      rw [List.length_cons] at hlen
      omega
    rw [Scanner.frames_wait (fixed_wait hlen), Scanner.frames_wait (fixed_wait hlen')]
  · have hv : valid ((b :: (c ++ ys)).take n) = false := by
      obtain ⟨m, rfl⟩ : ∃ m, n = m + 1 := ⟨n - 1, by omega⟩
      rw [List.take_succ_cons]
      exact hb _
    rw [Scanner.frames_skip (fixed_skip (Nat.le_of_not_lt hlen) hv)]
    rfl

/-- **Dropping up to the next byte a frame can begin with** loses no frame. -/
theorem follows_dropWhile {p : β → Bool} (hp : ∀ b, p b = true → ∀ f, valid (b :: f) = false) :
    ∀ c, Follows (fixed n hn valid) c [] (c.dropWhile p)
  | [] => Follows.refl _ _
  | b :: c => by
    rw [List.dropWhile_cons]
    split
    · rename_i hb
      exact (follows_cons (hp b hb)).trans (follows_dropWhile hp c)
    · exact Follows.refl _ _

end Lib.Scan
