import Protozoa.Buffer.Heap

/-!
# Room for output (`buffer.c`)

`buffer_append` (`buffer.c:156-162`) looks at the space behind `pin` only. The space before `pout`,
of the bytes that `buffer_write` (`buffer.c:135-148`) has already sent, is not moved behind `pin`
(as `buffer_read` does with `buffer_compact`, `buffer.c:110-127`) but comes back when the buffer is
empty.

* `Spans`, `room_spec`: the room is what the bytes appended since the buffer was last empty leave
  (`stretch`), sent or not; the room there could be is what the bytes not yet sent leave (`unsent`).
* **`appends_whenRoom_iff`**: so an append fails without need (`AppendsWhenRoom`) in exactly the
  histories in which a transfer has left some of the bytes unsent and taken enough of them.
* `not_appends_whenRoom`: a transfer of all bytes but one, and then a message that would fit.

A history is a list of appends and transfers (`Op.Output`); the number of bytes a transfer takes is
its argument, since it is the socket's to choose.
-/

namespace Protozoa.Heap

open Lib.Fifo

/-- What is done with a transmit buffer. -/
def Op.Output : Op → Prop
  | .append _ | .write _ | .clear => True
  | _ => False

instance : DecidablePred Op.Output
  | .append _ | .write _ | .clear => .isTrue trivial
  | .init .. | .read _ | .consume _ => .isFalse not_false

theorem Op.Output.allowed {op : Op} (h : op.Output) (buf : RawBuffer) : op.Allowed buf := by
  cases op with
  | append | write | clear => trivial
  | init | read | consume => exact h.elim

theorem allAllowed_of_output : ∀ {ops : List Op}, (∀ op ∈ ops, op.Output) → ∀ buf, AllAllowed buf ops
  | [], _, _ => trivial
  | op :: ops, h, buf => by
    obtain ⟨hop, hops⟩ := List.forall_mem_cons.mp h
    exact ⟨hop.allowed buf, fun _ _ => allAllowed_of_output hops _⟩

/-! ## Runs -/

variable {buf buf' buf'' : RawBuffer} {es es' : List (Event Byte)} {e : Event Byte}

theorem run_append {ops ops' : List Op} :
    run buf (ops ++ ops') = (run buf ops).bind fun out =>
      (run out.1 ops').map fun out' => (out'.1, out.2 ++ out'.2) := by
  induction ops generalizing buf with
  | nil => cases h : run buf ops' <;> simp [run, h]
  | cons op ops ih =>
    rw [List.cons_append, run, run]
    cases step buf op with
    | none => rfl
    | some out =>
      simp only [Option.bind_eq_bind, Option.bind_some, ih]
      cases run out.1 ops with
      | none => rfl
      | some out' => cases h : run out'.1 ops' <;> simp [h]

theorem run_concat {ops : List Op} {op : Op} (hrun : run buf ops = some (buf', es))
    (hstep : step buf' op = some (buf'', e)) : run buf (ops ++ [op]) = some (buf'', es ++ [e]) := by
  rw [run_append, hrun]
  simp [run, hstep]

/-! ## How far a buffer is used -/

/-- How many bytes have been appended since the buffer was last empty, and how many of them are
unsent. -/
def spread (x : Nat × Nat) : Event Byte → Nat × Nat
  | .put xs => (x.1 + xs.length, x.2 + xs.length)
  | .take xs => if x.2 ≤ xs.length then (0, 0) else (x.1, x.2 - xs.length)
  | .clear => (0, 0)

/-- The bytes appended since the buffer was last empty. -/
def stretch (es : List (Event Byte)) : Nat := (es.foldl spread (0, 0)).1

/-- The bytes of them that are unsent. -/
def unsent (es : List (Event Byte)) : Nat := (es.foldl spread (0, 0)).2

/-- The pointers are where the history puts them. -/
structure Spans (es : List (Event Byte)) (size : Nat) (buf : RawBuffer) : Prop where
  end_ : buf.end_ = buf.base + size
  pin : buf.pin = buf.base + stretch es
  pout : buf.pout + unsent es = buf.pin
  empty : unsent es = 0 → stretch es = 0
  le : unsent es ≤ stretch es
  fits : stretch es ≤ size

theorem spread_concat (es : List (Event Byte)) (e : Event Byte) :
    (stretch (es ++ [e]), unsent (es ++ [e])) = spread (stretch es, unsent es) e := by
  unfold stretch unsent
  rw [List.foldl_append]
  rfl

variable {size : Nat}

theorem Spans.available (h : Spans es size buf) : bufferAvailable buf = unsent es := by
  have := h.pout
  unfold bufferAvailable
  omega

theorem Spans.space (h : Spans es size buf) : bufferSpace buf = size - stretch es := by
  have hend := h.end_
  have hpin := h.pin
  unfold bufferSpace
  omega

theorem spans_init (mem : Nat → Byte) (base size : Nat) : Spans [] size (bufferInit mem base size) :=
  ⟨rfl, rfl, rfl, fun _ => rfl, le_rfl, Nat.zero_le _⟩

theorem Spans.clear (h : Spans es size buf) : Spans (es ++ [.clear]) size (bufferClear buf) := by
  obtain ⟨hstretch, hunsent⟩ := Prod.mk.inj (spread_concat es .clear)
  refine ⟨h.end_, ?_, ?_, fun _ => hstretch, ?_, ?_⟩
  · rw [hstretch]
    rfl
  · rw [hunsent]
    rfl
  · rw [hstretch, hunsent]
  · rw [hstretch]
    exact Nat.zero_le _

/-- Bytes go in behind the others. -/
theorem Spans.put (h : Spans es size buf) (mem : Nat → Byte) {mess : List Byte}
    (hroom : stretch es + mess.length ≤ size) :
    Spans (es ++ [.put mess]) size { buf with mem := mem, pin := buf.pin + mess.length } := by
  obtain ⟨hstretch, hunsent⟩ := Prod.mk.inj (spread_concat es (.put mess))
  have hpin := h.pin
  have hpout := h.pout
  have hempty := h.empty
  refine ⟨h.end_, ?_, ?_, fun h0 => ?_, ?_, ?_⟩
  · rw [hstretch, hpin, Nat.add_assoc]
  · rw [hunsent, ← hpout, Nat.add_assoc]
  · rw [hunsent] at h0
    rw [hstretch, hempty (Nat.eq_zero_of_add_eq_zero_right h0), Nat.eq_zero_of_add_eq_zero_left h0]
  · rw [hstretch, hunsent]
    exact Nat.add_le_add_right h.le _
  · rw [hstretch]
    exact hroom

/-- Bytes are sent: the buffer is as full as before, unless it is empty now. -/
theorem Spans.take (h : Spans es size buf) {xs : List Byte} (hxs : xs.length ≤ unsent es) :
    ∃ buf', bufferConsume buf xs.length = some buf' ∧ Spans (es ++ [.take xs]) size buf' := by
  have hspread := spread_concat es (.take xs)
  have hpin := h.pin
  have hpout := h.pout
  unfold bufferConsume
  simp only [show buf.pout + xs.length ≤ buf.pin by omega, if_true]
  refine ⟨_, rfl, ?_⟩
  by_cases hall : unsent es ≤ xs.length
  · simp only [spread, if_pos hall] at hspread
    obtain ⟨hstretch, hunsent⟩ := Prod.mk.inj hspread
    rw [if_pos (by omega)]
    exact ⟨h.end_, by rw [hstretch]; rfl, by rw [hunsent]; rfl, fun _ => hstretch, by omega, by omega⟩
  · simp only [spread, if_neg hall] at hspread
    obtain ⟨hstretch, hunsent⟩ := Prod.mk.inj hspread
    rw [if_neg (by omega)]
    have hle := h.le
    refine ⟨h.end_, ?_, ?_, ?_, ?_, ?_⟩
    · rw [hstretch]
      exact hpin
    · show buf.pout + xs.length + _ = buf.pin
      omega
    · omega
    · omega
    · rw [hstretch]
      exact h.fits

theorem Spans.take_nil (h : Spans es size buf) : Spans (es ++ [.take []]) size buf := by
  have hspread := spread_concat es (.take [])
  have hempty := h.empty
  by_cases h0 : unsent es ≤ 0
  · obtain ⟨hstretch, hunsent⟩ := Prod.mk.inj (hspread.trans (if_pos h0))
    have hstart := hempty (Nat.le_zero.mp h0)
    exact ⟨h.end_, by have := h.pin; omega, by have := h.pout; omega, fun _ => hstretch, by omega, by omega⟩
  · obtain ⟨hstretch, hunsent⟩ := Prod.mk.inj (hspread.trans (if_neg h0))
    have hunsent : unsent (es ++ [.take []]) = unsent es := hunsent
    refine ⟨h.end_, ?_, ?_, ?_, ?_, ?_⟩
    · rw [hstretch]
      exact h.pin
    · rw [hunsent]
      exact h.pout
    · rw [hunsent, hstretch]
      exact hempty
    · rw [hunsent, hstretch]
      exact h.le
    · rw [hstretch]
      exact h.fits

/-- How many bytes `buffer_write` sends. -/
def sent (buf : RawBuffer) (taken : Option Nat) : Nat := min (taken.getD 0) (bufferAvailable buf)

/-- What **`buffer_write`** does to the pointers. -/
theorem step_write (buf : RawBuffer) (taken : Option Nat) :
    step buf (.write taken) =
      (if sent buf taken = 0 then some buf else bufferConsume buf (sent buf taken)).map
        (·, .take (slice buf.mem buf.pout (sent buf taken))) := by
  unfold Heap.step bufferWrite sent
  simp only
  by_cases hcount : bufferAvailable buf = 0
  · rw [if_pos hcount, hcount, Nat.min_zero]
    rfl
  rw [if_neg hcount]
  cases taken with
  | none =>
    rw [Option.getD_none, Nat.zero_min]
    rfl
  | some n =>
    simp only [Option.getD_some]
    by_cases hpos : min n (bufferAvailable buf) > 0
    · rw [if_pos hpos, if_neg (Nat.ne_of_gt hpos)]
      cases bufferConsume buf (min n (bufferAvailable buf)) <;> rfl
    · rw [if_neg hpos, if_pos (Nat.eq_zero_of_not_pos hpos)]
      rfl

/-- **One operation.** -/
theorem Spans.step (h : Spans es size buf) {op : Op} (hop : op.Output)
    (hstep : Heap.step buf op = some (buf', e)) : Spans (es ++ [e]) size buf' := by
  cases op with
  | init | read | consume => exact hop.elim
  | clear =>
    obtain ⟨rfl, rfl⟩ := Prod.mk.inj (Option.some.inj hstep)
    exact h.clear
  | append mess =>
    have hspace := h.space
    have hfits := h.fits
    by_cases hfull : bufferSpace buf < mess.length
    · simp only [Heap.step, bufferAppend, if_pos hfull] at hstep
      obtain ⟨rfl, rfl⟩ := Prod.mk.inj (Option.some.inj hstep)
      exact @h.put _ _ _ buf.mem [] hfits
    · simp only [Heap.step, bufferAppend, if_neg hfull] at hstep
      obtain ⟨rfl, rfl⟩ := Prod.mk.inj (Option.some.inj hstep)
      exact h.put _ (by omega)
  | write taken =>
    rw [step_write] at hstep
    by_cases h0 : sent buf taken = 0
    · rw [if_pos h0, h0] at hstep
      obtain ⟨rfl, rfl⟩ := Prod.mk.inj (Option.some.inj hstep)
      exact h.take_nil
    · have hle : sent buf taken ≤ unsent es := h.available ▸ Nat.min_le_right _ _
      obtain ⟨buf₁, hconsume, h₁⟩ := @h.take _ _ _ (slice buf.mem buf.pout (sent buf taken)) (by rwa [length_slice])
      rw [length_slice] at hconsume
      rw [if_neg h0, hconsume] at hstep
      obtain ⟨rfl, rfl⟩ := Prod.mk.inj (Option.some.inj hstep)
      exact h₁

/-- **A run**, and the room after it. -/
theorem room_spec (mem : Nat → Byte) (base size : Nat) : ∀ ops : List Op, (∀ op ∈ ops, op.Output) →
    ∃ buf es, run (bufferInit mem base size) ops = some (buf, es) ∧ Spans es size buf := by
  intro ops
  induction ops using List.reverseRecOn with
  | nil => exact fun _ => ⟨_, _, rfl, spans_init mem base size⟩
  | append_singleton ops op ih =>
    intro hops
    obtain ⟨hops, hop⟩ := List.forall_mem_append.mp hops
    have hop := hop op (List.mem_singleton_self op)
    obtain ⟨buf, es, hrun, h⟩ := ih hops
    obtain ⟨raw, es', hall, -⟩ := run_fifo mem base size (ops ++ [op]) (allAllowed_of_output
      (List.forall_mem_append.mpr ⟨hops, List.forall_mem_singleton.mpr hop⟩) _)
    have hsome := hall
    rw [run_append, hrun] at hall
    simp only [Option.bind_some, run, Option.bind_eq_bind] at hall
    cases hstep : step buf op with
    | none => simp [hstep] at hall
    | some out => exact ⟨out.1, es ++ [out.2], run_concat hrun hstep, h.step hop hstep⟩

/-! ## Appends that fail -/

/-- `buffer_append` fails only where the unsent bytes and the new ones are more than the buffer
holds. -/
def AppendsWhenRoom (buf : RawBuffer) (nBytes : Nat) : Prop :=
  (bufferAppend buf nBytes).1 = none → buf.end_ - buf.base < bufferAvailable buf + nBytes

theorem Spans.appendsWhenRoom_iff (h : Spans es size buf) (n : Nat) :
    AppendsWhenRoom buf n ↔ ¬ (unsent es + n ≤ size ∧ size < stretch es + n) := by
  have hspace := h.space
  have hend := h.end_
  have hfits := h.fits
  unfold AppendsWhenRoom bufferAppend
  rw [h.available]
  by_cases hfull : bufferSpace buf < n
  · rw [if_pos hfull]
    simp only [forall_const]
    omega
  · rw [if_neg hfull]
    simp only [reduceCtorEq, false_implies, true_iff]
    omega

/-- No append fails without need where nothing has been sent since the buffer was last empty. -/
theorem Spans.all_appendsWhenRoom_iff (h : Spans es size buf) :
    (∀ n, AppendsWhenRoom buf n) ↔ unsent es = stretch es := by
  have hle := h.le
  have hfits := h.fits
  constructor
  · intro hall
    have := (h.appendsWhenRoom_iff _).mp (hall (size - unsent es))
    omega
  · intro heq n
    rw [h.appendsWhenRoom_iff]
    omega

/-- Where nothing has been sent of what the buffer holds, it is so after an operation unless that is
a transfer of a part. -/
theorem Spans.whole_step (h : Spans es size buf) (hwhole : unsent es = stretch es) {op : Op} (hop : op.Output)
    (hstep : Heap.step buf op = some (buf', e)) :
    unsent (es ++ [e]) = stretch (es ++ [e]) ↔
      ∀ taken, op = .write taken → sent buf taken = 0 ∨ sent buf taken = bufferAvailable buf := by
  obtain ⟨hstretch, hunsent⟩ := Prod.mk.inj (spread_concat es e)
  cases op with
  | init | read | consume => exact hop.elim
  | clear =>
    obtain ⟨rfl, rfl⟩ := Prod.mk.inj (Option.some.inj hstep)
    exact iff_of_true (hunsent.trans hstretch.symm) (fun _ h => nomatch h)
  | append mess =>
    refine iff_of_true ?_ (fun _ h => nomatch h)
    obtain ⟨xs, rfl⟩ : ∃ xs, e = .put xs := by
      unfold Heap.step at hstep
      simp only at hstep
      split at hstep <;> exact ⟨_, (Prod.mk.inj (Option.some.inj hstep)).2.symm⟩
    rw [hstretch, hunsent]
    exact congrArg (· + xs.length) hwhole
  | write taken =>
    have hle : sent buf taken ≤ unsent es := h.available ▸ Nat.min_le_right _ _
    have he : e = .take (slice buf.mem buf.pout (sent buf taken)) := by
      rw [step_write] at hstep
      obtain ⟨_, -, heq⟩ := Option.map_eq_some_iff.mp hstep
      exact (Prod.mk.inj heq).2.symm
    simp only [Op.write.injEq, forall_eq']
    rw [hstretch, hunsent, he, h.available]
    simp only [length_slice]
    split
    · exact iff_of_true rfl (.inr (by omega))
    · simp only
      omega

/-- In every state of a run no append fails without need. -/
def AlwaysAppends (start : RawBuffer) (ops : List Op) : Prop :=
  ∀ k buf es, run start (ops.take k) = some (buf, es) → ∀ n, AppendsWhenRoom buf n

/-- Every transfer of a run takes all the bytes of the buffer, or none. -/
def WholeTransfers (start : RawBuffer) (ops : List Op) : Prop :=
  ∀ k taken buf es, ops[k]? = some (.write taken) → run start (ops.take k) = some (buf, es) →
    sent buf taken = 0 ∨ sent buf taken = bufferAvailable buf

theorem run_take_succ {start : RawBuffer} {ops : List Op} {op : Op} {k : Nat} (hop : ops[k]? = some op)
    (hrun : run start (ops.take (k + 1)) = some (buf', es')) :
    ∃ buf es e, run start (ops.take k) = some (buf, es) ∧ step buf op = some (buf', e) ∧ es' = es ++ [e] := by
  rw [List.take_add_one, hop, Option.toList_some, run_append, Option.bind_eq_some_iff] at hrun
  obtain ⟨⟨buf, es⟩, hpre, hrun⟩ := hrun
  obtain ⟨⟨buf₁, es₁⟩, hlast, heq⟩ := Option.map_eq_some_iff.mp hrun
  obtain ⟨rfl, rfl⟩ := Prod.mk.inj heq
  simp only [run, Option.bind_eq_bind, Option.bind_some, Option.bind_eq_some_iff] at hlast
  obtain ⟨⟨buf₂, e⟩, hstep, hlast⟩ := hlast
  obtain ⟨rfl, rfl⟩ := Prod.mk.inj (Option.some.inj hlast)
  exact ⟨buf, es, e, hpre, hstep, rfl⟩

section

variable {mem : Nat → Byte} {base size : Nat} {ops : List Op}

theorem room_take (hops : ∀ op ∈ ops, op.Output) {k : Nat}
    (hrun : run (bufferInit mem base size) (ops.take k) = some (buf, es)) : Spans es size buf := by
  obtain ⟨buf', es', hrun', h⟩ := room_spec mem base size (ops.take k) fun op hop =>
    hops op (List.mem_of_mem_take hop)
  obtain ⟨rfl, rfl⟩ := Prod.mk.inj (Option.some.inj (hrun.symm.trans hrun'))
  exact h

/-- As long as no transfer is partial, nothing has been sent of what the buffer holds. -/
theorem WholeTransfers.unsent (hops : ∀ op ∈ ops, op.Output)
    (hwhole : WholeTransfers (bufferInit mem base size) ops) {k : Nat} :
    ∀ {buf es}, run (bufferInit mem base size) (ops.take k) = some (buf, es) →
      Heap.unsent es = stretch es := by
  induction k with
  | zero =>
    intro buf es hrun
    obtain ⟨rfl, rfl⟩ := Prod.mk.inj (Option.some.inj hrun)
    rfl
  | succ k ih =>
    intro buf es hrun
    cases hop : ops[k]? with
    | none =>
      rw [List.take_add_one, hop, Option.toList_none, List.append_nil] at hrun
      exact ih hrun
    | some op =>
      obtain ⟨buf₁, es₁, e, hpre, hstep, rfl⟩ := run_take_succ hop hrun
      have hout := hops op (List.mem_of_getElem? hop)
      refine ((room_take hops hpre).whole_step (ih hpre) hout hstep).mpr fun taken htaken => ?_
      exact hwhole k taken buf₁ es₁ (htaken ▸ hop) hpre

theorem AlwaysAppends.whole (hops : ∀ op ∈ ops, op.Output)
    (halways : AlwaysAppends (bufferInit mem base size) ops) :
    WholeTransfers (bufferInit mem base size) ops := by
  intro k taken buf es hop hrun
  have hunsent : ∀ {k buf es}, run (bufferInit mem base size) (ops.take k) = some (buf, es) →
      unsent es = stretch es := fun hrun =>
    (room_take hops hrun).all_appendsWhenRoom_iff.mp (halways _ _ _ hrun)
  obtain ⟨buf', es', hnext, -⟩ := room_spec mem base size (ops.take (k + 1)) fun op hop =>
    hops op (List.mem_of_mem_take hop)
  obtain ⟨buf₁, es₁, e, hpre, hstep, rfl⟩ := run_take_succ hop hnext
  obtain ⟨rfl, rfl⟩ := Prod.mk.inj (Option.some.inj (hrun.symm.trans hpre))
  have hout := hops _ (List.mem_of_getElem? hop)
  exact ((room_take hops hrun).whole_step (hunsent hrun) hout hstep).mp (hunsent hnext) taken rfl

end

/-- **Room for output**: after any appends, transfers and clears an append of `n` bytes fails
without need exactly if the bytes appended since the buffer was last empty, sent or not, leave no
room for it, and the unsent ones would. No append at all can fail without need in a run exactly if
every transfer takes all the bytes, or none. -/
theorem appends_whenRoom_iff (mem : Nat → Byte) (base size : Nat) (ops : List Op) (hops : ∀ op ∈ ops, op.Output) :
    (∃ buf es, run (bufferInit mem base size) ops = some (buf, es) ∧
      ∀ n, AppendsWhenRoom buf n ↔ ¬ (unsent es + n ≤ size ∧ size < stretch es + n)) ∧
    (AlwaysAppends (bufferInit mem base size) ops ↔ WholeTransfers (bufferInit mem base size) ops) := by
  obtain ⟨buf, es, hrun, h⟩ := room_spec mem base size ops hops
  refine ⟨⟨buf, es, hrun, h.appendsWhenRoom_iff⟩, AlwaysAppends.whole hops, fun hwhole k buf es hrun => ?_⟩
  exact (room_take hops hrun).all_appendsWhenRoom_iff.mpr (hwhole.unsent hops hrun)

/-- Most of 250 bytes are sent, and 7 more are appended. -/
theorem appends_whenRoom_iff_partial :
    (∃ buf es, run (bufferInit (fun _ => 0) 1000 256) [.append (List.replicate 250 0), .write (some 200)] =
        some (buf, es) ∧
      ∀ n, AppendsWhenRoom buf n ↔ ¬ (unsent es + n ≤ 256 ∧ 256 < stretch es + n)) ∧
    (AlwaysAppends (bufferInit (fun _ => 0) 1000 256) [.append (List.replicate 250 0), .write (some 200)] ↔
      WholeTransfers (bufferInit (fun _ => 0) 1000 256) [.append (List.replicate 250 0), .write (some 200)]) :=
  appends_whenRoom_iff (fun _ => 0) 1000 256 _ (by decide)

set_option maxRecDepth 4000 in
/-- There is room for the 7 bytes behind the 50 that are still unsent, but not behind where they
stand. -/
theorem not_appends_whenRoom :
    ¬ ∀ (mem : Nat → Byte) (base size : Nat) (ops : List Op), (∀ op ∈ ops, op.Output) →
      ∀ buf es, run (bufferInit mem base size) ops = some (buf, es) → ∀ n, AppendsWhenRoom buf n := by
  intro h
  have hlt := h (fun _ => 0) 1000 256 [.append (List.replicate 250 0), .write (some 200)] (by decide) _ _ rfl 7 rfl
  exact absurd hlt (by decide)

end Protozoa.Heap
