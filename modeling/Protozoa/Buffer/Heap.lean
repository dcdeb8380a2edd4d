import Protozoa.Buffer
import Protozoa.Lib.Fifo

/-!
# I/O buffers in memory (`buffer.c`)

The functions of `Buffer` again, on the four pointers `base`, `end`, `pin` and `pout`
(`buffer.h:12-17`) and the memory they point to: `buffer_init` (`buffer.c:27-35`), `buffer_compact`
(`buffer.c:97-102`) with its `memmove`, `buffer_read`, `buffer_write`, `buffer_append` and
`buffer_consume` (`buffer.c:110-192`). The bytes of the buffer are what stands in memory between
`pout` and `pin` (`contents`).

`memmove` copies as if through another place, so that its source may overlap with where it copies
to.

* `Represents`: a buffer in memory has the bytes, the size and the room of a `Buffer`. Every
  function does to the pointers and to the memory what the one in `Buffer` does to the bytes.
* **`run_fifo`**: over any sequence of operations (`Op`, the ones a caller may make: `Op.Allowed`)
  the buffer is a queue: what has come out, and then what is in it, is what has gone in, in that
  order (`Queues`).

Out of scope: `buffer_destroy`, which is a `free` (`Program/Reload.lean`), and whether the kernel
reads or writes any bytes at all, which every operation takes as an argument.
-/

namespace Protozoa.Heap

open Lib.Fifo

/-- `n` bytes of memory. -/
def slice (mem : Nat → Byte) (a n : Nat) : List Byte := (List.range n).map fun i => mem (a + i)

/-- Memory with bytes written to it. -/
def store (mem : Nat → Byte) (a : Nat) (bytes : List Byte) (x : Nat) : Byte :=
  if a ≤ x then (bytes[x - a]?).getD (mem x) else mem x

/-- `memmove`. -/
def memmove (mem : Nat → Byte) (dest src n : Nat) : Nat → Byte := store mem dest (slice mem src n)

/-- `struct buffer`, and the memory. -/
structure RawBuffer where
  mem : Nat → Byte
  base : Nat
  end_ : Nat
  pin : Nat
  pout : Nat

/-- `buffer_init`, with the address that `malloc` gives. -/
def bufferInit (mem : Nat → Byte) (base nBytes : Nat) : RawBuffer := ⟨mem, base, base + nBytes, base, base⟩

/-- `buffer_clear`. -/
def bufferClear (buf : RawBuffer) : RawBuffer := { buf with pin := buf.base, pout := buf.base }

/-- `buffer_available`. -/
def bufferAvailable (buf : RawBuffer) : Nat := buf.pin - buf.pout

/-- `buffer_space`. -/
def bufferSpace (buf : RawBuffer) : Nat := buf.end_ - buf.pin

/-- `buffer_compact`. -/
def bufferCompact (buf : RawBuffer) : RawBuffer :=
  let a := bufferAvailable buf
  let mem := memmove buf.mem buf.base buf.pout a
  let pout := buf.base
  { buf with mem := mem, pout := pout, pin := pout + a }

/-- `buffer_consume`; `none` if the assertion fails. -/
def bufferConsume (buf : RawBuffer) (nBytes : Nat) : Option RawBuffer :=
  let buf := { buf with pout := buf.pout + nBytes }
  if buf.pout ≤ buf.pin then some (if buf.pout = buf.pin then bufferClear buf else buf) else none

/-- `buffer_read`: what it returns, and the buffer. `read` finds some bytes, or fails. -/
def bufferRead (buf : RawBuffer) (found : Option (List Byte)) : Int × RawBuffer :=
  let buf := if bufferSpace buf = 0 then bufferCompact buf else buf
  let count := bufferSpace buf
  if count = 0 then (-1, buf)
  else
    match found with
    | none => (-1, buf)
    | some bytes =>
      let bytes := bytes.take count
      (bytes.length, { buf with mem := store buf.mem buf.pin bytes, pin := buf.pin + bytes.length })

/-- `buffer_write`. `write` takes so many bytes, or fails. -/
def bufferWrite (buf : RawBuffer) (taken : Option Nat) : Option (Int × RawBuffer) :=
  let count := bufferAvailable buf
  if count = 0 then some (-1, buf)
  else
    match taken with
    | none => some (-1, buf)
    | some n =>
      let nBytes := min n count
      (if nBytes > 0 then bufferConsume buf nBytes else some buf).map (((nBytes : Nat) : Int), ·)

/-- `buffer_append`: the place for the bytes, unless there is no room. -/
def bufferAppend (buf : RawBuffer) (nBytes : Nat) : Option Nat × RawBuffer :=
  if bufferSpace buf < nBytes then (none, buf) else (some buf.pin, { buf with pin := buf.pin + nBytes })

/-! ## What is done with a buffer -/

/-- An operation, and what the system does in it. -/
inductive Op where
  | init (base nBytes : Nat)
  /-- the place is filled with the message -/
  | append (mess : List Byte)
  | read (found : Option (List Byte))
  | write (taken : Option Nat)
  | consume (nBytes : Nat)
  | clear

/-- An operation, and what it puts in or takes out. -/
def step (buf : RawBuffer) : Op → Option (RawBuffer × Event Byte)
  | .init base nBytes => some (bufferInit buf.mem base nBytes, .clear)
  | .append mess =>
    match bufferAppend buf mess.length with
    | (none, buf) => some (buf, .put [])
    | (some a, buf) => some ({ buf with mem := store buf.mem a mess }, .put mess)
  | .read found =>
    let (n, buf) := bufferRead buf found
    some (buf, .put ((found.getD []).take n.toNat))
  | .write taken =>
    (bufferWrite buf taken).map fun out => (out.2, .take (slice buf.mem buf.pout out.1.toNat))
  | .consume nBytes =>
    (bufferConsume buf nBytes).map fun buf' => (buf', .take (slice buf.mem buf.pout nBytes))
  | .clear => some (bufferClear buf, .clear)

/-- Operations, one after the other. -/
def run (buf : RawBuffer) : List Op → Option (RawBuffer × List (Event Byte))
  | [] => some (buf, [])
  | op :: ops => do
    let (buf, e) ← step buf op
    let (buf, es) ← run buf ops
    return (buf, e :: es)

/-- The bytes of a buffer. -/
def contents (buf : RawBuffer) : List Byte := slice buf.mem buf.pout (bufferAvailable buf)

/-! ## Memory -/

section

variable {mem : Nat → Byte} {a b n : Nat} {bytes : List Byte}

@[simp] theorem length_slice (mem : Nat → Byte) (a n : Nat) : (slice mem a n).length = n := by
  simp [slice]

theorem getElem_slice {i : Nat} (h : i < (slice mem a n).length) : (slice mem a n)[i] = mem (a + i) := by
  simp [slice]

theorem slice_append (mem : Nat → Byte) (a m n : Nat) :
    slice mem a (m + n) = slice mem a m ++ slice mem (a + m) n := by
  refine List.ext_getElem (by simp) fun i h h' => ?_
  rw [getElem_slice, List.getElem_append]
  split
  · rw [getElem_slice]
  · rename_i hi
    rw [length_slice] at hi
    rw [getElem_slice, length_slice]
    congr 1
    omega

theorem slice_congr {mem' : Nat → Byte} (h : ∀ x, a ≤ x → x < a + n → mem' x = mem x) :
    slice mem' a n = slice mem a n := by
  refine List.ext_getElem (by simp) fun i hi _ => ?_
  rw [length_slice] at hi
  rw [getElem_slice, getElem_slice]
  exact h _ (Nat.le_add_right a i) (Nat.add_lt_add_left hi a)

/-- What has been written. -/
theorem slice_store (mem : Nat → Byte) (a : Nat) (bytes : List Byte) :
    slice (store mem a bytes) a bytes.length = bytes := by
  refine List.ext_getElem (by simp) fun i hi h' => ?_
  rw [getElem_slice, store, if_pos (Nat.le_add_right a i), Nat.add_sub_cancel_left,
    List.getElem?_eq_getElem h']
  rfl

/-- What stands before it. -/
theorem slice_store_before (h : b + n ≤ a) : slice (store mem a bytes) b n = slice mem b n := by
  refine slice_congr fun x _ hx => ?_
  rw [store, if_neg]
  omega

end

/-! ## The bytes of a buffer -/

/-- The pointers and the memory of a buffer. -/
structure Represents (raw : RawBuffer) (buf : Buffer) : Prop where
  pout : raw.pout = raw.base + buf.pout
  pin : raw.pin = raw.pout + buf.data.length
  end_ : raw.end_ = raw.base + buf.size
  data : slice raw.mem raw.pout buf.data.length = buf.data

section

variable {raw raw' : RawBuffer} {buf buf' : Buffer}

theorem Represents.available (h : Represents raw buf) : bufferAvailable raw = buf.data.length := by
  unfold bufferAvailable
  rw [h.pin, Nat.add_sub_cancel_left]

theorem Represents.contents (h : Represents raw buf) : contents raw = buf.data := by
  unfold Heap.contents
  rw [h.available, h.data]

theorem Represents.space (h : Represents raw buf) : bufferSpace raw = Protozoa.bufferSpace buf := by
  unfold bufferSpace Protozoa.bufferSpace
  rw [h.pin, h.end_, h.pout]
  omega

/-- The pointers are in order. -/
theorem Represents.order (h : Represents raw buf) :
    raw.base ≤ raw.pout ∧ raw.pout ≤ raw.pin ∧ raw.pin ≤ raw.end_ := by
  have hpout := h.pout
  have hpin := h.pin
  have hend := h.end_
  have hfits := buf.fits
  omega

theorem represents_init (mem : Nat → Byte) (base nBytes : Nat) :
    Represents (bufferInit mem base nBytes) (Protozoa.bufferInit nBytes) := ⟨rfl, rfl, rfl, rfl⟩

theorem Represents.clear (h : Represents raw buf) :
    Represents (bufferClear raw) (Protozoa.bufferClear buf) := ⟨rfl, rfl, h.end_, rfl⟩

/-- **`buffer_compact`** moves the bytes to the base, where they may overlap with themselves. -/
theorem Represents.compact (h : Represents raw buf) :
    Represents (bufferCompact raw) (Protozoa.bufferCompact buf) := by
  have hstore := slice_store raw.mem raw.base (slice raw.mem raw.pout buf.data.length)
  rw [length_slice, h.data] at hstore
  refine ⟨rfl, ?_, h.end_, ?_⟩
  · exact congrArg (raw.base + ·) h.available
  · simp only [bufferCompact, memmove, h.available, h.data]
    exact hstore

/-- Bytes are written at `pin`. -/
theorem Represents.push (h : Represents raw buf) {bytes : List Byte}
    (hroom : bytes.length ≤ Protozoa.bufferSpace buf) :
    Represents { raw with mem := store raw.mem raw.pin bytes, pin := raw.pin + bytes.length }
      (bufferPush buf bytes hroom) := by
  refine ⟨h.pout, ?_, h.end_, ?_⟩
  · show raw.pin + bytes.length = raw.pout + (buf.data ++ bytes).length
    rw [h.pin, List.length_append, Nat.add_assoc]
  · show slice (store raw.mem raw.pin bytes) raw.pout (buf.data ++ bytes).length = buf.data ++ bytes
    rw [List.length_append, slice_append, slice_store_before h.pin.ge, h.data, ← h.pin, slice_store]

/-- **`buffer_consume`** of bytes that are there. -/
theorem Represents.consume (h : Represents raw buf) {nBytes : Nat} (hle : nBytes ≤ buf.data.length) :
    ∃ raw' buf', bufferConsume raw nBytes = some raw' ∧ Protozoa.bufferConsume buf nBytes = some buf' ∧
      Represents raw' buf' ∧ slice raw.mem raw.pout nBytes = buf.data.take nBytes := by
  have hpin := h.pin
  have hsplit := slice_append raw.mem raw.pout nBytes (buf.data.length - nBytes)
  rw [Nat.add_sub_cancel' hle, h.data] at hsplit
  have htake : slice raw.mem raw.pout nBytes = buf.data.take nBytes := by
    have := congrArg (List.take nBytes) hsplit
    rw [List.take_left' (length_slice _ _ _)] at this
    exact this.symm
  have hdrop : slice raw.mem (raw.pout + nBytes) (buf.data.length - nBytes) = buf.data.drop nBytes := by
    have := congrArg (List.drop nBytes) hsplit
    rw [List.drop_left' (length_slice _ _ _)] at this
    exact this.symm
  unfold bufferConsume Protozoa.bufferConsume
  rw [dif_pos hle]
  simp only
  rw [if_pos (by omega)]
  refine ⟨_, _, rfl, rfl, ?_, htake⟩
  have hempty : raw.pout + nBytes = raw.pin ↔ buf.data.drop nBytes = [] := by
    rw [List.drop_eq_nil_iff]
    omega
  by_cases hnil : buf.data.drop nBytes = []
  · rw [if_pos (hempty.mpr hnil), dif_pos hnil]
    exact ⟨rfl, rfl, h.end_, rfl⟩
  · rw [if_neg (mt hempty.mp hnil), dif_neg hnil]
    refine ⟨?_, ?_, h.end_, ?_⟩
    · show raw.pout + nBytes = raw.base + (buf.pout + nBytes)
      rw [h.pout, Nat.add_assoc]
    · show raw.pin = raw.pout + nBytes + (buf.data.drop nBytes).length
      rw [List.length_drop]
      omega
    · show slice raw.mem (raw.pout + nBytes) (buf.data.drop nBytes).length = buf.data.drop nBytes
      rw [List.length_drop]
      exact hdrop

/-- **`buffer_read`** puts in what it has found room for. -/
theorem Represents.read (h : Represents raw buf) (found : Option (List Byte)) :
    ∃ buf', Represents (bufferRead raw found).2 buf' ∧
      buf'.data = buf.data ++ (found.getD []).take (bufferRead raw found).1.toNat ∧
      ∀ bytes ∈ found, ∀ out ∈ Protozoa.bufferRead buf bytes, buf' = out.1 := by
  unfold bufferRead Protozoa.bufferRead
  set raw₁ := if bufferSpace raw = 0 then bufferCompact raw else raw with hraw₁
  set buf₁ := if Protozoa.bufferSpace buf = 0 then Protozoa.bufferCompact buf else buf with hbuf₁
  have h₁ : Represents raw₁ buf₁ ∧ buf₁.data = buf.data := by
    rw [hraw₁, hbuf₁, h.space]
    split
    · exact ⟨h.compact, rfl⟩
    · exact ⟨h, rfl⟩
  obtain ⟨h₁, hdata⟩ := h₁
  simp only [h₁.space]
  by_cases hcount : Protozoa.bufferSpace buf₁ = 0
  · rw [if_pos hcount]
    refine ⟨buf₁, h₁, ?_, fun bytes _ out hout => ?_⟩
    · rw [hdata]
      exact (List.append_nil _).symm
    · rw [if_pos hcount] at hout
      cases hout
  rw [if_neg hcount]
  cases found with
  | none =>
    refine ⟨buf₁, h₁, ?_, ?_⟩
    · rw [hdata]
      exact (List.append_nil _).symm
    · rintro bytes hbytes
      cases hbytes
  | some bytes =>
    have hroom := List.length_take_le (Protozoa.bufferSpace buf₁) bytes
    refine ⟨bufferPush buf₁ _ hroom, h₁.push hroom, ?_, fun bytes' hbytes out hout => ?_⟩
    · show buf₁.data ++ _ = buf.data ++ bytes.take ((bytes.take (Protozoa.bufferSpace buf₁)).length : Int).toNat
      rw [hdata, Int.toNat_natCast, List.length_take, List.take_eq_take_min]
    · obtain rfl := Option.some.inj hbytes
      rw [if_neg hcount] at hout
      rw [← Option.some.inj hout]

/-- **`buffer_write`** takes out what is taken. -/
theorem Represents.write (h : Represents raw buf) (taken : Option Nat) :
    ∃ n raw' buf', bufferWrite raw taken = some (n, raw') ∧ Represents raw' buf' ∧
      buf.data = slice raw.mem raw.pout n.toNat ++ buf'.data ∧
      ∀ k ∈ taken, ∀ out ∈ Protozoa.bufferWrite buf k, buf' = out.1 := by
  have hnone : ∀ n : Int, n.toNat = 0 → buf.data = slice raw.mem raw.pout n.toNat ++ buf.data := by
    intro n hn
    rw [hn]
    rfl
  unfold bufferWrite Protozoa.bufferWrite
  rw [show Protozoa.bufferAvailable buf = buf.data.length from rfl]
  simp only [h.available]
  by_cases hcount : buf.data.length = 0
  · rw [if_pos hcount]
    refine ⟨-1, raw, buf, rfl, h, hnone (-1) rfl, fun k _ out hout => ?_⟩
    rw [if_pos hcount] at hout
    cases hout
  rw [if_neg hcount]
  cases taken with
  | none => exact ⟨-1, raw, buf, rfl, h, hnone (-1) rfl, fun k hk => nomatch hk⟩
  | some k =>
    obtain ⟨raw', buf', hraw, hbuf, h', hslice⟩ := h.consume (Nat.min_le_right k buf.data.length)
    have hsplit : buf.data = slice raw.mem raw.pout (min k buf.data.length) ++ buf'.data := by
      obtain ⟨buf'', hbuf'', hdata, -⟩ := bufferConsume_spec (Nat.min_le_right k buf.data.length)
      obtain rfl := Option.some.inj (hbuf.symm.trans hbuf'')
      rw [hslice, hdata, List.take_append_drop]
    have hout : ∀ out ∈ (Protozoa.bufferConsume buf k).map fun b => (b, buf.data.take k), buf' = out.1 := by
      intro out hout
      obtain ⟨b, hb, rfl⟩ := Option.mem_map.mp hout
      have hle : k ≤ buf.data.length := by
        by_contra hlt
        unfold Protozoa.bufferConsume at hb
        rw [dif_neg hlt] at hb
        cases hb
      rw [Nat.min_eq_left hle] at hbuf
      exact Option.some.inj (hbuf.symm.trans hb)
    by_cases hpos : min k buf.data.length > 0
    · refine ⟨((min k buf.data.length : Nat) : Int), raw', buf', ?_, h', ?_, fun k' hk' out hout' => ?_⟩
      · simp only [if_pos hpos, hraw]
        rfl
      · rw [Int.toNat_natCast]
        exact hsplit
      · obtain rfl := Option.some.inj hk'
        rw [if_neg hcount] at hout'
        exact hout out hout'
    · -- nothing is taken
      have hk : k = 0 := by omega
      subst hk
      refine ⟨0, raw, buf, rfl, h, hnone 0 rfl, fun k' hk' out hout' => ?_⟩
      obtain rfl := Option.some.inj hk'
      rw [if_neg hcount] at hout'
      rw [← hout out hout']
      have hne : buf.data ≠ [] := fun hnil => hcount (congrArg List.length hnil)
      rw [Nat.zero_min] at hbuf
      simp only [Protozoa.bufferConsume, Nat.zero_le, dif_pos, List.drop_zero, dif_neg hne] at hbuf
      exact Option.some.inj hbuf

/-- **`buffer_append`**, and the message written to its place. -/
theorem Represents.append (h : Represents raw buf) (mess : List Byte) :
    match bufferAppend raw mess.length with
    | (none, raw') => raw' = raw ∧ Protozoa.bufferAppend buf mess = none
    | (some a, raw') => ∃ buf', Protozoa.bufferAppend buf mess = some buf' ∧
        Represents { raw' with mem := store raw'.mem a mess } buf' ∧ buf'.data = buf.data ++ mess := by
  unfold bufferAppend Protozoa.bufferAppend
  rw [h.space]
  by_cases hfull : Protozoa.bufferSpace buf < mess.length
  · rw [if_pos hfull, dif_pos hfull]
    exact ⟨rfl, rfl⟩
  · rw [if_neg hfull, dif_neg hfull]
    exact ⟨_, rfl, h.push (Nat.le_of_not_lt hfull), rfl⟩

end

/-! ## Any sequence of operations -/

/-- `buffer_consume` is called with bytes that are there. -/
def Op.Allowed (buf : RawBuffer) : Op → Prop
  | .consume nBytes => nBytes ≤ bufferAvailable buf
  | _ => True

/-- It is so whenever it is called. -/
def AllAllowed : RawBuffer → List Op → Prop
  | _, [] => True
  | buf, op :: ops => op.Allowed buf ∧ ∀ out ∈ step buf op, AllAllowed out.1 ops

/-- The buffer is represented, and its bytes are what the history says. -/
structure Queues (es : List (Event Byte)) (raw : RawBuffer) (buf : Buffer) : Prop
    extends Represents raw buf where
  owes : Owes es buf.data

/-- **One operation.** -/
theorem Queues.step {es : List (Event Byte)} {raw : RawBuffer} {buf : Buffer} (h : Queues es raw buf)
    {op : Op} (hop : op.Allowed raw) :
    ∃ raw' e buf', Heap.step raw op = some (raw', e) ∧ Queues (es ++ [e]) raw' buf' := by
  cases op with
  | init base nBytes => exact ⟨_, _, _, rfl, represents_init raw.mem base nBytes, owes_clear es⟩
  | clear => exact ⟨_, _, _, rfl, h.toRepresents.clear, owes_clear es⟩
  | append mess =>
    have happend := h.toRepresents.append mess
    unfold Heap.step
    simp only
    split at happend
    · rename_i raw' hrun
      obtain ⟨rfl, -⟩ := happend
      refine ⟨raw', .put [], buf, rfl, h.toRepresents, ?_⟩
      have hput := h.owes.put []
      rwa [List.append_nil] at hput
    · rename_i a raw' hrun
      obtain ⟨buf', -, h', hdata⟩ := happend
      refine ⟨_, .put mess, buf', rfl, h', ?_⟩
      rw [hdata]
      exact h.owes.put mess
  | read found =>
    obtain ⟨buf', h', hdata, -⟩ := h.toRepresents.read found
    refine ⟨_, _, buf', rfl, h', ?_⟩
    rw [hdata]
    exact h.owes.put _
  | write taken =>
    obtain ⟨n, raw', buf', hrun, h', hdata, -⟩ := h.toRepresents.write taken
    refine ⟨raw', .take (slice raw.mem raw.pout n.toNat), buf', ?_, h', h.owes.take hdata⟩
    simp only [Heap.step, hrun]
    rfl
  | consume nBytes =>
    have hle : nBytes ≤ buf.data.length := h.available ▸ hop
    obtain ⟨raw', buf', hraw, hbuf, h', hslice⟩ := h.toRepresents.consume hle
    obtain ⟨buf'', hbuf'', hdata, -⟩ := bufferConsume_spec hle
    obtain rfl := Option.some.inj (hbuf.symm.trans hbuf'')
    refine ⟨raw', .take (slice raw.mem raw.pout nBytes), buf', ?_, h', h.owes.take ?_⟩
    · simp only [Heap.step, hraw]
      rfl
    · rw [hslice, hdata, List.take_append_drop]

theorem Queues.run : ∀ {ops : List Op} {es : List (Event Byte)} {raw : RawBuffer} {buf : Buffer},
    Queues es raw buf → AllAllowed raw ops →
      ∃ raw' es' buf', Heap.run raw ops = some (raw', es') ∧ Queues (es ++ es') raw' buf'
  | [], es, raw, buf, h, _ => ⟨raw, [], buf, rfl, (List.append_nil es).symm ▸ h⟩
  | op :: ops, es, raw, buf, h, hops => by
    obtain ⟨raw₁, e, buf₁, hstep, h₁⟩ := h.step hops.1
    obtain ⟨raw', es', buf', hrun, h'⟩ := Queues.run h₁ (hops.2 _ hstep)
    refine ⟨raw', e :: es', buf', ?_, ?_⟩
    · simp only [Heap.run, hstep, hrun, Option.bind_eq_bind, Option.bind_some]
      rfl
    · rw [List.append_assoc] at h'
      exact h'

/-- **A buffer is a queue**: after any sequence of operations from `buffer_init` on, with any
transfers, the pointers are in order, and the bytes between `pout` and `pin` are what was put in
since the buffer was last cleared and has not been taken out, in order. -/
theorem run_fifo (mem : Nat → Byte) (base nBytes : Nat) (ops : List Op)
    (hops : AllAllowed (bufferInit mem base nBytes) ops) :
    ∃ raw es, run (bufferInit mem base nBytes) ops = some (raw, es) ∧
      (raw.base ≤ raw.pout ∧ raw.pout ≤ raw.pin ∧ raw.pin ≤ raw.end_) ∧ Owes es (contents raw) := by
  have hstart : Queues [] (bufferInit mem base nBytes) (Protozoa.bufferInit nBytes) :=
    ⟨represents_init mem base nBytes, owes_nil⟩
  obtain ⟨raw, es, buf, hrun, h⟩ := hstart.run hops
  refine ⟨raw, es, hrun, h.order, ?_⟩
  rw [h.contents]
  exact h.owes

/-- Bytes are read, some are written, and more are read where they stood. -/
theorem run_fifo_compact : ∃ raw es, run (bufferInit (fun _ => 0) 1000 4)
      [.read (some [1, 2, 3, 4]), .write (some 2), .read (some [5]), .consume 1] = some (raw, es) ∧
    (raw.base ≤ raw.pout ∧ raw.pout ≤ raw.pin ∧ raw.pin ≤ raw.end_) ∧ Owes es (contents raw) :=
  run_fifo (fun _ => 0) 1000 4 _
    ⟨trivial, fun _ hout₁ => ⟨trivial, fun _ hout₂ => ⟨trivial, fun _ hout₃ => ⟨by
      obtain rfl := Option.some.inj hout₁
      obtain rfl := Option.some.inj hout₂
      obtain rfl := Option.some.inj hout₃
      exact Nat.le_of_ble_eq_true rfl, fun _ _ => trivial⟩⟩⟩⟩

end Protozoa.Heap
