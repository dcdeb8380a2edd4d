import Mathlib.Data.List.Basic
import Mathlib.Data.BitVec

/-!
# I/O buffers (`buffer.c`, `bitarray.h`)

Model of `struct buffer` (`buffer.h:12-17`) and of the functions a channel and its protocols call on
it. A `Buffer` is its size, the offset of `pout` from `base`, and the bytes between `pout` and
`pin`; the field `fits` keeps `pin` at or before `end`, and `home` says that an empty buffer has all
its room, which `buffer_consume` (`buffer.c:187-192`) sees to with `buffer_clear`.

* `bufferCompact` (`buffer.c:97-102`) moves what is left to `base`. Only `bufferRead`
  (`buffer.c:110-127`) calls it; `bufferAppend` (`buffer.c:156-162`) takes the space behind `pin` as
  it is.
* `bufferRead` takes the bytes the file descriptor has ready, as many as there is room for, and
  gives back the rest. An assertion that fails, and `ENOBUFS`, make the result `none`.
* `bitIsSet` and `bitSet` (`bitarray.h:6-7`) read and write one bit of a message of bytes.

Results: `bufferRead_spec` and `bufferConsume_spec` say which bytes are taken, in order (`ReadInto`,
`Consumed`); every other function has a lemma for the bytes, the size and the room it leaves.

Out of scope here: the four pointers and the memory behind them, which `Buffer/Heap.lean` has.
-/

namespace Protozoa

abbrev Byte := BitVec 8

/-- `bit_is_set`. -/
def bitIsSet (mess : List Byte) (bit : Nat) : Bool := (mess.getD (bit / 8) 0).getLsbD (bit % 8)

/-- `bit_set`. -/
def bitSet (mess : List Byte) (bit : Nat) : List Byte :=
  mess.modify (bit / 8) (· ||| BitVec.twoPow 8 (bit % 8))

theorem getD_append_left {s : List Byte} {i : Nat} (h : i < s.length) (t : List Byte) :
    (s ++ t).getD i 0 = s.getD i 0 := by
  rw [List.getD_eq_getElem?_getD, List.getD_eq_getElem?_getD, List.getElem?_append_left h]

/-- Bits of the bytes that are there stay when more bytes arrive. -/
theorem bitIsSet_append {s : List Byte} {bit : Nat} (h : bit / 8 < s.length) (t : List Byte) :
    bitIsSet (s ++ t) bit = bitIsSet s bit := by
  unfold bitIsSet
  rw [getD_append_left h]

/-- `struct buffer`. -/
structure Buffer where
  size : Nat
  pout : Nat
  data : List Byte
  fits : pout + data.length ≤ size
  home : data = [] → pout = 0
  deriving DecidableEq

/-- `BUFFER_SIZE` of `channel.c`. -/
def bufferSize : Nat := 256

/-- `buffer_init`. -/
def bufferInit (nBytes : Nat) : Buffer := ⟨nBytes, 0, [], Nat.zero_le _, fun _ => rfl⟩

/-- `buffer_clear`. -/
def bufferClear (buf : Buffer) : Buffer := ⟨buf.size, 0, [], Nat.zero_le _, fun _ => rfl⟩

/-- `buffer_available`. -/
def bufferAvailable (buf : Buffer) : Nat := buf.data.length

/-- `buffer_is_empty`. -/
def bufferIsEmpty (buf : Buffer) : Bool := bufferAvailable buf == 0

/-- `buffer_space`. -/
def bufferSpace (buf : Buffer) : Nat := buf.size - (buf.pout + buf.data.length)

/-- `buffer_compact`. -/
def bufferCompact (buf : Buffer) : Buffer :=
  ⟨buf.size, 0, buf.data, by have := buf.fits; omega, fun _ => rfl⟩

/-- `buf->pin += n_bytes`, with the bytes that stand there then. -/
def bufferPush (buf : Buffer) (bytes : List Byte) (h : bytes.length ≤ bufferSpace buf) : Buffer :=
  ⟨buf.size, buf.pout, buf.data ++ bytes, by
    have := buf.fits
    unfold bufferSpace at h
    rw [List.length_append]
    omega, fun hnil => buf.home (List.append_eq_nil_iff.mp hnil).1⟩

/-- `buffer_read`, with the bytes that are ready, and those left for the next call. -/
def bufferRead (buf : Buffer) (ready : List Byte) : Option (Buffer × List Byte) :=
  let buf := if bufferSpace buf = 0 then bufferCompact buf else buf
  let count := bufferSpace buf
  if count = 0 then none
  else some (bufferPush buf (ready.take count) (List.length_take_le _ _), ready.drop count)

/-- `buffer_append` of a message that is filled in at once. -/
def bufferAppend (buf : Buffer) (mess : List Byte) : Option Buffer :=
  if h : bufferSpace buf < mess.length then none
  else some (bufferPush buf mess (Nat.le_of_not_lt h))

/-- `ccwriter_append`, with the message that is filled in: a full buffer drops it. -/
def ccwriterAppend (txbuf : Buffer) (mess : List Byte) : Buffer := (bufferAppend txbuf mess).getD txbuf

/-- `buffer_consume`: an emptied buffer is cleared. -/
def bufferConsume (buf : Buffer) (nBytes : Nat) : Option Buffer :=
  if h : nBytes ≤ buf.data.length then
    some (if hnil : buf.data.drop nBytes = [] then bufferClear buf
    else ⟨buf.size, buf.pout + nBytes, buf.data.drop nBytes, by
      have := buf.fits
      rw [List.length_drop]
      omega, fun h => absurd h hnil⟩)
  else none

/-- `buffer_write` of `nBytes` bytes the file descriptor takes. -/
def bufferWrite (buf : Buffer) (nBytes : Nat) : Option (Buffer × List Byte) :=
  if bufferAvailable buf = 0 then none
  else (bufferConsume buf nBytes).map fun buf' => (buf', buf.data.take nBytes)

theorem ccwriterAppend_of_le {txbuf : Buffer} {mess : List Byte} (h : mess.length ≤ bufferSpace txbuf) :
    (ccwriterAppend txbuf mess).data = txbuf.data ++ mess ∧
      bufferSpace (ccwriterAppend txbuf mess) = bufferSpace txbuf - mess.length := by
  have happ : ccwriterAppend txbuf mess = bufferPush txbuf mess h := by
    unfold ccwriterAppend bufferAppend
    rw [dif_neg (Nat.not_lt.mpr h)]
    rfl
  rw [happ]
  refine ⟨rfl, ?_⟩
  simp only [bufferSpace, bufferPush, List.length_append]
  omega

theorem ccwriterAppend_size (txbuf : Buffer) (mess : List Byte) :
    (ccwriterAppend txbuf mess).size = txbuf.size := by
  unfold ccwriterAppend bufferAppend
  split <;> rfl

/-- What stands in the buffer stays there. -/
theorem ccwriterAppend_prefix (txbuf : Buffer) (mess : List Byte) :
    ∃ rest, (ccwriterAppend txbuf mess).data = txbuf.data ++ rest := by
  by_cases h : bufferSpace txbuf < mess.length
  · refine ⟨[], ?_⟩
    unfold ccwriterAppend bufferAppend
    rw [dif_pos h, List.append_nil]
    rfl
  · exact ⟨mess, (ccwriterAppend_of_le (Nat.le_of_not_lt h)).1⟩

/-- Parts of a message, one after the other, with room for all of them. -/
theorem foldl_ccwriterAppend : ∀ {parts : List (List Byte)} {txbuf : Buffer},
    parts.flatten.length ≤ bufferSpace txbuf →
      (parts.foldl ccwriterAppend txbuf).data = txbuf.data ++ parts.flatten
  | [], _, _ => (List.append_nil _).symm
  | mess :: parts, txbuf, h => by
    rw [List.flatten_cons, List.length_append] at h
    obtain ⟨hdata, hspace⟩ := @ccwriterAppend_of_le txbuf mess (by omega)
    rw [List.foldl_cons, foldl_ccwriterAppend (by rw [hspace]; omega), hdata, List.flatten_cons,
      List.append_assoc]

theorem bufferSpace_of_nil {buf : Buffer} (h : buf.data = []) : bufferSpace buf = buf.size := by
  simp [bufferSpace, h, buf.home h]

/-- Bytes have been taken off the buffer: it has its size, and no less room behind `pin`. -/
structure Consumed (buf buf' : Buffer) : Prop where
  size : buf'.size = buf.size
  space : bufferSpace buf ≤ bufferSpace buf'

theorem Consumed.refl (buf : Buffer) : Consumed buf buf := ⟨rfl, Nat.le_refl _⟩

theorem Consumed.trans {buf buf' buf'' : Buffer} (h : Consumed buf buf') (h' : Consumed buf' buf'') :
    Consumed buf buf'' := ⟨h'.size.trans h.size, Nat.le_trans h.space h'.space⟩

theorem bufferConsume_spec {buf : Buffer} {nBytes : Nat} (h : nBytes ≤ buf.data.length) :
    ∃ buf', bufferConsume buf nBytes = some buf' ∧ buf'.data = buf.data.drop nBytes ∧
      Consumed buf buf' := by
  unfold bufferConsume
  rw [dif_pos h]
  refine ⟨_, rfl, ?_⟩
  split
  · rename_i hnil
    have hclear : bufferSpace (bufferClear buf) = buf.size := bufferSpace_of_nil rfl
    exact ⟨hnil.symm, rfl, hclear ▸ Nat.sub_le _ _⟩
  · refine ⟨rfl, rfl, ?_⟩
    simp only [bufferSpace, List.length_drop]
    omega

/-- A write of all there is. -/
theorem bufferWrite_all {buf : Buffer} (h : buf.data ≠ []) :
    bufferWrite buf (bufferAvailable buf) = some (bufferClear buf, buf.data) := by
  have hne : bufferAvailable buf ≠ 0 := fun hzero => h (List.length_eq_zero_iff.mp hzero)
  unfold bufferWrite bufferConsume
  rw [if_neg hne]
  simp [bufferAvailable]

/-- What a read of `ready` does to the room: all of it is taken if there is room for it. -/
structure ReadInto (buf : Buffer) (ready taken : List Byte) (buf' : Buffer) : Prop where
  size : buf'.size = buf.size
  some_ne : ready ≠ [] → taken ≠ []
  all : ready.length ≤ bufferSpace buf → taken = ready
  space : bufferSpace buf ≤ bufferSpace buf' + taken.length

/-- **A read appends** what the buffer has room for, and room there is unless it holds `size`
bytes. -/
theorem bufferRead_spec {buf : Buffer} {ready : List Byte} (h : buf.data.length < buf.size) :
    ∃ buf' taken rest, bufferRead buf ready = some (buf', rest) ∧ ready = taken ++ rest ∧
      buf'.data = buf.data ++ taken ∧ ReadInto buf ready taken buf' := by
  unfold bufferRead
  set b := if bufferSpace buf = 0 then bufferCompact buf else buf with hb
  have hbd : b.data = buf.data ∧ b.size = buf.size ∧ bufferSpace buf ≤ bufferSpace b ∧ bufferSpace b ≠ 0 := by
    rw [hb]
    split
    · rename_i hfull
      refine ⟨rfl, rfl, hfull ▸ Nat.zero_le _, ?_⟩
      simp only [bufferSpace, bufferCompact]
      omega
    · exact ⟨rfl, rfl, Nat.le_refl _, by assumption⟩
  obtain ⟨hdata, hsize, hmore, hspace⟩ := hbd
  simp only [hspace, if_false]
  refine ⟨_, ready.take (bufferSpace b), _, rfl, (List.take_append_drop _ _).symm, ?_, hsize, ?_, ?_, ?_⟩
  · show b.data ++ _ = _
    rw [hdata]
  · intro hne hnil
    rw [List.take_eq_nil_iff] at hnil
    exact hnil.elim hspace hne
  · exact fun hle => List.take_of_length_le (Nat.le_trans hle hmore)
  · have hle := List.length_take_le (bufferSpace b) ready
    simp only [bufferSpace, bufferPush, List.length_append] at hmore hle ⊢
    omega

end Protozoa
