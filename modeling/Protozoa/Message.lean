import Protozoa.Buffer

/-!
# Messages byte by byte and bit by bit

What the functions that fill in a message do to its bytes (`getD`) and to the bits of its bytes
(`bitIsSet`, `bitarray.h:6-7`). All encoders work on a block of zeros that `ccwriter_append` gives
them (`ccwriter.c:139-150`), with one `bit_set` for each flag of the packet.

* `tableBit`: many of these at once, as a table of bits with the condition for each; `Agrees` says
  that a message has the bits of a table.
* `ext_getD`, `getD_ext`: two messages of one length are equal if all their bytes are, and two bytes
  if all their bits are.
-/

namespace Protozoa

variable {mess mess' : List Byte} {i j bit k : Nat} {b : Byte}

@[simp] theorem length_bitSet (mess : List Byte) (bit : Nat) : (bitSet mess bit).length = mess.length :=
  List.length_modify _ _ _

@[simp] theorem getD_set_self (h : i < mess.length) : (mess.set i b).getD i 0 = b := by
  simp [List.getD_eq_getElem?_getD, h]

@[simp] theorem getD_set_of_ne (h : i ≠ j) : (mess.set i b).getD j 0 = mess.getD j 0 := by
  simp [List.getD_eq_getElem?_getD, h]

@[simp] theorem getD_modify_of_ne {f : Byte → Byte} (h : i ≠ j) :
    (mess.modify i f).getD j 0 = mess.getD j 0 := by
  simp [List.getD_eq_getElem?_getD, h]

theorem getD_modify_self {f : Byte → Byte} (h : i < mess.length) :
    (mess.modify i f).getD i 0 = f (mess.getD i 0) := by
  simp [List.getD_eq_getElem?_getD, h]

theorem getD_bitSet_of_ne (h : bit / 8 ≠ i) : (bitSet mess bit).getD i 0 = mess.getD i 0 :=
  getD_modify_of_ne h

theorem getD_ite_bitSet {c : Prop} [Decidable c] (h : bit / 8 ≠ i) :
    (if c then bitSet mess bit else mess).getD i 0 = mess.getD i 0 := by
  split
  · exact getD_bitSet_of_ne h
  · rfl

theorem bitIsSet_set_of_ne (h : i ≠ k / 8) : bitIsSet (mess.set i b) k = bitIsSet mess k := by
  unfold bitIsSet
  rw [getD_set_of_ne h]

theorem bitIsSet_modify_of_ne {f : Byte → Byte} (h : i ≠ k / 8) :
    bitIsSet (mess.modify i f) k = bitIsSet mess k := by
  unfold bitIsSet
  rw [getD_modify_of_ne h]

/-- **Setting a bit** sets this bit. -/
theorem bitIsSet_bitSet (h : bit / 8 < mess.length) (k : Nat) :
    bitIsSet (bitSet mess bit) k = (decide (k = bit) || bitIsSet mess k) := by
  unfold bitIsSet bitSet
  by_cases hbyte : bit / 8 = k / 8
  · rw [← hbyte, getD_modify_self h, BitVec.getLsbD_or, BitVec.getLsbD_twoPow, Bool.or_comm]
    have hlt := Nat.mod_lt bit (show 8 > 0 by decide)
    have heq : (bit % 8 = k % 8) ↔ k = bit := by omega
    simp [hlt, heq]
  · rw [getD_modify_of_ne hbyte]
    have hne : k ≠ bit := fun heq => hbyte (by rw [heq])
    simp [hne]

/-- The bit is set on a condition. -/
theorem bitIsSet_ite {c : Prop} [Decidable c] (h : bit / 8 < mess.length) (k : Nat) :
    bitIsSet (if c then bitSet mess bit else mess) k = (decide (c ∧ k = bit) || bitIsSet mess k) := by
  by_cases hc : c
  · rw [if_pos hc, bitIsSet_bitSet h]
    simp [hc]
  · rw [if_neg hc]
    simp [hc]

/-- One of two bits is set, or none. -/
theorem bitIsSet_ite_ite {c c' : Prop} [Decidable c] [Decidable c'] {bit' : Nat}
    (hex : ¬(c ∧ c')) (h : bit / 8 < mess.length) (h' : bit' / 8 < mess.length) (k : Nat) :
    bitIsSet (if c then bitSet mess bit else if c' then bitSet mess bit' else mess) k =
      (decide (c ∧ k = bit) || decide (c' ∧ k = bit') || bitIsSet mess k) := by
  by_cases hc : c
  · have hc' : ¬c' := fun hc' => hex ⟨hc, hc'⟩
    rw [if_pos hc, bitIsSet_bitSet h]
    simp [hc, hc']
  · rw [if_neg hc, bitIsSet_ite h']
    simp [hc]

/-! ## Tables of bits -/

/-- The bit `k`, of a table that says which bits are set. -/
def tableBit (table : List (Nat × Bool)) (k : Nat) : Bool := table.any fun e => e.2 && e.1 == k

theorem tableBit_of_mem {table : List (Nat × Bool)} {k : Nat} {v : Bool}
    (hnodup : (table.map Prod.fst).Nodup) (h : (k, v) ∈ table) : tableBit table k = v := by
  rw [Bool.eq_iff_iff, tableBit, List.any_eq_true]
  constructor
  · rintro ⟨⟨k', v'⟩, hmem, heq⟩
    simp only [Bool.and_eq_true, beq_iff_eq] at heq
    obtain ⟨hv', rfl⟩ := heq
    have hsame := List.inj_on_of_nodup_map hnodup hmem h rfl
    rwa [Prod.mk.injEq, eq_self, true_and, hv', eq_comm] at hsame
  · intro hv
    exact ⟨(k, v), h, by simpa using hv⟩

theorem tableBit_of_not_mem {table : List (Nat × Bool)} {k : Nat} (h : k ∉ table.map Prod.fst) :
    tableBit table k = false := by
  rw [tableBit, List.any_eq_false]
  intro e he heq
  simp only [Bool.and_eq_true, beq_iff_eq] at heq
  exact h (heq.2 ▸ List.mem_map_of_mem he)

theorem tableBit_pair (a b : Nat) (v v' : Bool) (k : Nat) :
    tableBit [(a, v), (b, v')] k = (v && a == k || v' && b == k) := by
  simp only [tableBit, List.any_cons, List.any_nil, Bool.or_false]

theorem tableBit_append (t t' : List (Nat × Bool)) (k : Nat) :
    tableBit (t ++ t') k = (tableBit t k || tableBit t' k) := List.any_append

/-- The bits of a table are those of the message. -/
def Agrees (mess : List Byte) (table : List (Nat × Bool)) : Prop :=
  ∀ e ∈ table, bitIsSet mess e.1 = e.2

theorem Agrees.append {t t' : List (Nat × Bool)} (h : Agrees mess t) (h' : Agrees mess t') :
    Agrees mess (t ++ t') := fun e he => (List.mem_append.mp he).elim (h e) (h' e)

theorem agrees_pair {a b : Nat} {v v' : Bool} (h : bitIsSet mess a = v) (h' : bitIsSet mess b = v') :
    Agrees mess [(a, v), (b, v')] := by
  intro e he
  rcases List.mem_pair.mp he with rfl | rfl
  · exact h
  · exact h'

/-- A command, or none. -/
theorem bitIsSet_flag {w : Nat} {x m : BitVec w} (h : bit / 8 < mess.length) (k : Nat) :
    bitIsSet (if x = m then bitSet mess bit else mess) k =
      (tableBit [(bit, x == m)] k || bitIsSet mess k) := by
  rw [bitIsSet_ite h]
  simp only [tableBit, List.any_cons, List.any_nil, Bool.or_false, Bool.decide_and, beq_eq_decide,
    decide_eq_decide.mpr (eq_comm (a := k))]

/-- One of two commands, or none. -/
theorem bitIsSet_two {w : Nat} {x m m' : BitVec w} {bit' : Nat} (hne : m ≠ m')
    (h : bit / 8 < mess.length) (h' : bit' / 8 < mess.length) (k : Nat) :
    bitIsSet (if x = m then bitSet mess bit else if x = m' then bitSet mess bit' else mess) k =
      (tableBit [(bit, x == m), (bit', x == m')] k || bitIsSet mess k) := by
  rw [bitIsSet_ite_ite (fun heq => hne (heq.1.symm.trans heq.2)) h h']
  simp [tableBit_pair, beq_eq_decide, eq_comm (a := k)]

/-! ## Bytes -/

/-- A number in two parts. -/
theorem shiftLeft_or {a b n : Nat} (h : b < 2 ^ n) : a <<< n ||| b = 2 ^ n * a + b := by
  rw [← Nat.shiftLeft_add_eq_or_of_lt h, Nat.shiftLeft_eq, Nat.mul_comm]

/-- The low bits of a byte. -/
theorem toNat_and_lt {n : Nat} (b : Byte) (hn : n ≤ 8) :
    (b &&& BitVec.ofNat 8 (2 ^ n - 1)).toNat < 2 ^ n := by
  have hpos : 0 < 2 ^ n := Nat.two_pow_pos n
  have hle : 2 ^ n ≤ 2 ^ 8 := Nat.pow_le_pow_right (by decide) hn
  rw [BitVec.toNat_and, BitVec.toNat_ofNat, Nat.mod_eq_of_lt (by omega),
    Nat.and_two_pow_sub_one_eq_mod]
  exact Nat.mod_lt _ hpos

/-- A byte from its value. -/
theorem ofInt_toNat (val : Byte) : BitVec.ofInt 8 (val.toNat : Int) = val := by
  rw [BitVec.ofInt_natCast, BitVec.ofNat_toNat, BitVec.setWidth_eq]

/-- Messages with the same bytes. -/
theorem ext_getD (hlen : mess.length = mess'.length)
    (h : ∀ i, i < mess.length → mess.getD i 0 = mess'.getD i 0) : mess = mess' := by
  refine List.ext_getElem hlen fun i hi hi' => ?_
  have hget := h i hi
  simpa [List.getD_eq_getElem?_getD, hi, hi'] using hget

/-- Bytes with the same bits. -/
theorem getD_ext (i : Nat) (h : ∀ k, k < 8 → bitIsSet mess (8 * i + k) = bitIsSet mess' (8 * i + k)) :
    mess.getD i 0 = mess'.getD i 0 := by
  refine BitVec.eq_of_getLsbD_eq fun k hk => ?_
  have hbit := h k hk
  unfold bitIsSet at hbit
  have hdiv : (8 * i + k) / 8 = i := by omega
  have hmod : (8 * i + k) % 8 = k := by omega
  rwa [hdiv, hmod] at hbit

end Protozoa
