import Protozoa.Ccreader
import Protozoa.Lib.Scanf

/-!
# The nodes of a reader (`ccreader.c`)

A node links a reader with a writer (`ccreader.h:19-25`): the receivers it is for, and by how much
it shifts them. Both come as texts of the configuration, read with `sscanf` by `ccnode_set_range`
(`ccreader.c:73-83`) and `ccnode_set_shift` (`ccreader.c:85-87`), from the defaults of `ccnode_init`
(`ccreader.c:64-71`). `%d%d` takes the dash of a range for the sign of its last receiver, so the
sign is turned round again.

* `ccnodeOf` is what `ccreader_add_writer` (`ccreader.c:140-150`) makes of the two texts, and
  `addWriters` what a list of them leaves at the head of a reader: the last one first.
* **`ccnodeOf_describes`**: a node is what its texts say (`RangeText`, `ShiftText`, `Describes`).

Numbers are of any size: a `%d` of a text that stands for more than an `int` is not modelled.
-/

namespace Protozoa

open Lib.Scanf

/-- `ccnode_init`, for a writer. -/
def ccnodeInit (writer : Nat) : Ccnode := ⟨writer, 1, 1024, 0⟩

/-- `ccnode_set_range`. -/
def ccnodeSetRange (node : Ccnode) (range : List Char) : Ccnode :=
  match sscanf [decimal, decimal] range with
  | [first, last] => { node with rangeFirst := first, rangeLast := -last }
  | _ =>
    match sscanf [decimal] range with
    | [first] => { node with rangeFirst := first, rangeLast := first }
    | _ => node

/-- `ccnode_set_shift`. -/
def ccnodeSetShift (node : Ccnode) (shift : List Char) : Ccnode :=
  match sscanf [decimal] shift with
  | [n] => { node with shift := n }
  | _ => node

/-- The node that `ccreader_add_writer` makes. -/
def ccnodeOf (writer : Nat) (range shift : List Char) : Ccnode :=
  ccnodeSetShift (ccnodeSetRange (ccnodeInit writer) range) shift

/-- A call of `ccreader_add_writer`. -/
structure AddWriter where
  writer : Nat
  range : List Char
  shift : List Char

/-- The calls, one after the other. -/
def addWriters (rdr : Ccreader) (calls : List AddWriter) : Ccreader :=
  calls.foldl (fun rdr call => ccreaderAddWriter rdr (ccnodeOf call.writer call.range call.shift)) rdr

/-! ## What the texts say -/

/-- The text of a range, with its first and its last receiver. -/
inductive RangeText : List Char → Int → Int → Prop
  | all : RangeText ['-'] 1 1024
  | one {a : List Char} (ha : Digits a) (hpos : 0 < value a) : RangeText a (value a) (value a)
  | pair {a b : List Char} (ha : Digits a) (hb : Digits b) (hpos : 0 < value a)
      (hle : value a ≤ value b) : RangeText (a ++ '-' :: b) (value a) (value b)

/-- The text of an integer. -/
inductive ShiftText : List Char → Int → Prop
  | plain {a : List Char} (ha : Digits a) : ShiftText a (value a)
  | plus {a : List Char} (ha : Digits a) : ShiftText ('+' :: a) (value a)
  | minus {a : List Char} (ha : Digits a) : ShiftText ('-' :: a) (-value a)

/-- A call has the texts for a node: a range of at most seven characters, and a shift that is an
`int`. -/
structure Describes (call : AddWriter) (node : Ccnode) : Prop where
  writer : call.writer = node.writer
  range : RangeText call.range node.rangeFirst node.rangeLast
  length : call.range.length ≤ 7
  shift : ShiftText call.shift node.shift
  int : -2 ^ 31 ≤ node.shift ∧ node.shift < 2 ^ 31

theorem ccnodeSetRange_text {range : List Char} {first last : Int} (h : RangeText range first last)
    (writer : Nat) : ccnodeSetRange (ccnodeInit writer) range = ⟨writer, first, last, 0⟩ := by
  have hend : ∀ c ∈ ([] : List Char).head?, c.isDigit = false := nofun
  cases h with
  | all => rfl
  | one ha =>
    have hfirst : decimal range = some ((value range : Int), []) := by
      rw [← decimal_digits ha hend, List.append_nil]
    have htwo : sscanf [decimal, decimal] range = [(value range : Int)] := by
      simp only [sscanf, hfirst]
      rfl
    have hone : sscanf [decimal] range = [(value range : Int)] := by simp only [sscanf, hfirst]
    simp only [ccnodeSetRange, htwo, hone]
    rfl
  | @pair a b ha hb =>
    have hdash : ∀ c ∈ ('-' :: b).head?, c.isDigit = false := by
      rintro c hc
      obtain rfl := Option.some.inj hc
      decide
    -- The dash ends the first number and begins the second.
    have hlast : decimal ('-' :: b) = some (-(value b : Int), []) := by
      rw [← decimal_minus hb hend, List.append_nil]
    have htwo : sscanf [decimal, decimal] (a ++ '-' :: b) = [(value a : Int), -(value b : Int)] := by
      simp only [sscanf, decimal_digits ha hdash, hlast]
    simp only [ccnodeSetRange, htwo, Int.neg_neg]
    rfl

theorem ccnodeSetShift_text {shift : List Char} {n : Int} (h : ShiftText shift n) (node : Ccnode) :
    ccnodeSetShift node shift = { node with shift := n } := by
  have hend : ∀ c ∈ ([] : List Char).head?, c.isDigit = false := nofun
  have hnumber : decimal shift = some (n, []) := by
    cases h with
    | plain ha => rw [← decimal_digits ha hend, List.append_nil]
    | @plus a ha => rw [← decimal_plus ha hend, List.append_nil]
    | @minus a ha => rw [← decimal_minus ha hend, List.append_nil]
  simp only [ccnodeSetShift, sscanf, hnumber]

/-- **A node is what its texts say**. -/
theorem ccnodeOf_describes {call : AddWriter} {node : Ccnode} (h : Describes call node) :
    ccnodeOf call.writer call.range call.shift = node := by
  rw [ccnodeOf, ccnodeSetRange_text h.range, ccnodeSetShift_text h.shift, h.writer]

/-- The nodes of a reader are the latest first. -/
theorem head_addWriters {calls : List AddWriter} {nodes : List Ccnode}
    (h : List.Forall₂ Describes calls nodes) (rdr : Ccreader) :
    (addWriters rdr calls).head = nodes.reverse ++ rdr.head := by
  induction h generalizing rdr with
  | nil => rfl
  | @cons call node calls nodes hcall _ ih =>
    rw [addWriters, List.foldl_cons]
    refine (ih _).trans ?_
    rw [ccreaderAddWriter, ccnodeOf_describes hcall, List.reverse_cons, List.append_assoc]
    rfl

end Protozoa
