import Protozoa.Protocol.Manchester
import Protozoa.Protocol.Vicon

/-!
# Messages cut short (`vicon.c`, `manchester.c`)

In both protocols bit 7 is set in the first byte of a message and in no other, as their
documentation says (`Documented`, over tables of the bits that are fixed). The readers look for it
in the byte they take for the first one (`vicon.c:259-274`, `manchester.c:247-260`), and nowhere
else.

* `runAccepted` is the list of the messages that a run of reads takes out of the buffer, read off
  the `buffer_consume`s of the code; `runAccepted_frames` has it as the frames of the scanner.
* `Documented.cut`: a message cut short is no message, so its first byte takes bytes of the next one
  with it.
* **`FlagReader.resynchronised_iff`**: after a message cut short, a complete one is decoded as
  itself if and only if nothing of the one cut short arrived.
* `not_resynchronised`: one byte of a command, and a whole one.
-/

namespace Protozoa

open Lib.Scan

variable {σ : Type}

/-! ## The messages of a run -/

/-- A byte that begins a message: bit 7 is set. -/
def flagged (b : Byte) : Bool := b &&& 0x80 != 0

/-- What each `decode_message` of a loop takes out of the buffer. -/
def loopConsumed (size : Nat) (decodeMessage : ReadState σ → Option (DecodeT × ReadState σ)) :
    Nat → ReadState σ → List (List Byte)
  | 0, _ => []
  | fuel + 1, st =>
    if bufferAvailable st.rxbuf ≥ size then
      match decodeMessage st with
      | some (.more, st') =>
        st.rxbuf.data.take (bufferAvailable st.rxbuf - bufferAvailable st'.rxbuf) ::
          loopConsumed size decodeMessage fuel st'
      | _ => []
    else []

/-- The messages that a loop accepts: what else it takes out are single bytes that begin none. -/
def loopAccepted (size : Nat) (decodeMessage : ReadState σ → Option (DecodeT × ReadState σ))
    (st : ReadState σ) : List (List Byte) :=
  (loopConsumed size decodeMessage (bufferAvailable st.rxbuf + 1) st).filter fun mess =>
    flagged (mess.getD 0 0)

/-- The messages that a run of reads accepts, if `accepted` are those of one `do_read`. -/
def runAccepted (accepted : ReadState σ → List (List Byte)) (doRead : DoRead σ) (st : ReadState σ)
    (stream : List Byte) : List Nat → List (List Byte)
  | [] => []
  | k :: ks =>
    if stream.take k = [] then runAccepted accepted doRead st stream ks
    else
      match bufferRead st.rxbuf (stream.take k), channelReadChunk doRead st stream k with
      | some (rxbuf, _), some (st', rest) =>
        accepted { st with rxbuf := rxbuf } ++ runAccepted accepted doRead st' rest ks
      | _, _ => []

section Accepting

variable {S : Scanner Byte} {size bound : Nat}
  {decodeMessage : ReadState σ → Option (DecodeT × ReadState σ)}
  {effect : List (List Byte) → Bool → Ccreader × σ → Ccreader × σ} {doRead : DoRead σ}
  {accepted : ReadState σ → List (List Byte)}

/-- One `decode_message` takes out what the scanner says. -/
def TakesOut (S : Scanner Byte) (size : Nat)
    (decodeMessage : ReadState σ → Option (DecodeT × ReadState σ)) : Prop :=
  ∀ st : ReadState σ, size ≤ st.rxbuf.data.length → ∃ d st', decodeMessage st = some (d, st') ∧
    match S.judge st.rxbuf.data with
    | .wait => d = .done
    | .skip => d = .more ∧ flagged (st.rxbuf.data.getD 0 0) = false ∧
      st'.rxbuf.data = st.rxbuf.data.drop 1
    | .frame k => d = .more ∧ flagged (st.rxbuf.data.getD 0 0) = true ∧
      st'.rxbuf.data = st.rxbuf.data.drop k

theorem getD_zero_take {s : List Byte} {k : Nat} (h : 0 < k) : (s.take k).getD 0 0 = s.getD 0 0 := by
  rw [List.getD_eq_getElem?_getD, List.getD_eq_getElem?_getD, List.getElem?_take_of_lt h]

/-- **The messages of a loop** are the frames of what is in the buffer. -/
theorem loopConsumed_filter (h : TakesOut S size decodeMessage)
    (hshort : ∀ c, c.length < size → S.judge c = .wait) {fuel : Nat} {st : ReadState σ}
    (hpos : 0 < size) (hfuel : st.rxbuf.data.length < fuel) :
    (loopConsumed size decodeMessage fuel st).filter (fun mess => flagged (mess.getD 0 0)) =
      S.frames st.rxbuf.data := by
  induction fuel generalizing st with
  | zero => exact absurd hfuel (Nat.not_lt_zero _)
  | succ fuel ih =>
    unfold loopConsumed bufferAvailable
    by_cases hlen : size ≤ st.rxbuf.data.length
    · obtain ⟨d, st', hdec, hjudge⟩ := h st hlen
      rw [if_pos hlen, hdec]
      cases hj : S.judge st.rxbuf.data with
      | wait =>
        rw [hj] at hjudge
        rw [S.frames_wait hj, hjudge]
        rfl
      | skip =>
        rw [hj] at hjudge
        obtain ⟨rfl, hflag, hdata⟩ := hjudge
        have hlt : st'.rxbuf.data.length + 1 = st.rxbuf.data.length := by
          rw [hdata, List.length_drop]
          omega
        have hone : st.rxbuf.data.length - st'.rxbuf.data.length = 1 := by omega
        rw [S.frames_skip hj, ← List.drop_one, ← hdata, ← ih (by omega)]
        simp only [hone]
        rw [List.filter_cons_of_neg]
        rw [getD_zero_take Nat.one_pos, hflag]
        exact Bool.false_ne_true
      | frame k =>
        rw [hj] at hjudge
        obtain ⟨rfl, hflag, hdata⟩ := hjudge
        have hk := S.frame_le hj
        have hlt : st'.rxbuf.data.length + k = st.rxbuf.data.length := by
          rw [hdata, List.length_drop]
          omega
        have hcount : st.rxbuf.data.length - st'.rxbuf.data.length = k := by omega
        rw [S.frames_frame hj, ← hdata, ← ih (by omega)]
        simp only [hcount]
        rw [List.filter_cons_of_pos]
        rw [getD_zero_take hk.1, hflag]
    · rw [if_neg hlen, S.frames_wait (hshort _ (Nat.lt_of_not_le hlen))]
      rfl

/-- **The messages of a run** are the frames of the bytes it has read. -/
theorem runAccepted_eq (h : Reads S bound effect doRead)
    (hacc : ∀ st, accepted st = S.frames st.rxbuf.data) (ks : List Nat) {st : ReadState σ}
    (stream : List Byte) (hwait : S.judge st.rxbuf.data = .wait) (hlen : st.rxbuf.data.length < bound)
    (hsize : bound ≤ st.rxbuf.size) :
    ∃ st' taken rest, runReads doRead st stream ks = some (st', rest) ∧ stream = taken ++ rest ∧
      runAccepted accepted doRead st stream ks = S.frames (st.rxbuf.data ++ taken) := by
  induction ks generalizing st stream with
  | nil =>
    refine ⟨st, [], stream, rfl, rfl, ?_⟩
    rw [List.append_nil, S.frames_wait hwait]
    rfl
  | cons k ks ih =>
    by_cases hk : stream.take k = []
    · obtain ⟨st', taken, rest, hrun, hsplit, heq⟩ := ih stream hwait hlen hsize
      refine ⟨st', taken, rest, ?_, hsplit, ?_⟩
      · simpa [runReads, channelReadChunk, hk] using hrun
      · rw [runAccepted, if_pos hk, heq]
    · obtain ⟨buf, taken, rest, hread, htake, hdata, hbs, -⟩ :=
        @bufferRead_spec _ (stream.take k) (Nat.lt_of_lt_of_le hlen hsize)
      obtain ⟨st₁, out, hdo, hf, hwait₁, hlen₁, hs₁, -⟩ := h { st with rxbuf := buf }
      obtain ⟨st', taken', rest', hrun, hsplit, heq⟩ :=
        ih (rest ++ stream.drop k) hwait₁ hlen₁ (by rw [hs₁.size, hbs]; exact hsize)
      have hchunk : channelReadChunk doRead st stream k = some (st₁, rest ++ stream.drop k) := by
        simp [channelReadChunk, hk, hread, hdo]
      refine ⟨st', taken ++ taken', rest', ?_, ?_, ?_⟩
      · simp [runReads, hchunk, hrun]
      · rw [List.append_assoc, ← hsplit, ← List.append_assoc, ← htake, List.take_append_drop]
      · rw [runAccepted, if_neg hk, hread, hchunk]
        show accepted _ ++ runAccepted accepted doRead st₁ (rest ++ stream.drop k) ks = _
        have hout : S.frames buf.data = out := hf.frames_eq hwait₁
        rw [hacc, heq, ← List.append_assoc, ← hdata, hf taken', hout]

end Accepting

/-! ## The tables of the protocols -/

/-- The length of a message, and the bits that must be 0 and 1 in it. -/
structure BitTable where
  size : Nat
  zeros : List Nat
  ones : List Nat
  deriving DecidableEq

/-- A message as the table has it. -/
structure BitTable.Holds (t : BitTable) (mess : List Byte) : Prop where
  size : mess.length = t.size
  zeros : ∀ bit ∈ t.zeros, bitIsSet mess bit = false
  ones : ∀ bit ∈ t.ones, bitIsSet mess bit = true

/-- The bits of the first six bytes of a Vicon command that must be 0. -/
def viconZeros : List Nat := [4, 5, 6, 15, 16, 23, 31, 32, 39, 44, 47]

def viconStatus : BitTable := ⟨2, [4, 5, 6, 12, 15], [7]⟩

def viconCommand : BitTable := ⟨6, 14 :: viconZeros, [7, 12]⟩

def viconExtendedPreset : BitTable :=
  ⟨10, viconZeros ++ [49, 50, 51, 53, 54, 55, 63, 71, 79], [7, 12, 14, 52]⟩

def viconExtendedSpeed : BitTable :=
  ⟨10, viconZeros ++ [52, 53, 54, 55, 63, 68, 69, 70, 71, 79], [7, 12, 14]⟩

def viconExtendedStatus : BitTable :=
  ⟨10, viconZeros ++ [50, 51, 53, 54, 55] ++ List.range' 59 21, [7, 12, 14, 49, 52]⟩

def manchesterCommand : BitTable := ⟨3, [15, 16, 23], [7]⟩

/-- The readers that look for bit 7. -/
inductive FlagReader where
  | vicon
  | manchester

namespace FlagReader

/-- The messages of the protocol, as its document describes them. -/
def tables : FlagReader → List BitTable
  | vicon => [viconStatus, viconCommand, viconExtendedPreset, viconExtendedSpeed, viconExtendedStatus]
  | manchester => [manchesterCommand]

def Documented (r : FlagReader) (mess : List Byte) : Prop := ∃ t ∈ r.tables, t.Holds mess

def doRead : FlagReader → (σ : Type) → Sink σ → DoRead σ
  | vicon => Vicon.doRead
  | manchester => Manchester.doRead

/-- The messages that one `do_read` accepts. -/
def accepted (sink : Sink σ) : FlagReader → ReadState σ → List (List Byte)
  | vicon => loopAccepted Vicon.sizeStatus (Vicon.decodeMessage sink)
  | manchester => loopAccepted Manchester.sizeMsg (Manchester.manchesterReadMessage sink)

def scanner : FlagReader → Scanner Byte
  | vicon => Vicon.frames
  | manchester => Manchester.frames

theorem judge_nil (r : FlagReader) : r.scanner.judge [] = .wait := by
  cases r with
  | vicon => rfl
  | manchester => rfl

variable {r : FlagReader} {mess m p : List Byte} {i : Nat}

theorem flagged_getD (mess : List Byte) (i : Nat) :
    flagged (mess.getD i 0) = bitIsSet mess (8 * i + 7) := by
  have hbit := Vicon.and_flag (mess.getD i 0)
  rw [bitIsSet, Nat.mul_add_div (by decide), Nat.mul_add_mod]
  show (mess.getD i 0 &&& Vicon.flag != 0) = (mess.getD i 0).getLsbD 7
  cases hb : (mess.getD i 0).getLsbD 7 with
  | false => rw [hbit.mpr hb]; rfl
  | true =>
    rw [bne_iff_ne, Ne, hbit, hb]
    exact Bool.true_eq_false_eq_False

/-- Every table has bit 7 set in the first byte and in no other. -/
theorem tables_flag (r : FlagReader) : ∀ t ∈ r.tables, 7 ∈ t.ones ∧
    ∀ i < t.size, 0 < i → 8 * i + 7 ∈ t.zeros := by
  cases r with
  | vicon => decide
  | manchester => decide

theorem Documented.begins (h : r.Documented mess) : flagged (mess.getD 0 0) = true := by
  obtain ⟨t, ht, hmess⟩ := h
  rw [flagged_getD]
  exact hmess.ones 7 (r.tables_flag t ht).1

theorem Documented.later (h : r.Documented mess) (hi : i < mess.length) (hpos : 0 < i) :
    flagged (mess.getD i 0) = false := by
  obtain ⟨t, ht, hmess⟩ := h
  rw [flagged_getD]
  exact hmess.zeros _ ((r.tables_flag t ht).2 i (hmess.size ▸ hi) hpos)

/-- A Vicon message has the length that its bits 12 and 14 say. -/
theorem messageSize_documented (h : vicon.Documented mess) : Vicon.messageSize mess = mess.length := by
  have hall : ∀ t ∈ vicon.tables,
      Vicon.bitCommand ∈ t.zeros ∧ t.size = Vicon.sizeStatus ∨
      Vicon.bitCommand ∈ t.ones ∧ Vicon.bitExtended ∈ t.zeros ∧ t.size = Vicon.sizeCommand ∨
      Vicon.bitCommand ∈ t.ones ∧ Vicon.bitExtended ∈ t.ones ∧ t.size = Vicon.sizeExtended := by decide
  obtain ⟨t, ht, hmess⟩ := h
  rw [hmess.size, Vicon.messageSize, Vicon.isExtendedCommand, Vicon.isCommand]
  obtain ⟨hc, hsize⟩ | ⟨hc, he, hsize⟩ | ⟨hc, he, hsize⟩ := hall t ht
  · rw [hmess.zeros _ hc, hsize]
    rfl
  · rw [hmess.ones _ hc, hmess.zeros _ he, hsize]
    rfl
  · rw [hmess.ones _ hc, hmess.ones _ he, hsize]
    rfl

theorem not_flag {b : Byte} (h : flagged b = true) : ¬b &&& Vicon.flag = 0 := bne_iff_ne.mp h

/-- **A complete message** alone is a frame. -/
theorem Documented.judge (h : r.Documented mess) : r.scanner.judge mess = .frame mess.length := by
  have hflag := not_flag h.begins
  cases r with
  | vicon =>
    have hsize := messageSize_documented h
    have hle := Vicon.sizeStatus_le_messageSize mess
    show Vicon.judge mess = _
    rw [Vicon.judge, if_neg (by omega), if_neg hflag, hsize, if_neg (Nat.lt_irrefl _)]
  | manchester =>
    have hlen : mess.length = Manchester.sizeMsg := by
      obtain ⟨t, ht, hmess⟩ := h
      rw [hmess.size, List.mem_singleton.mp ht]
      rfl
    rw [hlen]
    exact Manchester.judge_frame (Nat.le_of_eq hlen.symm) hflag

/-- **A message cut short**: whatever follows it, the reader waits or takes a frame that reaches
into what follows. -/
theorem Documented.cut {rest : List Byte} (h : r.Documented (p ++ rest)) (hp : p ≠ []) (hrest : rest ≠ [])
    (s : List Byte) :
    r.scanner.judge (p ++ s) = .wait ∨ ∃ k, p.length < k ∧ r.scanner.judge (p ++ s) = .frame k := by
  have hpos : 0 < p.length := List.length_pos_of_ne_nil hp
  have hcut : p.length < (p ++ rest).length := by
    have := List.length_pos_of_ne_nil hrest
    rw [List.length_append]
    omega
  have hflag : ¬(p ++ s).getD 0 0 &&& Vicon.flag = 0 := by
    have hbegins := not_flag h.begins
    rw [getD_append_left hpos] at hbegins ⊢
    exact hbegins
  cases r with
  | vicon =>
    show Vicon.judge (p ++ s) = _ ∨ ∃ k, _ ∧ Vicon.judge (p ++ s) = _
    rw [Vicon.judge]
    by_cases hmin : (p ++ s).length < Vicon.sizeStatus
    · exact Or.inl (if_pos hmin)
    rw [if_neg hmin, if_neg hflag]
    by_cases hshort : (p ++ s).length < Vicon.messageSize (p ++ s)
    · exact Or.inl (if_pos hshort)
    refine Or.inr ⟨_, ?_, if_neg hshort⟩
    by_cases hone : p.length < Vicon.sizeStatus
    · exact Nat.lt_of_lt_of_le hone (Vicon.sizeStatus_le_messageSize _)
    · have hle := Nat.le_of_not_lt hone
      rw [Vicon.messageSize_append hle, ← Vicon.messageSize_append hle rest, messageSize_documented h]
      exact hcut
  | manchester =>
    have hsize : (p ++ rest).length = Manchester.sizeMsg := by
      obtain ⟨t, ht, hmess⟩ := h
      rw [hmess.size, List.mem_singleton.mp ht]
      rfl
    by_cases hlen : Manchester.sizeMsg ≤ (p ++ s).length
    · exact Or.inr ⟨_, hsize ▸ hcut, Manchester.judge_frame hlen hflag⟩
    · refine Or.inl ?_
      show Manchester.frames.judge _ = _
      exact fixed_wait (Nat.lt_of_not_le hlen)

/-- **The frames after a message cut short** are not those of what follows. -/
theorem frames_cut {rest : List Byte} (h : r.Documented (p ++ rest)) (hrest : rest ≠ [])
    (hm : r.Documented m) : r.scanner.frames (p ++ m) = [m] ↔ p = [] := by
  constructor
  · intro hframes
    by_contra hp
    rcases h.cut hp hrest m with hwait | ⟨k, hk, hframe⟩
    · rw [r.scanner.frames_wait hwait] at hframes
      exact List.cons_ne_nil _ _ hframes.symm
    · -- the first frame has the first byte of `m` behind its own first byte
      rw [r.scanner.frames_frame hframe] at hframes
      have hfirst := (List.cons_eq_cons.mp hframes).1
      have hbyte : m.getD p.length 0 = m.getD 0 0 := by
        rw [← hfirst, List.getD_eq_getElem?_getD, List.getElem?_take_of_lt hk,
          List.getElem?_append_right le_rfl, Nat.sub_self, ← List.getD_eq_getElem?_getD, hfirst]
      have hlt : p.length < m.length := by
        have hle := (r.scanner.frame_le hframe).2
        rw [← hfirst, List.length_take]
        omega
      have hlater := hm.later hlt (List.length_pos_of_ne_nil hp)
      rw [hbyte, hm.begins] at hlater
      cases hlater
  · rintro rfl
    rw [List.nil_append, r.scanner.frames_frame hm.judge, List.take_length, List.drop_length,
      r.scanner.frames_wait]
    exact r.judge_nil

/-! ## The reader against the scanner -/

theorem takesOut_vicon (sink : Sink σ) :
    TakesOut Vicon.frames Vicon.sizeStatus (Vicon.decodeMessage sink) := by
  intro st hlen
  show ∃ d st', _ ∧ match Vicon.judge st.rxbuf.data with | .wait => _ | .skip => _ | .frame k => _
  obtain ⟨hj, hflag, buf, hdec, hdata, -⟩ | ⟨hj, hflag, buf, hdec, hdata, -⟩ | ⟨hj, -, hdone⟩ :=
    Vicon.decodeMessage_cases sink hlen
  · rw [hj]
    exact ⟨_, _, hdec, rfl, bne_eq_false_iff_eq.mpr hflag, hdata⟩
  · rw [hj]
    exact ⟨_, _, hdec, rfl, bne_iff_ne.mpr hflag, hdata⟩
  · rw [hj]
    exact ⟨_, _, hdone, rfl⟩

theorem takesOut_manchester (sink : Sink σ) :
    TakesOut Manchester.frames Manchester.sizeMsg (Manchester.manchesterReadMessage sink) := by
  intro st hlen
  have hpos : 0 < st.rxbuf.data.length := Nat.lt_of_lt_of_le (by decide) hlen
  by_cases hflag : st.rxbuf.data.getD 0 0 &&& Manchester.flag = 0
  · obtain ⟨buf, hdata, -, hread⟩ :=
      @Manchester.readMessageWith_skip σ (Manchester.manchesterDecodePacket sink) st hpos hflag
    rw [Manchester.judge_skip hlen hflag]
    exact ⟨_, _, hread, rfl, bne_eq_false_iff_eq.mpr hflag, hdata⟩
  · obtain ⟨buf, hdata, -, hread⟩ :=
      @Manchester.readMessageWith_frame σ (Manchester.manchesterDecodePacket sink) st hlen hflag
    rw [Manchester.judge_frame hlen hflag]
    exact ⟨_, _, hread, rfl, bne_iff_ne.mpr hflag, hdata⟩

/-- One `do_read` accepts the frames of what is in the buffer. -/
theorem accepted_eq (r : FlagReader) (sink : Sink σ) (st : ReadState σ) :
    r.accepted sink st = r.scanner.frames st.rxbuf.data := by
  cases r with
  | vicon =>
    exact loopConsumed_filter (takesOut_vicon sink) (fun _ => Vicon.judge_short) (by decide)
      (Nat.lt_succ_self _)
  | manchester =>
    exact loopConsumed_filter (takesOut_manchester sink) (fun _ => fixed_wait) (by decide)
      (Nat.lt_succ_self _)

/-- The messages of a run that has read the whole stream. -/
theorem runAccepted_frames (r : FlagReader) (sink : Sink σ) (rdr : Ccreader) (s : σ) {ks : List Nat}
    {stream : List Byte} {st : ReadState σ}
    (hrun : runReads (r.doRead σ sink) ⟨rdr, bufferInit bufferSize, s⟩ stream ks = some (st, [])) :
    runAccepted (r.accepted sink) (r.doRead σ sink) ⟨rdr, bufferInit bufferSize, s⟩ stream ks =
      r.scanner.frames stream := by
  have hreads : ∃ bound effect, 0 < bound ∧ bound ≤ bufferSize ∧
      Reads r.scanner bound effect (r.doRead σ sink) := by
    cases r with
    | vicon => exact ⟨_, _, by decide, by decide, Vicon.doRead_reads sink⟩
    | manchester => exact ⟨_, _, by decide, by decide, Manchester.doRead_reads sink⟩
  obtain ⟨bound, effect, hpos, hle, hreads⟩ := hreads
  obtain ⟨st', taken, rest, hrun', hsplit, heq⟩ := @runAccepted_eq σ r.scanner bound effect _ _ hreads
    (r.accepted_eq sink) ks ⟨rdr, bufferInit bufferSize, s⟩ stream r.judge_nil hpos hle
  rw [hrun, Option.some.injEq, Prod.mk.injEq] at hrun'
  rw [heq, hsplit, ← hrun'.2, List.append_nil]
  rfl

/-- Of all it has read, a reader has accepted the message, and no message with bit 7 in a later
byte. -/
def Resynchronised (accepted : List (List Byte)) (m : List Byte) : Prop :=
  accepted = [m] ∧ ∀ mess ∈ accepted, ∀ b ∈ mess.tail, flagged b = false

/-- **A message after one cut short**, in any chunks: the reader decodes it as itself if and only if
nothing of the one cut short arrived. -/
theorem resynchronised_iff (r : FlagReader) (sink : Sink σ) (rdr : Ccreader) (s : σ) {m₁ m₂ p : List Byte}
    (h₁ : r.Documented m₁) (h₂ : r.Documented m₂) (hp : p <+: m₁) (hproper : p ≠ m₁) {ks : List Nat}
    {st : ReadState σ}
    (hrun : runReads (r.doRead σ sink) ⟨rdr, bufferInit bufferSize, s⟩ (p ++ m₂) ks = some (st, [])) :
    Resynchronised (runAccepted (r.accepted sink) (r.doRead σ sink) ⟨rdr, bufferInit bufferSize, s⟩
      (p ++ m₂) ks) m₂ ↔ p = [] := by
  obtain ⟨rest, rfl⟩ := hp
  have hrest : rest ≠ [] := by
    rintro rfl
    exact hproper (List.append_nil p).symm
  rw [r.runAccepted_frames sink rdr s hrun, Resynchronised, frames_cut h₁ hrest h₂]
  refine ⟨And.left, fun hnil => ⟨hnil, ?_⟩⟩
  rw [(frames_cut h₁ hrest h₂).mpr hnil]
  intro mess hmess b hb
  rw [List.mem_singleton.mp hmess] at hb
  obtain ⟨i, hi, rfl⟩ := List.mem_iff_getElem.mp hb
  rw [List.length_tail] at hi
  have hlater := h₂.later (i := i + 1) (by omega) (Nat.succ_pos i)
  rw [List.getElem_tail]
  rwa [List.getD_eq_getElem?_getD, List.getElem?_eq_getElem] at hlater

/-- A sink that takes packets and does nothing. -/
def nowhere : Sink Unit := ⟨fun s => (⟨0, 0⟩, s), fun s _ pkt => (s, pkt)⟩

theorem resynchronised_iff_panLeft :
    Resynchronised (runAccepted (vicon.accepted nowhere) (vicon.doRead Unit nowhere)
      ⟨ccreaderInit ⟨0, 0⟩ 0 0, bufferInit bufferSize, ()⟩
      ([0x80, 0x11] ++ [0x80, 0x12, 0x40, 0x00, 0x00, 0x00]) [8])
      [0x80, 0x12, 0x40, 0x00, 0x00, 0x00] ↔ ([0x80, 0x11] : List Byte) = [] := by
  have hcut : vicon.Documented [0x80, 0x11, 0x40, 0x00, 0x00, 0x00] :=
    ⟨viconCommand, by decide, rfl, by decide, by decide⟩
  have hnext : vicon.Documented [0x80, 0x12, 0x40, 0x00, 0x00, 0x00] :=
    ⟨viconCommand, by decide, rfl, by decide, by decide⟩
  exact vicon.resynchronised_iff nowhere (ccreaderInit ⟨0, 0⟩ 0 0) () hcut hnext (by decide) (by decide) rfl

/-- The first two bytes of a command to receiver 1, and a command to receiver 2 that pans left: what
the reader accepts is a command to receiver 1 that closes the iris and moves the focus. -/
theorem not_resynchronised :
    runAccepted (vicon.accepted nowhere) (vicon.doRead Unit nowhere)
      ⟨ccreaderInit ⟨0, 0⟩ 0 0, bufferInit bufferSize, ()⟩
      ([0x80, 0x11] ++ [0x80, 0x12, 0x40, 0x00, 0x00, 0x00]) [8] =
      [[0x80, 0x11, 0x80, 0x12, 0x40, 0x00]] ∧
    ¬Resynchronised (runAccepted (vicon.accepted nowhere) (vicon.doRead Unit nowhere)
      ⟨ccreaderInit ⟨0, 0⟩ 0 0, bufferInit bufferSize, ()⟩
      ([0x80, 0x11] ++ [0x80, 0x12, 0x40, 0x00, 0x00, 0x00]) [8])
      [0x80, 0x12, 0x40, 0x00, 0x00, 0x00] := by
  have haccepted : runAccepted (vicon.accepted nowhere) (vicon.doRead Unit nowhere)
      ⟨ccreaderInit ⟨0, 0⟩ 0 0, bufferInit bufferSize, ()⟩
      ([0x80, 0x11] ++ [0x80, 0x12, 0x40, 0x00, 0x00, 0x00]) [8] =
      [[0x80, 0x11, 0x80, 0x12, 0x40, 0x00]] := rfl
  refine ⟨haccepted, fun h => ?_⟩
  have hmess := h.1
  rw [haccepted] at hmess
  revert hmess
  decide

end FlagReader

end Protozoa
