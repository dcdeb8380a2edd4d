import Protozoa.Protocol.AxisChannel

/-!
# A request that the socket takes in parts

`channel_write` (`channel.c:634-643`) sets `FLAG_NEEDS_RESP` before it knows how much of the
transmit buffer the socket takes. From then on the channel is not polled for writing
(`channel.c:532-534`), and the rest of a request whose first bytes are sent stands in the buffer
until `axis_do_write` drops it for the next one (`axis.c:251-254`).

* `Sending`: the channel, and whether the first bytes of what is in its transmit buffer are sent
  already.
* `Step`, `transfer`, `run`: submissions, rounds of the poller with the bytes the socket takes, and
  responses.
* `FinishesRequests`: while the channel waits for a response, no request is half sent, and none is
  dropped that is.
* **`finishesRequests_iff`**: in which runs that is so: those in which every transfer takes all
  bytes of the buffer, or none (`WholeTransfers`).
* `not_finishesRequests`: a stop of which the socket takes one half.
-/

namespace Protozoa.Axis.Transfer

/-- What is done with the channel. -/
inductive Step where
  /-- `axis_do_write` -/
  | submit (pkt : Ccpacket)
  /-- `channel_write`, when the socket takes so many bytes or fails -/
  | written (taken : Option Nat)
  /-- `channel_read` -/
  | answered (incoming : Incoming)
  /-- `channel_close`, and `channel_open` with another file descriptor -/
  | reopened (fd : Int)

/-- A channel, and whether the transmit buffer holds the rest of a request whose first bytes are
sent. -/
structure Sending where
  chn : Channel
  begun : Bool

/-- The bytes that a socket takes are bytes of the buffer. -/
def transfer (chn : Channel) (taken : Option Nat) : Option Nat := taken.map (min · (bufferAvailable chn.txbuf))

/-- One step. -/
def step (auth : Option (List Byte)) (s : Sending) : Step → Sending
  | .submit pkt => ⟨{ s.chn with txbuf := (doWrite auth s.chn.txbuf pkt).1 }, false⟩
  | .written taken =>
    let (_, chn, sent) := channelWrite s.chn (transfer s.chn taken)
    ⟨chn, (s.begun || sent ≠ []) && !bufferIsEmpty chn.txbuf⟩
  | .answered incoming => ⟨(channelRead s.chn incoming).2, s.begun⟩
  | .reopened fd => ⟨channelOpen (channelClose true s.chn) fd true, false⟩

/-- Steps, one after the other. -/
def run (auth : Option (List Byte)) (s : Sending) (steps : List Step) : Sending := steps.foldl (step auth) s

/-- **No request is left half sent**: the channel waits for no response while the rest of a request
is unsent, and no rest is dropped for another request. -/
def FinishesRequests (auth : Option (List Byte)) (s : Sending) (steps : List Step) : Prop :=
  (∀ k, hasFlag (run auth s (steps.take k)).chn flagNeedsResp = true → (run auth s (steps.take k)).begun = false) ∧
    ∀ (k : Nat) (pkt : Ccpacket), steps[k]? = some (.submit pkt) → (run auth s (steps.take k)).begun = false

/-- A transfer of all the bytes of the buffer, or none. -/
def Whole (chn : Channel) (taken : Option Nat) : Prop :=
  (transfer chn taken).getD 0 = 0 ∨ (transfer chn taken).getD 0 = bufferAvailable chn.txbuf

/-- Every transfer is. -/
def WholeTransfers (auth : Option (List Byte)) (s : Sending) (steps : List Step) : Prop :=
  ∀ (k : Nat) (taken : Option Nat), steps[k]? = some (.written taken) → Whole (run auth s (steps.take k)).chn taken

/-! ## One step -/

variable {auth : Option (List Byte)} {s : Sending}

theorem channelRead_required (chn : Channel) (incoming : Incoming) :
    hasFlag (channelRead chn incoming).2 flagRespRequired = hasFlag chn flagRespRequired := by
  have hclear : ∀ rxbuf : Buffer,
      hasFlag { channelClearResponse chn with rxbuf := rxbuf } flagRespRequired = hasFlag chn flagRespRequired :=
    fun _ => hasFlag_clearResponse_required chn
  unfold channelRead
  by_cases hlisten : channelIsListening chn = true
  · rw [if_pos hlisten]
    cases incoming with
    | client fd => cases fd <;> rfl
    | bytes ready => rfl
  rw [if_neg hlisten]
  cases incoming with
  | client fd => rfl
  | bytes ready =>
    cases ready with
    | none => rfl
    | some ready =>
      cases hread : bufferRead chn.rxbuf ready with
      | none => simp only [hread]
      | some out =>
        simp only [hread, channelClearResponse]
        split
        · rfl
        · cases hreader : chn.reader with
          | none => exact hclear out.1
          | some doRead => exact hclear out.1

/-- **`channel_write`** waits for a response, whatever it sends. -/
theorem channelWrite_spec {chn : Channel} (hreq : hasFlag chn flagRespRequired = true) (taken : Option Nat) :
    ∃ txbuf sent, (channelWrite chn (transfer chn taken)).2 =
        ({ chn with flags := chn.flags ||| flagNeedsResp, txbuf := txbuf }, sent) ∧
      sent = chn.txbuf.data.take ((transfer chn taken).getD 0) ∧
      txbuf.data = chn.txbuf.data.drop ((transfer chn taken).getD 0) := by
  unfold channelWrite
  simp only [hreq, if_true]
  cases taken with
  | none => exact ⟨chn.txbuf, [], rfl, rfl, rfl⟩
  | some n =>
    simp only [transfer, Option.map_some, Option.bind_some, Option.getD_some, bufferWrite]
    by_cases hnil : bufferAvailable chn.txbuf = 0
    · rw [if_pos hnil, hnil, Nat.min_zero]
      exact ⟨chn.txbuf, [], rfl, rfl, rfl⟩
    · rw [if_neg hnil]
      obtain ⟨txbuf, hconsume, hdata, -⟩ := bufferConsume_spec (Nat.min_le_right n (bufferAvailable chn.txbuf))
      rw [hconsume]
      exact ⟨txbuf, _, rfl, rfl, hdata⟩

/-- The flag stays. -/
theorem step_required (hreq : hasFlag s.chn flagRespRequired = true) (a : Step) :
    hasFlag (step auth s a).chn flagRespRequired = true := by
  refine Eq.trans ?_ hreq
  cases a with
  | submit pkt => rfl
  | answered incoming => exact channelRead_required s.chn incoming
  | reopened fd =>
    obtain ⟨sfd, hopen⟩ := channelOpen_spec (channelClose true s.chn) fd
    have hclose : hasFlag (channelClose true s.chn) flagRespRequired = hasFlag s.chn flagRespRequired := by
      unfold hasFlag
      rw [channelClose_flags]
    show hasFlag (channelOpen _ fd true) _ = _
    rw [hopen]
    exact (hasFlag_clearResponse_required _).trans hclose
  | written taken =>
    obtain ⟨txbuf, sent, hwrite, -, -⟩ := channelWrite_spec hreq taken
    show hasFlag (channelWrite s.chn (transfer s.chn taken)).2.1 _ = _
    rw [hwrite]
    exact (hasFlag_needsResp s.chn).2

/-- **A transfer** leaves a rest exactly if it is partial, and the channel waits for a response
then. -/
theorem step_written (hreq : hasFlag s.chn flagRespRequired = true) (hbegun : s.begun = false) (taken : Option Nat) :
    ((step auth s (.written taken)).begun = false ↔ Whole s.chn taken) ∧
      hasFlag (step auth s (.written taken)).chn flagNeedsResp = true := by
  obtain ⟨txbuf, sent, hwrite, hsent, hrest⟩ := channelWrite_spec hreq taken
  have hstep : step auth s (.written taken) =
      ⟨{ s.chn with flags := s.chn.flags ||| flagNeedsResp, txbuf := txbuf },
        (s.begun || sent ≠ []) && !bufferIsEmpty txbuf⟩ := by
    unfold step
    simp only [hwrite]
  rw [hstep]
  refine ⟨?_, (hasFlag_needsResp s.chn).1⟩
  have hle : (transfer s.chn taken).getD 0 ≤ s.chn.txbuf.data.length := by
    cases taken with
    | none => exact Nat.zero_le _
    | some n => exact Nat.min_le_right _ _
  have hnone : sent = [] ↔ (transfer s.chn taken).getD 0 = 0 ∨ s.chn.txbuf.data = [] := by
    rw [hsent, List.take_eq_nil_iff]
  have hall : bufferIsEmpty txbuf = true ↔ s.chn.txbuf.data.length ≤ (transfer s.chn taken).getD 0 := by
    unfold bufferIsEmpty bufferAvailable
    rw [beq_iff_eq, List.length_eq_zero_iff, hrest, List.drop_eq_nil_iff]
  unfold Whole
  simp only [hbegun, Bool.false_or, Bool.and_eq_false_iff, decide_eq_false_iff_not, not_not, Bool.not_eq_false',
    hnone, hall, bufferAvailable, ← List.length_eq_zero_iff]
  omega

/-- The other steps leave no rest. -/
theorem step_begun (hbegun : s.begun = false) {a : Step} (ha : ∀ taken, a ≠ .written taken) :
    (step auth s a).begun = false := by
  cases a with
  | submit pkt => rfl
  | answered incoming => exact hbegun
  | reopened fd => rfl
  | written taken => exact absurd rfl (ha taken)

/-! ## Runs -/

theorem run_take_succ {steps : List Step} {k : Nat} {a : Step} (h : steps[k]? = some a) :
    run auth s (steps.take (k + 1)) = step auth (run auth s (steps.take k)) a := by
  rw [List.take_add_one, h, Option.toList_some, run, List.foldl_append]
  rfl

theorem run_required (hreq : hasFlag s.chn flagRespRequired = true) (steps : List Step) :
    hasFlag (run auth s steps).chn flagRespRequired = true := by
  induction steps generalizing s with
  | nil => exact hreq
  | cons a steps ih => exact ih (step_required hreq a)

/-- No rest is left after any step, if none of the transfers leaves one. -/
theorem run_begun (hbegun : s.begun = false) {steps : List Step}
    (hwritten : ∀ k taken, steps[k]? = some (.written taken) → (run auth s (steps.take k)).begun = false →
      (run auth s (steps.take (k + 1))).begun = false) (k : Nat) : (run auth s (steps.take k)).begun = false := by
  induction k with
  | zero => exact hbegun
  | succ k ih =>
    cases hk : steps[k]? with
    | none =>
      rw [List.take_add_one, hk, Option.toList_none, List.append_nil]
      exact ih
    | some a =>
      by_cases ha : ∃ taken, a = .written taken
      · obtain ⟨taken, rfl⟩ := ha
        exact hwritten k taken hk ih
      · rw [run_take_succ hk]
        exact step_begun ih fun taken htaken => ha ⟨taken, htaken⟩

/-- **Partial transfers**: no request is left half sent exactly in the runs whose transfers take all
the bytes of the buffer, or none. -/
theorem finishesRequests_iff (auth : Option (List Byte)) (chn : Channel) (steps : List Step)
    (hreq : hasFlag chn flagRespRequired = true) :
    FinishesRequests auth ⟨chn, false⟩ steps ↔ WholeTransfers auth ⟨chn, false⟩ steps := by
  have hwritten : ∀ {k taken}, steps[k]? = some (.written taken) →
      (run auth ⟨chn, false⟩ (steps.take k)).begun = false →
      ((run auth ⟨chn, false⟩ (steps.take (k + 1))).begun = false ↔
        Whole (run auth ⟨chn, false⟩ (steps.take k)).chn taken) ∧
      hasFlag (run auth ⟨chn, false⟩ (steps.take (k + 1))).chn flagNeedsResp = true := by
    intro k taken hk hbegun
    rw [run_take_succ hk]
    exact step_written (run_required hreq _) hbegun taken
  constructor
  · rintro ⟨hwaits, -⟩ k taken hk
    have hbegun := @run_begun auth ⟨chn, false⟩ rfl steps
      fun j taken hj hbegun => hwaits (j + 1) (hwritten hj hbegun).2
    exact (hwritten hk (hbegun k)).1.mp (hbegun (k + 1))
  · intro hwhole
    have hbegun := @run_begun auth ⟨chn, false⟩ rfl steps
      fun j taken hj hbegun => (hwritten hj hbegun).1.mpr (hwhole j taken hj)
    exact ⟨fun k _ => hbegun k, fun k _ _ => hbegun k⟩

/-- A stop of which the socket takes 20 bytes, and a pan to the left. -/
def halfStop : List Step :=
  [.submit ⟨1, 0, 0, 0, 0, ⟨0, 0⟩⟩, .written (some 20), .submit ⟨1, ccPanLeft, 1024, 0, 0, ⟨0, 0⟩⟩]

/-- The channel of a camera. -/
def camera : Channel := channelInit "axis.example.com".toList (flagTcp ||| flagRespRequired)

theorem finishesRequests_iff_halfStop :
    FinishesRequests none ⟨camera, false⟩ halfStop ↔ WholeTransfers none ⟨camera, false⟩ halfStop :=
  finishesRequests_iff none camera halfStop (by decide)

/-- The rest of the stop is never sent. -/
theorem not_finishesRequests : ¬ ∀ (auth : Option (List Byte)) (chn : Channel) (steps : List Step),
    hasFlag chn flagRespRequired = true → FinishesRequests auth ⟨chn, false⟩ steps := by
  intro h
  have hdropped := (h none camera halfStop (by decide)).2 2 _ rfl
  exact absurd hdropped (by decide)

end Protozoa.Axis.Transfer
