import Protozoa.Channel
import Protozoa.Protocol.AxisMotion

/-!
# Requests and responses on an Axis channel

A channel that requires a response (`FLAG_RESP_REQUIRED`) takes one request at a time: after a write
(`channel.c:634-643`) it is polled for reading only (`channel_needs_writing`, `channel.c:532-534`),
and the transmit buffer is polled for writing again when the response has come. Requests are
submitted in between, by a reader or by the timer.

* `Step`: a request is submitted, the poller registers the channel, the socket takes all of the
  transmit buffer, or (part of) a response arrives.
* `doWrite_begun`: a submitted request is in the transmit buffer from its first byte on (`Begun`).
* `Stands`: what is between two steps. With a request written and not answered, the channel is open,
  does not listen and is not polled for writing.
* **`keepsRequests_iff`**: which runs lose no request. `channel_read` (`channel.c:602-627`) returns
  `0` for a response nobody reads, the poller takes that for a channel the peer has closed
  (`poller.c:165-188`), and `channel_close` (`channel.c:478-498`) clears the transmit buffer with
  the request that waits there.

Out of scope here: a socket that takes a part of a request (`Protocol/AxisTransfer.lean`).
-/

namespace Protozoa.Axis

/-! ## `axis_do_write` leaves a request -/

/-- A buffer with a request begun in it. -/
def Begun (size : Nat) (txbuf : Buffer) : Prop := txbuf.data ≠ [] ∧ txbuf.size = size

theorem Begun.append {size : Nat} {txbuf : Buffer} (h : Begun size txbuf) (mess : List Byte) :
    Begun size (ccwriterAppend txbuf mess) := by
  obtain ⟨rest, hdata⟩ := ccwriterAppend_prefix txbuf mess
  refine ⟨?_, (ccwriterAppend_size _ _).trans h.2⟩
  rw [hdata]
  exact List.append_ne_nil_of_left_ne_nil h.1 rest

theorem begun_prefixOf {txbuf : Buffer} (hnil : txbuf.data = []) (hsize : txbuf.size = bufferSize)
    (config : Bool) : Begun bufferSize (ccwriterAppend txbuf (prefixOf false config)) := by
  have hlen : (prefixOf false config).length ≤ 32 ∧ prefixOf false config ≠ [] := by
    revert config
    decide
  have hspace : bufferSpace txbuf = 256 := (bufferSpace_of_nil hnil).trans hsize
  refine ⟨?_, (ccwriterAppend_size _ _).trans hsize⟩
  rw [(ccwriterAppend_of_le (by omega)).1, hnil]
  exact hlen.2

theorem begun_addTrailer {txbuf : Buffer} (auth : Option (List Byte)) (h : Begun bufferSize txbuf) :
    Begun bufferSize (addTrailer auth txbuf) := by
  cases auth with
  | none => exact (h.append _).append _
  | some auth => exact (((h.append _).append _).append _).append _

theorem Begun.foldl {size : Nat} : ∀ {parts : List (List Byte)} {txbuf : Buffer},
    Begun size txbuf → Begun size (parts.foldl ccwriterAppend txbuf)
  | [], _, h => h
  | mess :: _, _, h => (h.append mess).foldl

theorem requestParts_cons (pkt : Ccpacket) :
    ∃ parts, requestParts pkt = prefixOf false false :: parts := by
  unfold requestParts
  split_ifs <;> exact ⟨_, rfl⟩

/-- **A request** stands in the buffer afterwards. -/
theorem doWrite_begun (auth : Option (List Byte)) {txbuf : Buffer} (pkt : Ccpacket)
    (hsize : txbuf.size = bufferSize) : Begun bufferSize (doWrite auth txbuf pkt).1 := by
  obtain ⟨hnil, hsize'⟩ := cleared_spec hsize
  by_cases hpreset : ccpacketGetPresetMode pkt = 0
  · obtain ⟨parts, hparts⟩ := requestParts_cons pkt
    rw [doWrite_eq auth txbuf hpreset, hparts]
    exact begun_addTrailer auth (begun_prefixOf hnil hsize' false).foldl
  · obtain ⟨config, verb, -, hrequest⟩ := doWrite_preset auth txbuf hpreset
    rw [hrequest]
    exact begun_addTrailer auth (begun_prefixOf hnil hsize' config).foldl

/-! ## Runs -/

/-- What happens to the channel. -/
inductive Step where
  /-- `axis_do_write` -/
  | submit (pkt : Ccpacket)
  /-- `poller_register_channel`; the file descriptor if the channel is to be opened -/
  | register (fd : Int)
  /-- `POLLOUT`, and the socket takes all there is -/
  | written
  /-- `POLLIN`, with bytes of a response -/
  | response (bytes : List Byte)

/-- The channel, and the events the poller waits for. -/
structure Polled where
  chn : Channel
  events : PollEvents

/-- One step, with the bytes that are sent. A socket is written or read only if the poller waits for
that, and no descriptor that listens is; after its events the channel is registered anew. -/
def step (auth : Option (List Byte)) (s : Polled) : Step → Option (Polled × List Byte)
  | .submit pkt => some (⟨{ s.chn with txbuf := (doWrite auth s.chn.txbuf pkt).1 }, s.events⟩, [])
  | .register fd =>
    if 0 < fd then
      let (chn, events) := pollerRegisterChannel s.chn fd true
      some (⟨chn, events⟩, [])
    else none
  | .written =>
    if s.events.pollout ∧ ¬channelIsListening s.chn then
      let (chn, sent) := pollerChannelEvents s.chn ⟨false, false, true⟩
        (some (bufferAvailable s.chn.txbuf)) (.bytes none)
      some (⟨chn, pollNothing⟩, sent)
    else none
  | .response bytes =>
    if s.events.pollin ∧ ¬channelIsListening s.chn ∧ bytes ≠ [] then
      let (chn, sent) := pollerChannelEvents s.chn ⟨false, true, false⟩ none (.bytes (some bytes))
      some (⟨chn, pollNothing⟩, sent)
    else none

/-- The steps can be taken one after the other. -/
def Runs (auth : Option (List Byte)) (s : Polled) : List Step → Prop
  | [] => True
  | a :: steps => ∃ s' sent, step auth s a = some (s', sent) ∧ Runs auth s' steps

/-- **What becomes of a request** in one step: it stays, or is sent in full, or a new one replaces
it. -/
def KeepsRequest (s : Polled) (a : Step) (s' : Polled) (sent : List Byte) : Prop :=
  s.chn.txbuf.data ≠ [] → s'.chn.txbuf.data = s.chn.txbuf.data ∨ sent = s.chn.txbuf.data ∨
    ∃ pkt, a = .submit pkt

/-- No step of the run loses a request. -/
def KeepsRequests (auth : Option (List Byte)) (s : Polled) : List Step → Prop
  | [] => True
  | a :: steps => ∀ s' sent, step auth s a = some (s', sent) →
      KeepsRequest s a s' sent ∧ KeepsRequests auth s' steps

/-- **No request is submitted** after a write whose response is still to come, if one does come. -/
def WaitsForResponse (outstanding : Bool) : List Step → Prop
  | [] => True
  | .submit _ :: steps => (outstanding = true → ∀ bytes, .response bytes ∉ steps) ∧
      WaitsForResponse outstanding steps
  | .register _ :: steps => WaitsForResponse outstanding steps
  | .written :: steps => WaitsForResponse true steps
  | .response _ :: steps => WaitsForResponse false steps

/-! ## What holds between two steps -/

/-- A response is required, nobody reads it, and the poller waits for what the flags say. -/
structure Stands (s : Polled) : Prop where
  reader : s.chn.reader = none
  required : hasFlag s.chn flagRespRequired = true
  txsize : s.chn.txbuf.size = bufferSize
  rxsize : s.chn.rxbuf.size = bufferSize
  rxnil : s.chn.rxbuf.data = []
  isOpen : hasFlag s.chn flagNeedsResp = true ∨ s.events.pollout = true → s.chn.fd ≠ 0
  pollin : s.events.pollin = true → hasFlag s.chn flagNeedsResp = true
  pollout : s.events.pollout = true →
    hasFlag s.chn flagNeedsResp = false ∧ s.chn.txbuf.data ≠ []

/-- The start: nothing is open, and the poller waits for nothing. -/
def start (name : List Char) (flags : BitVec 32) : Polled := ⟨channelInit name flags, pollNothing⟩

theorem stands_start {name : List Char} {flags : BitVec 32} (hreq : flags &&& flagRespRequired ≠ 0)
    (hresp : flags &&& flagNeedsResp = 0) : Stands (start name flags) := by
  have hneeds : hasFlag (channelInit name flags) flagNeedsResp = false := by
    simp [hasFlag, channelInit, hresp]
  refine ⟨rfl, bne_iff_ne.mpr hreq, rfl, rfl, rfl, ?_, fun h => ?_, fun h => ?_⟩
  · rintro (h | h)
    · exact absurd (hneeds.symm.trans h) (by decide)
    · cases h
  · cases h
  · cases h

variable {auth : Option (List Byte)} {s s' : Polled} {sent : List Byte}

theorem step_submit (h : Stands s) (pkt : Ccpacket)
    (hstep : step auth s (.submit pkt) = some (s', sent)) :
    Stands s' ∧ s'.chn.txbuf.data ≠ [] ∧
      hasFlag s'.chn flagNeedsResp = hasFlag s.chn flagNeedsResp := by
  simp only [step, Option.some.injEq, Prod.mk.injEq] at hstep
  obtain ⟨rfl, -⟩ := hstep
  obtain ⟨hne, hsize⟩ := doWrite_begun auth pkt h.txsize
  exact ⟨⟨h.reader, h.required, hsize, h.rxsize, h.rxnil, h.isOpen, h.pollin,
    fun hout => ⟨(h.pollout hout).1, hne⟩⟩, hne, rfl⟩

theorem step_register (h : Stands s) (fd : Int)
    (hstep : step auth s (.register fd) = some (s', sent)) :
    Stands s' ∧ s'.chn.txbuf.data = s.chn.txbuf.data ∧
      hasFlag s'.chn flagNeedsResp = hasFlag s.chn flagNeedsResp := by
  simp only [step] at hstep
  split at hstep
  case isFalse => cases hstep
  case isTrue hfd =>
    simp only [Option.some.injEq, Prod.mk.injEq] at hstep
    obtain ⟨rfl, -⟩ := hstep
    obtain ⟨chn, hchn, hcases, hevents⟩ := pollerRegisterChannel_cases s.chn fd
    -- Opening clears no flag: a response is outstanding on an open channel only.
    obtain ⟨hneeds, hreq, htx, hrx, hreader, hopen⟩ :
        hasFlag chn flagNeedsResp = hasFlag s.chn flagNeedsResp ∧
        hasFlag chn flagRespRequired = true ∧ chn.txbuf = s.chn.txbuf ∧ chn.rxbuf = s.chn.rxbuf ∧
        chn.reader = none ∧ (hasFlag s.chn flagNeedsResp = true → chn.fd ≠ 0) := by
      rcases hcases with ⟨hclosed, sfd, rfl⟩ | rfl
      · have hno : hasFlag s.chn flagNeedsResp = false := by
          by_contra hyes
          exact h.isOpen (Or.inl (Bool.not_eq_false _ ▸ hyes)) hclosed
        refine ⟨(hasFlag_clearResponse s.chn).trans hno.symm,
          (hasFlag_clearResponse_required s.chn).trans h.required, rfl, rfl, h.reader, fun _ => ?_⟩
        exact Int.ne_of_gt hfd
      · exact ⟨rfl, h.required, rfl, rfl, h.reader, fun hn => h.isOpen (Or.inl hn)⟩
    rw [hchn, hevents]
    refine ⟨⟨hreader, hreq, ?_, ?_, ?_, ?_, ?_, ?_⟩, congrArg Buffer.data htx, hneeds⟩
    · rw [htx]
      exact h.txsize
    · rw [hrx]
      exact h.rxsize
    · rw [hrx]
      exact h.rxnil
    · rintro (hn | hout)
      · exact hopen (hneeds ▸ hn)
      · by_cases ho : channelIsOpen chn = true
        · exact bne_iff_ne.mp ho
        · rw [if_neg ho] at hout
          cases hout
    · intro hin
      split at hin
      · simpa [channelNeedsReading, channelHasReader, hreader] using hin
      · cases hin
    · intro hout
      split at hout
      · simp only [channelNeedsWriting, Bool.not_eq_true', Bool.or_eq_false_iff] at hout
        refine ⟨hout.2, ?_⟩
        simpa [bufferIsEmpty, bufferAvailable] using hout.1
      · cases hout

theorem step_written (h : Stands s) (hstep : step auth s .written = some (s', sent)) :
    Stands s' ∧ s'.chn.txbuf.data = [] ∧ sent = s.chn.txbuf.data ∧
      hasFlag s.chn flagNeedsResp = false ∧ hasFlag s'.chn flagNeedsResp = true := by
  simp only [step] at hstep
  split at hstep
  case isFalse => cases hstep
  case isTrue hout =>
    obtain ⟨hno, hdata⟩ := h.pollout hout.1
    obtain ⟨hneeds, hreq⟩ := hasFlag_needsResp s.chn
    rw [pollerChannelEvents_written hdata h.required] at hstep
    simp only [Option.some.injEq, Prod.mk.injEq] at hstep
    obtain ⟨rfl, rfl⟩ := hstep
    refine ⟨⟨h.reader, hreq.trans h.required, h.txsize, h.rxsize, h.rxnil,
      fun _ => h.isOpen (Or.inr hout.1), fun hin => ?_, fun hout' => ?_⟩, rfl, rfl, hno, hneeds⟩
    · cases hin
    · cases hout'

theorem step_response (h : Stands s) {bytes : List Byte}
    (hstep : step auth s (.response bytes) = some (s', sent)) :
    Stands s' ∧ s'.chn.txbuf.data = [] ∧ sent = [] ∧
      hasFlag s.chn flagNeedsResp = true ∧ hasFlag s'.chn flagNeedsResp = false := by
  simp only [step] at hstep
  split at hstep
  case isFalse => cases hstep
  case isTrue hin =>
    obtain ⟨hin, hlisten, hbytes⟩ := hin
    have hroom : s.chn.rxbuf.data.length < s.chn.rxbuf.size := by
      rw [h.rxnil, h.rxsize]
      decide
    obtain ⟨rxbuf, hsize, hevents⟩ := pollerChannelEvents_response hbytes
      (Bool.not_eq_true _ ▸ hlisten) h.reader hroom
    rw [hevents] at hstep
    simp only [Option.some.injEq, Prod.mk.injEq] at hstep
    obtain ⟨rfl, rfl⟩ := hstep
    have hflags : ∀ flag, hasFlag (channelClose true
        { channelClearResponse s.chn with rxbuf := rxbuf }) flag =
          hasFlag (channelClearResponse s.chn) flag := by
      intro flag
      unfold hasFlag
      rw [channelClose_flags]
    have hno := (hflags flagNeedsResp).trans (hasFlag_clearResponse s.chn)
    refine ⟨⟨?_, ?_, ?_, ?_, ?_, ?_, fun hin' => ?_, fun hout => ?_⟩, ?_, rfl, h.pollin hin, hno⟩
    · rw [channelClose_reader]
      exact h.reader
    · rw [hflags, hasFlag_clearResponse_required]
      exact h.required
    · rw [channelClose_txbuf]
      exact h.txsize
    · rw [channelClose_rxbuf]
      exact hsize.trans h.rxsize
    · rw [channelClose_rxbuf]
      rfl
    · rintro (hneeds | hout)
      · exact absurd (hno.symm.trans hneeds) (by decide)
      · cases hout
    · cases hin'
    · cases hout
    · rw [channelClose_txbuf]
      rfl

/-! ## Which runs lose no request -/

/-- Between two steps: a request that waits for a response is lost with the response, and so is one
that is submitted while the response is outstanding. -/
theorem keeps_iff : ∀ {steps : List Step} {s : Polled}, Stands s → Runs auth s steps →
    (KeepsRequests auth s steps ↔
      (hasFlag s.chn flagNeedsResp = true → s.chn.txbuf.data ≠ [] →
        ∀ bytes, .response bytes ∉ steps) ∧
      WaitsForResponse (hasFlag s.chn flagNeedsResp) steps)
  | [], _, _, _ => by simp [KeepsRequests, WaitsForResponse]
  | a :: steps, s, h, hruns => by
    obtain ⟨s', sent, hstep, hrest⟩ := hruns
    have hkeeps : KeepsRequests auth s (a :: steps) ↔
        KeepsRequest s a s' sent ∧ KeepsRequests auth s' steps := by
      simp only [KeepsRequests, hstep, Option.some.injEq, Prod.mk.injEq]
      constructor
      · intro hall
        exact hall s' sent ⟨rfl, rfl⟩
      · rintro hone _ _ ⟨rfl, rfl⟩
        exact hone
    rw [hkeeps]
    cases a with
    | submit pkt =>
      obtain ⟨h', hne, hneeds⟩ := step_submit h pkt hstep
      have hkept : KeepsRequest s (.submit pkt) s' sent := fun _ => Or.inr (Or.inr ⟨pkt, rfl⟩)
      rw [keeps_iff h' hrest, hneeds, and_iff_right hkept]
      simp only [WaitsForResponse, List.mem_cons, reduceCtorEq, false_or]
      constructor
      · rintro ⟨hwait, hsteps⟩
        exact ⟨fun hn _ => hwait hn hne, fun hn => hwait hn hne, hsteps⟩
      · rintro ⟨-, hwait, hsteps⟩
        exact ⟨fun hn _ => hwait hn, hsteps⟩
    | register fd =>
      obtain ⟨h', hdata, hneeds⟩ := step_register h fd hstep
      have hkept : KeepsRequest s (.register fd) s' sent := fun _ => Or.inl hdata
      rw [keeps_iff h' hrest, hneeds, hdata, and_iff_right hkept]
      simp only [WaitsForResponse, List.mem_cons, reduceCtorEq, false_or]
    | written =>
      obtain ⟨h', hnil, hsent, hno, hneeds⟩ := step_written h hstep
      have hkept : KeepsRequest s .written s' sent := fun _ => Or.inr (Or.inl hsent)
      rw [keeps_iff h' hrest, hneeds, hno, and_iff_right hkept]
      simp [WaitsForResponse, hnil]
    | response bytes =>
      obtain ⟨h', hnil, hsent, hneeds, hno⟩ := step_response h hstep
      have hlost : KeepsRequest s (.response bytes) s' sent ↔ s.chn.txbuf.data = [] := by
        simp only [KeepsRequest, hnil, hsent, reduceCtorEq, exists_false, or_false]
        constructor
        · intro hkept
          by_contra hne
          exact hne ((hkept hne).elim Eq.symm Eq.symm)
        · intro hd hne
          exact absurd hd hne
      rw [keeps_iff h' hrest, hno, hlost, hneeds]
      simp only [WaitsForResponse, Bool.false_eq_true, false_implies, true_and, true_implies]
      refine and_congr_left fun _ => ?_
      constructor
      · intro hd hne
        exact absurd hd hne
      · intro hwait
        by_contra hne
        exact hwait hne bytes List.mem_cons_self

/-- **Requests are kept** exactly in the runs that submit none after a write whose response is still
to come. -/
theorem keepsRequests_iff (auth : Option (List Byte)) (name : List Char) (flags : BitVec 32)
    (steps : List Step) (hreq : flags &&& flagRespRequired ≠ 0) (hresp : flags &&& flagNeedsResp = 0)
    (hruns : Runs auth (start name flags) steps) :
    KeepsRequests auth (start name flags) steps ↔ WaitsForResponse false steps := by
  have hneeds : hasFlag (start name flags).chn flagNeedsResp = false := by
    simp [hasFlag, start, channelInit, hresp]
  rw [keeps_iff (stands_start hreq hresp) hruns, hneeds]
  simp

/-- Two requests, the second while the response to the first is outstanding. -/
def twoRequests : List Step :=
  [.submit ⟨1, ccPanLeft, 1024, 0, 0, ⟨0, 0⟩⟩, .register 3, .written, .register 3,
    .submit ⟨1, 0, 0, 0, 0, ⟨0, 0⟩⟩, .response (ascii "HTTP/1.0 200 OK")]

theorem runs_twoRequests : Runs none (start "axis.example.com".toList (flagTcp ||| flagRespRequired))
    twoRequests :=
  ⟨_, _, rfl, _, _, rfl, _, _, rfl, _, _, rfl, _, _, rfl, _, _, rfl, trivial⟩

theorem keepsRequests_iff_two :
    KeepsRequests none (start "axis.example.com".toList (flagTcp ||| flagRespRequired)) twoRequests ↔
      WaitsForResponse false twoRequests :=
  keepsRequests_iff none _ _ twoRequests (by decide) (by decide) runs_twoRequests

/-- A second request, submitted before the camera has answered the first, is lost. -/
theorem not_keepsRequests : ¬∀ (auth : Option (List Byte)) (name : List Char) (flags : BitVec 32)
    (steps : List Step), flags &&& flagRespRequired ≠ 0 → flags &&& flagNeedsResp = 0 →
      Runs auth (start name flags) steps → KeepsRequests auth (start name flags) steps := by
  intro hall
  have hkeeps := hall none "axis.example.com".toList (flagTcp ||| flagRespRequired) twoRequests
    (by decide) (by decide) runs_twoRequests
  rw [keeps_iff (stands_start (by decide) (by decide)) runs_twoRequests] at hkeeps
  have hneeds : hasFlag (start "axis.example.com".toList (flagTcp ||| flagRespRequired)).chn
      flagNeedsResp = false := by decide
  rw [hneeds] at hkeeps
  simp [twoRequests, WaitsForResponse] at hkeeps

end Protozoa.Axis
