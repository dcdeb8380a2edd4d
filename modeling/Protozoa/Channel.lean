import Protozoa.Buffer

/-!
# I/O channels (`channel.c`) and what the poller does with one (`poller.c`)

Model of `struct channel` (`channel.h:16-29`) as the poller sees it. System calls are no functions
of the program: a function that makes one takes its outcome as an argument (the file descriptor it
gets, the bytes that are ready, how many bytes the socket takes), and `none` is an error. What
`getaddrinfo`, `socket`, `connect`, `bind`, `listen` and the options of a socket or serial port do
together (`channel.c:118-381`) is one outcome: the file descriptor they leave and whether they
succeed.

* `channelOpen`, `channelClose` (`channel.c:458-498`): closing a channel clears both its buffers.
* `channelRead` (`channel.c:602-627`) accepts on a channel that listens, passes what it reads to the
  reader, and, without one, takes what it reads for a response. `channelWrite` (`channel.c:634-643`)
  sets `FLAG_NEEDS_RESP` before it writes.
* `pollerRegisterChannel` (`poller.c:84-102`) opens a channel that is waiting, and says what it is
  polled for; `pollerChannelEvents` (`poller.c:165-188`) serves what `poll` has found.

The reader of a channel is what its `do_read` leaves of the receive buffer.

Out of scope here: the descriptors that are opened and closed (`Descriptors/Calls.lean`), a reader
that passes packets on (`Program.lean`), and logging (`channel.c:32-34`, `561-595`).
-/

namespace Protozoa

def flagUdp : BitVec 32 := 0x1
def flagTcp : BitVec 32 := 0x2
def flagListen : BitVec 32 := 0x4
def flagRespRequired : BitVec 32 := 0x8
def flagNeedsResp : BitVec 32 := 0x10

/-- `struct channel`. -/
structure Channel where
  name : List Char
  sfd : Int
  fd : Int
  flags : BitVec 32
  rxbuf : Buffer
  txbuf : Buffer
  reader : Option (Buffer → Buffer)

/-- `chn->flags & flag`. -/
def hasFlag (chn : Channel) (flag : BitVec 32) : Bool := chn.flags &&& flag != 0

/-- `channel_init`. -/
def channelInit (name : List Char) (flags : BitVec 32) : Channel where
  name := name
  sfd := 0
  fd := 0
  flags := flags
  rxbuf := bufferInit bufferSize
  txbuf := bufferInit bufferSize
  reader := none

/-- `channel_is_sport`. -/
def channelIsSport (chn : Channel) : Bool := chn.name.head? == some '/'

/-- `channel_is_localhost`. -/
def channelIsLocalhost (chn : Channel) : Bool :=
  "localhost".toList.isPrefixOf chn.name || "0.0.0.0".toList.isPrefixOf chn.name

/-- `channel_should_listen`. -/
def channelShouldListen (chn : Channel) : Bool := hasFlag chn flagListen && channelIsLocalhost chn

/-- `channel_clear_response`. -/
def channelClearResponse (chn : Channel) : Channel :=
  { chn with flags := chn.flags &&& (chn.flags ^^^ flagNeedsResp) }

/-- `channel_is_open`. -/
def channelIsOpen (chn : Channel) : Bool := chn.fd != 0

/-- `channel_close`, when `close` succeeds or not. -/
def channelClose (closes : Bool) (chn : Channel) : Channel :=
  let chn := { chn with rxbuf := bufferClear chn.rxbuf, txbuf := bufferClear chn.txbuf }
  if chn.fd < 0 then { chn with fd := 0 }
  else if channelIsOpen chn then
    if closes then { chn with fd := chn.sfd } else { chn with fd := 0 }
  else chn

/-- `channel_open`, when the system calls leave `fd` and succeed or not: of the ways to open a
channel, only `channel_listen_tcp` keeps the file descriptor to accept on. -/
def channelOpen (chn : Channel) (fd : Int) (succeeds : Bool) : Channel :=
  let chn := channelClearResponse chn
  let chn := { chn with fd := fd }
  if succeeds then
    if !channelIsSport chn && !hasFlag chn flagUdp && channelShouldListen chn then
      { chn with sfd := chn.fd }
    else chn
  else channelClose true chn

/-- `channel_has_reader`. -/
def channelHasReader (chn : Channel) : Bool := chn.reader.isSome

/-- `channel_needs_reading`. -/
def channelNeedsReading (chn : Channel) : Bool := channelHasReader chn || hasFlag chn flagNeedsResp

/-- `channel_needs_writing`. -/
def channelNeedsWriting (chn : Channel) : Bool :=
  !(bufferIsEmpty chn.txbuf || hasFlag chn flagNeedsResp)

/-- `channel_is_waiting`. -/
def channelIsWaiting (chn : Channel) : Bool := !bufferIsEmpty chn.txbuf || channelHasReader chn

/-- `channel_is_listening`. -/
def channelIsListening (chn : Channel) : Bool := chn.sfd == chn.fd

/-- What a read of the file descriptor finds: a client that connects, or bytes. -/
inductive Incoming where
  | client (fd : Option Int)
  | bytes (ready : Option (List Byte))

/-- `channel_accept`. -/
def channelAccept (chn : Channel) : Incoming → Int × Channel
  | .client (some fd) => (0, { chn with fd := fd })
  | _ => (-1, chn)

/-- `channel_read`, with what it returns: the number of bytes, `-1` for an error. -/
def channelRead (chn : Channel) (incoming : Incoming) : Int × Channel :=
  if channelIsListening chn then
    let (r, chn) := channelAccept chn incoming
    (if r < 0 then -1 else 1, chn)
  else
    match incoming with
    | .bytes (some ready) =>
      match bufferRead chn.rxbuf ready with
      | none => (-1, chn)
      | some (rxbuf, rest) =>
        let nBytes : Int := (ready.length - rest.length : Nat)
        let chn := { chn with rxbuf := rxbuf }
        if nBytes ≤ 0 then (nBytes, chn)
        else
          let chn := channelClearResponse chn
          match chn.reader with
          | some doRead => (nBytes, { chn with rxbuf := doRead chn.rxbuf })
          | none => (0, { chn with rxbuf := bufferClear chn.rxbuf })
    | _ => (-1, chn)

/-- `channel_write`, with what it returns and the bytes that are sent. -/
def channelWrite (chn : Channel) (taken : Option Nat) : Int × Channel × List Byte :=
  let chn := if hasFlag chn flagRespRequired then { chn with flags := chn.flags ||| flagNeedsResp }
    else chn
  match taken.bind (bufferWrite chn.txbuf) with
  | none => (-1, chn, [])
  | some (txbuf, sent) => (sent.length, { chn with txbuf := txbuf }, sent)

/-! ## The flag for a response -/

@[simp] theorem hasFlag_clearResponse (chn : Channel) :
    hasFlag (channelClearResponse chn) flagNeedsResp = false := by
  have hbits : chn.flags &&& (chn.flags ^^^ flagNeedsResp) &&& flagNeedsResp = 0#32 := by
    ext i hi
    simp only [BitVec.getElem_and, BitVec.getElem_xor, BitVec.getElem_zero]
    cases chn.flags[i] <;> cases flagNeedsResp[i] <;> rfl
  simp [hasFlag, channelClearResponse, hbits]

/-- Other flags stay. -/
theorem hasFlag_clearResponse_other {flag : BitVec 32} (h : flagNeedsResp &&& flag = 0) (chn : Channel) :
    hasFlag (channelClearResponse chn) flag = hasFlag chn flag := by
  have hbits : chn.flags &&& (chn.flags ^^^ flagNeedsResp) &&& flag = chn.flags &&& flag := by
    ext i hi
    have hi' := congrArg (fun b : BitVec 32 => b[i]) h
    simp only [BitVec.getElem_and, BitVec.getElem_xor] at hi' ⊢
    have hzero : (0 : BitVec 32)[i] = false := BitVec.getElem_zero hi
    rw [hzero] at hi'
    revert hi'
    cases chn.flags[i] <;> cases flagNeedsResp[i] <;> cases flag[i] <;> simp
  simp [hasFlag, channelClearResponse, hbits]

@[simp] theorem hasFlag_clearResponse_required (chn : Channel) :
    hasFlag (channelClearResponse chn) flagRespRequired = hasFlag chn flagRespRequired :=
  hasFlag_clearResponse_other (by decide) chn

/-- A write for which a response is required. -/
theorem hasFlag_needsResp (chn : Channel) :
    hasFlag { chn with flags := chn.flags ||| flagNeedsResp } flagNeedsResp = true ∧
      hasFlag { chn with flags := chn.flags ||| flagNeedsResp } flagRespRequired =
        hasFlag chn flagRespRequired := by
  have hother : flagNeedsResp &&& flagRespRequired = 0#32 := by decide
  have hset : (chn.flags ||| flagNeedsResp) &&& flagNeedsResp = flagNeedsResp := by
    ext i hi
    simp only [BitVec.getElem_and, BitVec.getElem_or]
    cases chn.flags[i] <;> cases flagNeedsResp[i] <;> rfl
  have hkept : (chn.flags ||| flagNeedsResp) &&& flagRespRequired = chn.flags &&& flagRespRequired := by
    rw [BitVec.and_or_distrib_right, hother, BitVec.or_zero]
  simp only [hasFlag, hset, hkept]
  exact ⟨by decide, trivial⟩

@[simp] theorem channelClose_flags (closes : Bool) (chn : Channel) :
    (channelClose closes chn).flags = chn.flags := by
  simp only [channelClose]
  split_ifs <;> rfl

@[simp] theorem channelClose_txbuf (closes : Bool) (chn : Channel) :
    (channelClose closes chn).txbuf = bufferClear chn.txbuf := by
  simp only [channelClose]
  split_ifs <;> rfl

@[simp] theorem channelClose_rxbuf (closes : Bool) (chn : Channel) :
    (channelClose closes chn).rxbuf = bufferClear chn.rxbuf := by
  simp only [channelClose]
  split_ifs <;> rfl

@[simp] theorem channelClose_reader (closes : Bool) (chn : Channel) :
    (channelClose closes chn).reader = chn.reader := by
  simp only [channelClose]
  split_ifs <;> rfl

/-- A channel that is opened keeps its buffers, and waits for no response. -/
theorem channelOpen_spec (chn : Channel) (fd : Int) :
    ∃ sfd, channelOpen chn fd true = { channelClearResponse chn with fd := fd, sfd := sfd } := by
  simp only [channelOpen, if_true]
  split_ifs
  · exact ⟨fd, rfl⟩
  · exact ⟨chn.sfd, rfl⟩

/-! ## The poller -/

/-- The events of a `struct pollfd`; `POLLHUP` stands for `POLLERR` too, and is always polled for.
-/
structure PollEvents where
  pollhup : Bool
  pollin : Bool
  pollout : Bool
  deriving DecidableEq

/-- No events. -/
def pollNothing : PollEvents := ⟨false, false, false⟩

/-- `poller_register_channel`, with the outcome of `channel_open`. -/
def pollerRegisterChannel (chn : Channel) (fd : Int) (succeeds : Bool) : Channel × PollEvents :=
  let chn := if !channelIsOpen chn && channelIsWaiting chn then channelOpen chn fd succeeds else chn
  (chn, if channelIsOpen chn then ⟨true, channelNeedsReading chn, channelNeedsWriting chn⟩
    else pollNothing)

/-- Registering a channel opens it or leaves it alone. -/
theorem pollerRegisterChannel_cases (chn : Channel) (fd : Int) :
    ∃ chn', (pollerRegisterChannel chn fd true).1 = chn' ∧
      ((chn.fd = 0 ∧ ∃ sfd, chn' = { channelClearResponse chn with fd := fd, sfd := sfd }) ∨
        chn' = chn) ∧
      (pollerRegisterChannel chn fd true).2 =
        if channelIsOpen chn' then ⟨true, channelNeedsReading chn', channelNeedsWriting chn'⟩
        else pollNothing := by
  refine ⟨_, rfl, ?_, rfl⟩
  simp only [pollerRegisterChannel]
  split
  · rename_i hopen
    simp only [channelIsOpen, Bool.and_eq_true, Bool.not_eq_true', bne_eq_false_iff_eq] at hopen
    exact Or.inl ⟨hopen.1, channelOpen_spec chn fd⟩
  · exact Or.inr rfl

/-- `poller_channel_events`, with the bytes that are sent. Here `close` succeeds; in `Program` and
in `Descriptors` it may fail (`Program.Service.closes`, `Descriptors.Closing`). -/
def pollerChannelEvents (chn : Channel) (revents : PollEvents) (taken : Option Nat)
    (incoming : Incoming) : Channel × List Byte :=
  if revents.pollhup then (channelClose true chn, [])
  else
    let (n, chn, sent) := if revents.pollout then channelWrite chn taken else (0, chn, [])
    if n < 0 then (channelClose true chn, sent)
    else if revents.pollin then
      let (n, chn) := channelRead chn incoming
      if n ≤ 0 then (channelClose true chn, sent) else (chn, sent)
    else (chn, sent)

/-- The socket takes all there is. -/
theorem pollerChannelEvents_written {chn : Channel} (hdata : chn.txbuf.data ≠ [])
    (hreq : hasFlag chn flagRespRequired = true) :
    pollerChannelEvents chn ⟨false, false, true⟩ (some (bufferAvailable chn.txbuf)) (.bytes none) =
      ({ chn with flags := chn.flags ||| flagNeedsResp, txbuf := bufferClear chn.txbuf },
        chn.txbuf.data) := by
  have hwrite := bufferWrite_all hdata
  have hlen : ¬(chn.txbuf.data.length : Int) < 0 := by omega
  simp [pollerChannelEvents, channelWrite, hreq, hwrite, hlen]

theorem channelRead_ignored {chn : Channel} {bytes : List Byte} (hbytes : bytes ≠ [])
    (hlisten : channelIsListening chn = false) (hreader : chn.reader = none)
    (hroom : chn.rxbuf.data.length < chn.rxbuf.size) :
    ∃ rxbuf : Buffer, rxbuf.size = chn.rxbuf.size ∧ rxbuf.data = [] ∧
      channelRead chn (.bytes (some bytes)) =
        (0, { channelClearResponse chn with rxbuf := rxbuf }) := by
  obtain ⟨rxbuf, taken, rest, hread, hsplit, -, hsize, htaken⟩ :=
    @bufferRead_spec chn.rxbuf bytes hroom
  have hcount : ¬((bytes.length - rest.length : Nat) : Int) ≤ 0 := by
    have hpos := List.length_pos_of_ne_nil (htaken hbytes)
    rw [hsplit, List.length_append]
    omega
  refine ⟨bufferClear rxbuf, hsize, rfl, ?_⟩
  unfold channelRead
  rw [hlisten, if_neg (by decide)]
  simp only [hread, if_neg hcount, channelClearResponse, hreader]

/-- **A response that nobody reads** closes the channel. -/
theorem pollerChannelEvents_response {chn : Channel} {bytes : List Byte} (hbytes : bytes ≠ [])
    (hlisten : channelIsListening chn = false) (hreader : chn.reader = none)
    (hroom : chn.rxbuf.data.length < chn.rxbuf.size) :
    ∃ rxbuf : Buffer, rxbuf.size = chn.rxbuf.size ∧
      pollerChannelEvents chn ⟨false, true, false⟩ none (.bytes (some bytes)) =
        (channelClose true { channelClearResponse chn with rxbuf := rxbuf }, []) := by
  obtain ⟨rxbuf, hsize, -, hread⟩ := channelRead_ignored hbytes hlisten hreader hroom
  refine ⟨rxbuf, hsize, ?_⟩
  simp [pollerChannelEvents, hread]

end Protozoa
