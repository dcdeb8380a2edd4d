import Protozoa.Channel
import Protozoa.Lib.Ledger

/-!
# The descriptors of a channel (`channel.c`, `poller.c`)

The functions of `Channel` again, with every system call that opens or closes a descriptor, and a
ledger of what has been opened and closed (`Lib/Ledger.lean`). A channel has up to two descriptors:
`sfd` is kept to accept on, and `fd` is either the same one or a client.

* `openAddrs`, `channelOpenBind` (`channel.c:243-279`) and `channelOpenConnect`
  (`channel.c:286-324`) go through the addresses that `getaddrinfo` has found, and close the
  descriptor of one that does not work.
* `channelListenTcp` (`channel.c:369-381`) takes the descriptor as `sfd` too; `channelClose`
  (`channel.c:478-498`) closes `fd` and, of a channel that listens, leaves the number in both
  fields.
* `channelRead` (`channel.c:602-627`) accepts a client (`channel.c:388-397`); when that fails, the
  poller closes the channel (`poller.c:165-188`).
* `Turn` is what the system does while the poller registers a channel and serves it
  (`poller.c:84-102`, `165-188`); `runTurns` is any number of them, and `visited` the states in
  between.

**`runTurns_simulates`**: without the ledger, a run of turns is one of the functions of `Channel`
(`ChannelTurns`), so that what is proved of either holds of the other.

Out of scope: descriptors of poller, timer and configuration file (`Program/Reload.lean`).
-/

namespace Protozoa.Descriptors

open Lib.Ledger

/-- A channel, and what has happened to its descriptors. -/
structure FdChannel where
  chn : Channel
  ledger : List (Entry Int)

/-- The system has given the channel a descriptor. -/
def FdChannel.open (st : FdChannel) (fd : Int) : FdChannel := { st with ledger := st.ledger ++ [.opened fd] }

/-- The outcome of `close`: after an error the descriptor may be gone, or not. -/
inductive Closing where
  | succeeds
  | fails (released : Bool)

/-- `close` does not return `-1`. -/
def Closing.ok : Closing → Bool
  | .succeeds => true
  | .fails _ => false

/-- The descriptor is closed. -/
def Closing.releases : Closing → Bool
  | .succeeds => true
  | .fails released => released

/-- `channel_close`. -/
def channelClose (closing : Closing) (st : FdChannel) : FdChannel where
  chn := Protozoa.channelClose closing.ok st.chn
  ledger :=
    if ¬st.chn.fd < 0 ∧ channelIsOpen st.chn ∧ closing.releases then st.ledger ++ [.closed st.chn.fd]
    else st.ledger

/-- The outcome of `socket`, and of `channel_config_socket` and of `bind` or `connect`, for one
address. -/
structure AddrOutcome where
  socket : Option Int
  configured : Bool
  connected : Bool

/-- The outcomes of the system calls in `channel_open`; `addrs` is what `getaddrinfo` gives. -/
structure Opening where
  sport : Option Int
  configured : Bool
  addrs : Option (List AddrOutcome)
  listens : Bool
  closing : Closing

/-- `for(ai = rai; ai; ai = ai->ai_next) { … }` of `channel_open_bind` and `channel_open_connect`.
-/
def openAddrs : List AddrOutcome → FdChannel → Bool × FdChannel
  | [], st => (false, st)
  | ai :: addrs, st =>
    match ai.socket with
    | none => openAddrs addrs { st with chn := { st.chn with fd := -1 } }
    | some fd => (ai.configured && ai.connected, ({ st with chn := { st.chn with fd := fd } }).open fd)

/-- `channel_open_bind`: whether it returns 0. -/
def channelOpenBind (o : Opening) (st : FdChannel) : Bool × FdChannel :=
  match o.addrs with
  | none => (false, st)
  | some addrs => openAddrs addrs st

/-- `channel_open_connect`. -/
def channelOpenConnect (o : Opening) (st : FdChannel) : Bool × FdChannel :=
  match o.addrs with
  | none => (false, st)
  | some addrs => openAddrs addrs st

/-- `channel_open_sport`; `open` is called again after `EINTR`. -/
def channelOpenSport (o : Opening) (st : FdChannel) : FdChannel :=
  match o.sport with
  | none => channelClose o.closing { st with chn := { st.chn with fd := -1 } }
  | some fd =>
    let st := ({ st with chn := { st.chn with fd := fd } }).open fd
    if o.configured then st else channelClose o.closing st

/-- `channel_bind_udp`. -/
def channelBindUdp (o : Opening) (st : FdChannel) : FdChannel :=
  let (ok, st) := channelOpenBind o st
  if ok then st else channelClose o.closing st

/-- `channel_connect_udp`. -/
def channelConnectUdp (o : Opening) (st : FdChannel) : FdChannel :=
  let (ok, st) := channelOpenConnect o st
  if ok then st else channelClose o.closing st

/-- `channel_open_udp`. -/
def channelOpenUdp (o : Opening) (st : FdChannel) : FdChannel :=
  if hasFlag st.chn flagListen then channelBindUdp o st else channelConnectUdp o st

/-- `channel_listen_tcp`. -/
def channelListenTcp (o : Opening) (st : FdChannel) : FdChannel :=
  let (ok, st) := channelOpenBind o st
  if ok && o.listens then { st with chn := { st.chn with sfd := st.chn.fd } }
  else channelClose o.closing st

/-- `channel_connect_tcp`. -/
def channelConnectTcp (o : Opening) (st : FdChannel) : FdChannel :=
  let (ok, st) := channelOpenConnect o st
  if ok then st else channelClose o.closing st

/-- `channel_open_tcp`. -/
def channelOpenTcp (o : Opening) (st : FdChannel) : FdChannel :=
  if channelShouldListen st.chn then channelListenTcp o st else channelConnectTcp o st

/-- `channel_open`. -/
def channelOpen (o : Opening) (st : FdChannel) : FdChannel :=
  let st := { st with chn := channelClearResponse st.chn }
  if channelIsSport st.chn then channelOpenSport o st
  else if hasFlag st.chn flagUdp then channelOpenUdp o st
  else channelOpenTcp o st

/-- `channel_read`. -/
def channelRead (incoming : Incoming) (st : FdChannel) : Int × FdChannel :=
  let (n, chn) := Protozoa.channelRead st.chn incoming
  let st' := { st with chn := chn }
  match channelIsListening st.chn, incoming with
  | true, .client (some fd) => (n, st'.open fd)
  | _, _ => (n, st')

/-- `channel_write`. -/
def channelWrite (taken : Option Nat) (st : FdChannel) : Int × FdChannel :=
  let (n, chn, _) := Protozoa.channelWrite st.chn taken
  (n, { st with chn := chn })

/-- `channel_destroy`, as far as descriptors go. -/
def channelDestroy (closing : Closing) (st : FdChannel) : FdChannel := channelClose closing st

/-! ## The poller -/

/-- One turn of the loop of the poller, as one channel sees it: what the writers have left in its
transmit buffer, the outcomes of the system calls, and the events that `poll` would report if it was
asked for all of them. -/
structure Turn where
  txbuf : Buffer
  opening : Opening
  reported : PollEvents
  taken : Option Nat
  incoming : Incoming
  closing : Closing

/-- `poller_register_channel`: the channel. -/
def pollerRegisterChannel (t : Turn) (st : FdChannel) : FdChannel :=
  let st := { st with chn := { st.chn with txbuf := t.txbuf } }
  if !channelIsOpen st.chn && channelIsWaiting st.chn then channelOpen t.opening st else st

/-- What `poll` reports: `POLLIN` and `POLLOUT` only where `poller_register_channel` has asked for
them. -/
def revents (t : Turn) (chn : Channel) : PollEvents :=
  let events := if channelIsOpen chn then ⟨true, channelNeedsReading chn, channelNeedsWriting chn⟩
    else pollNothing
  ⟨t.reported.pollhup, events.pollin && t.reported.pollin, events.pollout && t.reported.pollout⟩

/-- `poller_channel_events`: the states after its calls. -/
def pollerChannelEvents (t : Turn) (st : FdChannel) : List FdChannel :=
  let revents := revents t st.chn
  if revents.pollhup then [channelClose t.closing st]
  else
    let (n, st) := if revents.pollout then channelWrite t.taken st else (0, st)
    if n < 0 then [st, channelClose t.closing st]
    else if revents.pollin then
      let (n, st') := channelRead t.incoming st
      if n ≤ 0 then [st, st', channelClose t.closing st'] else [st, st']
    else [st]

/-- The states after the calls of one turn. -/
def turn (t : Turn) (st : FdChannel) : List FdChannel :=
  let st := pollerRegisterChannel t st
  st :: pollerChannelEvents t st

/-- The state at the end of a turn. -/
def turnEnd (t : Turn) (st : FdChannel) : FdChannel := (turn t st).getLastD st

/-- The state after some turns. -/
def runTurns (ts : List Turn) (st : FdChannel) : FdChannel := ts.foldl (fun st t => turnEnd t st) st

/-- The states after all calls of some turns. -/
def visited : List Turn → FdChannel → List FdChannel
  | [], _ => []
  | t :: ts, st => turn t st ++ visited ts (turnEnd t st)

/-- A channel that has just been initialized, and given a reader or not. -/
def start (name : List Char) (flags : BitVec 32) (reader : Option (Buffer → Buffer)) : FdChannel :=
  ⟨{ channelInit name flags with reader := reader }, []⟩

/-! ## The events of one turn -/

/-- The states of `poller_channel_events` from `POLLIN` on. -/
def pollinStates (t : Turn) (pollin : Bool) (st : FdChannel) : List FdChannel :=
  if pollin then
    if (channelRead t.incoming st).1 ≤ 0 then
      [st, (channelRead t.incoming st).2, channelClose t.closing (channelRead t.incoming st).2]
    else [st, (channelRead t.incoming st).2]
  else [st]

/-- What `poller_channel_events` does, by what is reported. -/
inductive Handles (t : Turn) (st : FdChannel) : List FdChannel → Prop
  | hangup (hhup : (revents t st.chn).pollhup = true) : Handles t st [channelClose t.closing st]
  | unwritten (hhup : (revents t st.chn).pollhup = false) (hout : (revents t st.chn).pollout = true)
      (hneg : (channelWrite t.taken st).1 < 0) :
      Handles t st [(channelWrite t.taken st).2, channelClose t.closing (channelWrite t.taken st).2]
  | written (hhup : (revents t st.chn).pollhup = false) (hout : (revents t st.chn).pollout = true)
      (hneg : ¬(channelWrite t.taken st).1 < 0) :
      Handles t st (pollinStates t (revents t st.chn).pollin (channelWrite t.taken st).2)
  | silent (hhup : (revents t st.chn).pollhup = false) (hout : (revents t st.chn).pollout = false) :
      Handles t st (pollinStates t (revents t st.chn).pollin st)

theorem pollerChannelEvents_handles (t : Turn) (st : FdChannel) :
    Handles t st (pollerChannelEvents t st) := by
  unfold pollerChannelEvents
  simp only
  cases hhup : (revents t st.chn).pollhup with
  | true => exact .hangup hhup
  | false =>
    cases hout : (revents t st.chn).pollout with
    | false => exact .silent hhup hout
    | true =>
      simp only [Bool.false_eq_true, if_false, if_true]
      by_cases hneg : (channelWrite t.taken st).1 < 0
      · rw [if_pos hneg]
        exact .unwritten hhup hout hneg
      · rw [if_neg hneg]
        exact .written hhup hout hneg

/-- A channel is only read from where it is open. -/
theorem fd_of_pollin {t : Turn} {chn : Channel} (hin : (revents t chn).pollin = true) : chn.fd ≠ 0 := by
  intro hfd
  have hclosed : channelIsOpen chn = false := bne_eq_false_iff_eq.mpr hfd
  simp [revents, hclosed, pollNothing] at hin

/-! ## Without the ledger -/

theorem channelClose_chn {closing : Closing} (h : closing = .succeeds) (st : FdChannel) :
    (channelClose closing st).chn = Protozoa.channelClose true st.chn := by
  rw [h]
  rfl

theorem channelRead_chn (incoming : Incoming) (st : FdChannel) :
    Protozoa.channelRead st.chn incoming = ((channelRead incoming st).1, (channelRead incoming st).2.chn) := by
  unfold channelRead
  simp only
  split <;> rfl

theorem openAddrs_chn : ∀ (addrs : List AddrOutcome) (st : FdChannel),
    ∃ fd, (openAddrs addrs st).2.chn = { st.chn with fd := fd }
  | [], st => ⟨st.chn.fd, rfl⟩
  | ai :: addrs, st => by
    unfold openAddrs
    cases ai.socket with
    | none => exact openAddrs_chn addrs { st with chn := { st.chn with fd := -1 } }
    | some fd => exact ⟨fd, rfl⟩

theorem channelOpenBind_chn (o : Opening) (st : FdChannel) :
    ∃ fd, (channelOpenBind o st).2.chn = { st.chn with fd := fd } := by
  unfold channelOpenBind
  cases o.addrs with
  | none => exact ⟨st.chn.fd, rfl⟩
  | some addrs => exact openAddrs_chn addrs st

/-- `channel_listen_tcp`, when `close` succeeds: the descriptor to accept on is the one that is
open. -/
theorem channelListenTcp_chn (o : Opening) (st : FdChannel) (hclose : o.closing = .succeeds)
    (hplain : (!channelIsSport st.chn && !hasFlag st.chn flagUdp && channelShouldListen st.chn) = true)
    {chn : Channel} (hchn : st.chn = channelClearResponse chn) :
    ∃ fd succeeds, (channelListenTcp o st).chn = Protozoa.channelOpen chn fd succeeds := by
  obtain ⟨fd, hopen⟩ := channelOpenBind_chn o st
  unfold channelListenTcp
  simp only
  by_cases hok : ((channelOpenBind o st).1 && o.listens) = true
  · refine ⟨fd, true, ?_⟩
    rw [if_pos hok]
    simp only [Protozoa.channelOpen, if_true]
    rw [hopen, ← hchn]
    exact (if_pos hplain).symm
  · refine ⟨fd, false, ?_⟩
    rw [if_neg hok, channelClose_chn hclose, hopen, hchn]
    rfl

/-- **`channel_open`**, when `close` succeeds. -/
theorem channelOpen_chn (o : Opening) (st : FdChannel) (hclose : o.closing = .succeeds) :
    ∃ fd succeeds, (channelOpen o st).chn = Protozoa.channelOpen st.chn fd succeeds := by
  set chn := channelClearResponse st.chn with hchn
  -- the channel that is opened or, if that fails, closed again
  have hout : ∀ (ok : Bool) (fd : Int) (st' : FdChannel), st'.chn = { chn with fd := fd } →
      (channelIsSport chn = true ∨ hasFlag chn flagUdp = true ∨ channelShouldListen chn = false) →
        ∃ fd succeeds, (if ok then st' else channelClose o.closing st').chn =
          Protozoa.channelOpen st.chn fd succeeds := by
    intro ok fd st' hst' hplain
    refine ⟨fd, ok, ?_⟩
    cases ok with
    | false => simp [channelClose, Protozoa.channelOpen, hst', hclose, hchn, Closing.ok]
    | true =>
      have hno : ¬(!channelIsSport chn && !hasFlag chn flagUdp && channelShouldListen chn) = true := by
        rcases hplain with h | h | h <;> simp [h]
      simp only [Protozoa.channelOpen, if_true]
      exact hst'.trans (if_neg hno).symm
  obtain ⟨fd, hopen⟩ := channelOpenBind_chn o { st with chn := chn }
  unfold channelOpen
  simp only [← hchn]
  by_cases hsport : channelIsSport chn = true
  · rw [if_pos hsport]
    unfold channelOpenSport
    cases o.sport with
    | none => exact hout false (-1) _ rfl (.inl hsport)
    | some fd => exact hout o.configured fd _ rfl (.inl hsport)
  rw [if_neg hsport]
  by_cases hudp : hasFlag chn flagUdp = true
  · rw [if_pos hudp]
    unfold channelOpenUdp
    split_ifs
    · exact hout _ fd _ hopen (.inr (.inl hudp))
    · exact hout _ fd _ hopen (.inr (.inl hudp))
  rw [if_neg hudp]
  unfold channelOpenTcp
  by_cases hlisten : channelShouldListen chn = true
  · rw [if_pos hlisten]
    exact channelListenTcp_chn o _ hclose (by simp [hsport, hudp, hlisten]) rfl
  · rw [if_neg hlisten]
    exact hout _ fd _ hopen (.inr (.inr (Bool.eq_false_iff.mpr hlisten)))

/-- **`poller_register_channel`**, when `close` succeeds. -/
theorem pollerRegisterChannel_chn (t : Turn) (st : FdChannel) (hclose : t.opening.closing = .succeeds) :
    ∃ fd succeeds, (pollerRegisterChannel t st).chn =
      (Protozoa.pollerRegisterChannel { st.chn with txbuf := t.txbuf } fd succeeds).1 := by
  set st₀ : FdChannel := { st with chn := { st.chn with txbuf := t.txbuf } } with hst₀
  obtain ⟨fd, succeeds, hopen⟩ := channelOpen_chn t.opening st₀ hclose
  refine ⟨fd, succeeds, ?_⟩
  unfold pollerRegisterChannel Protozoa.pollerRegisterChannel
  simp only [← hst₀]
  split_ifs
  · exact hopen
  · rfl

theorem pollinStates_chn (t : Turn) (pollin : Bool) (st d : FdChannel) (sent : List Byte)
    (hclose : t.closing = .succeeds) :
    ((pollinStates t pollin st).getLastD d).chn =
      (if pollin then
        let (n, chn) := Protozoa.channelRead st.chn t.incoming
        if n ≤ 0 then (Protozoa.channelClose true chn, sent) else (chn, sent)
      else (st.chn, sent)).1 := by
  unfold pollinStates
  rw [channelRead_chn]
  simp only
  split_ifs
  · exact channelClose_chn hclose _
  · rfl
  · rfl

/-- **`poller_channel_events`**, when `close` succeeds. -/
theorem pollerChannelEvents_chn (t : Turn) (st : FdChannel) (hclose : t.closing = .succeeds) :
    ((pollerChannelEvents t st).getLastD st).chn =
      (Protozoa.pollerChannelEvents st.chn (revents t st.chn) t.taken t.incoming).1 := by
  have hwrite : (channelWrite t.taken st).1 = (Protozoa.channelWrite st.chn t.taken).1 ∧
      (channelWrite t.taken st).2.chn = (Protozoa.channelWrite st.chn t.taken).2.1 := ⟨rfl, rfl⟩
  have hhandles := pollerChannelEvents_handles t st
  unfold Protozoa.pollerChannelEvents
  generalize pollerChannelEvents t st = states at hhandles
  cases hhandles with
  | hangup hhup =>
    rw [if_pos hhup]
    exact channelClose_chn hclose st
  | unwritten hhup hout hneg =>
    rw [hwrite.1] at hneg
    simp only [hhup, hout, Bool.false_eq_true, if_false, if_true, if_pos hneg]
    exact channelClose_chn hclose _
  | written hhup hout hneg =>
    rw [hwrite.1] at hneg
    simp only [hhup, hout, Bool.false_eq_true, if_false, if_true, if_neg hneg]
    exact pollinStates_chn t _ _ _ _ hclose
  | silent hhup hout =>
    simp only [hhup, hout, Bool.false_eq_true, if_false]
    exact pollinStates_chn t _ st _ [] hclose

/-- `close` always succeeds. -/
structure Turn.Closes (t : Turn) : Prop where
  opening : t.opening.closing = .succeeds
  closing : t.closing = .succeeds

/-- One turn of the loop of the poller, without the ledger. -/
def channelTurn (t : Turn) (fd : Int) (succeeds : Bool) (chn : Channel) : Channel :=
  let chn := (Protozoa.pollerRegisterChannel { chn with txbuf := t.txbuf } fd succeeds).1
  (Protozoa.pollerChannelEvents chn (revents t chn) t.taken t.incoming).1

/-- Some turns without the ledger, whatever comes of opening the channel. -/
inductive ChannelTurns : List Turn → Channel → Channel → Prop
  | nil {chn : Channel} : ChannelTurns [] chn chn
  | cons {t : Turn} {ts : List Turn} {chn chn' : Channel} (fd : Int) (succeeds : Bool)
      (h : ChannelTurns ts (channelTurn t fd succeeds chn) chn') : ChannelTurns (t :: ts) chn chn'

theorem turnEnd_chn {t : Turn} (ht : t.Closes) (st : FdChannel) :
    ∃ fd succeeds, (turnEnd t st).chn = channelTurn t fd succeeds st.chn := by
  obtain ⟨fd, succeeds, hregister⟩ := pollerRegisterChannel_chn t st ht.opening
  refine ⟨fd, succeeds, ?_⟩
  unfold turnEnd turn channelTurn
  rw [List.getLastD_cons, pollerChannelEvents_chn t _ ht.closing, hregister]

/-- **A run with the ledger** is a run of the channel, when `close` succeeds. -/
theorem runTurns_simulates {ts : List Turn} (hts : ∀ t ∈ ts, t.Closes) (st : FdChannel) :
    ChannelTurns ts st.chn (runTurns ts st).chn := by
  induction ts generalizing st with
  | nil => exact .nil
  | cons t ts ih =>
    obtain ⟨ht, hts⟩ := List.forall_mem_cons.mp hts
    obtain ⟨fd, succeeds, hturn⟩ := turnEnd_chn ht st
    exact .cons fd succeeds (hturn ▸ ih hts (turnEnd t st))

/-- A channel that listens on all addresses, with a reader. -/
def startListen : FdChannel := start "0.0.0.0".toList (flagTcp ||| flagListen) (some bufferClear)

/-- A turn in which a channel that is not open is opened, as descriptor 5, and something comes in.
-/
def turnIn (incoming : Incoming) : Turn where
  txbuf := bufferInit bufferSize
  opening := ⟨none, true, some [⟨some 5, true, true⟩], true, .succeeds⟩
  reported := ⟨false, true, false⟩
  taken := none
  incoming := incoming
  closing := .succeeds

/-- A client connects, and then goes. -/
def clientTurns : List Turn := [turnIn (.client (some 6)), turnIn (.bytes (some []))]

theorem runTurns_simulates_client : ChannelTurns clientTurns startListen.chn (runTurns clientTurns startListen).chn :=
  runTurns_simulates (by rintro t (_ | ⟨_, _ | ⟨_, ⟨⟩⟩⟩) <;> exact ⟨rfl, rfl⟩) startListen

end Protozoa.Descriptors
