import Protozoa.Config
import Protozoa.Engine.Isolation

/-!
# The program in its loop (`poller.c`, `channel.c`, `main.c`)

Everything at once: the channels with their readers, the writers with the engine behind them, and
the loop of the poller that serves the channels one after the other. What `Channel` does to one
channel is done here to the channel at an address, and `do_read` is that of the protocol of the
reader, with the writers of the engine behind its nodes (`engineSink`).

* `pollerRegisterEvents` (`poller.c:129-137`), `pollerChannelEvents` (`poller.c:165-188`),
  `pollerDeferEvents` (`poller.c:190-195`) and `pollerCheckConfig` (`poller.c:197-211`) are what a
  round is made of.
* `pollerDoPoll` (`poller.c:218-231`) is a round, and `pollerLoop` (`poller.c:238-248`) any number
  of them.
* `pollerInit` is the state in which the loop is entered, with the channels, readers and writers of
  a configuration (`channelsOf`, `writersOf`).

What the system does is an argument (`Service`, `Round`): the outcome of every system call, what
`poll` reports (no more than it is asked for) and when `SIGALRM` comes. A `close` that fails is
`closes = false` here.

`wire` is no data of the program: it keeps what the socket has taken since the channel was last
closed. `none` is a call of `do_read` through a null pointer, or a failed assertion.

Out of scope: `SIGALRM` in the middle of a function of the program (`timer_handler`,
`timer.c:28-32`, writes one byte); it comes between two of them.
-/

namespace Protozoa.Program

open Engine Protozoa.Configuration

/-- `struct poller`, with all that its channels lead to. -/
structure Poller where
  world : World Nat Nat
  readers : Nat → Option ConfReader
  pollfds : Nat → PollEvents
  wire : Nat → List Byte

/-- What the system does to a channel in a round. -/
structure Service where
  /-- the file descriptor that `channel_open` is left with, and whether it succeeds -/
  opened : Int × Bool
  /-- `SIGALRM` comes before the events of the channel are handled -/
  alarm : Bool
  revents : PollEvents
  taken : Option Nat
  incoming : Incoming
  closes : Bool

/-- What `read` finds in the file descriptor for changes of the configuration. -/
inductive Notice where
  | nothing
  | failed (errno : Int)
  | changed (now : Nat → Timeval) (errno : Int) (file : Option (List Char))

/-- What the system does in a round of the loop. -/
structure Round where
  service : Nat → Service
  /-- `errno`, if `poll` fails but for a signal -/
  failed : Option Int
  /-- `SIGALRM` comes before the timer is looked at -/
  alarm : Bool
  /-- the pipe of the timer can be read -/
  wake : Bool
  notice : Notice

variable (os : Os) (wtrs : Nat → Ccwriter Nat)

namespace Poller

/-- The channel at an address. -/
def channel (p : Poller) (k : Nat) : Channel := p.world.channels k

/-- A channel is written. -/
def setChannel (p : Poller) (k : Nat) (chn : Channel) : Poller :=
  { p with world := { p.world with channels := Function.update p.world.channels k chn } }

/-- A channel is closed, and what is sent from now on is another connection. -/
def restart (p : Poller) (k : Nat) : Poller := { p with wire := Function.update p.wire k [] }

end Poller

/-- `channel_close`. -/
def channelClose (closes : Bool) (p : Poller) (k : Nat) : Poller :=
  (p.setChannel k (Protozoa.channelClose closes (p.channel k))).restart k

/-- `poller_register_channel`. -/
def pollerRegisterChannel (p : Poller) (k : Nat) (opened : Int × Bool) : Poller :=
  let (chn, events) := Protozoa.pollerRegisterChannel (p.channel k) opened.1 opened.2
  let opens := !channelIsOpen (p.channel k) && channelIsWaiting (p.channel k)
  let p := if opens && !opened.2 then p.restart k else p
  { p.setChannel k chn with pollfds := Function.update p.pollfds k events }

/-- `(*do_read)(rdr, rxbuf)` of the channel `k`, where the receive buffer is `rxbuf`. -/
def doRead (p : Poller) (k : Nat) (rdr : ConfReader) (rxbuf : Buffer) : Option Poller := do
  let reader ← rdr.doRead
  let st ← reader.doRead _ (engineSink os wtrs) ⟨rdr.toCcreader, rxbuf, some p.world⟩
  let world ← st.world
  let p := { p with
    world := world
    readers := Function.update p.readers k (some { rdr with toCcreader := st.rdr }) }
  return p.setChannel k { p.channel k with rxbuf := st.rxbuf }

/-- `channel_read`, with what it returns. -/
def channelRead (p : Poller) (k : Nat) (incoming : Incoming) : Option (Int × Poller) :=
  let chn := p.channel k
  if channelIsListening chn then
    let (r, chn) := channelAccept chn incoming
    some (if r < 0 then -1 else 1, p.setChannel k chn)
  else
    match incoming with
    | .bytes (some ready) =>
      match bufferRead chn.rxbuf ready with
      | none => some (-1, p)
      | some (rxbuf, rest) =>
        let nBytes : Int := (ready.length - rest.length : Nat)
        let p := p.setChannel k { chn with rxbuf := rxbuf }
        if nBytes ≤ 0 then some (nBytes, p)
        else
          let p := p.setChannel k (channelClearResponse (p.channel k))
          match p.readers k with
          | some rdr => do
            let p ← doRead os wtrs p k rdr rxbuf
            return (nBytes, p)
          | none => some (0, p.setChannel k { p.channel k with rxbuf := bufferClear rxbuf })
    | _ => some (-1, p)

/-- `channel_write`, with what it returns. -/
def channelWrite (p : Poller) (k : Nat) (taken : Option Nat) : Int × Poller :=
  let (n, chn, sent) := Protozoa.channelWrite (p.channel k) taken
  let p := p.setChannel k chn
  (n, { p with wire := Function.update p.wire k (p.wire k ++ sent) })

/-- What `poll` reports of the events it was asked for. -/
def reported (events revents : PollEvents) : PollEvents :=
  ⟨events.pollhup && revents.pollhup, events.pollin && revents.pollin, events.pollout && revents.pollout⟩

/-- `poller_channel_events`. -/
def pollerChannelEvents (p : Poller) (k : Nat) (service : Service) : Option Poller :=
  let revents := reported (p.pollfds k) service.revents
  if revents.pollhup then some (channelClose service.closes p k)
  else
    let (n, p) := if revents.pollout then channelWrite p k service.taken else (0, p)
    if n < 0 then some (channelClose service.closes p k)
    else if revents.pollin then do
      let (n, p) ← channelRead os wtrs p k service.incoming
      if n ≤ 0 then return channelClose service.closes p k else return p
    else some p

/-- `SIGALRM`. -/
def alarm (p : Poller) (comes : Bool) : Option Poller :=
  if comes then (step os wtrs p.world .alarm).map fun world => { p with world := world } else some p

/-- `poller_defer_events`. -/
def pollerDeferEvents (p : Poller) (wake : Bool) : Option Poller :=
  if wake then (deferNext os wtrs p.world).map fun x => { p with world := x.2 } else some p

/-- `poller_check_config`. -/
def pollerCheckConfig : Notice → Int
  | .nothing => 0
  | .failed errno => errno
  | .changed now errno file => if configVerify now errno file = 0 then -1 else 0

/-- `poller_register_events`. -/
def pollerRegisterEvents (p : Poller) (chns : List Nat) (service : Nat → Service) : Poller :=
  chns.foldl (fun p k => pollerRegisterChannel p k (service k).opened) p

/-- `for(i = 0; i < plr->n_channels; …) poller_channel_events(…)`, with the signals in between. -/
def pollerEvents (p : Poller) (chns : List Nat) (service : Nat → Service) : Option Poller :=
  chns.foldlM (fun p k => do
    let p ← alarm os wtrs p (service k).alarm
    pollerChannelEvents os wtrs p k (service k)) p

/-- `poller_do_poll`. -/
def pollerDoPoll (p : Poller) (chns : List Nat) (round : Round) : Option (Int × Poller) :=
  match round.failed with
  | some errno => some (errno, p)
  | none => do
    let p ← pollerEvents os wtrs p chns round.service
    let p ← alarm os wtrs p round.alarm
    let p ← pollerDeferEvents os wtrs p round.wake
    return (pollerCheckConfig round.notice, p)

/-- `poller_loop`, with what it returns if it does. -/
def pollerLoop (p : Poller) (chns : List Nat) : List Round → Option (Option Int × Poller)
  | [] => some (none, p)
  | round :: rounds => do
    let (r, p) ← pollerDoPoll os wtrs (pollerRegisterEvents p chns round.service) chns round
    if r = 0 then pollerLoop p chns rounds else return (some (if r > 0 then r else 0), p)

/-! ## Where the loop starts -/

/-- The channel of a configuration, as `channel_init` leaves it. -/
def channelOf (chn : ConfChannel) : Channel :=
  { Protozoa.channelInit chn.name chn.flags with reader := chn.reader.map fun _ => id }

/-- The writers of a configuration, by their numbers. -/
def writersOf (cfg : Config) (i : Nat) : Ccwriter Nat :=
  match cfg.writers.reverse[i]? with
  | some wtr =>
    { protocol := wtr.doWrite.getD .pelcoD
      chn := wtr.chn
      auth := wtr.auth.map (·.map fun c => BitVec.ofNat 8 c.toNat) }
  | none => ⟨.pelcoD, 0, none⟩

/-- `config_cede_channels`: the channels in their order. -/
def channelsOf (cfg : Config) : List Nat := cfg.chns.map ConfChannel.addr

/-- `poller_init`, with the slots of the writers as `ccwriter_set_receivers` has left them. -/
def pollerInit (cfg : Config) (slots : Slot Nat → Timeval × Timeval) : Poller :=
  let chnAt k := cfg.chns.find? fun chn => chn.addr = k
  { world := start slots fun k => ((chnAt k).map channelOf).getD (Protozoa.channelInit [] 0)
    readers := fun k => (chnAt k).bind ConfChannel.reader
    pollfds := fun _ => pollNothing
    wire := fun _ => [] }

end Protozoa.Program
