import Protozoa.Clump.Refine
import Protozoa.Engine.Timer
import Protozoa.Engine.Writer

/-!
# Deferred packets (`defer.c`, and `ccwriter.c` as it uses them)

Every writer has a slot for each of its receivers (`struct deferred_pkt`, `defer.h:10-16`). A slot
that is queued stands in the red-black tree of the engine (`defer.h:21-23`), which orders slots by
the due time they have when they are compared (`compare_pkts`, `defer.c:23-28`): the key of a queued
slot is the slot's own `tv`, and `cl_rbtree_remove` finds a slot by that key and not by its address.

* `deferRearm`, `deferPacket`, `deferPacketNow`, `deferNext`: `defer.c:63-111`. `deferRemove` is the
  call of `cl_rbtree_remove` in them.
* `ccwriterCheckDeferred`, `ccwriterDoWrite_`, `ccwriterDoWrite`: `ccwriter.c:156-217`; these call
  each other with the functions above through the slot of the receiver.
* `Action` is what the rest of the program does to the engine: a packet is submitted, the signal
  comes, the poller calls `defer_next`, something is deferred, and a channel is served. `run` is any
  sequence of actions, from `start`.

Writers are indexed by `ι` and channels by `κ`. Several writers may write to one channel. What else
happens to a channel comes from outside (`Action.channel`). `trace` is no data of the program: it
keeps what has happened for the results to speak of, the latest first.

A clock reading is taken from `Os.clock` each time the source calls `gettimeofday`, and once by the
kernel in `setitimer`. `none` is what a dereferenced `NULL` would give; `Engine/Steps.lean` shows
that there is none.
-/

namespace Protozoa.Engine

open Clump

variable {ι κ : Type} [DecidableEq ι]

/-- `struct deferred_pkt`; the writer is in its address. -/
structure DeferredPkt where
  tv : Timeval
  sent : Timeval
  packet : Ccpacket
  nCnt : Nat
  deriving DecidableEq

/-- The address of a slot: `wtr->deferred + n`. -/
abbrev Slot (ι : Type) := ι × Nat

/-- What happens. -/
inductive Obs (ι : Type) where
  /-- a reader calls `ccwriter_do_write` -/
  | submit (wtr : ι) (pkt : Ccpacket)
  /-- `wtr->do_write` gets a packet -/
  | write (wtr : ι) (pkt : Ccpacket)
  /-- `cl_rbtree_remove` of a slot due at `tv`, with the queue before it -/
  | remove (dpkt : Slot ι) (tv : Timeval) (queue : List (Slot ι × Timeval))
  /-- `defer_packet` has put a slot into the queue, or taken it out; the queue before and after -/
  | packet (dpkt : Slot ι) (queued : Bool) (before after : List (Slot ι × Timeval))
  /-- `defer_rearm` arms the timer at `now` for a slot due at `tv`, with the wake-ups in the pipe -/
  | rearm (pipe : Nat) (tv now : Timeval)
  /-- `defer_packet_now` gets a slot due at `tv`, and reads the clock at `now` -/
  | hand (dpkt : Slot ι) (tv now : Timeval)

/-- The state of the engine, its writers and the timer. -/
structure World (ι κ : Type) where
  reading : Nat
  slots : Slot ι → DeferredPkt
  tree : ClRbtree (Slot ι)
  timer : Timer
  channels : κ → Channel
  trace : List (Obs ι)

namespace World

/-- The clock has been read. -/
def tick (w : World ι κ) : World ι κ := { w with reading := w.reading + 1 }

/-- A slot is written. -/
def setSlot (w : World ι κ) (dpkt : Slot ι) (d : DeferredPkt) : World ι κ :=
  { w with slots := Function.update w.slots dpkt d }

@[simp] theorem setSlot_slots_self (w : World ι κ) (dpkt : Slot ι) (d : DeferredPkt) :
    (w.setSlot dpkt d).slots dpkt = d := Function.update_self _ _ _

theorem setSlot_slots_of_ne (w : World ι κ) {dpkt s : Slot ι} (d : DeferredPkt) (h : s ≠ dpkt) :
    (w.setSlot dpkt d).slots s = w.slots s := Function.update_of_ne h _ _

/-- Something has happened. -/
def observe (w : World ι κ) (o : Obs ι) : World ι κ := { w with trace := o :: w.trace }

/-- The slots that are queued, in their order. -/
def queue (w : World ι κ) : List (Slot ι) := clRbtreeForEach w.tree

/-- The same with their due times. -/
def entries (w : World ι κ) : List (Slot ι × Timeval) := w.queue.map fun s => (s, (w.slots s).tv)

end World

/-- `compare_pkts`. -/
def comparePkts (slots : Slot ι → DeferredPkt) (dpkt0 dpkt1 : Slot ι) : Ordering :=
  timevalCompare (slots dpkt0).tv (slots dpkt1).tv

instance (slots : Slot ι → DeferredPkt) : Std.TransCmp (comparePkts slots) where
  eq_swap {_ _} := @Std.OrientedCmp.eq_swap _ timevalCompare _ _ _
  isLE_trans {_ _ _} := @Std.TransCmp.isLE_trans _ timevalCompare _ _ _ _

/-- `deferred_pkt_init`, with the two readings of the clock. -/
def deferredPktInit (sent created : Timeval) : DeferredPkt := ⟨⟨0, 0⟩, sent, ccpacketCreate created, 0⟩

/-- `defer_rearm`. -/
def deferRearm (os : Os) (w : World ι κ) : Option (Int × World ι κ) := do
  match ← clRbtreePeek w.tree with
  | some dpkt =>
    let tv := (w.slots dpkt).tv
    let now := os.clock w.reading
    let w := w.tick
    let kernel := os.clock w.reading
    let w := w.tick.observe (.rearm w.timer.pipe tv now)
    let (r, timer) := timerArm os kernel (timeFromNow now tv).toNat w.timer
    return (r, { w with timer := timer })
  | none =>
    let (r, timer) := timerDisarm w.timer
    return (r, { w with timer := timer })

/-- `cl_rbtree_remove(&dfr->tree, dpkt)`. -/
def deferRemove (w : World ι κ) (dpkt : Slot ι) : Option (World ι κ) := do
  let (_, tree) ← clRbtreeRemove (comparePkts w.slots) w.tree dpkt
  return { w with tree := tree }.observe (.remove dpkt (w.slots dpkt).tv w.entries)

/-- `defer_packet`. -/
def deferPacket (os : Os) (w : World ι κ) (dpkt : Slot ι) (pkt : Option Ccpacket) (ms : Nat) :
    Option (Int × World ι κ) := do
  let before := w.entries
  let w ← deferRemove w dpkt
  match pkt with
  | some pkt =>
    let now := os.clock w.reading
    let w := w.tick.setSlot dpkt { w.slots dpkt with tv := timevalAdjust now ms, packet := pkt }
    let (_, tree) ← clRbtreeAdd (comparePkts w.slots) w.tree dpkt
    let w := { w with tree := tree }
    deferRearm os (w.observe (.packet dpkt true before w.entries))
  | none => deferRearm os (w.observe (.packet dpkt false before w.entries))

variable [DecidableEq κ] (os : Os) (wtrs : ι → Ccwriter κ)

/-- `ccwriter_check_deferred`. -/
def ccwriterCheckDeferred (w : World ι κ) (i : ι) (pkt : Ccpacket) (dpkt : Slot ι) :
    Option (World ι κ) := do
  let now := os.clock w.reading
  let w := w.tick.setSlot dpkt { w.slots dpkt with sent := now }
  if ccpacketIsStop pkt then
    if (w.slots dpkt).nCnt < 1 then
      let (_, w) ← deferPacket os w dpkt (some pkt) (wtrs i).protocol.gaptime
      return w.setSlot dpkt { w.slots dpkt with nCnt := (w.slots dpkt).nCnt + 1 }
    else
      let w := w.setSlot dpkt { w.slots dpkt with nCnt := 0 }
      let (_, w) ← deferPacket os w dpkt none 0
      return w
  else
    let now := os.clock w.reading
    let w := w.tick
    if ccpacketIsExpired now pkt (wtrs i).protocol.timeout then
      let (_, w) ← deferPacket os w dpkt (some pkt) (wtrs i).protocol.timeout
      return w
    else
      let (_, w) ← deferPacket os w dpkt none 0
      return w

/-- `ccwriter_do_write_`: the count of packets, and the packet as `do_write` has changed it. -/
def ccwriterDoWrite_ (w : World ι κ) (i : ι) (pkt : Ccpacket) :
    Option (Nat × Ccpacket × World ι κ) := do
  let wtr := wtrs i
  let dpkt : Slot ι := (i, (pkt.receiver - 1).toNat)
  -- ccwriter_too_soon
  let now := os.clock w.reading
  let w := w.tick
  if timeSince now (w.slots dpkt).sent < wtr.protocol.gaptime then
    let (_, w) ← deferPacket os w dpkt (some pkt) wtr.protocol.gaptime
    return (0, pkt, w)
  else
    let chn := w.channels wtr.chn
    let (txbuf, pkt', c) := wtr.protocol.doWrite wtr.auth (channelIsOpen chn) chn.txbuf pkt
    let w := { w with channels := Function.update w.channels wtr.chn { chn with txbuf := txbuf } }
    let w := w.observe (.write i pkt)
    if c > 0 then
      let w ← ccwriterCheckDeferred os wtrs w i pkt' dpkt
      return (c, pkt', w)
    else return (c, pkt', w)

/-- `ccwriter_do_write`. -/
def ccwriterDoWrite (w : World ι κ) (i : ι) (pkt : Ccpacket) :
    Option (Nat × Ccpacket × World ι κ) :=
  if 0 < pkt.receiver ∧ pkt.receiver ≤ (wtrs i).protocol.nRcv then ccwriterDoWrite_ os wtrs w i pkt
  else some (0, pkt, w)

/-- `defer_packet_now`: the packet that is written is the slot's own, and stays in it as `do_write`
leaves it. -/
def deferPacketNow (w : World ι κ) (dpkt : Slot ι) : Option (World ι κ) := do
  let w ← deferRemove w dpkt
  let now := os.clock w.reading
  let w := w.tick.observe (.hand dpkt (w.slots dpkt).tv now)
  let tv := timevalAdjust now (wtrs dpkt.1).protocol.timeout
  let w := w.setSlot dpkt { w.slots dpkt with tv := tv }
  let (_, pkt, w) ← ccwriterDoWrite os wtrs w dpkt.1 (w.slots dpkt).packet
  return w.setSlot dpkt { w.slots dpkt with packet := pkt }

/-- `defer_next`. -/
def deferNext (w : World ι κ) : Option (Int × World ι κ) := do
  let (b, timer) := timerRead w.timer
  let w := { w with timer := timer }
  if b < 0 then return (-1, w)
  else
    match ← clRbtreePeek w.tree with
    | some dpkt =>
      let w ← deferPacketNow os wtrs w dpkt
      deferRearm os w
    | none => deferRearm os w

/-! ## Runs -/

/-- What can happen next. -/
inductive Action (ι κ : Type) where
  /-- a reader calls `ccwriter_do_write` -/
  | submit (i : ι) (pkt : Ccpacket)
  /-- `defer_packet` is called -/
  | defer (dpkt : Slot ι) (pkt : Option Ccpacket) (ms : Nat)
  /-- the poller calls `defer_next` -/
  | next
  /-- `SIGALRM`, once the interval timer has expired -/
  | alarm
  /-- a channel is read, written, opened or closed -/
  | channel (k : κ) (chn : Channel)

/-- One action. -/
def step (w : World ι κ) : Action ι κ → Option (World ι κ)
  | .submit i pkt => (ccwriterDoWrite os wtrs (w.observe (.submit i pkt)) i pkt).map (·.2.2)
  | .defer dpkt pkt ms => (deferPacket os w dpkt pkt ms).map (·.2)
  | .next => (deferNext os wtrs w).map (·.2)
  | .alarm =>
    if w.timer.expired (os.clock w.reading) then some { w with timer := timerHandler os w.timer }
    else some w
  | .channel k chn => some { w with channels := Function.update w.channels k chn }

/-- Actions one after the other. -/
def run (w : World ι κ) (actions : List (Action ι κ)) : Option (World ι κ) :=
  actions.foldlM (step os wtrs) w

/-- `defer_init` and `timer_init`, with the slots of the writers as `ccwriter_set_receivers` leaves
them. -/
def start (slots : Slot ι → Timeval × Timeval) (channels : κ → Channel) : World ι κ where
  reading := 0
  slots := fun s => deferredPktInit (slots s).1 (slots s).2
  tree := clRbtreeInit
  timer := timerInit
  channels := channels
  trace := []

end Protozoa.Engine
