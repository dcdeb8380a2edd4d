import Mathlib.Algebra.BigOperators.Group.Multiset.Basic
import Mathlib.Tactic.Abel
import Protozoa.Config.Routes
import Protozoa.Lib.Ledger
import Protozoa.Pool.Freelist

/-!
# What the program takes and gives back (`main.c`, `config.c`, `poller.c`, `timer.c`, `pool.c`)

The functions that set things up and take them down, with a ledger of what they ask the system for:
memory, the descriptors of poller and timer, and the configuration file. A configuration is that of
`Config`, with the addresses of the memory it is in; a pool is its blocks and the count of its free
slots.

* `configInit` and `configDestroy` (`config.c:38-82`), `configDirective` (`config.c:252-285`),
  `configRead` (`config.c:334-353`): who asks for what, in the order of the source.
* `timerInit`, `timerDestroy` (`timer.c:50-80`), `pollerInit`, `pollerDestroy` (`poller.c:30-76`).
* `runProtozoa` (`main.c:49-87`) with its labels `out_2`, `out_1` and `out_0`, and `main`
  (`main.c:89-134`) that calls it again and again.

`malloc` gives an address for every ledger. The rest of what the system does is an argument
(`Turn`).

Results:
* `configDestroy_keeps`: a configuration gives back what it owns (`ConfigMemory.owned`).
* `runProtozoa_keeps`: one turn gives back what it has taken, unless the poller cannot be made: the
  channels have been ceded to it by then (`config.c:360-365`), and nobody has them.
* **`main_closedOnce_iff`**: what is leaked when the configuration is read again and again, and when
  nothing is.
* **`pool_counts`**: a pool and its count go together. `malloc` is called when there is no free
  slot, and there are no more blocks than the largest number of objects in use at once needs.

Out of scope: the descriptors of the channels, which have a ledger of their own (`Descriptors`),
`--daemonize` (`main.c:34-43`) and the files of the log.
-/

namespace Protozoa.Reload

open Lib.Ledger Relation
open Protozoa.Configuration (Config ConfChannel Directive Channels fgets length_fgets skipComments cString scan)

/-- What the system gives, and has to be given back. -/
inductive Handle where
  | memory (a : Nat)
  | descriptor (fd : Int)
  | stream (f : Nat)
  deriving DecidableEq

abbrev Ledger := List (Entry Handle)

variable (malloc : Ledger → Nat)

/-! ## Memory -/

/-- `malloc`. -/
def allocate (l : Ledger) : Nat × Ledger := (malloc l, l ++ [.opened (.memory (malloc l))])

/-- As many times. -/
def allocateAll : Nat → Ledger → List Nat × Ledger
  | 0, l => ([], l)
  | n + 1, l =>
    let (a, l) := allocate malloc l
    let (as, l) := allocateAll n l
    (a :: as, l)

/-- `free`, of all of these. -/
def freeAll (as : List Nat) (l : Ledger) : Ledger := l ++ (as.map Handle.memory).map .closed

/-- `close`. -/
def close (fd : Int) (l : Ledger) : Ledger := l ++ [.closed (.descriptor fd)]

/-- `struct cl_pool`, of which a block has so many slots. -/
structure PoolMemory where
  slots : Nat
  blocks : List Nat
  free : Nat

/-- `cl_pool_init`. -/
def clPoolInit (slots : Nat) : PoolMemory := ⟨slots, [], 0⟩

/-- `cl_pool_alloc`. -/
def clPoolAlloc (p : PoolMemory) (l : Ledger) : PoolMemory × Ledger :=
  if p.free = 0 then
    let (block, l) := allocate malloc l
    ({ p with blocks := block :: p.blocks, free := p.slots - 1 }, l)
  else ({ p with free := p.free - 1 }, l)

/-- `cl_pool_release`. -/
def clPoolRelease (p : PoolMemory) : PoolMemory := { p with free := p.free + 1 }

/-- `cl_pool_destroy`, what it gives back. -/
def clPoolDestroy (p : PoolMemory) (l : Ledger) : Ledger := freeAll p.blocks l

/-! ## Channels and writers -/

/-- `struct channel`: where it is, and the memory of its buffers and of the packet of its reader. -/
structure ChannelMemory where
  addr : Nat
  self : Nat
  rxbuf : Nat
  txbuf : Nat
  packet : Option Nat

/-- `channel_init`, with a `buffer_init` for each buffer. -/
def channelInit (addr self : Nat) (l : Ledger) : ChannelMemory × Ledger :=
  let (rxbuf, l) := allocate malloc l
  let (txbuf, l) := allocate malloc l
  (⟨addr, self, rxbuf, txbuf, none⟩, l)

/-- `ccreader_destroy`. -/
def ccreaderDestroy (packet : Option Nat) (l : Ledger) : Ledger := freeAll packet.toList l

/-- `channel_destroy` and `free`. -/
def channelDestroy (chn : ChannelMemory) (l : Ledger) : Ledger :=
  let l := freeAll [chn.rxbuf, chn.txbuf] l
  let l := ccreaderDestroy chn.packet l
  freeAll [chn.self] l

/-- `while(chn) …` of `config_destroy` and of `poller_destroy`. -/
def destroyChannels : List ChannelMemory → Ledger → Ledger
  | [], l => l
  | chn :: chns, l => destroyChannels chns (channelDestroy chn l)

/-- `struct ccwriter`: its token, its slots for deferred packets, and the packets in them. -/
structure WriterMemory where
  auth : Option Nat
  deferred : Option Nat
  packets : List Nat

/-- `ccwriter_set_receivers`, with a `deferred_pkt_init` for each slot. -/
def ccwriterSetReceivers (auth : Option Nat) (nRcv : Nat) (l : Ledger) : WriterMemory × Ledger :=
  let (deferred, l) := allocate malloc l
  let (packets, l) := allocateAll malloc nRcv l
  (⟨auth, some deferred, packets⟩, l)

/-- `ccwriter_init`. -/
def ccwriterInit (protocol auth : List Char) (l : Ledger) : WriterMemory × Ledger :=
  let (token, l) :=
    if auth = [] then (none, l)
    else
      let (a, l) := allocate malloc l
      (some a, l)
  match Configuration.writerProtocol protocol with
  | some p => ccwriterSetReceivers malloc token p.nRcv.toNat l
  | none => (⟨token, none, []⟩, l)

/-- `ccwriter_destroy`; `free` of a null pointer does nothing. -/
def ccwriterDestroy (wtr : WriterMemory) (l : Ledger) : Ledger :=
  let l := freeAll wtr.auth.toList l
  let l := freeAll wtr.packets l
  freeAll wtr.deferred.toList l

/-- `while(writer) …` of `config_destroy`. -/
def destroyWriters : List WriterMemory → Ledger → Ledger
  | [], l => l
  | wtr :: wtrs, l => destroyWriters wtrs (ccwriterDestroy wtr l)

/-! ## Configurations -/

/-- `struct config`, and the memory it leads to. -/
structure ConfigMemory where
  cfg : Config
  line : Nat
  defer : Nat
  chns : List ChannelMemory
  writers : List WriterMemory
  readerPool : PoolMemory
  nodePool : PoolMemory
  writerPool : PoolMemory
  /-- the pool of the tree of deferred packets -/
  tree : PoolMemory

/-- How many objects a block of a pool has room for. -/
structure Sizes where
  reader : Nat
  node : Nat
  writer : Nat
  rbnode : Nat

variable (sizes : Sizes)

/-- `config_init`. -/
def configInit (l : Ledger) : ConfigMemory × Ledger :=
  let (line, l) := allocate malloc l
  let (defer, l) := allocate malloc l
  (⟨Configuration.configInit, line, defer, [], [], clPoolInit sizes.reader, clPoolInit sizes.node,
    clPoolInit sizes.writer, clPoolInit sizes.rbnode⟩, l)

/-- `config_destroy`; `defer_destroy` clears the tree. -/
def configDestroy (m : ConfigMemory) (l : Ledger) : Ledger :=
  let l := destroyChannels m.chns l
  let l := destroyWriters m.writers l
  let l := clPoolDestroy m.readerPool l
  let l := clPoolDestroy m.nodePool l
  let l := clPoolDestroy m.writerPool l
  let l := clPoolDestroy m.tree l
  freeAll [m.defer, m.line] l

/-- `config_new_channel`. -/
def configNewChannel (m : ConfigMemory) (name service : List Char) (flags : BitVec 32) (l : Ledger) :
    Nat × ConfigMemory × Ledger :=
  let (addr, cfg) := Configuration.configNewChannel m.cfg name service flags
  let (self, l) := allocate malloc l
  let (chn, l) := channelInit malloc addr self l
  (addr, { m with cfg := cfg, chns := chn :: m.chns }, l)

/-- `_config_get_channel`. -/
def getChannel (m : ConfigMemory) (name service : List Char) (flags : BitVec 32) (l : Ledger) :
    Nat × ConfigMemory × Ledger :=
  match Configuration.configFindChannel m.cfg name service flags with
  | some chn => (chn.addr, m, l)
  | none => configNewChannel malloc m name service flags l

/-- `config_get_channel`. -/
def configGetChannel (m : ConfigMemory) (name : List Char) (flags : BitVec 32) (l : Ledger) :
    Nat × ConfigMemory × Ledger :=
  let (parsed, pname) := Configuration.parseName name 32
  getChannel malloc m pname (Configuration.parseService name 32) (flags ||| parsed) l

/-- `if(chn_in->reader == NULL) …`: a reader, and `ccreader_init` of it. -/
def newReader (now : Timeval) (protocol : List Char) (k : Nat) (m : ConfigMemory) (l : Ledger) :
    ConfigMemory × Ledger :=
  let cfg := m.cfg.update k (Configuration.newReader now protocol)
  match (m.cfg.chns.find? fun chn => decide (chn.addr = k)).bind ConfChannel.reader with
  | some _ => ({ m with cfg := cfg }, l)
  | none =>
    let (readerPool, l) := clPoolAlloc malloc m.readerPool l
    let (packet, l) := allocate malloc l
    ({ m with
      cfg := cfg
      readerPool := readerPool
      chns := m.chns.map fun chn => if chn.addr = k then { chn with packet := some packet } else chn }, l)

/-- `config_create_writer` and `ccwriter_init`. -/
def createWriter (chn : Nat) (protocol auth : List Char) (m : ConfigMemory) (l : Ledger) : ConfigMemory × Ledger :=
  let (writerPool, l) := clPoolAlloc malloc m.writerPool l
  let (wtr, l) := ccwriterInit malloc protocol auth l
  let cfg := { m.cfg with writers := (Configuration.ccwriterInit chn protocol auth).2 :: m.cfg.writers }
  let cfg := cfg.update chn fun c => { c with flags := c.flags ||| Configuration.channelFlagsOf protocol }
  ({ m with cfg := cfg, writerPool := writerPool, writers := wtr :: m.writers }, l)

/-- `config_directive`. -/
def configDirective (now : Timeval) (m : ConfigMemory) (d : Directive) (l : Ledger) : Int × ConfigMemory × Ledger :=
  let (chnIn, m, l) := configGetChannel malloc m d.portIn flagListen l
  let (m, l) := newReader malloc now d.protocolIn chnIn m l
  let (chnOut, m, l) := configGetChannel malloc m d.portOut 0 l
  let writer := m.cfg.writers.length
  let (m, l) := createWriter malloc chnOut d.protocolOut d.authOut m l
  let (nodePool, l) := clPoolAlloc malloc m.nodePool l
  (0, { m with cfg := m.cfg.update chnIn (Configuration.addWriter writer d.range d.shift), nodePool := nodePool }, l)

/-- `config_scan_directive`. -/
def configScanDirective (now : Timeval) (m : ConfigMemory) (l : Ledger) : Int × ConfigMemory × Ledger :=
  match scan (cString m.cfg.line) with
  | .blank => (0, m, l)
  | .invalid => (-1, m, l)
  | .directive d => configDirective malloc now m d l

/-- `while(fgets(cfg->line, LINE_LENGTH, f) == cfg->line) …` of `config_read`, with what it returns.
-/
def readLines (now : Nat → Timeval) (m : ConfigMemory) (text : List Char) (l : Ledger) :
    Int × ConfigMemory × Ledger :=
  match _h : fgets m.cfg.line text with
  | none => (m.cfg.nChannels, m, l)
  | some (line, rest) =>
    let (rc, m, l) :=
      configScanDirective malloc (now rest.length) { m with cfg := { m.cfg with line := skipComments line } } l
    if rc ≠ 0 then (-1, m, l) else readLines now m rest l
termination_by text.length
decreasing_by exact length_fgets _h

/-- `config_read`, of a file that `fopen` gives as this stream, with this text. -/
def configRead (now : Nat → Timeval) (m : ConfigMemory) (file : Option (Nat × List Char)) (l : Ledger) :
    Int × ConfigMemory × Ledger :=
  match file with
  | none => (-1, m, l)
  | some (f, text) =>
    let (n, m, l) := readLines malloc now m text (l ++ [.opened (.stream f)])
    (n, m, l ++ [.closed (.stream f)])

/-- `config_verify`, with the `errno` it finds. -/
def configVerify (now : Nat → Timeval) (errno : Int) (file : Option (Nat × List Char)) (l : Ledger) : Int × Ledger :=
  let (m, l) := configInit malloc sizes l
  let (n, m, l) := configRead malloc now m file l
  (if n ≤ 0 then if errno ≠ 0 then errno else -1 else 0, configDestroy m l)

/-! ## Timer and poller -/

/-- What takes or gives something back while the poller is in its loop. -/
inductive LoopCall where
  /-- `cl_pool_alloc` of a node for a deferred packet -/
  | defer
  /-- `cl_pool_release` of a node -/
  | undefer
  /-- `config_verify` -/
  | verify (now : Nat → Timeval) (errno : Int) (file : Option (Nat × List Char))

/-- What the system does in a turn of the program. -/
structure Turn where
  now : Nat → Timeval
  errno : Int
  file : Option (Nat × List Char)
  /-- the ends of the pipe to read and to write -/
  pipe : Option (Int × Int)
  /-- both ends are made not to block, and the handler is installed -/
  handles : Bool
  devNull : Option Int
  inotify : Option Int
  watches : Bool
  /-- what the poller does before its loop returns, and what it returns -/
  calls : List LoopCall
  rc : Int

/-- `timer_init`. -/
def timerInit (t : Turn) (l : Ledger) : Option (Int × Int) × Ledger :=
  match t.pipe with
  | none => (none, l)
  | some (r, w) =>
    let l := l ++ [.opened (.descriptor r)] ++ [.opened (.descriptor w)]
    if t.handles then (some (r, w), l) else (none, close r (close w l))

/-- `timer_destroy`. -/
def timerDestroy (timer : Int × Int) (l : Ledger) : Ledger := close timer.1 (close timer.2 l)

/-- `struct poller`, by what it owns besides the channels. -/
structure PollerMemory where
  pollfds : Nat
  fdNull : Int
  fdInotify : Int

/-- `poller_init`: when it fails it gives back what it has taken itself. -/
def pollerInit (t : Turn) (l : Ledger) : Option PollerMemory × Ledger :=
  let (pollfds, l) := allocate malloc l
  match t.devNull with
  | none => (none, freeAll [pollfds] l)
  | some fdNull =>
    let l := l ++ [.opened (.descriptor fdNull)]
    match t.inotify with
    | none => (none, freeAll [pollfds] (close fdNull l))
    | some fdInotify =>
      let l := l ++ [.opened (.descriptor fdInotify)]
      if t.watches then (some ⟨pollfds, fdNull, fdInotify⟩, l)
      else (none, freeAll [pollfds] (close fdNull (close fdInotify l)))

/-- `poller_destroy`, with the channels that have been ceded to the poller. -/
def pollerDestroy (plr : PollerMemory) (chns : List ChannelMemory) (l : Ledger) : Ledger :=
  freeAll [plr.pollfds] (close plr.fdNull (close plr.fdInotify (destroyChannels chns l)))

/-- A call in the loop. -/
def loopCall (m : ConfigMemory) (l : Ledger) : LoopCall → ConfigMemory × Ledger
  | .defer =>
    let (tree, l) := clPoolAlloc malloc m.tree l
    ({ m with tree := tree }, l)
  | .undefer => ({ m with tree := clPoolRelease m.tree }, l)
  | .verify now errno file => (m, (configVerify malloc sizes now errno file l).2)

/-- `poller_loop`, what it takes and gives back. -/
def pollerLoop : ConfigMemory → Ledger → List LoopCall → ConfigMemory × Ledger
  | m, l, [] => (m, l)
  | m, l, c :: cs =>
    let (m, l) := loopCall malloc sizes m l c
    pollerLoop m l cs

/-! ## The program -/

/-- `errno ? errno : -1`. -/
def Turn.error (t : Turn) : Int := if t.errno ≠ 0 then t.errno else -1

/-- `config_cede_channels`: the channels, and the configuration without them. -/
def configCedeChannels (m : ConfigMemory) : List ChannelMemory × ConfigMemory :=
  (m.chns, { m with cfg := { m.cfg with chns := [], nChannels := 0 }, chns := [] })

/-- `run_protozoa` from `timer_init` on. -/
def runPoller (t : Turn) (m : ConfigMemory) (l : Ledger) : Int × Ledger :=
  match timerInit t l with
  | (none, l) => (t.error, configDestroy m l)
  | (some timer, l) =>
    let (chns, m) := configCedeChannels m
    match pollerInit malloc t l with
    | (none, l) => (t.error, configDestroy m (timerDestroy timer l))
    | (some plr, l) =>
      let (m, l) := pollerLoop malloc sizes m l t.calls
      let l := pollerDestroy plr chns l
      (t.rc, configDestroy m (timerDestroy timer l))

/-- `run_protozoa`. -/
def runProtozoa (dryrun : Bool) (t : Turn) (l : Ledger) : Int × Ledger :=
  let (m, l) := configInit malloc sizes l
  let (n, m, l) := configRead malloc t.now m t.file l
  if n ≤ 0 then (t.error, configDestroy m l)
  else if dryrun then (0, configDestroy m l)
  else runPoller malloc sizes t m l

/-- `main`, behind its arguments: a dry run is one turn, otherwise there is always another one. -/
def main (dryrun : Bool) : List Turn → Ledger → Ledger
  | [], l => l
  | t :: ts, l =>
    let (_, l) := runProtozoa malloc sizes dryrun t l
    if dryrun then l else main dryrun ts l

/-! ## What is owned -/

/-- Some memory. -/
def memory (as : List Nat) : Multiset Handle := (as.map Handle.memory : List Handle)

def ChannelMemory.owned (chn : ChannelMemory) : Multiset Handle :=
  memory [chn.self, chn.rxbuf, chn.txbuf] + memory chn.packet.toList

def WriterMemory.owned (wtr : WriterMemory) : Multiset Handle :=
  memory wtr.auth.toList + memory wtr.packets + memory wtr.deferred.toList

def channelsOwned (chns : List ChannelMemory) : Multiset Handle := (chns.map ChannelMemory.owned).sum

def writersOwned (wtrs : List WriterMemory) : Multiset Handle := (wtrs.map WriterMemory.owned).sum

def PoolMemory.owned (p : PoolMemory) : Multiset Handle := memory p.blocks

def ConfigMemory.owned (m : ConfigMemory) : Multiset Handle :=
  memory [m.defer, m.line] + channelsOwned m.chns + writersOwned m.writers + m.readerPool.owned + m.nodePool.owned +
    m.writerPool.owned + m.tree.owned

variable {l : Ledger} {rest : Multiset Handle} {m : ConfigMemory}

theorem memory_append (as bs : List Nat) : memory (as ++ bs) = memory as + memory bs := by
  unfold memory
  rw [List.map_append]
  rfl

theorem memory_cons (a : Nat) (as : List Nat) : memory (a :: as) = memory [a] + memory as := memory_append [a] as

/-! ## Memory that is taken and given back -/

theorem allocate_keeps (h : Keeps l rest) :
    Keeps (allocate malloc l).2 (memory [(allocate malloc l).1] + rest) := h.opened _

theorem freeAll_keeps {as : List Nat} (h : Keeps l (memory as + rest)) : Keeps (freeAll as l) rest := h.closedAll

theorem close_keeps {fd : Int} (h : Keeps l ({.descriptor fd} + rest)) : Keeps (close fd l) rest := h.closed

theorem allocateAll_keeps (n : Nat) {l : Ledger} {rest : Multiset Handle} (h : Keeps l rest) :
    Keeps (allocateAll malloc n l).2 (memory (allocateAll malloc n l).1 + rest) := by
  induction n generalizing l rest with
  | zero => exact h.congr (Multiset.zero_add _).symm
  | succ n ih =>
    have hnext := ih (allocate_keeps malloc h)
    unfold allocateAll
    dsimp only
    rw [memory_cons]
    refine hnext.congr ?_
    abel

theorem clPoolAlloc_keeps {p : PoolMemory} (h : Keeps l (p.owned + rest)) :
    Keeps (clPoolAlloc malloc p l).2 ((clPoolAlloc malloc p l).1.owned + rest) := by
  unfold clPoolAlloc
  by_cases hfree : p.free = 0
  · rw [if_pos hfree]
    have hnext := allocate_keeps malloc h
    refine hnext.congr ?_
    change _ = memory ((allocate malloc l).1 :: p.blocks) + rest
    rw [memory_cons _ p.blocks, PoolMemory.owned]
    abel
  · rw [if_neg hfree]
    exact h

theorem ccwriterSetReceivers_keeps {auth : Option Nat} (n : Nat) (h : Keeps l (memory auth.toList + rest)) :
    Keeps (ccwriterSetReceivers malloc auth n l).2 ((ccwriterSetReceivers malloc auth n l).1.owned + rest) := by
  have hnext := allocateAll_keeps malloc n (allocate_keeps malloc h)
  refine hnext.congr ?_
  unfold ccwriterSetReceivers WriterMemory.owned
  dsimp only [Option.toList_some]
  abel

theorem ccwriterInit_keeps (protocol auth : List Char) (h : Keeps l rest) :
    Keeps (ccwriterInit malloc protocol auth l).2 ((ccwriterInit malloc protocol auth l).1.owned + rest) := by
  unfold ccwriterInit
  set x : Option Nat × Ledger := if auth = [] then (none, l) else (some (allocate malloc l).1, (allocate malloc l).2)
    with hx
  have htoken : Keeps x.2 (memory x.1.toList + rest) := by
    rw [hx]
    by_cases hauth : auth = []
    · rw [if_pos hauth]
      exact h.congr (Multiset.zero_add _).symm
    · rw [if_neg hauth]
      exact allocate_keeps malloc h
  dsimp only
  cases Configuration.writerProtocol protocol with
  | none =>
    refine htoken.congr ?_
    unfold WriterMemory.owned
    change _ = memory x.1.toList + 0 + 0 + rest
    abel
  | some p => exact ccwriterSetReceivers_keeps malloc p.nRcv.toNat htoken

theorem channelDestroy_keeps {chn : ChannelMemory} (h : Keeps l (chn.owned + rest)) :
    Keeps (channelDestroy chn l) rest := by
  unfold channelDestroy ccreaderDestroy
  refine freeAll_keeps (freeAll_keeps (freeAll_keeps (h.congr ?_)))
  unfold ChannelMemory.owned
  rw [memory_cons chn.self]
  abel

theorem destroyChannels_keeps {chns : List ChannelMemory} {l : Ledger} (h : Keeps l (channelsOwned chns + rest)) :
    Keeps (destroyChannels chns l) rest := by
  induction chns generalizing l with
  | nil => exact h.congr (Multiset.zero_add _)
  | cons chn chns ih =>
    refine ih (channelDestroy_keeps (h.congr ?_))
    unfold channelsOwned
    rw [List.map_cons, List.sum_cons, add_assoc]

theorem ccwriterDestroy_keeps {wtr : WriterMemory} (h : Keeps l (wtr.owned + rest)) :
    Keeps (ccwriterDestroy wtr l) rest := by
  unfold ccwriterDestroy
  refine freeAll_keeps (freeAll_keeps (freeAll_keeps (h.congr ?_)))
  unfold WriterMemory.owned
  abel

theorem destroyWriters_keeps {wtrs : List WriterMemory} {l : Ledger} (h : Keeps l (writersOwned wtrs + rest)) :
    Keeps (destroyWriters wtrs l) rest := by
  induction wtrs generalizing l with
  | nil => exact h.congr (Multiset.zero_add _)
  | cons wtr wtrs ih =>
    refine ih (ccwriterDestroy_keeps (h.congr ?_))
    unfold writersOwned
    rw [List.map_cons, List.sum_cons, add_assoc]

/-- **A configuration gives back** all that it owns. -/
theorem configDestroy_keeps (h : Keeps l (m.owned + rest)) : Keeps (configDestroy m l) rest := by
  unfold configDestroy clPoolDestroy
  refine freeAll_keeps (freeAll_keeps (freeAll_keeps (freeAll_keeps (freeAll_keeps (destroyWriters_keeps
    (destroyChannels_keeps (h.congr ?_)))))))
  unfold ConfigMemory.owned PoolMemory.owned
  abel

theorem configInit_keeps (h : Keeps l rest) :
    Keeps (configInit malloc sizes l).2 ((configInit malloc sizes l).1.owned + rest) := by
  have hnext := allocate_keeps malloc (allocate_keeps malloc h)
  refine hnext.congr ?_
  set line := allocate malloc l
  set defer := allocate malloc line.2
  have hpools : (clPoolInit sizes.reader).owned = 0 ∧ (clPoolInit sizes.node).owned = 0 ∧
      (clPoolInit sizes.writer).owned = 0 ∧ (clPoolInit sizes.rbnode).owned = 0 := ⟨rfl, rfl, rfl, rfl⟩
  have hlists : channelsOwned [] = 0 ∧ writersOwned [] = 0 := ⟨rfl, rfl⟩
  change _ = memory ([defer.1] ++ [line.1]) + channelsOwned [] + writersOwned [] + (clPoolInit sizes.reader).owned +
    (clPoolInit sizes.node).owned + (clPoolInit sizes.writer).owned + (clPoolInit sizes.rbnode).owned + rest
  rw [memory_append, hlists.1, hlists.2, hpools.1, hpools.2.1, hpools.2.2.1, hpools.2.2.2]
  abel

/-! ## Pools -/

/-- A pool of `pool.c`, by its blocks and the count of its free slots. -/
structure Counts (w n : Nat) (p : PoolMemory) (s : Pool.State) : Prop where
  slots : p.slots = (Pool.mallocSize - w) / n
  blocks : p.blocks = s.blocks
  free : p.free + s.live.length = s.blocks.length * p.slots

section

variable {w n : Nat} {s s' : Pool.State} {p : PoolMemory} {free : List Nat}

/-- The freelist is as long as it is counted. -/
theorem Counts.length (h : Counts w n p s) (hs : Pool.Holds w n s free) : free.length = p.free := by
  have hlen := hs.slots.length_eq
  have hslots : ∀ b ∈ s.blocks, (Pool.slots w n b).length = p.slots := fun b _ => by
    rw [h.slots, Pool.slots, Lib.LinkedList.length_cells]
  rw [List.length_append, List.length_flatMap, List.map_congr_left hslots, List.map_const', List.sum_replicate_nat,
    ← h.free] at hlen
  omega

/-- There is no free slot when none is counted. -/
theorem Counts.head_iff (h : Counts w n p s) (hsizes : Pool.Sizes w n) (hs : Pool.Holds w n s free) :
    s.pool.head = 0 ↔ p.free = 0 := by
  rw [← h.length hs]
  constructor
  · intro hhead
    have hlinked := hs.freelist
    rw [hhead] at hlinked
    rw [hlinked.eq_nil fun a ha => (hs.fits hsizes (List.mem_append_left _ ha)).1]
    rfl
  · intro hlen
    have hlinked := hs.freelist
    rw [List.eq_nil_of_length_eq_zero hlen] at hlinked
    exact hlinked

/-- **`cl_pool_alloc`** takes a free slot, or asks `malloc` for a block. -/
theorem Counts.alloc (h : Counts w n p s) (hsizes : Pool.Sizes w n) (hs : Pool.Holds w n s free)
    (hfresh : Pool.FreshBlock w s.blocks (malloc l)) (hne : malloc l ≠ 0) :
    ∃ s', Pool.step w s (.alloc (malloc l)) = some s' ∧ Counts w n (clPoolAlloc malloc p l).1 s' ∧
      s'.live.length = s.live.length + 1 ∧
      (s'.blocks = s.blocks ∨ s'.blocks = malloc l :: s.blocks ∧ s.live.length = s.blocks.length * p.slots) := by
  have hcount := h.free
  have hiff := h.head_iff hsizes hs
  unfold clPoolAlloc
  by_cases hhead : s.pool.head = 0
  · have hfree := hiff.mp hhead
    obtain rfl : free = [] := List.eq_nil_of_length_eq_zero ((h.length hs).trans hfree)
    obtain ⟨pool, mem, hadd, hs'⟩ := hs.addBlock hsizes hne hfresh
    obtain ⟨slots, hslots⟩ := Pool.exists_slots hsizes (malloc l)
    rw [hslots] at hs'
    obtain ⟨htake, -⟩ := hs'.take
    have halloc : Pool.clPoolAlloc w s.pool s.mem (malloc l) =
        some (malloc l + w, { pool with head := Lib.LinkedList.load w mem (malloc l + w) }, mem) := by
      unfold Pool.clPoolAlloc
      rw [if_pos hhead, hadd]
      exact (if_neg hne).trans (congrArg some htake)
    have hpos := hsizes.pointer
    obtain ⟨s', hstep, hblocks, hlive⟩ : ∃ s', Pool.step w s (.alloc (malloc l)) = some s' ∧
        s'.blocks = malloc l :: s.blocks ∧ s'.live = (malloc l + w) :: s.live := by
      rw [Pool.step, halloc]
      exact ⟨_, rfl, if_pos ⟨hhead, hne⟩, if_neg (by omega)⟩
    obtain ⟨k, hk⟩ := hsizes.exists_succ
    have hk' := h.slots.trans hk
    rw [if_pos hfree]
    refine ⟨s', hstep, ⟨h.slots, ?_, ?_⟩, by rw [hlive, List.length_cons], Or.inr ⟨hblocks, by omega⟩⟩
    · rw [hblocks, ← h.blocks]
      rfl
    · rw [hblocks, hlive, List.length_cons, List.length_cons, Nat.succ_mul]
      change p.slots - 1 + _ = _ * p.slots + p.slots
      omega
  · have hfree := hiff.not.mp hhead
    obtain ⟨free', rfl, -⟩ := hs.freelist.eq_cons hhead
    obtain ⟨htake, -⟩ := hs.take
    have halloc : Pool.clPoolAlloc w s.pool s.mem (malloc l) =
        some (s.pool.head, { s.pool with head := Lib.LinkedList.load w s.mem s.pool.head }, s.mem) := by
      unfold Pool.clPoolAlloc
      rw [if_neg hhead, htake]
    obtain ⟨s', hstep, hblocks, hlive⟩ : ∃ s', Pool.step w s (.alloc (malloc l)) = some s' ∧
        s'.blocks = s.blocks ∧ s'.live = s.pool.head :: s.live := by
      rw [Pool.step, halloc]
      exact ⟨_, rfl, if_neg fun hand => hhead hand.1, if_neg hhead⟩
    rw [if_neg hfree]
    refine ⟨s', hstep, ⟨h.slots, h.blocks.trans hblocks.symm, ?_⟩, by rw [hlive, List.length_cons], Or.inl hblocks⟩
    rw [hblocks, hlive, List.length_cons]
    change p.free - 1 + _ = _ * p.slots
    omega

/-- **`cl_pool_release`** frees a slot. -/
theorem Counts.release (h : Counts w n p s) {a : Nat} (ha : a ∈ s.live)
    (hstep : Pool.step w s (.release a) = some s') : Counts w n (clPoolRelease p) s' := by
  obtain rfl := Option.some.inj hstep
  refine ⟨h.slots, h.blocks, ?_⟩
  have hcount := h.free
  have hlen := List.length_erase_of_mem ha
  have hpos := List.length_pos_of_mem ha
  change p.free + 1 + (s.live.erase a).length = s.blocks.length * p.slots
  omega

/-- A call of a pool that is followed in a ledger. -/
inductive Call (w : Nat) : Pool.State × PoolMemory × Ledger → Pool.State × PoolMemory × Ledger → Prop
  | alloc {s s' : Pool.State} {p : PoolMemory} {l : Ledger} (hfresh : Pool.FreshBlock w s.blocks (malloc l))
      (hne : malloc l ≠ 0) (hstep : Pool.step w s (.alloc (malloc l)) = some s') :
      Call w (s, p, l) (s', clPoolAlloc malloc p l)
  | release {s s' : Pool.State} {p : PoolMemory} {l : Ledger} {a : Nat} (ha : a ∈ s.live)
      (hstep : Pool.step w s (.release a) = some s') : Call w (s, p, l) (s', clPoolRelease p, l)
  | write {s s' : Pool.State} {p : PoolMemory} {l : Ledger} {a : Nat} {byte : BitVec 8}
      (ha : (Pool.Op.write a byte).Allowed w s) (hstep : Pool.step w s (.write a byte) = some s') :
      Call w (s, p, l) (s', p, l)

/-- **One call** keeps the count, and there are no more blocks after it than before or than its
objects need. -/
theorem Call.counts {x y : Pool.State × PoolMemory × Ledger} (h : Call malloc w x y) (hsizes : Pool.Sizes w n)
    (hs : Pool.Holds w n x.1 free) (hcounts : Counts w n x.2.1 x.1) :
    (∃ free', Pool.Holds w n y.1 free') ∧ Counts w n y.2.1 y.1 ∧
      (y.1.blocks = x.1.blocks ∨ y.1.blocks.length * y.2.1.slots < y.1.live.length + y.2.1.slots) := by
  cases h with
  | @alloc s s' p l hfresh hne hstep =>
    have hop : (Pool.Op.alloc (malloc l)).Allowed w s := fun _ => hfresh
    obtain ⟨s₁, free', hstep₁, hs'⟩ := hs.step hsizes hop
    obtain ⟨s₂, hstep₂, hcounts', hlive, hblocks⟩ := hcounts.alloc malloc hsizes hs hfresh hne
    obtain rfl := Option.some.inj (hstep.symm.trans hstep₁)
    obtain rfl := Option.some.inj (hstep.symm.trans hstep₂)
    refine ⟨⟨free', hs'⟩, hcounts', hblocks.imp_right fun ⟨hmore, hfull⟩ => ?_⟩
    have hslots : (clPoolAlloc malloc p l).1.slots = p.slots := hcounts'.slots.trans hcounts.slots.symm
    have hfull : s.live.length = s.blocks.length * p.slots := hfull
    have hlive : s'.live.length = s.live.length + 1 := hlive
    have hlen : s'.blocks.length = s.blocks.length + 1 := congrArg List.length hmore
    change s'.blocks.length * (clPoolAlloc malloc p l).1.slots < s'.live.length + (clPoolAlloc malloc p l).1.slots
    rw [hslots, hlen, hlive, hfull, Nat.succ_mul]
    omega
  | @release s s' p l m ha hstep =>
    have hop : (Pool.Op.release m).Allowed w s := ha
    obtain ⟨s₁, free', hstep₁, hs'⟩ := hs.step hsizes hop
    obtain rfl := Option.some.inj (hstep.symm.trans hstep₁)
    have hcounts' := hcounts.release ha hstep
    exact ⟨⟨free', hs'⟩, hcounts', Or.inl (by obtain rfl := Option.some.inj hstep; rfl)⟩
  | write ha hstep =>
    obtain rfl := Option.some.inj hstep
    exact ⟨⟨free, hs.write hsizes ha⟩, ⟨hcounts.slots, hcounts.blocks, hcounts.free⟩, Or.inl rfl⟩

/-- **A pool and its count**: a block has slots for all objects in use but for the free ones,
`malloc` is called when there is none, and there are no more blocks than the largest number of
objects in use at once needs. -/
theorem pool_counts (hsizes : Pool.Sizes w n) (mem : Lib.LinkedList.Memory) {x : Pool.State × PoolMemory × Ledger}
    (h : ReflTransGen (Call malloc w) (Pool.start n mem, clPoolInit ((Pool.mallocSize - w) / n), l) x) :
    Counts w n x.2.1 x.1 ∧ (x.1.pool.head = 0 ↔ x.2.1.free = 0) ∧
      ∃ y, ReflTransGen (Call malloc w) (Pool.start n mem, clPoolInit ((Pool.mallocSize - w) / n), l) y ∧
        ReflTransGen (Call malloc w) y x ∧
        x.1.blocks.length * ((Pool.mallocSize - w) / n) < y.1.live.length + (Pool.mallocSize - w) / n := by
  obtain ⟨k, hk⟩ := hsizes.exists_succ
  suffices hall : (∃ free, Pool.Holds w n x.1 free) ∧ Counts w n x.2.1 x.1 ∧ ∃ y,
      ReflTransGen (Call malloc w) (Pool.start n mem, clPoolInit ((Pool.mallocSize - w) / n), l) y ∧
      ReflTransGen (Call malloc w) y x ∧
      x.1.blocks.length * ((Pool.mallocSize - w) / n) < y.1.live.length + (Pool.mallocSize - w) / n by
    obtain ⟨⟨free, hs⟩, hcounts, hpeak⟩ := hall
    exact ⟨hcounts, hcounts.head_iff hsizes hs, hpeak⟩
  induction h with
  | refl =>
    refine ⟨⟨[], Pool.holds_start w n mem⟩, ⟨rfl, rfl, (Nat.zero_mul _).symm⟩, _, .refl, .refl, ?_⟩
    show 0 * _ < 0 + _
    omega
  | @tail x' x hrun hcall ih =>
    obtain ⟨⟨free, hs⟩, hcounts, y, hbefore, hafter, hpeak⟩ := ih
    obtain ⟨hs', hcounts', hblocks⟩ := hcall.counts malloc hsizes hs hcounts
    refine ⟨hs', hcounts', ?_⟩
    rcases hblocks with hsame | hnew
    · exact ⟨y, hbefore, hafter.tail hcall, by rw [hsame]; exact hpeak⟩
    · exact ⟨x, hrun.tail hcall, .refl, hcounts'.slots ▸ hnew⟩

end

/-- Blocks one behind the other. -/
def pages (l : Ledger) : Nat := 4096 * (l.length + 1)

/-- Three objects, of which two are in a block, and one is released again. -/
theorem pool_counts_three : ∃ x, ReflTransGen (Call pages 8) (Pool.start 2040 fun _ => 0, clPoolInit 2, []) x ∧
    x.1.live.length = 2 ∧ x.1.blocks.length = 2 ∧ Counts 8 2040 x.2.1 x.1 ∧ (x.1.pool.head = 0 ↔ x.2.1.free = 0) ∧
    ∃ y, ReflTransGen (Call pages 8) (Pool.start 2040 fun _ => 0, clPoolInit 2, []) y ∧
      ReflTransGen (Call pages 8) y x ∧ x.1.blocks.length * 2 < y.1.live.length + 2 := by
  have hapart : ∀ b ∈ [4096], Lib.LinkedList.Apart Pool.mallocSize 8192 b := by decide
  obtain ⟨x, hrun, hlive, hblocks⟩ : ∃ x, ReflTransGen (Call pages 8)
      (Pool.start 2040 fun _ => 0, clPoolInit 2, []) x ∧ x.1.live.length = 2 ∧ x.1.blocks.length = 2 := by
    refine ⟨_, ((((ReflTransGen.refl.tail (.alloc ⟨by decide, nofun⟩ (by decide) rfl)).tail
      (.alloc ⟨by decide, hapart⟩ (by decide) rfl)).tail
      (.alloc ⟨by decide, hapart⟩ (by decide) rfl)).tail
      (.release (show 4104 ∈ [8200, 6144, 4104] by decide) rfl)), rfl, rfl⟩
  exact ⟨x, hrun, hlive, hblocks, pool_counts pages ⟨by decide, by decide, by decide⟩ (fun _ => 0) hrun⟩

/-! ## Directives -/

/-- A channel has this address. -/
def Named (cfg : Config) (k : Nat) : Prop := ∃ chn ∈ cfg.chns, chn.addr = k

/-- The memory of a configuration: each channel has its own, and those with a reader have a packet.
-/
structure Tallies (m : ConfigMemory) : Prop where
  channels : Channels m.cfg
  same : m.chns.map (fun chn => (chn.addr, chn.packet.isSome)) =
    m.cfg.chns.map fun chn => (chn.addr, chn.reader.isSome)

theorem named_update {cfg : Config} {j k : Nat} {f : ConfChannel → ConfChannel} (hf : ∀ chn, (f chn).addr = chn.addr)
    (h : Named cfg k) : Named (cfg.update j f) k := by
  obtain ⟨chn, hchn, rfl⟩ := h
  refine ⟨_, List.mem_map_of_mem hchn, ?_⟩
  split
  · exact hf chn
  · rfl

theorem channels_update {cfg : Config} {k : Nat} {f : ConfChannel → ConfChannel} (h : Channels cfg) (hk : Named cfg k)
    (hf : ∀ chn, (f chn).port = chn.port ∧ (f chn).addr = chn.addr) : Channels (cfg.update k f) := by
  obtain ⟨chn, hchn, rfl⟩ := hk
  exact (Configuration.update_at h (h.channelAt_port hchn) hf).2

/-- A change that leaves addresses alone, and readers where they are. -/
theorem map_update {cfg : Config} {k : Nat} {f : ConfChannel → ConfChannel}
    (hf : ∀ chn ∈ cfg.chns, chn.addr = k → (f chn).addr = chn.addr ∧ (f chn).reader.isSome = chn.reader.isSome) :
    (cfg.update k f).chns.map (fun chn => (chn.addr, chn.reader.isSome)) =
      cfg.chns.map fun chn => (chn.addr, chn.reader.isSome) := by
  unfold Config.update
  rw [List.map_map]
  refine List.map_congr_left fun chn hchn => ?_
  rw [Function.comp_apply]
  by_cases haddr : chn.addr = k
  · rw [if_pos haddr, (hf chn hchn haddr).1, (hf chn hchn haddr).2]
  · rw [if_neg haddr]

theorem channelsOwned_cons (chn : ChannelMemory) (chns : List ChannelMemory) :
    channelsOwned (chn :: chns) = chn.owned + channelsOwned chns := by
  unfold channelsOwned
  rw [List.map_cons, List.sum_cons]

theorem owned_addChannel (cfg : Config) (chn : ChannelMemory) :
    ({ m with cfg := cfg, chns := chn :: m.chns } : ConfigMemory).owned = chn.owned + m.owned := by
  unfold ConfigMemory.owned
  dsimp only
  rw [channelsOwned_cons]
  abel

theorem owned_newChannel (addr self rxbuf txbuf : Nat) :
    ChannelMemory.owned ⟨addr, self, rxbuf, txbuf, none⟩ = memory [self] + memory [rxbuf] + memory [txbuf] := by
  change memory ([self] ++ ([rxbuf] ++ [txbuf])) + 0 = _
  rw [memory_append, memory_append]
  abel

theorem configNewChannel_keeps (name service : List Char) (flags : BitVec 32) (h : Keeps l (m.owned + rest)) :
    Keeps (configNewChannel malloc m name service flags l).2.2
      ((configNewChannel malloc m name service flags l).2.1.owned + rest) := by
  have hself := allocate_keeps malloc h
  have hrx := allocate_keeps malloc hself
  have htx := allocate_keeps malloc hrx
  refine htx.congr ?_
  unfold configNewChannel channelInit
  dsimp only
  rw [owned_addChannel, owned_newChannel]
  abel

theorem configGetChannel_spec (h : Tallies m) (hl : Keeps l (m.owned + rest)) (name : List Char) (flags : BitVec 32) :
    let x := configGetChannel malloc m name flags l
    (x.1, x.2.1.cfg) = Configuration.configGetChannel m.cfg name flags ∧ Tallies x.2.1 ∧
      Keeps x.2.2 (x.2.1.owned + rest) ∧ Named x.2.1.cfg x.1 ∧ ∀ k, Named m.cfg k → Named x.2.1.cfg k := by
  obtain ⟨-, -, -, -, hchannels, -⟩ := Configuration.configGetChannel_at h.channels name flags
  revert hchannels
  unfold configGetChannel Configuration.configGetChannel getChannel Configuration.getChannel
  dsimp only
  cases hfind : Configuration.configFindChannel m.cfg (Configuration.parseName name 32).2
      (Configuration.parseService name 32) (flags ||| (Configuration.parseName name 32).1) with
  | some chn =>
    intro _
    exact ⟨rfl, h, hl, ⟨chn, List.mem_of_find?_eq_some hfind, rfl⟩, fun _ hk => hk⟩
  | none =>
    intro hchannels
    refine ⟨rfl, ⟨hchannels, ?_⟩, configNewChannel_keeps malloc _ _ _ hl, ⟨_, List.mem_cons_self, rfl⟩, ?_⟩
    · exact congrArg (_ :: ·) h.same
    · rintro k ⟨chn, hchn, rfl⟩
      exact ⟨chn, List.mem_cons_of_mem _ hchn, rfl⟩

/-- One channel gets the packet of its reader. -/
theorem channelsOwned_setPacket {chns : List ChannelMemory} (hnodup : (chns.map ChannelMemory.addr).Nodup)
    {c : ChannelMemory} (hc : c ∈ chns) (hnone : c.packet = none) (packet : Nat) :
    channelsOwned (chns.map fun chn => if chn.addr = c.addr then { chn with packet := some packet } else chn) =
      memory [packet] + channelsOwned chns := by
  induction chns with
  | nil => cases hc
  | cons chn chns ih =>
    obtain ⟨hnot, hrest⟩ := List.nodup_cons.mp hnodup
    rw [List.map_cons, channelsOwned_cons, channelsOwned_cons]
    rcases List.mem_cons.mp hc with rfl | hc
    · -- the others have other addresses
      have hothers :
          (chns.map fun chn => if chn.addr = c.addr then { chn with packet := some packet } else chn) = chns := by
        refine (List.map_congr_left fun chn hchn => if_neg fun heq => hnot ?_).trans (List.map_id _)
        exact heq ▸ List.mem_map_of_mem hchn
      rw [hothers, if_pos rfl]
      unfold ChannelMemory.owned
      rw [hnone]
      change _ + memory [packet] + _ = _ + (_ + 0 + _)
      abel
    · have hne : chn.addr ≠ c.addr := fun heq => hnot (heq ▸ List.mem_map_of_mem hc)
      rw [if_neg hne, ih hrest hc]
      abel

theorem isSome_newReader (now : Timeval) (protocol : List Char) (chn : ConfChannel) :
    (Configuration.newReader now protocol chn).reader.isSome = true := by
  unfold Configuration.newReader
  cases hreader : chn.reader with
  | none => rfl
  | some rdr =>
    dsimp only
    rw [hreader]
    rfl

/-- A reader at an address. -/
def readerAt (k : Nat) (x : Nat × Bool) : Nat × Bool := if x.1 = k then (x.1, true) else x

theorem map_setPacket (chns : List ChannelMemory) (k packet : Nat) :
    (chns.map fun chn => if chn.addr = k then { chn with packet := some packet } else chn).map
        (fun chn => (chn.addr, chn.packet.isSome)) =
      (chns.map fun chn => (chn.addr, chn.packet.isSome)).map (readerAt k) := by
  rw [List.map_map, List.map_map]
  refine List.map_congr_left fun chn _ => ?_
  unfold readerAt
  rw [Function.comp_apply, Function.comp_apply]
  dsimp only
  split <;> rfl

theorem map_newReader (chns : List ConfChannel) (k : Nat) (now : Timeval) (protocol : List Char) :
    (chns.map fun chn => if chn.addr = k then Configuration.newReader now protocol chn else chn).map
        (fun chn => (chn.addr, chn.reader.isSome)) =
      (chns.map fun chn => (chn.addr, chn.reader.isSome)).map (readerAt k) := by
  rw [List.map_map, List.map_map]
  refine List.map_congr_left fun chn _ => ?_
  have haddr : (Configuration.newReader now protocol chn).addr = chn.addr := by
    unfold Configuration.newReader
    split <;> rfl
  unfold readerAt
  rw [Function.comp_apply, Function.comp_apply]
  dsimp only
  split
  · rw [haddr, isSome_newReader]
  · rfl

theorem newReader_spec (h : Tallies m) (hl : Keeps l (m.owned + rest)) {k : Nat} (hk : Named m.cfg k) (now : Timeval)
    (protocol : List Char) :
    let x := newReader malloc now protocol k m l
    x.1.cfg = m.cfg.update k (Configuration.newReader now protocol) ∧ Tallies x.1 ∧ Keeps x.2 (x.1.owned + rest) := by
  have hport : ∀ chn, (Configuration.newReader now protocol chn).port = chn.port ∧
      (Configuration.newReader now protocol chn).addr = chn.addr := by
    intro chn
    unfold Configuration.newReader
    split <;> exact ⟨rfl, rfl⟩
  have hchannels := channels_update h.channels hk hport
  obtain ⟨chn, hchn, rfl⟩ := hk
  have hfind : m.cfg.chns.find? (fun c => decide (c.addr = chn.addr)) = some chn := by
    obtain ⟨c, hc⟩ : ∃ c, m.cfg.chns.find? (fun c => decide (c.addr = chn.addr)) = some c :=
      Option.isSome_iff_exists.mp (List.find?_isSome.mpr ⟨chn, hchn, decide_eq_true rfl⟩)
    have haddr := List.find?_some hc
    rw [hc, h.channels.addr_inj (List.mem_of_find?_eq_some hc) hchn (of_decide_eq_true haddr)]
  unfold newReader
  dsimp only
  rw [hfind, Option.bind_some]
  cases hreader : chn.reader with
  | some rdr =>
    refine ⟨rfl, ⟨hchannels, h.same.trans (map_update fun c hc haddr => ?_).symm⟩, hl⟩
    obtain rfl := h.channels.addr_inj hc hchn haddr
    refine ⟨(hport c).2, ?_⟩
    rw [isSome_newReader, hreader]
    rfl
  | none =>
    -- the memory of this channel, which has no packet yet
    obtain ⟨c, hc, hpair⟩ := List.mem_map.mp (h.same ▸ List.mem_map_of_mem hchn :
      (chn.addr, chn.reader.isSome) ∈ m.chns.map fun chn => (chn.addr, chn.packet.isSome))
    obtain ⟨haddr, hpacket⟩ := Prod.mk.inj hpair
    have hnone : c.packet = none := by
      rw [hreader] at hpacket
      exact Option.not_isSome_iff_eq_none.mp (by rw [hpacket]; exact Bool.false_ne_true)
    refine ⟨rfl, ⟨hchannels, ?_⟩, ?_⟩
    · have hleft := fun packet => map_setPacket m.chns chn.addr packet
      have hright := map_newReader m.cfg.chns chn.addr now protocol
      exact (hleft _).trans ((congrArg (List.map _) h.same).trans hright.symm)
    · have hnodup : (m.chns.map ChannelMemory.addr).Nodup := by
        have hsame := congrArg (List.map Prod.fst) h.same
        rw [List.map_map, List.map_map] at hsame
        exact hsame ▸ h.channels.addrs
      have hpool : Keeps l (m.readerPool.owned + (memory [m.defer, m.line] + channelsOwned m.chns +
          writersOwned m.writers + m.nodePool.owned + m.writerPool.owned + m.tree.owned + rest)) := by
        refine hl.congr ?_
        unfold ConfigMemory.owned
        abel
      refine (allocate_keeps malloc (clPoolAlloc_keeps malloc hpool)).congr ?_
      have hset := channelsOwned_setPacket hnodup hc hnone (allocate malloc (clPoolAlloc malloc m.readerPool l).2).1
      rw [haddr] at hset
      unfold ConfigMemory.owned
      dsimp only
      rw [hset]
      abel

theorem createWriter_spec (h : Tallies m) (hl : Keeps l (m.owned + rest)) {k : Nat} (hk : Named m.cfg k)
    (protocol auth : List Char) :
    let x := createWriter malloc k protocol auth m l
    Tallies x.1 ∧ Keeps x.2 (x.1.owned + rest) ∧ ∀ j, Named m.cfg j → Named x.1.cfg j := by
  set cfg : Config := { m.cfg with writers := (Configuration.ccwriterInit k protocol auth).2 :: m.cfg.writers }
    with hcfg
  have hchannels : Channels cfg := ⟨h.channels.ports, h.channels.addrs, h.channels.below, h.channels.count⟩
  have hport : ∀ c : ConfChannel,
      ConfChannel.port { c with flags := c.flags ||| Configuration.channelFlagsOf protocol } = c.port ∧
        c.addr = c.addr := by
    intro c
    refine ⟨?_, rfl⟩
    unfold Configuration.ConfChannel.port
    dsimp only
    rw [BitVec.and_or_distrib_left, Configuration.channelFlags_required, BitVec.or_zero]
  have hsame := @map_update cfg k (fun c => { c with flags := c.flags ||| Configuration.channelFlagsOf protocol })
    fun _ _ _ => ⟨rfl, rfl⟩
  refine ⟨⟨channels_update hchannels hk hport, h.same.trans hsame.symm⟩, ?_, ?_⟩
  · have hpool : Keeps l (m.writerPool.owned + (memory [m.defer, m.line] + channelsOwned m.chns +
        writersOwned m.writers + m.readerPool.owned + m.nodePool.owned + m.tree.owned + rest)) := by
      refine hl.congr ?_
      unfold ConfigMemory.owned
      abel
    refine (ccwriterInit_keeps malloc protocol auth (clPoolAlloc_keeps malloc hpool)).congr ?_
    unfold createWriter ConfigMemory.owned writersOwned
    dsimp only
    rw [List.map_cons, List.sum_cons]
    abel
  · exact fun j hj => @named_update cfg _ _ _ (fun _ => rfl) hj

/-- **A directive**: the configuration is as `Config` says, and owns what has been taken. -/
theorem configDirective_spec (h : Tallies m) (hl : Keeps l (m.owned + rest)) (now : Timeval) (d : Directive) :
    let x := configDirective malloc now m d l
    (x.1, x.2.1.cfg) = Configuration.configDirective now m.cfg d ∧ Tallies x.2.1 ∧
      Keeps x.2.2 (x.2.1.owned + rest) := by
  obtain ⟨hcfg₁, h₁, hl₁, hk₁, -⟩ := configGetChannel_spec malloc h hl d.portIn flagListen
  unfold configDirective Configuration.configDirective
  rw [← hcfg₁]
  generalize configGetChannel malloc m d.portIn flagListen l = x₁ at h₁ hl₁ hk₁ ⊢
  obtain ⟨k, m₁, l₁⟩ := x₁
  dsimp only at h₁ hl₁ hk₁ ⊢
  obtain ⟨hcfg₂, h₂, hl₂⟩ := newReader_spec malloc h₁ hl₁ hk₁ now d.protocolIn
  have hk₂ : Named (newReader malloc now d.protocolIn k m₁ l₁).1.cfg k := by
    rw [hcfg₂]
    refine named_update (fun chn => ?_) hk₁
    unfold Configuration.newReader
    split <;> rfl
  rw [← hcfg₂]
  generalize newReader malloc now d.protocolIn k m₁ l₁ = x₂ at h₂ hl₂ hk₂ ⊢
  obtain ⟨m₂, l₂⟩ := x₂
  dsimp only at h₂ hl₂ hk₂ ⊢
  obtain ⟨hcfg₃, h₃, hl₃, hj₃, hnamed₃⟩ := configGetChannel_spec malloc h₂ hl₂ d.portOut 0
  have hk₃ := hnamed₃ k hk₂
  rw [← hcfg₃]
  generalize configGetChannel malloc m₂ d.portOut 0 l₂ = x₃ at h₃ hl₃ hj₃ hk₃ ⊢
  obtain ⟨j, m₃, l₃⟩ := x₃
  dsimp only at h₃ hl₃ hj₃ hk₃ ⊢
  obtain ⟨h₄, hl₄, hnamed₄⟩ := createWriter_spec malloc h₃ hl₃ hj₃ d.protocolOut d.authOut
  have hk₄ := hnamed₄ k hk₃
  refine ⟨rfl, ⟨channels_update h₄.channels hk₄ fun _ => ⟨rfl, rfl⟩, ?_⟩, ?_⟩
  · exact h₄.same.trans (@map_update _ k (Configuration.addWriter m₃.cfg.writers.length d.range d.shift)
      fun _ _ _ => ⟨rfl, Option.isSome_map⟩).symm
  · generalize createWriter malloc j d.protocolOut d.authOut m₃ l₃ = x₄ at hl₄ ⊢
    obtain ⟨m₄, l₄⟩ := x₄
    have hpool : Keeps l₄ (m₄.nodePool.owned + (memory [m₄.defer, m₄.line] + channelsOwned m₄.chns +
        writersOwned m₄.writers + m₄.readerPool.owned + m₄.writerPool.owned + m₄.tree.owned + rest)) := by
      refine hl₄.congr ?_
      unfold ConfigMemory.owned
      abel
    refine (clPoolAlloc_keeps malloc hpool).congr ?_
    unfold ConfigMemory.owned
    dsimp only
    abel

/-! ## The file -/

theorem readLines_nil {now : Nat → Timeval} {text : List Char} (h : fgets m.cfg.line text = none) :
    readLines malloc now m text l = ((m.cfg.nChannels : Int), m, l) := by
  rw [readLines]
  split
  · rfl
  · rename_i heq
    rw [h] at heq
    cases heq

theorem readLines_cons {now : Nat → Timeval} {text line rest : List Char}
    (h : fgets m.cfg.line text = some (line, rest)) :
    readLines malloc now m text l =
      let x := configScanDirective malloc (now rest.length) { m with cfg := { m.cfg with line := skipComments line } } l
      if x.1 ≠ 0 then (-1, x.2.1, x.2.2) else readLines malloc now x.2.1 rest x.2.2 := by
  rw [readLines]
  split
  · rename_i heq
    rw [h] at heq
    cases heq
  · rename_i line' rest' heq
    rw [h, Option.some.injEq, Prod.mk.injEq] at heq
    obtain ⟨rfl, rfl⟩ := heq
    rfl

theorem configScanDirective_spec (h : Tallies m) (hl : Keeps l (m.owned + rest)) (now : Timeval) :
    let x := configScanDirective malloc now m l
    (x.1, x.2.1.cfg) = Configuration.configScanDirective now m.cfg ∧ Tallies x.2.1 ∧
      Keeps x.2.2 (x.2.1.owned + rest) := by
  unfold configScanDirective Configuration.configScanDirective
  dsimp only
  cases scan (cString m.cfg.line) with
  | blank => exact ⟨rfl, h, hl⟩
  | invalid => exact ⟨rfl, h, hl⟩
  | directive d => exact configDirective_spec malloc h hl now d

/-- Lines, one after the other. -/
theorem readLines_spec (now : Nat → Timeval) (text : List Char) {m : ConfigMemory} {l : Ledger} (h : Tallies m)
    (hl : Keeps l (m.owned + rest)) :
    let x := readLines malloc now m text l
    (x.1, x.2.1.cfg) = Configuration.readLines now m.cfg text ∧ Tallies x.2.1 ∧ Keeps x.2.2 (x.2.1.owned + rest) := by
  induction hn : text.length using Nat.strong_induction_on generalizing text m l with
  | _ n ih =>
    cases hget : fgets m.cfg.line text with
    | none =>
      rw [readLines_nil malloc hget, Configuration.readLines_nil hget]
      exact ⟨rfl, h, hl⟩
    | some x =>
      obtain ⟨line, text'⟩ := x
      set m₁ : ConfigMemory := { m with cfg := { m.cfg with line := skipComments line } }
      have h₁ : Tallies m₁ :=
        ⟨⟨h.channels.ports, h.channels.addrs, h.channels.below, h.channels.count⟩, h.same⟩
      have hl₁ : Keeps l (m₁.owned + rest) := hl
      obtain ⟨hcfg₂, h₂, hl₂⟩ := configScanDirective_spec malloc h₁ hl₁ (now text'.length)
      rw [readLines_cons malloc hget, Configuration.readLines_cons hget]
      change _ ∧ _
      dsimp only
      rw [← hcfg₂]
      generalize configScanDirective malloc (now text'.length) m₁ l = x₂ at h₂ hl₂ ⊢
      obtain ⟨rc, m₂, l₂⟩ := x₂
      dsimp only at h₂ hl₂ ⊢
      by_cases hrc : rc ≠ 0
      · rw [if_pos hrc, if_pos hrc]
        exact ⟨rfl, h₂, hl₂⟩
      · rw [if_neg hrc, if_neg hrc]
        exact ih text'.length (hn ▸ length_fgets hget) text' h₂ hl₂ rfl

theorem configRead_keeps (now : Nat → Timeval) (file : Option (Nat × List Char)) (h : Tallies m)
    (hl : Keeps l (m.owned + rest)) :
    let x := configRead malloc now m file l
    (x.1, x.2.1.cfg) = Configuration.configRead now m.cfg (file.map Prod.snd) ∧ Tallies x.2.1 ∧
      Keeps x.2.2 (x.2.1.owned + rest) := by
  cases file with
  | none => exact ⟨rfl, h, hl⟩
  | some file =>
    obtain ⟨f, text⟩ := file
    have hopen : Keeps (l ++ [.opened (.stream f)]) (m.owned + ({.stream f} + rest)) :=
      (hl.opened (.stream f)).congr (add_left_comm _ _ _)
    obtain ⟨hcfg, h', hl'⟩ := readLines_spec malloc now text h hopen
    exact ⟨hcfg, h', (hl'.congr (add_left_comm _ _ _)).closed⟩

theorem tallies_configInit (l : Ledger) : Tallies (configInit malloc sizes l).1 :=
  ⟨Configuration.routes_configInit.toChannels, rfl⟩

/-- Checking a configuration takes nothing. -/
theorem configVerify_keeps (now : Nat → Timeval) (errno : Int) (file : Option (Nat × List Char)) (h : Keeps l rest) :
    Keeps (configVerify malloc sizes now errno file l).2 rest := by
  obtain ⟨-, -, hl⟩ := configRead_keeps malloc now file (tallies_configInit malloc sizes l)
    (configInit_keeps malloc sizes h)
  exact configDestroy_keeps hl

/-! ## The program -/

/-- `timer_init` succeeds. -/
def Turn.Times (t : Turn) : Prop := t.pipe.isSome = true ∧ t.handles = true

/-- `poller_init` succeeds. -/
def Turn.Polls (t : Turn) : Prop := t.devNull.isSome = true ∧ t.inotify.isSome = true ∧ t.watches = true

/-- The two ends of the pipe. -/
def pipeOwned (timer : Int × Int) : Multiset Handle := {.descriptor timer.1} + {.descriptor timer.2}

theorem timerInit_spec (t : Turn) (h : Keeps l rest) :
    (¬t.Times ∧ (timerInit t l).1 = none ∧ Keeps (timerInit t l).2 rest) ∨
      ∃ timer, t.Times ∧ (timerInit t l).1 = some timer ∧ Keeps (timerInit t l).2 (pipeOwned timer + rest) := by
  unfold timerInit Turn.Times
  cases t.pipe with
  | none => exact Or.inl ⟨fun hno => Bool.false_ne_true hno.1, rfl, h⟩
  | some timer =>
    obtain ⟨r, w⟩ := timer
    have hopen := (h.opened (.descriptor r)).opened (.descriptor w)
    cases t.handles with
    | true => exact Or.inr ⟨(r, w), ⟨rfl, rfl⟩, rfl, hopen.congr (by unfold pipeOwned; abel)⟩
    | false => exact Or.inl ⟨fun hno => Bool.false_ne_true hno.2, rfl, close_keeps (close_keeps hopen)⟩

theorem timerDestroy_keeps {timer : Int × Int} (h : Keeps l (pipeOwned timer + rest)) :
    Keeps (timerDestroy timer l) rest :=
  close_keeps (close_keeps (h.congr (by unfold pipeOwned; abel)))

/-- What a poller owns besides the channels. -/
def PollerMemory.owned (plr : PollerMemory) : Multiset Handle :=
  memory [plr.pollfds] + {.descriptor plr.fdNull} + {.descriptor plr.fdInotify}

/-- A poller that cannot be made gives back what it has taken. -/
theorem pollerInit_spec (t : Turn) (h : Keeps l rest) :
    (¬t.Polls ∧ (pollerInit malloc t l).1 = none ∧ Keeps (pollerInit malloc t l).2 rest) ∨
      ∃ plr, t.Polls ∧ (pollerInit malloc t l).1 = some plr ∧
        Keeps (pollerInit malloc t l).2 (plr.owned + rest) := by
  have hfds := allocate_keeps malloc h
  unfold pollerInit Turn.Polls
  dsimp only
  generalize allocate malloc l = x at hfds ⊢
  obtain ⟨pollfds, l₁⟩ := x
  dsimp only at hfds ⊢
  cases t.devNull with
  | none => exact Or.inl ⟨fun hno => Bool.false_ne_true hno.1, rfl, freeAll_keeps hfds⟩
  | some fdNull =>
    have hnull := hfds.opened (.descriptor fdNull)
    cases t.inotify with
    | none => exact Or.inl ⟨fun hno => Bool.false_ne_true hno.2.1, rfl, freeAll_keeps (close_keeps hnull)⟩
    | some fdInotify =>
      have hinotify := hnull.opened (.descriptor fdInotify)
      cases t.watches with
      | true =>
        refine Or.inr ⟨⟨pollfds, fdNull, fdInotify⟩, ⟨rfl, rfl, rfl⟩, rfl, hinotify.congr ?_⟩
        unfold PollerMemory.owned
        abel
      | false =>
        exact Or.inl ⟨fun hno => Bool.false_ne_true hno.2.2, rfl,
          freeAll_keeps (close_keeps (close_keeps hinotify))⟩

theorem pollerDestroy_keeps {plr : PollerMemory} {chns : List ChannelMemory}
    (h : Keeps l (channelsOwned chns + (plr.owned + rest))) : Keeps (pollerDestroy plr chns l) rest := by
  have hrest := destroyChannels_keeps h
  refine freeAll_keeps (close_keeps (close_keeps (hrest.congr ?_)))
  unfold PollerMemory.owned
  abel

theorem loopCall_keeps (c : LoopCall) (h : Keeps l (m.owned + rest)) :
    Keeps (loopCall malloc sizes m l c).2 ((loopCall malloc sizes m l c).1.owned + rest) := by
  cases c with
  | defer =>
    have hpool : Keeps l (m.tree.owned + (memory [m.defer, m.line] + channelsOwned m.chns +
        writersOwned m.writers + m.readerPool.owned + m.nodePool.owned + m.writerPool.owned + rest)) := by
      refine h.congr ?_
      unfold ConfigMemory.owned
      abel
    refine (clPoolAlloc_keeps malloc hpool).congr ?_
    unfold loopCall ConfigMemory.owned
    dsimp only
    abel
  | undefer => exact h
  | verify now errno file => exact configVerify_keeps malloc sizes now errno file h

/-- The loop of the poller, whatever happens in it. -/
theorem pollerLoop_keeps (cs : List LoopCall) {m : ConfigMemory} {l : Ledger} (h : Keeps l (m.owned + rest)) :
    Keeps (pollerLoop malloc sizes m l cs).2 ((pollerLoop malloc sizes m l cs).1.owned + rest) := by
  induction cs generalizing m l with
  | nil => exact h
  | cons c cs ih => exact ih (loopCall_keeps malloc sizes c h)

/-- The configuration that is read in a turn, and what `config_read` returns. -/
def Turn.config (t : Turn) : Int × Config :=
  Configuration.configRead t.now Configuration.configInit (t.file.map Prod.snd)

/-- The poller cannot be made, when the channels have been ceded to it. -/
def Turn.Strands (t : Turn) : Prop := 0 < t.config.1 ∧ t.Times ∧ ¬t.Polls

instance (t : Turn) : Decidable t.Strands := by
  unfold Turn.Strands Turn.Times Turn.Polls
  infer_instance

/-- How much is lost with the channels: each one with its two buffers, and a packet if it has a
reader. -/
def Turn.loss (t : Turn) : Nat :=
  if t.Strands then (t.config.2.chns.map fun chn => if chn.reader.isSome then 4 else 3).sum else 0

theorem card_channelsOwned (chns : List ChannelMemory) :
    (channelsOwned chns).card = (chns.map fun chn => if chn.packet.isSome then 4 else 3).sum := by
  induction chns with
  | nil => rfl
  | cons chn chns ih =>
    rw [channelsOwned_cons, Multiset.card_add, ih, List.map_cons, List.sum_cons]
    congr 1
    cases hpacket : chn.packet with
    | none =>
      unfold ChannelMemory.owned
      rw [hpacket]
      rfl
    | some packet =>
      unfold ChannelMemory.owned
      rw [hpacket]
      rfl

/-- The channels own what is lost with them. -/
theorem Tallies.card (h : Tallies m) : (channelsOwned m.chns).card =
    (m.cfg.chns.map fun chn => if chn.reader.isSome then 4 else 3).sum := by
  have hsame := congrArg (fun xs => (xs.map fun x => if x.2 then 4 else 3 : List Nat).sum) h.same
  rw [List.map_map, List.map_map] at hsame
  rw [card_channelsOwned]
  exact hsame

theorem memory_channelsOwned {chns : List ChannelMemory} {x : Handle} (hx : x ∈ channelsOwned chns) :
    ∃ a, x = .memory a := by
  have hmemory : ∀ as : List Nat, x ∈ memory as → ∃ a, x = .memory a := fun as hmem => by
    obtain ⟨a, -, rfl⟩ := List.mem_map.mp (Multiset.mem_coe.mp hmem)
    exact ⟨a, rfl⟩
  induction chns with
  | nil => exact absurd hx (Multiset.notMem_zero x)
  | cons chn chns ih =>
    rw [channelsOwned_cons] at hx
    rcases Multiset.mem_add.mp hx with hx | hx
    · rcases Multiset.mem_add.mp hx with hx | hx <;> exact hmemory _ hx
    · exact ih hx

/-- From `timer_init` on. -/
theorem runPoller_keeps (t : Turn) (h : Keeps l (m.owned + rest)) :
    (¬(t.Times ∧ ¬t.Polls) → Keeps (runPoller malloc sizes t m l).2 rest) ∧
      (t.Times ∧ ¬t.Polls → Keeps (runPoller malloc sizes t m l).2 (channelsOwned m.chns + rest)) := by
  have hcede : m.owned = channelsOwned m.chns + (configCedeChannels m).2.owned := by
    have hnil : channelsOwned [] = 0 := rfl
    unfold configCedeChannels ConfigMemory.owned
    dsimp only
    rw [hnil]
    abel
  unfold runPoller
  rcases timerInit_spec t h with ⟨hno, htimer, hl⟩ | ⟨timer, htimes, htimer, hl⟩
  · generalize timerInit t l = x at htimer hl ⊢
    obtain ⟨timer, l₁⟩ := x
    obtain rfl : timer = none := htimer
    exact ⟨fun _ => configDestroy_keeps hl, fun hall => absurd hall.1 hno⟩
  · generalize timerInit t l = x at htimer hl ⊢
    obtain ⟨timer', l₁⟩ := x
    obtain rfl : timer' = some timer := htimer
    dsimp only at hl ⊢
    rcases pollerInit_spec malloc t hl with ⟨hno, hplr, hl₂⟩ | ⟨plr, hpolls, hplr, hl₂⟩
    · generalize pollerInit malloc t l₁ = x at hplr hl₂ ⊢
      obtain ⟨plr, l₂⟩ := x
      obtain rfl : plr = none := hplr
      refine ⟨fun hnot => absurd ⟨htimes, hno⟩ hnot, fun _ => configDestroy_keeps (timerDestroy_keeps (hl₂.congr ?_))⟩
      rw [hcede]
      abel
    · generalize pollerInit malloc t l₁ = x at hplr hl₂ ⊢
      obtain ⟨plr', l₂⟩ := x
      obtain rfl : plr' = some plr := hplr
      have hceded : Keeps l₂ ((configCedeChannels m).2.owned +
          (channelsOwned m.chns + (plr.owned + (pipeOwned timer + rest)))) := by
        refine hl₂.congr ?_
        rw [hcede]
        abel
      have hloop := pollerLoop_keeps malloc sizes t.calls hceded
      refine ⟨fun _ => configDestroy_keeps (timerDestroy_keeps (pollerDestroy_keeps (hloop.congr ?_))),
        fun hall => absurd hpolls hall.2⟩
      have hchns : (configCedeChannels m).1 = m.chns := rfl
      rw [hchns]
      abel

/-- **One turn of the program** gives back all that it has taken, but for the channels of a poller
that cannot be made. -/
theorem runProtozoa_keeps (dryrun : Bool) (t : Turn) (h : Keeps l rest) :
    ∃ lost, Keeps (runProtozoa malloc sizes dryrun t l).2 (lost + rest) ∧ (∀ x ∈ lost, ∃ a, x = .memory a) ∧
      lost.card = if dryrun then 0 else t.loss := by
  obtain ⟨hcfg, htallies, hl⟩ := configRead_keeps malloc t.now t.file
    (tallies_configInit malloc sizes l) (configInit_keeps malloc sizes h)
  change _ = t.config at hcfg
  unfold runProtozoa
  dsimp only
  generalize configRead malloc t.now (configInit malloc sizes l).1 t.file (configInit malloc sizes l).2 = x
    at hcfg htallies hl ⊢
  obtain ⟨n, m, l₁⟩ := x
  dsimp only at hcfg htallies hl ⊢
  have hiff : t.Strands ↔ 0 < n ∧ t.Times ∧ ¬t.Polls := by
    unfold Turn.Strands
    rw [← hcfg]
  have hloss : t.loss =
      if t.Strands then (m.cfg.chns.map fun chn => if chn.reader.isSome then 4 else 3).sum else 0 := by
    unfold Turn.loss
    rw [← hcfg]
  rw [hloss]
  -- in all cases but one nothing is lost
  have hnone : ∀ {l' : Ledger}, Keeps l' rest → ∃ lost : Multiset Handle, Keeps l' (lost + rest) ∧
      (∀ x ∈ lost, ∃ a, x = .memory a) ∧ lost.card = 0 := fun hl' =>
    ⟨0, hl'.congr (zero_add rest).symm, fun x hx => absurd hx (Multiset.notMem_zero x), rfl⟩
  by_cases hn : n ≤ 0
  · rw [if_pos hn, if_neg fun hall => absurd (hiff.mp hall).1 (not_lt.mpr hn), ite_self]
    exact hnone (configDestroy_keeps hl)
  rw [if_neg hn]
  cases dryrun with
  | true => exact hnone (configDestroy_keeps hl)
  | false =>
    rw [if_neg Bool.false_ne_true, if_neg Bool.false_ne_true]
    obtain ⟨hkept, hlost⟩ := runPoller_keeps malloc sizes t hl
    by_cases hstrands : t.Times ∧ ¬t.Polls
    · rw [if_pos (hiff.mpr ⟨not_le.mp hn, hstrands⟩)]
      exact ⟨_, hlost hstrands, fun _ => memory_channelsOwned, htallies.card⟩
    · rw [if_neg fun hall => hstrands (hiff.mp hall).2]
      exact hnone (hkept hstrands)

theorem Turn.loss_eq_zero_iff (t : Turn) : t.loss = 0 ↔ ¬t.Strands := by
  unfold Turn.loss
  by_cases h : t.Strands
  · rw [if_pos h]
    refine iff_of_false (fun hzero => ?_) (not_not.mpr h)
    -- a configuration that is accepted has a channel
    obtain ⟨hpos, -⟩ := h
    have hall := List.sum_eq_zero_iff_forall_eq_nat.mp hzero
    have hnil : t.config.2.chns = [] := by
      refine List.eq_nil_iff_forall_not_mem.mpr fun chn hchn => ?_
      have hone := hall _ (List.mem_map_of_mem hchn)
      split at hone <;> exact absurd hone (by decide)
    unfold Turn.config at hpos hnil
    cases hfile : t.file with
    | none =>
      rw [hfile] at hpos
      change (0 : Int) < -1 at hpos
      exact absurd hpos (by decide)
    | some file =>
      rw [hfile] at hpos hnil
      have hroutes := Configuration.routes_configRead t.now file.2
      have hcount := hroutes.count
      rw [hroutes.nChannels] at hcount
      change 0 < (Configuration.configRead t.now Configuration.configInit (some file.2)).1 at hpos
      change (Configuration.configRead t.now Configuration.configInit (some file.2)).2.chns = [] at hnil
      rw [hnil, List.length_nil] at hcount
      rw [Configuration.configRead_fst, ← hcount] at hpos
      split at hpos <;> exact absurd hpos (by decide)
  · rw [if_neg h]
    exact iff_of_true rfl h

theorem main_keeps (dryrun : Bool) (ts : List Turn) {l : Ledger} {rest : Multiset Handle} (h : Keeps l rest) :
    ∃ lost, Keeps (main malloc sizes dryrun ts l) (lost + rest) ∧ (∀ x ∈ lost, ∃ a, x = .memory a) ∧
      lost.card = if dryrun then 0 else (ts.map Turn.loss).sum := by
  induction ts generalizing l rest with
  | nil =>
    exact ⟨0, h.congr (zero_add rest).symm, fun x hx => absurd hx (Multiset.notMem_zero x), by cases dryrun <;> rfl⟩
  | cons t ts ih =>
    obtain ⟨lost, hl, hmemory, hcard⟩ := runProtozoa_keeps malloc sizes dryrun t h
    unfold main
    dsimp only
    cases dryrun with
    | true => exact ⟨lost, hl, hmemory, hcard⟩
    | false =>
      obtain ⟨lost', hl', hmemory', hcard'⟩ := ih hl
      refine ⟨lost' + lost, hl'.congr (add_assoc _ _ _).symm, fun x hx => ?_, ?_⟩
      · exact (Multiset.mem_add.mp hx).elim (hmemory' x) (hmemory x)
      · rw [Multiset.card_add, hcard, hcard', List.map_cons, List.sum_cons, Nat.add_comm]
        rfl

/-- **What is leaked** when the configuration is read again and again: nothing that was not taken is
given back, and no descriptor and no file is kept; memory is given back once, but for the channels
of each poller that cannot be made. -/
theorem main_closedOnce_iff {dryrun : Bool} {ts : List Turn} (hsound : Sound (main malloc sizes dryrun ts [])) :
    Fair (main malloc sizes dryrun ts []) ∧
      (∀ x ∈ held (main malloc sizes dryrun ts []), ∃ a, x = .memory a) ∧
      (held (main malloc sizes dryrun ts [])).length = (if dryrun then 0 else (ts.map Turn.loss).sum) ∧
      (ClosedOnce (main malloc sizes dryrun ts []) ↔ dryrun = true ∨ ∀ t ∈ ts, ¬t.Strands) := by
  obtain ⟨lost, hkeeps, hmemory, hcard⟩ := main_keeps malloc sizes dryrun ts Keeps.nil
  rw [add_zero] at hkeeps
  have hheld := hkeeps.held
  refine ⟨hkeeps.fair, fun x hx => hmemory x (hheld ▸ Multiset.mem_coe.mpr hx), ?_, ?_⟩
  · rw [← hcard, ← hheld, Multiset.coe_card]
  · rw [hkeeps.closedOnce_iff hsound, ← Multiset.card_eq_zero, hcard]
    cases dryrun with
    | true => exact iff_of_true rfl (Or.inl rfl)
    | false =>
      rw [if_neg Bool.false_ne_true, List.sum_eq_zero_iff_forall_eq_nat, List.forall_mem_map]
      simp only [Turn.loss_eq_zero_iff, Bool.false_eq_true, false_or]

/-- Memory is given in order. -/
def inOrder (l : Ledger) : Nat := l.length + 1

/-- A file with one directive. -/
def oneCamera : List Char := "pelco_d /dev/a 1 axis /dev/b\n".toList

/-- The directive in it. -/
def oneCameraDirective : Directive :=
  ⟨"pelco_d".toList, "/dev/a".toList, "1".toList, "axis".toList, "/dev/b".toList, ['0'], []⟩

/-- A turn in which there are no more descriptors when the file is to be watched. -/
def unwatched : Turn where
  now _ := ⟨0, 0⟩
  errno := 24
  file := some (3, oneCamera)
  pipe := some (4, 5)
  handles := true
  devNull := some 6
  inotify := none
  watches := true
  calls := []
  rc := 0

/-- The configuration, when the line of the directive has been read. -/
def oneCameraRead : ConfigMemory :=
  { (configInit inOrder ⟨1, 1, 1, 1⟩ []).1 with
    cfg := { Configuration.configInit with
      line := ((fgets Configuration.configInit.line oneCamera).map fun x => skipComments x.1).getD [] } }

set_option maxRecDepth 4000 in
theorem readLines_oneCamera (l : Ledger) :
    readLines inOrder (fun _ => ⟨0, 0⟩) (configInit inOrder ⟨1, 1, 1, 1⟩ []).1 oneCamera l =
      let x := configDirective inOrder ⟨0, 0⟩ oneCameraRead oneCameraDirective l
      ((x.2.1.cfg.nChannels : Int), x.2.1, x.2.2) := by
  obtain ⟨line, hget, hscan⟩ : ∃ line, fgets Configuration.configInit.line oneCamera = some (line, []) ∧
      scan (cString (skipComments line)) = .directive oneCameraDirective := ⟨_, rfl, rfl⟩
  unfold oneCameraRead
  rw [readLines_cons inOrder hget, hget, Option.map_some, Option.getD_some]
  unfold configScanDirective
  dsimp only
  rw [hscan]
  exact (if_neg fun hno => hno rfl).trans (readLines_nil inOrder rfl)

theorem sound_unwatched : Sound (main inOrder ⟨1, 1, 1, 1⟩ false [unwatched] []) := by
  unfold main runProtozoa configRead unwatched
  dsimp only
  rw [readLines_oneCamera]
  decide +kernel

/-- The memory of two channels and of the packet of a reader is lost. -/
theorem main_closedOnce_iff_unwatched :
    Fair (main inOrder ⟨1, 1, 1, 1⟩ false [unwatched] []) ∧
      (∀ x ∈ held (main inOrder ⟨1, 1, 1, 1⟩ false [unwatched] []), ∃ a, x = .memory a) ∧
      (held (main inOrder ⟨1, 1, 1, 1⟩ false [unwatched] [])).length =
        (if false then 0 else ([unwatched].map Turn.loss).sum) ∧
      (ClosedOnce (main inOrder ⟨1, 1, 1, 1⟩ false [unwatched] []) ↔
        false = true ∨ ∀ t ∈ [unwatched], ¬t.Strands) :=
  main_closedOnce_iff inOrder ⟨1, 1, 1, 1⟩ sound_unwatched

end Protozoa.Reload
