import Protozoa.Config.Routes
import Protozoa.Program.Wire

/-!
# The program, from its configuration file on

`main` reads the configuration, gives its channels to the poller and enters the loop
(`main.c:49-87`). The file decides which receivers of which writers a packet may be sent to at all
(`Permits`), whatever arrives on the ports.

All results are for files that are accepted and whose protocols are all known (`Usable`), for any
number of rounds and any behaviour of the system in them:
* **`pollerLoop_refines`**: no run of the loop is stuck, and what the engine does in it is a run of
  the engine alone, so that the results on the engine hold of the program.
* **`pollerLoop_permitted`**: packets are written as directives of the file permit (`PermittedBy`).
* **`pollerLoop_wire`**: what goes out on a connection are whole messages of these packets.
* **`pollerLoop_heard`**: a listener there takes whole messages of them and no others.

`oneRun` is a run with a file of one directive: a command arrives on its input port, and ten bytes
leave on the other.

Out of scope: a file with an unknown protocol, of which a call of `do_read` or `do_write` is a jump
to an address that was never written.
-/

namespace Protozoa.Program

open Engine Protozoa.Configuration Lib.Scan Relation

/-- A directive of the file lets packets through to this receiver of its writer. -/
def Permits (ds : List Directive) (i : Nat) (r : Int) : Prop :=
  ∃ d, ds[i]? = some d ∧ ∃ receiver, ccnodeGetReceiver (ccnodeOf i d.range d.shift) receiver = r ∧ r ≠ 0

variable {ds : List Directive} {cfg : Config} {os : Os} {slots : Slot Nat → Timeval × Timeval}

theorem ccnodeOf_writer (writer : Nat) (range shift : List Char) : (ccnodeOf writer range shift).writer = writer := by
  have hrange : (ccnodeSetRange (ccnodeInit writer) range).writer = writer := by
    unfold ccnodeSetRange
    split
    · rfl
    · split <;> rfl
  unfold ccnodeOf ccnodeSetShift
  split <;> exact hrange

/-- The nodes of a reader permit what their directives do. -/
theorem permits_of_mem {port : Port} {node : Ccnode} (h : node ∈ nodesFrom ds port) {r : Int}
    (hr : ccnodeGetReceiver node r ≠ 0) : Permits ds node.writer (ccnodeGetReceiver node r) := by
  obtain ⟨⟨d, i⟩, hx, rfl⟩ := List.mem_map.mp (List.mem_reverse.mp h)
  have hd : ds[i]? = some d := List.mem_zipIdx_iff_getElem?.mp (List.mem_of_mem_filter hx)
  rw [ccnodeOf_writer]
  exact ⟨d, hd, r, rfl, hr⟩

/-- **Where the loop starts** -/
theorem ready_pollerInit (hroutes : Routes ds cfg) (hvalid : Valid cfg) (slots : Slot Nat → Timeval × Timeval) :
    Ready (writersOf cfg) (Permits ds) (pollerInit cfg slots) := by
  have hreader : ∀ k, ∀ rdr ∈ (pollerInit cfg slots).readers k, ∃ chn ∈ cfg.chns, chn.reader = some rdr := by
    intro k rdr hrdr
    obtain ⟨chn, hchn, hsome⟩ := Option.bind_eq_some_iff.mp hrdr
    exact ⟨chn, List.mem_of_find?_eq_some hchn, hsome⟩
  refine ⟨⟨⟨shaped_start _ _, confined_start _ _, fun x hx => ?_⟩, fun k rdr hrdr => ?_,
    fun k rdr hrdr node hnode r hr => ?_, fun k => ?_⟩, fun k => ?_⟩
  · exact absurd hx List.not_mem_nil
  · obtain ⟨chn, hchn, hsome⟩ := hreader k rdr hrdr
    exact hvalid.readers chn hchn rdr hsome
  · obtain ⟨chn, hchn, hsome⟩ := hreader k rdr hrdr
    have hfor := hroutes.reader chn.port
    rw [hroutes.channelAt_port hchn, Option.bind_some, hsome] at hfor
    obtain ⟨d, -, -, -, -, hhead⟩ := hfor
    rw [hhead] at hnode
    exact permits_of_mem hnode hr
  · show (((cfg.chns.find? _).map channelOf).getD _).reader.isSome = ((cfg.chns.find? _).bind _).isSome
    cases cfg.chns.find? fun chn => decide (chn.addr = k) with
    | none => rfl
    | some chn => exact Option.isSome_map
  · show Roomy (((cfg.chns.find? _).map channelOf).getD _).rxbuf
    cases cfg.chns.find? fun chn => decide (chn.addr = k) with
    | none => exact ⟨rfl, Nat.zero_lt_succ 9⟩
    | some chn => exact ⟨rfl, Nat.zero_lt_succ 9⟩

theorem wired_pollerInit (wtrs : Nat → Ccwriter Nat) (cfg : Config) (slots : Slot Nat → Timeval × Timeval) (k : Nat) :
    Wired wtrs k (pollerInit cfg slots) := by
  refine ⟨[], List.nil_sublist _, ?_⟩
  show [] ++ (((cfg.chns.find? _).map channelOf).getD _).txbuf.data = []
  cases cfg.chns.find? fun chn => decide (chn.addr = k) <;> rfl

/-- The writer of a directive. -/
theorem writersOf_eq (hroutes : Routes ds cfg) {i : Nat} {d : Directive} (hd : ds[i]? = some d) :
    ∃ chn, cfg.channelAt d.output = some chn ∧ (writersOf cfg i).chn = chn.addr ∧
      ∀ protocol ∈ writerProtocol d.protocolOut, (writersOf cfg i).protocol = protocol := by
  obtain ⟨chn, hchn, hwtr⟩ := hroutes.writer i d hd
  refine ⟨chn, hchn, ?_, fun protocol hprotocol => ?_⟩
  · unfold writersOf
    rw [hwtr]
    unfold ccwriterInit ccwriterSetProtocol
    cases writerProtocol d.protocolOut <;> rfl
  · unfold writersOf
    rw [hwtr]
    unfold ccwriterInit ccwriterSetProtocol
    rw [show writerProtocol d.protocolOut = some protocol from hprotocol]
    rfl

/-- Moves are turns. -/
theorem turns_of_moves {wtrs : Nat → Ccwriter Nat} {ok : Nat → Int → Prop} {p p' : Poller}
    (h : Moves os wtrs ok p p') :
    ∃ ts, turns os wtrs p.world ts = some p'.world ∧ ∀ a, Turn.act a ∈ ts → a.Allowed ok := by
  have hone : ∀ {w w' : World Nat Nat} {t : Turn Nat Nat}, turn os wtrs w t = some w' →
      (∀ a, Turn.act a = t → a.Allowed ok) →
      ∃ ts, turns os wtrs w ts = some w' ∧ ∀ a, Turn.act a ∈ ts → a.Allowed ok := by
    intro w w' t hturn ht
    refine ⟨[t], ?_, fun a ha => ht a (List.mem_singleton.mp ha)⟩
    rw [turns, List.foldlM_cons, hturn]
    rfl
  have hmove : ∀ {p p' : Poller}, Move os wtrs ok p p' →
      ∃ ts, turns os wtrs p.world ts = some p'.world ∧ ∀ a, Turn.act a ∈ ts → a.Allowed ok := by
    intro p p' hmove
    have hnone : ∃ ts, turns os wtrs p.world ts = some p.world ∧ ∀ a, Turn.act a ∈ ts → a.Allowed ok :=
      ⟨[], rfl, fun _ ha => absurd ha List.not_mem_nil⟩
    cases hmove with
    | turn ht hturn =>
      refine hone hturn fun a ha => ?_
      subst ha
      cases a with
      | submit i pkt => exact ht
      | defer dpkt pkt ms => exact ht.elim
      | _ => trivial
    | @channel k chn => exact hone (t := .act (.channel k chn)) rfl fun a ha => by cases ha; trivial
    | @send k n flags txbuf sent =>
      exact hone (t := .act (.channel k { p.channel k with flags := flags, txbuf := txbuf })) rfl
        fun a ha => by cases ha; trivial
    | @close k chn => exact hone (t := .act (.channel k chn)) rfl fun a ha => by cases ha; trivial
    | reader => exact hnone
    | poll => exact hnone
  induction h with
  | refl => exact ⟨[], rfl, fun _ ha => absurd ha List.not_mem_nil⟩
  | tail _ hlast ih =>
    obtain ⟨ts, hturns, hts⟩ := ih
    obtain ⟨ts', hturns', hts'⟩ := hmove hlast
    refine ⟨ts ++ ts', ?_, fun a ha => (List.mem_append.mp ha).elim (hts a) (hts' a)⟩
    unfold turns at hturns hturns' ⊢
    rw [List.foldlM_append, hturns]
    exact hturns'

theorem mem_of_directives {lines : List Scanned} {d : Directive} (h : d ∈ (outcome lines).directives) :
    .directive d ∈ lines := by
  induction lines with
  | nil => cases h
  | cons line lines ih =>
    cases line with
    | blank => exact List.mem_cons_of_mem _ (ih h)
    | invalid => cases h
    | directive d' =>
      rcases List.mem_cons.mp h with rfl | h
      · exact List.mem_cons_self
      · exact List.mem_cons_of_mem _ (ih h)

/-! ## Runs -/

section

variable (os : Os) (now : Nat → Timeval) {text : List Char} (slots : Slot Nat → Timeval × Timeval) (rounds : List Round)

/-- A file that `main` goes on with, in which all protocols are known. -/
structure Usable (now : Nat → Timeval) (text : List Char) : Prop where
  accepted : 0 < (configRead now configInit (some text)).1
  known : AllKnown (scans text)

theorem Usable.valid (h : Usable now text) : Valid (configRead now configInit (some text)).2 :=
  ((wellConfigured_iff now 0 text).mpr (Or.inr h.known)).accepted h.accepted

/-- The loop with the configuration of a file. -/
def pollerRun (text : List Char) : Option (Option Int × Poller) :=
  let cfg := (configRead now configInit (some text)).2
  pollerLoop os (writersOf cfg) (pollerInit cfg slots) (channelsOf cfg) rounds

/-- A file with one directive. -/
def oneRoute : List Char := "pelco_d /dev/a 1 vicon /dev/b\n".toList

/-- The directive in it. -/
def oneDirective : Directive :=
  ⟨"pelco_d".toList, "/dev/a".toList, "1".toList, "vicon".toList, "/dev/b".toList, ['0'], []⟩

set_option maxRecDepth 4000 in
theorem scans_oneRoute : scans oneRoute = [.directive oneDirective] := by
  obtain ⟨line, hget, hscan⟩ : ∃ line, fgets configInit.line oneRoute = some (line, []) ∧
      scan (cString (skipComments line)) = .directive oneDirective := ⟨_, rfl, rfl⟩
  unfold scans
  rw [scannedLines_cons hget, scannedLines_nil rfl, List.map_cons, hscan]
  rfl

theorem usable_oneRoute : Usable (fun _ => ⟨0, 0⟩) oneRoute where
  accepted := by
    rw [configRead_fst, scans_oneRoute]
    decide
  known := by
    rw [scans_oneRoute]
    intro d hd
    obtain rfl := Scanned.directive.inj (List.mem_singleton.mp hd)
    exact ⟨by decide, by decide⟩

/-- All slots at one time. -/
def oneSlots (_ : Slot Nat) : Timeval × Timeval := (⟨1, 0⟩, ⟨1, 0⟩)

/-- A message in Pelco D for receiver 1. -/
def oneMessage : List Byte := [0xff, 1, 0, 2, 0x20, 0, 0x23]

/-- A round in which the system does the same to all channels. -/
def evenRound (revents : PollEvents) (taken : Option Nat) (incoming : Incoming) : Round :=
  ⟨fun k => ⟨(k + 3, true), false, revents, taken, incoming, true⟩, none, false, false, .nothing⟩

/-- Rounds in which the message comes in on one port, and the other port is opened for what comes of
it. -/
def arrival : List Round :=
  [evenRound pollNothing none (.bytes none), evenRound ⟨false, true, false⟩ none (.bytes (some oneMessage)),
    evenRound pollNothing none (.bytes none)]

/-- A round in which the socket takes this many bytes. -/
def departure (n : Nat) : Round := evenRound ⟨false, false, true⟩ (some n) (.bytes none)

/-- The configuration of a text with one line. -/
def configOf (text : List Char) : Config :=
  (configScanDirective ⟨0, 0⟩
    { configInit with line := skipComments (((fgets configInit.line text).map Prod.fst).getD []) }).2

theorem configRead_line {text line : List Char} (hget : fgets configInit.line text = some (line, []))
    (hscan : (configScanDirective ⟨0, 0⟩ { configInit with line := skipComments line }).1 = 0) :
    (configRead (fun _ => ⟨0, 0⟩) configInit (some text)).2 = configOf text := by
  unfold configRead configOf
  dsimp only
  rw [readLines_cons hget, hget]
  dsimp only
  rw [if_neg (not_not.mpr hscan), readLines_nil (if_pos rfl)]
  rfl

/-- A run in which the message comes in and what is made of it goes out. -/
def oneRun : Option (Option Int × Poller) :=
  pollerRun ticking (fun _ => ⟨0, 0⟩) oneSlots (arrival ++ [departure 10]) oneRoute

/-- What goes out: receiver 1, pan to the left. -/
def oneSent : List Byte := [0x80, 0x51, 0x20, 0, 0, 0, 8, 0, 0, 0]

/-- What the directives of a file permit. -/
abbrev PermittedBy (text : List Char) : Nat → Int → Prop := Permits (outcome (scans text)).directives

/-- **A run** -/
theorem pollerRun_goes (h : Usable now text) :
    ∃ r p', pollerRun os now slots rounds text = some (r, p') ∧
      Goes os (writersOf (configRead now configInit (some text)).2) (PermittedBy text)
        (pollerInit (configRead now configInit (some text)).2 slots) p' :=
  pollerLoop_goes os _ (ready_pollerInit (routes_configRead now text) (h.valid now) slots) _ rounds

set_option maxRecDepth 4000 in
theorem configRead_oneRoute : (configRead (fun _ => ⟨0, 0⟩) configInit (some oneRoute)).2 = configOf oneRoute := by
  obtain ⟨line, hget, hscan⟩ : ∃ line, fgets configInit.line oneRoute = some (line, []) ∧
      (configScanDirective ⟨0, 0⟩ { configInit with line := skipComments line }).1 = 0 := ⟨_, rfl, rfl⟩
  exact configRead_line hget hscan

theorem channelAt_oneRoute : ∃ chn, chn.addr = 1 ∧
    (configRead (fun _ => ⟨0, 0⟩) configInit (some oneRoute)).2.channelAt oneDirective.output = some chn := by
  rw [configRead_oneRoute]
  exact ⟨_, rfl, rfl⟩

set_option maxRecDepth 4000 in
/-- One packet is written in the run, and its message is on the wire. -/
theorem oneRun_spec : ∃ p, oneRun = some (none, p) ∧ (writes p.world.trace).length = 1 ∧ p.wire 1 = oneSent := by
  obtain ⟨p, hrun, hone, hwire⟩ : ∃ p, pollerLoop ticking (writersOf (configOf oneRoute))
      (pollerInit (configOf oneRoute) oneSlots) (channelsOf (configOf oneRoute)) (arrival ++ [departure 10]) =
        some (none, p) ∧ (writes p.world.trace).length = 1 ∧ p.wire 1 = oneSent := ⟨_, rfl, rfl, rfl⟩
  refine ⟨p, ?_, hone, hwire⟩
  unfold oneRun pollerRun
  rw [configRead_oneRoute]
  exact hrun

/-- A writer for a port is that of a directive that names it. -/
theorem writer_of_port (h : Usable now text) {port : Port} {chn : ConfChannel}
    (hport : (configRead now configInit (some text)).2.channelAt port = some chn) {i : Nat} {r : Int}
    (hpermits : PermittedBy text i r) (hchn : (writersOf (configRead now configInit (some text)).2 i).chn = chn.addr) :
    ∃ d protocol, d ∈ (outcome (scans text)).directives ∧ d.output = port ∧
      writerProtocol d.protocolOut = some protocol ∧
      (writersOf (configRead now configInit (some text)).2 i).protocol = protocol := by
  have hroutes := routes_configRead now text
  obtain ⟨d, hd, -⟩ := hpermits
  obtain ⟨chn', hchn', haddr, hprotocol⟩ := writersOf_eq hroutes hd
  have hmem := List.mem_of_getElem? hd
  obtain ⟨protocol, hknown⟩ := Option.isSome_iff_exists.mp (h.known d (mem_of_directives hmem)).protocolOut
  obtain ⟨hin, hout⟩ := channelAt_some hchn'
  obtain ⟨hin', hout'⟩ := channelAt_some hport
  have heq := hroutes.addr_inj hin hin' (haddr.symm.trans hchn)
  exact ⟨d, protocol, hmem, by rw [← hout, heq, hout'], hknown, hprotocol protocol hknown⟩

/-- **The loop is never stuck**, whatever the system does, and what the engine does in it is a run
of the engine alone, on a clock with some of the readings, in which packets are submitted that
directives permit. -/
theorem pollerLoop_refines (h : Usable now text) :
    ∃ r p', pollerRun os now slots rounds text = some (r, p') ∧
      ∃ g, ∃ hg : StrictMono g, ∃ actions m,
        run (os.thin g hg) (writersOf (configRead now configInit (some text)).2)
          (pollerInit (configRead now configInit (some text)).2 slots).world actions = some (p'.world.reread m) ∧
        ∀ a ∈ actions, a.Allowed (PermittedBy text) := by
  obtain ⟨r, p', hrun, hgoes⟩ := pollerRun_goes os now slots rounds h
  obtain ⟨ts, hturns, hts⟩ := turns_of_moves hgoes.moves
  obtain ⟨g, hg, -, actions, m, hactions, hmem⟩ := turns_refines _ hturns
  exact ⟨r, p', hrun, g, hg, actions, m, hactions, fun a ha => hts a (hmem a ha)⟩

theorem pollerLoop_refines_oneRoute :
    ∃ p, oneRun = some (none, p) ∧ (writes p.world.trace).length = 1 ∧
      ∃ g, ∃ hg : StrictMono g, ∃ actions m,
        run (ticking.thin g hg) (writersOf (configRead (fun _ => ⟨0, 0⟩) configInit (some oneRoute)).2)
          (pollerInit (configRead (fun _ => ⟨0, 0⟩) configInit (some oneRoute)).2 oneSlots).world actions =
            some (p.world.reread m) ∧
        ∀ a ∈ actions, a.Allowed (PermittedBy oneRoute) := by
  obtain ⟨p, hrun, hone, -⟩ := oneRun_spec
  obtain ⟨r, p', hrun', hrefines⟩ :=
    pollerLoop_refines ticking _ oneSlots (arrival ++ [departure 10]) usable_oneRoute
  obtain ⟨-, rfl⟩ := Prod.mk.inj (Option.some.inj (hrun.symm.trans hrun'))
  exact ⟨p, hrun, hone, hrefines⟩

/-- A packet that has been written is one for the writer of a directive, which writes to the port
that the directive names, and the receiver is one that the directive lets through. -/
structure Directed (ds : List Directive) (cfg : Config) (i : Nat) (pkt : Ccpacket) (d : Directive) : Prop where
  directive : ds[i]? = some d
  port : ∃ chn, cfg.channelAt d.output = some chn ∧ (writersOf cfg i).chn = chn.addr
  protocol : ∃ protocol, writerProtocol d.protocolOut = some protocol ∧ (writersOf cfg i).protocol = protocol ∧
    0 < pkt.receiver ∧ pkt.receiver ≤ protocol.nRcv
  receiver : ∃ receiver, ccnodeGetReceiver (ccnodeOf i d.range d.shift) receiver = pkt.receiver

/-- **Packets are written as directives permit**, in every run of the loop, whatever arrives on the
ports. -/
theorem pollerLoop_permitted (h : Usable now text) {r : Option Int} {p' : Poller}
    (hrun : pollerRun os now slots rounds text = some (r, p')) :
    ∀ x ∈ writes p'.world.trace, ∃ d, Directed (outcome (scans text)).directives
      (configRead now configInit (some text)).2 x.1 x.2 d := by
  obtain ⟨r', p'', hrun', hgoes⟩ := pollerRun_goes os now slots rounds h
  obtain ⟨-, rfl⟩ := Prod.mk.inj (Option.some.inj (hrun.symm.trans hrun'))
  have hroutes := routes_configRead now text
  intro x hx
  obtain ⟨hrange, d, hd, receiver, hreceiver, -⟩ := hgoes.ready.written x hx
  obtain ⟨chn, hchn, haddr, hprotocol⟩ := writersOf_eq hroutes hd
  have hmem : .directive d ∈ scans text := mem_of_directives (List.mem_of_getElem? hd)
  obtain ⟨protocol, hknown⟩ := Option.isSome_iff_exists.mp (h.known d hmem).protocolOut
  have hsame := hprotocol protocol hknown
  exact ⟨d, hd, ⟨chn, hchn, haddr⟩, ⟨protocol, hknown, hsame, hsame ▸ hrange⟩, receiver, hreceiver⟩

theorem pollerLoop_permitted_oneRoute :
    ∃ p, oneRun = some (none, p) ∧ (writes p.world.trace).length = 1 ∧
      ∀ x ∈ writes p.world.trace, ∃ d, Directed (outcome (scans oneRoute)).directives
        (configRead (fun _ => ⟨0, 0⟩) configInit (some oneRoute)).2 x.1 x.2 d := by
  obtain ⟨p, hrun, hone, -⟩ := oneRun_spec
  exact ⟨p, hrun, hone, pollerLoop_permitted ticking _ _ _ usable_oneRoute hrun⟩

/-- **What goes out on a connection**, in every run of the loop: for a port that Manchester, Pelco
or Vicon writers write to, whole messages of the packets written for it, in their order, of which
the last ones may still wait in the transmit buffer. -/
theorem pollerLoop_wire (h : Usable now text) {port : Port} {chn : ConfChannel}
    (hport : (configRead now configInit (some text)).2.channelAt port = some chn)
    (hwriters : ∀ d ∈ (outcome (scans text)).directives, d.output = port →
      ∀ protocol ∈ writerProtocol d.protocolOut, protocol.ByMessages)
    {r : Option Int} {p' : Poller} (hrun : pollerRun os now slots rounds text = some (r, p')) :
    ∃ mess : List (List Byte),
      mess.Sublist (sentTo (writersOf (configRead now configInit (some text)).2) chn.addr (writes p'.world.trace)) ∧
      p'.wire chn.addr ++ (p'.channel chn.addr).txbuf.data = mess.flatten := by
  obtain ⟨r', p'', hrun', hgoes⟩ := pollerRun_goes os now slots rounds h
  obtain ⟨-, rfl⟩ := Prod.mk.inj (Option.some.inj (hrun.symm.trans hrun'))
  have hready := ready_pollerInit (routes_configRead now text) (h.valid now) slots
  refine Wired.moves (fun i r hpermits hchn => ?_) hready.toSound (wired_pollerInit _ _ slots chn.addr) hgoes.moves
  obtain ⟨d, protocol, hd, hout, hknown, hsame⟩ := writer_of_port now h hport hpermits hchn
  rw [hsame]
  exact hwriters d hd hout protocol hknown

theorem pollerLoop_wire_oneRoute :
    ∃ p, oneRun = some (none, p) ∧ p.wire 1 = oneSent ∧ ∃ mess : List (List Byte),
      mess.Sublist (sentTo (writersOf (configRead (fun _ => ⟨0, 0⟩) configInit (some oneRoute)).2) 1
        (writes p.world.trace)) ∧
      p.wire 1 ++ (p.channel 1).txbuf.data = mess.flatten := by
  obtain ⟨p, hrun, -, hwire⟩ := oneRun_spec
  obtain ⟨chn, haddr, hchn⟩ := channelAt_oneRoute
  refine ⟨p, hrun, hwire, haddr ▸ pollerLoop_wire ticking _ _ _ usable_oneRoute hchn ?_ hrun⟩
  intro d hd _ protocol hprotocol
  rw [scans_oneRoute] at hd
  obtain rfl := List.mem_singleton.mp hd
  obtain rfl := Option.some.inj (show some Protocol.vicon = some protocol from hprotocol)
  decide

/-- **A listener** at a port whose writers have one protocol, with the scanner of this protocol: in
every run of the loop it takes whole messages of the packets written for the port, in their order,
and no others. -/
theorem pollerLoop_heard (h : Usable now text) {port : Port} {chn : ConfChannel}
    (hport : (configRead now configInit (some text)).2.channelAt port = some chn) {protocol : Protocol}
    {S : Scanner Byte} (hS : scanner protocol = some S)
    (hwriters : ∀ d ∈ (outcome (scans text)).directives, d.output = port →
      writerProtocol d.protocolOut = some protocol)
    {r : Option Int} {p' : Poller} (hrun : pollerRun os now slots rounds text = some (r, p')) :
    (S.frames (p'.wire chn.addr)).Sublist
      (sentTo (writersOf (configRead now configInit (some text)).2) chn.addr (writes p'.world.trace)) := by
  obtain ⟨r', p'', hrun', hgoes⟩ := pollerRun_goes os now slots rounds h
  obtain ⟨-, rfl⟩ := Prod.mk.inj (Option.some.inj (hrun.symm.trans hrun'))
  have hready := ready_pollerInit (routes_configRead now text) (h.valid now) slots
  have hone : ∀ i r, PermittedBy text i r → (writersOf (configRead now configInit (some text)).2 i).chn = chn.addr →
      (writersOf (configRead now configInit (some text)).2 i).protocol = protocol := by
    intro i r hpermits hchn
    obtain ⟨d, protocol', hd, hout, hknown, hsame⟩ := writer_of_port now h hport hpermits hchn
    rw [hsame]
    exact Option.some.inj (hknown.symm.trans (hwriters d hd hout))
  have hwired := Wired.moves (fun i r hpermits hchn => hone i r hpermits hchn ▸ byMessages_of_scanner hS)
    hready.toSound (wired_pollerInit _ _ slots chn.addr) hgoes.moves
  exact hwired.frames (fun i r hpermits hchn => by rw [hone i r hpermits hchn]; exact hS) (scanner_nil hS)
    hgoes.ready.toSound

theorem pollerLoop_heard_oneRoute :
    ∃ p, oneRun = some (none, p) ∧ Vicon.frames.frames (p.wire 1) = [oneSent] ∧
      (Vicon.frames.frames (p.wire 1)).Sublist
        (sentTo (writersOf (configRead (fun _ => ⟨0, 0⟩) configInit (some oneRoute)).2) 1 (writes p.world.trace)) := by
  obtain ⟨p, hrun, -, hwire⟩ := oneRun_spec
  obtain ⟨chn, haddr, hchn⟩ := channelAt_oneRoute
  refine ⟨p, hrun, ?_,
    haddr ▸ pollerLoop_heard ticking _ _ _ usable_oneRoute hchn (show scanner .vicon = _ from rfl) ?_ hrun⟩
  · rw [hwire]
    exact Vicon.frames_whole (by decide) (by decide)
  · intro d hd _
    rw [scans_oneRoute] at hd
    obtain rfl := List.mem_singleton.mp hd
    rfl

end

end Protozoa.Program
