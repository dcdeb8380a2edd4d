import Mathlib.Logic.Relation
import Protozoa.Engine.Clock
import Protozoa.Engine.Output
import Protozoa.Program
import Protozoa.Protocol.Traffic

/-!
# What the program can do next

All that the functions of the poller (`poller.c:84-248`) do is made of a few moves (`Move`): a turn
of the engine, with a packet that the reader of a port may submit; a change of a reader's packet; a
change of a channel that leaves its transmit buffer; bytes that are sent; a channel that is closed.

`Ready` is what holds whenever a function of the poller is called or has returned: the engine is
sound, every reader has its `do_read` and room in its channel for what comes next (`Roomy`), and
what a reader may submit is allowed (`Inner`).

* `doRead_goes`, `channelRead_goes`, `channelWrite_goes`, `pollerChannelEvents_goes`, … : no call is
  stuck in a state that is `Ready`, and it leads to such a state by moves (`Goes`).
* `pollerLoop_goes`: the same of the loop, for any number of rounds.

What is to hold of all that goes out or is sent need only be shown of a move.
-/

namespace Protozoa.Program

open Engine Protozoa.Configuration Relation

variable {os : Os} {wtrs : Nat → Ccwriter Nat} {ok : Nat → Int → Prop}

/-- A turn of the engine that does not come from the poller. -/
def Inner (ok : Nat → Int → Prop) : Turn Nat Nat → Prop
  | .look => True
  | .act (.submit i pkt) => ok i pkt.receiver
  | .act .next => True
  | .act .alarm => True
  | .act (.defer ..) => False
  | .act (.channel ..) => False

/-- Turns of the engine lead from one state to the other. -/
def Engages (os : Os) (wtrs : Nat → Ccwriter Nat) (ok : Nat → Int → Prop) (w w' : World Nat Nat) : Prop :=
  ∃ ts, turns os wtrs w ts = some w' ∧ ∀ t ∈ ts, Inner ok t

namespace Engages

variable {w w' w'' : World Nat Nat}

theorem refl (w : World Nat Nat) : Engages os wtrs ok w w := ⟨[], rfl, nofun⟩

theorem trans (h : Engages os wtrs ok w w') (h' : Engages os wtrs ok w' w'') : Engages os wtrs ok w w'' := by
  obtain ⟨ts, hturns, hts⟩ := h
  obtain ⟨ts', hturns', hts'⟩ := h'
  refine ⟨ts ++ ts', ?_, fun t ht => (List.mem_append.mp ht).elim (hts t) (hts' t)⟩
  unfold turns at hturns hturns' ⊢
  rw [List.foldlM_append, hturns]
  exact hturns'

theorem turn {t : Turn Nat Nat} (ht : Inner ok t) (h : Engine.turn os wtrs w t = some w') :
    Engages os wtrs ok w w' := by
  refine ⟨[t], ?_, fun t' ht' => List.mem_singleton.mp ht' ▸ ht⟩
  rw [turns, List.foldlM_cons, h]
  rfl

end Engages

/-- What the engine needs, and what has come of it: packets have been written for receivers that are
allowed. -/
structure Sound (wtrs : Nat → Ccwriter Nat) (ok : Nat → Int → Prop) (w : World Nat Nat) : Prop where
  shaped : Shaped w
  confined : Confined ok w.slots
  written : ∀ x ∈ writes w.trace, InRange wtrs x.1 x.2 ∧ ok x.1 x.2.receiver

variable (os wtrs) in
/-- **One turn** of the engine. -/
theorem turn_spec {w : World Nat Nat} {t : Turn Nat Nat} (h : Sound wtrs ok w) (ht : Inner ok t) :
    ∃ w', turn os wtrs w t = some w' ∧ Sound wtrs ok w' ∧ ∃ sent, Outputs wtrs ok w w' sent := by
  cases t with
  | look =>
    exact ⟨w.tick, rfl, ⟨h.shaped, h.confined, h.written⟩, [], Silent.outputs wtrs ⟨rfl, rfl⟩ h.confined⟩
  | act a =>
    have hallowed : a.Allowed ok ∧ ∀ k chn, a ≠ .channel k chn := by
      cases a with
      | submit i pkt => exact ⟨ht, nofun⟩
      | next => exact ⟨trivial, nofun⟩
      | alarm => exact ⟨trivial, nofun⟩
      | defer dpkt pkt ms => exact ht.elim
      | channel k chn => exact ht.elim
    obtain ⟨w', hstep, hfollows⟩ := step_follows os wtrs h.shaped a
    obtain ⟨sent, hsent⟩ := step_outputs hstep hallowed.1 hallowed.2 h.confined
    refine ⟨w', hstep, ⟨hfollows.shaped h.shaped, hsent.slots, fun x hx => ?_⟩, sent, hsent⟩
    rw [hsent.writes] at hx
    exact (List.mem_append.mp hx).elim (h.written x) (hsent.allowed x)

/-- Turns one after the other. -/
theorem Engages.sound {w w' : World Nat Nat} (h : Sound wtrs ok w) (hturns : Engages os wtrs ok w w') :
    Sound wtrs ok w' ∧ ∃ sent, Outputs wtrs ok w w' sent := by
  obtain ⟨ts, hturns, hts⟩ := hturns
  induction ts generalizing w with
  | nil =>
    obtain rfl := Option.some.inj hturns
    exact ⟨h, [], Silent.outputs wtrs ⟨rfl, rfl⟩ h.confined⟩
  | cons t ts ih =>
    obtain ⟨w₁, hturn, hturns⟩ := Option.bind_eq_some_iff.mp hturns
    obtain ⟨w₂, hturn', hsound, sent, hsent⟩ := turn_spec os wtrs h (hts t List.mem_cons_self)
    obtain rfl := Option.some.inj (hturn.symm.trans hturn')
    obtain ⟨hsound', sent', hsent'⟩ := ih hsound hturns fun t ht => hts t (List.mem_cons_of_mem _ ht)
    exact ⟨hsound', _, hsent.trans hsent'⟩

/-- A channel with the same output. -/
structure Keeps (chn chn' : Channel) : Prop where
  txbuf : chn'.txbuf = chn.txbuf
  reader : chn'.reader = chn.reader

/-- What the program can do next. -/
inductive Move (os : Os) (wtrs : Nat → Ccwriter Nat) (ok : Nat → Int → Prop) (p : Poller) : Poller → Prop
  | turn {t : Turn Nat Nat} {world : World Nat Nat} (ht : Inner ok t) (hturn : turn os wtrs p.world t = some world) :
      Move os wtrs ok p { p with world := world }
  | reader {k : Nat} {rdr : ConfReader} {rdr' : Ccreader} (hrdr : p.readers k = some rdr)
      (hsame : SameReader rdr.toCcreader rdr') :
      Move os wtrs ok p { p with readers := Function.update p.readers k (some { rdr with toCcreader := rdr' }) }
  | channel {k : Nat} {chn : Channel} (hkeeps : Keeps (p.channel k) chn) : Move os wtrs ok p (p.setChannel k chn)
  | send {k n : Nat} {flags : BitVec 32} {txbuf : Buffer} {sent : List Byte}
      (hwrite : bufferWrite (p.channel k).txbuf n = some (txbuf, sent)) :
      Move os wtrs ok p { p.setChannel k { p.channel k with flags := flags, txbuf := txbuf } with
        wire := Function.update p.wire k (p.wire k ++ sent) }
  | close {k : Nat} {chn : Channel} (htxbuf : chn.txbuf = bufferClear (p.channel k).txbuf)
      (hreader : chn.reader = (p.channel k).reader) : Move os wtrs ok p ((p.setChannel k chn).restart k)
  | poll {pollfds : Nat → PollEvents} : Move os wtrs ok p { p with pollfds := pollfds }

/-- Moves one after the other. -/
abbrev Moves (os : Os) (wtrs : Nat → Ccwriter Nat) (ok : Nat → Int → Prop) : Poller → Poller → Prop :=
  ReflTransGen (Move os wtrs ok)

/-- What holds whatever a function of the poller is doing. -/
structure Steady (wtrs : Nat → Ccwriter Nat) (ok : Nat → Int → Prop) (p : Poller) : Prop
    extends Sound wtrs ok p.world where
  reads : ∀ k, ∀ rdr ∈ p.readers k, rdr.doRead.isSome
  reaches : ∀ k, ∀ rdr ∈ p.readers k, ∀ node ∈ rdr.head, ∀ r, ccnodeGetReceiver node r ≠ 0 →
    ok node.writer (ccnodeGetReceiver node r)
  same : ∀ k, (p.channel k).reader.isSome = (p.readers k).isSome

/-- A receive buffer holds less than a message. -/
def Roomy (rxbuf : Buffer) : Prop := rxbuf.size = bufferSize ∧ rxbuf.data.length < 10

/-- What holds when a function of the poller is called, and when it has returned. -/
structure Ready (wtrs : Nat → Ccwriter Nat) (ok : Nat → Int → Prop) (p : Poller) : Prop extends Steady wtrs ok p where
  room : ∀ k, Roomy (p.channel k).rxbuf

namespace Poller

variable {p : Poller} {k : Nat} {chn : Channel}

@[simp] theorem setChannel_channel_self (p : Poller) (k : Nat) (chn : Channel) :
    (p.setChannel k chn).channel k = chn := Function.update_self _ _ _

theorem setChannel_channel_of_ne (p : Poller) {k j : Nat} (chn : Channel) (h : j ≠ k) :
    (p.setChannel k chn).channel j = p.channel j := Function.update_of_ne h _ _

@[simp] theorem setChannel_setChannel (p : Poller) (k : Nat) (chn chn' : Channel) :
    (p.setChannel k chn).setChannel k chn' = p.setChannel k chn' := by
  unfold setChannel
  rw [Function.update_idem]

@[simp] theorem setChannel_self (p : Poller) (k : Nat) : p.setChannel k (p.channel k) = p := by
  unfold setChannel channel
  rw [Function.update_eq_self]

@[simp] theorem setChannel_readers (p : Poller) (k : Nat) (chn : Channel) : (p.setChannel k chn).readers = p.readers :=
  rfl

end Poller

namespace Steady

variable {p : Poller} {k : Nat}

/-- A channel is written. -/
theorem setChannel (h : Steady wtrs ok p) {chn : Channel} (hreader : chn.reader = (p.channel k).reader) :
    Steady wtrs ok (p.setChannel k chn) where
  shaped := h.shaped
  confined := h.confined
  written := h.written
  reads := h.reads
  reaches := h.reaches
  same j := by
    by_cases hj : j = k
    · rw [hj, Poller.setChannel_channel_self, hreader]
      exact h.same k
    · rw [Poller.setChannel_channel_of_ne p chn hj]
      exact h.same j

/-- The wires and the events polled for do not matter. -/
theorem congr {p' : Poller} (h : Steady wtrs ok p) (hworld : p'.world = p.world) (hreaders : p'.readers = p.readers) :
    Steady wtrs ok p' := by
  obtain ⟨⟨hshaped, hconfined, hwritten⟩, hreads, hreaches, hsame⟩ := h
  unfold Poller.channel at hsame
  rw [← hworld] at hshaped hconfined hwritten hsame
  rw [← hreaders] at hreads hreaches hsame
  exact ⟨⟨hshaped, hconfined, hwritten⟩, hreads, hreaches, hsame⟩

/-- The engine has been at work. -/
theorem engages (h : Steady wtrs ok p) {world : World Nat Nat} (hturns : Engages os wtrs ok p.world world) :
    Steady wtrs ok { p with world := world } ∧ ∀ k, SameButTx (p.channel k) (world.channels k) := by
  obtain ⟨hsound, sent, hsent⟩ := hturns.sound h.toSound
  have hchannel : ∀ k, SameButTx (p.channel k) (world.channels k) := fun k => by
    rw [hsent.channels]
    exact foldl_output_same wtrs sent p.world.channels k
  refine ⟨⟨hsound, h.reads, h.reaches, fun k => ?_⟩, hchannel⟩
  show (world.channels k).reader.isSome = _
  rw [(hchannel k).eq]
  exact h.same k

/-- A reader has another packet. -/
theorem reader (h : Steady wtrs ok p) {rdr : ConfReader} {rdr' : Ccreader} (hrdr : p.readers k = some rdr)
    (hsame : SameReader rdr.toCcreader rdr') :
    Steady wtrs ok { p with readers := Function.update p.readers k (some { rdr with toCcreader := rdr' }) } := by
  have hcases : ∀ j, ∀ new ∈ Function.update p.readers k (some { rdr with toCcreader := rdr' }) j,
      ∃ old ∈ p.readers j, old.doRead = new.doRead ∧ old.head = new.head := by
    intro j new hnew
    by_cases hj : j = k
    · rw [hj, Function.update_self] at hnew
      obtain rfl := Option.some.inj hnew
      exact ⟨rdr, hj ▸ hrdr, rfl, hsame.head.symm⟩
    · rw [Function.update_of_ne hj] at hnew
      exact ⟨new, hnew, rfl, rfl⟩
  refine ⟨h.toSound, fun j new hnew => ?_, fun j new hnew => ?_, fun j => ?_⟩
  · obtain ⟨old, hold, hdo, -⟩ := hcases j new hnew
    exact hdo ▸ h.reads j old hold
  · obtain ⟨old, hold, -, hhead⟩ := hcases j new hnew
    exact hhead ▸ h.reaches j old hold
  · refine (h.same j).trans ?_
    show _ = (Function.update p.readers k _ j).isSome
    by_cases hj : j = k
    · rw [hj, Function.update_self, hrdr]
      rfl
    · rw [Function.update_of_ne hj]

end Steady

/-- A channel with room is written. -/
theorem Ready.setChannel {p : Poller} (h : Ready wtrs ok p) {k : Nat} {chn : Channel} (hroom : Roomy chn.rxbuf)
    (hreader : chn.reader = (p.channel k).reader) : Ready wtrs ok (p.setChannel k chn) := by
  refine ⟨h.toSteady.setChannel hreader, fun j => ?_⟩
  by_cases hj : j = k
  · rw [hj, Poller.setChannel_channel_self]
    exact hroom
  · rw [Poller.setChannel_channel_of_ne p chn hj]
    exact h.room j

theorem moves_engages {p : Poller} {world : World Nat Nat} (hturns : Engages os wtrs ok p.world world) :
    Moves os wtrs ok p { p with world := world } := by
  obtain ⟨ts, hturns, hts⟩ := hturns
  suffices hmoves : ∀ w, turns os wtrs w ts = some world →
      Moves os wtrs ok { p with world := w } { p with world := world } from hmoves p.world hturns
  clear hturns
  induction ts with
  | nil =>
    intro w hw
    obtain rfl := Option.some.inj hw
    exact .refl
  | cons t ts ih =>
    intro w hw
    obtain ⟨w₁, hturn, hrest⟩ := Option.bind_eq_some_iff.mp hw
    exact .head (.turn (p := { p with world := w }) (hts t List.mem_cons_self) hturn)
      (ih (fun t ht => hts t (List.mem_cons_of_mem _ ht)) w₁ hrest)

/-- A call that is not stuck, and what it leaves. -/
structure Goes (os : Os) (wtrs : Nat → Ccwriter Nat) (ok : Nat → Int → Prop) (p p' : Poller) : Prop where
  ready : Ready wtrs ok p'
  moves : Moves os wtrs ok p p'

namespace Goes

variable {p p' p'' : Poller} {k : Nat}

theorem refl (h : Ready wtrs ok p) : Goes os wtrs ok p p := ⟨h, .refl⟩

theorem trans (h : Goes os wtrs ok p p') (h' : Goes os wtrs ok p' p'') : Goes os wtrs ok p p'' :=
  ⟨h'.ready, h.moves.trans h'.moves⟩

/-- Turns of the engine. -/
theorem engages (h : Ready wtrs ok p) {world : World Nat Nat} (hturns : Engages os wtrs ok p.world world) :
    Goes os wtrs ok p { p with world := world } := by
  obtain ⟨hsteady, hchannel⟩ := h.toSteady.engages hturns
  refine ⟨⟨hsteady, fun k => ?_⟩, moves_engages hturns⟩
  show Roomy (world.channels k).rxbuf
  rw [(hchannel k).eq]
  exact h.room k

/-- A channel with the same output. -/
theorem channel (h : Ready wtrs ok p) {chn : Channel} (hkeeps : Keeps (p.channel k) chn) (hroom : Roomy chn.rxbuf) :
    Goes os wtrs ok p (p.setChannel k chn) :=
  ⟨h.setChannel hroom hkeeps.reader, .single (.channel hkeeps)⟩

end Goes

/-! ## The functions of the poller -/

variable (os wtrs) {p : Poller} {k : Nat}

/-- What the engine's sink lets a reader do. -/
theorem admits_engineSink {nodes : List Ccnode}
    (hreaches : ∀ node ∈ nodes, ∀ r, ccnodeGetReceiver node r ≠ 0 → ok node.writer (ccnodeGetReceiver node r)) :
    Admits (engineSink os wtrs) nodes fun s s' =>
      ∀ w ∈ s, Sound wtrs ok w → ∃ w', s' = some w' ∧ Engages os wtrs ok w w' where
  refl := fun s w hw _ => ⟨w, hw, .refl w⟩
  trans := by
    intro s t u hst htu w hw hsound
    obtain ⟨w₁, hw₁, hturns⟩ := hst w hw hsound
    obtain ⟨w₂, hw₂, hturns'⟩ := htu w₁ hw₁ (hturns.sound hsound).1
    exact ⟨w₂, hw₂, hturns.trans hturns'⟩
  now := by
    intro s w hw _
    obtain rfl := Option.mem_def.mp hw
    exact ⟨w.tick, rfl, .turn (t := .look) trivial rfl⟩
  doWrite := by
    intro s node hnode r pkt hr hpkt w hw hsound
    obtain rfl := Option.mem_def.mp hw
    have hallowed : ok node.writer pkt.receiver := hpkt ▸ hreaches node hnode r hr
    obtain ⟨c, pkt', w', hrun, -⟩ := @ccwriterDoWrite_writes Nat Nat _ _ os wtrs
      (w.observe (.submit node.writer pkt)) hsound.shaped node.writer pkt
    refine ⟨w', ?_, .turn (t := .act (.submit node.writer pkt)) hallowed ?_⟩
    · simp only [engineSink, hrun]
    · simp only [turn, step, hrun, Option.map_some]

/-- **`(*do_read)(rdr, rxbuf)`** of a channel: turns of the engine, another packet for the reader,
and a receive buffer with room. -/
theorem doRead_spec (h : Steady wtrs ok p) {rxbuf : Buffer} (hsize : rxbuf.size = bufferSize) {rdr : ConfReader}
    (hrdr : p.readers k = some rdr) :
    ∃ world rdr' rxbuf', doRead os wtrs p k rdr rxbuf = some (Poller.setChannel
        { p with world := world, readers := Function.update p.readers k (some { rdr with toCcreader := rdr' }) } k
        { world.channels k with rxbuf := rxbuf' }) ∧
      Engages os wtrs ok p.world world ∧ SameReader rdr.toCcreader rdr' ∧ Roomy rxbuf' := by
  obtain ⟨reader, hreader⟩ := Option.isSome_iff_exists.mp (h.reads k rdr hrdr)
  obtain ⟨S, bound, -, hbound, -, hreads⟩ := reader.reads
  obtain ⟨st, out, hread, -, -, hlen, hconsumed, heffect⟩ :=
    hreads _ (engineSink os wtrs) ⟨rdr.toCcreader, rxbuf, some p.world⟩
  have hpassed := Admits.effect (x := (rdr.toCcreader, some p.world))
    (admits_engineSink os wtrs (h.reaches k rdr hrdr)) reader out (bufferIsEmpty st.rxbuf)
  rw [← heffect] at hpassed
  obtain ⟨world, hworld, hturns⟩ := hpassed.world p.world rfl h.toSound
  refine ⟨world, st.rdr, st.rxbuf, ?_, hturns, hpassed.reader, hconsumed.size.trans hsize,
    Nat.lt_of_lt_of_le hlen hbound⟩
  refine Option.bind_eq_some_iff.mpr ⟨reader, hreader, ?_⟩
  exact Option.bind_eq_some_iff.mpr ⟨st, hread, Option.bind_eq_some_iff.mpr ⟨world, hworld, rfl⟩⟩

/-- **`(*do_read)(rdr, rxbuf)`** after the channel has been written. -/
theorem doRead_goes (h : Ready wtrs ok p) {chn : Channel} (hkeeps : Keeps (p.channel k) chn) {rxbuf : Buffer}
    (hsize : rxbuf.size = bufferSize) {rdr : ConfReader} (hrdr : p.readers k = some rdr) :
    ∃ p', doRead os wtrs (p.setChannel k chn) k rdr rxbuf = some p' ∧ Goes os wtrs ok p p' := by
  set p₁ := p.setChannel k chn with hp₁
  have hsteady₁ : Steady wtrs ok p₁ := h.toSteady.setChannel hkeeps.reader
  obtain ⟨world, rdr', rxbuf', hread, hturns, hsame, hroom⟩ := doRead_spec os wtrs hsteady₁ hsize hrdr
  obtain ⟨hsteady₂, hchannel⟩ := hsteady₁.engages hturns
  have hsteady₃ := hsteady₂.reader hrdr hsame
  set p₂ : Poller := { p₁ with world := world } with hp₂
  set p₃ : Poller := { p₂ with readers := Function.update p.readers k (some { rdr with toCcreader := rdr' }) } with hp₃
  refine ⟨_, hread, ⟨hsteady₃.setChannel rfl, fun j => ?_⟩, ?_⟩
  · by_cases hj : j = k
    · rw [hj, Poller.setChannel_channel_self]
      exact hroom
    · rw [Poller.setChannel_channel_of_ne _ _ hj]
      show Roomy (world.channels j).rxbuf
      rw [(hchannel j).eq, hp₁, Poller.setChannel_channel_of_ne _ _ hj]
      exact h.room j
  · refine .head (.channel hkeeps) ((moves_engages hturns).trans ?_)
    exact .head (.reader (p := p₂) hrdr hsame) (.single (.channel (p := p₃) ⟨rfl, rfl⟩))

/-- A bufferful has been read from an open channel. -/
theorem channelRead_goes (h : Ready wtrs ok p) (k : Nat) (incoming : Incoming) :
    ∃ n p', channelRead os wtrs p k incoming = some (n, p') ∧ Goes os wtrs ok p p' := by
  unfold channelRead
  dsimp only
  by_cases hlisten : channelIsListening (p.channel k) = true
  · rw [if_pos hlisten]
    have haccept : Keeps (p.channel k) (channelAccept (p.channel k) incoming).2 ∧
        (channelAccept (p.channel k) incoming).2.rxbuf = (p.channel k).rxbuf := by
      unfold channelAccept
      split <;> exact ⟨⟨rfl, rfl⟩, rfl⟩
    exact ⟨_, _, rfl, .channel h haccept.1 (haccept.2 ▸ h.room k)⟩
  · rw [if_neg hlisten]
    split
    · rename_i ready
      obtain ⟨hsize, hlen⟩ := h.room k
      obtain ⟨rxbuf, taken, rest, hread, hready, hdata, hsize', -⟩ :=
        @bufferRead_spec (p.channel k).rxbuf ready (hsize ▸ Nat.lt_trans hlen (by decide))
      rw [hread]
      dsimp only
      have hcount : ((ready.length - rest.length : Nat) : Int) = taken.length := by
        rw [hready, List.length_append, Nat.add_sub_cancel]
      rw [hcount]
      by_cases hnone : (taken.length : Int) ≤ 0
      · rw [if_pos hnone]
        have hnil : taken = [] := List.length_eq_zero_iff.mp (by omega)
        refine ⟨_, _, rfl, .channel h ⟨rfl, rfl⟩ ⟨hsize'.trans hsize, ?_⟩⟩
        rw [hdata, hnil, List.append_nil]
        exact hlen
      · rw [if_neg hnone, Poller.setChannel_channel_self, Poller.setChannel_setChannel, Poller.setChannel_readers]
        have hkeeps : Keeps (p.channel k) (channelClearResponse { p.channel k with rxbuf := rxbuf }) := ⟨rfl, rfl⟩
        cases hrdr : p.readers k with
        | none =>
          refine ⟨0, _, rfl, ?_⟩
          rw [Poller.setChannel_channel_self, Poller.setChannel_setChannel]
          exact .channel h ⟨rfl, rfl⟩ ⟨hsize'.trans hsize, Nat.zero_lt_succ 9⟩
        | some rdr =>
          obtain ⟨p', hdo, hgoes⟩ := doRead_goes os wtrs h hkeeps (hsize'.trans hsize) hrdr
          exact ⟨_, p', Option.bind_eq_some_iff.mpr ⟨p', hdo, rfl⟩, hgoes⟩
    · exact ⟨-1, p, rfl, .refl h⟩

theorem channelClose_goes (h : Ready wtrs ok p) (k : Nat) (closes : Bool) :
    Goes os wtrs ok p (channelClose closes p k) := by
  obtain ⟨hsize, -⟩ := h.room k
  have hroom : Roomy (Protozoa.channelClose closes (p.channel k)).rxbuf := by
    rw [channelClose_rxbuf]
    exact ⟨hsize, Nat.zero_lt_succ 9⟩
  have hready := h.setChannel hroom (channelClose_reader closes (p.channel k))
  refine ⟨⟨hready.toSteady.congr rfl rfl, hready.room⟩, .single (.close ?_ ?_)⟩
  · exact channelClose_txbuf closes (p.channel k)
  · exact channelClose_reader closes (p.channel k)

theorem channelWrite_goes (h : Ready wtrs ok p) (k : Nat) (taken : Option Nat) :
    Goes os wtrs ok p (channelWrite p k taken).2 := by
  unfold channelWrite Protozoa.channelWrite
  set flags := if hasFlag (p.channel k) flagRespRequired then (p.channel k).flags ||| flagNeedsResp
    else (p.channel k).flags with hflags
  have hchn : (if hasFlag (p.channel k) flagRespRequired then
      { p.channel k with flags := (p.channel k).flags ||| flagNeedsResp } else p.channel k) =
        { p.channel k with flags := flags } := by
    rw [hflags]
    split <;> rfl
  rw [hchn]
  dsimp only
  cases htaken : taken.bind (bufferWrite (p.channel k).txbuf) with
  | none =>
    have hready : Ready wtrs ok (p.setChannel k { p.channel k with flags := flags }) := h.setChannel (h.room k) rfl
    refine ⟨⟨hready.toSteady.congr rfl rfl, hready.room⟩, .single ?_⟩
    set p₁ := p.setChannel k { p.channel k with flags := flags }
    have hsame : { p₁ with wire := Function.update p₁.wire k (p₁.wire k ++ []) } = p₁ := by
      rw [List.append_nil, Function.update_eq_self]
    show Move os wtrs ok p { p₁ with wire := Function.update p₁.wire k (p₁.wire k ++ []) }
    rw [hsame]
    exact .channel ⟨rfl, rfl⟩
  | some x =>
    obtain ⟨txbuf, sent⟩ := x
    obtain ⟨n, -, hwrite⟩ := Option.bind_eq_some_iff.mp htaken
    have hready : Ready wtrs ok (p.setChannel k { p.channel k with flags := flags, txbuf := txbuf }) :=
      h.setChannel (h.room k) rfl
    exact ⟨⟨hready.toSteady.congr rfl rfl, hready.room⟩, .single (.send hwrite)⟩

theorem pollerRegisterChannel_goes (h : Ready wtrs ok p) (k : Nat) (opened : Int × Bool) :
    Goes os wtrs ok p (pollerRegisterChannel p k opened) := by
  have hpoll : ∀ {p' : Poller} {pollfds : Nat → PollEvents}, Goes os wtrs ok p p' →
      Goes os wtrs ok p { p' with pollfds := pollfds } := fun hgoes =>
    ⟨⟨hgoes.ready.toSteady.congr rfl rfl, hgoes.ready.room⟩, hgoes.moves.tail .poll⟩
  obtain ⟨fd, succeeds⟩ := opened
  unfold pollerRegisterChannel Protozoa.pollerRegisterChannel
  dsimp only
  by_cases hopens : (!channelIsOpen (p.channel k) && channelIsWaiting (p.channel k)) = true
  · simp only [hopens, if_true, Bool.true_and]
    cases succeeds with
    | true =>
      obtain ⟨sfd, hopen⟩ := channelOpen_spec (p.channel k) fd
      rw [hopen]
      exact hpoll (.channel h ⟨rfl, rfl⟩ (h.room k))
    | false =>
      have hclose : channelOpen (p.channel k) fd false =
          Protozoa.channelClose true { channelClearResponse (p.channel k) with fd := fd } := rfl
      have hready : Ready wtrs ok (p.setChannel k (channelOpen (p.channel k) fd false)) := h.setChannel
        (by rw [hclose, channelClose_rxbuf]; exact ⟨(h.room k).1, Nat.zero_lt_succ 9⟩)
        (by rw [hclose, channelClose_reader]; rfl)
      refine hpoll ⟨⟨hready.toSteady.congr rfl rfl, hready.room⟩, .single (.close ?_ ?_)⟩
      · rw [hclose, channelClose_txbuf]
        rfl
      · rw [hclose, channelClose_reader]
        rfl
  · rw [Bool.not_eq_true] at hopens
    simp only [hopens, Bool.false_and, Bool.false_eq_true, if_false, Poller.setChannel_self]
    exact hpoll (.refl h)

theorem alarm_goes (h : Ready wtrs ok p) (comes : Bool) :
    ∃ p', alarm os wtrs p comes = some p' ∧ Goes os wtrs ok p p' := by
  unfold alarm
  cases comes with
  | false => exact ⟨p, rfl, .refl h⟩
  | true =>
    obtain ⟨world, hturn, -⟩ := turn_spec os wtrs (t := .act .alarm) h.toSound trivial
    refine ⟨_, Option.map_eq_some_iff.mpr ⟨world, hturn, rfl⟩, .engages h (.turn (t := .act .alarm) trivial hturn)⟩

theorem pollerDeferEvents_goes (h : Ready wtrs ok p) (wake : Bool) :
    ∃ p', pollerDeferEvents os wtrs p wake = some p' ∧ Goes os wtrs ok p p' := by
  unfold pollerDeferEvents
  cases wake with
  | false => exact ⟨p, rfl, .refl h⟩
  | true =>
    obtain ⟨world, hturn, -⟩ := turn_spec os wtrs (t := .act .next) h.toSound trivial
    obtain ⟨x, hnext, rfl⟩ := Option.map_eq_some_iff.mp
      (show (deferNext os wtrs p.world).map (·.2) = some world from hturn)
    exact ⟨_, Option.map_eq_some_iff.mpr ⟨x, hnext, rfl⟩, .engages h (.turn (t := .act .next) trivial hturn)⟩

/-- **The events of a channel** -/
theorem pollerChannelEvents_goes (h : Ready wtrs ok p) (k : Nat) (service : Service) :
    ∃ p', pollerChannelEvents os wtrs p k service = some p' ∧ Goes os wtrs ok p p' := by
  unfold pollerChannelEvents
  dsimp only
  by_cases hhup : (reported (p.pollfds k) service.revents).pollhup = true
  · rw [if_pos hhup]
    exact ⟨_, rfl, channelClose_goes os wtrs h k _⟩
  rw [if_neg hhup]
  obtain ⟨n, p₁, hwrite, hgoes⟩ : ∃ n p₁, (if (reported (p.pollfds k) service.revents).pollout = true then
      channelWrite p k service.taken else (0, p)) = (n, p₁) ∧ Goes os wtrs ok p p₁ := by
    by_cases hout : (reported (p.pollfds k) service.revents).pollout = true
    · rw [if_pos hout]
      exact ⟨_, _, rfl, channelWrite_goes os wtrs h k _⟩
    · rw [if_neg hout]
      exact ⟨_, _, rfl, .refl h⟩
  rw [hwrite]
  dsimp only
  by_cases hn : n < 0
  · rw [if_pos hn]
    exact ⟨_, rfl, hgoes.trans (channelClose_goes os wtrs hgoes.ready k _)⟩
  rw [if_neg hn]
  by_cases hin : (reported (p.pollfds k) service.revents).pollin = true
  · rw [if_pos hin]
    obtain ⟨m, p₂, hread, hgoes'⟩ := channelRead_goes os wtrs hgoes.ready k service.incoming
    rw [hread]
    by_cases hm : m ≤ 0
    · exact ⟨_, if_pos hm, hgoes.trans (hgoes'.trans (channelClose_goes os wtrs hgoes'.ready k _))⟩
    · exact ⟨_, if_neg hm, hgoes.trans hgoes'⟩
  · rw [if_neg hin]
    exact ⟨_, rfl, hgoes⟩

theorem pollerRegisterEvents_goes (h : Ready wtrs ok p) (chns : List Nat) (service : Nat → Service) :
    Goes os wtrs ok p (pollerRegisterEvents p chns service) :=
  List.foldlRecOn chns _ (motive := fun p' => Goes os wtrs ok p p') (.refl h) fun _ hgoes k _ =>
    hgoes.trans (pollerRegisterChannel_goes os wtrs hgoes.ready k _)

theorem pollerEvents_goes (h : Ready wtrs ok p) (chns : List Nat) (service : Nat → Service) :
    ∃ p', pollerEvents os wtrs p chns service = some p' ∧ Goes os wtrs ok p p' := by
  unfold pollerEvents
  induction chns generalizing p with
  | nil => exact ⟨p, rfl, .refl h⟩
  | cons k chns ih =>
    obtain ⟨p₁, halarm, hgoes₁⟩ := alarm_goes os wtrs h (service k).alarm
    obtain ⟨p₂, hevents, hgoes₂⟩ := pollerChannelEvents_goes os wtrs hgoes₁.ready k (service k)
    obtain ⟨p₃, hrest, hgoes₃⟩ := ih hgoes₂.ready
    refine ⟨p₃, ?_, hgoes₁.trans (hgoes₂.trans hgoes₃)⟩
    rw [List.foldlM_cons]
    refine Option.bind_eq_some_iff.mpr ⟨p₂, ?_, hrest⟩
    exact Option.bind_eq_some_iff.mpr ⟨p₁, halarm, hevents⟩

/-- **A round** -/
theorem pollerDoPoll_goes (h : Ready wtrs ok p) (chns : List Nat) (round : Round) :
    ∃ r p', pollerDoPoll os wtrs p chns round = some (r, p') ∧ Goes os wtrs ok p p' := by
  unfold pollerDoPoll
  cases round.failed with
  | some errno => exact ⟨errno, p, rfl, .refl h⟩
  | none =>
    obtain ⟨p₁, hevents, hgoes₁⟩ := pollerEvents_goes os wtrs h chns round.service
    obtain ⟨p₂, halarm, hgoes₂⟩ := alarm_goes os wtrs hgoes₁.ready round.alarm
    obtain ⟨p₃, hdefer, hgoes₃⟩ := pollerDeferEvents_goes os wtrs hgoes₂.ready round.wake
    refine ⟨pollerCheckConfig round.notice, p₃, ?_, hgoes₁.trans (hgoes₂.trans hgoes₃)⟩
    refine Option.bind_eq_some_iff.mpr ⟨p₁, hevents, Option.bind_eq_some_iff.mpr ⟨p₂, halarm, ?_⟩⟩
    exact Option.bind_eq_some_iff.mpr ⟨p₃, hdefer, rfl⟩

/-- **The loop** is never stuck, and makes moves. -/
theorem pollerLoop_goes (h : Ready wtrs ok p) (chns : List Nat) (rounds : List Round) :
    ∃ r p', pollerLoop os wtrs p chns rounds = some (r, p') ∧ Goes os wtrs ok p p' := by
  induction rounds generalizing p with
  | nil => exact ⟨none, p, rfl, .refl h⟩
  | cons round rounds ih =>
    have hgoes₁ := pollerRegisterEvents_goes os wtrs h chns round.service
    obtain ⟨r, p₂, hpoll, hgoes₂⟩ := pollerDoPoll_goes os wtrs hgoes₁.ready chns round
    unfold pollerLoop
    rw [hpoll]
    by_cases hr : r = 0
    · obtain ⟨r', p₃, hloop, hgoes₃⟩ := ih hgoes₂.ready
      exact ⟨r', p₃, (if_pos hr).trans hloop, hgoes₁.trans (hgoes₂.trans hgoes₃)⟩
    · exact ⟨_, p₂, if_neg hr, hgoes₁.trans hgoes₂⟩

end Protozoa.Program
