import Protozoa.Engine.Share
import Protozoa.Engine.Steps

/-!
# What the engine sends, and where

The engine sends a packet when it calls `do_write`, for a packet that has been submitted or for the
packet of a slot that is due. What the calls do to the channels is `output`, one after the other,
and nothing else that the engine does changes a channel (`Silent`).

* `Confined`: a packet that waits in a slot has the receiver that it was submitted with, so that all
  packets sent go where the submitted ones were allowed to.
* `ccwriterDoWrite_outputs`, `deferPacketNow_outputs`, `deferNext_outputs`: what each function sends
  (`Outputs`).
* **`step_outputs`**: what one action sends, from which `Program/Moves.lean` and `Program/Wire.lean`
  have it of a run.
-/

namespace Protozoa.Engine

variable {ι κ : Type}

/-- The packets that `do_write` has got, in their order. -/
def writes (trace : List (Obs ι)) : List (ι × Ccpacket) :=
  trace.reverse.filterMap fun
    | .write i pkt => some (i, pkt)
    | _ => none

@[simp] theorem writes_nil : writes ([] : List (Obs ι)) = [] := rfl

theorem writes_cons (o : Obs ι) (trace : List (Obs ι)) : writes (o :: trace) = writes trace ++ writes [o] := by
  unfold writes
  rw [List.reverse_cons, List.filterMap_append]
  rfl

/-- What one call of `do_write` does to the channels. -/
def output [DecidableEq κ] (wtrs : ι → Ccwriter κ) (channels : κ → Channel) (x : ι × Ccpacket) : κ → Channel :=
  let wtr := wtrs x.1
  let chn := channels wtr.chn
  let (txbuf, _, _) := wtr.protocol.doWrite wtr.auth (channelIsOpen chn) chn.txbuf x.2
  Function.update channels wtr.chn { chn with txbuf := txbuf }

/-- A channel but for its transmit buffer. -/
structure SameButTx (chn chn' : Channel) : Prop where
  eq : chn' = { chn with txbuf := chn'.txbuf }

theorem SameButTx.trans {chn chn' chn'' : Channel} (h : SameButTx chn chn') (h' : SameButTx chn' chn'') :
    SameButTx chn chn'' := ⟨by rw [h'.eq, h.eq]⟩

theorem output_same [DecidableEq κ] (wtrs : ι → Ccwriter κ) (channels : κ → Channel) (x : ι × Ccpacket) (k : κ) :
    SameButTx (channels k) (output wtrs channels x k) := by
  unfold output
  dsimp only
  by_cases hk : k = (wtrs x.1).chn
  · subst hk
    rw [Function.update_self]
    exact ⟨rfl⟩
  · rw [Function.update_of_ne hk]
    exact ⟨rfl⟩

theorem foldl_output_same [DecidableEq κ] (wtrs : ι → Ccwriter κ) (sent : List (ι × Ccpacket))
    (channels : κ → Channel) (k : κ) : SameButTx (channels k) (sent.foldl (output wtrs) channels k) :=
  List.foldlRecOn sent (output wtrs) (motive := fun channels' => SameButTx (channels k) (channels' k)) ⟨rfl⟩
    fun channels' h x _ => h.trans (output_same wtrs channels' x k)

/-- A packet in a slot has a receiver that is allowed, or none. -/
def Confined (ok : ι → Int → Prop) (slots : Slot ι → DeferredPkt) : Prop :=
  ∀ s, (slots s).packet.receiver = 0 ∨ ok s.1 (slots s).packet.receiver

/-- What has been sent between two states, to receivers that are allowed. -/
structure Outputs [DecidableEq κ] (wtrs : ι → Ccwriter κ) (ok : ι → Int → Prop) (w w' : World ι κ)
    (sent : List (ι × Ccpacket)) : Prop where
  writes : writes w'.trace = writes w.trace ++ sent
  channels : w'.channels = sent.foldl (output wtrs) w.channels
  allowed : ∀ x ∈ sent, InRange wtrs x.1 x.2 ∧ ok x.1 x.2.receiver
  slots : Confined ok w'.slots

/-- Nothing has been sent. -/
structure Silent (w w' : World ι κ) : Prop where
  writes : writes w'.trace = writes w.trace
  channels : w'.channels = w.channels

namespace Silent

variable {w w' w'' : World ι κ} {os : Os}

theorem trans (h : Silent w w') (h' : Silent w' w'') : Silent w w'' :=
  ⟨h'.writes.trans h.writes, h'.channels.trans h.channels⟩

theorem observe {o : Obs ι} (ho : Engine.writes [o] = []) (htrace : w'.trace = o :: w.trace)
    (hchannels : w'.channels = w.channels) : Silent w w' := by
  refine ⟨?_, hchannels⟩
  rw [htrace, writes_cons, ho, List.append_nil]

theorem deferRemove {dpkt : Slot ι} (h : Engine.deferRemove w dpkt = some w') : Silent w w' := by
  simp only [Engine.deferRemove, Option.bind_eq_bind, Option.bind_eq_some_iff] at h
  obtain ⟨⟨out, tree⟩, -, h⟩ := h
  obtain rfl := Option.some.inj h
  exact observe (o := .remove dpkt (w.slots dpkt).tv w.entries) rfl rfl rfl

theorem deferRearm {r : Int} (h : Engine.deferRearm os w = some (r, w')) : Silent w w' := by
  simp only [Engine.deferRearm, Option.bind_eq_bind, Option.bind_eq_some_iff] at h
  obtain ⟨head, -, h⟩ := h
  cases head with
  | none =>
    obtain ⟨-, rfl⟩ := Prod.mk.inj (Option.some.inj h)
    exact ⟨rfl, rfl⟩
  | some dpkt =>
    obtain ⟨-, rfl⟩ := Prod.mk.inj (Option.some.inj h)
    exact observe (o := .rearm w.timer.pipe (w.slots dpkt).tv (os.clock w.reading)) rfl rfl rfl

theorem deferPacket [DecidableEq ι] {dpkt : Slot ι} {again : Option Ccpacket} {ms : Nat} {r : Int}
    (h : Engine.deferPacket os w dpkt again ms = some (r, w')) : Silent w w' := by
  simp only [Engine.deferPacket, Option.bind_eq_bind, Option.bind_eq_some_iff] at h
  obtain ⟨w₁, hremove, h⟩ := h
  have hremoved := deferRemove hremove
  cases again with
  | none =>
    have hqueued : Silent w₁ (w₁.observe (.packet dpkt false w.entries w₁.entries)) :=
      observe (o := .packet dpkt false w.entries w₁.entries) rfl rfl rfl
    exact hremoved.trans (hqueued.trans (deferRearm h))
  | some pkt =>
    obtain ⟨⟨out, tree⟩, -, h⟩ := Option.bind_eq_some_iff.mp h
    have hrearmed := deferRearm h
    exact hremoved.trans ⟨hrearmed.writes.trans ((writes_cons _ _).trans (List.append_nil _)), hrearmed.channels⟩

end Silent

section

variable [DecidableEq ι] {ok : ι → Int → Prop} {os : Os} {w w' : World ι κ} {dpkt : Slot ι}

theorem Confined.setSlot (h : Confined ok w.slots) {d : DeferredPkt}
    (hd : d.packet.receiver = 0 ∨ ok dpkt.1 d.packet.receiver) : Confined ok (w.setSlot dpkt d).slots := by
  intro s
  by_cases hs : s = dpkt
  · rw [hs, World.setSlot_slots_self]
    exact hd
  · rw [World.setSlot_slots_of_ne w d hs]
    exact h s

theorem Confined.deferPacket (h : Confined ok w.slots) {again : Option Ccpacket} {ms : Nat} {r : Int}
    (hagain : ∀ pkt ∈ again, ok dpkt.1 pkt.receiver) (hrun : deferPacket os w dpkt again ms = some (r, w')) :
    Confined ok w'.slots := by
  simp only [Engine.deferPacket, Option.bind_eq_bind, Option.bind_eq_some_iff] at hrun
  obtain ⟨w₁, hremove, hrun⟩ := hrun
  have h₁ : Confined ok w₁.slots := (deferRemove_share hremove).2.1 ▸ h
  cases again with
  | none => exact (deferRearm_share hrun).2.1 ▸ h₁
  | some pkt =>
    obtain ⟨⟨out, tree⟩, -, hrun⟩ := Option.bind_eq_some_iff.mp hrun
    rw [(deferRearm_share hrun).2.1]
    exact h₁.setSlot (Or.inr (hagain pkt rfl))

/-- Nothing is sent, and what is kept in the slot is allowed. -/
theorem ccwriterCheckDeferred_silent {wtrs : ι → Ccwriter κ} {i : ι} {pkt : Ccpacket}
    (hrun : ccwriterCheckDeferred os wtrs w i pkt dpkt = some w') (h : Confined ok w.slots)
    (hpkt : ok dpkt.1 pkt.receiver) : Silent w w' ∧ Confined ok w'.slots := by
  have hagain : ∀ q ∈ some pkt, ok dpkt.1 q.receiver := fun q hq => Option.some.inj hq ▸ hpkt
  have hnone : ∀ q ∈ (none : Option Ccpacket), ok dpkt.1 q.receiver := fun q hq => nomatch hq
  have hstamped : Confined ok (stamped os w dpkt).slots := h.setSlot (w := w.tick) (h dpkt)
  have hquiet : ∀ {w₁ : World ι κ}, Silent (stamped os w dpkt) w₁ → Silent w w₁ := fun h => ⟨h.writes, h.channels⟩
  cases ccwriterCheckDeferred_checks hrun with
  | again hstop hcnt hdefer hlast =>
    rw [hlast]
    have hkept := hstamped.deferPacket hagain hdefer
    have hdeferred := hquiet (Silent.deferPacket hdefer)
    exact ⟨⟨hdeferred.writes, hdeferred.channels⟩, hkept.setSlot (hkept dpkt)⟩
  | enough hstop hcnt hdefer =>
    have hkept := Confined.deferPacket (hstamped.setSlot (d := { (stamped os w dpkt).slots dpkt with nCnt := 0 })
      (hstamped dpkt)) hnone hdefer
    have hdeferred := Silent.deferPacket hdefer
    exact ⟨hquiet ⟨hdeferred.writes, hdeferred.channels⟩, hkept⟩
  | held hstop hexpired hdefer =>
    have hkept := Confined.deferPacket (w := (stamped os w dpkt).tick) hstamped hagain hdefer
    have hdeferred := Silent.deferPacket hdefer
    exact ⟨hquiet ⟨hdeferred.writes, hdeferred.channels⟩, hkept⟩
  | ended hstop hexpired hdefer =>
    have hkept := Confined.deferPacket (w := (stamped os w dpkt).tick) hstamped hnone hdefer
    have hdeferred := Silent.deferPacket hdefer
    exact ⟨hquiet ⟨hdeferred.writes, hdeferred.channels⟩, hkept⟩

end

variable [DecidableEq κ] {wtrs : ι → Ccwriter κ} {ok : ι → Int → Prop} {os : Os} {w w' w'' : World ι κ}

namespace Outputs

variable {sent sent' : List (ι × Ccpacket)}

theorem trans (h : Outputs wtrs ok w w' sent) (h' : Outputs wtrs ok w' w'' sent') :
    Outputs wtrs ok w w'' (sent ++ sent') := by
  refine ⟨?_, ?_, fun x hx => (List.mem_append.mp hx).elim (h.allowed x) (h'.allowed x), h'.slots⟩
  · rw [h'.writes, h.writes, List.append_assoc]
  · rw [h'.channels, h.channels, List.foldl_append]

end Outputs

variable (wtrs) in
theorem Silent.outputs (h : Silent w w') (hslots : Confined ok w'.slots) : Outputs wtrs ok w w' [] :=
  ⟨h.writes.trans (List.append_nil _).symm, h.channels, nofun, hslots⟩

variable [DecidableEq ι] {i : ι} {pkt pkt' : Ccpacket}

/-- **`ccwriter_do_write`** sends the packet or nothing. -/
theorem ccwriterDoWrite_outputs {c : Nat} (hrun : ccwriterDoWrite os wtrs w i pkt = some (c, pkt', w'))
    (h : Confined ok w.slots) (hpkt : InRange wtrs i pkt → ok i pkt.receiver) :
    pkt'.receiver = pkt.receiver ∧ ∃ sent, Outputs wtrs ok w w' sent := by
  unfold ccwriterDoWrite at hrun
  by_cases hrange : 0 < pkt.receiver ∧ pkt.receiver ≤ (wtrs i).protocol.nRcv
  · have hok := hpkt hrange
    rw [if_pos hrange] at hrun
    unfold ccwriterDoWrite_ at hrun
    by_cases hsoon : timeSince (os.clock w.reading) (w.slots (i, (pkt.receiver - 1).toNat)).sent <
        (wtrs i).protocol.gaptime
    · obtain ⟨⟨r, w₁⟩, hdefer, heq⟩ := Option.bind_eq_some_iff.mp ((if_pos hsoon).symm.trans hrun)
      obtain ⟨-, rfl, rfl⟩ := by simpa using heq
      have hquiet : Silent w w.tick := ⟨rfl, rfl⟩
      have hkept := Confined.deferPacket (w := w.tick) h (fun q hq => Option.some.inj hq ▸ hok) hdefer
      exact ⟨rfl, [], (hquiet.trans (Silent.deferPacket hdefer)).outputs wtrs hkept⟩
    · have hwrite := (if_neg hsoon).symm.trans hrun
      have hspec := doWrite_spec (wtrs i).protocol (wtrs i).auth
        (channelIsOpen (w.channels (wtrs i).chn)) (w.channels (wtrs i).chn).txbuf hrange.1 hrange.2
      obtain ⟨txbuf, hout⟩ : ∃ txbuf, (wtrs i).protocol.doWrite (wtrs i).auth
          (channelIsOpen (w.channels (wtrs i).chn)) (w.channels (wtrs i).chn).txbuf pkt =
            (txbuf, (wtrs i).protocol.adjust pkt, 1) := ⟨_, Prod.ext rfl hspec⟩
      simp only [show w.tick.channels = w.channels from rfl, hout, gt_iff_lt, Nat.zero_lt_one, if_true] at hwrite
      obtain ⟨w₁, hcheck, heq⟩ := Option.bind_eq_some_iff.mp hwrite
      obtain ⟨-, rfl, rfl⟩ := by simpa using heq
      have hreceiver := (settles_adjust (wtrs i).protocol).receiver pkt
      obtain ⟨hsilent, hkept⟩ := ccwriterCheckDeferred_silent hcheck h (hreceiver.symm ▸ hok)
      refine ⟨hreceiver, [(i, pkt)], ?_, ?_, ?_, hkept⟩
      · rw [hsilent.writes]
        exact writes_cons _ _
      · rw [hsilent.channels]
        simp only [List.foldl_cons, List.foldl_nil, output, hout]
        rfl
      · intro x hx
        rw [List.mem_singleton.mp hx]
        exact ⟨hrange, hok⟩
  · obtain ⟨-, rfl, rfl⟩ := by simpa using (if_neg hrange).symm.trans hrun
    exact ⟨rfl, [], Silent.outputs wtrs ⟨rfl, rfl⟩ h⟩

/-- **`defer_packet_now`** sends the packet of the slot or nothing. -/
theorem deferPacketNow_outputs {dpkt : Slot ι} (hrun : deferPacketNow os wtrs w dpkt = some w')
    (h : Confined ok w.slots) : ∃ sent, Outputs wtrs ok w w' sent := by
  obtain ⟨w₁, hremove, hrun⟩ := Option.bind_eq_some_iff.mp (show (deferRemove w dpkt).bind _ = some w' from hrun)
  obtain ⟨⟨c, pkt, w₂⟩, hwrite, heq⟩ := Option.bind_eq_some_iff.mp hrun
  obtain rfl := Option.some.inj heq
  have h₁ : Confined ok w₁.slots := (deferRemove_share hremove).2.1 ▸ h
  have hhanded : Confined ok (handed os wtrs w₁ dpkt).slots := h₁.setSlot
    (w := w₁.tick.observe (.hand dpkt (w₁.slots dpkt).tv (os.clock w₁.reading))) (h₁ dpkt)
  obtain ⟨hreceiver, sent, hsent⟩ := ccwriterDoWrite_outputs hwrite hhanded fun hrange => by
    refine (hhanded dpkt).resolve_left fun hzero => ?_
    have := hrange.1
    exact absurd hzero this.ne'
  have hquiet : Silent w (handed os wtrs w₁ dpkt) := by
    refine (Silent.deferRemove hremove).trans ?_
    exact Silent.observe (o := .hand dpkt (w₁.slots dpkt).tv (os.clock w₁.reading)) rfl rfl rfl
  have hlast : Confined ok (w₂.setSlot dpkt { w₂.slots dpkt with packet := pkt }).slots :=
    hsent.slots.setSlot (hreceiver ▸ hhanded dpkt)
  refine ⟨[] ++ (sent ++ []), (hquiet.outputs wtrs hhanded).trans (hsent.trans (Silent.outputs wtrs ⟨rfl, rfl⟩ hlast))⟩

/-- **`defer_next`** -/
theorem deferNext_outputs {r : Int} (hrun : deferNext os wtrs w = some (r, w')) (h : Confined ok w.slots) :
    ∃ sent, Outputs wtrs ok w w' sent := by
  have hwoken : Silent w { w with timer := (timerRead w.timer).2 } := ⟨rfl, rfl⟩
  unfold deferNext at hrun
  by_cases hb : (timerRead w.timer).1 < 0
  · obtain ⟨-, rfl⟩ := Prod.mk.inj (Option.some.inj ((if_pos hb).symm.trans hrun))
    exact ⟨[], hwoken.outputs wtrs h⟩
  · obtain ⟨head, -, hrun⟩ := Option.bind_eq_some_iff.mp ((if_neg hb).symm.trans hrun)
    cases head with
    | none =>
      have hslots := (deferRearm_share hrun).2.1
      exact ⟨[], (hwoken.trans (Silent.deferRearm hrun)).outputs wtrs (hslots ▸ h)⟩
    | some dpkt =>
      obtain ⟨w₁, hnow, hrun⟩ := Option.bind_eq_some_iff.mp hrun
      obtain ⟨sent, hsent⟩ := deferPacketNow_outputs hnow h
      have hlast := (Silent.deferRearm hrun).outputs wtrs ((deferRearm_share hrun).2.1 ▸ hsent.slots)
      exact ⟨[] ++ (sent ++ []), (hwoken.outputs wtrs h).trans (hsent.trans hlast)⟩

/-- What may be submitted, or deferred. -/
def Action.Allowed (ok : ι → Int → Prop) : Action ι κ → Prop
  | .submit i pkt => ok i pkt.receiver
  | .defer dpkt pkt _ => ∀ q ∈ pkt, ok dpkt.1 q.receiver
  | _ => True

/-- **One action** of the engine, unless it is one of the poller on a channel. -/
theorem step_outputs {a : Action ι κ} (hrun : step os wtrs w a = some w') (ha : a.Allowed ok)
    (hchannel : ∀ k chn, a ≠ .channel k chn) (h : Confined ok w.slots) : ∃ sent, Outputs wtrs ok w w' sent := by
  cases a with
  | submit i pkt =>
    obtain ⟨⟨c, pkt', w₁⟩, hwrite, rfl⟩ := Option.map_eq_some_iff.mp hrun
    obtain ⟨-, sent, hsent⟩ := ccwriterDoWrite_outputs hwrite h fun _ => ha
    have hsubmitted : Silent w (w.observe (.submit i pkt)) := Silent.observe (o := .submit i pkt) rfl rfl rfl
    exact ⟨[] ++ sent, (hsubmitted.outputs wtrs h).trans hsent⟩
  | defer dpkt pkt ms =>
    obtain ⟨⟨r, w₁⟩, hdefer, rfl⟩ := Option.map_eq_some_iff.mp hrun
    exact ⟨[], (Silent.deferPacket hdefer).outputs wtrs (h.deferPacket ha hdefer)⟩
  | next =>
    obtain ⟨⟨r, w₁⟩, hnext, rfl⟩ := Option.map_eq_some_iff.mp hrun
    exact deferNext_outputs hnext h
  | alarm =>
    by_cases hexpired : w.timer.expired (os.clock w.reading) = true
    · obtain rfl := Option.some.inj ((if_pos hexpired).symm.trans hrun)
      exact ⟨[], Silent.outputs wtrs ⟨rfl, rfl⟩ h⟩
    · obtain rfl := Option.some.inj ((if_neg hexpired).symm.trans hrun)
      exact ⟨[], Silent.outputs wtrs ⟨rfl, rfl⟩ h⟩
  | channel k chn => exact absurd rfl (hchannel k chn)

omit [DecidableEq ι] [DecidableEq κ] in
/-- Where the engine starts. -/
theorem confined_start (slots : Slot ι → Timeval × Timeval) (channels : κ → Channel) :
    Confined ok (start slots channels).slots := fun _ => Or.inl rfl

end Protozoa.Engine
