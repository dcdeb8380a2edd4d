import Protozoa.Engine.Gap
import Protozoa.Engine.Repeat

/-!
# The end of a held command

A packet that is not a stop is sent again after the timeout of the protocol, as long as more than
that is left until it expires (`ccwriter_check_deferred`, `ccwriter.c:165-183`, with
`ccpacket_is_expired`, `ccpacket.c:253-255`).

* `requeued_before_expire`: what is queued again is due before the packet expires.
* `Ending`: how often a packet has been transmitted, and for when it is queued. One call keeps it
  (`Pass.Decides.ending`), and so do steps without a call for the slot (`step_slot`) and runs
  (`Ending.run`).
* `Leaving`: a slot that is queued is not too soon when it is due, so that every wake-up for it
  transmits, and the last one is due when the packet expires (or its gap time is over).
* `held_commands_end`; `not_held_commands_end` when `cl_rbtree_remove` has taken another slot for
  the one that was superseded, which then stands in the queue twice.

Out of scope here: stops, which are repeated by counting (`Engine/Repeat.lean`), and that a wake-up
comes at all (`Engine/Armed.lean`).
-/

namespace Protozoa.Engine

open Clump Lib.SortedBag

variable {ι κ : Type} [DecidableEq ι] [DecidableEq κ] {os : Os} {wtrs : ι → Ccwriter κ} {w w' : World ι κ}
  {i : ι} {dpkt : Slot ι} {pkt pkt' : Ccpacket}

/-! ## One slot -/

/-- The slot is queued or not as before, and holds the same. -/
structure SameSlot (s : Slot ι) (w w' : World ι κ) : Prop where
  queue : s ∈ w'.queue ↔ s ∈ w.queue
  slot : w'.slots s = w.slots s

/-- A call for a slot: what comes out of it stays, and it is a reader's, or the slot was queued and
is due. -/
structure Pass.Decides (os : Os) (wtrs : ι → Ccwriter κ) (w : World ι κ) (a : Action ι κ) (w' : World ι κ)
    (s : Slot ι) (p : Pass ι κ) : Prop extends p.Called os wtrs where
  wtr : p.wtr = s.1
  receiver : p.pkt.receiver = s.2 + 1
  clean : p.Clean
  reading : w.reading ≤ p.before.reading
  queue : s ∈ w'.queue ↔ s ∈ p.after.queue
  tv : (w'.slots s).tv = (p.after.slots s).tv
  packet : (w'.slots s).packet = (p.after.slots s).packet ∨ (w'.slots s).packet = p.left
  source : a = .submit s.1 p.pkt ∨ s ∈ w.queue ∧ p.pkt = (w.slots s).packet ∧
    ∃ m ≤ p.before.reading, .hand s (w.slots s).tv (os.clock m) ∈ w'.trace

omit [DecidableEq ι] [DecidableEq κ] in
theorem sameSlot_of_deferRearm {r : Int} (h : deferRearm os w = some (r, w')) (hw : Shaped w) (s : Slot ι) :
    SameSlot s w w' :=
  ⟨by rw [(rearms_of_deferRearm h hw).queue], by rw [(rearms_of_deferRearm h hw).slots]⟩

section

variable {w₁ : World ι κ} {p : Pass ι κ} {r : Int}

/-- A slot that is handed over has a packet for its receiver. -/
theorem Pass.Hands.receiver (h : p.Hands os wtrs (woken w) dpkt w₁) (hcur : Current wtrs w none)
    (hmem : dpkt ∈ w.queue) : p.pkt.receiver = dpkt.2 + 1 :=
  h.pkt ▸ (hcur.stored dpkt hmem (Option.some_ne_none _)).receiver

/-- After the call the queue is armed again, which changes no slot. -/
theorem Pass.Hands.rearmed (h : p.Hands os wtrs (woken w) dpkt w₁)
    (hrearm : deferRearm os (p.stored dpkt) = some (r, w')) (s : Slot ι) : SameSlot s (p.stored dpkt) w' :=
  sameSlot_of_deferRearm hrearm ((writes_of_ccwriterDoWrite h.call h.shaped).shaped h.shaped) s

/-- Handing over a slot is a call for it, -/
theorem Pass.Hands.decides (h : p.Hands os wtrs (woken w) dpkt w₁) (hcur : Current wtrs w none)
    (hmem : dpkt ∈ w.queue) (hrearm : deferRearm os (p.stored dpkt) = some (r, w'))
    (hC : ∀ o ∈ w'.trace, o.RemovesFirst) : p.Decides os wtrs w .next w' dpkt := by
  have hrest := h.rearmed hrearm dpkt
  have hslot : w'.slots dpkt = { p.after.slots dpkt with packet := p.left } :=
    hrest.slot.trans (World.setSlot_slots_self _ _ _)
  have hgrows := h.grows hrearm
  have hC' : ∀ o ∈ p.after.trace, o.RemovesFirst := fun o ho => hC o (hgrows.subset ho)
  have horderly := (h.orderly ⟨hcur.sorted, hcur.nodup, hcur.defers⟩ hC').2
  -- The observation of the hand-over is the last one before the call.
  have hhand : .hand dpkt (w.slots dpkt).tv (os.clock w₁.reading) ∈ p.before.trace := by
    rw [h.before, show (w.slots dpkt).tv = (w₁.slots dpkt).tv by rw [h.removes.slots]; rfl]
    exact List.mem_cons_self
  have hreading : w₁.reading ≤ p.before.reading := by
    rw [h.before]
    exact Nat.le_succ _
  exact ⟨h.toCalled, h.wtr, h.receiver hcur hmem, ⟨horderly, hC'⟩, h.sameSends.reading, hrest.queue, by rw [hslot],
    .inr (by rw [hslot]), .inr ⟨hmem, h.pkt, w₁.reading, hreading,
      hgrows.subset ((writes_of_ccwriterDoWrite h.call h.shaped).grows.subset hhand)⟩⟩

/-- and leaves the other slots alone. -/
theorem Pass.Hands.elsewhere (h : p.Hands os wtrs (woken w) dpkt w₁) (hcur : Current wtrs w none)
    (hmem : dpkt ∈ w.queue) (hrearm : deferRearm os (p.stored dpkt) = some (r, w'))
    (hC : ∀ o ∈ w'.trace, o.RemovesFirst) {s : Slot ι} (hs : s ≠ dpkt) :
    SameSlot s w w' ∧ ¬(p.wtr = s.1 ∧ p.pkt.receiver = s.2 + 1) := by
  have hrest := h.rearmed hrearm s
  have hC' : ∀ o ∈ p.after.trace, o.RemovesFirst := fun o ho => hC o ((h.grows hrearm).subset ho)
  obtain ⟨herase, horderly⟩ := h.orderly ⟨hcur.sorted, hcur.nodup, hcur.defers⟩ hC'
  have hother : ¬(p.wtr = s.1 ∧ p.pkt.receiver = s.2 + 1) := by
    rintro ⟨hi, hr⟩
    rw [h.wtr] at hi
    rw [h.receiver hcur hmem] at hr
    exact hs (Prod.ext hi.symm (by omega))
  obtain ⟨-, hqueue, hslot⟩ := ccwriterDoWrite_elsewhere h.call h.shaped horderly hC' hother
  refine ⟨⟨hrest.queue.trans (hqueue.trans ?_), ?_⟩, hother⟩
  · rw [h.before]
    change s ∈ w₁.queue ↔ _
    rw [herase]
    exact List.mem_erase_of_ne hs
  · rw [hrest.slot, show (p.stored dpkt).slots s = _ from World.setSlot_slots_of_ne _ _ hs, hslot,
      h.before, handed_slots_of_ne os wtrs w₁ hs]
    exact congrFun h.removes.slots s

end

/-- **A step** leaves a slot alone, or is a call for it. -/
theorem step_slot {a : Action ι κ} (h : step os wtrs w a = some w') (hw : Shaped w) (hcur : Current wtrs w none)
    (hC : ∀ o ∈ w'.trace, o.RemovesFirst) (ha : a.ByWriters) (s : Slot ι) :
    (SameSlot s w w' ∧ ∀ p, passOf os wtrs w a = some p → ¬(p.wtr = s.1 ∧ p.pkt.receiver = s.2 + 1)) ∨
      ∃ p, passOf os wtrs w a = some p ∧ p.Decides os wtrs w a w' s := by
  cases a with
  | submit i pkt =>
    obtain ⟨p, hpass, hcalled, hwtr, hpkt, -, hbefore, rfl⟩ := submit_passed h hw
    have horderly : Orderly p.before := by
      rw [hbefore]
      exact ⟨hcur.sorted, hcur.nodup, List.forall_mem_cons.mpr ⟨trivial, hcur.defers⟩⟩
    by_cases hs : p.wtr = s.1 ∧ p.pkt.receiver = s.2 + 1
    · have hreading : w.reading ≤ p.before.reading := hbefore ▸ le_rfl
      exact .inr ⟨p, hpass, hcalled, hs.1, hs.2, ⟨horderly, hC⟩, hreading, Iff.rfl, rfl, .inl rfl,
        .inl (by rw [← hs.1, hwtr, hpkt])⟩
    · obtain ⟨-, hqueue, hslot⟩ := ccwriterDoWrite_elsewhere hcalled.call hcalled.shaped horderly hC hs
      rw [hbefore] at hqueue hslot
      refine .inl ⟨⟨hqueue, hslot⟩, fun q hq => ?_⟩
      obtain rfl := Option.some.inj (hpass.symm.trans hq)
      exact hs
  | defer => exact ha.elim
  | next =>
    rcases next_passed h hw with ⟨hnone, rfl | ⟨r, hrearm⟩⟩ | ⟨dpkt, w₁, p, r, hhead, hpass, hhands, hrearm⟩
    · exact .inl ⟨⟨Iff.rfl, rfl⟩, fun p hp => nomatch hnone.symm.trans hp⟩
    · have hwoken : SameSlot s (woken w) w' := sameSlot_of_deferRearm hrearm hw s
      exact .inl ⟨⟨hwoken.queue, hwoken.slot⟩, fun p hp => nomatch hnone.symm.trans hp⟩
    have hmem : dpkt ∈ w.queue := List.mem_of_mem_head? hhead
    by_cases hs : s = dpkt
    · subst hs
      exact .inr ⟨p, hpass, hhands.decides hcur hmem hrearm hC⟩
    · obtain ⟨hsame, hother⟩ := hhands.elsewhere hcur hmem hrearm hC hs
      refine .inl ⟨hsame, fun q hq => ?_⟩
      obtain rfl := Option.some.inj (hpass.symm.trans hq)
      exact hother
  | alarm =>
    refine .inl ⟨?_, fun p hp => nomatch (show none = some p from hp)⟩
    simp only [step] at h
    split at h
    · obtain rfl := Option.some.inj h
      exact ⟨Iff.rfl, rfl⟩
    · obtain rfl := Option.some.inj h
      exact ⟨Iff.rfl, rfl⟩
  | channel k chn =>
    obtain rfl := Option.some.inj h
    exact .inl ⟨⟨Iff.rfl, rfl⟩, fun p hp => nomatch (show none = some p from hp)⟩

/-! ## The re-sends -/

theorem timeout_lt (protocol : Protocol) : protocol.timeout * 1000 < 2 ^ 32 := by
  cases protocol <;> decide

omit [DecidableEq ι] [DecidableEq κ] in
/-- More than the timeout is left until the packet expires. -/
theorem lt_expire {now : Timeval} {timeout : Nat} (h : ccpacketIsExpired now pkt timeout = true) :
    now.toUsec + timeout * 1000 < pkt.expire.toUsec := by
  have hleft : (timeout : Int) < timeFromNow now pkt.expire := of_decide_eq_true h
  have hlt := timeElapsed_lt now pkt.expire
  rw [timeFromNow_of_pos (by omega)] at hleft
  omega

/-- `ccwriter_check_deferred` has queued the packet again. -/
def Pass.Requeues (p : Pass ι κ) : Prop :=
  0 < p.count ∧ ∃ calls, callsOf p.wtr p.after.trace = .deferPacket (slotOf p.wtr p.pkt).2 true :: calls

/-- **A packet that is transmitted and is no stop**: it is queued again, before it expires, or not.
-/
theorem Pass.Called.transmits {p : Pass ι κ} (h : p.Called os wtrs) (hfixed : p.Fixed os)
    (hstop : ccpacketIsStop p.pkt = false) (hcount : 0 < p.count) :
    p.left = (wtrs p.wtr).protocol.adjust p.pkt ∧
      ((p.after.slots (slotOf p.wtr p.pkt)).packet = p.left ∧
        (p.after.slots (slotOf p.wtr p.pkt)).tv.toUsec =
          (p.time os).toUsec + (wtrs p.wtr).protocol.timeout * 1000 ∧
        (p.after.slots (slotOf p.wtr p.pkt)).tv.toUsec < p.pkt.expire.toUsec ∨
      (∃ calls, callsOf p.wtr p.after.trace = .deferPacket (slotOf p.wtr p.pkt).2 false :: calls) ∧
        (p.Clean → slotOf p.wtr p.pkt ∉ p.after.queue)) := by
  have hadjust := (isStop_adjust (wtrs p.wtr).protocol p.pkt).trans hstop
  have hexpire := (settles_adjust (wtrs p.wtr).protocol).expire p.pkt
  obtain ⟨hpassed, -⟩ := h.passed
  generalize p.count = c, p.left = pkt' at hpassed hcount
  cases hpassed with
  | unknown => exact absurd hcount (Nat.lt_irrefl 0)
  | tooSoon => exact absurd hcount (Nat.lt_irrefl 0)
  | @sent w₁ hrange hsoon hquiet hslots hreading hlater hchecked =>
    refine ⟨rfl, ?_⟩
    cases hchecked with
    | again hagain => cases hadjust.symm.trans hagain
    | enough hagain => cases hadjust.symm.trans hagain
    | held _ hexpired hread hqueue hslot =>
      left
      rw [hreading] at hexpired hread hslot
      have hnow : os.clock (p.before.reading + 1 + 1) = p.time os := hfixed _ (by omega) (by omega)
      have hnow' : os.clock (p.before.reading + 1 + 2) = p.time os := hfixed _ hread (by omega)
      rw [hnow] at hexpired
      rw [hnow'] at hslot
      have hlt := lt_expire hexpired
      rw [hexpire] at hlt
      have hdue : (timevalAdjust (p.time os) (wtrs p.wtr).protocol.timeout).toUsec = _ :=
        (timevalAdjust_spec (os.normal _)).1
      rw [Nat.mod_eq_of_lt (timeout_lt _), Nat.cast_mul, Nat.cast_ofNat] at hdue
      rw [hslot]
      exact ⟨rfl, hdue, hdue ▸ hlt⟩
    | ended _ _ hcalls hqueue _ =>
      right
      refine ⟨⟨_, hcalls⟩, fun hclean => hqueue ?_ hclean.2⟩
      exact hquiet.orderly (by simp [Obs.DefersOnly]) hclean.1

/-- **What is queued again**, and is no stop, is due before it expires. -/
theorem requeued_before_expire {p : Pass ι κ} (h : p.Called os wtrs) (hfixed : p.Fixed os)
    (hstop : ccpacketIsStop p.pkt = false) (hre : p.Requeues) :
    (p.after.slots (slotOf p.wtr p.pkt)).tv.toUsec < p.pkt.expire.toUsec := by
  obtain ⟨hcount, calls, hcalls⟩ := hre
  rcases (h.transmits hfixed hstop hcount).2 with ⟨-, -, hlt⟩ | ⟨⟨calls', hover⟩, -⟩
  · exact hlt
  · rw [hcalls] at hover
    cases hover

/-! ## One packet -/

/-- The packet is `pkt`, or what the writer has made of it, as far as re-sends depend on it. -/
structure Carries (pkt q : Ccpacket) : Prop where
  receiver : q.receiver = pkt.receiver
  expire : q.expire = pkt.expire
  stop : ccpacketIsStop q = false

theorem Carries.adjust (h : Carries pkt pkt') (protocol : Protocol) : Carries pkt (protocol.adjust pkt') :=
  ⟨((settles_adjust protocol).receiver pkt').trans h.receiver,
    ((settles_adjust protocol).expire pkt').trans h.expire, (isStop_adjust protocol pkt').trans h.stop⟩

/-- A packet that was accepted at `t₀` with `rt` milliseconds to live has been transmitted `k`
times, at intervals of `wt` milliseconds. If its slot is queued, it is for the next time. -/
structure Ending (w : World ι κ) (s : Slot ι) (pkt : Ccpacket) (t₀ : Int) (rt wt k : Nat) : Prop where
  total : k * wt ≤ rt + wt
  waits : s ∈ w.queue →
    k * wt ≤ rt ∧ t₀ + k * wt * 1000 ≤ (w.slots s).tv.toUsec ∧ Carries pkt (w.slots s).packet

section

variable {s : Slot ι} {t₀ : Int} {rt k : Nat} {p : Pass ι κ}

omit [DecidableEq ι] [DecidableEq κ] in
theorem Ending.still {wt : Nat} (h : Ending w s pkt t₀ rt wt k) (hsame : SameSlot s w w') :
    Ending w' s pkt t₀ rt wt k := by
  refine ⟨h.total, fun hin => ?_⟩
  rw [hsame.slot]
  exact h.waits (hsame.queue.mp hin)

/-- **A call for the packet.** -/
theorem Pass.Called.ending (h : p.Called os wtrs) (hclean : p.Clean) (hfixed : p.Fixed os)
    (hpkt : Carries pkt p.pkt) (hrange : InRange wtrs p.wtr p.pkt) (hk : k * (wtrs p.wtr).protocol.timeout ≤ rt)
    (hdue : t₀ + k * (wtrs p.wtr).protocol.timeout * 1000 ≤ (p.time os).toUsec)
    (hexpire : pkt.expire.toUsec ≤ t₀ + rt * 1000) :
    Ending p.after (slotOf p.wtr p.pkt) pkt t₀ rt (wtrs p.wtr).protocol.timeout
        (k + if 0 < p.count then 1 else 0) ∧ Carries pkt p.left := by
  by_cases hcount : 0 < p.count
  · obtain ⟨hleft, hcases⟩ := h.transmits hfixed hpkt.stop hcount
    have hcarries : Carries pkt p.left := hleft ▸ hpkt.adjust _
    rw [if_pos hcount]
    rw [hpkt.expire] at hcases
    have hnext : ((k + 1 : Nat) : Int) * (wtrs p.wtr).protocol.timeout =
        k * (wtrs p.wtr).protocol.timeout + (wtrs p.wtr).protocol.timeout := by
      rw [Nat.cast_succ, Int.add_mul, Int.one_mul]
    refine ⟨⟨by omega, fun hin => ?_⟩, hcarries⟩
    rcases hcases with ⟨hpacket, htv, hlt⟩ | ⟨-, hout⟩
    · rw [hpacket, htv]
      exact ⟨by omega, by omega, hcarries⟩
    · exact absurd hin (hout hclean)
  · obtain ⟨hpassed, -⟩ := h.passed
    rw [if_neg hcount, Nat.add_zero]
    generalize p.count = c, p.left = pkt' at hpassed hcount ⊢
    cases hpassed with
    | unknown hunknown => exact absurd hrange hunknown
    | sent => exact absurd Nat.one_pos hcount
    | tooSoon _ _ _ hslot =>
      refine ⟨⟨by omega, fun _ => ?_⟩, hpkt⟩
      rw [hslot]
      refine ⟨hk, ?_, hpkt⟩
      have hlater : (timevalAdjust (os.clock (p.before.reading + 1)) (wtrs p.wtr).protocol.gaptime).toUsec = _ :=
        (timevalAdjust_spec (os.normal _)).1
      have hmono : (p.time os).toUsec ≤ _ := os.mono (Nat.le_succ p.before.reading)
      change _ ≤ (timevalAdjust _ _).toUsec
      rw [hlater]
      exact (hdue.trans hmono).trans (Int.le_add_of_nonneg_right (Int.natCast_nonneg _))

/-! ## The way out of the queue -/

theorem gaptime_le_timeout (protocol : Protocol) : protocol.gaptime ≤ protocol.timeout := by
  cases protocol <;> decide

/-- Every slot was sent, or made, before the next reading of the clock. -/
def Stamped (os : Os) (w : World ι κ) : Prop := ∀ s, (w.slots s).sent.toUsec ≤ (os.clock w.reading).toUsec

theorem Stamped.step {a : Action ι κ} (h : Stamped os w) (hstep : step os wtrs w a = some w') (hw : Shaped w) :
    Stamped os w' := by
  intro s
  rcases step_passed hstep hw with ⟨-, hsame⟩ | ⟨p, -, hwithin⟩
  · rw [hsame.sent]
    exact (h s).trans (os.mono hsame.reading)
  · have hslot : (s.1, ((s.2 : Int) + 1 - 1).toNat) = s := Prod.ext rfl (by simp)
    rw [hwithin.after.sent]
    by_cases hsent : p.Sent s.1 ((s.2 : Int) + 1)
    · obtain ⟨-, -, hnow, hlater⟩ := hwithin.toCalled.sent hsent
      rw [hslot] at hnow
      rw [hnow]
      have hreading := hwithin.after.reading
      exact os.mono (by omega)
    · have hkept := (hwithin.toCalled.not_sent (by omega) hsent).1
      rw [hslot] at hkept
      rw [hkept, hwithin.before.sent]
      exact (h s).trans (os.mono hwithin.later)

theorem Stamped.run : ∀ {actions : List (Action ι κ)} {w w' : World ι κ}, Shaped w → Stamped os w →
    run os wtrs w actions = some w' → Stamped os w'
  | [], w, w', _, h, hrun => by
    obtain rfl := Option.some.inj hrun
    exact h
  | a :: actions, w, w', hw, h, hrun => by
    rw [run_cons] at hrun
    obtain ⟨w₁, hstep, hrun⟩ := Option.bind_eq_some_iff.mp hrun
    exact Stamped.run ((follows_of_step hstep hw).shaped hw) (h.step hstep hw) hrun

/-- The next call for a slot that is queued is not too soon, and is due by the time `last`. -/
structure Leaving (w : World ι κ) (s : Slot ι) (gaptime : Nat) (last : Int) : Prop where
  apart : s ∈ w.queue → (w.slots s).sent.toUsec + gaptime * 1000 ≤ (w.slots s).tv.toUsec
  last : s ∈ w.queue → (w.slots s).tv.toUsec ≤ last

omit [DecidableEq ι] [DecidableEq κ] in
theorem Leaving.still {gaptime : Nat} {last : Int} (h : Leaving w s gaptime last) (hsame : SameSlot s w w') :
    Leaving w' s gaptime last := by
  constructor
  · rw [hsame.queue, hsame.slot]
    exact h.apart
  · rw [hsame.queue, hsame.slot]
    exact h.last

/-- A call that is not too soon transmits. -/
theorem Pass.Called.transmits_of_apart (h : p.Called os wtrs) (hrange : InRange wtrs p.wtr p.pkt)
    (hapart : (p.before.slots (slotOf p.wtr p.pkt)).sent.toUsec + (wtrs p.wtr).protocol.gaptime * 1000 ≤
      (p.time os).toUsec) : 0 < p.count := by
  obtain ⟨hpassed, -⟩ := h.passed
  generalize p.count = c, p.left = pkt' at hpassed
  cases hpassed with
  | unknown hunknown => exact absurd hrange hunknown
  | tooSoon _ hsoon => exact absurd hsoon (not_timeSince_lt hapart)
  | sent => exact Nat.one_pos

/-- **A call for the packet** leaves its slot on the way out. -/
theorem Pass.Called.leaving (h : p.Called os wtrs) (hclean : p.Clean) (hfixed : p.Fixed os)
    (hstop : ccpacketIsStop p.pkt = false) (hrange : InRange wtrs p.wtr p.pkt)
    (hstamped : (p.before.slots (slotOf p.wtr p.pkt)).sent.toUsec ≤ (p.time os).toUsec) {last : Int}
    (hexpire : p.pkt.expire.toUsec ≤ last)
    (hsoon : p.count = 0 → (p.time os).toUsec + (wtrs p.wtr).protocol.gaptime * 1000 ≤ last) :
    Leaving p.after (slotOf p.wtr p.pkt) (wtrs p.wtr).protocol.gaptime last := by
  by_cases hcount : 0 < p.count
  · obtain ⟨-, -, hnow, hlater⟩ := h.sent (r := p.pkt.receiver) ⟨rfl, rfl, hcount⟩
    have hsent : (p.after.slots (slotOf p.wtr p.pkt)).sent = p.time os :=
      hnow.trans (hfixed _ (by omega) (by omega))
    have hgap := gaptime_le_timeout (wtrs p.wtr).protocol
    rcases (h.transmits hfixed hstop hcount).2 with ⟨-, htv, hlt⟩ | ⟨-, hout⟩
    · rw [htv] at hlt
      constructor <;> intro
      · rw [hsent, htv]
        omega
      · rw [htv]
        omega
    · exact ⟨fun hin => absurd hin (hout hclean), fun hin => absurd hin (hout hclean)⟩
  · have hlast := hsoon (Nat.eq_zero_of_not_pos hcount)
    obtain ⟨hpassed, -⟩ := h.passed
    generalize p.count = c, p.left = pkt' at hpassed hcount
    cases hpassed with
    | unknown hunknown => exact absurd hrange hunknown
    | sent => exact absurd Nat.one_pos hcount
    | tooSoon _ _ _ hslot hlater =>
      have hnow : os.clock (p.before.reading + 1) = p.time os := hfixed _ hlater (Nat.le_succ _)
      have hdue : (timevalAdjust (os.clock (p.before.reading + 1)) (wtrs p.wtr).protocol.gaptime).toUsec =
          (p.time os).toUsec + (wtrs p.wtr).protocol.gaptime * 1000 := by
        rw [(timevalAdjust_spec (os.normal _)).1, hnow, Nat.mod_eq_of_lt (gaptime_lt _), Nat.cast_mul, Nat.cast_ofNat]
      constructor <;> intro
      · rw [hslot]
        change _ ≤ (timevalAdjust _ _).toUsec
        rw [hdue]
        exact Int.add_le_add_right hstamped _
      · rw [hslot]
        change (timevalAdjust _ _).toUsec ≤ _
        rw [hdue]
        exact hlast

/-! ## Runs -/

/-- What a packet needs in order to end. -/
structure Expires (os : Os) (wtrs : ι → Ccwriter κ) (i : ι) (pkt : Ccpacket) (t₀ : Int) (rt : Nat) : Prop where
  range : InRange wtrs i pkt
  stop : ccpacketIsStop pkt = false
  expire : pkt.expire.toUsec ≤ t₀ + rt * 1000

omit [DecidableEq ι] [DecidableEq κ] in
/-- A packet for the same receiver has the same slot. -/
theorem Carries.slotOf (h : Carries pkt pkt') (i : ι) : slotOf i pkt' = slotOf i pkt := by
  unfold Engine.slotOf
  rw [h.receiver]

omit [DecidableEq ι] [DecidableEq κ] in
theorem Carries.inRange (h : Carries pkt pkt') (hrange : InRange wtrs i pkt) : InRange wtrs i pkt' := by
  unfold InRange at hrange ⊢
  rwa [h.receiver]

omit [DecidableEq κ] in
theorem length_transmissions (p : Pass ι κ) :
    (transmissions p.wtr p.pkt.receiver [p]).length = if 0 < p.count then 1 else 0 := by
  by_cases hpos : 0 < p.count
  · simp [transmissions, Pass.Sent, hpos]
  · simp [transmissions, Pass.Sent, hpos]

/-- **A call for the slot**, and what comes after it in the same step. -/
theorem Pass.Decides.ending {a : Action ι κ} (h : p.Decides os wtrs w a w' (slotOf i pkt))
    (hpkt : Expires os wtrs i pkt t₀ rt) (hfixed : p.Fixed os) (hcarries : Carries pkt p.pkt)
    (hk : k * (wtrs i).protocol.timeout ≤ rt)
    (hdue : t₀ + k * (wtrs i).protocol.timeout * 1000 ≤ (p.time os).toUsec) :
    Ending w' (slotOf i pkt) pkt t₀ rt (wtrs i).protocol.timeout
      (k + (transmissions i pkt.receiver [p]).length) := by
  obtain rfl : p.wtr = i := h.wtr
  have hslot := hcarries.slotOf p.wtr
  have hrange := hcarries.inRange hpkt.range
  have hcount := length_transmissions p
  rw [hcarries.receiver] at hcount
  obtain ⟨hending, hleft⟩ := h.toCalled.ending h.clean hfixed hcarries hrange hk hdue hpkt.expire
  rw [hslot] at hending
  rw [hcount]
  refine ⟨hending.total, fun hin => ?_⟩
  obtain ⟨hk', htv, hpacket⟩ := hending.waits (h.queue.mp hin)
  refine ⟨hk', h.tv ▸ htv, ?_⟩
  rcases h.packet with hsame | hsame
  · rw [hsame]
    exact hpacket
  · rw [hsame]
    exact hleft

/-- A step hands over a slot by a call for it. -/
theorem step_hands {a : Action ι κ} (h : step os wtrs w a = some w') (hw : Shaped w) (hcur : Current wtrs w none)
    (s : Slot ι) : handsOf s w'.trace = handsOf s w.trace ∨
      handsOf s w'.trace = handsOf s w.trace + 1 ∧
        ∃ p, passOf os wtrs w a = some p ∧ p.wtr = s.1 ∧ p.pkt.receiver = s.2 + 1 := by
  cases a with
  | submit i pkt =>
    obtain ⟨p, -, hcalled, -, -, -, hbefore, rfl⟩ := submit_passed h hw
    refine .inl (((writes_of_ccwriterDoWrite hcalled.call hcalled.shaped).hands s).trans ?_)
    rw [hbefore]
    rfl
  | defer dpkt again ms =>
    obtain ⟨r, w₁, hdefer, hdefers⟩ := deferPacket_defers os hw dpkt again ms
    obtain ⟨⟨r', w₂⟩, hdefer', rfl⟩ := Option.map_eq_some_iff.mp h
    obtain ⟨-, rfl⟩ := Prod.mk.inj (Option.some.inj (hdefer'.symm.trans hdefer))
    exact .inl (hdefers.hands s)
  | next =>
    rcases next_passed h hw with ⟨-, rfl | ⟨r, hrearm⟩⟩ | ⟨dpkt, w₁, p, r, hhead, hpass, hhands, hrearm⟩
    · exact .inl rfl
    · exact .inl ((rearms_of_deferRearm hrearm hw).hands s)
    · have hwrites := writes_of_ccwriterDoWrite hhands.call hhands.shaped
      have hafter : handsOf s w'.trace = handsOf s p.before.trace :=
        ((rearms_of_deferRearm hrearm (hwrites.shaped hhands.shaped)).hands s).trans (hwrites.hands s)
      have hbefore : handsOf s p.before.trace = handsOf s w.trace + if dpkt = s then 1 else 0 := by
        rw [hhands.before]
        show handsOf s (_ :: w₁.trace) = _
        rw [hhands.removes.trace]
        simp [handsOf, List.countP_cons, woken]
      have hreceiver := hhands.receiver hcur (List.mem_of_mem_head? hhead)
      rw [hafter, hbefore]
      by_cases hs : dpkt = s
      · rw [if_pos hs]
        exact .inr ⟨rfl, p, hpass, hs ▸ hhands.wtr, hs ▸ hreceiver⟩
      · rw [if_neg hs]
        exact .inl rfl
  | alarm =>
    simp only [step] at h
    split at h <;> obtain rfl := Option.some.inj h <;> exact .inl rfl
  | channel k chn =>
    obtain rfl := Option.some.inj h
    exact .inl rfl

/-- The calls of a step. -/
def callsIn (os : Os) (wtrs : ι → Ccwriter κ) (w : World ι κ) (a : Action ι κ) : List (Pass ι κ) :=
  (passOf os wtrs w a).toList

/-- **A step** that submits no other packet. -/
theorem Ending.step {a : Action ι κ} (h : Ending w (slotOf i pkt) pkt t₀ rt (wtrs i).protocol.timeout k)
    (hpkt : Expires os wtrs i pkt t₀ rt) (hstep : step os wtrs w a = some w') (hw : Shaped w)
    (hcur : Current wtrs w none) (ha : a.ByWriters) (hother : ¬a.SubmitsTo i pkt.receiver)
    (hfixed : ∀ p ∈ callsIn os wtrs w a, p.Fixed os) (hC : ∀ o ∈ w'.trace, o.RemovesFirst)
    (hP : ∀ o ∈ w'.trace, o.Punctual) :
    Ending w' (slotOf i pkt) pkt t₀ rt (wtrs i).protocol.timeout
      (k + (transmissions i pkt.receiver (callsIn os wtrs w a)).length) := by
  have hreceiver : (((slotOf i pkt).2 : Nat) : Int) + 1 = pkt.receiver := by
    have := hpkt.range.1
    unfold slotOf
    omega
  unfold callsIn at hfixed ⊢
  rcases step_slot hstep hw hcur hC ha (slotOf i pkt) with ⟨hsame, hnone⟩ | ⟨p, hpass, hdecides⟩
  · have hzero : transmissions i pkt.receiver (passOf os wtrs w a).toList = [] := by
      refine List.filter_eq_nil_iff.mpr fun p hp hsent => ?_
      obtain ⟨hi, hr, -⟩ := of_decide_eq_true hsent
      exact hnone p (Option.mem_toList.mp hp) ⟨hi, hr.trans hreceiver.symm⟩
    rw [hzero, List.length_nil, Nat.add_zero]
    exact h.still hsame
  · rw [hpass] at hfixed ⊢
    have hsource := hdecides.source
    rcases hsource with rfl | ⟨hin, hpacket, m, hm, hhand⟩
    · exact absurd ⟨rfl, hdecides.receiver.trans hreceiver⟩ hother
    · obtain ⟨hk, htv, hcarries⟩ := h.waits hin
      have hdue : t₀ + k * (wtrs i).protocol.timeout * 1000 ≤ (p.time os).toUsec :=
        (htv.trans (hP _ hhand)).trans (os.mono hm)
      exact hdecides.ending hpkt (hfixed p List.mem_cons_self) (hpacket ▸ hcarries) hk hdue

/-- What a call leaves of its slot, it still is after the step. -/
theorem Pass.Decides.leaving {a : Action ι κ} {gaptime : Nat} {last : Int}
    (h : p.Decides os wtrs w a w' s) (hwithin : p.Within os wtrs w w') (hleft : Leaving p.after s gaptime last) :
    Leaving w' s gaptime last := by
  constructor
  · rw [h.queue, h.tv, hwithin.after.sent]
    exact hleft.apart
  · rw [h.queue, h.tv]
    exact hleft.last

/-- **A step** that submits no other packet transmits what it hands over. -/
theorem Leaving.step {a : Action ι κ} {last : Int}
    (h : Leaving w (slotOf i pkt) (wtrs i).protocol.gaptime last)
    (hending : Ending w (slotOf i pkt) pkt t₀ rt (wtrs i).protocol.timeout k)
    (hpkt : Expires os wtrs i pkt t₀ rt) (hlast : pkt.expire.toUsec ≤ last) (hstep : step os wtrs w a = some w')
    (hw : Shaped w) (hcur : Current wtrs w none) (ha : a.ByWriters) (hother : ¬a.SubmitsTo i pkt.receiver)
    (hfixed : ∀ p ∈ callsIn os wtrs w a, p.Fixed os) (hC : ∀ o ∈ w'.trace, o.RemovesFirst)
    (hP : ∀ o ∈ w'.trace, o.Punctual) :
    Leaving w' (slotOf i pkt) (wtrs i).protocol.gaptime last ∧
      handsOf (slotOf i pkt) w'.trace ≤
        handsOf (slotOf i pkt) w.trace + (transmissions i pkt.receiver (callsIn os wtrs w a)).length := by
  have hreceiver : (((slotOf i pkt).2 : Nat) : Int) + 1 = pkt.receiver := by
    have := hpkt.range.1
    unfold slotOf
    omega
  have hhands := step_hands hstep hw hcur (slotOf i pkt)
  unfold callsIn at hfixed ⊢
  rcases step_slot hstep hw hcur hC ha (slotOf i pkt) with ⟨hsame, hnone⟩ | ⟨p, hpass, hdecides⟩
  · refine ⟨h.still hsame, ?_⟩
    rcases hhands with hkept | ⟨-, p, hpass, hcall⟩
    · exact hkept.le.trans (Nat.le_add_right _ _)
    · exact absurd hcall (hnone p hpass)
  · have hwithin := within_of_passOf hstep hw hpass
    rw [hpass] at hfixed ⊢
    rcases hdecides.source with rfl | ⟨hin, hpacket, m, hm, hhand⟩
    · exact absurd ⟨rfl, hdecides.receiver.trans hreceiver⟩ hother
    have hcarries : Carries pkt p.pkt := hpacket ▸ (hending.waits hin).2.2
    obtain rfl : p.wtr = i := hdecides.wtr
    have hslot := hcarries.slotOf p.wtr
    have hrange := hcarries.inRange hpkt.range
    -- What was queued was sent its gap time ago when it is due.
    have hapart : (p.before.slots (slotOf p.wtr p.pkt)).sent.toUsec + (wtrs p.wtr).protocol.gaptime * 1000 ≤
        (p.time os).toUsec := by
      rw [hslot, hwithin.before.sent]
      exact (h.apart hin).trans ((hP _ hhand).trans (os.mono hm))
    have hcount := hdecides.toCalled.transmits_of_apart hrange hapart
    have hleft := hdecides.toCalled.leaving hdecides.clean (hfixed p List.mem_cons_self) hcarries.stop hrange
      (by omega) (hcarries.expire ▸ hlast) fun hzero => absurd hcount (by omega)
    rw [hslot] at hleft
    refine ⟨hdecides.leaving hwithin hleft, ?_⟩
    have hone := length_transmissions p
    rw [hcarries.receiver, if_pos hcount] at hone
    rw [show (some p).toList = [p] from rfl, hone]
    rcases hhands with hkept | ⟨hmore, -⟩
    · exact hkept.le.trans (Nat.le_succ _)
    · exact hmore.le

/-- **A run** that submits no other packet. -/
theorem Ending.run (hpkt : Expires os wtrs i pkt t₀ rt) {last : Int} (hlast : pkt.expire.toUsec ≤ last) :
    ∀ {actions : List (Action ι κ)} {w w' : World ι κ} {k : Nat},
      Ending w (slotOf i pkt) pkt t₀ rt (wtrs i).protocol.timeout k → Shaped w → Current wtrs w none →
      (∀ a ∈ actions, a.ByWriters ∧ ¬a.SubmitsTo i pkt.receiver) →
      (∀ p ∈ passes os wtrs w actions, p.Fixed os) → run os wtrs w actions = some w' →
      (∀ o ∈ w'.trace, o.RemovesFirst) → (∀ o ∈ w'.trace, o.Punctual) →
        Ending w' (slotOf i pkt) pkt t₀ rt (wtrs i).protocol.timeout
          (k + (transmissions i pkt.receiver (passes os wtrs w actions)).length) ∧
        (Leaving w (slotOf i pkt) (wtrs i).protocol.gaptime last →
          Leaving w' (slotOf i pkt) (wtrs i).protocol.gaptime last ∧
          handsOf (slotOf i pkt) w'.trace ≤ handsOf (slotOf i pkt) w.trace +
            (transmissions i pkt.receiver (passes os wtrs w actions)).length)
  | [], w, w', k, h, _, _, _, _, hrun, _, _ => by
    obtain rfl := Option.some.inj hrun
    exact ⟨h, fun hleaving => ⟨hleaving, le_rfl⟩⟩
  | a :: actions, w, w', k, h, hw, hcur, hactions, hfixed, hrun, hC, hP => by
    rw [run_cons] at hrun
    obtain ⟨w₁, hstep, hrun⟩ := Option.bind_eq_some_iff.mp hrun
    obtain ⟨ha, hother⟩ := hactions a List.mem_cons_self
    have hfollows := follows_of_step hstep hw
    have hgrows := (run_grows (hfollows.shaped hw) hrun).2
    have hC₁ : ∀ o ∈ w₁.trace, o.RemovesFirst := fun o ho => hC o (hgrows.subset ho)
    have hP₁ : ∀ o ∈ w₁.trace, o.Punctual := fun o ho => hP o (hgrows.subset ho)
    rw [passes_cons hstep] at hfixed ⊢
    have hfixed₁ : ∀ p ∈ callsIn os wtrs w a, p.Fixed os := fun p hp => hfixed p (List.mem_append_left _ hp)
    have hnext := h.step hpkt hstep hw hcur ha hother hfixed₁ hC₁ hP₁
    obtain ⟨hrest, hleaves⟩ := Ending.run hpkt hlast hnext (hfollows.shaped hw) (hfollows.current ha hcur hC₁)
      (fun b hb => hactions b (List.mem_cons_of_mem a hb)) (fun p hp => hfixed p (List.mem_append_right _ hp))
      hrun hC hP
    have hlen : (transmissions i pkt.receiver ((passOf os wtrs w a).toList ++ passes os wtrs w₁ actions)).length =
        (transmissions i pkt.receiver (callsIn os wtrs w a)).length +
          (transmissions i pkt.receiver (passes os wtrs w₁ actions)).length := by
      unfold transmissions callsIn
      rw [List.filter_append, List.length_append]
    rw [hlen, ← Nat.add_assoc, ← Nat.add_assoc]
    refine ⟨hrest, fun hleaving => ?_⟩
    obtain ⟨hleaving₁, hhands⟩ := hleaving.step h hpkt hlast hstep hw hcur ha hother hfixed₁ hC₁ hP₁
    obtain ⟨hleaving', hmore⟩ := hleaves hleaving₁
    exact ⟨hleaving', hmore.trans (Nat.add_le_add_right hhands _)⟩

end

omit [DecidableEq κ] in
/-- The transmissions, and the one that is to come if the slot is queued. -/
theorem Ending.few {s : Slot ι} {t₀ : Int} {rt wt k : Nat} (h : Ending w s pkt t₀ rt wt k) (hpos : 0 < wt) :
    k + (if s ∈ w.queue then 1 else 0) ≤ rt / wt + 1 := by
  by_cases hin : s ∈ w.queue
  · rw [if_pos hin]
    exact Nat.succ_le_succ ((Nat.le_div_iff_mul_le hpos).mpr (h.waits hin).1)
  · rw [if_neg hin, ← Nat.add_div_right rt hpos]
    exact (Nat.le_div_iff_mul_le hpos).mpr h.total

omit [DecidableEq κ] in
/-- No transmission is for a receiver that the writer does not have. -/
theorem transmissions_of_not_inRange [DecidableEq κ] {actions : List (Action ι κ)} (hw : Shaped w)
    (hrange : ¬InRange wtrs i pkt) : transmissions i pkt.receiver (passes os wtrs w actions) = [] := by
  refine List.filter_eq_nil_iff.mpr fun p hp hsent => ?_
  exact hrange ((called_of_mem hw hp).sent (of_decide_eq_true hsent)).1

theorem timeout_pos (protocol : Protocol) : 0 < protocol.timeout := by
  cases protocol <;> decide

/-- A packet that is no stop is accepted with `rt` milliseconds to live, and not superseded after
that. -/
structure Accepted (os : Os) (w : World ι κ) (i : ι) (pkt : Ccpacket) (rt : Nat) (later : List (Action ι κ)) :
    Prop where
  stop : ccpacketIsStop pkt = false
  expire : ∃ m ≤ w.reading, pkt.expire = timevalAdjust (os.clock m) rt
  later : ∀ a ∈ later, a.ByWriters ∧ ¬a.SubmitsTo i pkt.receiver

/-- By when a packet that is accepted now is due for the last time. -/
def lastDue (os : Os) (wtrs : ι → Ccwriter κ) (w : World ι κ) (i : ι) (pkt : Ccpacket) : Int :=
  max pkt.expire.toUsec ((os.clock w.reading).toUsec + (wtrs i).protocol.gaptime * 1000)

/-- **The first call** for a packet. -/
theorem ending_of_submit {rt m : Nat} {w₁ : World ι κ} (hw : Shaped w) (hcur : Current wtrs w none)
    (hpkt : Expires os wtrs i pkt (os.clock m).toUsec rt) (hm : m ≤ w.reading)
    (hfixed : ∀ p ∈ callsIn os wtrs w (.submit i pkt), p.Fixed os)
    (hstep : step os wtrs w (.submit i pkt) = some w₁) (hC : ∀ o ∈ w₁.trace, o.RemovesFirst) :
    Ending w₁ (slotOf i pkt) pkt (os.clock m).toUsec rt (wtrs i).protocol.timeout
      (transmissions i pkt.receiver (callsIn os wtrs w (.submit i pkt))).length ∧
    handsOf (slotOf i pkt) w₁.trace = handsOf (slotOf i pkt) w.trace ∧
    (Stamped os w → Leaving w₁ (slotOf i pkt) (wtrs i).protocol.gaptime (lastDue os wtrs w i pkt)) := by
  obtain ⟨q, hq, hcalled, hwtr, hqpkt, -, hbefore, hafter⟩ := submit_passed hstep hw
  have hwithin := within_of_passOf hstep hw hq
  have hreceiver : pkt.receiver = (((slotOf i pkt).2 : Nat) : Int) + 1 := by
    have := hpkt.range.1
    unfold slotOf
    omega
  unfold callsIn at hfixed ⊢
  rw [hq] at hfixed ⊢
  rcases step_slot hstep hw hcur hC trivial (slotOf i pkt) with ⟨-, hnone⟩ | ⟨p, hp, hdecides⟩
  · rw [← hqpkt] at hreceiver
    exact absurd ⟨hwtr, hqpkt ▸ hreceiver⟩ (hnone q hq)
  obtain rfl := Option.some.inj (hq.symm.trans hp)
  have hfixed' := hfixed q List.mem_cons_self
  have htime : (os.clock m).toUsec ≤ (q.time os).toUsec := os.mono (hm.trans hdecides.reading)
  have hcarries : Carries pkt q.pkt := by
    rw [hqpkt]
    exact ⟨rfl, rfl, hpkt.stop⟩
  refine ⟨?_, ?_, fun hstamped => ?_⟩
  · have hending := hdecides.ending (k := 0) hpkt hfixed' hcarries (by omega) (by simpa using htime)
    rwa [Nat.zero_add] at hending
  · rw [← hafter, (writes_of_ccwriterDoWrite hcalled.call hcalled.shaped).hands, hbefore]
    rfl
  · obtain rfl : q.wtr = i := hwtr
    have hslot := hcarries.slotOf q.wtr
    have hlast : q.pkt.expire.toUsec ≤ lastDue os wtrs w q.wtr pkt := hcarries.expire ▸ le_max_left _ _
    have hleft := hcalled.leaving hdecides.clean hfixed' hcarries.stop (hcarries.inRange hpkt.range)
      ((hwithin.before.sent _).symm ▸ (hstamped _).trans (os.mono hdecides.reading))
      hlast fun _ => ?_
    · rw [hslot] at hleft
      exact hdecides.leaving hwithin hleft
    · unfold Pass.time
      rw [hbefore]
      exact le_max_right _ _

/-- **The run** of a packet that is accepted. -/
theorem ending_of_accepted {later : List (Action ι κ)} {rt m : Nat} (hw : Shaped w) (hcur : Current wtrs w none)
    (hpkt : Expires os wtrs i pkt (os.clock m).toUsec rt) (hm : m ≤ w.reading)
    (hlater : ∀ a ∈ later, a.ByWriters ∧ ¬a.SubmitsTo i pkt.receiver)
    (hfixed : ∀ p ∈ passes os wtrs w (.submit i pkt :: later), p.Fixed os)
    (hrun : run os wtrs w (.submit i pkt :: later) = some w') (hC : ∀ o ∈ w'.trace, o.RemovesFirst)
    (hP : ∀ o ∈ w'.trace, o.Punctual) :
    Ending w' (slotOf i pkt) pkt (os.clock m).toUsec rt (wtrs i).protocol.timeout
      (transmissions i pkt.receiver (passes os wtrs w (.submit i pkt :: later))).length ∧
    (Stamped os w → Leaving w' (slotOf i pkt) (wtrs i).protocol.gaptime (lastDue os wtrs w i pkt) ∧
      handsOf (slotOf i pkt) w'.trace ≤ handsOf (slotOf i pkt) w.trace +
        (transmissions i pkt.receiver (passes os wtrs w (.submit i pkt :: later))).length) := by
  rw [run_cons] at hrun
  obtain ⟨w₁, hstep, hrun⟩ := Option.bind_eq_some_iff.mp hrun
  have hfollows := follows_of_step hstep hw
  have hgrows := (run_grows (hfollows.shaped hw) hrun).2
  have hC₁ : ∀ o ∈ w₁.trace, o.RemovesFirst := fun o ho => hC o (hgrows.subset ho)
  rw [passes_cons hstep] at hfixed ⊢
  obtain ⟨hfirst, hsame, hleaving⟩ := ending_of_submit hw hcur hpkt hm
    (fun p hp => hfixed p (List.mem_append_left _ hp)) hstep hC₁
  obtain ⟨hrest, hleaves⟩ := hfirst.run hpkt (le_max_left _ _) (hfollows.shaped hw)
    (hfollows.current trivial hcur hC₁) hlater (fun p hp => hfixed p (List.mem_append_right _ hp)) hrun hC hP
  have hlen : (transmissions i pkt.receiver ((passOf os wtrs w (.submit i pkt)).toList ++
      passes os wtrs w₁ later)).length =
        (transmissions i pkt.receiver (callsIn os wtrs w (.submit i pkt))).length +
          (transmissions i pkt.receiver (passes os wtrs w₁ later)).length := by
    unfold transmissions callsIn
    rw [List.filter_append, List.length_append]
  rw [hlen]
  refine ⟨hrest, fun hstamped => ?_⟩
  obtain ⟨hleaving', hmore⟩ := hleaves (hleaving hstamped)
  exact ⟨hleaving', by omega⟩

/-- **How the packet ends**: every wake-up that is handled for its slot counts, and once it has
expired and no slot is due any more, its slot is not queued. -/
structure Ends (os : Os) (wtrs : ι → Ccwriter κ) (w w' : World ι κ) (i : ι) (pkt : Ccpacket) (rt : Nat) : Prop where
  handled : handsOf (slotOf i pkt) w'.trace + (if slotOf i pkt ∈ w'.queue then 1 else 0) ≤
    handsOf (slotOf i pkt) w.trace + (rt / (wtrs i).protocol.timeout + 1)
  gone : ∀ now : Timeval, pkt.expire.toUsec ≤ now.toUsec →
    (os.clock w.reading).toUsec + (wtrs i).protocol.gaptime * 1000 ≤ now.toUsec →
    (∀ s ∈ w'.queue, now.toUsec < (w'.slots s).tv.toUsec) → slotOf i pkt ∉ w'.queue

/-- **A held command ends.** In every run in which the clock does not advance within a call, what is
queued again and is no stop is due before it expires. If no removal takes another slot with the same
due time and no slot is handed over before it is due, a packet with `rt` milliseconds to live is
transmitted at most `rt / timeout + 1` times, and its slot is not queued after the last time; and
its slot leaves the queue, after as many wake-ups at most, and when all that is due has been handled
after the packet has expired (the slots are made before the run, as `deferred_pkt_init` makes them).
-/
theorem held_commands_end (os : Os) (wtrs : ι → Ccwriter κ) (slots : Slot ι → Timeval × Timeval)
    (channels : κ → Channel) :
    (∀ actions, (∀ p ∈ passes os wtrs (start slots channels) actions, p.Fixed os) →
      ∀ p ∈ passes os wtrs (start slots channels) actions, ccpacketIsStop p.pkt = false → p.Requeues →
        (p.after.slots (slotOf p.wtr p.pkt)).tv.toUsec < p.pkt.expire.toUsec) ∧
    ∀ earlier, (∀ a ∈ earlier, a.ByWriters) → ∃ w, run os wtrs (start slots channels) earlier = some w ∧
      ∀ i pkt rt later, Accepted os w i pkt rt later →
        (∀ p ∈ passes os wtrs w (.submit i pkt :: later), p.Fixed os) →
        ∃ w', run os wtrs w (.submit i pkt :: later) = some w' ∧
          ((∀ o ∈ w'.trace, o.RemovesFirst) → (∀ o ∈ w'.trace, o.Punctual) →
            (transmissions i pkt.receiver (passes os wtrs w (.submit i pkt :: later))).length +
              (if slotOf i pkt ∈ w'.queue then 1 else 0) ≤ rt / (wtrs i).protocol.timeout + 1 ∧
            (InRange wtrs i pkt → (∀ s, (slots s).1.toUsec ≤ (os.clock 0).toUsec) →
              Ends os wtrs w w' i pkt rt)) := by
  have hshaped : Shaped (start slots channels : World ι κ) := shaped_start slots channels
  refine ⟨fun actions hfixed p hp hstop hre => ?_, fun earlier hwriters => ?_⟩
  · exact requeued_before_expire (called_of_mem hshaped hp) (hfixed p hp) hstop hre
  obtain ⟨w, hrun, hw, hcurrent⟩ := run_induction_of Obs.RemovesFirst earlier
    (fun a ha w w' _ hcur hfollows hC => hfollows.current (hwriters a ha) hcur hC) hshaped
    (current_start wtrs slots channels)
  refine ⟨w, hrun, fun i pkt rt later haccepted hfixed => ?_⟩
  obtain ⟨w', hrun', -, -⟩ := run_induction (.submit i pkt :: later) (motive := fun _ => True)
    (fun _ _ _ _ _ _ _ => trivial) hw trivial
  refine ⟨w', hrun', fun hC hP => ?_⟩
  by_cases hrange : InRange wtrs i pkt
  · obtain ⟨m, hm, hexpire⟩ := haccepted.expire
    have hlife : pkt.expire.toUsec ≤ (os.clock m).toUsec + rt * 1000 := by
      rw [hexpire, (timevalAdjust_spec (os.normal m)).1]
      have := Nat.mod_le (rt * 1000) (2 ^ 32)
      omega
    have hgrows := (run_grows hw hrun').2
    obtain ⟨hending, hleaves⟩ := ending_of_accepted hw (hcurrent fun o ho => hC o (hgrows.subset ho))
      ⟨hrange, haccepted.stop, hlife⟩ hm haccepted.later hfixed hrun' hC hP
    have hfew := hending.few (timeout_pos (wtrs i).protocol)
    refine ⟨hfew, fun _ hslots => ?_⟩
    obtain ⟨hleaving, hhands⟩ := hleaves (Stamped.run hshaped hslots hrun)
    refine ⟨by omega, fun now hexpired hgap hdue hin => ?_⟩
    exact absurd (hdue _ hin) (Int.not_lt.mpr ((hleaving.last hin).trans (max_le hexpired hgap)))
  · rw [transmissions_of_not_inRange hw hrange]
    refine ⟨?_, fun hyes => absurd hyes hrange⟩
    split
    · exact Nat.le_add_left _ _
    · exact Nat.zero_le _

/-! ## A packet that is lost and one that is not -/

instance : DecidablePred (Obs.Punctual : Obs Bool → Prop)
  | .submit .. => inferInstanceAs (Decidable True)
  | .write .. => inferInstanceAs (Decidable True)
  | .remove .. => inferInstanceAs (Decidable True)
  | .packet .. => inferInstanceAs (Decidable True)
  | .rearm .. => inferInstanceAs (Decidable True)
  | .hand _ tv now => inferInstanceAs (Decidable (tv.toUsec ≤ now.toUsec))

/-- Readings that are the same until the reading `l`, `m` and `n`. -/
def stairs (l m n k : Nat) : Timeval :=
  if k < l then ⟨1, 0⟩ else if k < m then ⟨1, 20000⟩ else if k < n then ⟨1, 100000⟩ else ⟨17, 0⟩

theorem stairs_normal (l m n k : Nat) : (stairs l m n k).Normal := by
  unfold stairs Timeval.Normal
  split_ifs <;> decide

theorem stairs_mono (l m n : Nat) {j k : Nat} (h : j ≤ k) :
    (stairs l m n j).toUsec ≤ (stairs l m n k).toUsec := by
  unfold stairs Timeval.toUsec
  split_ifs <;> simp only <;> omega

/-- A clock that goes on in three steps. -/
def climbing (l m n : Nat) : Os := ⟨stairs l m n, stairs_normal l m n, stairs_mono l m n, 65536⟩

/-- A packet that pans a receiver until the time. -/
def panUntil (r : Int) (expire : Timeval) : Ccpacket :=
  { ccpacketSetReceiver panPacket r with expire := expire }

/-- A packet with 20 seconds to live is sent again after 16 seconds, and then its slot is not queued
any more. -/
theorem held_commands_end_twice : ∃ w, run (climbing 6 6 6) pelcoWriters
      (start (fun _ => (⟨0, 0⟩, ⟨0, 0⟩)) fun _ => channelInit "/dev/ttyS0".toList 0)
      [.submit false (panUntil 1 ⟨21, 0⟩), .alarm, .next] = some w ∧
    (transmissions false 1 (passes (climbing 6 6 6) pelcoWriters
      (start (fun _ => (⟨0, 0⟩, ⟨0, 0⟩)) fun _ => channelInit "/dev/ttyS0".toList 0)
      [.submit false (panUntil 1 ⟨21, 0⟩), .alarm, .next])).length +
        (if (false, 0) ∈ w.queue then 1 else 0) ≤ 20000 / 15000 + 1 ∧
    Ends (climbing 6 6 6) pelcoWriters
      (start (fun _ => (⟨0, 0⟩, ⟨0, 0⟩)) fun _ => channelInit "/dev/ttyS0".toList 0) w false (panUntil 1 ⟨21, 0⟩)
      20000 := by
  obtain ⟨w, hrun, hw⟩ := (held_commands_end (climbing 6 6 6) pelcoWriters (fun _ => (⟨0, 0⟩, ⟨0, 0⟩))
    fun _ => channelInit "/dev/ttyS0".toList 0).2 [] (List.forall_mem_nil _)
  obtain rfl := Option.some.inj hrun
  obtain ⟨w', hrun', hend⟩ := hw false (panUntil 1 ⟨21, 0⟩) 20000 [.alarm, .next]
    ⟨by decide, ⟨0, le_rfl, by decide⟩, by simp [Action.ByWriters, Action.SubmitsTo]⟩ (by decide)
  have hclean : ∀ w' ∈ run (climbing 6 6 6) pelcoWriters
      (start (fun _ => (⟨0, 0⟩, ⟨0, 0⟩)) fun _ => channelInit "/dev/ttyS0".toList 0)
      [.submit false (panUntil 1 ⟨21, 0⟩), .alarm, .next],
      (∀ o ∈ w'.trace, o.RemovesFirst) ∧ ∀ o ∈ w'.trace, o.Punctual := by decide
  obtain ⟨hfew, hends⟩ := hend (hclean w' hrun').1 (hclean w' hrun').2
  exact ⟨w', hrun', hfew, hends ⟨by decide, by decide⟩ fun _ => by decide⟩

/-- Two packets for receiver 1 are superseded, and each time the entry of receiver 2 is taken out of
the queue instead. The third one has 80 milliseconds to live, and is sent again 15 seconds after
that. -/
theorem not_held_commands_end : ¬ ∀ (os : Os) (wtrs : Bool → Ccwriter Unit) (slots : Slot Bool → Timeval × Timeval)
    (channels : Unit → Channel) (earlier : List (Action Bool Unit)), (∀ a ∈ earlier, a.ByWriters) →
      ∀ w ∈ run os wtrs (start slots channels) earlier, ∀ i pkt rt later, Accepted os w i pkt rt later →
        (∀ p ∈ passes os wtrs w (.submit i pkt :: later), p.Fixed os) →
        ∀ w' ∈ run os wtrs w (.submit i pkt :: later), (∀ o ∈ w'.trace, o.Punctual) →
          (transmissions i pkt.receiver (passes os wtrs w (.submit i pkt :: later))).length ≤
            rt / (wtrs i).protocol.timeout + 1 := by
  intro h
  have hlost : ∃ w ∈ run (climbing 8 20 28) pelcoWriters
      (start (fun _ => (⟨1, 0⟩, ⟨1, 0⟩)) fun _ => channelInit "/dev/ttyS0".toList 0)
      [.submit false (panUntil 1 ⟨1, 80000⟩), .submit false (panUntil 2 ⟨1, 80000⟩),
        .submit false (panUntil 1 ⟨1, 100000⟩), .submit false (panUntil 2 ⟨1, 100000⟩)],
      8 ≤ w.reading ∧
      (∀ p ∈ passes (climbing 8 20 28) pelcoWriters w
        [.submit false (panUntil 1 ⟨1, 100000⟩), .alarm, .next, .alarm, .next], p.Fixed (climbing 8 20 28)) ∧
      ∃ w' ∈ run (climbing 8 20 28) pelcoWriters w
        [.submit false (panUntil 1 ⟨1, 100000⟩), .alarm, .next, .alarm, .next],
        (∀ o ∈ w'.trace, o.Punctual) ∧
        1 < (transmissions false 1 (passes (climbing 8 20 28) pelcoWriters w
          [.submit false (panUntil 1 ⟨1, 100000⟩), .alarm, .next, .alarm, .next])).length := by decide +kernel
  obtain ⟨w, hw, hreading, hfixed, w', hw', hpunctual, hlong⟩ := hlost
  have haccepted : Accepted (climbing 8 20 28) w false (panUntil 1 ⟨1, 100000⟩) 80
      [.alarm, .next, .alarm, .next] :=
    ⟨by decide, ⟨8, hreading, by decide⟩, by simp [Action.ByWriters, Action.SubmitsTo]⟩
  have hfew := h (climbing 8 20 28) pelcoWriters (fun _ => (⟨1, 0⟩, ⟨1, 0⟩))
    (fun _ => channelInit "/dev/ttyS0".toList 0) _ (by simp [Action.ByWriters]) w hw false _ 80 _ haccepted
    hfixed w' hw' hpunctual
  exact absurd hfew (Nat.not_le.mpr hlong)

end Protozoa.Engine
