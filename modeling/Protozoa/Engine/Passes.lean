import Protozoa.Engine.Once

/-!
# The calls of `ccwriter_do_write`

`ccwriter_do_write` (`ccwriter.c:211-217`) is called by readers and by `defer_packet_now`
(`defer.c:91-96`). A `Pass` is one such call with the states before and after it, and `passes` are
those of a run, in order.

* `ccwriterDoWrite_passed` says what a call does (`Passed`): nothing, one `defer_packet` because it
  is too soon (`ccwriter.c:194-197`), or a transmission, of which `ccwriter_check_deferred` has four
  cases (`Checked`, `ccwriter.c:165-183`).
* `step_passed`: only a call changes when a slot was sent last and what it has counted
  (`SameSends`).
* `AtEvery`: something holds of every call of a run, given the calls before it; `atEvery_passes` is
  the induction over a run.
-/

namespace Protozoa.Engine

open Clump Lib.SortedBag

variable {ι κ : Type}

/-- A call of `ccwriter_do_write`: with what packet, whether by `defer_packet_now`, what it has
returned, and the packet as it has left it. -/
structure Pass (ι κ : Type) where
  wtr : ι
  pkt : Ccpacket
  deferred : Bool
  before : World ι κ
  count : Nat
  left : Ccpacket
  after : World ι κ

/-- The writer has transmitted the packet. -/
def Pass.Sent (p : Pass ι κ) (i : ι) (r : Int) : Prop :=
  p.wtr = i ∧ p.pkt.receiver = r ∧ 0 < p.count

instance [DecidableEq ι] (p : Pass ι κ) (i : ι) (r : Int) : Decidable (p.Sent i r) :=
  inferInstanceAs (Decidable (_ ∧ _ ∧ _))

/-- When the call is made. -/
def Pass.time (os : Os) (p : Pass ι κ) : Timeval := os.clock p.before.reading

/-- The clock does not advance within the call. -/
def Pass.Fixed (os : Os) (p : Pass ι κ) : Prop :=
  ∀ m < p.after.reading, p.before.reading ≤ m → os.clock m = p.time os

instance (os : Os) (p : Pass ι κ) : Decidable (p.Fixed os) :=
  inferInstanceAs (Decidable (∀ m < p.after.reading, p.before.reading ≤ m → os.clock m = p.time os))

variable [DecidableEq ι] [DecidableEq κ]

section

variable (os : Os) (wtrs : ι → Ccwriter κ)

/-- One call. -/
def pass (w : World ι κ) (i : ι) (pkt : Ccpacket) (deferred : Bool) : Option (Pass ι κ) := do
  let (c, pkt', w') ← ccwriterDoWrite os wtrs w i pkt
  return ⟨i, pkt, deferred, w, c, pkt', w'⟩

/-- The call that an action makes, if it makes one. -/
def passOf (w : World ι κ) : Action ι κ → Option (Pass ι κ)
  | .submit i pkt => pass os wtrs (w.observe (.submit i pkt)) i pkt false
  | .next =>
    if w.timer.pipe = 0 then none
    else do
      let dpkt ← (← clRbtreePeek w.tree)
      let w ← deferRemove (woken w) dpkt
      let w := handed os wtrs w dpkt
      pass os wtrs w dpkt.1 (w.slots dpkt).packet true
  | _ => none

/-- The calls of a run. -/
def passes : World ι κ → List (Action ι κ) → List (Pass ι κ)
  | _, [] => []
  | w, a :: actions =>
    match step os wtrs w a with
    | some w' => (passOf os wtrs w a).toList ++ passes w' actions
    | none => []

end

variable {os : Os} {wtrs : ι → Ccwriter κ} {w w' : World ι κ} {i : ι} {dpkt : Slot ι}
  {pkt pkt' : Ccpacket}

/-! ## `defer_packet` -/

omit [DecidableEq κ] in
/-- What is left of the slots. -/
theorem deferPacket_slots {again : Option Ccpacket} {ms : Nat} {r : Int}
    (h : deferPacket os w dpkt again ms = some (r, w')) :
    w'.slots = Function.update w.slots dpkt
        (again.elim (w.slots dpkt) fun p =>
          { w.slots dpkt with tv := timevalAdjust (os.clock w.reading) ms, packet := p }) ∧
      w.reading ≤ w'.reading ∧ (again.isSome = true → w.reading < w'.reading) := by
  simp only [deferPacket, Option.bind_eq_bind, Option.bind_eq_some_iff] at h
  obtain ⟨w₁, hremove, h⟩ := h
  obtain ⟨-, hslots₁, hreading₁, -⟩ := deferRemove_share hremove
  cases again with
  | none =>
    obtain ⟨-, hslots, hreading, -⟩ := deferRearm_share h
    refine ⟨?_, hreading₁ ▸ hreading, fun hsome => absurd hsome Bool.false_ne_true⟩
    rw [hslots]
    exact hslots₁.trans (Function.update_eq_self dpkt w.slots).symm
  | some p =>
    obtain ⟨⟨out, tree⟩, -, h⟩ := Option.bind_eq_some_iff.mp h
    obtain ⟨-, hslots, hreading, -⟩ := deferRearm_share h
    have hlater : w.reading < w'.reading := hreading₁ ▸ Nat.lt_of_succ_le hreading
    refine ⟨?_, hlater.le, fun _ => hlater⟩
    rw [hslots]
    show Function.update w₁.slots dpkt _ = _
    rw [hslots₁, hreading₁]
    rfl

omit [DecidableEq κ] in
/-- A slot that is deferred is in the queue, wherever the removal has failed. -/
theorem deferPacket_mem {p : Ccpacket} {ms : Nat} {r : Int}
    (h : deferPacket os w dpkt (some p) ms = some (r, w')) (hw : Shaped w) : dpkt ∈ w'.queue := by
  simp only [deferPacket, Option.bind_eq_bind, Option.bind_eq_some_iff] at h
  obtain ⟨w₁, hremove, ⟨out, tree⟩, hadd, h⟩ := h
  obtain ⟨w₂, hremove₂, hremoves⟩ := deferRemove_removes hw dpkt
  obtain rfl := Option.some.inj (hremove.symm.trans hremove₂)
  obtain ⟨t₁, ht₁⟩ := hremoves.shaped
  obtain ⟨tree', t, hadd', ht, -, l, r', -, hord, -⟩ := @clRbtreeAdd_any _
    (comparePkts (w₁.tick.setSlot dpkt { w₁.slots dpkt with
      tv := timevalAdjust (os.clock w₁.reading) ms, packet := p }).slots) _ _ _ dpkt ht₁
  obtain ⟨-, rfl⟩ := Prod.mk.inj (Option.some.inj (hadd.symm.trans hadd'))
  rw [(rearms_of_deferRearm h ⟨t, ht⟩).queue]
  change dpkt ∈ clRbtreeForEach tree
  rw [clRbtreeForEach_spec ht, hord]
  exact List.mem_append_right l List.mem_cons_self

omit [DecidableEq κ] in
theorem deferPacket_calls {n ms : Nat} {again : Option Ccpacket} {r : Int}
    (h : deferPacket os w (i, n) again ms = some (r, w')) (hw : Shaped w) :
    callsOf i w'.trace = .deferPacket n again.isSome :: callsOf i w.trace := by
  obtain ⟨r', w₁, hdefer, hdefers⟩ := deferPacket_defers os hw (i, n) again ms
  obtain ⟨-, rfl⟩ := Prod.mk.inj (Option.some.inj (h.symm.trans hdefer))
  exact hdefers.callsOf

omit [DecidableEq κ] in
/-- A slot that is given up is not, if the removal has not failed. -/
theorem deferPacket_not_mem {ms : Nat} {r : Int} (h : deferPacket os w dpkt none ms = some (r, w'))
    (hshaped : Shaped w) (hw : Orderly w) (hC : ∀ o ∈ w'.trace, o.RemovesFirst) : dpkt ∉ w'.queue := by
  obtain ⟨r', w₁, hdefer, hdefers⟩ := deferPacket_defers os hshaped dpkt none ms
  obtain ⟨-, rfl⟩ := Prod.mk.inj (Option.some.inj (h.symm.trans hdefer))
  intro hin
  have hsome := (hdefers.mem_queue hw hC dpkt).mp hin
  rw [if_pos rfl] at hsome
  cases hsome

/-! ## `ccwriter_check_deferred` -/

/-- What becomes of the slot after a transmission. -/
inductive Checked (os : Os) (protocol : Protocol) (w w' : World ι κ) (pkt : Ccpacket) (dpkt : Slot ι) : Prop
  /-- a stop is sent again -/
  | again (hstop : ccpacketIsStop pkt = true) (hcnt : (w.slots dpkt).nCnt < 1)
      (hlater : w.reading + 1 < w'.reading) (hqueue : dpkt ∈ w'.queue)
      (hslot : w'.slots dpkt = { w.slots dpkt with
        tv := timevalAdjust (os.clock (w.reading + 1)) protocol.gaptime
        sent := os.clock w.reading
        packet := pkt
        nCnt := (w.slots dpkt).nCnt + 1 })
  /-- it has been sent again -/
  | enough (hstop : ccpacketIsStop pkt = true) (hcnt : ¬(w.slots dpkt).nCnt < 1)
      (hqueue : Orderly w → (∀ o ∈ w'.trace, o.RemovesFirst) → dpkt ∉ w'.queue)
      (hslot : w'.slots dpkt = { w.slots dpkt with sent := os.clock w.reading, nCnt := 0 })
  /-- another packet is sent again -/
  | held (hstop : ccpacketIsStop pkt = false)
      (hexpired : ccpacketIsExpired (os.clock (w.reading + 1)) pkt protocol.timeout = true)
      (hlater : w.reading + 2 < w'.reading) (hqueue : dpkt ∈ w'.queue)
      (hslot : w'.slots dpkt = { w.slots dpkt with
        tv := timevalAdjust (os.clock (w.reading + 2)) protocol.timeout
        sent := os.clock w.reading
        packet := pkt })
  /-- it has ended -/
  | ended (hstop : ccpacketIsStop pkt = false)
      (hexpired : ccpacketIsExpired (os.clock (w.reading + 1)) pkt protocol.timeout = false)
      (hcalls : callsOf dpkt.1 w'.trace = .deferPacket dpkt.2 false :: callsOf dpkt.1 w.trace)
      (hqueue : Orderly w → (∀ o ∈ w'.trace, o.RemovesFirst) → dpkt ∉ w'.queue)
      (hslot : w'.slots dpkt = { w.slots dpkt with sent := os.clock w.reading })

omit [DecidableEq κ] in
theorem ccwriterCheckDeferred_checked (h : ccwriterCheckDeferred os wtrs w i pkt dpkt = some w')
    (hw : Shaped w) :
    Checked os (wtrs i).protocol w w' pkt dpkt ∧ (∀ s, s ≠ dpkt → w'.slots s = w.slots s) ∧
      w.reading < w'.reading := by
  have hquiet₀ : Quiet w (stamped os w dpkt) [] := (Quiet.tick w).trans
    (Quiet.setSlot w.tick dpkt { w.slots dpkt with sent := os.clock w.reading } rfl rfl)
  have hself₀ := stamped_slots_self os w dpkt
  have hothers₀ : ∀ s, s ≠ dpkt → (stamped os w dpkt).slots s = w.slots s :=
    fun s hs => World.setSlot_slots_of_ne w.tick _ hs
  cases ccwriterCheckDeferred_checks h with
  | @again r w₁ hstop hcnt hdefer hlast =>
    subst hlast
    obtain ⟨hslots, hlater, hread⟩ := deferPacket_slots hdefer
    refine ⟨.again hstop hcnt (hread rfl) ?_ ?_, fun s hs => ?_, hlater⟩
    · change dpkt ∈ w₁.queue
      exact deferPacket_mem hdefer (hquiet₀.shaped hw)
    · rw [World.setSlot_slots_self, hslots, Function.update_self, hself₀]
      rfl
    · rw [World.setSlot_slots_of_ne _ _ hs, hslots, Function.update_of_ne hs, hothers₀ s hs]
  | enough hstop hcnt hdefer =>
    have hquiet₁ := hquiet₀.trans
      (Quiet.setSlot (stamped os w dpkt) dpkt { (stamped os w dpkt).slots dpkt with nCnt := 0 } rfl rfl)
    obtain ⟨hslots, hlater, -⟩ := deferPacket_slots hdefer
    refine ⟨.enough hstop hcnt (fun horderly hC => ?_) ?_, fun s hs => ?_, hlater⟩
    · exact deferPacket_not_mem hdefer (hquiet₁.shaped hw) (hquiet₁.orderly (by simp) horderly) hC
    · rw [hslots, Function.update_self, hself₀]
      exact World.setSlot_slots_self _ _ _
    · rw [hslots, Function.update_of_ne hs, World.setSlot_slots_of_ne _ _ hs, hothers₀ s hs]
  | held hstop hexpired hdefer =>
    have hquiet₁ := hquiet₀.trans (Quiet.tick (stamped os w dpkt))
    obtain ⟨hslots, hlater, hread⟩ := deferPacket_slots hdefer
    refine ⟨.held (Bool.eq_false_iff.mpr hstop) hexpired (hread rfl) ?_ ?_, fun s hs => ?_,
      (Nat.le_succ (stamped os w dpkt).reading).trans hlater⟩
    · exact deferPacket_mem hdefer (hquiet₁.shaped hw)
    · rw [hslots, Function.update_self, show (stamped os w dpkt).tick.slots dpkt = _ from hself₀]
      rfl
    · rw [hslots, Function.update_of_ne hs]
      exact hothers₀ s hs
  | ended hstop hexpired hdefer =>
    have hquiet₁ := hquiet₀.trans (Quiet.tick (stamped os w dpkt))
    obtain ⟨hslots, hlater, -⟩ := deferPacket_slots hdefer
    refine ⟨.ended (Bool.eq_false_iff.mpr hstop) (Bool.eq_false_iff.mpr hexpired) ?_
      (fun horderly hC => ?_) ?_, fun s hs => ?_, (Nat.le_succ (stamped os w dpkt).reading).trans hlater⟩
    · exact deferPacket_calls hdefer (hquiet₁.shaped hw)
    · exact deferPacket_not_mem hdefer (hquiet₁.shaped hw) (hquiet₁.orderly (by simp) horderly) hC
    · rw [hslots, Function.update_self]
      exact hself₀
    · rw [hslots, Function.update_of_ne hs]
      exact hothers₀ s hs

/-! ## `ccwriter_do_write` -/

/-- What a call does, what it returns, and how it leaves the packet. -/
inductive Passed (os : Os) (wtrs : ι → Ccwriter κ) (w w' : World ι κ) (i : ι) (pkt : Ccpacket) :
    Nat → Ccpacket → Prop
  | unknown (hrange : ¬InRange wtrs i pkt) (hsame : w' = w) : Passed os wtrs w w' i pkt 0 pkt
  | tooSoon (hrange : InRange wtrs i pkt)
      (hsoon : timeSince (os.clock w.reading) (w.slots (slotOf i pkt)).sent < (wtrs i).protocol.gaptime)
      (hqueue : slotOf i pkt ∈ w'.queue)
      (hslot : w'.slots (slotOf i pkt) = { w.slots (slotOf i pkt) with
        tv := timevalAdjust (os.clock (w.reading + 1)) (wtrs i).protocol.gaptime
        packet := pkt })
      (hlater : w.reading + 1 < w'.reading) : Passed os wtrs w w' i pkt 0 pkt
  | sent {w₁ : World ι κ} (hrange : InRange wtrs i pkt)
      (hsoon : ¬timeSince (os.clock w.reading) (w.slots (slotOf i pkt)).sent < (wtrs i).protocol.gaptime)
      (hquiet : Quiet w w₁ [.write i pkt]) (hslots : w₁.slots = w.slots)
      (hreading : w₁.reading = w.reading + 1) (hlater : w.reading + 2 ≤ w'.reading)
      (hchecked : Checked os (wtrs i).protocol w₁ w' ((wtrs i).protocol.adjust pkt) (slotOf i pkt)) :
      Passed os wtrs w w' i pkt 1 ((wtrs i).protocol.adjust pkt)

/-- **`ccwriter_do_write`** in terms of the slot. -/
theorem ccwriterDoWrite_passed {c : Nat} (h : ccwriterDoWrite os wtrs w i pkt = some (c, pkt', w'))
    (hw : Shaped w) :
    Passed os wtrs w w' i pkt c pkt' ∧ ∀ s, s ≠ slotOf i pkt → w'.slots s = w.slots s := by
  by_cases hrange : InRange wtrs i pkt
  · rw [show ccwriterDoWrite os wtrs w i pkt = ccwriterDoWrite_ os wtrs w i pkt from if_pos hrange] at h
    have hslot : (i, (pkt.receiver - 1).toNat) = slotOf i pkt := rfl
    simp only [ccwriterDoWrite_, hslot] at h
    by_cases hsoon : timeSince (os.clock w.reading) (w.slots (slotOf i pkt)).sent < (wtrs i).protocol.gaptime
    · rw [if_pos (show timeSince _ (w.tick.slots _).sent < _ from hsoon)] at h
      obtain ⟨⟨r, w₁⟩, hdefer, h⟩ := Option.bind_eq_some_iff.mp h
      obtain ⟨rfl, hrest⟩ := Prod.mk.inj (Option.some.inj h)
      obtain ⟨rfl, rfl⟩ := Prod.mk.inj hrest
      obtain ⟨hslots, -, hlater⟩ := deferPacket_slots hdefer
      refine ⟨.tooSoon hrange hsoon (deferPacket_mem hdefer hw) ?_ (hlater rfl), fun s hs => ?_⟩
      · rw [hslots]
        exact Function.update_self _ _ _
      · rw [hslots]
        exact Function.update_of_ne hs _ _
    · rw [if_neg (show ¬timeSince _ (w.tick.slots _).sent < _ from hsoon)] at h
      obtain ⟨txbuf, hwrite⟩ : ∃ txbuf, (wtrs i).protocol.doWrite (wtrs i).auth
          (channelIsOpen (w.channels (wtrs i).chn)) (w.channels (wtrs i).chn).txbuf pkt =
            (txbuf, (wtrs i).protocol.adjust pkt, 1) :=
        ⟨_, Prod.ext rfl (doWrite_spec _ _ _ _ hrange.1 hrange.2)⟩
      simp only [show w.tick.channels = w.channels from rfl, hwrite, gt_iff_lt, Nat.zero_lt_one,
        if_true] at h
      have hquiet := Quiet.send w i pkt (Function.update w.channels (wtrs i).chn
        { w.channels (wtrs i).chn with txbuf := txbuf })
      obtain ⟨w₂, hcheck, h⟩ := Option.bind_eq_some_iff.mp h
      obtain ⟨rfl, hrest⟩ := Prod.mk.inj (Option.some.inj h)
      obtain ⟨rfl, rfl⟩ := Prod.mk.inj hrest
      obtain ⟨hchecked, hothers, hlater⟩ := ccwriterCheckDeferred_checked hcheck (hquiet.shaped hw)
      exact ⟨.sent hrange hsoon hquiet rfl rfl hlater hchecked, hothers⟩
  · obtain ⟨rfl, hrest⟩ := Prod.mk.inj (Option.some.inj ((if_neg hrange).symm.trans h))
    obtain ⟨rfl, rfl⟩ := Prod.mk.inj hrest
    exact ⟨.unknown hrange rfl, fun _ _ => rfl⟩

/-! ## The call of an action -/

/-- The pass is a call of `ccwriter_do_write`. -/
structure Pass.Called (os : Os) (wtrs : ι → Ccwriter κ) (p : Pass ι κ) : Prop where
  shaped : Shaped p.before
  call : ccwriterDoWrite os wtrs p.before p.wtr p.pkt = some (p.count, p.left, p.after)

/-- **A reader's call.** -/
theorem submit_passed {pkt : Ccpacket} (h : step os wtrs w (.submit i pkt) = some w') (hw : Shaped w) :
    ∃ p, passOf os wtrs w (.submit i pkt) = some p ∧ p.Called os wtrs ∧ p.wtr = i ∧ p.pkt = pkt ∧
      p.deferred = false ∧ p.before = w.observe (.submit i pkt) ∧ p.after = w' := by
  obtain ⟨⟨c, pkt', w₁⟩, hcall, rfl⟩ := Option.map_eq_some_iff.mp h
  refine ⟨⟨i, pkt, false, w.observe (.submit i pkt), c, pkt', w₁⟩, ?_, ⟨hw, hcall⟩, rfl, rfl, rfl, rfl, rfl⟩
  simp only [passOf, pass, hcall]
  rfl

/-- The call for the slot that is taken out of the queue. -/
structure Pass.Hands (os : Os) (wtrs : ι → Ccwriter κ) (w : World ι κ) (dpkt : Slot ι) (w₁ : World ι κ)
    (p : Pass ι κ) : Prop extends p.Called os wtrs where
  wtr : p.wtr = dpkt.1
  pkt : p.pkt = (w.slots dpkt).packet
  deferred : p.deferred = true
  removes : Removes w w₁ dpkt
  before : p.before = handed os wtrs w₁ dpkt

/-- `defer_packet_now` after its call: the slot has the packet as the call leaves it. -/
def Pass.stored (p : Pass ι κ) (dpkt : Slot ι) : World ι κ :=
  p.after.setSlot dpkt { p.after.slots dpkt with packet := p.left }

/-- **The timer's call**, if there is one. -/
theorem next_passed (h : step os wtrs w .next = some w') (hw : Shaped w) :
    (passOf os wtrs w .next = none ∧ (w' = w ∨ ∃ r, deferRearm os (woken w) = some (r, w'))) ∨
      ∃ dpkt w₁ p r, w.queue.head? = some dpkt ∧ passOf os wtrs w .next = some p ∧
        p.Hands os wtrs (woken w) dpkt w₁ ∧ deferRearm os (p.stored dpkt) = some (r, w') := by
  obtain ⟨⟨r, w₂⟩, hnext, rfl⟩ := Option.map_eq_some_iff.mp h
  have hpeek := hw.peek
  by_cases hpipe : w.timer.pipe = 0
  · left
    rw [deferNext_asleep os wtrs hpipe] at hnext
    exact ⟨if_pos hpipe, .inl ((Prod.mk.inj (Option.some.inj hnext)).2).symm⟩
  · cases hhead : w.queue.head? with
    | none =>
      left
      rw [hhead] at hpeek
      refine ⟨?_, .inr ⟨r, (deferNext_idle os wtrs hw hpipe hhead).symm.trans hnext⟩⟩
      simp only [passOf, if_neg hpipe, hpeek]
      rfl
    | some dpkt =>
      right
      rw [hhead] at hpeek
      rw [deferNext_first os wtrs hw hpipe hhead] at hnext
      obtain ⟨w₃, hnow, hrearm⟩ := Option.bind_eq_some_iff.mp hnext
      obtain ⟨w₁, hremove, hremoves⟩ := @deferRemove_removes _ _ (woken w) hw dpkt
      obtain ⟨c, pkt', w₄, hcall, -⟩ := @ccwriterDoWrite_writes ι κ _ _ os wtrs
        (handed os wtrs w₁ dpkt) hremoves.shaped dpkt.1 ((handed os wtrs w₁ dpkt).slots dpkt).packet
      have hpacket : ((handed os wtrs w₁ dpkt).slots dpkt).packet = (w.slots dpkt).packet := by
        rw [handed_packet, hremoves.slots]
        rfl
      refine ⟨dpkt, w₁, ⟨dpkt.1, ((handed os wtrs w₁ dpkt).slots dpkt).packet, true,
        handed os wtrs w₁ dpkt, c, pkt', w₄⟩, r, rfl, ?_,
        ⟨⟨hremoves.shaped, hcall⟩, rfl, hpacket, rfl, hremoves, rfl⟩, ?_⟩
      · simp only [passOf, if_neg hpipe, hpeek, hremove, Option.bind_eq_bind, Option.bind_some, pass, hcall]
        rfl
      · have hstored : deferPacketNow os wtrs (woken w) dpkt =
            some (w₄.setSlot dpkt { w₄.slots dpkt with packet := pkt' }) := by
          simp only [deferPacketNow, hremove, Option.bind_eq_bind, Option.bind_some]
          exact (congrArg (Option.bind · _) hcall).trans rfl
        have hnow : some w₃ = _ := hnow.symm.trans hstored
        rw [Option.some.inj hnow] at hrearm
        exact hrearm

/-! ## Runs -/

/-- When the slots were sent last and what they have counted is the same. -/
structure SameSends (w w' : World ι κ) : Prop where
  sent : ∀ s, (w'.slots s).sent = (w.slots s).sent
  nCnt : ∀ s, (w'.slots s).nCnt = (w.slots s).nCnt
  reading : w.reading ≤ w'.reading

omit [DecidableEq ι] [DecidableEq κ] in
theorem SameSends.of_slots (hslots : w'.slots = w.slots) (hreading : w.reading ≤ w'.reading) :
    SameSends w w' :=
  ⟨fun s => by rw [hslots], fun s => by rw [hslots], hreading⟩

omit [DecidableEq κ] in
/-- One slot gets a due time or a packet. -/
theorem SameSends.of_update {d : DeferredPkt} (hslots : w'.slots = Function.update w.slots dpkt d)
    (hsent : d.sent = (w.slots dpkt).sent) (hnCnt : d.nCnt = (w.slots dpkt).nCnt)
    (hreading : w.reading ≤ w'.reading) : SameSends w w' := by
  refine ⟨fun s => ?_, fun s => ?_, hreading⟩
  · rw [hslots]
    by_cases hs : s = dpkt
    · rw [hs, Function.update_self, hsent]
    · rw [Function.update_of_ne hs]
  · rw [hslots]
    by_cases hs : s = dpkt
    · rw [hs, Function.update_self, hnCnt]
    · rw [Function.update_of_ne hs]

omit [DecidableEq ι] [DecidableEq κ] in
theorem SameSends.trans {w'' : World ι κ} (h : SameSends w w') (h' : SameSends w' w'') : SameSends w w'' :=
  ⟨fun s => (h'.sent s).trans (h.sent s), fun s => (h'.nCnt s).trans (h.nCnt s), h.reading.trans h'.reading⟩

omit [DecidableEq κ] in
theorem sameSends_of_deferRearm {r : Int} (h : deferRearm os w = some (r, w')) : SameSends w w' :=
  .of_slots (deferRearm_share h).2.1 (deferRearm_share h).2.2.1

theorem Pass.Hands.sameSends {p : Pass ι κ} {w₁ : World ι κ} (h : p.Hands os wtrs w dpkt w₁) :
    SameSends w p.before := by
  have hfirst : SameSends w w₁ := .of_slots h.removes.slots h.removes.reading.ge
  rw [h.before]
  exact hfirst.trans (.of_update rfl rfl rfl (Nat.le_succ _))

/-- The pass is the call that a step makes. -/
structure Pass.Within (os : Os) (wtrs : ι → Ccwriter κ) (w w' : World ι κ) (p : Pass ι κ) : Prop
    extends p.Called os wtrs where
  before : SameSends w p.before
  after : SameSends p.after w'
  grows : p.after.trace <:+ w'.trace
  orderly : Orderly w → (∀ o ∈ w'.trace, o.RemovesFirst) → Orderly p.before

theorem Pass.Hands.grows {p : Pass ι κ} {w₁ : World ι κ} {r : Int} (h : p.Hands os wtrs w dpkt w₁)
    (hrearm : deferRearm os (p.stored dpkt) = some (r, w')) : p.after.trace <:+ w'.trace := by
  have hshaped : Shaped (p.stored dpkt) := (writes_of_ccwriterDoWrite h.call h.shaped).shaped h.shaped
  have hgrows := (rearms_of_deferRearm hrearm hshaped).grows
  exact hgrows

/-- The slot that is handed over has been the first of its time. -/
theorem Pass.Hands.orderly {p : Pass ι κ} {w₁ : World ι κ} (h : p.Hands os wtrs w dpkt w₁) (hw : Orderly w)
    (hC : ∀ o ∈ p.after.trace, o.RemovesFirst) : w₁.queue = w.queue.erase dpkt ∧ Orderly p.before := by
  have hfirst : FirstDue dpkt (w.slots dpkt).tv w.entries := by
    refine hC (.remove dpkt (w.slots dpkt).tv w.entries) ?_
    refine (writes_of_ccwriterDoWrite h.call h.shaped).grows.subset ?_
    rw [h.before]
    refine List.mem_cons_of_mem _ ?_
    rw [show (World.tick w₁).trace = _ from h.removes.trace]
    exact List.mem_cons_self
  rw [h.before]
  exact h.removes.orderly hw hfirst os wtrs

/-- **A step** changes what has been sent by its call only. -/
theorem step_passed {a : Action ι κ} (h : step os wtrs w a = some w') (hw : Shaped w) :
    (passOf os wtrs w a = none ∧ SameSends w w') ∨
      ∃ p, passOf os wtrs w a = some p ∧ p.Within os wtrs w w' := by
  cases a with
  | submit i pkt =>
    obtain ⟨p, hpass, hcalled, -, -, -, hbefore, rfl⟩ := submit_passed h hw
    have hsame : SameSends w (w.observe (.submit i pkt)) := .of_slots rfl le_rfl
    refine .inr ⟨p, hpass, hcalled, hbefore ▸ hsame, .of_slots rfl le_rfl, List.suffix_rfl, fun horderly _ => ?_⟩
    rw [hbefore]
    exact ⟨horderly.sorted, horderly.nodup, List.forall_mem_cons.mpr ⟨trivial, horderly.defers⟩⟩
  | defer dpkt pkt ms =>
    obtain ⟨⟨r, w₁⟩, hdefer, rfl⟩ := Option.map_eq_some_iff.mp h
    obtain ⟨hslots, hreading, -⟩ := deferPacket_slots hdefer
    refine .inl ⟨rfl, .of_update hslots ?_ ?_ hreading⟩
    · cases pkt <;> rfl
    · cases pkt <;> rfl
  | next =>
    have hwoken : SameSends w (woken w) := .of_slots rfl le_rfl
    rcases next_passed h hw with ⟨hnone, rfl | ⟨r, hrearm⟩⟩ | ⟨dpkt, w₁, p, r, -, hpass, hhands, hrearm⟩
    · exact .inl ⟨hnone, .of_slots rfl le_rfl⟩
    · exact .inl ⟨hnone, hwoken.trans (sameSends_of_deferRearm hrearm)⟩
    · have hstored : SameSends p.after (p.stored dpkt) := .of_update rfl rfl rfl le_rfl
      have hgrows := hhands.grows hrearm
      refine .inr ⟨p, hpass, hhands.toCalled, hwoken.trans hhands.sameSends,
        hstored.trans (sameSends_of_deferRearm hrearm), hgrows, fun horderly hC => ?_⟩
      exact (hhands.orderly ⟨horderly.sorted, horderly.nodup, horderly.defers⟩ fun o ho =>
        hC o (hgrows.subset ho)).2
  | alarm =>
    refine .inl ⟨rfl, ?_⟩
    simp only [step] at h
    split at h
    · obtain rfl := Option.some.inj h
      exact .of_slots rfl le_rfl
    · obtain rfl := Option.some.inj h
      exact .of_slots rfl le_rfl
  | channel k chn =>
    obtain rfl := Option.some.inj h
    exact .inl ⟨rfl, .of_slots rfl le_rfl⟩

theorem within_of_passOf {a : Action ι κ} {p : Pass ι κ} (h : step os wtrs w a = some w') (hw : Shaped w)
    (hpass : passOf os wtrs w a = some p) : p.Within os wtrs w w' := by
  rcases step_passed h hw with ⟨hnone, -⟩ | ⟨q, hq, hwithin⟩
  · cases hnone.symm.trans hpass
  · obtain rfl := Option.some.inj (hq.symm.trans hpass)
    exact hwithin

theorem passes_cons {a : Action ι κ} {actions : List (Action ι κ)} (h : step os wtrs w a = some w') :
    passes os wtrs w (a :: actions) = (passOf os wtrs w a).toList ++ passes os wtrs w' actions := by
  rw [passes, h]

theorem Pass.Called.passed {p : Pass ι κ} (h : p.Called os wtrs) :
    Passed os wtrs p.before p.after p.wtr p.pkt p.count p.left ∧
      ∀ s, s ≠ slotOf p.wtr p.pkt → p.after.slots s = p.before.slots s :=
  ccwriterDoWrite_passed h.call h.shaped

theorem Pass.Called.reading {p : Pass ι κ} (h : p.Called os wtrs) : p.before.reading ≤ p.after.reading :=
  (writes_of_ccwriterDoWrite h.call h.shaped).reading

theorem Pass.Within.later {p : Pass ι κ} (h : p.Within os wtrs w w') : w.reading ≤ w'.reading :=
  h.before.reading.trans (h.toCalled.reading.trans h.after.reading)

/-- What is transmitted to a receiver is in range and not too soon. -/
theorem Pass.Called.sent {p : Pass ι κ} {r : Int} (h : p.Called os wtrs) (hsent : p.Sent i r) :
    (0 < r ∧ r ≤ (wtrs i).protocol.nRcv) ∧
      ¬timeSince (p.time os) (p.before.slots (i, (r - 1).toNat)).sent < (wtrs i).protocol.gaptime ∧
      (p.after.slots (i, (r - 1).toNat)).sent = os.clock (p.before.reading + 1) ∧
      p.before.reading + 2 ≤ p.after.reading := by
  obtain ⟨rfl, rfl, hcount⟩ := hsent
  obtain ⟨hpassed, -⟩ := h.passed
  generalize p.count = c, p.left = pkt' at hpassed hcount
  cases hpassed with
  | unknown => exact absurd hcount (Nat.lt_irrefl 0)
  | tooSoon => exact absurd hcount (Nat.lt_irrefl 0)
  | sent hrange hsoon hquiet hslots hreading hlater hchecked =>
    refine ⟨hrange, hsoon, ?_, hlater⟩
    rw [← hreading]
    cases hchecked with
    | again _ _ _ _ hslot => exact congrArg DeferredPkt.sent hslot
    | enough _ _ _ hslot => exact congrArg DeferredPkt.sent hslot
    | held _ _ _ _ hslot => exact congrArg DeferredPkt.sent hslot
    | ended _ _ _ _ hslot => exact congrArg DeferredPkt.sent hslot

/-- A call that transmits nothing to a receiver does not say so. -/
theorem Pass.Called.not_sent {p : Pass ι κ} {r : Int} (h : p.Called os wtrs) (hr : 0 < r)
    (hsent : ¬p.Sent i r) :
    (p.after.slots (i, (r - 1).toNat)).sent = (p.before.slots (i, (r - 1).toNat)).sent ∧
      (p.after.slots (i, (r - 1).toNat)).nCnt = (p.before.slots (i, (r - 1).toNat)).nCnt := by
  obtain ⟨hpassed, hothers⟩ := h.passed
  by_cases hslot : (i, (r - 1).toNat) = slotOf p.wtr p.pkt
  · obtain ⟨hi, hn⟩ := Prod.mk.inj hslot
    rw [hslot]
    have hsent : ¬(0 < p.pkt.receiver ∧ 0 < p.count) := by
      rintro ⟨hp, hcount⟩
      refine hsent ⟨hi.symm, ?_, hcount⟩
      omega
    generalize p.count = c, p.left = pkt' at hpassed hsent
    cases hpassed with
    | unknown _ hsame =>
      rw [hsame]
      exact ⟨rfl, rfl⟩
    | tooSoon _ _ _ hslot =>
      rw [hslot]
      exact ⟨rfl, rfl⟩
    | sent hrange => exact absurd ⟨hrange.1, Nat.one_pos⟩ hsent
  · rw [hothers _ hslot]
    exact ⟨rfl, rfl⟩

/-! ## Every call of a run -/

theorem called_of_mem {p : Pass ι κ} : ∀ {actions : List (Action ι κ)} {w : World ι κ}, Shaped w →
    p ∈ passes os wtrs w actions → p.Called os wtrs
  | [], w, _, hp => absurd hp List.not_mem_nil
  | a :: actions, w, hw, hp => by
    obtain ⟨w', hstep, hfollows⟩ := step_follows os wtrs hw a
    rw [passes_cons hstep] at hp
    rcases List.mem_append.mp hp with hp | hp
    · rcases step_passed hstep hw with ⟨hnone, -⟩ | ⟨q, hpass, hwithin⟩
      · rw [hnone] at hp
        exact absurd hp List.not_mem_nil
      · rw [hpass] at hp
        rw [List.mem_singleton.mp hp]
        exact hwithin.toCalled
    · exact called_of_mem (hfollows.shaped hw) hp

/-- The queue is in order when the call is made, and no removal has failed after it. -/
def Pass.Clean (p : Pass ι κ) : Prop := Orderly p.before ∧ ∀ o ∈ p.after.trace, o.RemovesFirst

theorem clean_of_mem {p : Pass ι κ} : ∀ {actions : List (Action ι κ)} {w : World ι κ}, Shaped w → Orderly w →
    run os wtrs w actions = some w' → (∀ o ∈ w'.trace, o.RemovesFirst) →
      p ∈ passes os wtrs w actions → p.Clean
  | [], w, _, _, _, _, hp => absurd hp List.not_mem_nil
  | a :: actions, w, hw, horderly, hrun, hC, hp => by
    rw [run_cons] at hrun
    obtain ⟨w₁, hstep, hrun⟩ := Option.bind_eq_some_iff.mp hrun
    have hfollows := follows_of_step hstep hw
    have hgrows := (run_grows (hfollows.shaped hw) hrun).2
    have hC₁ : ∀ o ∈ w₁.trace, o.RemovesFirst := fun o ho => hC o (hgrows.subset ho)
    rw [passes_cons hstep] at hp
    rcases List.mem_append.mp hp with hp | hp
    · rcases step_passed hstep hw with ⟨hnone, -⟩ | ⟨q, hpass, hwithin⟩
      · rw [hnone] at hp
        exact absurd hp List.not_mem_nil
      · rw [hpass] at hp
        rw [List.mem_singleton.mp hp]
        exact ⟨hwithin.orderly horderly hC₁, fun o ho => hC₁ o (hwithin.grows.subset ho)⟩
    · exact clean_of_mem (hfollows.shaped hw) (hfollows.orderly horderly hC₁) hrun hC hp

/-- Every call is as `C` says with the calls before it, the latest first. -/
def AtEvery (C : List (Pass ι κ) → Pass ι κ → Prop) : List (Pass ι κ) → List (Pass ι κ) → Prop
  | _, [] => True
  | earlier, p :: later => C earlier p ∧ AtEvery C (p :: earlier) later

instance decidableAtEvery (C : List (Pass ι κ) → Pass ι κ → Prop) [∀ earlier p, Decidable (C earlier p)] :
    ∀ earlier later, Decidable (AtEvery C earlier later)
  | _, [] => isTrue trivial
  | earlier, p :: later =>
    have := decidableAtEvery C (p :: earlier) later
    inferInstanceAs (Decidable (C earlier p ∧ AtEvery C (p :: earlier) later))

section

variable {C D : List (Pass ι κ) → Pass ι κ → Prop}

omit [DecidableEq ι] [DecidableEq κ] in
theorem AtEvery.mp : ∀ {earlier ps : List (Pass ι κ)}, AtEvery (fun earlier p => C earlier p → D earlier p)
    earlier ps → AtEvery C earlier ps → AtEvery D earlier ps
  | _, [], _, _ => trivial
  | _, _ :: _, h, hC => ⟨h.1 hC.1, h.2.mp hC.2⟩

omit [DecidableEq ι] [DecidableEq κ] in
theorem AtEvery.imp (hCD : ∀ earlier p, C earlier p → D earlier p) : ∀ {earlier ps : List (Pass ι κ)},
    AtEvery C earlier ps → AtEvery D earlier ps
  | _, [], _ => trivial
  | _, _ :: _, h => ⟨hCD _ _ h.1, h.2.imp hCD⟩

omit [DecidableEq ι] [DecidableEq κ] in
theorem atEvery_of_forall : ∀ {earlier ps : List (Pass ι κ)}, (∀ p ∈ ps, ∀ earlier, C earlier p) →
    AtEvery C earlier ps
  | _, [], _ => trivial
  | _, p :: _, h => ⟨h p List.mem_cons_self _, atEvery_of_forall fun q hq => h q (List.mem_cons_of_mem p hq)⟩

/-- **The rule for runs**: what holds between the calls, and is about what has been sent, is kept by
every call. -/
theorem atEvery_passes {I : World ι κ → List (Pass ι κ) → Prop}
    (hstill : ∀ {w w' : World ι κ} {earlier}, SameSends w w' → I w earlier → I w' earlier)
    (hpass : ∀ {p : Pass ι κ} {earlier}, p.Called os wtrs → I p.before earlier →
      C earlier p ∧ I p.after (p :: earlier)) :
    ∀ {actions : List (Action ι κ)} {w : World ι κ} {earlier : List (Pass ι κ)}, Shaped w → I w earlier →
      AtEvery C earlier (passes os wtrs w actions)
  | [], _, _, _, _ => trivial
  | a :: actions, w, earlier, hw, h => by
    obtain ⟨w', hstep, hfollows⟩ := step_follows os wtrs hw a
    have hw' := hfollows.shaped hw
    rw [passes_cons hstep]
    rcases step_passed hstep hw with ⟨hnone, hsame⟩ | ⟨p, hp, hwithin⟩
    · rw [hnone]
      exact atEvery_passes (I := I) hstill hpass hw' (hstill hsame h)
    · rw [hp]
      obtain ⟨hC, hI⟩ := hpass hwithin.toCalled (hstill hwithin.before h)
      exact ⟨hC, atEvery_passes (I := I) hstill hpass hw' (hstill hwithin.after hI)⟩

end

end Protozoa.Engine
