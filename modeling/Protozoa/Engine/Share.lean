import Protozoa.Engine.Defer

/-!
# A writer on its own

What a writer has for itself is a `Share` of the state: its channel, its slots, and the calls of
`do_write` and `defer_packet` for them. `Share.ccwriterDoWrite` is `ccwriter_do_write`
(`ccwriter.c:188-217`) without the queue and the timer, as a function of the share alone.

* `ccwriterCheckDeferred_checks`: the cases of `ccwriter_check_deferred` (`ccwriter.c:165-183`), as
  what they do to the slot (`Checks`).
* `ccwriterDoWrite_share`: a call of the engine changes the share of its writer by this function,
  and leaves every other share as it is.

So what concerns one writer alone is computed on its share, without the queue.
-/

namespace Protozoa.Engine

variable {ι κ : Type}

/-- What is called for a writer. -/
inductive Call where
  /-- `wtr->do_write` -/
  | doWrite (pkt : Ccpacket)
  /-- `defer_packet` of a slot, with a packet or without -/
  | deferPacket (n : Nat) (queued : Bool)
  deriving DecidableEq

/-- What a writer has for itself; the calls are the latest first. -/
structure Share where
  chn : Channel
  slots : Nat → DeferredPkt
  calls : List Call

namespace Share

/-- A slot is written. -/
def setSlot (sh : Share) (n : Nat) (d : DeferredPkt) : Share :=
  { sh with slots := Function.update sh.slots n d }

@[simp] theorem setSlot_slots_self (sh : Share) (n : Nat) (d : DeferredPkt) :
    (sh.setSlot n d).slots n = d := Function.update_self _ _ _

/-- `defer_packet`, at the time `now`. -/
def deferPacket (sh : Share) (now : Timeval) (n : Nat) (pkt : Option Ccpacket) (ms : Nat) : Share :=
  match pkt with
  | some pkt =>
    { sh.setSlot n { sh.slots n with tv := timevalAdjust now ms, packet := pkt } with
      calls := .deferPacket n true :: sh.calls }
  | none => { sh with calls := .deferPacket n false :: sh.calls }

/-- `ccwriter_check_deferred`, from the reading `m` of the clock. -/
def ccwriterCheckDeferred (sh : Share) (os : Os) (m : Nat) (p : Protocol) (pkt : Ccpacket) (n : Nat) :
    Share :=
  let sh := sh.setSlot n { sh.slots n with sent := os.clock m }
  if ccpacketIsStop pkt then
    if (sh.slots n).nCnt < 1 then
      let sh := sh.deferPacket (os.clock (m + 1)) n (some pkt) p.gaptime
      sh.setSlot n { sh.slots n with nCnt := (sh.slots n).nCnt + 1 }
    else
      let sh := sh.setSlot n { sh.slots n with nCnt := 0 }
      sh.deferPacket (os.clock (m + 1)) n none 0
  else if ccpacketIsExpired (os.clock (m + 1)) pkt p.timeout then
    sh.deferPacket (os.clock (m + 2)) n (some pkt) p.timeout
  else sh.deferPacket (os.clock (m + 2)) n none 0

/-- `ccwriter_do_write_`. -/
def ccwriterDoWrite_ (sh : Share) (os : Os) (m : Nat) (wtr : Ccwriter κ) (pkt : Ccpacket) :
    Ccpacket × Share :=
  let n := (pkt.receiver - 1).toNat
  if timeSince (os.clock m) (sh.slots n).sent < wtr.protocol.gaptime then
    (pkt, sh.deferPacket (os.clock (m + 1)) n (some pkt) wtr.protocol.gaptime)
  else
    let (txbuf, pkt', c) := wtr.protocol.doWrite wtr.auth (channelIsOpen sh.chn) sh.chn.txbuf pkt
    let sh := { sh with chn := { sh.chn with txbuf := txbuf }, calls := .doWrite pkt :: sh.calls }
    if c > 0 then (pkt', sh.ccwriterCheckDeferred os (m + 1) wtr.protocol pkt' n) else (pkt', sh)

/-- `ccwriter_do_write`. -/
def ccwriterDoWrite (sh : Share) (os : Os) (m : Nat) (wtr : Ccwriter κ) (pkt : Ccpacket) :
    Ccpacket × Share :=
  if 0 < pkt.receiver ∧ pkt.receiver ≤ wtr.protocol.nRcv then sh.ccwriterDoWrite_ os m wtr pkt
  else (pkt, sh)

/-- `ccwriter_too_soon`, for the slot of the packet. -/
def TooSoon (sh : Share) (os : Os) (m : Nat) (wtr : Ccwriter κ) (pkt : Ccpacket) : Prop :=
  timeSince (os.clock m) (sh.slots (pkt.receiver - 1).toNat).sent < wtr.protocol.gaptime

instance (sh : Share) (os : Os) (m : Nat) (wtr : Ccwriter κ) (pkt : Ccpacket) :
    Decidable (sh.TooSoon os m wtr pkt) := inferInstanceAs (Decidable (_ < _))

/-- The packet is changed by a writer it is for, unless it is deferred. -/
theorem ccwriterDoWrite_packet (sh : Share) (os : Os) (m : Nat) (wtr : Ccwriter κ) (pkt : Ccpacket) :
    (sh.ccwriterDoWrite os m wtr pkt).1 =
      if (0 < pkt.receiver ∧ pkt.receiver ≤ wtr.protocol.nRcv) ∧ ¬sh.TooSoon os m wtr pkt then
        wtr.protocol.adjust pkt
      else pkt := by
  unfold ccwriterDoWrite
  by_cases hrange : 0 < pkt.receiver ∧ pkt.receiver ≤ wtr.protocol.nRcv
  · rw [if_pos hrange]
    by_cases hsoon : sh.TooSoon os m wtr pkt
    · rw [if_neg fun h => h.2 hsoon]
      exact congrArg Prod.fst (if_pos hsoon)
    · rw [if_pos ⟨hrange, hsoon⟩]
      obtain ⟨txbuf, hwrite⟩ : ∃ txbuf, wtr.protocol.doWrite wtr.auth (channelIsOpen sh.chn)
          sh.chn.txbuf pkt = (txbuf, wtr.protocol.adjust pkt, 1) :=
        ⟨_, Prod.ext rfl (doWrite_spec _ _ _ _ hrange.1 hrange.2)⟩
      simp only [ccwriterDoWrite_, hwrite, gt_iff_lt, Nat.zero_lt_one, if_true]
      exact congrArg Prod.fst (if_neg hsoon)
  · rw [if_neg hrange, if_neg fun h => hrange h.1]

end Share

variable [DecidableEq ι]

/-- What has been called for a writer. -/
def callsOf (i : ι) (trace : List (Obs ι)) : List Call :=
  trace.filterMap fun
    | .write j pkt => if j = i then some (.doWrite pkt) else none
    | .packet (j, n) queued _ _ => if j = i then some (.deferPacket n queued) else none
    | _ => none

/-- The share of a writer. -/
def share (wtrs : ι → Ccwriter κ) (w : World ι κ) (i : ι) : Share where
  chn := w.channels (wtrs i).chn
  slots := fun n => w.slots (i, n)
  calls := callsOf i w.trace

variable {os : Os} {wtrs : ι → Ccwriter κ} {w w' : World ι κ} {i j : ι}

theorem share_setSlot_self (w : World ι κ) (i : ι) (n : Nat) (d : DeferredPkt) :
    share wtrs (w.setSlot (i, n) d) i = (share wtrs w i).setSlot n d := by
  have hslots : (fun m => (w.setSlot (i, n) d).slots (i, m)) =
      Function.update (fun m => w.slots (i, m)) n d := by
    funext m
    by_cases hm : m = n
    · rw [hm, Function.update_self, World.setSlot_slots_self]
    · have hne : (i, m) ≠ (i, n) := fun h => hm (Prod.mk.inj h).2
      rw [Function.update_of_ne hm, World.setSlot_slots_of_ne w d hne]
  unfold share Share.setSlot
  rw [hslots]
  rfl

theorem share_setSlot_other (w : World ι κ) (hij : i ≠ j) (n : Nat) (d : DeferredPkt) :
    share wtrs (w.setSlot (j, n) d) i = share wtrs w i := by
  have hslots : (fun m => (w.setSlot (j, n) d).slots (i, m)) = fun m => w.slots (i, m) := by
    funext m
    exact World.setSlot_slots_of_ne w d fun h => hij (Prod.mk.inj h).1
  unfold share
  rw [hslots]
  rfl

/-- The timer, the queue and the clock are nobody's. -/
theorem share_congr (hchannels : w'.channels = w.channels) (hslots : w'.slots = w.slots)
    (hcalls : callsOf i w'.trace = callsOf i w.trace) : share wtrs w' i = share wtrs w i := by
  unfold share
  rw [hchannels, hslots, hcalls]

theorem deferRemove_share {dpkt : Slot ι} (h : deferRemove w dpkt = some w') :
    w'.channels = w.channels ∧ w'.slots = w.slots ∧ w'.reading = w.reading ∧
      ∀ i, callsOf i w'.trace = callsOf i w.trace := by
  simp only [deferRemove, Option.bind_eq_bind, Option.bind_eq_some_iff] at h
  obtain ⟨⟨out, tree⟩, -, h⟩ := h
  obtain rfl := Option.some.inj h
  exact ⟨rfl, rfl, rfl, fun _ => rfl⟩

theorem deferRearm_share {r : Int} (h : deferRearm os w = some (r, w')) :
    w'.channels = w.channels ∧ w'.slots = w.slots ∧ w.reading ≤ w'.reading ∧
      ∀ i, callsOf i w'.trace = callsOf i w.trace := by
  simp only [deferRearm, Option.bind_eq_bind, Option.bind_eq_some_iff] at h
  obtain ⟨first, -, h⟩ := h
  cases first with
  | none =>
    obtain ⟨rfl, rfl⟩ := Prod.mk.inj (Option.some.inj h)
    exact ⟨rfl, rfl, le_rfl, fun _ => rfl⟩
  | some dpkt =>
    obtain ⟨rfl, rfl⟩ := Prod.mk.inj (Option.some.inj h)
    exact ⟨rfl, rfl, Nat.le_add_right w.reading 2, fun _ => rfl⟩

variable (wtrs) in
/-- **`defer_packet`** changes the share of its writer only. -/
theorem deferPacket_share {n ms : Nat} {pkt : Option Ccpacket} {r : Int}
    (h : deferPacket os w (i, n) pkt ms = some (r, w')) :
    share wtrs w' i = (share wtrs w i).deferPacket (os.clock w.reading) n pkt ms ∧
      (∀ j, j ≠ i → share wtrs w' j = share wtrs w j) ∧ w.reading ≤ w'.reading := by
  simp only [deferPacket, Option.bind_eq_bind, Option.bind_eq_some_iff] at h
  obtain ⟨w₁, hremove, h⟩ := h
  obtain ⟨hchn₁, hslots₁, hreading₁, hcalls₁⟩ := deferRemove_share hremove
  have hshare₁ : ∀ j, share wtrs w₁ j = share wtrs w j := fun j => share_congr hchn₁ hslots₁ (hcalls₁ j)
  have hcall : ∀ (w₂ w₃ : World ι κ) (queued : Bool) (before after : List (Slot ι × Timeval)) (r : Int),
      deferRearm os (w₂.observe (.packet (i, n) queued before after)) = some (r, w₃) →
        share wtrs w₃ i = { share wtrs w₂ i with calls := .deferPacket n queued :: (share wtrs w₂ i).calls } ∧
          (∀ j, j ≠ i → share wtrs w₃ j = share wtrs w₂ j) ∧ w₂.reading ≤ w₃.reading := by
    intro w₂ w₃ queued before after r hrearm
    obtain ⟨hchn, hslots, hreading, hcalls⟩ := deferRearm_share hrearm
    refine ⟨?_, fun j hj => ?_, hreading⟩
    · rw [share_congr hchn hslots (hcalls i)]
      simp [share, callsOf, World.observe]
    · rw [share_congr hchn hslots (hcalls j)]
      have hne : ¬i = j := fun h => hj h.symm
      simp [share, callsOf, World.observe, hne]
  cases pkt with
  | none =>
    obtain ⟨hself, hothers, hreading⟩ := hcall _ _ _ _ _ _ h
    refine ⟨?_, fun j hj => (hothers j hj).trans (hshare₁ j), hreading₁ ▸ hreading⟩
    rw [hself, hshare₁]
    rfl
  | some pkt =>
    obtain ⟨⟨out, tree⟩, -, h⟩ := Option.bind_eq_some_iff.mp h
    obtain ⟨hself, hothers, hreading⟩ := hcall _ _ _ _ _ _ h
    have hset : ∀ j, share wtrs { w₁.tick.setSlot (i, n) { w₁.slots (i, n) with
        tv := timevalAdjust (os.clock w₁.reading) ms, packet := pkt } with tree := tree } j =
          share wtrs (w₁.setSlot (i, n) { w₁.slots (i, n) with
            tv := timevalAdjust (os.clock w₁.reading) ms, packet := pkt }) j := fun _ => rfl
    refine ⟨?_, fun j hj => ?_, ?_⟩
    · rw [hself, hset i, share_setSlot_self, hshare₁, hslots₁, hreading₁]
      rfl
    · rw [hothers j hj]
      exact (hset j).trans ((share_setSlot_other w₁ hj _ _).trans (hshare₁ j))
    · rw [← hreading₁]
      exact (Nat.le_succ _).trans hreading

/-- The slot has the time of the transmission. -/
def stamped (os : Os) (w : World ι κ) (dpkt : Slot ι) : World ι κ :=
  w.tick.setSlot dpkt { w.slots dpkt with sent := os.clock w.reading }

theorem stamped_slots_self (os : Os) (w : World ι κ) (dpkt : Slot ι) :
    (stamped os w dpkt).slots dpkt = { w.slots dpkt with sent := os.clock w.reading } :=
  World.setSlot_slots_self _ _ _

/-- How `ccwriter_check_deferred` calls `defer_packet`. -/
inductive Checks (os : Os) (protocol : Protocol) (w w' : World ι κ) (pkt : Ccpacket) (dpkt : Slot ι) : Prop
  /-- a stop is sent again -/
  | again {r : Int} {w₁ : World ι κ} (hstop : ccpacketIsStop pkt = true) (hcnt : (w.slots dpkt).nCnt < 1)
      (hdefer : deferPacket os (stamped os w dpkt) dpkt (some pkt) protocol.gaptime = some (r, w₁))
      (hlast : w' = w₁.setSlot dpkt { w₁.slots dpkt with nCnt := (w₁.slots dpkt).nCnt + 1 })
  /-- it has been sent again -/
  | enough {r : Int} (hstop : ccpacketIsStop pkt = true) (hcnt : ¬(w.slots dpkt).nCnt < 1)
      (hdefer : deferPacket os ((stamped os w dpkt).setSlot dpkt
        { (stamped os w dpkt).slots dpkt with nCnt := 0 }) dpkt none 0 = some (r, w'))
  /-- another packet is sent again -/
  | held {r : Int} (hstop : ¬ccpacketIsStop pkt = true)
      (hexpired : ccpacketIsExpired (os.clock (w.reading + 1)) pkt protocol.timeout = true)
      (hdefer : deferPacket os (stamped os w dpkt).tick dpkt (some pkt) protocol.timeout = some (r, w'))
  /-- it has ended -/
  | ended {r : Int} (hstop : ¬ccpacketIsStop pkt = true)
      (hexpired : ¬ccpacketIsExpired (os.clock (w.reading + 1)) pkt protocol.timeout = true)
      (hdefer : deferPacket os (stamped os w dpkt).tick dpkt none 0 = some (r, w'))

theorem ccwriterCheckDeferred_checks {pkt : Ccpacket} {dpkt : Slot ι}
    (h : ccwriterCheckDeferred os wtrs w i pkt dpkt = some w') :
    Checks os (wtrs i).protocol w w' pkt dpkt := by
  simp only [ccwriterCheckDeferred, show w.tick.setSlot dpkt { w.slots dpkt with
    sent := os.clock w.reading } = stamped os w dpkt from rfl] at h
  have hnCnt : ((stamped os w dpkt).slots dpkt).nCnt = (w.slots dpkt).nCnt := by
    rw [stamped_slots_self]
  by_cases hstop : ccpacketIsStop pkt = true
  · rw [if_pos hstop] at h
    by_cases hcnt : ((stamped os w dpkt).slots dpkt).nCnt < 1
    · rw [if_pos hcnt] at h
      obtain ⟨⟨r, w₁⟩, hdefer, h⟩ := Option.bind_eq_some_iff.mp h
      exact .again hstop (hnCnt ▸ hcnt) hdefer (Option.some.inj h).symm
    · rw [if_neg hcnt] at h
      obtain ⟨⟨r, w₁⟩, hdefer, h⟩ := Option.bind_eq_some_iff.mp h
      obtain rfl := Option.some.inj h
      exact .enough hstop (hnCnt ▸ hcnt) hdefer
  · rw [if_neg hstop] at h
    by_cases hexpired : ccpacketIsExpired (os.clock (w.reading + 1)) pkt (wtrs i).protocol.timeout = true
    · rw [if_pos (show ccpacketIsExpired (os.clock (stamped os w dpkt).reading) _ _ = true from hexpired)] at h
      obtain ⟨⟨r, w₁⟩, hdefer, h⟩ := Option.bind_eq_some_iff.mp h
      obtain rfl := Option.some.inj h
      exact .held hstop hexpired hdefer
    · rw [if_neg (show ¬ccpacketIsExpired (os.clock (stamped os w dpkt).reading) _ _ = true from hexpired)]
        at h
      obtain ⟨⟨r, w₁⟩, hdefer, h⟩ := Option.bind_eq_some_iff.mp h
      obtain rfl := Option.some.inj h
      exact .ended hstop hexpired hdefer

variable (wtrs) in
/-- **`ccwriter_check_deferred`** changes the share of its writer only. -/
theorem ccwriterCheckDeferred_share {pkt : Ccpacket} {n : Nat}
    (h : ccwriterCheckDeferred os wtrs w i pkt (i, n) = some w') :
    share wtrs w' i =
        (share wtrs w i).ccwriterCheckDeferred os w.reading (wtrs i).protocol pkt n ∧
      (∀ j, j ≠ i → share wtrs w' j = share wtrs w j) ∧ w.reading ≤ w'.reading := by
  have hself₀ : share wtrs (stamped os w (i, n)) i =
      (share wtrs w i).setSlot n { w.slots (i, n) with sent := os.clock w.reading } :=
    share_setSlot_self w.tick i n _
  have hothers₀ : ∀ j, j ≠ i → share wtrs (stamped os w (i, n)) j = share wtrs w j :=
    fun j hj => share_setSlot_other w.tick hj n _
  unfold Share.ccwriterCheckDeferred
  simp only [Share.setSlot_slots_self]
  cases ccwriterCheckDeferred_checks h with
  | @again r w₁ hstop hcnt hdefer hlast =>
    obtain ⟨hself, hothers, hreading⟩ := deferPacket_share wtrs hdefer
    subst hlast
    rw [if_pos hstop, if_pos (show ((share wtrs w i).slots n).nCnt < 1 from hcnt)]
    refine ⟨?_, fun j hj => ?_, (Nat.le_succ _).trans hreading⟩
    · rw [hself₀] at hself
      rw [share_setSlot_self, show w₁.slots (i, n) = (share wtrs w₁ i).slots n from rfl, hself]
      rfl
    · exact (share_setSlot_other _ hj n _).trans ((hothers j hj).trans (hothers₀ j hj))
  | enough hstop hcnt hdefer =>
    obtain ⟨hself, hothers, hreading⟩ := deferPacket_share wtrs hdefer
    rw [if_pos hstop, if_neg (show ¬((share wtrs w i).slots n).nCnt < 1 from hcnt)]
    refine ⟨?_, fun j hj => ?_, (Nat.le_succ _).trans hreading⟩
    · rw [hself, share_setSlot_self, hself₀, stamped_slots_self]
      rfl
    · exact (hothers j hj).trans ((share_setSlot_other _ hj n _).trans (hothers₀ j hj))
  | held hstop hexpired hdefer =>
    obtain ⟨hself, hothers, hreading⟩ := deferPacket_share wtrs hdefer
    rw [if_neg hstop, if_pos hexpired]
    refine ⟨?_, fun j hj => (hothers j hj).trans (hothers₀ j hj),
      (Nat.le_add_right w.reading 2).trans hreading⟩
    rw [hself, show share wtrs (stamped os w (i, n)).tick i = _ from hself₀]
    rfl
  | ended hstop hexpired hdefer =>
    obtain ⟨hself, hothers, hreading⟩ := deferPacket_share wtrs hdefer
    rw [if_neg hstop, if_neg hexpired]
    refine ⟨?_, fun j hj => (hothers j hj).trans (hothers₀ j hj),
      (Nat.le_add_right w.reading 2).trans hreading⟩
    rw [hself, show share wtrs (stamped os w (i, n)).tick i = _ from hself₀]
    rfl

variable [DecidableEq κ]

variable (wtrs) in
/-- **`ccwriter_do_write`** changes the share of its writer only, and the channel of those that
write to it, too. -/
theorem ccwriterDoWrite_share {pkt pkt' : Ccpacket} {c : Nat}
    (h : ccwriterDoWrite os wtrs w i pkt = some (c, pkt', w')) :
    (pkt', share wtrs w' i) = (share wtrs w i).ccwriterDoWrite os w.reading (wtrs i) pkt ∧
      (∀ j, j ≠ i → (∃ chn, share wtrs w' j = { share wtrs w j with chn := chn }) ∧
        ((wtrs j).chn ≠ (wtrs i).chn → share wtrs w' j = share wtrs w j)) ∧
      (0 < pkt.receiver ∧ pkt.receiver ≤ (wtrs i).protocol.nRcv → w.reading + 1 ≤ w'.reading) := by
  unfold ccwriterDoWrite at h
  unfold Share.ccwriterDoWrite
  by_cases hrange : 0 < pkt.receiver ∧ pkt.receiver ≤ (wtrs i).protocol.nRcv
  · rw [if_pos hrange] at h ⊢
    simp only [ccwriterDoWrite_] at h
    unfold Share.ccwriterDoWrite_
    by_cases hsoon : timeSince (os.clock w.reading) (w.slots (i, (pkt.receiver - 1).toNat)).sent <
        (wtrs i).protocol.gaptime
    · rw [if_pos (show timeSince _ (w.tick.slots _).sent < _ from hsoon)] at h
      rw [if_pos (show timeSince _ ((share wtrs w i).slots _).sent < _ from hsoon)]
      obtain ⟨⟨r, w₁⟩, hdefer, h⟩ := Option.bind_eq_some_iff.mp h
      obtain ⟨hself, hothers, hreading⟩ := deferPacket_share wtrs hdefer
      obtain ⟨-, h⟩ := Prod.mk.inj (Option.some.inj h)
      obtain ⟨rfl, rfl⟩ := Prod.mk.inj h
      exact ⟨congrArg _ hself, fun j hj => ⟨⟨_, hothers j hj⟩, fun _ => hothers j hj⟩, fun _ => hreading⟩
    · rw [if_neg (show ¬timeSince _ (w.tick.slots _).sent < _ from hsoon)] at h
      rw [if_neg (show ¬timeSince _ ((share wtrs w i).slots _).sent < _ from hsoon)]
      simp only [show w.tick.channels = w.channels from rfl] at h
      rw [show (share wtrs w i).chn = w.channels (wtrs i).chn from rfl]
      generalize (wtrs i).protocol.doWrite (wtrs i).auth (channelIsOpen (w.channels (wtrs i).chn))
        (w.channels (wtrs i).chn).txbuf pkt = out at h ⊢
      obtain ⟨txbuf, pkt₁, c₁⟩ := out
      set channels := Function.update w.channels (wtrs i).chn
        { w.channels (wtrs i).chn with txbuf := txbuf }
      set w₂ := { w.tick with channels := channels }.observe (.write i pkt)
      have hself₂ : share wtrs w₂ i =
          { share wtrs w i with
            chn := { w.channels (wtrs i).chn with txbuf := txbuf }
            calls := .doWrite pkt :: (share wtrs w i).calls } := by
        have hcalls : callsOf i w₂.trace = .doWrite pkt :: callsOf i w.trace := by
          simp [callsOf, w₂, World.observe, World.tick]
        unfold share
        rw [show w₂.channels (wtrs i).chn = _ from Function.update_self _ _ _, hcalls]
        rfl
      have hothers₂ : ∀ j, j ≠ i →
          share wtrs w₂ j = { share wtrs w j with chn := channels (wtrs j).chn } := by
        intro j hj
        have hne : ¬i = j := fun h => hj h.symm
        have hcalls : callsOf j w₂.trace = callsOf j w.trace := by
          simp [callsOf, w₂, World.observe, World.tick, hne]
        unfold share
        rw [hcalls]
        rfl
      have hchannel : ∀ j, (wtrs j).chn ≠ (wtrs i).chn →
          { share wtrs w j with chn := channels (wtrs j).chn } = share wtrs w j := by
        intro j hchn
        unfold share
        rw [show channels (wtrs j).chn = _ from Function.update_of_ne hchn _ _]
      simp only at h ⊢
      by_cases hc : c₁ > 0
      · rw [if_pos hc] at h ⊢
        obtain ⟨w₃, hcheck, h⟩ := Option.bind_eq_some_iff.mp h
        obtain ⟨hself, hothers, hreading⟩ := ccwriterCheckDeferred_share wtrs hcheck
        obtain ⟨-, h⟩ := Prod.mk.inj (Option.some.inj h)
        obtain ⟨rfl, rfl⟩ := Prod.mk.inj h
        refine ⟨?_, fun j hj => ⟨⟨_, (hothers j hj).trans (hothers₂ j hj)⟩, fun hchn =>
          ((hothers j hj).trans (hothers₂ j hj)).trans (hchannel j hchn)⟩, fun _ => hreading⟩
        rw [hself, hself₂]
        rfl
      · rw [if_neg hc] at h ⊢
        obtain ⟨-, h⟩ := Prod.mk.inj (Option.some.inj h)
        obtain ⟨rfl, rfl⟩ := Prod.mk.inj h
        exact ⟨congrArg _ hself₂, fun j hj => ⟨⟨_, hothers₂ j hj⟩, fun hchn =>
          (hothers₂ j hj).trans (hchannel j hchn)⟩, fun _ => le_rfl⟩
  · rw [if_neg hrange] at h ⊢
    obtain ⟨-, h⟩ := Prod.mk.inj (Option.some.inj h)
    obtain ⟨rfl, rfl⟩ := Prod.mk.inj h
    exact ⟨rfl, fun _ _ => ⟨⟨_, rfl⟩, fun _ => rfl⟩, fun hin => absurd hin hrange⟩

end Protozoa.Engine
