import Protozoa.Engine.Armed
import Protozoa.Engine.Latest
import Protozoa.Engine.Share

/-!
# A packet that is sent once

What a step appends to the channel for a receiver is `appended`. A packet is `Single` for its writer
if it has nothing to set and does not expire late; such a packet is written once, unless it is a
stop that its slot has not counted yet (`ccwriter_check_deferred`, `ccwriter.c:165-183`).

* `ccwriterDoWrite_once`, `ccwriterDoWrite_elsewhere`: one call, for the receiver of the packet and
  for another one.
* `Tracks`: the packet has been written, or waits in its slot for its first wake-up (`Waits`), which
  is not too soon if wake-ups are punctual (`Obs.Punctual`).
* `tracks_submit`, `Tracks.step`, **`Tracks.run`**: from the submission of the packet on, and as
  long as no other is submitted for its receiver, its message is appended once; nothing is appended
  as long as the slot waits.
* `SentPast.run`: no slot was sent last at a time that is to come.
-/

namespace Protozoa.Engine

open Clump Lib.SortedBag

variable {ι κ : Type}

/-! ## The share of the writer -/

/-- The packets for a receiver that were given to `do_write`. -/
def writesFor (r : Int) (calls : List Call) : Nat :=
  calls.countP fun
    | .doWrite pkt => pkt.receiver = r
    | .deferPacket _ _ => false

/-- The bytes that are appended for a receiver. -/
def appended (r : Int) (sh sh' : Share) : List (List Byte) :=
  if writesFor r sh'.calls = writesFor r sh.calls then []
  else [sh'.chn.txbuf.data.drop sh.chn.txbuf.data.length]

namespace Share

variable {sh : Share} {os : Os} {m : Nat} {wtr : Ccwriter κ} {pkt : Ccpacket} {r : Int}

theorem writesFor_deferPacket (now : Timeval) (n : Nat) (again : Option Ccpacket) (ms : Nat) :
    writesFor r (sh.deferPacket now n again ms).calls = writesFor r sh.calls := by
  cases again <;> rfl

theorem writesFor_ccwriterCheckDeferred (p : Protocol) (n : Nat) :
    writesFor r (sh.ccwriterCheckDeferred os m p pkt n).calls = writesFor r sh.calls := by
  simp only [ccwriterCheckDeferred]
  split_ifs
  · exact writesFor_deferPacket _ _ _ _
  · exact writesFor_deferPacket _ _ _ _
  · exact writesFor_deferPacket _ _ _ _
  · exact writesFor_deferPacket _ _ _ _

/-- A packet for another receiver. -/
theorem ccwriterDoWrite_other (h : pkt.receiver ≠ r) :
    writesFor r (sh.ccwriterDoWrite os m wtr pkt).2.calls = writesFor r sh.calls := by
  have hwrite : ∀ sh' : Share, sh'.calls = .doWrite pkt :: sh.calls →
      writesFor r sh'.calls = writesFor r sh.calls := by
    intro sh' hcalls
    simp [hcalls, writesFor, h]
  simp only [ccwriterDoWrite, ccwriterDoWrite_]
  split_ifs
  · exact writesFor_deferPacket _ _ _ _
  · exact (writesFor_ccwriterCheckDeferred _ _).trans (hwrite _ rfl)
  · exact hwrite _ rfl
  · rfl

theorem deferPacket_slots (now : Timeval) {n k : Nat} (again : Option Ccpacket) (ms : Nat) (h : k ≠ n) :
    (sh.deferPacket now n again ms).slots k = sh.slots k := by
  cases again with
  | none => rfl
  | some pkt => exact Function.update_of_ne h _ _

theorem setSlot_slots_of_ne (d : DeferredPkt) {n k : Nat} (h : k ≠ n) :
    (sh.setSlot n d).slots k = sh.slots k := Function.update_of_ne h _ _

theorem ccwriterCheckDeferred_slots (p : Protocol) {n k : Nat} (h : k ≠ n) :
    (sh.ccwriterCheckDeferred os m p pkt n).slots k = sh.slots k := by
  simp only [ccwriterCheckDeferred]
  split_ifs
  · rw [setSlot_slots_of_ne _ h, deferPacket_slots _ _ _ h, setSlot_slots_of_ne _ h]
  · rw [deferPacket_slots _ _ _ h, setSlot_slots_of_ne _ h, setSlot_slots_of_ne _ h]
  · rw [deferPacket_slots _ _ _ h, setSlot_slots_of_ne _ h]
  · rw [deferPacket_slots _ _ _ h, setSlot_slots_of_ne _ h]

/-- The other slots are left alone. -/
theorem ccwriterDoWrite_slots {k : Nat} (h : k ≠ (pkt.receiver - 1).toNat) :
    (sh.ccwriterDoWrite os m wtr pkt).2.slots k = sh.slots k := by
  simp only [ccwriterDoWrite, ccwriterDoWrite_]
  split_ifs
  · exact deferPacket_slots (os.clock (m + 1)) (some pkt) wtr.protocol.gaptime h
  · exact ccwriterCheckDeferred_slots _ h
  · rfl
  · rfl

/-- The writer does not keep the packet once it is written. -/
structure Spends (sh : Share) (os : Os) (m : Nat) (p : Protocol) (pkt : Ccpacket) (n : Nat) : Prop where
  stop : ccpacketIsStop pkt = true → 1 ≤ (sh.slots n).nCnt
  expired : ccpacketIsStop pkt = false → ccpacketIsExpired (os.clock (m + 1)) pkt p.timeout = false

theorem ccwriterCheckDeferred_spends {p : Protocol} {n : Nat} (h : sh.Spends os m p pkt n) :
    (sh.ccwriterCheckDeferred os m p pkt n).calls = .deferPacket n false :: sh.calls ∧
      (sh.ccwriterCheckDeferred os m p pkt n).chn = sh.chn := by
  simp only [ccwriterCheckDeferred]
  by_cases hstop : ccpacketIsStop pkt = true
  · have hcnt := h.stop hstop
    rw [if_pos hstop, setSlot_slots_self, if_neg (Nat.not_lt.mpr hcnt)]
    exact ⟨rfl, rfl⟩
  · have hexpired := h.expired (Bool.eq_false_iff.mpr hstop)
    rw [if_neg hstop, if_neg (by rw [hexpired]; exact Bool.false_ne_true)]
    exact ⟨rfl, rfl⟩

/-- **A write** of a packet that the writer spends: it is deferred, or it is written and the slot is
given up. -/
theorem ccwriterDoWrite_spends (h0 : 0 < pkt.receiver) (h1 : pkt.receiver ≤ wtr.protocol.nRcv)
    (h : sh.Spends os (m + 1) wtr.protocol (wtr.protocol.adjust pkt) (pkt.receiver - 1).toNat) :
    let n := (pkt.receiver - 1).toNat
    let sh' := (sh.ccwriterDoWrite os m wtr pkt).2
    (sh.TooSoon os m wtr pkt ∧ sh'.calls = .deferPacket n true :: sh.calls ∧
      sh'.slots n =
        { sh.slots n with tv := timevalAdjust (os.clock (m + 1)) wtr.protocol.gaptime, packet := pkt }) ∨
    (sh'.calls = .deferPacket n false :: .doWrite pkt :: sh.calls ∧
      sh'.chn.txbuf = (wtr.protocol.doWrite wtr.auth (channelIsOpen sh.chn) sh.chn.txbuf pkt).1) := by
  intro n sh'
  have hrun : sh' = (sh.ccwriterDoWrite_ os m wtr pkt).2 := congrArg Prod.snd (if_pos ⟨h0, h1⟩)
  obtain ⟨txbuf, hwrite⟩ : ∃ txbuf, wtr.protocol.doWrite wtr.auth (channelIsOpen sh.chn)
      sh.chn.txbuf pkt = (txbuf, wtr.protocol.adjust pkt, 1) :=
    ⟨_, Prod.ext rfl (doWrite_spec _ _ _ _ h0 h1)⟩
  simp only [ccwriterDoWrite_, hwrite, gt_iff_lt, Nat.zero_lt_one, if_true] at hrun
  by_cases hsoon : sh.TooSoon os m wtr pkt
  · left
    rw [if_pos (show timeSince _ _ < _ from hsoon)] at hrun
    rw [hrun]
    exact ⟨hsoon, rfl, setSlot_slots_self _ _ _⟩
  · right
    rw [if_neg (show ¬timeSince _ _ < _ from hsoon)] at hrun
    obtain ⟨hcalls, hchn⟩ := @ccwriterCheckDeferred_spends
      { sh with chn := { sh.chn with txbuf := txbuf }, calls := .doWrite pkt :: sh.calls } os (m + 1)
      (wtr.protocol.adjust pkt) wtr.protocol (pkt.receiver - 1).toNat ⟨h.stop, h.expired⟩
    rw [hrun, hwrite]
    exact ⟨hcalls, congrArg Channel.txbuf hchn⟩

theorem setSlot_sent {d : DeferredPkt} {n : Nat} (hd : d.sent = (sh.slots n).sent) (k : Nat) :
    ((sh.setSlot n d).slots k).sent = (sh.slots k).sent := by
  by_cases hk : k = n
  · subst hk
    rw [setSlot_slots_self, hd]
  · rw [setSlot_slots_of_ne _ hk]

theorem deferPacket_sent (now : Timeval) (n : Nat) (again : Option Ccpacket) (ms k : Nat) :
    ((sh.deferPacket now n again ms).slots k).sent = (sh.slots k).sent := by
  cases again with
  | none => rfl
  | some pkt =>
    have hset : ∀ d : DeferredPkt, d.sent = (sh.slots n).sent →
        ((sh.setSlot n d).slots k).sent = (sh.slots k).sent := fun d hd => setSlot_sent hd k
    exact hset { sh.slots n with tv := timevalAdjust now ms, packet := pkt } rfl

/-- `dpkt->sent` is a reading of the clock. -/
theorem ccwriterCheckDeferred_sent (p : Protocol) (n k : Nat) :
    ((sh.ccwriterCheckDeferred os m p pkt n).slots k).sent =
      if k = n then os.clock m else (sh.slots k).sent := by
  have hset : ((sh.setSlot n { sh.slots n with sent := os.clock m }).slots k).sent =
      if k = n then os.clock m else (sh.slots k).sent := by
    by_cases hk : k = n
    · subst hk
      rw [setSlot_slots_self, if_pos rfl]
    · rw [setSlot_slots_of_ne _ hk, if_neg hk]
  rw [← hset]
  simp only [ccwriterCheckDeferred]
  split_ifs
  · refine (setSlot_sent ?_ k).trans (deferPacket_sent _ _ _ _ k)
    rfl
  · refine (deferPacket_sent _ _ _ _ k).trans (setSlot_sent ?_ k)
    rfl
  · exact deferPacket_sent _ _ _ _ k
  · exact deferPacket_sent _ _ _ _ k

theorem ccwriterDoWrite_sent (k : Nat) :
    let sh' := (sh.ccwriterDoWrite os m wtr pkt).2
    (sh'.slots k).sent = (sh.slots k).sent ∨
      (0 < pkt.receiver ∧ pkt.receiver ≤ wtr.protocol.nRcv) ∧ (sh'.slots k).sent = os.clock (m + 1) := by
  intro sh'
  by_cases hrange : 0 < pkt.receiver ∧ pkt.receiver ≤ wtr.protocol.nRcv
  · have hrun : sh' = (sh.ccwriterDoWrite_ os m wtr pkt).2 := congrArg Prod.snd (if_pos hrange)
    rw [hrun]
    simp only [ccwriterDoWrite_]
    split_ifs
    · exact .inl (deferPacket_sent (os.clock (m + 1)) _ (some pkt) wtr.protocol.gaptime k)
    · rw [ccwriterCheckDeferred_sent]
      split_ifs
      · exact .inr ⟨hrange, rfl⟩
      · exact .inl rfl
    · exact .inl rfl
  · have hrun : sh' = sh := congrArg Prod.snd (if_neg hrange)
    exact .inl (by rw [hrun])

end Share

/-! ## The queue -/

variable [DecidableEq ι] {os : Os} {wtrs : ι → Ccwriter κ} {w w' : World ι κ} {i : ι} {s dpkt : Slot ι}
  {pkt pkt' : Ccpacket}

/-- **`defer_packet`** decides about its own slot only. -/
theorem Defers.mem_queue {again : Option Ccpacket} (h : Defers os w w' dpkt again) (hw : Orderly w)
    (hC : ∀ o ∈ w'.trace, o.RemovesFirst) (s : Slot ι) :
    s ∈ w'.queue ↔ if s = dpkt then again.isSome = true else s ∈ w.queue := by
  obtain ⟨l, r, herase, hqueue, -⟩ := h.split hw (h.firstDue_of hC)
  have hrest : s ∈ l ++ r ↔ s ≠ dpkt ∧ s ∈ w.queue := by
    rw [herase]
    exact hw.nodup.mem_erase_iff
  have hmem : s ∈ w'.queue ↔ s ∈ l ++ r ∨ s ∈ if again.isSome then [dpkt] else [] := by
    rw [hqueue]
    simp only [List.mem_append]
    tauto
  rw [hmem, hrest]
  by_cases hs : s = dpkt
  · subst hs
    cases again <;> simp
  · cases again <;> simp [hs]

theorem Defers.callsOf {n : Nat} {again : Option Ccpacket} (h : Defers os w w' (i, n) again) :
    callsOf i w'.trace = .deferPacket n again.isSome :: callsOf i w.trace := by
  obtain ⟨new, htrace, hnew⟩ := h.trace
  have hnone : Engine.callsOf i new = [] := by
    refine List.filterMap_eq_nil_iff.mpr fun o ho => ?_
    obtain ⟨pipe, tv, now, rfl⟩ := hnew o ho
    rfl
  rw [htrace]
  unfold Engine.callsOf at hnone ⊢
  rw [List.filterMap_append, hnone]
  simp

/-- **`ccwriter_do_write`** decides about the slot of the receiver only. -/
theorem Writes.mem_queue (h : Writes os wtrs w i pkt pkt' w') (hrange : InRange wtrs i pkt)
    (hw : Orderly w) (hC : ∀ o ∈ w'.trace, o.RemovesFirst) :
    ∃ queued calls, callsOf i w'.trace = .deferPacket (pkt.receiver - 1).toNat queued :: calls ∧
      ∀ s, s ∈ w'.queue ↔ if s = slotOf i pkt then queued = true else s ∈ w.queue := by
  cases h with
  | unknown hunknown => exact (hunknown hrange).elim
  | tooSoon _ h₁ hdefer =>
    refine ⟨true, _, hdefer.callsOf, fun s => ?_⟩
    rw [hdefer.mem_queue (h₁.orderly (by simp) hw) hC, h₁.queue]
    rfl
  | @written w₁ w₂ _ again _ h₁ hdefer _ h₂ =>
    refine ⟨again.isSome, Engine.callsOf i w₁.trace, ?_, fun s => ?_⟩
    · rw [show w'.trace = _ from h₂.trace]
      exact hdefer.callsOf
    · rw [h₂.queue, hdefer.mem_queue (h₁.orderly (by simp [Obs.DefersOnly]) hw) fun o ho =>
        hC o (h₂.grows.subset ho), h₁.queue]

/-! ## Wake-ups -/

/-- A slot that is handed over is due. -/
def Obs.Punctual : Obs ι → Prop
  | .hand _ tv now => tv.toUsec ≤ now.toUsec
  | _ => True

/-- How often a slot has been handed over. -/
def handsOf (s : Slot ι) (trace : List (Obs ι)) : Nat :=
  trace.countP fun
    | .hand dpkt _ _ => dpkt = s
    | _ => false

theorem handsOf_append {new : List (Obs ι)} (hnew : ∀ o ∈ new, ∀ tv now, o ≠ .hand s tv now)
    (trace : List (Obs ι)) : handsOf s (new ++ trace) = handsOf s trace := by
  have hnone : handsOf s new = 0 := by
    refine List.countP_eq_zero.mpr fun o ho => ?_
    cases o with
    | hand dpkt tv now =>
      have hne : dpkt ≠ s := fun h => hnew _ ho tv now (h ▸ rfl)
      simp [hne]
    | submit => simp
    | write => simp
    | remove => simp
    | packet => simp
    | rearm => simp
  unfold handsOf at hnone ⊢
  rw [List.countP_append, hnone, Nat.zero_add]

theorem Rearms.hands (h : Rearms os w w') (s : Slot ι) : handsOf s w'.trace = handsOf s w.trace := by
  obtain ⟨new, htrace, hnew⟩ := h.new
  rw [htrace]
  refine handsOf_append (fun o ho => ?_) _
  obtain ⟨pipe, tv, now, rfl⟩ := hnew o ho
  exact fun _ _ => nofun

theorem Defers.hands {again : Option Ccpacket} (h : Defers os w w' dpkt again) (s : Slot ι) :
    handsOf s w'.trace = handsOf s w.trace := by
  obtain ⟨new, htrace, hnew⟩ := h.trace
  rw [htrace]
  refine (handsOf_append (fun o ho => ?_) _).trans rfl
  obtain ⟨pipe, tv, now, rfl⟩ := hnew o ho
  exact fun _ _ => nofun

theorem Writes.hands (h : Writes os wtrs w i pkt pkt' w') (s : Slot ι) :
    handsOf s w'.trace = handsOf s w.trace := by
  cases h with
  | unknown => rfl
  | tooSoon _ h₁ hdefer => rw [hdefer.hands, h₁.trace, List.nil_append]
  | written _ h₁ hdefer _ h₂ =>
    rw [h₂.trace, List.nil_append, hdefer.hands, h₁.trace]
    rfl

theorem gaptime_lt (p : Protocol) : p.gaptime * 1000 < 2 ^ 32 := by
  cases p <;> decide

omit [DecidableEq ι] in
/-- A slot that waits for the gap time is not too soon when it is due. -/
theorem not_tooSoon {sh : Share} {m : Nat} {wtr : Ccwriter κ}
    (h : (sh.slots (pkt.receiver - 1).toNat).sent.toUsec + wtr.protocol.gaptime * 1000 ≤
      (os.clock m).toUsec) : ¬sh.TooSoon os m wtr pkt := not_timeSince_lt h

/-! ## A write -/

variable [DecidableEq κ]

theorem writes_of_ccwriterDoWrite {c : Nat} (h : ccwriterDoWrite os wtrs w i pkt = some (c, pkt', w'))
    (hw : Shaped w) : Writes os wtrs w i pkt pkt' w' := by
  obtain ⟨c₁, pkt₁, w₁, hrun, hwrites⟩ := ccwriterDoWrite_writes os wtrs hw i pkt
  rw [h] at hrun
  obtain ⟨-, hrun⟩ := Prod.mk.inj (Option.some.inj hrun)
  obtain ⟨rfl, rfl⟩ := Prod.mk.inj hrun
  exact hwrites

/-- **A write of a packet that is spent** appends it, or keeps it in the queue. -/
theorem ccwriterDoWrite_once {c : Nat} {mess : List Byte}
    (h : ccwriterDoWrite os wtrs w i pkt = some (c, pkt', w')) (hshaped : Shaped w) (hw : Orderly w)
    (hC : ∀ o ∈ w'.trace, o.RemovesFirst) (hrange : InRange wtrs i pkt)
    (hspends : (share wtrs w i).Spends os (w.reading + 1) (wtrs i).protocol
      ((wtrs i).protocol.adjust pkt) (pkt.receiver - 1).toNat)
    (hmess : ∀ isOpen, ((wtrs i).protocol.doWrite (wtrs i).auth isOpen (share wtrs w i).chn.txbuf pkt).1.data =
      (share wtrs w i).chn.txbuf.data ++ mess) :
    appended pkt.receiver (share wtrs w i) (share wtrs w' i) =
        (if slotOf i pkt ∈ w'.queue then [] else [mess]) ∧
      (slotOf i pkt ∈ w'.queue → (share wtrs w i).TooSoon os w.reading (wtrs i) pkt ∧
        w'.slots (slotOf i pkt) = { w.slots (slotOf i pkt) with
          tv := timevalAdjust (os.clock (w.reading + 1)) (wtrs i).protocol.gaptime, packet := pkt }) := by
  obtain ⟨queued, calls, hcalls, hqueue⟩ :=
    (writes_of_ccwriterDoWrite h hshaped).mem_queue hrange hw hC
  have hmem := (hqueue (slotOf i pkt)).trans (iff_of_eq (if_pos rfl))
  have hshare := congrArg Prod.snd (ccwriterDoWrite_share wtrs h).1
  have hcases := Share.ccwriterDoWrite_spends hrange.1 hrange.2 hspends
  rw [← show share wtrs w' i = _ from hshare] at hcases
  have hfirst : ∀ {b rest}, (share wtrs w' i).calls = .deferPacket (pkt.receiver - 1).toNat b :: rest →
      queued = b := by
    intro b rest heq
    have heq := hcalls.symm.trans heq
    simp only [List.cons.injEq, Call.deferPacket.injEq, true_and] at heq
    exact heq.1
  rcases hcases with ⟨hsoon, hkept, hslot⟩ | ⟨hgone, hchn⟩
  · rw [if_pos (hmem.mpr (hfirst hkept))]
    refine ⟨if_pos ?_, fun _ => ⟨hsoon, hslot⟩⟩
    rw [hkept]
    rfl
  · have hout : slotOf i pkt ∉ w'.queue := fun hin =>
      Bool.false_ne_true ((hfirst hgone).symm.trans (hmem.mp hin))
    rw [if_neg hout]
    refine ⟨(if_neg ?_).trans ?_, fun hin => absurd hin hout⟩
    · rw [hgone]
      simp [writesFor]
    · rw [hchn, hmess, List.drop_left]

/-- A write for another receiver. -/
theorem ccwriterDoWrite_elsewhere {c : Nat} (h : ccwriterDoWrite os wtrs w i pkt = some (c, pkt', w'))
    (hshaped : Shaped w) (hw : Orderly w) (hC : ∀ o ∈ w'.trace, o.RemovesFirst)
    (hne : ¬(i = s.1 ∧ pkt.receiver = s.2 + 1)) :
    appended (s.2 + 1) (share wtrs w s.1) (share wtrs w' s.1) = [] ∧ (s ∈ w'.queue ↔ s ∈ w.queue) ∧
      w'.slots s = w.slots s := by
  by_cases hrange : InRange wtrs i pkt
  · obtain ⟨queued, calls, -, hqueue⟩ := (writes_of_ccwriterDoWrite h hshaped).mem_queue hrange hw hC
    obtain ⟨hself, hothers, -⟩ := ccwriterDoWrite_share wtrs h
    have hslot : s ≠ slotOf i pkt := by
      rintro rfl
      refine hne ⟨rfl, ?_⟩
      have := hrange.1
      unfold slotOf
      omega
    have hmem := (hqueue s).trans (iff_of_eq (if_neg hslot))
    by_cases hi : s.1 = i
    · have hshare : share wtrs w' i = ((share wtrs w i).ccwriterDoWrite os w.reading (wtrs i) pkt).2 :=
        congrArg Prod.snd hself
      have hr : pkt.receiver ≠ s.2 + 1 := fun hr => hne ⟨hi.symm, hr⟩
      refine ⟨if_pos ?_, hmem, ?_⟩
      · rw [hi, hshare, Share.ccwriterDoWrite_other hr]
      · have hn : s.2 ≠ (pkt.receiver - 1).toNat := fun hn => hslot (Prod.ext hi hn)
        have hslots := congrArg (fun sh => sh.slots s.2) hshare
        simp only [Share.ccwriterDoWrite_slots hn] at hslots
        rw [show s = (i, s.2) from Prod.ext hi rfl]
        exact hslots
    · obtain ⟨⟨chn, hother⟩, -⟩ := hothers s.1 hi
      refine ⟨if_pos ?_, hmem, ?_⟩
      · rw [hother]
      · exact congrArg (fun sh => sh.slots s.2) hother
  · have hsame : w' = w := by
      cases writes_of_ccwriterDoWrite h hshaped with
      | unknown => rfl
      | tooSoon hrange' => exact absurd hrange' hrange
      | written hrange' => exact absurd hrange' hrange
    rw [hsame]
    exact ⟨if_pos rfl, Iff.rfl, rfl⟩

/-! ## A step -/

theorem follows_of_step {a : Action ι κ} (h : step os wtrs w a = some w') (hw : Shaped w) :
    Follows os wtrs w a w' := by
  obtain ⟨w₁, hrun, hfollows⟩ := step_follows os wtrs hw a
  obtain rfl := Option.some.inj (h.symm.trans hrun)
  exact hfollows

theorem sends_of_deferPacketNow (h : deferPacketNow os wtrs w dpkt = some w') (hw : Shaped w) :
    Sends os wtrs w dpkt w' := by
  obtain ⟨w₁, hrun, hsends⟩ := deferPacketNow_sends os wtrs hw dpkt
  obtain rfl := Option.some.inj (h.symm.trans hrun)
  exact hsends

omit [DecidableEq ι] [DecidableEq κ] in
theorem rearms_of_deferRearm {r : Int} (h : deferRearm os w = some (r, w')) (hw : Shaped w) :
    Rearms os w w' := by
  obtain ⟨r₁, w₁, hrun, hrearms⟩ := deferRearm_rearms os hw
  obtain ⟨-, rfl⟩ := Prod.mk.inj (Option.some.inj (h.symm.trans hrun))
  exact hrearms

/-- `defer_packet_now`: the slot is taken out, and its packet is written. -/
theorem deferPacketNow_split (h : deferPacketNow os wtrs w dpkt = some w') (hw : Shaped w) :
    ∃ w₁ c pkt w₂, Removes w w₁ dpkt ∧ w₁.channels = w.channels ∧
      ccwriterDoWrite os wtrs (handed os wtrs w₁ dpkt) dpkt.1 (w.slots dpkt).packet = some (c, pkt, w₂) ∧
      w' = w₂.setSlot dpkt { w₂.slots dpkt with packet := pkt } := by
  obtain ⟨w₁, hremove, hremoves⟩ := deferRemove_removes hw dpkt
  simp only [deferPacketNow, hremove, Option.bind_eq_bind, Option.bind_some] at h
  obtain ⟨⟨c, pkt, w₂⟩, hwrite, h⟩ := Option.bind_eq_some_iff.mp h
  refine ⟨w₁, c, pkt, w₂, hremoves, (deferRemove_share hremove).1, ?_, (Option.some.inj h).symm⟩
  have hpacket : ((handed os wtrs w₁ dpkt).slots dpkt).packet = (w.slots dpkt).packet := by
    rw [handed_packet, hremoves.slots]
  rw [← hpacket]
  exact hwrite

/-- `defer_next`: nothing is taken out, or the first slot. -/
theorem deferNext_split {r : Int} (h : deferNext os wtrs w = some (r, w')) (hw : Shaped w) :
    w' = w ∨ deferRearm os (woken w) = some (r, w') ∨
      ∃ dpkt w₁, w.queue.head? = some dpkt ∧ deferPacketNow os wtrs (woken w) dpkt = some w₁ ∧
        deferRearm os w₁ = some (r, w') := by
  by_cases hpipe : w.timer.pipe = 0
  · left
    rw [deferNext_asleep os wtrs hpipe] at h
    exact ((Prod.mk.inj (Option.some.inj h)).2).symm
  · right
    cases hhead : w.queue.head? with
    | none => exact .inl ((deferNext_idle os wtrs hw hpipe hhead).symm.trans h)
    | some dpkt =>
      rw [deferNext_first os wtrs hw hpipe hhead] at h
      obtain ⟨w₁, hnow, hrearm⟩ := Option.bind_eq_some_iff.mp h
      exact .inr ⟨dpkt, w₁, rfl, hnow, hrearm⟩

/-- The slot of the packet has been handed over `hands` times, and it is not too soon for the packet
when it is due. -/
structure Waits (wtrs : ι → Ccwriter κ) (i : ι) (pkt : Ccpacket) (hands : Nat) (w : World ι κ) : Prop where
  hands : handsOf (slotOf i pkt) w.trace = hands
  late : (w.slots (slotOf i pkt)).sent.toUsec + (wtrs i).protocol.gaptime * 1000 ≤
    (w.slots (slotOf i pkt)).tv.toUsec
  nCnt : ccpacketIsStop pkt = true → 1 ≤ (w.slots (slotOf i pkt)).nCnt

/-- The packet is the latest for its receiver, and `out` is what has been appended for that since:
one message, unless the slot still waits for its first wake-up. -/
structure Tracks (wtrs : ι → Ccwriter κ) (i : ι) (pkt : Ccpacket) (mess : List Byte) (hands : Nat)
    (w : World ι κ) (out : List (List Byte)) : Prop extends Current wtrs w none where
  latest : latest w.trace i pkt.receiver = some pkt
  out : out = if slotOf i pkt ∈ w.queue then [] else [mess]
  waits : slotOf i pkt ∈ w.queue → Waits wtrs i pkt hands w

omit [DecidableEq κ] in
/-- Nothing is appended for the packet, and its slot stays as it is. -/
theorem Tracks.still {mess : List Byte} {hands : Nat} {out : List (List Byte)}
    (h : Tracks wtrs i pkt mess hands w out) (hcurrent : Current wtrs w' none)
    (hlatest : Engine.latest w'.trace i pkt.receiver = Engine.latest w.trace i pkt.receiver)
    (hhands : handsOf (slotOf i pkt) w'.trace = handsOf (slotOf i pkt) w.trace)
    (happended : appended pkt.receiver (share wtrs w i) (share wtrs w' i) = [])
    (hqueue : slotOf i pkt ∈ w'.queue ↔ slotOf i pkt ∈ w.queue)
    (hslot : w'.slots (slotOf i pkt) = w.slots (slotOf i pkt)) :
    Tracks wtrs i pkt mess hands w'
      (out ++ appended pkt.receiver (share wtrs w i) (share wtrs w' i)) := by
  refine ⟨hcurrent, hlatest.trans h.latest, ?_, fun hin => ?_⟩
  · rw [happended, List.append_nil, h.out]
    simp only [hqueue]
  · obtain ⟨hhands₀, hlate, hnCnt⟩ := h.waits (hqueue.mp hin)
    refine ⟨hhands.trans hhands₀, ?_, ?_⟩
    · rw [hslot]
      exact hlate
    · rw [hslot]
      exact hnCnt

omit [DecidableEq κ] in
/-- A write submits nothing. -/
theorem Writes.latest (h : Writes os wtrs w i pkt pkt' w') (j : ι) (r : Int) :
    Engine.latest w'.trace j r = Engine.latest w.trace j r := by
  cases h with
  | unknown => rfl
  | tooSoon _ h₁ hdefer =>
    obtain ⟨new, htrace, hnew⟩ := hdefer.inner
    rw [htrace, latest_inner hnew, h₁.trace]
    rfl
  | written _ h₁ hdefer _ h₂ =>
    obtain ⟨new, htrace, hnew⟩ := hdefer.inner
    rw [h₂.trace, List.nil_append, htrace, latest_inner hnew, h₁.trace]
    rfl

/-- A packet that is sent once from the reading `m` on: it has nothing to set, it does not expire
late, and with room for it a write appends `mess`. -/
structure Single (os : Os) (wtrs : ι → Ccwriter κ) (i : ι) (pkt : Ccpacket) (mess : List Byte) (size m : Nat) :
    Prop where
  range : InRange wtrs i pkt
  settled : (wtrs i).protocol.adjust pkt = pkt
  expired : ccpacketIsStop pkt = false → ∀ k, m ≤ k →
    ccpacketIsExpired (os.clock k) pkt (wtrs i).protocol.timeout = false
  message : ∀ (isOpen : Bool) (txbuf : Buffer), size ≤ bufferSpace txbuf →
    ((wtrs i).protocol.doWrite (wtrs i).auth isOpen txbuf pkt).1.data = txbuf.data ++ mess

/-- There is room when the slot may be written. -/
def RoomAt (wtrs : ι → Ccwriter κ) (s : Slot ι) (size : Nat) (w : World ι κ) : Action ι κ → Prop
  | .next => w.queue.head? = some s → size ≤ bufferSpace (w.channels (wtrs s.1).chn).txbuf
  | _ => True

/-- A packet is submitted for the receiver. -/
def Action.SubmitsTo (i : ι) (r : Int) : Action ι κ → Prop
  | .submit j pkt => j = i ∧ pkt.receiver = r
  | _ => False

section

variable {mess : List Byte} {size m hands : Nat} {out : List (List Byte)}

omit [DecidableEq ι] [DecidableEq κ] in
theorem Single.slot (h : Single os wtrs i pkt mess size m) :
    (((slotOf i pkt).2 : Nat) : Int) + 1 = pkt.receiver := by
  have := h.range.1
  unfold slotOf
  omega

/-- **A packet is submitted for another receiver.** -/
theorem Tracks.submit (h : Tracks wtrs i pkt mess hands w out) (hs : Single os wtrs i pkt mess size m)
    (hshaped : Shaped w) {j : ι} {q : Ccpacket} (hstep : step os wtrs w (.submit j q) = some w')
    (hne : ¬(j = i ∧ q.receiver = pkt.receiver)) (hC : ∀ o ∈ w'.trace, o.RemovesFirst) :
    Tracks wtrs i pkt mess hands w' (out ++ appended pkt.receiver (share wtrs w i) (share wtrs w' i)) := by
  have hcurrent := (follows_of_step hstep hshaped).current trivial h.toCurrent hC
  obtain ⟨⟨c, q', w₁⟩, hrun, rfl⟩ := Option.map_eq_some_iff.mp hstep
  have horderly : Orderly (w.observe (.submit j q)) :=
    ⟨h.sorted, h.nodup, List.forall_mem_cons.mpr ⟨trivial, h.defers⟩⟩
  have hne' : ¬(j = (slotOf i pkt).1 ∧ q.receiver = (slotOf i pkt).2 + 1) := by
    rw [hs.slot]
    exact hne
  obtain ⟨happended, hqueue, hslot⟩ := ccwriterDoWrite_elsewhere hrun hshaped horderly hC hne'
  rw [hs.slot] at happended
  refine h.still hcurrent ?_ ((writes_of_ccwriterDoWrite hrun hshaped).hands _) happended hqueue hslot
  rw [(writes_of_ccwriterDoWrite hrun hshaped).latest]
  exact List.findSome?_cons_of_isNone (congrArg Option.isNone (if_neg hne))

omit [DecidableEq κ] in
/-- The packet in its slot. -/
theorem Tracks.packet (h : Tracks wtrs i pkt mess hands w out) (hs : Single os wtrs i pkt mess size m)
    (hmem : slotOf i pkt ∈ w.queue) : (w.slots (slotOf i pkt)).packet = pkt := by
  obtain ⟨-, hreceiver, B, hB, hpkt⟩ := h.stored _ hmem (Option.some_ne_none _)
  rw [hreceiver, hs.slot] at hB
  obtain rfl : pkt = B := Option.some.inj (h.latest.symm.trans hB)
  rcases hpkt with hpkt | hpkt
  · exact hpkt
  · exact hpkt.trans hs.settled

/-- **The first slot is sent.** -/
theorem Tracks.send (h : Tracks wtrs i pkt mess hands w out) (hs : Single os wtrs i pkt mess size m)
    (hm : m ≤ w.reading) (hshaped : Shaped w) (hfirst : w.queue.head? = some dpkt)
    (hnow : deferPacketNow os wtrs w dpkt = some w')
    (hroom : slotOf i pkt = dpkt → size ≤ bufferSpace (w.channels (wtrs i).chn).txbuf)
    (hC : ∀ o ∈ w'.trace, o.RemovesFirst) (hP : ∀ o ∈ w'.trace, o.Punctual) :
    Tracks wtrs i pkt mess hands w' (out ++ appended pkt.receiver (share wtrs w i) (share wtrs w' i)) := by
  have hmem : dpkt ∈ w.queue := List.mem_of_mem_head? hfirst
  have hsends := sends_of_deferPacketNow hnow hshaped
  have hcurrent := hsends.current h.toCurrent hmem hC
  have hdue := hsends.firstDue hC
  obtain ⟨w₁, c, pkt', w₂, hremove, hchannels, hrun, rfl⟩ := deferPacketNow_split hnow hshaped
  obtain ⟨hqueue₁, horderly⟩ := hremove.orderly h.toOrderly hdue os wtrs
  -- what the writer has, once its slot is taken out
  set hd := handed os wtrs w₁ dpkt with hhd
  have hchn : (share wtrs hd i).chn = (share wtrs w i).chn := congrFun hchannels _
  have htrace : hd.trace = .hand dpkt (w₁.slots dpkt).tv (os.clock w₁.reading) ::
      .remove dpkt (w.slots dpkt).tv w.entries :: w.trace := congrArg _ hremove.trace
  have hcalls : (share wtrs hd i).calls = (share wtrs w i).calls := by
    show callsOf i hd.trace = _
    rw [htrace]
    rfl
  have hothers : ∀ s, s ≠ dpkt → hd.slots s = w.slots s := fun s hne =>
    (handed_slots_of_ne os wtrs w₁ hne).trans (congrFun hremove.slots s)
  have hkept : (hd.slots dpkt).nCnt = (w.slots dpkt).nCnt ∧ (hd.slots dpkt).sent = (w.slots dpkt).sent := by
    rw [← hremove.slots]
    exact ⟨handed_nCnt os wtrs w₁ dpkt, handed_sent os wtrs w₁ dpkt⟩
  have hreading : m ≤ hd.reading := by
    show m ≤ w₁.reading + 1
    rw [hremove.reading]
    exact Nat.le_succ_of_le hm
  have happended : appended pkt.receiver (share wtrs w i)
      (share wtrs (w₂.setSlot dpkt { w₂.slots dpkt with packet := pkt' }) i) =
        appended pkt.receiver (share wtrs hd i) (share wtrs w₂ i) := by
    unfold appended
    rw [hchn, hcalls]
    rfl
  have hlatest : Engine.latest w₂.trace i pkt.receiver = Engine.latest w.trace i pkt.receiver := by
    rw [(writes_of_ccwriterDoWrite hrun hremove.shaped).latest, htrace]
    rfl
  by_cases hslot : slotOf i pkt = dpkt
  · subst hslot
    obtain ⟨-, hlate, hcnt⟩ := h.waits hmem
    rw [h.packet hs hmem] at hrun
    have hspends : (share wtrs hd i).Spends os (hd.reading + 1) (wtrs i).protocol
        ((wtrs i).protocol.adjust pkt) (pkt.receiver - 1).toNat := by
      rw [hs.settled]
      refine ⟨fun hstop => ?_, fun hstop => hs.expired hstop _ (Nat.le_add_right_of_le
        (Nat.le_add_right_of_le hreading))⟩
      exact (hcnt hstop).trans_eq hkept.1.symm
    have hmess : ∀ isOpen, ((wtrs i).protocol.doWrite (wtrs i).auth isOpen (share wtrs hd i).chn.txbuf
        pkt).1.data = (share wtrs hd i).chn.txbuf.data ++ mess :=
      fun isOpen => hs.message isOpen _ (hchn ▸ hroom rfl)
    obtain ⟨hout, hagain⟩ := ccwriterDoWrite_once (i := i) hrun hremove.shaped horderly hC hs.range hspends
      hmess
    -- the wake-up was not early
    have hgone : slotOf i pkt ∉ w₂.queue := by
      intro hin
      refine not_tooSoon ?_ (hagain hin).1
      have hdue := hP _ ((writes_of_ccwriterDoWrite hrun hremove.shaped).grows.subset
        (htrace ▸ List.mem_cons_self))
      have hsent : ((share wtrs hd i).slots (pkt.receiver - 1).toNat).sent = _ := hkept.2
      rw [hsent]
      refine (hlate.trans ?_).trans (os.mono (Nat.le_succ w₁.reading))
      rw [← hremove.slots]
      exact hdue
    refine ⟨hcurrent, hlatest.trans h.latest, ?_, fun hin => absurd hin hgone⟩
    rw [happended, hout, h.out, if_pos hmem, List.nil_append]
    rfl
  · have hne : ¬(dpkt.1 = (slotOf i pkt).1 ∧ (w.slots dpkt).packet.receiver = (slotOf i pkt).2 + 1) := by
      rintro ⟨hi, hr⟩
      rw [(h.stored dpkt hmem (Option.some_ne_none _)).receiver] at hr
      exact hslot (Prod.ext hi.symm (by omega))
    obtain ⟨hnone, hqueue, hsame⟩ := ccwriterDoWrite_elsewhere hrun hremove.shaped horderly hC hne
    rw [hs.slot] at hnone
    have hhands : handsOf (slotOf i pkt) hd.trace = handsOf (slotOf i pkt) w.trace := by
      have hdpkt : dpkt ≠ slotOf i pkt := Ne.symm hslot
      rw [htrace]
      simp [handsOf, hdpkt]
    refine h.still hcurrent hlatest (((writes_of_ccwriterDoWrite hrun hremove.shaped).hands _).trans hhands)
      (happended.trans hnone) (hqueue.trans ?_) ?_
    · show _ ∈ w₁.queue ↔ _
      rw [hqueue₁]
      exact List.mem_erase_of_ne hslot
    · rw [World.setSlot_slots_of_ne _ _ hslot, hsame, hothers _ hslot]

omit [DecidableEq κ] in
/-- The timer is armed. -/
theorem Tracks.rearm (h : Tracks wtrs i pkt mess hands w out) (hshaped : Shaped w) {r : Int}
    (hrearm : deferRearm os w = some (r, w')) :
    Tracks wtrs i pkt mess hands w' out ∧ share wtrs w' i = share wtrs w i := by
  obtain ⟨hchannels, hslots, -, hcalls⟩ := deferRearm_share hrearm
  have hrearms := rearms_of_deferRearm hrearm hshaped
  obtain ⟨new, htrace, hnew⟩ := hrearms.inner
  refine ⟨⟨hrearms.current h.toCurrent, ?_, ?_, fun hin => ?_⟩,
    share_congr hchannels hslots (hcalls i)⟩
  · rw [htrace, latest_inner hnew]
    exact h.latest
  · rw [hrearms.queue]
    exact h.out
  · obtain ⟨hhands, hlate, hnCnt⟩ := h.waits (hrearms.queue ▸ hin)
    exact ⟨(hrearms.hands _).trans hhands, hslots ▸ hlate, hslots ▸ hnCnt⟩

omit [DecidableEq κ] in
theorem Tracks.unchanged (h : Tracks wtrs i pkt mess hands w out) :
    Tracks wtrs i pkt mess hands w (out ++ appended pkt.receiver (share wtrs w i) (share wtrs w i)) :=
  h.still h.toCurrent rfl rfl (if_pos rfl) Iff.rfl rfl

/-- **One step** of which the packet is not the concern, or that sends it. -/
theorem Tracks.step (h : Tracks wtrs i pkt mess hands w out) (hs : Single os wtrs i pkt mess size m)
    (hm : m ≤ w.reading) (hshaped : Shaped w) {a : Action ι κ} (hstep : step os wtrs w a = some w')
    (ha : a.ByWriters) (hother : ¬a.SubmitsTo i pkt.receiver)
    (hroom : RoomAt wtrs (slotOf i pkt) size w a) (hC : ∀ o ∈ w'.trace, o.RemovesFirst)
    (hP : ∀ o ∈ w'.trace, o.Punctual) :
    Tracks wtrs i pkt mess hands w' (out ++ appended pkt.receiver (share wtrs w i) (share wtrs w' i)) := by
  cases a with
  | submit j q => exact h.submit hs hshaped hstep hother hC
  | defer => exact ha.elim
  | next =>
    obtain ⟨⟨r, w₁⟩, hnext, rfl⟩ := Option.map_eq_some_iff.mp hstep
    have hwoken : Tracks wtrs i pkt mess hands (woken w) out :=
      ⟨⟨⟨h.sorted, h.nodup, h.defers⟩, h.fresh, h.stored⟩, h.latest, h.out, fun hin =>
        ⟨(h.waits hin).hands, (h.waits hin).late, (h.waits hin).nCnt⟩⟩
    rcases deferNext_split hnext hshaped with rfl | hidle | ⟨dpkt, w₂, hfirst, hnow, hrearm⟩
    · exact h.unchanged
    · obtain ⟨htracks, hshare⟩ := hwoken.rearm hshaped hidle
      rw [show share wtrs w₁ i = share wtrs w i from hshare, show appended _ _ _ = [] from if_pos rfl,
        List.append_nil]
      exact htracks
    · have hsent := sends_of_deferPacketNow hnow hshaped
      have hrearms := rearms_of_deferRearm hrearm hsent.shaped
      have htracks := hwoken.send hs hm hshaped hfirst hnow (fun hslot => hroom (hslot ▸ hfirst))
        (fun o ho => hC o (hrearms.grows.subset ho)) fun o ho => hP o (hrearms.grows.subset ho)
      obtain ⟨htracks', hshare⟩ := htracks.rearm hsent.shaped hrearm
      rw [show share wtrs w₁ i = _ from hshare]
      exact htracks'
  | alarm =>
    have hcurrent := (follows_of_step hstep hshaped).current trivial h.toCurrent hC
    simp only [Engine.step] at hstep
    split at hstep
    · obtain rfl := Option.some.inj hstep
      exact h.still hcurrent rfl rfl (if_pos rfl) Iff.rfl rfl
    · obtain rfl := Option.some.inj hstep
      exact h.unchanged
  | channel k chn =>
    have hcurrent := (follows_of_step hstep hshaped).current trivial h.toCurrent hC
    obtain rfl := Option.some.inj hstep
    exact h.still hcurrent rfl rfl (if_pos rfl) Iff.rfl rfl

/-- **The submission** of the packet. -/
theorem tracks_submit (hcurrent : Current wtrs w none) (hs : Single os wtrs i pkt mess size m)
    (hm : m ≤ w.reading) (hshaped : Shaped w) (hstep : step os wtrs w (.submit i pkt) = some w')
    (hstop : ccpacketIsStop pkt = true → 1 ≤ (w.slots (slotOf i pkt)).nCnt)
    (hsent : (w.slots (slotOf i pkt)).sent.toUsec ≤ (os.clock w.reading).toUsec)
    (hroom : size ≤ bufferSpace (w.channels (wtrs i).chn).txbuf) (hC : ∀ o ∈ w'.trace, o.RemovesFirst) :
    Tracks wtrs i pkt mess (handsOf (slotOf i pkt) w.trace) w'
      (appended pkt.receiver (share wtrs w i) (share wtrs w' i)) := by
  have hcurrent' := (follows_of_step hstep hshaped).current trivial hcurrent hC
  obtain ⟨⟨c, pkt', w₁⟩, hrun, rfl⟩ := Option.map_eq_some_iff.mp hstep
  have horderly : Orderly (w.observe (.submit i pkt)) :=
    ⟨hcurrent.sorted, hcurrent.nodup, List.forall_mem_cons.mpr ⟨trivial, hcurrent.defers⟩⟩
  have hspends : (share wtrs (w.observe (.submit i pkt)) i).Spends os (w.reading + 1) (wtrs i).protocol
      ((wtrs i).protocol.adjust pkt) (pkt.receiver - 1).toNat := by
    rw [hs.settled]
    exact ⟨hstop, fun hstop => hs.expired hstop _ (Nat.le_add_right_of_le (Nat.le_add_right_of_le hm))⟩
  obtain ⟨hout, hkept⟩ := ccwriterDoWrite_once hrun hshaped horderly hC hs.range hspends
    fun isOpen => hs.message isOpen _ hroom
  refine ⟨hcurrent', ?_, hout, fun hin => ⟨(writes_of_ccwriterDoWrite hrun hshaped).hands _, ?_, ?_⟩⟩
  · rw [(writes_of_ccwriterDoWrite hrun hshaped).latest]
    simp [World.observe, Engine.latest]
  · rw [(hkept hin).2]
    have htv := (@timevalAdjust_spec _ (wtrs i).protocol.gaptime (os.normal (w.reading + 1))).1
    rw [Nat.mod_eq_of_lt (gaptime_lt _)] at htv
    have hmono := hsent.trans (os.mono (Nat.le_succ w.reading))
    refine (Int.add_le_add_right hmono _).trans_eq ?_
    rw [← Nat.cast_ofNat, ← Nat.cast_mul]
    exact htv.symm
  · rw [(hkept hin).2]
    exact hstop

end

/-! ## Runs -/

/-- What is appended for a receiver of the writer in a run. -/
def outputs (os : Os) (wtrs : ι → Ccwriter κ) (i : ι) (r : Int) : World ι κ → List (Action ι κ) →
    List (List Byte)
  | _, [] => []
  | w, a :: actions =>
    match step os wtrs w a with
    | some w' => appended r (share wtrs w i) (share wtrs w' i) ++ outputs os wtrs i r w' actions
    | none => []

/-- There is room whenever the slot may be written. -/
def AllRoom (os : Os) (wtrs : ι → Ccwriter κ) (s : Slot ι) (size : Nat) : World ι κ →
    List (Action ι κ) → Prop
  | _, [] => True
  | w, a :: actions =>
    RoomAt wtrs s size w a ∧ ∀ w' ∈ step os wtrs w a, AllRoom os wtrs s size w' actions

theorem run_cons {a : Action ι κ} {actions : List (Action ι κ)} :
    run os wtrs w (a :: actions) = (step os wtrs w a).bind fun w₁ => run os wtrs w₁ actions := by
  rw [run, List.foldlM_cons]
  rfl

theorem run_grows : ∀ {actions : List (Action ι κ)} {w w' : World ι κ}, Shaped w →
    run os wtrs w actions = some w' → Shaped w' ∧ w.trace <:+ w'.trace
  | [], w, w', hw, hrun => by
    obtain rfl := Option.some.inj hrun
    exact ⟨hw, List.suffix_rfl⟩
  | a :: actions, w, w', hw, hrun => by
    rw [run_cons] at hrun
    obtain ⟨w₁, hstep, hrun⟩ := Option.bind_eq_some_iff.mp hrun
    have hfollows := follows_of_step hstep hw
    obtain ⟨hshaped, hgrows⟩ := run_grows (hfollows.shaped hw) hrun
    exact ⟨hshaped, hfollows.grows.trans hgrows⟩

theorem step_reading {a : Action ι κ} (h : step os wtrs w a = some w') (hw : Shaped w) :
    w.reading ≤ w'.reading := by
  cases follows_of_step h hw with
  | submit hwrite => exact hwrite.reading
  | defer hdefer => exact hdefer.reading
  | next hnext =>
    cases hnext with
    | asleep => exact le_rfl
    | idle _ _ hrearm => exact hrearm.reading
    | first _ _ hsend hrearm => exact hsend.reading.trans hrearm.reading
  | alarm => exact le_rfl
  | quiet => exact le_rfl
  | channel => exact le_rfl

/-! ## The time of the last packet -/

/-- `dpkt->sent` is in the past. -/
def SentPast (os : Os) (w : World ι κ) : Prop :=
  ∀ s, (w.slots s).sent.toUsec ≤ (os.clock w.reading).toUsec

omit [DecidableEq ι] [DecidableEq κ] in
/-- Nothing is sent, and the clock goes on. -/
theorem SentPast.later (h : SentPast os w) (hslots : ∀ s, (w'.slots s).sent = (w.slots s).sent)
    (hreading : w.reading ≤ w'.reading) : SentPast os w' := by
  intro s
  rw [hslots]
  exact (h s).trans (os.mono hreading)

theorem SentPast.write {c : Nat} (h : ccwriterDoWrite os wtrs w i pkt = some (c, pkt', w'))
    (hshaped : Shaped w) (hw : SentPast os w) : SentPast os w' := by
  intro s
  have hreading := (writes_of_ccwriterDoWrite h hshaped).reading
  obtain ⟨hself, hothers, hticks⟩ := ccwriterDoWrite_share wtrs h
  by_cases hi : s.1 = i
  · have hslot : w'.slots s = ((share wtrs w i).ccwriterDoWrite os w.reading (wtrs i) pkt).2.slots s.2 := by
      rw [← congrArg Prod.snd hself, ← hi]
      rfl
    rw [hslot]
    rcases Share.ccwriterDoWrite_sent s.2 with hsame | ⟨hrange, hnow⟩
    · rw [hsame, ← hi]
      exact (hw s).trans (os.mono hreading)
    · rw [hnow]
      exact os.mono (hticks hrange)
  · obtain ⟨⟨chn, hother⟩, -⟩ := hothers s.1 hi
    have hslot : w'.slots s = w.slots s := congrArg (fun sh => sh.slots s.2) hother
    rw [hslot]
    exact (hw s).trans (os.mono hreading)

theorem SentPast.send (hnow : deferPacketNow os wtrs w dpkt = some w') (hshaped : Shaped w)
    (hw : SentPast os w) : SentPast os w' := by
  obtain ⟨w₁, c, pkt, w₂, hremove, -, hrun, rfl⟩ := deferPacketNow_split hnow hshaped
  have hhanded : SentPast os (handed os wtrs w₁ dpkt) := by
    refine hw.later (fun s => ?_) ((Nat.le_of_eq hremove.reading.symm).trans (Nat.le_succ _))
    rw [← hremove.slots]
    by_cases hs : s = dpkt
    · subst hs
      exact handed_sent os wtrs w₁ s
    · exact congrArg DeferredPkt.sent (handed_slots_of_ne os wtrs w₁ hs)
  refine (hhanded.write hrun hremove.shaped).later (fun s => ?_) le_rfl
  by_cases hs : s = dpkt
  · subst hs
    rw [World.setSlot_slots_self]
  · rw [World.setSlot_slots_of_ne _ _ hs]

omit [DecidableEq κ] in
theorem SentPast.rearm {r : Int} (hrearm : deferRearm os w = some (r, w')) (hw : SentPast os w) :
    SentPast os w' := by
  obtain ⟨-, hslots, hreading, -⟩ := deferRearm_share hrearm
  exact hw.later (fun s => by rw [hslots]) hreading

theorem SentPast.step {a : Action ι κ} (hstep : step os wtrs w a = some w') (ha : a.ByWriters)
    (hshaped : Shaped w) (hw : SentPast os w) : SentPast os w' := by
  have hreading := step_reading hstep hshaped
  cases a with
  | submit j q =>
    obtain ⟨⟨c, q', w₁⟩, hrun, rfl⟩ := Option.map_eq_some_iff.mp hstep
    have hobserved : SentPast os (w.observe (.submit j q)) := hw
    exact hobserved.write hrun hshaped
  | defer => exact ha.elim
  | next =>
    obtain ⟨⟨r, w₁⟩, hnext, rfl⟩ := Option.map_eq_some_iff.mp hstep
    have hwoken : SentPast os (woken w) := hw
    rcases deferNext_split hnext hshaped with rfl | hidle | ⟨dpkt, w₂, -, hnow, hrearm⟩
    · exact hw
    · exact hwoken.rearm hidle
    · exact (hwoken.send hnow hshaped).rearm hrearm
  | alarm =>
    refine hw.later (fun s => ?_) hreading
    simp only [Engine.step] at hstep
    split at hstep
    · obtain rfl := Option.some.inj hstep
      rfl
    · obtain rfl := Option.some.inj hstep
      rfl
  | channel k chn =>
    obtain rfl := Option.some.inj hstep
    exact hw

theorem SentPast.run : ∀ {actions : List (Action ι κ)} {w w' : World ι κ},
    (∀ a ∈ actions, a.ByWriters) → run os wtrs w actions = some w' → Shaped w → SentPast os w →
      SentPast os w'
  | [], w, w', _, hrun, _, h => by
    obtain rfl := Option.some.inj hrun
    exact h
  | a :: actions, w, w', hactions, hrun, hw, h => by
    rw [run_cons] at hrun
    obtain ⟨w₁, hstep, hrun⟩ := Option.bind_eq_some_iff.mp hrun
    obtain ⟨ha, hactions⟩ := List.forall_mem_cons.mp hactions
    exact SentPast.run hactions hrun ((follows_of_step hstep hw).shaped hw) (h.step hstep ha hw)

/-! ## A packet and what follows -/

theorem Tracks.run {mess : List Byte} {size m hands : Nat} (hs : Single os wtrs i pkt mess size m) :
    ∀ {actions : List (Action ι κ)} {w w' : World ι κ} {out : List (List Byte)},
      Tracks wtrs i pkt mess hands w out → m ≤ w.reading → Shaped w →
      (∀ a ∈ actions, a.ByWriters ∧ ¬a.SubmitsTo i pkt.receiver) →
      AllRoom os wtrs (slotOf i pkt) size w actions → run os wtrs w actions = some w' →
      (∀ o ∈ w'.trace, o.RemovesFirst) → (∀ o ∈ w'.trace, o.Punctual) →
        Tracks wtrs i pkt mess hands w' (out ++ outputs os wtrs i pkt.receiver w actions)
  | [], w, w', out, h, _, _, _, _, hrun, _, _ => by
    obtain rfl := Option.some.inj hrun
    rw [outputs, List.append_nil]
    exact h
  | a :: actions, w, w', out, h, hm, hw, hactions, ⟨hroom, hrooms⟩, hrun, hC, hP => by
    rw [run_cons] at hrun
    obtain ⟨w₁, hstep, hrun⟩ := Option.bind_eq_some_iff.mp hrun
    obtain ⟨ha, hother⟩ := hactions a List.mem_cons_self
    have hw₁ := (follows_of_step hstep hw).shaped hw
    have hgrows := (run_grows hw₁ hrun).2
    have htracks := h.step hs hm hw hstep ha hother hroom (fun o ho => hC o (hgrows.subset ho))
      fun o ho => hP o (hgrows.subset ho)
    have htracks' := htracks.run hs (hm.trans (step_reading hstep hw)) hw₁
      (fun b hb => hactions b (List.mem_cons_of_mem a hb)) (hrooms w₁ hstep) hrun hC hP
    rw [List.append_assoc] at htracks'
    rw [outputs, hstep]
    exact htracks'

end Protozoa.Engine
