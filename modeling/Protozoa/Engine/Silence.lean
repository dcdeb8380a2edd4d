import Protozoa.Engine.Clock
import Protozoa.Engine.Due
import Protozoa.Engine.Held
import Protozoa.Engine.Output

/-!
# Falling silent

When readers hand on nothing any more, what is sent are packets that wait in slots, again and again
until they expire (`ccwriter_check_deferred`, `ccwriter.c:165-183`). How often a packet can be sent
yet is a rank of its slot (`Pace.sends`): a stop twice or once, another packet as often as the time
until it expires allows. What keeps two transmissions of it apart is the gap time, or that it is
sent when it is due (`Pace`).

* `Pass.Called.sends`: a call for a slot uses up one of the transmissions, if it transmits.
* `turn_spends`: so does every turn in which nothing is handed on (`Spends`, `Spends.trans`).
* `Tidy`: no slot is queued twice and the packets that are queued are for the receivers of their
  slots, which every turn keeps (`turn_tidy`).

Nothing here says that a packet that waits is sent; `Engine/Held.lean` does, for wake-ups that come
when they are due.
-/

namespace Protozoa.Engine

variable {ι κ : Type}

/-! ## The rank of a slot -/

/-- What keeps two transmissions of one packet apart. -/
inductive Pace where
  /-- the gap time -/
  | gap
  /-- the timeout, as slots are handed over when they are due -/
  | due

/-- The interval, in microseconds. -/
def Pace.interval (protocol : Protocol) : Pace → Int
  | .gap => (protocol.gaptime - 1 : Int) * 1000 + 1
  | .due => (protocol.timeout - 1 : Int) * 1000

/-- The earliest that the packet in a slot is sent. -/
def Pace.earliest (protocol : Protocol) (d : DeferredPkt) : Pace → Int
  | .gap => d.sent.toUsec + ((protocol.gaptime - 1 : Int) * 1000 + 1)
  | .due => d.tv.toUsec - 1000

/-- Once, and as often again as an interval begins in the time that is left. -/
def timesLeft (left interval : Int) : Nat := 1 + ((left + interval - 1) / interval).toNat

/-- How often the packet in a slot can be sent yet. -/
def Pace.sends (pace : Pace) (protocol : Protocol) (d : DeferredPkt) : Nat :=
  if ccpacketIsStop d.packet = true then if d.nCnt < 1 then 2 else 1
  else timesLeft (d.packet.expire.toUsec - protocol.timeout * 1000 - pace.earliest protocol d) (pace.interval protocol)

theorem timesLeft_mono {left left' interval : Int} (hpos : 0 < interval) (hle : left' ≤ left) :
    timesLeft left' interval ≤ timesLeft left interval := by
  unfold timesLeft
  have hdiv := Int.ediv_le_ediv hpos (show left' + interval - 1 ≤ left + interval - 1 by omega)
  omega

/-- One interval later there is one time less. -/
theorem timesLeft_later {left left' interval : Int} (hpos : 0 < interval) (hleft : 0 < left)
    (hle : left' ≤ left - interval) : timesLeft left' interval + 1 ≤ timesLeft left interval := by
  have hmono := timesLeft_mono hpos hle
  have hsplit : left + interval - 1 = left - interval + interval - 1 + 1 * interval := by omega
  have hdiv : (left + interval - 1) / interval = (left - interval + interval - 1) / interval + 1 := by
    rw [hsplit, Int.add_mul_ediv_right _ _ hpos.ne']
  have hnonneg : 0 ≤ (left - interval + interval - 1) / interval := Int.ediv_nonneg (by omega) hpos.le
  unfold timesLeft at hmono ⊢
  omega

theorem timesLeft_pos (left interval : Int) : 1 ≤ timesLeft left interval := Nat.le_add_right _ _

theorem Pace.sends_pos (pace : Pace) (protocol : Protocol) (d : DeferredPkt) : 1 ≤ pace.sends protocol d := by
  unfold Pace.sends
  split_ifs
  · exact Nat.le_succ 1
  · exact le_rfl
  · exact timesLeft_pos _ _

/-- There is such an interval. -/
def Pace.Applies (protocol : Protocol) : Pace → Prop
  | .gap => 0 < protocol.gaptime
  | .due => True

theorem Pace.interval_pos {pace : Pace} {protocol : Protocol} (h : pace.Applies protocol) :
    0 < pace.interval protocol := by
  cases pace with
  | gap =>
    have hgap : 0 < protocol.gaptime := h
    change 0 < (protocol.gaptime - 1 : Int) * 1000 + 1
    omega
  | due => cases protocol <;> decide

variable [DecidableEq ι]

/-- The same of a slot, if it is queued. -/
def World.sends (pace : Pace) (wtrs : ι → Ccwriter κ) (w : World ι κ) (s : Slot ι) : Nat :=
  if s ∈ w.queue then pace.sends (wtrs s.1).protocol (w.slots s) else 0

/-- The packets among these that are for the receiver of a slot. -/
def sendsTo (s : Slot ι) (sent : List (ι × Ccpacket)) : Nat :=
  sent.countP fun x => x.1 = s.1 ∧ x.2.receiver = (s.2 : Int) + 1

theorem sendsTo_append (s : Slot ι) (sent sent' : List (ι × Ccpacket)) :
    sendsTo s (sent ++ sent') = sendsTo s sent + sendsTo s sent' := List.countP_append

/-! ## A call -/

variable [DecidableEq κ] {os : Os} {wtrs : ι → Ccwriter κ} {w w' : World ι κ} {i : ι} {pkt pkt' : Ccpacket}
  {pace : Pace}

omit [DecidableEq ι] [DecidableEq κ] in
/-- A slot that is not sent has to wait as long, or longer. -/
theorem Pace.sends_waits {protocol : Protocol} {d d' : DeferredPkt} (happlies : pace.Applies protocol)
    (hpacket : d'.packet = d.packet) (hnCnt : d'.nCnt = d.nCnt)
    (hle : pace.earliest protocol d ≤ pace.earliest protocol d') :
    pace.sends protocol d' ≤ pace.sends protocol d := by
  unfold Pace.sends
  rw [hpacket, hnCnt]
  split_ifs
  · exact le_rfl
  · exact le_rfl
  · exact timesLeft_mono (Pace.interval_pos happlies) (by omega)

/-- A call is not made before the packet of the slot may be sent. -/
def Pace.Reached (pace : Pace) (d : DeferredPkt) (t : Timeval) : Prop := pace = .due → d.tv.toUsec ≤ t.toUsec + 1000

omit [DecidableEq ι] [DecidableEq κ] in
/-- Nor is it too soon. -/
theorem Pace.earliest_le {protocol : Protocol} {d : DeferredPkt} {t : Timeval} (happlies : pace.Applies protocol)
    (hreached : pace.Reached d t) (hsoon : ¬timeSince t d.sent < protocol.gaptime) :
    pace.earliest protocol d ≤ t.toUsec := by
  cases pace with
  | gap =>
    have hdistant : (protocol.gaptime - 1 : Int) * 1000 < t.toUsec - d.sent.toUsec :=
      distant_of_not_tooSoon happlies hsoon
    change d.sent.toUsec + ((protocol.gaptime - 1 : Int) * 1000 + 1) ≤ t.toUsec
    omega
  | due =>
    have hdue := hreached rfl
    change d.tv.toUsec - 1000 ≤ t.toUsec
    omega

omit [DecidableEq ι] [DecidableEq κ] in
theorem gaptime_of_tooSoon {now sent : Timeval} {ms : Nat} (h : timeSince now sent < ms) : 1 ≤ ms := by
  unfold timeSince at h
  simp only at h
  split_ifs at h <;> omega

omit [DecidableEq ι] [DecidableEq κ] in
theorem adjust_toUsec (os : Os) (n : Nat) {ms : Nat} (h : ms * 1000 < 2 ^ 32) :
    (timevalAdjust (os.clock n) ms).toUsec = (os.clock n).toUsec + ms * 1000 := by
  rw [(timevalAdjust_spec (os.normal n)).1, Nat.mod_eq_of_lt h, Nat.cast_mul, Nat.cast_ofNat]

/-- **A call for a slot**: a packet that is transmitted has been one of those that were left. -/
theorem Pass.Called.sends {p : Pass ι κ} (h : p.Called os wtrs) (hclean : p.Clean) (hrange : InRange wtrs p.wtr p.pkt)
    (happlies : pace.Applies (wtrs p.wtr).protocol) {d : DeferredPkt} (hpacket : d.packet = p.pkt)
    (hsent : d.sent = (p.before.slots (slotOf p.wtr p.pkt)).sent)
    (hnCnt : d.nCnt = (p.before.slots (slotOf p.wtr p.pkt)).nCnt) (hreached : pace.Reached d (p.time os)) :
    p.count ≤ 1 ∧ ∀ d' : DeferredPkt, slotOf p.wtr p.pkt ∈ p.after.queue →
      d'.tv = (p.after.slots (slotOf p.wtr p.pkt)).tv → d'.sent = (p.after.slots (slotOf p.wtr p.pkt)).sent →
      d'.nCnt = (p.after.slots (slotOf p.wtr p.pkt)).nCnt →
      d'.packet = (p.after.slots (slotOf p.wtr p.pkt)).packet ∨ d'.packet = p.left →
      p.count + pace.sends (wtrs p.wtr).protocol d' ≤ pace.sends (wtrs p.wtr).protocol d := by
  obtain ⟨hpassed, -⟩ := h.passed
  generalize p.count = c, p.left = pkt' at hpassed
  set protocol := (wtrs p.wtr).protocol with hprotocol
  cases hpassed with
  | unknown hunknown => exact absurd hrange hunknown
  | tooSoon _ hsoon hqueue hslot =>
    refine ⟨Nat.zero_le 1, fun d' _ htv' hsent' hnCnt' hpacket' => ?_⟩
    rw [hslot] at htv' hsent' hnCnt' hpacket'
    rw [Nat.zero_add]
    refine pace.sends_waits happlies ?_ (hnCnt'.trans hnCnt.symm) ?_
    · rw [hpacket]
      exact hpacket'.elim id id
    · cases pace with
      | gap =>
        unfold Pace.earliest
        rw [hsent', hsent]
      | due =>
        have hdue := hreached rfl
        have hmono : (p.time os).toUsec ≤ (os.clock (p.before.reading + 1)).toUsec := os.mono (Nat.le_succ _)
        have hgap : 1 ≤ protocol.gaptime := gaptime_of_tooSoon hsoon
        change d.tv.toUsec - 1000 ≤ d'.tv.toUsec - 1000
        rw [htv', adjust_toUsec os _ (gaptime_lt protocol)]
        omega
  | @sent w₁ _ hsoon hquiet hslots hreading hlater hchecked =>
    have hle := pace.earliest_le happlies hreached (hsent ▸ hsoon)
    have hadjust := isStop_adjust protocol p.pkt
    have hexpire := (settles_adjust protocol).expire p.pkt
    refine ⟨le_rfl, fun d' hin htv' hsent' hnCnt' hpacket' => ?_⟩
    cases hchecked with
    | again hstop hcnt _ _ hslot =>
      rw [hslot] at hnCnt' hpacket'
      have hstop' : ccpacketIsStop d'.packet = true := hpacket'.elim (· ▸ hstop) (· ▸ hstop)
      rw [hslots, ← hnCnt] at hcnt
      unfold Pace.sends
      rw [hpacket, if_pos hstop', if_pos (hadjust.symm.trans hstop), if_pos hcnt, hnCnt', if_neg]
      exact Nat.not_lt.mpr (Nat.le_add_left 1 _)
    | enough _ _ hqueue => exact absurd hin (hqueue (hquiet.orderly (by simp [Obs.DefersOnly]) hclean.1) hclean.2)
    | ended _ _ _ hqueue => exact absurd hin (hqueue (hquiet.orderly (by simp [Obs.DefersOnly]) hclean.1) hclean.2)
    | held hstop hexpired hread hqueue hslot =>
      rw [hslot] at htv' hsent' hpacket'
      have hpacket'' : d'.packet = protocol.adjust p.pkt := hpacket'.elim id id
      have hlt : (os.clock (w₁.reading + 1)).toUsec + protocol.timeout * 1000 <
          (protocol.adjust p.pkt).expire.toUsec := lt_expire hexpired
      rw [hexpire, hreading] at hlt
      rw [hreading] at htv' hsent'
      have hnow : (p.time os).toUsec ≤ (os.clock (p.before.reading + 1)).toUsec := os.mono (Nat.le_succ _)
      have hread' : (os.clock (p.before.reading + 1)).toUsec ≤ (os.clock (p.before.reading + 1 + 1)).toUsec :=
        os.mono (Nat.le_succ _)
      have hlast : (os.clock (p.before.reading + 1 + 1)).toUsec ≤ (os.clock (p.before.reading + 1 + 2)).toUsec :=
        os.mono (Nat.le_succ _)
      have hnext : (p.time os).toUsec + pace.interval protocol ≤ pace.earliest protocol d' := by
        cases pace with
        | gap =>
          change _ + ((protocol.gaptime - 1 : Int) * 1000 + 1) ≤ d'.sent.toUsec + _
          rw [hsent']
          exact Int.add_le_add_right hnow _
        | due =>
          change _ + (protocol.timeout - 1 : Int) * 1000 ≤ d'.tv.toUsec - 1000
          rw [htv', adjust_toUsec os _ (timeout_lt protocol)]
          omega
      have hstop' : ¬ccpacketIsStop p.pkt = true := fun hyes => by
        rw [hadjust, hyes] at hstop
        cases hstop
      unfold Pace.sends
      rw [hpacket, hpacket'', if_neg hstop', hadjust, if_neg hstop', hexpire, Nat.add_comm 1]
      refine timesLeft_later (Pace.interval_pos happlies) ?_ ?_
      · omega
      · omega

/-! ## What is sent -/

/-- A call transmits its packet, or nothing. -/
theorem ccwriterDoWrite_sent {c : Nat} (hrun : ccwriterDoWrite os wtrs w i pkt = some (c, pkt', w')) :
    writes w'.trace = writes w.trace ++ if 0 < c then [(i, pkt)] else [] := by
  have hanywhere : Confined (fun _ _ => True) w.slots := fun _ => Or.inr trivial
  unfold ccwriterDoWrite at hrun
  by_cases hrange : 0 < pkt.receiver ∧ pkt.receiver ≤ (wtrs i).protocol.nRcv
  · rw [if_pos hrange] at hrun
    unfold ccwriterDoWrite_ at hrun
    by_cases hsoon : timeSince (os.clock w.reading) (w.slots (i, (pkt.receiver - 1).toNat)).sent <
        (wtrs i).protocol.gaptime
    · obtain ⟨⟨r, w₁⟩, hdefer, heq⟩ := Option.bind_eq_some_iff.mp ((if_pos hsoon).symm.trans hrun)
      obtain ⟨rfl, rfl, rfl⟩ := by simpa using heq
      rw [if_neg (Nat.lt_irrefl 0), List.append_nil]
      exact (Silent.deferPacket hdefer).writes
    · have hwrite := (if_neg hsoon).symm.trans hrun
      obtain ⟨txbuf, hout⟩ : ∃ txbuf, (wtrs i).protocol.doWrite (wtrs i).auth
          (channelIsOpen (w.channels (wtrs i).chn)) (w.channels (wtrs i).chn).txbuf pkt =
            (txbuf, (wtrs i).protocol.adjust pkt, 1) := ⟨_, Prod.ext rfl (doWrite_spec _ _ _ _ hrange.1 hrange.2)⟩
      simp only [show w.tick.channels = w.channels from rfl, hout, gt_iff_lt, Nat.zero_lt_one, if_true] at hwrite
      obtain ⟨w₁, hcheck, heq⟩ := Option.bind_eq_some_iff.mp hwrite
      obtain ⟨rfl, rfl, rfl⟩ := by simpa using heq
      rw [(ccwriterCheckDeferred_silent hcheck hanywhere trivial).1.writes, if_pos Nat.one_pos]
      exact writes_cons _ _
  · obtain ⟨rfl, rfl, rfl⟩ := by simpa using (if_neg hrange).symm.trans hrun
    exact (List.append_nil _).symm

/-- What a call transmits. -/
def Pass.out (p : Pass ι κ) : List (ι × Ccpacket) := if 0 < p.count then [(p.wtr, p.pkt)] else []

/-- **What a step sends** is sent by its call. -/
theorem step_sent {a : Action ι κ} (h : step os wtrs w a = some w') (hw : Shaped w) :
    writes w'.trace = writes w.trace ++ ((passOf os wtrs w a).elim [] Pass.out) := by
  cases a with
  | submit i pkt =>
    obtain ⟨p, hpass, hcalled, -, -, -, hbefore, rfl⟩ := submit_passed h hw
    rw [hpass, ccwriterDoWrite_sent hcalled.call, hbefore]
    exact congrArg (· ++ _) ((writes_cons _ _).trans (List.append_nil _))
  | defer dpkt pkt ms =>
    obtain ⟨⟨r, w₁⟩, hdefer, rfl⟩ := Option.map_eq_some_iff.mp h
    exact (Silent.deferPacket hdefer).writes.trans (List.append_nil _).symm
  | next =>
    rcases next_passed h hw with ⟨hnone, rfl | ⟨r, hrearm⟩⟩ | ⟨dpkt, w₁, p, r, -, hpass, hhands, hrearm⟩
    · rw [hnone]
      exact (List.append_nil _).symm
    · rw [hnone]
      exact (Silent.deferRearm hrearm).writes.trans (List.append_nil _).symm
    · have hbefore : writes p.before.trace = writes w.trace := by
        rw [hhands.before]
        refine (writes_cons _ _).trans ((List.append_nil _).trans ?_)
        change writes w₁.trace = _
        rw [hhands.removes.trace]
        exact (writes_cons _ _).trans (List.append_nil _)
      rw [(Silent.deferRearm hrearm).writes, hpass, ← hbefore]
      change writes p.after.trace = _
      exact ccwriterDoWrite_sent hhands.call
  | alarm =>
    simp only [step] at h
    split at h <;> obtain rfl := Option.some.inj h <;> exact (List.append_nil _).symm
  | channel k chn =>
    obtain rfl := Option.some.inj h
    exact (List.append_nil _).symm

/-- Readers hand on nothing. -/
def Action.Silent : Action ι κ → Prop
  | .submit .. => False
  | .defer .. => False
  | _ => True

/-- What keeps transmissions of a writer apart holds of what has happened. -/
def Pace.Holds (pace : Pace) (protocol : Protocol) (trace : List (Obs ι)) : Prop :=
  pace.Applies protocol ∧ (pace = .due → ∀ o ∈ trace, o.Due)

omit [DecidableEq κ] in
/-- A call sends nothing to another receiver than its own, -/
theorem Pass.sendsTo_out_of_not (p : Pass ι κ) {s : Slot ι} (h : ¬(p.wtr = s.1 ∧ p.pkt.receiver = s.2 + 1)) :
    sendsTo s p.out = 0 := by
  refine List.countP_eq_zero.mpr fun x hx hto => ?_
  unfold Pass.out at hx
  split at hx
  · rw [List.mem_singleton.mp hx] at hto
    exact h (of_decide_eq_true hto)
  · exact List.not_mem_nil hx

omit [DecidableEq κ] in
/-- and to this one no more than it counts. -/
theorem Pass.sendsTo_out_le (p : Pass ι κ) (s : Slot ι) : sendsTo s p.out ≤ p.count := by
  refine List.countP_le_length.trans ?_
  unfold Pass.out
  split_ifs with hpos
  · exact hpos
  · exact Nat.zero_le _

/-- **A step in which nothing is handed on** uses up what it sends. -/
theorem step_sends {a : Action ι κ} (h : step os wtrs w a = some w') (hw : Shaped w) (hcur : Current wtrs w none)
    (hC : ∀ o ∈ w'.trace, o.RemovesFirst) (ha : a.Silent) (s : Slot ι)
    (hpace : pace.Holds (wtrs s.1).protocol w'.trace) :
    sendsTo s ((passOf os wtrs w a).elim [] Pass.out) + w'.sends pace wtrs s ≤ w.sends pace wtrs s := by
  have hwriters : a.ByWriters := by
    cases a with
    | defer => exact ha
    | _ => trivial
  rcases step_slot h hw hcur hC hwriters s with ⟨hsame, hnone⟩ | ⟨p, hpass, hdecides⟩
  · have hzero : sendsTo s ((passOf os wtrs w a).elim [] Pass.out) = 0 := by
      cases hpass : passOf os wtrs w a with
      | none => rfl
      | some p => exact p.sendsTo_out_of_not (hnone p hpass)
    unfold World.sends
    rw [hzero, Nat.zero_add, hsame.slot]
    by_cases hin : s ∈ w.queue
    · rw [if_pos hin, if_pos (hsame.queue.mpr hin)]
    · rw [if_neg hin, if_neg fun h => hin (hsame.queue.mp h)]
  · rcases hdecides.source with rfl | ⟨hin, hpacket, m, hm, hhand⟩
    · exact ha.elim
    obtain ⟨i, n⟩ := s
    obtain rfl : p.wtr = i := hdecides.wtr
    have hreceiver : p.pkt.receiver = (n : Int) + 1 := hdecides.receiver
    have hslot : slotOf p.wtr p.pkt = (p.wtr, n) := by
      unfold slotOf
      rw [hreceiver]
      exact Prod.ext rfl (by omega)
    have hstored := hcur.stored _ hin (Option.some_ne_none _)
    have hrange : InRange wtrs p.wtr p.pkt := hpacket ▸ hstored.inRange
    have hwithin := within_of_passOf h hw hpass
    have hreached : pace.Reached (w.slots (p.wtr, n)) (p.time os) := fun hdue =>
      (hpace.2 hdue _ hhand).trans (Int.add_le_add_right (os.mono hm) _)
    obtain ⟨hone, hsends⟩ := hdecides.toCalled.sends hdecides.clean hrange hpace.1 hpacket.symm
      (by rw [hslot, hwithin.before.sent]) (by rw [hslot, hwithin.before.nCnt]) hreached
    rw [hpass]
    refine (Nat.add_le_add_right (p.sendsTo_out_le _) _).trans ?_
    unfold World.sends
    rw [if_pos hin]
    rw [hslot] at hsends
    by_cases hin' : (p.wtr, n) ∈ w'.queue
    · rw [if_pos hin']
      exact hsends _ (hdecides.queue.mp hin') hdecides.tv (hwithin.after.sent _) (hwithin.after.nCnt _) hdecides.packet
    · rw [if_neg hin']
      exact hone.trans (pace.sends_pos _ _)

/-! ## Turns -/

/-- The packets that readers have handed on. -/
def submits (trace : List (Obs ι)) : List (ι × Ccpacket) :=
  trace.filterMap fun
    | .submit i pkt => some (i, pkt)
    | _ => none

omit [DecidableEq ι] in
theorem submits_suffix {trace trace' : List (Obs ι)} (h : trace <:+ trace') : submits trace <:+ submits trace' :=
  h.filterMap _

omit [DecidableEq ι] in
/-- A packet that is handed on can be seen. -/
theorem submits_ne {i : ι} {pkt : Ccpacket} {trace trace' : List (Obs ι)} (h : .submit i pkt :: trace <:+ trace') :
    submits trace' ≠ submits trace := by
  intro heq
  have hlen := (submits_suffix h).length_le
  rw [heq] at hlen
  exact Nat.not_succ_le_self _ hlen

/-- What holds between turns. -/
structure Tidy (wtrs : ι → Ccwriter κ) (w : World ι κ) : Prop where
  shaped : Shaped w
  current : Current wtrs w none

/-- The state has become another one, and all that has been sent in between is made up by what can
be sent yet. -/
structure Spends (pace : Pace) (wtrs : ι → Ccwriter κ) (s : Slot ι) (w w' : World ι κ) : Prop where
  tidy : Tidy wtrs w'
  sends : ∃ sent, writes w'.trace = writes w.trace ++ sent ∧
    sendsTo s sent + w'.sends pace wtrs s ≤ w.sends pace wtrs s

/-- The turn hands on nothing. -/
def Turn.Silent : Turn ι κ → Prop
  | .act a => a.Silent
  | .look => True

section

variable {s : Slot ι} {w'' : World ι κ}

omit [DecidableEq κ] in
theorem Spends.trans (h : Spends pace wtrs s w w') (h' : Spends pace wtrs s w' w'') : Spends pace wtrs s w w'' := by
  obtain ⟨sent, hwrites, hsends⟩ := h.sends
  obtain ⟨sent', hwrites', hsends'⟩ := h'.sends
  refine ⟨h'.tidy, sent ++ sent', ?_, ?_⟩
  · rw [hwrites', hwrites, List.append_assoc]
  · rw [sendsTo_append]
    omega

omit [DecidableEq κ] in
/-- Nothing that the slots depend on has changed. -/
theorem Tidy.same (hw : Tidy wtrs w) (htree : w'.tree = w.tree) (hslots : w'.slots = w.slots)
    (htrace : w'.trace = w.trace) : Tidy wtrs w' := by
  obtain ⟨reading, slots, tree, timer, channels, trace⟩ := w'
  obtain rfl : slots = w.slots := hslots
  obtain rfl : tree = w.tree := htree
  obtain rfl : trace = w.trace := htrace
  obtain ⟨hshaped, hcurrent⟩ := hw
  exact ⟨hshaped, ⟨⟨hcurrent.sorted, hcurrent.nodup, hcurrent.defers⟩, hcurrent.fresh, hcurrent.stored⟩⟩

omit [DecidableEq κ] in
theorem Spends.same (hw : Tidy wtrs w) (htree : w'.tree = w.tree) (hslots : w'.slots = w.slots)
    (htrace : w'.trace = w.trace) : Spends pace wtrs s w w' := by
  refine ⟨hw.same htree hslots htrace, [], ?_, ?_⟩
  · rw [htrace, List.append_nil]
  · unfold World.sends World.queue
    rw [htree, hslots]
    exact (Nat.zero_add _).le

/-- What holds between turns is kept. -/
theorem turn_tidy {t : Turn ι κ} (h : turn os wtrs w t = some w') (hw : Tidy wtrs w)
    (ht : ∀ dpkt pkt ms, t ≠ .act (.defer dpkt pkt ms)) (hC : ∀ o ∈ w'.trace, o.RemovesFirst) : Tidy wtrs w' := by
  cases t with
  | look =>
    obtain rfl := Option.some.inj h
    have hticked : w.tick.tree = w.tree := rfl
    exact hw.same hticked rfl rfl
  | act a =>
    have hfollows := follows_of_step h hw.shaped
    refine ⟨hfollows.shaped hw.shaped, hfollows.current ?_ hw.current hC⟩
    cases a with
    | defer dpkt pkt ms => exact ht dpkt pkt ms rfl
    | _ => trivial

/-- **A turn in which nothing is handed on** uses up what it sends. -/
theorem turn_spends {t : Turn ι κ} (h : turn os wtrs w t = some w') (hw : Tidy wtrs w)
    (hC : ∀ o ∈ w'.trace, o.RemovesFirst) (ht : t.Silent) (hpace : pace.Holds (wtrs s.1).protocol w'.trace) :
    Spends pace wtrs s w w' := by
  cases t with
  | look =>
    obtain rfl := Option.some.inj h
    exact .same hw rfl rfl rfl
  | act a =>
    refine ⟨turn_tidy h hw (fun dpkt pkt ms heq => ?_) hC, _, step_sent h hw.shaped,
      step_sends h hw.shaped hw.current hC ht s hpace⟩
    cases heq
    exact ht

end

omit [DecidableEq κ] in
theorem tidy_start (wtrs : ι → Ccwriter κ) (slots : Slot ι → Timeval × Timeval) (channels : κ → Channel) :
    Tidy wtrs (start slots channels) :=
  ⟨shaped_start slots channels, current_start wtrs slots channels⟩

end Protozoa.Engine
