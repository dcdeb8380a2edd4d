import Protozoa.Engine.Queue

/-!
# What a step of the engine can do

Every function of the engine returns in any state it can be in. What each can do is said once, as a
relation, and every invariant of the later modules is proved from these:

* `Writes` says what `ccwriter_do_write` (`ccwriter.c:188-217`) does: nothing, or one `defer_packet`
  of the slot of the receiver, for the packet it was called with or for what `do_write` has left of
  it.
* `Sends` is `defer_packet_now` (`defer.c:91-96`), `Nexts` is `defer_next` (`defer.c:101-111`), and
  `Follows` is one action of a run (`step_follows`).
* `Alike` and `Quiet`: two states that differ in nothing the queue depends on, and in no packet of a
  slot.
* `run_induction`, `run_induction_of`: what an action keeps holds after every run; the second for
  what is kept as long as something holds of the trace.

At the end are the writers, clocks and packets that examples of the later modules share.
-/

namespace Protozoa.Engine

open Clump Lib.SortedBag

variable {ι κ : Type}

/-- The two states differ in the clock, the channels, what is in the slots besides their due times,
and in what has been observed. -/
structure Alike (w w' : World ι κ) (new : List (Obs ι)) : Prop where
  tree : w'.tree = w.tree
  timer : w'.timer = w.timer
  reading : w.reading ≤ w'.reading
  tv : ∀ s, (w'.slots s).tv = (w.slots s).tv
  trace : w'.trace = new ++ w.trace

/-- The packets in the slots are the same, too. -/
structure Quiet (w w' : World ι κ) (new : List (Obs ι)) : Prop extends Alike w w' new where
  packet : ∀ s, (w'.slots s).packet = (w.slots s).packet

namespace Alike

variable {w w' : World ι κ} {new : List (Obs ι)}

theorem queue (h : Alike w w' new) : w'.queue = w.queue := by
  unfold World.queue
  rw [h.tree]

theorem shaped (h : Alike w w' new) (hw : Shaped w) : Shaped w' := by
  obtain ⟨t, ht⟩ := hw
  exact ⟨t, h.tree ▸ ht⟩

theorem comparePkts (h : Alike w w' new) :
    Engine.comparePkts w'.slots = Engine.comparePkts w.slots := by
  funext s s'
  unfold Engine.comparePkts
  rw [h.tv, h.tv]

theorem sorted (h : Alike w w' new) (hw : w.Sorted) : w'.Sorted := by
  unfold World.Sorted
  rw [h.comparePkts, h.queue]
  exact hw

theorem wakes {os : Os} (h : Alike w w' new) (hw : w.Wakes os) : w'.Wakes os := by
  intro s hs
  rw [h.queue] at hs
  rw [h.timer, h.tv]
  exact (hw s hs).later (os.mono h.reading)

theorem grows (h : Alike w w' new) : w.trace <:+ w'.trace := ⟨new, h.trace.symm⟩

theorem setSlot [DecidableEq ι] (w : World ι κ) (dpkt : Slot ι) (d : DeferredPkt)
    (htv : d.tv = (w.slots dpkt).tv) : Alike w (w.setSlot dpkt d) [] := by
  refine ⟨rfl, rfl, le_rfl, fun s => ?_, rfl⟩
  by_cases hs : s = dpkt
  · rw [hs, World.setSlot_slots_self, htv]
  · rw [World.setSlot_slots_of_ne w d hs]

end Alike

namespace Quiet

variable {w w' w'' : World ι κ} {new new' : List (Obs ι)}

theorem refl (w : World ι κ) : Quiet w w [] :=
  ⟨⟨rfl, rfl, le_rfl, fun _ => rfl, rfl⟩, fun _ => rfl⟩

theorem tick (w : World ι κ) : Quiet w w.tick [] :=
  ⟨⟨rfl, rfl, Nat.le_succ _, fun _ => rfl, rfl⟩, fun _ => rfl⟩

theorem send (w : World ι κ) (i : ι) (pkt : Ccpacket) (channels : κ → Channel) :
    Quiet w ({ w.tick with channels := channels }.observe (.write i pkt)) [.write i pkt] :=
  ⟨⟨rfl, rfl, Nat.le_succ _, fun _ => rfl, rfl⟩, fun _ => rfl⟩

theorem trans (h : Quiet w w' new) (h' : Quiet w' w'' new') : Quiet w w'' (new' ++ new) :=
  ⟨⟨h'.tree.trans h.tree, h'.timer.trans h.timer, h.reading.trans h'.reading,
    fun s => (h'.tv s).trans (h.tv s), by rw [h'.trace, h.trace, List.append_assoc]⟩,
    fun s => (h'.packet s).trans (h.packet s)⟩

theorem setSlot [DecidableEq ι] (w : World ι κ) (dpkt : Slot ι) (d : DeferredPkt)
    (htv : d.tv = (w.slots dpkt).tv) (hpacket : d.packet = (w.slots dpkt).packet) :
    Quiet w (w.setSlot dpkt d) [] := by
  refine ⟨Alike.setSlot w dpkt d htv, fun s => ?_⟩
  by_cases hs : s = dpkt
  · rw [hs, World.setSlot_slots_self, hpacket]
  · rw [World.setSlot_slots_of_ne w d hs]

end Quiet

/-! ## The relations -/

/-- The slot of a receiver. -/
def slotOf (i : ι) (pkt : Ccpacket) : Slot ι := (i, (pkt.receiver - 1).toNat)

/-- The receiver is one of the writer's. -/
def InRange (wtrs : ι → Ccwriter κ) (i : ι) (pkt : Ccpacket) : Prop :=
  0 < pkt.receiver ∧ pkt.receiver ≤ (wtrs i).protocol.nRcv

/-- What `ccwriter_do_write` does, and the packet as it leaves it. -/
inductive Writes (os : Os) (wtrs : ι → Ccwriter κ) (w : World ι κ) (i : ι) (pkt : Ccpacket) :
    Ccpacket → World ι κ → Prop
  | unknown (hrange : ¬InRange wtrs i pkt) : Writes os wtrs w i pkt pkt w
  | tooSoon {w₁ w' : World ι κ} (hrange : InRange wtrs i pkt) (h₁ : Quiet w w₁ [])
      (hdefer : Defers os w₁ w' (slotOf i pkt) (some pkt)) : Writes os wtrs w i pkt pkt w'
  | written {w₁ w₂ w' : World ι κ} {again : Option Ccpacket} (hrange : InRange wtrs i pkt)
      (h₁ : Quiet w w₁ [.write i pkt]) (hdefer : Defers os w₁ w₂ (slotOf i pkt) again)
      (hagain : again = none ∨ again = some ((wtrs i).protocol.adjust pkt)) (h₂ : Quiet w₂ w' []) :
      Writes os wtrs w i pkt ((wtrs i).protocol.adjust pkt) w'

theorem Writes.shaped {os : Os} {wtrs : ι → Ccwriter κ} {w w' : World ι κ} {i : ι}
    {pkt pkt' : Ccpacket} (h : Writes os wtrs w i pkt pkt' w') (hw : Shaped w) : Shaped w' := by
  cases h with
  | unknown => exact hw
  | tooSoon _ _ hdefer => exact hdefer.shaped
  | written _ _ hdefer _ h₂ => exact h₂.shaped hdefer.shaped

theorem Rearms.grows {os : Os} {w w' : World ι κ} (h : Rearms os w w') : w.trace <:+ w'.trace := by
  obtain ⟨new, htrace, -⟩ := h.new
  exact ⟨new, htrace.symm⟩

theorem Defers.grows {os : Os} {w w' : World ι κ} {dpkt : Slot ι} {pkt : Option Ccpacket}
    (h : Defers os w w' dpkt pkt) : w.trace <:+ w'.trace := by
  obtain ⟨new, htrace, -⟩ := h.trace
  rw [htrace]
  exact (List.suffix_cons _ _).trans ((List.suffix_cons _ _).trans (List.suffix_append _ _))

theorem Writes.grows {os : Os} {wtrs : ι → Ccwriter κ} {w w' : World ι κ} {i : ι}
    {pkt pkt' : Ccpacket} (h : Writes os wtrs w i pkt pkt' w') : w.trace <:+ w'.trace := by
  cases h with
  | unknown => exact List.suffix_rfl
  | tooSoon _ h₁ hdefer => exact h₁.grows.trans hdefer.grows
  | written _ h₁ hdefer _ h₂ => exact h₁.grows.trans (hdefer.grows.trans h₂.grows)

variable [DecidableEq ι]

/-- The slot has a new due time, while its packet is written. -/
def handed (os : Os) (wtrs : ι → Ccwriter κ) (w : World ι κ) (dpkt : Slot ι) : World ι κ :=
  (w.tick.observe (.hand dpkt (w.slots dpkt).tv (os.clock w.reading))).setSlot dpkt
    { w.slots dpkt with
      tv := timevalAdjust (os.clock w.reading) (wtrs dpkt.1).protocol.timeout }

theorem handed_slots_of_ne (os : Os) (wtrs : ι → Ccwriter κ) (w : World ι κ) {dpkt s : Slot ι}
    (h : s ≠ dpkt) : (handed os wtrs w dpkt).slots s = w.slots s :=
  World.setSlot_slots_of_ne _ _ h

@[simp] theorem handed_packet (os : Os) (wtrs : ι → Ccwriter κ) (w : World ι κ) (dpkt : Slot ι) :
    ((handed os wtrs w dpkt).slots dpkt).packet = (w.slots dpkt).packet := by
  simp [handed]

@[simp] theorem handed_nCnt (os : Os) (wtrs : ι → Ccwriter κ) (w : World ι κ) (dpkt : Slot ι) :
    ((handed os wtrs w dpkt).slots dpkt).nCnt = (w.slots dpkt).nCnt := by
  simp [handed]

@[simp] theorem handed_sent (os : Os) (wtrs : ι → Ccwriter κ) (w : World ι κ) (dpkt : Slot ι) :
    ((handed os wtrs w dpkt).slots dpkt).sent = (w.slots dpkt).sent := by
  simp [handed]

/-- What `defer_packet_now` does. -/
inductive Sends (os : Os) (wtrs : ι → Ccwriter κ) (w : World ι κ) (dpkt : Slot ι) :
    World ι κ → Prop
  | mk {w₁ w₂ : World ι κ} {pkt : Ccpacket} (hremove : Removes w w₁ dpkt)
      (hwrite : Writes os wtrs (handed os wtrs w₁ dpkt) dpkt.1 (w₁.slots dpkt).packet pkt w₂) :
      Sends os wtrs w dpkt (w₂.setSlot dpkt { w₂.slots dpkt with packet := pkt })

theorem Sends.shaped {os : Os} {wtrs : ι → Ccwriter κ} {w w' : World ι κ} {dpkt : Slot ι}
    (h : Sends os wtrs w dpkt w') : Shaped w' := by
  obtain ⟨hremove, hwrite⟩ := h
  exact hwrite.shaped hremove.shaped

theorem Sends.grows {os : Os} {wtrs : ι → Ccwriter κ} {w w' : World ι κ} {dpkt : Slot ι}
    (h : Sends os wtrs w dpkt w') : w.trace <:+ w'.trace := by
  obtain ⟨hremove, hwrite⟩ := h
  refine List.IsSuffix.trans ?_ hwrite.grows
  refine List.IsSuffix.trans ?_ (List.suffix_cons _ _)
  exact ⟨[.remove dpkt (w.slots dpkt).tv w.entries], hremove.trace.symm⟩

/-- A wake-up has been taken from the pipe. -/
def woken (w : World ι κ) : World ι κ := { w with timer := (timerRead w.timer).2 }

/-- What `defer_next` does. -/
inductive Nexts (os : Os) (wtrs : ι → Ccwriter κ) (w : World ι κ) : World ι κ → Prop
  | asleep (hpipe : w.timer.pipe = 0) : Nexts os wtrs w w
  | idle {w' : World ι κ} (hpipe : 0 < w.timer.pipe) (hqueue : w.queue.head? = none)
      (hrearm : Rearms os (woken w) w') : Nexts os wtrs w w'
  | first {w₁ w' : World ι κ} {dpkt : Slot ι} (hpipe : 0 < w.timer.pipe)
      (hqueue : w.queue.head? = some dpkt) (hsend : Sends os wtrs (woken w) dpkt w₁)
      (hrearm : Rearms os w₁ w') : Nexts os wtrs w w'

/-- What one action does. -/
inductive Follows (os : Os) (wtrs : ι → Ccwriter κ) (w : World ι κ) : Action ι κ → World ι κ → Prop
  | submit {i : ι} {pkt pkt' : Ccpacket} {w' : World ι κ}
      (hwrite : Writes os wtrs (w.observe (.submit i pkt)) i pkt pkt' w') :
      Follows os wtrs w (.submit i pkt) w'
  | defer {dpkt : Slot ι} {pkt : Option Ccpacket} {ms : Nat} {w' : World ι κ}
      (hdefer : Defers os w w' dpkt pkt) : Follows os wtrs w (.defer dpkt pkt ms) w'
  | next {w' : World ι κ} (hnext : Nexts os wtrs w w') : Follows os wtrs w .next w'
  | alarm (hexpired : w.timer.expired (os.clock w.reading) = true) :
      Follows os wtrs w .alarm { w with timer := timerHandler os w.timer }
  | quiet : Follows os wtrs w .alarm w
  | channel {k : κ} {chn : Channel} {channels : κ → Channel} :
      Follows os wtrs w (.channel k chn) { w with channels := channels }

theorem Follows.shaped {os : Os} {wtrs : ι → Ccwriter κ} {w w' : World ι κ} {a : Action ι κ}
    (h : Follows os wtrs w a w') (hw : Shaped w) : Shaped w' := by
  cases h with
  | submit hwrite => exact hwrite.shaped hw
  | defer hdefer => exact hdefer.shaped
  | next hnext =>
    cases hnext with
    | asleep => exact hw
    | idle _ _ hrearm => exact hrearm.shaped hw
    | first _ _ hsend hrearm => exact hrearm.shaped hsend.shaped
  | alarm => exact hw
  | quiet => exact hw
  | channel => exact hw

theorem Follows.grows {os : Os} {wtrs : ι → Ccwriter κ} {w w' : World ι κ} {a : Action ι κ}
    (h : Follows os wtrs w a w') : w.trace <:+ w'.trace := by
  cases h with
  | submit hwrite => exact (List.suffix_cons _ _).trans hwrite.grows
  | defer hdefer => exact hdefer.grows
  | next hnext =>
    cases hnext with
    | asleep => exact List.suffix_rfl
    | idle _ _ hrearm => exact hrearm.grows
    | first _ _ hsend hrearm => exact hsend.grows.trans hrearm.grows
  | alarm => exact List.suffix_rfl
  | quiet => exact List.suffix_rfl
  | channel => exact List.suffix_rfl

/-! ## The functions -/

theorem ccwriterCheckDeferred_spec (os : Os) (wtrs : ι → Ccwriter κ) {w : World ι κ} (h : Shaped w)
    (i : ι) (pkt : Ccpacket) (dpkt : Slot ι) :
    ∃ w₁ w₂ w' again, ccwriterCheckDeferred os wtrs w i pkt dpkt = some w' ∧ Quiet w w₁ [] ∧
      Defers os w₁ w₂ dpkt again ∧ (again = none ∨ again = some pkt) ∧ Quiet w₂ w' [] := by
  set w₀ := w.tick.setSlot dpkt { w.slots dpkt with sent := os.clock w.reading } with hw₀
  have h₀ : Quiet w w₀ [] := (Quiet.tick w).trans
    (Quiet.setSlot w.tick dpkt { w.slots dpkt with sent := os.clock w.reading } rfl rfl)
  simp only [ccwriterCheckDeferred]
  by_cases hstop : ccpacketIsStop pkt = true
  · rw [if_pos hstop]
    by_cases hcnt : (w₀.slots dpkt).nCnt < 1
    · obtain ⟨r, w₂, hrun, hdefer⟩ := deferPacket_defers os (h₀.shaped h) dpkt (some pkt)
        (wtrs i).protocol.gaptime
      refine ⟨w₀, w₂, _, some pkt, ?_, h₀, hdefer, Or.inr rfl, Quiet.setSlot w₂ dpkt
        { w₂.slots dpkt with nCnt := (w₂.slots dpkt).nCnt + 1 } rfl rfl⟩
      rw [if_pos hcnt, hrun]
      rfl
    · set w₁ := w₀.setSlot dpkt { w₀.slots dpkt with nCnt := 0 } with hw₁
      have h₁ : Quiet w w₁ [] :=
        h₀.trans (Quiet.setSlot w₀ dpkt { w₀.slots dpkt with nCnt := 0 } rfl rfl)
      obtain ⟨r, w₂, hrun, hdefer⟩ := deferPacket_defers os (h₁.shaped h) dpkt none 0
      refine ⟨w₁, w₂, w₂, none, ?_, h₁, hdefer, Or.inl rfl, .refl w₂⟩
      rw [if_neg hcnt, hrun]
      rfl
  · rw [if_neg hstop]
    have h₁ : Quiet w w₀.tick [] := h₀.trans (Quiet.tick w₀)
    by_cases hexpired : ccpacketIsExpired (os.clock w₀.reading) pkt (wtrs i).protocol.timeout = true
    · obtain ⟨r, w₂, hrun, hdefer⟩ := deferPacket_defers os (h₁.shaped h) dpkt (some pkt)
        (wtrs i).protocol.timeout
      refine ⟨w₀.tick, w₂, w₂, some pkt, ?_, h₁, hdefer, Or.inr rfl, .refl w₂⟩
      rw [if_pos hexpired, hrun]
      rfl
    · obtain ⟨r, w₂, hrun, hdefer⟩ := deferPacket_defers os (h₁.shaped h) dpkt none 0
      refine ⟨w₀.tick, w₂, w₂, none, ?_, h₁, hdefer, Or.inl rfl, .refl w₂⟩
      rw [if_neg hexpired, hrun]
      rfl

variable [DecidableEq κ]

/-- **`ccwriter_do_write`** in any state. -/
theorem ccwriterDoWrite_writes (os : Os) (wtrs : ι → Ccwriter κ) {w : World ι κ} (h : Shaped w)
    (i : ι) (pkt : Ccpacket) :
    ∃ c pkt' w', ccwriterDoWrite os wtrs w i pkt = some (c, pkt', w') ∧
      Writes os wtrs w i pkt pkt' w' := by
  by_cases hrange : InRange wtrs i pkt
  · rw [show ccwriterDoWrite os wtrs w i pkt = ccwriterDoWrite_ os wtrs w i pkt from if_pos hrange]
    have h₁ : Quiet w w.tick [] := .tick w
    simp only [ccwriterDoWrite_]
    by_cases hsoon : timeSince (os.clock w.reading) (w.tick.slots (slotOf i pkt)).sent <
        (wtrs i).protocol.gaptime
    · obtain ⟨r, w', hrun, hdefer⟩ := deferPacket_defers os (h₁.shaped h) (slotOf i pkt) (some pkt)
        (wtrs i).protocol.gaptime
      refine ⟨0, pkt, w', ?_, .tooSoon hrange h₁ hdefer⟩
      refine (if_pos hsoon).trans ?_
      unfold slotOf at hrun
      rw [hrun]
      rfl
    · have hspec := doWrite_spec (wtrs i).protocol (wtrs i).auth
        (channelIsOpen (w.channels (wtrs i).chn)) (w.channels (wtrs i).chn).txbuf hrange.1 hrange.2
      obtain ⟨txbuf, hwrite⟩ : ∃ txbuf, (wtrs i).protocol.doWrite (wtrs i).auth
          (channelIsOpen (w.channels (wtrs i).chn)) (w.channels (wtrs i).chn).txbuf pkt =
            (txbuf, (wtrs i).protocol.adjust pkt, 1) := ⟨_, Prod.ext rfl hspec⟩
      have h₂ := Quiet.send w i pkt (Function.update w.channels (wtrs i).chn
        { w.channels (wtrs i).chn with txbuf := txbuf })
      obtain ⟨w₃, w₄, w', again, hrun, h₃, hdefer, hagain, h₄⟩ := ccwriterCheckDeferred_spec os wtrs
        (h₂.shaped h) i ((wtrs i).protocol.adjust pkt) (slotOf i pkt)
      refine ⟨1, _, w', ?_, .written hrange (h₂.trans h₃) hdefer hagain h₄⟩
      refine (if_neg hsoon).trans ?_
      rw [show w.tick.channels = w.channels from rfl, hwrite]
      unfold slotOf at hrun
      simp only [gt_iff_lt, Nat.zero_lt_one, if_true]
      rw [hrun]
      rfl
  · exact ⟨0, pkt, w, if_neg hrange, .unknown hrange⟩

theorem deferPacketNow_sends (os : Os) (wtrs : ι → Ccwriter κ) {w : World ι κ} (h : Shaped w)
    (dpkt : Slot ι) :
    ∃ w', deferPacketNow os wtrs w dpkt = some w' ∧ Sends os wtrs w dpkt w' := by
  obtain ⟨w₁, hrun₁, hremove⟩ := deferRemove_removes h dpkt
  obtain ⟨c, pkt, w₂, hrun₂, hwrite⟩ := @ccwriterDoWrite_writes ι κ _ _ os wtrs
    (handed os wtrs w₁ dpkt) hremove.shaped dpkt.1 (w₁.slots dpkt).packet
  refine ⟨_, ?_, .mk hremove hwrite⟩
  rw [← handed_packet os wtrs w₁ dpkt] at hrun₂
  simp only [deferPacketNow, hrun₁, Option.bind_eq_bind, Option.bind_some]
  unfold handed at hrun₂
  exact (congrArg (Option.bind · _) hrun₂).trans rfl

/-- With no wake-up in the pipe, `defer_next` gives up. -/
theorem deferNext_asleep (os : Os) (wtrs : ι → Ccwriter κ) {w : World ι κ} (hpipe : w.timer.pipe = 0) :
    deferNext os wtrs w = some (-1, w) := by
  simp [deferNext, timerRead, hpipe]

omit [DecidableEq ι] [DecidableEq κ] in
theorem timerRead_woken {w : World ι κ} (hpipe : w.timer.pipe ≠ 0) :
    timerRead w.timer = (1, (woken w).timer) := by
  simp [woken, timerRead, hpipe]

/-- With an empty queue, `defer_next` only takes the wake-up. -/
theorem deferNext_idle (os : Os) (wtrs : ι → Ccwriter κ) {w : World ι κ} (h : Shaped w)
    (hpipe : w.timer.pipe ≠ 0) (hhead : w.queue.head? = none) :
    deferNext os wtrs w = deferRearm os (woken w) := by
  have hpeek := h.peek
  rw [hhead] at hpeek
  simp only [deferNext, timerRead_woken hpipe, hpeek]
  rfl

/-- Else `defer_next` hands over the first slot. -/
theorem deferNext_first (os : Os) (wtrs : ι → Ccwriter κ) {w : World ι κ} {dpkt : Slot ι} (h : Shaped w)
    (hpipe : w.timer.pipe ≠ 0) (hhead : w.queue.head? = some dpkt) :
    deferNext os wtrs w = (deferPacketNow os wtrs (woken w) dpkt).bind (deferRearm os) := by
  have hpeek := h.peek
  rw [hhead] at hpeek
  simp only [deferNext, timerRead_woken hpipe, hpeek]
  rfl

/-- **`defer_next`** in any state. -/
theorem deferNext_nexts (os : Os) (wtrs : ι → Ccwriter κ) {w : World ι κ} (h : Shaped w) :
    ∃ r w', deferNext os wtrs w = some (r, w') ∧ Nexts os wtrs w w' := by
  have hshaped : Shaped (woken w) := h
  by_cases hpipe : w.timer.pipe = 0
  · exact ⟨-1, w, deferNext_asleep os wtrs hpipe, .asleep hpipe⟩
  · have hpos : 0 < w.timer.pipe := Nat.pos_of_ne_zero hpipe
    cases hhead : w.queue.head? with
    | none =>
      obtain ⟨r, w', hrun, hrearm⟩ := deferRearm_rearms os hshaped
      exact ⟨r, w', (deferNext_idle os wtrs h hpipe hhead).trans hrun, .idle hpos hhead hrearm⟩
    | some dpkt =>
      obtain ⟨w₁, hrun₁, hsend⟩ := deferPacketNow_sends os wtrs hshaped dpkt
      obtain ⟨r, w', hrun, hrearm⟩ := deferRearm_rearms os hsend.shaped
      refine ⟨r, w', ?_, .first hpos hhead hsend hrearm⟩
      rw [deferNext_first os wtrs h hpipe hhead, hrun₁]
      exact hrun

/-- **Every action** can be taken in any state. -/
theorem step_follows (os : Os) (wtrs : ι → Ccwriter κ) {w : World ι κ} (h : Shaped w)
    (a : Action ι κ) : ∃ w', step os wtrs w a = some w' ∧ Follows os wtrs w a w' := by
  cases a with
  | submit i pkt =>
    obtain ⟨c, pkt', w', hrun, hwrite⟩ := @ccwriterDoWrite_writes ι κ _ _ os wtrs
      (w.observe (.submit i pkt)) h i pkt
    exact ⟨w', by simp [step, hrun], .submit hwrite⟩
  | defer dpkt pkt ms =>
    obtain ⟨r, w', hrun, hdefer⟩ := deferPacket_defers os h dpkt pkt ms
    exact ⟨w', by simp [step, hrun], .defer hdefer⟩
  | next =>
    obtain ⟨r, w', hrun, hnext⟩ := deferNext_nexts os wtrs h
    exact ⟨w', by simp [step, hrun], .next hnext⟩
  | alarm =>
    by_cases hexpired : w.timer.expired (os.clock w.reading) = true
    · exact ⟨_, if_pos hexpired, .alarm hexpired⟩
    · exact ⟨w, if_neg hexpired, .quiet⟩
  | channel k chn => exact ⟨_, rfl, .channel⟩

/-- **A run** returns, and what every action of it keeps holds at its end. -/
theorem run_induction {os : Os} {wtrs : ι → Ccwriter κ} {motive : World ι κ → Prop}
    (actions : List (Action ι κ))
    (hstep : ∀ a ∈ actions, ∀ {w w' : World ι κ}, Shaped w → motive w → Follows os wtrs w a w' →
      motive w') {w : World ι κ} (hw : Shaped w) (hm : motive w) :
    ∃ w', run os wtrs w actions = some w' ∧ Shaped w' ∧ motive w' := by
  induction actions generalizing w with
  | nil => exact ⟨w, rfl, hw, hm⟩
  | cons a actions ih =>
    obtain ⟨w₁, hrun₁, hfollows⟩ := step_follows os wtrs hw a
    obtain ⟨w', hrun, hw', hm'⟩ := ih (fun b hb => hstep b (List.mem_cons_of_mem a hb))
      (hfollows.shaped hw) (hstep a List.mem_cons_self hw hm hfollows)
    refine ⟨w', ?_, hw', hm'⟩
    rw [run, List.foldlM_cons, hrun₁]
    exact hrun

/-- The same in a run in which everything that happens is as `C` says. -/
theorem run_induction_of {os : Os} {wtrs : ι → Ccwriter κ} {motive : World ι κ → Prop}
    (C : Obs ι → Prop) (actions : List (Action ι κ))
    (hstep : ∀ a ∈ actions, ∀ {w w' : World ι κ}, Shaped w → motive w → Follows os wtrs w a w' →
      (∀ o ∈ w'.trace, C o) → motive w') {w : World ι κ} (hw : Shaped w) (hm : motive w) :
    ∃ w', run os wtrs w actions = some w' ∧ Shaped w' ∧ ((∀ o ∈ w'.trace, C o) → motive w') := by
  refine run_induction actions (fun a ha w w' hw hm hfollows hC => ?_) hw fun _ => hm
  exact hstep a ha hw (hm fun o ho => hC o (hfollows.grows.subset ho)) hfollows hC

/-! ## Two writers on one line -/

def pelcoWriters : Bool → Ccwriter Unit := fun _ => ⟨.pelcoD, (), none⟩

/-- Both have just been started. -/
def startPair : World Bool Unit :=
  start (fun _ => (⟨1, 0⟩, ⟨1, 0⟩)) fun _ => channelInit "/dev/ttyS0".toList 0

/-- A packet that stops receiver 1. -/
def stopPacket : Ccpacket := ccpacketSetReceiver (ccpacketCreate ⟨1, 0⟩) 1

/-- A packet that pans receiver 1. -/
def panPacket : Ccpacket := ccpacketSetPan stopPacket ccPanRight 1024

/-- Readings one second apart. -/
def ticks (n : Nat) : Timeval := ⟨Int.ofNat (n + 2), 0⟩

theorem ticks_normal (n : Nat) : (ticks n).Normal :=
  ⟨Int.le_refl 0, Int.ofNat_lt.mpr (Nat.zero_lt_succ 999999)⟩

theorem ticks_mono {m n : Nat} (h : m ≤ n) : (ticks m).toUsec ≤ (ticks n).toUsec := by
  simp only [ticks, Timeval.toUsec, Int.ofNat_eq_natCast]
  omega

/-- A clock that is read once a second. -/
def ticking : Os := ⟨ticks, ticks_normal, ticks_mono, 65536⟩

/-- Readings that are the same `n` times, and then all one fifth of a second later. -/
def pauses (n m : Nat) : Timeval := ⟨1, if m < n then 0 else 200000⟩

theorem pauses_normal (n m : Nat) : (pauses n m).Normal := by
  unfold pauses Timeval.Normal
  split <;> decide

theorem pauses_mono (n : Nat) {l m : Nat} (h : l ≤ m) :
    (pauses n l).toUsec ≤ (pauses n m).toUsec := by
  simp only [pauses, Timeval.toUsec]
  omega

/-- A clock that stands still while it is read `n` times, and then goes on by a fifth of a second.
-/
def pausing (n : Nat) : Os := ⟨pauses n, pauses_normal n, pauses_mono n, 65536⟩

/-- Readings one millisecond apart, but one fifth of a second between the first `n` and the others.
-/
def steps (n m : Nat) : Timeval :=
  let ms := if m < n then m else m + 200
  ⟨1 + (ms / 1000 : Nat), (ms % 1000 * 1000 : Nat)⟩

theorem steps_normal (n m : Nat) : (steps n m).Normal := by
  unfold steps Timeval.Normal
  dsimp only
  omega

theorem steps_mono (n : Nat) {l m : Nat} (h : l ≤ m) : (steps n l).toUsec ≤ (steps n m).toUsec := by
  simp only [steps, Timeval.toUsec]
  split <;> split <;> omega

/-- A clock that goes on whenever it is read. -/
def stepping (n : Nat) : Os := ⟨steps n, steps_normal n, steps_mono n, 65536⟩

end Protozoa.Engine
