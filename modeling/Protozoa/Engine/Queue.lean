import Protozoa.Engine.Defer

/-!
# The queue of the engine

What the functions of `defer.c` do to the queue, whatever the due times in it are: they return, and
leave a red-black tree (`Shaped`). It need not be sorted, since a slot that is queued may get
another due time (`defer.c:74-86` takes it out first, but by the time it is due).

* `Removes`, `deferRemove_removes`: `cl_rbtree_remove` changes the queue alone, and in a sorted
  queue takes out the first slot that is due at the same time, if there is one.
* `Rearms`, `deferRearm_rearms`: `defer_rearm` (`defer.c:63-69`) arms the timer for the first slot
  and changes nothing else.
* `Defers`, `deferPacket_defers`: `defer_packet` (`defer.c:74-86`) takes a slot out and, if there is
  a packet, puts it in again.
* `World.Sorted`, `World.Wakes`, `World.Armed`: what a run may or may not keep; each later module
  takes up one of them.
-/

namespace Protozoa.Engine

open Clump Lib.SortedBag

variable {ι κ : Type}

/-- The tree is a red-black tree. -/
def Shaped (w : World ι κ) : Prop := ∃ t, Represents w.tree t

/-- The queue is in order of the due times. -/
def World.Sorted (w : World ι κ) : Prop := Lib.SortedBag.Sorted (comparePkts w.slots) w.queue

theorem shaped_start (slots : Slot ι → Timeval × Timeval) (channels : κ → Channel) :
    Shaped (start slots channels) := ⟨_, represents_init⟩

theorem queue_start (slots : Slot ι → Timeval × Timeval) (channels : κ → Channel) :
    (start slots channels : World ι κ).queue = [] := clRbtreeForEach_spec represents_init

/-- The leftmost node has the first slot of the queue. -/
theorem Shaped.peek {w : World ι κ} (h : Shaped w) : clRbtreePeek w.tree = some w.queue.head? := by
  obtain ⟨t, ht⟩ := h
  rw [clRbtreePeek_spec ht, World.queue, clRbtreeForEach_spec ht]

theorem comparePkts_eq {slots : Slot ι → DeferredPkt} {s s' : Slot ι} :
    comparePkts slots s s' = .eq ↔ (slots s).tv = (slots s').tv := timevalCompare_eq

/-! ## `cl_rbtree_remove` -/

/-- A slot has been looked up and taken out. -/
structure Removes (w w' : World ι κ) (dpkt : Slot ι) : Prop where
  shaped : Shaped w'
  slots : w'.slots = w.slots
  timer : w'.timer = w.timer
  reading : w'.reading = w.reading
  trace : w'.trace = .remove dpkt (w.slots dpkt).tv w.entries :: w.trace
  queue : w.Sorted → w'.queue = (remove (comparePkts w.slots) dpkt w.queue).2

theorem deferRemove_removes {w : World ι κ} (h : Shaped w) (dpkt : Slot ι) :
    ∃ w', deferRemove w dpkt = some w' ∧ Removes w w' dpkt := by
  obtain ⟨t, ht⟩ := h
  obtain ⟨out, tree, t', hrun, ht', -, hsort, -⟩ :=
    @clRbtreeRemove_any _ (comparePkts w.slots) _ _ _ dpkt ht
  have hqueue : w.queue = t.inorder := clRbtreeForEach_spec ht
  refine ⟨{ w with tree := tree }.observe (.remove dpkt (w.slots dpkt).tv w.entries),
    by simp [deferRemove, hrun], ⟨t', ht'⟩, rfl, rfl, rfl, rfl, fun hs => ?_⟩
  rw [World.Sorted, hqueue] at hs
  rw [hqueue, hsort hs]
  exact clRbtreeForEach_spec ht'

/-! ## `defer_rearm` -/

/-- The first slot of the queue will not be woken up early. -/
def World.Wakes (os : Os) (w : World ι κ) : Prop :=
  ∀ s ∈ w.queue.head?, w.timer.Wakes (os.clock w.reading) (w.slots s).tv

/-- The first slot of the queue will be woken up. -/
def World.Armed (lag : Int) (w : World ι κ) : Prop :=
  ∀ s ∈ w.queue.head?, w.timer.Armed lag (w.slots s).tv

/-- The timer is armed with no wake-up left in the pipe, unless the slot it is armed for is due
within a millisecond. -/
def Obs.NotStale : Obs ι → Prop
  | .rearm pipe tv now => 0 < pipe → tv.toUsec ≤ now.toUsec + 1000
  | _ => True

/-- The timer has been armed for the first slot of the queue. -/
structure Rearms (os : Os) (w w' : World ι κ) : Prop where
  tree : w'.tree = w.tree
  slots : w'.slots = w.slots
  reading : w.reading ≤ w'.reading
  trace : w'.trace = w.trace ∨ ∃ pipe tv now, w'.trace = .rearm pipe tv now :: w.trace
  wakes : (∀ o ∈ w'.trace, o.NotStale) → w'.Wakes os
  armed : 0 < os.pipeSize → ∀ lag, os.Lag lag w.reading w'.reading → w'.Armed lag

theorem deferRearm_rearms (os : Os) {w : World ι κ} (h : Shaped w) :
    ∃ r w', deferRearm os w = some (r, w') ∧ Rearms os w w' := by
  have hpeek := h.peek
  cases hhead : w.queue.head? with
  | none =>
    rw [hhead] at hpeek
    have hrun : deferRearm os w = some ((timerDisarm w.timer).1,
        { w with timer := (timerDisarm w.timer).2 }) := by
      simp [deferRearm, hpeek]
    have hnone : ∀ s, s ∉ w.queue.head? := by
      intro s hs
      rw [hhead] at hs
      cases hs
    exact ⟨_, _, hrun, rfl, rfl, le_rfl, Or.inl rfl, fun _ s hs => absurd hs (hnone s),
      fun _ _ _ s hs => absurd hs (hnone s)⟩
  | some dpkt =>
    rw [hhead] at hpeek
    have hrun : deferRearm os w = some
        ((timerArm os (os.clock (w.reading + 1))
          (timeFromNow (os.clock w.reading) (w.slots dpkt).tv).toNat w.timer).1,
        { w.tick.tick.observe (.rearm w.timer.pipe (w.slots dpkt).tv (os.clock w.reading)) with
          timer := (timerArm os (os.clock (w.reading + 1))
            (timeFromNow (os.clock w.reading) (w.slots dpkt).tv).toNat w.timer).2 }) := by
      simp only [deferRearm, hpeek, Option.bind_eq_bind, Option.bind_some]
      rfl
    have hfirst : ∀ s ∈ w.queue.head?, dpkt = s := by
      intro s hs
      rw [hhead] at hs
      exact Option.some.inj hs
    refine ⟨_, _, hrun, rfl, rfl, Nat.le_add_right w.reading 2, Or.inr ⟨_, _, _, rfl⟩,
      fun hstale s hs => ?_, fun hpipe lag hlag s hs => ?_⟩
    · obtain rfl := hfirst s hs
      have hpipe := hstale _ List.mem_cons_self
      exact (wakes_timerArm (os.mono (Nat.le_succ w.reading)) hpipe).later (os.mono (Nat.le_succ _))
    · obtain rfl := hfirst s hs
      exact armed_timerArm hpipe (hlag (w.reading + 1) (Nat.le_succ _) (Nat.lt_succ_self _))

theorem Rearms.queue {os : Os} {w w' : World ι κ} (h : Rearms os w w') : w'.queue = w.queue := by
  unfold World.queue
  rw [h.tree]

theorem Rearms.entries {os : Os} {w w' : World ι κ} (h : Rearms os w w') : w'.entries = w.entries := by
  unfold World.entries
  rw [h.queue, h.slots]

theorem Rearms.shaped {os : Os} {w w' : World ι κ} (h : Rearms os w w') (hw : Shaped w) :
    Shaped w' := by
  obtain ⟨t, ht⟩ := hw
  exact ⟨t, h.tree ▸ ht⟩

/-- What the timer adds to the trace. -/
theorem Rearms.new {os : Os} {w w' : World ι κ} (h : Rearms os w w') :
    ∃ new, w'.trace = new ++ w.trace ∧ ∀ o ∈ new, ∃ pipe tv now, o = .rearm pipe tv now := by
  rcases h.trace with htrace | ⟨pipe, tv, now, htrace⟩
  · exact ⟨[], htrace, fun o ho => absurd ho List.not_mem_nil⟩
  · refine ⟨[.rearm pipe tv now], htrace, fun o ho => ?_⟩
    exact ⟨pipe, tv, now, List.mem_singleton.mp ho⟩

/-- Slots whose due times stay are in the same order. -/
theorem sorted_congr {slots slots' : Slot ι → DeferredPkt} {l l' : List (Slot ι)} {dpkt : Slot ι}
    (h : Lib.SortedBag.Sorted (comparePkts slots) l) (hsub : l'.Sublist l)
    (hne : ∀ s ∈ l', s ≠ dpkt) (hslots : ∀ s, s ≠ dpkt → slots' s = slots s) :
    Lib.SortedBag.Sorted (comparePkts slots') l' := by
  refine (h.sublist hsub).imp_of_mem fun {a b} ha hb hab => ?_
  unfold comparePkts
  rw [hslots a (hne a ha), hslots b (hne b hb)]
  exact hab

/-! ## `defer_packet` -/

variable [DecidableEq ι]

/-- A slot has been taken out of the queue, and put into it again if there is a packet. -/
structure Defers (os : Os) (w w' : World ι κ) (dpkt : Slot ι) (pkt : Option Ccpacket) : Prop where
  shaped : Shaped w'
  others : ∀ s, s ≠ dpkt → w'.slots s = w.slots s
  packet : ∀ p ∈ pkt, (w'.slots dpkt).packet = p
  kept : pkt = none → w'.slots dpkt = w.slots dpkt
  wakes : (∀ o ∈ w'.trace, o.NotStale) → w'.Wakes os
  reading : w.reading ≤ w'.reading
  armed : 0 < os.pipeSize → ∀ lag, os.Lag lag w.reading w'.reading → w'.Armed lag
  /-- The observations are the removal, the change of the queue, and the timer's. -/
  trace : ∃ new, w'.trace = new ++ .packet dpkt pkt.isSome w.entries w'.entries ::
      .remove dpkt (w.slots dpkt).tv w.entries :: w.trace ∧
    ∀ o ∈ new, ∃ pipe tv now, o = .rearm pipe tv now
  /-- The queue without the removed slot, then with `dpkt` somewhere in it, where the order says if
  there is one. -/
  queue : w.Sorted → ∃ l r, (remove (comparePkts w.slots) dpkt w.queue).2 = l ++ r ∧
    w'.queue = l ++ (if pkt.isSome then [dpkt] else []) ++ r ∧
    ((∀ s ∈ l ++ r, s ≠ dpkt) → w'.Sorted)

theorem deferPacket_none (os : Os) {w : World ι κ} (h : Shaped w) (dpkt : Slot ι) (ms : Nat) :
    ∃ r w', deferPacket os w dpkt none ms = some (r, w') ∧ Defers os w w' dpkt none := by
  obtain ⟨w₁, hremove, h₁⟩ := deferRemove_removes h dpkt
  obtain ⟨r, w', hrearm, h'⟩ := @deferRearm_rearms ι κ os
    (w₁.observe (.packet dpkt false w.entries w₁.entries)) h₁.shaped
  have hslots : w'.slots = w.slots := h'.slots.trans h₁.slots
  have hqueue : w'.queue = w₁.queue := h'.queue
  obtain ⟨new, htrace, hnew⟩ := h'.new
  refine ⟨r, w', by simp [deferPacket, hremove, hrearm], h'.shaped h₁.shaped, fun s _ => by rw [hslots],
    fun p hp => absurd hp (by simp), fun _ => by rw [hslots], h'.wakes, h₁.reading ▸ h'.reading,
    fun hpipe lag hlag => h'.armed hpipe lag (hlag.sub h₁.reading.ge le_rfl), ⟨new, ?_, hnew⟩,
    fun hs => ?_⟩
  · rw [htrace, h'.entries]
    exact congrArg (fun l => new ++ _ :: l) h₁.trace
  · have hq₁ := h₁.queue hs
    refine ⟨_, [], (List.append_nil _).symm, by simpa [hqueue] using hq₁, fun _ => ?_⟩
    rw [World.Sorted, hqueue, hq₁, hslots]
    exact sorted_remove hs

theorem deferPacket_some (os : Os) {w : World ι κ} (h : Shaped w) (dpkt : Slot ι) (pkt : Ccpacket)
    (ms : Nat) :
    ∃ r w', deferPacket os w dpkt (some pkt) ms = some (r, w') ∧
      Defers os w w' dpkt (some pkt) := by
  obtain ⟨w₁, hremove, h₁⟩ := deferRemove_removes h dpkt
  obtain ⟨t₁, ht₁⟩ := h₁.shaped
  set w₂ := w₁.tick.setSlot dpkt { w₁.slots dpkt with
    tv := timevalAdjust (os.clock w₁.reading) ms, packet := pkt } with hw₂
  obtain ⟨tree, t, hadd, ht, -, l, r, hlr, hord, hsort⟩ :=
    clRbtreeAdd_any (comparePkts w₂.slots) (v := dpkt) ht₁
  obtain ⟨res, w', hrearm, h'⟩ := @deferRearm_rearms ι κ os
    ({ w₂ with tree := tree }.observe
      (.packet dpkt true w.entries (World.entries { w₂ with tree := tree }))) ⟨t, ht⟩
  have hothers : ∀ s, s ≠ dpkt → w'.slots s = w.slots s := by
    intro s hs
    rw [h'.slots, ← h₁.slots]
    exact Function.update_of_ne hs _ _
  have hself : w'.slots dpkt = { w₁.slots dpkt with
      tv := timevalAdjust (os.clock w₁.reading) ms, packet := pkt } := by
    rw [h'.slots]
    exact Function.update_self _ _ _
  have hqueue : w'.queue = l ++ dpkt :: r := by
    rw [h'.queue, ← hord]
    exact clRbtreeForEach_spec ht
  obtain ⟨new, htrace, hnew⟩ := h'.new
  have hreading : w.reading ≤ w₂.reading := by
    rw [show w₂.reading = w₁.reading + 1 from rfl, h₁.reading]
    exact Nat.le_succ _
  refine ⟨res, w', ?_, h'.shaped ⟨t, ht⟩, hothers, fun p hp => ?_, (nomatch ·), h'.wakes,
    hreading.trans h'.reading,
    fun hpipe lag hlag => h'.armed hpipe lag (hlag.sub hreading le_rfl), ⟨new, ?_, hnew⟩,
    fun hs => ?_⟩
  · simp only [deferPacket, hremove, Option.bind_eq_bind, Option.bind_some]
    rw [show clRbtreeAdd (comparePkts w₂.slots) w₂.tree dpkt = some (dpkt, tree) from hadd]
    exact hrearm
  · rw [hself]
    exact Option.some.inj hp
  · rw [htrace, h'.entries]
    exact congrArg (fun l => new ++ _ :: l) h₁.trace
  · have hq₁ : w₁.queue = l ++ r := (clRbtreeForEach_spec ht₁).trans hlr
    refine ⟨l, r, (h₁.queue hs).symm.trans hq₁, by simp [hqueue], fun hne => ?_⟩
    -- The slots that stay have kept their due times, and the new one goes where its own says.
    have hsub : (l ++ r).Sublist w.queue := by
      rw [← hq₁, h₁.queue hs]
      exact List.eraseP_sublist
    have hs₁ := sorted_congr hs hsub hne hothers
    have hslots : w'.slots = w₂.slots := h'.slots
    rw [hslots, ← hlr] at hs₁
    obtain ⟨hl, hr⟩ := hsort hs₁
    rw [World.Sorted, hslots, hqueue, ← add_of_split hl hr, ← hlr]
    exact sorted_add hs₁

/-- **`defer_packet`** in any state. -/
theorem deferPacket_defers (os : Os) {w : World ι κ} (h : Shaped w) (dpkt : Slot ι)
    (pkt : Option Ccpacket) (ms : Nat) :
    ∃ r w', deferPacket os w dpkt pkt ms = some (r, w') ∧ Defers os w w' dpkt pkt := by
  cases pkt with
  | none => exact deferPacket_none os h dpkt ms
  | some pkt => exact deferPacket_some os h dpkt pkt ms

end Protozoa.Engine
