import Protozoa.Engine.Entry

/-!
# The latest packet

A writer may send a packet at once, keep it for later, send it again, or drop it. Whatever it does,
every packet it sends is the latest one that a reader has submitted for the receiver, or what the
writer's own menu adjustment has made of that (`FromLatest`), and so is every packet it keeps
(`Current`).

* `Stored`: what holds of the packet in a slot, by the cases of `Writes`.
* `Follows.current`: one action keeps it, if the slot that is looked up in it is the one that is
  found.
* **`writes_latest`**: this holds of every run in which no two queued slots are due in the same
  microsecond when one of them is looked up (`Obs.Unique`), since `cl_rbtree_remove` may take
  another slot otherwise (`Engine/Entry.lean`).
-/

namespace Protozoa.Engine

open Clump Lib.SortedBag

variable {ι κ : Type} [DecidableEq ι]

/-- The latest packet a reader has submitted to a writer for a receiver. -/
def latest (trace : List (Obs ι)) (i : ι) (receiver : Int) : Option Ccpacket :=
  trace.findSome? fun
    | .submit j pkt => if j = i ∧ pkt.receiver = receiver then some pkt else none
    | _ => none

/-- The packet is the latest one for its receiver, as submitted or as the writer adjusts it. -/
def FromLatest (wtrs : ι → Ccwriter κ) (trace : List (Obs ι)) (i : ι) (pkt : Ccpacket) : Prop :=
  ∃ B, latest trace i pkt.receiver = some B ∧ (pkt = B ∨ pkt = (wtrs i).protocol.adjust B)

/-- Every packet that has been written was the latest one by then. -/
def Fresh (wtrs : ι → Ccwriter κ) (trace : List (Obs ι)) : Prop :=
  ∀ i pkt earlier, (.write i pkt :: earlier) <:+ trace → FromLatest wtrs earlier i pkt

/-- No other queued slot is due at the same time as the one that is looked up. -/
def Obs.Unique : Obs ι → Prop
  | .remove dpkt tv queue => ∀ e ∈ queue, e.2 = tv → e.1 = dpkt
  | _ => True

instance : DecidablePred (Obs.Unique : Obs ι → Prop)
  | .submit .. => inferInstanceAs (Decidable True)
  | .write .. => inferInstanceAs (Decidable True)
  | .remove dpkt tv queue => inferInstanceAs (Decidable (∀ e ∈ queue, e.2 = tv → e.1 = dpkt))
  | .packet .. => inferInstanceAs (Decidable True)
  | .rearm .. => inferInstanceAs (Decidable True)
  | .hand .. => inferInstanceAs (Decidable True)

/-- `defer_packet` is called by the writers only. -/
def Action.ByWriters : Action ι κ → Prop
  | .defer .. => False
  | _ => True

omit [DecidableEq ι] in
theorem Obs.Unique.removesFirst {o : Obs ι} (h : o.Unique) : o.RemovesFirst := by
  cases o with
  | remove dpkt tv queue =>
    intro e he
    exact h e (List.mem_of_find?_eq_some he) (by simpa using List.find?_some he)
  | submit => trivial
  | write => trivial
  | packet => trivial
  | rearm => trivial
  | hand => trivial

/-! ## Observations of the queue -/

/-- Neither a packet that comes nor one that goes. -/
def Obs.Inner : Obs ι → Prop
  | .submit .. => False
  | .write .. => False
  | _ => True

section

variable {wtrs : ι → Ccwriter κ} {new trace : List (Obs ι)} {i : ι} {pkt : Ccpacket}

theorem latest_inner (hnew : ∀ o ∈ new, o.Inner) (i : ι) (receiver : Int) :
    latest (new ++ trace) i receiver = latest trace i receiver := by
  have hnone : latest new i receiver = none := by
    refine List.findSome?_eq_none_iff.mpr fun o ho => ?_
    have hinner := hnew o ho
    cases o with
    | submit => exact hinner.elim
    | write => rfl
    | remove => rfl
    | packet => rfl
    | rearm => rfl
    | hand => rfl
  unfold latest at hnone ⊢
  rw [List.findSome?_append, hnone, Option.none_or]

theorem FromLatest.inner (hnew : ∀ o ∈ new, o.Inner) (h : FromLatest wtrs trace i pkt) :
    FromLatest wtrs (new ++ trace) i pkt := by
  obtain ⟨B, hB, hpkt⟩ := h
  exact ⟨B, (latest_inner hnew i pkt.receiver).trans hB, hpkt⟩

theorem Fresh.inner (hnew : ∀ o ∈ new, o.Inner) (h : Fresh wtrs trace) : Fresh wtrs (new ++ trace) := by
  induction new with
  | nil => exact h
  | cons o new ih =>
    intro i pkt earlier hsuffix
    rcases List.suffix_cons_iff.mp hsuffix with heq | hsuffix
    · obtain ⟨rfl, -⟩ := List.cons.inj heq
      exact (hnew _ List.mem_cons_self).elim
    · exact ih (fun o' ho' => hnew o' (List.mem_cons_of_mem o ho')) i pkt earlier hsuffix

theorem Fresh.write (h : Fresh wtrs trace) (hpkt : FromLatest wtrs trace i pkt) :
    Fresh wtrs (.write i pkt :: trace) := by
  intro j pkt' earlier hsuffix
  rcases List.suffix_cons_iff.mp hsuffix with heq | hsuffix
  · obtain ⟨hwrite, rfl⟩ := List.cons.inj heq
    obtain ⟨rfl, rfl⟩ := Obs.write.inj hwrite
    exact hpkt
  · exact h j pkt' earlier hsuffix

theorem Fresh.submit (h : Fresh wtrs trace) : Fresh wtrs (.submit i pkt :: trace) := by
  intro j pkt' earlier hsuffix
  rcases List.suffix_cons_iff.mp hsuffix with heq | hsuffix
  · cases heq
  · exact h j pkt' earlier hsuffix

/-- What is adjusted a second time stays as it is. -/
theorem FromLatest.adjust (h : FromLatest wtrs trace i pkt) :
    FromLatest wtrs trace i ((wtrs i).protocol.adjust pkt) := by
  have hsettles := settles_adjust (wtrs i).protocol
  obtain ⟨B, hB, hpkt⟩ := h
  refine ⟨B, (congrArg (latest trace i) (hsettles.receiver pkt)).trans hB, Or.inr ?_⟩
  rcases hpkt with rfl | rfl
  · rfl
  · exact hsettles.twice B

end

/-! ## The packets that are kept -/

/-- A packet that may be in the slot. -/
structure Stored (wtrs : ι → Ccwriter κ) (trace : List (Obs ι)) (s : Slot ι) (pkt : Ccpacket) :
    Prop where
  range : (s.2 : Int) + 1 ≤ (wtrs s.1).protocol.nRcv
  receiver : pkt.receiver = s.2 + 1
  latest : FromLatest wtrs trace s.1 pkt

/-- The engine keeps the latest packets, in all queued slots but one. -/
structure Current (wtrs : ι → Ccwriter κ) (w : World ι κ) (but : Option (Slot ι)) : Prop
    extends Orderly w where
  fresh : Fresh wtrs w.trace
  stored : ∀ s ∈ w.queue, some s ≠ but → Stored wtrs w.trace s (w.slots s).packet

section

variable {os : Os} {wtrs : ι → Ccwriter κ} {trace : List (Obs ι)} {w w' : World ι κ} {i : ι}
  {s dpkt : Slot ι} {pkt pkt' : Ccpacket} {but : Option (Slot ι)}

theorem Stored.inner {new : List (Obs ι)} (hnew : ∀ o ∈ new, o.Inner)
    (h : Stored wtrs trace s pkt) : Stored wtrs (new ++ trace) s pkt :=
  ⟨h.range, h.receiver, h.latest.inner hnew⟩

theorem Stored.write (h : Stored wtrs trace s pkt) : Stored wtrs (.write i pkt' :: trace) s pkt :=
  ⟨h.range, h.receiver, h.latest⟩

theorem Stored.adjust (h : Stored wtrs trace s pkt) :
    Stored wtrs trace s ((wtrs s.1).protocol.adjust pkt) :=
  ⟨h.range, ((settles_adjust _).receiver pkt).trans h.receiver, h.latest.adjust⟩

theorem Stored.inRange (h : Stored wtrs trace s pkt) : InRange wtrs s.1 pkt := by
  have hreceiver := h.receiver
  have hrange := h.range
  constructor <;> omega

theorem stored_of_inRange (hrange : InRange wtrs i pkt) (hlatest : FromLatest wtrs trace i pkt) :
    Stored wtrs trace (slotOf i pkt) pkt := by
  obtain ⟨hpos, hle⟩ := hrange
  have hslot : ((slotOf i pkt).2 : Int) + 1 = pkt.receiver := by
    unfold slotOf
    omega
  exact ⟨hslot ▸ hle, hslot.symm, hlatest⟩

omit [DecidableEq ι] in
theorem slotOf_eq (h : pkt.receiver = s.2 + 1) : slotOf s.1 pkt = s := by
  unfold slotOf
  rw [h, Int.add_sub_cancel, Int.toNat_natCast]

theorem Quiet.current {new : List (Obs ι)} (h : Quiet w w' new) (hnew : ∀ o ∈ new, o.Inner)
    (hdefers : ∀ o ∈ new, o.DefersOnly) (hw : Current wtrs w but) : Current wtrs w' but := by
  refine ⟨h.orderly hdefers hw.toOrderly, ?_, fun s hs hne => ?_⟩
  · rw [h.trace]
    exact hw.fresh.inner hnew
  · rw [h.queue] at hs
    rw [h.trace, h.packet]
    exact (hw.stored s hs hne).inner hnew

omit [DecidableEq ι] in
theorem Rearms.inner (h : Rearms os w w') : ∃ new, w'.trace = new ++ w.trace ∧ ∀ o ∈ new, o.Inner := by
  obtain ⟨new, htrace, hnew⟩ := h.new
  refine ⟨new, htrace, fun o ho => ?_⟩
  obtain ⟨pipe, tv, now, rfl⟩ := hnew o ho
  trivial

theorem Rearms.current (h : Rearms os w w') (hw : Current wtrs w but) : Current wtrs w' but := by
  obtain ⟨new, htrace, hnew⟩ := h.inner
  refine ⟨h.orderly hw.toOrderly, ?_, fun s hs hne => ?_⟩
  · rw [htrace]
    exact hw.fresh.inner hnew
  · rw [h.queue] at hs
    rw [htrace, h.slots]
    exact (hw.stored s hs hne).inner hnew

omit [DecidableEq ι] in
theorem Defers.inner {again : Option Ccpacket} (h : Defers os w w' dpkt again) :
    ∃ new, w'.trace = new ++ w.trace ∧ ∀ o ∈ new, o.Inner := by
  obtain ⟨new, htrace, hnew⟩ := h.trace
  refine ⟨new ++ [.packet dpkt again.isSome w.entries w'.entries,
    .remove dpkt (w.slots dpkt).tv w.entries], ?_, fun o ho => ?_⟩
  · rw [htrace, List.append_assoc]
    rfl
  · simp only [List.mem_append, List.mem_cons, List.not_mem_nil, or_false] at ho
    rcases ho with ho | rfl | rfl
    · obtain ⟨pipe, tv, now, rfl⟩ := hnew o ho
      trivial
    · trivial
    · trivial

/-- **`defer_packet`** of the slot that may be out of date. -/
theorem Defers.current {again : Option Ccpacket} (h : Defers os w w' dpkt again)
    (hw : Current wtrs w (some dpkt)) (hagain : ∀ p ∈ again, Stored wtrs w.trace dpkt p)
    (hC : ∀ o ∈ w'.trace, o.RemovesFirst) : Current wtrs w' none := by
  obtain ⟨new, htrace, hnew⟩ := h.inner
  obtain ⟨l, r, herase, hqueue, -⟩ := h.split hw.toOrderly (h.firstDue_of hC)
  refine ⟨h.orderly hw.toOrderly hC, ?_, fun s hs _ => ?_⟩
  · rw [htrace]
    exact hw.fresh.inner hnew
  · rw [htrace]
    refine Stored.inner hnew ?_
    rw [hqueue] at hs
    by_cases hsd : s = dpkt
    · rw [hsd] at hs ⊢
      cases again with
      | none =>
        have hmem : dpkt ∈ w.queue.erase dpkt := by simpa [← herase] using hs
        exact (hw.nodup.not_mem_erase hmem).elim
      | some p =>
        rw [h.packet p rfl]
        exact hagain p rfl
    · have hnot : s ∉ (if again.isSome then [dpkt] else []) := by
        split <;> simp [hsd]
      simp only [List.mem_append, hnot, or_false] at hs
      have hmem : s ∈ w.queue.erase dpkt := herase ▸ List.mem_append.mpr hs
      rw [h.others s hsd]
      exact hw.stored s (List.mem_of_mem_erase hmem) fun heq => hsd (Option.some.inj heq)

/-- **`ccwriter_do_write`** of the latest packet. -/
theorem Writes.current (h : Writes os wtrs w i pkt pkt' w') (hrange : InRange wtrs i pkt)
    (hlatest : FromLatest wtrs w.trace i pkt) (hw : Current wtrs w (some (slotOf i pkt)))
    (hC : ∀ o ∈ w'.trace, o.RemovesFirst) :
    Current wtrs w' none ∧ Stored wtrs w'.trace (slotOf i pkt) pkt' := by
  have hstored := stored_of_inRange hrange hlatest
  cases h with
  | unknown hunknown => exact (hunknown hrange).elim
  | @tooSoon w₁ _ _ h₁ hdefer =>
    have hstored₁ : Stored wtrs w₁.trace (slotOf i pkt) pkt := by
      rw [h₁.trace]
      exact hstored
    have hw₁ := h₁.current (by simp) (by simp) hw
    refine ⟨hdefer.current hw₁ (fun p hp => ?_) hC, ?_⟩
    · obtain rfl := Option.some.inj hp
      exact hstored₁
    · obtain ⟨new, htrace, hnew⟩ := hdefer.inner
      rw [htrace]
      exact hstored₁.inner hnew
  | @written w₁ w₂ _ again _ h₁ hdefer hagain h₂ =>
    have hC₂ : ∀ o ∈ w₂.trace, o.RemovesFirst := fun o ho => hC o (h₂.grows.subset ho)
    have hstored₁ : Stored wtrs w₁.trace (slotOf i pkt) ((wtrs i).protocol.adjust pkt) := by
      rw [h₁.trace]
      exact hstored.adjust.write
    have hw₁ : Current wtrs w₁ (some (slotOf i pkt)) := by
      refine ⟨h₁.orderly (by simp [Obs.DefersOnly]) hw.toOrderly, ?_, fun s hs hne => ?_⟩
      · rw [h₁.trace]
        exact hw.fresh.write hlatest
      · rw [h₁.queue] at hs
        rw [h₁.trace, h₁.packet]
        exact (hw.stored s hs hne).write
    have hw₂ : Current wtrs w₂ none := by
      refine hdefer.current hw₁ (fun p hp => ?_) hC₂
      rcases hagain with rfl | rfl
      · cases hp
      · obtain rfl := Option.some.inj hp
        exact hstored₁
    refine ⟨h₂.current (by simp) (by simp) hw₂, ?_⟩
    obtain ⟨new, htrace, hnew⟩ := hdefer.inner
    rw [h₂.trace, List.nil_append, htrace]
    exact hstored₁.inner hnew

theorem Removes.inner (h : Removes w w' dpkt) (os : Os) (wtrs : ι → Ccwriter κ) :
    ∃ new, (handed os wtrs w' dpkt).trace = new ++ w.trace ∧ ∀ o ∈ new, o.Inner := by
  refine ⟨[.hand dpkt (w'.slots dpkt).tv (os.clock w'.reading),
    .remove dpkt (w.slots dpkt).tv w.entries], congrArg (List.cons _) h.trace, ?_⟩
  simp [Obs.Inner]

/-- The slot that is taken out is the one that may be out of date. -/
theorem Removes.current (h : Removes w w' dpkt) (hw : Current wtrs w none)
    (hfirst : FirstDue dpkt (w.slots dpkt).tv w.entries) (os : Os) :
    Current wtrs (handed os wtrs w' dpkt) (some dpkt) := by
  obtain ⟨hqueue, horderly⟩ := h.orderly hw.toOrderly hfirst os wtrs
  obtain ⟨new, htrace, hnew⟩ := h.inner os wtrs
  refine ⟨horderly, ?_, fun s hs hne => ?_⟩
  · rw [htrace]
    exact hw.fresh.inner hnew
  · have hsd : s ≠ dpkt := fun heq => hne (congrArg some heq)
    have hs' : s ∈ w.queue.erase dpkt := hqueue ▸ hs
    have hslots : (handed os wtrs w' dpkt).slots s = w.slots s := by
      rw [handed_slots_of_ne os wtrs w' hsd]
      exact congrFun h.slots s
    rw [htrace, hslots]
    exact (hw.stored s (List.mem_of_mem_erase hs') (Option.some_ne_none s)).inner hnew

/-- **`defer_packet_now`** of a queued slot. -/
theorem Sends.current (h : Sends os wtrs w dpkt w') (hw : Current wtrs w none) (hmem : dpkt ∈ w.queue)
    (hC : ∀ o ∈ w'.trace, o.RemovesFirst) : Current wtrs w' none := by
  have hfirst := h.firstDue hC
  cases h with
  | @mk w₁ w₂ pkt hremove hwrite =>
    have hhanded := hremove.current hw hfirst os
    obtain ⟨new, htrace, hnew⟩ := hremove.inner os wtrs
    have hstored : Stored wtrs (handed os wtrs w₁ dpkt).trace dpkt (w₁.slots dpkt).packet := by
      rw [htrace, hremove.slots]
      exact (hw.stored dpkt hmem (Option.some_ne_none dpkt)).inner hnew
    have hslot : slotOf dpkt.1 (w₁.slots dpkt).packet = dpkt := slotOf_eq hstored.receiver
    obtain ⟨hw₂, hstored₂⟩ := hwrite.current hstored.inRange hstored.latest
      (hslot.symm ▸ hhanded) hC
    rw [hslot] at hstored₂
    refine ⟨(Alike.setSlot w₂ dpkt { w₂.slots dpkt with packet := pkt } rfl).orderly (by simp)
      hw₂.toOrderly, hw₂.fresh, fun s hs _ => ?_⟩
    by_cases hsd : s = dpkt
    · rw [hsd, World.setSlot_slots_self]
      exact hstored₂
    · rw [World.setSlot_slots_of_ne _ _ hsd]
      exact hw₂.stored s hs (Option.some_ne_none s)

/-! ## Runs -/

/-- A packet is submitted that is for none of the queued slots but one. -/
theorem Current.submit (hw : Current wtrs w none)
    (hother : ∀ s ∈ w.queue, some s ≠ but → ¬(i = s.1 ∧ pkt.receiver = s.2 + 1)) :
    Current wtrs (w.observe (.submit i pkt)) but := by
  refine ⟨⟨hw.sorted, hw.nodup, List.forall_mem_cons.mpr ⟨trivial, hw.defers⟩⟩, hw.fresh.submit,
    fun s hs hne => ?_⟩
  obtain ⟨hle, hreceiver, B, hB, hpkt⟩ := hw.stored s hs (Option.some_ne_none s)
  refine ⟨hle, hreceiver, B, ?_, hpkt⟩
  have hnot := hother s hs hne
  rw [← hreceiver] at hnot
  refine Eq.trans ?_ hB
  exact List.findSome?_cons_of_isNone (congrArg Option.isNone (if_neg hnot))

theorem Writes.submitted (h : Writes os wtrs (w.observe (.submit i pkt)) i pkt pkt' w')
    (hw : Current wtrs w none) (hC : ∀ o ∈ w'.trace, o.RemovesFirst) : Current wtrs w' none := by
  by_cases hrange : InRange wtrs i pkt
  · have hsubmit : Current wtrs (w.observe (.submit i pkt)) (some (slotOf i pkt)) := by
      refine hw.submit fun s _ hne => ?_
      rintro ⟨rfl, hreceiver⟩
      exact hne (congrArg some (slotOf_eq hreceiver).symm)
    have hlatest : FromLatest wtrs (w.observe (.submit i pkt)).trace i pkt := by
      refine ⟨pkt, ?_, Or.inl rfl⟩
      simp [World.observe, latest]
    exact (h.current hrange hlatest hsubmit hC).1
  · cases h with
    | unknown =>
      refine hw.submit fun s hs _ => ?_
      rintro ⟨rfl, hreceiver⟩
      have hstored := hw.stored s hs (Option.some_ne_none s)
      have hrange' := hstored.inRange
      unfold InRange at hrange hrange'
      rw [hreceiver, ← hstored.receiver] at hrange
      exact hrange hrange'
    | tooSoon hrange' => exact (hrange hrange').elim
    | written hrange' => exact (hrange hrange').elim

theorem Follows.current {a : Action ι κ} (h : Follows os wtrs w a w') (ha : a.ByWriters)
    (hw : Current wtrs w none) (hC : ∀ o ∈ w'.trace, o.RemovesFirst) : Current wtrs w' none := by
  cases h with
  | submit hwrite => exact hwrite.submitted hw hC
  | defer => exact ha.elim
  | next hnext =>
    cases hnext with
    | asleep => exact hw
    | idle _ _ hrearm => exact hrearm.current ⟨⟨hw.sorted, hw.nodup, hw.defers⟩, hw.fresh, hw.stored⟩
    | first _ hqueue hsend hrearm =>
      refine hrearm.current (hsend.current ⟨⟨hw.sorted, hw.nodup, hw.defers⟩, hw.fresh, hw.stored⟩
        (List.mem_of_mem_head? hqueue) fun o ho => ?_)
      exact hC o (hrearm.grows.subset ho)
  | alarm => exact ⟨⟨hw.sorted, hw.nodup, hw.defers⟩, hw.fresh, hw.stored⟩
  | quiet => exact hw
  | channel => exact ⟨⟨hw.sorted, hw.nodup, hw.defers⟩, hw.fresh, hw.stored⟩

end

theorem current_start (wtrs : ι → Ccwriter κ) (slots : Slot ι → Timeval × Timeval)
    (channels : κ → Channel) : Current wtrs (start slots channels) none := by
  refine ⟨orderly_start slots channels, fun i pkt earlier hsuffix => ?_, fun s hs _ => ?_⟩
  · exact (List.cons_ne_nil _ _ (List.suffix_nil.mp hsuffix)).elim
  · rw [queue_start] at hs
    cases hs

variable [DecidableEq κ]

/-- **A writer never falls back to an earlier packet**: in a run in which no other slot is due at
the same time as one that is looked up, every packet that is written was the latest one that a
reader had submitted for its receiver, and every queued slot is queued once and has the latest
packet for its own receiver. -/
theorem writes_latest (os : Os) (wtrs : ι → Ccwriter κ) (slots : Slot ι → Timeval × Timeval)
    (channels : κ → Channel) {actions : List (Action ι κ)} (hactions : ∀ a ∈ actions, a.ByWriters) :
    ∃ w, run os wtrs (start slots channels) actions = some w ∧
      ((∀ o ∈ w.trace, o.Unique) →
        Fresh wtrs w.trace ∧
        ∀ s ∈ w.queue, w.queue.count s = 1 ∧ (w.slots s).packet.receiver = s.2 + 1 ∧
          FromLatest wtrs w.trace s.1 (w.slots s).packet) := by
  obtain ⟨w, hrun, -, hcurrent⟩ := run_induction_of Obs.RemovesFirst actions
    (fun a ha w w' _ hw hfollows hC => hfollows.current (hactions a ha) hw hC)
    (shaped_start slots channels) (current_start wtrs slots channels)
  refine ⟨w, hrun, fun hunique => ?_⟩
  have hw := hcurrent fun o ho => (hunique o ho).removesFirst
  refine ⟨hw.fresh, fun s hs => ⟨List.count_eq_one_of_mem hw.nodup hs, ?_, ?_⟩⟩
  · exact (hw.stored s hs (Option.some_ne_none s)).receiver
  · exact (hw.stored s hs (Option.some_ne_none s)).latest

/-- A pan and, for another writer, a second one come too soon; while both wait, the first is
superseded by a stop. -/
def superseding : List (Action Bool Unit) :=
  [.submit false panPacket, .submit true panPacket, .submit false stopPacket, .alarm, .next, .alarm, .next]

/-- The stop is sent, and is queued to be repeated. -/
theorem writes_latest_superseding : ∃ w, run (stepping 12) pelcoWriters startPair superseding = some w ∧
    Obs.write false stopPacket ∈ w.trace ∧ w.queue = [(false, 0)] ∧ Fresh pelcoWriters w.trace ∧
    ∀ s ∈ w.queue, w.queue.count s = 1 ∧ (w.slots s).packet.receiver = s.2 + 1 ∧
      FromLatest pelcoWriters w.trace s.1 (w.slots s).packet := by
  have hactions : ∀ a ∈ superseding, a.ByWriters := by
    simp [superseding, Action.ByWriters]
  obtain ⟨w, hrun, h⟩ := writes_latest (stepping 12) pelcoWriters (fun _ => (⟨1, 0⟩, ⟨1, 0⟩))
    (fun _ => channelInit "/dev/ttyS0".toList 0) hactions
  have hunique : ∀ w' ∈ run (stepping 12) pelcoWriters startPair superseding, ∀ o ∈ w'.trace, o.Unique := by
    decide
  obtain ⟨w', hrun', hwrite, hqueue⟩ : ∃ w', run (stepping 12) pelcoWriters startPair superseding = some w' ∧
      w'.trace[4]? = some (.write false stopPacket) ∧ w'.queue = [(false, 0)] := ⟨_, rfl, rfl, rfl⟩
  obtain rfl := Option.some.inj (hrun.symm.trans hrun')
  exact ⟨w, hrun, List.mem_of_getElem? hwrite, hqueue, h (hunique w hrun)⟩

end Protozoa.Engine
