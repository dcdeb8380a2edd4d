import Protozoa.Engine.Steps

/-!
# One call, one entry

`defer_packet` (`defer.c:74-86`) is meant to change the entry of one slot (`DefersOnly`). It takes
the old entry out with `cl_rbtree_remove`, which finds it by its due time (`compare_pkts`,
`defer.c:23-28`), so that it may find the entry of another slot that is due in the same microsecond.
It does what it is meant to exactly when the first entry with the due time of the slot is the slot's
own, or there is none (`FirstDue`).

* `Orderly`: no slot is queued twice, which holds as long as every removal has found its own slot.
* `Defers.split`, `Defers.defersOnly`: one call, in terms of the entries before and after it.
* **`defersOnly_iff`**: every call of a run, and the next one.
* `not_defersOnly`: two slots with one due time, of which one gets another packet.
-/

namespace Protozoa.Engine

open Clump Lib.SortedBag

variable {ι κ : Type} [DecidableEq ι]

/-- The entries of all other slots are as before, and `dpkt` is queued once, or not at all. -/
structure DefersOnly (dpkt : Slot ι) (queued : Bool) (before after : List (Slot ι × Timeval)) :
    Prop where
  others : after.filter (·.1 ≠ dpkt) = before.filter (·.1 ≠ dpkt)
  count : (after.map Prod.fst).count dpkt = if queued then 1 else 0

instance (dpkt : Slot ι) (queued : Bool) (before after : List (Slot ι × Timeval)) :
    Decidable (DefersOnly dpkt queued before after) :=
  decidable_of_iff (after.filter (·.1 ≠ dpkt) = before.filter (·.1 ≠ dpkt) ∧
      (after.map Prod.fst).count dpkt = if queued then 1 else 0)
    ⟨fun h => ⟨h.1, h.2⟩, fun h => ⟨h.others, h.count⟩⟩

/-- The first entry due at `tv`, if there is one, is that of `dpkt`. -/
def FirstDue (dpkt : Slot ι) (tv : Timeval) (queue : List (Slot ι × Timeval)) : Prop :=
  ∀ e ∈ queue.find? (·.2 == tv), e.1 = dpkt

instance (dpkt : Slot ι) (tv : Timeval) (queue : List (Slot ι × Timeval)) :
    Decidable (FirstDue dpkt tv queue) :=
  inferInstanceAs (Decidable (∀ e ∈ queue.find? (·.2 == tv), e.1 = dpkt))

/-- The change of the queue is the one that was asked for. -/
def Obs.DefersOnly : Obs ι → Prop
  | .packet dpkt queued before after => Engine.DefersOnly dpkt queued before after
  | _ => True

/-- The slot that is looked up is the first one with its due time, or there is none. -/
def Obs.RemovesFirst : Obs ι → Prop
  | .remove dpkt tv queue => FirstDue dpkt tv queue
  | _ => True

instance : DecidablePred (Obs.DefersOnly : Obs ι → Prop)
  | .submit .. => inferInstanceAs (Decidable True)
  | .write .. => inferInstanceAs (Decidable True)
  | .remove .. => inferInstanceAs (Decidable True)
  | .packet dpkt queued before after =>
    inferInstanceAs (Decidable (Engine.DefersOnly dpkt queued before after))
  | .rearm .. => inferInstanceAs (Decidable True)
  | .hand .. => inferInstanceAs (Decidable True)

instance : DecidablePred (Obs.RemovesFirst : Obs ι → Prop)
  | .submit .. => inferInstanceAs (Decidable True)
  | .write .. => inferInstanceAs (Decidable True)
  | .remove dpkt tv queue => inferInstanceAs (Decidable (FirstDue dpkt tv queue))
  | .packet .. => inferInstanceAs (Decidable True)
  | .rearm .. => inferInstanceAs (Decidable True)
  | .hand .. => inferInstanceAs (Decidable True)

/-- What the engine needs of the queue, and what has come of it so far. -/
structure Orderly (w : World ι κ) : Prop where
  sorted : w.Sorted
  nodup : w.queue.Nodup
  defers : ∀ o ∈ w.trace, o.DefersOnly

omit [DecidableEq ι] in
theorem entries_fst (w : World ι κ) : w.entries.map Prod.fst = w.queue := by
  unfold World.entries
  rw [List.map_map]
  exact List.map_id _

theorem entries_others (w : World ι κ) (dpkt : Slot ι) :
    w.entries.filter (·.1 ≠ dpkt) =
      (w.queue.filter (· ≠ dpkt)).map fun s => (s, (w.slots s).tv) := by
  unfold World.entries
  rw [List.filter_map]
  rfl

omit [DecidableEq ι] in
/-- In terms of the slots. -/
theorem firstDue_iff {w : World ι κ} {dpkt : Slot ι} : FirstDue dpkt (w.slots dpkt).tv w.entries ↔
    ∀ s ∈ (remove (comparePkts w.slots) dpkt w.queue).1, s = dpkt := by
  have hfind : w.entries.find? (·.2 == (w.slots dpkt).tv) =
      (remove (comparePkts w.slots) dpkt w.queue).1.map fun s => (s, (w.slots s).tv) := by
    unfold World.entries
    rw [List.find?_map]
    refine congrArg (Option.map _) (congrArg (List.find? · _) (funext fun s => ?_))
    have heq : comparePkts w.slots s dpkt = .eq ↔ (w.slots s).tv = (w.slots dpkt).tv :=
      comparePkts_eq
    by_cases hs : (w.slots s).tv = (w.slots dpkt).tv
    · simp [hs, heq.mpr hs]
    · simp [hs, mt heq.mp hs]
  unfold FirstDue
  rw [hfind]
  constructor
  · intro h s hs
    exact h _ (Option.mem_map_of_mem _ hs)
  · intro h e he
    obtain ⟨s, hs, rfl⟩ := Option.mem_map.mp he
    exact h s hs

/-! ## `defer_packet` -/

section

variable {os : Os} {w w' : World ι κ} {dpkt : Slot ι} {pkt : Option Ccpacket}

/-- The queue without the slot, then with it somewhere in between. -/
theorem Defers.split (h : Defers os w w' dpkt pkt) (hw : Orderly w)
    (hfirst : FirstDue dpkt (w.slots dpkt).tv w.entries) :
    ∃ l r, l ++ r = w.queue.erase dpkt ∧
      w'.queue = l ++ (if pkt.isSome then [dpkt] else []) ++ r ∧ w'.Sorted := by
  obtain ⟨l, r, hlr, hqueue, hsorted⟩ := h.queue hw.sorted
  have herase : l ++ r = w.queue.erase dpkt := by
    rw [← hlr]
    exact remove_of_first (comparePkts_eq.mpr rfl) (firstDue_iff.mp hfirst)
  refine ⟨l, r, herase, hqueue, hsorted fun s hs hsd => ?_⟩
  rw [herase, hsd] at hs
  exact hw.nodup.not_mem_erase hs

theorem Defers.nodup (h : Defers os w w' dpkt pkt) (hw : Orderly w)
    (hfirst : FirstDue dpkt (w.slots dpkt).tv w.entries) : w'.queue.Nodup := by
  obtain ⟨l, r, herase, hqueue, -⟩ := h.split hw hfirst
  have hnodup : (l ++ r).Nodup := herase ▸ hw.nodup.erase dpkt
  rw [hqueue]
  by_cases hpkt : pkt.isSome = true
  · rw [if_pos hpkt, List.append_assoc]
    refine List.nodup_middle.mpr (List.nodup_cons.mpr ⟨?_, hnodup⟩)
    change dpkt ∉ l ++ r
    rw [herase]
    exact hw.nodup.not_mem_erase
  · rw [if_neg hpkt, List.append_nil]
    exact hnodup

theorem Defers.defersOnly (h : Defers os w w' dpkt pkt) (hw : Orderly w)
    (hfirst : FirstDue dpkt (w.slots dpkt).tv w.entries) :
    DefersOnly dpkt pkt.isSome w.entries w'.entries := by
  obtain ⟨l, r, herase, hqueue, -⟩ := h.split hw hfirst
  have hmem : dpkt ∉ l ++ r := by
    rw [herase]
    exact hw.nodup.not_mem_erase
  constructor
  · have hfilter : w'.queue.filter (· ≠ dpkt) = w.queue.filter (· ≠ dpkt) := by
      have hnil : (if pkt.isSome then [dpkt] else []).filter (· ≠ dpkt) = [] := by
        split <;> simp
      rw [hqueue, List.filter_append, List.filter_append, hnil, List.append_nil, ← List.filter_append,
        herase, hw.nodup.erase_eq_filter, List.filter_filter]
      refine List.filter_congr fun s _ => ?_
      by_cases hs : s = dpkt <;> simp [hs]
    rw [entries_others, entries_others, hfilter]
    refine List.map_congr_left fun s hs => ?_
    rw [h.others s (by simpa using (List.mem_filter.mp hs).2)]
  · have hl : dpkt ∉ l := fun hl => hmem (List.mem_append_left r hl)
    have hr : dpkt ∉ r := fun hr => hmem (List.mem_append_right l hr)
    rw [entries_fst, hqueue, List.count_append, List.count_append, List.count_eq_zero_of_not_mem hl,
      List.count_eq_zero_of_not_mem hr]
    split <;> simp

/-- **The other way around**: the slot that is found is gone. -/
theorem Defers.firstDue (h : Defers os w w' dpkt pkt) (hw : Orderly w)
    (hothers : w'.entries.filter (·.1 ≠ dpkt) = w.entries.filter (·.1 ≠ dpkt)) :
    FirstDue dpkt (w.slots dpkt).tv w.entries := by
  obtain ⟨l, r, hlr, hqueue, -⟩ := h.queue hw.sorted
  refine firstDue_iff.mpr fun s hs => ?_
  by_contra hsd
  have hgone := not_mem_remove hw.nodup hs
  have hmem : s ∈ w.queue := List.mem_of_find?_eq_some hs
  have hkept : (s, (w.slots s).tv) ∈ w'.entries := by
    have hin : (s, (w.slots s).tv) ∈ w.entries.filter (·.1 ≠ dpkt) :=
      List.mem_filter.mpr ⟨List.mem_map_of_mem hmem, by simpa using hsd⟩
    rw [← hothers] at hin
    exact (List.mem_filter.mp hin).1
  have hqueued : s ∈ w'.queue := by
    rw [← entries_fst]
    exact List.mem_map_of_mem hkept
  rw [hqueue] at hqueued
  rw [hlr] at hgone
  have hnot : s ∉ (if pkt.isSome then [dpkt] else []) := by
    split <;> simp [hsd]
  simp only [List.mem_append, hnot, or_false] at hqueued
  exact hgone (List.mem_append.mpr hqueued)

omit [DecidableEq ι] in
theorem Defers.firstDue_of (h : Defers os w w' dpkt pkt) (hC : ∀ o ∈ w'.trace, o.RemovesFirst) :
    FirstDue dpkt (w.slots dpkt).tv w.entries := by
  obtain ⟨new, htrace, -⟩ := h.trace
  refine hC (.remove dpkt (w.slots dpkt).tv w.entries) ?_
  rw [htrace]
  exact List.mem_append_right _ (List.mem_cons_of_mem _ List.mem_cons_self)

theorem Defers.orderly (h : Defers os w w' dpkt pkt) (hw : Orderly w)
    (hC : ∀ o ∈ w'.trace, o.RemovesFirst) : Orderly w' := by
  obtain ⟨new, htrace, hnew⟩ := h.trace
  have hfirst := h.firstDue_of hC
  obtain ⟨l, r, -, -, hsorted⟩ := h.split hw hfirst
  refine ⟨hsorted, h.nodup hw hfirst, fun o ho => ?_⟩
  rw [htrace, List.mem_append, List.mem_cons, List.mem_cons] at ho
  rcases ho with ho | rfl | rfl | ho
  · obtain ⟨pipe, tv, now, rfl⟩ := hnew o ho
    trivial
  · exact h.defersOnly hw hfirst
  · trivial
  · exact hw.defers o ho

end

/-! ## Runs -/

theorem Alike.orderly {w w' : World ι κ} {new : List (Obs ι)} (h : Alike w w' new)
    (hnew : ∀ o ∈ new, o.DefersOnly) (hw : Orderly w) : Orderly w' := by
  refine ⟨h.sorted hw.sorted, h.queue ▸ hw.nodup, fun o ho => ?_⟩
  rw [h.trace] at ho
  exact (List.mem_append.mp ho).elim (hnew o) (hw.defers o)

theorem Rearms.orderly {os : Os} {w w' : World ι κ} (h : Rearms os w w') (hw : Orderly w) :
    Orderly w' := by
  obtain ⟨new, htrace, hnew⟩ := h.new
  refine ⟨?_, h.queue ▸ hw.nodup, fun o ho => ?_⟩
  · unfold World.Sorted
    rw [h.slots, h.queue]
    exact hw.sorted
  · rw [htrace] at ho
    rcases List.mem_append.mp ho with ho | ho
    · obtain ⟨pipe, tv, now, rfl⟩ := hnew o ho
      trivial
    · exact hw.defers o ho

theorem Writes.orderly {os : Os} {wtrs : ι → Ccwriter κ} {w w' : World ι κ} {i : ι}
    {pkt pkt' : Ccpacket} (h : Writes os wtrs w i pkt pkt' w') (hw : Orderly w)
    (hC : ∀ o ∈ w'.trace, o.RemovesFirst) : Orderly w' := by
  cases h with
  | unknown => exact hw
  | tooSoon _ h₁ hdefer => exact hdefer.orderly (h₁.orderly (by simp) hw) hC
  | written _ h₁ hdefer _ h₂ =>
    have hw₁ := h₁.orderly (by simp [Obs.DefersOnly]) hw
    exact h₂.orderly (by simp) (hdefer.orderly hw₁ fun o ho => hC o (h₂.grows.subset ho))

/-- The slot that is taken out gets its new due time while it is in no order with the others. -/
theorem Removes.orderly {w w' : World ι κ} {dpkt : Slot ι} (h : Removes w w' dpkt) (hw : Orderly w)
    (hfirst : FirstDue dpkt (w.slots dpkt).tv w.entries) (os : Os) (wtrs : ι → Ccwriter κ) :
    w'.queue = w.queue.erase dpkt ∧ Orderly (handed os wtrs w' dpkt) := by
  have hqueue : w'.queue = w.queue.erase dpkt := by
    rw [h.queue hw.sorted]
    exact remove_of_first (comparePkts_eq.mpr rfl) (firstDue_iff.mp hfirst)
  refine ⟨hqueue, ?_, ?_, fun o ho => ?_⟩
  · have hsub : w'.queue.Sublist w.queue := hqueue ▸ List.erase_sublist
    have hne : ∀ s ∈ w'.queue, s ≠ dpkt := by
      rintro s hs rfl
      rw [hqueue] at hs
      exact hw.nodup.not_mem_erase hs
    refine sorted_congr hw.sorted hsub hne fun s hs => ?_
    rw [handed_slots_of_ne os wtrs w' hs]
    exact congrFun h.slots s
  · change w'.queue.Nodup
    rw [hqueue]
    exact hw.nodup.erase dpkt
  · have ho' : o ∈ .hand dpkt (w'.slots dpkt).tv (os.clock w'.reading) ::
        .remove dpkt (w.slots dpkt).tv w.entries :: w.trace := h.trace ▸ ho
    rcases List.mem_cons.mp ho' with rfl | ho'
    · trivial
    · rcases List.mem_cons.mp ho' with rfl | ho'
      · trivial
      · exact hw.defers o ho'

theorem Sends.firstDue {os : Os} {wtrs : ι → Ccwriter κ} {w w' : World ι κ} {dpkt : Slot ι}
    (h : Sends os wtrs w dpkt w') (hC : ∀ o ∈ w'.trace, o.RemovesFirst) :
    FirstDue dpkt (w.slots dpkt).tv w.entries := by
  obtain ⟨hremove, hwrite⟩ := h
  refine hC (.remove dpkt (w.slots dpkt).tv w.entries) (hwrite.grows.subset ?_)
  refine List.mem_cons_of_mem _ ?_
  rw [show (World.tick _).trace = _ from hremove.trace]
  exact List.mem_cons_self

theorem Sends.orderly {os : Os} {wtrs : ι → Ccwriter κ} {w w' : World ι κ} {dpkt : Slot ι}
    (h : Sends os wtrs w dpkt w') (hw : Orderly w) (hC : ∀ o ∈ w'.trace, o.RemovesFirst) :
    Orderly w' := by
  have hfirst := h.firstDue hC
  cases h with
  | @mk w₁ w₂ pkt hremove hwrite =>
    have hhanded := (hremove.orderly hw hfirst os wtrs).2
    exact (Alike.setSlot w₂ dpkt { w₂.slots dpkt with packet := pkt } rfl).orderly (by simp)
      (hwrite.orderly hhanded hC)

theorem Follows.orderly {os : Os} {wtrs : ι → Ccwriter κ} {w w' : World ι κ} {a : Action ι κ}
    (h : Follows os wtrs w a w') (hw : Orderly w) (hC : ∀ o ∈ w'.trace, o.RemovesFirst) :
    Orderly w' := by
  cases h with
  | submit hwrite =>
    refine hwrite.orderly ⟨hw.sorted, hw.nodup, fun o ho => ?_⟩ hC
    rcases List.mem_cons.mp ho with rfl | ho
    · trivial
    · exact hw.defers o ho
  | defer hdefer => exact hdefer.orderly hw hC
  | next hnext =>
    cases hnext with
    | asleep => exact hw
    | idle _ _ hrearm => exact hrearm.orderly ⟨hw.sorted, hw.nodup, hw.defers⟩
    | first _ _ hsend hrearm =>
      refine hrearm.orderly (hsend.orderly ⟨hw.sorted, hw.nodup, hw.defers⟩ fun o ho => ?_)
      exact hC o (hrearm.grows.subset ho)
  | alarm => exact ⟨hw.sorted, hw.nodup, hw.defers⟩
  | quiet => exact hw
  | channel => exact ⟨hw.sorted, hw.nodup, hw.defers⟩

theorem orderly_start (slots : Slot ι → Timeval × Timeval) (channels : κ → Channel) :
    Orderly (start slots channels : World ι κ) := by
  have hqueue := queue_start slots channels
  refine ⟨?_, ?_, fun o ho => absurd ho List.not_mem_nil⟩
  · unfold World.Sorted
    rw [hqueue]
    exact List.Pairwise.nil
  · rw [hqueue]
    exact List.nodup_nil

variable [DecidableEq κ]

/-- **`defer_packet` changes the entry of one slot exactly when** the first entry with the due time
of the slot is the slot's own. If that was so at every removal of a run, every call has done so, and
the next one does if and only if it is so again. -/
theorem defersOnly_iff (os : Os) (wtrs : ι → Ccwriter κ) (slots : Slot ι → Timeval × Timeval)
    (channels : κ → Channel) (actions : List (Action ι κ)) :
    ∃ w, run os wtrs (start slots channels) actions = some w ∧
      ((∀ o ∈ w.trace, o.RemovesFirst) →
        (∀ o ∈ w.trace, o.DefersOnly) ∧
        ∀ dpkt pkt ms, ∃ r w', deferPacket os w dpkt pkt ms = some (r, w') ∧
          ((DefersOnly dpkt pkt.isSome w.entries w'.entries ∧
              ∀ s, s ≠ dpkt → w'.slots s = w.slots s) ↔
            FirstDue dpkt (w.slots dpkt).tv w.entries)) := by
  obtain ⟨w, hrun, hw, horderly⟩ := run_induction_of Obs.RemovesFirst actions
    (fun a _ w w' _ hw hfollows hC => hfollows.orderly hw hC) (shaped_start slots channels)
    (orderly_start slots channels)
  refine ⟨w, hrun, fun hC => ⟨(horderly hC).defers, fun dpkt pkt ms => ?_⟩⟩
  obtain ⟨r, w', hdefer, h⟩ := deferPacket_defers os hw dpkt pkt ms
  refine ⟨r, w', hdefer, fun hkept => ?_, fun hfirst => ?_⟩
  · exact h.firstDue (horderly hC) hkept.1.others
  · exact ⟨h.defersOnly (horderly hC) hfirst, h.others⟩

/-- A second packet for the same writer takes the place of the first. -/
theorem defersOnly_iff_again : ∃ w, run (pausing 100) pelcoWriters startPair
      [.submit false stopPacket, .submit false stopPacket] = some w ∧
    ∀ o ∈ w.trace, o.DefersOnly := by
  obtain ⟨w, hrun, h⟩ := defersOnly_iff (pausing 100) pelcoWriters (fun _ => (⟨1, 0⟩, ⟨1, 0⟩))
    (fun _ => channelInit "/dev/ttyS0".toList 0)
    [.submit false stopPacket, .submit false stopPacket]
  have hfirst : ∀ w' ∈ run (pausing 100) pelcoWriters startPair
      [.submit false stopPacket, .submit false stopPacket], ∀ o ∈ w'.trace, o.RemovesFirst := by
    decide
  exact ⟨w, hrun, (h (hfirst w hrun)).1⟩

/-- Both writers defer the packet; when the first one gets another packet, it is the entry of the
second one that is taken out. -/
theorem not_defersOnly : ¬ ∀ (os : Os) (wtrs : Bool → Ccwriter Unit)
    (slots : Slot Bool → Timeval × Timeval) (channels : Unit → Channel)
    (actions : List (Action Bool Unit)), ∀ w ∈ run os wtrs (start slots channels) actions,
      ∀ o ∈ w.trace, o.DefersOnly := by
  intro h
  have hrun := h (pausing 100) pelcoWriters (fun _ => (⟨1, 0⟩, ⟨1, 0⟩))
    (fun _ => channelInit "/dev/ttyS0".toList 0)
    [.submit false stopPacket, .submit true stopPacket, .submit false stopPacket]
  revert hrun
  decide

end Protozoa.Engine
