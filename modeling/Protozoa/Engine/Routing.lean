import Protozoa.Ccnode
import Protozoa.Engine.Isolation

/-!
# The writers a packet is routed to

What `ccreader_do_writers` (`ccreader.c:173-188`) does with the nodes that `ccreader_add_writer`
(`ccreader.c:140-150`) has made of texts: each call of `ccwriter_do_write` that gets past the check
of the receiver (`ccnode_get_receiver`, `ccreader.c:158-166`), and the slot it works on.

* `routes`: the calls that the texts of a configuration ask for, without the nodes; `routeSlot`
  their slots.
* `doWritersLoop_routes`: the calls of the loop, node by node.
* **`do_writers_routes`**: the same for the texts of a configuration, over the nodes of
  `Ccnode.lean`.
-/

namespace Protozoa.Engine

variable {κ : Type} [DecidableEq κ] {os : Os} {wtrs : Nat → Ccwriter κ} {w w' : World Nat κ}
  {receiver : Int} {pkt : Ccpacket}

instance (wtrs : Nat → Ccwriter κ) (i : Nat) (pkt : Ccpacket) : Decidable (InRange wtrs i pkt) :=
  inferInstanceAs (Decidable (_ ∧ _))

/-- The packet a writer takes: `ccwriter_do_write` gets past the check of its receiver. -/
def Obs.submitted (wtrs : Nat → Ccwriter κ) : Obs Nat → Option (Nat × Ccpacket)
  | .submit i pkt => if InRange wtrs i pkt then some (i, pkt) else none
  | _ => none

/-- The slot `defer_packet` is called for. -/
def Obs.slot : Obs Nat → Option (Slot Nat)
  | .packet dpkt _ _ _ => some dpkt
  | _ => none

/-- The writers that must get a packet for a receiver, and the addresses they must get it with. -/
def routes (wtrs : Nat → Ccwriter κ) (nodes : List Ccnode) (receiver : Int) : List (Nat × Int) :=
  nodes.filterMap fun node =>
    if (node.rangeFirst ≤ receiver ∧ receiver ≤ node.rangeLast) ∧
        1 ≤ receiver + node.shift ∧ receiver + node.shift ≤ (wtrs node.writer).protocol.nRcv then
      some (node.writer, receiver + node.shift)
    else none

/-- The slot of a route. -/
def routeSlot (route : Nat × Int) : Slot Nat := (route.1, (route.2 - 1).toNat)

omit [DecidableEq κ] in
/-- A node routes a packet as the list says. -/
theorem routes_cons (node : Ccnode) (nodes : List Ccnode) :
    routes wtrs (node :: nodes) receiver =
      (if Routed (wtrs node.writer) node receiver then [(node.writer, ccnodeGetReceiver node receiver)]
        else []) ++ routes wtrs nodes receiver := by
  have hroute : (Routed (wtrs node.writer) node receiver ↔
      (node.rangeFirst ≤ receiver ∧ receiver ≤ node.rangeLast) ∧
        1 ≤ receiver + node.shift ∧ receiver + node.shift ≤ (wtrs node.writer).protocol.nRcv) ∧
      (Routed (wtrs node.writer) node receiver →
        ccnodeGetReceiver node receiver = receiver + node.shift) := by
    unfold Routed ccnodeGetReceiver
    dsimp only
    split_ifs <;> omega
  unfold routes
  rw [List.filterMap_cons]
  by_cases h : Routed (wtrs node.writer) node receiver
  · rw [if_pos (hroute.1.mp h), if_pos h, hroute.2 h]
    rfl
  · rw [if_neg fun hr => h (hroute.1.mpr hr), if_neg h]
    rfl

omit [DecidableEq κ] in
/-- What is observed in a call of `ccwriter_do_write`: no other call of it, and one of
`defer_packet` for the slot of the packet if the writer has it. -/
theorem Writes.observed {i : Nat} {pkt' : Ccpacket} (h : Writes os wtrs w i pkt pkt' w') :
    ∃ new, w'.trace = new ++ w.trace ∧ new.filterMap (Obs.submitted wtrs) = [] ∧
      new.filterMap Obs.slot = if InRange wtrs i pkt then [slotOf i pkt] else [] := by
  have hdefers : ∀ {w₁ w₂ : World Nat κ} {again : Option Ccpacket}, Defers os w₁ w₂ (slotOf i pkt) again →
      ∃ new, w₂.trace = new ++ w₁.trace ∧ new.filterMap (Obs.submitted wtrs) = [] ∧
        new.filterMap Obs.slot = [slotOf i pkt] := by
    intro w₁ w₂ again hdefer
    obtain ⟨new, htrace, hnew⟩ := hdefer.trace
    have hrearm : ∀ {α : Type} {f : Obs Nat → Option α}, (∀ pipe tv now, f (.rearm pipe tv now) = none) →
        new.filterMap f = [] := by
      intro α f hf
      rw [List.filterMap_eq_nil_iff]
      intro o ho
      obtain ⟨pipe, tv, now, rfl⟩ := hnew o ho
      exact hf pipe tv now
    refine ⟨new ++ [.packet (slotOf i pkt) again.isSome w₁.entries w₂.entries,
      .remove (slotOf i pkt) (w₁.slots (slotOf i pkt)).tv w₁.entries], by simp [htrace], ?_, ?_⟩
    · rw [List.filterMap_append, hrearm fun _ _ _ => rfl]
      rfl
    · rw [List.filterMap_append, hrearm fun _ _ _ => rfl]
      rfl
  cases h with
  | unknown hrange =>
    refine ⟨[], rfl, rfl, ?_⟩
    rw [if_neg hrange]
    rfl
  | tooSoon hrange h₁ hdefer =>
    obtain ⟨new, htrace, hsubmitted, hslot⟩ := hdefers hdefer
    refine ⟨new, by rw [htrace, h₁.trace]; rfl, hsubmitted, ?_⟩
    rw [if_pos hrange, hslot]
  | written hrange h₁ hdefer _ h₂ =>
    obtain ⟨new, htrace, hsubmitted, hslot⟩ := hdefers hdefer
    refine ⟨new ++ [.write i pkt], by rw [h₂.trace, htrace, h₁.trace]; simp, ?_, ?_⟩
    · rw [List.filterMap_append, hsubmitted]
      rfl
    · rw [List.filterMap_append, if_pos hrange, hslot]
      rfl

/-- What the loop does: the calls that get past the check are those of the routes, in their order,
and each works on the slot of its route. -/
structure Routes (wtrs : Nat → Ccwriter κ) (route : List (Nat × Int)) (pkt : Ccpacket) (new : List (Obs Nat)) :
    Prop where
  submitted : (new.reverse.filterMap (Obs.submitted wtrs)).map (fun s => (s.1, s.2.receiver)) = route
  slots : new.reverse.filterMap Obs.slot = route.map routeSlot
  /-- No writer changes a packet without a menu command. -/
  packets : ccpacketGetMenu pkt = 0 → ∀ s ∈ new.filterMap (Obs.submitted wtrs),
    s.2 = ccpacketSetReceiver pkt s.2.receiver

omit [DecidableEq κ] in
theorem Writes.packet {i : Nat} {pkt' : Ccpacket} (h : Writes os wtrs w i pkt pkt' w')
    (hmenu : ccpacketGetMenu pkt = 0) : pkt' = pkt := by
  cases h with
  | unknown => rfl
  | tooSoon => rfl
  | written => exact adjust_of_noMenu _ hmenu

omit [DecidableEq κ] in
/-- The address of a route is a receiver of its writer. -/
theorem inRange_of_mem_routes {nodes : List Ccnode} {route : Nat × Int} (h : route ∈ routes wtrs nodes receiver) :
    1 ≤ route.2 ∧ route.2 ≤ (wtrs route.1).protocol.nRcv := by
  obtain ⟨node, -, hroute⟩ := List.mem_filterMap.mp h
  split at hroute
  · rename_i hrange
    obtain rfl := Option.some.inj hroute
    exact hrange.2
  · cases hroute

/-- **The loop over the nodes** of a reader. -/
theorem doWritersLoop_routes (nodes : List Ccnode) (pkt : Ccpacket) (hw : Shaped w) :
    ∃ pkt' w' new, doWritersLoop (engineSink os wtrs) receiver nodes pkt (some w) = (pkt', some w') ∧
      w'.trace = new ++ w.trace ∧ Routes wtrs (routes wtrs nodes receiver) pkt new := by
  induction nodes generalizing pkt w with
  | nil => exact ⟨pkt, w, [], rfl, rfl, rfl, rfl, fun _ _ hs => absurd hs List.not_mem_nil⟩
  | cons node nodes ih =>
    have hroutes := @routes_cons κ wtrs receiver node nodes
    by_cases hne : ccnodeGetReceiver node receiver ≠ 0
    · set sent := ccpacketSetReceiver pkt (ccnodeGetReceiver node receiver) with hsent
      obtain ⟨c, pkt₁, w₁, hrun, hwrites⟩ :=
        @ccwriterDoWrite_writes Nat κ _ _ os wtrs (w.observe (.submit node.writer sent)) hw node.writer sent
      obtain ⟨called, htrace₁, hcalled, hslot⟩ := hwrites.observed
      obtain ⟨pkt', w', new, hloop, htrace, hnew⟩ := ih pkt₁ (hwrites.shaped hw)
      have hrange : InRange wtrs node.writer sent ↔ Routed (wtrs node.writer) node receiver := Iff.rfl
      have hown : [(.submit node.writer sent : Obs Nat)].filterMap (Obs.submitted wtrs) =
          if Routed (wtrs node.writer) node receiver then [(node.writer, sent)] else [] := by
        by_cases hr : Routed (wtrs node.writer) node receiver
        · rw [if_pos hr]
          exact List.filterMap_cons_some (if_pos hr)
        · rw [if_neg hr]
          exact List.filterMap_cons_none (if_neg hr)
      refine ⟨pkt', w', new ++ (called ++ [.submit node.writer sent]), ?_, ?_, ?_, ?_, fun hmenu s hs => ?_⟩
      · simp only [doWritersLoop, if_pos hne, engineSink, ← hsent, hrun]
        exact hloop
      · rw [htrace, htrace₁]
        simp [World.observe]
      · -- In the order of the trace, the call comes first and its own calls follow it.
        have hreverse : called.reverse.filterMap (Obs.submitted wtrs) = [] := by
          rw [List.filterMap_reverse, hcalled, List.reverse_nil]
        rw [hroutes, List.reverse_append, List.reverse_append, List.filterMap_append, List.filterMap_append,
          hreverse, List.append_nil, List.map_append, hnew.submitted, List.reverse_singleton, hown]
        congr 1
        split <;> rfl
      · have hreverse : called.reverse.filterMap Obs.slot = if Routed (wtrs node.writer) node receiver then
            [routeSlot (node.writer, ccnodeGetReceiver node receiver)] else [] := by
          rw [List.filterMap_reverse, hslot]
          simp only [hrange]
          split <;> rfl
        rw [hroutes, List.reverse_append, List.reverse_append, List.filterMap_append, List.filterMap_append,
          hreverse, hnew.slots, List.map_append, List.reverse_singleton]
        congr 1
        split <;> rfl
      · have hpkt₁ : pkt₁ = sent := hwrites.packet hmenu
        rw [List.filterMap_append, List.filterMap_append, hcalled, List.nil_append] at hs
        rcases List.mem_append.mp hs with hs | hs
        · have hlater := hnew.packets (hpkt₁ ▸ hmenu) s hs
          rw [hlater, hpkt₁]
          rfl
        · rw [hown] at hs
          split at hs
          · rw [List.mem_singleton.mp hs]
            rfl
          · exact absurd hs List.not_mem_nil
    · obtain ⟨pkt', w', new, hloop, htrace, hnew⟩ := ih pkt hw
      have hunrouted : ¬Routed (wtrs node.writer) node receiver := fun h => hne h.1.ne'
      rw [if_neg hunrouted, List.nil_append] at hroutes
      refine ⟨pkt', w', new, ?_, htrace, hroutes ▸ hnew⟩
      simp only [doWritersLoop, if_neg hne, hloop]

/-- **Routing**: with the nodes that any calls of `ccreader_add_writer` have made, the latest first,
a packet goes to the writers whose ranges have its receiver, as long as they have the shifted one;
the reader's packet keeps its receiver. -/
theorem do_writers_routes (os : Os) (wtrs : Nat → Ccwriter κ) (now : Timeval) (timeout : Nat) (flags : BitVec 32)
    (calls : List AddWriter) (nodes : List Ccnode) (hnodes : List.Forall₂ Describes calls nodes) (pkt : Ccpacket)
    (w : World Nat κ) (hw : Reachable os wtrs w) :
    ∃ rdr w' new,
      ccreaderDoWriters (engineSink os wtrs)
        { addWriters (ccreaderInit now timeout flags) calls with packet := pkt } (some w) = (rdr, some w') ∧
      rdr.packet.receiver = pkt.receiver ∧ w'.trace = new ++ w.trace ∧
      Routes wtrs (routes wtrs nodes.reverse pkt.receiver) pkt new ∧
      ∀ s ∈ new.filterMap Obs.slot, (s.2 : Int) < (wtrs s.1).protocol.nRcv := by
  have hhead : (addWriters (ccreaderInit now timeout flags) calls).head = nodes.reverse :=
    (head_addWriters hnodes _).trans (List.append_nil _)
  obtain ⟨pkt', w', new, hloop, htrace, hnew⟩ :=
    @doWritersLoop_routes κ _ os wtrs w pkt.receiver nodes.reverse pkt hw.shaped
  refine ⟨{ addWriters (ccreaderInit now timeout flags) calls with
    packet := ccpacketSetReceiver pkt' pkt.receiver }, w', new, ?_, rfl, htrace, hnew, fun s hs => ?_⟩
  · simp only [ccreaderDoWriters, hhead, hloop]
  · have hmem : s ∈ new.reverse.filterMap Obs.slot := by
      rw [List.filterMap_reverse]
      exact List.mem_reverse.mpr hs
    rw [hnew.slots] at hmem
    obtain ⟨route, hroute, rfl⟩ := List.mem_map.mp hmem
    obtain ⟨h1, hn⟩ := inRange_of_mem_routes hroute
    show ((route.2 - 1).toNat : Int) < (wtrs route.1).protocol.nRcv
    omega

/-- Receivers 1 to 10 two down, all as they are, and receiver 5 three up. -/
def threeCalls : List AddWriter :=
  [⟨0, "1-10".toList, "-2".toList⟩, ⟨1, "-".toList, "0".toList⟩, ⟨0, "5".toList, "+3".toList⟩]

theorem describes_threeCalls :
    List.Forall₂ Describes threeCalls [⟨0, 1, 10, -2⟩, ⟨1, 1, 1024, 0⟩, ⟨0, 5, 5, 3⟩] := by
  have digits : ∀ c s, (c :: s).all Char.isDigit = true → Lib.Scanf.Digits (c :: s) :=
    fun c s h => Lib.Scanf.digits_of_all (List.cons_ne_nil c s) h
  refine .cons ⟨rfl, ?_, by decide, ?_, by decide⟩ (.cons ⟨rfl, .all, by decide, ?_, by decide⟩
    (.cons ⟨rfl, ?_, by decide, ?_, by decide⟩ .nil))
  · exact .pair (digits '1' [] rfl) (digits '1' ['0'] rfl) (by decide) (by decide)
  · exact .minus (digits '2' [] rfl)
  · exact .plain (digits '0' [] rfl)
  · exact .one (digits '5' [] rfl) (by decide)
  · exact .plus (digits '3' [] rfl)

theorem do_writers_routes_three : ∃ rdr w' new,
    ccreaderDoWriters (engineSink ticking fun _ => (⟨.pelcoD, (), none⟩ : Ccwriter Unit))
      { addWriters (ccreaderInit ⟨0, 0⟩ 15000 0) threeCalls with packet := ⟨5, ccPanLeft, 100, 0, 0, ⟨40, 0⟩⟩ }
      (some (start (fun _ => (⟨0, 0⟩, ⟨0, 0⟩)) fun _ => channelInit [] 0)) = (rdr, some w') ∧
    rdr.packet.receiver = 5 ∧ w'.trace = new ++ [] ∧
    Routes (fun _ => (⟨.pelcoD, (), none⟩ : Ccwriter Unit)) [(0, 8), (1, 5), (0, 3)]
      ⟨5, ccPanLeft, 100, 0, 0, ⟨40, 0⟩⟩ new ∧
    ∀ s ∈ new.filterMap Obs.slot, (s.2 : Int) < PelcoD.maxAddress :=
  do_writers_routes ticking (fun _ => ⟨.pelcoD, (), none⟩) ⟨0, 0⟩ 15000 0 threeCalls _ describes_threeCalls
    ⟨5, ccPanLeft, 100, 0, 0, ⟨40, 0⟩⟩ _ ⟨_, _, [], rfl⟩

end Protozoa.Engine
