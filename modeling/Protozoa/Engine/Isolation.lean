import Protozoa.Ccreader
import Protozoa.Engine.Share
import Protozoa.Engine.Steps

/-!
# One packet and many writers

`ccreader_do_writers` (`ccreader.c:173-188`) passes the reader's own packet to one writer after the
other, and three of the protocols change it before they encode it: `adjust_menu_commands`
(`pelco_d.c:484-492`, `pelco_p.c:501-509`, `vicon.c:465-473`) sets a preset, the iris or the pan
mode for a menu command. The next writer gets what is left, and so does the reader.

* `Isolated`: each writer does what it would do alone, and the packet stays as it was. What a writer
  does is what becomes of its `Share`.
* `doWritersLoop_spec`: the loop as one call for each node; `isolated_of_settled` is an induction on
  the nodes.
* **`isolated_iff`**: this holds, in any state and at any time, exactly for the packets in which no
  writer they are routed to has something to set.
* `not_isolated`: a menu command, a Pelco D writer and a Vicon writer.
-/

namespace Protozoa.Engine

open Lib.BitField

variable {κ : Type} [DecidableEq κ] {os : Os} {wtrs : Nat → Ccwriter κ}

/-- The engine, as a reader sees it; `none` once an assertion has failed. -/
def engineSink (os : Os) (wtrs : Nat → Ccwriter κ) : Sink (Option (World Nat κ)) where
  now
    | some w => (os.clock w.reading, some w.tick)
    | none => (⟨0, 0⟩, none)
  doWrite
    | some w, i, pkt =>
      match ccwriterDoWrite os wtrs (w.observe (.submit i pkt)) i pkt with
      | some (_, pkt, w) => (some w, pkt)
      | none => (none, pkt)
    | none, _, pkt => (none, pkt)

/-- A state that some run of the engine has led to. -/
def Reachable (os : Os) (wtrs : Nat → Ccwriter κ) (w : World Nat κ) : Prop :=
  ∃ slots channels actions, run os wtrs (start slots channels) actions = some w

theorem Reachable.shaped {w : World Nat κ} (h : Reachable os wtrs w) : Shaped w := by
  obtain ⟨slots, channels, actions, hrun⟩ := h
  obtain ⟨w', hrun', hw', -⟩ := @run_induction Nat κ _ _ os wtrs (fun _ => True) actions
    (fun _ _ _ _ _ _ _ => trivial) (start slots channels) (shaped_start slots channels) trivial
  obtain rfl := Option.some.inj (hrun.symm.trans hrun')
  exact hw'

/-- Each writer does what it does when its node is the only one (and the clock reads for it what it
reads in the list), and the packet of the reader stays as it was. -/
structure Isolated (os : Os) (wtrs : Nat → Ccwriter κ) (rdr : Ccreader) (w : World Nat κ) : Prop where
  packet : (ccreaderDoWriters (engineSink os wtrs) rdr (some w)).1.packet = rdr.packet
  alone : ∀ pre node post, rdr.head = pre ++ node :: post →
    ∀ w₁ ∈ (doWritersLoop (engineSink os wtrs) rdr.packet.receiver pre rdr.packet (some w)).2,
      (ccreaderDoWriters (engineSink os wtrs) rdr (some w)).2.map (share wtrs · node.writer) =
        (ccreaderDoWriters (engineSink os wtrs) { rdr with head := [node] }
          (some { w with reading := w₁.reading })).2.map (share wtrs · node.writer)

/-! ## What a protocol has to set -/

/-- `adjust_menu_commands` finds what it would set. -/
def Settled (p : Protocol) (pkt : Ccpacket) : Prop :=
  match p with
  | .manchester | .axis => True
  | .pelcoD | .pelcoP | .infinovaD =>
    (ccpacketGetMenu pkt = ccMenuOpen →
      ccpacketGetPresetMode pkt = ccPresetStore ∧ pkt.preset = Pelco.pelcoPresetMenuOpen) ∧
    (ccpacketGetMenu pkt = ccMenuEnter → ccpacketGetIris pkt = ccIrisOpen) ∧
    (ccpacketGetMenu pkt = ccMenuCancel → ccpacketGetIris pkt = ccIrisClose)
  | .vicon =>
    (ccpacketGetMenu pkt = ccMenuOpen →
      ccpacketGetPresetMode pkt = ccPresetStore ∧ pkt.preset = Vicon.viconPresetMenuOpen) ∧
    (ccpacketGetMenu pkt = ccMenuEnter → ccpacketGetPanMode pkt = ccPanAuto ∧ pkt.pan = 0) ∧
    (ccpacketGetMenu pkt = ccMenuCancel → ccpacketGetIris pkt = ccIrisAuto)

instance (p : Protocol) (pkt : Ccpacket) : Decidable (Settled p pkt) := by
  cases p <;> unfold Settled <;> infer_instance

theorem setFlags_eq_self {mask m : CcFlags} {members : List CcFlags} (pkt : Ccpacket)
    (hmem : m ∈ members) (hne : m ≠ 0#32) (hw : Within mask m) :
    setFlags mask pkt m = pkt ↔ member mask members pkt.flags = m := by
  rw [member_eq_iff hmem hne, ← put_eq_self hw]
  unfold setFlags
  constructor
  · intro h
    exact congrArg Ccpacket.flags h
  · intro h
    rw [h]

theorem setIris_eq_self {m : CcFlags} (hm : m ∈ [ccIrisClose, ccIrisOpen, ccIrisAuto]) (pkt : Ccpacket) :
    ccpacketSetIris pkt m = pkt ↔ ccpacketGetIris pkt = m := by
  have hsame : ccpacketIris m = m ∧ m ≠ 0#32 := by
    simp only [List.mem_cons, List.not_mem_nil, or_false] at hm
    rcases hm with rfl | rfl | rfl <;> decide
  unfold ccpacketSetIris
  rw [hsame.1]
  exact setFlags_eq_self pkt hm hsame.2 (hsame.1 ▸ within_member _ _ _)

theorem setPan_eq_self (pkt : Ccpacket) :
    ccpacketSetPan pkt ccPanAuto 0 = pkt ↔ ccpacketGetPanMode pkt = ccPanAuto ∧ pkt.pan = 0 := by
  have hflags := @setFlags_eq_self ccPan ccPanAuto [ccPanLeft, ccPanRight, ccPanAuto] pkt (by decide)
    (by decide) (within_member ccPan [ccPanLeft, ccPanRight, ccPanAuto] ccPanAuto)
  have hset : ccpacketSetPan pkt ccPanAuto 0 = { setFlags ccPan pkt ccPanAuto with pan := 0 } := rfl
  rw [hset, ← show _ ↔ ccpacketGetPanMode pkt = ccPanAuto from hflags]
  constructor
  · intro h
    have hpan : pkt.pan = 0 := (congrArg Ccpacket.pan h).symm
    refine ⟨?_, hpan⟩
    rw [← hpan] at h
    exact h
  · rintro ⟨h, hpan⟩
    rw [h, ← hpan]

theorem setPreset_eq_self {n : Int} (h0 : 0 < n) (hmenu : n ∉ [77, 78, 79]) (pkt : Ccpacket) :
    ccpacketSetPreset pkt ccPresetStore n = pkt ↔
      ccpacketGetPresetMode pkt = ccPresetStore ∧ pkt.preset = n := by
  rw [setPreset_store h0 hmenu]
  have hmode : pkt.preset = n → (ccpacketGetPresetMode pkt = ccPresetStore ↔
      put ccPreset ccPresetStore pkt.flags = pkt.flags) := by
    intro hn
    unfold ccpacketGetPresetMode ccpacketPreset
    rw [if_neg (by omega), put_eq_self within_presetStore]
    exact member_eq_iff (by decide) (by decide)
  constructor
  · intro h
    have hn : pkt.preset = n := (congrArg Ccpacket.preset h).symm
    exact ⟨(hmode hn).mpr (congrArg Ccpacket.flags h), hn⟩
  · rintro ⟨h, hn⟩
    rw [(hmode hn).mp h, ← hn]

/-- What is left for a protocol to set. -/
theorem adjust_eq_self_iff (p : Protocol) (pkt : Ccpacket) : p.adjust pkt = pkt ↔ Settled p pkt := by
  have hmenu : ∀ {pkt₁ pkt₂ pkt₃ : Ccpacket} {P₁ P₂ P₃ : Prop}, (pkt₁ = pkt ↔ P₁) → (pkt₂ = pkt ↔ P₂) →
      (pkt₃ = pkt ↔ P₃) →
      ((if ccpacketGetMenu pkt = ccMenuOpen then pkt₁
        else if ccpacketGetMenu pkt = ccMenuEnter then pkt₂
        else if ccpacketGetMenu pkt = ccMenuCancel then pkt₃ else pkt) = pkt ↔
        (ccpacketGetMenu pkt = ccMenuOpen → P₁) ∧ (ccpacketGetMenu pkt = ccMenuEnter → P₂) ∧
          (ccpacketGetMenu pkt = ccMenuCancel → P₃)) := by
    intro pkt₁ pkt₂ pkt₃ P₁ P₂ P₃ h₁ h₂ h₃
    have hoe : ccMenuOpen ≠ ccMenuEnter := by decide
    have hoc : ccMenuOpen ≠ ccMenuCancel := by decide
    have hec : ccMenuEnter ≠ ccMenuCancel := by decide
    by_cases hopen : ccpacketGetMenu pkt = ccMenuOpen
    · simp only [hopen, if_true, h₁, hoe, hoc, true_implies, false_implies, and_true]
    by_cases henter : ccpacketGetMenu pkt = ccMenuEnter
    · simp only [henter, hoe.symm, hec, if_true, if_false, h₂, true_implies, false_implies, and_true,
        true_and]
    by_cases hcancel : ccpacketGetMenu pkt = ccMenuCancel
    · simp only [hcancel, hoc.symm, hec.symm, if_true, if_false, h₃, true_implies, false_implies,
        true_and]
    · simp only [hopen, henter, hcancel, if_false, false_implies, and_self]
  have hpelco := hmenu (setPreset_eq_self (n := Pelco.pelcoPresetMenuOpen) (by decide) (by decide) pkt)
    (setIris_eq_self (m := ccIrisOpen) (by decide) pkt)
    (setIris_eq_self (m := ccIrisClose) (by decide) pkt)
  cases p with
  | manchester => exact iff_of_true rfl trivial
  | axis => exact iff_of_true rfl trivial
  | pelcoD => exact hpelco
  | pelcoP => exact hpelco
  | infinovaD => exact hpelco
  | vicon =>
    exact hmenu (setPreset_eq_self (n := Vicon.viconPresetMenuOpen) (by decide) (by decide) pkt)
      (setPan_eq_self pkt) (setIris_eq_self (m := ccIrisAuto) (by decide) pkt)

/-- No protocol has anything to set in a packet without a menu command. -/
theorem adjust_of_noMenu (p : Protocol) {pkt : Ccpacket} (h : ccpacketGetMenu pkt = 0) : p.adjust pkt = pkt := by
  have hnone : ∀ {P Q R : Prop}, ((0 : CcFlags) = ccMenuOpen → P) ∧ ((0 : CcFlags) = ccMenuEnter → Q) ∧
      ((0 : CcFlags) = ccMenuCancel → R) :=
    ⟨fun h => absurd h (by decide), fun h => absurd h (by decide), fun h => absurd h (by decide)⟩
  rw [adjust_eq_self_iff]
  unfold Settled
  rw [h]
  cases p with
  | manchester => trivial
  | axis => trivial
  | infinovaD => exact hnone
  | pelcoD => exact hnone
  | pelcoP => exact hnone
  | vicon => exact hnone

/-- The adjustment does not look at the receiver. -/
theorem adjust_setReceiver (p : Protocol) (pkt : Ccpacket) (r : Int) :
    p.adjust (ccpacketSetReceiver pkt r) = ccpacketSetReceiver (p.adjust pkt) r := by
  have hmenu : ∀ {f₁ f₂ f₃ : Ccpacket → Ccpacket}, (f₁ (ccpacketSetReceiver pkt r) = ccpacketSetReceiver (f₁ pkt) r) →
      (f₂ (ccpacketSetReceiver pkt r) = ccpacketSetReceiver (f₂ pkt) r) →
      (f₃ (ccpacketSetReceiver pkt r) = ccpacketSetReceiver (f₃ pkt) r) →
      (if ccpacketGetMenu pkt = ccMenuOpen then f₁ (ccpacketSetReceiver pkt r)
        else if ccpacketGetMenu pkt = ccMenuEnter then f₂ (ccpacketSetReceiver pkt r)
        else if ccpacketGetMenu pkt = ccMenuCancel then f₃ (ccpacketSetReceiver pkt r)
        else ccpacketSetReceiver pkt r) =
      ccpacketSetReceiver (if ccpacketGetMenu pkt = ccMenuOpen then f₁ pkt
        else if ccpacketGetMenu pkt = ccMenuEnter then f₂ pkt
        else if ccpacketGetMenu pkt = ccMenuCancel then f₃ pkt else pkt) r := by
    intro f₁ f₂ f₃ h₁ h₂ h₃
    split_ifs
    exacts [h₁, h₂, h₃, rfl]
  have hpreset : ∀ {n : Int}, 0 < n → n ∉ [77, 78, 79] →
      ccpacketSetPreset (ccpacketSetReceiver pkt r) ccPresetStore n =
        ccpacketSetReceiver (ccpacketSetPreset pkt ccPresetStore n) r := by
    intro n h0 hn
    rw [setPreset_store h0 hn, setPreset_store h0 hn]
    rfl
  have hpelco := @hmenu (ccpacketSetPreset · ccPresetStore Pelco.pelcoPresetMenuOpen)
    (ccpacketSetIris · ccIrisOpen) (ccpacketSetIris · ccIrisClose) (hpreset (by decide) (by decide)) rfl rfl
  cases p with
  | manchester => rfl
  | axis => rfl
  | pelcoD => exact hpelco
  | pelcoP => exact hpelco
  | infinovaD => exact hpelco
  | vicon =>
    exact @hmenu (ccpacketSetPreset · ccPresetStore Vicon.viconPresetMenuOpen)
      (ccpacketSetPan · ccPanAuto 0) (ccpacketSetIris · ccIrisAuto) (hpreset (by decide) (by decide)) rfl rfl

/-! ## One node -/

/-- What the loop does for one node. -/
def Share.doNode (sh : Share) (os : Os) (m : Nat) (wtr : Ccwriter κ) (node : Ccnode) (receiver : Int)
    (pkt : Ccpacket) : Ccpacket × Share :=
  let r := ccnodeGetReceiver node receiver
  if r ≠ 0 then sh.ccwriterDoWrite os m wtr (ccpacketSetReceiver pkt r) else (pkt, sh)

omit [DecidableEq κ] in
/-- The writer gets the receiver of the node, whatever the one before has left. -/
theorem Share.doNode_setReceiver (sh : Share) (os : Os) (m : Nat) (wtr : Ccwriter κ) (node : Ccnode)
    (receiver : Int) (pkt : Ccpacket) (r : Int) :
    (sh.doNode os m wtr node receiver (ccpacketSetReceiver pkt r)).2 =
      (sh.doNode os m wtr node receiver pkt).2 := by
  simp only [Share.doNode]
  split <;> rfl

/-- The packet is routed to a receiver of the writer. -/
def Routed (wtr : Ccwriter κ) (node : Ccnode) (receiver : Int) : Prop :=
  0 < ccnodeGetReceiver node receiver ∧ ccnodeGetReceiver node receiver ≤ wtr.protocol.nRcv

instance (wtr : Ccwriter κ) (node : Ccnode) (receiver : Int) : Decidable (Routed wtr node receiver) :=
  inferInstanceAs (Decidable (_ ∧ _))

omit [DecidableEq κ] in
/-- The packet is changed by a writer it is routed to, unless it is deferred. -/
theorem Share.doNode_packet (sh : Share) (os : Os) (m : Nat) (wtr : Ccwriter κ) (node : Ccnode)
    (receiver : Int) (pkt : Ccpacket) :
    ∃ r, (sh.doNode os m wtr node receiver pkt).1 = ccpacketSetReceiver
      (if Routed wtr node receiver ∧
          ¬sh.TooSoon os m wtr (ccpacketSetReceiver pkt (ccnodeGetReceiver node receiver)) then
        wtr.protocol.adjust pkt else pkt) r := by
  simp only [Share.doNode]
  by_cases hne : ccnodeGetReceiver node receiver ≠ 0
  · refine ⟨ccnodeGetReceiver node receiver, ?_⟩
    rw [if_pos hne, Share.ccwriterDoWrite_packet, adjust_setReceiver, apply_ite (ccpacketSetReceiver · _)]
    rfl
  · have hunrouted : ¬Routed wtr node receiver := fun h => hne h.1.ne'
    rw [if_neg hne, if_neg fun h => hunrouted h.1]
    exact ⟨pkt.receiver, rfl⟩

/-- The loop goes on with what the first nodes have left. -/
theorem doWritersLoop_append {σ : Type} (sink : Sink σ) (receiver : Int) (pre post : List Ccnode) :
    ∀ (pkt : Ccpacket) (s : σ), doWritersLoop sink receiver (pre ++ post) pkt s =
      doWritersLoop sink receiver post (doWritersLoop sink receiver pre pkt s).1
        (doWritersLoop sink receiver pre pkt s).2 := by
  induction pre with
  | nil => exact fun _ _ => rfl
  | cons node pre ih =>
    intro pkt s
    simp only [List.cons_append, doWritersLoop]
    split
    · exact ih _ _
    · exact ih _ _

/-- Two writers have nothing in common. -/
def Apart (wtrs : Nat → Ccwriter κ) (i j : Nat) : Prop := i ≠ j ∧ (wtrs i).chn ≠ (wtrs j).chn

variable {w : World Nat κ} {receiver : Int}

/-- **One node** does to its writer what the writer does on its own, and nothing to another. -/
theorem doWritersLoop_single (h : Shaped w) (node : Ccnode) (pkt : Ccpacket) :
    ∃ w', doWritersLoop (engineSink os wtrs) receiver [node] pkt (some w) =
        (((share wtrs w node.writer).doNode os w.reading (wtrs node.writer) node receiver pkt).1, some w') ∧
      Shaped w' ∧
      share wtrs w' node.writer =
        ((share wtrs w node.writer).doNode os w.reading (wtrs node.writer) node receiver pkt).2 ∧
      ∀ j, Apart wtrs j node.writer → share wtrs w' j = share wtrs w j := by
  unfold Share.doNode
  by_cases hr : ccnodeGetReceiver node receiver ≠ 0
  · obtain ⟨c, pkt', w', hrun, hwrites⟩ := @ccwriterDoWrite_writes Nat κ _ _ os wtrs
      (w.observe (.submit node.writer (ccpacketSetReceiver pkt (ccnodeGetReceiver node receiver)))) h
      node.writer (ccpacketSetReceiver pkt (ccnodeGetReceiver node receiver))
    obtain ⟨hself, hothers, -⟩ := ccwriterDoWrite_share wtrs hrun
    have hself : (pkt', share wtrs w' node.writer) = (share wtrs w node.writer).ccwriterDoWrite os
      w.reading (wtrs node.writer) (ccpacketSetReceiver pkt (ccnodeGetReceiver node receiver)) := hself
    refine ⟨w', ?_, hwrites.shaped h, ?_, fun j hj => (hothers j hj.1).2 hj.2⟩
    · rw [if_pos hr, ← hself]
      simp only [doWritersLoop, if_pos hr, engineSink, hrun]
    · rw [if_pos hr, ← hself]
  · refine ⟨w, ?_, h, ?_, fun _ _ => rfl⟩
    · rw [if_neg hr]
      simp only [doWritersLoop, if_neg hr]
    · rw [if_neg hr]

/-! ## The loop -/

/-- The loop returns, and does nothing to a writer that is in no node. -/
theorem doWritersLoop_spec : ∀ (nodes : List Ccnode) (pkt : Ccpacket) {w : World Nat κ}, Shaped w →
    ∃ pkt' w', doWritersLoop (engineSink os wtrs) receiver nodes pkt (some w) = (pkt', some w') ∧
      Shaped w' ∧
      ∀ j, (∀ node ∈ nodes, Apart wtrs j node.writer) → share wtrs w' j = share wtrs w j
  | [], pkt, w, h => ⟨pkt, w, rfl, h, fun _ _ => rfl⟩
  | node :: nodes, pkt, w, h => by
    obtain ⟨w₁, hrun₁, h₁, -, hothers₁⟩ := @doWritersLoop_single κ _ os wtrs w receiver h node pkt
    obtain ⟨pkt', w', hrun, h', hothers⟩ := doWritersLoop_spec nodes
      ((share wtrs w node.writer).doNode os w.reading (wtrs node.writer) node receiver pkt).1 h₁
    refine ⟨pkt', w', ?_, h', fun j hj => ?_⟩
    · have happend := doWritersLoop_append (engineSink os wtrs) receiver [node] nodes pkt (some w)
      rw [hrun₁] at happend
      exact happend.trans hrun
    · rw [hothers j fun node hnode => hj node (List.mem_cons_of_mem _ hnode)]
      exact hothers₁ j (hj node List.mem_cons_self)

/-- The writer of the node leaves the packet as it is, whatever the reading of the clock. -/
def Keeps (os : Os) (wtr : Ccwriter κ) (sh : Share) (node : Ccnode) (receiver : Int) (pkt : Ccpacket) :
    Prop :=
  ∀ m r₀, ∃ r, (sh.doNode os m wtr node receiver (ccpacketSetReceiver pkt r₀)).1 =
    ccpacketSetReceiver pkt r

/-- Writers that leave the packet as it is do so one after the other. -/
theorem doWritersLoop_keeps : ∀ {nodes : List Ccnode} {pkt : Ccpacket} {r₀ : Int} {w : World Nat κ},
    Shaped w → nodes.Pairwise (fun a b => Apart wtrs a.writer b.writer) →
    (∀ node ∈ nodes, Keeps os (wtrs node.writer) (share wtrs w node.writer) node receiver pkt) →
    ∃ r, (doWritersLoop (engineSink os wtrs) receiver nodes (ccpacketSetReceiver pkt r₀) (some w)).1 =
      ccpacketSetReceiver pkt r
  | [], _, r₀, _, _, _, _ => ⟨r₀, rfl⟩
  | node :: nodes, pkt, r₀, w, h, hapart, hkeeps => by
    obtain ⟨hnode, hnodes⟩ := List.pairwise_cons.mp hapart
    obtain ⟨w₁, hrun₁, h₁, -, hothers₁⟩ :=
      @doWritersLoop_single κ _ os wtrs w receiver h node (ccpacketSetReceiver pkt r₀)
    obtain ⟨r₁, hr₁⟩ := hkeeps node List.mem_cons_self w.reading r₀
    have hkeeps₁ : ∀ a ∈ nodes, Keeps os (wtrs a.writer) (share wtrs w₁ a.writer) a receiver pkt := by
      intro a ha
      rw [hothers₁ a.writer ⟨(hnode a ha).1.symm, (hnode a ha).2.symm⟩]
      exact hkeeps a (List.mem_cons_of_mem _ ha)
    obtain ⟨r, hr⟩ := @doWritersLoop_keeps nodes pkt r₁ w₁ h₁ hnodes hkeeps₁
    refine ⟨r, ?_⟩
    have happend := doWritersLoop_append (engineSink os wtrs) receiver [node] nodes
      (ccpacketSetReceiver pkt r₀) (some w)
    rw [hrun₁, hr₁] at happend
    rw [show node :: nodes = [node] ++ nodes from rfl, happend]
    exact hr

omit [DecidableEq κ] in
theorem keeps_of_settled {wtr : Ccwriter κ} {node : Ccnode} {pkt : Ccpacket}
    (h : Routed wtr node receiver → Settled wtr.protocol pkt) (sh : Share) :
    Keeps os wtr sh node receiver pkt := by
  intro m r₀
  obtain ⟨r, hr⟩ := sh.doNode_packet os m wtr node receiver (ccpacketSetReceiver pkt r₀)
  refine ⟨r, hr.trans ?_⟩
  split
  · rename_i hrouted
    rw [adjust_setReceiver, (adjust_eq_self_iff _ _).mpr (h hrouted.1)]
    rfl
  · rfl

omit [DecidableEq κ] in
theorem keeps_of_tooSoon {wtr : Ccwriter κ} {node : Ccnode} {pkt : Ccpacket} {sh : Share}
    (h : ∀ m pkt, sh.TooSoon os m wtr pkt) : Keeps os wtr sh node receiver pkt := by
  intro m r₀
  obtain ⟨r, hr⟩ := sh.doNode_packet os m wtr node receiver (ccpacketSetReceiver pkt r₀)
  rw [if_neg fun hrouted => hrouted.2 (h m _)] at hr
  exact ⟨r, hr⟩

/-! ## The writers of a reader -/

/-- No writer to which the packet is routed has something to set. -/
def AllSettled (wtrs : Nat → Ccwriter κ) (rdr : Ccreader) : Prop :=
  ∀ node ∈ rdr.head, Routed (wtrs node.writer) node rdr.packet.receiver →
    Settled (wtrs node.writer).protocol rdr.packet

/-- The writers of the nodes are different ones, and so are their channels. -/
structure Distinct (wtrs : Nat → Ccwriter κ) (nodes : List Ccnode) : Prop where
  writers : (nodes.map Ccnode.writer).Nodup
  channels : (nodes.map fun node => (wtrs node.writer).chn).Nodup

omit [DecidableEq κ] in
theorem Distinct.pairwise {nodes : List Ccnode} (h : Distinct wtrs nodes) :
    nodes.Pairwise fun a b => Apart wtrs a.writer b.writer :=
  (List.pairwise_map.mp h.writers).and (List.pairwise_map.mp h.channels)

theorem setReceiver_receiver (pkt : Ccpacket) : ccpacketSetReceiver pkt pkt.receiver = pkt := rfl

/-- Writers with nothing to set do not influence each other. -/
theorem isolated_of_settled {rdr : Ccreader} (hdistinct : Distinct wtrs rdr.head)
    (h : AllSettled wtrs rdr) (hw : Shaped w) : Isolated os wtrs rdr w := by
  have hkeeps : ∀ node ∈ rdr.head, ∀ sh : Share,
      Keeps os (wtrs node.writer) sh node rdr.packet.receiver rdr.packet :=
    fun node hnode sh => keeps_of_settled (h node hnode) sh
  refine ⟨?_, fun pre node post hsplit w₁ hw₁ => ?_⟩
  · obtain ⟨r, hr⟩ := @doWritersLoop_keeps κ _ os wtrs rdr.packet.receiver rdr.head rdr.packet
      rdr.packet.receiver w hw hdistinct.pairwise fun node hnode => hkeeps node hnode _
    rw [setReceiver_receiver] at hr
    show ccpacketSetReceiver (doWritersLoop _ _ rdr.head rdr.packet (some w)).1 _ = _
    rw [hr]
    rfl
  · have hapart := hdistinct.pairwise
    rw [hsplit] at hapart hkeeps
    obtain ⟨hpre, hpost, hcross⟩ := List.pairwise_append.mp hapart
    obtain ⟨r, hr⟩ := @doWritersLoop_keeps κ _ os wtrs rdr.packet.receiver pre rdr.packet
      rdr.packet.receiver w hw hpre fun a ha => hkeeps a (List.mem_append_left _ ha) _
    obtain ⟨pkt₁, w₁', hrun₁, h₁, hothers₁⟩ :=
      @doWritersLoop_spec κ _ os wtrs rdr.packet.receiver pre rdr.packet w hw
    rw [setReceiver_receiver, hrun₁] at hr
    rw [hrun₁] at hw₁
    obtain rfl : w₁' = w₁ := Option.some.inj hw₁
    obtain rfl : pkt₁ = ccpacketSetReceiver rdr.packet r := hr
    -- in the list the writer finds its share as it was, and nobody touches it afterwards
    have hbefore : share wtrs w₁' node.writer = share wtrs w node.writer :=
      hothers₁ node.writer fun a ha =>
        ⟨(hcross a ha node List.mem_cons_self).1.symm, (hcross a ha node List.mem_cons_self).2.symm⟩
    obtain ⟨w₂, hrun₂, h₂, hself₂, -⟩ := @doWritersLoop_single κ _ os wtrs w₁' rdr.packet.receiver h₁ node
      (ccpacketSetReceiver rdr.packet r)
    obtain ⟨pkt₃, w₃, hrun₃, -, hothers₃⟩ := @doWritersLoop_spec κ _ os wtrs rdr.packet.receiver post _ w₂ h₂
    have hafter := hothers₃ node.writer fun a ha => (List.pairwise_cons.mp hpost).1 a ha
    have hall : (ccreaderDoWriters (engineSink os wtrs) rdr (some w)).2 = some w₃ := by
      show (doWritersLoop _ _ rdr.head rdr.packet (some w)).2 = some w₃
      rw [hsplit, doWritersLoop_append, hrun₁]
      rw [show node :: post = [node] ++ post from rfl, doWritersLoop_append, hrun₂, hrun₃]
    -- and so it does alone
    have h₀ : Shaped { w with reading := w₁'.reading } := hw
    obtain ⟨w₄, hrun₄, -, hself₄, -⟩ := @doWritersLoop_single κ _ os wtrs { w with reading := w₁'.reading }
      rdr.packet.receiver h₀ node rdr.packet
    have halone : (ccreaderDoWriters (engineSink os wtrs) { rdr with head := [node] }
        (some { w with reading := w₁'.reading })).2 = some w₄ := congrArg Prod.snd hrun₄
    rw [hall, halone, Option.map_some, Option.map_some, hafter, hself₂, hself₄, hbefore,
      Share.doNode_setReceiver]
    rfl

/-! ## A writer that does not settle -/

/-- A clock that stands still. -/
def standing : Os := ⟨fun _ => ⟨1000, 0⟩, fun _ => by decide, fun _ => le_rfl, 65536⟩

/-- Every slot has just been written but one. -/
def startBut (dpkt : Slot Nat) : World Nat κ :=
  start (fun s => if s = dpkt then (⟨0, 0⟩, ⟨0, 0⟩) else (⟨1000, 0⟩, ⟨0, 0⟩)) fun _ => channelInit [] 0

omit [DecidableEq κ] in
theorem tooSoon_startBut {dpkt : Slot Nat} {wtr : Ccwriter κ} (n : Nat) :
    timeSince (standing.clock n) ((startBut dpkt : World Nat κ).slots dpkt).sent ≥ wtr.protocol.gaptime ∧
      ∀ s, s ≠ dpkt → 0 < wtr.protocol.gaptime →
        timeSince (standing.clock n) ((startBut dpkt : World Nat κ).slots s).sent < wtr.protocol.gaptime := by
  refine ⟨?_, fun s hs hgap => ?_⟩
  · simp only [startBut, start, deferredPktInit, if_true, standing]
    cases wtr.protocol <;> decide
  · simp only [startBut, start, deferredPktInit, if_neg hs, standing]
    exact Int.ofNat_lt.mpr hgap

omit [DecidableEq κ] in
/-- The other writers leave the packet as it is. -/
theorem keeps_startBut {dpkt : Slot Nat} {node : Ccnode} (hne : node.writer ≠ dpkt.1) (pkt : Ccpacket) :
    Keeps standing (wtrs node.writer) (share wtrs (startBut dpkt) node.writer) node receiver pkt := by
  by_cases hgap : 0 < (wtrs node.writer).protocol.gaptime
  · refine keeps_of_tooSoon fun m pkt => ?_
    exact (tooSoon_startBut m).2 (node.writer, _) (fun heq => hne (congrArg Prod.fst heq)) hgap
  · -- without a gap there is nothing to set either
    have hmanchester : (wtrs node.writer).protocol = .manchester := by
      revert hgap
      cases (wtrs node.writer).protocol <;> decide
    refine keeps_of_settled (fun _ => ?_) _
    rw [hmanchester]
    trivial

/-- A writer that has something to set leaves it in the packet, when those before and after it are
too soon. -/
theorem settled_of_isolated {rdr : Ccreader} (hdistinct : Distinct wtrs rdr.head)
    (h : ∀ (os : Os) (w : World Nat κ), Shaped w → Isolated os wtrs rdr w) : AllSettled wtrs rdr := by
  intro node hnode hrouted
  set r := ccnodeGetReceiver node rdr.packet.receiver with hr
  set dpkt : Slot Nat := (node.writer, (r - 1).toNat) with hdpkt
  set adjusted := (wtrs node.writer).protocol.adjust rdr.packet with hadjusted
  have hw : Shaped (startBut dpkt : World Nat κ) := shaped_start _ _
  obtain ⟨pre, post, hsplit⟩ := List.append_of_mem hnode
  have hapart := hdistinct.pairwise
  rw [hsplit] at hapart
  obtain ⟨hpre, hpost, hcross⟩ := List.pairwise_append.mp hapart
  obtain ⟨hfirst, hpost⟩ := List.pairwise_cons.mp hpost
  -- the nodes before it
  obtain ⟨r₁, hr₁⟩ := @doWritersLoop_keeps κ _ standing wtrs rdr.packet.receiver pre rdr.packet
    rdr.packet.receiver _ hw hpre fun a ha => keeps_startBut (hcross a ha node List.mem_cons_self).1 _
  obtain ⟨pkt₁, w₁, hrun₁, h₁, hothers₁⟩ :=
    @doWritersLoop_spec κ _ standing wtrs rdr.packet.receiver pre rdr.packet _ hw
  rw [setReceiver_receiver, hrun₁] at hr₁
  obtain rfl : pkt₁ = ccpacketSetReceiver rdr.packet r₁ := hr₁
  have hbefore := hothers₁ node.writer fun a ha =>
    ⟨(hcross a ha node List.mem_cons_self).1.symm, (hcross a ha node List.mem_cons_self).2.symm⟩
  -- the node itself
  obtain ⟨w₂, hrun₂, h₂, -, hothers₂⟩ := @doWritersLoop_single κ _ standing wtrs w₁ rdr.packet.receiver h₁
    node (ccpacketSetReceiver rdr.packet r₁)
  obtain ⟨r₂, hr₂⟩ := (share wtrs w₁ node.writer).doNode_packet standing w₁.reading (wtrs node.writer) node
    rdr.packet.receiver (ccpacketSetReceiver rdr.packet r₁)
  have hnow : ¬(share wtrs w₁ node.writer).TooSoon standing w₁.reading (wtrs node.writer)
      (ccpacketSetReceiver (ccpacketSetReceiver rdr.packet r₁) r) := by
    rw [hbefore]
    exact not_lt.mpr (tooSoon_startBut w₁.reading).1
  rw [if_pos ⟨hrouted, hnow⟩, adjust_setReceiver, ← hadjusted] at hr₂
  rw [hr₂] at hrun₂
  -- the nodes after it
  have hkeeps₂ : ∀ a ∈ post, Keeps standing (wtrs a.writer) (share wtrs w₂ a.writer) a
      rdr.packet.receiver adjusted := by
    intro a ha
    have hother : share wtrs w₂ a.writer = share wtrs (startBut dpkt) a.writer := by
      rw [hothers₂ a.writer ⟨(hfirst a ha).1.symm, (hfirst a ha).2.symm⟩]
      exact hothers₁ a.writer fun b hb =>
        ⟨(hcross b hb a (List.mem_cons_of_mem _ ha)).1.symm, (hcross b hb a (List.mem_cons_of_mem _ ha)).2.symm⟩
    rw [hother]
    exact keeps_startBut (hfirst a ha).1.symm adjusted
  obtain ⟨r₃, hr₃⟩ := @doWritersLoop_keeps κ _ standing wtrs rdr.packet.receiver post adjusted r₂ w₂ h₂ hpost
    hkeeps₂
  have hall : (doWritersLoop (engineSink standing wtrs) rdr.packet.receiver rdr.head rdr.packet
      (some (startBut dpkt))).1 = ccpacketSetReceiver adjusted r₃ := by
    rw [hsplit, doWritersLoop_append, hrun₁, show node :: post = [node] ++ post from rfl,
      doWritersLoop_append, hrun₂]
    exact hr₃
  have hpacket := (h standing _ hw).packet
  have hsame : ccpacketSetReceiver adjusted rdr.packet.receiver = rdr.packet := by
    refine Eq.trans ?_ hpacket
    show _ = ccpacketSetReceiver (doWritersLoop _ _ rdr.head rdr.packet (some (startBut dpkt))).1 _
    rw [hall]
    rfl
  rw [← adjust_eq_self_iff, ← hadjusted]
  rw [← (settles_adjust (wtrs node.writer).protocol).receiver rdr.packet, ← hadjusted,
    setReceiver_receiver] at hsame
  exact hsame

/-- **Writers do not influence each other**, at any time and in any state, exactly for the packets
in which none of them has something to set. -/
theorem isolated_iff (wtrs : Nat → Ccwriter κ) (rdr : Ccreader) (hdistinct : Distinct wtrs rdr.head) :
    (∀ (os : Os) (w : World Nat κ), Shaped w → Isolated os wtrs rdr w) ↔ AllSettled wtrs rdr :=
  ⟨settled_of_isolated hdistinct, fun h _ _ hw => isolated_of_settled hdistinct h hw⟩

instance (wtrs : Nat → Ccwriter κ) (rdr : Ccreader) : Decidable (AllSettled wtrs rdr) :=
  inferInstanceAs (Decidable (∀ node ∈ rdr.head, _ → _))

/-- Packets that the setters can produce. -/
inductive Made : Ccpacket → Prop
  | create (now : Timeval) : Made (ccpacketCreate now)
  | clear {pkt : Ccpacket} (h : Made pkt) : Made (ccpacketClear pkt)
  | receiver {pkt : Ccpacket} (h : Made pkt) (r : Int) : Made (ccpacketSetReceiver pkt r)
  | menu {pkt : Ccpacket} (h : Made pkt) (mc : CcFlags) : Made (ccpacketSetMenu pkt mc)
  | camera {pkt : Ccpacket} (h : Made pkt) (cc : CcFlags) : Made (ccpacketSetCamera pkt cc)
  | pan {pkt : Ccpacket} (h : Made pkt) (pm : CcFlags) (speed : Int) : Made (ccpacketSetPan pkt pm speed)
  | panSpeed {pkt : Ccpacket} (h : Made pkt) (speed : Int) : Made (ccpacketSetPanSpeed pkt speed)
  | tilt {pkt : Ccpacket} (h : Made pkt) (tm : CcFlags) (speed : Int) : Made (ccpacketSetTilt pkt tm speed)
  | tiltSpeed {pkt : Ccpacket} (h : Made pkt) (speed : Int) : Made (ccpacketSetTiltSpeed pkt speed)
  | timeout {pkt : Ccpacket} (h : Made pkt) (now : Timeval) (ms : Nat) : Made (ccpacketSetTimeout now pkt ms)
  | preset {pkt : Ccpacket} (h : Made pkt) (pm : CcFlags) (n : Int) : Made (ccpacketSetPreset pkt pm n)
  | zoom {pkt : Ccpacket} (h : Made pkt) (zm : CcFlags) : Made (ccpacketSetZoom pkt zm)
  | focus {pkt : Ccpacket} (h : Made pkt) (fm : CcFlags) : Made (ccpacketSetFocus pkt fm)
  | iris {pkt : Ccpacket} (h : Made pkt) (im : CcFlags) : Made (ccpacketSetIris pkt im)
  | lens {pkt : Ccpacket} (h : Made pkt) (lm : CcFlags) : Made (ccpacketSetLens pkt lm)
  | wiper {pkt : Ccpacket} (h : Made pkt) (wm : CcFlags) : Made (ccpacketSetWiper pkt wm)
  | ack {pkt : Ccpacket} (h : Made pkt) (am : CcFlags) : Made (ccpacketSetAck pkt am)

/-- A Pelco D writer and a Vicon writer, each on its own channel. -/
def mixedWriters (i : Nat) : Ccwriter Nat := ⟨if i = 0 then .pelcoD else .vicon, i, none⟩

/-- A reader with both of them, and a packet for receiver 1. -/
def mixedReader (pkt : Ccpacket) : Ccreader :=
  ⟨ccpacketSetReceiver pkt 1, Vicon.viconTimeout, 0, [⟨0, 1, 1024, 0⟩, ⟨1, 1, 1024, 0⟩]⟩

theorem distinct_mixedReader (pkt : Ccpacket) : Distinct mixedWriters (mixedReader pkt).head :=
  ⟨show [0, 1].Nodup by decide, show [0, 1].Nodup by decide⟩

/-- A menu command, for which a Pelco D writer opens the iris and a Vicon writer pans automatically;
it does both already. -/
def enterPacket : Ccpacket :=
  ccpacketSetMenu (ccpacketSetPan (ccpacketSetIris (ccpacketCreate ⟨0, 0⟩) ccIrisOpen) ccPanAuto 0) ccMenuEnter

theorem isolated_iff_menu : Isolated standing mixedWriters (mixedReader enterPacket) (startBut (0, 0)) :=
  (isolated_iff mixedWriters _ (distinct_mixedReader _)).mpr (by decide) _ _ (shaped_start _ _)

/-- The menu command for the Pelco D writer opens the iris, and the Vicon writer opens it, too. -/
theorem not_isolated : ¬∀ (wtrs : Nat → Ccwriter Nat) (rdr : Ccreader), Made rdr.packet →
    Distinct wtrs rdr.head → ∀ (os : Os) (w : World Nat Nat), Shaped w → Isolated os wtrs rdr w := by
  intro hall
  have hmade : Made (mixedReader (ccpacketSetMenu (ccpacketCreate ⟨0, 0⟩) ccMenuEnter)).packet :=
    ((Made.create _).menu _).receiver _
  have hdistinct := distinct_mixedReader (ccpacketSetMenu (ccpacketCreate ⟨0, 0⟩) ccMenuEnter)
  have hsettled := settled_of_isolated hdistinct (hall mixedWriters _ hmade hdistinct)
  revert hsettled
  decide

end Protozoa.Engine
