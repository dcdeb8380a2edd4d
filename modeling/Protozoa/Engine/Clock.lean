import Protozoa.Engine.Steps

/-!
# A clock that others read too

A reader takes the time of day before it passes a packet to the writers (`ccpacket_set_timeout`,
`ccpacket.c:243-246`), so that the engine does not see every reading of the clock. A `Turn` is an
action of the engine or such a reading.

* `Local`: a function of the engine depends on no readings but those it takes; `local_deferRearm`,
  `local_deferPacket` and the lemmas after them go through all of them.
* `step_agrees`, `run_reread`: the same actions on another clock with the same readings from here on
  (`World.reread`).
* **`turns_refines`**: what happens in turns is a run of the engine, on a clock with the readings
  that it takes itself (`Os.thin`), so that results on runs hold of turns.
-/

namespace Protozoa.Engine

open Clump

variable {ι κ : Type}

/-- Some of the readings of the clock. -/
def Os.thin (os : Os) (g : Nat → Nat) (hg : StrictMono g) : Os where
  clock n := os.clock (g n)
  normal n := os.normal (g n)
  mono h := os.mono (hg.monotone h)
  pipeSize := os.pipeSize

/-- What happens in the program. -/
inductive Turn (ι κ : Type) where
  /-- an action of the engine -/
  | act (a : Action ι κ)
  /-- a reader reads the clock -/
  | look

/-- One turn. -/
def turn [DecidableEq ι] [DecidableEq κ] (os : Os) (wtrs : ι → Ccwriter κ) (w : World ι κ) :
    Turn ι κ → Option (World ι κ)
  | .act a => step os wtrs w a
  | .look => some w.tick

/-- Turns one after the other. -/
def turns [DecidableEq ι] [DecidableEq κ] (os : Os) (wtrs : ι → Ccwriter κ) (w : World ι κ)
    (ts : List (Turn ι κ)) : Option (World ι κ) :=
  ts.foldlM (turn os wtrs) w

/-- The same state before another reading. -/
def World.reread (w : World ι κ) (r : Nat) : World ι κ := { w with reading := r }

/-- The next `n` readings of the one clock are those of the other. -/
structure Agree (os os' : Os) (r r' n : Nat) : Prop where
  clock : ∀ j < n, os'.clock (r' + j) = os.clock (r + j)
  pipeSize : os'.pipeSize = os.pipeSize

/-- A function that returns `x` has taken `n` readings, and would have done the same with them on
any clock. -/
def Local {α : Type} (f : Os → World ι κ → Option (α × World ι κ)) : Prop :=
  ∀ {os w x w'}, f os w = some (x, w') → ∃ n, w'.reading = w.reading + n ∧
    ∀ {os' r'}, Agree os os' w.reading r' n → f os' (w.reread r') = some (x, w'.reread (r' + n))

namespace Agree

variable {os os' : Os} {r r' n m : Nat}

theorem left (h : Agree os os' r r' (n + m)) : Agree os os' r r' n :=
  ⟨fun j hj => h.clock j (Nat.lt_add_right m hj), h.pipeSize⟩

theorem right (h : Agree os os' r r' (n + m)) : Agree os os' (r + n) (r' + n) m := by
  refine ⟨fun j hj => ?_, h.pipeSize⟩
  rw [Nat.add_assoc, Nat.add_assoc]
  exact h.clock (n + j) (Nat.add_lt_add_left hj n)

/-- The first of the readings. -/
theorem head (h : Agree os os' r r' (n + 1)) : os'.clock r' = os.clock r := h.clock 0 n.succ_pos

/-- The readings behind the first. -/
theorem tail (h : Agree os os' r r' (n + 1)) : Agree os os' (r + 1) (r' + 1) n := by
  rw [Nat.add_comm n 1] at h
  exact h.right

theorem timerArm (h : Agree os os' r r' n) : Engine.timerArm os' = Engine.timerArm os := by
  funext now msec t
  unfold Engine.timerArm timerWrite
  rw [h.pipeSize]

end Agree

@[simp] theorem reread_self (w : World ι κ) : w.reread w.reading = w := rfl

@[simp] theorem slots_reread (w : World ι κ) (r : Nat) : (w.reread r).slots = w.slots := rfl

theorem deferRemove_reread (w : World ι κ) (dpkt : Slot ι) (r : Nat) :
    deferRemove (w.reread r) dpkt = (deferRemove w dpkt).map (·.reread r) := by
  unfold deferRemove
  change (clRbtreeRemove (comparePkts w.slots) w.tree dpkt).bind _ = _
  cases clRbtreeRemove (comparePkts w.slots) w.tree dpkt <;> rfl

theorem deferRemove_reading {w w' : World ι κ} {dpkt : Slot ι} (h : deferRemove w dpkt = some w') :
    w'.reading = w.reading := by
  unfold deferRemove at h
  obtain ⟨x, -, h⟩ := Option.bind_eq_some_iff.mp h
  obtain rfl := Option.some.inj h
  rfl

/-- `defer_rearm`, when there is a slot to arm the timer for. -/
theorem deferRearm_armed (os : Os) {w : World ι κ} {dpkt : Slot ι} (hpeek : clRbtreePeek w.tree = some (some dpkt)) :
    deferRearm os w =
      let tv := (w.slots dpkt).tv
      let (r, timer) := timerArm os (os.clock (w.reading + 1)) (timeFromNow (os.clock w.reading) tv).toNat w.timer
      some (r, { w.tick.tick.observe (.rearm w.timer.pipe tv (os.clock w.reading)) with timer := timer }) := by
  simp only [deferRearm, hpeek, Option.bind_eq_bind, Option.bind_some]
  rfl

theorem deferRearm_disarmed (os : Os) {w : World ι κ} (hpeek : clRbtreePeek w.tree = some none) :
    deferRearm os w = some ((timerDisarm w.timer).1, { w with timer := (timerDisarm w.timer).2 }) := by
  simp only [deferRearm, hpeek, Option.bind_eq_bind, Option.bind_some]
  rfl

theorem local_deferRearm : Local (@deferRearm ι κ) := by
  intro os w x w' h
  obtain ⟨head, hpeek, -⟩ := Option.bind_eq_some_iff.mp (show (clRbtreePeek w.tree).bind _ = some (x, w') from h)
  cases head with
  | none =>
    rw [deferRearm_disarmed os hpeek] at h
    obtain ⟨rfl, rfl⟩ := Prod.mk.inj (Option.some.inj h)
    exact ⟨0, rfl, fun {os' r'} _ => deferRearm_disarmed os' (w := w.reread r') hpeek⟩
  | some dpkt =>
    rw [deferRearm_armed os hpeek] at h
    obtain ⟨rfl, rfl⟩ := Prod.mk.inj (Option.some.inj h)
    refine ⟨2, rfl, fun {os' r'} hagree => ?_⟩
    rw [deferRearm_armed os' (w := w.reread r') hpeek]
    have hnow : os'.clock (w.reread r').reading = os.clock w.reading := hagree.head
    have hkernel : os'.clock ((w.reread r').reading + 1) = os.clock (w.reading + 1) := hagree.tail.head
    rw [hnow, hkernel, hagree.timerArm]
    rfl

theorem expired_later {t : Timer} {now now' : Timeval} (h : t.expired now = true) (hle : now.toUsec ≤ now'.toUsec) :
    t.expired now' = true := by
  unfold Timer.expired at h ⊢
  split at h
  · cases h
  · exact decide_eq_true (Int.le_trans (of_decide_eq_true h) hle)

variable [DecidableEq ι]

theorem local_deferPacket (dpkt : Slot ι) (pkt : Option Ccpacket) (ms : Nat) :
    Local fun os (w : World ι κ) => deferPacket os w dpkt pkt ms := by
  intro os w x w' h
  obtain ⟨w₁, hremove, h⟩ := Option.bind_eq_some_iff.mp (show (deferRemove w dpkt).bind _ = some (x, w') from h)
  have hreading := deferRemove_reading hremove
  have hremove' : ∀ r', deferRemove (w.reread r') dpkt = some (w₁.reread r') := by
    intro r'
    rw [deferRemove_reread, hremove]
    rfl
  cases pkt with
  | none =>
    obtain ⟨n, hn, hlocal⟩ := local_deferRearm h
    refine ⟨n, hreading ▸ hn, fun {os' r'} hagree => ?_⟩
    exact Option.bind_eq_some_iff.mpr ⟨_, hremove' r', hlocal (hreading ▸ hagree)⟩
  | some pkt =>
    obtain ⟨⟨v, tree⟩, hadd, h⟩ := Option.bind_eq_some_iff.mp h
    obtain ⟨n, hn, hlocal⟩ := local_deferRearm h
    refine ⟨n + 1, ?_, fun {os' r'} hagree => ?_⟩
    · rw [hn, ← hreading, Nat.add_comm n 1, ← Nat.add_assoc]
      rfl
    · rw [← hreading] at hagree
      have hnow : os'.clock (w₁.reread r').reading = os.clock w₁.reading := hagree.head
      refine Option.bind_eq_some_iff.mpr ⟨_, hremove' r', ?_⟩
      simp only [hnow]
      refine Option.bind_eq_some_iff.mpr ⟨(v, tree), hadd, ?_⟩
      rw [Nat.add_comm n 1, ← Nat.add_assoc]
      exact hlocal hagree.tail

/-- A call of `defer_packet` after `k` readings, and a last change of the state. -/
theorem deferPacket_agrees {os : Os} {w w₀ w' : World ι κ} {dpkt : Slot ι} {again : Option Ccpacket} {ms k : Nat}
    {u : World ι κ → World ι κ} (hu : ∀ w r, u (w.reread r) = (u w).reread r)
    (h : ((deferPacket os w₀ dpkt again ms).bind fun y => some (u y.2)) = some w')
    (hk : w₀.reading = w.reading + k) :
    ∃ n, w'.reading = w.reading + (k + n) ∧ ∀ {os' r'}, Agree os os' w.reading r' (k + n) →
      ((deferPacket os' (w₀.reread (r' + k)) dpkt again ms).bind fun y => some (u y.2)) =
        some (w'.reread (r' + (k + n))) := by
  obtain ⟨⟨c, w₁⟩, hrun, heq⟩ := Option.bind_eq_some_iff.mp h
  obtain rfl := Option.some.inj heq
  obtain ⟨n, hn, hlocal⟩ := local_deferPacket dpkt again ms hrun
  have hsame : (u w₁).reading = w₁.reading := by
    have hself := congrArg World.reading (hu w₁ w₁.reading)
    exact hself
  refine ⟨n, ?_, fun {os' r'} hagree => ?_⟩
  · rw [hsame, hn, hk, Nat.add_assoc]
  · have hright := hagree.right
    rw [← hk] at hright
    refine Option.bind_eq_some_iff.mpr ⟨_, hlocal hright, ?_⟩
    rw [hu, Nat.add_assoc]

variable (wtrs : ι → Ccwriter κ)

theorem ccwriterCheckDeferred_agrees {os : Os} {w w' : World ι κ} {i : ι} {pkt : Ccpacket} {dpkt : Slot ι}
    (h : ccwriterCheckDeferred os wtrs w i pkt dpkt = some w') :
    ∃ n, w'.reading = w.reading + n ∧ ∀ {os' r'}, Agree os os' w.reading r' n →
      ccwriterCheckDeferred os' wtrs (w.reread r') i pkt dpkt = some (w'.reread (r' + n)) := by
  unfold ccwriterCheckDeferred at h
  simp only [World.setSlot_slots_self] at h
  by_cases hstop : ccpacketIsStop pkt = true
  · rw [if_pos hstop] at h
    by_cases hcnt : (w.slots dpkt).nCnt < 1
    · rw [if_pos hcnt] at h
      obtain ⟨n, hn, hagrees⟩ := deferPacket_agrees (w := w) (k := 1)
        (u := fun w => w.setSlot dpkt { w.slots dpkt with nCnt := (w.slots dpkt).nCnt + 1 }) (fun _ _ => rfl) h rfl
      refine ⟨1 + n, hn, fun {os' r'} hagree => ?_⟩
      have hnow : os'.clock (w.reread r').reading = os.clock w.reading := hagree.left.head
      unfold ccwriterCheckDeferred
      simp only [World.setSlot_slots_self, slots_reread, if_pos hstop, if_pos hcnt, hnow]
      exact hagrees hagree
    · rw [if_neg hcnt] at h
      obtain ⟨n, hn, hagrees⟩ := deferPacket_agrees (w := w) (k := 1) (u := id) (fun _ _ => rfl) h rfl
      refine ⟨1 + n, hn, fun {os' r'} hagree => ?_⟩
      have hnow : os'.clock (w.reread r').reading = os.clock w.reading := hagree.left.head
      unfold ccwriterCheckDeferred
      simp only [World.setSlot_slots_self, slots_reread, if_pos hstop, if_neg hcnt, hnow]
      exact hagrees hagree
  · rw [if_neg hstop] at h
    by_cases hexpired : ccpacketIsExpired (os.clock (w.reading + 1)) pkt (wtrs i).protocol.timeout = true
    · have h' := (if_pos hexpired).symm.trans h
      obtain ⟨n, hn, hagrees⟩ := deferPacket_agrees (w := w) (k := 2) (u := id) (fun _ _ => rfl) h' rfl
      refine ⟨2 + n, hn, fun {os' r'} hagree => ?_⟩
      have hnow : os'.clock (w.reread r').reading = os.clock w.reading := hagree.left.head
      have hlater : os'.clock (r' + 1) = os.clock (w.reading + 1) := hagree.left.tail.head
      unfold ccwriterCheckDeferred
      simp only [slots_reread, if_neg hstop, hnow]
      rw [← hlater] at hexpired
      exact (if_pos hexpired).trans (hagrees hagree)
    · have h' := (if_neg hexpired).symm.trans h
      obtain ⟨n, hn, hagrees⟩ := deferPacket_agrees (w := w) (k := 2) (u := id) (fun _ _ => rfl) h' rfl
      refine ⟨2 + n, hn, fun {os' r'} hagree => ?_⟩
      have hnow : os'.clock (w.reread r').reading = os.clock w.reading := hagree.left.head
      have hlater : os'.clock (r' + 1) = os.clock (w.reading + 1) := hagree.left.tail.head
      unfold ccwriterCheckDeferred
      simp only [slots_reread, if_neg hstop, hnow]
      rw [← hlater] at hexpired
      exact (if_neg hexpired).trans (hagrees hagree)

variable [DecidableEq κ]

theorem ccwriterDoWrite_agrees {os : Os} {w w' : World ι κ} {i : ι} {pkt pkt' : Ccpacket} {c : Nat}
    (h : ccwriterDoWrite os wtrs w i pkt = some (c, pkt', w')) :
    ∃ n, w'.reading = w.reading + n ∧ ∀ {os' r'}, Agree os os' w.reading r' n →
      ccwriterDoWrite os' wtrs (w.reread r') i pkt = some (c, pkt', w'.reread (r' + n)) := by
  unfold ccwriterDoWrite at h ⊢
  by_cases hrange : 0 < pkt.receiver ∧ pkt.receiver ≤ (wtrs i).protocol.nRcv
  · rw [if_pos hrange] at h
    simp only [if_pos hrange]
    unfold ccwriterDoWrite_ at h
    by_cases hsoon : timeSince (os.clock w.reading) (w.slots (i, (pkt.receiver - 1).toNat)).sent <
        (wtrs i).protocol.gaptime
    · have hrun := (if_pos hsoon).symm.trans h
      obtain ⟨⟨r, w₁⟩, hdefer, heq⟩ := Option.bind_eq_some_iff.mp hrun
      obtain ⟨rfl, rfl, rfl⟩ := by simpa using heq
      obtain ⟨n, hn, hlocal⟩ := local_deferPacket _ _ _ hdefer
      refine ⟨n + 1, ?_, fun {os' r'} hagree => ?_⟩
      · rw [hn, Nat.add_comm n 1, ← Nat.add_assoc]
        rfl
      · have hnow : os'.clock (w.reread r').reading = os.clock w.reading := hagree.head
        unfold ccwriterDoWrite_
        simp only [hnow]
        refine (if_pos hsoon).trans (Option.bind_eq_some_iff.mpr ⟨_, hlocal hagree.tail, ?_⟩)
        rw [Nat.add_comm n 1, ← Nat.add_assoc]
        rfl
    · have hrun := (if_neg hsoon).symm.trans h
      by_cases hc : (wtrs i).protocol.doWrite (wtrs i).auth (channelIsOpen (w.channels (wtrs i).chn))
          (w.channels (wtrs i).chn).txbuf pkt |>.2.2 > 0
      · have hcheck := (if_pos hc).symm.trans hrun
        obtain ⟨w₁, hrun₁, heq⟩ := Option.bind_eq_some_iff.mp hcheck
        obtain ⟨rfl, rfl, rfl⟩ := by simpa using heq
        obtain ⟨n, hn, hagrees⟩ := ccwriterCheckDeferred_agrees wtrs hrun₁
        refine ⟨n + 1, ?_, fun {os' r'} hagree => ?_⟩
        · rw [hn, Nat.add_comm n 1, ← Nat.add_assoc]
          rfl
        · have hnow : os'.clock (w.reread r').reading = os.clock w.reading := hagree.head
          unfold ccwriterDoWrite_
          simp only [hnow]
          refine (if_neg hsoon).trans ((if_pos hc).trans (Option.bind_eq_some_iff.mpr ⟨_, hagrees hagree.tail, ?_⟩))
          rw [Nat.add_comm n 1, ← Nat.add_assoc]
          rfl
      · obtain ⟨rfl, rfl, rfl⟩ := by simpa using (if_neg hc).symm.trans hrun
        refine ⟨1, rfl, fun {os' r'} hagree => ?_⟩
        have hnow : os'.clock (w.reread r').reading = os.clock w.reading := hagree.head
        unfold ccwriterDoWrite_
        simp only [hnow]
        exact (if_neg hsoon).trans (if_neg hc)
  · rw [if_neg hrange] at h
    obtain ⟨rfl, rfl, rfl⟩ := by simpa using h
    exact ⟨0, rfl, fun _ => if_neg hrange⟩

theorem deferPacketNow_agrees {os : Os} {w w' : World ι κ} {dpkt : Slot ι}
    (h : deferPacketNow os wtrs w dpkt = some w') :
    ∃ n, w'.reading = w.reading + n ∧ ∀ {os' r'}, Agree os os' w.reading r' n →
      deferPacketNow os' wtrs (w.reread r') dpkt = some (w'.reread (r' + n)) := by
  obtain ⟨w₁, hremove, h⟩ := Option.bind_eq_some_iff.mp (show (deferRemove w dpkt).bind _ = some w' from h)
  obtain ⟨⟨c, pkt, w₂⟩, hwrite, heq⟩ := Option.bind_eq_some_iff.mp h
  obtain rfl := Option.some.inj heq
  obtain ⟨n, hn, hagrees⟩ := ccwriterDoWrite_agrees wtrs hwrite
  have hreading := deferRemove_reading hremove
  have hn' : w₂.reading = w₁.reading + 1 + n := hn
  refine ⟨1 + n, ?_, fun {os' r'} hagree => ?_⟩
  · show w₂.reading = _
    rw [hn', hreading, Nat.add_assoc]
  · rw [Nat.add_comm, ← hreading] at hagree
    have hnow : os'.clock (w₁.reread r').reading = os.clock w₁.reading := hagree.head
    have hremove' : deferRemove (w.reread r') dpkt = some (w₁.reread r') := by
      rw [deferRemove_reread, hremove]
      rfl
    refine Option.bind_eq_some_iff.mpr ⟨_, hremove', ?_⟩
    simp only [hnow]
    refine Option.bind_eq_some_iff.mpr ⟨_, hagrees hagree.tail, ?_⟩
    rw [← Nat.add_assoc]
    rfl

theorem deferNext_agrees {os : Os} {w w' : World ι κ} {r : Int} (h : deferNext os wtrs w = some (r, w')) :
    ∃ n, w'.reading = w.reading + n ∧ ∀ {os' r'}, Agree os os' w.reading r' n →
      deferNext os' wtrs (w.reread r') = some (r, w'.reread (r' + n)) := by
  by_cases hpipe : w.timer.pipe = 0
  · rw [deferNext_asleep os wtrs hpipe] at h
    obtain ⟨rfl, rfl⟩ := Prod.mk.inj (Option.some.inj h)
    exact ⟨0, rfl, fun {os' r'} _ => deferNext_asleep os' wtrs (w := w.reread r') hpipe⟩
  · -- what is done once the wake-up is taken
    have hnext : ∀ (os : Os) (v : World ι κ), v.timer = w.timer → deferNext os wtrs v =
        (clRbtreePeek v.tree).bind fun head => head.elim (deferRearm os (woken v)) fun dpkt =>
          (deferPacketNow os wtrs (woken v) dpkt).bind (deferRearm os) := by
      intro os v hv
      simp only [deferNext, timerRead_woken (w := v) (by rwa [hv])]
      cases clRbtreePeek v.tree with
      | none => rfl
      | some head => cases head <;> rfl
    rw [hnext os w rfl] at h
    obtain ⟨head, hpeek, h⟩ := Option.bind_eq_some_iff.mp h
    cases head with
    | none =>
      obtain ⟨n, hn, hlocal⟩ := local_deferRearm h
      refine ⟨n, hn, fun {os' r'} hagree => ?_⟩
      rw [hnext os' (w.reread r') rfl]
      exact Option.bind_eq_some_iff.mpr ⟨none, hpeek, hlocal hagree⟩
    | some dpkt =>
      obtain ⟨w₁, hnow, hrearm⟩ := Option.bind_eq_some_iff.mp h
      obtain ⟨n, hn, hagrees⟩ := deferPacketNow_agrees wtrs hnow
      obtain ⟨m, hm, hlocal⟩ := local_deferRearm hrearm
      have hw₁ : w₁.reading = w.reading + n := hn
      refine ⟨n + m, by rw [hm, hw₁, Nat.add_assoc], fun {os' r'} hagree => ?_⟩
      rw [hnext os' (w.reread r') rfl]
      refine Option.bind_eq_some_iff.mpr ⟨some dpkt, hpeek, Option.bind_eq_some_iff.mpr ⟨_, hagrees hagree.left, ?_⟩⟩
      rw [← Nat.add_assoc]
      exact hlocal (hw₁ ▸ hagree.right)

/-- **An action** but for the alarm, which looks at the time without taking a reading. -/
theorem step_agrees {os : Os} {w w' : World ι κ} {a : Action ι κ} (h : step os wtrs w a = some w') (ha : a ≠ .alarm) :
    ∃ n, w'.reading = w.reading + n ∧ ∀ {os' r'}, Agree os os' w.reading r' n →
      step os' wtrs (w.reread r') a = some (w'.reread (r' + n)) := by
  cases a with
  | submit i pkt =>
    obtain ⟨⟨c, pkt', w₁⟩, hrun, rfl⟩ := Option.map_eq_some_iff.mp h
    obtain ⟨n, hn, hagrees⟩ := ccwriterDoWrite_agrees wtrs hrun
    exact ⟨n, hn, fun hagree => Option.map_eq_some_iff.mpr ⟨_, hagrees hagree, rfl⟩⟩
  | defer dpkt pkt ms =>
    obtain ⟨⟨r, w₁⟩, hrun, rfl⟩ := Option.map_eq_some_iff.mp h
    obtain ⟨n, hn, hlocal⟩ := local_deferPacket dpkt pkt ms hrun
    exact ⟨n, hn, fun hagree => Option.map_eq_some_iff.mpr ⟨_, hlocal hagree, rfl⟩⟩
  | next =>
    obtain ⟨⟨r, w₁⟩, hrun, rfl⟩ := Option.map_eq_some_iff.mp h
    obtain ⟨n, hn, hagrees⟩ := deferNext_agrees wtrs hrun
    exact ⟨n, hn, fun hagree => Option.map_eq_some_iff.mpr ⟨_, hagrees hagree, rfl⟩⟩
  | alarm => exact absurd rfl ha
  | channel k chn =>
    obtain rfl := Option.some.inj h
    exact ⟨0, rfl, fun _ => rfl⟩

/-- **Actions** before a reading that another clock takes at its reading `r'`, if all later readings
are the same. -/
theorem run_reread {os os' : Os} {actions : List (Action ι κ)} {w w' : World ι κ} {r' : Nat}
    (h : run os wtrs w actions = some w') (hagree : ∀ n, Agree os os' w.reading r' n) :
    ∃ n, w'.reading = w.reading + n ∧ run os' wtrs (w.reread r') actions = some (w'.reread (r' + n)) := by
  induction actions generalizing w r' with
  | nil =>
    obtain rfl := Option.some.inj h
    exact ⟨0, rfl, rfl⟩
  | cons a actions ih =>
    rw [run, List.foldlM_cons] at h
    obtain ⟨w₁, hstep, hrest⟩ := Option.bind_eq_some_iff.mp h
    have hfirst : ∃ n, w₁.reading = w.reading + n ∧ step os' wtrs (w.reread r') a = some (w₁.reread (r' + n)) := by
      by_cases ha : a = .alarm
      · subst ha
        have hnow : os'.clock r' = os.clock w.reading := (hagree 1).head
        have hhandler : timerHandler os' = timerHandler os := by
          funext t
          unfold timerHandler timerWrite
          rw [(hagree 0).pipeSize]
        refine ⟨0, ?_, ?_⟩
        · simp only [step] at hstep
          split at hstep <;> rw [← Option.some.inj hstep] <;> rfl
        · simp only [step] at hstep ⊢
          show (if w.timer.expired (os'.clock r') then some { w.reread r' with timer := timerHandler os' w.timer }
            else some (w.reread r')) = _
          rw [hnow, hhandler]
          split at hstep <;> rename_i hexpired <;> rw [← Option.some.inj hstep]
          · exact if_pos hexpired
          · exact if_neg hexpired
      · obtain ⟨n, hn, hagrees⟩ := step_agrees wtrs hstep ha
        exact ⟨n, hn, hagrees (hagree n)⟩
    obtain ⟨n, hn, hstep'⟩ := hfirst
    have hlater : ∀ m, Agree os os' w₁.reading (r' + n) m := fun m => hn ▸ (hagree (n + m)).right
    obtain ⟨m, hm, hrun⟩ := ih hrest hlater
    refine ⟨n + m, by rw [hm, hn, Nat.add_assoc], ?_⟩
    rw [run, List.foldlM_cons, hstep', ← Nat.add_assoc]
    exact hrun

/-- All readings from `r` on are those of the next place. -/
def skip (g : Nat → Nat) (r n : Nat) : Nat := if n < r then n else g (n + 1)

theorem strictMono_skip {g : Nat → Nat} (hg : StrictMono g) (r : Nat) : StrictMono (skip g r) := by
  refine strictMono_nat_of_lt_succ fun n => ?_
  have hnext : n + 1 + 1 ≤ g (n + 1 + 1) := hg.le_apply
  have hstep : g (n + 1) < g (n + 1 + 1) := hg (Nat.lt_succ_self _)
  unfold skip
  split_ifs <;> omega

/-- **Turns are a run of the engine alone**, on a clock with the readings that the engine takes: it
has the readings there were before, and of the later ones some. -/
theorem turns_refines {os : Os} {ts : List (Turn ι κ)} {w w' : World ι κ} (h : turns os wtrs w ts = some w') :
    ∃ g, ∃ hg : StrictMono g, (∀ n < w.reading, g n = n) ∧ ∃ actions r,
      run (os.thin g hg) wtrs w actions = some (w'.reread r) ∧ ∀ a ∈ actions, Turn.act a ∈ ts := by
  induction ts generalizing w with
  | nil =>
    obtain rfl := Option.some.inj h
    exact ⟨id, strictMono_id, fun _ _ => rfl, [], w.reading, rfl, nofun⟩
  | cons t ts ih =>
    rw [turns, List.foldlM_cons] at h
    obtain ⟨w₁, hturn, hrest⟩ := Option.bind_eq_some_iff.mp h
    obtain ⟨g, hg, hbefore, actions, r, hrun, hactions⟩ := ih hrest
    have hmem : ∀ a ∈ actions, Turn.act a ∈ t :: ts := fun a ha => List.mem_cons_of_mem t (hactions a ha)
    cases t with
    | look =>
      -- The engine does not see this reading: later ones come one place earlier on its clock.
      obtain rfl := Option.some.inj hturn
      have hlater : ∀ n,
          Agree (os.thin g hg) (os.thin _ (strictMono_skip hg w.reading)) w.tick.reading w.reading n := by
        refine fun n => ⟨fun j _ => congrArg os.clock ?_, rfl⟩
        rw [skip, if_neg (Nat.not_lt.mpr (Nat.le_add_right _ _)), Nat.add_right_comm]
        rfl
      obtain ⟨n, -, hrun'⟩ := run_reread wtrs hrun hlater
      exact ⟨_, strictMono_skip hg w.reading, fun n hn => if_pos hn, actions, _, hrun', hmem⟩
    | act a =>
      by_cases ha : a = .alarm
      · subst ha
        by_cases hexpired : w.timer.expired (os.clock w.reading) = true
        · obtain rfl := Option.some.inj ((if_pos hexpired).symm.trans hturn)
          refine ⟨g, hg, hbefore, .alarm :: actions, r, ?_, List.forall_mem_cons.mpr ⟨List.mem_cons_self, hmem⟩⟩
          have hlater : w.timer.expired (os.clock (g w.reading)) = true := expired_later hexpired (os.mono hg.le_apply)
          rw [run, List.foldlM_cons, show step (os.thin g hg) wtrs w .alarm = some _ from if_pos hlater]
          exact hrun
        · obtain rfl := Option.some.inj ((if_neg hexpired).symm.trans hturn)
          exact ⟨g, hg, hbefore, actions, r, hrun, hmem⟩
      · obtain ⟨n, hn, hagrees⟩ := step_agrees wtrs hturn ha
        refine ⟨g, hg, fun m hm => hbefore m (by omega), a :: actions, r, ?_, ?_⟩
        · have hstep : step (os.thin g hg) wtrs (w.reread w.reading) a = some (w₁.reread (w.reading + n)) := by
            refine hagrees ⟨fun j hj => ?_, rfl⟩
            exact congrArg os.clock (hbefore _ (by omega))
          rw [run, List.foldlM_cons, ← reread_self w, hstep, ← hn]
          exact hrun
        · exact List.forall_mem_cons.mpr ⟨List.mem_cons_self, hmem⟩

end Protozoa.Engine
