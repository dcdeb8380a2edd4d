import Protozoa.Fields
import Protozoa.Protocol.Manchester

/-!
# Whose messages a Manchester packet is made of

A reader collects messages in its packet until it processes it (`manchester.c:236-242`, `265-273`).
`Ghost` keeps, besides the world, the messages since the last packet and the packets that were
processed, each with its messages; a reader with a ghost is the reader (`runReads_erase`).

Two packets are made of no message: the one the reader starts with, whose receiver is the first of
the range of the node added last (`ccreader_add_writer`, `ccreader.c:140-150`), and one that was
cleared when a read left the buffer empty, whose receiver is 0 (`ccpacket_clear`,
`ccpacket.c:60-66`). They are handed on when the next message is to another receiver, and reach a
writer if a range has this receiver and its shift is right (`ccnode_get_receiver`,
`ccreader.c:158-166`).

* `Records`: which packets are recorded in a run; `sound_first`, `sound_message`, `sound_end` and
  `sound_run` are the first message, each one, the end of a read and the run.
* `lateIn_false`: a message comes after a read that left the buffer empty exactly when the chunks
  are parted behind a message (`Parted`).
* **`attributed_iff`**: every packet that reaches a writer has been collected from messages to its
  receiver, if and only if the first message is to the receiver the reader starts with, or no writer
  takes that receiver (`StartsAddressed`); and no writer takes receiver 0, or no message follows
  where the reads stopped behind one.
* `not_attributed`: a first message to another receiver than the one of the configuration.
-/

namespace Protozoa.Manchester

open Lib.Scan

variable {σ : Type}

/-! ## A reader with a ghost -/

/-- A packet that was processed, with the messages decoded since the one before. -/
structure Handed where
  packet : Ccpacket
  messages : List (List Byte)

/-- The world and what has been read. -/
structure Ghost (σ : Type) where
  world : σ
  since : List (List Byte)
  handed : List Handed

/-- `ccreader_process_packet`, and the packet is recorded. -/
def ghostProcess (sink : Sink σ) (rdr : Ccreader) (g : Ghost σ) : Ccreader × Ghost σ :=
  let (rdr', world) := ccreaderProcessPacket sink rdr g.world
  (rdr', ⟨world, [], g.handed ++ [⟨rdr.packet, g.since⟩]⟩)

/-- `manchester_decode_packet`, and the message is recorded. -/
def ghostDecodePacket (sink : Sink σ) (x : Ccreader × Ghost σ) (mess : List Byte) :
    Ccreader × Ghost σ :=
  let receiver := decodeReceiver mess
  let (rdr, g) := if x.1.packet.receiver ≠ receiver then ghostProcess sink x.1 x.2 else x
  ({ rdr with packet := decodePacket (ccpacketSetReceiver rdr.packet receiver) mess },
    { g with since := g.since ++ [mess] })

/-- `manchester_do_read` with a ghost. -/
def ghostDoRead (sink : Sink σ) : DoRead (Ghost σ) :=
  doReadWith (ghostDecodePacket sink) (ghostProcess sink)

/-- Without its ghost. -/
def erase (st : ReadState (Ghost σ)) : ReadState σ := ⟨st.rdr, st.rxbuf, st.world.world⟩

theorem ghostDecodePacket_erase (sink : Sink σ) (x : Ccreader × Ghost σ) (mess : List Byte) :
    manchesterDecodePacket sink (x.1, x.2.world) mess =
      ((ghostDecodePacket sink x mess).1, (ghostDecodePacket sink x mess).2.world) := by
  unfold manchesterDecodePacket ghostDecodePacket
  by_cases h : x.1.packet.receiver ≠ decodeReceiver mess
  · simp only [if_pos h]
    rfl
  · simp only [if_neg h]

theorem readMessageWith_erase (sink : Sink σ) (st : ReadState (Ghost σ)) :
    readMessageWith (manchesterDecodePacket sink) (erase st) =
      (readMessageWith (ghostDecodePacket sink) st).map (Prod.map id erase) := by
  have hbuf : (erase st).rxbuf = st.rxbuf := rfl
  unfold readMessageWith
  rw [hbuf]
  by_cases hflag : st.rxbuf.data.getD 0 0 &&& flag = 0
  · simp only [if_pos hflag]
    cases bufferConsume st.rxbuf 1 <;> rfl
  · have hdec := ghostDecodePacket_erase sink (st.rdr, st.world) (st.rxbuf.data.take sizeMsg)
    change manchesterDecodePacket sink ((erase st).rdr, (erase st).world) _ = _ at hdec
    simp only [if_neg hflag, hdec]
    cases bufferConsume st.rxbuf sizeMsg <;> rfl

theorem readLoop_erase (sink : Sink σ) : ∀ (fuel : Nat) (st : ReadState (Ghost σ)),
    readLoop sizeMsg (readMessageWith (manchesterDecodePacket sink)) fuel (erase st) =
      (readLoop sizeMsg (readMessageWith (ghostDecodePacket sink)) fuel st).map erase
  | 0, _ => rfl
  | fuel + 1, st => by
    unfold readLoop
    have hbuf : (erase st).rxbuf = st.rxbuf := rfl
    rw [hbuf]
    split
    · rw [readMessageWith_erase]
      cases readMessageWith (ghostDecodePacket sink) st with
      | none => rfl
      | some r =>
        obtain ⟨d, st'⟩ := r
        cases d with
        | more => exact readLoop_erase sink fuel st'
        | done => rfl
    · rfl

theorem doRead_erase (sink : Sink σ) (st : ReadState (Ghost σ)) :
    doRead σ sink (erase st) = (ghostDoRead sink st).map erase := by
  rw [doRead_eq]
  unfold ghostDoRead doReadWith
  have hbuf : (erase st).rxbuf = st.rxbuf := rfl
  rw [hbuf, readLoop_erase]
  cases readLoop sizeMsg (readMessageWith (ghostDecodePacket sink)) (bufferAvailable st.rxbuf + 1) st with
  | none => rfl
  | some st' =>
    have hbuf' : (erase st').rxbuf = st'.rxbuf := rfl
    simp only [Option.map_some, Option.bind_eq_bind, Option.bind_some, hbuf']
    split <;> rfl

theorem channelReadChunk_erase (sink : Sink σ) (st : ReadState (Ghost σ)) (stream : List Byte) (k : Nat) :
    channelReadChunk (doRead σ sink) (erase st) stream k =
      (channelReadChunk (ghostDoRead sink) st stream k).map (Prod.map erase id) := by
  unfold channelReadChunk
  by_cases hk : stream.take k = []
  · rw [if_pos hk, if_pos hk]
    rfl
  rw [if_neg hk, if_neg hk]
  have hbuf : (erase st).rxbuf = st.rxbuf := rfl
  rw [hbuf]
  cases bufferRead st.rxbuf (stream.take k) with
  | none => rfl
  | some r =>
    obtain ⟨rxbuf, rest⟩ := r
    have hdo := doRead_erase sink { st with rxbuf := rxbuf }
    change doRead σ sink { erase st with rxbuf := rxbuf } = _ at hdo
    simp only [Option.bind_eq_bind, Option.bind_some, hdo]
    cases ghostDoRead sink { st with rxbuf := rxbuf } <;> rfl

/-- **A run with a ghost** is a run. -/
theorem runReads_erase (sink : Sink σ) : ∀ (ks : List Nat) (st : ReadState (Ghost σ))
    (stream : List Byte), runReads (doRead σ sink) (erase st) stream ks =
      (runReads (ghostDoRead sink) st stream ks).map (Prod.map erase id)
  | [], _, _ => rfl
  | k :: ks, st, stream => by
    unfold runReads
    rw [channelReadChunk_erase]
    cases channelReadChunk (ghostDoRead sink) st stream k with
    | none => rfl
    | some r => exact runReads_erase sink ks r.1 r.2

theorem readChunks_erase (sink : Sink σ) : ∀ (ks : List Nat) (st : ReadState (Ghost σ))
    (stream : List Byte), readChunks (doRead σ sink) (erase st) stream ks =
      readChunks (ghostDoRead sink) st stream ks
  | [], _, _ => rfl
  | k :: ks, st, stream => by
    unfold readChunks
    rw [channelReadChunk_erase]
    cases channelReadChunk (ghostDoRead sink) st stream k with
    | none => rfl
    | some r => exact congrArg (_ :: ·) (readChunks_erase sink ks r.1 r.2)

/-! ## Collecting -/

/-- The packet has been collected from its messages, all of them to its receiver. -/
structure Handed.Collected (h : Handed) : Prop where
  messages : h.messages ≠ []
  receiver : ∀ mess ∈ h.messages, decodeReceiver mess = h.packet.receiver
  packet : ∃ e, h.packet = h.messages.foldl decodePacket ⟨h.packet.receiver, 0, 0, 0, 0, e⟩

/-- Nothing has been collected yet. -/
structure Fresh (x : Ccreader × Ghost σ) (receiver : Int) : Prop where
  packet : ∃ e, x.1.packet = ⟨receiver, 0, 0, 0, 0, e⟩
  since : x.2.since = []

theorem decodeReceiver_pos (mess : List Byte) : 0 < decodeReceiver mess := by
  unfold decodeReceiver
  omega

theorem fresh_ghostProcess (sink : Sink σ) (rdr : Ccreader) (g : Ghost σ) :
    Fresh (ghostProcess sink rdr g) 0 := ⟨⟨_, rfl⟩, rfl⟩

/-- A packet that has been collected has a receiver. -/
theorem Handed.Collected.pos {h : Handed} (hc : h.Collected) : 0 < h.packet.receiver := by
  obtain ⟨mess, hmem⟩ := List.exists_mem_of_ne_nil _ hc.messages
  exact hc.receiver mess hmem ▸ decodeReceiver_pos mess

/-- The first message for a packet. -/
theorem collected_first {pkt : Ccpacket} {r : Int} {e : Timeval} (mess : List Byte)
    (h : pkt = ⟨r, 0, 0, 0, 0, e⟩) : Handed.Collected
      ⟨decodePacket (ccpacketSetReceiver pkt (decodeReceiver mess)) mess, [mess]⟩ := by
  have hreceiver : (decodePacket (ccpacketSetReceiver pkt (decodeReceiver mess)) mess).receiver =
      decodeReceiver mess := receiver_decodePacket _ mess
  refine ⟨List.cons_ne_nil _ _, fun m hm => ?_, e, ?_⟩
  · rw [List.mem_singleton.mp hm]
    exact hreceiver.symm
  · show _ = decodePacket ⟨_, 0, 0, 0, 0, e⟩ mess
    rw [hreceiver, h]
    rfl

/-- Another message for the packet. -/
theorem collected_next {pkt : Ccpacket} {since : List (List Byte)} (mess : List Byte)
    (h : Handed.Collected ⟨pkt, since⟩) (hsame : pkt.receiver = decodeReceiver mess) :
    Handed.Collected
      ⟨decodePacket (ccpacketSetReceiver pkt (decodeReceiver mess)) mess, since ++ [mess]⟩ := by
  have hself : ccpacketSetReceiver pkt (decodeReceiver mess) = pkt := by
    rw [← hsame]
    rfl
  rw [hself]
  have hreceiver : (decodePacket pkt mess).receiver = pkt.receiver := receiver_decodePacket pkt mess
  obtain ⟨hne, hall, e, hpacket⟩ := h
  refine ⟨List.append_ne_nil_of_left_ne_nil hne _, fun m hm => ?_, e, ?_⟩
  · show _ = (decodePacket pkt mess).receiver
    rw [hreceiver]
    rcases List.mem_append.mp hm with hm | hm
    · exact hall m hm
    · rw [List.mem_singleton.mp hm, hsame]
  · show _ = (since ++ [mess]).foldl decodePacket ⟨(decodePacket pkt mess).receiver, 0, 0, 0, 0, e⟩
    rw [List.foldl_append, hreceiver]
    exact congrArg (decodePacket · mess) hpacket

/-! ## What is recorded -/

/-- The packets recorded behind `start` have been collected or are cleared ones; cleared ones are
among them if `late`. -/
def Records (start : List Handed) (late : Bool) (handed : List Handed) : Prop :=
  ∃ hs, handed = start ++ hs ∧ (∀ h ∈ hs, h.Collected ∨ h.packet.receiver = 0) ∧
    ((∃ h ∈ hs, h.packet.receiver = 0) ↔ late = true)

theorem Records.refl (start : List Handed) : Records start false start :=
  ⟨[], (List.append_nil _).symm, fun _ hh => absurd hh List.not_mem_nil, by simp⟩

theorem Records.collected {start handed : List Handed} {late : Bool} {d : Handed}
    (h : Records start late handed) (hd : d.Collected) : Records start late (handed ++ [d]) := by
  obtain ⟨hs, rfl, hall, hlate⟩ := h
  have hne : d.packet.receiver ≠ 0 := Int.ne_of_gt hd.pos
  refine ⟨hs ++ [d], List.append_assoc _ _ _, ?_, ?_⟩
  · simpa [or_imp, forall_and] using ⟨hall, Or.inl hd⟩
  · simpa [or_and_right, exists_or, hne] using hlate

theorem Records.cleared {start handed : List Handed} {late : Bool} {d : Handed}
    (h : Records start late handed) (hd : d.packet.receiver = 0) : Records start true (handed ++ [d]) := by
  obtain ⟨hs, rfl, hall, -⟩ := h
  refine ⟨hs ++ [d], List.append_assoc _ _ _, ?_, iff_of_true ⟨d, by simp, hd⟩ rfl⟩
  simpa [or_imp, forall_and] using ⟨hall, Or.inr hd⟩

/-- Since `start` the reader has recorded packets, and its own has been collected, or is cleared if
it has just `emptied` the buffer. -/
structure Sound (start : List Handed) (late emptied : Bool) (x : Ccreader × Ghost σ) : Prop where
  handed : Records start late x.2.handed
  cleared : emptied = true → Fresh x 0
  collected : emptied = false → Handed.Collected ⟨x.1.packet, x.2.since⟩

/-- What is recorded of the packet a reader starts with, when the first message comes. -/
def startHanded (pkt : Ccpacket) (mess : List Byte) : List Handed :=
  if pkt.receiver ≠ decodeReceiver mess then [⟨pkt, []⟩] else []

/-- **The first message.** -/
theorem sound_first (sink : Sink σ) {x : Ccreader × Ghost σ} {r : Int} (h : Fresh x r)
    (mess : List Byte) :
    Sound (x.2.handed ++ startHanded x.1.packet mess) false false (ghostDecodePacket sink x mess) := by
  obtain ⟨⟨e, hpacket⟩, hsince⟩ := h
  unfold ghostDecodePacket startHanded
  by_cases hchange : x.1.packet.receiver ≠ decodeReceiver mess
  · simp only [if_pos hchange]
    obtain ⟨e', hfresh⟩ := (fresh_ghostProcess sink x.1 x.2).packet
    refine ⟨?_, nofun, fun _ => collected_first mess hfresh⟩
    rw [← hsince]
    exact Records.refl _
  · simp only [if_neg hchange, List.append_nil]
    refine ⟨Records.refl _, nofun, fun _ => ?_⟩
    show Handed.Collected ⟨_, x.2.since ++ [mess]⟩
    rw [hsince]
    exact collected_first mess hpacket

/-- **The buffer is empty** behind a message. -/
theorem sound_process (sink : Sink σ) {start : List Handed} {late : Bool} {x : Ccreader × Ghost σ}
    (h : Sound start late false x) : Sound start late true (ghostProcess sink x.1 x.2) :=
  ⟨h.handed.collected (h.collected rfl), fun _ => fresh_ghostProcess sink x.1 x.2, nofun⟩

/-- **A message**: after the buffer was empty it makes the reader process a cleared packet. -/
theorem sound_message (sink : Sink σ) {start : List Handed} {late emptied : Bool}
    {x : Ccreader × Ghost σ} (h : Sound start late emptied x) (mess : List Byte) :
    Sound start (late || emptied) false (ghostDecodePacket sink x mess) := by
  obtain ⟨e, hfresh⟩ := (fresh_ghostProcess sink x.1 x.2).packet
  cases emptied with
  | true =>
    obtain ⟨e', hpacket⟩ := (h.cleared rfl).packet
    have hzero : x.1.packet.receiver = 0 := congrArg Ccpacket.receiver hpacket
    have hchange : x.1.packet.receiver ≠ decodeReceiver mess := hzero ▸ Int.ne_of_lt (decodeReceiver_pos mess)
    unfold ghostDecodePacket
    simp only [if_pos hchange, Bool.or_true]
    exact ⟨h.handed.cleared hzero, nofun, fun _ => collected_first mess hfresh⟩
  | false =>
    rw [Bool.or_false]
    unfold ghostDecodePacket
    by_cases hchange : x.1.packet.receiver ≠ decodeReceiver mess
    · simp only [if_pos hchange]
      exact ⟨(sound_process sink h).handed, nofun, fun _ => collected_first mess hfresh⟩
    · simp only [if_neg hchange]
      exact ⟨h.handed, nofun, fun _ => collected_next mess (h.collected rfl) (not_not.mp hchange)⟩

/-! ## Runs -/

theorem sound_messages (sink : Sink σ) {start : List Handed} {late : Bool} :
    ∀ (messages : List (List Byte)) {x : Ccreader × Ghost σ}, Sound start late false x →
      Sound start late false (messages.foldl (ghostDecodePacket sink) x)
  | [], _, h => h
  | mess :: messages, _, h => sound_messages sink messages (Bool.or_false late ▸ sound_message sink h mess)

/-- The end of a read with messages. -/
theorem sound_end (sink : Sink σ) {start : List Handed} {late : Bool} {x : Ccreader × Ghost σ}
    (h : Sound start late false x) (messages : List (List Byte)) (empty : Bool) :
    Sound start late empty (effectWith (ghostDecodePacket sink) (ghostProcess sink) messages empty x) := by
  have hmessages := sound_messages sink messages h
  unfold effectWith
  cases empty with
  | true => exact sound_process sink hmessages
  | false => exact hmessages

/-- The groups of messages of the single reads; a read that leaves the buffer empty has some. -/
def Groups (groups : List (List (List Byte) × Bool)) : Prop := ∀ g ∈ groups, g.2 = true → g.1 ≠ []

theorem Groups.tail {g : List (List Byte) × Bool} {groups : List (List (List Byte) × Bool)}
    (h : Groups (g :: groups)) : Groups groups := fun g' hg => h g' (List.mem_cons_of_mem _ hg)

/-- A read without a message leaves bytes in the buffer. -/
theorem Groups.head {empty : Bool} {groups : List (List (List Byte) × Bool)}
    (h : Groups (([], empty) :: groups)) : empty = false := by
  cases empty with
  | true => exact absurd rfl (h _ List.mem_cons_self rfl)
  | false => rfl

/-- A message comes after a read that left the buffer empty, if the one before the groups has
`emptied` it or not. -/
def lateIn : Bool → List (List (List Byte) × Bool) → Bool
  | _, [] => false
  | emptied, ([], _) :: groups => lateIn emptied groups
  | emptied, (_ :: _, empty) :: groups => emptied || lateIn empty groups

/-- **A run of reads** after a message. -/
theorem sound_run (sink : Sink σ) {start : List Handed} :
    ∀ {groups : List (List (List Byte) × Bool)} {late emptied : Bool} {x : Ccreader × Ghost σ},
      Groups groups → Sound start late emptied x → ∃ emptied', Sound start (late || lateIn emptied groups) emptied'
        (runGroups (effectWith (ghostDecodePacket sink) (ghostProcess sink)) groups x)
  | [], late, emptied, _, _, h => ⟨emptied, (Bool.or_false late).symm ▸ h⟩
  | ([], empty) :: groups, late, emptied, x, hgroups, h => by
    obtain rfl := hgroups.head
    exact @sound_run sink start groups late emptied x hgroups.tail h
  | (mess :: messages, empty) :: groups, late, emptied, x, hgroups, h => by
    have hread := sound_end sink (sound_message sink h mess) messages empty
    obtain ⟨emptied', hrun⟩ := sound_run sink hgroups.tail hread
    rw [Bool.or_assoc] at hrun
    exact ⟨emptied', hrun⟩

/-- **A run from the start**: nothing happens before the first message. -/
theorem run_spec (sink : Sink σ) {r : Int} : ∀ {groups : List (List (List Byte) × Bool)}
    {x : Ccreader × Ghost σ}, Groups groups → Fresh x r →
      ((groups.map Prod.fst).flatten = [] ∧ lateIn false groups = false ∧
        runGroups (effectWith (ghostDecodePacket sink) (ghostProcess sink)) groups x = x) ∨
      ∃ mess messages emptied, (groups.map Prod.fst).flatten = mess :: messages ∧
        Sound (x.2.handed ++ startHanded x.1.packet mess) (lateIn false groups) emptied
          (runGroups (effectWith (ghostDecodePacket sink) (ghostProcess sink)) groups x)
  | [], _, _, _ => Or.inl ⟨rfl, rfl, rfl⟩
  | (mess :: messages, empty) :: groups, x, hgroups, h => by
    have hread := sound_end sink (sound_first sink h mess) messages empty
    obtain ⟨emptied, hrun⟩ := sound_run sink hgroups.tail hread
    exact Or.inr ⟨mess, _, emptied, rfl, hrun⟩
  | ([], empty) :: groups, x, hgroups, h => by
    obtain rfl := hgroups.head
    exact @run_spec sink r groups x hgroups.tail h

/-! ## The chunks -/

/-- Where nothing is left, a message has ended. -/
theorem frames_of_left {s : List Byte} (hne : s ≠ []) (hleft : frames.left s = []) :
    frames.frames s ≠ [] := by
  induction s using Scanner.left.induct frames with
  | case1 s h =>
    rw [Scanner.left_wait h] at hleft
    exact absurd hleft hne
  | case2 s h ih =>
    rw [Scanner.left_skip h] at hleft
    rw [Scanner.frames_skip h]
    refine ih (fun hnil => ?_) hleft
    -- a byte is skipped only if there is more than one
    have hshort : ¬s.length < sizeMsg := fun hlt => by
      rw [show frames.judge s = .wait from fixed_wait hlt] at h
      cases h
    have hlen := congrArg List.length hnil
    rw [List.length_tail, List.length_nil] at hlen
    have : sizeMsg = 3 := rfl
    omega
  | case3 s k h ih =>
    rw [Scanner.frames_frame h]
    exact List.cons_ne_nil _ _

theorem groups_groupsOf : ∀ (chunks : List (List Byte)) (c : List Byte), Groups (groupsOf frames c chunks)
  | [], _ => fun _ hg => absurd hg List.not_mem_nil
  | chunk :: chunks, c => by
    unfold groupsOf
    split
    · exact groups_groupsOf chunks c
    · rename_i hne
      intro g hg hempty
      rcases List.mem_cons.mp hg with rfl | hg
      · exact frames_of_left (List.append_ne_nil_of_right_ne_nil c hne) (List.isEmpty_iff.mp hempty)
      · exact groups_groupsOf chunks _ g hg hempty

theorem flatten_groupsOf : ∀ (chunks : List (List Byte)) {c : List Byte}, frames.judge c = .wait →
    ((groupsOf frames c chunks).map Prod.fst).flatten = frames.frames (c ++ chunks.flatten)
  | [], c, hc => by
    rw [List.flatten_nil, List.append_nil, Scanner.frames_wait hc]
    rfl
  | chunk :: chunks, c, hc => by
    unfold groupsOf
    split
    · rename_i hnil
      rw [flatten_groupsOf chunks hc, hnil, List.flatten_cons, List.nil_append]
    · rw [List.map_cons, List.flatten_cons, flatten_groupsOf chunks (frames.judge_left _), List.flatten_cons,
        ← List.append_assoc, frames.frames_append (c ++ chunk)]

/-- After a read that left the buffer empty, any message is late. -/
theorem lateIn_true : ∀ {groups : List (List (List Byte) × Bool)},
    lateIn true groups = true ↔ (groups.map Prod.fst).flatten ≠ []
  | [] => by simp [lateIn]
  | ([], empty) :: groups => @lateIn_true groups
  | (_ :: _, _) :: _ => by simp [lateIn]

/-- Behind the bytes `c` some chunks end where a message does, with nothing left, and a message ends
in the chunks behind them. -/
def Parted (c : List Byte) (chunks : List (List Byte)) : Prop :=
  ∃ before after, chunks = before ++ after ∧ before.flatten ≠ [] ∧
    frames.left (c ++ before.flatten) = [] ∧ frames.frames after.flatten ≠ []

theorem not_parted_nil (c : List Byte) : ¬Parted c [] := by
  rintro ⟨before, after, hsplit, hne, -⟩
  obtain ⟨rfl, -⟩ := List.append_eq_nil_iff.mp hsplit.symm
  exact hne rfl

theorem Parted.frames_ne {c : List Byte} {chunks : List (List Byte)} (h : Parted c chunks) :
    frames.frames (c ++ chunks.flatten) ≠ [] := by
  obtain ⟨before, after, rfl, -, hleft, hlater⟩ := h
  rw [List.flatten_append, ← List.append_assoc, frames.frames_append, hleft, List.nil_append]
  exact List.append_ne_nil_of_right_ne_nil _ hlater

theorem parted_cons {c chunk : List Byte} {chunks : List (List Byte)} : Parted c (chunk :: chunks) ↔
    (chunk ≠ [] ∧ frames.left (c ++ chunk) = [] ∧ frames.frames chunks.flatten ≠ []) ∨
      Parted (frames.left (c ++ chunk)) chunks := by
  constructor
  · rintro ⟨before, after, hsplit, hne, hleft, hlater⟩
    cases before with
    | nil => exact absurd rfl hne
    | cons first before =>
      obtain ⟨rfl, hrest⟩ := List.cons_eq_cons.mp hsplit
      have hrest : chunks = before ++ after := hrest
      by_cases hbefore : before.flatten = []
      · rw [List.flatten_cons, hbefore, List.append_nil] at hne hleft
        refine Or.inl ⟨hne, hleft, ?_⟩
        rwa [hrest, List.flatten_append, hbefore]
      · rw [List.flatten_cons, ← List.append_assoc, frames.left_append] at hleft
        exact Or.inr ⟨before, after, hrest, hbefore, hleft, hlater⟩
  · rintro (⟨hne, hleft, hlater⟩ | ⟨before, after, rfl, hne, hleft, hlater⟩)
    · exact ⟨[chunk], chunks, rfl, by simpa using hne, by simpa using hleft, hlater⟩
    · refine ⟨chunk :: before, after, rfl, List.append_ne_nil_of_right_ne_nil _ hne, ?_, hlater⟩
      rw [List.flatten_cons, ← List.append_assoc, frames.left_append]
      exact hleft

/-- **A late message** is one behind chunks that end where a message ends. -/
theorem lateIn_false : ∀ (chunks : List (List Byte)) {c : List Byte}, frames.judge c = .wait →
    (lateIn false (groupsOf frames c chunks) = true ↔ Parted c chunks)
  | [], c, _ => iff_of_false Bool.false_ne_true (not_parted_nil c)
  | chunk :: chunks, c, hc => by
    rw [parted_cons]
    by_cases hchunk : chunk = []
    · rw [groupsOf, if_pos hchunk, hchunk, List.append_nil, Scanner.left_wait hc, lateIn_false chunks hc]
      exact (or_iff_right fun h => h.1 rfl).symm
    have hwait := frames.judge_left (c ++ chunk)
    have hhead : lateIn false (groupsOf frames c (chunk :: chunks)) =
        lateIn (frames.left (c ++ chunk)).isEmpty (groupsOf frames (frames.left (c ++ chunk)) chunks) := by
      rw [groupsOf, if_neg hchunk]
      cases hframes : frames.frames (c ++ chunk) with
      | nil =>
        have hmore : frames.left (c ++ chunk) ≠ [] := fun hleft =>
          frames_of_left (List.append_ne_nil_of_right_ne_nil c hchunk) hleft hframes
        rw [lateIn, List.isEmpty_eq_false_iff.mpr hmore]
      | cons mess messages => rfl
    rw [hhead]
    by_cases hempty : frames.left (c ++ chunk) = []
    · rw [List.isEmpty_iff.mpr hempty, lateIn_true, flatten_groupsOf chunks hwait, hempty, List.nil_append]
      exact ⟨fun hlater => Or.inl ⟨hchunk, rfl, hlater⟩, fun h => h.elim (·.2.2) Parted.frames_ne⟩
    · rw [List.isEmpty_eq_false_iff.mpr hempty, lateIn_false chunks hwait]
      exact (or_iff_right fun h => hempty h.2.1).symm

/-! ## The claim of the configuration on the first packet -/

/-- Some writer takes packets for this receiver. -/
def Reaches (nodes : List Ccnode) (receiver : Int) : Prop :=
  ∃ node ∈ nodes, ccnodeGetReceiver node receiver ≠ 0

instance (nodes : List Ccnode) (receiver : Int) : Decidable (Reaches nodes receiver) :=
  inferInstanceAs (Decidable (∃ node ∈ nodes, ccnodeGetReceiver node receiver ≠ 0))

/-- A packet that reaches a writer has been collected from messages to its receiver. -/
def Attributed (nodes : List Ccnode) (h : Handed) : Prop := Reaches nodes h.packet.receiver → h.Collected

/-- The receiver of the packet that a reader starts with. -/
def startReceiver (nodes : List Ccnode) : Int := ((nodes.getLast?).map Ccnode.rangeFirst).getD 0

/-- The first message is to the receiver of the packet that the reader starts with, unless this
packet concerns no writer. -/
def StartsAddressed (nodes : List Ccnode) (messages : List (List Byte)) : Prop :=
  ∀ mess, messages.head? = some mess → decodeReceiver mess = startReceiver nodes ∨
    ¬Reaches nodes (startReceiver nodes)

theorem packet_start (now : Timeval) (timeout : Nat) (flags : BitVec 32) (nodes : List Ccnode) :
    (ccreaderStart now timeout flags nodes).packet = ⟨startReceiver nodes, 0, 0, 0, 0, now⟩ := by
  have h : ∀ (nodes : List Ccnode) (rdr : Ccreader) (r : Int), rdr.packet = ⟨r, 0, 0, 0, 0, now⟩ →
      (nodes.foldl ccreaderAddWriter rdr).packet =
        ⟨((nodes.getLast?).map Ccnode.rangeFirst).getD r, 0, 0, 0, 0, now⟩ := by
    intro nodes
    induction nodes with
    | nil => exact fun _ _ h => h
    | cons node nodes ih =>
      intro rdr r h
      rw [List.foldl_cons, ih (ccreaderAddWriter rdr node) node.rangeFirst, List.getLast?_cons]
      · cases nodes.getLast? <;> rfl
      · show ccpacketSetReceiver rdr.packet node.rangeFirst = _
        rw [h]
        rfl
  exact h nodes (ccreaderInit now timeout flags) 0 rfl

/-- The packet that a reader starts with is handed to no writer. -/
theorem attributed_startHanded {nodes : List Ccnode} {pkt : Ccpacket} (mess : List Byte)
    (hstart : pkt.receiver = startReceiver nodes) :
    (∀ h ∈ startHanded pkt mess, Attributed nodes h) ↔
      decodeReceiver mess = startReceiver nodes ∨ ¬Reaches nodes (startReceiver nodes) := by
  unfold startHanded
  rw [hstart]
  by_cases hsame : startReceiver nodes = decodeReceiver mess
  · rw [if_neg (not_not.mpr hsame)]
    exact iff_of_true (fun h hh => absurd hh List.not_mem_nil) (Or.inl hsame.symm)
  · rw [if_pos hsame, List.forall_mem_singleton, or_iff_right (Ne.symm hsame)]
    unfold Attributed
    rw [hstart]
    exact ⟨fun h hreach => (h hreach).messages rfl, fun h hreach => absurd hreach h⟩

/-- Of what is recorded, the cleared packets are handed to no writer. -/
theorem Records.attributed {nodes : List Ccnode} {start handed : List Handed} {late : Bool}
    (h : Records start late handed) : (∀ h ∈ handed, Attributed nodes h) ↔
      (∀ h ∈ start, Attributed nodes h) ∧ ¬(Reaches nodes 0 ∧ late = true) := by
  obtain ⟨hs, rfl, hall, hlate⟩ := h
  rw [List.forall_mem_append, ← hlate]
  refine and_congr_right fun _ => ⟨?_, fun hnone d hd hreach => ?_⟩
  · rintro h ⟨hreach, d, hd, hzero⟩
    exact Int.ne_of_gt (h d hd (hzero ▸ hreach)).pos hzero
  · exact (hall d hd).resolve_right fun hzero => hnone ⟨hzero ▸ hreach, d, hd, hzero⟩

/-- **Attribution**: of a reader with its writers, whatever the stream and the chunks, every packet
that reaches a writer has been collected from messages to its receiver, if and only if neither the
packet the reader starts with nor one that is cleared reaches one: the first message is to the
receiver of the former or this concerns no writer; and no writer takes receiver 0, or no message
follows where the reads stopped behind a message. -/
theorem attributed_iff (sink : Sink σ) (now : Timeval) (timeout : Nat) (flags : BitVec 32)
    (nodes : List Ccnode) (s : σ) (stream : List Byte) (ks : List Nat) :
    let rdr := ccreaderStart now timeout flags nodes
    let chunks := readChunks (doRead σ sink) ⟨rdr, bufferInit bufferSize, s⟩ stream ks
    ∃ st rest,
      runReads (ghostDoRead sink) ⟨rdr, bufferInit bufferSize, ⟨s, [], []⟩⟩ stream ks = some (st, rest) ∧
      runReads (doRead σ sink) ⟨rdr, bufferInit bufferSize, s⟩ stream ks = some (erase st, rest) ∧
      stream = chunks.flatten ++ rest ∧
      ((∀ h ∈ st.world.handed, Attributed nodes h) ↔
        StartsAddressed nodes (frames.frames chunks.flatten) ∧ ¬(Reaches nodes 0 ∧ Parted [] chunks)) := by
  intro rdr chunks
  have hpacket : rdr.packet = ⟨startReceiver nodes, 0, 0, 0, 0, now⟩ := packet_start now timeout flags nodes
  have hwait : frames.judge [] = .wait := fixed_wait (by decide)
  obtain ⟨st, rest, hrun, hsplit, heff⟩ :=
    @runReads_groupsOf (Ghost σ) frames sizeMsg _ _ doReadWith_reads doReadWith_left ks
      ⟨rdr, bufferInit bufferSize, ⟨s, [], []⟩⟩ stream (show 0 < sizeMsg by decide)
      (show sizeMsg ≤ bufferSize by decide)
  have hchunks : readChunks (ghostDoRead sink) ⟨rdr, bufferInit bufferSize, ⟨s, [], []⟩⟩ stream ks = chunks :=
    (readChunks_erase sink ks ⟨rdr, bufferInit bufferSize, ⟨s, [], []⟩⟩ stream).symm
  have herase := runReads_erase sink ks ⟨rdr, bufferInit bufferSize, ⟨s, [], []⟩⟩ stream
  have hrun : runReads (ghostDoRead sink) ⟨rdr, bufferInit bufferSize, ⟨s, [], []⟩⟩ stream ks = some (st, rest) :=
    hrun
  rw [hrun] at herase
  refine ⟨st, rest, hrun, herase, ?_, ?_⟩
  · rw [← hchunks]
    exact hsplit
  have heff : (st.rdr, st.world) = runGroups (effectWith (ghostDecodePacket sink) (ghostProcess sink))
      (groupsOf frames [] chunks) (rdr, ⟨s, [], []⟩) := hchunks ▸ heff
  have hmessages := flatten_groupsOf chunks hwait
  rw [List.nil_append] at hmessages
  have hfresh : Fresh (rdr, (⟨s, [], []⟩ : Ghost σ)) (startReceiver nodes) := ⟨⟨now, hpacket⟩, rfl⟩
  rw [← hmessages, ← lateIn_false chunks hwait]
  rcases run_spec sink (groups_groupsOf chunks []) hfresh with ⟨hnone, hearly, hsame⟩ |
    ⟨mess, messages, emptied, hsome, hsound⟩
  · rw [hsame] at heff
    have hworld : st.world = ⟨s, [], []⟩ := congrArg Prod.snd heff
    rw [hworld, hnone, hearly]
    refine iff_of_true (fun h hh => absurd hh List.not_mem_nil) ⟨fun mess hmess => ?_, nofun⟩
    cases hmess
  · rw [← heff] at hsound
    have hstart : rdr.packet.receiver = startReceiver nodes := congrArg Ccpacket.receiver hpacket
    have hhead : StartsAddressed nodes (mess :: messages) ↔
        decodeReceiver mess = startReceiver nodes ∨ ¬Reaches nodes (startReceiver nodes) := by
      simp [StartsAddressed]
    rw [hsome, hhead, ← attributed_startHanded mess hstart]
    exact hsound.handed.attributed

/-- Receiver 2: pan left slowly. -/
def leftTwo : List Byte := [0x80, 0x20, 0x06]

/-- The packets processed in a read of it, by a reader with a writer for all receivers. -/
def leftTwoHanded : Option (List (Int × List (List Byte))) :=
  let sink : Sink Unit := ⟨fun _ => (⟨0, 0⟩, ()), fun _ _ pkt => ((), pkt)⟩
  let rdr := ccreaderStart ⟨0, 0⟩ manchesterTimeout 0 [⟨0, 1, 1024, 0⟩]
  (runReads (ghostDoRead sink) ⟨rdr, bufferInit bufferSize, ⟨(), [], []⟩⟩ leftTwo [3]).map
    fun x => x.1.world.handed.map fun h => (h.packet.receiver, h.messages)

/-- A reader with a writer for all receivers hands it a packet for receiver 1, when the first
message is to receiver 2. -/
theorem not_attributed : ¬∀ (sink : Sink Unit) (now : Timeval) (timeout : Nat) (flags : BitVec 32)
    (nodes : List Ccnode) (stream : List Byte) (ks : List Nat)
    (st : ReadState (Ghost Unit)) (rest : List Byte), nodes ≠ [] →
    runReads (ghostDoRead sink)
      ⟨ccreaderStart now timeout flags nodes, bufferInit bufferSize, ⟨(), [], []⟩⟩ stream ks =
        some (st, rest) → ∀ h ∈ st.world.handed, Attributed nodes h := by
  intro hall
  have hhanded : leftTwoHanded = some [(1, []), (2, [leftTwo])] := by decide
  unfold leftTwoHanded at hhanded
  obtain ⟨⟨st, rest⟩, hrun, hmap⟩ := Option.map_eq_some_iff.mp hhanded
  obtain ⟨h, hmem, hfirst⟩ : ∃ h ∈ st.world.handed, (h.packet.receiver, h.messages) = (1, []) := by
    refine List.mem_map.mp ?_
    rw [show st.world.handed.map _ = _ from hmap]
    exact List.mem_cons_self
  rw [Prod.mk.injEq] at hfirst
  have hatt := hall _ ⟨0, 0⟩ manchesterTimeout 0 [⟨0, 1, 1024, 0⟩] leftTwo [3] st rest (by decide) hrun h
    hmem
  refine (hatt ?_).messages hfirst.2
  rw [hfirst.1]
  decide

end Protozoa.Manchester
