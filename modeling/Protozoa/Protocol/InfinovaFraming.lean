import Protozoa.Channel
import Protozoa.Protocol.Infinova
import Protozoa.Protocol.PelcoAgree

/-!
# What is queued for an Infinova connection

The authentication block is written when the channel is closed (`infinova.c:75-81`), and the channel
is opened later, by the poller (`poller.c:84-102`). `Step` is what happens to the channel of an
Infinova writer, `queued` what has been written for the present connection, sent or not.

* `Framed`: one authentication block and complete PTZ blocks; `framesOf` are the messages in these.
* `doWrite_open`, `framed_doWrite_closed`, `doWrite_full`: one write to a channel that is open, one
  that is closed, and one without room.
* `Inv`: what holds between two steps, whether the channel is closed, opened for what waits, or
  connected. `inv_submit`, `inv_register` and `inv_events` are the steps.
* **`framed_run`**: what is queued for a connection is framed, in every run in which a closed
  channel is written to once, there is room for what is written to an open one, and a connection is
  made for bytes that wait to be sent (`Ready`).
* `not_framed`: two packets for a closed channel, each with its authentication.
-/

namespace Protozoa.Infinova

open Pelco PelcoD

variable {pkt : Ccpacket} {txbuf : Buffer}

/-! ## Blocks -/

/-- The authentication block. -/
def authBlock : List Byte := header msgIdAuth authSz ++ List.replicate (authSz + 2) 0

/-- The PTZ block of a Pelco D message. -/
def ptzBlock (frame : List Byte) : List Byte :=
  header msgIdPtz (headerSz + pelcoDSz) ++ (ptzHeader ++ frame)

/-- The size of a PTZ block. -/
def ptzSz : Nat := headerSz + (headerSz + pelcoDSz)

/-- One authentication block, and complete PTZ blocks. -/
def Framed (bytes : List Byte) : Prop :=
  ∃ frames : List (List Byte), (∀ frame ∈ frames, frame.length = pelcoDSz ∧ valid frame = true) ∧
    bytes = authBlock ++ (frames.map ptzBlock).flatten

theorem Framed.append {bytes : List Byte} (h : Framed bytes) {frames : List (List Byte)}
    (hframes : ∀ frame ∈ frames, frame.length = pelcoDSz ∧ valid frame = true) :
    Framed (bytes ++ (frames.map ptzBlock).flatten) := by
  obtain ⟨frames₀, hframes₀, rfl⟩ := h
  refine ⟨frames₀ ++ frames, fun frame hmem => ?_, ?_⟩
  · rcases List.mem_append.mp hmem with hmem | hmem
    · exact hframes₀ frame hmem
    · exact hframes frame hmem
  · rw [List.map_append, List.flatten_append, List.append_assoc]

theorem length_header (msgId : Byte) (nBytes : Nat) : (header msgId nBytes).length = headerSz := by
  unfold header
  split <;> simp

theorem length_ptzBlock {frame : List Byte} (h : frame.length = pelcoDSz) :
    (ptzBlock frame).length = ptzSz := by
  simp only [ptzBlock, List.length_append, length_header, h]
  rfl

/-- Whole blocks have whole lengths. -/
theorem Framed.length {bytes : List Byte} (h : Framed bytes) :
    ∃ n, bytes.length = headerSz + (authSz + 2) + n * ptzSz := by
  obtain ⟨frames, hframes, rfl⟩ := h
  refine ⟨frames.length, ?_⟩
  have hauth : authBlock.length = headerSz + (authSz + 2) := by
    rw [authBlock, List.length_append, length_header, List.length_replicate]
  have hblocks : (frames.map ptzBlock).flatten.length = frames.length * ptzSz := by
    induction frames with
    | nil => rfl
    | cons frame frames ih =>
      rw [List.map_cons, List.flatten_cons, List.length_append,
        length_ptzBlock (hframes frame List.mem_cons_self).1,
        ih fun f hf => hframes f (List.mem_cons_of_mem frame hf), List.length_cons, Nat.succ_mul,
        Nat.add_comm]
  rw [List.length_append, hauth, hblocks]

/-! ## One write -/

/-- A block is written. -/
def appendBlock (txbuf : Buffer) (frame : List Byte) : Buffer :=
  prepared infinovaDHeader (fun txbuf _ => ccwriterAppend txbuf frame) txbuf (ccpacketCreate ⟨0, 0⟩)

/-- What a write appends besides the authentication. -/
def framesOf (pkt : Ccpacket) : List (List Byte) :=
  if pkt.receiver < 1 ∨ pkt.receiver > maxAddress then [] else codec.messages (adjustMenuCommands pkt)

theorem framesOf_valid {frame : List Byte} (h : frame ∈ framesOf pkt) :
    frame.length = pelcoDSz ∧ valid frame = true := by
  unfold framesOf at h
  split at h
  · exact absurd h List.not_mem_nil
  · exact Codec.messages_valid h

theorem length_framesOf : (framesOf pkt).length ≤ 3 := by
  unfold framesOf
  split
  · exact Nat.zero_le 3
  · exact codec.length_messages (adjustMenuCommands pkt)

theorem doWriteCb_eq (txbuf : Buffer) (pkt : Ccpacket) :
    (doWriteCb infinovaDHeader txbuf pkt).1 = (framesOf pkt).foldl appendBlock txbuf := by
  have hstep : ∀ (c : Prop) [Decidable c] (encode : Buffer → Ccpacket → Buffer) (frame : List Byte)
      (txbuf : Buffer) (pkt : Ccpacket), (c → ∀ txbuf, encode txbuf pkt = ccwriterAppend txbuf frame) →
      (if c then prepared infinovaDHeader encode txbuf pkt else txbuf) =
        (if c then [frame] else []).foldl appendBlock txbuf := by
    intro c _ encode frame txbuf pkt h
    by_cases hc : c
    · rw [if_pos hc, if_pos hc]
      show prepared infinovaDHeader encode txbuf pkt = appendBlock txbuf frame
      unfold appendBlock prepared
      cases hheader : infinovaDHeader txbuf with
      | mk ok b =>
        cases ok with
        | true => exact h hc b
        | false => rfl
    · rw [if_neg hc, if_neg hc]
      rfl
  unfold doWriteCb framesOf
  split
  · rfl
  · unfold Codec.messages
    rw [List.foldl_append, List.foldl_append,
      ← hstep _ _ _ _ (adjustMenuCommands pkt) fun _ _ => encodeWiper_eq codec.framing _ _,
      ← hstep _ _ _ _ (adjustMenuCommands pkt) fun hmode b => encodePreset_eq codec.framing b hmode,
      ← hstep _ encodeCommand (codec.commandMess (adjustMenuCommands pkt)) _ (adjustMenuCommands pkt)
        fun _ _ => rfl]
    rfl

/-- There is room for `n` blocks, or what does not fit leaves no room for a header either. -/
def RoomFor (n : Nat) (space : Nat) : Prop := n * ptzSz ≤ space ∨ space % ptzSz < headerSz

instance (n space : Nat) : Decidable (RoomFor n space) := inferInstanceAs (Decidable (_ ∨ _))

theorem bufferAppend_of_le {mess : List Byte} (h : mess.length ≤ bufferSpace txbuf) :
    bufferAppend txbuf mess = some (ccwriterAppend txbuf mess) := by
  unfold ccwriterAppend bufferAppend
  rw [dif_neg (Nat.not_lt.mpr h)]
  rfl

/-- A block that fits. -/
theorem appendBlock_of_le {frame : List Byte} (hframe : frame.length = pelcoDSz)
    (h : ptzSz ≤ bufferSpace txbuf) :
    (appendBlock txbuf frame).data = txbuf.data ++ ptzBlock frame ∧
      bufferSpace (appendBlock txbuf frame) = bufferSpace txbuf - ptzSz := by
  have hsz : ptzSz = headerSz + (headerSz + pelcoDSz) := rfl
  have hfirst := length_header msgIdPtz (headerSz + pelcoDSz)
  have hsecond : ptzHeader.length = headerSz := by decide
  have happ₁ := @bufferAppend_of_le txbuf (header msgIdPtz (headerSz + pelcoDSz)) (by omega)
  obtain ⟨hdata₁, hspace₁⟩ := @ccwriterAppend_of_le txbuf (header msgIdPtz (headerSz + pelcoDSz)) (by omega)
  set b₁ := ccwriterAppend txbuf (header msgIdPtz (headerSz + pelcoDSz))
  have happ₂ := @bufferAppend_of_le b₁ ptzHeader (by omega)
  obtain ⟨hdata₂, hspace₂⟩ := @ccwriterAppend_of_le b₁ ptzHeader (by omega)
  set b₂ := ccwriterAppend b₁ ptzHeader
  obtain ⟨hdata₃, hspace₃⟩ := @ccwriterAppend_of_le b₂ frame (by omega)
  have hblock : appendBlock txbuf frame = ccwriterAppend b₂ frame := by
    simp only [appendBlock, prepared, infinovaDHeader, infinovaHeader, happ₁, happ₂]
  rw [hblock]
  refine ⟨?_, by omega⟩
  rw [hdata₃, hdata₂, hdata₁, ptzBlock, List.append_assoc, List.append_assoc]

/-- No room for a header: nothing is written. -/
theorem appendBlock_of_lt {frame : List Byte} (h : bufferSpace txbuf < headerSz) :
    appendBlock txbuf frame = txbuf := by
  have happ : bufferAppend txbuf (header msgIdPtz (headerSz + pelcoDSz)) = none := by
    unfold bufferAppend
    rw [dif_pos (by rw [length_header]; exact h)]
  simp only [appendBlock, prepared, infinovaDHeader, infinovaHeader, happ]

/-- **With room, whole blocks are written**, as many as fit. -/
theorem foldl_appendBlock : ∀ {frames : List (List Byte)} {txbuf : Buffer},
    (∀ frame ∈ frames, frame.length = pelcoDSz) → RoomFor frames.length (bufferSpace txbuf) →
      ∃ written : List (List Byte), written ⊆ frames ∧
        (frames.foldl appendBlock txbuf).data = txbuf.data ++ (written.map ptzBlock).flatten
  | [], txbuf, _, _ => ⟨[], List.Subset.refl [], (List.append_nil _).symm⟩
  | frame :: frames, txbuf, hframes, hroom => by
    have hrest : ∀ f ∈ frames, f.length = pelcoDSz :=
      fun f hf => hframes f (List.mem_cons_of_mem frame hf)
    by_cases hfits : ptzSz ≤ bufferSpace txbuf
    · obtain ⟨hdata, hspace⟩ := appendBlock_of_le (hframes frame List.mem_cons_self) hfits
      have hroom' : RoomFor frames.length (bufferSpace (appendBlock txbuf frame)) := by
        rw [hspace]
        rcases hroom with hroom | hroom
        · rw [List.length_cons, Nat.succ_mul] at hroom
          exact Or.inl (by omega)
        · rw [Nat.mod_eq_sub_mod hfits] at hroom
          exact Or.inr hroom
      obtain ⟨written, hwritten, hfold⟩ := foldl_appendBlock hrest hroom'
      refine ⟨frame :: written, List.cons_subset_cons frame hwritten, ?_⟩
      rw [List.foldl_cons, hfold, hdata, List.map_cons, List.flatten_cons, List.append_assoc]
    · have hshort : bufferSpace txbuf < headerSz := by
        rcases hroom with hroom | hroom
        · rw [List.length_cons, Nat.succ_mul] at hroom
          omega
        · rwa [Nat.mod_eq_of_lt (Nat.lt_of_not_le hfits)] at hroom
      rw [List.foldl_cons, appendBlock_of_lt hshort]
      have hroom' : RoomFor frames.length (bufferSpace txbuf) := by
        refine Or.inr ?_
        rw [Nat.mod_eq_of_lt (Nat.lt_of_not_le hfits)]
        exact hshort
      obtain ⟨written, hwritten, hfold⟩ := foldl_appendBlock hrest hroom'
      exact ⟨written, List.subset_cons_of_subset frame hwritten, hfold⟩

/-- A write for an open channel. -/
theorem doWrite_open (hroom : RoomFor (framesOf pkt).length (bufferSpace txbuf)) :
    ∃ written : List (List Byte), written ⊆ framesOf pkt ∧
      (doWrite true txbuf pkt).1.data = txbuf.data ++ (written.map ptzBlock).flatten := by
  show ∃ written : List (List Byte), _ ∧ (doWriteCb infinovaDHeader txbuf pkt).1.data = _
  rw [doWriteCb_eq]
  exact foldl_appendBlock (fun _ hframe => (framesOf_valid hframe).1) hroom

/-- The first write for a closed channel. -/
theorem doWrite_first (hnil : txbuf.data = []) (hsize : txbuf.size = bufferSize) (pkt : Ccpacket) :
    ∃ written : List (List Byte), written ⊆ framesOf pkt ∧
      (doWrite false txbuf pkt).1.data = authBlock ++ (written.map ptzBlock).flatten := by
  have hspace : bufferSpace txbuf = 256 := (bufferSpace_of_nil hnil).trans hsize
  have hheader := length_header msgIdAuth authSz
  have hbody : (List.replicate (authSz + 2) (0 : Byte)).length = 66 := List.length_replicate
  have hsz : headerSz = 12 := rfl
  have happ := @bufferAppend_of_le txbuf (header msgIdAuth authSz) (by omega)
  obtain ⟨hdata₁, hspace₁⟩ := @ccwriterAppend_of_le txbuf (header msgIdAuth authSz) (by omega)
  set b₁ := ccwriterAppend txbuf (header msgIdAuth authSz)
  obtain ⟨hdata₂, hspace₂⟩ := @ccwriterAppend_of_le b₁ (List.replicate (authSz + 2) 0) (by omega)
  set b₂ := ccwriterAppend b₁ (List.replicate (authSz + 2) 0)
  have hauth : infinovaAuthenticate txbuf = b₂ := by
    simp only [infinovaAuthenticate, infinovaHeader, happ]
    rfl
  have hroom : RoomFor (framesOf pkt).length (bufferSpace b₂) := by
    have hfew := @length_framesOf pkt
    have hptz : ptzSz = 31 := rfl
    refine Or.inl ?_
    rw [hptz]
    omega
  obtain ⟨written, hwritten, hfold⟩ :=
    @foldl_appendBlock (framesOf pkt) b₂ (fun _ hframe => (framesOf_valid hframe).1) hroom
  refine ⟨written, hwritten, ?_⟩
  show (doWriteCb infinovaDHeader (infinovaAuthenticate txbuf) pkt).1.data = _
  rw [hauth, doWriteCb_eq, hfold, hdata₂, hdata₁, hnil]
  rfl

theorem framed_doWrite_closed (hnil : txbuf.data = []) (hsize : txbuf.size = bufferSize) (pkt : Ccpacket) :
    Framed (doWrite false txbuf pkt).1.data := by
  obtain ⟨written, hwritten, hdata⟩ := doWrite_first hnil hsize pkt
  exact ⟨written, fun _ hframe => framesOf_valid (hwritten hframe), hdata⟩

/-- A full buffer stays as it is. -/
theorem doWrite_full (h : bufferSpace txbuf < headerSz) (isOpen : Bool) (pkt : Ccpacket) :
    (doWrite isOpen txbuf pkt).1 = txbuf := by
  have hauth : infinovaAuthenticate txbuf = txbuf := by
    have happ : bufferAppend txbuf (header msgIdAuth authSz) = none := by
      unfold bufferAppend
      rw [dif_pos (by rw [length_header]; exact h)]
    simp only [infinovaAuthenticate, infinovaHeader, happ]
  have hframes : ∀ frames : List (List Byte), frames.foldl appendBlock txbuf = txbuf := by
    intro frames
    induction frames with
    | nil => rfl
    | cons frame frames ih => rw [List.foldl_cons, appendBlock_of_lt h, ih]
  unfold doWrite
  simp only [hauth, ite_self]
  rw [doWriteCb_eq, hframes]

/-! ## Runs -/

/-- What happens to the channel of a writer. -/
inductive Step where
  /-- `infinova_d_do_write` -/
  | submit (pkt : Ccpacket)
  /-- `poller_register_channel`, with the outcome of `channel_open` -/
  | register (fd : Int) (succeeds : Bool)
  /-- `poller_channel_events`, with what the socket takes and what it has -/
  | events (revents : PollEvents) (taken : Option Nat) (incoming : Incoming)

/-- The channel, and the bytes sent on the present connection. -/
structure Conn where
  chn : Channel
  sent : List Byte

/-- What has been written for the present connection, or for the one to come. -/
def queued (s : Conn) : List Byte := s.sent ++ s.chn.txbuf.data

/-- The channel is connected: it is open, and does not listen. -/
def Connected (s : Conn) : Prop := channelIsOpen s.chn = true ∧ channelIsListening s.chn = false

/-- The bytes sent, if the channel is `chn` from now on: another file descriptor is another
connection. -/
def sentOn (s : Conn) (chn : Channel) (sent : List Byte) : List Byte :=
  if chn.fd = s.chn.fd then s.sent ++ sent else []

/-- One step. There are no events on a channel that is closed, and nothing is sent on one that
listens. -/
def step (s : Conn) : Step → Option Conn
  | .submit pkt =>
    some { s with chn :=
      { s.chn with txbuf := (doWrite (channelIsOpen s.chn) s.chn.txbuf pkt).1 } }
  | .register fd succeeds =>
    let (chn, _) := pollerRegisterChannel s.chn fd succeeds
    some ⟨chn, sentOn s chn []⟩
  | .events revents taken incoming =>
    if channelIsOpen s.chn = true ∧ (channelIsListening s.chn = true → taken = none) then
      let (chn, sent) := pollerChannelEvents s.chn revents taken incoming
      some ⟨chn, sentOn s chn sent⟩
    else none

/-- The steps, one after the other. -/
def run : List Step → Conn → Option Conn
  | [], s => some s
  | a :: steps, s => (step s a).bind (run steps)

/-- The start: nothing is open, and the channel may have a reader. -/
def start (name : List Char) (flags : BitVec 32) (reader : Option (Buffer → Buffer)) : Conn :=
  ⟨{ channelInit name flags with reader := reader }, []⟩

/-- `channel_open` makes the channel listen. -/
def listens (chn : Channel) : Bool :=
  !channelIsSport chn && !hasFlag chn flagUdp && channelShouldListen chn

/-- The step makes the connection: the poller opens the channel, or accepts a client. -/
def connects (s : Conn) : Step → Bool
  | .submit _ => false
  | .register _ succeeds =>
    !channelIsOpen s.chn && channelIsWaiting s.chn && succeeds && !listens s.chn
  | .events revents _ (.client (some _)) =>
    channelIsListening s.chn && revents == ⟨false, true, false⟩
  | .events _ _ _ => false

/-- The step does not go wrong. A closed channel is written to if its buffer is empty (or full), an
open one if there is room, a listening one if the authentication stands in the buffer, and a
connection is made when there is something to send. -/
def Ready (s : Conn) : Step → Prop
  | .submit pkt =>
    if channelIsOpen s.chn then
      RoomFor (framesOf pkt).length (bufferSpace s.chn.txbuf) ∧
        (channelIsListening s.chn = true → s.chn.txbuf.data = [] → framesOf pkt = [])
    else s.chn.txbuf.data = [] ∨ bufferSpace s.chn.txbuf < headerSz
  | a => connects s a = true → s.chn.txbuf.data ≠ []

/-- No step of the run goes wrong. -/
def AllReady (s : Conn) : List Step → Prop
  | [] => True
  | a :: steps => Ready s a ∧ ∀ s' ∈ step s a, AllReady s' steps

instance (s : Conn) : (a : Step) → Decidable (Ready s a)
  | .submit _ => inferInstanceAs (Decidable (ite _ _ _))
  | .register _ _ => inferInstanceAs (Decidable (_ → _))
  | .events _ _ _ => inferInstanceAs (Decidable (_ → _))

instance decidableAllReady : (s : Conn) → (steps : List Step) → Decidable (AllReady s steps)
  | _, [] => inferInstanceAs (Decidable True)
  | s, a :: steps =>
    haveI : DecidablePred fun s' => AllReady s' steps := fun s' => decidableAllReady s' steps
    inferInstanceAs (Decidable (Ready s a ∧ ∀ s' ∈ step s a, AllReady s' steps))

/-! ## What the poller does to the transmit buffer -/

/-- Sending takes bytes from the front of the buffer. -/
theorem channelWrite_spec (chn : Channel) (taken : Option Nat) :
    let w := channelWrite chn taken
    w.2.1.fd = chn.fd ∧ w.2.1.sfd = chn.sfd ∧ w.2.1.txbuf.size = chn.txbuf.size ∧
      w.2.2 ++ w.2.1.txbuf.data = chn.txbuf.data := by
  intro w
  have hchn : ∃ flags, (if hasFlag chn flagRespRequired then
      { chn with flags := chn.flags ||| flagNeedsResp } else chn) = { chn with flags := flags } := by
    split
    · exact ⟨_, rfl⟩
    · exact ⟨chn.flags, rfl⟩
  obtain ⟨flags, hflags⟩ := hchn
  have hw : w = channelWrite chn taken := rfl
  unfold channelWrite at hw
  simp only [hflags] at hw
  cases hwrite : taken.bind (bufferWrite chn.txbuf) with
  | none =>
    rw [hwrite] at hw
    rw [hw]
    exact ⟨rfl, rfl, rfl, rfl⟩
  | some r =>
    obtain ⟨txbuf', sent⟩ := r
    rw [hwrite] at hw
    rw [hw]
    obtain ⟨n, -, hn⟩ := Option.bind_eq_some_iff.mp hwrite
    unfold bufferWrite at hn
    split at hn
    · cases hn
    · obtain ⟨buf, hconsume, heq⟩ := Option.map_eq_some_iff.mp hn
      obtain ⟨rfl, rfl⟩ := Prod.mk.inj heq
      have hle : n ≤ chn.txbuf.data.length := by
        by_contra hno
        unfold bufferConsume at hconsume
        rw [dif_neg hno] at hconsume
        cases hconsume
      obtain ⟨buf', hconsume', hdata, hconsumed⟩ := bufferConsume_spec hle
      rw [hconsume] at hconsume'
      obtain rfl := Option.some.inj hconsume'
      refine ⟨rfl, rfl, hconsumed.size, ?_⟩
      show chn.txbuf.data.take n ++ buf.data = _
      rw [hdata, List.take_append_drop]

/-- A channel that does not listen is left connected by a read, with its transmit buffer. -/
theorem channelRead_spec {chn : Channel} (hlisten : channelIsListening chn = false)
    (incoming : Incoming) :
    let r := channelRead chn incoming
    r.2.fd = chn.fd ∧ r.2.sfd = chn.sfd ∧ r.2.txbuf = chn.txbuf := by
  intro r
  have hr : r = channelRead chn incoming := rfl
  unfold channelRead at hr
  rw [hlisten, if_neg Bool.false_ne_true] at hr
  split at hr
  · split at hr
    · rw [hr]
      exact ⟨rfl, rfl, rfl⟩
    · simp only at hr
      split at hr
      · rw [hr]
        exact ⟨rfl, rfl, rfl⟩
      · split at hr <;>
        · rw [hr]
          exact ⟨rfl, rfl, rfl⟩
  · rw [hr]
    exact ⟨rfl, rfl, rfl⟩

/-- **Events** leave a channel connected, and what is not sent in its buffer, or close it. -/
theorem pollerChannelEvents_cases {chn : Channel} (hlisten : channelIsListening chn = false)
    (revents : PollEvents) (taken : Option Nat) (incoming : Incoming) :
    let r := pollerChannelEvents chn revents taken incoming
    (∃ chn₁, chn₁.fd = chn.fd ∧ chn₁.sfd = chn.sfd ∧ chn₁.txbuf.size = chn.txbuf.size ∧
      r.1 = channelClose true chn₁) ∨
    (r.1.fd = chn.fd ∧ r.1.sfd = chn.sfd ∧ r.1.txbuf.size = chn.txbuf.size ∧
      r.2 ++ r.1.txbuf.data = chn.txbuf.data) := by
  intro r
  have hr : r = pollerChannelEvents chn revents taken incoming := rfl
  unfold pollerChannelEvents at hr
  by_cases hhup : revents.pollhup = true
  · rw [if_pos hhup] at hr
    rw [hr]
    exact Or.inl ⟨chn, rfl, rfl, rfl, rfl⟩
  rw [if_neg hhup] at hr
  obtain ⟨n, chn₁, sent, hwrite, hfd, hsfd, hsize, hdata⟩ : ∃ n chn₁ sent,
      (if revents.pollout then channelWrite chn taken else (0, chn, [])) = (n, chn₁, sent) ∧
        chn₁.fd = chn.fd ∧ chn₁.sfd = chn.sfd ∧ chn₁.txbuf.size = chn.txbuf.size ∧
        sent ++ chn₁.txbuf.data = chn.txbuf.data := by
    by_cases hout : revents.pollout = true
    · rw [if_pos hout]
      exact ⟨_, _, _, rfl, channelWrite_spec chn taken⟩
    · rw [if_neg hout]
      exact ⟨_, _, _, rfl, rfl, rfl, rfl, rfl⟩
  simp only [hwrite] at hr
  split at hr
  · rw [hr]
    exact Or.inl ⟨chn₁, hfd, hsfd, hsize, rfl⟩
  split at hr
  · have hlisten₁ : channelIsListening chn₁ = false := by
      unfold channelIsListening at hlisten ⊢
      rw [hfd, hsfd]
      exact hlisten
    obtain ⟨hfd', hsfd', htx'⟩ := channelRead_spec hlisten₁ incoming
    split at hr
    · rw [hr]
      exact Or.inl ⟨_, hfd'.trans hfd, hsfd'.trans hsfd, by rw [htx']; exact hsize, rfl⟩
    · rw [hr]
      refine Or.inr ⟨hfd'.trans hfd, hsfd'.trans hsfd, by rw [htx']; exact hsize, ?_⟩
      rw [htx']
      exact hdata
  · rw [hr]
    exact Or.inr ⟨hfd, hsfd, hsize, hdata⟩

/-- A channel that listens accepts a client, stays as it is, or loses what it holds. -/
theorem pollerChannelEvents_listening {chn : Channel} (hlisten : channelIsListening chn = true)
    (revents : PollEvents) (incoming : Incoming) :
    let r := pollerChannelEvents chn revents none incoming
    r.2 = [] ∧ ((∃ chn₁, chn₁.fd = chn.fd ∧ chn₁.sfd = chn.sfd ∧ chn₁.txbuf.size = chn.txbuf.size ∧
      r.1 = channelClose true chn₁) ∨ r.1 = chn ∨
      ∃ fd, revents = ⟨false, true, false⟩ ∧ incoming = .client (some fd) ∧
        r.1 = { chn with fd := fd }) := by
  intro r
  have hr : r = pollerChannelEvents chn revents none incoming := rfl
  obtain ⟨hup, pin, pout⟩ := revents
  unfold pollerChannelEvents at hr
  cases hup with
  | true =>
    rw [if_pos rfl] at hr
    rw [hr]
    exact ⟨rfl, Or.inl ⟨chn, rfl, rfl, rfl, rfl⟩⟩
  | false =>
    simp only [Bool.false_eq_true, if_false] at hr
    cases pout with
    | true =>
      obtain ⟨hfd, hsfd, hsize, -⟩ := channelWrite_spec chn none
      have hn : (channelWrite chn none).1 = -1 := rfl
      have hsent : (channelWrite chn none).2.2 = [] := rfl
      simp only [if_true, hn, hsent, Int.reduceNeg, Int.reduceLT] at hr
      rw [hr]
      exact ⟨rfl, Or.inl ⟨_, hfd, hsfd, hsize, rfl⟩⟩
    | false =>
      cases pin with
      | false =>
        rw [hr]
        exact ⟨rfl, Or.inr (Or.inl rfl)⟩
      | true =>
        have hr : r = if (channelRead chn incoming).1 ≤ 0 then
            (channelClose true (channelRead chn incoming).2, []) else ((channelRead chn incoming).2, []) := hr
        have hread : channelRead chn incoming =
            (if (channelAccept chn incoming).1 < 0 then -1 else 1, (channelAccept chn incoming).2) := by
          unfold channelRead
          rw [if_pos hlisten]
        rw [hread] at hr
        have hrefused : channelAccept chn incoming = (-1, chn) → r = (channelClose true chn, []) := by
          intro haccept
          rw [hr, haccept]
          rfl
        cases incoming with
        | client client =>
          cases client with
          | some fd =>
            rw [hr]
            exact ⟨rfl, Or.inr (Or.inr ⟨fd, rfl, rfl, rfl⟩)⟩
          | none =>
            rw [hrefused rfl]
            exact ⟨rfl, Or.inl ⟨chn, rfl, rfl, rfl, rfl⟩⟩
        | bytes ready =>
          rw [hrefused rfl]
          exact ⟨rfl, Or.inl ⟨chn, rfl, rfl, rfl, rfl⟩⟩

/-- A closed channel is closed, or listens again. -/
theorem channelClose_fd (chn : Channel) :
    (channelClose true chn).sfd = chn.sfd ∧
      ((channelClose true chn).fd = 0 ∨ (channelClose true chn).fd = chn.sfd) := by
  simp only [channelClose, if_true]
  split_ifs with hneg hopen
  · exact ⟨rfl, Or.inl rfl⟩
  · exact ⟨rfl, Or.inr rfl⟩
  · refine ⟨rfl, Or.inl ?_⟩
    simpa [channelIsOpen] using hopen

/-! ## The invariant -/

theorem infinovaDHeader_size (txbuf : Buffer) : (infinovaDHeader txbuf).2.size = txbuf.size := by
  have hfirst : (infinovaHeader txbuf msgIdPtz (headerSz + pelcoDSz)).2.size = txbuf.size := by
    rw [infinovaHeader_eq, ccwriterAppend_size]
  unfold infinovaDHeader
  split
  · rename_i txbuf' heq
    rw [heq] at hfirst
    have hsecond := ccwriterAppend_size txbuf' ptzHeader
    unfold ccwriterAppend at hsecond
    split
    · rename_i txbuf'' happ
      rw [happ] at hsecond
      exact hsecond.trans hfirst
    · exact hfirst
  · rename_i txbuf' heq
    rw [heq] at hfirst
    exact hfirst

theorem appendBlock_size (txbuf : Buffer) (frame : List Byte) :
    (appendBlock txbuf frame).size = txbuf.size := by
  have hheader := infinovaDHeader_size txbuf
  unfold appendBlock prepared
  split
  · rename_i txbuf' heq
    rw [heq] at hheader
    exact (ccwriterAppend_size txbuf' frame).trans hheader
  · rename_i txbuf' heq
    rw [heq] at hheader
    exact hheader

theorem doWrite_size (isOpen : Bool) (txbuf : Buffer) (pkt : Ccpacket) :
    (doWrite isOpen txbuf pkt).1.size = txbuf.size := by
  have hauth : (infinovaAuthenticate txbuf).size = txbuf.size := by
    have hheader := infinovaHeader_eq txbuf msgIdAuth authSz
    have hsize := ccwriterAppend_size txbuf (header msgIdAuth authSz)
    unfold infinovaAuthenticate
    split
    · rename_i txbuf' heq
      rw [heq] at hheader
      rw [ccwriterAppend_size, show txbuf' = _ from hheader, hsize]
    · rename_i txbuf' heq
      rw [heq] at hheader
      rw [show txbuf' = _ from hheader, hsize]
  have hfold : ∀ (frames : List (List Byte)) (b : Buffer), (frames.foldl appendBlock b).size = b.size := by
    intro frames
    induction frames with
    | nil => exact fun _ => rfl
    | cons frame frames ih => exact fun b => (ih _).trans (appendBlock_size b frame)
  unfold doWrite
  rw [doWriteCb_eq, hfold]
  cases isOpen
  · exact hauth
  · rfl

/-- What is queued for a connection is framed, and what waits for one too. -/
structure Inv (s : Conn) : Prop where
  size : s.chn.txbuf.size = bufferSize
  connected : Connected s → Framed (queued s)
  waiting : ¬Connected s → s.sent = [] ∧ (s.chn.txbuf.data = [] ∨ Framed s.chn.txbuf.data)

/-- Nothing is queued, and there is no connection. -/
theorem inv_cleared {s : Conn} (hsize : s.chn.txbuf.size = bufferSize)
    (hconn : s.chn.fd = 0 ∨ s.chn.fd = s.chn.sfd) (hsent : s.sent = []) (hdata : s.chn.txbuf.data = []) :
    Inv s := by
  have hnot : ¬Connected s := by
    rintro ⟨hopen, hlisten⟩
    simp only [channelIsOpen, channelIsListening, bne_iff_ne, beq_eq_false_iff_ne] at hopen hlisten
    exact hconn.elim hopen fun h => hlisten h.symm
  exact ⟨hsize, fun h => absurd h hnot, fun _ => ⟨hsent, Or.inl hdata⟩⟩

/-- The channel has been closed. -/
theorem inv_closed {chn : Channel} (hsize : chn.txbuf.size = bufferSize) :
    Inv ⟨channelClose true chn, []⟩ := by
  obtain ⟨hsfd, hfd⟩ := channelClose_fd chn
  refine inv_cleared ?_ (hfd.imp_right fun hfd => hfd.trans hsfd.symm) rfl ?_
  · show (channelClose true chn).txbuf.size = _
    rw [channelClose_txbuf]
    exact hsize
  · show (channelClose true chn).txbuf.data = _
    rw [channelClose_txbuf]
    rfl

/-- Nothing is sent yet, and what waits is framed. -/
theorem inv_unsent {s : Conn} (hsize : s.chn.txbuf.size = bufferSize) (hsent : s.sent = [])
    (hdata : s.chn.txbuf.data = [] ∨ Framed s.chn.txbuf.data)
    (hconn : Connected s → s.chn.txbuf.data ≠ []) : Inv s := by
  refine ⟨hsize, fun h => ?_, fun _ => ⟨hsent, hdata⟩⟩
  unfold queued
  rw [hsent]
  exact hdata.resolve_left (hconn h)

theorem inv_start (name : List Char) (flags : BitVec 32) (reader : Option (Buffer → Buffer)) :
    Inv (start name flags reader) :=
  inv_cleared rfl (Or.inl rfl) rfl rfl

/-- A packet is written. -/
theorem inv_submit {s : Conn} (h : Inv s) (pkt : Ccpacket) (hready : Ready s (.submit pkt)) :
    Inv { s with chn := { s.chn with txbuf := (doWrite (channelIsOpen s.chn) s.chn.txbuf pkt).1 } } := by
  have hsize := (doWrite_size (channelIsOpen s.chn) s.chn.txbuf pkt).trans h.size
  unfold Ready at hready
  cases hopen : channelIsOpen s.chn with
  | true =>
    rw [hopen] at hready hsize
    obtain ⟨hroom, hlisten⟩ := hready
    obtain ⟨written, hwritten, hdata⟩ := doWrite_open hroom
    refine ⟨hsize, fun hconn => ?_, fun hnot => ?_⟩
    · show Framed (s.sent ++ _)
      rw [hdata, ← List.append_assoc]
      exact (h.connected hconn).append fun _ hframe => framesOf_valid (hwritten hframe)
    · obtain ⟨hsent, hwaits⟩ := h.waiting hnot
      refine ⟨hsent, ?_⟩
      show (doWrite true s.chn.txbuf pkt).1.data = [] ∨ Framed (doWrite true s.chn.txbuf pkt).1.data
      rcases hwaits with hnil | hframed
      · have hlistening : channelIsListening s.chn = true := by
          by_contra hno
          exact hnot ⟨hopen, Bool.eq_false_iff.mpr hno⟩
        left
        show (doWriteCb infinovaDHeader s.chn.txbuf pkt).1.data = []
        rw [doWriteCb_eq, hlisten hlistening hnil]
        exact hnil
      · right
        rw [hdata]
        exact hframed.append fun _ hframe => framesOf_valid (hwritten hframe)
  | false =>
    rw [hopen] at hready hsize
    have hnot : ¬Connected s := fun hconn => Bool.false_ne_true (hopen.symm.trans hconn.1)
    obtain ⟨hsent, hwaits⟩ := h.waiting hnot
    refine ⟨hsize, fun hconn => absurd hconn hnot, fun _ => ⟨hsent, ?_⟩⟩
    rcases hready with hnil | hfull
    · exact Or.inr (framed_doWrite_closed hnil h.size pkt)
    · rw [doWrite_full hfull]
      exact hwaits

/-- A channel that is to listen listens when it is open. -/
theorem channelOpen_listening {chn : Channel} (hlist : listens chn = true) (fd : Int) :
    channelIsListening (channelOpen chn fd true) = true := by
  have hudp : hasFlag { channelClearResponse chn with fd := fd } flagUdp = hasFlag chn flagUdp :=
    hasFlag_clearResponse_other (by decide) chn
  have hlis : hasFlag { channelClearResponse chn with fd := fd } flagListen = hasFlag chn flagListen :=
    hasFlag_clearResponse_other (by decide) chn
  have hcond : (!channelIsSport { channelClearResponse chn with fd := fd } &&
      !hasFlag { channelClearResponse chn with fd := fd } flagUdp &&
      channelShouldListen { channelClearResponse chn with fd := fd }) = true := by
    unfold channelShouldListen
    rw [hudp, hlis]
    exact hlist
  simp only [channelIsListening, channelOpen, if_true, if_pos hcond, beq_self_eq_true]

/-- The poller opens the channel, or leaves it alone. -/
theorem inv_register {s : Conn} (h : Inv s) (fd : Int) (succeeds : Bool)
    (hready : Ready s (.register fd succeeds)) :
    Inv ⟨(pollerRegisterChannel s.chn fd succeeds).1,
      sentOn s (pollerRegisterChannel s.chn fd succeeds).1 []⟩ := by
  unfold pollerRegisterChannel
  split
  · rename_i hcond
    obtain ⟨hclosed, hwaiting⟩ := Bool.and_eq_true_iff.mp hcond
    have hopen : channelIsOpen s.chn = false := by simpa using hclosed
    obtain ⟨hsent, hwaits⟩ := h.waiting fun hconn => Bool.false_ne_true (hopen.symm.trans hconn.1)
    have hsent' : ∀ chn : Channel, sentOn s chn [] = [] := by
      intro chn
      unfold sentOn
      rw [hsent]
      split <;> rfl
    rw [hsent']
    cases succeeds with
    | false => exact @inv_closed { channelClearResponse s.chn with fd := fd } h.size
    | true =>
      have htxbuf : (channelOpen s.chn fd true).txbuf = s.chn.txbuf := by
        obtain ⟨sfd, heq⟩ := channelOpen_spec s.chn fd
        rw [heq]
        rfl
      refine inv_unsent ?_ rfl ?_ fun hconn => ?_
      · show (channelOpen s.chn fd true).txbuf.size = _
        rw [htxbuf]
        exact h.size
      · show (channelOpen s.chn fd true).txbuf.data = _ ∨ Framed (channelOpen s.chn fd true).txbuf.data
        rw [htxbuf]
        exact hwaits
      · show (channelOpen s.chn fd true).txbuf.data ≠ _
        rw [htxbuf]
        refine hready ?_
        have hlistens : listens s.chn = false := by
          by_contra hlist
          have hlistening := channelOpen_listening (Bool.eq_true_of_not_eq_false hlist) fd
          exact Bool.false_ne_true (hconn.2.symm.trans hlistening)
        unfold connects
        rw [hopen, hwaiting, hlistens]
        rfl
  · have hsame : sentOn s s.chn [] = s.sent := by
      unfold sentOn
      rw [if_pos rfl, List.append_nil]
    show Inv ⟨s.chn, sentOn s s.chn []⟩
    rw [hsame]
    exact h

/-- Events on a channel that listens. -/
theorem inv_events_listening {s : Conn} (h : Inv s) (hlisten : channelIsListening s.chn = true)
    {revents : PollEvents} {incoming : Incoming} (hready : Ready s (.events revents none incoming)) :
    Inv ⟨(pollerChannelEvents s.chn revents none incoming).1,
      sentOn s (pollerChannelEvents s.chn revents none incoming).1
        (pollerChannelEvents s.chn revents none incoming).2⟩ := by
  obtain ⟨hsent, hwaits⟩ := h.waiting fun hconn => Bool.false_ne_true (hconn.2.symm.trans hlisten)
  obtain ⟨hnone, hcases⟩ := pollerChannelEvents_listening hlisten revents incoming
  generalize pollerChannelEvents s.chn revents none incoming = r at hnone hcases ⊢
  have hsent' : sentOn s r.1 r.2 = [] := by
    unfold sentOn
    rw [hsent, hnone]
    split <;> rfl
  rw [hsent']
  rcases hcases with ⟨chn₁, hfd, hsfd, hsize, heq⟩ | heq | ⟨fd, rfl, rfl, heq⟩
  · rw [heq]
    exact inv_closed (hsize.trans h.size)
  · rw [heq]
    exact inv_unsent h.size rfl hwaits fun hconn =>
      absurd (hconn.2.symm.trans hlisten) Bool.false_ne_true
  · have hdata : s.chn.txbuf.data ≠ [] := by
      refine hready ?_
      unfold connects
      rw [hlisten]
      rfl
    rw [heq]
    exact inv_unsent h.size rfl hwaits fun _ => hdata

/-- Events on a connection. -/
theorem inv_events_connected {s : Conn} (h : Inv s) (hopen : channelIsOpen s.chn = true)
    (hlisten : channelIsListening s.chn = false) (revents : PollEvents) (taken : Option Nat)
    (incoming : Incoming) :
    Inv ⟨(pollerChannelEvents s.chn revents taken incoming).1,
      sentOn s (pollerChannelEvents s.chn revents taken incoming).1
        (pollerChannelEvents s.chn revents taken incoming).2⟩ := by
  have hframed := h.connected ⟨hopen, hlisten⟩
  have hcases := pollerChannelEvents_cases hlisten revents taken incoming
  generalize pollerChannelEvents s.chn revents taken incoming = r at hcases ⊢
  rcases hcases with ⟨chn₁, -, hsfd, hsize, heq⟩ | ⟨hfd, hsfd, hsize, hdata⟩
  · have hother : r.1.fd ≠ s.chn.fd := by
      rw [heq]
      simp only [channelIsOpen, channelIsListening, bne_iff_ne, beq_eq_false_iff_ne] at hopen hlisten
      rcases (channelClose_fd chn₁).2 with hfd | hfd <;> rw [hfd]
      · exact fun h => hopen h.symm
      · rw [hsfd]
        exact hlisten
    rw [show sentOn s r.1 r.2 = [] from if_neg hother, heq]
    exact inv_closed (hsize.trans h.size)
  · refine ⟨hsize.trans h.size, fun _ => ?_, fun hnot => absurd ⟨?_, ?_⟩ hnot⟩
    · show Framed (sentOn s r.1 r.2 ++ r.1.txbuf.data)
      unfold sentOn
      rw [if_pos hfd, List.append_assoc, hdata]
      exact hframed
    · show (r.1.fd != 0) = true
      rw [hfd]
      exact hopen
    · show (r.1.sfd == r.1.fd) = false
      rw [hfd, hsfd]
      exact hlisten

/-- Events on a channel that is open. -/
theorem inv_events {s : Conn} (h : Inv s) (hopen : channelIsOpen s.chn = true) {revents : PollEvents}
    {taken : Option Nat} {incoming : Incoming}
    (htaken : channelIsListening s.chn = true → taken = none)
    (hready : Ready s (.events revents taken incoming)) :
    Inv ⟨(pollerChannelEvents s.chn revents taken incoming).1,
      sentOn s (pollerChannelEvents s.chn revents taken incoming).1
        (pollerChannelEvents s.chn revents taken incoming).2⟩ := by
  cases hlisten : channelIsListening s.chn with
  | true =>
    obtain rfl := htaken hlisten
    exact inv_events_listening h hlisten hready
  | false => exact inv_events_connected h hopen hlisten revents taken incoming

/-- **One step** keeps the invariant. -/
theorem inv_step {s s' : Conn} {a : Step} (h : Inv s) (hready : Ready s a) (hstep : step s a = some s') :
    Inv s' := by
  cases a with
  | submit pkt =>
    obtain rfl := Option.some.inj hstep
    exact inv_submit h pkt hready
  | register fd succeeds =>
    obtain rfl := Option.some.inj hstep
    exact inv_register h fd succeeds hready
  | events revents taken incoming =>
    simp only [step] at hstep
    split at hstep
    · rename_i hcond
      obtain rfl := Option.some.inj hstep
      exact inv_events h hcond.1 hcond.2 hready
    · cases hstep

theorem inv_run : ∀ {steps : List Step} {s s' : Conn}, Inv s → AllReady s steps →
    run steps s = some s' → Inv s'
  | [], _, _, h, _, hrun => Option.some.inj hrun ▸ h
  | _ :: _, _, _, h, ⟨hready, hrest⟩, hrun => by
    obtain ⟨s₁, hstep, hrun⟩ := Option.bind_eq_some_iff.mp hrun
    exact inv_run (inv_step h hready hstep) (hrest s₁ hstep) hrun

/-- **The framing**, in every run whose steps do not go wrong: what is queued for a connection is
one authentication block and complete PTZ blocks. -/
theorem framed_run (name : List Char) (flags : BitVec 32) (reader : Option (Buffer → Buffer))
    (steps : List Step) (s : Conn) (hready : AllReady (start name flags reader) steps)
    (hrun : run steps (start name flags reader) = some s) (hconn : Connected s) : Framed (queued s) :=
  (inv_run (inv_start name flags reader) hready hrun).connected hconn

/-- The camera pans left. -/
def panLeft : Ccpacket := ⟨1, ccPanLeft, 1024, 0, 0, ⟨0, 0⟩⟩

/-- The channel of the writer of a camera. -/
def camera : Conn := start "10.0.0.1".toList flagTcp none

/-- Two packets, the second when the first is sent. -/
def onePacketAhead : List Step :=
  [.submit panLeft, .register 5 true, .events ⟨false, false, true⟩ (some 109) (.bytes none),
    .submit panLeft]

theorem framed_run_onePacketAhead :
    ∃ s, run onePacketAhead camera = some s ∧ (queued s).length = 140 ∧ Framed (queued s) := by
  have hmap : (run onePacketAhead camera).map (fun s =>
      (channelIsOpen s.chn, channelIsListening s.chn, (queued s).length)) = some (true, false, 140) := by
    decide +kernel
  obtain ⟨s, hrun, hs⟩ := Option.map_eq_some_iff.mp hmap
  simp only [Prod.mk.injEq] at hs
  obtain ⟨hopen, hlisten, hlen⟩ := hs
  exact ⟨s, hrun, hlen, framed_run _ _ _ onePacketAhead s (by decide +kernel) hrun ⟨hopen, hlisten⟩⟩

/-- Two packets before the poller opens the channel. -/
def twoPacketsAhead : List Step := [.submit panLeft, .submit panLeft, .register 5 true]

/-- The authentication is queued twice when the channel is still closed as the second packet is
written. -/
theorem not_framed : ¬∀ (name : List Char) (flags : BitVec 32) (reader : Option (Buffer → Buffer))
    (steps : List Step) (s : Conn), run steps (start name flags reader) = some s → Connected s →
      Framed (queued s) := by
  intro hall
  have hmap : (run twoPacketsAhead camera).map (fun s =>
      (channelIsOpen s.chn, channelIsListening s.chn, (queued s).length)) = some (true, false, 218) := by
    decide +kernel
  obtain ⟨s, hrun, hs⟩ := Option.map_eq_some_iff.mp hmap
  simp only [Prod.mk.injEq] at hs
  obtain ⟨hopen, hlisten, hlen⟩ := hs
  obtain ⟨n, hn⟩ := (hall _ _ _ twoPacketsAhead s hrun ⟨hopen, hlisten⟩).length
  rw [hlen] at hn
  have hsize : headerSz + (authSz + 2) + n * ptzSz = 78 + n * 31 := rfl
  omega

end Protozoa.Infinova
