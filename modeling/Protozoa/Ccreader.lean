import Protozoa.Buffer
import Protozoa.Ccpacket
import Protozoa.Lib.Scan

/-!
# Camera control readers (`ccreader.c`)

Model of `struct ccreader` (`ccreader.h:27-35`). A reader decodes the bytes of its channel into its
packet and passes the packet to its writers: `ccreader_do_writers` (`ccreader.c:173-188`) goes
through the nodes, `ccreader_process_packet_no_clear` (`ccreader.c:196-203`) sets the expiration
time before it does, and `ccreader_process_packet` (`ccreader.c:211-215`) clears the packet behind
it. What a reader needs of the rest of the program is a `Sink`: the time of day and
`ccwriter_do_write`. Everything here is over an arbitrary sink, so a result about a reader holds
whatever the writers do.

`readLoop` is the loop all binary protocols share, of `decode_message` as long as it says
`DECODE_MORE` (`ccreader.h:14-17`); `do_read` functions are `DoRead`s. `runReads` is a channel being
read (`channel_read`, `channel.c:602-627`): each step is one `buffer_read` of at most `k` of the
bytes of the stream that are still to come, followed by one `do_read`.

Results, for any stream and any sizes of the reads:
* `readLoop_spec`: if one `decode_message` follows the scanner of the protocol (`Decodes`), then so
  does the loop, and it ends.
* `runReads_spec`: if one `do_read` follows the scanner (`Reads`), then so does a channel being
  read. Which bytes of the stream it has taken is part of this (`ReadsOff`): they are its first
  ones, as many as the reads ask for, and all of them if the reads cover the stream and fit.
* `readsAsScan`: for a protocol that processes each message as it is decoded, the packets do not
  depend on what came before them.
* `runReads_groupsOf`: for one that may hold back, the messages of each read are those of its chunk
  (`readChunks`, `groupsOf`), if it leaves no message behind that has arrived in whole
  (`LeavesRest`).

Out of scope: the reader's name and its log (`ccreader.c:116`, `198-199`).
-/

namespace Protozoa

open Lib.Scan

/-- `struct ccnode`; the writer by its number. -/
structure Ccnode where
  writer : Nat
  rangeFirst : Int
  rangeLast : Int
  shift : Int
  deriving DecidableEq

/-- `PT_DEADZONE` of `enum rdr_flags_t`. -/
def ptDeadzone : BitVec 32 := 1

/-- `struct ccreader`. -/
structure Ccreader where
  packet : Ccpacket
  timeout : Nat
  flags : BitVec 32
  head : List Ccnode
  deriving DecidableEq

/-- The rest of the program, as a reader sees it. -/
structure Sink (σ : Type) where
  /-- `gettimeofday`. -/
  now : σ → Timeval × σ
  /-- `ccwriter_do_write`, which may change the packet. -/
  doWrite : σ → Nat → Ccpacket → σ × Ccpacket

variable {σ : Type}

/-- `ccreader_init`, for a protocol with the given timeout and flags. -/
def ccreaderInit (now : Timeval) (timeout : Nat) (flags : BitVec 32) : Ccreader :=
  ⟨ccpacketCreate now, timeout, flags, []⟩

/-- `ccreader_add_writer`. -/
def ccreaderAddWriter (rdr : Ccreader) (node : Ccnode) : Ccreader :=
  { rdr with
    head := node :: rdr.head
    packet := ccpacketSetReceiver rdr.packet node.rangeFirst }

/-- `ccreader_previous_camera`. -/
def ccreaderPreviousCamera (rdr : Ccreader) : Ccreader :=
  let receiver := rdr.packet.receiver
  if receiver > 0 then { rdr with packet := ccpacketSetReceiver rdr.packet (receiver - 1) } else rdr

/-- `ccreader_next_camera`. -/
def ccreaderNextCamera (rdr : Ccreader) : Ccreader :=
  let receiver := rdr.packet.receiver
  if receiver < 1024 then { rdr with packet := ccpacketSetReceiver rdr.packet (receiver + 1) }
  else rdr

/-- `ccnode_get_receiver`. -/
def ccnodeGetReceiver (node : Ccnode) (receiver : Int) : Int :=
  if receiver < node.rangeFirst ∨ receiver > node.rangeLast then 0
  else
    let receiver := receiver + node.shift
    if receiver < 0 then 0 else receiver

/-- `while(node) { … }` of `ccreader_do_writers`. -/
def doWritersLoop (sink : Sink σ) (receiver : Int) : List Ccnode → Ccpacket → σ → Ccpacket × σ
  | [], pkt, s => (pkt, s)
  | node :: nodes, pkt, s =>
    let r := ccnodeGetReceiver node receiver
    if r ≠ 0 then
      let (s, pkt) := sink.doWrite s node.writer (ccpacketSetReceiver pkt r)
      doWritersLoop sink receiver nodes pkt s
    else doWritersLoop sink receiver nodes pkt s

/-- `ccreader_do_writers`. -/
def ccreaderDoWriters (sink : Sink σ) (rdr : Ccreader) (s : σ) : Ccreader × σ :=
  let receiver := rdr.packet.receiver
  let (pkt, s) := doWritersLoop sink receiver rdr.head rdr.packet s
  ({ rdr with packet := ccpacketSetReceiver pkt receiver }, s)

/-- `ccreader_process_packet_no_clear`. -/
def ccreaderProcessPacketNoClear (sink : Sink σ) (rdr : Ccreader) (s : σ) : Ccreader × σ :=
  let (now, s) := sink.now s
  ccreaderDoWriters sink { rdr with packet := ccpacketSetTimeout now rdr.packet rdr.timeout } s

/-- `ccreader_process_packet`. -/
def ccreaderProcessPacket (sink : Sink σ) (rdr : Ccreader) (s : σ) : Ccreader × σ :=
  let (rdr, s) := ccreaderProcessPacketNoClear sink rdr s
  ({ rdr with packet := ccpacketClear rdr.packet }, s)

/-! ## Reading -/

/-- `enum decode_t`. -/
inductive DecodeT where
  | more
  | done
  deriving DecidableEq

/-- What a `do_read` function works on. -/
structure ReadState (σ : Type) where
  rdr : Ccreader
  rxbuf : Buffer
  world : σ

/-- `(*do_read)(rdr, rxbuf)`; `none` for a failed assertion. -/
abbrev DoRead (σ : Type) := ReadState σ → Option (ReadState σ)

/-- `while(buffer_available(rxbuf) >= size) if(decode_message(rdr, rxbuf) == DECODE_DONE) break;` -/
def readLoop (size : Nat) (decodeMessage : ReadState σ → Option (DecodeT × ReadState σ)) :
    Nat → DoRead σ
  | 0, _ => none
  | fuel + 1, st =>
    if bufferAvailable st.rxbuf ≥ size then do
      let (d, st) ← decodeMessage st
      if d = .done then return st else readLoop size decodeMessage fuel st
    else some st

/-- One `channel_read`: `buffer_read` of at most `k` bytes of the stream, and `do_read` if it read
any. -/
def channelReadChunk (doRead : DoRead σ) (st : ReadState σ) (stream : List Byte) (k : Nat) :
    Option (ReadState σ × List Byte) :=
  if stream.take k = [] then some (st, stream)
  else do
    let (rxbuf, rest) ← bufferRead st.rxbuf (stream.take k)
    let st ← doRead { st with rxbuf := rxbuf }
    return (st, rest ++ stream.drop k)

/-- A run of reads, with the bytes still to come. -/
def runReads (doRead : DoRead σ) (st : ReadState σ) (stream : List Byte) :
    List Nat → Option (ReadState σ × List Byte)
  | [] => some (st, stream)
  | k :: ks => do
    let (st, stream) ← channelReadChunk doRead st stream k
    runReads doRead st stream ks

/-- The bytes that each of the reads takes. -/
def readChunks (doRead : DoRead σ) (st : ReadState σ) (stream : List Byte) : List Nat → List (List Byte)
  | [] => []
  | k :: ks =>
    match channelReadChunk doRead st stream k with
    | none => []
    | some (st', rest) =>
      stream.take (stream.length - rest.length) :: readChunks doRead st' rest ks

/-- Of a stream the reads leave `rest`: each takes a byte at least, if it may and there is one, and
all that it may take as long as the buffer has `room` for the stream. -/
structure ReadsOff (room : Nat) (stream rest : List Byte) (ks : List Nat) : Prop where
  advances : rest.length ≤ stream.length - ks.countP (0 < ·)
  fits : stream.length ≤ room → rest = stream.drop ks.sum

theorem ReadsOff.nil (room : Nat) (stream : List Byte) : ReadsOff room stream stream [] :=
  ⟨Nat.le_refl _, fun _ => List.drop_zero.symm⟩

/-- A read of nothing. -/
theorem ReadsOff.skip {room k : Nat} {stream rest : List Byte} {ks : List Nat} (hk : stream.take k = [])
    (h : ReadsOff room stream rest ks) : ReadsOff room stream rest (k :: ks) := by
  rcases List.take_eq_nil_iff.mp hk with rfl | rfl
  · refine ⟨by simpa using h.advances, fun hroom => ?_⟩
    rw [List.sum_cons, Nat.zero_add]
    exact h.fits hroom
  · have hrest : rest = [] := by simpa using h.advances
    rw [hrest]
    exact ⟨Nat.zero_le _, fun _ => List.drop_nil.symm⟩

/-- A read of `taken`. -/
theorem ReadsOff.cons {buf buf' : Buffer} {k room : Nat} {stream taken rest rest' : List Byte} {ks : List Nat}
    (hk : stream.take k ≠ []) (hread : ReadInto buf (stream.take k) taken buf')
    (hsplit : stream.take k = taken ++ rest) (hroom : bufferSpace buf' ≤ room)
    (h : ReadsOff room (rest ++ stream.drop k) rest' ks) :
    ReadsOff (bufferSpace buf) stream rest' (k :: ks) := by
  have hpos : 0 < k := Nat.pos_of_ne_zero fun hzero => hk (by rw [hzero, List.take_zero])
  have hwhole : stream = taken ++ (rest ++ stream.drop k) := by
    rw [← List.append_assoc, ← hsplit, List.take_append_drop]
  have hlen := congrArg List.length hwhole
  rw [List.length_append] at hlen
  have htaken := List.length_pos_of_ne_nil (hread.some_ne hk)
  constructor
  · have hadvances := h.advances
    rw [List.countP_cons_of_pos (by simpa using hpos)]
    omega
  · intro hfits
    have hall := hread.all (Nat.le_trans (List.length_take_le' k stream) hfits)
    have hrest : rest = [] := by
      have hsame := hsplit.symm.trans hall.symm
      exact List.append_right_eq_self.mp hsame
    rw [hrest, List.nil_append] at h hlen
    have hspace := hread.space
    rw [h.fits (by omega), List.drop_drop, List.sum_cons]

section Scanning

variable {S : Scanner Byte} {size bound : Nat}
  {process : Ccreader × σ → List Byte → Ccreader × σ}
  {decodeMessage : ReadState σ → Option (DecodeT × ReadState σ)}

/-- From `st` to `st'` the frames `out` are taken, and reader and world change by them alone. -/
structure Takes (S : Scanner Byte) (process : Ccreader × σ → List Byte → Ccreader × σ)
    (st : ReadState σ) (out : List (List Byte)) (st' : ReadState σ) : Prop where
  follows : Follows S st.rxbuf.data out st'.rxbuf.data
  consumed : Consumed st.rxbuf st'.rxbuf
  effect : (st'.rdr, st'.world) = out.foldl process (st.rdr, st.world)

theorem Takes.refl (st : ReadState σ) : Takes S process st [] st := ⟨Follows.refl _ _, Consumed.refl _, rfl⟩

theorem Takes.trans {st st' st'' : ReadState σ} {out out' : List (List Byte)}
    (h : Takes S process st out st') (h' : Takes S process st' out' st'') :
    Takes S process st (out ++ out') st'' where
  follows := h.follows.trans h'.follows
  consumed := h.consumed.trans h'.consumed
  effect := by rw [h'.effect, h.effect, List.foldl_append]

/-- **One `decode_message` follows a scanner**: it takes frames and makes the buffer shorter, or it
stops, with nothing changed, because there is no frame yet. -/
def Decodes (S : Scanner Byte) (size bound : Nat) (process : Ccreader × σ → List Byte → Ccreader × σ)
    (decodeMessage : ReadState σ → Option (DecodeT × ReadState σ)) : Prop :=
  ∀ st : ReadState σ, size ≤ st.rxbuf.data.length →
    (∃ st' out, decodeMessage st = some (.more, st') ∧ Takes S process st out st' ∧
      st'.rxbuf.data.length < st.rxbuf.data.length) ∨
    (decodeMessage st = some (.done, st) ∧ S.judge st.rxbuf.data = .wait ∧
      st.rxbuf.data.length < bound)

/-- **The loop** ends with fewer than `bound` bytes of which none is a frame yet. -/
theorem readLoop_spec (h : Decodes S size bound process decodeMessage)
    (hshort : ∀ c, c.length < size → S.judge c = .wait) (hle : size ≤ bound) :
    ∀ {fuel : Nat} {st : ReadState σ}, st.rxbuf.data.length < fuel →
      ∃ st' out, readLoop size decodeMessage fuel st = some st' ∧ Takes S process st out st' ∧
        S.judge st'.rxbuf.data = .wait ∧ st'.rxbuf.data.length < bound
  | 0, _, hf => absurd hf (Nat.not_lt_zero _)
  | fuel + 1, st, hf => by
    unfold readLoop bufferAvailable
    by_cases hlen : size ≤ st.rxbuf.data.length
    · rw [if_pos hlen]
      rcases h st hlen with ⟨st₁, out₁, hdec, htakes, hlt⟩ | ⟨hdec, hwait, hbound⟩
      · obtain ⟨st₂, out₂, hloop, htakes', hwait⟩ := readLoop_spec h hshort hle (Nat.lt_of_lt_of_le hlt
          (Nat.le_of_lt_succ hf))
        refine ⟨st₂, out₁ ++ out₂, ?_, htakes.trans htakes', hwait⟩
        rw [hdec]
        exact hloop
      · refine ⟨st, [], ?_, Takes.refl st, hwait, hbound⟩
        rw [hdec]
        rfl
    · rw [if_neg hlen]
      have hlt := Nat.lt_of_not_le hlen
      exact ⟨st, [], rfl, Takes.refl st, hshort _ hlt, Nat.lt_of_lt_of_le hlt hle⟩

/-- A loop that has no frame to take changes nothing. -/
theorem readLoop_wait (hdone : ∀ st : ReadState σ, S.judge st.rxbuf.data = .wait →
      size ≤ st.rxbuf.data.length → decodeMessage st = some (.done, st)) {fuel : Nat}
    {st : ReadState σ} (hwait : S.judge st.rxbuf.data = .wait) :
    readLoop size decodeMessage (fuel + 1) st = some st := by
  unfold readLoop bufferAvailable
  by_cases hlen : size ≤ st.rxbuf.data.length
  · rw [if_pos hlen, hdone st hwait hlen]
    rfl
  · rw [if_neg hlen]

/-- **One `do_read` follows a scanner**: it takes the frames that are there and leaves less than
`bound` bytes of which none is one yet. `effect` is what it does to reader and world, given the
frames and whether the buffer is empty in the end. -/
def Reads (S : Scanner Byte) (bound : Nat)
    (effect : List (List Byte) → Bool → Ccreader × σ → Ccreader × σ) (doRead : DoRead σ) : Prop :=
  ∀ st : ReadState σ, ∃ st' out, doRead st = some st' ∧
    Follows S st.rxbuf.data out st'.rxbuf.data ∧ S.judge st'.rxbuf.data = .wait ∧
    st'.rxbuf.data.length < bound ∧ Consumed st.rxbuf st'.rxbuf ∧
    (st'.rdr, st'.world) = effect out (bufferIsEmpty st'.rxbuf) (st.rdr, st.world)

/-- A `do_read` that is the loop and no more. -/
theorem Decodes.reads (h : Decodes S size bound process decodeMessage)
    (hshort : ∀ c, c.length < size → S.judge c = .wait) (hle : size ≤ bound) :
    Reads S bound (fun out _ x => out.foldl process x) fun st =>
      readLoop size decodeMessage (bufferAvailable st.rxbuf + 1) st := by
  intro st
  obtain ⟨st', out, hloop, htakes, hwait, hlen⟩ :=
    readLoop_spec h hshort hle (Nat.lt_succ_self st.rxbuf.data.length)
  exact ⟨st', out, hloop, htakes.follows, hwait, hlen, htakes.consumed, htakes.effect⟩

/-- What the reads of a run do, given the frames of each and whether it left the buffer empty. -/
def runGroups (effect : List (List Byte) → Bool → Ccreader × σ → Ccreader × σ)
    (groups : List (List (List Byte) × Bool)) (x : Ccreader × σ) : Ccreader × σ :=
  groups.foldl (fun x g => effect g.1 g.2 x) x

/-- **A run of reads** takes the frames of the bytes it has read, each once and in order, whatever
the sizes of the reads; `groups` are the frames of the single reads. -/
theorem runReads_spec {effect : List (List Byte) → Bool → Ccreader × σ → Ccreader × σ}
    {doRead : DoRead σ} (h : Reads S bound effect doRead) :
    ∀ (ks : List Nat) {st : ReadState σ} {seen : List Byte} {done : List (List Byte)}
      (stream : List Byte), Follows S seen done st.rxbuf.data → S.judge st.rxbuf.data = .wait →
      st.rxbuf.data.length < bound → bound ≤ st.rxbuf.size →
      ∃ st' taken rest, ∃ groups : List (List (List Byte) × Bool),
        runReads doRead st stream ks = some (st', rest) ∧ stream = taken ++ rest ∧
        ReadsOff (bufferSpace st.rxbuf) stream rest ks ∧
        Follows S (seen ++ taken) (done ++ (groups.map Prod.fst).flatten) st'.rxbuf.data ∧
        S.judge st'.rxbuf.data = .wait ∧ st'.rxbuf.data.length < bound ∧
        (st'.rdr, st'.world) = runGroups effect groups (st.rdr, st.world)
  | [], st, seen, done, stream, hf, hw, hlen, _ =>
    ⟨st, [], stream, [], rfl, rfl, ReadsOff.nil _ _, by simpa using hf, hw, hlen, rfl⟩
  | k :: ks, st, seen, done, stream, hf, hw, hlen, hsize => by
    by_cases hk : stream.take k = []
    · obtain ⟨st', taken, rest, groups, hrun, hsplit, hoff, hrest⟩ :=
        runReads_spec h ks stream hf hw hlen hsize
      refine ⟨st', taken, rest, groups, ?_, hsplit, hoff.skip hk, hrest⟩
      simpa [runReads, channelReadChunk, hk] using hrun
    · obtain ⟨buf, taken, rest, hread, htake, hdata, hinto⟩ :=
        @bufferRead_spec _ (stream.take k) (Nat.lt_of_lt_of_le hlen hsize)
      obtain ⟨st', out, hdo, hf', hw', hlen', hconsumed, heff⟩ := h { st with rxbuf := buf }
      have hf₁ : Follows S (seen ++ taken) (done ++ out) st'.rxbuf.data := by
        refine (hf.append taken).trans ?_
        rw [← hdata]
        exact hf'
      obtain ⟨st'', taken', rest', groups, hrun, hsplit, hoff, hf'', hw'', hlen'', heff''⟩ :=
        runReads_spec h ks (rest ++ stream.drop k) hf₁ hw' hlen'
          (by rw [hconsumed.size, hinto.size]; exact hsize)
      refine ⟨st'', taken ++ taken', rest', (out, bufferIsEmpty st'.rxbuf) :: groups, ?_, ?_,
        hoff.cons hk hinto htake hconsumed.space, ?_, hw'', hlen'', ?_⟩
      · simp [runReads, channelReadChunk, hk, hread, hdo, hrun]
      · rw [List.append_assoc, ← hsplit, ← List.append_assoc, ← htake, List.take_append_drop]
      · simpa using hf''
      · rw [heff'', heff]
        rfl

/-! ### A reader that holds no more than it must -/

/-- What `do_read` leaves in the buffer is what is left behind the last frame. -/
def LeavesRest (S : Scanner Byte) (doRead : DoRead σ) : Prop :=
  ∀ st st' : ReadState σ, doRead st = some st' → st'.rxbuf.data = S.left st.rxbuf.data

/-- The frames that end in each of the chunks, which come after the bytes `c`, and whether nothing
is left behind them. -/
def groupsOf (S : Scanner Byte) : List Byte → List (List Byte) → List (List (List Byte) × Bool)
  | _, [] => []
  | c, chunk :: chunks =>
    if chunk = [] then groupsOf S c chunks
    else (S.frames (c ++ chunk), (S.left (c ++ chunk)).isEmpty) ::
      groupsOf S (S.left (c ++ chunk)) chunks

/-- **A run of reads of such a reader**: what each read does is known from the chunks. -/
theorem runReads_groupsOf {effect : List (List Byte) → Bool → Ccreader × σ → Ccreader × σ}
    {doRead : DoRead σ} (h : Reads S bound effect doRead) (hrest : LeavesRest S doRead) :
    ∀ (ks : List Nat) {st : ReadState σ} (stream : List Byte),
      st.rxbuf.data.length < bound → bound ≤ st.rxbuf.size →
      ∃ st' rest, runReads doRead st stream ks = some (st', rest) ∧
        stream = (readChunks doRead st stream ks).flatten ++ rest ∧
        (st'.rdr, st'.world) =
          runGroups effect (groupsOf S st.rxbuf.data (readChunks doRead st stream ks)) (st.rdr, st.world)
  | [], st, stream, _, _ => ⟨st, stream, rfl, rfl, rfl⟩
  | k :: ks, st, stream, hlen, hsize => by
    by_cases hk : stream.take k = []
    · have hchunk : channelReadChunk doRead st stream k = some (st, stream) := if_pos hk
      obtain ⟨st', rest, hrun, hsplit, heff⟩ := runReads_groupsOf h hrest ks stream hlen hsize
      refine ⟨st', rest, ?_, ?_, ?_⟩
      · simpa [runReads, hchunk] using hrun
      · simpa [readChunks, hchunk] using hsplit
      · simpa [readChunks, hchunk, groupsOf] using heff
    · obtain ⟨buf, taken, rest, hread, htake, hdata, hinto⟩ :=
        @bufferRead_spec _ (stream.take k) (Nat.lt_of_lt_of_le hlen hsize)
      obtain ⟨st', out, hdo, hf, hw, hlen', hconsumed, heff⟩ := h { st with rxbuf := buf }
      have hchunk : channelReadChunk doRead st stream k = some (st', rest ++ stream.drop k) := by
        simp [channelReadChunk, hk, hread, hdo]
      have hwhole : stream = taken ++ (rest ++ stream.drop k) := by
        rw [← List.append_assoc, ← htake, List.take_append_drop]
      have htaken : stream.take (stream.length - (rest ++ stream.drop k).length) = taken := by
        have hlength := congrArg List.length hwhole
        rw [List.length_append] at hlength
        rw [hlength, Nat.add_sub_cancel]
        conv => lhs; rw [hwhole]
        exact List.take_left
      have hleft : st'.rxbuf.data = S.left (st.rxbuf.data ++ taken) := hdata ▸ hrest _ _ hdo
      have hout : out = S.frames (st.rxbuf.data ++ taken) := hdata ▸ (hf.frames_eq hw).symm
      obtain ⟨st'', rest', hrun, hsplit, heff''⟩ := runReads_groupsOf h hrest ks (rest ++ stream.drop k) hlen'
        (by rw [hconsumed.size, hinto.size]; exact hsize)
      have hchunks : readChunks doRead st stream (k :: ks) =
          taken :: readChunks doRead st' (rest ++ stream.drop k) ks := by
        rw [readChunks, hchunk, ← htaken]
      refine ⟨st'', rest', ?_, ?_, ?_⟩
      · simp [runReads, hchunk, hrun]
      · rw [hchunks, List.flatten_cons, List.append_assoc, ← hsplit]
        exact hwhole
      · have hempty : bufferIsEmpty st'.rxbuf = (S.left (st.rxbuf.data ++ taken)).isEmpty := by
          rw [← hleft]
          cases h : st'.rxbuf.data <;> simp [bufferIsEmpty, bufferAvailable, h]
        rw [hchunks, groupsOf, if_neg (hinto.some_ne hk), heff'', hleft, heff, hempty, hout]
        rfl

end Scanning

/-! ## A protocol that processes each message -/

/-- The reader as `ccreader_init` and `ccreader_add_writer` leave it. -/
def ccreaderStart (now : Timeval) (timeout : Nat) (flags : BitVec 32) (nodes : List Ccnode) :
    Ccreader :=
  nodes.foldl ccreaderAddWriter (ccreaderInit now timeout flags)

/-- Decode a message into the packet of the reader and process it. -/
def decodeAndProcess (decode : BitVec 32 → List Byte → Ccpacket → Ccpacket) (sink : Sink σ)
    (x : Ccreader × σ) (mess : List Byte) : Ccreader × σ :=
  ccreaderProcessPacket sink { x.1 with packet := decode x.1.flags mess x.1.packet } x.2

/-- Process the packet of a message; only the expiration time is what it was. -/
def processPacketOf (packetOf : BitVec 32 → List Byte → Ccpacket) (sink : Sink σ)
    (x : Ccreader × σ) (mess : List Byte) : Ccreader × σ :=
  ccreaderProcessPacket sink
    { x.1 with packet := { packetOf x.1.flags mess with expire := x.1.packet.expire } } x.2

/-- **A channel being read is a scan of the stream.** Whatever the chunks, reader and world end as
if the frames of the bytes read were processed one by one, each with its own packet. -/
def ReadsAsScan (S : Scanner Byte) (packetOf : BitVec 32 → List Byte → Ccpacket)
    (doRead : (σ : Type) → Sink σ → DoRead σ) : Prop :=
  ∀ (σ : Type) (sink : Sink σ) (now : Timeval) (timeout : Nat) (flags : BitVec 32)
    (nodes : List Ccnode) (s : σ) (stream : List Byte) (ks : List Nat),
    let rdr := ccreaderStart now timeout flags nodes
    ∃ st taken rest,
      runReads (doRead σ sink) ⟨rdr, bufferInit bufferSize, s⟩ stream ks = some (st, rest) ∧
      stream = taken ++ rest ∧ ReadsOff bufferSize stream rest ks ∧
      (st.rdr, st.world) = (S.frames taken).foldl (processPacketOf packetOf sink) (rdr, s)

/-- The packet holds no command. -/
def Ccreader.Idle (rdr : Ccreader) : Prop :=
  rdr.packet.flags = 0 ∧ rdr.packet.pan = 0 ∧ rdr.packet.tilt = 0 ∧ rdr.packet.preset = 0

theorem idle_addWriter {rdr : Ccreader} (node : Ccnode) (h : rdr.Idle) :
    (ccreaderAddWriter rdr node).Idle := h

theorem idle_start (now : Timeval) (timeout : Nat) (flags : BitVec 32) (nodes : List Ccnode) :
    (ccreaderStart now timeout flags nodes).Idle := by
  have h : ∀ (nodes : List Ccnode) {rdr : Ccreader}, rdr.Idle →
      (nodes.foldl ccreaderAddWriter rdr).Idle := by
    intro nodes
    induction nodes with
    | nil => exact id
    | cons node nodes ih => exact fun hrdr => ih (idle_addWriter node hrdr)
  exact h nodes ⟨rfl, rfl, rfl, rfl⟩

theorem idle_processPacket (sink : Sink σ) (rdr : Ccreader) (s : σ) :
    (ccreaderProcessPacket sink rdr s).1.Idle := ⟨rfl, rfl, rfl, rfl⟩

/-- Messages decoded into a packet without a command, one after the other, do not see each other. -/
theorem foldl_decodeAndProcess {decode : BitVec 32 → List Byte → Ccpacket → Ccpacket}
    {packetOf : BitVec 32 → List Byte → Ccpacket} (sink : Sink σ)
    (hdec : ∀ flags mess r e,
      decode flags mess ⟨r, 0, 0, 0, 0, e⟩ = { packetOf flags mess with expire := e }) :
    ∀ (messages : List (List Byte)) {rdr : Ccreader} {s : σ}, rdr.Idle →
      messages.foldl (decodeAndProcess decode sink) (rdr, s) =
        messages.foldl (processPacketOf packetOf sink) (rdr, s)
  | [], _, _, _ => rfl
  | mess :: messages, rdr, s, h => by
    obtain ⟨⟨r, flags, pan, tilt, preset, e⟩, timeout, rflags, head⟩ := rdr
    obtain ⟨rfl, rfl, rfl, rfl⟩ := h
    have hstep : decodeAndProcess decode sink (⟨⟨r, 0, 0, 0, 0, e⟩, timeout, rflags, head⟩, s) mess =
        processPacketOf packetOf sink (⟨⟨r, 0, 0, 0, 0, e⟩, timeout, rflags, head⟩, s) mess := by
      unfold decodeAndProcess processPacketOf
      rw [hdec]
    rw [List.foldl_cons, List.foldl_cons, hstep]
    exact foldl_decodeAndProcess sink hdec messages (idle_processPacket sink _ s)

theorem readsAsScan {S : Scanner Byte} {bound : Nat}
    {decode : BitVec 32 → List Byte → Ccpacket → Ccpacket}
    {packetOf : BitVec 32 → List Byte → Ccpacket} {doRead : (σ : Type) → Sink σ → DoRead σ}
    (hreads : ∀ (σ : Type) (sink : Sink σ),
      Reads S bound (fun out _ x => out.foldl (decodeAndProcess decode sink) x) (doRead σ sink))
    (hdec : ∀ flags mess r e,
      decode flags mess ⟨r, 0, 0, 0, 0, e⟩ = { packetOf flags mess with expire := e })
    (hnil : S.judge [] = .wait) (hpos : 0 < bound) (hbound : bound ≤ bufferSize) :
    ReadsAsScan S packetOf doRead := by
  intro σ sink now timeout flags nodes s stream ks rdr
  obtain ⟨st, taken, rest, groups, hrun, hsplit, hoff, hf, hw, -, heff⟩ :=
    @runReads_spec σ S bound _ _ (hreads σ sink) ks ⟨rdr, bufferInit bufferSize, s⟩ [] [] stream
      (Follows.refl _ _) hnil hpos hbound
  refine ⟨st, taken, rest, hrun, hsplit, hoff, ?_⟩
  have hframes : S.frames taken = (groups.map Prod.fst).flatten := hf.frames_eq hw
  rw [hframes, ← foldl_decodeAndProcess sink hdec _ (idle_start now timeout flags nodes), heff]
  rw [List.foldl_flatten, List.foldl_map]
  rfl

/-! ## A protocol that may collect messages -/

/-- **The messages of a channel do not depend on the chunks.** The messages decoded in the single
reads are, one after the other, the frames of the bytes read; what reader and world do in a read
depends on its messages and on whether it ends with the buffer empty. -/
def ReadsMessages (S : Scanner Byte)
    (effect : (σ : Type) → Sink σ → List (List Byte) → Bool → Ccreader × σ → Ccreader × σ)
    (doRead : (σ : Type) → Sink σ → DoRead σ) : Prop :=
  ∀ (σ : Type) (sink : Sink σ) (rdr : Ccreader) (s : σ) (stream : List Byte) (ks : List Nat),
    ∃ st taken rest, ∃ groups : List (List (List Byte) × Bool),
      runReads (doRead σ sink) ⟨rdr, bufferInit bufferSize, s⟩ stream ks = some (st, rest) ∧
      stream = taken ++ rest ∧ ReadsOff bufferSize stream rest ks ∧
      (groups.map Prod.fst).flatten = S.frames taken ∧
      (st.rdr, st.world) = runGroups (effect σ sink) groups (rdr, s)

/-- A read that ends within the first message of the buffer changes nothing. -/
def LeavesIncomplete (S : Scanner Byte) (doRead : (σ : Type) → Sink σ → DoRead σ) : Prop :=
  ∀ (σ : Type) (sink : Sink σ) (st : ReadState σ), st.rxbuf.data ≠ [] →
    S.judge st.rxbuf.data = .wait → doRead σ sink st = some st

theorem readsMessages {S : Scanner Byte} {bound : Nat}
    {effect : (σ : Type) → Sink σ → List (List Byte) → Bool → Ccreader × σ → Ccreader × σ}
    {doRead : (σ : Type) → Sink σ → DoRead σ}
    (hreads : ∀ (σ : Type) (sink : Sink σ), Reads S bound (effect σ sink) (doRead σ sink))
    (hnil : S.judge [] = .wait) (hpos : 0 < bound) (hbound : bound ≤ bufferSize) :
    ReadsMessages S effect doRead := by
  intro σ sink rdr s stream ks
  obtain ⟨st, taken, rest, groups, hrun, hsplit, hoff, hf, hw, -, heff⟩ :=
    @runReads_spec σ S bound _ _ (hreads σ sink) ks ⟨rdr, bufferInit bufferSize, s⟩ [] [] stream
      (Follows.refl _ _) hnil hpos hbound
  exact ⟨st, taken, rest, groups, hrun, hsplit, hoff, (hf.frames_eq hw).symm, heff⟩

end Protozoa
