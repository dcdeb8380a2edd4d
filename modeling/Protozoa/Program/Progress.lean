import Protozoa.Program.Runs

/-!
# What waits goes out

The loop serves all channels in each of its rounds (`poller.c:218-231`). Seen from one of them
(`pollerDoPoll_at`), the others do no more in the meantime than append to what waits in its transmit
buffer (`Elsewhere`). So what becomes of its connection depends on its own events alone
(`Throughout`), whatever arrives on the other ports and whenever the signal comes.

* `pollerRegisterEvents_polled`: what a channel is polled for stands until its events are served.
* `pollerChannelEvents_serves`: a channel that is polled for output sends one byte at least, if the
  socket takes any.
* **`pollerLoop_drains`**: in every round in which the socket takes something, one byte at least of
  what waits goes out, until all of it has.
* **`pollerLoop_awaits`**: where a response is required (`Requiring`), nothing goes out before there
  is input.

Out of scope: a connection that is closed on the way; what waits then is cleared (`channel_close`,
`channel.c:478-498`).
-/

namespace Protozoa.Program

open Engine Protozoa.Configuration Relation

variable {os : Os} {wtrs : Nat → Ccwriter Nat} {ok : Nat → Int → Prop} {p p' p'' : Poller} {k j : Nat}

/-! ## The other channels -/

/-- The writers of a channel append whole messages. -/
def Appends (wtrs : Nat → Ccwriter Nat) (ok : Nat → Int → Prop) (k : Nat) : Prop :=
  ∀ i r, ok i r → (wtrs i).chn = k → (wtrs i).protocol.ByMessages

/-- What happens elsewhere, seen from a channel: it is as before, but for what waits in its transmit
buffer. -/
structure Elsewhere (wtrs : Nat → Ccwriter Nat) (ok : Nat → Int → Prop) (k : Nat) (p p' : Poller) : Prop where
  same : SameButTx (p.channel k) (p'.channel k)
  more : Appends wtrs ok k → (p.channel k).txbuf.data <+: (p'.channel k).txbuf.data
  pollfds : p'.pollfds k = p.pollfds k
  wire : p'.wire k = p.wire k

namespace Elsewhere

theorem trans (h : Elsewhere wtrs ok k p p') (h' : Elsewhere wtrs ok k p' p'') : Elsewhere wtrs ok k p p'' :=
  ⟨h.same.trans h'.same, fun hk => (h.more hk).trans (h'.more hk), h'.pollfds.trans h.pollfds, h'.wire.trans h.wire⟩

theorem of_eq (hchannel : p'.channel k = p.channel k) (hpollfds : p'.pollfds k = p.pollfds k)
    (hwire : p'.wire k = p.wire k) : Elsewhere wtrs ok k p p' := by
  refine ⟨?_, fun _ => ?_, hpollfds, hwire⟩
  · rw [hchannel]
    exact ⟨rfl⟩
  · rw [hchannel]

theorem refl (k : Nat) (p : Poller) : Elsewhere wtrs ok k p p := of_eq rfl rfl rfl

theorem setChannel (hj : k ≠ j) (p : Poller) (chn : Channel) : Elsewhere wtrs ok k p (p.setChannel j chn) :=
  of_eq (Poller.setChannel_channel_of_ne p chn hj) rfl rfl

/-- The engine has been at work. -/
theorem engages (k : Nat) (hsound : Sound wtrs ok p.world) {world : World Nat Nat}
    (hturns : Engages os wtrs ok p.world world) : Elsewhere wtrs ok k p { p with world := world } := by
  obtain ⟨-, sent, hsent⟩ := hturns.sound hsound
  refine ⟨?_, fun hk => ?_, rfl, rfl⟩
  · show SameButTx (p.world.channels k) (world.channels k)
    rw [hsent.channels]
    exact foldl_output_same wtrs sent p.world.channels k
  · obtain ⟨kept, -, hdata⟩ := foldl_output_whole hk hsent.allowed p.world.channels
    refine ⟨kept.flatten, ?_⟩
    show (p.world.channels k).txbuf.data ++ _ = (world.channels k).txbuf.data
    rw [hsent.channels, hdata]

end Elsewhere

section

theorem channelClose_elsewhere (hj : k ≠ j) (p : Poller) (closes : Bool) :
    Elsewhere wtrs ok k p (channelClose closes p j) :=
  .of_eq (Poller.setChannel_channel_of_ne p _ hj) rfl (Function.update_of_ne hj _ _)

theorem channelWrite_elsewhere (hj : k ≠ j) (p : Poller) (taken : Option Nat) :
    Elsewhere wtrs ok k p (channelWrite p j taken).2 :=
  .of_eq (Poller.setChannel_channel_of_ne p _ hj) rfl (Function.update_of_ne hj _ _)

theorem doRead_elsewhere (hj : k ≠ j) (h : Steady wtrs ok p) {rxbuf : Buffer} (hsize : rxbuf.size = bufferSize)
    {rdr : ConfReader} (hrdr : p.readers j = some rdr) (hread : doRead os wtrs p j rdr rxbuf = some p') :
    Elsewhere wtrs ok k p p' := by
  obtain ⟨world, rdr', rxbuf', hread', hturns, -, -⟩ := doRead_spec os wtrs h hsize hrdr
  obtain rfl := Option.some.inj (hread.symm.trans hread')
  have hworld := Elsewhere.engages k h.toSound hturns
  exact hworld.trans (.of_eq (Poller.setChannel_channel_of_ne _ _ hj) rfl rfl)

theorem channelRead_elsewhere (hj : k ≠ j) (h : Ready wtrs ok p) {incoming : Incoming} {n : Int}
    (hread : channelRead os wtrs p j incoming = some (n, p')) : Elsewhere wtrs ok k p p' := by
  unfold channelRead at hread
  dsimp only at hread
  split at hread
  · obtain ⟨-, rfl⟩ := Prod.mk.inj (Option.some.inj hread)
    exact .setChannel hj p _
  · split at hread
    · rename_i ready
      obtain ⟨hsize, hlen⟩ := h.room j
      obtain ⟨rxbuf, taken, rest, hbuf, -, -, hsize', -⟩ :=
        @bufferRead_spec (p.channel j).rxbuf ready (hsize ▸ Nat.lt_trans hlen (by decide))
      rw [hbuf] at hread
      dsimp only at hread
      split at hread
      · obtain ⟨-, rfl⟩ := Prod.mk.inj (Option.some.inj hread)
        exact .setChannel hj p _
      · rw [Poller.setChannel_channel_self, Poller.setChannel_setChannel, Poller.setChannel_readers] at hread
        split at hread
        · rename_i rdr hrdr
          obtain ⟨p₁, hdo, heq⟩ := Option.bind_eq_some_iff.mp hread
          obtain ⟨-, rfl⟩ := Prod.mk.inj (Option.some.inj heq)
          refine (Elsewhere.setChannel hj p _).trans (doRead_elsewhere hj ?_ (hsize'.trans hsize) hrdr hdo)
          exact h.toSteady.setChannel rfl
        · obtain ⟨-, rfl⟩ := Prod.mk.inj (Option.some.inj hread)
          rw [Poller.setChannel_setChannel]
          exact .setChannel hj p _
    · obtain ⟨-, rfl⟩ := Prod.mk.inj (Option.some.inj hread)
      exact .refl k p

theorem pollerChannelEvents_elsewhere (hj : k ≠ j) (h : Ready wtrs ok p) {service : Service}
    (hevents : pollerChannelEvents os wtrs p j service = some p') : Elsewhere wtrs ok k p p' := by
  unfold pollerChannelEvents at hevents
  dsimp only at hevents
  split at hevents
  · obtain rfl := Option.some.inj hevents
    exact channelClose_elsewhere hj p _
  · obtain ⟨n, p₁, hwrite, hgoes, helse⟩ : ∃ n p₁, (if (reported (p.pollfds j) service.revents).pollout = true then
        channelWrite p j service.taken else (0, p)) = (n, p₁) ∧ Goes os wtrs ok p p₁ ∧ Elsewhere wtrs ok k p p₁ := by
      split
      · exact ⟨_, _, rfl, channelWrite_goes os wtrs h j _, channelWrite_elsewhere hj p _⟩
      · exact ⟨_, _, rfl, .refl h, .refl k p⟩
    rw [hwrite] at hevents
    dsimp only at hevents
    split at hevents
    · obtain rfl := Option.some.inj hevents
      exact helse.trans (channelClose_elsewhere hj p₁ _)
    · split at hevents
      · obtain ⟨⟨m, p₂⟩, hread, heq⟩ := Option.bind_eq_some_iff.mp hevents
        have helse' := helse.trans (channelRead_elsewhere hj hgoes.ready hread)
        dsimp only at heq
        split at heq
        · obtain rfl := Option.some.inj heq
          exact helse'.trans (channelClose_elsewhere hj p₂ _)
        · obtain rfl := Option.some.inj heq
          exact helse'
      · obtain rfl := Option.some.inj hevents
        exact helse

theorem alarm_elsewhere (h : Ready wtrs ok p) {comes : Bool} (halarm : alarm os wtrs p comes = some p') :
    Elsewhere wtrs ok k p p' := by
  unfold alarm at halarm
  split at halarm
  · obtain ⟨world, hturn, rfl⟩ := Option.map_eq_some_iff.mp halarm
    exact .engages k h.toSound (.turn (t := .act .alarm) trivial hturn)
  · obtain rfl := Option.some.inj halarm
    exact .refl k p

theorem pollerDeferEvents_elsewhere (h : Ready wtrs ok p) {wake : Bool}
    (hdefer : pollerDeferEvents os wtrs p wake = some p') : Elsewhere wtrs ok k p p' := by
  unfold pollerDeferEvents at hdefer
  split at hdefer
  · obtain ⟨x, hnext, rfl⟩ := Option.map_eq_some_iff.mp hdefer
    have hturn : turn os wtrs p.world (.act .next) = some x.2 := Option.map_eq_some_iff.mpr ⟨x, hnext, rfl⟩
    exact .engages k h.toSound (.turn (t := .act .next) trivial hturn)
  · obtain rfl := Option.some.inj hdefer
    exact .refl k p

theorem pollerEvents_elsewhere {chns : List Nat} (hnot : k ∉ chns) {service : Nat → Service} (h : Ready wtrs ok p)
    (hevents : pollerEvents os wtrs p chns service = some p') : Elsewhere wtrs ok k p p' := by
  unfold pollerEvents at hevents
  induction chns generalizing p with
  | nil =>
    obtain rfl := Option.some.inj hevents
    exact .refl k p
  | cons j chns ih =>
    obtain ⟨hj, hrest⟩ := List.ne_and_not_mem_of_not_mem_cons hnot
    rw [List.foldlM_cons] at hevents
    obtain ⟨p₂, hone, hevents⟩ := Option.bind_eq_some_iff.mp hevents
    obtain ⟨p₁, halarm, hone⟩ := Option.bind_eq_some_iff.mp hone
    obtain ⟨p₁', halarm', hgoes⟩ := alarm_goes os wtrs h (service j).alarm
    obtain rfl := Option.some.inj (halarm.symm.trans halarm')
    obtain ⟨p₂', hone', hgoes'⟩ := pollerChannelEvents_goes os wtrs hgoes.ready j (service j)
    obtain rfl := Option.some.inj (hone.symm.trans hone')
    have helse := (alarm_elsewhere h halarm).trans (pollerChannelEvents_elsewhere hj hgoes.ready hone)
    exact helse.trans (ih hrest hgoes'.ready hevents)

end

/-! ## A round, seen from a channel -/

/-- Other channels are registered. -/
theorem pollerRegisterEvents_other {chns : List Nat} (hnot : k ∉ chns) (p : Poller) (service : Nat → Service) :
    (pollerRegisterEvents p chns service).channel k = p.channel k ∧
      (pollerRegisterEvents p chns service).wire k = p.wire k ∧
      (pollerRegisterEvents p chns service).pollfds k = p.pollfds k := by
  have hone : ∀ (q : Poller), ∀ j ∈ chns, (pollerRegisterChannel q j (service j).opened).channel k = q.channel k ∧
      (pollerRegisterChannel q j (service j).opened).wire k = q.wire k ∧
      (pollerRegisterChannel q j (service j).opened).pollfds k = q.pollfds k := by
    intro q j hj
    have hne : k ≠ j := fun heq => hnot (heq ▸ hj)
    unfold pollerRegisterChannel
    dsimp only
    split
    · exact ⟨Poller.setChannel_channel_of_ne _ _ hne, Function.update_of_ne hne _ _, Function.update_of_ne hne _ _⟩
    · exact ⟨Poller.setChannel_channel_of_ne _ _ hne, rfl, Function.update_of_ne hne _ _⟩
  unfold pollerRegisterEvents
  refine List.foldlRecOn chns _ (motive := fun q : Poller => q.channel k = p.channel k ∧ q.wire k = p.wire k ∧
    q.pollfds k = p.pollfds k) ⟨rfl, rfl, rfl⟩ fun q hq j hj => ?_
  obtain ⟨hchannel, hwire, hpollfds⟩ := hone q j hj
  exact ⟨hchannel.trans hq.1, hwire.trans hq.2.1, hpollfds.trans hq.2.2⟩

theorem pollerRegisterChannel_open (h : channelIsOpen (p.channel k) = true) (opened : Int × Bool) :
    pollerRegisterChannel p k opened =
      { p with
        pollfds := Function.update p.pollfds k
          ⟨true, channelNeedsReading (p.channel k), channelNeedsWriting (p.channel k)⟩ } := by
  unfold pollerRegisterChannel Protozoa.pollerRegisterChannel
  simp only [h, Bool.not_true, Bool.false_and, Bool.false_eq_true, if_false, if_true, Poller.setChannel_self]

/-- The channels around one in the list. -/
theorem exists_around {chns : List Nat} (hmem : k ∈ chns) (hnodup : chns.Nodup) :
    ∃ before after, chns = before ++ k :: after ∧ k ∉ before ∧ k ∉ after ∧ chns.takeWhile (· ≠ k) = before := by
  obtain ⟨before, after, rfl⟩ := List.append_of_mem hmem
  rw [List.nodup_append, List.nodup_cons] at hnodup
  obtain ⟨-, ⟨hafter, -⟩, hdisjoint⟩ := hnodup
  have hbefore : k ∉ before := fun hin => hdisjoint k hin k List.mem_cons_self rfl
  refine ⟨before, after, rfl, hbefore, hafter, ?_⟩
  rw [List.takeWhile_append_of_pos, List.takeWhile_cons_of_neg, List.append_nil]
  · simp
  · exact fun j hj => decide_eq_true fun heq => hbefore (heq ▸ hj)

/-- From the beginning of a round to the events of a channel that is open. -/
structure Polled (wtrs : Nat → Ccwriter Nat) (ok : Nat → Int → Prop) (k : Nat) (p p' : Poller) : Prop where
  same : SameButTx (p.channel k) (p'.channel k)
  more : Appends wtrs ok k → (p.channel k).txbuf.data <+: (p'.channel k).txbuf.data
  wire : p'.wire k = p.wire k
  pollfds : p'.pollfds k = ⟨true, channelNeedsReading (p.channel k), channelNeedsWriting (p.channel k)⟩

theorem Polled.trans (h : Polled wtrs ok k p p') (h' : Elsewhere wtrs ok k p' p'') : Polled wtrs ok k p p'' :=
  ⟨h.same.trans h'.same, fun hk => (h.more hk).trans (h'.more hk), h'.wire.trans h.wire, h'.pollfds.trans h.pollfds⟩

theorem pollerRegisterEvents_polled {chns : List Nat} (hmem : k ∈ chns) (hnodup : chns.Nodup)
    (hopen : channelIsOpen (p.channel k) = true) (service : Nat → Service) :
    Polled wtrs ok k p (pollerRegisterEvents p chns service) := by
  obtain ⟨before, after, rfl, hbefore, hafter, -⟩ := exists_around hmem hnodup
  obtain ⟨hchannel, hwire, -⟩ := pollerRegisterEvents_other hbefore p service
  set p₀ := pollerRegisterEvents p before service with hp₀
  have hsplit : pollerRegisterEvents p (before ++ k :: after) service =
      pollerRegisterEvents (pollerRegisterChannel p₀ k (service k).opened) after service := by
    unfold pollerRegisterEvents at hp₀ ⊢
    rw [List.foldl_append, ← hp₀, List.foldl_cons]
  rw [hsplit, pollerRegisterChannel_open (hchannel ▸ hopen)]
  obtain ⟨hchannel', hwire', hpollfds⟩ := pollerRegisterEvents_other hafter { p₀ with
    pollfds := Function.update p₀.pollfds k
      ⟨true, channelNeedsReading (p₀.channel k), channelNeedsWriting (p₀.channel k)⟩ } service
  have hsame := hchannel'.trans hchannel
  refine ⟨?_, fun _ => ?_, hwire'.trans hwire, ?_⟩
  · rw [hsame]
    exact ⟨rfl⟩
  · rw [hsame]
  · rw [hpollfds, ← hchannel]
    exact Function.update_self k _ p₀.pollfds

theorem pollerEvents_append (p : Poller) (before after : List Nat) (service : Nat → Service) :
    pollerEvents os wtrs p (before ++ after) service =
      (pollerEvents os wtrs p before service).bind fun p => pollerEvents os wtrs p after service := by
  unfold pollerEvents
  rw [List.foldlM_append]
  rfl

variable (os wtrs) in
/-- The state in which the events of a channel are handled. -/
def beforeEvents (p : Poller) (chns : List Nat) (round : Round) (k : Nat) : Option Poller := do
  let p ← pollerEvents os wtrs (pollerRegisterEvents p chns round.service) (chns.takeWhile (· ≠ k)) round.service
  alarm os wtrs p (round.service k).alarm

/-- **A round, seen from a channel** that is open: it is polled, its events are handled, and the
rest is elsewhere. -/
theorem pollerDoPoll_at (h : Ready wtrs ok p)
    {chns : List Nat} (hmem : k ∈ chns) (hnodup : chns.Nodup) (hopen : channelIsOpen (p.channel k) = true)
    {round : Round} (hfailed : round.failed = none) :
    ∃ p₁ p₂ p₃, beforeEvents os wtrs p chns round k = some p₁ ∧ Polled wtrs ok k p p₁ ∧ Ready wtrs ok p₁ ∧
      pollerChannelEvents os wtrs p₁ k (round.service k) = some p₂ ∧ Elsewhere wtrs ok k p₂ p₃ ∧ Ready wtrs ok p₃ ∧
      pollerDoPoll os wtrs (pollerRegisterEvents p chns round.service) chns round =
        some (pollerCheckConfig round.notice, p₃) := by
  have hpolled : Polled wtrs ok k p _ := pollerRegisterEvents_polled hmem hnodup hopen round.service
  have hregistered := pollerRegisterEvents_goes os wtrs h chns round.service
  unfold beforeEvents
  set p₀ := pollerRegisterEvents p chns round.service
  obtain ⟨before, after, rfl, hbefore, hafter, htake⟩ := exists_around hmem hnodup
  rw [htake]
  obtain ⟨q₁, hevents₁, hgoes₁⟩ := pollerEvents_goes os wtrs hregistered.ready before round.service
  obtain ⟨p₁, halarm₁, hgoes₂⟩ := alarm_goes os wtrs hgoes₁.ready (round.service k).alarm
  obtain ⟨p₂, hevents₂, hgoes₃⟩ := pollerChannelEvents_goes os wtrs hgoes₂.ready k (round.service k)
  obtain ⟨q₂, hevents₃, hgoes₄⟩ := pollerEvents_goes os wtrs hgoes₃.ready after round.service
  obtain ⟨q₃, halarm₃, hgoes₅⟩ := alarm_goes os wtrs hgoes₄.ready round.alarm
  obtain ⟨p₃, hdefer, hgoes₆⟩ := pollerDeferEvents_goes os wtrs hgoes₅.ready round.wake
  have hall : pollerEvents os wtrs p₀ (before ++ k :: after) round.service = some q₂ := by
    rw [pollerEvents_append, hevents₁, Option.bind_some]
    refine Option.bind_eq_some_iff.mpr ⟨p₂, ?_, hevents₃⟩
    exact Option.bind_eq_some_iff.mpr ⟨p₁, halarm₁, hevents₂⟩
  refine ⟨p₁, p₂, p₃, Option.bind_eq_some_iff.mpr ⟨q₁, hevents₁, halarm₁⟩, ?_, hgoes₂.ready, hevents₂, ?_,
    hgoes₆.ready, ?_⟩
  · exact (hpolled.trans (pollerEvents_elsewhere hbefore hregistered.ready hevents₁)).trans
      (alarm_elsewhere hgoes₁.ready halarm₁)
  · exact (pollerEvents_elsewhere hafter hgoes₃.ready hevents₃).trans
      ((alarm_elsewhere hgoes₄.ready halarm₃).trans (pollerDeferEvents_elsewhere hgoes₅.ready hdefer))
  · unfold pollerDoPoll
    rw [hfailed]
    refine Option.bind_eq_some_iff.mpr ⟨q₂, hall, Option.bind_eq_some_iff.mpr ⟨q₃, halarm₃, ?_⟩⟩
    exact Option.bind_eq_some_iff.mpr ⟨p₃, hdefer, rfl⟩

/-! ## The events of the channel -/

/-- A connection that is up, where nobody waits for a response. -/
structure Connected (chn : Channel) : Prop where
  isOpen : channelIsOpen chn = true
  accepted : channelIsListening chn = false
  unrequired : hasFlag chn flagRespRequired = false
  answered : hasFlag chn flagNeedsResp = false

/-- The socket takes something of what waits, and what is read of it is neither its end nor an
error. -/
structure Serves (service : Service) (chn : Channel) : Prop where
  pollhup : service.revents.pollhup = false
  pollout : service.revents.pollout = true
  taken : chn.txbuf.data ≠ [] → ∃ n, service.taken = some n ∧ 0 < n ∧ n ≤ chn.txbuf.data.length
  incoming : service.revents.pollin = true → ∃ ready, service.incoming = .bytes (some ready) ∧ ready ≠ []

/-- A response is required for what is written. -/
def requiring (chn : Channel) : Channel :=
  if hasFlag chn flagRespRequired then { chn with flags := chn.flags ||| flagNeedsResp } else chn

theorem requiring_eq (chn : Channel) : ∃ flags, requiring chn = { chn with flags := flags } := by
  unfold requiring
  split
  · exact ⟨_, rfl⟩
  · exact ⟨chn.flags, rfl⟩

/-- **The socket takes** some of what waits, or nothing. -/
theorem channelWrite_takes {n : Nat} (hdata : (p.channel k).txbuf.data ≠ [])
    (hn : n ≤ (p.channel k).txbuf.data.length) :
    ∃ p' txbuf, channelWrite p k (some n) = ((n : Int), p') ∧
      p'.wire k = p.wire k ++ (p.channel k).txbuf.data.take n ∧
      (p.channel k).txbuf.data = (p.channel k).txbuf.data.take n ++ txbuf.data ∧
      p'.channel k = { requiring (p.channel k) with txbuf := txbuf } := by
  obtain ⟨txbuf, hconsume, hdrop, -⟩ := bufferConsume_spec hn
  have hne : bufferAvailable (p.channel k).txbuf ≠ 0 := fun hzero => hdata (List.length_eq_zero_iff.mp hzero)
  have hwrite : bufferWrite (p.channel k).txbuf n = some (txbuf, (p.channel k).txbuf.data.take n) := by
    unfold bufferWrite
    rw [if_neg hne, hconsume]
    rfl
  obtain ⟨flags, hflags⟩ := requiring_eq (p.channel k)
  refine ⟨{ p.setChannel k { requiring (p.channel k) with txbuf := txbuf } with
    wire := Function.update p.wire k (p.wire k ++ (p.channel k).txbuf.data.take n) }, txbuf, ?_, ?_, ?_, ?_⟩
  · unfold channelWrite Protozoa.channelWrite
    dsimp only
    rw [show (if hasFlag (p.channel k) flagRespRequired then
      { p.channel k with flags := (p.channel k).flags ||| flagNeedsResp } else p.channel k) = _ from hflags]
    dsimp only
    rw [Option.bind_some, hwrite, hflags]
    simp only [List.length_take_of_le hn]
    rfl
  · exact Function.update_self k _ p.wire
  · rw [hdrop, List.take_append_drop]
  · exact Poller.setChannel_channel_self p k _

/-- **A bufferful is read** by a reader: its channel waits for no response any more, and is open as
before. -/
theorem channelRead_reads (hk : Appends wtrs ok k) (h : Ready wtrs ok p)
    (hlisten : channelIsListening (p.channel k) = false) (hreader : channelHasReader (p.channel k) = true)
    {ready : List Byte} (hready : ready ≠ []) :
    ∃ n p', channelRead os wtrs p k (.bytes (some ready)) = some (n, p') ∧ 0 < n ∧ p'.wire k = p.wire k ∧
      (p.channel k).txbuf.data <+: (p'.channel k).txbuf.data ∧
      p'.channel k = { channelClearResponse (p.channel k) with
        rxbuf := (p'.channel k).rxbuf
        txbuf := (p'.channel k).txbuf } := by
  obtain ⟨rdr, hrdr⟩ := Option.isSome_iff_exists.mp ((h.same k).symm.trans hreader)
  obtain ⟨hsize, hlen⟩ := h.room k
  obtain ⟨rxbuf, taken, rest, hbuf, hsplit, -, hsize', htaken⟩ :=
    @bufferRead_spec (p.channel k).rxbuf ready (hsize ▸ Nat.lt_trans hlen (by decide))
  have hcount : ((ready.length - rest.length : Nat) : Int) = taken.length := by
    rw [hsplit, List.length_append, Nat.add_sub_cancel]
  have hpos := List.length_pos_of_ne_nil (htaken hready)
  set chn := channelClearResponse { p.channel k with rxbuf := rxbuf } with hchn
  have hsteady : Steady wtrs ok (p.setChannel k chn) := h.toSteady.setChannel rfl
  obtain ⟨world, rdr', rxbuf', hread, hturns, -, -⟩ := doRead_spec os wtrs hsteady (hsize'.trans hsize) hrdr
  have helse := Elsewhere.engages k hsteady.toSound hturns
  have hworld : SameButTx chn (world.channels k) := by
    have := helse.same
    rw [Poller.setChannel_channel_self] at this
    exact this
  have hmore : chn.txbuf.data <+: (world.channels k).txbuf.data := by
    have := helse.more hk
    rw [Poller.setChannel_channel_self] at this
    exact this
  obtain ⟨p', hread', hwire, hchannel⟩ : ∃ p', doRead os wtrs (p.setChannel k chn) k rdr rxbuf = some p' ∧
      p'.wire k = p.wire k ∧ p'.channel k = { world.channels k with rxbuf := rxbuf' } :=
    ⟨_, hread, rfl, Poller.setChannel_channel_self _ _ _⟩
  refine ⟨taken.length, p', ?_, by omega, hwire, ?_, ?_⟩
  · unfold channelRead
    dsimp only
    rw [hlisten]
    simp only [Bool.false_eq_true, if_false, hbuf]
    rw [hcount, if_neg (by omega), Poller.setChannel_channel_self, Poller.setChannel_setChannel,
      Poller.setChannel_readers, hrdr]
    exact Option.bind_eq_some_iff.mpr ⟨p', hread', rfl⟩
  · rw [hchannel]
    exact hmore
  · rw [hchannel, hworld.eq]
    rfl

/-- A connection stays up when it is written to and read from. -/
theorem Connected.of_eq {chn chn' : Channel} (h : Connected chn) (hfd : chn'.fd = chn.fd) (hsfd : chn'.sfd = chn.sfd)
    (hflags : chn'.flags = chn.flags ∨ chn'.flags = (channelClearResponse chn).flags) : Connected chn' := by
  have hopen : channelIsOpen chn' = channelIsOpen chn := congrArg (· != 0) hfd
  have hlisten : channelIsListening chn' = channelIsListening chn := by
    unfold channelIsListening
    rw [hfd, hsfd]
  refine ⟨hopen.trans h.isOpen, hlisten.trans h.accepted, ?_, ?_⟩
  · rcases hflags with hflags | hflags
    · exact (congrArg (fun flags => flags &&& flagRespRequired != 0) hflags).trans h.unrequired
    · refine (congrArg (fun flags => flags &&& flagRespRequired != 0) hflags).trans ?_
      exact (hasFlag_clearResponse_required chn).trans h.unrequired
  · rcases hflags with hflags | hflags
    · exact (congrArg (fun flags => flags &&& flagNeedsResp != 0) hflags).trans h.answered
    · exact (congrArg (fun flags => flags &&& flagNeedsResp != 0) hflags).trans (hasFlag_clearResponse chn)

/-- What a round brings on a connection: some bytes go out, and what waits behind them is still
there. -/
structure Brings (k : Nat) (p p' : Poller) (sent : List Byte) : Prop where
  wire : p'.wire k = p.wire k ++ sent
  more : (p.channel k).txbuf.data <+: sent ++ (p'.channel k).txbuf.data

variable (os) in
include os in
/-- The write half of a round. -/
theorem channelWrite_serves (h : Ready wtrs ok p) (hconn : Connected (p.channel k))
    (hout : (p.pollfds k).pollout = true → (p.channel k).txbuf.data ≠ []) {service : Service}
    (hserves : Serves service (p.channel k)) :
    ∃ (n : Int) (p₁ : Poller) (sent : List Byte),
      (if (reported (p.pollfds k) service.revents).pollout = true then channelWrite p k service.taken
        else (0, p)) = (n, p₁) ∧ 0 ≤ n ∧ Ready wtrs ok p₁ ∧ Connected (p₁.channel k) ∧
      channelHasReader (p₁.channel k) = channelHasReader (p.channel k) ∧ Brings k p p₁ sent ∧
      ((p.pollfds k).pollout = true → sent ≠ []) := by
  by_cases hpolled : (p.pollfds k).pollout = true
  · have hdata := hout hpolled
    obtain ⟨n, htaken, hpos, hn⟩ := hserves.taken hdata
    obtain ⟨p₁, txbuf, hwrite, hwire, hsplit, hchannel⟩ := channelWrite_takes hdata hn
    have hready := (channelWrite_goes os wtrs h k (some n)).ready
    rw [hwrite] at hready
    have hrequiring : requiring (p.channel k) = p.channel k := by
      unfold requiring
      rw [hconn.unrequired]
      rfl
    rw [hrequiring] at hchannel
    have hreported : (reported (p.pollfds k) service.revents).pollout = true := by
      unfold reported
      rw [hpolled, hserves.pollout]
      rfl
    refine ⟨n, p₁, (p.channel k).txbuf.data.take n, ?_, Int.natCast_nonneg n, hready, ?_, ?_, ⟨hwire, ?_⟩,
      fun _ => ?_⟩
    · rw [if_pos hreported, htaken, hwrite]
    · exact hconn.of_eq (by rw [hchannel]) (by rw [hchannel]) (Or.inl (by rw [hchannel]))
    · rw [hchannel]
      rfl
    · rw [hchannel, ← hsplit]
    · intro hnil
      have hlen := congrArg List.length hnil
      rw [List.length_take_of_le hn, List.length_nil] at hlen
      omega
  · have hreported : ¬(reported (p.pollfds k) service.revents).pollout = true := by
      unfold reported
      rw [Bool.not_eq_true] at hpolled
      rw [hpolled]
      exact Bool.false_ne_true
    refine ⟨0, p, [], if_neg hreported, Int.le_refl 0, h, hconn, rfl, ⟨?_, List.prefix_refl _⟩, fun hp => ?_⟩
    · exact (List.append_nil _).symm
    · exact absurd hp hpolled

theorem pollerChannelEvents_serves (hk : Appends wtrs ok k)
    (h : Ready wtrs ok p) (hconn : Connected (p.channel k))
    (hin : (p.pollfds k).pollin = channelNeedsReading (p.channel k))
    (hout : (p.pollfds k).pollout = true → (p.channel k).txbuf.data ≠ []) {service : Service}
    (hserves : Serves service (p.channel k)) (hevents : pollerChannelEvents os wtrs p k service = some p') :
    Connected (p'.channel k) ∧ ∃ sent, Brings k p p' sent ∧ ((p.pollfds k).pollout = true → sent ≠ []) := by
  obtain ⟨n, p₁, sent, hwrite, hn, hready₁, hconn₁, hreader₁, hbrings, hsent⟩ :=
    channelWrite_serves os h hconn hout hserves
  unfold pollerChannelEvents at hevents
  dsimp only at hevents
  have hhup : ¬(reported (p.pollfds k) service.revents).pollhup = true := by
    unfold reported
    rw [hserves.pollhup, Bool.and_false]
    exact Bool.false_ne_true
  rw [if_neg hhup, hwrite] at hevents
  dsimp only at hevents
  rw [if_neg (by omega)] at hevents
  by_cases hpollin : (reported (p.pollfds k) service.revents).pollin = true
  · rw [if_pos hpollin] at hevents
    obtain ⟨hasked, hrevents⟩ := Bool.and_eq_true_iff.mp (show (_ && _) = true from hpollin)
    obtain ⟨ready, hincoming, hne⟩ := hserves.incoming hrevents
    have hreader : channelHasReader (p₁.channel k) = true := by
      rw [hreader₁]
      rw [hin, channelNeedsReading, hconn.answered, Bool.or_false] at hasked
      exact hasked
    obtain ⟨m, p₂, hread, hm, hwire, hmore, heq⟩ := channelRead_reads hk hready₁ hconn₁.accepted hreader hne
    rw [hincoming, hread, Option.bind_eq_bind, Option.bind_some] at hevents
    dsimp only at hevents
    rw [if_neg (by omega)] at hevents
    obtain rfl := Option.some.inj hevents
    refine ⟨hconn₁.of_eq ?_ ?_ (Or.inr ?_), sent, ⟨hwire.trans hbrings.wire, ?_⟩, hsent⟩
    · rw [heq]
      rfl
    · rw [heq]
      rfl
    · rw [heq]
    · exact hbrings.more.trans ((List.prefix_append_right_inj sent).mpr hmore)
  · rw [if_neg hpollin] at hevents
    obtain rfl := Option.some.inj hevents
    exact ⟨hconn₁, sent, hbrings, hsent⟩

/-- No response comes, and the socket takes some of what waits, or nothing. -/
structure Mute (service : Service) (chn : Channel) : Prop where
  pollhup : service.revents.pollhup = false
  pollin : service.revents.pollin = false
  pollout : service.revents.pollout = true →
    chn.txbuf.data ≠ [] ∧ ∃ n, service.taken = some n ∧ n ≤ chn.txbuf.data.length

/-- A connection that is up, where a response is required. -/
structure Requiring (chn : Channel) : Prop where
  isOpen : channelIsOpen chn = true
  required : hasFlag chn flagRespRequired = true

theorem Requiring.congr {chn chn' : Channel} (h : Requiring chn) (hsame : SameButTx chn chn') : Requiring chn' := by
  rw [hsame.eq]
  exact ⟨h.isOpen, h.required⟩

/-- What a connection brings while there is no response: what has gone out is waited for, and while
one is waited for nothing goes out. -/
structure Waits (k : Nat) (p p' : Poller) (sent : List Byte) : Prop where
  wire : p'.wire k = p.wire k ++ sent
  sending : sent ≠ [] → hasFlag (p'.channel k) flagNeedsResp = true
  waiting : hasFlag (p.channel k) flagNeedsResp = true → sent = [] ∧ hasFlag (p'.channel k) flagNeedsResp = true

theorem Waits.trans {sent sent' : List Byte} (h : Waits k p p' sent) (h' : Waits k p' p'' sent') :
    Waits k p p'' (sent ++ sent') where
  wire := by rw [h'.wire, h.wire, List.append_assoc]
  sending hne := by
    by_cases hnil : sent = []
    · rw [hnil, List.nil_append] at hne
      exact h'.sending hne
    · exact (h'.waiting (h.sending hnil)).2
  waiting hwaits := by
    obtain ⟨hnil, hwaits'⟩ := h.waiting hwaits
    obtain ⟨hnil', hwaits''⟩ := h'.waiting hwaits'
    exact ⟨by rw [hnil, hnil', List.append_nil], hwaits''⟩

theorem Waits.of_same (hsame : SameButTx (p.channel k) (p'.channel k)) (hwire : p'.wire k = p.wire k) :
    Waits k p p' [] := by
  refine ⟨hwire.trans (List.append_nil _).symm, fun hne => absurd rfl hne, fun hwaits => ⟨rfl, ?_⟩⟩
  rw [hsame.eq]
  exact hwaits

theorem pollerChannelEvents_mute (hrequiring : Requiring (p.channel k))
    (hout : (p.pollfds k).pollout = true → hasFlag (p.channel k) flagNeedsResp = false) {service : Service}
    (hmute : Mute service (p.channel k)) (hevents : pollerChannelEvents os wtrs p k service = some p') :
    Requiring (p'.channel k) ∧ ∃ sent, Waits k p p' sent := by
  have hhup : ¬(reported (p.pollfds k) service.revents).pollhup = true := by
    unfold reported
    rw [hmute.pollhup, Bool.and_false]
    exact Bool.false_ne_true
  have hin : ¬(reported (p.pollfds k) service.revents).pollin = true := by
    unfold reported
    rw [hmute.pollin, Bool.and_false]
    exact Bool.false_ne_true
  unfold pollerChannelEvents at hevents
  dsimp only at hevents
  rw [if_neg hhup] at hevents
  by_cases hpollout : (reported (p.pollfds k) service.revents).pollout = true
  · obtain ⟨hasked, hrevents⟩ := Bool.and_eq_true_iff.mp (show (_ && _) = true from hpollout)
    obtain ⟨hdata, n, htaken, hn⟩ := hmute.pollout hrevents
    obtain ⟨p₁, txbuf, hwrite, hwire, -, hchannel⟩ := channelWrite_takes hdata hn
    rw [if_pos hpollout, htaken, hwrite] at hevents
    dsimp only at hevents
    rw [if_neg (Int.not_lt.mpr (Int.natCast_nonneg n)), if_neg hin] at hevents
    obtain rfl := Option.some.inj hevents
    have hrequires : requiring (p.channel k) = { p.channel k with flags := (p.channel k).flags ||| flagNeedsResp } :=
      if_pos hrequiring.required
    obtain ⟨hneeds, hrequired⟩ := hasFlag_needsResp (p.channel k)
    rw [hrequires] at hchannel
    have hflag : hasFlag (p₁.channel k) flagNeedsResp = true := by
      rw [hchannel]
      exact hneeds
    refine ⟨?_, _, hwire, fun _ => hflag, fun hwaits => ?_⟩
    · rw [hchannel]
      exact ⟨hrequiring.isOpen, hrequired.trans hrequiring.required⟩
    · exact absurd hwaits (Bool.eq_false_iff.mp (hout hasked))
  · rw [if_neg hpollout] at hevents
    dsimp only at hevents
    rw [if_neg (Int.lt_irrefl 0), if_neg hin] at hevents
    obtain rfl := Option.some.inj hevents
    exact ⟨hrequiring, [], .of_same ⟨rfl⟩ rfl⟩

/-! ## Round after round -/

variable (os wtrs) in
/-- In every round of a run that goes on, this is what the system does to the channel. -/
def Throughout (P : Service → Channel → Prop) (chns : List Nat) (k : Nat) : Poller → List Round → Prop
  | _, [] => True
  | p, round :: rounds =>
    round.failed = none ∧ pollerCheckConfig round.notice = 0 ∧
      (∀ p₁ ∈ beforeEvents os wtrs p chns round k, P (round.service k) (p₁.channel k)) ∧
      ∀ x ∈ pollerDoPoll os wtrs (pollerRegisterEvents p chns round.service) chns round,
        Throughout P chns k x.2 rounds

/-- **What one round preserves**, a run does. -/
theorem Throughout.run {P : Service → Channel → Prop} {I : Poller → Prop} {Q : Nat → Poller → Poller → Prop}
    {chns : List Nat} (hmem : k ∈ chns) (hnodup : chns.Nodup) (hopen : ∀ p, I p → channelIsOpen (p.channel k) = true)
    (hzero : ∀ p, Q 0 p p)
    (hround : ∀ {p p₁ p₂ p₃ : Poller} {service : Service}, I p → Polled wtrs ok k p p₁ → Ready wtrs ok p₁ →
      P service (p₁.channel k) → pollerChannelEvents os wtrs p₁ k service = some p₂ → Elsewhere wtrs ok k p₂ p₃ →
      I p₃ ∧ ∀ n p', Q n p₃ p' → Q (n + 1) p p')
    (h : Ready wtrs ok p) (hI : I p) {rounds : List Round} (hall : Throughout os wtrs P chns k p rounds) :
    ∃ p', pollerLoop os wtrs p chns rounds = some (none, p') ∧ I p' ∧ Q rounds.length p p' := by
  induction rounds generalizing p with
  | nil => exact ⟨p, rfl, hI, hzero p⟩
  | cons round rounds ih =>
    obtain ⟨hfailed, hgoes, hservice, hrest⟩ := hall
    obtain ⟨p₁, p₂, p₃, hbefore, hpolled, hready₁, hevents, helse, hready₃, hpoll⟩ :=
      pollerDoPoll_at h hmem hnodup (hopen p hI) hfailed
    obtain ⟨hI₃, hQ⟩ := hround hI hpolled hready₁ (hservice p₁ hbefore) hevents helse
    obtain ⟨p', hloop, hI', hQ'⟩ := ih hready₃ hI₃ (hrest _ hpoll)
    refine ⟨p', ?_, hI', hQ _ _ hQ'⟩
    unfold pollerLoop
    rw [hpoll]
    exact (if_pos hgoes).trans hloop

theorem Brings.trans {sent sent' : List Byte} (h : Brings k p p' sent) (h' : Brings k p' p'' sent') :
    Brings k p p'' (sent ++ sent') where
  wire := by rw [h'.wire, h.wire, List.append_assoc]
  more := by
    rw [List.append_assoc]
    exact h.more.trans ((List.prefix_append_right_inj sent).mpr h'.more)

/-- Of what waited, this many bytes at least have gone out. -/
def Drained (k : Nat) (n : Nat) (p p' : Poller) : Prop :=
  ∃ sent, Brings k p p' sent ∧ min n (p.channel k).txbuf.data.length ≤ sent.length

theorem Drained.zero (k : Nat) (p : Poller) : Drained k 0 p p :=
  ⟨[], ⟨(List.append_nil _).symm, List.prefix_refl _⟩, Nat.le_of_eq (Nat.zero_min _)⟩

/-- **One round** in which the socket takes something. -/
theorem drained_round (hk : Appends wtrs ok k) {p₁ p₂ p₃ : Poller} {service : Service} (hconn : Connected (p.channel k))
    (hpolled : Polled wtrs ok k p p₁) (hready₁ : Ready wtrs ok p₁) (hserves : Serves service (p₁.channel k))
    (hevents : pollerChannelEvents os wtrs p₁ k service = some p₂) (helse : Elsewhere wtrs ok k p₂ p₃) :
    Connected (p₃.channel k) ∧ ∀ n p', Drained k n p₃ p' → Drained k (n + 1) p p' := by
  have hmore := hpolled.more hk
  have hneeds : (p₁.pollfds k).pollout = true ↔ (p.channel k).txbuf.data ≠ [] := by
    rw [hpolled.pollfds, channelNeedsWriting, hconn.answered]
    simp [bufferIsEmpty, bufferAvailable]
  have hconn₁ : Connected (p₁.channel k) := by
    rw [hpolled.same.eq]
    exact ⟨hconn.isOpen, hconn.accepted, hconn.unrequired, hconn.answered⟩
  have hin : (p₁.pollfds k).pollin = channelNeedsReading (p₁.channel k) := by
    rw [hpolled.pollfds, hpolled.same.eq]
    rfl
  have hout : (p₁.pollfds k).pollout = true → (p₁.channel k).txbuf.data ≠ [] := fun hasked hnil =>
    hneeds.mp hasked (List.prefix_nil.mp (hnil ▸ hmore))
  obtain ⟨hconn₂, sent, hbrings, hsent⟩ := pollerChannelEvents_serves hk hready₁ hconn₁ hin hout hserves hevents
  have hbrings₃ : Brings k p p₃ sent := by
    refine ⟨?_, hmore.trans (hbrings.more.trans ((List.prefix_append_right_inj sent).mpr (helse.more hk)))⟩
    rw [helse.wire, hbrings.wire, hpolled.wire]
  refine ⟨?_, fun n p' hdrained => ?_⟩
  · rw [helse.same.eq]
    exact ⟨hconn₂.isOpen, hconn₂.accepted, hconn₂.unrequired, hconn₂.answered⟩
  · obtain ⟨sent', hbrings', hlen'⟩ := hdrained
    refine ⟨sent ++ sent', hbrings₃.trans hbrings', ?_⟩
    have hwaited := hbrings₃.more.length_le
    rw [List.length_append] at hwaited ⊢
    by_cases hnil : (p.channel k).txbuf.data = []
    · rw [hnil]
      exact (Nat.min_le_right _ _).trans (Nat.zero_le _)
    · have hpos := List.length_pos_of_ne_nil (hsent (hneeds.mpr hnil))
      omega

/-- **What waits goes out**, a byte in a round at least. -/
theorem Ready.drains (hk : Appends wtrs ok k) (h : Ready wtrs ok p) {chns : List Nat} (hmem : k ∈ chns)
    (hnodup : chns.Nodup) (hconn : Connected (p.channel k)) {rounds : List Round}
    (hall : Throughout os wtrs Serves chns k p rounds) :
    ∃ p', pollerLoop os wtrs p chns rounds = some (none, p') ∧ Connected (p'.channel k) ∧
      p.wire k ++ (p.channel k).txbuf.data.take rounds.length <+: p'.wire k := by
  obtain ⟨p', hloop, hconn', sent, hbrings, hlen⟩ := Throughout.run hmem hnodup
    (fun p (hconn : Connected (p.channel k)) => hconn.isOpen) (Drained.zero k)
    (fun hconn hpolled hready hserves hevents helse => drained_round hk hconn hpolled hready hserves hevents helse)
    h hconn hall
  refine ⟨p', hloop, hconn', ?_⟩
  rw [hbrings.wire, List.prefix_append_right_inj]
  refine List.prefix_of_prefix_length_le ((List.take_prefix _ _).trans hbrings.more) (List.prefix_append _ _) ?_
  rw [List.length_take]
  exact hlen

/-- **While there is no response**, nothing goes out behind what one is waited for. -/
theorem Ready.waits (h : Ready wtrs ok p) {chns : List Nat} (hmem : k ∈ chns) (hnodup : chns.Nodup)
    (hrequiring : Requiring (p.channel k)) {rounds : List Round}
    (hall : Throughout os wtrs Mute chns k p rounds) :
    ∃ p', pollerLoop os wtrs p chns rounds = some (none, p') ∧ Requiring (p'.channel k) ∧
      ∃ sent, Waits k p p' sent := by
  refine Throughout.run (I := fun p => Requiring (p.channel k)) (Q := fun _ p p' => ∃ sent, Waits k p p' sent)
    hmem hnodup (fun p hrequiring => hrequiring.isOpen) (fun p => ⟨[], .of_same ⟨rfl⟩ rfl⟩) ?_ h hrequiring hall
  intro p p₁ p₂ p₃ service hrequiring hpolled _ hmute hevents helse
  have hout : (p₁.pollfds k).pollout = true → hasFlag (p₁.channel k) flagNeedsResp = false := by
    rw [hpolled.pollfds, hpolled.same.eq, channelNeedsWriting, Bool.not_eq_true', Bool.or_eq_false_iff]
    exact fun hasked => hasked.2
  obtain ⟨hrequiring₂, sent, hwaits⟩ :=
    pollerChannelEvents_mute (hrequiring.congr hpolled.same) hout hmute hevents
  refine ⟨hrequiring₂.congr helse.same, fun _ p' ⟨sent', hwaits'⟩ => ⟨[] ++ (sent ++ ([] ++ sent')), ?_⟩⟩
  have hrest := (Waits.of_same helse.same helse.wire).trans hwaits'
  exact (Waits.of_same hpolled.same hpolled.wire).trans (hwaits.trans hrest)

/-- A run that goes on. -/
theorem pollerLoop_append {chns : List Nat} {rounds more : List Round}
    (h : pollerLoop os wtrs p chns rounds = some (none, p')) :
    pollerLoop os wtrs p chns (rounds ++ more) = pollerLoop os wtrs p' chns more := by
  induction rounds generalizing p with
  | nil =>
    obtain ⟨-, rfl⟩ := Prod.mk.inj (Option.some.inj h)
    rfl
  | cons round rounds ih =>
    unfold pollerLoop at h
    obtain ⟨⟨r, p₁⟩, hpoll, hrest⟩ := Option.bind_eq_some_iff.mp h
    dsimp only at hrest
    rw [List.cons_append, pollerLoop, hpoll]
    by_cases hr : r = 0
    · rw [if_pos hr] at hrest
      exact (if_pos hr).trans (ih hrest)
    · rw [if_neg hr] at hrest
      exact absurd (Prod.mk.inj (Option.some.inj hrest)).1 (Option.some_ne_none _)

/-! ## From a configuration file on -/

section

variable (os : Os) (now : Nat → Timeval) {text : List Char} (slots : Slot Nat → Timeval × Timeval)
  {rounds more : List Round}

/-- A file with a directive for a camera in the network. -/
def oneRequest : List Char := "pelco_d /dev/a 1 axis cam\n".toList

/-- The directive in it. -/
def requestDirective : Directive :=
  ⟨"pelco_d".toList, "/dev/a".toList, "1".toList, "axis".toList, "cam".toList, ['0'], []⟩

set_option maxRecDepth 4000 in
theorem scans_oneRequest : scans oneRequest = [.directive requestDirective] := by
  obtain ⟨line, hget, hscan⟩ : ∃ line, fgets configInit.line oneRequest = some (line, []) ∧
      scan (cString (skipComments line)) = .directive requestDirective := ⟨_, rfl, rfl⟩
  unfold scans
  rw [scannedLines_cons hget, scannedLines_nil rfl, List.map_cons, hscan]
  rfl

theorem usable_oneRequest : Usable (fun _ => ⟨0, 0⟩) oneRequest where
  accepted := by
    rw [configRead_fst, scans_oneRequest]
    decide
  known := by
    rw [scans_oneRequest]
    intro d hd
    obtain rfl := Scanned.directive.inj (List.mem_singleton.mp hd)
    exact ⟨by decide, by decide⟩

theorem mem_channelsOf {cfg : Config} {port : Port} {chn : ConfChannel} (hport : cfg.channelAt port = some chn) :
    chn.addr ∈ channelsOf cfg := List.mem_map_of_mem (channelAt_some hport).1

/-- **What waits goes out.** In every run of the loop, for a port that Manchester, Pelco or Vicon
writers write to: once its connection is up, every round in which the socket takes something sends
one byte at least of what waits, in its order and right behind what has been sent. -/
theorem pollerLoop_drains (h : Usable now text) {port : Port} {chn : ConfChannel}
    (hport : (configRead now configInit (some text)).2.channelAt port = some chn)
    (hwriters : ∀ d ∈ (outcome (scans text)).directives, d.output = port →
      ∀ protocol ∈ writerProtocol d.protocolOut, protocol.ByMessages)
    {p : Poller} (hrun : pollerRun os now slots rounds text = some (none, p)) (hconn : Connected (p.channel chn.addr))
    (hserves : Throughout os (writersOf (configRead now configInit (some text)).2) Serves
      (channelsOf (configRead now configInit (some text)).2) chn.addr p more) :
    ∃ p', pollerRun os now slots (rounds ++ more) text = some (none, p') ∧ Connected (p'.channel chn.addr) ∧
      p.wire chn.addr ++ (p.channel chn.addr).txbuf.data.take more.length <+: p'.wire chn.addr := by
  obtain ⟨r, p₁, hrun', hgoes⟩ := pollerRun_goes os now slots rounds h
  obtain ⟨-, rfl⟩ := Prod.mk.inj (Option.some.inj (hrun.symm.trans hrun'))
  have hk : Appends (writersOf (configRead now configInit (some text)).2) (PermittedBy text) chn.addr := by
    intro i r hpermits hchn
    obtain ⟨d, protocol, hd, hout, hknown, hsame⟩ := writer_of_port now h hport hpermits hchn
    rw [hsame]
    exact hwriters d hd hout protocol hknown
  obtain ⟨p', hloop, hconn', hsent⟩ := hgoes.ready.drains hk (mem_channelsOf hport)
    (routes_configRead now text).addrs hconn hserves
  exact ⟨p', (pollerLoop_append hrun).trans hloop, hconn', hsent⟩

set_option maxRecDepth 4000 in
theorem pollerLoop_drains_oneRoute :
    ∃ p p', pollerRun ticking (fun _ => ⟨0, 0⟩) oneSlots arrival oneRoute = some (none, p) ∧
      (p.channel 1).txbuf.data.length = 10 ∧
      pollerRun ticking (fun _ => ⟨0, 0⟩) oneSlots (arrival ++ [departure 3]) oneRoute =
        some (none, p') ∧
      Connected (p'.channel 1) ∧ p.wire 1 ++ (p.channel 1).txbuf.data.take 1 <+: p'.wire 1 := by
  obtain ⟨chn, hchn, haddr⟩ : ∃ chn, (configOf oneRoute).channelAt oneDirective.output = some chn ∧ chn.addr = 1 :=
    ⟨_, rfl, rfl⟩
  obtain ⟨p, hrun, hconn, hlen, hserves⟩ : ∃ p, pollerLoop ticking (writersOf (configOf oneRoute))
      (pollerInit (configOf oneRoute) oneSlots) (channelsOf (configOf oneRoute)) arrival =
        some (none, p) ∧ Connected (p.channel 1) ∧ (p.channel 1).txbuf.data.length = 10 ∧
      Throughout ticking (writersOf (configOf oneRoute)) Serves (channelsOf (configOf oneRoute)) 1 p [departure 3] := by
    refine ⟨_, rfl, ⟨rfl, rfl, rfl, rfl⟩, rfl, rfl, rfl, fun p₁ h => ?_, fun _ _ => trivial⟩
    obtain rfl := Option.some.inj h
    exact ⟨rfl, rfl, fun _ => ⟨3, rfl, by decide, by decide⟩, fun h => absurd h Bool.false_ne_true⟩
  have hstart : pollerRun ticking (fun _ => ⟨0, 0⟩) oneSlots arrival oneRoute = some (none, p) := by
    unfold pollerRun
    rw [configRead_oneRoute]
    exact hrun
  rw [← configRead_oneRoute] at hchn hserves
  rw [← haddr] at hconn hserves
  obtain ⟨p', hrun', hconn', hsent⟩ := pollerLoop_drains ticking _ _ usable_oneRoute hchn (fun d hd _ protocol hp => by
    rw [scans_oneRoute] at hd
    obtain rfl := List.mem_singleton.mp hd
    obtain rfl := Option.some.inj (show some Protocol.vicon = some protocol from hp)
    decide) hstart hconn hserves
  rw [haddr] at hconn' hsent
  exact ⟨p, p', hstart, hlen, hrun', hconn', hsent⟩

/-- **Nothing goes out before there is a response**, where one is required: in every run of the
loop, as long as nothing comes in, nothing follows what has gone out. -/
theorem pollerLoop_awaits (h : Usable now text) {port : Port} {chn : ConfChannel}
    (hport : (configRead now configInit (some text)).2.channelAt port = some chn) {p : Poller}
    (hrun : pollerRun os now slots rounds text = some (none, p)) (hrequiring : Requiring (p.channel chn.addr))
    (hmute : Throughout os (writersOf (configRead now configInit (some text)).2) Mute
      (channelsOf (configRead now configInit (some text)).2) chn.addr p more) :
    ∃ p', pollerRun os now slots (rounds ++ more) text = some (none, p') ∧ Requiring (p'.channel chn.addr) ∧
      ∃ sent, Waits chn.addr p p' sent := by
  obtain ⟨r, p₁, hrun', hgoes⟩ := pollerRun_goes os now slots rounds h
  obtain ⟨-, rfl⟩ := Prod.mk.inj (Option.some.inj (hrun.symm.trans hrun'))
  obtain ⟨p', hloop, hrequiring', hwaits⟩ := hgoes.ready.waits (mem_channelsOf hport)
    (routes_configRead now text).addrs hrequiring hmute
  exact ⟨p', (pollerLoop_append hrun).trans hloop, hrequiring', hwaits⟩

set_option maxRecDepth 4000 in
theorem pollerLoop_awaits_oneRequest :
    ∃ p p', pollerRun ticking (fun _ => ⟨0, 0⟩) oneSlots arrival oneRequest = some (none, p) ∧
      pollerRun ticking (fun _ => ⟨0, 0⟩) oneSlots (arrival ++ [departure 9, departure 9]) oneRequest =
        some (none, p') ∧
      Requiring (p'.channel 1) ∧ ∃ sent, Waits 1 p p' sent := by
  have hconfig : (configRead (fun _ => ⟨0, 0⟩) configInit (some oneRequest)).2 = configOf oneRequest := by
    obtain ⟨line, hget, hscan⟩ : ∃ line, fgets configInit.line oneRequest = some (line, []) ∧
        (configScanDirective ⟨0, 0⟩ { configInit with line := skipComments line }).1 = 0 := ⟨_, rfl, rfl⟩
    exact configRead_line hget hscan
  obtain ⟨chn, hchn, haddr⟩ : ∃ chn, (configOf oneRequest).channelAt requestDirective.output = some chn ∧
      chn.addr = 1 := ⟨_, rfl, rfl⟩
  obtain ⟨p, hrun, hrequiring, hmute⟩ : ∃ p, pollerLoop ticking (writersOf (configOf oneRequest))
      (pollerInit (configOf oneRequest) oneSlots) (channelsOf (configOf oneRequest)) arrival =
        some (none, p) ∧ Requiring (p.channel 1) ∧
      Throughout ticking (writersOf (configOf oneRequest)) Mute (channelsOf (configOf oneRequest)) 1 p
        [departure 9, departure 9] := by
    refine ⟨_, rfl, ⟨rfl, rfl⟩, rfl, rfl, fun p₁ h => ?_, fun x hx => ⟨rfl, rfl, fun p₁ h => ?_, fun _ _ => trivial⟩⟩
    · obtain rfl := Option.some.inj h
      exact ⟨rfl, rfl, fun _ => ⟨List.cons_ne_nil _ _, 9, rfl, by decide⟩⟩
    · obtain rfl := Option.some.inj hx
      obtain rfl := Option.some.inj h
      exact ⟨rfl, rfl, fun _ => ⟨List.cons_ne_nil _ _, 9, rfl, by decide⟩⟩
  have hstart : pollerRun ticking (fun _ => ⟨0, 0⟩) oneSlots arrival oneRequest = some (none, p) := by
    unfold pollerRun
    rw [hconfig]
    exact hrun
  rw [← hconfig] at hchn hmute
  rw [← haddr] at hrequiring hmute
  obtain ⟨p', hrun', hrequiring', hwaits⟩ :=
    pollerLoop_awaits ticking _ _ usable_oneRequest hchn hstart hrequiring hmute
  rw [haddr] at hrequiring' hwaits
  exact ⟨p, p', hstart, hrun', hrequiring', hwaits⟩

end

end Protozoa.Program
