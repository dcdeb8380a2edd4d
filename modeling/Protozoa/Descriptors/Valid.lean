import Protozoa.Descriptors.Calls

/-!
# Descriptors that a channel refers to

Outside the calls of `channel.c`, `fd` and `sfd` are 0 or descriptors that the channel holds
(`Valid`). Only one thing breaks this: `channel_close` (`channel.c:478-498`) of a channel that
listens (`ClosesListener`), after which both fields have the descriptor that was just closed
(`channelClose_valid_iff`). Everything else keeps it, whatever the system calls give.

* `Gets`, `Opens`: what a call that opens a descriptor can do. `channelOpen_opens` has all kinds of
  channels.
* `read_valid_iff`: a read of the channel, and what the poller does when it fails
  (`channel.c:602-627`, `poller.c:165-188`).
* `turn_valid_iff`: one turn of the poller; `visited_valid_iff`: a run of them.
* **`descriptors_valid_iff`**: a run keeps the fields valid exactly when it never closes a listener
  that way.
* `not_descriptors_valid`: a listening channel whose `accept` fails once.
-/

namespace Protozoa.Descriptors

open Lib.Ledger

/-! ## What a call can do -/

/-- The system gives descriptors that are not negative, and none that the channel holds. -/
structure Granted (ledger : List (Entry Int)) : Prop where
  sound : Sound ledger
  nonneg : ∀ fd, .opened fd ∈ ledger → 0 ≤ fd

theorem Granted.before {ledger ledger' : List (Entry Int)} (h : Granted ledger') (hle : ledger <+: ledger') :
    Granted ledger :=
  ⟨h.sound.before hle, fun fd hfd => h.nonneg fd (hle.subset hfd)⟩

/-- What is held has been opened. -/
theorem opened_of_held {ledger : List (Entry Int)} {fd : Int} (h : fd ∈ held ledger) :
    .opened fd ∈ ledger := by
  obtain ⟨before, after, rfl, -⟩ := exists_opening h
  exact List.mem_append_right _ List.mem_cons_self

/-- `fd` and `sfd` are 0 or held. -/
structure Valid (st : FdChannel) : Prop where
  fd : st.chn.fd = 0 ∨ st.chn.fd ∈ held st.ledger
  sfd : st.chn.sfd = 0 ∨ st.chn.sfd ∈ held st.ledger

instance (st : FdChannel) : Decidable (Valid st) :=
  decidable_of_iff ((st.chn.fd = 0 ∨ st.chn.fd ∈ held st.ledger) ∧
      (st.chn.sfd = 0 ∨ st.chn.sfd ∈ held st.ledger))
    ⟨fun h => ⟨h.1, h.2⟩, fun h => ⟨h.fd, h.sfd⟩⟩

/-- The channel has a descriptor to accept on, and no client. -/
def Listens (chn : Channel) : Prop := chn.fd = chn.sfd ∧ chn.fd ≠ 0

instance (chn : Channel) : Decidable (Listens chn) := inferInstanceAs (Decidable (_ ∧ _))

variable {st st' : FdChannel} {t : Turn} {closing : Closing}

theorem Valid.nonneg (h : Valid st) (hg : Granted st.ledger) : 0 ≤ st.chn.fd := by
  rcases h.fd with hfd | hfd
  · exact hfd.ge
  · exact hg.nonneg _ (opened_of_held hfd)

/-- Other data do not matter. -/
theorem Valid.congr (h : Valid st) (hfd : st'.chn.fd = st.chn.fd) (hsfd : st'.chn.sfd = st.chn.sfd)
    (hledger : st'.ledger = st.ledger) : Valid st' := by
  refine ⟨?_, ?_⟩
  · rw [hfd, hledger]
    exact h.fd
  · rw [hsfd, hledger]
    exact h.sfd

/-! ### `channel_close` -/

/-- A channel that is not open stays so. -/
theorem channelClose_closed (h : st.chn.fd ≤ 0) : (channelClose closing st).chn.fd = 0 ∧
    (channelClose closing st).chn.sfd = st.chn.sfd ∧ (channelClose closing st).ledger = st.ledger := by
  rcases h.lt_or_eq with hneg | hzero
  · simp [channelClose, Protozoa.channelClose, hneg]
  · simp [channelClose, Protozoa.channelClose, channelIsOpen, hzero]

/-- An open channel falls back to the descriptor it accepts on. -/
theorem channelClose_open (h : 0 < st.chn.fd) :
    (channelClose closing st).chn.fd = (if closing.ok then st.chn.sfd else 0) ∧
      (channelClose closing st).chn.sfd = st.chn.sfd ∧
      (channelClose closing st).ledger =
        if closing.releases then st.ledger ++ [.closed st.chn.fd] else st.ledger := by
  have hneg : ¬st.chn.fd < 0 := not_lt.mpr h.le
  have hopen : channelIsOpen st.chn = true := bne_iff_ne.mpr h.ne'
  cases hok : closing.ok <;>
    simp [channelClose, Protozoa.channelClose, channelIsOpen, hneg, h.ne', hok]

theorem ledger_channelClose : st.ledger <+: (channelClose closing st).ledger := by
  unfold channelClose
  split
  · exact List.prefix_append _ _
  · exact List.prefix_rfl

/-- **`channel_close`** leaves a valid channel so unless it closes the descriptor to accept on. -/
theorem channelClose_valid_iff (h : Valid st) (hg : Granted st.ledger) :
    Valid (channelClose closing st) ↔ ¬(Listens st.chn ∧ closing.releases) := by
  rcases (h.nonneg hg).lt_or_eq with hpos | hzero
  · obtain ⟨hfd, hsfd, hledger⟩ := @channelClose_open st closing hpos
    by_cases hreleases : closing.releases = true
    · rw [if_pos hreleases] at hledger
      by_cases heq : st.chn.fd = st.chn.sfd
      · refine iff_of_false (fun hvalid => ?_) (not_not.mpr ⟨⟨heq, hpos.ne'⟩, hreleases⟩)
        have hgone := hvalid.sfd
        rw [hsfd, ← heq, hledger, held_closed] at hgone
        exact hgone.elim hpos.ne' hg.sound.nodup.not_mem_erase
      · refine iff_of_true ?_ fun hl => heq hl.1.1
        have hkept : st.chn.sfd = 0 ∨ st.chn.sfd ∈ held (channelClose closing st).ledger := by
          rw [hledger, held_closed, List.mem_erase_of_ne (Ne.symm heq)]
          exact h.sfd
        refine ⟨?_, hsfd ▸ hkept⟩
        rw [hfd]
        split
        · exact hkept
        · exact .inl rfl
    · rw [if_neg hreleases] at hledger
      refine iff_of_true ⟨?_, ?_⟩ fun hl => hreleases hl.2
      · rw [hfd, hledger]
        split
        · exact h.sfd
        · exact .inl rfl
      · rw [hsfd, hledger]
        exact h.sfd
  · obtain ⟨hfd, hsfd, hledger⟩ := @channelClose_closed st closing hzero.ge
    refine iff_of_true ⟨.inl hfd, ?_⟩ fun hl => hl.1.2 hzero.symm
    rw [hsfd, hledger]
    exact h.sfd

/-! ### `channel_open` -/

/-- What the system calls before the last check leave: no descriptor, or a new one. -/
inductive Gets (st : FdChannel) : Bool → FdChannel → Prop
  | nothing {st' : FdChannel} (hfd : st'.chn.fd ≤ 0) (hsfd : st'.chn.sfd = st.chn.sfd)
      (hledger : st'.ledger = st.ledger) : Gets st false st'
  | descriptor {ok : Bool} {fd : Int} {st' : FdChannel} (hfd : st'.chn.fd = fd)
      (hsfd : st'.chn.sfd = st.chn.sfd) (hledger : st'.ledger = st.ledger ++ [.opened fd]) : Gets st ok st'

theorem Gets.congr {st₀ : FdChannel} {ok : Bool} (h : Gets st₀ ok st') (hsfd : st₀.chn.sfd = st.chn.sfd)
    (hledger : st₀.ledger = st.ledger) : Gets st ok st' := by
  cases h with
  | nothing hfd hsfd' hledger' => exact .nothing hfd (hsfd'.trans hsfd) (hledger'.trans hledger)
  | descriptor hfd hsfd' hledger' => exact .descriptor hfd (hsfd'.trans hsfd) (hledger ▸ hledger')

theorem openAddrs_gets : ∀ (addrs : List AddrOutcome) {st : FdChannel}, st.chn.fd ≤ 0 →
    Gets st (openAddrs addrs st).1 (openAddrs addrs st).2
  | [], _, h => .nothing h rfl rfl
  | ai :: addrs, st, h => by
    unfold openAddrs
    cases ai.socket with
    | none => exact (openAddrs_gets addrs (Int.neg_nonpos_of_nonneg Int.one_nonneg)).congr rfl rfl
    | some fd => exact .descriptor rfl rfl rfl

/-- What `channel_open` does to a channel that is closed. -/
inductive Opens (closing : Closing) (st : FdChannel) : FdChannel → Prop
  | opened {fd : Int} {st' : FdChannel} (hfd : st'.chn.fd = fd)
      (hsfd : st'.chn.sfd = st.chn.sfd ∨ st'.chn.sfd = fd)
      (hledger : st'.ledger = st.ledger ++ [.opened fd]) : Opens closing st st'
  | failed {ok : Bool} {st₁ : FdChannel} (hgets : Gets st ok st₁) :
      Opens closing st (channelClose closing st₁)

theorem Opens.congr {st₀ : FdChannel} (h : Opens closing st₀ st') (hsfd : st₀.chn.sfd = st.chn.sfd)
    (hledger : st₀.ledger = st.ledger) : Opens closing st st' := by
  cases h with
  | opened hfd hsfd' hledger' => exact .opened hfd (hsfd'.imp_left (·.trans hsfd)) (hledger ▸ hledger')
  | failed hgets => exact .failed (hgets.congr hsfd hledger)

theorem opens_of_gets {ok : Bool} (h : Gets st ok st') :
    Opens closing st (if ok then st' else channelClose closing st') := by
  cases ok with
  | false => exact .failed h
  | true =>
    cases h with
    | descriptor hfd hsfd hledger => exact .opened hfd (.inl hsfd) hledger

theorem channelOpenBind_gets (o : Opening) (h : st.chn.fd ≤ 0) :
    Gets st (channelOpenBind o st).1 (channelOpenBind o st).2 := by
  unfold channelOpenBind
  cases o.addrs with
  | none => exact .nothing h rfl rfl
  | some addrs => exact openAddrs_gets addrs h

theorem channelOpenSport_opens (o : Opening) : Opens o.closing st (channelOpenSport o st) := by
  unfold channelOpenSport
  cases o.sport with
  | none =>
    have hgets : Gets st false { st with chn := { st.chn with fd := -1 } } :=
      .nothing (Int.neg_nonpos_of_nonneg Int.one_nonneg) rfl rfl
    exact .failed hgets
  | some fd =>
    have hgets : Gets st o.configured (({ st with chn := { st.chn with fd := fd } } : FdChannel).open fd) :=
      .descriptor rfl rfl rfl
    exact opens_of_gets hgets

theorem channelListenTcp_opens (o : Opening) (h : st.chn.fd ≤ 0) :
    Opens o.closing st (channelListenTcp o st) := by
  have hgets := channelOpenBind_gets o h
  unfold channelListenTcp
  generalize channelOpenBind o st = out at hgets ⊢
  obtain ⟨ok, st₁⟩ := out
  cases ok with
  | false => exact .failed hgets
  | true =>
    cases o.listens with
    | false => exact .failed hgets
    | true =>
      cases hgets with
      | descriptor hfd hsfd hledger => exact .opened hfd (.inr hfd) hledger

/-- **`channel_open`** of a closed channel. -/
theorem channelOpen_opens (o : Opening) (h : st.chn.fd = 0) : Opens o.closing st (channelOpen o st) := by
  set st₀ : FdChannel := { st with chn := channelClearResponse st.chn } with hst₀
  have hopens : Opens o.closing st₀ (channelOpen o st) := by
    have hudp : Opens o.closing st₀ _ := opens_of_gets (@channelOpenBind_gets st₀ o h.le)
    unfold channelOpen
    simp only [← hst₀]
    split_ifs
    · exact channelOpenSport_opens o
    · unfold channelOpenUdp
      split_ifs
      · exact hudp
      · exact hudp
    · unfold channelOpenTcp
      split_ifs
      · exact channelListenTcp_opens o h.le
      · exact hudp
  exact hopens.congr rfl rfl

/-- What has been opened, in a closed channel. -/
theorem Opens.valid (h : Opens closing st st') (hst : Valid st) (hg : Granted st'.ledger) : Valid st' := by
  cases h with
  | @opened fd _ hfd hsfd hledger =>
    have hnew : fd ∈ held st'.ledger := by
      rw [hledger, held_opened]
      exact List.mem_cons_self
    refine ⟨.inr (hfd ▸ hnew), ?_⟩
    rcases hsfd with hsfd | hsfd
    · rw [hsfd, hledger, held_opened]
      exact hst.sfd.imp_right (List.mem_cons_of_mem _)
    · exact .inr (hsfd ▸ hnew)
  | @failed ok st₁ hgets =>
    have hg₁ := hg.before ledger_channelClose
    cases hgets with
    | nothing hfd hsfd hledger =>
      obtain ⟨hfd', hsfd', hledger'⟩ := @channelClose_closed st₁ closing hfd
      refine ⟨.inl hfd', ?_⟩
      rw [hsfd', hsfd, hledger', hledger]
      exact hst.sfd
    | @descriptor _ fd _ hfd hsfd hledger =>
      have hheld : held st₁.ledger = fd :: held st.ledger := by rw [hledger, held_opened]
      have hst₁ : Valid st₁ := by
        refine ⟨.inr ?_, ?_⟩
        · rw [hfd, hheld]
          exact List.mem_cons_self
        · rw [hsfd, hheld]
          exact hst.sfd.imp_right (List.mem_cons_of_mem _)
      refine (channelClose_valid_iff hst₁ hg₁).mpr fun hl => ?_
      -- the new descriptor is not the one to accept on
      obtain ⟨heq, hne⟩ := hl.1
      rw [hfd, hsfd] at heq
      have hnew : fd ∉ held st.ledger := by
        have hsound := hg₁.sound
        rw [hledger] at hsound
        exact hsound.last
      rcases hst.sfd with hzero | hmem
      · exact hne (hfd.trans (heq.trans hzero))
      · exact hnew (heq ▸ hmem)

theorem Opens.ledger (h : Opens closing st st') : st.ledger <+: st'.ledger := by
  cases h with
  | opened _ _ hledger =>
    rw [hledger]
    exact List.prefix_append _ _
  | failed hgets =>
    refine List.IsPrefix.trans ?_ ledger_channelClose
    cases hgets with
    | nothing _ _ hledger => rw [hledger]
    | descriptor _ _ hledger =>
      rw [hledger]
      exact List.prefix_append _ _

/-! ### `channel_write` and `channel_read` -/

/-- `channel_write` leaves the descriptors alone. -/
theorem channelWrite_fds (taken : Option Nat) : (channelWrite taken st).2.chn.fd = st.chn.fd ∧
    (channelWrite taken st).2.chn.sfd = st.chn.sfd ∧ (channelWrite taken st).2.ledger = st.ledger := by
  have hchn : (Protozoa.channelWrite st.chn taken).2.1.fd = st.chn.fd ∧
      (Protozoa.channelWrite st.chn taken).2.1.sfd = st.chn.sfd := by
    simp only [Protozoa.channelWrite]
    split_ifs
    · split <;> exact ⟨rfl, rfl⟩
    · split <;> exact ⟨rfl, rfl⟩
  exact ⟨hchn.1, hchn.2, rfl⟩

/-- `channel_write` fails if `buffer_write` does. -/
theorem channelWrite_neg_iff (taken : Option Nat) :
    (channelWrite taken st).1 < 0 ↔ taken.bind (bufferWrite st.chn.txbuf) = none := by
  have hbuf : ∀ flags, (if hasFlag st.chn flagRespRequired then { st.chn with flags := flags }
      else st.chn).txbuf = st.chn.txbuf := by
    intro flags
    split <;> rfl
  simp only [channelWrite, Protozoa.channelWrite]
  cases hwrite : taken.bind (bufferWrite st.chn.txbuf) with
  | none => simp [hbuf, hwrite]
  | some out => simp [hbuf, hwrite]

/-- A client that connects. -/
def Incoming.accepted : Incoming → Option Int
  | .client fd => fd
  | .bytes _ => none

/-- `channel_read` of a channel that listens. -/
theorem channelRead_listening (incoming : Incoming) (h : st.chn.sfd = st.chn.fd) :
    match Incoming.accepted incoming with
    | some fd => (channelRead incoming st).1 = 1 ∧ (channelRead incoming st).2 =
        ({ st with chn := { st.chn with fd := fd } } : FdChannel).open fd
    | none => channelRead incoming st = (-1, st) := by
  have hlisten : channelIsListening st.chn = true := beq_iff_eq.mpr h
  match incoming with
  | .client (some fd) => simp [Incoming.accepted, channelRead, Protozoa.channelRead, hlisten, channelAccept]
  | .client none => simp [Incoming.accepted, channelRead, Protozoa.channelRead, hlisten, channelAccept]
  | .bytes ready => simp [Incoming.accepted, channelRead, Protozoa.channelRead, hlisten, channelAccept]

/-- `channel_read` of a channel that does not listen. -/
theorem channelRead_fds (incoming : Incoming) (h : st.chn.sfd ≠ st.chn.fd) :
    (channelRead incoming st).2.chn.fd = st.chn.fd ∧ (channelRead incoming st).2.chn.sfd = st.chn.sfd ∧
      (channelRead incoming st).2.ledger = st.ledger := by
  have hlisten : channelIsListening st.chn = false := beq_false_of_ne h
  have hchn : (Protozoa.channelRead st.chn incoming).2.fd = st.chn.fd ∧
      (Protozoa.channelRead st.chn incoming).2.sfd = st.chn.sfd := by
    unfold Protozoa.channelRead
    rw [hlisten, if_neg Bool.false_ne_true]
    split
    · split
      · exact ⟨rfl, rfl⟩
      · simp only
        split_ifs
        · exact ⟨rfl, rfl⟩
        · split <;> exact ⟨rfl, rfl⟩
    · exact ⟨rfl, rfl⟩
  unfold channelRead
  rw [hlisten]
  exact ⟨hchn.1, hchn.2, rfl⟩

/-! ## One turn -/

/-- A call fails for which the poller closes a channel that listens. -/
def Fails (t : Turn) (chn : Channel) : Prop :=
  let revents := revents t chn
  revents.pollhup ∨ revents.pollout ∧ t.taken.bind (bufferWrite chn.txbuf) = none ∨
    revents.pollin ∧ Incoming.accepted t.incoming = none

/-- The descriptor to accept on is closed in this turn. -/
def ClosesListener (t : Turn) (st : FdChannel) : Prop :=
  let chn := (pollerRegisterChannel t st).chn
  Listens chn ∧ t.closing.releases ∧ Fails t chn

theorem listens_congr {chn chn' : Channel} (hfd : chn'.fd = chn.fd) (hsfd : chn'.sfd = chn.sfd) :
    Listens chn' ↔ Listens chn := by
  unfold Listens
  rw [hfd, hsfd]

/-- What is read for `POLLIN`. -/
theorem read_valid_iff (h : Valid st) (hg : Granted st.ledger) (hopen : st.chn.fd ≠ 0)
    (incoming : Incoming) :
    (∀ s ∈ if (channelRead incoming st).1 ≤ 0 then
        [st, (channelRead incoming st).2, channelClose closing (channelRead incoming st).2]
      else [st, (channelRead incoming st).2], Valid s) ↔
      ¬(Listens st.chn ∧ closing.releases ∧ Incoming.accepted incoming = none) := by
  by_cases heq : st.chn.sfd = st.chn.fd
  · have hread := channelRead_listening incoming heq
    have hlistens : Listens st.chn := ⟨heq.symm, hopen⟩
    cases haccepted : Incoming.accepted incoming with
    | none =>
      rw [haccepted] at hread
      rw [show channelRead incoming st = (-1, st) from hread,
        if_pos (Int.neg_nonpos_of_nonneg Int.one_nonneg)]
      simp [h, channelClose_valid_iff h hg, hlistens]
    | some fd =>
      rw [haccepted] at hread
      obtain ⟨hn, hst'⟩ := hread
      have hvalid : Valid (channelRead incoming st).2 := by
        rw [hst']
        refine ⟨.inr ?_, h.sfd.imp_right fun hmem => ?_⟩
        · show fd ∈ held (st.ledger ++ [.opened fd])
          rw [held_opened]
          exact List.mem_cons_self
        · show st.chn.sfd ∈ held (st.ledger ++ [.opened fd])
          rw [held_opened]
          exact List.mem_cons_of_mem _ hmem
      rw [hn, if_neg (by decide)]
      simp [h, hvalid]
  · obtain ⟨hfd, hsfd, hledger⟩ := channelRead_fds incoming heq
    have hnot : ¬Listens st.chn := fun hl => heq hl.1.symm
    have hvalid := h.congr hfd hsfd hledger
    have hclose : Valid (channelClose closing (channelRead incoming st).2) := by
      refine (channelClose_valid_iff hvalid (hledger ▸ hg)).mpr fun hl => ?_
      exact hnot ((listens_congr hfd hsfd).mp hl.1)
    refine iff_of_true ?_ fun hl => hnot hl.1
    split <;> simp [h, hvalid, hclose]

theorem pollinStates_valid_iff {pollin : Bool} (h : Valid st) (hg : Granted st.ledger)
    (hopen : pollin = true → st.chn.fd ≠ 0) :
    (∀ s ∈ pollinStates t pollin st, Valid s) ↔
      ¬(Listens st.chn ∧ t.closing.releases ∧ pollin = true ∧ Incoming.accepted t.incoming = none) := by
  unfold pollinStates
  cases pollin with
  | false => simp [h]
  | true =>
    have hread := @read_valid_iff st t.closing h hg (hopen rfl) t.incoming
    simpa using hread

/-- **`poller_channel_events`** keeps the channel valid unless it closes the descriptor to accept
on. -/
theorem pollerChannelEvents_valid_iff (h : Valid st) (hg : Granted st.ledger) :
    (∀ s ∈ pollerChannelEvents t st, Valid s) ↔
      ¬(Listens st.chn ∧ t.closing.releases ∧ Fails t st.chn) := by
  obtain ⟨hfd, hsfd, hledger⟩ := @channelWrite_fds st t.taken
  have hlistens := listens_congr hfd hsfd
  have hwritten := h.congr hfd hsfd hledger
  have hneg := @channelWrite_neg_iff st t.taken
  have hhandles := pollerChannelEvents_handles t st
  unfold Fails
  generalize pollerChannelEvents t st = states at hhandles
  cases hhandles with
  | hangup hhup => simp [channelClose_valid_iff h hg, hhup]
  | unwritten hhup hout hlt =>
    have hclose := @channelClose_valid_iff _ t.closing hwritten (hledger ▸ hg)
    rw [hlistens] at hclose
    simp [hwritten, hclose, hhup, hout, hneg.mp hlt]
  | written hhup hout hge =>
    have hread := @pollinStates_valid_iff _ t (revents t st.chn).pollin hwritten (hledger ▸ hg)
      (hfd ▸ fd_of_pollin)
    rw [hread, hlistens]
    simp [hhup, hout, mt hneg.mpr hge]
  | silent hhup hout =>
    rw [pollinStates_valid_iff h hg fd_of_pollin]
    simp [hhup, hout]

theorem pollerRegisterChannel_opens (t : Turn) (st : FdChannel) :
    Opens t.opening.closing st (pollerRegisterChannel t st) ∨
      (pollerRegisterChannel t st).chn = { st.chn with txbuf := t.txbuf } ∧
        (pollerRegisterChannel t st).ledger = st.ledger := by
  set st₀ : FdChannel := { st with chn := { st.chn with txbuf := t.txbuf } } with hst₀
  by_cases hopens : (!channelIsOpen st₀.chn && channelIsWaiting st₀.chn) = true
  · left
    have hclosed : st₀.chn.fd = 0 := by
      simpa [channelIsOpen] using (Bool.and_eq_true_iff.mp hopens).1
    have hrun : pollerRegisterChannel t st = channelOpen t.opening st₀ := if_pos hopens
    rw [hrun]
    exact (channelOpen_opens t.opening hclosed).congr rfl rfl
  · right
    have hrun : pollerRegisterChannel t st = st₀ := if_neg hopens
    rw [hrun]
    exact ⟨rfl, rfl⟩

theorem pollerRegisterChannel_ledger (t : Turn) (st : FdChannel) :
    st.ledger <+: (pollerRegisterChannel t st).ledger := by
  rcases pollerRegisterChannel_opens t st with h | ⟨-, h⟩
  · exact h.ledger
  · rw [h]

theorem pollerRegisterChannel_valid (h : Valid st) (hg : Granted (pollerRegisterChannel t st).ledger) :
    Valid (pollerRegisterChannel t st) := by
  rcases pollerRegisterChannel_opens t st with hopens | ⟨hchn, hledger⟩
  · exact hopens.valid h hg
  · exact h.congr (by rw [hchn]) (by rw [hchn]) hledger

theorem channelRead_ledger (incoming : Incoming) : st.ledger <+: (channelRead incoming st).2.ledger := by
  by_cases heq : st.chn.sfd = st.chn.fd
  · have hread := channelRead_listening incoming heq
    cases haccepted : Incoming.accepted incoming with
    | none =>
      rw [haccepted] at hread
      rw [show channelRead incoming st = (-1, st) from hread]
    | some fd =>
      rw [haccepted] at hread
      rw [hread.2]
      exact List.prefix_append _ _
  · rw [(channelRead_fds incoming heq).2.2]

theorem pollinStates_ledger (t : Turn) (pollin : Bool) (st d : FdChannel) :
    st.ledger <+: ((pollinStates t pollin st).getLastD d).ledger := by
  have hledger := @channelRead_ledger st t.incoming
  unfold pollinStates
  split_ifs
  · exact hledger.trans ledger_channelClose
  · exact hledger
  · exact List.prefix_rfl

theorem pollerChannelEvents_ledger (t : Turn) (st : FdChannel) :
    st.ledger <+: ((pollerChannelEvents t st).getLastD st).ledger := by
  have hwrite := (@channelWrite_fds st t.taken).2.2
  have hhandles := pollerChannelEvents_handles t st
  generalize pollerChannelEvents t st = states at hhandles
  cases hhandles with
  | hangup => exact ledger_channelClose
  | unwritten =>
    rw [← hwrite]
    exact ledger_channelClose
  | written =>
    rw [← hwrite]
    exact pollinStates_ledger t _ _ _
  | silent => exact pollinStates_ledger t _ st _

theorem turnEnd_mem (t : Turn) (st : FdChannel) : turnEnd t st ∈ turn t st := by
  unfold turnEnd turn
  rw [List.getLastD_cons]
  exact List.getLastD_mem_cons

/-- The ledger only grows. -/
theorem turnEnd_ledger (t : Turn) (st : FdChannel) :
    (pollerRegisterChannel t st).ledger <+: (turnEnd t st).ledger := by
  unfold turnEnd turn
  rw [List.getLastD_cons]
  exact pollerChannelEvents_ledger t _

theorem runTurns_ledger : ∀ (ts : List Turn) (st : FdChannel), st.ledger <+: (runTurns ts st).ledger
  | [], _ => List.prefix_rfl
  | t :: ts, st =>
    ((pollerRegisterChannel_ledger t st).trans (turnEnd_ledger t st)).trans
      (runTurns_ledger ts (turnEnd t st))

/-- **One turn** keeps the channel valid unless it closes the descriptor to accept on. -/
theorem turn_valid_iff (h : Valid st) (hg : Granted (pollerRegisterChannel t st).ledger) :
    (∀ s ∈ turn t st, Valid s) ↔ ¬ClosesListener t st := by
  have hregister := pollerRegisterChannel_valid h hg
  rw [turn, List.forall_mem_cons, pollerChannelEvents_valid_iff hregister hg]
  exact and_iff_right hregister

/-! ## Runs -/

/-- In none of the turns the descriptor to accept on is closed. -/
def KeepsListener : List Turn → FdChannel → Prop
  | [], _ => True
  | t :: ts, st => ¬ClosesListener t st ∧ KeepsListener ts (turnEnd t st)

theorem visited_valid_iff : ∀ (ts : List Turn) {st : FdChannel}, Valid st →
    Granted (runTurns ts st).ledger → ((∀ s ∈ visited ts st, Valid s) ↔ KeepsListener ts st)
  | [], _, _, _ => iff_of_true (fun _ hs => absurd hs List.not_mem_nil) trivial
  | t :: ts, st, h, hg => by
    have hgrows := runTurns_ledger ts (turnEnd t st)
    have hturn := turn_valid_iff h (hg.before ((turnEnd_ledger t st).trans hgrows))
    rw [visited, List.forall_mem_append, hturn, KeepsListener]
    refine and_congr_right fun hkeeps => ?_
    exact visited_valid_iff ts (hturn.mpr hkeeps _ (turnEnd_mem t st)) hg

theorem valid_start (name : List Char) (flags : BitVec 32) (reader : Option (Buffer → Buffer)) :
    Valid (start name flags reader) := ⟨.inl rfl, .inl rfl⟩

/-- **`fd` and `sfd` are 0 or descriptors that the channel holds**, in every state outside the calls
of a run of the poller, exactly when the run never closes the descriptor that the channel accepts
on: whatever the system calls give, as long as the system gives no descriptor that the channel
holds. -/
theorem descriptors_valid_iff (name : List Char) (flags : BitVec 32) (reader : Option (Buffer → Buffer))
    (ts : List Turn) (hgranted : Granted (runTurns ts (start name flags reader)).ledger) :
    (∀ st ∈ visited ts (start name flags reader), Valid st) ↔
      KeepsListener ts (start name flags reader) :=
  visited_valid_iff ts (valid_start name flags reader) hgranted

theorem granted_clientTurns : Granted (runTurns clientTurns startListen).ledger := by
  have hledger : (runTurns clientTurns startListen).ledger =
      [] ++ [.opened 5] ++ [.opened 6] ++ [.closed 6] := by decide
  rw [hledger]
  exact ⟨((sound_nil.opened (by decide)).opened (by decide)).closed 6, by simp⟩

theorem descriptors_valid_iff_client : (∀ st ∈ visited clientTurns startListen, Valid st) ↔
    KeepsListener clientTurns startListen :=
  descriptors_valid_iff _ _ _ clientTurns granted_clientTurns

/-- When `accept` fails, the descriptor to accept on is closed, and stays in both fields. -/
theorem not_descriptors_valid : ¬∀ (name : List Char) (flags : BitVec 32)
    (reader : Option (Buffer → Buffer)) (ts : List Turn),
    Granted (runTurns ts (start name flags reader)).ledger →
      ∀ st ∈ visited ts (start name flags reader), Valid st := by
  intro h
  have hledger : (runTurns [turnIn (.client none)] startListen).ledger =
      [] ++ [.opened 5] ++ [.closed 5] := by decide
  have hgranted : Granted (runTurns [turnIn (.client none)] startListen).ledger := by
    rw [hledger]
    exact ⟨(sound_nil.opened (by decide)).closed 5, by simp⟩
  have hvalid := h "0.0.0.0".toList (flagTcp ||| flagListen) (some bufferClear) _ hgranted
  revert hvalid
  decide

end Protozoa.Descriptors
