import Protozoa.Descriptors.Valid

/-!
# Descriptors of a channel that is destroyed

A channel that closes nothing twice holds what is in its fields and nothing else (`Owns`).
`channel_destroy` (`channel.c:69-76`) calls `channel_close` once, which closes `fd`.

* `Owns.close`, `Owns.open`, `Owns.read`: each call of a turn keeps it, and `runTurns_owns` any
  number of turns.
* **`destroyed_closed_iff`**: so everything is closed exactly when no client is connected, in any
  history in which `close` succeeds and the descriptor to accept on has not been closed.
* `not_destroyed_closed`: a channel that listens and has accepted; its `sfd` stays open.

The kernel may give out a number again once it is closed, but not 0 (`NoZero`): the fields of a
channel that has nothing open are 0.
-/

namespace Protozoa.Descriptors

open Lib.Ledger

variable {st st' : FdChannel} {t : Turn}

/-- The channel holds what is in its fields, and has closed nothing but what it held. -/
structure Owns (st : FdChannel) : Prop extends Valid st where
  fair : Fair st.ledger
  kept : ∀ fd ∈ held st.ledger, fd = st.chn.fd ∨ fd = st.chn.sfd
  idle : st.chn.fd = 0 → st.chn.sfd = 0

/-- Descriptors that are handed out are positive. -/
def NoZero (ledger : List (Entry Int)) : Prop := .opened 0 ∉ ledger

theorem NoZero.before {ledger ledger' : List (Entry Int)} (h : NoZero ledger') (hle : ledger <+: ledger') :
    NoZero ledger := fun hmem => h (hle.subset hmem)

theorem Owns.congr (h : Owns st) (hfd : st'.chn.fd = st.chn.fd) (hsfd : st'.chn.sfd = st.chn.sfd)
    (hledger : st'.ledger = st.ledger) : Owns st' := by
  refine ⟨h.toValid.congr hfd hsfd hledger, ?_, ?_, ?_⟩
  · rw [hledger]
    exact h.fair
  · rw [hledger, hfd, hsfd]
    exact h.kept
  · rw [hfd, hsfd]
    exact h.idle

/-- **`channel_close`** that succeeds. -/
theorem Owns.close (h : Owns st) (hg : Granted st.ledger) (hnot : ¬Listens st.chn) :
    Owns (channelClose .succeeds st) := by
  have hvalid : Valid (channelClose .succeeds st) :=
    (channelClose_valid_iff h.toValid hg).mpr fun hl => hnot hl.1
  rcases (h.nonneg hg).lt_or_eq with hpos | hzero
  · obtain ⟨hfd, hsfd, hledger⟩ := @channelClose_open st .succeeds hpos
    rw [if_pos (show Closing.succeeds.ok = true from rfl)] at hfd
    rw [if_pos (show Closing.succeeds.releases = true from rfl)] at hledger
    have hheld : st.chn.fd ∈ held st.ledger := h.fd.resolve_left hpos.ne'
    refine ⟨hvalid, ?_, fun fd hmem => ?_, fun hidle => ?_⟩
    · rw [hledger]
      exact h.fair.closed hheld
    · rw [hledger, held_closed] at hmem
      obtain ⟨hne, hmem⟩ := hg.sound.nodup.mem_erase_iff.mp hmem
      exact .inr (((h.kept fd hmem).resolve_left hne).trans hsfd.symm)
    · rw [hsfd, ← hfd]
      exact hidle
  · obtain ⟨hfd, hsfd, hledger⟩ := @channelClose_closed st .succeeds hzero.ge
    exact h.congr (hfd.trans hzero) hsfd hledger

/-- A descriptor is opened in a channel whose other one, if any, is kept. -/
theorem Owns.open (h : Owns st) {fd : Int} (hsfd : st'.chn.sfd = st.chn.sfd ∨ st'.chn.sfd = fd)
    (hlast : st.chn.fd = st.chn.sfd) (hfd : st'.chn.fd = fd)
    (hledger : st'.ledger = st.ledger ++ [.opened fd]) (hkept : st.chn.fd ≠ 0 → st'.chn.sfd = st.chn.sfd)
    (hzero : NoZero st'.ledger) : Owns st' := by
  have hheld : held st'.ledger = fd :: held st.ledger := by rw [hledger, held_opened]
  have hnew : fd ≠ 0 := by
    rintro rfl
    refine hzero ?_
    rw [hledger]
    exact List.mem_append_right _ List.mem_cons_self
  refine ⟨⟨.inr ?_, ?_⟩, ?_, fun x hx => ?_, fun hidle => absurd (hfd.symm.trans hidle) hnew⟩
  · rw [hfd, hheld]
    exact List.mem_cons_self
  · rw [hheld]
    rcases hsfd with hsfd | hsfd
    · rw [hsfd]
      exact h.sfd.imp_right (List.mem_cons_of_mem _)
    · rw [hsfd]
      exact .inr List.mem_cons_self
  · rw [hledger]
    exact h.fair.opened fd
  · rw [hheld] at hx
    rcases List.mem_cons.mp hx with rfl | hx
    · exact .inl hfd.symm
    · have hx' : x = st.chn.sfd := (h.kept x hx).elim (fun hx' => hx'.trans hlast) id
      have hne : st.chn.fd ≠ 0 := by
        rw [hlast, ← hx']
        rintro rfl
        exact hzero (hledger ▸ List.mem_append_left _ (opened_of_held hx))
      exact .inr (hx'.trans (hkept hne).symm)

/-- **`channel_open`** of a closed channel. -/
theorem Opens.owns (h : Opens .succeeds st st') (hst : Owns st) (hclosed : st.chn.fd = 0)
    (hg : Granted st'.ledger) (hzero : NoZero st'.ledger) : Owns st' := by
  have hlast : st.chn.fd = st.chn.sfd := hclosed.trans (hst.idle hclosed).symm
  cases h with
  | opened hfd hsfd hledger =>
    exact hst.open hsfd hlast hfd hledger (fun hne => absurd hclosed hne) hzero
  | @failed ok st₁ hgets =>
    have hg₁ := hg.before ledger_channelClose
    have hzero₁ := hzero.before ledger_channelClose
    cases hgets with
    | nothing hfd hsfd hledger =>
      obtain ⟨hfd', hsfd', hledger'⟩ := @channelClose_closed st₁ .succeeds hfd
      exact hst.congr (hfd'.trans hclosed.symm) (hsfd'.trans hsfd) (hledger'.trans hledger)
    | descriptor hfd hsfd hledger =>
      have hst₁ := hst.open (.inl hsfd) hlast hfd hledger (fun hne => absurd hclosed hne) hzero₁
      refine hst₁.close hg₁ fun hl => hl.2 ?_
      rw [hl.1, hsfd]
      exact hst.idle hclosed

theorem pollerRegisterChannel_owns (h : Owns st) (ht : t.Closes)
    (hg : Granted (pollerRegisterChannel t st).ledger) (hzero : NoZero (pollerRegisterChannel t st).ledger) :
    Owns (pollerRegisterChannel t st) := by
  set st₀ : FdChannel := { st with chn := { st.chn with txbuf := t.txbuf } } with hst₀
  have hst₀' : Owns st₀ := h.congr rfl rfl rfl
  by_cases hopens : (!channelIsOpen st₀.chn && channelIsWaiting st₀.chn) = true
  · have hclosed : st₀.chn.fd = 0 := by
      simpa [channelIsOpen] using (Bool.and_eq_true_iff.mp hopens).1
    have hrun : pollerRegisterChannel t st = channelOpen t.opening st₀ := if_pos hopens
    rw [hrun] at hg hzero ⊢
    have hopen := channelOpen_opens t.opening hclosed
    rw [ht.opening] at hopen
    exact hopen.owns hst₀' hclosed hg hzero
  · have hrun : pollerRegisterChannel t st = st₀ := if_neg hopens
    rw [hrun]
    exact hst₀'

/-- `channel_read`, of a client or for one. -/
theorem Owns.read (h : Owns st) (incoming : Incoming)
    (hzero : NoZero (channelRead incoming st).2.ledger) : Owns (channelRead incoming st).2 := by
  by_cases heq : st.chn.sfd = st.chn.fd
  · have hread := channelRead_listening incoming heq
    cases haccepted : Incoming.accepted incoming with
    | none =>
      rw [haccepted] at hread
      rw [show channelRead incoming st = (-1, st) from hread]
      exact h
    | some fd =>
      rw [haccepted] at hread
      rw [hread.2] at hzero ⊢
      exact h.open (.inl rfl) heq.symm rfl rfl (fun _ => rfl) hzero
  · obtain ⟨hfd, hsfd, hledger⟩ := channelRead_fds incoming heq
    exact h.congr hfd hsfd hledger

/-- What is read for `POLLIN`, to the end of the turn. -/
theorem Owns.readEnd (h : Owns st) (hg : Granted st.ledger) (hopen : st.chn.fd ≠ 0) (incoming : Incoming)
    (hzero : NoZero (channelRead incoming st).2.ledger)
    (hkeeps : ¬(Listens st.chn ∧ Incoming.accepted incoming = none)) :
    Owns (if (channelRead incoming st).1 ≤ 0 then channelClose .succeeds (channelRead incoming st).2
      else (channelRead incoming st).2) := by
  have hread := h.read incoming hzero
  by_cases heq : st.chn.sfd = st.chn.fd
  · have hlisten := channelRead_listening incoming heq
    cases haccepted : Incoming.accepted incoming with
    | none => exact absurd ⟨⟨heq.symm, hopen⟩, haccepted⟩ hkeeps
    | some fd =>
      rw [haccepted] at hlisten
      rw [if_neg (by rw [hlisten.1]; decide)]
      exact hread
  · obtain ⟨hfd, hsfd, hledger⟩ := channelRead_fds incoming heq
    split
    · refine hread.close (hledger ▸ hg) fun hl => heq ?_
      exact ((listens_congr hfd hsfd).mp hl).1.symm
    · exact hread

theorem pollinStates_owns {pollin : Bool} {d : FdChannel} (h : Owns st) (hg : Granted st.ledger)
    (hclose : t.closing = .succeeds) (hopen : pollin = true → st.chn.fd ≠ 0)
    (hkeeps : ¬(Listens st.chn ∧ pollin = true ∧ Incoming.accepted t.incoming = none))
    (hzero : NoZero ((pollinStates t pollin st).getLastD d).ledger) :
    Owns ((pollinStates t pollin st).getLastD d) := by
  unfold pollinStates at hzero ⊢
  rw [hclose] at hzero ⊢
  cases pollin with
  | false => exact h
  | true =>
    have hend := h.readEnd hg (hopen rfl) t.incoming
    simp only [if_true] at hzero ⊢
    split at hzero
    · rename_i hn
      rw [if_pos hn]
      have hend := hend (hzero.before ledger_channelClose) fun hl => hkeeps ⟨hl.1, rfl, hl.2⟩
      rw [if_pos hn] at hend
      exact hend
    · rename_i hn
      rw [if_neg hn]
      have hend := hend hzero fun hl => hkeeps ⟨hl.1, rfl, hl.2⟩
      rw [if_neg hn] at hend
      exact hend

/-- **`poller_channel_events`** that does not close the descriptor to accept on. -/
theorem pollerChannelEvents_owns (h : Owns st) (hg : Granted st.ledger) (hclose : t.closing = .succeeds)
    (hkeeps : ¬(Listens st.chn ∧ Fails t st.chn))
    (hzero : NoZero ((pollerChannelEvents t st).getLastD st).ledger) :
    Owns ((pollerChannelEvents t st).getLastD st) := by
  obtain ⟨hfd, hsfd, hledger⟩ := @channelWrite_fds st t.taken
  have hlistens := listens_congr hfd hsfd
  have hwritten := h.congr hfd hsfd hledger
  have hhandles := pollerChannelEvents_handles t st
  unfold Fails at hkeeps
  generalize pollerChannelEvents t st = states at hhandles hzero ⊢
  cases hhandles with
  | hangup hhup =>
    rw [hclose]
    exact h.close hg fun hl => hkeeps ⟨hl, .inl hhup⟩
  | unwritten hhup hout hneg =>
    rw [hclose]
    refine hwritten.close (hledger ▸ hg) fun hl => hkeeps ⟨hlistens.mp hl, .inr (.inl ⟨hout, ?_⟩)⟩
    exact (channelWrite_neg_iff t.taken).mp hneg
  | written hhup hout hneg =>
    refine pollinStates_owns hwritten (hledger ▸ hg) hclose (hfd ▸ fd_of_pollin) (fun hl => ?_) hzero
    exact hkeeps ⟨hlistens.mp hl.1, .inr (.inr hl.2)⟩
  | silent hhup hout =>
    exact pollinStates_owns h hg hclose fd_of_pollin (fun hl => hkeeps ⟨hl.1, .inr (.inr hl.2)⟩) hzero

theorem turnEnd_owns (h : Owns st) (ht : t.Closes) (hkeeps : ¬ClosesListener t st)
    (hg : Granted (turnEnd t st).ledger) (hzero : NoZero (turnEnd t st).ledger) : Owns (turnEnd t st) := by
  have hledger := turnEnd_ledger t st
  have hregister := pollerRegisterChannel_owns h ht (hg.before hledger) (hzero.before hledger)
  unfold turnEnd turn at hzero ⊢
  rw [List.getLastD_cons] at hzero ⊢
  refine pollerChannelEvents_owns hregister (hg.before hledger) ht.closing (fun hl => hkeeps ?_) hzero
  refine ⟨hl.1, ?_, hl.2⟩
  rw [ht.closing]
  rfl

theorem runTurns_owns : ∀ {ts : List Turn} {st : FdChannel}, Owns st → (∀ t ∈ ts, t.Closes) →
    KeepsListener ts st → Granted (runTurns ts st).ledger → NoZero (runTurns ts st).ledger →
    Owns (runTurns ts st)
  | [], _, h, _, _, _, _ => h
  | t :: ts, st, h, hts, hkeeps, hg, hzero => by
    have hgrows := runTurns_ledger ts (turnEnd t st)
    have hturn := turnEnd_owns h (hts t List.mem_cons_self) hkeeps.1 (hg.before hgrows) (hzero.before hgrows)
    exact @runTurns_owns ts (turnEnd t st) hturn (fun t' ht' => hts t' (List.mem_cons_of_mem t ht')) hkeeps.2
      hg hzero

theorem owns_start (name : List Char) (flags : BitVec 32) (reader : Option (Buffer → Buffer)) :
    Owns (start name flags reader) :=
  ⟨valid_start name flags reader, fair_nil, fun _ h => absurd h List.not_mem_nil, fun _ => rfl⟩

/-- **`channel_destroy`** closes what the channel holds exactly when that is `fd` only. -/
theorem Owns.destroy_iff (h : Owns st) (hg : Granted st.ledger) (hzero : NoZero st.ledger) :
    ClosedOnce (channelDestroy .succeeds st).ledger ↔ st.chn.sfd = 0 ∨ st.chn.fd = st.chn.sfd := by
  unfold channelDestroy
  rcases (h.nonneg hg).lt_or_eq with hpos | hfd
  · obtain ⟨-, -, hledger⟩ := @channelClose_open st .succeeds hpos
    rw [if_pos (show Closing.succeeds.releases = true from rfl)] at hledger
    have hheld : st.chn.fd ∈ held st.ledger := h.fd.resolve_left hpos.ne'
    rw [hledger, closedOnce_iff (hg.sound.closed _) (h.fair.closed hheld), held_closed,
      List.eq_nil_iff_forall_not_mem]
    constructor
    · intro hnil
      by_contra hnot
      obtain ⟨hsfd, hne⟩ := not_or.mp hnot
      exact hnil st.chn.sfd ((List.mem_erase_of_ne (Ne.symm hne)).mpr (h.sfd.resolve_left hsfd))
    · intro hlast x hx
      obtain ⟨hne, hmem⟩ := hg.sound.nodup.mem_erase_iff.mp hx
      have hx' := (h.kept x hmem).resolve_left hne
      rcases hlast with hsfd | heq
      · refine hzero ?_
        rw [← hsfd, ← hx']
        exact opened_of_held hmem
      · exact hne (hx'.trans heq.symm)
  · have hsfd := h.idle hfd.symm
    obtain ⟨-, -, hledger⟩ := @channelClose_closed st .succeeds hfd.ge
    rw [hledger, closedOnce_iff hg.sound h.fair]
    refine iff_of_true (List.eq_nil_iff_forall_not_mem.mpr fun x hx => hzero ?_) (.inl hsfd)
    have hx' : x = 0 := (h.kept x hx).elim (fun hx' => hx'.trans hfd.symm) fun hx' => hx'.trans hsfd
    exact hx' ▸ opened_of_held hx

/-- **Every descriptor is closed once**, by `channel_destroy` after any run of the poller, exactly
when no client is connected then: if `close` always succeeds, the run never closes the descriptor
that the channel accepts on, and the system never gives descriptor 0. -/
theorem destroyed_closed_iff (name : List Char) (flags : BitVec 32) (reader : Option (Buffer → Buffer))
    (ts : List Turn) (hcloses : ∀ t ∈ ts, t.Closes)
    (hgranted : Granted (runTurns ts (start name flags reader)).ledger)
    (hzero : NoZero (runTurns ts (start name flags reader)).ledger)
    (hkeeps : KeepsListener ts (start name flags reader)) :
    let st := runTurns ts (start name flags reader)
    ClosedOnce (channelDestroy .succeeds st).ledger ↔ st.chn.sfd = 0 ∨ st.chn.fd = st.chn.sfd :=
  (runTurns_owns (owns_start name flags reader) hcloses hkeeps hgranted hzero).destroy_iff hgranted hzero

instance (t : Turn) (chn : Channel) : Decidable (Fails t chn) := inferInstanceAs (Decidable (_ ∨ _ ∨ _))

instance (t : Turn) (st : FdChannel) : Decidable (ClosesListener t st) :=
  inferInstanceAs (Decidable (_ ∧ _ ∧ _))

instance decidableKeepsListener : (ts : List Turn) → (st : FdChannel) → Decidable (KeepsListener ts st)
  | [], _ => inferInstanceAs (Decidable True)
  | t :: ts, st =>
    haveI := decidableKeepsListener ts (turnEnd t st)
    inferInstanceAs (Decidable (_ ∧ _))

instance (ledger : List (Entry Int)) : Decidable (NoZero ledger) := inferInstanceAs (Decidable (_ ∉ _))

/-- The client has gone. -/
theorem destroyed_closed_iff_client :
    ClosedOnce (channelDestroy .succeeds (runTurns clientTurns startListen)).ledger := by
  have hcloses : ∀ t ∈ clientTurns, t.Closes := by
    intro t ht
    simp only [clientTurns, List.mem_cons, List.not_mem_nil, or_false] at ht
    rcases ht with rfl | rfl
    · exact ⟨rfl, rfl⟩
    · exact ⟨rfl, rfl⟩
  exact (destroyed_closed_iff _ _ _ clientTurns hcloses granted_clientTurns (by decide) (by decide)).mpr
    (by decide)

/-- When a client is connected, the descriptor to accept on stays open. -/
theorem not_destroyed_closed : ¬∀ (name : List Char) (flags : BitVec 32)
    (reader : Option (Buffer → Buffer)) (ts : List Turn), (∀ t ∈ ts, t.Closes) →
    Granted (runTurns ts (start name flags reader)).ledger →
    NoZero (runTurns ts (start name flags reader)).ledger →
      ClosedOnce (channelDestroy .succeeds (runTurns ts (start name flags reader))).ledger := by
  intro h
  have hledger : (runTurns [turnIn (.client (some 6))] startListen).ledger =
      [] ++ [.opened 5] ++ [.opened 6] := by decide
  have hgranted : Granted (runTurns [turnIn (.client (some 6))] startListen).ledger := by
    rw [hledger]
    exact ⟨(sound_nil.opened (by decide)).opened (by decide), by simp⟩
  have hcloses : ∀ t ∈ [turnIn (.client (some 6))], t.Closes := by
    intro t ht
    obtain rfl := List.mem_singleton.mp ht
    exact ⟨rfl, rfl⟩
  have honce := h "0.0.0.0".toList (flagTcp ||| flagListen) (some bufferClear) _ hcloses hgranted (by decide)
  have hend : (channelDestroy .succeeds (runTurns [turnIn (.client (some 6))] startListen)).ledger =
      [] ++ .opened 5 :: [.opened 6, .closed 6] := by decide
  exact absurd (honce [] 5 _ hend) (by decide)

end Protozoa.Descriptors
