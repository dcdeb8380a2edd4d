import Protozoa.Engine.Silence
import Protozoa.Program.Progress

/-!
# The program falls silent

What goes out is what readers have handed on, and what waits of it in the slots of the writers. When
they hand on nothing any more, the rank of a slot says how often the packet in it is sent yet
(`Pace.sends`), whatever the system does: there is no wake-up, late or early, and no other port that
keeps a camera moving.

* `turn_grows`, `Move.grows`: what was sent is not taken back.
* `Move.spends`, `Moves.spends`: a move, and a run of them, in which nothing is handed on.
* **`pollerLoop_falls_silent`**: the loop of the poller, from any state a run has led to. The slots
  are to be found by their own entries in it (`Obs.RemovesFirst`), and the pauses between two
  packets are those of a `Pace`.

Out of scope: that what waits is sent at all, which takes a wake-up (`Engine/Armed.lean`) and a
socket that takes bytes (`Program/Progress.lean`).
-/

namespace Protozoa.Program

open Engine Protozoa.Configuration Relation

variable {os : Os} {wtrs : Nat → Ccwriter Nat} {ok : Nat → Int → Prop} {p p' : Poller} {pace : Pace} {s : Slot Nat}

/-- A move is a turn of the engine, or leaves all but the channels alone. -/
theorem Move.world (h : Move os wtrs ok p p') : (∃ t, Inner ok t ∧ Engine.turn os wtrs p.world t = some p'.world) ∨
    p'.world.tree = p.world.tree ∧ p'.world.slots = p.world.slots ∧ p'.world.trace = p.world.trace := by
  cases h with
  | turn ht hturn => exact Or.inl ⟨_, ht, hturn⟩
  | reader => exact Or.inr ⟨rfl, rfl, rfl⟩
  | channel => exact Or.inr ⟨rfl, rfl, rfl⟩
  | send => exact Or.inr ⟨rfl, rfl, rfl⟩
  | close => exact Or.inr ⟨rfl, rfl, rfl⟩
  | poll => exact Or.inr ⟨rfl, rfl, rfl⟩

theorem turn_grows {w w' : World Nat Nat} {t : Turn Nat Nat} (h : turn os wtrs w t = some w') (hw : Shaped w) :
    Shaped w' ∧ w.trace <:+ w'.trace := by
  cases t with
  | look =>
    obtain rfl := Option.some.inj h
    exact ⟨hw, List.suffix_rfl⟩
  | act a =>
    have hfollows := follows_of_step h hw
    exact ⟨hfollows.shaped hw, hfollows.grows⟩

/-- What has been observed stays. -/
theorem Move.grows (h : Move os wtrs ok p p') (hp : Shaped p.world) :
    Shaped p'.world ∧ p.world.trace <:+ p'.world.trace := by
  rcases h.world with ⟨t, -, hturn⟩ | ⟨htree, -, htrace⟩
  · exact turn_grows hturn hp
  · obtain ⟨t, ht⟩ := hp
    exact ⟨⟨t, htree ▸ ht⟩, htrace ▸ List.suffix_rfl⟩

theorem Moves.grows (h : Moves os wtrs ok p p') (hp : Shaped p.world) :
    Shaped p'.world ∧ p.world.trace <:+ p'.world.trace := by
  induction h with
  | refl => exact ⟨hp, List.suffix_rfl⟩
  | tail _ hmove ih =>
    obtain ⟨hshaped, hgrows⟩ := hmove.grows ih.1
    exact ⟨hshaped, ih.2.trans hgrows⟩

/-- What holds between turns is kept. -/
theorem Move.tidy (h : Move os wtrs ok p p') (hp : Tidy wtrs p.world) (hC : ∀ o ∈ p'.world.trace, o.RemovesFirst) :
    Tidy wtrs p'.world := by
  rcases h.world with ⟨t, ht, hturn⟩ | ⟨htree, hslots, htrace⟩
  · refine turn_tidy hturn hp (fun dpkt pkt ms heq => ?_) hC
    subst heq
    exact ht
  · exact hp.same htree hslots htrace

theorem Moves.tidy (h : Moves os wtrs ok p p') (hp : Tidy wtrs p.world)
    (hC : ∀ o ∈ p'.world.trace, o.RemovesFirst) : Tidy wtrs p'.world := by
  induction h with
  | refl => exact hp
  | tail hmoves hmove ih =>
    have hgrows := (hmove.grows (Moves.grows hmoves hp.shaped).1).2
    exact hmove.tidy (ih fun o ho => hC o (hgrows.subset ho)) hC

/-- **A move in which nothing is handed on.** -/
theorem Move.spends (h : Move os wtrs ok p p') (hp : Tidy wtrs p.world) (hC : ∀ o ∈ p'.world.trace, o.RemovesFirst)
    (hsubmits : submits p'.world.trace = submits p.world.trace)
    (hpace : pace.Holds (wtrs s.1).protocol p'.world.trace) : Spends pace wtrs s p.world p'.world := by
  rcases h.world with ⟨t, ht, hturn⟩ | ⟨htree, hslots, htrace⟩
  · refine turn_spends hturn hp hC ?_ hpace
    cases t with
    | look => trivial
    | act a =>
      cases a with
      | submit i pkt =>
        -- it would have been seen
        have hfollows : Follows os wtrs p.world (.submit i pkt) p'.world := follows_of_step hturn hp.shaped
        cases hfollows with
        | submit hwrite => exact absurd hsubmits (submits_ne hwrite.grows)
      | defer dpkt pkt ms => exact ht
      | next => trivial
      | alarm => trivial
      | channel k chn => trivial
  · exact .same hp htree hslots htrace

/-- **A run in which nothing is handed on.** -/
theorem Moves.spends (h : Moves os wtrs ok p p') (hp : Tidy wtrs p.world)
    (hC : ∀ o ∈ p'.world.trace, o.RemovesFirst) (hsubmits : submits p'.world.trace = submits p.world.trace)
    (hpace : pace.Holds (wtrs s.1).protocol p'.world.trace) : Spends pace wtrs s p.world p'.world := by
  induction h with
  | refl => exact .same hp rfl rfl rfl
  | @tail b c hmoves hmove ih =>
    obtain ⟨hshaped, hbefore⟩ := Moves.grows hmoves hp.shaped
    obtain ⟨-, hafter⟩ := hmove.grows hshaped
    have hC' : ∀ o ∈ b.world.trace, o.RemovesFirst := fun o ho => hC o (hafter.subset ho)
    -- nothing is handed on in either part
    have hsubmits' : submits b.world.trace = submits p.world.trace := by
      refine ((submits_suffix hbefore).eq_of_length_le ?_).symm
      rw [← hsubmits]
      exact (submits_suffix hafter).length_le
    have hfirst := ih hC' hsubmits' ⟨hpace.1, fun hdue o ho => hpace.2 hdue o (hafter.subset ho)⟩
    exact hfirst.trans (hmove.spends hfirst.tidy hC (hsubmits.trans hsubmits'.symm) hpace)

/-! ## From a configuration file on -/

section

variable (os : Os) (now : Nat → Timeval) {text : List Char} (slots : Slot Nat → Timeval × Timeval)
  {rounds more : List Round}

/-- **The program falls silent.** In every run of the loop, once readers hand on nothing any more:
what is sent to a receiver, and what can be sent yet, is no more than could be sent when they
stopped. -/
theorem pollerLoop_falls_silent (h : Usable now text) {p p' : Poller} {r : Option Int}
    (hrun : pollerRun os now slots rounds text = some (none, p))
    (hmore : pollerRun os now slots (rounds ++ more) text = some (r, p'))
    (hsubmits : submits p'.world.trace = submits p.world.trace) (hfirst : ∀ o ∈ p'.world.trace, o.RemovesFirst)
    (pace : Pace) (i n : Nat)
    (hpace : pace.Holds (writersOf (configRead now configInit (some text)).2 i).protocol p'.world.trace) :
    ∃ sent, writes p'.world.trace = writes p.world.trace ++ sent ∧
      sendsTo (i, n) sent + p'.world.sends pace (writersOf (configRead now configInit (some text)).2) (i, n) ≤
        p.world.sends pace (writersOf (configRead now configInit (some text)).2) (i, n) := by
  obtain ⟨r₁, p₁, hrun₁, hgoes₁⟩ := pollerRun_goes os now slots rounds h
  obtain ⟨-, rfl⟩ := Prod.mk.inj (Option.some.inj (hrun.symm.trans hrun₁))
  obtain ⟨r₂, p₂, hrun₂, hgoes₂⟩ := pollerLoop_goes os _ hgoes₁.ready _ more
  obtain ⟨-, rfl⟩ := Prod.mk.inj (Option.some.inj (hmore.symm.trans ((pollerLoop_append hrun).trans hrun₂)))
  have hgrows := (Moves.grows hgoes₂.moves hgoes₁.ready.shaped).2
  have htidy := Moves.tidy hgoes₁.moves (tidy_start _ slots _) fun o ho => hfirst o (hgrows.subset ho)
  exact (Moves.spends hgoes₂.moves htidy hfirst hsubmits hpace).sends

/-- A message in Pelco D that stops receiver 1. -/
def stopMessage : List Byte := [0xff, 1, 0, 0, 0, 0, 1]

/-- Rounds in which it comes in. -/
def stopArrival : List Round :=
  [evenRound pollNothing none (.bytes none), evenRound ⟨false, true, false⟩ none (.bytes (some stopMessage))]

/-- A round in which the signal comes and the pipe is read. -/
def wakeRound : Round := { evenRound pollNothing none (.bytes none) with alarm := true, wake := true }

set_option maxRecDepth 4000 in
/-- The stop is sent once more. -/
theorem pollerLoop_falls_silent_oneRoute :
    ∃ p p', pollerRun ticking (fun _ => ⟨0, 0⟩) oneSlots stopArrival oneRoute = some (none, p) ∧
      pollerRun ticking (fun _ => ⟨0, 0⟩) oneSlots (stopArrival ++ [wakeRound]) oneRoute = some (none, p') ∧
      ∃ sent, sent.length = 1 ∧ writes p'.world.trace = writes p.world.trace ++ sent ∧
        sendsTo (0, 0) sent + p'.world.sends .gap (writersOf (configOf oneRoute)) (0, 0) ≤
          p.world.sends .gap (writersOf (configOf oneRoute)) (0, 0) := by
  obtain ⟨p, p', hrun, hmore, hlen, hsubmits, hfirst⟩ : ∃ p p',
      pollerLoop ticking (writersOf (configOf oneRoute)) (pollerInit (configOf oneRoute) oneSlots)
        (channelsOf (configOf oneRoute)) stopArrival = some (none, p) ∧
      pollerLoop ticking (writersOf (configOf oneRoute)) (pollerInit (configOf oneRoute) oneSlots)
        (channelsOf (configOf oneRoute)) (stopArrival ++ [wakeRound]) = some (none, p') ∧
      (writes p'.world.trace).length = (writes p.world.trace).length + 1 ∧
      submits p'.world.trace = submits p.world.trace ∧
      ∀ o ∈ p'.world.trace, o.RemovesFirst := by
    refine ⟨_, _, rfl, rfl, rfl, rfl, ?_⟩
    decide +kernel
  have hrounds : ∀ {rounds : List Round} {p : Poller},
      pollerLoop ticking (writersOf (configOf oneRoute)) (pollerInit (configOf oneRoute) oneSlots)
        (channelsOf (configOf oneRoute)) rounds = some (none, p) →
      pollerRun ticking (fun _ => ⟨0, 0⟩) oneSlots rounds oneRoute = some (none, p) := by
    intro rounds p hrun
    unfold pollerRun
    rw [configRead_oneRoute]
    exact hrun
  have happlies : 0 < (writersOf (configRead (fun _ => ⟨0, 0⟩) configInit (some oneRoute)).2 0).protocol.gaptime := by
    rw [configRead_oneRoute]
    decide
  obtain ⟨sent, hwrites, hsends⟩ := pollerLoop_falls_silent ticking _ _ usable_oneRoute (hrounds hrun) (hrounds hmore)
    hsubmits hfirst .gap 0 0 ⟨happlies, nofun⟩
  rw [configRead_oneRoute] at hsends
  refine ⟨p, p', hrounds hrun, hrounds hmore, sent, ?_, hwrites, hsends⟩
  rw [hwrites, List.length_append] at hlen
  exact Nat.add_left_cancel hlen

end

end Protozoa.Program
