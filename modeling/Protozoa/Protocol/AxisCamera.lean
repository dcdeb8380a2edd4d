import Protozoa.Protocol.AxisRequest

/-!
# What an Axis camera is told

An Axis camera moves with the last velocity it was told. The camera is no part of the program, so it
is a parameter here, and all that is known of it is the rule that `axis.c` is written for
(`FollowsRule`): without a `continuouspantiltmove` in a request a velocity persists, and one with
two numbers is taken over. What a camera makes of any other value is open.

`axis_do_write` (`axis.c:249-271`) takes `encode_command` for every packet with a mode
(`ccpacket_has_command`, `ccpacket.c:499-505`), while `encode_pan_tilt` (`axis.c:110-129`) writes a
`continuouspantiltmove` only for a packet with a speed, and behind a tilt one comma too many.

* `paramsFor_motion`: a request whose value is two numbers tells every such camera the motion of the
  packet.
* **`leavesMotion_iff`**: exactly the packets whose motion every camera takes over.
* `not_leavesMotion`: the stop of a Pelco D keyboard stops no camera.

`strictCamera` is a camera that follows the rule and ignores any other value; it is only needed to
show that the condition is not wider.
-/

namespace Protozoa.Axis

/-! ## A camera -/

/-- **The rule for cameras**, which have a velocity and get requests. -/
structure FollowsRule (camera : Int × Int → List Byte → Int × Int) : Prop where
  /-- A velocity persists -/
  persists : ∀ (r : Request) velocity, r.Shaped → (∀ param ∈ r.params, param.1 ≠ ascii "continuouspantiltmove") →
    camera velocity r.text = velocity
  /-- until a new one is received. -/
  received : ∀ (r : Request) velocity (pan tilt : Int), r.WellFormed → pan.natAbs ≤ 100 → tilt.natAbs ≤ 100 →
    (∃ param ∈ r.params, param.1 = ascii "continuouspantiltmove") →
    (∀ param ∈ r.params, param.1 = ascii "continuouspantiltmove" →
      param.2 = formatInt pan ++ 0x2c :: formatInt tilt) →
    camera velocity r.text = (pan, tilt)

/-- **What a request must do**: whatever the camera did before, it moves as the packet says
afterwards; and a packet with no speed gets a request to stop. -/
def LeavesMotion (auth : Option (List Byte)) (txbuf : Buffer) (pkt : Ccpacket) : Prop :=
  (∀ camera, FollowsRule camera → ∀ velocity,
    camera velocity (doWrite auth txbuf pkt).1.data = packetMotion pkt) ∧
  (pkt.pan = 0 ∧ pkt.tilt = 0 → stopText <:+: (doWrite auth txbuf pkt).1.data)

/-! ## A strict camera -/

/-- A number without sign. -/
def parseNat (s : List Byte) : Option Nat :=
  if s = [] ∨ s.any (fun c => decide (c < 0x30 ∨ 0x39 < c)) then none
  else some (s.foldl (fun n c => n * 10 + (c.toNat - 0x30)) 0)

/-- A number with an optional sign. -/
def parseInt : List Byte → Option Int
  | 0x2d :: s => (parseNat s).map fun n => -(n : Int)
  | s => (parseNat s).map fun n => (n : Int)

/-- What holds of the numbers up to 100 and of their negatives. -/
theorem of_natAbs_le {P : Int → Prop} (hall : ∀ k : Fin 101, P k ∧ P (-k)) {n : Int}
    (h : n.natAbs ≤ 100) : P n := by
  have hk := hall ⟨n.natAbs, by omega⟩
  rcases Int.natAbs_eq n with hn | hn
  · rw [hn]
    exact hk.1
  · rw [hn]
    exact hk.2

theorem parseInt_formatInt {n : Int} (h : n.natAbs ≤ 100) : parseInt (formatInt n) = some n :=
  of_natAbs_le (P := fun n => parseInt (formatInt n) = some n) (by decide +kernel) h

/-- Two numbers, and nothing else. -/
def twoNumbers (value : List Byte) : Option (Int × Int) :=
  match value.splitOn 0x2c with
  | [pan, tilt] => do return (← parseInt pan, ← parseInt tilt)
  | _ => none

/-- The velocity after one parameter. -/
def strictParam (velocity : Int × Int) (param : List Byte × List Byte) : Int × Int :=
  if param.1 = ascii "continuouspantiltmove" then (twoNumbers param.2).getD velocity else velocity

/-- A camera that pays no attention to what it does not understand. -/
def strictCamera (velocity : Int × Int) (request : List Byte) : Int × Int :=
  (paramsOf request).foldl strictParam velocity

theorem twoNumbers_move {pan tilt : Int} (hpan : pan.natAbs ≤ 100) (htilt : tilt.natAbs ≤ 100) :
    twoNumbers (formatInt pan ++ 0x2c :: formatInt tilt) = some (pan, tilt) := by
  unfold twoNumbers
  rw [List.splitOn_append_cons_self_of_not_mem (formatInt_separators pan _ (by decide)),
    List.splitOn_eq_singleton (formatInt_separators tilt _ (by decide))]
  dsimp only
  rw [parseInt_formatInt hpan, parseInt_formatInt htilt]
  rfl

/-- Without a velocity among the parameters, the last one persists. -/
theorem foldl_strictParam_of_none {velocity : Int × Int} : ∀ {params : List (List Byte × List Byte)},
    (∀ param ∈ params, param.1 = ascii "continuouspantiltmove" → twoNumbers param.2 = none) →
      params.foldl strictParam velocity = velocity
  | [], _ => rfl
  | param :: params, h => by
    have hkeep : strictParam velocity param = velocity := by
      unfold strictParam
      split
      · rename_i hname
        rw [h param List.mem_cons_self hname]
        rfl
      · rfl
    rw [List.foldl_cons, hkeep]
    exact foldl_strictParam_of_none fun param hparam => h param (List.mem_cons_of_mem _ hparam)

/-- A velocity stays through the parameters that say the same. -/
theorem foldl_strictParam_of_some {new velocity : Int × Int} : ∀ {params : List (List Byte × List Byte)},
    (∀ param ∈ params, param.1 = ascii "continuouspantiltmove" → twoNumbers param.2 = some new) →
      velocity = new ∨ (∃ param ∈ params, param.1 = ascii "continuouspantiltmove") →
        params.foldl strictParam velocity = new
  | [], _, hnew => hnew.resolve_right fun ⟨_, hparam, _⟩ => absurd hparam List.not_mem_nil
  | param :: params, h, hnew => by
    have hrest := fun q hq => h q (List.mem_cons_of_mem param hq)
    rw [List.foldl_cons]
    by_cases hname : param.1 = ascii "continuouspantiltmove"
    · have htaken : strictParam velocity param = new := by
        rw [strictParam, if_pos hname, h param List.mem_cons_self hname]
        rfl
      exact foldl_strictParam_of_some hrest (Or.inl htaken)
    · rw [strictParam, if_neg hname]
      refine foldl_strictParam_of_some hrest (hnew.imp_right fun ⟨q, hq, hmove⟩ => ?_)
      rcases List.mem_cons.mp hq with rfl | hq
      · exact absurd hmove hname
      · exact ⟨q, hq, hmove⟩

/-- **There is such a camera**. -/
theorem followsRule_strictCamera : FollowsRule strictCamera where
  persists r velocity hr hnone := by
    unfold strictCamera
    rw [paramsOf_text hr]
    exact foldl_strictParam_of_none fun param hparam hname => absurd hname (hnone param hparam)
  received r velocity pan tilt hr hpan htilt hsome hall := by
    unfold strictCamera
    rw [paramsOf_text hr.toShaped]
    refine foldl_strictParam_of_some (fun param hparam hname => ?_) (Or.inr hsome)
    rw [hall param hparam hname]
    exact twoNumbers_move hpan htilt

/-! ## The motion of the packet -/

variable {pkt : Ccpacket}

/-- A comma behind the tilt makes a third piece. -/
theorem twoNumbers_moveValue (htilt : pkt.tilt ≠ 0) : twoNumbers (moveValue pkt) = none := by
  have hnumber : ∀ n, (0x2c : Byte) ∉ formatInt n := fun n => formatInt_separators n _ (by decide)
  unfold twoNumbers moveValue
  rw [if_pos htilt, List.splitOn_append_cons_self_of_not_mem (hnumber _),
    List.splitOn_append_cons_self_of_not_mem (hnumber _), List.splitOn_nil]

/-- A packet with a command that has no pan, or a tilt speed, has no velocity that a camera must
understand. -/
theorem paramsFor_strict (hcmd : ccpacketHasCommand pkt = true)
    (h : ¬(ccpacketHasPan pkt = true ∧ pkt.tilt = 0)) {param : List Byte × List Byte} (hparam : param ∈ paramsFor pkt)
    (hname : param.1 = ascii "continuouspantiltmove") : twoNumbers param.2 = none := by
  unfold paramsFor at hparam
  rw [if_pos hcmd] at hparam
  split at hparam
  · rename_i hmove
    have htilt : pkt.tilt ≠ 0 := by
      intro hzero
      have hno : ccpacketHasTilt pkt = false := by simp [ccpacketHasTilt, hzero]
      rw [hno, Bool.or_false] at hmove
      exact h ⟨hmove, hzero⟩
    rcases List.mem_cons.mp hparam with rfl | hparam
    · exact twoNumbers_moveValue htilt
    · exact absurd hname (lensParams_spec hparam).1
  · exact absurd hname (lensParams_spec hparam).1

theorem natAbs_packetTilt (h : Speeds pkt) : (packetMotion pkt).2.natAbs ≤ 100 := by
  have hrange := axisEncodeSpeed_range h.tilt
  unfold packetMotion
  dsimp only
  split
  · split <;> omega
  · decide

/-- What is well formed tells every camera the motion of the packet. -/
theorem paramsFor_motion (hwhen : ccpacketHasCommand pkt = false ∨ ccpacketHasPan pkt = true ∧ pkt.tilt = 0) :
    (∃ param ∈ paramsFor pkt, param.1 = ascii "continuouspantiltmove") ∧
      ∀ param ∈ paramsFor pkt, param.1 = ascii "continuouspantiltmove" →
        param.2 = formatInt (packetMotion pkt).1 ++ 0x2c :: formatInt (packetMotion pkt).2 := by
  unfold paramsFor
  rcases hwhen with hcmd | ⟨hpan, htilt⟩
  · -- no command: a stop
    have hno : (ccpacketHasPan pkt || ccpacketHasTilt pkt) = false := by
      by_contra hmove
      rw [hasCommand_of_moves (Bool.not_eq_false _ ▸ hmove)] at hcmd
      cases hcmd
    obtain ⟨hpan, htilt⟩ := Bool.or_eq_false_iff.mp hno
    have hzero : packetMotion pkt = (0, 0) := by simp [packetMotion, hpan, htilt]
    rw [hcmd, if_neg Bool.false_ne_true, hzero]
    refine ⟨⟨_, List.mem_cons_self, rfl⟩, fun param hparam _ => ?_⟩
    rw [List.mem_singleton.mp hparam]
    decide
  · -- a pan alone
    have hmove : (ccpacketHasPan pkt || ccpacketHasTilt pkt) = true := by rw [hpan, Bool.true_or]
    have hno : ccpacketHasTilt pkt = false := by simp [ccpacketHasTilt, htilt]
    have hvalue : moveValue pkt = formatInt (packetMotion pkt).1 ++ 0x2c :: formatInt (packetMotion pkt).2 := by
      have hsecond : tiltValue pkt = (packetMotion pkt).2 := by simp [tiltValue, packetMotion, hno, htilt]
      rw [moveValue, if_neg (not_not_intro htilt), List.append_nil, hsecond]
      rfl
    rw [if_pos (hasCommand_of_moves hmove), if_pos hmove]
    refine ⟨⟨_, List.mem_cons_self, rfl⟩, fun param hparam hname => ?_⟩
    rcases List.mem_cons.mp hparam with rfl | hparam
    · exact hvalue
    · exact absurd hname (lensParams_spec hparam).1

/-- **Which packets a camera follows**: those without any mode, and those that pan and do not tilt.
A mode or a lens command with no speed does not stop a camera, and a tilt comes with a second comma.
-/
theorem leavesMotion_iff (token : List Byte) (txbuf : Buffer) (pkt : Ccpacket) (htoken : Token token)
    (hsize : txbuf.size = bufferSize) (h : Deliverable pkt) :
    LeavesMotion (authOf token) txbuf pkt ↔
      ccpacketHasCommand pkt = false ∨ ccpacketHasPan pkt = true ∧ pkt.tilt = 0 := by
  have hauth := htoken.authOf
  have hdata := doWrite_request (fun auth hmem => (hauth auth hmem).1) hsize h.speeds h.preset
  have hshaped : (⟨cgiPath false, paramsFor pkt, authOf token⟩ : Request).Shaped :=
    ⟨mem_cgiPaths false, paramsFor_ne_nil pkt, plain_paramsFor, fun auth hmem => (hauth auth hmem).2⟩
  constructor
  · rintro ⟨hmotion, -⟩
    by_contra hwhen
    obtain ⟨hcmd, hnot⟩ := not_or.mp hwhen
    -- The strict camera goes on as before, whatever that was.
    have hkeep : ∀ velocity, strictCamera velocity (doWrite (authOf token) txbuf pkt).1.data = velocity := by
      intro velocity
      rw [hdata, strictCamera, paramsOf_text hshaped]
      exact foldl_strictParam_of_none fun param => paramsFor_strict (Bool.not_eq_false _ ▸ hcmd) hnot
    have h0 := (hkeep (0, 0)).symm.trans (hmotion strictCamera followsRule_strictCamera (0, 0))
    have h1 := (hkeep (1, 0)).symm.trans (hmotion strictCamera followsRule_strictCamera (1, 0))
    exact absurd (congrArg Prod.fst (h0.trans h1.symm)) (by decide)
  · intro hwhen
    obtain ⟨hsome, hall⟩ := paramsFor_motion hwhen
    have hmoves : ∀ param ∈ paramsFor pkt, param.1 = ascii "continuouspantiltmove" → IsMove param.2 :=
      fun param hparam hname => ⟨_, _, natAbs_panValue h.speeds, natAbs_packetTilt h.speeds, hall param hparam hname⟩
    refine ⟨fun camera hrule velocity => ?_, fun hzero => ?_⟩
    · rw [hdata]
      exact hrule.received _ velocity _ _ ⟨hshaped, hmoves⟩ (natAbs_panValue h.speeds) (natAbs_packetTilt h.speeds)
        hsome hall
    · have hcmd := hwhen.resolve_right fun hpan => by simp [ccpacketHasPan, hzero.1] at hpan
      have hstop : paramText (ascii "continuouspantiltmove", ascii "0,0") = stopText := by decide
      rw [hdata, paramsFor, hcmd, if_neg Bool.false_ne_true, Request.text, queryText_singleton, hstop]
      exact ⟨ascii "GET " ++ cgiPath false ++ ascii "?", axisTrailer ++ tokenText (authOf token) ++ axisEnding, by
        simp [axisTrailer, axisEnding]⟩

/-- A pan to the left, as a Pelco D reader makes it of `FF 01 00 04 20 00 25`. -/
def panLeft : Ccpacket := ⟨1, ccPanLeft ||| ccTiltDown, 1024, 0, 0, ⟨15, 0⟩⟩

theorem leavesMotion_iff_pan : LeavesMotion (authOf (ascii "dXNlcg==")) (bufferInit bufferSize) panLeft ↔
    ccpacketHasCommand panLeft = false ∨ ccpacketHasPan panLeft = true ∧ panLeft.tilt = 0 :=
  leavesMotion_iff (ascii "dXNlcg==") (bufferInit bufferSize) panLeft ⟨by decide, by decide⟩ rfl
    ⟨by decide, by decide, by decide, by decide⟩

/-- The stop of a Pelco D keyboard, `FF 01 00 00 00 00 01`: modes left and down with no speed. -/
theorem not_leavesMotion : ¬∀ (token : List Byte) (txbuf : Buffer) (pkt : Ccpacket), Token token →
    txbuf.size = bufferSize → Deliverable pkt → LeavesMotion (authOf token) txbuf pkt := by
  intro hall
  have hmotion := (hall [] (bufferInit bufferSize) ⟨1, ccPanLeft ||| ccTiltDown, 0, 0, 0, ⟨0, 0⟩⟩
    ⟨by decide, by decide⟩ rfl ⟨by decide, by decide, by decide, by decide⟩).1 strictCamera followsRule_strictCamera
    (1, 1)
  revert hmotion
  decide

end Protozoa.Axis
