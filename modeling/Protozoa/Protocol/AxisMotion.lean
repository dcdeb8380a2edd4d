import Protozoa.Protocol.AxisGrammar

/-!
# The parameters of an Axis request

Which parameters `axis_do_write` (`axis.c:249-271`) gives a packet. `encode_pan_tilt`
(`axis.c:110-129`) writes numbers from -100 to 100 and, behind a tilt, a second comma;
`encode_focus` and `encode_zoom` (`axis.c:150-195`) write a number each; `encode_stop`
(`axis.c:137-141`) stops pan and tilt; `encode_preset` (`axis.c:219-241`) names a position.

* `panTiltText_eq`: the value of a `continuouspantiltmove` (`moveValue`).
* `paramsFor`, `presetParam`: the parameters of a packet, as names and values.
* `doWrite_eq`, `doWrite_preset`: a request is built from its parts (`requestParts`).
* `doWrite_line`, `doWrite_presetLine`: the request line is in the buffer, whatever becomes of the
  rest.

Out of scope here: whether the rest is there in whole, which needs a token that fits
(`Protocol/AxisRequest.lean`).
-/

namespace Protozoa.Axis

/-! ## Numbers -/

theorem speedStr_eq {n : Int} (h : n.natAbs ≤ 100) : speedStr n = formatInt n ++ [0x2c] := by
  refine List.take_of_length_le ?_
  have hlen := @length_formatInt n 3 (by decide) (by omega)
  have hcomma : (ascii ",").length = 1 := by decide
  rw [List.length_append, hcomma]
  omega

theorem axisEncodeSpeed_range {speed : Int} (h : 0 ≤ speed ∧ speed ≤ speedMax) :
    1 ≤ axisEncodeSpeed speed ∧ axisEncodeSpeed speed ≤ 100 := by
  obtain ⟨h0, h1⟩ := h
  unfold speedMax at h1
  have hdiv : (speed * axisMaxSpeed).tdiv (speedMax + 1) = speed * 100 / 2048 :=
    Int.tdiv_eq_ediv_of_nonneg (show 0 ≤ speed * 100 by omega)
  unfold axisEncodeSpeed
  rw [hdiv]
  omega

/-! ## The parameters -/

/-- The pan of a `continuouspantiltmove`. -/
def panValue (pkt : Ccpacket) : Int := (packetMotion pkt).1

/-- The tilt of a `continuouspantiltmove`; its mode is not asked whether there is one. -/
def tiltValue (pkt : Ccpacket) : Int :=
  if pkt.tilt ≠ 0 then
    if ccpacketGetTiltMode pkt = ccTiltDown then -axisEncodeSpeed pkt.tilt else axisEncodeSpeed pkt.tilt
  else 0

/-- A packet without preset, as the readers deliver them. -/
structure Deliverable (pkt : Ccpacket) : Prop where
  preset : ccpacketGetPresetMode pkt = 0
  panMode : ccpacketGetPanMode pkt ∈ [ccPanLeft, ccPanRight, 0]
  pan : 0 ≤ pkt.pan ∧ pkt.pan ≤ speedMax
  tilt : 0 ≤ pkt.tilt ∧ pkt.tilt ≤ speedMax

/-- Speeds as the readers deliver them. -/
structure Speeds (pkt : Ccpacket) : Prop where
  pan : 0 ≤ pkt.pan ∧ pkt.pan ≤ speedMax
  tilt : 0 ≤ pkt.tilt ∧ pkt.tilt ≤ speedMax

variable {pkt : Ccpacket}

theorem Deliverable.speeds (h : Deliverable pkt) : Speeds pkt := ⟨h.pan, h.tilt⟩

theorem natAbs_panValue (h : Speeds pkt) : (panValue pkt).natAbs ≤ 100 := by
  have hrange := axisEncodeSpeed_range h.pan
  unfold panValue packetMotion
  dsimp only
  split
  · split <;> omega
  · decide

theorem natAbs_tiltValue (h : Speeds pkt) : (tiltValue pkt).natAbs ≤ 100 := by
  have hrange := axisEncodeSpeed_range h.tilt
  unfold tiltValue
  split
  · split <;> omega
  · decide

/-- The text of a move: two numbers, and a comma behind a tilt that is not 0. -/
theorem panTiltText_eq (h : Speeds pkt) :
    panTiltText pkt = ascii "continuouspantiltmove" ++ 0x3d :: (formatInt (panValue pkt) ++ 0x2c ::
      (formatInt (tiltValue pkt) ++ if pkt.tilt ≠ 0 then [0x2c] else [])) := by
  have hname : ascii "continuouspantiltmove=" = ascii "continuouspantiltmove" ++ [0x3d] := by decide
  have hpan : (if ccpacketHasPan pkt then encodePan pkt else ascii "0,") =
      formatInt (panValue pkt) ++ [0x2c] := by
    rw [← speedStr_eq (natAbs_panValue h)]
    unfold panValue packetMotion encodePan
    dsimp only
    split
    · rfl
    · decide
  have htilt : (if pkt.tilt ≠ 0 then encodeTilt pkt else ascii "0") =
      formatInt (tiltValue pkt) ++ if pkt.tilt ≠ 0 then [0x2c] else [] := by
    by_cases ht : pkt.tilt ≠ 0
    · rw [if_pos ht, if_pos ht, ← speedStr_eq (natAbs_tiltValue h), encodeTilt, tiltValue, if_pos ht]
    · rw [if_neg ht, if_neg ht, tiltValue, if_neg ht]
      decide
  rw [panTiltText, hname, hpan, htilt]
  simp

theorem hasCommand_of_moves (h : (ccpacketHasPan pkt || ccpacketHasTilt pkt) = true) :
    ccpacketHasCommand pkt = true := by
  simp only [ccpacketHasPan, ccpacketHasTilt, Bool.or_eq_true, Bool.and_eq_true] at h
  simp only [ccpacketHasCommand, Bool.or_eq_true]
  rcases h with h | h
  · exact Or.inl (Or.inl (Or.inl (Or.inl h.1)))
  · exact Or.inl (Or.inl (Or.inl (Or.inr h.1)))

/-! ## Names and values -/

/-- The value of `continuouspantiltmove`. -/
def moveValue (pkt : Ccpacket) : List Byte :=
  formatInt (panValue pkt) ++ 0x2c :: (formatInt (tiltValue pkt) ++ if pkt.tilt ≠ 0 then [0x2c] else [])

/-- The value of a lens parameter. -/
def lensValue (forth back : Bool) : List Byte :=
  if forth then defaultSpeed else if back then ascii "-" ++ defaultSpeed else ascii "0"

/-- The parameters for focus and zoom. -/
def lensParams (pkt : Ccpacket) : List (List Byte × List Byte) :=
  [(ascii "continuousfocusmove",
      lensValue (ccpacketGetFocus pkt == ccFocusNear) (ccpacketGetFocus pkt == ccFocusFar)),
    (ascii "continuouszoommove",
      lensValue (ccpacketGetZoom pkt == ccZoomIn) (ccpacketGetZoom pkt == ccZoomOut))]

/-- The parameters for a packet without a preset. -/
def paramsFor (pkt : Ccpacket) : List (List Byte × List Byte) :=
  if ccpacketHasCommand pkt then
    if ccpacketHasPan pkt || ccpacketHasTilt pkt then
      (ascii "continuouspantiltmove", moveValue pkt) :: lensParams pkt
    else lensParams pkt
  else [(ascii "continuouspantiltmove", ascii "0,0")]

/-- The parameter for a preset. -/
def presetParam (verb : List Byte) (pkt : Ccpacket) : List Byte × List Byte :=
  (verb ++ ascii "serverpresetname", ascii "Pos" ++ formatInt pkt.preset)

theorem plain_moveValue (pkt : Ccpacket) : Plain (moveValue pkt) := by
  have hcomma : ∀ c ∈ ascii "?&=" ++ whitespace, c ≠ 0x2c := by decide
  refine (plain_number (panValue pkt)).append fun c hc =>
    List.not_mem_cons_of_ne_of_not_mem (hcomma c hc)
      (List.not_mem_append ((plain_number (tiltValue pkt)).2 c hc) ?_)
  split
  · exact fun hmem => hcomma c hc (List.mem_singleton.mp hmem)
  · exact List.not_mem_nil

theorem plain_lensValue : ∀ forth back, Plain (lensValue forth back) := by decide

/-- The parameters of the lens. -/
theorem lensParams_spec {param : List Byte × List Byte} (h : param ∈ lensParams pkt) :
    param.1 ≠ ascii "continuouspantiltmove" ∧ Plain param.1 ∧ Plain param.2 := by
  have hfocus : ascii "continuousfocusmove" ≠ ascii "continuouspantiltmove" ∧
      Plain (ascii "continuousfocusmove") := by decide
  have hzoom : ascii "continuouszoommove" ≠ ascii "continuouspantiltmove" ∧
      Plain (ascii "continuouszoommove") := by decide
  rcases List.mem_cons.mp h with rfl | h
  · exact ⟨hfocus.1, hfocus.2, plain_lensValue _ _⟩
  · rw [List.mem_singleton.mp h]
    exact ⟨hzoom.1, hzoom.2, plain_lensValue _ _⟩

theorem plain_paramsFor : ∀ param ∈ paramsFor pkt, Plain param.1 ∧ Plain param.2 := by
  have hname : Plain (ascii "continuouspantiltmove") := by decide
  intro param hparam
  unfold paramsFor at hparam
  split at hparam
  · split at hparam
    · rcases List.mem_cons.mp hparam with rfl | hparam
      · exact ⟨hname, plain_moveValue pkt⟩
      · exact (lensParams_spec hparam).2
    · exact (lensParams_spec hparam).2
  · rw [List.mem_singleton.mp hparam]
    exact ⟨hname, by decide⟩

/-- A packet that does not move has no `continuouspantiltmove`, or one that stops. -/
theorem stops_paramsFor (hmove : (ccpacketHasPan pkt || ccpacketHasTilt pkt) = false) {param : List Byte × List Byte}
    (h : param ∈ paramsFor pkt) (hname : param.1 = ascii "continuouspantiltmove") : param.2 = ascii "0,0" := by
  unfold paramsFor at h
  rw [hmove] at h
  split at h
  · exact absurd hname (lensParams_spec h).1
  · rw [List.mem_singleton.mp h]

theorem paramsFor_ne_nil (pkt : Ccpacket) : paramsFor pkt ≠ [] := by
  unfold paramsFor lensParams
  split
  · split <;> exact List.cons_ne_nil _ _
  · exact List.cons_ne_nil _ _

theorem presetParam_spec {verb : List Byte} (h : verb ∈ [ascii "goto", ascii "set", ascii "remove"]) :
    (presetParam verb pkt).1 ≠ ascii "continuouspantiltmove" ∧
      Plain (presetParam verb pkt).1 ∧ Plain (presetParam verb pkt).2 := by
  have hverbs : ∀ verb ∈ [ascii "goto", ascii "set", ascii "remove"],
      verb ++ ascii "serverpresetname" ≠ ascii "continuouspantiltmove" ∧
        Plain (verb ++ ascii "serverpresetname") := by decide
  obtain ⟨hne, hname⟩ := hverbs verb h
  exact ⟨hne, hname, Plain.append (by decide) (plain_number pkt.preset).2⟩

/-! ## The request -/

/-- The parameters of the request for a packet without a preset. -/
def queryFor (pkt : Ccpacket) : List Byte :=
  if ccpacketHasCommand pkt then
    (if ccpacketHasPan pkt || ccpacketHasTilt pkt then panTiltText pkt ++ ascii "&" else []) ++
      (focusText pkt ++ ascii "&" ++ zoomText pkt)
  else stopText

theorem queryText_paramsFor (h : Speeds pkt) : queryText (paramsFor pkt) = queryFor pkt := by
  have hmove : paramText (ascii "continuouspantiltmove", moveValue pkt) = panTiltText pkt :=
    (panTiltText_eq h).symm
  have hlens : queryText (lensParams pkt) = focusText pkt ++ ascii "&" ++ zoomText pkt := by
    have hfocus : ascii "continuousfocusmove=" = ascii "continuousfocusmove" ++ [0x3d] := by decide
    have hzoom : ascii "continuouszoommove=" = ascii "continuouszoommove" ++ [0x3d] := by decide
    rw [lensParams, queryText_cons _ (List.cons_ne_nil _ _), queryText_singleton, focusText, zoomText,
      moveText, moveText, hfocus, hzoom]
    simp only [paramText, lensValue, List.append_assoc, List.cons_append, List.nil_append]
    rfl
  unfold paramsFor queryFor
  split
  · split
    · rw [queryText_cons _ (show lensParams pkt ≠ [] from List.cons_ne_nil _ _), hmove, hlens]
      simp only [List.append_assoc]
      rfl
    · rw [hlens, List.nil_append]
  · rw [queryText_singleton]
    decide

theorem length_moveText (name : List Byte) (forth back : Bool) :
    (moveText name forth back).length ≤ name.length + 4 := by
  have hfull : defaultSpeed.length = 3 ∧ (ascii "-" ++ defaultSpeed).length = 4 ∧
      (ascii "0").length = 1 := by decide
  unfold moveText
  rw [List.length_append]
  cases forth <;> cases back <;> simp [hfull]

theorem length_queryFor (h : Speeds pkt) : (queryFor pkt).length ≤ 100 := by
  have hmove : (panTiltText pkt).length ≤ 40 := by
    have hname : (ascii "continuouspantiltmove").length = 21 := by decide
    have hpanAbs := natAbs_panValue h
    have htiltAbs := natAbs_tiltValue h
    have hpan := @length_formatInt (panValue pkt) 3 (by decide) (by omega)
    have htilt := @length_formatInt (tiltValue pkt) 3 (by decide) (by omega)
    rw [panTiltText_eq h]
    simp only [List.length_append, List.length_cons, hname]
    split
    · rw [List.length_singleton]
      omega
    · rw [List.length_nil]
      omega
  have hfocus := length_moveText (ascii "continuousfocusmove=") (ccpacketGetFocus pkt == ccFocusNear)
    (ccpacketGetFocus pkt == ccFocusFar)
  have hzoom := length_moveText (ascii "continuouszoommove=") (ccpacketGetZoom pkt == ccZoomIn)
    (ccpacketGetZoom pkt == ccZoomOut)
  have hlen : (ascii "continuousfocusmove=").length = 20 ∧ (ascii "continuouszoommove=").length = 19 ∧
      (ascii "&").length = 1 ∧ stopText.length = 25 := by decide
  unfold queryFor focusText zoomText
  split
  · split
    · simp only [List.length_append]
      omega
    · simp only [List.length_append, List.length_nil]
      omega
  · omega

/-- The parts of the query, with the header before them. -/
def requestParts (pkt : Ccpacket) : List (List Byte) :=
  if ccpacketHasCommand pkt then
    if ccpacketHasPan pkt || ccpacketHasTilt pkt then
      [axisHeader, panTiltText pkt, ascii "&", focusText pkt, ascii "&", zoomText pkt]
    else [axisHeader, focusText pkt, ascii "&", zoomText pkt]
  else [axisHeader, stopText]

theorem flatten_requestParts (pkt : Ccpacket) :
    (requestParts pkt).flatten = axisHeader ++ queryFor pkt := by
  unfold requestParts queryFor
  split
  · split <;> simp
  · simp

theorem doWrite_eq (auth : Option (List Byte)) (txbuf : Buffer)
    (hpreset : ccpacketGetPresetMode pkt = 0) :
    (doWrite auth txbuf pkt).1 = addTrailer auth ((requestParts pkt).foldl ccwriterAppend
      (if bufferIsEmpty txbuf then txbuf else bufferClear txbuf)) := by
  have hfirst : prefixOf false false = axisHeader := rfl
  have hnext : prefixOf true false = ascii "&" := rfl
  simp only [doWrite, hpreset, ne_eq, not_true_eq_false, if_false, requestParts]
  by_cases hcmd : ccpacketHasCommand pkt = true
  · by_cases hmove : (ccpacketHasPan pkt || ccpacketHasTilt pkt) = true
    · simp only [encodeCommand, encodePanTilt, encodeFocus, encodeZoom, axisPrepareBuffer,
        axisAddToBuffer, hfirst, hnext, if_pos hcmd, if_pos hmove, if_true, List.foldl_cons,
        List.foldl_nil]
    · simp only [encodeCommand, encodePanTilt, encodeFocus, encodeZoom, axisPrepareBuffer,
        axisAddToBuffer, hfirst, hnext, if_pos hcmd, if_neg hmove, if_true, List.foldl_cons,
        List.foldl_nil]
  · simp only [encodeStop, axisPrepareBuffer, axisAddToBuffer, hfirst, if_neg hcmd, if_true,
      List.foldl_cons, List.foldl_nil]

/-- A request begins with an empty buffer. -/
theorem cleared_spec {txbuf : Buffer} (hsize : txbuf.size = bufferSize) :
    (if bufferIsEmpty txbuf then txbuf else bufferClear txbuf).data = [] ∧
      (if bufferIsEmpty txbuf then txbuf else bufferClear txbuf).size = bufferSize := by
  by_cases he : bufferIsEmpty txbuf = true
  · rw [if_pos he]
    exact ⟨List.length_eq_zero_iff.mp (beq_iff_eq.mp he), hsize⟩
  · rw [if_neg he]
    exact ⟨rfl, hsize⟩

/-- The parts of a request and its trailer; what comes after only adds to the buffer. -/
theorem addTrailer_data (auth : Option (List Byte)) {txbuf : Buffer} (hsize : txbuf.size = bufferSize)
    {parts : List (List Byte)} (hlen : parts.flatten.length ≤ 200) :
    ∃ rest, (addTrailer auth (parts.foldl ccwriterAppend
      (if bufferIsEmpty txbuf then txbuf else bufferClear txbuf))).data =
        parts.flatten ++ axisTrailer ++ rest := by
  obtain ⟨hnil, hsize'⟩ := cleared_spec hsize
  generalize (if bufferIsEmpty txbuf then txbuf else bufferClear txbuf) = txbuf' at hnil hsize'
  have hroom : bufferSpace txbuf' = 256 := (bufferSpace_of_nil hnil).trans hsize'
  have hfits : (parts ++ [axisTrailer]).flatten.length ≤ bufferSpace txbuf' := by
    have htrailer : axisTrailer.length = 9 := by decide
    rw [List.flatten_append, hroom, List.length_append, List.flatten_singleton]
    omega
  have hdata := foldl_ccwriterAppend hfits
  rw [List.foldl_append, hnil, List.flatten_append] at hdata
  obtain ⟨rest, hrest⟩ : ∃ rest, (addTrailer auth (parts.foldl ccwriterAppend txbuf')).data =
      (ccwriterAppend (parts.foldl ccwriterAppend txbuf') axisTrailer).data ++ rest := by
    cases auth with
    | none => exact ccwriterAppend_prefix _ _
    | some auth =>
      obtain ⟨r₁, h₁⟩ := ccwriterAppend_prefix
        (ccwriterAppend (parts.foldl ccwriterAppend txbuf') axisTrailer) axisAuth
      obtain ⟨r₂, h₂⟩ := ccwriterAppend_prefix (ccwriterAppend
        (ccwriterAppend (parts.foldl ccwriterAppend txbuf') axisTrailer) axisAuth) auth
      obtain ⟨r₃, h₃⟩ := ccwriterAppend_prefix (ccwriterAppend (ccwriterAppend
        (ccwriterAppend (parts.foldl ccwriterAppend txbuf') axisTrailer) axisAuth) auth) axisEnding
      refine ⟨r₁ ++ (r₂ ++ r₃), h₃.trans ?_⟩
      rw [h₂, h₁]
      simp
  refine ⟨rest, hrest.trans (congrArg (· ++ rest) (hdata.trans ?_))⟩
  simp

/-- **The request line** of a packet without a preset. -/
theorem doWrite_line (auth : Option (List Byte)) {txbuf : Buffer} (hsize : txbuf.size = bufferSize)
    (h : Speeds pkt) (hmode : ccpacketGetPresetMode pkt = 0) :
    ∃ rest, (doWrite auth txbuf pkt).1.data = requestLine (cgiPath false) (paramsFor pkt) ++ rest := by
  have hflat := flatten_requestParts pkt
  have hlen : (requestParts pkt).flatten.length ≤ 200 := by
    have hquery := length_queryFor h
    have hheader : axisHeader.length = 26 := by decide
    rw [hflat, List.length_append]
    omega
  obtain ⟨rest, hdata⟩ := addTrailer_data auth hsize hlen
  refine ⟨rest, ?_⟩
  rw [doWrite_eq auth txbuf hmode, hdata, hflat, requestLine, queryText_paramsFor h, ← prefixOf_eq]
  rfl

/-- The parts of a request for a preset. -/
theorem flatten_presetParts (config : Bool) (verb : List Byte) (pkt : Ccpacket) :
    [prefixOf false config, verb ++ ascii "serverpresetname=" ++ ascii "Pos" ++ formatInt pkt.preset].flatten =
      prefixOf false config ++ queryText [presetParam verb pkt] := by
  have hname : ascii "serverpresetname=" = ascii "serverpresetname" ++ [0x3d] := by decide
  rw [queryText_singleton, presetParam, paramText, hname]
  simp

/-- The request for a preset: a header and one parameter. -/
theorem doWrite_preset (auth : Option (List Byte)) (txbuf : Buffer)
    (hmode : ccpacketGetPresetMode pkt ≠ 0) :
    ∃ config, ∃ verb ∈ [ascii "goto", ascii "set", ascii "remove"],
      (doWrite auth txbuf pkt).1 = addTrailer auth ([prefixOf false config,
        verb ++ ascii "serverpresetname=" ++ ascii "Pos" ++ formatInt pkt.preset].foldl
          ccwriterAppend (if bufferIsEmpty txbuf then txbuf else bufferClear txbuf)) := by
  simp only [doWrite, hmode, ne_eq, not_false_eq_true, if_true, encodePreset, axisPrepareBuffer,
    axisAddToBuffer]
  split
  · exact ⟨false, ascii "goto", List.mem_cons_self, rfl⟩
  split
  · exact ⟨true, ascii "set", List.mem_cons_of_mem _ List.mem_cons_self, rfl⟩
  · exact ⟨true, ascii "remove", List.mem_cons_of_mem _ (List.mem_cons_of_mem _ List.mem_cons_self), rfl⟩

/-- **The request line** of a preset. -/
theorem doWrite_presetLine (auth : Option (List Byte)) {txbuf : Buffer} (hsize : txbuf.size = bufferSize)
    (hmode : ccpacketGetPresetMode pkt ≠ 0) (hint : pkt.preset.natAbs < 10 ^ 10) :
    ∃ config, ∃ verb ∈ [ascii "goto", ascii "set", ascii "remove"], ∃ rest,
      (doWrite auth txbuf pkt).1.data = requestLine (cgiPath config) [presetParam verb pkt] ++ rest := by
  obtain ⟨config, verb, hverb, hwrite⟩ := doWrite_preset auth txbuf hmode
  have hdigits := length_formatInt (by decide) hint
  have hverbs : ∀ verb ∈ [ascii "goto", ascii "set", ascii "remove"], verb.length ≤ 6 := by decide
  have hheaders : ∀ config, (prefixOf false config).length ≤ 32 := by decide
  have hlongVerb := hverbs verb hverb
  have hlongHeader := hheaders config
  have hlens : (ascii "serverpresetname=").length = 17 ∧ (ascii "Pos").length = 3 := by decide
  have hlen : [prefixOf false config, verb ++ ascii "serverpresetname=" ++ ascii "Pos" ++
      formatInt pkt.preset].flatten.length ≤ 200 := by
    simp only [List.flatten_cons, List.flatten_nil, List.length_append, List.length_nil]
    omega
  obtain ⟨rest, hdata⟩ := addTrailer_data auth hsize hlen
  refine ⟨config, verb, hverb, rest, ?_⟩
  rw [hwrite, hdata, flatten_presetParts, requestLine, ← prefixOf_eq]
  rfl

end Protozoa.Axis
