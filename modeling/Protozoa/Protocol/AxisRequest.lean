import Protozoa.Protocol.AxisMotion
import Protozoa.Protocol.Bounds

/-!
# The requests of an Axis writer

What `axis_do_write` (`axis.c:249-271`) leaves in the buffer as a `Request` of
`Protocol/AxisGrammar.lean`: a path, parameters and a token. Every packet becomes one whole request,
but `encode_tilt` (`axis.c:91-101`) puts a comma behind the tilt as `encode_pan` (`axis.c:73-83`)
does behind the pan.

* `Token`: what is asked of the authorization of a writer, which is a word of the configuration
  file: no white space, and short enough that the request fits.
* `doWrite_request`, `doWrite_presetRequest`: the request of a packet.
* **`writesRequest_iff`**: exactly the packets whose request is well formed: presets, packets that
  neither pan nor tilt, and those without a tilt speed.
* `not_writesRequest`: a tilt upward.
-/

namespace Protozoa.Axis

/-- `auth` of `ccwriter_init`, which has none for an empty token. -/
def authOf (token : List Byte) : Option (List Byte) := if token.length > 0 then some token else none

/-- **What a write must leave**: exactly one well-formed request, with the token of the writer. -/
def WritesRequest (token : List Byte) (txbuf : Buffer) (pkt : Ccpacket) : Prop :=
  ∃ r : Request, r.WellFormed ∧ r.token = authOf token ∧
    (doWrite (authOf token) txbuf pkt).1.data = r.text

/-! ## The request of a packet -/

variable {pkt : Ccpacket}

/-- The parts of the end of a request. -/
def trailerParts : Option (List Byte) → List (List Byte)
  | none => [axisTrailer, axisEnding]
  | some token => [axisTrailer, axisAuth, token, axisEnding]

theorem addTrailer_eq (auth : Option (List Byte)) (txbuf : Buffer) :
    addTrailer auth txbuf = (trailerParts auth).foldl ccwriterAppend txbuf := by
  cases auth <;> rfl

theorem length_trailerParts (auth : Option (List Byte)) (h : ∀ token ∈ auth, token.length ≤ 31) :
    (trailerParts auth).flatten.length ≤ 67 := by
  have hlen : axisTrailer.length = 9 ∧ axisAuth.length = 23 ∧ axisEnding.length = 4 := by decide
  cases auth with
  | none =>
    simp only [trailerParts, List.flatten_cons, List.flatten_nil, List.length_append, List.length_nil]
    omega
  | some token =>
    have htoken := h token rfl
    simp only [trailerParts, List.flatten_cons, List.flatten_nil, List.length_append, List.length_nil]
    omega

/-- **A request in the buffer**: with room for its parts, it is there in whole and alone. -/
theorem addTrailer_request {auth : Option (List Byte)} (hauth : ∀ token ∈ auth, token.length ≤ 31)
    {txbuf : Buffer} (hsize : txbuf.size = bufferSize) {config : Bool}
    {params : List (List Byte × List Byte)} {parts : List (List Byte)}
    (hparts : parts.flatten = prefixOf false config ++ queryText params) (hlen : parts.flatten.length ≤ 189) :
    (addTrailer auth (parts.foldl ccwriterAppend
      (if bufferIsEmpty txbuf then txbuf else bufferClear txbuf))).data =
        (⟨cgiPath config, params, auth⟩ : Request).text := by
  obtain ⟨hnil, hsize'⟩ := cleared_spec hsize
  have hroom := (bufferSpace_of_nil hnil).trans hsize'
  have hfits : (parts ++ trailerParts auth).flatten.length ≤
      bufferSpace (if bufferIsEmpty txbuf then txbuf else bufferClear txbuf) := by
    have htrailer := length_trailerParts auth hauth
    rw [hroom, List.flatten_append, List.length_append]
    exact Nat.le_trans (Nat.add_le_add hlen htrailer) (by decide)
  have htrailer : (trailerParts auth).flatten = ascii " HTTP/1.0" ++ tokenText auth ++ ascii "\r\n\r\n" := by
    cases auth <;> simp [trailerParts, tokenText, axisTrailer, axisAuth, axisEnding]
  rw [addTrailer_eq, ← List.foldl_append, foldl_ccwriterAppend hfits, hnil, List.nil_append,
    List.flatten_append, hparts, htrailer, prefixOf_eq]
  simp [Request.text]

/-- **The request** for a packet without a preset. -/
theorem doWrite_request {auth : Option (List Byte)} (hauth : ∀ token ∈ auth, token.length ≤ 31)
    {txbuf : Buffer} (hsize : txbuf.size = bufferSize) (h : Speeds pkt)
    (hmode : ccpacketGetPresetMode pkt = 0) :
    (doWrite auth txbuf pkt).1.data = (⟨cgiPath false, paramsFor pkt, auth⟩ : Request).text := by
  have hflat : (requestParts pkt).flatten = prefixOf false false ++ queryText (paramsFor pkt) := by
    rw [queryText_paramsFor h]
    exact flatten_requestParts pkt
  rw [doWrite_eq auth txbuf hmode]
  refine addTrailer_request hauth hsize hflat ?_
  have hquery := length_queryFor h
  have hheader : axisHeader.length = 26 := by decide
  rw [flatten_requestParts, List.length_append]
  omega

/-- **The request** for a preset. -/
theorem doWrite_presetRequest {auth : Option (List Byte)} (hauth : ∀ token ∈ auth, token.length ≤ 31)
    {txbuf : Buffer} (hsize : txbuf.size = bufferSize) (h : Bounded pkt)
    (hmode : ccpacketGetPresetMode pkt ≠ 0) :
    ∃ config, ∃ verb ∈ [ascii "goto", ascii "set", ascii "remove"],
      (doWrite auth txbuf pkt).1.data = (⟨cgiPath config, [presetParam verb pkt], auth⟩ : Request).text := by
  obtain ⟨config, verb, hverb, hwrite⟩ := doWrite_preset auth txbuf hmode
  refine ⟨config, verb, hverb, ?_⟩
  have hflat := flatten_presetParts config verb pkt
  rw [hwrite]
  refine addTrailer_request hauth hsize hflat ?_
  have hverbs : ∀ verb ∈ [ascii "goto", ascii "set", ascii "remove"], verb.length ≤ 6 := by decide
  have hheaders : ∀ config, (prefixOf false config).length ≤ 32 := by decide
  have hlens : (ascii "serverpresetname=").length = 17 ∧ (ascii "Pos").length = 3 := by decide
  have hlongVerb := hverbs verb hverb
  have hlongHeader := hheaders config
  have hdigits := @length_formatInt pkt.preset 3 (by decide) (by have hpreset := h.preset; omega)
  simp only [List.flatten_cons, List.flatten_nil, List.length_append, List.length_nil]
  omega

/-! ## The form of the request -/

/-- The value of a move is two numbers, but for the comma behind a tilt that is not 0. -/
theorem isMove_moveValue (h : Speeds pkt) : IsMove (moveValue pkt) ↔ pkt.tilt = 0 := by
  have hnumber : ∀ n, (0x2c : Byte) ∉ formatInt n := fun n => formatInt_separators n _ (by decide)
  constructor
  · intro hmove
    by_contra ht
    have hpieces := hmove.pieces
    rw [moveValue, if_pos ht, List.splitOn_append_cons_self_of_not_mem (hnumber _),
      List.splitOn_append_cons_self_of_not_mem (hnumber _), List.splitOn_nil] at hpieces
    cases hpieces
  · intro ht
    refine ⟨panValue pkt, tiltValue pkt, natAbs_panValue h, natAbs_tiltValue h, ?_⟩
    rw [moveValue, if_neg (not_not_intro ht), List.append_nil]

/-- The moves among the parameters of a packet without a preset. -/
theorem moves_paramsFor (h : Speeds pkt) :
    (∀ param ∈ paramsFor pkt, param.1 = ascii "continuouspantiltmove" → IsMove param.2) ↔
      (ccpacketHasPan pkt || ccpacketHasTilt pkt) = false ∨ pkt.tilt = 0 := by
  have hlens : ∀ param ∈ lensParams pkt, param.1 = ascii "continuouspantiltmove" → IsMove param.2 :=
    fun param hparam hname => absurd hname (lensParams_spec hparam).1
  rw [← isMove_moveValue h]
  unfold paramsFor
  by_cases hmove : (ccpacketHasPan pkt || ccpacketHasTilt pkt) = true
  · rw [if_pos (hasCommand_of_moves hmove), if_pos hmove, hmove]
    constructor
    · exact fun hall => Or.inr (hall _ List.mem_cons_self rfl)
    · rintro (hno | hvalue) param hparam hname
      · cases hno
      · rcases List.mem_cons.mp hparam with rfl | hparam
        · exact hvalue
        · exact hlens param hparam hname
  · refine iff_of_true ?_ (Or.inl (Bool.not_eq_true _ ▸ hmove))
    rw [if_neg hmove]
    split
    · exact hlens
    · intro param hparam _
      rw [List.mem_singleton.mp hparam]
      exact ⟨0, 0, by decide, by decide, by decide⟩

/-! ## Which requests are well formed -/

/-- A token the configuration can have. -/
structure Token (token : List Byte) : Prop where
  length : token.length ≤ 31
  word : ∀ c ∈ whitespace, c ∉ token

theorem Token.authOf {token : List Byte} (h : Token token) :
    ∀ auth ∈ authOf token, auth.length ≤ 31 ∧ auth ≠ [] ∧ ∀ c ∈ whitespace, c ∉ auth := by
  intro auth hauth
  unfold Axis.authOf at hauth
  split at hauth
  · rename_i hlen
    obtain rfl := Option.some.inj hauth
    exact ⟨h.length, List.length_pos_iff.mp hlen, h.word⟩
  · cases hauth

/-- **Which packets become a well-formed request**: presets, stops and lens commands, and a pan
without a tilt speed. Any tilt speed leaves a comma behind the two numbers. -/
theorem writesRequest_iff (token : List Byte) (txbuf : Buffer) (pkt : Ccpacket) (htoken : Token token)
    (hsize : txbuf.size = bufferSize) (h : Protozoa.Deliverable pkt) :
    WritesRequest token txbuf pkt ↔ ccpacketGetPresetMode pkt ≠ 0 ∨
      (ccpacketHasPan pkt || ccpacketHasTilt pkt) = false ∨ pkt.tilt = 0 := by
  have hbounded := h.bounded
  have hspeeds : Speeds pkt := ⟨hbounded.pan, hbounded.tilt⟩
  have hauth := htoken.authOf
  have hshort : ∀ auth ∈ authOf token, auth.length ≤ 31 := fun auth hmem => (hauth auth hmem).1
  have hword : ∀ auth ∈ authOf token, auth ≠ [] ∧ ∀ c ∈ whitespace, c ∉ auth :=
    fun auth hmem => (hauth auth hmem).2
  by_cases hmode : ccpacketGetPresetMode pkt = 0
  · have hdata := doWrite_request hshort hsize hspeeds hmode
    have hshaped : (⟨cgiPath false, paramsFor pkt, authOf token⟩ : Request).Shaped :=
      ⟨mem_cgiPaths false, paramsFor_ne_nil pkt, plain_paramsFor, hword⟩
    rw [or_iff_right (not_not_intro hmode), ← moves_paramsFor hspeeds]
    constructor
    · rintro ⟨r, hr, -, htext⟩
      have hparams : r.params = paramsFor pkt := by
        rw [← paramsOf_text hr.toShaped, ← htext, hdata, paramsOf_text hshaped]
      exact hparams ▸ hr.move
    · exact fun hmoves => ⟨_, ⟨hshaped, hmoves⟩, rfl, hdata⟩
  · obtain ⟨config, verb, hverb, hdata⟩ := doWrite_presetRequest hshort hsize hbounded hmode
    obtain ⟨hne, hplain⟩ := @presetParam_spec pkt verb hverb
    refine iff_of_true ⟨_, ⟨⟨mem_cgiPaths config, List.cons_ne_nil _ _, ?_, hword⟩, ?_⟩, rfl, hdata⟩
      (Or.inl hmode)
    · intro param hparam
      rw [List.mem_singleton.mp hparam]
      exact hplain
    · intro param hparam hname
      rw [List.mem_singleton.mp hparam] at hname
      exact absurd hname hne

/-- Tilt up, as a Pelco D reader makes it of `FF 01 00 08 00 3F 48`. -/
def tiltUp : Ccpacket := ⟨1, ccPanLeft ||| ccTiltUp, 0, 2016, 0, ⟨15, 0⟩⟩

theorem deliverable_tiltUp : Protozoa.Deliverable tiltUp :=
  ⟨.pelcoD, ⟨0, 0⟩, 15000, 0, [⟨0, 1, 1024, 0⟩], [0xff, 0x01, 0x00, 0x08, 0x00, 0x3f, 0x48], [7], _, _,
    rfl, by decide⟩

theorem writesRequest_iff_tiltUp : WritesRequest (ascii "dXNlcg==") (bufferInit bufferSize) tiltUp ↔
    ccpacketGetPresetMode tiltUp ≠ 0 ∨ (ccpacketHasPan tiltUp || ccpacketHasTilt tiltUp) = false ∨
      tiltUp.tilt = 0 :=
  writesRequest_iff (ascii "dXNlcg==") (bufferInit bufferSize) tiltUp ⟨by decide, by decide⟩ rfl
    deliverable_tiltUp

/-- The request to tilt up has the value `0,99,`. -/
theorem not_writesRequest : ¬∀ (token : List Byte) (txbuf : Buffer) (pkt : Ccpacket), Token token →
    txbuf.size = bufferSize → Protozoa.Deliverable pkt → WritesRequest token txbuf pkt := by
  intro hall
  obtain ⟨r, hr, -, hdata⟩ := hall [] (bufferInit bufferSize) tiltUp ⟨by decide, by decide⟩ rfl
    deliverable_tiltUp
  have hparam : (ascii "continuouspantiltmove", ascii "0,99,") ∈
      paramsOf (doWrite (authOf []) (bufferInit bufferSize) tiltUp).1.data := by decide +kernel
  rw [hdata, paramsOf_text hr.toShaped] at hparam
  exact absurd (hr.move _ hparam rfl).pieces (by decide)

end Protozoa.Axis
