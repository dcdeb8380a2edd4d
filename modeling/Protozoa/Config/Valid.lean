import Protozoa.Config

/-!
# What a configuration holds (`config.c`, `ccreader.c`, `ccwriter.c`)

`config_directive` (`config.c:252-285`) looks neither at what `ccreader_init` returns
(`ccreader.c:109-122`) nor at what `ccwriter_init` does (`ccwriter.c:98-117`), so a directive with
an unknown protocol leaves a reader without `do_read` or a writer without `do_write` and slots, and
the file is accepted; if the reader is there already, its protocol is not looked at at all.

* `Valid`: every reader has its `do_read`, every writer its `do_write` and the slots it needs.
  `Valid.configDirective` is the step lemma for a directive with known protocols.
* `readLines_reads`: what `config_read` does, by the lines of the file (`ReadsLines`).
* **`wellConfigured_iff`**: a file is treated as it must be if and only if the read stops at an
  invalid line or all protocols are known (`AllKnown`).
* `not_wellConfigured`: one line with the input protocol `foo`.
-/

namespace Protozoa.Configuration

open Engine

/-- The strings that `config_scan_directive` gets, if the read does not stop before the end of the
text. -/
def scannedLines (line text : List Char) : List (List Char) :=
  match _h : fgets line text with
  | none => []
  | some (line, rest) => cString (skipComments line) :: scannedLines (skipComments line) rest
termination_by text.length
decreasing_by exact length_fgets _h

/-- What the lines of a file hold. -/
def scans (text : List Char) : List Scanned := (scannedLines configInit.line text).map scan

/-- A directive names an input and an output protocol that there are. -/
structure Directive.Known (d : Directive) : Prop where
  protocolIn : (readerProtocol d.protocolIn).isSome
  protocolOut : (writerProtocol d.protocolOut).isSome

/-- Every reader can read, and every writer can write and defer. -/
structure Valid (cfg : Config) : Prop where
  readers : ∀ chn ∈ cfg.chns, ∀ rdr ∈ chn.reader, rdr.doRead.isSome
  writers : ∀ wtr ∈ cfg.writers, ∃ p : Protocol, wtr.doWrite = some p ∧ wtr.deferred = some p.nRcv.toNat

/-- What must hold of a file: if it is accepted, the configuration is valid, and with an unknown
protocol it is rejected, also by `config_verify`. -/
structure WellConfigured (now : Nat → Timeval) (errno : Int) (text : List Char) : Prop where
  accepted : 0 < (configRead now configInit (some text)).1 → Valid (configRead now configInit (some text)).2
  rejected : (∃ d, .directive d ∈ scans text ∧ ¬d.Known) →
    (configRead now configInit (some text)).1 < 0 ∧ configVerify now errno (some text) ≠ 0

variable {cfg : Config} {now : Timeval}

/-! ## The parts of a directive -/

theorem valid_configInit : Valid configInit := ⟨nofun, nofun⟩

/-- A change of a channel that leaves a reader that can read keeps a configuration valid. -/
theorem Valid.update (h : Valid cfg) (addr : Nat) {f : ConfChannel → ConfChannel}
    (hf : ∀ chn, (∀ rdr ∈ chn.reader, rdr.doRead.isSome) → ∀ rdr ∈ (f chn).reader, rdr.doRead.isSome) :
    Valid (cfg.update addr f) where
  readers := by
    intro chn hchn
    obtain ⟨chn₀, hchn₀, rfl⟩ := List.mem_map.mp hchn
    split
    · exact hf chn₀ (h.readers chn₀ hchn₀)
    · exact h.readers chn₀ hchn₀
  writers := h.writers

/-- Looking for a channel makes one without a reader, or none. -/
theorem configGetChannel_cases (cfg : Config) (name : List Char) (flags : BitVec 32) :
    (configGetChannel cfg name flags).2 = cfg ∨
      ∃ pname service flags', (configGetChannel cfg name flags).2 =
        (configNewChannel cfg pname service flags').2 := by
  unfold configGetChannel getChannel
  dsimp only
  split
  · exact Or.inl rfl
  · exact Or.inr ⟨_, _, _, rfl⟩

theorem Valid.configGetChannel (h : Valid cfg) (name : List Char) (flags : BitVec 32) :
    Valid (configGetChannel cfg name flags).2 := by
  obtain heq | ⟨pname, service, flags', heq⟩ := configGetChannel_cases cfg name flags
  · rwa [heq]
  · rw [heq]
    refine ⟨fun chn hchn => ?_, h.writers⟩
    rcases List.mem_cons.mp hchn with rfl | hchn
    · exact nofun
    · exact h.readers chn hchn

theorem line_configGetChannel (cfg : Config) (name : List Char) (flags : BitVec 32) :
    (configGetChannel cfg name flags).2.line = cfg.line := by
  obtain heq | ⟨pname, service, flags', heq⟩ := configGetChannel_cases cfg name flags
  · rw [heq]
  · rw [heq]
    rfl

theorem isSome_doRead_init {protocol : List Char} (h : (readerProtocol protocol).isSome) :
    (ccreaderInit now protocol).2.doRead.isSome := by
  obtain ⟨⟨doRead, timeout, flags⟩, hp⟩ := Option.isSome_iff_exists.mp h
  simp only [ccreaderInit, ccreaderSetProtocol, hp]
  rfl

theorem init_writer {protocol : List Char} (h : (writerProtocol protocol).isSome) (chn : Nat) (auth : List Char) :
    ∃ p : Protocol, (ccwriterInit chn protocol auth).2.doWrite = some p ∧
      (ccwriterInit chn protocol auth).2.deferred = some p.nRcv.toNat := by
  obtain ⟨p, hp⟩ := Option.isSome_iff_exists.mp h
  refine ⟨p, ?_⟩
  simp only [ccwriterInit, ccwriterSetProtocol, hp]
  exact ⟨rfl, rfl⟩

theorem Valid.addWriter (h : Valid cfg) {wtr : ConfWriter}
    (hwtr : ∃ p : Protocol, wtr.doWrite = some p ∧ wtr.deferred = some p.nRcv.toNat) :
    Valid { cfg with writers := wtr :: cfg.writers } :=
  ⟨h.readers, List.forall_mem_cons.mpr ⟨hwtr, h.writers⟩⟩

/-- **A directive** with known protocols keeps a configuration valid. -/
theorem Valid.configDirective {d : Directive} (h : Valid cfg) (hd : d.Known) :
    Valid (configDirective now cfg d).2 := by
  have hin := h.configGetChannel d.portIn flagListen
  have hnew : ∀ chn : ConfChannel, (∀ rdr ∈ chn.reader, rdr.doRead.isSome) →
      ∀ rdr ∈ (newReader now d.protocolIn chn).reader, rdr.doRead.isSome := by
    intro chn hchn
    unfold newReader
    split
    · rintro rdr hrdr
      obtain rfl := Option.mem_some.mp hrdr
      exact isSome_doRead_init hd.protocolIn
    · exact hchn
  have hout := (hin.update (Configuration.configGetChannel cfg d.portIn flagListen).1 hnew).configGetChannel
    d.portOut 0
  have hwriter := fun chnOut => hout.addWriter (init_writer hd.protocolOut chnOut d.authOut)
  refine Valid.update (Valid.update (hwriter _) _
    (f := fun chn => { chn with flags := chn.flags ||| channelFlagsOf d.protocolOut })
    fun _ h => h) _ fun chn hchn => ?_
  rintro rdr hrdr
  obtain ⟨rdr₀, hrdr₀, rfl⟩ := Option.map_eq_some_iff.mp hrdr
  exact hchn rdr₀ hrdr₀

theorem configDirective_spec (now : Timeval) (cfg : Config) (d : Directive) :
    (configDirective now cfg d).1 = 0 ∧ (configDirective now cfg d).2.line = cfg.line := by
  refine ⟨rfl, ?_⟩
  exact (line_configGetChannel _ d.portOut 0).trans (line_configGetChannel cfg d.portIn flagListen)

/-! ## The lines of a file -/

theorem readLines_nil {now : Nat → Timeval} {text : List Char} (h : fgets cfg.line text = none) :
    readLines now cfg text = ((cfg.nChannels : Int), cfg) := by
  rw [readLines]
  split
  · rfl
  · rename_i heq
    rw [h] at heq
    cases heq

theorem readLines_cons {now : Nat → Timeval} {text line rest : List Char}
    (h : fgets cfg.line text = some (line, rest)) :
    readLines now cfg text =
      let x := configScanDirective (now rest.length) { cfg with line := skipComments line }
      if x.1 ≠ 0 then (-1, x.2) else readLines now x.2 rest := by
  rw [readLines]
  split
  · rename_i heq
    rw [h] at heq
    cases heq
  · rename_i line' rest' heq
    rw [h, Option.some.injEq, Prod.mk.injEq] at heq
    obtain ⟨rfl, rfl⟩ := heq
    rfl

theorem scannedLines_nil {line text : List Char} (h : fgets line text = none) : scannedLines line text = [] := by
  rw [scannedLines]
  split
  · rfl
  · rename_i heq
    rw [h] at heq
    cases heq

theorem scannedLines_cons {line text line' rest : List Char} (h : fgets line text = some (line', rest)) :
    scannedLines line text = cString (skipComments line') :: scannedLines (skipComments line') rest := by
  rw [scannedLines]
  split
  · rename_i heq
    rw [h] at heq
    cases heq
  · rename_i line₁ rest₁ heq
    rw [h, Option.some.injEq, Prod.mk.injEq] at heq
    obtain ⟨rfl, rfl⟩ := heq
    rfl

/-- A line with a directive, and those behind it. -/
theorem readLines_directive {now : Nat → Timeval} {text line rest : List Char} {d : Directive}
    (h : fgets cfg.line text = some (line, rest)) (hscan : scan (cString (skipComments line)) = .directive d) :
    readLines now cfg text =
      readLines now (configDirective (now rest.length) { cfg with line := skipComments line } d).2 rest := by
  have hx : configScanDirective (now rest.length) { cfg with line := skipComments line } =
      configDirective (now rest.length) { cfg with line := skipComments line } d := by
    rw [configScanDirective]
    dsimp only
    rw [hscan]
  rw [readLines_cons h, hx]
  exact if_neg fun hrc => hrc (configDirective_spec _ _ d).1

/-- The directives of some lines have known protocols. -/
def AllKnown (lines : List Scanned) : Prop := ∀ d, .directive d ∈ lines → d.Known

/-- What reading lines does: it stops at an invalid one, or takes all directives and returns the
number of channels. -/
inductive ReadsLines (cfg : Config) (lines : List Scanned) (result : Int × Config) : Prop
  | stops (hinvalid : .invalid ∈ lines) (hrc : result.1 = -1)
  | takes (hinvalid : .invalid ∉ lines) (hrc : 0 ≤ result.1) (hvalid : Valid cfg → AllKnown lines → Valid result.2)

/-- A line that is not invalid, read before the others. -/
theorem ReadsLines.cons {cfg' : Config} {line : Scanned} {lines : List Scanned} {result : Int × Config}
    (h : ReadsLines cfg' lines result) (hline : line ≠ .invalid)
    (hvalid : Valid cfg → AllKnown [line] → Valid cfg') : ReadsLines cfg (line :: lines) result := by
  cases h with
  | stops hinvalid hrc => exact .stops (List.mem_cons_of_mem _ hinvalid) hrc
  | takes hinvalid hrc hrest =>
    refine .takes (fun hmem => ?_) hrc fun h hknown => ?_
    · rcases List.mem_cons.mp hmem with heq | hmem
      · exact hline heq.symm
      · exact hinvalid hmem
    · refine hrest (hvalid h fun d hd => ?_) fun d hd => hknown d (List.mem_cons_of_mem _ hd)
      exact hknown d (List.mem_singleton.mp hd ▸ List.mem_cons_self)

/-- **Reading a file**, line by line. -/
theorem readLines_reads (now : Nat → Timeval) (text : List Char) (cfg : Config) :
    ReadsLines cfg ((scannedLines cfg.line text).map scan) (readLines now cfg text) := by
  induction hn : text.length using Nat.strong_induction_on generalizing text cfg with
  | _ n ih =>
    cases hget : fgets cfg.line text with
    | none =>
      rw [readLines_nil hget, scannedLines_nil hget]
      exact .takes List.not_mem_nil (Int.natCast_nonneg _) fun h _ => h
    | some x =>
      obtain ⟨line, rest⟩ := x
      have hrest := ih rest.length (hn ▸ length_fgets hget) rest
      have hsame : Valid cfg → Valid { cfg with line := skipComments line } := fun h => ⟨h.readers, h.writers⟩
      rw [scannedLines_cons hget, List.map_cons]
      cases hscan : scan (cString (skipComments line)) with
      | blank =>
        have hx : configScanDirective (now rest.length) { cfg with line := skipComments line } =
            (0, { cfg with line := skipComments line }) := by
          rw [configScanDirective]
          dsimp only
          rw [hscan]
        rw [readLines_cons hget, hx]
        exact (hrest { cfg with line := skipComments line } rfl).cons nofun fun h _ => hsame h
      | invalid =>
        have hx : configScanDirective (now rest.length) { cfg with line := skipComments line } =
            (-1, { cfg with line := skipComments line }) := by
          rw [configScanDirective]
          dsimp only
          rw [hscan]
        rw [readLines_cons hget, hx]
        exact .stops List.mem_cons_self rfl
      | directive d =>
        have hrest := hrest (configDirective (now rest.length) { cfg with line := skipComments line } d).2 rfl
        rw [(configDirective_spec _ _ d).2] at hrest
        rw [readLines_directive hget hscan]
        exact hrest.cons nofun fun h hknown => (hsame h).configDirective (hknown d List.mem_cons_self)

/-- **A file is treated as it must be** if and only if the read stops at an invalid line or all
protocols are known. -/
theorem wellConfigured_iff (now : Nat → Timeval) (errno : Int) (text : List Char) :
    WellConfigured now errno text ↔ .invalid ∈ scans text ∨ AllKnown (scans text) := by
  have hreads : ReadsLines configInit (scans text) (configRead now configInit (some text)) :=
    readLines_reads now text configInit
  cases hreads with
  | stops hinvalid hrc =>
    have hverify : configVerify now errno (some text) ≠ 0 := by
      unfold configVerify
      rw [hrc, if_pos (by decide)]
      split
      · assumption
      · decide
    refine ⟨fun _ => Or.inl hinvalid, fun _ => ⟨fun hpos => ?_, fun _ => ⟨?_, hverify⟩⟩⟩
    · rw [hrc] at hpos
      exact absurd hpos (by decide)
    · rw [hrc]
      decide
  | takes hinvalid hrc hvalid =>
    constructor
    · intro h
      refine Or.inr fun d hd => ?_
      by_contra hunknown
      exact absurd (h.rejected ⟨d, hd, hunknown⟩).1 (Int.not_lt.mpr hrc)
    · rintro (h | hknown)
      · exact absurd h hinvalid
      · refine ⟨fun _ => hvalid valid_configInit hknown, ?_⟩
        rintro ⟨d, hd, hunknown⟩
        exact absurd (hknown d hd) hunknown

/-- A directive with an input protocol that there is not. -/
def unknownInput : List Char := "foo /dev/a 1 vicon /dev/b\n".toList

set_option maxRecDepth 4000 in
theorem fgets_unknownInput : ∃ line, fgets configInit.line unknownInput = some (line, []) ∧
    scan (cString (skipComments line)) =
      .directive ⟨"foo".toList, "/dev/a".toList, "1".toList, "vicon".toList, "/dev/b".toList, ['0'], []⟩ :=
  ⟨_, rfl, rfl⟩

/-- The file with this directive alone is accepted with two channels, of which one has a reader that
cannot read, and `config_verify` has nothing against it. -/
theorem not_wellConfigured :
    (configRead (fun _ => ⟨0, 0⟩) configInit (some unknownInput)).1 = 2 ∧
    configVerify (fun _ => ⟨0, 0⟩) 0 (some unknownInput) = 0 ∧
    (∃ chn ∈ (configRead (fun _ => ⟨0, 0⟩) configInit (some unknownInput)).2.chns, ∃ rdr ∈ chn.reader,
      rdr.doRead = none) ∧
    ¬WellConfigured (fun _ => ⟨0, 0⟩) 0 unknownInput := by
  obtain ⟨line, hget, hscan⟩ := fgets_unknownInput
  have hread : ∃ line, configRead (fun _ => ⟨0, 0⟩) configInit (some unknownInput) =
      ((2 : Int), (configDirective ⟨0, 0⟩ { configInit with line := line }
        ⟨"foo".toList, "/dev/a".toList, "1".toList, "vicon".toList, "/dev/b".toList, ['0'], []⟩).2) := by
    refine ⟨skipComments line, ?_⟩
    show readLines _ _ _ = _
    rw [readLines_directive hget hscan]
    exact readLines_nil rfl
  obtain ⟨line, hread⟩ := hread
  have hverify : configVerify (fun _ => ⟨0, 0⟩) 0 (some unknownInput) = 0 := by
    rw [configVerify, hread]
    rfl
  have hhalf : ∃ chn ∈ (configRead (fun _ => ⟨0, 0⟩) configInit (some unknownInput)).2.chns, ∃ rdr ∈ chn.reader,
      rdr.doRead = none := by
    rw [hread]
    exact ⟨_, List.mem_cons_of_mem _ List.mem_cons_self, _, rfl, rfl⟩
  refine ⟨by rw [hread], hverify, hhalf, fun h => ?_⟩
  obtain ⟨chn, hchn, rdr, hrdr, hnone⟩ := hhalf
  have hpos : 0 < (configRead (fun _ => ⟨0, 0⟩) configInit (some unknownInput)).1 := by
    rw [hread]
    exact two_pos
  have hsome := (h.accepted hpos).readers chn hchn rdr hrdr
  rw [hnone] at hsome
  cases hsome

end Protozoa.Configuration
