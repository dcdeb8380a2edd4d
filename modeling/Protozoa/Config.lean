import Protozoa.Ccnode
import Protozoa.Channel
import Protozoa.Engine.Writer
import Protozoa.Protocol.Deliver

/-!
# The configuration file (`config.c`)

Model of `struct config` (`config.h:10-21`) and of the functions that fill it. Each line of the file
may hold a directive, which links a port to read with a port to write. Channels are made as
directives name them and have one reader at most; every directive makes a writer.

* `configGetChannel` (`config.c:92-127`, `203-230`) looks a channel up by name, service and flags
  (`channel_matches`, `channel.c:102-111`) and makes one if there is none; `copyName`, `parseName`
  and `parseService` (`config.c:132-193`) are the texts it is looked up with.
* `configDirective` (`config.c:252-285`): the reader of the input channel, the writer, and a node
  between them.
* `configScanDirective` (`config.c:303-326`) reads a line with `sscanf`, after `skipComments`
  (`config.c:290-296`) has cut it; `fgets` takes the file in pieces of 255 characters.
* `configRead` (`config.c:334-353`) goes on until the end of the file or an error, and
  `configVerify` (`config.c:373-385`) reads a changed file into a configuration of its own.
* `readerProtocol` and `writerProtocol` are the protocols `ccreader_set_protocol`
  (`ccreader.c:37-62`) and `ccwriter_set_protocol` (`ccwriter.c:52-88`) know.

A pointer to a channel is its address. What a function leaves as it stood in the memory of a pool is
`none`. Characters are those of the C locale. The text of the file is a list of characters, and
`now n` is what `gettimeofday` returns when `n` characters are left to read.

Out of scope here: memory that is asked for and not there, and what is given back
(`Program/Reload.lean`); the names of readers and the messages of the log.
-/

namespace Protozoa.Configuration

open Lib.Scanf Engine

/-- `LINE_LENGTH`. -/
def lineLength : Nat := 256

/-- `DEFAULT_TIMEOUT`. -/
def defaultTimeout : Nat := 1000

/-- `strcasecmp(s, t) == 0`. -/
def strcasecmp (s t : List Char) : Bool := s.map Char.toLower == t.map Char.toLower

/-! ## Readers and writers -/

/-- `struct ccreader`, with its `do_read`. -/
structure ConfReader extends Ccreader where
  doRead : Option Reader

/-- What `ccreader_set_protocol` sets for a name: `do_read`, the timeout and the flags. -/
def readerProtocol (protocol : List Char) : Option (Reader × Nat × BitVec 32) :=
  if strcasecmp protocol "joystick".toList then some (.joystick, Joystick.joystickTimeout, 0)
  else if strcasecmp protocol "manchester".toList then some (.manchester, Manchester.manchesterTimeout, 0)
  else if strcasecmp protocol "pelco_d".toList then some (.pelcoD, PelcoD.pelcoDTimeout, 0)
  else if strcasecmp protocol "pelco_p".toList then some (.pelcoP, PelcoD.pelcoDTimeout, 0)
  else if strcasecmp protocol "pelco_p7".toList then some (.pelcoP, PelcoP.pelcoPTimeout, ptDeadzone)
  else if strcasecmp protocol "vicon".toList then some (.vicon, Vicon.viconTimeout, 0)
  else none

/-- `ccreader_set_protocol`, of a reader without flags. -/
def ccreaderSetProtocol (rdr : ConfReader) (protocol : List Char) : Int × ConfReader :=
  match readerProtocol protocol with
  | some (doRead, timeout, flags) => (0, { rdr with doRead := some doRead, timeout := timeout, flags := flags })
  | none => (-1, rdr)

/-- `ccreader_init`: whether it returns the reader, and what the reader is then. -/
def ccreaderInit (now : Timeval) (protocol : List Char) : Bool × ConfReader :=
  let rdr : ConfReader := { Protozoa.ccreaderInit now defaultTimeout 0 with doRead := none }
  let (rc, rdr) := ccreaderSetProtocol rdr protocol
  (decide (rc ≥ 0), rdr)

/-- `struct ccwriter`, with the number of its slots for deferred packets, `none` for a null pointer.
-/
structure ConfWriter where
  doWrite : Option Protocol
  chn : Nat
  deferred : Option Nat
  nRcv : Nat
  gaptime : Option Nat
  timeout : Nat
  auth : Option (List Char)

/-- The protocol that `ccwriter_set_protocol` knows by a name. -/
def writerProtocol (protocol : List Char) : Option Protocol :=
  if strcasecmp protocol "manchester".toList then some .manchester
  else if strcasecmp protocol "infinova_d".toList then some .infinovaD
  else if strcasecmp protocol "pelco_d".toList then some .pelcoD
  else if strcasecmp protocol "pelco_p".toList then some .pelcoP
  else if strcasecmp protocol "vicon".toList then some .vicon
  else if strcasecmp protocol "axis".toList then some .axis
  else none

/-- `ccwriter_set_receivers`. -/
def ccwriterSetReceivers (wtr : ConfWriter) (nRcv : Nat) : Int × ConfWriter :=
  (0, { wtr with deferred := some nRcv, nRcv := nRcv })

/-- `ccwriter_set_protocol`, what it does to the writer. -/
def ccwriterSetProtocol (wtr : ConfWriter) (protocol : List Char) : Int × ConfWriter :=
  match writerProtocol protocol with
  | some p =>
    ccwriterSetReceivers { wtr with doWrite := some p, gaptime := some p.gaptime, timeout := p.timeout } p.nRcv.toNat
  | none => (-1, wtr)

/-- The flags that `ccwriter_set_protocol` adds to those of the channel. -/
def channelFlagsOf (protocol : List Char) : BitVec 32 :=
  if writerProtocol protocol = some .axis then flagRespRequired else 0

/-- `ccwriter_init`: whether it returns the writer, and what the writer is then. -/
def ccwriterInit (chn : Nat) (protocol auth : List Char) : Bool × ConfWriter :=
  let wtr : ConfWriter :=
    { doWrite := none, chn := chn, deferred := none, nRcv := 0, gaptime := none, timeout := defaultTimeout
      auth := if auth = [] then none else some auth }
  let (rc, wtr) := ccwriterSetProtocol wtr protocol
  (decide (rc ≥ 0), wtr)

/-! ## Channels -/

/-- `struct channel`, as a configuration makes it. -/
structure ConfChannel where
  addr : Nat
  name : List Char
  service : List Char
  flags : BitVec 32
  reader : Option ConfReader

/-- `struct config`, with the channels and the writers, the latest first. -/
structure Config where
  line : List Char
  chns : List ConfChannel
  writers : List ConfWriter
  nChannels : Nat

/-- `config_init`. -/
def configInit : Config := ⟨List.replicate lineLength '\x00', [], [], 0⟩

/-- A change of the channel at an address. -/
def Config.update (cfg : Config) (addr : Nat) (f : ConfChannel → ConfChannel) : Config :=
  { cfg with chns := cfg.chns.map fun chn => if chn.addr = addr then f chn else chn }

/-- `channel_init`. -/
def channelInit (addr : Nat) (name service : List Char) (flags : BitVec 32) : ConfChannel where
  addr := addr
  name := name.take 31
  service := service.take 31
  flags := flags
  reader := none

/-- `channel_flags`, by the name of the channel. -/
def channelFlags (name : List Char) : BitVec 32 :=
  if name.head? = some '/' then flagUdp ||| flagTcp else flagUdp ||| flagTcp ||| flagListen

/-- `channel_matches`. -/
def channelMatches (name service : List Char) (flags : BitVec 32) (chn : ConfChannel) : Bool :=
  chn.name == name && (chn.service == service &&
    channelFlags chn.name &&& chn.flags == channelFlags chn.name &&& flags)

/-- `config_find_channel`. -/
def configFindChannel (cfg : Config) (name service : List Char) (flags : BitVec 32) : Option ConfChannel :=
  cfg.chns.find? (channelMatches name service flags)

/-- `config_new_channel`. -/
def configNewChannel (cfg : Config) (name service : List Char) (flags : BitVec 32) : Nat × Config :=
  (cfg.nChannels,
    { cfg with
      chns := channelInit cfg.nChannels name service flags :: cfg.chns
      nChannels := cfg.nChannels + 1 })

/-- `strrchr(s, ':')`: what stands before the last colon and what stands behind it. -/
def lastColon : List Char → Option (List Char × List Char)
  | [] => none
  | c :: s =>
    match lastColon s with
    | some (before, after) => some (c :: before, after)
    | none => if c = ':' then some ([], s) else none

/-- `copy_name`, to a buffer of `plen` characters. -/
def copyName (name : List Char) (plen : Nat) : List Char :=
  match lastColon name with
  | some (before, _) => before.take (plen - 1)
  | none => name.take (plen - 1)

/-- `parse_name`. -/
def parseName (name : List Char) (plen : Nat) : BitVec 32 × List Char :=
  if "udp://".toList.isPrefixOf name then (flagUdp, copyName (name.drop 6) plen)
  else if "tcp://".toList.isPrefixOf name then (flagTcp, copyName (name.drop 6) plen)
  else (0, copyName name plen)

/-- `parse_service`. -/
def parseService (name : List Char) (plen : Nat) : List Char :=
  match lastColon name with
  | some (_, after) => after.take (plen - 1)
  | none => []

/-- `_config_get_channel`. -/
def getChannel (cfg : Config) (name service : List Char) (flags : BitVec 32) : Nat × Config :=
  match configFindChannel cfg name service flags with
  | some chn => (chn.addr, cfg)
  | none => configNewChannel cfg name service flags

/-- `config_get_channel`. -/
def configGetChannel (cfg : Config) (name : List Char) (flags : BitVec 32) : Nat × Config :=
  let (parsed, pname) := parseName name 32
  getChannel cfg pname (parseService name 32) (flags ||| parsed)

/-! ## Directives -/

/-- The arguments of `config_directive`. -/
structure Directive where
  protocolIn : List Char
  portIn : List Char
  range : List Char
  protocolOut : List Char
  portOut : List Char
  shift : List Char
  authOut : List Char
  deriving DecidableEq

/-- `if(chn_in->reader == NULL) …`: what `ccreader_init` returns is not looked at. -/
def newReader (now : Timeval) (protocol : List Char) (chn : ConfChannel) : ConfChannel :=
  match chn.reader with
  | none => { chn with reader := some (ccreaderInit now protocol).2 }
  | some _ => chn

/-- `ccreader_add_writer`, to the reader of a channel. -/
def addWriter (writer : Nat) (range shift : List Char) (chn : ConfChannel) : ConfChannel :=
  { chn with
    reader := chn.reader.map fun rdr =>
      { rdr with toCcreader := ccreaderAddWriter rdr.toCcreader (ccnodeOf writer range shift) } }

/-- `config_directive`: what `ccwriter_init` returns is not looked at. All writers have the one
`cfg->defer`. -/
def configDirective (now : Timeval) (cfg : Config) (d : Directive) : Int × Config :=
  let (chnIn, cfg) := configGetChannel cfg d.portIn flagListen
  let cfg := cfg.update chnIn (newReader now d.protocolIn)
  let (chnOut, cfg) := configGetChannel cfg d.portOut 0
  let writer := cfg.writers.length
  let cfg := { cfg with writers := (ccwriterInit chnOut d.protocolOut d.authOut).2 :: cfg.writers }
  let cfg := cfg.update chnOut fun chn => { chn with flags := chn.flags ||| channelFlagsOf d.protocolOut }
  (0, cfg.update chnIn (addWriter writer d.range d.shift))

/-! ## Lines -/

/-- What `fgets` takes of a text: up to a newline, and at most `n` characters. -/
def takeLine : Nat → List Char → List Char × List Char
  | 0, text => ([], text)
  | _ + 1, [] => ([], [])
  | n + 1, c :: text =>
    if c = '\n' then ([c], text)
    else
      let (l, rest) := takeLine n text
      (c :: l, rest)

/-- `fgets(line, LINE_LENGTH, f)`, and the text that is left; behind the end of the line the buffer
stays as it is. -/
def fgets (line text : List Char) : Option (List Char × List Char) :=
  if text = [] then none
  else
    let (l, rest) := takeLine (lineLength - 1) text
    some (l ++ '\x00' :: line.drop (l.length + 1), rest)

/-- `config_skip_comments`. -/
def skipComments (line : List Char) : List Char := line.map fun c => if c = '#' then '\x00' else c

/-- The string in a buffer. -/
def cString (line : List Char) : List Char := line.takeWhile (· ≠ '\x00')

/-- What a line holds. -/
inductive Scanned where
  | blank
  | invalid
  | directive (d : Directive)
  deriving DecidableEq

/-- The `sscanf` of `config_scan_directive`, and what is made of its result. -/
def scan (s : List Char) : Scanned :=
  match sscanf [word 15, word 31, word 7, word 15, word 31, word 7, word 31] s with
  | [] => .blank
  | [protocolIn, portIn, range, protocolOut, portOut] =>
    .directive ⟨protocolIn, portIn, range, protocolOut, portOut, ['0'], []⟩
  | [protocolIn, portIn, range, protocolOut, portOut, shift] =>
    .directive ⟨protocolIn, portIn, range, protocolOut, portOut, shift, []⟩
  | [protocolIn, portIn, range, protocolOut, portOut, shift, authOut] =>
    .directive ⟨protocolIn, portIn, range, protocolOut, portOut, shift, authOut⟩
  | _ => .invalid

/-- `config_scan_directive`. -/
def configScanDirective (now : Timeval) (cfg : Config) : Int × Config :=
  match scan (cString cfg.line) with
  | .blank => (0, cfg)
  | .invalid => (-1, cfg)
  | .directive d => configDirective now cfg d

theorem length_takeLine (n : Nat) (text : List Char) :
    (takeLine n text).1.length + (takeLine n text).2.length = text.length := by
  induction n generalizing text with
  | zero => exact Nat.zero_add _
  | succ n ih =>
    cases text with
    | nil => rfl
    | cons c text =>
      unfold takeLine
      by_cases hc : c = '\n'
      · rw [if_pos hc]
        exact Nat.add_comm _ _
      · rw [if_neg hc]
        have := ih text
        show ((takeLine n text).1.length + 1) + (takeLine n text).2.length = text.length + 1
        omega

/-- A line has one character at least. -/
theorem length_fgets {line text line' rest : List Char} (h : fgets line text = some (line', rest)) :
    rest.length < text.length := by
  unfold fgets at h
  by_cases hnil : text = []
  · rw [if_pos hnil] at h
    cases h
  · rw [if_neg hnil, Option.some.injEq, Prod.mk.injEq] at h
    obtain ⟨-, rfl⟩ := h
    obtain ⟨c, text, rfl⟩ := List.exists_cons_of_ne_nil hnil
    have hlen := length_takeLine (lineLength - 1) (c :: text)
    have hpos : 0 < (takeLine (lineLength - 1) (c :: text)).1.length := by
      show 0 < (if c = '\n' then _ else _ : List Char × List Char).1.length
      split
      · exact Nat.one_pos
      · exact Nat.succ_pos _
    omega

/-- `while(fgets(cfg->line, LINE_LENGTH, f) == cfg->line) …` of `config_read`, with what it returns.
-/
def readLines (now : Nat → Timeval) (cfg : Config) (text : List Char) : Int × Config :=
  match _h : fgets cfg.line text with
  | none => (cfg.nChannels, cfg)
  | some (line, rest) =>
    let (rc, cfg) := configScanDirective (now rest.length) { cfg with line := skipComments line }
    if rc ≠ 0 then (-1, cfg) else readLines now cfg rest
termination_by text.length
decreasing_by exact length_fgets _h

/-- `config_read`, of a file with this text; `none` if it cannot be opened. -/
def configRead (now : Nat → Timeval) (cfg : Config) : Option (List Char) → Int × Config
  | none => (-1, cfg)
  | some text => readLines now cfg text

/-- `config_verify`, with the `errno` it finds. -/
def configVerify (now : Nat → Timeval) (errno : Int) (file : Option (List Char)) : Int :=
  if (configRead now configInit file).1 ≤ 0 then if errno ≠ 0 then errno else -1 else 0

end Protozoa.Configuration
