import Protozoa.Config.Comments

/-!
# From the directives to the routes (`config.c`)

A directive names two ports. Each port that is named has one channel, whichever directives name it
(`Port`), and the channel of an input port has one reader, of the protocol that the first of them
asks for (`config.c:266-273`). Every directive makes a writer of its own (`config.c:234-239`), for
the channel of its output port, and a node of the reader that leads to this writer.

* `channelMatches_iff`: which channels count as one port: the name and the service have to be the
  same, and those of the flags that matter for a channel of the name.
* `configDirective_extends`: what one directive does to the channels (`Extends`): there are channels
  for some more ports, and the others stay where they are.
* `Routes`: the configuration that a list of directives asks for, said without the order in which it
  is built.
* **`configRead_spec`**: the routes of a configuration are those that the directives of the file ask
  for.

Out of scope: files with an unknown protocol, of which `Config/Valid.lean` says what they leave.
-/

namespace Protozoa.Configuration

open Engine

/-- What a port is told from another one by: the name, the service, and the flags that matter for
this name. -/
structure Port where
  name : List Char
  service : List Char
  flags : BitVec 32
  deriving DecidableEq

/-- The port of a channel. -/
def ConfChannel.port (chn : ConfChannel) : Port := ⟨chn.name, chn.service, channelFlags chn.name &&& chn.flags⟩

/-- The port that a name in a directive stands for. -/
def portOf (name : List Char) (flags : BitVec 32) : Port :=
  let (parsed, pname) := parseName name 32
  ⟨pname, parseService name 32, channelFlags pname &&& (flags ||| parsed)⟩

/-- The port to read. -/
def Directive.input (d : Directive) : Port := portOf d.portIn flagListen

/-- The port to write. -/
def Directive.output (d : Directive) : Port := portOf d.portOut 0

/-- The channel of a port. -/
def Config.channelAt (cfg : Config) (port : Port) : Option ConfChannel :=
  cfg.chns.find? fun chn => decide (chn.port = port)

/-- The channels have different ports and different addresses. -/
structure Channels (cfg : Config) : Prop where
  ports : (cfg.chns.map ConfChannel.port).Nodup
  addrs : (cfg.chns.map ConfChannel.addr).Nodup
  below : ∀ chn ∈ cfg.chns, chn.addr < cfg.nChannels
  count : cfg.chns.length = cfg.nChannels

/-- The directives that name a port to read, with their numbers. -/
def directivesFrom (ds : List Directive) (port : Port) : List (Directive × Nat) :=
  ds.zipIdx.filter fun x => decide (x.1.input = port)

/-- The nodes that directives ask for, the latest first. -/
def nodesFrom (ds : List Directive) (port : Port) : List Ccnode :=
  ((directivesFrom ds port).map fun x => ccnodeOf x.2 x.1.range x.1.shift).reverse

/-- What the channel of a port has for a reader: none, or one of the protocol of the first
directive. -/
def ReaderFor (ds : List Directive) (port : Port) : Option ConfReader → Prop
  | none => ∀ d ∈ ds, d.input ≠ port
  | some rdr => ∃ d, ds.find? (fun d => decide (d.input = port)) = some d ∧
      rdr.doRead = (ccreaderInit ⟨0, 0⟩ d.protocolIn).2.doRead ∧
      rdr.timeout = (ccreaderInit ⟨0, 0⟩ d.protocolIn).2.timeout ∧
      rdr.flags = (ccreaderInit ⟨0, 0⟩ d.protocolIn).2.flags ∧ rdr.head = nodesFrom ds port

/-- **The routes** that directives ask for. -/
structure Routes (ds : List Directive) (cfg : Config) : Prop extends Channels cfg where
  named : ∀ port, (cfg.channelAt port).isSome ↔ ∃ d ∈ ds, port = d.input ∨ port = d.output
  reader : ∀ port, ReaderFor ds port ((cfg.channelAt port).bind ConfChannel.reader)
  writers : cfg.writers.length = ds.length
  writer : ∀ (i : Nat) (d : Directive), ds[i]? = some d → ∃ chn, cfg.channelAt d.output = some chn ∧
    cfg.writers.reverse[i]? = some (ccwriterInit chn.addr d.protocolOut d.authOut).2

variable {cfg : Config} {port : Port} {chn : ConfChannel}

/-! ## Looking up a channel -/

theorem channelAt_some (h : cfg.channelAt port = some chn) : chn ∈ cfg.chns ∧ chn.port = port := by
  have hport := List.find?_some h
  exact ⟨List.mem_of_find?_eq_some h, of_decide_eq_true hport⟩

theorem Channels.channelAt_port (h : Channels cfg) (hchn : chn ∈ cfg.chns) : cfg.channelAt chn.port = some chn := by
  have hsome : (cfg.channelAt chn.port).isSome :=
    List.find?_isSome.mpr ⟨chn, hchn, decide_eq_true rfl⟩
  obtain ⟨chn', hchn'⟩ := Option.isSome_iff_exists.mp hsome
  obtain ⟨hmem, hport⟩ := channelAt_some hchn'
  rw [hchn', List.inj_on_of_nodup_map h.ports hmem hchn hport]

theorem Channels.addr_inj (h : Channels cfg) {chn' : ConfChannel} (hchn : chn ∈ cfg.chns) (hchn' : chn' ∈ cfg.chns)
    (haddr : chn.addr = chn'.addr) : chn = chn' := List.inj_on_of_nodup_map h.addrs hchn hchn' haddr

theorem length_copyName_le (name : List Char) : (copyName name 32).length ≤ 31 := by
  unfold copyName
  split <;> exact List.length_take_le _ _

theorem length_parseName_le (name : List Char) : (parseName name 32).2.length ≤ 31 := by
  unfold parseName
  split_ifs <;> exact length_copyName_le _

theorem length_parseService_le (name : List Char) : (parseService name 32).length ≤ 31 := by
  unfold parseService
  split
  · exact List.length_take_le _ _
  · exact Nat.zero_le _

/-- A channel matches if it has the port. -/
theorem channelMatches_iff (name service : List Char) (flags : BitVec 32) (chn : ConfChannel) :
    channelMatches name service flags chn = decide (chn.port = ⟨name, service, channelFlags name &&& flags⟩) := by
  unfold channelMatches ConfChannel.port
  by_cases hname : chn.name = name
  · subst hname
    by_cases hservice : chn.service = service
    · subst hservice
      simp only [beq_self_eq_true, Bool.true_and, Port.mk.injEq, true_and]
      rfl
    · simp [hservice]
  · simp [hname]

/-- **Looking for a channel** finds that of the port, or makes one without a reader. -/
theorem configGetChannel_at (h : Channels cfg) (name : List Char) (flags : BitVec 32) :
    ∃ chn, (configGetChannel cfg name flags).2.channelAt =
        Function.update cfg.channelAt (portOf name flags) (some chn) ∧
      chn.addr = (configGetChannel cfg name flags).1 ∧
      (cfg.channelAt (portOf name flags) = some chn ∨ cfg.channelAt (portOf name flags) = none ∧ chn.reader = none) ∧
      Channels (configGetChannel cfg name flags).2 ∧
      (configGetChannel cfg name flags).2.writers = cfg.writers := by
  unfold configGetChannel getChannel configFindChannel portOf
  dsimp only
  have hname := length_parseName_le name
  have hservice := length_parseService_le name
  generalize (parseName name 32).2 = pname at hname ⊢
  generalize flags ||| (parseName name 32).1 = flags'
  generalize parseService name 32 = service at hservice ⊢
  have hfind : cfg.chns.find? (channelMatches pname service flags') =
      cfg.channelAt ⟨pname, service, channelFlags pname &&& flags'⟩ :=
    congrArg (List.find? · cfg.chns) (funext (channelMatches_iff pname service flags'))
  rw [hfind]
  cases hat : cfg.channelAt ⟨pname, service, channelFlags pname &&& flags'⟩ with
  | some chn =>
    have hself := Function.update_eq_self (⟨pname, service, channelFlags pname &&& flags'⟩ : Port) cfg.channelAt
    rw [hat] at hself
    exact ⟨chn, hself.symm, rfl, Or.inl rfl, h, rfl⟩
  | none =>
    set new := channelInit cfg.nChannels pname service flags' with hnew
    have hport : new.port = ⟨pname, service, channelFlags pname &&& flags'⟩ := by
      rw [hnew]
      unfold channelInit ConfChannel.port
      rw [List.take_of_length_le hname, List.take_of_length_le hservice]
    refine ⟨new, ?_, rfl, Or.inr ⟨rfl, rfl⟩, ?_, rfl⟩
    · funext port
      show (new :: cfg.chns).find? _ = _
      by_cases hp : new.port = port
      · have hpos : decide (new.port = port) = true := decide_eq_true hp
        rw [List.find?_cons, hpos, ← hp, hport, Function.update_self]
      · have hneg : decide (new.port = port) = false := decide_eq_false hp
        rw [List.find?_cons, hneg, Function.update_of_ne fun heq => hp (hport.trans heq.symm)]
        rfl
    · refine ⟨List.nodup_cons.mpr ⟨fun hmem => ?_, h.ports⟩, List.nodup_cons.mpr ⟨fun hmem => ?_, h.addrs⟩, ?_,
        ?_⟩
      · obtain ⟨chn, hchn, heq⟩ := List.mem_map.mp hmem
        have hsome := h.channelAt_port hchn
        rw [heq, hport, hat] at hsome
        cases hsome
      · obtain ⟨chn, hchn, heq⟩ := List.mem_map.mp hmem
        exact absurd heq (h.below chn hchn).ne
      · refine List.forall_mem_cons.mpr ⟨Nat.lt_succ_self _, fun chn hchn => ?_⟩
        exact Nat.lt_succ_of_lt (h.below chn hchn)
      · exact congrArg (· + 1) h.count

/-- **A change of a channel** that leaves its port and its address. -/
theorem update_at (h : Channels cfg) (hat : cfg.channelAt port = some chn) {f : ConfChannel → ConfChannel}
    (hf : ∀ chn, (f chn).port = chn.port ∧ (f chn).addr = chn.addr) :
    (cfg.update chn.addr f).channelAt = Function.update cfg.channelAt port (some (f chn)) ∧
      Channels (cfg.update chn.addr f) := by
  obtain ⟨hmem, hport⟩ := channelAt_some hat
  have hsame : ∀ c : ConfChannel, (if c.addr = chn.addr then f c else c).port = c.port ∧
      (if c.addr = chn.addr then f c else c).addr = c.addr := by
    intro c
    split
    · exact hf c
    · exact ⟨rfl, rfl⟩
  have hchannels : Channels (cfg.update chn.addr f) := by
    refine ⟨?_, ?_, fun c' hc' => ?_, (List.length_map _).trans h.count⟩
    · show ((cfg.chns.map _).map ConfChannel.port).Nodup
      rw [List.map_map, show ConfChannel.port ∘ (fun c => if c.addr = chn.addr then f c else c) = ConfChannel.port from
        funext fun c => (hsame c).1]
      exact h.ports
    · show ((cfg.chns.map _).map ConfChannel.addr).Nodup
      rw [List.map_map, show ConfChannel.addr ∘ (fun c => if c.addr = chn.addr then f c else c) = ConfChannel.addr from
        funext fun c => (hsame c).2]
      exact h.addrs
    · obtain ⟨c, hc, rfl⟩ := List.mem_map.mp hc'
      rw [(hsame c).2]
      exact h.below c hc
  refine ⟨funext fun port' => ?_, hchannels⟩
  have hfound : (cfg.update chn.addr f).channelAt port' =
      (cfg.channelAt port').map fun c => if c.addr = chn.addr then f c else c := by
    show (cfg.chns.map _).find? _ = _
    rw [List.find?_map]
    refine congrArg (Option.map _) (congrArg (List.find? · cfg.chns) (funext fun c => ?_))
    rw [Function.comp_apply, (hsame c).1]
  rw [hfound]
  by_cases hp : port' = port
  · rw [hp, hat, Function.update_self, Option.map_some, if_pos rfl]
  · rw [Function.update_of_ne hp]
    cases hat' : cfg.channelAt port' with
    | none => rfl
    | some c =>
      obtain ⟨hmem', hport'⟩ := channelAt_some hat'
      have hne : c.addr ≠ chn.addr := by
        intro haddr
        rw [h.addr_inj hmem' hmem haddr] at hport'
        exact hp (hport'.symm.trans hport)
      rw [Option.map_some, if_neg hne]

/-! ## One directive -/

/-- The reader of a port. -/
def Config.readerAt (cfg : Config) (port : Port) : Option ConfReader :=
  (cfg.channelAt port).bind ConfChannel.reader

/-- There are channels for some more ports, and the others stay where they are. -/
structure Extends (cfg cfg' : Config) (ports : List Port) : Prop where
  channels : Channels cfg'
  isSome : ∀ port, (cfg'.channelAt port).isSome ↔ (cfg.channelAt port).isSome ∨ port ∈ ports
  addr : ∀ port, ∀ chn ∈ cfg.channelAt port, ∃ chn' ∈ cfg'.channelAt port, chn'.addr = chn.addr

theorem Extends.trans {cfg' cfg'' : Config} {ports ports' : List Port} (h : Extends cfg cfg' ports)
    (h' : Extends cfg' cfg'' ports') : Extends cfg cfg'' (ports ++ ports') := by
  refine ⟨h'.channels, fun port => ?_, fun port chn hchn => ?_⟩
  · rw [h'.isSome, h.isSome, List.mem_append, or_assoc]
  · obtain ⟨chn', hchn', haddr⟩ := h.addr port chn hchn
    obtain ⟨chn'', hchn'', haddr'⟩ := h'.addr port chn' hchn'
    exact ⟨chn'', hchn'', haddr'.trans haddr⟩

theorem configGetChannel_extends (h : Channels cfg) (name : List Char) (flags : BitVec 32) :
    Extends cfg (configGetChannel cfg name flags).2 [portOf name flags] ∧
      (configGetChannel cfg name flags).2.readerAt = cfg.readerAt ∧
      (∃ chn ∈ (configGetChannel cfg name flags).2.channelAt (portOf name flags),
        chn.addr = (configGetChannel cfg name flags).1) ∧
      (configGetChannel cfg name flags).2.writers = cfg.writers := by
  obtain ⟨chn, hat, haddr, hold, hchannels, hwriters⟩ := configGetChannel_at h name flags
  refine ⟨⟨hchannels, fun port => ?_, fun port c hc => ?_⟩, funext fun port => ?_, ⟨chn, ?_, haddr⟩, hwriters⟩
  · rw [hat, List.mem_singleton]
    by_cases hp : port = portOf name flags
    · simp [hp]
    · simp [hp]
  · rw [hat]
    by_cases hp : port = portOf name flags
    · subst hp
      rcases hold with hsome | ⟨hnone, -⟩
      · rw [hsome] at hc
        exact ⟨chn, Function.update_self _ _ _, congrArg _ (Option.some.inj hc)⟩
      · rw [hnone] at hc
        cases hc
    · exact ⟨c, (Function.update_of_ne hp _ _).trans hc, rfl⟩
  · unfold Config.readerAt
    rw [hat]
    by_cases hp : port = portOf name flags
    · subst hp
      rw [Function.update_self]
      rcases hold with hsome | ⟨hnone, hreader⟩
      · rw [hsome]
      · rw [hnone]
        exact hreader
    · rw [Function.update_of_ne hp]
  · rw [hat]
    exact Function.update_self _ _ _

theorem update_extends (h : Channels cfg) {addr : Nat} (haddr : ∃ chn ∈ cfg.channelAt port, chn.addr = addr)
    {f : ConfChannel → ConfChannel} {g : Option ConfReader → Option ConfReader}
    (hf : ∀ chn, (f chn).port = chn.port ∧ (f chn).addr = chn.addr) (hg : ∀ chn, (f chn).reader = g chn.reader) :
    Extends cfg (cfg.update addr f) [] ∧
      (cfg.update addr f).readerAt = Function.update cfg.readerAt port (g (cfg.readerAt port)) := by
  obtain ⟨chn, hchn, rfl⟩ := haddr
  obtain ⟨hat, hchannels⟩ := update_at h hchn hf
  refine ⟨⟨hchannels, fun port' => ?_, fun port' c hc => ?_⟩, funext fun port' => ?_⟩
  · rw [hat]
    by_cases hp : port' = port
    · subst hp
      rw [Function.update_self, hchn]
      simp
    · rw [Function.update_of_ne hp]
      simp
  · rw [hat]
    by_cases hp : port' = port
    · subst hp
      obtain rfl := Option.some.inj (hchn.symm.trans hc)
      exact ⟨f chn, Function.update_self _ _ _, (hf chn).2⟩
    · exact ⟨c, (Function.update_of_ne hp _ _).trans hc, rfl⟩
  · have hreader : ∀ port, (cfg.update chn.addr f).readerAt port =
        ((cfg.update chn.addr f).channelAt port).bind ConfChannel.reader := fun _ => rfl
    rw [hreader, hat]
    by_cases hp : port' = port
    · subst hp
      rw [Function.update_self, Function.update_self]
      unfold Config.readerAt
      rw [hchn]
      exact hg chn
    · rw [Function.update_of_ne hp, Function.update_of_ne hp]
      rfl

/-- The reader of an input port, when a directive has named it. -/
def readerWith (now : Timeval) (d : Directive) (writer : Nat) (old : Option ConfReader) : ConfReader :=
  let rdr := old.getD (ccreaderInit now d.protocolIn).2
  { rdr with toCcreader := ccreaderAddWriter rdr.toCcreader (ccnodeOf writer d.range d.shift) }

theorem channelFlags_required (name protocol : List Char) : channelFlags name &&& channelFlagsOf protocol = 0#32 := by
  unfold channelFlags channelFlagsOf
  split_ifs <;> decide

/-- **A directive** makes its channels if they are not there, and adds a node to the reader of the
first and a writer to the second. -/
theorem configDirective_extends (h : Channels cfg) (now : Timeval) (d : Directive) :
    Extends cfg (configDirective now cfg d).2 [d.input, d.output] ∧
    (configDirective now cfg d).2.readerAt =
      Function.update cfg.readerAt d.input (some (readerWith now d cfg.writers.length (cfg.readerAt d.input))) ∧
    ∃ chn ∈ (configDirective now cfg d).2.channelAt d.output,
      (configDirective now cfg d).2.writers = (ccwriterInit chn.addr d.protocolOut d.authOut).2 :: cfg.writers := by
  obtain ⟨hext₁, hreader₁, hin, hwriters₁⟩ := configGetChannel_extends h d.portIn flagListen
  unfold configDirective
  generalize configGetChannel cfg d.portIn flagListen = x₁ at hext₁ hreader₁ hin hwriters₁ ⊢
  obtain ⟨a₁, cfg₁⟩ := x₁
  obtain ⟨hext₂, hreader₂⟩ := update_extends hext₁.channels hin (f := newReader now d.protocolIn)
    (g := fun old => some (old.getD (ccreaderInit now d.protocolIn).2))
    (fun chn => by unfold newReader; split <;> exact ⟨rfl, rfl⟩)
    (fun chn => by unfold newReader; split <;> simp [*])
  dsimp only at hext₁ hreader₁ hin hwriters₁ hext₂ hreader₂ ⊢
  have hwriters₂ : (cfg₁.update a₁ (newReader now d.protocolIn)).writers = cfg.writers := hwriters₁
  obtain ⟨c₁, hc₁, rfl⟩ := hin
  obtain ⟨c₂, hc₂, haddr₂⟩ := hext₂.addr _ c₁ hc₁
  generalize cfg₁.update c₁.addr (newReader now d.protocolIn) = cfg₂ at hext₂ hreader₂ hwriters₂ hc₂ ⊢
  obtain ⟨hext₃, hreader₃, hout, hwriters₃⟩ := configGetChannel_extends hext₂.channels d.portOut 0
  obtain ⟨c₃, hc₃, haddr₃⟩ := hext₃.addr _ c₂ hc₂
  generalize configGetChannel cfg₂ d.portOut 0 = x₃ at hext₃ hreader₃ hout hwriters₃ hc₃ ⊢
  obtain ⟨a₂, cfg₃⟩ := x₃
  dsimp only at hext₃ hreader₃ hout hwriters₃ hc₃ ⊢
  obtain ⟨c₄, hc₄, rfl⟩ := hout
  set cfg₄ : Config := { cfg₃ with
    writers := (ccwriterInit c₄.addr d.protocolOut d.authOut).2 :: cfg₃.writers } with hcfg₄
  have hchannels₃ := hext₃.channels
  have hchannels₄ : Channels cfg₄ := ⟨hchannels₃.ports, hchannels₃.addrs, hchannels₃.below, hchannels₃.count⟩
  obtain ⟨hext₅, hreader₅⟩ := update_extends hchannels₄ ⟨c₄, hc₄, rfl⟩
    (f := fun chn => { chn with flags := chn.flags ||| channelFlagsOf d.protocolOut }) (g := id)
    (fun chn => by
      refine ⟨?_, rfl⟩
      unfold ConfChannel.port
      dsimp only
      rw [BitVec.and_or_distrib_left, channelFlags_required, BitVec.or_zero])
    (fun chn => rfl)
  have hsame₅ : (cfg₄.update c₄.addr fun chn =>
      { chn with flags := chn.flags ||| channelFlagsOf d.protocolOut }).readerAt = cfg₂.readerAt := by
    rw [hreader₅, id_eq, Function.update_eq_self]
    exact hreader₃
  obtain ⟨c₅, hc₅, haddr₅⟩ := hext₅.addr _ c₃ hc₃
  obtain ⟨c₆, hc₆, haddr₆⟩ := hext₅.addr _ c₄ hc₄
  have hwriters₅ : (cfg₄.update c₄.addr fun chn =>
      { chn with flags := chn.flags ||| channelFlagsOf d.protocolOut }).writers = cfg₄.writers := rfl
  generalize (cfg₄.update c₄.addr fun chn => { chn with flags := chn.flags ||| channelFlagsOf d.protocolOut }) = cfg₅
    at hext₅ hsame₅ hc₅ hc₆ hwriters₅ ⊢
  obtain ⟨hext₆, hreader₆⟩ := update_extends hext₅.channels
    ⟨c₅, hc₅, haddr₅.trans (haddr₃.trans haddr₂)⟩
    (f := addWriter cfg₃.writers.length d.range d.shift)
    (g := Option.map fun rdr =>
      { rdr with toCcreader := ccreaderAddWriter rdr.toCcreader (ccnodeOf cfg₃.writers.length d.range d.shift) })
    (fun chn => ⟨rfl, rfl⟩) (fun chn => rfl)
  have hwriters₃' : cfg₃.writers = cfg.writers := hwriters₃.trans hwriters₂
  refine ⟨?_, ?_, ?_⟩
  · have hext₅ : Extends cfg₃ cfg₅ [] := ⟨hext₅.channels, hext₅.isSome, hext₅.addr⟩
    exact hext₁.trans (hext₂.trans (hext₃.trans (hext₅.trans hext₆)))
  · rw [hreader₆, hsame₅, hreader₂, Function.update_self, Function.update_idem, hreader₁, hwriters₃']
    rfl
  · obtain ⟨c₇, hc₇, haddr₇⟩ := hext₆.addr _ c₆ hc₆
    refine ⟨c₇, hc₇, ?_⟩
    show cfg₅.writers = _
    rw [hwriters₅, haddr₇, haddr₆, hcfg₄, hwriters₃']

/-! ## All directives -/

variable {ds : List Directive} {d : Directive}

theorem directivesFrom_append (ds : List Directive) (d : Directive) (port : Port) :
    directivesFrom (ds ++ [d]) port = directivesFrom ds port ++ if d.input = port then [(d, ds.length)] else [] := by
  unfold directivesFrom
  rw [List.zipIdx_append, List.filter_append, Nat.zero_add]
  by_cases hd : d.input = port
  · simp [hd]
  · simp [hd]

theorem nodesFrom_self (ds : List Directive) (d : Directive) :
    nodesFrom (ds ++ [d]) d.input = ccnodeOf ds.length d.range d.shift :: nodesFrom ds d.input := by
  unfold nodesFrom
  rw [directivesFrom_append, if_pos rfl, List.map_append, List.reverse_append]
  rfl

theorem nodesFrom_other (h : d.input ≠ port) : nodesFrom (ds ++ [d]) port = nodesFrom ds port := by
  unfold nodesFrom
  rw [directivesFrom_append, if_neg h, List.append_nil]

/-- Without a directive for the port there are no nodes. -/
theorem nodesFrom_eq_nil (h : ∀ d ∈ ds, d.input ≠ port) : nodesFrom ds port = [] := by
  have hnone : directivesFrom ds port = [] :=
    List.filter_eq_nil_iff.mpr fun x hx => by simpa using h x.1 (List.fst_mem_of_mem_zipIdx hx)
  unfold nodesFrom
  rw [hnone]
  rfl

/-- What `ccreader_init` sets does not depend on the time. -/
theorem ccreaderInit_fields (now : Timeval) (protocol : List Char) :
    (ccreaderInit now protocol).2.doRead = (ccreaderInit ⟨0, 0⟩ protocol).2.doRead ∧
      (ccreaderInit now protocol).2.timeout = (ccreaderInit ⟨0, 0⟩ protocol).2.timeout ∧
      (ccreaderInit now protocol).2.flags = (ccreaderInit ⟨0, 0⟩ protocol).2.flags ∧
      (ccreaderInit now protocol).2.head = [] := by
  unfold ccreaderInit ccreaderSetProtocol
  cases readerProtocol protocol <;> exact ⟨rfl, rfl, rfl, rfl⟩

/-- The reader of the port that a directive names. -/
theorem ReaderFor.self {old : Option ConfReader} (h : ReaderFor ds d.input old) (now : Timeval) :
    ReaderFor (ds ++ [d]) d.input (some (readerWith now d ds.length old)) := by
  cases old with
  | none =>
    obtain ⟨hdo, htimeout, hflags, hhead⟩ := ccreaderInit_fields now d.protocolIn
    refine ⟨d, ?_, hdo, htimeout, hflags, ?_⟩
    · rw [List.find?_append, List.find?_eq_none.mpr fun d' hd' => by simpa using h d' hd']
      simp
    · rw [nodesFrom_self, nodesFrom_eq_nil h]
      show ccnodeOf _ _ _ :: (ccreaderInit now d.protocolIn).2.head = _
      rw [hhead]
  | some rdr =>
    obtain ⟨d₀, hfind, hdo, htimeout, hflags, hhead⟩ := h
    refine ⟨d₀, ?_, hdo, htimeout, hflags, ?_⟩
    · rw [List.find?_append, hfind]
      rfl
    · rw [nodesFrom_self, ← hhead]
      rfl

/-- The reader of another port. -/
theorem ReaderFor.other {rdr : Option ConfReader} (h : ReaderFor ds port rdr) (hd : d.input ≠ port) :
    ReaderFor (ds ++ [d]) port rdr := by
  cases rdr with
  | none =>
    intro d' hd'
    rcases List.mem_append.mp hd' with hd' | hd'
    · exact h d' hd'
    · exact List.mem_singleton.mp hd' ▸ hd
  | some rdr =>
    obtain ⟨d₀, hfind, hdo, htimeout, hflags, hhead⟩ := h
    refine ⟨d₀, ?_, hdo, htimeout, hflags, ?_⟩
    · rw [List.find?_append, hfind]
      rfl
    · rw [nodesFrom_other hd, hhead]

theorem routes_configInit : Routes [] configInit where
  ports := List.nodup_nil
  addrs := List.nodup_nil
  below := nofun
  count := rfl
  named port := by
    show (none : Option ConfChannel).isSome ↔ _
    simp
  reader port := by
    show ReaderFor [] port none
    exact nofun
  writers := rfl
  writer i d h := by cases h

/-- **One directive more** -/
theorem Routes.configDirective (h : Routes ds cfg) (now : Timeval) (d : Directive) :
    Routes (ds ++ [d]) (configDirective now cfg d).2 := by
  obtain ⟨hext, hreader, chn, hchn, hwriters⟩ := configDirective_extends h.toChannels now d
  generalize (Configuration.configDirective now cfg d).2 = cfg' at hext hreader hchn hwriters ⊢
  refine ⟨hext.channels, fun port => ?_, fun port => ?_, ?_, fun i d' hd' => ?_⟩
  · rw [hext.isSome, h.named]
    simp only [List.mem_cons, List.not_mem_nil, or_false, List.mem_append, or_and_right, exists_or, exists_eq_left]
  · show ReaderFor _ _ (cfg'.readerAt port)
    rw [hreader]
    by_cases hp : port = d.input
    · rw [hp, Function.update_self, h.writers]
      exact ReaderFor.self (h.reader d.input) now
    · rw [Function.update_of_ne hp]
      exact ReaderFor.other (h.reader port) fun heq => hp heq.symm
  · rw [hwriters, List.length_cons, h.writers, List.length_append]
    rfl
  · rw [hwriters, List.reverse_cons]
    by_cases hi : i < ds.length
    · rw [List.getElem?_append_left hi] at hd'
      obtain ⟨c, hc, hwtr⟩ := h.writer i d' hd'
      obtain ⟨c', hc', haddr⟩ := hext.addr _ c hc
      refine ⟨c', hc', ?_⟩
      rw [List.getElem?_append_left (by rw [List.length_reverse, h.writers]; exact hi), hwtr, haddr]
    · have hlen : i = ds.length := by
        have := (List.getElem?_eq_some_iff.mp hd').1
        rw [List.length_append] at this
        exact Nat.le_antisymm (Nat.lt_succ_iff.mp this) (Nat.le_of_not_lt hi)
      subst hlen
      rw [List.getElem?_concat_length] at hd'
      obtain rfl := Option.some.inj hd'
      refine ⟨chn, hchn, ?_⟩
      rw [← h.writers, ← List.length_reverse, List.getElem?_concat_length]

/-- The line in the buffer does not matter. -/
theorem Routes.line (h : Routes ds cfg) (line : List Char) : Routes ds { cfg with line := line } :=
  ⟨⟨h.ports, h.addrs, h.below, h.count⟩, h.named, h.reader, h.writers, h.writer⟩

/-- What holds of a configuration when each directive of a text has been executed. -/
theorem readTrace_induction {motive : List Directive → Config → Prop}
    (hline : ∀ ds cfg line, motive ds cfg → motive ds { cfg with line := line })
    (hdirective : ∀ ds cfg now d, motive ds cfg → motive (ds ++ [d]) (configDirective now cfg d).2)
    (now : Nat → Timeval) (text : List Char) {ds : List Directive} {cfg : Config} (h : motive ds cfg) :
    motive (ds ++ (readTrace now cfg text).1) (readTrace now cfg text).2.2 := by
  induction hn : text.length using Nat.strong_induction_on generalizing text ds cfg with
  | _ n ih =>
    cases hget : fgets cfg.line text with
    | none =>
      rw [readTrace_nil hget, List.append_nil]
      exact h
    | some x =>
      obtain ⟨line, rest⟩ := x
      have hrest := fun ds' cfg' => @ih rest.length (hn ▸ length_fgets hget) rest ds' cfg'
      have hnext := hline ds cfg (skipComments line) h
      cases hscan : scan (cString (skipComments line)) with
      | blank =>
        have hread : readTrace now cfg text = readTrace now { cfg with line := skipComments line } rest := by
          simp only [readTrace_cons hget, directiveOf, configScanDirective, hscan]
          rfl
        rw [hread]
        exact hrest ds _ hnext rfl
      | invalid =>
        have hread : readTrace now cfg text = ([], -1, { cfg with line := skipComments line }) := by
          simp only [readTrace_cons hget, directiveOf, configScanDirective, hscan]
          rfl
        rw [hread, List.append_nil]
        exact hnext
      | directive d =>
        have hread : readTrace now cfg text =
            let x := readTrace now (configDirective (now rest.length) { cfg with line := skipComments line } d).2 rest
            (d :: x.1, x.2) := by
          simp only [readTrace_cons hget, directiveOf, configScanDirective, hscan]
          rfl
        rw [hread]
        have hall := hrest (ds ++ [d]) _ (hdirective ds _ (now rest.length) d hnext) rfl
        rwa [List.append_assoc] at hall

/-- Reading a file, line by line. -/
theorem routes_configRead (now : Nat → Timeval) (text : List Char) :
    Routes (outcome (scans text)).directives (configRead now configInit (some text)).2 := by
  have h := readTrace_induction (motive := Routes) (fun _ _ line h => h.line line)
    (fun _ _ now d h => h.configDirective now d) now text routes_configInit
  rwa [(readTrace_eq now configInit text).1, readTrace_erase] at h

/-- The ports that directives name, each once. -/
def portsOf (ds : List Directive) : List Port := (ds.flatMap fun d => [d.input, d.output]).dedup

/-- There is one channel for each port. -/
theorem Routes.nChannels (h : Routes ds cfg) : cfg.nChannels = (portsOf ds).length := by
  have hperm : (cfg.chns.map ConfChannel.port).Perm (portsOf ds) := by
    refine (List.perm_ext_iff_of_nodup h.ports (List.nodup_dedup _)).mpr fun port => ?_
    rw [List.mem_dedup, List.mem_flatMap]
    constructor
    · intro hmem
      obtain ⟨chn, hchn, rfl⟩ := List.mem_map.mp hmem
      obtain ⟨d, hd, hport⟩ := (h.named chn.port).mp (Option.isSome_iff_exists.mpr ⟨chn, h.channelAt_port hchn⟩)
      exact ⟨d, hd, by simpa using hport⟩
    · rintro ⟨d, hd, hport⟩
      obtain ⟨chn, hchn⟩ := Option.isSome_iff_exists.mp ((h.named port).mpr ⟨d, hd, by simpa using hport⟩)
      obtain ⟨hmem, rfl⟩ := channelAt_some hchn
      exact List.mem_map_of_mem hmem
  rw [← h.count, ← hperm.length_eq, List.length_map]

theorem channelsAfter_configInit (ds : List Directive) : channelsAfter configInit ds = (portsOf ds).length := by
  suffices hroutes : ∀ (ds ds' : List Directive) (cfg : Config), Routes ds cfg →
      Routes (ds ++ ds') (ds'.foldl (fun cfg d => (configDirective ⟨0, 0⟩ cfg d).2) cfg) from
    (hroutes [] ds configInit routes_configInit).nChannels
  intro ds ds'
  induction ds' generalizing ds with
  | nil =>
    intro cfg h
    rwa [List.append_nil]
  | cons d ds' ih =>
    intro cfg h
    have hrest := ih (ds ++ [d]) _ (h.configDirective ⟨0, 0⟩ d)
    rwa [List.append_assoc] at hrest

/-- What `config_read` returns. -/
theorem configRead_fst (now : Nat → Timeval) (text : List Char) :
    (configRead now configInit (some text)).1 =
      if .invalid ∈ scans text then -1 else ((portsOf (outcome (scans text)).directives).length : Int) := by
  have hresult := (readTrace_eq now configInit text).2
  rw [readTrace_erase, resultOf, channelsAfter_configInit] at hresult
  rw [hresult]
  exact if_congr stopped_outcome rfl rfl

/-- **A file**: the routes are those that its directives ask for, up to the first invalid line, and
what is returned is the number of ports that they name, unless there is such a line. -/
theorem configRead_spec (now : Nat → Timeval) (text : List Char) :
    Routes (outcome (scans text)).directives (configRead now configInit (some text)).2 ∧
      (configRead now configInit (some text)).1 =
        if .invalid ∈ scans text then -1 else ((portsOf (outcome (scans text)).directives).length : Int) :=
  ⟨routes_configRead now text, configRead_fst now text⟩

end Protozoa.Configuration
