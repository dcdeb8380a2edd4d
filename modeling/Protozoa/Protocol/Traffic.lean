import Protozoa.Protocol.Deliver

/-!
# What readers do to the rest of the program

A reader of any protocol reads the clock and passes packets to the writers of its nodes
(`ccreader_do_writers`, `ccreader.c:173-188`), each with a receiver that the node gives it, and does
nothing else.

* `Admits`: what these calls can do to the rest of the program. It is all that a read can do to it
  (`Admits.effect`).
* `SameReader`: the nodes of a reader, its timeout and its flags stay.

`Program/Moves.lean` instantiates it with the engine.
-/

namespace Protozoa

variable {σ : Type}

/-- A relation that holds between the states before and after any of the calls of a reader with
these nodes. -/
structure Admits (sink : Sink σ) (nodes : List Ccnode) (R : σ → σ → Prop) : Prop where
  refl : ∀ s, R s s
  trans : ∀ {s t u}, R s t → R t u → R s u
  now : ∀ s, R s (sink.now s).2
  doWrite : ∀ s, ∀ node ∈ nodes, ∀ r pkt, ccnodeGetReceiver node r ≠ 0 →
    pkt.receiver = ccnodeGetReceiver node r → R s (sink.doWrite s node.writer pkt).1

/-- The reader is the same but for its packet. -/
structure SameReader (rdr rdr' : Ccreader) : Prop where
  head : rdr'.head = rdr.head
  timeout : rdr'.timeout = rdr.timeout
  flags : rdr'.flags = rdr.flags

theorem SameReader.refl (rdr : Ccreader) : SameReader rdr rdr := ⟨rfl, rfl, rfl⟩

theorem SameReader.trans {rdr rdr' rdr'' : Ccreader} (h : SameReader rdr rdr') (h' : SameReader rdr' rdr'') :
    SameReader rdr rdr'' :=
  ⟨h'.head.trans h.head, h'.timeout.trans h.timeout, h'.flags.trans h.flags⟩

/-- And the rest of the program is as the relation says. -/
structure Passed (R : σ → σ → Prop) (x y : Ccreader × σ) : Prop where
  reader : SameReader x.1 y.1
  world : R x.2 y.2

namespace Passed

variable {sink : Sink σ} {nodes : List Ccnode} {R : σ → σ → Prop} {x y z : Ccreader × σ}

/-- A change of the packet alone. -/
theorem packet (h : Passed R x y) (pkt : Ccpacket) : Passed R x ({ y.1 with packet := pkt }, y.2) :=
  ⟨h.reader.trans ⟨rfl, rfl, rfl⟩, h.world⟩

theorem trans (hR : Admits sink nodes R) (h : Passed R x y) (h' : Passed R y z) : Passed R x z :=
  ⟨h.reader.trans h'.reader, hR.trans h.world h'.world⟩

theorem refl (hR : Admits sink nodes R) (x : Ccreader × σ) : Passed R x x := ⟨SameReader.refl x.1, hR.refl x.2⟩

end Passed

namespace Admits

variable {sink : Sink σ} {R : σ → σ → Prop} {rdr : Ccreader}

theorem doWritersLoop {all : List Ccnode} (hR : Admits sink all R) (receiver : Int) {nodes : List Ccnode}
    (hnodes : ∀ node ∈ nodes, node ∈ all) (pkt : Ccpacket) (s : σ) :
    R s (Protozoa.doWritersLoop sink receiver nodes pkt s).2 := by
  induction nodes generalizing pkt s with
  | nil => exact hR.refl s
  | cons node nodes ih =>
    obtain ⟨hnode, hnodes⟩ := List.forall_mem_cons.mp hnodes
    unfold Protozoa.doWritersLoop
    by_cases hr : ccnodeGetReceiver node receiver ≠ 0
    · simp only [if_pos hr]
      exact hR.trans (hR.doWrite s node hnode receiver _ hr rfl) (ih hnodes _ _)
    · simp only [if_neg hr]
      exact ih hnodes pkt s

theorem noClear (hR : Admits sink rdr.head R) (s : σ) :
    Passed R (rdr, s) (ccreaderProcessPacketNoClear sink rdr s) :=
  ⟨⟨rfl, rfl, rfl⟩, hR.trans (hR.now s) (hR.doWritersLoop _ (fun _ h => h) _ _)⟩

theorem process (hR : Admits sink rdr.head R) (s : σ) : Passed R (rdr, s) (ccreaderProcessPacket sink rdr s) :=
  (hR.noClear s).packet _

/-- Messages one after the other. -/
theorem foldl {process : Ccreader × σ → List Byte → Ccreader × σ} {x : Ccreader × σ} (hR : Admits sink x.1.head R)
    (h : ∀ y mess, y.1.head = x.1.head → Passed R y (process y mess)) (messages : List (List Byte)) :
    Passed R x (messages.foldl process x) :=
  List.foldlRecOn messages process (motive := Passed R x) (Passed.refl hR x)
    fun y hy mess _ => hy.trans hR (h y mess hy.reader.head)

theorem decodeAndProcess (decode : BitVec 32 → List Byte → Ccpacket → Ccpacket) {x : Ccreader × σ}
    (hR : Admits sink x.1.head R) (mess : List Byte) : Passed R x (Protozoa.decodeAndProcess decode sink x mess) := by
  have hdecoding : Admits sink ({ x.1 with packet := decode x.1.flags mess x.1.packet } : Ccreader).head R := hR
  have h := hdecoding.process x.2
  have hdecoded : SameReader x.1 { x.1 with packet := decode x.1.flags mess x.1.packet } := ⟨rfl, rfl, rfl⟩
  exact ⟨hdecoded.trans h.reader, h.world⟩

theorem manchesterDecodePacket {x : Ccreader × σ} (hR : Admits sink x.1.head R) (mess : List Byte) :
    Passed R x (Manchester.manchesterDecodePacket sink x mess) := by
  unfold Manchester.manchesterDecodePacket
  by_cases hr : x.1.packet.receiver ≠ Manchester.decodeReceiver mess
  · simp only [if_pos hr]
    exact (hR.process x.2).packet _
  · simp only [if_neg hr]
    exact (Passed.refl hR x).packet _

end Admits

namespace Joystick

theorem sameReader_ite {c : Prop} [Decidable c] {rdr : Ccreader} {x y : Bool × Ccreader} (hx : SameReader rdr x.2)
    (hy : SameReader rdr y.2) : SameReader rdr (if c then x else y).2 := by
  split
  · exact hx
  · exact hy

theorem sameReader_decodeButton (rdr : Ccreader) (mess : List Byte) : SameReader rdr (decodeButton rdr mess).2 := by
  have hheld : ∀ pressed set value, SameReader rdr (decodeHeldButton rdr pressed set value).2 :=
    fun _ _ _ => ⟨rfl, rfl, rfl⟩
  have hpreset : ∀ pressed moved n, SameReader rdr (decodePresetButton rdr pressed moved n).2 :=
    fun _ _ _ => sameReader_ite ⟨rfl, rfl, rfl⟩ (sameReader_ite ⟨rfl, rfl, rfl⟩ ⟨rfl, rfl, rfl⟩)
  have hprevious : SameReader rdr (ccreaderPreviousCamera rdr) := by
    unfold ccreaderPreviousCamera
    dsimp only
    split <;> exact ⟨rfl, rfl, rfl⟩
  have hnext : SameReader rdr (ccreaderNextCamera rdr) := by
    unfold ccreaderNextCamera
    dsimp only
    split <;> exact ⟨rfl, rfl, rfl⟩
  have hpacket : ∀ rdr' : Ccreader, SameReader rdr rdr' → ∀ pkt, SameReader rdr { rdr' with packet := pkt } :=
    fun _ h _ => ⟨h.head, h.timeout, h.flags⟩
  unfold decodeButton
  refine sameReader_ite (hheld _ _ _) (sameReader_ite (hheld _ _ _) (sameReader_ite (hheld _ _ _)
    (sameReader_ite (hheld _ _ _) (sameReader_ite (hheld _ _ _) (sameReader_ite (hheld _ _ _)
      (sameReader_ite (hpreset _ _ _) (sameReader_ite (hpreset _ _ _) (sameReader_ite (hpreset _ _ _)
        (sameReader_ite (hpreset _ _ _) (hpacket _ ?_ _))))))))))
  split
  · split
    · exact hprevious
    · exact SameReader.refl rdr
  split
  · split
    · exact hnext
    · exact SameReader.refl rdr
  · exact SameReader.refl rdr

/-- Events change the packet of the reader alone. -/
theorem sameReader_decodeBatch (rdr : Ccreader) (batch : List (List Byte)) :
    SameReader rdr (decodeBatch rdr batch).1 := by
  refine List.foldlRecOn batch eventStep (motive := fun x : Ccreader × Nat => SameReader rdr x.1)
    (SameReader.refl rdr) fun x hx mess _ => ?_
  exact hx.trans (sameReader_ite ⟨rfl, rfl, rfl⟩
    (sameReader_ite (sameReader_decodeButton x.1 mess) (SameReader.refl x.1)))

end Joystick

namespace Admits

variable {sink : Sink σ} {R : σ → σ → Prop} {x : Ccreader × σ}

theorem readBatch (hR : Admits sink x.1.head R) (batch : List (List Byte)) :
    Passed R x (Joystick.readBatch sink batch x) := by
  have hsame := Joystick.sameReader_decodeBatch x.1 batch
  have hevents : Passed R x ((Joystick.decodeBatch x.1 batch).1, x.2) := ⟨hsame, hR.refl x.2⟩
  unfold Joystick.readBatch Joystick.joystickProcess
  by_cases hc : (Joystick.decodeBatch x.1 batch).2 ≠ 0
  · simp only [if_pos hc]
    exact (hevents.trans hR (Admits.noClear (hsame.head.symm ▸ hR) x.2)).packet _
  · simp only [if_neg hc]
    exact hevents.packet _

theorem readEffect (hR : Admits sink x.1.head R) (messages : List (List Byte)) (empty : Bool) :
    Passed R x (Manchester.readEffect sink messages empty x) := by
  have hall : Passed R x (messages.foldl (Manchester.manchesterDecodePacket sink) x) :=
    hR.foldl (fun y mess hy => Admits.manchesterDecodePacket (hy.symm ▸ hR) mess) messages
  unfold Manchester.readEffect
  cases empty with
  | false => exact hall
  | true => exact hall.trans hR (Admits.process (hall.reader.head.symm ▸ hR) _)

/-- **A read of any protocol** does what the calls of its reader do. -/
theorem effect (hR : Admits sink x.1.head R) (p : Reader) (messages : List (List Byte)) (empty : Bool) :
    Passed R x (p.effect σ sink messages empty x) := by
  cases p with
  | joystick => exact hR.readBatch messages
  | manchester => exact hR.readEffect messages empty
  | pelcoD => exact hR.foldl (fun y mess hy => Admits.decodeAndProcess _ (hy.symm ▸ hR) mess) messages
  | pelcoP => exact hR.foldl (fun y mess hy => Admits.decodeAndProcess _ (hy.symm ▸ hR) mess) messages
  | vicon =>
    refine hR.foldl (fun y mess hy => ?_) messages
    unfold Vicon.process
    split
    · exact Admits.decodeAndProcess _ (hy.symm ▸ hR) mess
    · exact Passed.refl (hy.symm ▸ hR) y

end Admits

end Protozoa
