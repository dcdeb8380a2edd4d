import Protozoa.Protocol.Manchester
import Protozoa.Protocol.PelcoD
import Protozoa.Protocol.PelcoP
import Protozoa.Protocol.Vicon

/-!
# Streams in chunks

What the four binary protocols make of a stream does not depend on the way it arrives:
`channel_read` (`channel.c:602-627`) may get any number of bytes at a time, and calls `do_read` for
what is there.

* **`pelco_readsAsScan`**: Pelco D (`pelco_d.c:292-319`) and Pelco P (`pelco_p.c:311-342`) accept
  the frames of the naive scan, which looks at the stream byte by byte, and process the packet of
  each. This packet depends on the frame and the flags of the reader only.
* **`vicon_manchester_readsMessages`**: Vicon (`vicon.c:259-284`) and Manchester
  (`manchester.c:247-273`) decode the messages of the whole stream, and an incomplete message
  changes nothing.

Both say which bytes are taken: those the reads ask for, and the whole stream if they cover it and
fit (`ReadsOff` of `Ccreader.lean`).
-/

namespace Protozoa

open Lib.Scan

/-- **Pelco readers** accept what a scan of the whole stream accepts. -/
theorem pelco_readsAsScan :
    ReadsAsScan PelcoD.frames PelcoD.packetOf PelcoD.doRead ∧
      ReadsAsScan PelcoP.frames PelcoP.packetOf PelcoP.doRead := by
  constructor
  · exact readsAsScan (fun _ sink => PelcoD.doRead_reads sink) PelcoD.decode_blank
      (fixed_wait (by decide)) (by decide) (by decide)
  · exact readsAsScan (fun _ sink => PelcoP.doRead_reads sink) PelcoP.decode_blank
      (fixed_wait (by decide)) (by decide) (by decide)

/-- **Vicon and Manchester readers** decode the messages of the whole stream. -/
theorem vicon_manchester_readsMessages :
    (ReadsMessages Vicon.frames (fun _ sink out _ x => out.foldl (Vicon.process sink) x) Vicon.doRead ∧
      LeavesIncomplete Vicon.frames Vicon.doRead) ∧
    (ReadsMessages Manchester.frames (fun _ => Manchester.readEffect) Manchester.doRead ∧
      LeavesIncomplete Manchester.frames Manchester.doRead) := by
  refine ⟨⟨?_, ?_⟩, ?_, ?_⟩
  · exact readsMessages (fun _ sink => Vicon.doRead_reads sink) (Vicon.judge_short (by decide))
      (by decide) (by decide)
  · intro σ sink st _ hwait
    exact Vicon.doRead_wait sink hwait
  · exact readsMessages (fun _ sink => Manchester.doRead_reads sink) (fixed_wait (by decide))
      (by decide) (by decide)
  · intro σ sink st hne hwait
    exact Manchester.doRead_wait sink hwait hne

end Protozoa
