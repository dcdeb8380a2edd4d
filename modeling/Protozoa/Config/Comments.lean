import Protozoa.Config.Valid

/-!
# Comments (`config.c`)

`fgets` takes a line in pieces of 255 characters (`LINE_LENGTH`, `config.h:8`; `config.c:339-341`),
and `config_skip_comments` (`config.c:290-296`) ends the string of the piece with the `#`. The
pieces behind it are read as if they were lines of their own, so what a comment holds behind the 255
characters is executed.

* `Commented`: a text with a comment in it, and `Commented.replace` the text with another comment in
  its place.
* `readTrace_eq`: `config_read` does what the pieces of the file hold, up to the first invalid one
  (`outcome`).
* `outcome_text`: where a comment stands, what it holds behind its first piece (`overflow`) is read
  between the lines around it.
* `channelsAfter_congr`: how many channels a list of directives leaves depends on the channels it
  finds, not on their readers (`Alike`) or on the clock. The result of a read is this number.
* **`ignored_iff`**: when the replacement of a comment changes neither the directives nor the
  result.
* `not_ignored`: a directive that stands behind the 255th character of a comment.
-/

namespace Protozoa.Configuration

/-- The directive that a line holds. -/
def directiveOf (line : List Char) : Option Directive :=
  match scan (cString line) with
  | .directive d => some d
  | _ => none

/-- `config_read` of a file with this text, with the directives it executes. -/
def readTrace (now : Nat → Timeval) (cfg : Config) (text : List Char) : List Directive × Int × Config :=
  match _h : fgets cfg.line text with
  | none => ([], cfg.nChannels, cfg)
  | some (line, rest) =>
    let ds := (directiveOf (skipComments line)).toList
    let (rc, cfg) := configScanDirective (now rest.length) { cfg with line := skipComments line }
    if rc ≠ 0 then (ds, -1, cfg)
    else
      let (ds', result) := readTrace now cfg rest
      (ds ++ ds', result)
termination_by text.length
decreasing_by exact length_fgets _h

/-- A comment, behind its `#`. -/
structure Comment where
  text : List Char
  newline : '\n' ∉ text

/-- The characters of a comment. -/
def Comment.chars (comment : Comment) : List Char := '#' :: comment.text

theorem Comment.newline_chars (comment : Comment) : '\n' ∉ comment.chars :=
  fun h => comment.newline ((List.mem_cons.mp h).resolve_left (by decide))

/-- A text with a comment in one of its lines. -/
structure Commented where
  /-- the lines before it -/
  before : List Char
  /-- what stands before the comment in its line -/
  lead : List Char
  comment : Comment
  /-- the newline and the lines behind it -/
  after : List Char
  lines : before = [] ∨ before.getLast? = some '\n'
  line : '\n' ∉ lead
  first : '#' ∉ lead
  newline : after = [] ∨ after.head? = some '\n'

/-- The text of the file. -/
def Commented.text (t : Commented) : List Char := t.before ++ (t.lead ++ (t.comment.chars ++ t.after))

/-- Another comment in its place. -/
def Commented.replace (t : Commented) (comment : Comment) : Commented := { t with comment := comment }

/-- What must hold of a comment that takes the place of another one. -/
structure Ignored (now now' : Nat → Timeval) (cfg : Config) (t : Commented) (comment : Comment) : Prop where
  directives : (readTrace now cfg t.text).1 = (readTrace now' cfg (t.replace comment).text).1
  result : (configRead now cfg (some t.text)).1 = (configRead now' cfg (some (t.replace comment).text)).1

/-! ## What lines do -/

/-- What some lines do: the directives that are executed, and whether the read stops at an invalid
line. -/
structure Outcome where
  directives : List Directive
  stopped : Bool
  deriving DecidableEq

/-- The outcome of lines, by what they hold. -/
def outcome : List Scanned → Outcome
  | [] => ⟨[], false⟩
  | .blank :: lines => outcome lines
  | .invalid :: _ => ⟨[], true⟩
  | .directive d :: lines => ⟨d :: (outcome lines).directives, (outcome lines).stopped⟩

/-- One outcome, and then another unless the read has stopped. -/
def Outcome.followedBy (o o' : Outcome) : Outcome :=
  if o.stopped then o else ⟨o.directives ++ o'.directives, o'.stopped⟩

/-- A read that stops where another goes on to stop behind it, after the same directives. -/
structure Outcome.StopsShort (o o' r : Outcome) : Prop where
  stops : o.stopped = true
  goesOn : o'.stopped = false
  stopsBehind : r.stopped = true
  directives : o.directives = o'.directives ++ r.directives

theorem outcome_append (lines lines' : List Scanned) :
    outcome (lines ++ lines') = (outcome lines).followedBy (outcome lines') := by
  induction lines with
  | nil => rfl
  | cons line lines ih =>
    cases line with
    | blank => exact ih
    | invalid => rfl
    | directive d =>
      show Outcome.mk (d :: (outcome (lines ++ lines')).directives) (outcome (lines ++ lines')).stopped = _
      rw [ih]
      unfold Outcome.followedBy
      show _ = if (outcome lines).stopped then _ else _
      split <;> rfl

theorem stopped_outcome {lines : List Scanned} : (outcome lines).stopped = true ↔ .invalid ∈ lines := by
  induction lines with
  | nil => exact ⟨nofun, nofun⟩
  | cons line lines ih =>
    cases line with
    | blank => exact ih.trans ⟨List.mem_cons_of_mem _, fun h => (List.mem_cons.mp h).resolve_left nofun⟩
    | invalid => exact ⟨fun _ => List.mem_cons_self, fun _ => rfl⟩
    | directive d => exact ih.trans ⟨List.mem_cons_of_mem _, fun h => (List.mem_cons.mp h).resolve_left nofun⟩

namespace Outcome

variable {o o' r : Outcome}

theorem followedBy_of_stopped (h : o.stopped = true) (r : Outcome) : o.followedBy r = o := if_pos h

theorem followedBy_of_goesOn (h : o.stopped = false) (r : Outcome) :
    o.followedBy r = ⟨o.directives ++ r.directives, r.stopped⟩ := if_neg (Bool.eq_false_iff.mp h)

theorem followedBy_nothing (o : Outcome) : o.followedBy ⟨[], false⟩ = o := by
  unfold followedBy
  split
  · rfl
  · rename_i ho
    rw [List.append_nil, ← Bool.eq_false_iff.mpr ho]

theorem followedBy_assoc (o o' r : Outcome) : (o.followedBy o').followedBy r = o.followedBy (o'.followedBy r) := by
  cases ho : o.stopped with
  | true => rw [followedBy_of_stopped ho, followedBy_of_stopped ho, followedBy_of_stopped ho]
  | false =>
    rw [followedBy_of_goesOn ho, followedBy_of_goesOn ho]
    cases ho' : o'.stopped with
    | true => rw [followedBy_of_stopped (o := ⟨_, true⟩) rfl, followedBy_of_stopped ho', ho']
    | false => rw [followedBy_of_goesOn (o := ⟨_, false⟩) rfl, followedBy_of_goesOn ho', List.append_assoc]

theorem followedBy_inj_right : o.followedBy r = o.followedBy o' ↔ o.stopped = true ∨ r = o' := by
  cases ho : o.stopped with
  | true =>
    rw [followedBy_of_stopped ho, followedBy_of_stopped ho]
    exact ⟨fun _ => Or.inl rfl, fun _ => rfl⟩
  | false =>
    rw [followedBy_of_goesOn ho, followedBy_of_goesOn ho, Outcome.mk.injEq, List.append_cancel_left_eq,
      or_iff_right nofun]
    exact ⟨fun h => by cases r; cases o'; exact congr (congrArg _ h.1) h.2, fun h => h ▸ ⟨rfl, rfl⟩⟩

/-- A read that stops, and one that goes on. -/
theorem followedBy_eq_iff_stopsShort (ho : o.stopped = true) (ho' : o'.stopped = false) :
    o = o'.followedBy r ↔ StopsShort o o' r := by
  rw [followedBy_of_goesOn ho']
  constructor
  · intro h
    refine ⟨ho, ho', ?_, ?_⟩
    · rw [← ho, h]
    · rw [h]
  · intro h
    cases o
    rw [Outcome.mk.injEq]
    exact ⟨h.directives, ho.trans h.stopsBehind.symm⟩

/-- **Two outcomes before a third** come to the same if and only if they are the same, or one stops
where the other goes on to stop behind it. -/
theorem followedBy_inj_left :
    o.followedBy r = o'.followedBy r ↔ o = o' ∨ StopsShort o o' r ∨ StopsShort o' o r := by
  have hdiffer {p q : Outcome} (hp : p.stopped = true) (hq : q.stopped = false) : p ≠ q := by
    rintro rfl
    exact absurd (hp.symm.trans hq) nofun
  have hgoes {p q : Outcome} (hp : p.stopped = false) : ¬StopsShort p q r :=
    fun h => absurd (h.stops.symm.trans hp) nofun
  have hstops {p q : Outcome} (hq : q.stopped = true) : ¬StopsShort p q r :=
    fun h => absurd (h.goesOn.symm.trans hq) nofun
  cases ho : o.stopped <;> cases ho' : o'.stopped
  · rw [followedBy_of_goesOn ho, followedBy_of_goesOn ho', or_iff_left (not_or.mpr ⟨hgoes ho, hgoes ho'⟩),
      Outcome.mk.injEq, List.append_cancel_right_eq, and_iff_left rfl]
    refine ⟨fun h => ?_, fun h => h ▸ rfl⟩
    cases o
    cases o'
    exact congr (congrArg _ h) (ho.trans ho'.symm)
  · rw [followedBy_of_stopped ho', eq_comm, followedBy_eq_iff_stopsShort ho' ho,
      or_iff_right (hdiffer ho' ho).symm, or_iff_right (hgoes ho)]
  · rw [followedBy_of_stopped ho, followedBy_eq_iff_stopsShort ho ho', or_iff_right (hdiffer ho ho'),
      or_iff_left (hgoes ho')]
  · rw [followedBy_of_stopped ho, followedBy_of_stopped ho', or_iff_left (not_or.mpr ⟨hstops ho', hstops ho⟩)]

end Outcome

/-! ## The pieces of a text -/

theorem length_takeLine_lt {text : List Char} (h : text ≠ []) :
    (takeLine (lineLength - 1) text).2.length < text.length := @length_fgets [] text _ _ (if_neg h)

/-- The pieces in which `fgets` takes a text. -/
def pieces (text : List Char) : List (List Char) :=
  if _h : text = [] then [] else (takeLine (lineLength - 1) text).1 :: pieces (takeLine (lineLength - 1) text).2
termination_by text.length
decreasing_by exact length_takeLine_lt _h

/-- What a piece holds. -/
def scanPiece (piece : List Char) : Scanned := scan (cString (skipComments piece))

variable {l p text : List Char} {n : Nat}

theorem pieces_nil : pieces [] = [] := by
  rw [pieces, dif_pos rfl]

theorem pieces_cons (h : text ≠ []) :
    pieces text = (takeLine (lineLength - 1) text).1 :: pieces (takeLine (lineLength - 1) text).2 := by
  rw [pieces, dif_neg h]

/-- The bytes behind the end of the string are not looked at. -/
theorem cString_skipComments (l stale : List Char) :
    cString (skipComments (l ++ '\x00' :: stale)) = cString (skipComments l) := by
  unfold cString skipComments
  rw [List.map_append, List.map_cons, List.takeWhile_append]
  split
  · rename_i hall
    rw [List.takeWhile_cons_of_neg (by decide), List.append_nil]
    exact ((List.takeWhile_prefix _).eq_of_length hall).symm
  · rfl

theorem scannedLines_eq (line text : List Char) :
    scannedLines line text = (pieces text).map fun piece => cString (skipComments piece) := by
  induction hn : text.length using Nat.strong_induction_on generalizing line text with
  | _ n ih =>
    by_cases hnil : text = []
    · rw [scannedLines_nil (if_pos hnil), hnil, pieces_nil]
      rfl
    · have hget : fgets line text = some (_, (takeLine (lineLength - 1) text).2) := if_neg hnil
      rw [scannedLines_cons hget, pieces_cons hnil, List.map_cons, cString_skipComments,
        ih _ (hn ▸ length_fgets hget) _ _ rfl]

/-- The stale bytes of the line do not matter. -/
theorem scans_line (line text : List Char) : scans text = (scannedLines line text).map scan := by
  rw [scans, scannedLines_eq, scannedLines_eq]

theorem scans_eq (text : List Char) : scans text = (pieces text).map scanPiece := by
  rw [scans, scannedLines_eq, List.map_map]
  rfl

theorem takeLine_append_takeLine (n : Nat) (text : List Char) :
    (takeLine n text).1 ++ (takeLine n text).2 = text := by
  induction n generalizing text with
  | zero => rfl
  | succ n ih =>
    cases text with
    | nil => rfl
    | cons c text =>
      unfold takeLine
      split
      · rfl
      · exact congrArg (c :: ·) (ih text)

/-- A piece with nothing to stop it. -/
theorem takeLine_full (hp : '\n' ∉ p) (text : List Char) : takeLine p.length (p ++ text) = (p, text) := by
  induction p with
  | nil => rfl
  | cons c p ih =>
    have hc : c ≠ '\n' := fun h => hp (h ▸ List.mem_cons_self)
    show takeLine (p.length + 1) (c :: (p ++ text)) = _
    rw [takeLine, if_neg hc, ih fun h => hp (List.mem_cons_of_mem _ h)]

/-- A piece that ends with its line. -/
theorem takeLine_line (hp : '\n' ∉ p) (hn : p.length < n) {after : List Char}
    (hafter : after = [] ∨ after.head? = some '\n') :
    takeLine n (p ++ after) = (p ++ after.take 1, after.drop 1) := by
  induction p generalizing n with
  | nil =>
    obtain ⟨n, rfl⟩ := Nat.exists_eq_succ_of_ne_zero (Nat.ne_of_gt hn)
    rcases hafter with rfl | hhead
    · rfl
    · obtain ⟨rest, rfl⟩ := List.head?_eq_some_iff.mp hhead
      rfl
  | cons c p ih =>
    have hc : c ≠ '\n' := fun h => hp (h ▸ List.mem_cons_self)
    obtain ⟨n, rfl⟩ := Nat.exists_eq_succ_of_ne_zero (Nat.ne_of_gt (Nat.zero_lt_of_lt hn))
    show takeLine (n + 1) (c :: (p ++ after)) = _
    rw [takeLine, if_neg hc, ih (fun h => hp (List.mem_cons_of_mem _ h)) (Nat.lt_of_succ_lt_succ hn)]
    rfl

/-- A piece that ends in `l` is the same whatever stands behind `l`. -/
theorem takeLine_append (h : '\n' ∈ l) (text : List Char) :
    takeLine n (l ++ text) = ((takeLine n l).1, (takeLine n l).2 ++ text) := by
  induction n generalizing l with
  | zero => rfl
  | succ n ih =>
    obtain ⟨c, l, rfl⟩ := List.exists_cons_of_ne_nil (List.ne_nil_of_mem h)
    show takeLine (n + 1) (c :: (l ++ text)) = _
    rw [takeLine, takeLine]
    by_cases hc : c = '\n'
    · rw [if_pos hc, if_pos hc]
    · rw [if_neg hc, if_neg hc, ih ((List.mem_cons.mp h).resolve_left (Ne.symm hc))]

/-- **Whole lines** are taken in the same pieces whatever stands behind them. -/
theorem pieces_append (h : l = [] ∨ l.getLast? = some '\n') (text : List Char) :
    pieces (l ++ text) = pieces l ++ pieces text := by
  induction hn : l.length using Nat.strong_induction_on generalizing l with
  | _ n ih =>
    rcases h with rfl | hlast
    · rw [pieces_nil]
      rfl
    · have hmem : '\n' ∈ l := List.mem_of_getLast? hlast
      have hnil : l ≠ [] := List.ne_nil_of_mem hmem
      have hsplit := takeLine_append_takeLine (lineLength - 1) l
      have hrest : (takeLine (lineLength - 1) l).2 = [] ∨
          (takeLine (lineLength - 1) l).2.getLast? = some '\n' := by
        by_cases hempty : (takeLine (lineLength - 1) l).2 = []
        · exact Or.inl hempty
        · rw [← hsplit, List.getLast?_append_of_ne_nil _ hempty] at hlast
          exact Or.inr hlast
      have hlt : (takeLine (lineLength - 1) l).2.length < n := hn ▸ length_takeLine_lt hnil
      rw [pieces_cons hnil, pieces_cons (List.append_ne_nil_of_left_ne_nil hnil _), takeLine_append hmem,
        ih _ hlt hrest rfl, List.cons_append]

/-! ## Comments -/

/-- What a comment holds behind the piece in which it begins. -/
def overflow (lead : List Char) (comment : Comment) : List Char :=
  comment.chars.drop (lineLength - 1 - lead.length % (lineLength - 1))

/-- What some text does, taken in pieces. -/
def outcomeOf (text : List Char) : Outcome := outcome ((pieces text).map scanPiece)

theorem outcomeOf_append (h : l = [] ∨ l.getLast? = some '\n') (text : List Char) :
    outcomeOf (l ++ text) = (outcomeOf l).followedBy (outcomeOf text) := by
  rw [outcomeOf, pieces_append h, List.map_append, outcome_append]
  rfl

theorem outcomeOf_cons (h : text ≠ []) :
    outcomeOf text = (outcome [scanPiece (takeLine (lineLength - 1) text).1]).followedBy
      (outcomeOf (takeLine (lineLength - 1) text).2) := by
  rw [outcomeOf, pieces_cons h, List.map_cons]
  exact outcome_append [_] _

theorem outcomeOf_nil : outcomeOf [] = ⟨[], false⟩ := by
  rw [outcomeOf, pieces_nil]
  rfl

/-- A piece with nothing to stop it, before the others. -/
theorem outcomeOf_full (hp : '\n' ∉ p) (hlen : p.length = lineLength - 1) (text : List Char) :
    outcomeOf (p ++ text) = (outcome [scanPiece p]).followedBy (outcomeOf text) := by
  have hnil : p ≠ [] := List.ne_nil_of_length_pos (hlen ▸ by decide)
  rw [outcomeOf_cons (List.append_ne_nil_of_left_ne_nil hnil text), hlen.symm, takeLine_full hp]

/-- A line that is taken in one piece. -/
theorem outcomeOf_line (hp : '\n' ∉ p) (hlen : p.length < lineLength - 1) {after : List Char}
    (hafter : after = [] ∨ after.head? = some '\n') :
    outcomeOf (p ++ after) = (outcome [scanPiece (p ++ after.take 1)]).followedBy (outcomeOf (after.drop 1)) := by
  by_cases hnil : p ++ after = []
  · obtain ⟨rfl, rfl⟩ := List.append_eq_nil_iff.mp hnil
    exact outcomeOf_nil.trans (by rw [List.drop_nil, outcomeOf_nil]; rfl)
  · rw [outcomeOf_cons hnil, takeLine_line hp hlen hafter]

/-- A `#` ends the string of its piece. -/
theorem scanPiece_comment (lead text : List Char) : scanPiece (lead ++ '#' :: text) = scanPiece lead := by
  have hskip : skipComments (lead ++ '#' :: text) = skipComments (lead ++ '\x00' :: text) := by
    unfold skipComments
    rw [List.map_append, List.map_append]
    rfl
  rw [scanPiece, hskip, cString_skipComments]
  rfl

theorem scanPiece_newline {after : List Char} (h : after = [] ∨ after.head? = some '\n') :
    scanPiece (after.take 1) = .blank := by
  rcases h with rfl | hhead
  · rfl
  · obtain ⟨rest, rfl⟩ := List.head?_eq_some_iff.mp hhead
    rfl

/-- A comment that begins in the first piece of its line. -/
theorem outcomeOf_comment_short {lead : List Char} (hlead : '\n' ∉ lead) (hshort : lead.length < lineLength - 1)
    (comment : Comment) {after : List Char} (hafter : after = [] ∨ after.head? = some '\n') :
    outcomeOf (lead ++ comment.chars ++ after) =
      (outcome [scanPiece lead]).followedBy
        (outcomeOf (comment.chars.drop (lineLength - 1 - lead.length) ++ after)) := by
  by_cases hfits : comment.chars.length < lineLength - 1 - lead.length
  · have hnl : '\n' ∉ lead ++ comment.chars := by
      rw [List.mem_append, not_or]
      exact ⟨hlead, comment.newline_chars⟩
    have hlen : (lead ++ comment.chars).length < lineLength - 1 := by
      rw [List.length_append]
      omega
    have hrest : outcomeOf after = outcomeOf (after.drop 1) := by
      have hline := outcomeOf_line (p := []) List.not_mem_nil (by decide) hafter
      rw [List.nil_append, List.nil_append, scanPiece_newline hafter] at hline
      exact hline
    rw [List.drop_eq_nil_of_le hfits.le, List.nil_append, outcomeOf_line hnl hlen hafter, hrest, List.append_assoc]
    exact congrArg (fun line => (outcome [line]).followedBy _) (scanPiece_comment lead _)
  · have hnl : '\n' ∉ lead ++ comment.chars.take (lineLength - 1 - lead.length) := by
      rw [List.mem_append, not_or]
      exact ⟨hlead, fun h => comment.newline_chars (List.mem_of_mem_take h)⟩
    have hlen : (lead ++ comment.chars.take (lineLength - 1 - lead.length)).length = lineLength - 1 := by
      rw [List.length_append, List.length_take_of_le (Nat.le_of_not_lt hfits)]
      omega
    obtain ⟨k, hk⟩ := Nat.exists_eq_succ_of_ne_zero (Nat.ne_of_gt (Nat.sub_pos_of_lt hshort))
    have hpiece : scanPiece (lead ++ comment.chars.take (lineLength - 1 - lead.length)) = scanPiece lead := by
      rw [hk]
      exact scanPiece_comment lead _
    have hsplit : lead ++ comment.chars ++ after =
        lead ++ comment.chars.take (lineLength - 1 - lead.length) ++
          (comment.chars.drop (lineLength - 1 - lead.length) ++ after) := by
      rw [List.append_assoc, List.append_assoc, ← List.append_assoc (comment.chars.take _), List.take_append_drop]
    rw [hsplit, outcomeOf_full hnl hlen, hpiece]

/-- **A line with a comment**: what stands before it is read, and what it holds behind its first
piece. -/
theorem outcomeOf_comment {lead : List Char} (hlead : '\n' ∉ lead) (comment : Comment) {after : List Char}
    (hafter : after = [] ∨ after.head? = some '\n') :
    outcomeOf (lead ++ comment.chars ++ after) =
      (outcomeOf lead).followedBy (outcomeOf (overflow lead comment ++ after)) := by
  induction hn : lead.length using Nat.strong_induction_on generalizing lead with
  | _ n ih =>
    by_cases hlong : lineLength - 1 ≤ lead.length
    · -- the first piece ends before the comment begins
      have htake : (lead.take (lineLength - 1)).length = lineLength - 1 := List.length_take_of_le hlong
      have hnl : '\n' ∉ lead.take (lineLength - 1) := fun h => hlead (List.mem_of_mem_take h)
      have hnl' : '\n' ∉ lead.drop (lineLength - 1) := fun h => hlead (List.mem_of_mem_drop h)
      have hsame : overflow (lead.drop (lineLength - 1)) comment = overflow lead comment := by
        rw [overflow, overflow, List.length_drop, ← Nat.mod_eq_sub_mod hlong]
      have hlt : (lead.drop (lineLength - 1)).length < n := by
        rw [List.length_drop]
        exact hn ▸ Nat.sub_lt (Nat.lt_of_lt_of_le (by decide) hlong) (by decide)
      have hrec := ih _ hlt hnl' rfl
      rw [hsame] at hrec
      rw [← List.take_append_drop (lineLength - 1) lead, List.append_assoc, List.append_assoc,
        outcomeOf_full hnl htake, outcomeOf_full hnl htake, ← List.append_assoc, hrec, Outcome.followedBy_assoc,
        List.take_append_drop]
    · have hshort : lead.length < lineLength - 1 := Nat.lt_of_not_le hlong
      have halone : outcomeOf lead = outcome [scanPiece lead] := by
        have hline := outcomeOf_line hlead hshort (Or.inl rfl)
        rwa [List.append_nil, List.take_nil, List.append_nil, List.drop_nil, outcomeOf_nil,
          Outcome.followedBy_nothing] at hline
      rw [halone, overflow, Nat.mod_eq_of_lt hshort, outcomeOf_comment_short hlead hshort comment hafter]

/-- What the lines hold that a comment makes behind the piece in which it begins. -/
def Commented.behind (t : Commented) : List Scanned := scans (overflow t.lead t.comment ++ t.after.take 1)

theorem outcomeOf_eq (text : List Char) : outcomeOf text = outcome (scans text) := by
  rw [outcomeOf, scans_eq]

/-- **A text with a comment**: the lines up to its first piece, what it holds behind it, and the
other lines. -/
theorem outcome_text (t : Commented) :
    outcome (scans t.text) = (outcome (scans (t.before ++ t.lead))).followedBy
      ((outcome t.behind).followedBy (outcome (scans (t.after.drop 1)))) := by
  have hafter : outcomeOf (overflow t.lead t.comment ++ t.after) =
      (outcome t.behind).followedBy (outcomeOf (t.after.drop 1)) := by
    rw [Commented.behind, ← outcomeOf_eq]
    rcases t.newline with hnil | hhead
    · rw [hnil, List.take_nil, List.drop_nil, outcomeOf_nil, Outcome.followedBy_nothing]
    · obtain ⟨rest, hrest⟩ := List.head?_eq_some_iff.mp hhead
      rw [hrest]
      have hline : (overflow t.lead t.comment ++ ['\n']).getLast? = some '\n' := List.getLast?_concat
      exact (congrArg outcomeOf (List.append_assoc _ ['\n'] rest).symm).trans (outcomeOf_append (Or.inr hline) rest)
  rw [← outcomeOf_eq, ← outcomeOf_eq, ← outcomeOf_eq, Commented.text, outcomeOf_append t.lines,
    outcomeOf_append t.lines, ← List.append_assoc, outcomeOf_comment t.line t.comment t.newline, hafter,
    Outcome.followedBy_assoc]

/-! ## What a read returns -/

/-- A channel but for its reader. -/
def unread (chn : ConfChannel) : ConfChannel := { chn with reader := none }

/-- Two configurations with the same channels, but for their readers. -/
structure Alike (cfg cfg' : Config) : Prop where
  nChannels : cfg.nChannels = cfg'.nChannels
  chns : cfg.chns.map unread = cfg'.chns.map unread

section

variable {cfg cfg' : Config}

theorem map_update {f g : ConfChannel → ConfChannel} (hf : ∀ chn, unread (f chn) = g (unread chn)) (addr : Nat) :
    (cfg.update addr f).chns.map unread =
      (cfg.chns.map unread).map fun chn => if chn.addr = addr then g chn else chn := by
  rw [Config.update, List.map_map, List.map_map]
  refine List.map_congr_left fun chn _ => ?_
  show unread (if chn.addr = addr then f chn else chn) = if chn.addr = addr then g (unread chn) else unread chn
  rw [apply_ite unread, hf]

/-- A change of the same channel, whatever its reader is. -/
theorem Alike.update (h : Alike cfg cfg') {f f' g : ConfChannel → ConfChannel}
    (hf : ∀ chn, unread (f chn) = g (unread chn)) (hf' : ∀ chn, unread (f' chn) = g (unread chn)) (addr : Nat) :
    Alike (cfg.update addr f) (cfg'.update addr f') :=
  ⟨h.nChannels, by rw [map_update hf, map_update hf', h.chns]⟩

theorem map_configFindChannel (cfg : Config) (name service : List Char) (flags : BitVec 32) :
    (configFindChannel cfg name service flags).map unread =
      (cfg.chns.map unread).find? (channelMatches name service flags) := by
  rw [List.find?_map]
  rfl

theorem Alike.configGetChannel (h : Alike cfg cfg') (name : List Char) (flags : BitVec 32) :
    (configGetChannel cfg name flags).1 = (configGetChannel cfg' name flags).1 ∧
      Alike (configGetChannel cfg name flags).2 (configGetChannel cfg' name flags).2 := by
  unfold Configuration.configGetChannel getChannel
  dsimp only
  generalize (parseName name 32).2 = pname, parseService name 32 = service, flags ||| (parseName name 32).1 = flags'
  have hfind := map_configFindChannel cfg pname service flags'
  rw [h.chns, ← map_configFindChannel] at hfind
  cases hchn : configFindChannel cfg pname service flags' with
  | none =>
    rw [hchn] at hfind
    rw [Option.map_eq_none_iff.mp hfind.symm]
    exact ⟨h.nChannels, congrArg (· + 1) h.nChannels, by
      show unread _ :: _ = unread _ :: _
      rw [h.chns, h.nChannels]⟩
  | some chn =>
    rw [hchn] at hfind
    obtain ⟨chn', hchn', heq⟩ := Option.map_eq_some_iff.mp hfind.symm
    rw [hchn']
    have haddr : (unread chn').addr = (unread chn).addr := congrArg ConfChannel.addr heq
    exact ⟨haddr.symm, h⟩

theorem unread_newReader (now : Timeval) (protocol : List Char) (chn : ConfChannel) :
    unread (newReader now protocol chn) = unread chn := by
  unfold newReader
  split <;> rfl

/-- **A directive** makes the same channels at any time. -/
theorem Alike.configDirective (h : Alike cfg cfg') (now now' : Timeval) (d : Directive) :
    Alike (configDirective now cfg d).2 (configDirective now' cfg' d).2 := by
  obtain ⟨hin, halike⟩ := h.configGetChannel d.portIn flagListen
  obtain ⟨hout, halike⟩ := (halike.update (g := id) (unread_newReader now d.protocolIn)
    (unread_newReader now' d.protocolIn)
    (Configuration.configGetChannel cfg d.portIn flagListen).1).configGetChannel d.portOut 0
  unfold Configuration.configDirective
  dsimp only
  rw [← hin, ← hout]
  refine Alike.update (g := id) ?_ ?_ ?_ _
  · refine Alike.update (g := fun chn => { chn with flags := chn.flags ||| channelFlagsOf d.protocolOut }) ?_ ?_ ?_ _
    · exact ⟨halike.nChannels, halike.chns⟩
    · exact fun _ => rfl
    · exact fun _ => rfl
  · exact fun _ => rfl
  · exact fun _ => rfl

end

/-- The number of channels when these directives have been executed. -/
def channelsAfter (cfg : Config) (ds : List Directive) : Nat :=
  (ds.foldl (fun cfg d => (configDirective ⟨0, 0⟩ cfg d).2) cfg).nChannels

theorem channelsAfter_congr {cfg cfg' : Config} (h : Alike cfg cfg') (ds : List Directive) :
    channelsAfter cfg ds = channelsAfter cfg' ds := by
  induction ds generalizing cfg cfg' with
  | nil => exact h.nChannels
  | cons d ds ih => exact ih (h.configDirective _ _ d)

/-! ## A read, and another -/

theorem readTrace_nil {now : Nat → Timeval} {cfg : Config} (h : fgets cfg.line text = none) :
    readTrace now cfg text = ([], (cfg.nChannels : Int), cfg) := by
  rw [readTrace]
  split
  · rfl
  · rename_i heq
    rw [h] at heq
    cases heq

theorem readTrace_cons {now : Nat → Timeval} {cfg : Config} {line rest : List Char}
    (h : fgets cfg.line text = some (line, rest)) :
    readTrace now cfg text =
      let ds := (directiveOf (skipComments line)).toList
      let x := configScanDirective (now rest.length) { cfg with line := skipComments line }
      if x.1 ≠ 0 then (ds, -1, x.2) else (ds ++ (readTrace now x.2 rest).1, (readTrace now x.2 rest).2) := by
  rw [readTrace]
  split
  · rename_i heq
    rw [h] at heq
    cases heq
  · rename_i line' rest' heq
    rw [h, Option.some.injEq, Prod.mk.injEq] at heq
    obtain ⟨rfl, rfl⟩ := heq
    rfl

/-- The read is that of `config_read`. -/
theorem readTrace_erase (now : Nat → Timeval) (cfg : Config) (text : List Char) :
    (readTrace now cfg text).2 = configRead now cfg (some text) := by
  show _ = readLines now cfg text
  induction hn : text.length using Nat.strong_induction_on generalizing text cfg with
  | _ n ih =>
    cases hget : fgets cfg.line text with
    | none => rw [readTrace_nil hget, readLines_nil hget]
    | some x =>
      obtain ⟨line, rest⟩ := x
      rw [readTrace_cons hget, readLines_cons hget]
      dsimp only
      rw [← ih _ (hn ▸ length_fgets hget) _ _ rfl, apply_ite Prod.snd]

/-- What a read with this outcome returns. -/
def resultOf (cfg : Config) (o : Outcome) : Int := if o.stopped then -1 else channelsAfter cfg o.directives

theorem resultOf_congr {cfg cfg' : Config} (h : Alike cfg cfg') (o : Outcome) : resultOf cfg o = resultOf cfg' o := by
  rw [resultOf, resultOf, channelsAfter_congr h]

/-- **A read** executes the directives of its outcome, and returns what they make. -/
theorem readTrace_eq (now : Nat → Timeval) (cfg : Config) (text : List Char) :
    (readTrace now cfg text).1 = (outcome (scans text)).directives ∧
      (readTrace now cfg text).2.1 = resultOf cfg (outcome (scans text)) := by
  induction hn : text.length using Nat.strong_induction_on generalizing text cfg with
  | _ n ih =>
    cases hget : fgets cfg.line text with
    | none =>
      rw [readTrace_nil hget, scans_line cfg.line, scannedLines_nil hget]
      exact ⟨rfl, rfl⟩
    | some x =>
      obtain ⟨line, rest⟩ := x
      have hrest := fun cfg' => ih rest.length (hn ▸ length_fgets hget) cfg' rest rfl
      have hsame : Alike { cfg with line := skipComments line } cfg := ⟨rfl, rfl⟩
      rw [scans_line cfg.line, scannedLines_cons hget, List.map_cons, ← scans_line]
      cases hscan : scan (cString (skipComments line)) with
      | blank =>
        have hread : readTrace now cfg text = readTrace now { cfg with line := skipComments line } rest := by
          simp only [readTrace_cons hget, directiveOf, configScanDirective, hscan]
          rfl
        obtain ⟨hds, hrc⟩ := hrest { cfg with line := skipComments line }
        rw [hread]
        exact ⟨hds, hrc.trans (resultOf_congr hsame _)⟩
      | invalid =>
        have hread : readTrace now cfg text = ([], -1, { cfg with line := skipComments line }) := by
          simp only [readTrace_cons hget, directiveOf, configScanDirective, hscan]
          rfl
        rw [hread]
        exact ⟨rfl, rfl⟩
      | directive d =>
        have hread : readTrace now cfg text =
            let x := readTrace now (configDirective (now rest.length) { cfg with line := skipComments line } d).2 rest
            (d :: x.1, x.2) := by
          simp only [readTrace_cons hget, directiveOf, configScanDirective, hscan]
          rfl
        obtain ⟨hds, hrc⟩ := hrest (configDirective (now rest.length) { cfg with line := skipComments line } d).2
        rw [hread]
        exact ⟨congrArg (d :: ·) hds, hrc.trans (resultOf_congr (hsame.configDirective _ _ d) _)⟩

theorem resultOf_neg {cfg : Config} {o : Outcome} : resultOf cfg o < 0 ↔ o.stopped = true := by
  unfold resultOf
  cases o.stopped with
  | true => exact ⟨fun _ => rfl, fun _ => Int.negSucc_lt_zero 0⟩
  | false => exact ⟨fun h => absurd h (Int.not_lt.mpr (Int.natCast_nonneg _)), nofun⟩

/-- What a read does shows its outcome. -/
theorem outcome_inj (cfg : Config) {o o' : Outcome} :
    o = o' ↔ o.directives = o'.directives ∧ resultOf cfg o = resultOf cfg o' := by
  constructor
  · rintro rfl
    exact ⟨rfl, rfl⟩
  · rintro ⟨hds, hrc⟩
    have hstopped : o.stopped = true ↔ o'.stopped = true := by rw [← resultOf_neg, hrc, resultOf_neg]
    cases o
    cases o'
    exact congr (congrArg _ hds) (Bool.eq_iff_iff.mpr hstopped)

/-- **A comment that takes the place of another** changes neither the directives nor the result if
and only if the read stops before, or what the two hold behind their first pieces comes to the same,
with the lines behind the comment. -/
theorem ignored_iff (now now' : Nat → Timeval) (cfg : Config) (t : Commented) (comment : Comment) :
    Ignored now now' cfg t comment ↔
      .invalid ∈ scans (t.before ++ t.lead) ∨
      outcome t.behind = outcome (t.replace comment).behind ∨
      (outcome t.behind).StopsShort (outcome (t.replace comment).behind) (outcome (scans (t.after.drop 1))) ∨
      (outcome (t.replace comment).behind).StopsShort (outcome t.behind) (outcome (scans (t.after.drop 1))) := by
  have hiff : Ignored now now' cfg t comment ↔ outcome (scans t.text) = outcome (scans (t.replace comment).text) := by
    obtain ⟨hds, hrc⟩ := readTrace_eq now cfg t.text
    obtain ⟨hds', hrc'⟩ := readTrace_eq now' cfg (t.replace comment).text
    rw [outcome_inj cfg, ← hds, ← hds', ← hrc, ← hrc', readTrace_erase, readTrace_erase]
    exact ⟨fun h => ⟨h.directives, h.result⟩, fun h => ⟨h.1, h.2⟩⟩
  rw [hiff, outcome_text, outcome_text, ← stopped_outcome, ← Outcome.followedBy_inj_left]
  exact Outcome.followedBy_inj_right

/-- A file with an empty comment. -/
def emptyComment : Commented where
  before := []
  lead := []
  comment := ⟨[], List.not_mem_nil⟩
  after := ['\n']
  lines := Or.inl rfl
  line := List.not_mem_nil
  first := List.not_mem_nil
  newline := Or.inr rfl

/-- A comment of 255 characters and a directive behind them. -/
def longComment : Comment where
  text := List.replicate 254 'x' ++ "vicon /dev/a 1 vicon /dev/b".toList
  newline := by decide

/-- The directive behind the 255 characters. -/
def commentedOut : Directive :=
  ⟨"vicon".toList, "/dev/a".toList, "1".toList, "vicon".toList, "/dev/b".toList, ['0'], []⟩

theorem outcome_emptyComment : outcome (scans emptyComment.text) = ⟨[], false⟩ := by
  have hpieces : pieces emptyComment.text = [['#', '\n']] :=
    (pieces_cons (List.cons_ne_nil _ _)).trans (congrArg (_ :: ·) pieces_nil)
  rw [scans_eq, hpieces]
  rfl

theorem outcome_longComment :
    outcome (scans (emptyComment.replace longComment).text) = ⟨[commentedOut], false⟩ := by
  have hbehind : (emptyComment.replace longComment).behind = [.directive commentedOut] := by
    have hpieces : pieces "vicon /dev/a 1 vicon /dev/b\n".toList = ["vicon /dev/a 1 vicon /dev/b\n".toList] :=
      (pieces_cons (List.cons_ne_nil _ _)).trans (congrArg (_ :: ·) pieces_nil)
    show scans "vicon /dev/a 1 vicon /dev/b\n".toList = _
    rw [scans_eq, hpieces]
    rfl
  have hnone : outcome (scans []) = ⟨[], false⟩ := by
    rw [scans_eq, pieces_nil]
    rfl
  rw [outcome_text, hbehind]
  show (outcome (scans [])).followedBy ((outcome [.directive commentedOut]).followedBy (outcome (scans []))) = _
  rw [hnone]
  rfl

/-- The file with the empty comment has no directive; with the long one in its place it has a
directive, which makes two channels. -/
theorem not_ignored :
    (readTrace (fun _ => ⟨0, 0⟩) configInit emptyComment.text).1 = [] ∧
    (readTrace (fun _ => ⟨0, 0⟩) configInit (emptyComment.replace longComment).text).1 = [commentedOut] ∧
    (configRead (fun _ => ⟨0, 0⟩) configInit (some emptyComment.text)).1 = 0 ∧
    (configRead (fun _ => ⟨0, 0⟩) configInit (some (emptyComment.replace longComment).text)).1 = 2 ∧
    ¬Ignored (fun _ => ⟨0, 0⟩) (fun _ => ⟨0, 0⟩) configInit emptyComment longComment := by
  obtain ⟨hds, hrc⟩ := readTrace_eq (fun _ => ⟨0, 0⟩) configInit emptyComment.text
  obtain ⟨hds', hrc'⟩ := readTrace_eq (fun _ => ⟨0, 0⟩) configInit (emptyComment.replace longComment).text
  rw [readTrace_erase, outcome_emptyComment] at hrc
  rw [readTrace_erase, outcome_longComment] at hrc'
  rw [outcome_emptyComment] at hds
  rw [outcome_longComment] at hds'
  refine ⟨hds, hds', hrc, hrc', fun h => ?_⟩
  have hsame := h.directives
  rw [hds, hds'] at hsame
  cases hsame

end Protozoa.Configuration
