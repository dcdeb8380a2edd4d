import Protozoa.Protocol.Axis

/-!
# The grammar of Axis requests

What `axis.c` writes is `GET <path>?name=value(&name=value)* HTTP/1.0`, a line with the
authorization if the writer has a token (`axis_auth`, `axis.c:27`), and an empty line
(`axis_ending`, `axis.c:28`). A `Request` is its path, its parameters and its token; `Request.text`
is its text.

* `Plain`: a name or a value has none of the characters that separate them. `Request.Shaped` and
  `Request.WellFormed` are what is asked of a request; the second also of the two numbers of a
  `continuouspantiltmove` (`IsMove`).
* `readQuery_request`, `paramsOf_text`: the query and the parameters are read back from the text, so
  that no text is that of two requests.

Out of scope: what a camera makes of a request (`Protocol/AxisCamera.lean` has a camera as a
parameter), and any part of the protocol that the program does not write.
-/

namespace Protozoa.Axis

/-! ## Numbers -/

/-- The bytes that separate the parts of a request. -/
def separators : List Byte := ascii " ?&=,"

/-- A number has a sign and digits only. -/
theorem mem_formatInt {n : Int} {c : Byte} (h : c ∈ formatInt n) :
    c = 0x2d ∨ (48 ≤ c.toNat ∧ c.toNat ≤ 57) := by
  have hdigits : c ∈ ((Nat.toDigits 10 n.natAbs).map fun d => BitVec.ofNat 8 d.toNat) →
      48 ≤ c.toNat ∧ c.toNat ≤ 57 := by
    intro hmem
    obtain ⟨d, hd, rfl⟩ := List.mem_map.mp hmem
    have hdigit := Nat.isDigit_of_mem_toDigits (by decide) (by decide) hd
    simp only [Char.isDigit, Bool.and_eq_true, decide_eq_true_eq, UInt32.le_iff_toNat_le] at hdigit
    have h48 : 48 ≤ d.toNat := hdigit.1
    have h57 : d.toNat ≤ 57 := hdigit.2
    rw [BitVec.toNat_ofNat, Nat.mod_eq_of_lt (by omega)]
    exact ⟨h48, h57⟩
  simp only [formatInt] at h
  split at h
  · exact (List.mem_append.mp h).imp (fun hminus => List.mem_singleton.mp hminus) hdigits
  · exact Or.inr (hdigits h)

theorem formatInt_separators (n : Int) : ∀ c ∈ separators, c ∉ formatInt n := by
  have hsep : ∀ c ∈ separators, ¬(c = 0x2d ∨ (48 ≤ c.toNat ∧ c.toNat ≤ 57)) := by decide
  exact fun c hc hmem => hsep c hc (mem_formatInt hmem)

theorem length_formatInt {n : Int} {k : Nat} (hk : 0 < k) (h : n.natAbs < 10 ^ k) :
    (formatInt n).length ≤ k + 1 := by
  have hdigits := (@Nat.length_toDigits_le_iff 10 n.natAbs k (by decide) hk).mpr h
  have hminus : (ascii "-").length = 1 := by decide
  simp only [formatInt]
  split
  · rw [List.length_append, List.length_map, hminus]
    omega
  · rw [List.length_map]
    omega

/-! ## The grammar -/

/-- One request. -/
structure Request where
  path : List Byte
  params : List (List Byte × List Byte)
  token : Option (List Byte)

def paramText (param : List Byte × List Byte) : List Byte := param.1 ++ 0x3d :: param.2

/-- `name=value(&name=value)*`. -/
def queryText (params : List (List Byte × List Byte)) : List Byte :=
  List.intercalate [0x26] (params.map paramText)

def tokenText : Option (List Byte) → List Byte
  | none => []
  | some token => ascii "\r\nAuthorization: Basic " ++ token

/-- The text of a request: its line, the authorization if there is one, and the blank line. -/
def Request.text (r : Request) : List Byte :=
  ascii "GET " ++ r.path ++ ascii "?" ++ queryText r.params ++ ascii " HTTP/1.0" ++ tokenText r.token ++
    ascii "\r\n\r\n"

/-- The first line of a request, without its end. -/
def requestLine (path : List Byte) (params : List (List Byte × List Byte)) : List Byte :=
  ascii "GET " ++ path ++ ascii "?" ++ queryText params ++ ascii " HTTP/1.0"

def cgiPaths : List (List Byte) := [ascii "/axis-cgi/com/ptz.cgi", ascii "/axis-cgi/com/ptzconfig.cgi"]

/-- Blank, tabulators, and the ends of a line or a page. -/
def whitespace : List Byte := [0x20, 0x09, 0x0a, 0x0b, 0x0c, 0x0d]

/-- The path of a request. -/
def cgiPath (config : Bool) : List Byte :=
  if config then ascii "/axis-cgi/com/ptzconfig.cgi" else ascii "/axis-cgi/com/ptz.cgi"

theorem mem_cgiPaths (config : Bool) : cgiPath config ∈ cgiPaths := by
  cases config <;> decide

/-- A name or a value: not empty, and with nothing in it that ends a part of the request. -/
def Plain (s : List Byte) : Prop := s ≠ [] ∧ ∀ c ∈ ascii "?&=" ++ whitespace, c ∉ s

/-- Two integers between -100 and 100, separated by one comma. -/
def IsMove (value : List Byte) : Prop :=
  ∃ pan tilt : Int, pan.natAbs ≤ 100 ∧ tilt.natAbs ≤ 100 ∧
    value = formatInt pan ++ 0x2c :: formatInt tilt

/-- A request of the form, whatever the values say. -/
structure Request.Shaped (r : Request) : Prop where
  path : r.path ∈ cgiPaths
  some : r.params ≠ []
  plain : ∀ param ∈ r.params, Plain param.1 ∧ Plain param.2
  token : ∀ token ∈ r.token, token ≠ [] ∧ ∀ c ∈ whitespace, c ∉ token

/-- A well-formed request. -/
structure Request.WellFormed (r : Request) : Prop extends r.Shaped where
  move : ∀ param ∈ r.params, param.1 = ascii "continuouspantiltmove" → IsMove param.2

instance (s : List Byte) : Decidable (Plain s) := inferInstanceAs (Decidable (_ ∧ _))

theorem prefixOf_eq (config : Bool) : prefixOf false config = ascii "GET " ++ cgiPath config ++ ascii "?" := by
  cases config <;> decide

/-! ## Reading a request -/

/-- The query of a request: its second word, from the question mark on. -/
def readQuery (request : List Byte) : List Byte :=
  match request.splitOn 0x20 with
  | _ :: target :: _ =>
    match target.splitOn 0x3f with
    | [_, query] => query
    | _ => []
  | _ => []

/-- The query stands between header and trailer. -/
theorem readQuery_request (config : Bool) {query : List Byte} (rest : List Byte)
    (h0 : (0x20 : Byte) ∉ query) (h1 : (0x3f : Byte) ∉ query) :
    readQuery (prefixOf false config ++ query ++ axisTrailer ++ rest) = query := by
  obtain ⟨path, hpath, hblank, hmark⟩ : ∃ path,
      prefixOf false config = ascii "GET" ++ 0x20 :: (path ++ [0x3f]) ∧
        (0x20 : Byte) ∉ path ∧ (0x3f : Byte) ∉ path := by
    cases config with
    | false => exact ⟨ascii "/axis-cgi/com/ptz.cgi", by decide, by decide, by decide⟩
    | true => exact ⟨ascii "/axis-cgi/com/ptzconfig.cgi", by decide, by decide, by decide⟩
  have htrailer : axisTrailer = 0x20 :: ascii "HTTP/1.0" := by decide
  have hshape : prefixOf false config ++ query ++ axisTrailer ++ rest =
      ascii "GET" ++ 0x20 :: ((path ++ 0x3f :: query) ++ 0x20 :: (ascii "HTTP/1.0" ++ rest)) := by
    rw [hpath, htrailer]
    simp
  have htarget : (0x20 : Byte) ∉ path ++ 0x3f :: query := by
    simp only [List.mem_append, List.mem_cons, not_or]
    exact ⟨hblank, by decide, h0⟩
  unfold readQuery
  rw [hshape, List.splitOn_append_cons_self_of_not_mem (by decide),
    List.splitOn_append_cons_self_of_not_mem htarget]
  dsimp only
  rw [List.splitOn_append_cons_self_of_not_mem hmark, List.splitOn_eq_singleton h1]

/-- The name and the value of a parameter. -/
def paramOf (param : List Byte) : List Byte × List Byte :=
  match param.splitOn 0x3d with
  | [name, value] => (name, value)
  | _ => ([], [])

/-- The parameters of a request. -/
def paramsOf (request : List Byte) : List (List Byte × List Byte) :=
  ((readQuery request).splitOn 0x26).map paramOf

theorem paramOf_text {param : List Byte × List Byte} (h : Plain param.1 ∧ Plain param.2) :
    paramOf (paramText param) = param := by
  have hname : (0x3d : Byte) ∉ param.1 := h.1.2 _ (by decide)
  have hvalue : (0x3d : Byte) ∉ param.2 := h.2.2 _ (by decide)
  unfold paramOf paramText
  rw [List.splitOn_append_cons_self_of_not_mem hname, List.splitOn_eq_singleton hvalue]

/-- No parameter has a byte in it that ends one, or the query. -/
theorem not_mem_paramText {param : List Byte × List Byte} (h : Plain param.1 ∧ Plain param.2) :
    ∀ c ∈ ascii " ?&", c ∉ paramText param := by
  have hsep : ∀ c ∈ ascii " ?&", c ∈ ascii "?&=" ++ whitespace ∧ c ≠ 0x3d := by decide
  intro c hc
  obtain ⟨hc', hne⟩ := hsep c hc
  exact List.not_mem_append (h.1.2 c hc') (List.not_mem_cons_of_ne_of_not_mem hne (h.2.2 c hc'))

theorem queryText_singleton (param : List Byte × List Byte) : queryText [param] = paramText param :=
  List.intercalate_singleton

theorem queryText_cons (param : List Byte × List Byte) {params : List (List Byte × List Byte)}
    (h : params ≠ []) : queryText (param :: params) = paramText param ++ 0x26 :: queryText params := by
  have hne : params.map paramText ≠ [] := by simpa using h
  simp only [queryText, List.map_cons, List.intercalate_cons_of_ne_nil hne, List.append_assoc,
    List.cons_append, List.nil_append]

theorem not_mem_queryText {params : List (List Byte × List Byte)}
    (h : ∀ param ∈ params, Plain param.1 ∧ Plain param.2) {c : Byte} (hc : c ∈ ascii " ?") :
    c ∉ queryText params := by
  have hsep : ∀ c ∈ ascii " ?", c ∈ ascii " ?&" ∧ c ≠ 0x26 := by decide
  obtain ⟨hc', hne⟩ := hsep c hc
  induction params with
  | nil => exact List.not_mem_nil
  | cons param params ih =>
    have hhead := not_mem_paramText (h param List.mem_cons_self) c hc'
    have htail := ih fun param hparam => h param (List.mem_cons_of_mem _ hparam)
    by_cases hnil : params = []
    · rw [hnil, queryText_singleton]
      exact hhead
    · rw [queryText_cons param hnil]
      exact List.not_mem_append hhead (List.not_mem_cons_of_ne_of_not_mem hne htail)

/-- **A request says which parameters it has**. -/
theorem paramsOf_text {r : Request} (h : r.Shaped) : paramsOf r.text = r.params := by
  obtain ⟨config, hpath⟩ : ∃ config, ascii "GET " ++ r.path ++ ascii "?" = prefixOf false config := by
    rcases List.mem_cons.mp h.path with hpath | hpath
    · exact ⟨false, by rw [hpath]; decide⟩
    · exact ⟨true, by rw [List.mem_singleton.mp hpath]; decide⟩
  have hquery : readQuery r.text = queryText r.params := by
    unfold Request.text
    rw [hpath, List.append_assoc (_ ++ _ ++ _)]
    exact readQuery_request config _ (not_mem_queryText h.plain (by decide))
      (not_mem_queryText h.plain (by decide))
  have hamp : ∀ text ∈ r.params.map paramText, (0x26 : Byte) ∉ text := by
    intro text htext
    obtain ⟨param, hparam, rfl⟩ := List.mem_map.mp htext
    exact not_mem_paramText (h.plain param hparam) _ (by decide)
  unfold paramsOf
  rw [hquery, queryText, List.splitOn_intercalate _ hamp (by simpa using h.some), List.map_map]
  exact (List.map_congr_left fun param hparam => paramOf_text (h.plain param hparam)).trans
    (List.map_id _)

/-! ## Names and values -/

theorem plain_number (n : Int) : Plain (formatInt n) := by
  have hbytes : ∀ c ∈ ascii "?&=" ++ whitespace, ¬(c = 0x2d ∨ (48 ≤ c.toNat ∧ c.toNat ≤ 57)) := by decide
  refine ⟨?_, fun c hc hmem => hbytes c hc (mem_formatInt hmem)⟩
  simp only [formatInt]
  split <;> simp

theorem Plain.append {s t : List Byte} (hs : Plain s) (ht : ∀ c ∈ ascii "?&=" ++ whitespace, c ∉ t) :
    Plain (s ++ t) :=
  ⟨List.append_ne_nil_of_left_ne_nil hs.1 t, fun c hc => List.not_mem_append (hs.2 c hc) (ht c hc)⟩

/-- One comma, and so two pieces. -/
theorem IsMove.pieces {value : List Byte} (h : IsMove value) : (value.splitOn 0x2c).length = 2 := by
  obtain ⟨pan, tilt, -, -, rfl⟩ := h
  rw [List.splitOn_append_cons_self_of_not_mem (formatInt_separators pan _ (by decide)),
    List.splitOn_eq_singleton (formatInt_separators tilt _ (by decide))]
  rfl

end Protozoa.Axis
