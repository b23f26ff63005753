import IosDevBootcamp.Lib.Loop
import IosDevBootcamp.Lib.Percent
import IosDevBootcamp.Lib.Pieces

/-!
# Multipart bodies

The parts of a form, as a server reads them.  A line that begins with two hyphens and the boundary ends
a part, and two more hyphens end the body.  What was written comes back if and only if no line of a
content begins so; a name that comes back has no quote and no line break.
-/

namespace IosDevBootcamp.Lib.Multipart

open Percent Pieces

structure Part where
  name : List UInt8
  fileName : Option (List UInt8)
  content : List UInt8
  deriving DecidableEq, Repr

def crlf : List UInt8 := [13, 10]

def hyphens : List UInt8 := [45, 45]

def quote : UInt8 := 34

/-! ### Reading -/

def field : List UInt8 := utf8 "Content-Disposition: form-data; name=".toList

def fileNameParameter : List UInt8 := utf8 "; filename=".toList

/-- The name and the file name of a `Content-Disposition`. -/
def parseDisposition (line : List UInt8) : Option (List UInt8 × Option (List UInt8)) :=
  match pieces [quote] line with
  | [start, name, []] => if start = field then some (name, none) else none
  | [start, name, parameter, fileName, []] =>
    if start = field ∧ parameter = fileNameParameter then some (name, some fileName) else none
  | _ => none

/-- The lines of a part: its header, an empty line and its content. -/
def parsePart (lines : List (List UInt8)) : Option Part :=
  match lines.dropWhile (· ≠ []) with
  | [] => none
  | _ :: content => ((lines.takeWhile (· ≠ [])).findSome? parseDisposition).map fun p =>
    ⟨p.1, p.2, crlf.intercalate content⟩

/-- The lines before the first delimiter, and those of the parts, up to the line that ends the
body. -/
def scan (delimiter : List UInt8) :
    List (List UInt8) → Option (List (List UInt8) × List (List (List UInt8)))
  | [] => none
  | line :: lines =>
    if delimiter ++ hyphens <+: line then some ([], [])
    else (scan delimiter lines).map fun r =>
      if delimiter <+: line then ([], r.1 :: r.2) else (line :: r.1, r.2)

def parse (boundary body : List UInt8) : Option (List Part) := do
  let r ← scan (hyphens ++ boundary) (pieces crlf body)
  r.2.mapM parsePart

/-! ### Writing -/

/-- What is written for a part: the lines of its header, and its content. -/
structure Entity where
  header : List (List UInt8)
  content : List UInt8

def Entity.bytes (e : Entity) : List UInt8 := e.header.flatMap (· ++ crlf) ++ (crlf ++ e.content)

def write (boundary : List UInt8) : List Entity → List UInt8
  | [] => hyphens ++ boundary ++ hyphens ++ (crlf ++ [])
  | e :: es => hyphens ++ boundary ++ (crlf ++ (e.bytes ++ (crlf ++ write boundary es)))

def disposition (name : List UInt8) (fileName : Option (List UInt8)) : List UInt8 :=
  match fileName with
  | some fileName => field ++ quote :: (name ++ quote :: (fileNameParameter ++
      quote :: (fileName ++ [quote])))
  | none => field ++ quote :: (name ++ [quote])

/-- Bytes that can stand between quotes in a line. -/
def Quotable (t : List UInt8) : Prop := quote ∉ t ∧ ¬ crlf <:+: t

instance (t : List UInt8) : Decidable (Quotable t) :=
  inferInstanceAs (Decidable (quote ∉ t ∧ ¬ crlf <:+: t))

/-- No line of a content begins as a delimiter. -/
def Free (boundary content : List UInt8) : Prop :=
  ∀ line ∈ pieces crlf content, ¬ hyphens ++ boundary <+: line

instance (boundary content : List UInt8) : Decidable (Free boundary content) :=
  inferInstanceAs (Decidable (∀ line ∈ pieces crlf content, ¬ hyphens ++ boundary <+: line))

/-- The lines of a header, which are neither empty nor broken nor delimiters. -/
structure Writes (e : Entity) (p : Part) : Prop where
  nonempty : ∀ line ∈ e.header, line ≠ []
  unbroken : ∀ line ∈ e.header, ¬ crlf <:+: line
  plain : ∀ line ∈ e.header, ¬ hyphens <+: line
  disposition : e.header.findSome? parseDisposition = some (p.name, p.fileName)
  content : e.content = p.content

/-! ### Lines -/

section Lines

variable {line x l : List UInt8} {lines lines' : List (List UInt8)}

lemma crlf_ne_nil : crlf ≠ [] := List.cons_ne_nil _ _

lemma cr_notMem_lf : (13 : UInt8) ∉ ([10] : List UInt8) := by decide

/-- A line break parts the lines before it from those after it. -/
lemma lines_append (x l : List UInt8) :
    pieces crlf (x ++ (crlf ++ l)) = pieces crlf x ++ pieces crlf l :=
  pieces_append_append cr_notMem_lf x l

lemma lines_of_unbroken (h : ¬ crlf <:+: line) : pieces crlf line = [line] :=
  pieces_of_not_infix h

lemma lines_bytes {e : Entity} {p : Part} (h : Writes e p) :
    pieces crlf e.bytes = e.header ++ [] :: pieces crlf e.content := by
  rw [Entity.bytes, crlf, pieces_flatMap cr_notMem_lf h.unbroken,
    pieces_append_self (List.cons_ne_nil _ _)]

lemma not_broken {t : List UInt8} (h : 13 ∉ t) : ¬ crlf <:+: t :=
  fun h' => h (h'.subset List.mem_cons_self)

end Lines

/-! ### Parts -/

section Parts

variable {delimiter boundary body : List UInt8} {lines current : List (List UInt8)}
  {parts : List (List (List UInt8))} {e : Entity} {p : Part}

/-- Lines that are no delimiters belong to what is before the next delimiter. -/
lemma scan_append (h : ∀ line ∈ lines, ¬ delimiter <+: line) (rest : List (List UInt8)) :
    scan delimiter (lines ++ rest) =
      (scan delimiter rest).map fun r => (lines ++ r.1, r.2) := by
  induction lines with
  | nil => simp
  | cons line lines ih =>
    obtain ⟨hline, hlines⟩ := List.forall_mem_cons.mp h
    have hclose : ¬ delimiter ++ hyphens <+: line :=
      fun hp => hline ((List.prefix_append _ _).trans hp)
    rw [List.cons_append, scan, if_neg hclose, ih hlines, Option.map_map]
    simp only [if_neg hline]
    rfl

lemma scan_delimiter (rest : List (List UInt8)) :
    scan delimiter (delimiter :: rest) =
      (scan delimiter rest).map fun r => ([], r.1 :: r.2) := by
  have hclose : ¬ delimiter ++ hyphens <+: delimiter := by
    intro h
    have hlen := h.length_le
    rw [List.length_append] at hlen
    simp [hyphens] at hlen
  rw [scan, if_neg hclose]
  simp

lemma scan_close (rest : List (List UInt8)) :
    scan delimiter ((delimiter ++ hyphens) :: rest) = some ([], []) := by
  rw [scan, if_pos List.prefix_rfl]

/-- The lines that are found are lines of the body and no delimiters. -/
lemma mem_scan (h : scan delimiter lines = some (current, parts)) :
    (∀ line ∈ current, line ∈ lines ∧ ¬ delimiter <+: line) ∧
      ∀ part ∈ parts, ∀ line ∈ part, line ∈ lines ∧ ¬ delimiter <+: line := by
  induction lines generalizing current parts with
  | nil => cases h
  | cons line lines ih =>
    rw [scan] at h
    split at h
    · cases h
      exact ⟨by simp, by simp⟩
    · obtain ⟨⟨current', parts'⟩, hscan, hr⟩ := Option.map_eq_some_iff.mp h
      obtain ⟨hcurrent, hparts⟩ := ih hscan
      have hold : ∀ l, l ∈ lines ∧ ¬ delimiter <+: l → l ∈ line :: lines ∧ ¬ delimiter <+: l :=
        fun l hl => ⟨List.mem_cons_of_mem line hl.1, hl.2⟩
      split at hr
      · cases hr
        exact ⟨by simp, List.forall_mem_cons.mpr ⟨fun l hl => hold l (hcurrent l hl),
          fun part hpart l hl => hold l (hparts part hpart l hl)⟩⟩
      · rename_i hnot
        cases hr
        exact ⟨List.forall_mem_cons.mpr ⟨⟨List.mem_cons_self, hnot⟩,
          fun l hl => hold l (hcurrent l hl)⟩, fun part hpart l hl => hold l (hparts part hpart l hl)⟩

/-- A content in which the delimiter does not occur. -/
lemma free_of_not_infix {content : List UInt8} (h : ¬ hyphens ++ boundary <:+: content) :
    Free boundary content := fun line hline hpre =>
  h (hpre.isInfix.trans (infix_of_mem_pieces crlf_ne_nil content line hline))

lemma free_of_notMem {content : List UInt8} (h : 45 ∉ content) : Free boundary content :=
  free_of_not_infix fun h' => h (h'.subset List.mem_cons_self)

/-- **No content that is read has a line that begins as a delimiter.** -/
theorem free_of_parse {ps : List Part} (h : parse boundary body = some ps) :
    ∀ p ∈ ps, Free boundary p.content := by
  obtain ⟨⟨current, parts⟩, hscan, hparts⟩ := Option.bind_eq_some_iff.mp h
  have hlines := (mem_scan hscan).2
  intro p hp
  obtain ⟨lines, hmem, hpart⟩ := Loop.exists_of_mem_mapM hparts hp
  rw [parsePart] at hpart
  split at hpart
  · cases hpart
  · rename_i blank content hcontent
    obtain ⟨q, -, rfl⟩ := Option.map_eq_some_iff.mp hpart
    have hsub : ∀ line ∈ content, line ∈ pieces crlf body ∧ ¬ hyphens ++ boundary <+: line := by
      intro line hline
      have hdrop : line ∈ lines.dropWhile (· ≠ []) :=
        hcontent ▸ List.mem_cons_of_mem blank hline
      exact hlines lines hmem line ((List.dropWhile_sublist _).subset hdrop)
    by_cases hnil : content = []
    · rw [hnil]
      exact free_of_notMem List.not_mem_nil
    · intro line hline
      rw [crlf, pieces_intercalate cr_notMem_lf
        (fun l hl => not_infix_of_mem_pieces crlf_ne_nil body l (hsub l hl).1) hnil] at hline
      exact (hsub line hline).2

/-- What stands between quotes in a line. -/
lemma quotable_of_parseDisposition {line : List UInt8} (hline : ¬ crlf <:+: line)
    {r : List UInt8 × Option (List UInt8)} (h : parseDisposition line = some r) :
    Quotable r.1 ∧ ∀ t ∈ r.2, Quotable t := by
  have hall : ∀ t ∈ pieces [quote] line, Quotable t := by
    intro t ht
    refine ⟨fun hmem => ?_, fun h' => ?_⟩
    · exact not_infix_of_mem_pieces (List.cons_ne_nil _ _) line t ht
        ((List.singleton_infix_iff quote t).mpr hmem)
    · exact hline (h'.trans (infix_of_mem_pieces (List.cons_ne_nil _ _) line t ht))
  unfold parseDisposition at h
  split at h
  · rename_i start name hpieces
    split at h <;> cases h
    exact ⟨hall _ (by simp [hpieces]), nofun⟩
  · rename_i start name parameter fileName hpieces
    split at h <;> cases h
    refine ⟨hall _ (by simp [hpieces]), ?_⟩
    rintro t ⟨⟩
    exact hall _ (by simp [hpieces])
  · cases h

/-- **No name that is read has a quote or a line break.** -/
theorem quotable_of_parse {ps : List Part} (h : parse boundary body = some ps) :
    ∀ p ∈ ps, Quotable p.name ∧ ∀ t ∈ p.fileName, Quotable t := by
  obtain ⟨⟨current, parts⟩, hscan, hparts⟩ := Option.bind_eq_some_iff.mp h
  intro p hp
  obtain ⟨lines, hmem, hpart⟩ := Loop.exists_of_mem_mapM hparts hp
  rw [parsePart] at hpart
  split at hpart
  · cases hpart
  · obtain ⟨r, hr, rfl⟩ := Option.map_eq_some_iff.mp hpart
    obtain ⟨line, hline, hdisposition⟩ := List.exists_of_findSome?_eq_some hr
    have hbody := ((mem_scan hscan).2 lines hmem line ((List.takeWhile_sublist _).subset hline)).1
    exact quotable_of_parseDisposition (not_infix_of_mem_pieces crlf_ne_nil body line hbody)
      hdisposition

lemma parsePart_lines (h : Writes e p) :
    parsePart (e.header ++ [] :: pieces crlf e.content) = some p := by
  have hall : ∀ line ∈ e.header, decide (line ≠ []) = true := fun line hline =>
    decide_eq_true (h.nonempty line hline)
  rw [parsePart, List.dropWhile_append_of_pos hall, List.takeWhile_append_of_pos hall]
  simp only [ne_eq, not_true_eq_false, decide_false, List.dropWhile_cons_of_neg,
    List.takeWhile_cons_of_neg, Bool.false_eq_true, not_false_eq_true, List.append_nil,
    h.disposition, Option.map_some, intercalate_pieces crlf_ne_nil, h.content]

/-- The lines of what is written. -/
lemma lines_write (hboundary : 13 ∉ boundary) (e : Entity) (p : Part) (h : Writes e p)
    (es : List Entity) : pieces crlf (write boundary (e :: es)) =
      (hyphens ++ boundary) :: (e.header ++ [] :: pieces crlf e.content) ++
        pieces crlf (write boundary es) := by
  have hdelimiter : ¬ crlf <:+: hyphens ++ boundary :=
    not_broken (by simpa [hyphens] using hboundary)
  rw [write, lines_append, lines_append, lines_of_unbroken hdelimiter, lines_bytes h]
  rfl

lemma lines_write_nil (hboundary : 13 ∉ boundary) :
    pieces crlf (write boundary []) = [hyphens ++ boundary ++ hyphens, []] := by
  have hclose : ¬ crlf <:+: hyphens ++ boundary ++ hyphens :=
    not_broken (by simpa [hyphens] using hboundary)
  rw [write, lines_append, lines_of_unbroken hclose]
  rfl

variable {α : Type*} {l : List α} {f : α → Entity} {g : α → Part}

/-- Each part is found with its lines. -/
lemma scan_write (hboundary : 13 ∉ boundary) (hl : ∀ a ∈ l, Writes (f a) (g a))
    (hfree : ∀ a ∈ l, Free boundary (g a).content) :
    scan (hyphens ++ boundary) (pieces crlf (write boundary (l.map f))) =
      some ([], l.map fun a => (f a).header ++ [] :: pieces crlf (f a).content) := by
  induction l with
  | nil =>
    rw [List.map_nil, lines_write_nil hboundary, scan_close]
    rfl
  | cons a l ih =>
    obtain ⟨ha, hl⟩ := List.forall_mem_cons.mp hl
    obtain ⟨hafree, hfree⟩ := List.forall_mem_cons.mp hfree
    have hlines : ∀ line ∈ (f a).header ++ [] :: pieces crlf (f a).content,
        ¬ hyphens ++ boundary <+: line := by
      intro line hline
      rcases List.mem_append.mp hline with hline | hline
      · exact fun hp => ha.plain line hline ((List.prefix_append _ _).trans hp)
      · rcases List.mem_cons.mp hline with rfl | hline
        · exact fun hp => by cases List.prefix_nil.mp hp
        · exact hafree line (ha.content ▸ hline)
    rw [List.map_cons, lines_write hboundary _ _ ha, List.cons_append, scan_delimiter,
      scan_append hlines, ih hl hfree]
    simp

/-- **What is written comes back if and only if no line of a content begins as a delimiter.** -/
theorem parse_write_iff (hboundary : 13 ∉ boundary) (hl : ∀ a ∈ l, Writes (f a) (g a)) :
    parse boundary (write boundary (l.map f)) = some (l.map g) ↔
      ∀ a ∈ l, Free boundary (g a).content := by
  constructor
  · intro h a ha
    exact free_of_parse h (g a) (List.mem_map_of_mem ha)
  · intro hfree
    rw [parse, scan_write hboundary hl hfree, Option.bind_eq_bind, Option.bind_some, List.mapM_map]
    exact Loop.mapM_some fun a ha => parsePart_lines (hl a ha)

/-! ### Dispositions -/

/-- A quote ends a piece that has none. -/
lemma pieces_quote {t : List UInt8} (ht : quote ∉ t) (l : List UInt8) :
    pieces [quote] (t ++ quote :: l) = t :: pieces [quote] l :=
  pieces_append List.not_mem_nil (fun h => ht ((List.singleton_infix_iff quote t).mp h)) l

lemma parseDisposition_disposition {name : List UInt8} {fileName : Option (List UInt8)}
    (hname : quote ∉ name) (hfileName : ∀ t ∈ fileName, quote ∉ t) :
    parseDisposition (disposition name fileName) = some (name, fileName) := by
  have hfield : quote ∉ field := by decide
  have hparameter : quote ∉ fileNameParameter := by decide
  have hnil : pieces [quote] [] = [[]] := rfl
  cases fileName with
  | none =>
    rw [parseDisposition, disposition, pieces_quote hfield, pieces_quote hname, hnil]
    simp
  | some fileName =>
    rw [parseDisposition, disposition, pieces_quote hfield, pieces_quote hname,
      pieces_quote hparameter, pieces_quote (hfileName fileName rfl), hnil]
    simp

/-- What is quotable breaks no line. -/
lemma not_broken_disposition {name : List UInt8} {fileName : Option (List UInt8)}
    (hname : Quotable name) (hfileName : ∀ t ∈ fileName, Quotable t) :
    ¬ crlf <:+: disposition name fileName := by
  have hquote : quote ∉ crlf := by decide
  have hfield : ¬ crlf <:+: field := not_broken (by decide)
  have hparameter : ¬ crlf <:+: fileNameParameter := not_broken (by decide)
  have hnil : ¬ crlf <:+: [] := not_broken List.not_mem_nil
  cases fileName with
  | none =>
    exact not_infix_append_cons hquote hfield (not_infix_append_cons hquote hname.2 hnil)
  | some t =>
    exact not_infix_append_cons hquote hfield (not_infix_append_cons hquote hname.2
      (not_infix_append_cons hquote hparameter
        (not_infix_append_cons hquote (hfileName t rfl).2 hnil)))

/-- A disposition, and lines after it, are the header of a part. -/
lemma writes_disposition {name content : List UInt8} {fileName : Option (List UInt8)}
    (hname : Quotable name) (hfileName : ∀ t ∈ fileName, Quotable t)
    (hlines : ∀ line ∈ lines, line ≠ [] ∧ 13 ∉ line ∧ ¬ hyphens <+: line) :
    Writes ⟨disposition name fileName :: lines, content⟩ ⟨name, fileName, content⟩ := by
  have hstart : ∃ l, disposition name fileName = 67 :: l := by cases fileName <;> exact ⟨_, rfl⟩
  obtain ⟨l, hl⟩ := hstart
  refine ⟨?_, ?_, ?_, ?_, rfl⟩
  · exact List.forall_mem_cons.mpr ⟨hl ▸ List.cons_ne_nil _ _, fun line h => (hlines line h).1⟩
  · exact List.forall_mem_cons.mpr ⟨not_broken_disposition hname hfileName,
      fun line h => not_broken (hlines line h).2.1⟩
  · refine List.forall_mem_cons.mpr ⟨?_, fun line h => (hlines line h).2.2⟩
    rw [hl]
    exact fun hp => absurd (List.cons_prefix_cons.mp hp).1 (by decide)
  · rw [List.findSome?_cons,
      parseDisposition_disposition hname.1 fun t ht => (hfileName t ht).1]

end Parts

end IosDevBootcamp.Lib.Multipart
