import Mathlib.Data.List.Infix
import IosDevBootcamp.Lib.Percent
import IosDevBootcamp.Swifter.HTTPRequest

/-!
# Swifter: documents of a stream

The download progress of a JSON request can be read as a stream of documents, each ended by a line
break, which the connection delivers in pieces of its own.  `handleStreamProgress` drops a piece that is
no text by itself, keeps what it cannot parse yet and hands over the documents that it can.  However the
stream is cut between its characters, it hands over each document once, in order, with the piece that
completes it.
-/

namespace IosDevBootcamp.Swifter

open IosDevBootcamp.Lib IosDevBootcamp.Lib.Percent

/-! ### The handler -/

/-- `components(separatedBy: "\r\n")`. -/
def lines : Text → List Text
  | [] => [[]]
  | '\r' :: '\n' :: t => [] :: lines t
  | c :: t =>
    match lines t with
    | [] => [[c]]
    | l :: ls => (c :: l) :: ls

section Handler

variable {α : Type*} (parse : Data → Option α)

/-- The loop over the chunks: the buffer it leaves and the results it hands over. -/
def jsonChunks : Option Text → List Text → Option Text × List α
  | chunkBuffer, [] => (chunkBuffer, [])
  | chunkBuffer, chunk :: chunks =>
    if chunk = [] then jsonChunks chunkBuffer chunks
    else
      match parse (utf8 chunk) with
      | none => (some chunk, [])
      | some jsonResult =>
        let (buffer, results) := jsonChunks none chunks
        (buffer, jsonResult :: results)

def handleStreamProgress (chunkBuffer : Option Text) (data : Data) : Option Text × List α :=
  match utf8Decode data with
  | none => (chunkBuffer, [])
  | some jsonString =>
    jsonChunks parse chunkBuffer (lines (chunkBuffer.getD [] ++ jsonString))

/-- `didReceive` for the pieces of a response. -/
def didReceive : Option Text → List Data → Option Text × List α
  | chunkBuffer, [] => (chunkBuffer, [])
  | chunkBuffer, data :: rest =>
    if data = [] then didReceive chunkBuffer rest
    else
      let (buffer, results) := handleStreamProgress parse chunkBuffer data
      let (last, more) := didReceive buffer rest
      (last, results ++ more)

end Handler

/-! ### Lines -/

/-- No line ends within the text. -/
def Unbroken : Text → Prop
  | [] => True
  | c :: t => (c = '\r' → t.head? ≠ some '\n') ∧ Unbroken t

section Lines

variable {s t : Text}

lemma unbroken_of_notMem (h : '\n' ∉ t) : Unbroken t := by
  induction t with
  | nil => trivial
  | cons c t ih =>
    rw [List.mem_cons, not_or] at h
    refine ⟨fun _ hhead => ?_, ih h.2⟩
    exact h.2 (List.mem_of_mem_head? hhead)

lemma lines_cons {c : Char} {l : Text} {ls : List Text} (hc : c = '\r' → t.head? ≠ some '\n')
    (ht : lines t = l :: ls) : lines (c :: t) = (c :: l) :: ls := by
  rw [lines]
  · rw [ht]
  · rintro u rfl rfl
    exact hc rfl rfl

/-- A line is what stands before the first line break. -/
lemma lines_append (h : Unbroken s) (t : Text) : lines (s ++ '\r' :: '\n' :: t) = s :: lines t := by
  induction s with
  | nil => rw [List.nil_append, lines]
  | cons c s ih =>
    refine lines_cons (fun hc => ?_) (ih h.2)
    cases s with
    | nil => simp
    | cons c' s => exact h.1 hc

lemma lines_of_unbroken (h : Unbroken s) : lines s = [s] := by
  induction s with
  | nil => rfl
  | cons c s ih => exact lines_cons h.1 (ih h.2)

end Lines

/-! ### Documents -/

/-- What can be left of a line break before a document. -/
def leads : List Text := [[], ['\r'], ['\n']]

/-- A text that is parsed, also with the rest of a line break around it, while no part of it is. -/
structure IsDocument {α : Type*} (parse : Data → Option α) (d : Text) (v : α) : Prop where
  nonempty : d ≠ []
  unbroken : '\n' ∉ d
  whole : ∀ z ∈ leads, ∀ z' ∈ [[], ['\r']], parse (utf8 (z ++ d ++ z')) = some v
  part : ∀ z ∈ leads, ∀ q, q <+: d → q ≠ d → parse (utf8 (z ++ q)) = none

/-- What the server sends. -/
def stream (ds : List Text) : Text := ds.flatMap (· ++ ['\r', '\n'])

/-- The documents that are complete in the first characters of their stream. -/
def complete {α : Type*} : List (Text × α) → ℕ → List α
  | [], _ => []
  | (d, v) :: ds, n => if d.length ≤ n then v :: complete ds (n - (d.length + 2)) else []

lemma stream_cons (d : Text) (ds : List Text) :
    stream (d :: ds) = d ++ '\r' :: '\n' :: stream ds := by
  simp [stream]

lemma length_lead {z : Text} (hz : z ∈ leads) : z.length ≤ 1 := by
  have hall : ∀ z ∈ leads, z.length ≤ 1 := by decide
  exact hall z hz

/-- A lead, and a text without line feeds. -/
lemma unbroken_lead {z t : Text} (hz : z ∈ leads) (ht : '\n' ∉ t) : Unbroken (z ++ t) := by
  have hunbroken := unbroken_of_notMem ht
  simp only [leads, List.mem_cons, List.not_mem_nil, or_false] at hz
  rcases hz with rfl | rfl | rfl
  · exact hunbroken
  · exact ⟨fun _ hhead => ht (List.mem_of_mem_head? hhead), hunbroken⟩
  · exact ⟨fun h => absurd h (by decide), hunbroken⟩

/-- Where what has arrived of a stream can end. -/
lemma cut_cases {z d S s r : Text} (hz : z ∈ leads) (hs : s ≠ [])
    (h : s ++ r = z ++ (d ++ '\r' :: '\n' :: S)) :
    (∃ q, s = z ++ q ∧ q <+: d ∧ q ≠ d) ∨ (s = z ++ d ∧ r = '\r' :: '\n' :: S) ∨
      (s = z ++ d ++ ['\r'] ∧ r = '\n' :: S) ∨
      ∃ s', s = z ++ d ++ '\r' :: '\n' :: s' ∧ s' ++ r = S := by
  rw [← List.append_assoc] at h
  rcases List.append_eq_append_iff.mp h with ⟨a, ha, hr⟩ | ⟨b, rfl, hb⟩
  · by_cases hnil : a = []
    · rw [hnil, List.append_nil] at ha
      rw [hnil, List.nil_append] at hr
      exact Or.inr (Or.inl ⟨ha.symm, hr⟩)
    · left
      rcases List.append_eq_append_iff.mp ha with ⟨q, rfl, hd⟩ | ⟨y, hy, ha'⟩
      · refine ⟨q, rfl, ⟨a, hd.symm⟩, fun heq => hnil ?_⟩
        have hlen := congrArg List.length hd
        rw [heq, List.length_append] at hlen
        exact List.eq_nil_of_length_eq_zero (by omega)
      · -- The lead is one character, so it has arrived.
        have hlen := congrArg List.length hy
        have hpos := List.length_pos_iff.mpr hs
        have hle := length_lead hz
        rw [List.length_append] at hlen
        obtain rfl : y = [] := List.eq_nil_of_length_eq_zero (by omega)
        rw [List.append_nil] at hy
        rw [List.nil_append] at ha'
        refine ⟨[], by rw [hy, List.append_nil], List.nil_prefix, fun heq => hnil ?_⟩
        rw [ha', ← heq]
  · right
    match b, hb with
    | [], hb => exact Or.inl ⟨List.append_nil _, hb.symm⟩
    | [c], hb =>
      obtain ⟨rfl, hr⟩ := List.cons_eq_cons.mp hb
      exact Or.inr (Or.inl ⟨rfl, hr.symm⟩)
    | c :: c' :: s', hb =>
      obtain ⟨rfl, hr⟩ := List.cons_eq_cons.mp hb
      obtain ⟨rfl, hS⟩ := List.cons_eq_cons.mp hr
      exact Or.inr (Or.inr ⟨s', rfl, hS.symm⟩)

/-! ### What the buffer holds -/

/-- The buffer and what is still to arrive of the stream make up the documents that are not handed
over, after the rest of a line break; the first of them is not complete. -/
def Waits (chunkBuffer : Option Text) (ds : List Text) (r : Text) : Prop :=
  ∃ z ∈ ['\r', '\n'] :: leads, chunkBuffer.getD [] ++ r = z ++ stream ds ∧
    (z = ['\r', '\n'] → (chunkBuffer.getD []).length ≤ 1) ∧
    ∀ d ∈ ds.head?, (chunkBuffer.getD []).length < z.length + d.length

section Buffer

variable {α : Type*} {parse : Data → Option α}

lemma jsonChunks_nil_lines (chunkBuffer : Option Text) :
    jsonChunks parse chunkBuffer (lines []) = (chunkBuffer, []) := rfl

lemma jsonChunks_none {chunk : Text} (hne : chunk ≠ []) (h : parse (utf8 chunk) = none)
    (chunkBuffer : Option Text) (chunks : List Text) :
    jsonChunks parse chunkBuffer (chunk :: chunks) = (some chunk, []) := by
  rw [jsonChunks, if_neg hne, h]

lemma jsonChunks_some {chunk : Text} {v : α} (hne : chunk ≠ []) (h : parse (utf8 chunk) = some v)
    (chunkBuffer : Option Text) (chunks : List Text) :
    jsonChunks parse chunkBuffer (chunk :: chunks) =
      ((jsonChunks parse none chunks).1, v :: (jsonChunks parse none chunks).2) := by
  rw [jsonChunks, if_neg hne, h]

variable (hblank : ∀ z ∈ leads, parse (utf8 z) = none)
include hblank

/-- **What the loop hands over of the lines that have arrived.** -/
lemma jsonChunks_lines {ds : List (Text × α)} (hds : ∀ p ∈ ds, IsDocument parse p.1 p.2)
    {z s r : Text} (hz : z ∈ leads) (hne : s ≠ []) (hs : s ++ r = z ++ stream (ds.map Prod.fst))
    (chunkBuffer : Option Text) :
    ∃ m b, jsonChunks parse chunkBuffer (lines s) = (b, (ds.take m).map Prod.snd) ∧
      Waits b ((ds.drop m).map Prod.fst) r := by
  induction ds generalizing z s chunkBuffer with
  | nil =>
    have hlen := congrArg List.length hs
    have hle := length_lead hz
    have hpos := List.length_pos_iff.mpr hne
    simp only [List.map_nil, stream, List.flatMap_nil, List.append_nil, List.length_append] at hs hlen
    obtain rfl : r = [] := List.eq_nil_of_length_eq_zero (by omega)
    rw [List.append_nil] at hs
    have hlines : lines s = [s] := by
      have h := unbroken_lead hz (t := []) List.not_mem_nil
      rw [List.append_nil, ← hs] at h
      exact lines_of_unbroken h
    refine ⟨0, some s, ?_, z, List.mem_cons_of_mem _ hz, by simpa [stream] using hs, ?_, ?_⟩
    · rw [hlines, jsonChunks_none hne (hs ▸ hblank z hz)]
      rfl
    · intro _
      change s.length ≤ 1
      omega
    · intro d hd
      cases hd
  | cons p ds ih =>
    obtain ⟨d, v⟩ := p
    have hd : IsDocument parse d v := hds (d, v) List.mem_cons_self
    have hdpos := List.length_pos_iff.mpr hd.nonempty
    rw [List.map_cons, stream_cons] at hs
    rcases cut_cases hz hne hs with ⟨q, rfl, hq, hqd⟩ | ⟨rfl, hr⟩ | ⟨rfl, hr⟩ | ⟨s', rfl, hr⟩
    · -- The document has not arrived.
      have hunbroken : Unbroken (z ++ q) := unbroken_lead hz fun h => hd.unbroken (hq.subset h)
      refine ⟨0, some (z ++ q), ?_, z, List.mem_cons_of_mem _ hz, ?_, ?_, ?_⟩
      · rw [lines_of_unbroken hunbroken, jsonChunks_none hne (hd.part z hz q hq hqd)]
        rfl
      · simpa [stream_cons] using hs
      · intro hcrlf
        have hle := length_lead hz
        rw [hcrlf] at hle
        exact absurd hle (by decide)
      · intro d' hd'
        obtain rfl : d = d' := by simpa using hd'
        have hlt : q.length < d.length :=
          Nat.lt_of_le_of_ne hq.length_le fun h => hqd (hq.eq_of_length h)
        simpa using hlt
    · -- Its line break has not arrived.
      have hwhole := hd.whole z hz [] (by simp)
      rw [List.append_nil] at hwhole
      refine ⟨1, none, ?_, ['\r', '\n'], List.mem_cons_self, by simpa using hr, ?_, ?_⟩
      · rw [lines_of_unbroken (unbroken_lead hz hd.unbroken), jsonChunks_some hne hwhole]
        rfl
      · intro _
        exact Nat.zero_le _
      · intro d' _
        exact Nat.lt_of_lt_of_le Nat.zero_lt_two (Nat.le_add_right _ _)
    · -- A part of its line break has arrived with it.
      have hunbroken : '\n' ∉ d ++ ['\r'] := by simp [hd.unbroken]
      rw [List.append_assoc] at hne
      refine ⟨1, none, ?_, ['\n'], by simp [leads], by simpa using hr, ?_, ?_⟩
      · have hwhole := hd.whole z hz ['\r'] (by simp)
        rw [List.append_assoc] at hwhole ⊢
        rw [lines_of_unbroken (unbroken_lead hz hunbroken), jsonChunks_some hne hwhole]
        rfl
      · intro _
        exact Nat.zero_le _
      · intro d' _
        exact Nat.lt_of_lt_of_le Nat.zero_lt_one (Nat.le_add_right _ _)
    · -- It has arrived with its line break.
      have hwhole := hd.whole z hz [] (by simp)
      rw [List.append_nil] at hwhole
      have hne' : z ++ d ≠ [] := by simp [hd.nonempty]
      have hds' : ∀ p ∈ ds, IsDocument parse p.1 p.2 :=
        fun p hp => hds p (List.mem_cons_of_mem _ hp)
      rw [lines_append (unbroken_lead hz hd.unbroken), jsonChunks_some hne' hwhole]
      by_cases hnil : s' = []
      · rw [hnil, List.nil_append] at hr
        rw [hnil, jsonChunks_nil_lines]
        refine ⟨1, none, rfl, [], by simp [leads], by simpa using hr, fun _ => Nat.zero_le _, ?_⟩
        intro d' hd'
        obtain ⟨p, hp, rfl⟩ := List.mem_map.mp (List.mem_of_mem_head? hd')
        have hpos := List.length_pos_iff.mpr (hds' p hp).nonempty
        simpa using hpos
      · obtain ⟨m, b, hrest, hwaits⟩ := ih hds' (z := []) (by simp [leads]) hnil hr none
        refine ⟨m + 1, b, ?_, hwaits⟩
        rw [hrest]
        rfl

/-- **A piece hands over the documents that it completes.** -/
lemma handleStreamProgress_spec {ds : List (Text × α)}
    (hds : ∀ p ∈ ds, IsDocument parse p.1 p.2) {chunkBuffer : Option Text} {t r : Text}
    (ht : t ≠ []) (hwaits : Waits chunkBuffer (ds.map Prod.fst) (t ++ r)) :
    ∃ m b, handleStreamProgress parse chunkBuffer (utf8 t) = (b, (ds.take m).map Prod.snd) ∧
      Waits b ((ds.drop m).map Prod.fst) r := by
  obtain ⟨z, hz, htext, hshort, -⟩ := hwaits
  have hne : chunkBuffer.getD [] ++ t ≠ [] := by simp [ht]
  simp only [handleStreamProgress, utf8Decode_utf8]
  rw [← List.append_assoc] at htext
  rcases List.mem_cons.mp hz with rfl | hz
  · -- A whole line break comes first.
    have hdpos : ∀ d ∈ (ds.map Prod.fst).head?, 0 < d.length := by
      intro d hd
      obtain ⟨p, hp, rfl⟩ := List.mem_map.mp (List.mem_of_mem_head? hd)
      exact List.length_pos_iff.mpr (hds p hp).nonempty
    match hs : chunkBuffer.getD [] ++ t with
    | [] => exact absurd hs hne
    | [c] =>
      rw [hs] at htext
      obtain ⟨rfl, hr⟩ := List.cons_eq_cons.mp htext
      rw [lines_of_unbroken (unbroken_of_notMem (by decide)),
        jsonChunks_none (by decide) (hblank ['\r'] (by simp [leads]))]
      refine ⟨0, _, rfl, ['\r', '\n'], List.mem_cons_self, congrArg _ hr, fun _ => by simp, ?_⟩
      intro d hd
      have hpos := hdpos d hd
      simp only [Option.getD_some, List.length_cons, List.length_nil]
      omega
    | c :: c' :: s =>
      rw [hs] at htext
      obtain ⟨rfl, hfeed⟩ := List.cons_eq_cons.mp htext
      obtain ⟨rfl, hrest⟩ := List.cons_eq_cons.mp hfeed
      change s ++ r = stream (ds.map Prod.fst) at hrest
      rw [lines, jsonChunks, if_pos rfl]
      by_cases hnil : s = []
      · -- Nothing but the line break, so the buffer stays.
        rw [hnil, List.nil_append] at hrest
        rw [hnil] at hs ⊢
        rw [jsonChunks_nil_lines, hrest]
        match hb : chunkBuffer.getD [] with
        | [] =>
          refine ⟨0, _, rfl, [], by simp [leads], by simp [hb], fun _ => by simp [hb], ?_⟩
          intro d hd
          simpa [hb] using hdpos d hd
        | [a] =>
          rw [hb] at hs
          obtain ⟨rfl, -⟩ := List.cons_eq_cons.mp hs
          refine ⟨0, _, rfl, ['\r'], by simp [leads], by simp [hb], fun _ => by simp [hb], ?_⟩
          intro d hd
          simpa [hb] using hdpos d hd
        | a :: a' :: b =>
          rw [hb] at hshort
          exact absurd (hshort rfl) (by simp)
      · exact jsonChunks_lines hblank hds (z := []) (by simp [leads]) hnil hrest chunkBuffer
  · exact jsonChunks_lines hblank hds hz hne htext chunkBuffer

lemma didReceive_spec {ds : List (Text × α)} (hds : ∀ p ∈ ds, IsDocument parse p.1 p.2)
    {chunkBuffer : Option Text} {pieces : List Text} {r : Text}
    (hwaits : Waits chunkBuffer (ds.map Prod.fst) (pieces.flatten ++ r)) :
    ∃ m b, didReceive parse chunkBuffer (pieces.map utf8) = (b, (ds.take m).map Prod.snd) ∧
      Waits b ((ds.drop m).map Prod.fst) r := by
  induction pieces generalizing ds chunkBuffer with
  | nil => exact ⟨0, chunkBuffer, rfl, hwaits⟩
  | cons t pieces ih =>
    rw [List.map_cons, didReceive]
    by_cases hnil : t = []
    · rw [hnil] at hwaits ⊢
      rw [if_pos (by rfl)]
      exact ih hds hwaits
    · have hdata : utf8 t ≠ [] := fun h => hnil (utf8_injective h)
      rw [List.flatten_cons, List.append_assoc] at hwaits
      obtain ⟨m, b, hpiece, hwaits'⟩ := handleStreamProgress_spec hblank hds hnil hwaits
      obtain ⟨m', b', hrest, hwaits''⟩ := ih (fun p hp => hds p (List.mem_of_mem_drop hp)) hwaits'
      refine ⟨m + m', b', ?_, ?_⟩
      · rw [if_neg hdata, hpiece]
        simp only [hrest, List.take_add, List.map_append]
      · rwa [List.drop_drop] at hwaits''

omit hblank in
/-- A piece that is no text by itself is dropped. -/
lemma didReceive_texts (chunkBuffer : Option Text) (pieces : List Data) :
    didReceive parse chunkBuffer pieces =
      didReceive parse chunkBuffer ((pieces.filterMap utf8Decode).map utf8) := by
  induction pieces generalizing chunkBuffer with
  | nil => rfl
  | cons data rest ih =>
    cases hdecode : utf8Decode data with
    | none =>
      have hne : data ≠ [] := by
        rintro rfl
        cases hdecode
      rw [List.filterMap_cons_none hdecode, didReceive, if_neg hne, ← ih chunkBuffer]
      simp only [handleStreamProgress, hdecode, List.nil_append]
    | some t =>
      rw [List.filterMap_cons_some hdecode, List.map_cons, utf8_of_utf8Decode hdecode]
      simp only [didReceive, ih]

omit hblank in
/-- The documents that are handed over are those that are complete. -/
lemma complete_eq {ds : List (Text × α)} (hpos : ∀ p ∈ ds, 0 < p.1.length) {m n : ℕ}
    (hlow : (stream ((ds.take m).map Prod.fst)).length ≤ n + 2)
    (hhigh : ∀ d ∈ ((ds.drop m).map Prod.fst).head?,
      n < (stream ((ds.take m).map Prod.fst)).length + d.length) :
    complete ds n = (ds.take m).map Prod.snd := by
  induction ds generalizing m n with
  | nil => simp [complete]
  | cons p ds ih =>
    obtain ⟨d, v⟩ := p
    have hpos' : ∀ p ∈ ds, 0 < p.1.length := fun p hp => hpos p (List.mem_cons_of_mem _ hp)
    cases m with
    | zero =>
      have hlt : n < d.length := by simpa [stream] using hhigh d (by simp)
      rw [complete, if_neg (by omega)]
      rfl
    | succ m =>
      simp only [List.take_succ_cons, List.drop_succ_cons, List.map_cons, stream_cons,
        List.length_append, List.length_cons] at hlow hhigh ⊢
      rw [complete, if_pos (by omega), ih hpos' (m := m) (by omega)]
      intro d' hd'
      obtain ⟨p, hp, rfl⟩ := List.mem_map.mp (List.mem_of_mem_head? hd')
      have hp' := hpos' p (List.mem_of_mem_drop hp)
      have hlt := hhigh p.1 hd'
      omega

/-- **Documents are handed over once, in order, each with the piece that completes it**, however the
stream is cut between its characters; at its end all have been handed over. -/
theorem didReceive_stream {ds : List (Text × α)} (hds : ∀ p ∈ ds, IsDocument parse p.1 p.2)
    {pieces : List Data} {r : Text}
    (hstream : (pieces.filterMap utf8Decode).flatten ++ r = stream (ds.map Prod.fst)) :
    (didReceive parse none pieces).2 = complete ds (pieces.filterMap utf8Decode).flatten.length ∧
      (r = [] → (didReceive parse none pieces).2 = ds.map Prod.snd) := by
  have hpos : ∀ p ∈ ds, 0 < p.1.length :=
    fun p hp => List.length_pos_iff.mpr (hds p hp).nonempty
  have hstart :
      Waits none (ds.map Prod.fst) ((pieces.filterMap utf8Decode).flatten ++ r) := by
    refine ⟨[], by simp [leads], hstream, fun _ => Nat.zero_le _, fun d hd => ?_⟩
    obtain ⟨p, hp, rfl⟩ := List.mem_map.mp (List.mem_of_mem_head? hd)
    simpa using hpos p hp
  obtain ⟨m, b, hrun, z, hz, htext, hshort, hhead⟩ := didReceive_spec hblank hds hstart
  have hz2 : z.length ≤ 2 := by
    have hall : ∀ z ∈ ['\r', '\n'] :: leads, z.length ≤ 2 := by decide
    exact hall z hz
  have hsplit : stream (ds.map Prod.fst) =
      stream ((ds.take m).map Prod.fst) ++ stream ((ds.drop m).map Prod.fst) := by
    simp only [stream, ← List.flatMap_append, ← List.map_append, List.take_append_drop]
  have hlen := congrArg List.length htext
  have htotal := congrArg List.length (hstream.trans hsplit)
  simp only [List.length_append] at hlen htotal
  rw [didReceive_texts, hrun]
  constructor
  · refine (complete_eq hpos (by omega) fun d hd => ?_).symm
    have hlt := hhead d hd
    omega
  · rintro rfl
    have hnil : ds.drop m = [] := by
      cases hdrop : ds.drop m with
      | nil => rfl
      | cons p rest =>
        have hlt := hhead p.1 (by simp [hdrop])
        simp only [hdrop, List.map_cons, stream_cons, List.length_append, List.length_cons,
          List.length_nil] at hlen
        omega
    rw [List.take_of_length_le (List.drop_eq_nil_iff.mp hnil)]

end Buffer

/-- A parser of two documents. -/
def sampleParse (data : Data) : Option ℕ :=
  let text := data.filter fun b => b ≠ 13 && b ≠ 10
  if text = utf8 "[1]".toList then some 1
  else if text = utf8 "[2]".toList then some 2
  else none

lemma sampleParse_isDocument : ∀ p ∈ [("[1]".toList, 1), ("[2]".toList, 2)],
    IsDocument sampleParse p.1 p.2 := by
  have hall : ∀ p ∈ [("[1]".toList, 1), ("[2]".toList, 2)],
      (p.1 ≠ [] ∧ '\n' ∉ p.1) ∧
      (∀ z ∈ leads, ∀ z' ∈ [[], ['\r']], sampleParse (utf8 (z ++ p.1 ++ z')) = some p.2) ∧
      ∀ z ∈ leads, ∀ q ∈ p.1.inits, q ≠ p.1 → sampleParse (utf8 (z ++ q)) = none := by decide
  intro p hp
  obtain ⟨⟨hne, hfeed⟩, hwhole, hpart⟩ := hall p hp
  exact ⟨hne, hfeed, hwhole, fun z hz q hq => hpart z hz q (List.mem_inits q p.1 |>.mpr hq)⟩

/-- A stream cut within a line break and within a document, with a piece that is no text. -/
theorem didReceive_stream_pieces :
    (didReceive sampleParse none [[91, 49, 93, 13], [195], [10, 91, 50]]).2 = [1] ∧
    (didReceive sampleParse none [[91, 49, 93, 13], [195], [10, 91, 50], [93, 13, 10]]).2 =
      [1, 2] :=
  ⟨(didReceive_stream (by decide) sampleParse_isDocument (r := "]\r\n".toList) (by decide)).1,
    (didReceive_stream (by decide) sampleParse_isDocument (r := []) (by decide)).2 rfl⟩

end IosDevBootcamp.Swifter
