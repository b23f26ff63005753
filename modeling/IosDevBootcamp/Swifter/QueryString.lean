import Mathlib.Data.List.Induction
import Mathlib.Data.List.TakeWhile
import IosDevBootcamp.Lib.Keyed
import IosDevBootcamp.Lib.OAuth1
import IosDevBootcamp.Swifter.OAuthClient

/-!
# Swifter: reading a query string

`queryStringParameters` reads names and values with a scanner, which skips white space before it scans
and finds nothing where there is nothing to scan.  A pair is kept when both its parts are found.
-/

namespace IosDevBootcamp.Swifter

open IosDevBootcamp.Lib IosDevBootcamp.Lib.OAuth1

/-! ### The scanner -/

/-- `whitespacesAndNewlines`, which a scanner skips. -/
def skipped (c : Char) : Bool :=
  let n := c.toNat
  (9 ≤ n && n ≤ 13) || n == 0x20 || n == 0x85 || n == 0xA0 || n == 0x1680 ||
    (0x2000 ≤ n && n ≤ 0x200B) || n == 0x2028 || n == 0x2029 || n == 0x202F || n == 0x205F ||
    n == 0x3000

def skip (t : Text) : Text := t.dropWhile skipped

def isAtEnd (t : Text) : Bool := skip t = []

/-- What is scanned up to a character, if anything is, and the rest. -/
def scanUpToString (c : Char) (t : Text) : Option Text × Text :=
  let scanned := (skip t).takeWhile (· != c)
  (if scanned = [] then none else some scanned, (skip t).dropWhile (· != c))

def scanString (c : Char) (t : Text) : Text :=
  match skip t with
  | [] => []
  | d :: rest => if d = c then rest else d :: rest

/-! ### The parameters -/

/-- A dictionary of texts. -/
abbrev Parameters := List (Text × Text)

namespace Parameters

def updateValue (ps : Parameters) (key value : Text) : Parameters :=
  Keyed.erase Prod.fst ps key ++ [(key, value)]

def value (ps : Parameters) (key : Text) : Option Text :=
  (Keyed.lookup Prod.fst ps key).map Prod.snd

end Parameters

/-- The body of the loop. -/
def scanParameter (ps : Parameters) (t : Text) : Parameters × Text :=
  let (key, t) := scanUpToString '=' t
  let t := scanString '=' t
  let (value, t) := scanUpToString '&' t
  let t := scanString '&' t
  match key, value with
  | some key, some value => (ps.updateValue key value, t)
  | _, _ => (ps, t)

/-- The loop, for at most `fuel` rounds. -/
def scanParameters : ℕ → Parameters → Text → Parameters
  | 0, ps, _ => ps
  | fuel + 1, ps, t =>
    if isAtEnd t then ps
    else
      let next := scanParameter ps t
      scanParameters fuel next.1 next.2

/-- Every round scans a character, so there are no more rounds than characters. -/
def queryStringParameters (t : Text) : Parameters := scanParameters t.length [] t

/-! ### Rounds -/

section Rounds

variable {t : Text} {ps : Parameters}

lemma length_skip_le (t : Text) : (skip t).length ≤ t.length := (List.dropWhile_sublist _).length_le

lemma length_scanString_le (c : Char) (t : Text) : (scanString c t).length ≤ t.length := by
  have hskip := length_skip_le t
  unfold scanString
  split
  · exact Nat.zero_le _
  · rename_i d rest h
    rw [h] at hskip
    split
    · exact Nat.le_of_succ_le hskip
    · exact hskip

lemma length_scanUpToString_le (c : Char) (t : Text) :
    (scanUpToString c t).2.length ≤ t.length :=
  ((List.dropWhile_sublist _).length_le).trans (length_skip_le t)

/-- A round takes at least one character away. -/
lemma length_scanParameter_lt (ps : Parameters) (hend : isAtEnd t = false) :
    (scanParameter ps t).2.length < t.length := by
  have hrest : (scanParameter ps t).2 =
      scanString '&' (scanUpToString '&' (scanString '=' (scanUpToString '=' t).2)).2 := by
    unfold scanParameter
    simp only
    split <;> rfl
  have hvalue := length_scanString_le '&'
    (scanUpToString '&' (scanString '=' (scanUpToString '=' t).2)).2
  have hup := length_scanUpToString_le '&' (scanString '=' (scanUpToString '=' t).2)
  have hskip := length_skip_le t
  have hne : skip t ≠ [] := by simpa [isAtEnd] using hend
  have hkey : (scanString '=' (scanUpToString '=' t).2).length < (skip t).length := by
    obtain ⟨c, u, hcu⟩ := List.exists_cons_of_ne_nil hne
    have hle := length_scanString_le '=' (scanUpToString '=' t).2
    by_cases hc : c = '='
    · -- There is no name, so the separator is what is scanned.
      have hup : (scanUpToString '=' t).2 = '=' :: u := by simp [scanUpToString, hcu, hc]
      have hfirst : skip ('=' :: u) = '=' :: u := List.dropWhile_cons_of_neg (by decide)
      rw [hup, scanString, hfirst, hcu, List.length_cons]
      simp only [if_pos]
      omega
    · have hup : (scanUpToString '=' t).2 = u.dropWhile (· != '=') := by
        simp [scanUpToString, hcu, hc]
      have hdrop := (List.dropWhile_sublist (l := u) (· != '=')).length_le
      rw [hup] at hle
      rw [hup, hcu, List.length_cons]
      omega
  rw [hrest]
  omega

lemma scanParameters_of_not_end {fuel : ℕ} (hend : isAtEnd t = false) :
    scanParameters (fuel + 1) ps t =
      scanParameters fuel (scanParameter ps t).1 (scanParameter ps t).2 := by
  rw [scanParameters, if_neg (by rw [hend]; decide)]

/-- More rounds than characters change nothing. -/
lemma scanParameters_succ {fuel : ℕ} (hfuel : t.length ≤ fuel) :
    scanParameters (fuel + 1) ps t = scanParameters fuel ps t := by
  induction fuel generalizing ps t with
  | zero =>
    obtain rfl := List.eq_nil_of_length_eq_zero (Nat.le_zero.mp hfuel)
    rfl
  | succ fuel ih =>
    cases hend : isAtEnd t with
    | true => rw [scanParameters, if_pos hend, scanParameters, if_pos hend]
    | false =>
      have hlt := length_scanParameter_lt ps hend
      rw [scanParameters_of_not_end hend, scanParameters_of_not_end hend]
      exact ih (by omega)

end Rounds

/-! ### Reading what was written -/

/-- A pair that a scanner finds again: nothing of it is skipped, and no separator is in the wrong
part. -/
structure Scannable (p : Text × Text) : Prop where
  name : '=' ∉ p.1
  value : '&' ∉ p.2
  skip_name : skip p.1 = p.1
  skip_value : skip p.2 = p.2

/-- A pair with an empty part is dropped. -/
def keep (ps : Parameters) (p : Text × Text) : Parameters :=
  if p.1 = [] ∨ p.2 = [] then ps else ps.updateValue p.1 p.2

section Reading

variable {c : Char} {s t : Text} {ps : Parameters} {p : Text × Text}

lemma skip_append (hs : skip s = s) (hc : skipped c = false) : skip (s ++ c :: t) = s ++ c :: t := by
  cases s with
  | nil => exact List.dropWhile_cons_of_neg (by simp [hc])
  | cons d s =>
    have hd : ¬ skipped d = true := by
      intro hd
      rw [skip, List.dropWhile_cons_of_pos hd] at hs
      have hlen := (List.dropWhile_sublist (l := s) skipped).length_le
      rw [hs, List.length_cons] at hlen
      omega
    exact List.dropWhile_cons_of_neg hd

lemma scanString_cons (hc : skipped c = false) : scanString c (c :: t) = t := by
  have hskip : skip (c :: t) = c :: t := List.dropWhile_cons_of_neg (by simp [hc])
  rw [scanString, hskip]
  exact if_pos rfl

lemma all_ne (hs : c ∉ s) : ∀ d ∈ s, (d != c) = true :=
  fun _ hd => bne_iff_ne.mpr fun heq => hs (heq ▸ hd)

lemma scanUpToString_append (hs : skip s = s) (hc : skipped c = false) (hnot : c ∉ s) :
    scanUpToString c (s ++ c :: t) = (if s = [] then none else some s, c :: t) := by
  rw [scanUpToString, skip_append hs hc, List.takeWhile_append_of_pos (all_ne hnot),
    List.dropWhile_append_of_pos (all_ne hnot)]
  simp

lemma scanUpToString_self (hs : skip s = s) (hnot : c ∉ s) :
    scanUpToString c s = (if s = [] then none else some s, []) := by
  rw [scanUpToString, hs, List.takeWhile_eq_self_iff.mpr (all_ne hnot),
    List.dropWhile_eq_nil_iff.mpr (all_ne hnot)]

lemma keep_eq (ps : Parameters) (p : Text × Text) (t : Text) :
    (match (if p.1 = [] then none else some p.1), (if p.2 = [] then none else some p.2) with
      | some key, some value => (ps.updateValue key value, t)
      | _, _ => (ps, t)) = (keep ps p, t) := by
  unfold keep
  by_cases h1 : p.1 = []
  · simp [h1]
  · by_cases h2 : p.2 = [] <;> simp [h1, h2]

/-- A pair before another. -/
lemma scanParameter_append (hp : Scannable p) :
    scanParameter ps (pairText p ++ '&' :: t) = (keep ps p, t) := by
  have htext : pairText p ++ '&' :: t = p.1 ++ '=' :: (p.2 ++ '&' :: t) := by simp [pairText]
  simp only [scanParameter, htext, scanUpToString_append hp.skip_name (by decide) hp.name,
    scanString_cons (c := '=') (by decide),
    scanUpToString_append hp.skip_value (by decide) hp.value,
    scanString_cons (c := '&') (by decide)]
  exact keep_eq ps p t

/-- The last pair. -/
lemma scanParameter_self (hp : Scannable p) : scanParameter ps (pairText p) = (keep ps p, []) := by
  simp only [scanParameter, pairText, scanUpToString_append hp.skip_name (by decide) hp.name,
    scanString_cons (c := '=') (by decide), scanUpToString_self hp.skip_value hp.value]
  exact keep_eq ps p []

lemma isAtEnd_pairText (hp : Scannable p) (t : Text) : isAtEnd (pairText p ++ t) = false := by
  have htext : pairText p ++ t = p.1 ++ '=' :: (p.2 ++ t) := by simp [pairText]
  rw [isAtEnd, htext, skip_append hp.skip_name (by decide)]
  simp

/-- The scanner reads pair after pair. -/
lemma scanParameters_joined {l : List (Text × Text)} (hl : ∀ p ∈ l, Scannable p) {fuel : ℕ}
    (hfuel : (Text.joined ['&'] (l.map pairText)).length ≤ fuel) :
    scanParameters fuel ps (Text.joined ['&'] (l.map pairText)) = l.foldl keep ps := by
  induction l generalizing ps fuel with
  | nil => cases fuel <;> rfl
  | cons p l ih =>
    have hp := hl p List.mem_cons_self
    have hlen : 0 < (pairText p).length := by
      rw [pairText, List.length_append, List.length_cons]
      omega
    have hl' : ∀ p ∈ l, Scannable p := fun q hq => hl q (List.mem_cons_of_mem p hq)
    cases l with
    | nil =>
      have hjoined : Text.joined ['&'] ([p].map pairText) = pairText p := by
        rw [List.map_cons, Text.joined_cons]
        exact List.append_nil _
      rw [hjoined] at hfuel ⊢
      obtain ⟨fuel, rfl⟩ := Nat.exists_eq_add_of_lt (Nat.lt_of_lt_of_le hlen hfuel)
      have hend := isAtEnd_pairText hp []
      rw [List.append_nil] at hend
      rw [scanParameters_of_not_end hend, scanParameter_self hp]
      cases fuel <;> rfl
    | cons q l =>
      have hjoined : Text.joined ['&'] ((p :: q :: l).map pairText) =
          pairText p ++ '&' :: Text.joined ['&'] ((q :: l).map pairText) := by
        simp only [List.map_cons, Text.joined_cons, List.flatMap_cons]
        simp
      rw [hjoined] at hfuel ⊢
      rw [List.length_append, List.length_cons] at hfuel
      obtain ⟨fuel, rfl⟩ := Nat.exists_eq_add_of_lt (Nat.lt_of_lt_of_le hlen
        (Nat.le_trans (Nat.le_add_right _ _) hfuel))
      rw [scanParameters_of_not_end (isAtEnd_pairText hp _), scanParameter_append hp]
      exact ih hl' (by omega)

/-- The value that a name has last, but for empty values. -/
def lastValue (l : List (Text × Text)) (name : Text) : Option Text :=
  ((l.filter fun p => p.1 = name ∧ p.2 ≠ []).getLast?).map Prod.snd

lemma value_updateValue (ps : Parameters) (key value name : Text) :
    (ps.updateValue key value).value name = if name = key then some value else ps.value name := by
  unfold Parameters.updateValue Parameters.value
  by_cases hname : name = key
  · have hnot : key ∉ (Keyed.erase Prod.fst ps key).map Prod.fst := by
      simp [Keyed.map_key_erase]
    have hself : Keyed.lookup Prod.fst (Keyed.erase Prod.fst ps key ++ [(key, value)]) key =
        some (key, value) := Keyed.lookup_concat_self hnot
    rw [if_pos hname, hname, hself]
    rfl
  · rw [if_neg hname, Keyed.lookup_concat_of_ne (x := (key, value)) hname, Keyed.lookup_erase,
      if_neg hname]

lemma value_keep (ps : Parameters) (p : Text × Text) {name : Text} (hname : name ≠ []) :
    (keep ps p).value name = if p.1 = name ∧ p.2 ≠ [] then some p.2 else ps.value name := by
  unfold keep
  by_cases hp : p.1 = [] ∨ p.2 = []
  · have hnot : ¬ (p.1 = name ∧ p.2 ≠ []) := fun h =>
      hp.elim (fun hnil => hname (h.1.symm.trans hnil)) h.2
    rw [if_pos hp, if_neg hnot]
  · rw [if_neg hp, value_updateValue]
    simp only [(not_or.mp hp).2, not_false_iff, and_true, ne_eq, eq_comm]

/-- The last value that is kept is the one that is found. -/
lemma value_foldl_keep (l : List (Text × Text)) (ps : Parameters) {name : Text} (hname : name ≠ []) :
    (l.foldl keep ps).value name = (lastValue l name).or (ps.value name) := by
  induction l using List.reverseRecOn with
  | nil => rfl
  | append_singleton l p ih =>
    rw [List.foldl_append, List.foldl_cons, List.foldl_nil, value_keep _ p hname, ih, lastValue,
      lastValue, List.filter_append]
    by_cases hp : p.1 = name ∧ p.2 ≠ []
    · rw [if_pos hp, List.filter_cons_of_pos (by simpa using hp), List.filter_nil,
        List.getLast?_concat]
      rfl
    · rw [if_neg hp, List.filter_cons_of_neg (by simpa using hp), List.filter_nil, List.append_nil]

/-- **What was written as a query string is read again**: under a name its last value is found. -/
theorem queryStringParameters_joined {l : List (Text × Text)} (hl : ∀ p ∈ l, Scannable p)
    {name : Text} (hname : name ≠ []) :
    (queryStringParameters (Text.joined ['&'] (l.map pairText))).value name = lastValue l name := by
  rw [queryStringParameters, scanParameters_joined hl (Nat.le_refl _), value_foldl_keep l _ hname]
  exact Option.or_none

end Reading

end IosDevBootcamp.Swifter
