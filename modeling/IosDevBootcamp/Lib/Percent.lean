import IosDevBootcamp.Lib.Text

/-!
# Percent-encoding

A text is encoded for a set of characters: those in the set stand for themselves, the others for the
bytes of their UTF-8 encoding, each written as a percent sign and two digits.  Decoding gives back
the bytes.  `encodeBytes` is the encoding of bytes for the unreserved characters.
-/

namespace IosDevBootcamp.Lib.Percent

/-- The bytes of a text in UTF-8. -/
def utf8 (t : Text) : List UInt8 := t.flatMap String.utf8EncodeChar

@[simp] lemma utf8_nil : utf8 [] = [] := rfl

@[simp] lemma utf8_cons (c : Char) (t : Text) : utf8 (c :: t) = String.utf8EncodeChar c ++ utf8 t :=
  rfl

/-- A text is known by its bytes. -/
lemma utf8_injective {s t : Text} (h : utf8 s = utf8 t) : s = t := by
  have hb : s.utf8Encode = t.utf8Encode := congrArg List.toByteArray h
  refine String.ofList_injective (String.toByteArray_inj.mp ?_)
  simpa using hb

/-- The text that bytes stand for in UTF-8. -/
def utf8Decode (data : List UInt8) : Option Text :=
  data.toByteArray.utf8Decode?.map Array.toList

lemma utf8Decode_utf8 (t : Text) : utf8Decode (utf8 t) = some t := by
  have hdecode : (utf8 t).toByteArray.utf8Decode? = some t.toArray := List.utf8Decode?_utf8Encode
  rw [utf8Decode, hdecode]
  rfl

lemma utf8_of_utf8Decode {data : List UInt8} {t : Text} (h : utf8Decode data = some t) :
    utf8 t = data := by
  obtain ⟨a, ha, rfl⟩ := Option.map_eq_some_iff.mp h
  have hsome : data.toByteArray.utf8Decode?.isSome = true := by rw [ha]; rfl
  have hbytes := ByteArray.utf8Encode_get_utf8Decode? (h := hsome)
  simp only [ha, Option.get_some] at hbytes
  exact List.toByteArray_inj.mp hbytes

/-! ### The first 128 characters -/

lemma toNat_ofNat_byte : ∀ n < 256, (Char.ofNat n).toNat = n := by decide +kernel

lemma utf8EncodeChar_of_lt {c : Char} (hc : c.toNat < 128) :
    String.utf8EncodeChar c = [UInt8.ofNat c.val.toNat] := by
  have hval : c.val.toNat ≤ 127 := Nat.lt_succ_iff.mp hc
  simp only [String.utf8EncodeChar, if_pos hval]

lemma le_toNat_of_mem {c : Char} (hc : 128 ≤ c.toNat) {b : UInt8}
    (hb : b ∈ String.utf8EncodeChar c) : 128 ≤ b.toNat := by
  have hval : ¬ c.val.toNat ≤ 127 := Nat.not_le.mpr hc
  simp only [String.utf8EncodeChar, if_neg hval] at hb
  split_ifs at hb
  all_goals
    simp only [List.mem_cons, List.not_mem_nil, or_false] at hb
    rcases hb with rfl | rfl | rfl | rfl <;> rw [UInt8.toNat_ofNat'] <;> omega

/-- The bytes below 128 are the characters below 128. -/
lemma mem_of_mem_utf8 {t : Text} {b : UInt8} (hb : b.toNat < 128) (h : b ∈ utf8 t) :
    Char.ofNat b.toNat ∈ t := by
  obtain ⟨c, hc, hmem⟩ := List.mem_flatMap.mp h
  have hlt : c.toNat < 128 := by
    by_contra hge
    exact absurd (le_toNat_of_mem (Nat.le_of_not_lt hge) hmem) (Nat.not_le.mpr hb)
  have hbyte : b.toNat = c.toNat := by
    rw [utf8EncodeChar_of_lt hlt] at hmem
    rw [List.mem_singleton.mp hmem, UInt8.toNat_ofNat']
    exact Nat.mod_eq_of_lt (Nat.lt_trans hlt (by decide))
  rwa [hbyte, Char.ofNat_toNat]

lemma utf8_append (s t : Text) : utf8 (s ++ t) = utf8 s ++ utf8 t := List.flatMap_append

/-! ### Digits -/

/-- A digit in base 16. -/
def hexDigit (n : ℕ) : Char := Char.ofNat (if n < 10 then 48 + n else 55 + n)

def hexValue (c : Char) : Option ℕ :=
  if '0' ≤ c ∧ c ≤ '9' then some (c.toNat - 48)
  else if 'A' ≤ c ∧ c ≤ 'F' then some (c.toNat - 55)
  else if 'a' ≤ c ∧ c ≤ 'f' then some (c.toNat - 87)
  else none

lemma hexDigit_spec : ∀ n < 16, hexValue (hexDigit n) = some n ∧ (hexDigit n).isAlphanum = true := by
  decide

/-! ### Encoding -/

/-- A byte as a percent sign and two digits. -/
def encodeByte (b : UInt8) : Text := ['%', hexDigit (b.toNat / 16), hexDigit (b.toNat % 16)]

variable (allowed : Char → Bool)

def encodeChar (c : Char) : Text :=
  if allowed c then [c] else (String.utf8EncodeChar c).flatMap encodeByte

def encode (t : Text) : Text := t.flatMap (encodeChar allowed)

/-- The bytes a text stands for; no escape is left unfinished. -/
def decode : Text → Option (List UInt8)
  | [] => some []
  | '%' :: a :: b :: t => do
    let byte := UInt8.ofNat (16 * (← hexValue a) + (← hexValue b))
    return byte :: (← decode t)
  | ['%'] => none
  | ['%', _] => none
  | c :: t => do return String.utf8EncodeChar c ++ (← decode t)

variable {allowed}

@[simp] lemma encode_nil : encode allowed [] = [] := rfl

@[simp] lemma encode_cons (c : Char) (t : Text) :
    encode allowed (c :: t) = encodeChar allowed c ++ encode allowed t := rfl

/-- Only what a set says of the characters of the text matters. -/
lemma encode_congr {allowed' : Char → Bool} {t : Text} (h : ∀ c ∈ t, allowed c = allowed' c) :
    encode allowed t = encode allowed' t :=
  List.flatMap_congr fun c hc => by rw [encodeChar, encodeChar, h c hc]

/-- What an encoded text is made of. -/
lemma mem_encode {c : Char} {t : Text} (h : c ∈ encode allowed t) :
    allowed c = true ∨ c = '%' ∨ c.isAlphanum = true := by
  obtain ⟨d, -, hd⟩ := List.mem_flatMap.mp h
  unfold encodeChar at hd
  split at hd
  · rename_i hallowed
    rw [List.mem_singleton.mp hd]
    exact Or.inl hallowed
  · obtain ⟨b, -, hb⟩ := List.mem_flatMap.mp hd
    have hlt := UInt8.toNat_lt b
    simp only [encodeByte, List.mem_cons, List.not_mem_nil, or_false] at hb
    rcases hb with rfl | rfl | rfl
    · exact Or.inr (Or.inl rfl)
    · exact Or.inr (Or.inr (hexDigit_spec _ (by omega)).2)
    · exact Or.inr (Or.inr (hexDigit_spec _ (by omega)).2)

/-- A character that needs no escape and is in none stands in the encoding where it stands in the
text. -/
lemma mem_encode_iff {c : Char} (hc : allowed c = true) (hpercent : c ≠ '%')
    (halpha : c.isAlphanum = false) (t : Text) : c ∈ encode allowed t ↔ c ∈ t := by
  have hchar : ∀ d, c ∈ encodeChar allowed d ↔ c = d := by
    intro d
    unfold encodeChar
    split
    · exact List.mem_singleton
    · rename_i hd
      have hne : c ≠ d := by
        rintro rfl
        exact hd hc
      refine iff_of_false (fun hmem => ?_) hne
      have hnone : c ∈ encode (fun _ => false) [d] := by simpa [encode, encodeChar] using hmem
      rcases mem_encode hnone with h | h | h
      · cases h
      · exact hpercent h
      · rw [halpha] at h
        cases h
  simp only [encode, List.mem_flatMap, hchar]
  exact ⟨fun ⟨d, hd, heq⟩ => heq ▸ hd, fun h => ⟨c, h, rfl⟩⟩

lemma length_utf8_le (t : Text) : (utf8 t).length ≤ 4 * t.length := by
  induction t with
  | nil => exact Nat.zero_le _
  | cons c t ih =>
    have hc : (String.utf8EncodeChar c).length ≤ 4 := by
      rw [String.length_utf8EncodeChar]
      exact Char.utf8Size_le_four c
    rw [utf8_cons, List.length_append, List.length_cons]
    omega

lemma length_encode_le (t : Text) : (encode allowed t).length ≤ 12 * t.length := by
  induction t with
  | nil => exact Nat.zero_le _
  | cons c t ih =>
    have hc : (encodeChar allowed c).length ≤ 12 := by
      have hbytes := length_utf8_le [c]
      unfold encodeChar
      split
      · exact (by decide : 1 ≤ 12)
      · have hlen : ((String.utf8EncodeChar c).flatMap encodeByte).length =
            3 * (String.utf8EncodeChar c).length := by
          simp [List.length_flatMap, encodeByte, Nat.mul_comm]
        rw [hlen]
        simp only [utf8, List.flatMap_singleton, List.length_singleton] at hbytes
        omega
    rw [encode_cons, List.length_append, List.length_cons]
    omega

/-! ### Decoding -/

lemma decode_encodeByte (b : UInt8) (t : Text) :
    decode (encodeByte b ++ t) = (decode t).map (b :: ·) := by
  have hlt := UInt8.toNat_lt b
  have hbyte : UInt8.ofNat (16 * (b.toNat / 16) + b.toNat % 16) = b := by
    rw [show 16 * (b.toNat / 16) + b.toNat % 16 = b.toNat by omega, UInt8.ofNat_toNat]
  simp only [encodeByte, List.cons_append, List.nil_append, decode,
    (hexDigit_spec (b.toNat / 16) (by omega)).1, (hexDigit_spec (b.toNat % 16) (by omega)).1]
  simp only [Option.bind_eq_bind, Option.bind_some, hbyte]
  cases decode t <;> rfl

lemma decode_encodeBytes (bs : List UInt8) (t : Text) :
    decode (bs.flatMap encodeByte ++ t) = (decode t).map (bs ++ ·) := by
  induction bs with
  | nil => simp
  | cons b bs ih =>
    rw [List.flatMap_cons, List.append_assoc, decode_encodeByte, ih, Option.map_map]
    rfl

lemma decode_cons_of_ne {c : Char} (hc : c ≠ '%') (t : Text) :
    decode (c :: t) = (decode t).map (String.utf8EncodeChar c ++ ·) := by
  rw [decode]
  · cases decode t <;> rfl
  · intro a b u h
    exact absurd h hc
  · intro h
    exact absurd h hc
  · intro a h
    exact absurd h hc

/-- **Decoding gives back the bytes of the text.** -/
theorem decode_encode (hallowed : allowed '%' = false) (t : Text) :
    decode (encode allowed t) = some (utf8 t) := by
  induction t with
  | nil => rfl
  | cons c t ih =>
    rw [encode_cons, encodeChar]
    split
    · rename_i hc
      have hne : c ≠ '%' := by
        rintro rfl
        rw [hallowed] at hc
        cases hc
      rw [List.singleton_append, decode_cons_of_ne hne, ih]
      rfl
    · rw [decode_encodeBytes, ih]
      rfl

/-- No two texts are encoded the same. -/
lemma encode_injective (hallowed : allowed '%' = false) {s t : Text}
    (h : encode allowed s = encode allowed t) : s = t := by
  have hd := congrArg decode h
  rw [decode_encode hallowed, decode_encode hallowed] at hd
  exact utf8_injective (Option.some_inj.mp hd)

/-! ### The unreserved characters -/

/-- The characters that need no encoding anywhere. -/
def unreserved (c : Char) : Bool := c.isAlphanum || c == '-' || c == '.' || c == '_' || c == '~'

def encodeOctet (b : UInt8) : Text :=
  if unreserved (Char.ofNat b.toNat) then [Char.ofNat b.toNat] else encodeByte b

/-- Bytes, encoded for the unreserved characters. -/
def encodeOctets (bs : List UInt8) : Text := bs.flatMap encodeOctet

lemma mem_encodeOctets {c : Char} {bs : List UInt8} (h : c ∈ encodeOctets bs) :
    unreserved c = true ∨ c = '%' := by
  obtain ⟨b, -, hb⟩ := List.mem_flatMap.mp h
  have hlt := UInt8.toNat_lt b
  have hdigit : ∀ n < 16, unreserved (hexDigit n) = true := by decide
  unfold encodeOctet at hb
  split at hb
  · rename_i hu
    rw [List.mem_singleton.mp hb]
    exact Or.inl hu
  · simp only [encodeByte, List.mem_cons, List.not_mem_nil, or_false] at hb
    rcases hb with rfl | rfl | rfl
    · exact Or.inr rfl
    · exact Or.inl (hdigit _ (by omega))
    · exact Or.inl (hdigit _ (by omega))

lemma toNat_lt_of_unreserved {c : Char} (h : unreserved c = true) : c.toNat < 128 := by
  simp only [unreserved, Char.isAlphanum] at h
  delta Char.isAlpha Char.isUpper Char.isLower Char.isDigit at h
  simp only [Bool.or_eq_true, Bool.and_eq_true, decide_eq_true_eq, beq_iff_eq,
    UInt32.le_iff_toNat_le] at h
  rcases h with (((h | rfl) | rfl) | rfl) | rfl
  · change ((65 ≤ c.toNat ∧ c.toNat ≤ 90) ∨ (97 ≤ c.toNat ∧ c.toNat ≤ 122)) ∨
      (48 ≤ c.toNat ∧ c.toNat ≤ 57) at h
    omega
  all_goals decide

/-- The bytes of a character past the first 128 are not unreserved characters. -/
lemma encodeOctet_of_mem {c : Char} (hc : 128 ≤ c.toNat) {b : UInt8}
    (hb : b ∈ String.utf8EncodeChar c) : encodeOctet b = encodeByte b := by
  have hbyte := le_toNat_of_mem hc hb
  refine if_neg fun h => ?_
  have hlt := toNat_lt_of_unreserved h
  rw [toNat_ofNat_byte _ (UInt8.toNat_lt b)] at hlt
  omega

/-- **Encoding the bytes of a text is encoding the text.** -/
theorem encodeOctets_utf8 (t : Text) : encodeOctets (utf8 t) = encode unreserved t := by
  induction t with
  | nil => rfl
  | cons c t ih =>
    have hchar : encodeOctets (String.utf8EncodeChar c) = encodeChar unreserved c := by
      by_cases hc : c.toNat < 128
      · have hbyte : (UInt8.ofNat c.val.toNat).toNat = c.toNat := by
          rw [UInt8.toNat_ofNat']
          exact Nat.mod_eq_of_lt (Nat.lt_trans hc (by decide))
        simp only [encodeOctets, encodeChar, utf8EncodeChar_of_lt hc, List.flatMap_singleton,
          encodeOctet, hbyte, Char.ofNat_toNat]
      · have hnot : ¬ unreserved c = true := fun h => hc (toNat_lt_of_unreserved h)
        rw [encodeChar, if_neg hnot]
        exact List.flatMap_congr fun b hb => encodeOctet_of_mem (by omega) hb
    rw [utf8_cons, encode_cons, encodeOctets, List.flatMap_append, ← ih, ← hchar]
    rfl

end IosDevBootcamp.Lib.Percent
