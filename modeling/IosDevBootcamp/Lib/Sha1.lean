import Mathlib.Algebra.Order.Ring.Nat
import Mathlib.Data.List.Basic

/-!
# The hash function SHA-1

The hash of a string of bytes as the standard has it: the padded message is cut into blocks of
sixteen big-endian words, a block is expanded to eighty words by a recurrence, and eighty rounds
over five words mix it into the state.
-/

namespace IosDevBootcamp.Lib.Sha1

/-! ### Words and bytes -/

/-- The word of four bytes, the highest first. -/
def wordOf (a b c d : UInt8) : UInt32 :=
  a.toUInt32 <<< 24 ||| b.toUInt32 <<< 16 ||| c.toUInt32 <<< 8 ||| d.toUInt32

/-- The bytes of a word, the highest first. -/
def bytesOf (x : UInt32) : List UInt8 :=
  [(x >>> 24).toUInt8, (x >>> 16).toUInt8, (x >>> 8).toUInt8, x.toUInt8]

/-- A number as eight bytes, the highest first. -/
def be64 (n : ℕ) : List UInt8 := (List.range 8).map fun i => UInt8.ofNat (n / 256 ^ (7 - i))

@[simp] lemma length_be64 (n : ℕ) : (be64 n).length = 8 := by simp [be64]

/-- Eight bytes hold every number below `2 ^ 64`. -/
lemma be64_injective {m n : ℕ} (hm : m < 2 ^ 64) (hn : n < 2 ^ 64) (h : be64 m = be64 n) :
    m = n := by
  have hb : ∀ i < 8, m / 256 ^ (7 - i) % 256 = n / 256 ^ (7 - i) % 256 := by
    intro i hi
    have hget := congrArg (fun l => (l.map UInt8.toNat).getD i 0) h
    simpa [be64, List.getD_eq_getElem?_getD, hi] using hget
  have h0 := hb 0 (by omega)
  have h1 := hb 1 (by omega)
  have h2 := hb 2 (by omega)
  have h3 := hb 3 (by omega)
  have h4 := hb 4 (by omega)
  have h5 := hb 5 (by omega)
  have h6 := hb 6 (by omega)
  have h7 := hb 7 (by omega)
  simp only [Nat.reduceSub, Nat.reducePow] at h0 h1 h2 h3 h4 h5 h6 h7
  omega

/-! ### Padding -/

/-- How many zero bytes follow the byte `0x80`. -/
def zeros (length : ℕ) : ℕ := (119 - length % 64) % 64

/-- The message, a one bit, zeros, and the length in bits. -/
def pad (m : List UInt8) : List UInt8 :=
  m ++ [0x80] ++ List.replicate (zeros m.length) 0 ++ be64 (8 * m.length)

lemma length_pad (m : List UInt8) : (pad m).length = m.length + 1 + zeros m.length + 8 := by
  simp [pad]
  omega

lemma length_pad_mod (m : List UInt8) : (pad m).length % 64 = 0 := by
  rw [length_pad]
  unfold zeros
  omega

/-- No fewer zeros complete a block. -/
lemma zeros_le {length k : ℕ} (h : (length + 1 + k) % 64 = 56) : zeros length ≤ k := by
  unfold zeros
  omega

/-- **Padding loses nothing**: the length at the end tells where the message ends. -/
theorem pad_injective {m m' : List UInt8} (hm : m.length < 2 ^ 61) (hm' : m'.length < 2 ^ 61)
    (h : pad m = pad m') : m = m' := by
  have hlast : be64 (8 * m.length) = be64 (8 * m'.length) :=
    (List.append_inj' h (by simp)).2
  have hlen : 8 * m.length = 8 * m'.length :=
    be64_injective (by omega) (by omega) hlast
  unfold pad at h
  simp only [List.append_assoc] at h
  exact (List.append_inj h (by omega)).1

/-! ### The compression of a block -/

/-- The five words of the state. -/
structure State where
  A : UInt32
  B : UInt32
  C : UInt32
  D : UInt32
  E : UInt32
  deriving DecidableEq, Repr

def initial : State := ⟨0x67452301, 0xEFCDAB89, 0x98BADCFE, 0x10325476, 0xC3D2E1F0⟩

def rotl (n x : UInt32) : UInt32 := (x <<< n) ||| (x >>> (32 - n))

def ch (x y z : UInt32) : UInt32 := (x &&& y) ^^^ (~~~x &&& z)

def parity (x y z : UInt32) : UInt32 := x ^^^ y ^^^ z

def maj (x y z : UInt32) : UInt32 := (x &&& y) ^^^ (x &&& z) ^^^ (y &&& z)

/-- The function of a round. -/
def f (t : ℕ) : UInt32 → UInt32 → UInt32 → UInt32 :=
  if t < 20 then ch else if t < 40 then parity else if t < 60 then maj else parity

/-- The constant of a round. -/
def K (t : ℕ) : UInt32 :=
  if t < 20 then 0x5A827999 else if t < 40 then 0x6ED9EBA1
  else if t < 60 then 0x8F1BBCDC else 0xCA62C1D6

/-- The words of the message schedule, from the words `M` of the block. -/
def W (M : ℕ → UInt32) (t : ℕ) : UInt32 :=
  if t < 16 then M t
  else rotl 1 (W M (t - 3) ^^^ W M (t - 8) ^^^ W M (t - 14) ^^^ W M (t - 16))
termination_by t

lemma W_of_lt (M : ℕ → UInt32) {t : ℕ} (h : t < 16) : W M t = M t := by
  rw [W, if_pos h]

lemma W_of_le (M : ℕ → UInt32) {t : ℕ} (h : 16 ≤ t) :
    W M t = rotl 1 (W M (t - 3) ^^^ W M (t - 8) ^^^ W M (t - 14) ^^^ W M (t - 16)) := by
  rw [W, if_neg (by omega)]

/-- The schedule depends on sixteen words. -/
lemma W_congr {M M' : ℕ → UInt32} (h : ∀ t < 16, M t = M' t) (t : ℕ) : W M t = W M' t := by
  induction t using Nat.strongRecOn with
  | ind t ih =>
    by_cases ht : t < 16
    · rw [W_of_lt M ht, W_of_lt M' ht, h t ht]
    · rw [W_of_le M (by omega), W_of_le M' (by omega), ih (t - 3) (by omega), ih (t - 8) (by omega),
        ih (t - 14) (by omega), ih (t - 16) (by omega)]

def round (w : ℕ → UInt32) (s : State) (t : ℕ) : State where
  A := rotl 5 s.A + f t s.B s.C s.D + s.E + K t + w t
  B := s.A
  C := rotl 30 s.B
  D := s.C
  E := s.D

def State.add (s s' : State) : State := ⟨s.A + s'.A, s.B + s'.B, s.C + s'.C, s.D + s'.D, s.E + s'.E⟩

def compress (s : State) (M : ℕ → UInt32) : State :=
  s.add ((List.range 80).foldl (round (W M)) s)

lemma compress_congr {M M' : ℕ → UInt32} (s : State) (h : ∀ t < 16, M t = M' t) :
    compress s M = compress s M' := by
  unfold compress
  rw [show W M = W M' from funext (W_congr h)]

/-! ### The hash -/

/-- The word at a position of the padded message. -/
def wordAt (p : List UInt8) (i : ℕ) : UInt32 :=
  wordOf (p.getD i 0) (p.getD (i + 1) 0) (p.getD (i + 2) 0) (p.getD (i + 3) 0)

def hashBlocks (p : List UInt8) (s : State) (n : ℕ) : State :=
  (List.range n).foldl (fun s i => compress s fun t => wordAt p (64 * i + 4 * t)) s

def State.bytes (s : State) : List UInt8 :=
  bytesOf s.A ++ bytesOf s.B ++ bytesOf s.C ++ bytesOf s.D ++ bytesOf s.E

def sha1 (m : List UInt8) : List UInt8 :=
  (hashBlocks (pad m) initial ((pad m).length / 64)).bytes

@[simp] lemma length_sha1 (m : List UInt8) : (sha1 m).length = 20 := rfl

end IosDevBootcamp.Lib.Sha1
