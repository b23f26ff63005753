import Mathlib.Data.List.Basic

/-!
# Keyed hashing

The construction HMAC over a hash function `H` with blocks of `B` bytes: the key is brought to the
size of a block and hashed with the message twice, under two masks.
-/

namespace IosDevBootcamp.Lib.Hmac

variable (H : List UInt8 → List UInt8) (B : ℕ)

/-- The key as a block: a long key is hashed, and zeros fill what is left. -/
def blockKey (key : List UInt8) : List UInt8 :=
  let k := if B < key.length then H key else key
  k ++ List.replicate (B - k.length) 0

def mask (pad : UInt8) (key : List UInt8) : List UInt8 := key.map (· ^^^ pad)

def hmac (key text : List UInt8) : List UInt8 :=
  H (mask 0x5c (blockKey H B key) ++ H (mask 0x36 (blockKey H B key) ++ text))

variable {H B}

/-- A key that hashes to at most a block fills one exactly. -/
lemma length_blockKey (hH : ∀ m, (H m).length ≤ B) (key : List UInt8) :
    (blockKey H B key).length = B := by
  unfold blockKey
  split
  · have := hH key
    simp only [List.length_append, List.length_replicate]
    omega
  · simp only [List.length_append, List.length_replicate]
    omega

end IosDevBootcamp.Lib.Hmac
