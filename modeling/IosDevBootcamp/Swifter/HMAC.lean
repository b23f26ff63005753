import IosDevBootcamp.Lib.Hmac
import IosDevBootcamp.Swifter.SHA1

/-!
# Swifter: the message authentication code

`HMAC.sha1` fills its two pads in place, one byte of the key after the other, so that a key longer
than a block would stop the program.
-/

namespace IosDevBootcamp.Swifter.HMAC

open IosDevBootcamp.Lib IosDevBootcamp.Lib.Hmac

/-- The body of the loop over the key. -/
def maskByte (key pad : List UInt8) (idx : ℕ) : Option (List UInt8) := do
  return pad.set idx ((← key[idx]?) ^^^ (← pad[idx]?))

/-- The loop over the key, on a pad of 64 equal bytes. -/
def maskPad (key : List UInt8) (byte : UInt8) : Option (List UInt8) :=
  (List.range key.length).foldlM (maskByte key) (List.replicate 64 byte)

/-- The two `if`s on the length of the key. -/
def resizedKey (key : List UInt8) : Option (List UInt8) := do
  let key ← if key.length > 64 then SHA1.calculate key else some key
  return if key.length < 64 then key ++ List.replicate (64 - key.length) 0 else key

def sha1 (key message : List UInt8) : Option (List UInt8) := do
  let key ← resizedKey key
  let opad ← maskPad key 0x5c
  let ipad ← maskPad key 0x36
  let ipadAndMessageHash ← SHA1.calculate (ipad ++ message)
  SHA1.calculate (opad ++ ipadAndMessageHash)

/-! ### The pads -/

/-- The pad after the bytes of the key before `n`. -/
lemma maskPad_eq {key : List UInt8} (hlen : key.length = 64) (byte : UInt8) :
    maskPad key byte = some (mask byte key) := by
  obtain ⟨pad, hfold, hpad⟩ := Loop.foldlM_range (f := maskByte key) (s := List.replicate 64 byte)
    (P := fun n pad => pad = (key.take n).map (· ^^^ byte) ++ List.replicate (64 - n) byte) 64
    (by simp)
    (by
      intro n hn pad hpad
      have hk : key[n]? = some key[n] := List.getElem?_eq_getElem (by omega)
      have hfront : ((key.take n).map (· ^^^ byte)).length = n := by
        rw [List.length_map, List.length_take]
        omega
      have hrest : List.replicate (64 - n) byte = byte :: List.replicate (64 - (n + 1)) byte := by
        rw [show 64 - n = (64 - (n + 1)) + 1 by omega, List.replicate_succ]
      rw [hrest] at hpad
      have hp : pad[n]? = some byte := by
        rw [hpad, List.getElem?_append_right (by omega), hfront, Nat.sub_self]
        rfl
      refine ⟨pad.set n (key[n] ^^^ byte), by rw [maskByte, hk, hp]; rfl, ?_⟩
      rw [hpad, List.set_append_right _ _ (by omega), hfront, Nat.sub_self, List.set_cons_zero,
        List.take_succ_eq_append_getElem (by omega), List.map_append, List.append_assoc]
      rfl)
  rw [maskPad, hlen, hfold, hpad, ← hlen, List.take_length]
  simp [mask]

lemma resizedKey_eq (key : List UInt8) :
    resizedKey key = if key.length < 2 ^ 60 then some (blockKey Sha1.sha1 64 key) else none := by
  have hfill : ∀ k : List UInt8, (if k.length < 64 then k ++ List.replicate (64 - k.length) 0
      else k) = k ++ List.replicate (64 - k.length) 0 := by
    intro k
    split
    · rfl
    · rw [Nat.sub_eq_zero_of_le (by omega), List.replicate_zero, List.append_nil]
  simp only [resizedKey, hfill]
  by_cases hlong : 64 < key.length
  · rw [if_pos hlong, SHA1.calculate_eq, blockKey, if_pos hlong]
    split <;> rfl
  · rw [if_neg hlong, if_pos (by omega), blockKey, if_neg hlong]
    rfl

lemma sha1_eq (key message : List UInt8) :
    sha1 key message =
      if key.length < 2 ^ 60 ∧ message.length < 2 ^ 60 - 64 then
        some (hmac Sha1.sha1 64 key message)
      else none := by
  have hblock : (blockKey Sha1.sha1 64 key).length = 64 :=
    length_blockKey (fun _ => Nat.le_of_ble_eq_true rfl) key
  have hmask : ∀ byte, (mask byte (blockKey Sha1.sha1 64 key)).length = 64 := by
    intro byte
    rw [mask, List.length_map, hblock]
  rw [sha1, resizedKey_eq]
  by_cases hkey : key.length < 2 ^ 60
  swap
  · rw [if_neg hkey, if_neg (by omega)]
    rfl
  rw [if_pos hkey]
  simp only [Option.bind_eq_bind, Option.bind_some, maskPad_eq hblock, SHA1.calculate_eq,
    List.length_append, hmask]
  by_cases hmessage : message.length < 2 ^ 60 - 64
  · rw [if_pos (by omega), if_pos ⟨hkey, hmessage⟩]
    simp only [Option.bind_some, Sha1.length_sha1]
    rfl
  · rw [if_neg (by omega), if_neg (by omega)]
    rfl

/-- **`HMAC.sha1` computes the code of the standard for SHA-1 and blocks of 64 bytes.**  Only a key
or a message that `SHA1` cannot count stops it, so no byte of the key is written past a pad. -/
theorem sha1_eq_some_iff (key message mac : List UInt8) :
    sha1 key message = some mac ↔ (key.length < 2 ^ 60 ∧ message.length < 2 ^ 60 - 64) ∧
      mac = hmac Sha1.sha1 64 key message := by
  rw [sha1_eq, eq_comm (a := mac)]
  split
  · rename_i hlen
    rw [Option.some_inj, and_iff_right hlen]
  · rename_i hlen
    exact iff_of_false nofun fun h => hlen h.1

end IosDevBootcamp.Swifter.HMAC
