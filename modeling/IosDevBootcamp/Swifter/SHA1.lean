import Mathlib.Tactic.IntervalCases
import IosDevBootcamp.Lib.Loop
import IosDevBootcamp.Lib.Sha1

/-!
# Swifter: the hash of the signatures

`SHA1` of the client library, with its loops and its indexing, where an index out of range stops the
program.  It reads the words of a block in the byte order of the machine and swaps them, fills the
message schedule in place, and writes the digest through a swap again.  `calculate_eq` says that it
computes the hash of the standard.
-/

namespace IosDevBootcamp.Swifter

open IosDevBootcamp.Lib IosDevBootcamp.Lib.Sha1

/-! ### Bytes of numbers -/

/-- The bytes of an `Int` in memory, the lowest first. -/
def memoryByte (value j : ℕ) : UInt8 := UInt8.ofNat (value / 256 ^ j)

/-- `arrayOfBytes` of an `Int`, which has eight bytes. -/
def arrayOfBytes (value length : ℕ) : List UInt8 :=
  (List.range (min 8 length)).foldl (fun bytes j => bytes.set (length - 1 - j) (memoryByte value j))
    (List.replicate length 0)

/-- `UInt32.bigEndian` on a machine that stores the lowest byte first. -/
def bigEndian (x : UInt32) : UInt32 :=
  (x <<< 24) ||| ((x &&& (0xff00 : UInt32)) <<< 8) ||| ((x >>> 8) &&& (0xff00 : UInt32)) |||
    (x >>> 24)

/-- The byte of a collection that `toUInt32Array` shifts into place, or zero when it is short. -/
def shiftedByte (l : List UInt8) (idx i : ℕ) (shift : UInt32) : Option UInt32 :=
  if l.length > i then do return (← l[idx + i]?).toUInt32 <<< shift else return 0

/-- The body of the loop of `toUInt32Array`, whose tests are on the whole collection. -/
def toUInt32At (l : List UInt8) (idx : ℕ) : Option UInt32 := do
  return (0 : UInt32) ||| (← shiftedByte l idx 3 24) ||| (← shiftedByte l idx 2 16) |||
    (← shiftedByte l idx 1 8) ||| (← shiftedByte l idx 0 0)

def toUInt32Array (l : List UInt8) : Option (List UInt32) :=
  ((List.range ((l.length + 3) / 4)).map (4 * ·)).mapM (toUInt32At l)

/-- `toUInt32`, the first element of the array. -/
def toUInt32 (l : List UInt8) : Option UInt32 := do (← toUInt32Array l)[0]?

/-- The slice `l[start ..< stop]`. -/
def slice (l : List UInt8) (start stop : ℕ) : Option (List UInt8) :=
  if stop ≤ l.length then some ((l.drop start).take (stop - start)) else none

/-- What the iterator of `BytesSequence` finds at an offset. -/
def chunkAt (data : List UInt8) (chunkSize offset : ℕ) : List UInt8 :=
  (data.drop offset).take (min chunkSize (data.length - offset))

lemma length_chunkAt (data : List UInt8) (chunkSize offset : ℕ) :
    (chunkAt data chunkSize offset).length = min chunkSize (data.length - offset) := by
  simp [chunkAt]

/-- The chunks of a `BytesSequence` from an offset, until one is empty. -/
def bytesSequence (data : List UInt8) (chunkSize offset : ℕ) : List (List UInt8) :=
  let result := chunkAt data chunkSize offset
  if result = [] then [] else result :: bytesSequence data chunkSize (offset + result.length)
termination_by data.length - offset
decreasing_by
  rename_i h
  have hlen := List.length_pos_iff.mpr h
  rw [length_chunkAt] at hlen ⊢
  omega

namespace SHA1

/-! ### The digest -/

/-- The `while` loop of `prepare`, for at most `fuel` rounds. -/
def prepareLoop (blockSize allowance : ℕ) : ℕ → ℕ → ℕ → Option ℕ
  | 0, _, _ => none
  | fuel + 1, msgLength, counter =>
    if msgLength % blockSize ≠ blockSize - allowance then
      prepareLoop blockSize allowance fuel (msgLength + 1) (counter + 1)
    else some counter

/-- `prepare`; a length that no `blockSize` rounds reach is never reached. -/
def prepare (message : List UInt8) (blockSize allowance : ℕ) : Option (List UInt8) :=
  let tmpMessage := message ++ [0x80]
  (prepareLoop blockSize allowance blockSize tmpMessage.length 0).map fun counter =>
    tmpMessage ++ List.replicate counter 0

/-- `message.count * 8`, which has to fit an `Int`. -/
def bitCount (message : List UInt8) : Option ℕ :=
  if message.length * 8 < 2 ^ 63 then some (message.length * 8) else none

def rotateLeft (v n : UInt32) : UInt32 :=
  ((v <<< n) &&& (0xFFFFFFFF : UInt32)) ||| (v >>> (32 - n))

/-- The word `M[x]`, from the chunk or from the words before. -/
def scheduleWord (chunk : List UInt8) (M : List UInt32) (x : ℕ) : Option UInt32 :=
  if x ≤ 15 then do
    let word ← slice chunk (x * 4) (x * 4 + 4)
    return bigEndian (← toUInt32 word)
  else do
    return rotateLeft ((← M[x - 3]?) ^^^ (← M[x - 8]?) ^^^ (← M[x - 14]?) ^^^ (← M[x - 16]?)) 1

/-- The loop that fills `M`. -/
def schedule (chunk : List UInt8) : Option (List UInt32) :=
  (List.range 80).foldlM (fun M x => do return M.set x (← scheduleWord chunk M x))
    (List.replicate 80 0)

/-- `f` and `k` of the main loop. -/
def mix (s : State) (j : ℕ) : UInt32 × UInt32 :=
  if j ≤ 19 then ((s.B &&& s.C) ||| (~~~s.B &&& s.D), 0x5A827999)
  else if j ≤ 39 then (s.B ^^^ s.C ^^^ s.D, 0x6ED9EBA1)
  else if j ≤ 59 then ((s.B &&& s.C) ||| (s.B &&& s.D) ||| (s.C &&& s.D), 0x8F1BBCDC)
  else (s.B ^^^ s.C ^^^ s.D, 0xCA62C1D6)

/-- The body of the main loop. -/
def mainStep (M : List UInt32) (s : State) (j : ℕ) : Option State := do
  let (f, k) := mix s j
  let temp := (rotateLeft s.A 5 + f + s.E + (← M[j]?) + k) &&& (0xffffffff : UInt32)
  return ⟨temp, s.A, rotateLeft s.B 30, s.C, s.D⟩

/-- The body of the loop over the chunks, with `hh` before it. -/
def processChunk (hh : State) (chunk : List UInt8) : Option State := do
  let M ← schedule chunk
  let s ← (List.range 80).foldlM (mainStep M) hh
  return ⟨(hh.A + s.A) &&& (0xffffffff : UInt32), (hh.B + s.B) &&& (0xffffffff : UInt32),
    (hh.C + s.C) &&& (0xffffffff : UInt32), (hh.D + s.D) &&& (0xffffffff : UInt32),
    (hh.E + s.E) &&& (0xffffffff : UInt32)⟩

/-- The four bytes appended to `result` for a word. -/
def itemBytes (word : UInt32) : List UInt8 :=
  let item := bigEndian word
  [(item &&& (0xff : UInt32)).toUInt8, ((item >>> 8) &&& (0xff : UInt32)).toUInt8,
    ((item >>> 16) &&& (0xff : UInt32)).toUInt8, ((item >>> 24) &&& (0xff : UInt32)).toUInt8]

def h : State := ⟨0x67452301, 0xEFCDAB89, 0x98BADCFE, 0x10325476, 0xC3D2E1F0⟩

/-- The chunks of the message that `calculate` processes. -/
def chunks (message : List UInt8) : Option (List (List UInt8)) := do
  let tmpMessage ← prepare message 64 (64 / 8)
  let tmpMessage := tmpMessage ++ arrayOfBytes (← bitCount message) (64 / 8)
  return bytesSequence tmpMessage (512 / 8) 0

def calculate (message : List UInt8) : Option (List UInt8) := do
  let hh ← (← chunks message).foldlM processChunk h
  return [hh.A, hh.B, hh.C, hh.D, hh.E].flatMap itemBytes

/-! ### Byte orders and bits -/

/-- The swap undoes the order in which `toUInt32` reads four bytes. -/
lemma bigEndian_toUInt32 (a b c d : UInt8) :
    (toUInt32 [a, b, c, d]).map bigEndian = some (wordOf a b c d) := by
  have hread : toUInt32 [a, b, c, d] = some ((0 : UInt32) ||| d.toUInt32 <<< 24 |||
      c.toUInt32 <<< 16 ||| b.toUInt32 <<< 8 ||| a.toUInt32 <<< 0) := by
    simp [toUInt32, toUInt32Array, toUInt32At, shiftedByte]
  rw [hread, Option.map_some, Option.some_inj]
  apply UInt32.eq_of_toBitVec_eq
  ext i hi
  simp [bigEndian, wordOf]
  interval_cases i <;> simp

lemma itemBytes_eq (x : UInt32) : itemBytes x = bytesOf x := by
  simp only [itemBytes, bytesOf, List.cons.injEq, and_true]
  refine ⟨?_, ?_, ?_, ?_⟩
  all_goals
    apply UInt8.eq_of_toBitVec_eq
    ext i hi
    simp [bigEndian]
    interval_cases i <;> simp

@[simp] lemma and_ones (x : UInt32) : x &&& (0xffffffff : UInt32) = x := by
  apply UInt32.eq_of_toBitVec_eq
  ext i hi
  simp
  interval_cases i <;> simp

lemma rotateLeft_eq (v n : UInt32) : rotateLeft v n = rotl n v := by
  rw [rotateLeft, and_ones, rotl]

lemma or_eq_ch (x y z : UInt32) : (x &&& y) ||| (~~~x &&& z) = ch x y z := by
  apply UInt32.eq_of_toBitVec_eq
  ext i hi
  simp [ch]
  cases x.toBitVec[i] <;> simp

lemma or_eq_maj (x y z : UInt32) : (x &&& y) ||| (x &&& z) ||| (y &&& z) = maj x y z := by
  apply UInt32.eq_of_toBitVec_eq
  ext i hi
  simp [maj]
  cases x.toBitVec[i] <;> cases y.toBitVec[i] <;> simp

lemma arrayOfBytes_eq (n : ℕ) : arrayOfBytes n 8 = be64 n := by
  simp [arrayOfBytes, be64, memoryByte, List.range_succ, List.replicate_succ]

/-! ### The padding and its chunks -/

/-- The loop stops at the first length with the residue it waits for. -/
lemma prepareLoop_eq {blockSize allowance k : ℕ} : ∀ {fuel msgLength counter : ℕ}, k < fuel →
    (msgLength + k) % blockSize = blockSize - allowance →
    (∀ j < k, (msgLength + j) % blockSize ≠ blockSize - allowance) →
    prepareLoop blockSize allowance fuel msgLength counter = some (counter + k) := by
  induction k with
  | zero =>
    intro fuel msgLength counter hk hend _
    obtain ⟨fuel, rfl⟩ := Nat.exists_eq_add_of_lt hk
    simp_all [prepareLoop]
  | succ k ih =>
    intro fuel msgLength counter hk hend hbefore
    obtain ⟨fuel, rfl⟩ := Nat.exists_eq_add_of_lt hk
    have hnow := hbefore 0 (by omega)
    rw [Nat.add_zero] at hnow
    rw [show k + 1 + fuel + 1 = (k + fuel + 1) + 1 by omega, prepareLoop, if_pos hnow]
    rw [ih (by omega) (by rw [← hend]; congr 1; omega)]
    · congr 1
      omega
    · intro j hj
      have := hbefore (j + 1) (by omega)
      rwa [show msgLength + 1 + j = msgLength + (j + 1) by omega]

lemma prepare_eq (message : List UInt8) : prepare message 64 (64 / 8) =
    some (message ++ [0x80] ++ List.replicate (zeros message.length) 0) := by
  have hloop : prepareLoop 64 8 64 (message ++ [0x80]).length 0 =
      some (0 + zeros message.length) := by
    refine prepareLoop_eq ?_ ?_ ?_
    · unfold zeros
      omega
    · rw [List.length_append, List.length_singleton]
      unfold zeros
      omega
    · intro j hj hend
      rw [List.length_append, List.length_singleton] at hend
      have := zeros_le hend
      omega
  simp only [prepare, Nat.reduceDiv, hloop, Option.map_some, Nat.zero_add]

/-- The padded message is what is cut into chunks, when its length can be written down. -/
lemma chunks_eq (message : List UInt8) : chunks message =
    if message.length < 2 ^ 60 then some (bytesSequence (pad message) 64 0) else none := by
  rw [chunks, prepare_eq, bitCount]
  by_cases hlen : message.length < 2 ^ 60
  · have hpad : message ++ [0x80] ++ List.replicate (zeros message.length) 0 ++
        arrayOfBytes (message.length * 8) 8 = pad message := by
      rw [Nat.mul_comm, arrayOfBytes_eq]
      rfl
    rw [if_pos hlen, if_pos (by omega)]
    exact congrArg (fun p => some (bytesSequence p 64 0)) hpad
  · rw [if_neg hlen, if_neg (by omega)]
    rfl

/-- The chunks of data that fills its last one. -/
lemma bytesSequence_eq {data : List UInt8} {n : ℕ} (hn : data.length = 64 * n) (k : ℕ) :
    ∀ i, i + k = n → bytesSequence data 64 (64 * i) =
      (List.range' i k).map fun i => (data.drop (64 * i)).take 64 := by
  induction k with
  | zero =>
    intro i hi
    have hnil : chunkAt data 64 (64 * i) = [] := by
      rw [← List.length_eq_zero_iff, length_chunkAt]
      omega
    rw [bytesSequence]
    simp [hnil]
  | succ k ih =>
    intro i hi
    have hmin : min 64 (data.length - 64 * i) = 64 := by omega
    have hchunk : chunkAt data 64 (64 * i) = (data.drop (64 * i)).take 64 := by
      rw [chunkAt, hmin]
    have hlen : (chunkAt data 64 (64 * i)).length = 64 := by
      rw [length_chunkAt, hmin]
    have hne : chunkAt data 64 (64 * i) ≠ [] := by
      rw [← List.length_pos_iff, hlen]
      omega
    rw [bytesSequence]
    simp only [if_neg hne]
    rw [hlen, show 64 * i + 64 = 64 * (i + 1) by omega, ih (i + 1) (by omega), hchunk]
    rfl

/-- The chunks one after the other are the data. -/
lemma flatten_bytesSequence (data : List UInt8) {chunkSize : ℕ} (hsize : 0 < chunkSize)
    (offset : ℕ) : (bytesSequence data chunkSize offset).flatten = data.drop offset := by
  induction offset using bytesSequence.induct data chunkSize with
  | case1 offset result hnil =>
    rw [bytesSequence, if_pos hnil]
    have hlen := length_chunkAt data chunkSize offset
    rw [show chunkAt data chunkSize offset = [] from hnil, List.length_nil] at hlen
    exact (List.drop_eq_nil_of_le (by omega)).symm
  | case2 offset result hne ih =>
    have htake : chunkAt data chunkSize offset =
        (data.drop offset).take (chunkAt data chunkSize offset).length := by
      rw [length_chunkAt, chunkAt]
    rw [bytesSequence, if_neg hne, List.flatten_cons, ih, ← List.drop_drop]
    exact (congrArg (· ++ _) htake).trans (List.take_append_drop _ _)

/-- **The chunks of a message are blocks of 64 bytes, and no other message has them.** -/
theorem chunks_lossless {message : List UInt8} {blocks : List (List UInt8)}
    (hchunks : chunks message = some blocks) :
    (∀ chunk ∈ blocks, chunk.length = 64) ∧
      ∀ message', chunks message' = some blocks → message' = message := by
  rw [chunks_eq] at hchunks
  split at hchunks
  swap
  · cases hchunks
  rename_i hlen
  obtain rfl := Option.some_inj.mp hchunks
  have hmod := length_pad_mod message
  have hblocks : (pad message).length = 64 * ((pad message).length / 64) := by omega
  have hcut := bytesSequence_eq hblocks _ 0 (Nat.zero_add _)
  refine ⟨?_, ?_⟩
  · intro chunk hchunk
    rw [Nat.mul_zero] at hcut
    rw [hcut] at hchunk
    obtain ⟨i, hi, rfl⟩ := List.mem_map.mp hchunk
    obtain ⟨-, hi⟩ := List.mem_range'_1.mp hi
    rw [List.length_take, List.length_drop]
    omega
  · intro message' hchunks'
    rw [chunks_eq] at hchunks'
    split at hchunks'
    swap
    · cases hchunks'
    have hflat := congrArg List.flatten (Option.some_inj.mp hchunks')
    rw [flatten_bytesSequence _ (by omega), flatten_bytesSequence _ (by omega)] at hflat
    exact pad_injective (by omega) (by omega) hflat

/-- The chunks of the text `abc`. -/
theorem chunks_lossless_abc :
    (∀ chunk ∈ bytesSequence (pad [0x61, 0x62, 0x63]) 64 0, chunk.length = 64) ∧
      ∀ message', chunks message' = some (bytesSequence (pad [0x61, 0x62, 0x63]) 64 0) →
        message' = [0x61, 0x62, 0x63] :=
  chunks_lossless ((chunks_eq _).trans (if_pos (by decide)))

/-! ### A chunk -/

/-- The words of a chunk as it is read. -/
lemma scheduleWord_input {chunk : List UInt8} (hlen : chunk.length = 64) (M : List UInt32) {x : ℕ}
    (hx : x < 16) : scheduleWord chunk M x = some (wordAt chunk (4 * x)) := by
  have hget : ∀ i < 64, chunk[i]? = some (chunk.getD i 0) := by
    intro i hi
    rw [List.getD_eq_getElem?_getD, List.getElem?_eq_getElem (by omega)]
    rfl
  have hword : (chunk.drop (x * 4)).take 4 = [chunk.getD (4 * x) 0, chunk.getD (4 * x + 1) 0,
      chunk.getD (4 * x + 2) 0, chunk.getD (4 * x + 3) 0] := by
    apply List.ext_getElem?
    intro i
    rw [List.getElem?_take, List.getElem?_drop, Nat.mul_comm x 4]
    obtain rfl | rfl | rfl | rfl | hi : i = 0 ∨ i = 1 ∨ i = 2 ∨ i = 3 ∨ 4 ≤ i := by omega
    · exact hget _ (by omega)
    · exact hget _ (by omega)
    · exact hget _ (by omega)
    · exact hget _ (by omega)
    · rw [if_neg (by omega), List.getElem?_eq_none (by simpa using hi)]
  have hslice : slice chunk (x * 4) (x * 4 + 4) = some ((chunk.drop (x * 4)).take 4) := by
    rw [slice, if_pos (by omega), Nat.add_sub_cancel_left]
  have hswap := bigEndian_toUInt32 (chunk.getD (4 * x) 0) (chunk.getD (4 * x + 1) 0)
    (chunk.getD (4 * x + 2) 0) (chunk.getD (4 * x + 3) 0)
  rw [scheduleWord, if_pos (by omega), hslice, hword]
  simpa [wordAt, Option.map_eq_bind, Function.comp_def] using hswap

/-- `M` after the words before `n` are in place. -/
def Filled (chunk : List UInt8) (n : ℕ) (M : List UInt32) : Prop :=
  M.length = 80 ∧ ∀ t < n, M[t]? = some (W (fun t => wordAt chunk (4 * t)) t)

lemma scheduleWord_eq {chunk : List UInt8} (hlen : chunk.length = 64) {M : List UInt32} {x : ℕ}
    (hM : Filled chunk x M) :
    scheduleWord chunk M x = some (W (fun t => wordAt chunk (4 * t)) x) := by
  by_cases hx : x < 16
  · rw [scheduleWord_input hlen M hx, W_of_lt _ hx]
  · have h3 := hM.2 (x - 3) (by omega)
    have h8 := hM.2 (x - 8) (by omega)
    have h14 := hM.2 (x - 14) (by omega)
    have h16 := hM.2 (x - 16) (by omega)
    rw [scheduleWord, if_neg (by omega), h3, h8, h14, h16, W_of_le _ (t := x) (by omega)]
    exact congrArg some (rotateLeft_eq _ _)

lemma schedule_filled {chunk : List UInt8} (hlen : chunk.length = 64) :
    ∃ M, schedule chunk = some M ∧ Filled chunk 80 M := by
  refine Loop.foldlM_range 80 ⟨List.length_replicate, by omega⟩ ?_
  intro x hx M hM
  refine ⟨_, by rw [scheduleWord_eq hlen hM]; rfl, ?_, ?_⟩
  · rw [List.length_set, hM.1]
  · intro t ht
    by_cases htx : x = t
    · subst htx
      rw [List.getElem?_set_self (by have := hM.1; omega)]
    · rw [List.getElem?_set_ne htx, hM.2 t (by omega)]

lemma mainStep_eq {chunk : List UInt8} {M : List UInt32} (hM : Filled chunk 80 M) (s : State)
    {j : ℕ} (hj : j < 80) :
    mainStep M s j = some (Sha1.round (W fun t => wordAt chunk (4 * t)) s j) := by
  have hmix : mix s j = (f j s.B s.C s.D, K j) := by
    unfold mix f K
    simp only [or_eq_ch, or_eq_maj]
    split_ifs <;> first | rfl | omega
  rw [mainStep, hmix, hM.2 j hj]
  simp only [Option.bind_eq_bind, Option.bind_some, Option.pure_def, rotateLeft_eq, and_ones,
    Sha1.round]
  congr 2
  ac_rfl

/-- **A chunk of 64 bytes is compressed as the standard has it.** -/
lemma processChunk_eq {chunk : List UInt8} (hlen : chunk.length = 64) (hh : State) :
    processChunk hh chunk = some (compress hh fun t => wordAt chunk (4 * t)) := by
  obtain ⟨M, hschedule, hM⟩ := schedule_filled hlen
  obtain ⟨s, hmain, hs⟩ := Loop.foldlM_range (f := mainStep M) (s := hh)
    (P := fun j s => s = (List.range j).foldl (Sha1.round (W fun t => wordAt chunk (4 * t))) hh) 80 rfl
    (by
      intro j hj s hs
      refine ⟨_, mainStep_eq hM s hj, ?_⟩
      rw [List.range_succ, List.foldl_append, ← hs]
      rfl)
  rw [processChunk, hschedule]
  simp only [Option.bind_eq_bind, Option.bind_some, hmain, and_ones, Option.pure_def]
  rw [hs]
  rfl

/-! ### The hash of a message -/

lemma wordAt_chunk (p : List UInt8) (i : ℕ) {t : ℕ} (ht : t < 16) :
    wordAt ((p.drop (64 * i)).take 64) (4 * t) = wordAt p (64 * i + 4 * t) := by
  have hget : ∀ j < 64, ((p.drop (64 * i)).take 64).getD j 0 = p.getD (64 * i + j) 0 := by
    intro j hj
    simp only [List.getD_eq_getElem?_getD, List.getElem?_take, List.getElem?_drop, if_pos hj]
  simp only [wordAt, Nat.add_assoc]
  rw [hget _ (by omega), hget _ (by omega), hget _ (by omega), hget _ (by omega)]

/-- The loop over the chunks of padded data. -/
lemma foldlM_processChunk {p : List UInt8} {n : ℕ} (hn : p.length = 64 * n) (s : State) :
    (bytesSequence p 64 0).foldlM processChunk s = some (hashBlocks p s n) := by
  have hchunks := bytesSequence_eq hn n 0 (by omega)
  rw [Nat.mul_zero] at hchunks
  rw [hchunks, List.foldlM_map, ← List.range_eq_range']
  obtain ⟨s', hfold, hs'⟩ := Loop.foldlM_range (s := s)
    (f := fun s i => processChunk s ((p.drop (64 * i)).take 64))
    (P := fun i s' => s' = hashBlocks p s i) n rfl
    (by
      intro i hi s' hs'
      have hlen : ((p.drop (64 * i)).take 64).length = 64 := by
        rw [List.length_take, List.length_drop]
        omega
      refine ⟨_, processChunk_eq hlen s', ?_⟩
      rw [hs', hashBlocks, hashBlocks, List.range_succ, List.foldl_append]
      simp only [List.foldl_cons, List.foldl_nil]
      exact compress_congr _ fun t ht => wordAt_chunk p i ht)
  rw [hfold, hs']

lemma calculate_eq (message : List UInt8) :
    calculate message = if message.length < 2 ^ 60 then some (sha1 message) else none := by
  rw [calculate, chunks_eq]
  split
  · have hmod := length_pad_mod message
    have hfold := foldlM_processChunk (p := pad message) (n := (pad message).length / 64)
      (by omega) h
    simp only [Option.bind_eq_bind, Option.bind_some, hfold, Option.pure_def]
    simp only [List.flatMap_cons, List.flatMap_nil, itemBytes_eq, List.append_nil]
    simp only [sha1, State.bytes, List.append_assoc]
    rfl
  · rfl

/-- **`SHA1` computes the hash of the standard**, and the only thing that can stop it is a message
whose length in bits is no `Int`. -/
theorem calculate_eq_some_iff (message digest : List UInt8) :
    calculate message = some digest ↔ message.length < 2 ^ 60 ∧ digest = sha1 message := by
  rw [calculate_eq, eq_comm (a := digest)]
  split
  · rename_i hlen
    rw [Option.some_inj, and_iff_right hlen]
  · rename_i hlen
    exact iff_of_false nofun fun h => hlen h.1

end SHA1

end IosDevBootcamp.Swifter
