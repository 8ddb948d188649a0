import WsprryPico.Wtp.Sha256

/-!
# Streaming SHA-256

`Sha256` of `wtp/sha256.cpp` with its tail as the array it is: `update` compresses whole
blocks of its input where no byte is pending, and else fills the tail. It computes what
the hash by single bytes does, and that is the digest of FIPS 180-4.
-/

namespace WsprryPico.Wtp.Sha256

/-! ## FIPS 180-4 -/

def ch (x y z : UInt32) : UInt32 := (x &&& y) ^^^ (~~~ x &&& z)

def maj (x y z : UInt32) : UInt32 := (x &&& y) ^^^ (x &&& z) ^^^ (y &&& z)

/-- The exclusive or of three rotations. -/
def rotations (i j k x : UInt32) : UInt32 := rotateRight x i ^^^ rotateRight x j ^^^ rotateRight x k

def sigma0 (x : UInt32) : UInt32 := rotateRight x 7 ^^^ rotateRight x 18 ^^^ (x >>> 3)

def sigma1 (x : UInt32) : UInt32 := rotateRight x 17 ^^^ rotateRight x 19 ^^^ (x >>> 10)

/-- The message schedule of the words `m` of a block. -/
def schedule (m : List UInt32) (t : Nat) : UInt32 :=
  if t < 16 then m.getD t 0
  else
    sigma1 (schedule m (t - 2)) + schedule m (t - 7) + sigma0 (schedule m (t - 15)) +
      schedule m (t - 16)

/-- Round `t` of the hash computation. -/
def fipsRound (m : List UInt32) (x : Words) (t : Nat) : Words :=
  let t1 := x.h + rotations 6 11 25 x.e + ch x.e x.f x.g + roundConstants.getD t 0 + schedule m t
  let t2 := rotations 2 13 22 x.a + maj x.a x.b x.c
  ⟨t1 + t2, x.a, x.b, x.c, x.d + t1, x.e, x.f, x.g⟩

def fipsBlock (hash : Words) (block : List UInt8) : Words :=
  hash.add ((List.range 64).foldl (fipsRound (readWords block)) hash)

/-- The zero bytes of the padding, the fewest that leave eight bytes of a block. -/
def fipsZeros (length : Nat) : Nat := (119 - length % 64) % 64

def fipsPadded (message : List UInt8) : List UInt8 :=
  message ++ 0x80 :: List.replicate (fipsZeros message.length) 0 ++
    bigEndian64 (.ofNat (8 * message.length))

def blockAt (bytes : List UInt8) (i : Nat) : List UInt8 := (bytes.drop (64 * i)).take 64

/-- The hash value after `n` blocks, from the initial one. -/
def chain (block : Words → List UInt8 → Words) (bytes : List UInt8) (n : Nat) : Words :=
  (List.range n).foldl (fun hash i => block hash (blockAt bytes i)) ({} : Sha256).hash

def fips (message : List UInt8) : List UInt8 :=
  let padded := fipsPadded message
  (chain fipsBlock padded (padded.length / 64)).toList.flatMap bigEndian32

/-- The round constants are the fractions of the cube roots of the first primes. -/
theorem roundConstants_roots : ∀ x ∈ ([2, 3, 5, 7, 11, 13, 17, 19, 23, 29, 31, 37, 41, 43, 47, 53,
    59, 61, 67, 71, 73, 79, 83, 89, 97, 101, 103, 107, 109, 113, 127, 131, 137, 139, 149, 151, 157,
    163, 167, 173, 179, 181, 191, 193, 197, 199, 211, 223, 227, 229, 233, 239, 241, 251, 257, 263,
    269, 271, 277, 281, 283, 293, 307, 311] : List Nat).zip roundConstants,
    ∃ whole < 7, (2 ^ 32 * whole + x.2.toNat) ^ 3 ≤ x.1 * 2 ^ 96 ∧
      x.1 * 2 ^ 96 < (2 ^ 32 * whole + x.2.toNat + 1) ^ 3 := by
  decide +kernel

/-- The initial hash value is the fractions of the square roots of the first primes. -/
theorem hash_roots : ∀ x ∈ ([2, 3, 5, 7, 11, 13, 17, 19] : List Nat).zip ({} : Sha256).hash.toList,
    ∃ whole < 5, (2 ^ 32 * whole + x.2.toNat) ^ 2 ≤ x.1 * 2 ^ 64 ∧
      x.1 * 2 ^ 64 < (2 ^ 32 * whole + x.2.toNat + 1) ^ 2 := by
  decide +kernel

/-! ## One block -/

theorem readWords_length : ∀ block : List UInt8, (readWords block).length = block.length / 4
  | _ :: _ :: _ :: _ :: rest => by
    rw [readWords, List.length_cons, readWords_length rest]
    simp only [List.length_cons]
    omega
  | [] | [_] | [_, _] | [_, _, _] => by simp [readWords]

theorem extend_schedule (m : List UInt32) (k : Nat) : ∀ {t : Nat}, 16 ≤ t →
    extend k ((List.range t).map (schedule m)).reverse =
      ((List.range (t + k)).map (schedule m)).reverse := by
  induction k with
  | zero => exact fun _ => rfl
  | succ k ih =>
    intro t ht
    have hw : ∀ i < t, ((List.range t).map (schedule m)).reverse.getD i 0 = schedule m (t - 1 - i) := by
      intro i hi
      rw [List.getD_eq_getElem?_getD, List.getElem?_reverse (by simpa using hi)]
      simp [show t - 1 - i < t by omega]
    have hnext : schedule m t = schedule m (t - 1 - 15) + sigma0 (schedule m (t - 1 - 14)) +
        schedule m (t - 1 - 6) + sigma1 (schedule m (t - 1 - 1)) := by
      have hrec : schedule m t = sigma1 (schedule m (t - 2)) + schedule m (t - 7) +
          sigma0 (schedule m (t - 15)) + schedule m (t - 16) := by
        rw [schedule, if_neg (by omega)]
      rw [hrec]
      simp only [Nat.sub_sub, Nat.reduceAdd]
      ac_rfl
    have hstep := ih (t := t + 1) (by omega)
    rw [List.range_succ, List.map_append, List.reverse_append, Nat.add_right_comm] at hstep
    rw [extend, ← Nat.add_assoc, ← hstep]
    simp only [hw 14 (by omega), hw 1 (by omega), hw 15 (by omega), hw 6 (by omega)]
    exact congrArg (fun w => extend k (w :: _)) hnext.symm

theorem fipsBlock_eq {block : List UInt8} (hash : Words) (h : block.length = 64) :
    fipsBlock hash block = compress hash block := by
  have hm : (readWords block).length = 16 := by rw [readWords_length, h]
  have hfirst : (List.range 16).map (schedule (readWords block)) = readWords block := by
    refine List.ext_getElem (by simp [hm]) fun i hi hi' => ?_
    rw [List.getElem_map, List.getElem_range, schedule, if_pos (by omega),
      List.getD_eq_getElem?_getD, List.getElem?_eq_getElem hi', Option.getD_some]
  have hwords : (extend 48 (readWords block).reverse).reverse =
      (List.range 64).map (schedule (readWords block)) := by
    have hgrown := extend_schedule (readWords block) 48 (Nat.le_refl 16)
    rw [hfirst] at hgrown
    rw [hgrown, List.reverse_reverse]
  have hconstants : roundConstants = (List.range 64).map (roundConstants.getD · 0) := by decide +kernel
  simp only [fipsBlock, compress]
  rw [hwords, hconstants, List.zip_map', List.foldl_map]
  rfl

/-! ## The chain of blocks -/

theorem chain_succ (block : Words → List UInt8 → Words) (bytes : List UInt8) (n : Nat) :
    chain block bytes (n + 1) = block (chain block bytes n) (blockAt bytes n) := by
  simp [chain, List.range_succ]

theorem chain_append (block : Words → List UInt8 → Words) {m : List UInt8} (c : List UInt8) {n : Nat}
    (h : 64 * n ≤ m.length) : chain block (m ++ c) n = chain block m n := by
  refine List.foldl_ext _ _ _ fun hash i hi => ?_
  have hi := List.mem_range.mp hi
  rw [blockAt, blockAt, List.drop_append_of_le_length (by omega),
    List.take_append_of_le_length (by simp; omega)]

theorem chain_fips {bytes : List UInt8} {n : Nat} (h : 64 * n ≤ bytes.length) :
    chain fipsBlock bytes n = chain compress bytes n := by
  refine List.foldl_ext _ _ _ fun hash i hi => fipsBlock_eq hash ?_
  have hi := List.mem_range.mp hi
  simp [blockAt]
  omega

/-- The hash after the message `m`: its whole blocks are chained, the rest waits. -/
def Absorbed (s : Sha256) (m : List UInt8) : Prop :=
  s.hash = chain compress m (m.length / 64) ∧ s.tail = m.drop (64 * (m.length / 64)) ∧
    s.bytes = .ofNat m.length

/-- What waits and what follows it make up a block. -/
theorem blockAt_rest (m : List UInt8) {c : List UInt8} (h : m.length % 64 + c.length = 64)
    (more : List UInt8) :
    blockAt (m ++ (c ++ more)) (m.length / 64) = m.drop (64 * (m.length / 64)) ++ c := by
  have hlen : (m.drop (64 * (m.length / 64)) ++ c).length = 64 := by simp; omega
  rw [blockAt, List.drop_append_of_le_length (by omega), ← List.append_assoc,
    List.take_append_of_le_length (by omega), List.take_of_length_le (by omega)]

theorem blockAt_next (m : List UInt8) {c : List UInt8} (h : m.length % 64 + c.length = 64)
    (more : List UInt8) :
    blockAt (m ++ (c ++ more)) (m.length / 64 + 1) = more.take 64 := by
  rw [blockAt, ← List.append_assoc, List.drop_left' (by simp; omega)]

theorem push_absorbed {s : Sha256} {m : List UInt8} (h : s.Absorbed m) (b : UInt8) :
    (s.push b).Absorbed (m ++ [b]) := by
  obtain ⟨hhash, htail, hbytes⟩ := h
  have hlen : (s.tail ++ [b]).length = m.length % 64 + 1 := by rw [htail]; simp; omega
  have hcount : s.bytes + 1 = .ofNat (m ++ [b]).length := by
    rw [hbytes, List.length_append, UInt64.ofNat_add]; rfl
  by_cases hfull : (s.tail ++ [b]).length = 64
  · have hdiv : (m ++ [b]).length / 64 = m.length / 64 + 1 := by simp; omega
    have hpush : s.push b = ⟨compress s.hash (s.tail ++ [b]), [], s.bytes + 1⟩ := if_pos hfull
    rw [hpush]
    refine ⟨?_, (List.drop_eq_nil_of_le (by rw [hdiv]; simp; omega)).symm, hcount⟩
    have hblock := blockAt_rest m (c := [b]) (by simp; omega) []
    rw [List.append_nil] at hblock
    rw [hdiv, chain_succ, chain_append _ _ (by omega), hhash, htail, hblock]
  · have hdiv : (m ++ [b]).length / 64 = m.length / 64 := by simp; omega
    have hpush : s.push b = ⟨s.hash, s.tail ++ [b], s.bytes + 1⟩ := if_neg hfull
    rw [hpush]
    refine ⟨?_, ?_, hcount⟩
    · rw [hdiv, chain_append _ _ (by omega), hhash]
    · rw [hdiv, List.drop_append_of_le_length (by omega), htail]

theorem update_absorbed {s : Sha256} {m : List UInt8} (h : s.Absorbed m) (bytes : List UInt8) :
    (s.update bytes).Absorbed (m ++ bytes) := by
  induction bytes generalizing s m with
  | nil => rwa [List.append_nil]
  | cons b bytes ih =>
    have hrest := ih (push_absorbed h b)
    rwa [List.append_assoc] at hrest

theorem padded_long {s : Sha256} (h : s.tail.length + 1 > 56) :
    s.padded = compress
      (compress s.hash (s.tail ++ ([0x80] ++ List.replicate (64 - (s.tail.length + 1)) 0)))
      (List.replicate 56 0 ++ bigEndian64 (s.bytes * 8)) := by
  simp only [padded, List.length_append, List.length_singleton]
  rw [if_pos h, List.append_assoc]
  rfl

theorem padded_short {s : Sha256} (h : ¬ s.tail.length + 1 > 56) :
    s.padded = compress s.hash (s.tail ++ ([0x80] ++ List.replicate (56 - (s.tail.length + 1)) 0 ++
      bigEndian64 (s.bytes * 8))) := by
  simp only [padded, List.length_append, List.length_singleton]
  rw [if_neg h]
  simp only [List.length_append, List.length_singleton, List.append_assoc]

theorem padded_absorbed {s : Sha256} {m : List UInt8} (h : s.Absorbed m) :
    s.padded = chain fipsBlock (fipsPadded m) ((fipsPadded m).length / 64) := by
  obtain ⟨hhash, htail, hbytes⟩ := h
  have hlen : s.tail.length = m.length % 64 := by rw [htail]; simp; omega
  have hbits : s.bytes * 8 = .ofNat (8 * m.length) := by
    rw [hbytes, Nat.mul_comm, UInt64.ofNat_mul]; rfl
  have hpadded : fipsPadded m = m ++ ([0x80] ++ List.replicate (fipsZeros m.length) 0 ++
      bigEndian64 (s.bytes * 8)) := by
    simp [fipsPadded, hbits]
  have hnumber : (bigEndian64 (s.bytes * 8)).length = 8 := rfl
  have hzeros : fipsZeros m.length = (119 - m.length % 64) % 64 := rfl
  have hlength : (fipsPadded m).length = m.length + (1 + fipsZeros m.length + 8) := by
    rw [hpadded]; simp only [List.length_append, List.length_singleton, List.length_replicate, hnumber]
  rw [chain_fips (by omega)]
  by_cases hlong : s.tail.length + 1 > 56
  · -- The marker leaves no room for the length: a second block holds it.
    have hsplit : fipsPadded m = m ++ ([0x80] ++ List.replicate (64 - (s.tail.length + 1)) 0 ++
        (List.replicate 56 0 ++ bigEndian64 (s.bytes * 8))) := by
      rw [hpadded, show fipsZeros m.length = 64 - (s.tail.length + 1) + 56 by omega, List.replicate_add]
      simp only [List.append_assoc]
    rw [show (fipsPadded m).length / 64 = m.length / 64 + 1 + 1 by omega, padded_long hlong, chain_succ,
      chain_succ, hsplit, chain_append _ _ (by omega), blockAt_rest m (by simp; omega),
      blockAt_next m (by simp; omega), hhash, ← htail]
    rfl
  · have hsplit : fipsPadded m = m ++ ([0x80] ++ List.replicate (56 - (s.tail.length + 1)) 0 ++
        bigEndian64 (s.bytes * 8) ++ []) := by
      rw [hpadded, show fipsZeros m.length = 56 - (s.tail.length + 1) by omega, List.append_nil]
    rw [show (fipsPadded m).length / 64 = m.length / 64 + 1 by omega, padded_short hlong, chain_succ,
      hsplit, chain_append _ _ (by omega), blockAt_rest m (by simp; omega), hhash, ← htail]

/-- What reaches the tail at once: a full one is compressed. -/
theorem update_fill (s : Sha256) {bytes : List UInt8} (h : bytes ≠ [])
    (hroom : s.tail.length + bytes.length ≤ 64) :
    s.update bytes = if s.tail.length + bytes.length = 64
      then ⟨compress s.hash (s.tail ++ bytes), [], s.bytes + .ofNat bytes.length⟩
      else ⟨s.hash, s.tail ++ bytes, s.bytes + .ofNat bytes.length⟩ := by
  induction bytes generalizing s with
  | nil => exact absurd rfl h
  | cons b rest ih =>
    cases rest with
    | nil => simp [update, push]
    | cons c rest =>
      have hpush : s.push b = ⟨s.hash, s.tail ++ [b], s.bytes + 1⟩ :=
        if_neg (by simp at hroom ⊢; omega)
      have hrest := ih (s.push b) (List.cons_ne_nil c rest) (by rw [hpush]; simp at hroom ⊢; omega)
      have hlen : (s.tail ++ [b]).length + (c :: rest).length =
        s.tail.length + (b :: c :: rest).length := by
        simp; omega
      have hcount : s.bytes + 1 + .ofNat (c :: rest).length =
        s.bytes + .ofNat (b :: c :: rest).length := by
        rw [List.length_cons (a := b), UInt64.ofNat_add, UInt64.add_assoc, UInt64.add_comm 1]; rfl
      simp only [hpush, hlen, hcount, List.append_assoc, List.singleton_append] at hrest
      exact (congrArg (update · (c :: rest)) hpush).trans hrest

theorem update_take_drop (s : Sha256) (bytes : List UInt8) (count : Nat) :
    (s.update (bytes.take count)).update (bytes.drop count) = s.update bytes := by
  rw [update, update, update, ← List.foldl_append, List.take_append_drop]

/-! ## The stream -/

/-- `std::copy_n` of all `bytes` to `tail` from `index` on. -/
def copy (tail bytes : List UInt8) (index : Nat) : List UInt8 :=
  tail.take index ++ bytes ++ tail.drop (index + bytes.length)

theorem copy_length {tail bytes : List UInt8} {index : Nat} (h : index + bytes.length ≤ tail.length) :
    (copy tail bytes index).length = tail.length := by
  simp [copy]
  omega

theorem copy_take {tail : List UInt8} {index : Nat} (h : index ≤ tail.length) (bytes : List UInt8) :
    (copy tail bytes index).take (index + bytes.length) = tail.take index ++ bytes :=
  List.take_left' (by simp; omega)

/-- `Sha256` with the array of its tail, of which the first `pending` bytes count. -/
structure Stream where
  hash : Words := ({} : Sha256).hash
  tail : List UInt8 := List.replicate 64 0
  size : tail.length = 64 := by decide
  pending : Fin 64 := 0
  bytes : UInt64 := 0

namespace Stream

/-- The loop of `update`. -/
def feed (s : Stream) (bytes : List UInt8) : Stream :=
  if bytes = [] then s
  else if s.pending.val = 0 ∧ 64 ≤ bytes.length then
    feed { s with hash := compress s.hash (bytes.take 64) } (bytes.drop 64)
  else
    let count := min bytes.length (64 - s.pending)
    let tail := copy s.tail (bytes.take count) s.pending
    have size : tail.length = 64 := by
      rw [copy_length (by rw [s.size, List.length_take]; omega), s.size]
    if h : s.pending + count = 64 then
      feed { s with hash := compress s.hash tail, tail, size, pending := 0 } (bytes.drop count)
    else
      feed { s with tail, size, pending := ⟨s.pending + count, by omega⟩ } (bytes.drop count)
termination_by bytes.length
decreasing_by
  all_goals
    have hsome := List.length_pos_of_ne_nil ‹_›
    rw [List.length_drop]
    omega

def update (s : Stream) (bytes : List UInt8) : Stream :=
  feed { s with bytes := s.bytes + .ofNat bytes.length } bytes

/-- `finish` works on a copy: nothing of the stream changes. -/
def finish (s : Stream) : List UInt8 :=
  let pending := s.pending.val + 1
  let tail := (copy s.tail [0x80] s.pending).take pending ++ List.replicate (64 - pending) 0
  let (hash, tail) :=
    if pending > 56 then (compress s.hash tail, List.replicate 64 0) else (s.hash, tail)
  (compress hash (copy tail (bigEndian64 (s.bytes * 8)) 56)).toList.flatMap bigEndian32

inductive Call where
  | update (bytes : List UInt8)
  | finish

def run (s : Stream) : List Call → List (List UInt8)
  | [] => []
  | .update bytes :: calls => (s.update bytes).run calls
  | .finish :: calls => s.finish :: s.run calls

/-- The hash by single bytes in the state of the stream, after `n` bytes. -/
def view (s : Stream) (n : UInt64) : Sha256 := ⟨s.hash, s.tail.take s.pending, n⟩

theorem view_length (s : Stream) (n : UInt64) : (s.view n).tail.length = s.pending := by
  have hsize := s.size
  simp [view]
  omega

/-- A turn of the loop takes `count` bytes. -/
theorem feed_turn {s s' : Stream} {bytes : List UInt8} {count : Nat} (hcount : count ≤ bytes.length)
    {n : UInt64} (hturn : (s.view n).update (bytes.take count) = s'.view (n + .ofNat count))
    (hrest : ∀ n, (s'.feed (bytes.drop count)).view (n + .ofNat (bytes.drop count).length) =
      (s'.view n).update (bytes.drop count)) :
    (s'.feed (bytes.drop count)).view (n + .ofNat bytes.length) = (s.view n).update bytes := by
  have hlen : n + .ofNat count + .ofNat (bytes.drop count).length = n + .ofNat bytes.length := by
    rw [UInt64.add_assoc, ← UInt64.ofNat_add, List.length_drop, Nat.add_sub_cancel' hcount]
  rw [← hlen, hrest, ← hturn, update_take_drop]

/-- Where the loop copies `count` bytes to the tail. -/
theorem copied (s : Stream) {bytes : List UInt8} {count : Nat} (hcount : count ≤ bytes.length) :
    (copy s.tail (bytes.take count) s.pending).take (s.pending + count) =
      s.tail.take s.pending ++ bytes.take count := by
  have hsize := s.size
  have htaken := copy_take (show s.pending.val ≤ s.tail.length by omega) (bytes.take count)
  rwa [List.length_take_of_le hcount] at htaken

theorem feed_view (s : Stream) (bytes : List UInt8) : ∀ n,
    (s.feed bytes).view (n + .ofNat bytes.length) = (s.view n).update bytes := by
  fun_induction feed s bytes with
  | case1 s => exact fun n => congrArg s.view (UInt64.add_zero n)
  | case2 s bytes hsome hdirect ih =>
    refine fun n => feed_turn hdirect.2 ?_ ih
    have hlen : (bytes.take 64).length = 64 := List.length_take_of_le hdirect.2
    rw [update_fill _ (by rw [← List.length_pos_iff]; omega) (by rw [view_length]; omega),
      if_pos (by rw [view_length]; omega)]
    simp [view, hlen, hdirect.1]
  | case3 s bytes hsome hdirect count tail size hfull ih =>
    have hcount : count ≤ bytes.length := Nat.min_le_left _ _
    refine fun n => feed_turn hcount ?_ ih
    have hlen := List.length_take_of_le hcount
    have hfilled : tail.take (s.pending + count) = s.tail.take s.pending ++ bytes.take count :=
      s.copied hcount
    rw [hfull, List.take_of_length_le (Nat.le_of_eq size)] at hfilled
    rw [update_fill _ (by rw [← List.length_pos_iff]; omega) (by rw [view_length, hlen]; omega),
      if_pos (by rw [view_length, hlen]; omega), hlen]
    simp only [view, ← hfilled]
    rfl
  | case4 s bytes hsome hdirect count tail size hfull ih =>
    have hcount : count ≤ bytes.length := Nat.min_le_left _ _
    refine fun n => feed_turn hcount ?_ ih
    have hlen := List.length_take_of_le hcount
    have hpos := List.length_pos_of_ne_nil hsome
    have hfilled : tail.take (s.pending + count) = s.tail.take s.pending ++ bytes.take count :=
      s.copied hcount
    rw [update_fill _ (by rw [← List.length_pos_iff]; omega) (by rw [view_length, hlen]; omega),
      if_neg (by rw [view_length, hlen]; omega), hlen]
    simp only [view, ← hfilled]

theorem feed_bytes (s : Stream) (bytes : List UInt8) : (s.feed bytes).bytes = s.bytes := by
  fun_induction feed s bytes with
  | case1 => rfl
  | case2 _ _ _ _ ih | case3 _ _ _ _ _ _ _ _ ih | case4 _ _ _ _ _ _ _ _ ih => exact ih

theorem update_view (s : Stream) (bytes : List UInt8) :
    (s.update bytes).view (s.update bytes).bytes = (s.view s.bytes).update bytes := by
  rw [update, feed_bytes, feed_view]
  rfl

theorem finish_view (s : Stream) : s.finish = (s.view s.bytes).finish.bytes := by
  have hlen : (s.tail.take s.pending).length = s.pending.val := s.view_length s.bytes
  have hsize := s.size
  have htaken := copy_take (show s.pending.val ≤ s.tail.length by omega) [0x80]
  rw [List.length_singleton] at htaken
  simp only [finish, Sha256.finish, htaken]
  by_cases hlong : s.pending.val + 1 > 56
  · rw [padded_long (by rwa [view_length]), view_length, if_pos hlong, List.append_assoc]
    rfl
  · rw [padded_short (by rwa [view_length]), view_length, if_neg hlong]
    have hcopied : copy (s.tail.take s.pending ++ [0x80] ++ List.replicate (64 - (s.pending.val + 1)) 0)
        (bigEndian64 (s.bytes * 8)) 56 = s.tail.take s.pending ++ ([0x80] ++
          List.replicate (56 - (s.pending.val + 1)) 0 ++ bigEndian64 (s.bytes * 8)) := by
      have hmarked : (s.tail.take s.pending ++ [0x80]).length = s.pending.val + 1 := by simp [hlen]
      have hnumber : (bigEndian64 (s.bytes * 8)).length = 8 := rfl
      rw [copy, hnumber, List.drop_eq_nil_of_le (by simp [hlen]; omega), List.take_append, hmarked,
        List.take_of_length_le (by omega), List.take_replicate,
        Nat.min_eq_left (by omega)]
      simp only [List.append_assoc, List.append_nil]
    exact congrArg (fun tail => (compress s.hash tail).toList.flatMap bigEndian32) hcopied

def digests (message : List UInt8) : List Call → List (List UInt8)
  | [] => []
  | .update bytes :: calls => digests (message ++ bytes) calls
  | .finish :: calls => fips message :: digests message calls

theorem finish_fips {s : Stream} {m : List UInt8} (h : (s.view s.bytes).Absorbed m) :
    s.finish = fips m := by
  rw [finish_view]
  exact congrArg (fun hash : Words => hash.toList.flatMap bigEndian32) (padded_absorbed h)

theorem run_digests {s : Stream} {m : List UInt8} (h : (s.view s.bytes).Absorbed m)
    (calls : List Call) : s.run calls = digests m calls := by
  induction calls generalizing s m with
  | nil => rfl
  | cons call calls ih =>
    cases call with
    | update bytes => exact ih (by rw [update_view]; exact update_absorbed h bytes)
    | finish => rw [run, digests, finish_fips h, ih h]

/-- FIPS 180-4 defines the digest of messages of less than `2 ^ 64` bits. -/
theorem run_fips (calls : List Call) : ({} : Stream).run calls = digests [] calls :=
  run_digests ⟨rfl, rfl, rfl⟩ calls

end Stream

end WsprryPico.Wtp.Sha256
