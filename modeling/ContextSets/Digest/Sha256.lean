/-!
# SHA-256

The digest of a sequence of bytes: the bytes are padded to blocks of 64, and each block is mixed into
eight words.
-/

namespace ContextSets.Digest

/-- The 64 round constants: fractions of the cube roots of the first primes. -/
def roundConstants : List UInt32 :=
  [0x428a2f98, 0x71374491, 0xb5c0fbcf, 0xe9b5dba5, 0x3956c25b, 0x59f111f1, 0x923f82a4, 0xab1c5ed5,
    0xd807aa98, 0x12835b01, 0x243185be, 0x550c7dc3, 0x72be5d74, 0x80deb1fe, 0x9bdc06a7, 0xc19bf174,
    0xe49b69c1, 0xefbe4786, 0x0fc19dc6, 0x240ca1cc, 0x2de92c6f, 0x4a7484aa, 0x5cb0a9dc, 0x76f988da,
    0x983e5152, 0xa831c66d, 0xb00327c8, 0xbf597fc7, 0xc6e00bf3, 0xd5a79147, 0x06ca6351, 0x14292967,
    0x27b70a85, 0x2e1b2138, 0x4d2c6dfc, 0x53380d13, 0x650a7354, 0x766a0abb, 0x81c2c92e, 0x92722c85,
    0xa2bfe8a1, 0xa81a664b, 0xc24b8b70, 0xc76c51a3, 0xd192e819, 0xd6990624, 0xf40e3585, 0x106aa070,
    0x19a4c116, 0x1e376c08, 0x2748774c, 0x34b0bcb5, 0x391c0cb3, 0x4ed8aa4a, 0x5b9cca4f, 0x682e6ff3,
    0x748f82ee, 0x78a5636f, 0x84c87814, 0x8cc70208, 0x90befffa, 0xa4506ceb, 0xbef9a3f7, 0xc67178f2]

/-- Eight words of state. -/
structure State where
  a : UInt32
  b : UInt32
  c : UInt32
  d : UInt32
  e : UInt32
  f : UInt32
  g : UInt32
  h : UInt32

/-- The state before the first block: fractions of the square roots of the first primes. -/
def State.initial : State :=
  ⟨0x6a09e667, 0xbb67ae85, 0x3c6ef372, 0xa54ff53a, 0x510e527f, 0x9b05688c, 0x1f83d9ab, 0x5be0cd19⟩

/-- Turns a word to the right. -/
def rotate (word amount : UInt32) : UInt32 :=
  (word >>> amount) ||| (word <<< (32 - amount))

/-- One round with a constant and a word of the schedule. -/
def State.round (s : State) (constant word : UInt32) : State :=
  let high := rotate s.e 6 ^^^ rotate s.e 11 ^^^ rotate s.e 25
  let choice := (s.e &&& s.f) ^^^ (~~~s.e &&& s.g)
  let first := s.h + high + choice + constant + word
  let low := rotate s.a 2 ^^^ rotate s.a 13 ^^^ rotate s.a 22
  let majority := (s.a &&& s.b) ^^^ (s.a &&& s.c) ^^^ (s.b &&& s.c)
  ⟨first + (low + majority), s.a, s.b, s.c, s.d + first, s.e, s.f, s.g⟩

/-- Adds two states word by word. -/
def State.add (s t : State) : State :=
  ⟨s.a + t.a, s.b + t.b, s.c + t.c, s.d + t.d, s.e + t.e, s.f + t.f, s.g + t.g, s.h + t.h⟩

/-- The words of a state. -/
def State.words (s : State) : List UInt32 :=
  [s.a, s.b, s.c, s.d, s.e, s.f, s.g, s.h]

/-- Four bytes as a word, the highest first. -/
def wordsOf : List UInt8 → List UInt32
  | a :: b :: c :: d :: rest =>
    ((a.toUInt32 <<< 24) ||| (b.toUInt32 <<< 16) ||| (c.toUInt32 <<< 8) ||| d.toUInt32) ::
      wordsOf rest
  | _ => []

/-- Extends a schedule by further words, each made of four of the sixteen before it. The schedule is
kept newest first. -/
def extend : Nat → List UInt32 → List UInt32
  | 0, words => words
  | count + 1, words =>
    let back (n : Nat) : UInt32 := words.getD (n - 1) 0
    let small := rotate (back 15) 7 ^^^ rotate (back 15) 18 ^^^ (back 15 >>> 3)
    let large := rotate (back 2) 17 ^^^ rotate (back 2) 19 ^^^ (back 2 >>> 10)
    extend count ((back 16 + small + back 7 + large) :: words)

/-- Mixes a block of sixteen words into the state. -/
def State.absorb (s : State) (block : List UInt32) : State :=
  let schedule := (extend 48 block.reverse).reverse
  s.add ((roundConstants.zip schedule).foldl (fun t pair => t.round pair.1 pair.2) s)

/-- Mixes in block after block. -/
def State.absorbAll (s : State) (words : List UInt32) : State :=
  if words.length < 16 then s
  else (s.absorb (words.take 16)).absorbAll (words.drop 16)
termination_by words.length
decreasing_by simp only [List.length_drop]; omega

/-- The lowest bytes of a number, the highest first. -/
def bytesOf (n : Nat) : Nat → List UInt8
  | 0 => []
  | count + 1 => bytesOf (n / 256) count ++ [(n % 256).toUInt8]

/-- A one bit, zeros up to the last eight bytes of a block, and the length in bits. -/
def padded (bytes : List UInt8) : List UInt8 :=
  let zeros := (119 - bytes.length % 64) % 64
  bytes ++ [0x80] ++ List.replicate zeros 0 ++ bytesOf (8 * bytes.length) 8

/-- The 32 bytes of the SHA-256 digest. -/
def sha256 (bytes : List UInt8) : List UInt8 :=
  (State.initial.absorbAll (wordsOf (padded bytes))).words.flatMap (fun w => bytesOf w.toNat 4)

/-- A byte in two lowercase hexadecimal digits. -/
def hexByte (byte : UInt8) : List Char :=
  [Nat.digitChar (byte.toNat / 16), Nat.digitChar (byte.toNat % 16)]

/-- The SHA-256 digest of a text's UTF-8 bytes, in hexadecimal. -/
def sha256Hex (text : String) : String :=
  String.ofList ((sha256 text.toUTF8.toList).flatMap hexByte)

/-- A digest is written in hexadecimal digits. -/
theorem exists_digit_of_mem_sha256Hex {text : String} {c : Char}
    (h : c ∈ (sha256Hex text).toList) : ∃ n, n < 16 ∧ c = Nat.digitChar n := by
  unfold sha256Hex at h
  rw [String.toList_ofList, List.mem_flatMap] at h
  obtain ⟨byte, -, hdigit⟩ := h
  have hbyte := byte.toNat_lt
  simp only [hexByte, List.mem_cons, List.not_mem_nil, or_false] at hdigit
  cases hdigit with
  | inl hhigh => exact ⟨byte.toNat / 16, by omega, hhigh⟩
  | inr hlow => exact ⟨byte.toNat % 16, by omega, hlow⟩

end ContextSets.Digest
