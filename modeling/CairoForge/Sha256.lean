/-!
# SHA-256

The 256-bit secure hash of a text. The text is taken as UTF-8 bytes, padded to
blocks of sixteen words, and the blocks are folded into eight words of state.

## Main definitions

* `Sha256.State` — the eight words.
* `Sha256.pad` — the padded bytes of a message.
* `Sha256.compress` — one block folded into the state.
* `Sha256.hexDigest` — the digest of a text in lower case hexadecimal.
-/

namespace CairoForge

namespace Sha256

/-- The eight words of state. -/
structure State where
  a : UInt32
  b : UInt32
  c : UInt32
  d : UInt32
  e : UInt32
  f : UInt32
  g : UInt32
  h : UInt32

/-- The state before the first block: the fractions of the square roots of the
first eight primes. -/
def initial : State where
  a := 0x6a09e667
  b := 0xbb67ae85
  c := 0x3c6ef372
  d := 0xa54ff53a
  e := 0x510e527f
  f := 0x9b05688c
  g := 0x1f83d9ab
  h := 0x5be0cd19

/-- One constant for each round: the fractions of the cube roots of the first
sixty-four primes. -/
def roundConstants : List UInt32 :=
  [0x428a2f98, 0x71374491, 0xb5c0fbcf, 0xe9b5dba5, 0x3956c25b, 0x59f111f1, 0x923f82a4, 0xab1c5ed5,
    0xd807aa98, 0x12835b01, 0x243185be, 0x550c7dc3, 0x72be5d74, 0x80deb1fe, 0x9bdc06a7, 0xc19bf174,
    0xe49b69c1, 0xefbe4786, 0x0fc19dc6, 0x240ca1cc, 0x2de92c6f, 0x4a7484aa, 0x5cb0a9dc, 0x76f988da,
    0x983e5152, 0xa831c66d, 0xb00327c8, 0xbf597fc7, 0xc6e00bf3, 0xd5a79147, 0x06ca6351, 0x14292967,
    0x27b70a85, 0x2e1b2138, 0x4d2c6dfc, 0x53380d13, 0x650a7354, 0x766a0abb, 0x81c2c92e, 0x92722c85,
    0xa2bfe8a1, 0xa81a664b, 0xc24b8b70, 0xc76c51a3, 0xd192e819, 0xd6990624, 0xf40e3585, 0x106aa070,
    0x19a4c116, 0x1e376c08, 0x2748774c, 0x34b0bcb5, 0x391c0cb3, 0x4ed8aa4a, 0x5b9cca4f, 0x682e6ff3,
    0x748f82ee, 0x78a5636f, 0x84c87814, 0x8cc70208, 0x90befffa, 0xa4506ceb, 0xbef9a3f7, 0xc67178f2]

/-- A word rotated to the right. -/
def rotate (x : UInt32) (n : UInt32) : UInt32 :=
  (x >>> n) ||| (x <<< (32 - n))

/-- The word sixteen places further in the message schedule. -/
def scheduleNext (window : List UInt32) : UInt32 :=
  let early := window.getD 1 0
  let late := window.getD 14 0
  (rotate late 17 ^^^ rotate late 19 ^^^ (late >>> 10)) + window.getD 9 0 +
    (rotate early 7 ^^^ rotate early 18 ^^^ (early >>> 3)) + window.getD 0 0

/-- One round with a word of the schedule and the constant of the round. -/
def round (s : State) (word constant : UInt32) : State :=
  let choice := (s.e &&& s.f) ^^^ (~~~s.e &&& s.g)
  let majority := (s.a &&& s.b) ^^^ (s.a &&& s.c) ^^^ (s.b &&& s.c)
  let t1 := s.h + (rotate s.e 6 ^^^ rotate s.e 11 ^^^ rotate s.e 25) + choice + constant + word
  let t2 := (rotate s.a 2 ^^^ rotate s.a 13 ^^^ rotate s.a 22) + majority
  { a := t1 + t2, b := s.a, c := s.b, d := s.c, e := s.d + t1, f := s.e, g := s.f, h := s.g }

/-- The rounds of a block: each takes the first word of the window, and the window
moves on by one word of the schedule. -/
def rounds : List UInt32 → State → List UInt32 → State
  | [], s, _ => s
  | constant :: rest, s, window =>
    rounds rest (round s (window.getD 0 0) constant) (window.drop 1 ++ [scheduleNext window])

/-- One block of sixteen words folded into the state. -/
def compress (s : State) (block : List UInt32) : State :=
  let t := rounds roundConstants s block
  { a := s.a + t.a, b := s.b + t.b, c := s.c + t.c, d := s.d + t.d,
    e := s.e + t.e, f := s.f + t.f, g := s.g + t.g, h := s.h + t.h }

/-- The least count of zeros that fills the last block, given the length of a
message in bytes. -/
def paddingZeros (length : Nat) : Nat :=
  (119 - length % 64) % 64

/-- A natural below `2 ^ 64` in eight bytes, the highest first. -/
def lengthBytes (n : Nat) : List UInt8 :=
  (List.range 8).map fun i => UInt8.ofNat (n >>> (8 * (7 - i)))

/-- A message with a one bit, zeros and its length in bits behind it. -/
def pad (bytes : List UInt8) : List UInt8 :=
  bytes ++ 0x80 :: List.replicate (paddingZeros bytes.length) 0 ++ lengthBytes (8 * bytes.length)

/-- Four bytes each as one word, the highest byte first. -/
def words : List UInt8 → List UInt32
  | b0 :: b1 :: b2 :: b3 :: rest =>
    (b0.toUInt32 <<< 24 ||| b1.toUInt32 <<< 16 ||| b2.toUInt32 <<< 8 ||| b3.toUInt32) :: words rest
  | _ => []

/-- All blocks of a message folded into the state in order. -/
def digest (s : State) : List UInt32 → State
  | [] => s
  | word :: rest => digest (compress s (word :: rest.take 15)) (rest.drop 15)
termination_by message => message.length
decreasing_by simp only [List.length_cons, List.length_drop]; omega

/-- A word in eight hexadecimal digits. -/
def hexWord (x : UInt32) : List Char :=
  (List.range 8).map fun i => Nat.digitChar ((x.toNat >>> (4 * (7 - i))) % 16)

/-- The words of a state in hexadecimal. -/
def State.hex (s : State) : List Char :=
  hexWord s.a ++ hexWord s.b ++ hexWord s.c ++ hexWord s.d ++
    hexWord s.e ++ hexWord s.f ++ hexWord s.g ++ hexWord s.h

/-- The digest of a text in lower case hexadecimal. -/
def hexDigest (text : String) : String :=
  String.ofList (digest initial (words (pad text.toUTF8.data.toList))).hex

/-- A digest has sixty-four digits. -/
theorem length_hex (s : State) : s.hex.length = 64 := by
  simp [State.hex, hexWord]

/-- Padding fills whole blocks. -/
theorem length_pad_mod (bytes : List UInt8) : (pad bytes).length % 64 = 0 := by
  simp only [pad, paddingZeros, lengthBytes, List.length_append, List.length_cons,
    List.length_replicate, List.length_map, List.length_range]
  omega

end Sha256

end CairoForge
