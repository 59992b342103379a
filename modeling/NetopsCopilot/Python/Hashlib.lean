import NetopsCopilot.Postgres.Schema
import NetopsCopilot.Python.Codecs

/-!
# SHA-256 (`hashlib.sha256(text.encode("utf-8")).hexdigest()`)

The texts the program hashes are canonical JSON, hence ASCII: a character is its own UTF-8 byte. Words
are natural numbers below `2 ^ 32`. The rest of the development takes the digest as a parameter; this is
the function it stands for.
-/

namespace NetopsCopilot.Hashlib

/-- Round constants. -/
def roundConstants : List Nat := [
    0x428a2f98, 0x71374491, 0xb5c0fbcf, 0xe9b5dba5, 0x3956c25b, 0x59f111f1, 0x923f82a4,
    0xab1c5ed5, 0xd807aa98, 0x12835b01, 0x243185be, 0x550c7dc3, 0x72be5d74, 0x80deb1fe,
    0x9bdc06a7, 0xc19bf174, 0xe49b69c1, 0xefbe4786, 0x0fc19dc6, 0x240ca1cc, 0x2de92c6f,
    0x4a7484aa, 0x5cb0a9dc, 0x76f988da, 0x983e5152, 0xa831c66d, 0xb00327c8, 0xbf597fc7,
    0xc6e00bf3, 0xd5a79147, 0x06ca6351, 0x14292967, 0x27b70a85, 0x2e1b2138, 0x4d2c6dfc,
    0x53380d13, 0x650a7354, 0x766a0abb, 0x81c2c92e, 0x92722c85, 0xa2bfe8a1, 0xa81a664b,
    0xc24b8b70, 0xc76c51a3, 0xd192e819, 0xd6990624, 0xf40e3585, 0x106aa070, 0x19a4c116,
    0x1e376c08, 0x2748774c, 0x34b0bcb5, 0x391c0cb3, 0x4ed8aa4a, 0x5b9cca4f, 0x682e6ff3,
    0x748f82ee, 0x78a5636f, 0x84c87814, 0x8cc70208, 0x90befffa, 0xa4506ceb, 0xbef9a3f7,
    0xc67178f2]

/-- The eight working words. -/
structure Words where
  a : Nat
  b : Nat
  c : Nat
  d : Nat
  e : Nat
  f : Nat
  g : Nat
  h : Nat

def initialWords : Words :=
  ⟨0x6a09e667, 0xbb67ae85, 0x3c6ef372, 0xa54ff53a,
    0x510e527f, 0x9b05688c, 0x1f83d9ab, 0x5be0cd19⟩

def word (n : Nat) : Nat := n % 2 ^ 32

/-- Rotation to the right. -/
def rotr (k x : Nat) : Nat := x >>> k ||| word (x <<< (32 - k))

/-- One round, with its constant and its message word. -/
def round (s : Words) (kw : Nat × Nat) : Words :=
  let s1 := rotr 6 s.e ^^^ rotr 11 s.e ^^^ rotr 25 s.e
  let ch := (s.e &&& s.f) ^^^ ((2 ^ 32 - 1 - s.e) &&& s.g)
  let t1 := s.h + s1 + ch + kw.1 + kw.2
  let s0 := rotr 2 s.a ^^^ rotr 13 s.a ^^^ rotr 22 s.a
  let maj := (s.a &&& s.b) ^^^ (s.a &&& s.c) ^^^ (s.b &&& s.c)
  ⟨word (t1 + s0 + maj), s.a, s.b, s.c, word (s.d + t1), s.e, s.f, s.g⟩

/-- The message schedule, from the last sixteen words. -/
def schedule : Nat → List Nat → List Nat
  | 0, _ => []
  | rounds + 1, w =>
    let x := w.getD 1 0
    let y := w.getD 14 0
    let s0 := rotr 7 x ^^^ rotr 18 x ^^^ x >>> 3
    let s1 := rotr 17 y ^^^ rotr 19 y ^^^ y >>> 10
    w.headD 0 :: schedule rounds (w.tail ++ [word (w.headD 0 + s0 + w.getD 9 0 + s1)])

def Words.add (s t : Words) : Words :=
  ⟨word (s.a + t.a), word (s.b + t.b), word (s.c + t.c), word (s.d + t.d), word (s.e + t.e),
    word (s.f + t.f), word (s.g + t.g), word (s.h + t.h)⟩

/-- One block of sixteen message words. -/
def compress (s : Words) (block : List Nat) : Words :=
  s.add ((roundConstants.zip (schedule 64 block)).foldl round s)

/-- Big-endian words of a list of bytes. -/
def bigEndian : List Nat → List Nat
  | a :: b :: c :: d :: bytes => (a * 2 ^ 24 + b * 2 ^ 16 + c * 2 ^ 8 + d) :: bigEndian bytes
  | _ => []

/-- The message with its padding: a one bit, zeros, and its length in bits. -/
def padded (bytes : List Nat) : List Nat :=
  let len := bytes.length
  bigEndian (bytes ++ 128 :: List.replicate ((119 - len % 64) % 64) 0) ++ [len * 8 / 2 ^ 32, word (len * 8)]

def compressAll : Nat → Words → List Nat → Words
  | 0, s, _ => s
  | blocks + 1, s, words => compressAll blocks (compress s (words.take 16)) (words.drop 16)

def digest (bytes : List Nat) : Words :=
  compressAll ((padded bytes).length / 16) initialWords (padded bytes)

def Words.hex (s : Words) : PyStr :=
  hexFixed 8 s.a ++ hexFixed 8 s.b ++ hexFixed 8 s.c ++ hexFixed 8 s.d ++ hexFixed 8 s.e ++
    hexFixed 8 s.f ++ hexFixed 8 s.g ++ hexFixed 8 s.h

/-- `hashlib.sha256(text.encode("utf-8")).hexdigest()` for an ASCII text. -/
def sha256 (text : PyStr) : Sha256Hex where
  text := (digest (text.map fun c => c.val)).hex
  length := by simp only [Words.hex, List.length_append, hexFixed_length]
  hex := by simp only [Words.hex, List.all_append, hexFixed_hex, Bool.and_self]

example : (sha256 (py "abc")).text =
    py "ba7816bf8f01cfea414140de5dae2223b00361a396177a9cb410ff61f20015ad" := by decide +kernel

end NetopsCopilot.Hashlib
