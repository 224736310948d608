import BraceBalance.Text.Bytes

/-!
# Digest — the MD5 digest of a text

A digest stands for the content a verdict was found on.
-/

namespace BraceBalance

namespace Digest

/-- The four words the digest is built up in. -/
structure Words where
  a : UInt32
  b : UInt32
  c : UInt32
  d : UInt32

/-- The words before any block is read. -/
def initial : Words := ⟨0x67452301, 0xefcdab89, 0x98badcfe, 0x10325476⟩

/-- The number added in each round: the leading bits of the sines of 1 to 64. -/
def sines : Array UInt32 := #[
  0xd76aa478, 0xe8c7b756, 0x242070db, 0xc1bdceee, 0xf57c0faf, 0x4787c62a, 0xa8304613, 0xfd469501,
  0x698098d8, 0x8b44f7af, 0xffff5bb1, 0x895cd7be, 0x6b901122, 0xfd987193, 0xa679438e, 0x49b40821,
  0xf61e2562, 0xc040b340, 0x265e5a51, 0xe9b6c7aa, 0xd62f105d, 0x02441453, 0xd8a1e681, 0xe7d3fbc8,
  0x21e1cde6, 0xc33707d6, 0xf4d50d87, 0x455a14ed, 0xa9e3e905, 0xfcefa3f8, 0x676f02d9, 0x8d2a4c8a,
  0xfffa3942, 0x8771f681, 0x6d9d6122, 0xfde5380c, 0xa4beea44, 0x4bdecfa9, 0xf6bb4b60, 0xbebfbc70,
  0x289b7ec6, 0xeaa127fa, 0xd4ef3085, 0x04881d05, 0xd9d4d039, 0xe6db99e5, 0x1fa27cf8, 0xc4ac5665,
  0xf4292244, 0x432aff97, 0xab9423a7, 0xfc93a039, 0x655b59c3, 0x8f0ccc92, 0xffeff47d, 0x85845dd1,
  0x6fa87e4f, 0xfe2ce6e0, 0xa3014314, 0x4e0811a1, 0xf7537e82, 0xbd3af235, 0x2ad7d2bb, 0xeb86d391]

/-- How far each round turns, four rounds at a time by turns. -/
def turns : Array UInt32 := #[7, 12, 17, 22, 5, 9, 14, 20, 4, 11, 16, 23, 6, 10, 15, 21]

/-- `x` turned left by `n` bits. -/
def rotate (x n : UInt32) : UInt32 := (x <<< n) ||| (x >>> (32 - n))

/-- How a round mixes three of the words, and which word of the block it takes. -/
def mix (w : Words) (round : Nat) : UInt32 × Nat :=
  if round < 16 then ((w.b &&& w.c) ||| (~~~w.b &&& w.d), round)
  else if round < 32 then ((w.d &&& w.b) ||| (~~~w.d &&& w.c), (5 * round + 1) % 16)
  else if round < 48 then (w.b ^^^ w.c ^^^ w.d, (3 * round + 5) % 16)
  else (w.c ^^^ (w.b ||| ~~~w.d), (7 * round) % 16)

/-- One round over a block. -/
def step (block : Array UInt32) (w : Words) (round : Nat) : Words :=
  let (mixed, index) := mix w round
  let sum := w.a + mixed + sines.getD round 0 + block.getD index 0
  ⟨w.d, w.b + rotate sum (turns.getD (round / 16 * 4 + round % 4) 0), w.b, w.c⟩

/-- The words after a block. -/
def absorb (w : Words) (block : Array UInt32) : Words :=
  let v := (List.range 64).foldl (step block) w
  ⟨w.a + v.a, w.b + v.b, w.c + v.c, w.d + v.d⟩

/-- A number in `n` bytes, the lowest first. -/
def lowFirst : (n value : Nat) → Bytes
  | 0, _ => []
  | n + 1, value => value.toUInt8 :: lowFirst n (value / 0x100)

/-- A text with the mark of its end and its length in bits, filled up to whole blocks. -/
def padded (s : Bytes) : Bytes :=
  let fill := (119 - s.length % 64) % 64
  s ++ 0x80 :: (List.replicate fill 0 ++ lowFirst 8 (8 * s.length))

/-- The words of a text, behind those already read (`acc`). -/
def wordsOnto (acc : Array UInt32) : Bytes → Array UInt32
  | a :: b :: c :: d :: rest =>
    wordsOnto (acc.push (a.toUInt32 + b.toUInt32 * 0x100 + c.toUInt32 * 0x10000 +
      d.toUInt32 * 0x1000000)) rest
  | _ => acc

/-- The bytes of a word, the lowest first. -/
def wordBytes (w : UInt32) : Bytes := lowFirst 4 w.toNat

/-- The digest of a text, as sixteen bytes. -/
def digest (s : Bytes) : Bytes :=
  let words := wordsOnto #[] (padded s)
  let w := (List.range (words.size / 16)).foldl
    (fun w i => absorb w (words.extract (16 * i) (16 * i + 16))) initial
  wordBytes w.a ++ wordBytes w.b ++ wordBytes w.c ++ wordBytes w.d

end Digest

/-- The digest of a text, written in base sixteen. -/
def Bytes.digest (s : Bytes) : Bytes := Bytes.hex (Digest.digest s)

end BraceBalance
