import Kannel.Gwlib.Octstr
import Kannel.Lib.Hex

/-!
# The MD5 digest

`md5.c` collects its input in blocks of 64 octets and mixes each into four
words.  The digest is the four words in hexadecimal.
-/

namespace Kannel

structure Md5Words where
  a : UInt32
  b : UInt32
  c : UInt32
  d : UInt32
  deriving DecidableEq

structure Md5Ctx where
  state : Md5Words
  count : UInt64
  buffer : Octstr

def rotateLeft (x n : UInt32) : UInt32 := (x <<< n) ||| (x >>> (32 - n))

def md5Step (f : UInt32 → UInt32 → UInt32 → UInt32) (x : List UInt32) (w : Md5Words)
    (k : Nat) (s ac : UInt32) : Md5Words :=
  let a := rotateLeft (w.a + f w.b w.c w.d + x.getD k 0 + ac) s + w.b
  ⟨w.d, a, w.b, w.c⟩

def md5Round (f : UInt32 → UInt32 → UInt32 → UInt32) (x : List UInt32)
    (steps : List (Nat × UInt32 × UInt32)) (w : Md5Words) : Md5Words :=
  steps.foldl (fun w step => md5Step f x w step.1 step.2.1 step.2.2) w

def md5Round1 : List (Nat × UInt32 × UInt32) :=
  [(0, 7, 0xd76aa478), (1, 12, 0xe8c7b756), (2, 17, 0x242070db), (3, 22, 0xc1bdceee),
    (4, 7, 0xf57c0faf), (5, 12, 0x4787c62a), (6, 17, 0xa8304613), (7, 22, 0xfd469501),
    (8, 7, 0x698098d8), (9, 12, 0x8b44f7af), (10, 17, 0xffff5bb1), (11, 22, 0x895cd7be),
    (12, 7, 0x6b901122), (13, 12, 0xfd987193), (14, 17, 0xa679438e), (15, 22, 0x49b40821)]

def md5Round2 : List (Nat × UInt32 × UInt32) :=
  [(1, 5, 0xf61e2562), (6, 9, 0xc040b340), (11, 14, 0x265e5a51), (0, 20, 0xe9b6c7aa),
    (5, 5, 0xd62f105d), (10, 9, 0x2441453), (15, 14, 0xd8a1e681), (4, 20, 0xe7d3fbc8),
    (9, 5, 0x21e1cde6), (14, 9, 0xc33707d6), (3, 14, 0xf4d50d87), (8, 20, 0x455a14ed),
    (13, 5, 0xa9e3e905), (2, 9, 0xfcefa3f8), (7, 14, 0x676f02d9), (12, 20, 0x8d2a4c8a)]

def md5Round3 : List (Nat × UInt32 × UInt32) :=
  [(5, 4, 0xfffa3942), (8, 11, 0x8771f681), (11, 16, 0x6d9d6122), (14, 23, 0xfde5380c),
    (1, 4, 0xa4beea44), (4, 11, 0x4bdecfa9), (7, 16, 0xf6bb4b60), (10, 23, 0xbebfbc70),
    (13, 4, 0x289b7ec6), (0, 11, 0xeaa127fa), (3, 16, 0xd4ef3085), (6, 23, 0x4881d05),
    (9, 4, 0xd9d4d039), (12, 11, 0xe6db99e5), (15, 16, 0x1fa27cf8), (2, 23, 0xc4ac5665)]

def md5Round4 : List (Nat × UInt32 × UInt32) :=
  [(0, 6, 0xf4292244), (7, 10, 0x432aff97), (14, 15, 0xab9423a7), (5, 21, 0xfc93a039),
    (12, 6, 0x655b59c3), (3, 10, 0x8f0ccc92), (10, 15, 0xffeff47d), (1, 21, 0x85845dd1),
    (8, 6, 0x6fa87e4f), (15, 10, 0xfe2ce6e0), (6, 15, 0xa3014314), (13, 21, 0x4e0811a1),
    (4, 6, 0xf7537e82), (11, 10, 0xbd3af235), (2, 15, 0x2ad7d2bb), (9, 21, 0xeb86d391)]

def md5Decode : Octstr → List UInt32
  | b0 :: b1 :: b2 :: b3 :: rest =>
    (b0.toUInt32 ||| b1.toUInt32 <<< 8 ||| b2.toUInt32 <<< 16 ||| b3.toUInt32 <<< 24) ::
      md5Decode rest
  | _ => []

def md5EncodeWord (w : UInt32) : Octstr :=
  [w.toUInt8, (w >>> 8).toUInt8, (w >>> 16).toUInt8, (w >>> 24).toUInt8]

def md5Transform (state : Md5Words) (block : Octstr) : Md5Words :=
  let x := md5Decode block
  let w := md5Round (fun x y z => (x &&& y) ||| (~~~x &&& z)) x md5Round1 state
  let w := md5Round (fun x y z => (x &&& z) ||| (y &&& ~~~z)) x md5Round2 w
  let w := md5Round (fun x y z => x ^^^ y ^^^ z) x md5Round3 w
  let w := md5Round (fun x y z => y ^^^ (x ||| ~~~z)) x md5Round4 w
  ⟨state.a + w.a, state.b + w.b, state.c + w.c, state.d + w.d⟩

def md5Init : Md5Ctx := ⟨⟨0x67452301, 0xefcdab89, 0x98badcfe, 0x10325476⟩, 0, []⟩

def md5Blocks : Nat → Md5Words → Octstr → Md5Words × Octstr
  | 0, state, input => (state, input)
  | n + 1, state, input => md5Blocks n (md5Transform state (input.take 64)) (input.drop 64)

def md5Update (ctx : Md5Ctx) (input : Octstr) : Md5Ctx :=
  let waiting := ctx.buffer ++ input
  let (state, buffer) := md5Blocks (waiting.length / 64) ctx.state waiting
  ⟨state, ctx.count + UInt64.ofNat (8 * input.length), buffer⟩

def md5Final (ctx : Md5Ctx) : Octstr :=
  let bits := md5EncodeWord ctx.count.toUInt32 ++ md5EncodeWord (ctx.count >>> 32).toUInt32
  let index := ctx.buffer.length
  let padLen := if index < 56 then 56 - index else 120 - index
  let ctx := md5Update ctx ((0x80 :: List.replicate 63 0).take padLen)
  let state := (md5Update ctx bits).state
  md5EncodeWord state.a ++ md5EncodeWord state.b ++ md5EncodeWord state.c ++ md5EncodeWord state.d

def md5 (data : Octstr) : Octstr := md5Final (md5Update md5Init data)

def md5digest (data : Octstr) : Octstr := (md5 data).flatMap fun c => Hex.digits 2 c.toNat

theorem length_md5digest (data : Octstr) : (md5digest data).length = 32 := by
  simp [md5digest, md5, md5Final, md5EncodeWord]

example : md5digest [97, 98, 99] =
    [57, 48, 48, 49, 53, 48, 57, 56, 51, 99, 100, 50, 52, 102, 98, 48,
      100, 54, 57, 54, 51, 102, 55, 100, 50, 56, 101, 49, 55, 102, 55, 50] := by
  decide +kernel

end Kannel
