/-!
# The ChaCha stream

The block function of ChaCha with twelve rounds, a block counter of 64 bits and stream 0. The state
is a square of words; a round works on its columns, then on its diagonals, which are columns after
the rows are turned.
-/

namespace Appraisal.Random.ChaCha

/-- A row of the state. -/
structure Row where
  a : UInt32
  b : UInt32
  c : UInt32
  d : UInt32

namespace Row

def zipWith (f : UInt32 → UInt32 → UInt32) (r s : Row) : Row :=
  ⟨f r.a s.a, f r.b s.b, f r.c s.c, f r.d s.d⟩

def turnLeft (r : Row) : Row :=
  ⟨r.b, r.c, r.d, r.a⟩

def toList (r : Row) : List UInt32 :=
  [r.a, r.b, r.c, r.d]

end Row

structure State where
  r0 : Row
  r1 : Row
  r2 : Row
  r3 : Row

def rotateLeft (x n : UInt32) : UInt32 :=
  (x <<< n) ||| (x >>> (32 - n))

/-- Adds `y` to `x`, and turns the bits of their sum combined with `z` by `n` places. -/
def mix (n : UInt32) (x y z : Row) : Row × Row :=
  let x := x.zipWith (· + ·) y
  (x, z.zipWith (fun z x => rotateLeft (z ^^^ x) n) x)

/-- The quarter round of all four columns. -/
def columns (s : State) : State :=
  let (r0, r3) := mix 16 s.r0 s.r1 s.r3
  let (r2, r1) := mix 12 s.r2 r3 s.r1
  let (r0, r3) := mix 8 r0 r1 r3
  let (r2, r1) := mix 7 r2 r3 r1
  ⟨r0, r1, r2, r3⟩

/-- A round on the columns and a round on the diagonals. -/
def doubleRound (s : State) : State :=
  let s := columns s
  let t := columns ⟨s.r0, s.r1.turnLeft, s.r2.turnLeft.turnLeft, s.r3.turnLeft.turnLeft.turnLeft⟩
  ⟨t.r0, t.r1.turnLeft.turnLeft.turnLeft, t.r2.turnLeft.turnLeft, t.r3.turnLeft⟩

structure Key where
  low : Row
  high : Row

def start (key : Key) (counter : UInt64) : State :=
  ⟨⟨0x61707865, 0x3320646e, 0x79622d32, 0x6b206574⟩, key.low, key.high,
    ⟨counter.toUInt32, (counter >>> 32).toUInt32, 0, 0⟩⟩

/-- The sixteen words of a block. -/
def block (key : Key) (counter : UInt64) : List UInt32 :=
  let s := start key counter
  let t := doubleRound (doubleRound (doubleRound (doubleRound (doubleRound (doubleRound s)))))
  (s.r0.zipWith (· + ·) t.r0).toList ++ (s.r1.zipWith (· + ·) t.r1).toList ++
    (s.r2.zipWith (· + ·) t.r2).toList ++ (s.r3.zipWith (· + ·) t.r3).toList

end Appraisal.Random.ChaCha
