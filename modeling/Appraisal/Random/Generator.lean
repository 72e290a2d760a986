import Appraisal.Random.ChaCha

/-!
# Random numbers

A generator is a key, the number of the next block, and what is left of the current one. The same
seed always gives the same numbers.
-/

namespace Appraisal.Random

structure Generator where
  key : ChaCha.Key
  nextBlock : UInt64
  pending : List UInt64

namespace Generator

/-- Pairs of words as 64-bit numbers, the low word first. -/
def joinPairs : List UInt32 → List UInt64
  | low :: high :: rest => (low.toUInt64 ||| (high.toUInt64 <<< 32)) :: joinPairs rest
  | _ => []

/-- The next state of the generator that fills the key, and its output: the number with its upper
bits folded in, turned by its five highest bits. -/
def keyStep (state : UInt64) : UInt64 × UInt32 :=
  let state := state * 6364136223846793005 + 11634580027462260723
  let folded : UInt32 := (((state >>> 18) ^^^ state) >>> 27).toUInt32
  let turn : UInt32 := (state >>> 59).toUInt32
  (state, (folded >>> turn) ||| (folded <<< ((32 - turn) % 32)))

def keyRow (state : UInt64) : UInt64 × ChaCha.Row :=
  let (state, a) := keyStep state
  let (state, b) := keyStep state
  let (state, c) := keyStep state
  let (state, d) := keyStep state
  (state, ⟨a, b, c, d⟩)

def ofSeed (seed : UInt64) : Generator :=
  let (state, low) := keyRow seed
  let (_, high) := keyRow state
  ⟨⟨low, high⟩, 0, []⟩

/-- The next number of 64 bits. -/
def next (g : Generator) : UInt64 × Generator :=
  match g.pending with
  | x :: rest => (x, { g with pending := rest })
  | [] =>
    match joinPairs (ChaCha.block g.key g.nextBlock) with
    | x :: rest => (x, ⟨g.key, g.nextBlock + 1, rest⟩)
    | [] => (0, g)

/-- The multiples of `2 ^ -53`. -/
def unitNumber (n : UInt64) : Float :=
  n.toFloat / 9007199254740992

/-- A multiple of `2 ^ -53` from 0 to below 1. -/
def uniform (g : Generator) : Float × Generator :=
  let (x, g) := g.next
  (unitNumber (x >>> 11), g)

end Generator

end Appraisal.Random
