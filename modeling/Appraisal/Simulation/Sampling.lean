import Appraisal.Number.Rounding
import Appraisal.Simulation.Variable

/-!
# Sampling

Draws are taken one after the other from one generator. The draws of a variable depend only on the
state of the generator before them.
-/

namespace Appraisal.Simulation

open Appraisal.Random (Generator)

/-- What needs random numbers. Where it would go on without end it gives nothing. -/
abbrev Draw (α : Type) := StateT Generator Option α

/-- From 0 to below 1. -/
def unit : Draw Float := fun g => some g.uniform

/-- The logarithm and the cosine that draws are computed with. -/
structure Elementary where
  log : Float → Float
  cos : Float → Float

/-- Those that the machine provides. -/
def Elementary.machine : Elementary := ⟨Float.log, Float.cos⟩

section

variable (functions : Elementary)

/-- A standard normal number, by the transform of Box and Muller. One minus the first draw keeps the
argument of the logarithm above 0. -/
def standardNormal : Draw Float := do
  let u1 := 1 - (← unit)
  let u2 ← unit
  return ((-2 : Float) * functions.log u1).sqrt * functions.cos (2 * 3.141592653589793 * u2)

/-- Whether a candidate `v` of the method of Marsaglia and Tsang is taken, for the normal number `x`
it came from and a uniform number `u`: by a cheap bound, else by the exact test. -/
def accepts (d x v u : Float) : Bool :=
  let square := x * x
  u < 1 - 0.0331 * (square * square) ||
    functions.log u < 0.5 * x * x + d * (1 - v + functions.log v)

/-- A gamma number of shape `d + 1 / 3`, at least 1. Candidates are drawn until one is taken. More
than nineteen of twenty are; but if `c` is not a number none is, and the search does not end. -/
def gammaFrom (d c : Float) (g : Generator) : Option (Float × Generator) := do
  let (x, g) ← standardNormal functions g
  let root := 1 + c * x
  -- After a refused candidate the search goes on from the state that is left.
  if 0 < root then
    let v := root * root * root
    let (u, g) ← unit g
    if accepts functions d x v (1 - u) then return (d * v, g) else (gammaFrom (g := g)) d c
  else (gammaFrom (g := g)) d c
partial_fixpoint

/-- A gamma number of a shape that is not below 1. -/
def gammaAboveOne (shape : Float) : Draw Float :=
  let d := shape - 1 / 3
  gammaFrom functions d (1 / (9 * d).sqrt)

/-- A gamma number. A shape below 1 is raised by one and the result scaled back. -/
def gamma (shape : Float) (g : Generator) : Option (Float × Generator) := do
  if shape < 1 then
    let (u, g) ← unit g
    let (larger, g) ← (gamma (g := g)) (shape + 1)
    return (larger * Number.power (1 - u) (1 / shape), g)
  else gammaAboveOne functions shape g
partial_fixpoint

def pertShape : Float := 4

/-- The number of a triangular range below which a share `u` of its mass lies. -/
def triangularAt (v : UncertainVariable) (u : Float) : Float :=
  let range := v.high - v.low
  if u < (v.mode - v.low) / range then v.low + (u * range * (v.mode - v.low)).sqrt
  else v.high - ((1 - u) * range * (v.high - v.mode)).sqrt

/-- A number of a range that has a width. -/
def drawAs (v : UncertainVariable) : Distribution → Draw Float
  | .point => return v.mode
  | .uniform => return v.low + (← unit) * (v.high - v.low)
  | .triangular => return triangularAt v (← unit)
  | .normal => return v.mode + (← standardNormal functions) * (v.high - v.low) / 4
  | .pert => do
    let a ← gamma functions (1 + pertShape * (v.mode - v.low) / (v.high - v.low))
    let b ← gamma functions (1 + pertShape * (v.high - v.mode) / (v.high - v.low))
    return v.low + a / (a + b) * (v.high - v.low)

/-- One draw. A range without width always gives the mode. -/
def drawWith (v : UncertainVariable) : Draw Float :=
  if v.high - v.low == 0 then return v.mode else drawAs functions v v.distribution

/-- So many draws of one variable. -/
def drawsWith (v : UncertainVariable) : Nat → Draw (List Float)
  | 0 => return []
  | n + 1 => do
    let x ← drawWith functions v
    return x :: (← drawsWith v n)

end

def draw : UncertainVariable → Draw Float :=
  drawWith .machine

def draws : UncertainVariable → Nat → Draw (List Float) :=
  drawsWith .machine

end Appraisal.Simulation
