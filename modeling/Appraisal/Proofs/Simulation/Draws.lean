import Appraisal.Simulation.Sampling
import Mathlib

/-!
# What draws give

A draw gives something, or it goes on without end. What holds of all that it may give is proved step
by step along its instructions, and so is that it ends; a search for a gamma number ends with a
candidate, if it ends.
-/

namespace Appraisal

/-- The draws of a variable search for gamma numbers. -/
def UncertainVariable.Searches (v : UncertainVariable) : Prop :=
  v.distribution = .pert ∧ (v.high - v.low == 0) = false

instance (v : UncertainVariable) : Decidable v.Searches :=
  inferInstanceAs (Decidable (_ ∧ _))

namespace Simulation

open Appraisal.Random (Generator)

section

variable {α β : Type} {m : Draw α} {f : α → Draw β} {p q : α → Prop} {r : β → Prop}

/-- Whatever a draw gives, from whatever state of the generator, satisfies `p`. -/
def Yields (m : Draw α) (p : α → Prop) : Prop :=
  ∀ g result, m.run g = some result → p result.1

/-- From whatever state of the generator, a draw gives something. -/
def Ends (m : Draw α) : Prop :=
  ∀ g, (m.run g).isSome = true

theorem run_bind_eq_some_iff {g : Generator} {result : β × Generator} :
    (m >>= f).run g = some result ↔
      ∃ a g', m.run g = some (a, g') ∧ (f a).run g' = some result := by
  rw [StateT.run_bind, Option.bind_eq_bind, Option.bind_eq_some_iff, Prod.exists]

theorem yields_true (m : Draw α) : Yields m fun _ => True :=
  fun _ _ _ => trivial

theorem yields_pure {a : α} (h : p a) : Yields (pure a) p := by
  rintro g _ ⟨⟩
  exact h

theorem Yields.bind (hm : Yields m p) (hf : ∀ a, p a → Yields (f a) r) : Yields (m >>= f) r := by
  intro g result hrun
  obtain ⟨a, g', ha, hresult⟩ := run_bind_eq_some_iff.1 hrun
  exact hf a (hm g _ ha) g' result hresult

theorem Yields.imp (hm : Yields m p) (h : ∀ a, p a → q a) : Yields m q :=
  fun g result hrun => h _ (hm g result hrun)

/-- A draw that can give nothing goes on without end. -/
theorem Yields.run_eq_none (hm : Yields m fun _ => False) (g : Generator) : m.run g = none :=
  Option.eq_none_iff_forall_ne_some.2 (hm g)

theorem ends_pure (a : α) : Ends (pure a) :=
  fun _ => rfl

theorem Ends.exists_run (hm : Ends m) (g : Generator) : ∃ a g', m.run g = some (a, g') := by
  obtain ⟨⟨a, g'⟩, hrun⟩ := Option.isSome_iff_exists.1 (hm g)
  exact ⟨a, g', hrun⟩

theorem Ends.bind (hm : Ends m) (hf : ∀ a, Ends (f a)) : Ends (m >>= f) := by
  intro g
  obtain ⟨a, g₁, ha⟩ := hm.exists_run g
  obtain ⟨b, g₂, hb⟩ := (hf a).exists_run g₁
  rw [run_bind_eq_some_iff.2 ⟨a, g₁, ha, hb⟩]
  rfl

end

theorem ends_unit : Ends unit :=
  fun _ => rfl

variable {functions : Elementary} {v : UncertainVariable} {d c : Float} {p r : Float → Prop}

theorem drawWith_of_width (hne : (v.high - v.low == 0) = false) :
    drawWith functions v = drawAs functions v v.distribution := by
  rw [drawWith, hne, if_neg Bool.false_ne_true]

theorem ends_standardNormal : Ends (standardNormal functions) :=
  ends_unit.bind fun _ => ends_unit.bind fun _ => ends_pure _

/-- A search gives nothing but candidates. What is drawn after a refused candidate is the rest of
the search, so this is by induction on the run. -/
theorem yields_gammaFrom_of_candidates (hx : Yields (standardNormal functions) p)
    (h : ∀ x, p x → 0 < 1 + c * x → r (d * ((1 + c * x) * (1 + c * x) * (1 + c * x)))) :
    Yields (gammaFrom functions d c) r := by
  intro g result hrun
  refine gammaFrom.partial_correctness functions (fun d c _ result =>
    (∀ x, p x → 0 < 1 + c * x → r (d * ((1 + c * x) * (1 + c * x) * (1 + c * x)))) → r result.1)
    (fun rest ih d c g result hrun h => ?_) d c g result hrun h
  obtain ⟨⟨x, g₁⟩, hnormal, hrun⟩ := Option.bind_eq_some_iff.1 hrun
  dsimp only at hrun
  split_ifs at hrun with hpos
  · obtain ⟨⟨u, g₂⟩, -, hrun⟩ := Option.bind_eq_some_iff.1 hrun
    dsimp only at hrun
    split_ifs at hrun
    · cases hrun
      exact h x (hx g _ hnormal) hpos
    · exact ih d c g₂ result hrun h
  · exact ih d c g₁ result hrun h

/-- A search ends with its first candidate if that is taken. -/
theorem run_gammaFrom_of_accepts {x u : Float} {g g₁ g₂ : Generator}
    (hx : (standardNormal functions).run g = some (x, g₁)) (hpos : 0 < 1 + c * x)
    (hu : unit.run g₁ = some (u, g₂))
    (h : accepts functions d x ((1 + c * x) * (1 + c * x) * (1 + c * x)) (1 - u) = true) :
    gammaFrom functions d c g =
      some (d * ((1 + c * x) * (1 + c * x) * (1 + c * x)), g₂) := by
  rw [gammaFrom]
  refine Option.bind_eq_some_iff.2 ⟨(x, g₁), hx, ?_⟩
  dsimp only
  rw [if_pos hpos]
  refine Option.bind_eq_some_iff.2 ⟨(u, g₂), hu, ?_⟩
  dsimp only
  rw [if_pos h]
  rfl

/-- No gamma number is searched for unless the variable is a PERT one, with a range that has a
width. -/
theorem ends_drawWith (h : ¬ v.Searches) : Ends (drawWith functions v) := by
  cases hne : (v.high - v.low == 0) with
  | true =>
    rw [drawWith, if_pos hne]
    exact ends_pure _
  | false =>
    rw [drawWith_of_width hne]
    cases hd : v.distribution with
    | point => exact ends_pure _
    | uniform => exact ends_unit.bind fun _ => ends_pure _
    | triangular => exact ends_unit.bind fun _ => ends_pure _
    | normal => exact ends_standardNormal.bind fun _ => ends_pure _
    | pert => exact absurd ⟨hd, hne⟩ h

theorem ends_drawsWith (h : Ends (drawWith functions v)) (n : Nat) :
    Ends (drawsWith functions v n) := by
  induction n with
  | zero => exact ends_pure _
  | succ n ih => exact h.bind fun _ => ih.bind fun _ => ends_pure _

theorem yields_drawsWith (h : Yields (drawWith functions v) p) (n : Nat) :
    Yields (drawsWith functions v n) fun xs => xs.length = n ∧ ∀ x ∈ xs, p x := by
  induction n with
  | zero => exact yields_pure ⟨rfl, List.forall_mem_nil _⟩
  | succ n ih =>
    refine h.bind fun x hx => ih.bind fun xs hxs => yields_pure ⟨?_, ?_⟩
    · rw [List.length_cons, hxs.1]
    · exact List.forall_mem_cons.2 ⟨hx, hxs.2⟩

theorem gamma_of_not_lt {shape : Float} (h : ¬ shape < 1) :
    gamma functions shape = gammaAboveOne functions shape := by
  funext g
  rw [gamma, if_neg h]

end Simulation

end Appraisal
