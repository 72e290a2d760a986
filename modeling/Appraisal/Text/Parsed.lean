/-!
# Results of reading a list from the front
-/

namespace Appraisal.Text

/-- A value read from the front of `input` and what is left of it, which is shorter: every reader
makes progress, so readers may call each other on the rest. -/
structure Parsed (α : Type) {τ : Type} (input : List τ) where
  value : α
  rest : List τ
  shorter : rest.length < input.length

/-- A value read from the front of `input` or from nothing, and what is left of it. -/
structure Continued (α : Type) {τ : Type} (input : List τ) where
  value : α
  rest : List τ
  notLonger : rest.length ≤ input.length

/-- What is left of a list behind the members that pass a test is not longer than the list. -/
theorem length_dropWhile_le {τ : Type} (p : τ → Bool) (xs : List τ) :
    (xs.dropWhile p).length ≤ xs.length :=
  (List.dropWhile_sublist p).length_le

namespace Parsed

variable {α β τ : Type}

def map {input : List τ} (f : α → β) (p : Parsed α input) : Parsed β input :=
  { value := f p.value, rest := p.rest, shorter := p.shorter }

/-- A value read from the rest of a longer input. -/
def widen {inner outer : List τ} (p : Parsed α inner) (h : inner.length ≤ outer.length) :
    Parsed α outer :=
  { value := p.value, rest := p.rest, shorter := Nat.lt_of_lt_of_le p.shorter h }

/-- A value read from a first member and some more. -/
def spanning (value : α) (first : τ) (more rest : List τ) : Parsed α (first :: (more ++ rest)) :=
  { value, rest, shorter := by simp only [List.length_cons, List.length_append]; omega }

/-- A value read behind one more member. -/
def behind {rest : List τ} (first : τ) (p : Parsed α rest) : Parsed α (first :: rest) :=
  p.widen (Nat.le_succ _)

/-- A value, read further. -/
def andThen {input : List τ} (p : Parsed α input) (q : Continued β p.rest) : Parsed β input :=
  { value := q.value, rest := q.rest, shorter := Nat.lt_of_le_of_lt q.notLonger p.shorter }

@[simp] theorem spanning_value (value : α) (first : τ) (more rest : List τ) :
    (spanning value first more rest).value = value := rfl

@[simp] theorem spanning_rest (value : α) (first : τ) (more rest : List τ) :
    (spanning value first more rest).rest = rest := rfl

@[simp] theorem map_value {input : List τ} (f : α → β) (p : Parsed α input) :
    (p.map f).value = f p.value := rfl

@[simp] theorem map_rest {input : List τ} (f : α → β) (p : Parsed α input) :
    (p.map f).rest = p.rest := rfl

@[simp] theorem widen_value {inner outer : List τ} (p : Parsed α inner)
    (h : inner.length ≤ outer.length) : (p.widen h).value = p.value := rfl

@[simp] theorem widen_rest {inner outer : List τ} (p : Parsed α inner)
    (h : inner.length ≤ outer.length) : (p.widen h).rest = p.rest := rfl

end Parsed

end Appraisal.Text
