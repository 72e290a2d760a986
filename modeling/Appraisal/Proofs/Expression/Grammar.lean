import Appraisal.Expression.Token
import Mathlib

/-!
# The grammar of expressions

Sums of products of signed operands, said without a reader: a derivation has one constructor for
each production, the tokens that it stands for and the expression that it means. No two
derivations of an expression stand for the same tokens.
-/

namespace Appraisal.Expression

/-- What a derivation derives. -/
inductive Level where
  | sum
  /-- The terms behind the first one. -/
  | terms
  | product
  /-- The factors behind the first one. -/
  | factors
  | operand
  | primary
  /-- What stands between the parentheses of a call. -/
  | arguments
  /-- At least one argument. -/
  | argumentList

/-- What derivations mean. Further terms and factors wait for what stands on their left. -/
abbrev Level.Meaning : Level → Type
  | sum | product | operand | primary => Expression
  | terms | factors => Expression → Expression
  | arguments | argumentList => List Expression

inductive Sign where
  | plus
  | minus

namespace Sign

@[simp] def token : Sign → Token
  | plus => .plus
  | minus => .minus

def operator : Sign → Operator
  | plus => .add
  | minus => .sub

theorem token_inj {sign sign' : Sign} (h : sign.token = sign'.token) : sign = sign' := by
  cases sign <;> cases sign' <;> first | rfl | cases h

end Sign

inductive Scale where
  | star
  | slash

namespace Scale

@[simp] def token : Scale → Token
  | star => .star
  | slash => .slash

def operator : Scale → Operator
  | star => .mul
  | slash => .div

theorem token_inj {scale scale' : Scale} (h : scale.token = scale'.token) :
    scale = scale' := by
  cases scale <;> cases scale' <;> first | rfl | cases h

theorem token_ne_percent (scale : Scale) : scale.token ≠ .percent := by
  cases scale <;> simp

end Scale

theorem Function.name_inj {f f' : Function} (h : f.name = f'.name) : f = f' := by
  have hf := ofName?_name f
  rw [h, ofName?_name f'] at hf
  exact (Option.some.inj hf).symm

inductive ParseTree : Level → Type where
  | sum (first : ParseTree .product) (more : ParseTree .terms) : ParseTree .sum
  | noTerms : ParseTree .terms
  | term (sign : Sign) (next : ParseTree .product) (more : ParseTree .terms) :
      ParseTree .terms
  | product (first : ParseTree .operand) (more : ParseTree .factors) : ParseTree .product
  | noFactors : ParseTree .factors
  | factor (scale : Scale) (next : ParseTree .operand) (more : ParseTree .factors) :
      ParseTree .factors
  | plus (inner : ParseTree .operand) : ParseTree .operand
  | minus (inner : ParseTree .operand) : ParseTree .operand
  | unsigned (inner : ParseTree .primary) : ParseTree .operand
  | number (value : Float) : ParseTree .primary
  | var (name : String) : ParseTree .primary
  | group (inner : ParseTree .sum) : ParseTree .primary
  | call (function : Function) (inner : ParseTree .arguments) : ParseTree .primary
  | noArguments : ParseTree .arguments
  | someArguments (list : ParseTree .argumentList) : ParseTree .arguments
  | lastArgument (argument : ParseTree .sum) : ParseTree .argumentList
  | nextArgument (argument : ParseTree .sum) (more : ParseTree .argumentList) :
      ParseTree .argumentList

namespace ParseTree

variable {l : Level}

@[simp] def tokens {l : Level} : ParseTree l → List Token
  | sum first more => first.tokens ++ more.tokens
  | noTerms => []
  | term sign next more => sign.token :: (next.tokens ++ more.tokens)
  | product first more => first.tokens ++ more.tokens
  | noFactors => []
  | factor scale next more => scale.token :: (next.tokens ++ more.tokens)
  | plus inner => .plus :: inner.tokens
  | minus inner => .minus :: inner.tokens
  | unsigned inner => inner.tokens
  | number value => [.number value]
  | var name => [.name name]
  | group inner => .openParen :: (inner.tokens ++ [.closeParen])
  | call function inner =>
    .name function.name :: .openParen :: (inner.tokens ++ [.closeParen])
  | noArguments => []
  | someArguments list => list.tokens
  | lastArgument argument => argument.tokens
  | nextArgument argument more => argument.tokens ++ .comma :: more.tokens

/-- Sums and products are folded to the left. -/
@[simp] def meaning {l : Level} : ParseTree l → l.Meaning
  | sum first more => more.meaning first.meaning
  | noTerms => id
  | term sign next more => fun left => more.meaning (.binary sign.operator left next.meaning)
  | product first more => more.meaning first.meaning
  | noFactors => id
  | factor scale next more => fun left => more.meaning (.binary scale.operator left next.meaning)
  | plus inner => inner.meaning
  | minus inner => .binary .sub (.number 0) inner.meaning
  | unsigned inner => inner.meaning
  | number value => .number value
  | var name => .var name
  | group inner => inner.meaning
  | call function inner => .call function inner.meaning
  | noArguments => []
  | someArguments list => list.meaning
  | lastArgument argument => [argument.meaning]
  | nextArgument argument more => argument.meaning :: more.meaning

/-- A derivation at a depth, none of whose parts lies deeper than `maxDepth`: signs, parentheses
and calls lead one level further in. Variables have no name of a function, and functions get as
many arguments as they admit. -/
@[simp] def Within {l : Level} (maxDepth : Nat) (depth : Nat) : ParseTree l → Prop
  | sum first more => first.Within maxDepth depth ∧ more.Within maxDepth depth
  | noTerms => True
  | term _ next more => next.Within maxDepth depth ∧ more.Within maxDepth depth
  | product first more => first.Within maxDepth depth ∧ more.Within maxDepth depth
  | noFactors => True
  | factor _ next more => next.Within maxDepth depth ∧ more.Within maxDepth depth
  | plus inner => depth + 1 ≤ maxDepth ∧ inner.Within maxDepth (depth + 1)
  | minus inner => depth + 1 ≤ maxDepth ∧ inner.Within maxDepth (depth + 1)
  | unsigned inner => inner.Within maxDepth depth
  | number _ => True
  | var name => Function.ofName? name = none
  | group inner => depth + 1 ≤ maxDepth ∧ inner.Within maxDepth (depth + 1)
  | call function inner => depth + 1 ≤ maxDepth ∧ inner.Within maxDepth (depth + 1) ∧
      function.admits inner.meaning.length = true
  | noArguments => True
  | someArguments list => list.Within maxDepth depth
  | lastArgument argument => argument.Within maxDepth depth
  | nextArgument argument more => argument.Within maxDepth depth ∧ more.Within maxDepth depth

end ParseTree

/-- How far out a token ends what stands in front of it: operators end operands, the ones of sums
also products, a comma ends sums, and a closing parenthesis arguments. -/
@[simp] def Token.rank? : Token → Option Nat
  | .star | .slash => some 3
  | .plus | .minus => some 2
  | .comma => some 1
  | .closeParen => some 0
  | _ => none

/-- The rank of the last tokens to end a derivation. -/
@[simp] def Level.rank : Level → Nat
  | operand | primary => 3
  | product | factors => 2
  | sum | terms => 1
  | arguments | argumentList => 0

/-- Whether a derivation may stand for no tokens at all. -/
def Level.isOptional : Level → Bool
  | terms | factors | arguments => true
  | _ => false

/-- The tokens that a derivation that is not optional starts with. -/
@[simp] def Level.starts : Level → Token → Bool
  | _, .number _ | _, .name _ | _, .openParen => true
  | primary, _ => false
  | _, .plus | _, .minus => true
  | _, _ => false

/-- Whether a derivation of a rank may end in front of these tokens. -/
def Ends (rank : Nat) (rest : List Token) : Prop :=
  ∀ token ∈ rest.head?, ∃ n, token.rank? = some n ∧ n ≤ rank

variable {rank : Nat} {token : Token} {rest rest' : List Token} {l : Level}

/-- Only a primary may not start with a sign. -/
theorem Level.starts_of_starts {l' : Level} (h : l.starts token = true) (hl' : l' ≠ .primary) :
    l'.starts token = true := by
  cases l' with
  | primary => exact absurd rfl hl'
  | _ => cases token <;> first | rfl | (cases l <;> cases h)

@[simp] theorem ends_nil : Ends rank [] := by
  simp [Ends]

@[simp] theorem ends_cons :
    Ends rank (token :: rest) ↔ ∃ n, token.rank? = some n ∧ n ≤ rank := by
  simp [Ends]

theorem Ends.mono {rank' : Nat} (h : Ends rank rest) (hrank : rank ≤ rank') : Ends rank' rest := by
  intro token ht
  obtain ⟨n, hn, hle⟩ := h token ht
  exact ⟨n, hn, hle.trans hrank⟩

theorem Ends.ne_sign (h : Ends 1 rest) (sign : Sign) : rest ≠ sign.token :: rest' := by
  rintro rfl
  cases sign <;> simp at h

theorem Ends.ne_scale (h : Ends 2 rest) (scale : Scale) : rest ≠ scale.token :: rest' := by
  rintro rfl
  cases scale <;> simp at h

theorem Ends.ne_comma (h : Ends 0 rest) : rest ≠ .comma :: rest' := by
  rintro rfl
  simp at h

theorem Ends.ne_openParen (h : Ends rank rest) : rest ≠ .openParen :: rest' := by
  rintro rfl
  simp at h

theorem Ends.eq_closeParen (h : Ends 0 (token :: rest)) : token = .closeParen := by
  obtain ⟨n, hn, hle⟩ := ends_cons.1 h
  obtain rfl := Nat.le_zero.1 hle
  cases token <;> first | rfl | cases hn

theorem Ends.ne_of_starts (h : Ends 0 rest) (hstarts : l.starts token = true) :
    rest ≠ token :: rest' := by
  rintro rfl
  rw [h.eq_closeParen] at hstarts
  cases l <;> cases hstarts

theorem ends_closeParen : Ends rank (.closeParen :: rest) := by
  simp

theorem ends_comma : Ends 1 (.comma :: rest) := by
  simp

namespace ParseTree

theorem exists_tokens_eq_cons (t : ParseTree l) (hl : l.isOptional = false) :
    ∃ token ts, t.tokens = token :: ts ∧ l.starts token = true := by
  induction t with
  | sum first more ih | product first more ih =>
    obtain ⟨token, ts, h, hstarts⟩ := ih rfl
    exact ⟨token, ts ++ more.tokens, by simp [h], Level.starts_of_starts hstarts (by simp)⟩
  | plus | minus | number | var | group | call => exact ⟨_, _, rfl, rfl⟩
  | unsigned inner ih | lastArgument inner ih =>
    obtain ⟨token, ts, h, hstarts⟩ := ih rfl
    exact ⟨token, ts, h, Level.starts_of_starts hstarts (by simp)⟩
  | nextArgument argument more ih =>
    obtain ⟨token, ts, h, hstarts⟩ := ih rfl
    exact ⟨token, ts ++ .comma :: more.tokens, by simp [h],
      Level.starts_of_starts hstarts (by simp)⟩
  | noTerms | term | noFactors | factor | noArguments | someArguments => cases hl

theorem ends_terms (more : ParseTree .terms) (h : Ends 1 rest) : Ends 2 (more.tokens ++ rest) := by
  cases more with
  | noTerms => exact h.mono (by decide)
  | term sign => cases sign <;> simp

theorem ends_factors (more : ParseTree .factors) (h : Ends 2 rest) :
    Ends 3 (more.tokens ++ rest) := by
  cases more with
  | noFactors => exact h.mono (by decide)
  | factor scale => cases scale <;> simp

theorem append_ne_sign (t : ParseTree .primary) (sign : Sign) :
    t.tokens ++ rest ≠ sign.token :: rest' := by
  obtain ⟨token, ts, htokens, hstarts⟩ := t.exists_tokens_eq_cons rfl
  rw [htokens, List.cons_append]
  intro h
  rw [(List.cons.inj h).1] at hstarts
  cases sign <;> cases hstarts

theorem append_ne_of_ends (t : ParseTree .argumentList) (h : Ends 0 rest') :
    t.tokens ++ rest ≠ rest' := by
  obtain ⟨token, ts, htokens, hstarts⟩ := t.exists_tokens_eq_cons rfl
  rw [htokens]
  exact (h.ne_of_starts hstarts).symm

/-- Derivations of the same tokens are the same, whatever follows. -/
theorem append_inj {t t' : ParseTree l} (h : t.tokens ++ rest = t'.tokens ++ rest')
    (hrest : Ends l.rank rest) (hrest' : Ends l.rank rest') : t = t' ∧ rest = rest' := by
  induction t generalizing rest rest' with
  | sum first more ihfirst ihmore =>
    cases t' with | sum first' more' =>
    simp only [tokens, List.append_assoc] at h
    obtain ⟨rfl, hmore⟩ := ihfirst h (ends_terms more hrest) (ends_terms more' hrest')
    obtain ⟨rfl, rfl⟩ := ihmore hmore hrest hrest'
    exact ⟨rfl, rfl⟩
  | noTerms =>
    cases t' with
    | noTerms => exact ⟨rfl, h⟩
    | term sign => exact absurd h (hrest.ne_sign sign)
  | term sign next more ihnext ihmore =>
    cases t' with
    | noTerms => exact absurd h.symm (hrest'.ne_sign sign)
    | term sign' next' more' =>
      simp only [tokens, List.cons_append, List.append_assoc, List.cons.injEq] at h
      obtain rfl := Sign.token_inj h.1
      obtain ⟨rfl, hmore⟩ := ihnext h.2 (ends_terms more hrest) (ends_terms more' hrest')
      obtain ⟨rfl, rfl⟩ := ihmore hmore hrest hrest'
      exact ⟨rfl, rfl⟩
  | product first more ihfirst ihmore =>
    cases t' with | product first' more' =>
    simp only [tokens, List.append_assoc] at h
    obtain ⟨rfl, hmore⟩ := ihfirst h (ends_factors more hrest) (ends_factors more' hrest')
    obtain ⟨rfl, rfl⟩ := ihmore hmore hrest hrest'
    exact ⟨rfl, rfl⟩
  | noFactors =>
    cases t' with
    | noFactors => exact ⟨rfl, h⟩
    | factor scale => exact absurd h (hrest.ne_scale scale)
  | factor scale next more ihnext ihmore =>
    cases t' with
    | noFactors => exact absurd h.symm (hrest'.ne_scale scale)
    | factor scale' next' more' =>
      simp only [tokens, List.cons_append, List.append_assoc, List.cons.injEq] at h
      obtain rfl := Scale.token_inj h.1
      obtain ⟨rfl, hmore⟩ := ihnext h.2 (ends_factors more hrest) (ends_factors more' hrest')
      obtain ⟨rfl, rfl⟩ := ihmore hmore hrest hrest'
      exact ⟨rfl, rfl⟩
  | plus inner ih =>
    cases t' with
    | plus inner' =>
      obtain ⟨rfl, rfl⟩ := ih (List.cons.inj h).2 hrest hrest'
      exact ⟨rfl, rfl⟩
    | minus => cases h
    | unsigned inner' => exact absurd h.symm (inner'.append_ne_sign .plus)
  | minus inner ih =>
    cases t' with
    | plus => cases h
    | minus inner' =>
      obtain ⟨rfl, rfl⟩ := ih (List.cons.inj h).2 hrest hrest'
      exact ⟨rfl, rfl⟩
    | unsigned inner' => exact absurd h.symm (inner'.append_ne_sign .minus)
  | unsigned inner ih =>
    cases t' with
    | plus => exact absurd h (inner.append_ne_sign .plus)
    | minus => exact absurd h (inner.append_ne_sign .minus)
    | unsigned inner' =>
      obtain ⟨rfl, rfl⟩ := ih h hrest hrest'
      exact ⟨rfl, rfl⟩
  | number value =>
    cases t' with
    | number =>
      cases h
      exact ⟨rfl, rfl⟩
    | _ => cases h
  | var name =>
    cases t' with
    | var =>
      cases h
      exact ⟨rfl, rfl⟩
    | call =>
      exact absurd (List.cons.inj h).2 hrest.ne_openParen
    | _ => cases h
  | group inner ih =>
    cases t' with
    | group inner' =>
      simp only [tokens, List.cons_append, List.append_assoc, List.cons.injEq, true_and] at h
      obtain ⟨rfl, hclose⟩ := ih h ends_closeParen ends_closeParen
      exact ⟨rfl, (List.cons.inj hclose).2⟩
    | _ => cases h
  | call function inner ih =>
    cases t' with
    | call function' inner' =>
      simp only [tokens, List.cons_append, List.append_assoc, List.cons.injEq, Token.name.injEq,
        true_and] at h
      obtain rfl := Function.name_inj h.1
      obtain ⟨rfl, hclose⟩ := ih h.2 ends_closeParen ends_closeParen
      exact ⟨rfl, (List.cons.inj hclose).2⟩
    | var =>
      exact absurd (List.cons.inj h).2.symm hrest'.ne_openParen
    | _ => cases h
  | noArguments =>
    cases t' with
    | noArguments => exact ⟨rfl, h⟩
    | someArguments list => exact absurd h.symm (list.append_ne_of_ends hrest)
  | someArguments list ih =>
    cases t' with
    | noArguments => exact absurd h (list.append_ne_of_ends hrest')
    | someArguments list' =>
      obtain ⟨rfl, rfl⟩ := ih h hrest hrest'
      exact ⟨rfl, rfl⟩
  | lastArgument argument ih =>
    cases t' with
    | lastArgument argument' =>
      obtain ⟨rfl, rfl⟩ := ih h (hrest.mono (Nat.zero_le 1)) (hrest'.mono (Nat.zero_le 1))
      exact ⟨rfl, rfl⟩
    | nextArgument argument' more' =>
      simp only [tokens, List.append_assoc, List.cons_append] at h
      obtain ⟨-, hcomma⟩ := ih h (hrest.mono (Nat.zero_le 1)) ends_comma
      exact absurd hcomma hrest.ne_comma
  | nextArgument argument more ih ihmore =>
    cases t' with
    | lastArgument argument' =>
      simp only [tokens, List.append_assoc, List.cons_append] at h
      obtain ⟨-, hcomma⟩ := ih h ends_comma (hrest'.mono (Nat.zero_le 1))
      exact absurd hcomma.symm hrest'.ne_comma
    | nextArgument argument' more' =>
      simp only [tokens, List.append_assoc, List.cons_append] at h
      obtain ⟨rfl, hcomma⟩ := ih h ends_comma ends_comma
      obtain ⟨rfl, rfl⟩ := ihmore (List.cons.inj hcomma).2 hrest hrest'
      exact ⟨rfl, rfl⟩

theorem tokens_injective : Function.Injective (tokens : ParseTree l → List Token) := by
  intro t t' h
  exact (append_inj (congrArg (· ++ []) h) ends_nil ends_nil).1

theorem percent_notMem_tokens (t : ParseTree l) : .percent ∉ t.tokens := by
  induction t with
  | term sign | factor sign => cases sign <;> simp_all
  | _ => simp_all

/-- A name in front of an opening parenthesis is the name of a function. -/
def MayPrecede (a b : Token) : Prop :=
  ∀ name, a = .name name → b = .openParen → (Function.ofName? name).isSome

theorem isChain_append {ts ts' : List Token} (hts : ts.IsChain MayPrecede)
    (hts' : ts'.IsChain MayPrecede) (hhead : ∀ token ∈ ts'.head?, token ≠ .openParen) :
    (ts ++ ts').IsChain MayPrecede := by
  refine List.isChain_append.2 ⟨hts, hts', ?_⟩
  intro a _ b hb name _ hopen
  exact absurd hopen (hhead b hb)

theorem isChain_cons {ts : List Token} (htoken : ∀ name, token ≠ .name name)
    (hts : ts.IsChain MayPrecede) : (token :: ts).IsChain MayPrecede := by
  refine List.isChain_cons.2 ⟨?_, hts⟩
  intro b _ name hname
  exact absurd hname (htoken name)

theorem ne_openParen_of_terms (more : ParseTree .terms) :
    ∀ token ∈ more.tokens.head?, token ≠ .openParen := by
  cases more with
  | noTerms => simp
  | term sign => cases sign <;> simp

theorem ne_openParen_of_factors (more : ParseTree .factors) :
    ∀ token ∈ more.tokens.head?, token ≠ .openParen := by
  cases more with
  | noFactors => simp
  | factor scale => cases scale <;> simp

theorem isChain_tokens (t : ParseTree l) : t.tokens.IsChain MayPrecede := by
  induction t with
  | sum first more ihfirst ihmore => exact isChain_append ihfirst ihmore more.ne_openParen_of_terms
  | product first more ihfirst ihmore =>
    exact isChain_append ihfirst ihmore more.ne_openParen_of_factors
  | term sign next more ihnext ihmore =>
    refine isChain_cons ?_ (isChain_append ihnext ihmore more.ne_openParen_of_terms)
    cases sign <;> simp
  | factor scale next more ihnext ihmore =>
    refine isChain_cons ?_ (isChain_append ihnext ihmore more.ne_openParen_of_factors)
    cases scale <;> simp
  | plus inner ih | minus inner ih => exact isChain_cons (by simp) ih
  | unsigned inner ih | someArguments inner ih | lastArgument inner ih => exact ih
  | group inner ih =>
    exact isChain_cons (by simp) (isChain_append ih (.singleton _) (by simp))
  | call function inner ih =>
    refine List.isChain_cons_cons.2 ⟨?_, ?_⟩
    · rintro name h -
      rw [← Token.name.inj h, Function.ofName?_name]
      rfl
    · exact isChain_cons (by simp) (isChain_append ih (.singleton _) (by simp))
  | nextArgument argument more ih ihmore =>
    exact isChain_append ih (isChain_cons (by simp) ihmore) (by simp)
  | number | var => exact .singleton _
  | noTerms | noFactors | noArguments => exact .nil

/-- No variable stands in front of an opening parenthesis. -/
theorem isSome_ofName?_of_infix (t : ParseTree l) {name : String}
    (h : [.name name, .openParen] <:+: t.tokens) : (Function.ofName? name).isSome := by
  have hpair := t.isChain_tokens.infix h
  exact (List.isChain_cons_cons.1 hpair).1 name rfl rfl

end ParseTree

end Appraisal.Expression
