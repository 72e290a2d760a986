import Appraisal.Proofs.Expression.Parsing

/-!
# The size of expressions that are read

Only a minus sign in front of an operand stands for two nodes, every other token for one at most.
Sums and products grow to the left without regard to the depth; every other step down from the root
is paid for by the limit on the depth, and there are at most three such steps at each level and two
more at the outermost one.
-/

namespace Appraisal

namespace Expression

mutual

def nodes : Expression → Nat
  | number _ => 1
  | var _ => 1
  | binary _ left right => left.nodes + right.nodes + 1
  | call _ arguments => nodesOfAll arguments + 1

def nodesOfAll : List Expression → Nat
  | [] => 0
  | e :: es => e.nodes + nodesOfAll es

end

/-- What a derivation means has at most so many nodes. Further terms and factors add them to the
ones on their left. -/
def NodesWithin (n : Nat) : (l : Level) → l.Meaning → Prop
  | .sum, e | .product, e | .operand, e | .primary, e => e.nodes ≤ n
  | .terms, f | .factors, f => ∀ left, (f left).nodes ≤ left.nodes + n
  | .arguments, es | .argumentList, es => nodesOfAll es ≤ n

theorem nodesWithin_tokens {l : Level} (t : ParseTree l) :
    NodesWithin (2 * t.tokens.length) l t.meaning := by
  induction t with
  | sum first more ihfirst ihmore | product first more ihfirst ihmore =>
    have hmore := ihmore first.meaning
    simp only [NodesWithin, ParseTree.meaning, ParseTree.tokens, List.length_append]
      at ihfirst hmore ⊢
    omega
  | noTerms | noFactors => exact fun left => Nat.le_refl _
  | term sign next more ihnext ihmore | factor sign next more ihnext ihmore =>
    intro left
    have hmore := ihmore (.binary sign.operator left next.meaning)
    simp only [NodesWithin, nodes] at ihnext hmore
    simp only [ParseTree.meaning, ParseTree.tokens, List.length_cons, List.length_append]
    omega
  | plus inner ih | minus inner ih | group inner ih | call function inner ih
  | nextArgument argument more ih ihmore =>
    simp only [NodesWithin, ParseTree.meaning, ParseTree.tokens, nodes, nodesOfAll,
      List.length_cons, List.length_append, List.length_nil] at *
    omega
  | unsigned inner ih | someArguments inner ih => exact ih
  | number | var => exact Nat.le_of_ble_eq_true rfl
  | noArguments => exact Nat.le_refl 0
  | lastArgument argument ih => exact ih

/-- A step down from a node. -/
inductive Edge where
  | left
  | right
  | argument (index : Nat)
  deriving DecidableEq

/-- A path from the root of an expression down to a node without operands. -/
inductive RootToLeaf : Expression → List Edge → Prop
  | number {value : Float} : RootToLeaf (.number value) []
  | var {name : String} : RootToLeaf (.var name) []
  | noArguments {function : Function} : RootToLeaf (.call function []) []
  | left {op : Operator} {left right : Expression} {path : List Edge}
      (h : RootToLeaf left path) : RootToLeaf (.binary op left right) (.left :: path)
  | right {op : Operator} {left right : Expression} {path : List Edge}
      (h : RootToLeaf right path) : RootToLeaf (.binary op left right) (.right :: path)
  | argument {function : Function} {arguments : List Expression} {index : Nat} {e : Expression}
      {path : List Edge} (he : arguments[index]? = some e) (h : RootToLeaf e path) :
      RootToLeaf (.call function arguments) (.argument index :: path)

/-- The steps of a path that do not go to the left. -/
def inward (path : List Edge) : Nat :=
  path.countP (· ≠ .left)

@[simp] theorem inward_left (path : List Edge) : inward (.left :: path) = inward path :=
  List.countP_cons_of_neg (by decide)

@[simp] theorem inward_right (path : List Edge) : inward (.right :: path) = inward path + 1 :=
  List.countP_cons_of_pos (by decide)

@[simp] theorem inward_argument (index : Nat) (path : List Edge) :
    inward (.argument index :: path) = inward path + 1 :=
  List.countP_cons_of_pos (decide_eq_true Edge.noConfusion)

/-- No path has more than so many steps that do not go to the left. -/
def Shallow (n : Nat) (e : Expression) : Prop :=
  ∀ path, e.RootToLeaf path → inward path ≤ n

variable {m n : Nat} {e left right : Expression} {es : List Expression}

theorem Shallow.mono (h : Shallow m e) (hle : m ≤ n) : Shallow n e :=
  fun path hpath => (h path hpath).trans hle

theorem shallow_number (value : Float) : Shallow n (.number value) := by
  rintro path ⟨⟩
  exact Nat.zero_le n

theorem shallow_var (name : String) : Shallow n (.var name) := by
  rintro path ⟨⟩
  exact Nat.zero_le n

theorem Shallow.binary (hleft : Shallow n left) (hright : Shallow m right) (hlt : m < n)
    (op : Operator) : Shallow n (.binary op left right) := by
  intro path hpath
  cases hpath with
  | left h =>
    rw [inward_left]
    exact hleft _ h
  | right h =>
    rw [inward_right]
    exact (hright _ h).trans_lt hlt

theorem Shallow.call (h : ∀ e ∈ es, Shallow m e) (hlt : m < n) (function : Function) :
    Shallow n (.call function es) := by
  intro path hpath
  cases hpath with
  | noArguments => exact Nat.zero_le n
  | argument he hpath =>
    rw [inward_argument]
    exact (h _ (List.mem_of_getElem? he) _ hpath).trans_lt hlt

/-- How many steps a derivation may take with so many levels left. -/
def Level.allowance (levels : Nat) : Level → Nat
  | operand | primary => 3 * levels
  | product | factors => 3 * levels + 1
  | sum | terms | arguments | argumentList => 3 * levels + 2

def ShallowMeaning (n : Nat) : (l : Level) → l.Meaning → Prop
  | .sum, e | .product, e | .operand, e | .primary, e => Shallow n e
  | .terms, f | .factors, f => ∀ left, Shallow n left → Shallow n (f left)
  | .arguments, es | .argumentList, es => ∀ e ∈ es, Shallow n e

theorem shallow_meaning {l : Level} {maxDepth depth : Nat} (t : ParseTree l)
    (ht : t.Within maxDepth depth) :
    ShallowMeaning (l.allowance (maxDepth - depth)) l t.meaning := by
  induction t generalizing depth with
  | sum first more ihfirst ihmore | product first more ihfirst ihmore =>
    exact ihmore ht.2 _ ((ihfirst ht.1).mono (Nat.le_succ _))
  | noTerms | noFactors => exact fun left h => h
  | term sign next more ihnext ihmore | factor sign next more ihnext ihmore =>
    intro left hleft
    exact ihmore ht.2 _ (hleft.binary (ihnext ht.1) (Nat.lt_succ_self _) sign.operator)
  | plus inner ih =>
    have hdepth := ht.1
    exact (ih ht.2).mono (by simp only [Level.allowance]; omega)
  | minus inner ih =>
    have hdepth := ht.1
    exact (shallow_number 0).binary (ih ht.2) (by simp only [Level.allowance]; omega) .sub
  | unsigned inner ih => exact ih ht
  | number value => exact shallow_number value
  | var name => exact shallow_var name
  | group inner ih =>
    have hdepth := ht.1
    exact (ih ht.2).mono (by simp only [Level.allowance]; omega)
  | call function inner ih =>
    have hdepth := ht.1
    exact .call (ih ht.2.1) (by simp only [Level.allowance]; omega) function
  | noArguments => exact List.forall_mem_nil _
  | someArguments list ih => exact ih ht
  | lastArgument argument ih => exact List.forall_mem_singleton.2 (ih ht)
  | nextArgument argument more ih ihmore => exact List.forall_mem_cons.2 ⟨ih ht.1, ihmore ht.2⟩

/-- An expression that is read has at most twice as many nodes as the text has tokens, and on the
way from its root to any leaf at most three steps for each level of the limit and two more do not
go into the left operand of an operator. -/
theorem shape_of_parse {maxDepth : Nat} {text : String} {e : Expression}
    (h : parse maxDepth text = .ok e) :
    ∃ ts, tokenize text = .ok ts ∧ e.nodes ≤ 2 * ts.length ∧
      ∀ path, e.RootToLeaf path → path.countP (· ≠ .left) ≤ 3 * maxDepth + 2 := by
  obtain ⟨ts, htokens, hts⟩ := bind_eq_ok_iff.1 h
  obtain ⟨-, t, ⟨rfl, hwithin⟩, rfl⟩ := ofTokens_eq_ok_iff_derives.1 hts
  exact ⟨t.tokens, htokens, nodesWithin_tokens t, shallow_meaning t hwithin⟩

/-- With one level, all five steps are taken. -/
theorem shape_of_parse_of_call :
    let e : Expression := .binary .add (.var "a") (.binary .mul (.var "b")
      (.call .max [.binary .add (.var "c") (.binary .mul (.var "d") (.var "e"))]))
    let path : List Edge := [.right, .right, .argument 0, .right, .right]
    parse 1 "a+b*max(c+d*e)" = .ok e ∧ e.RootToLeaf path ∧ path.countP (· ≠ .left) = 5 ∧
      ∃ ts, tokenize "a+b*max(c+d*e)" = .ok ts ∧ e.nodes ≤ 2 * ts.length ∧
        ∀ path, e.RootToLeaf path → path.countP (· ≠ .left) ≤ 5 := by
  intro e path
  have hparse : parse 1 "a+b*max(c+d*e)" = .ok e := by cbv
  have hpath : e.RootToLeaf path := .right (.right (.argument rfl (.right (.right .var))))
  exact ⟨hparse, hpath, rfl, shape_of_parse hparse⟩

end Expression

end Appraisal
