import Appraisal.Expression.Parser
import Appraisal.Proofs.Except
import Appraisal.Proofs.Expression.Grammar

/-!
# The parser and the grammar

The readers accept exactly what the grammar derives, and what they give is what the derivation
means. Soundness is by induction on the tokens, completeness by induction on the derivation.
-/

namespace Appraisal

open Text (Parsed Continued)

namespace Expression

namespace Reading

section Taken

variable {α : Type} {ts : List Token}

/-- The value that a reader takes and the tokens that it leaves. -/
def taken (result : Except SyntaxError (Parsed α ts)) : Except SyntaxError (α × List Token) :=
  result.map fun p => (p.value, p.rest)

/-- The same for a reader that may take nothing. -/
def continued (result : Except SyntaxError (Continued α ts)) :
    Except SyntaxError (α × List Token) :=
  result.map fun p => (p.value, p.rest)

theorem length_lt_of_taken {result : Except SyntaxError (Parsed α ts)} {value : α}
    {rest : List Token} (h : taken result = .ok (value, rest)) : rest.length < ts.length := by
  cases result with
  | error => cases h
  | ok p =>
    cases h
    exact p.shorter

end Taken

variable {r : Reading} {d : Nat} {left : Expression} {token : Token} {ts : List Token}

theorem taken_sum :
    taken (r.sum d ts) = taken (r.product d ts) >>= fun (first, mid) =>
      continued (r.sumTail d first mid) := by
  rw [sum]
  cases r.product d ts with
  | error => rfl
  | ok first =>
    change taken (r.sumTail d first.value first.rest >>= _) = continued _
    cases r.sumTail d first.value first.rest <;> rfl

theorem continued_sumTail_nil : continued (r.sumTail d left []) = .ok (left, []) := by
  rw [sumTail]
  rfl

theorem continued_sumTail_cons :
    continued (r.sumTail d left (token :: ts)) =
      match sumOperator? token with
      | none => .ok (left, token :: ts)
      | some op => taken (r.product d ts) >>= fun (term, mid) =>
        continued (r.sumTail d (.binary op left term) mid) := by
  rw [sumTail]
  cases sumOperator? token with
  | none => rfl
  | some op =>
    cases r.product d ts with
    | error => rfl
    | ok term =>
      change continued (r.sumTail d (.binary op left term.value) term.rest >>= _) =
        continued _
      cases r.sumTail d (.binary op left term.value) term.rest <;> rfl

theorem taken_product :
    taken (r.product d ts) = taken (r.operand d ts) >>= fun (first, mid) =>
      continued (r.productTail d first mid) := by
  rw [product]
  cases r.operand d ts with
  | error => rfl
  | ok first =>
    change taken (r.productTail d first.value first.rest >>= _) = continued _
    cases r.productTail d first.value first.rest <;> rfl

theorem continued_productTail_nil : continued (r.productTail d left []) = .ok (left, []) := by
  rw [productTail]
  rfl

theorem continued_productTail_percent :
    continued (r.productTail d left (.percent :: ts)) =
      .error (.unsupportedPercent (r.position (.percent :: ts))) := by
  rw [productTail]
  rfl

theorem continued_productTail_cons (h : token ≠ .percent) :
    continued (r.productTail d left (token :: ts)) =
      match productOperator? token with
      | none => .ok (left, token :: ts)
      | some op => taken (r.operand d ts) >>= fun (factor, mid) =>
        continued (r.productTail d (.binary op left factor) mid) := by
  rw [productTail]
  · cases productOperator? token with
    | none => rfl
    | some op =>
      cases r.operand d ts with
      | error => rfl
      | ok factor =>
        change continued (r.productTail d (.binary op left factor.value) factor.rest >>= _) =
          continued _
        cases r.productTail d (.binary op left factor.value) factor.rest <;> rfl
  · exact h

theorem taken_operand_plus :
    taken (r.operand d (.plus :: ts)) = r.enter d >>= fun inner =>
      taken (r.operand inner ts) := by
  rw [operand]
  cases r.enter d with
  | error => rfl
  | ok inner =>
    change taken (r.operand inner ts >>= _) = taken _
    cases r.operand inner ts <;> rfl

theorem taken_operand_minus :
    taken (r.operand d (.minus :: ts)) = r.enter d >>= fun inner =>
      taken (r.operand inner ts) >>= fun (value, rest) =>
      .ok (.binary .sub (.number 0) value, rest) := by
  rw [operand]
  cases r.enter d with
  | error => rfl
  | ok inner =>
    change taken (r.operand inner ts >>= _) = taken _ >>= _
    cases r.operand inner ts <;> rfl

theorem operand_eq_primary (h : ∀ sign : Sign, ∀ rest, ts ≠ sign.token :: rest) :
    r.operand d ts = r.primary d ts := by
  rw [operand]
  · exact h .plus
  · exact h .minus

theorem primary_nil : r.primary d [] = .error .unexpectedEnd := by
  rw [primary]

theorem primary_eq_unexpected (h : Level.primary.starts token = false) :
    taken (r.primary d (token :: ts)) =
      .error (.unexpectedToken (r.position (token :: ts))) := by
  rw [primary.eq_def]
  cases token with
  | number | name | openParen => cases h
  | _ => rfl

theorem taken_primary_number {value : Float} :
    taken (r.primary d (.number value :: ts)) = .ok (.number value, ts) := by
  rw [primary]
  rfl

theorem taken_primary_call {text : String} :
    taken (r.primary d (.name text :: .openParen :: ts)) =
      match Function.ofName? text with
      | none => .error (.unknownFunction text)
      | some f => r.enter d >>= fun inner =>
        taken (r.arguments inner ts) >>= fun (arguments, rest) =>
        if f.admits arguments.length then .ok (.call f arguments, rest)
        else .error (.wrongArity f) := by
  rw [primary]
  cases Function.ofName? text with
  | none => rfl
  | some f =>
    cases r.enter d with
    | error => rfl
    | ok inner =>
      change taken (r.arguments inner ts >>= _) = taken _ >>= _
      cases r.arguments inner ts with
      | error => rfl
      | ok p =>
        simp only [ok_bind, taken, Except.map]
        split_ifs <;> rfl

theorem taken_primary_name {text : String} (h : ∀ rest, ts ≠ .openParen :: rest) :
    taken (r.primary d (.name text :: ts)) =
      match Function.ofName? text with
      | none => .ok (.var text, ts)
      | some f => .error (.notCalled f) := by
  rw [primary]
  · cases Function.ofName? text <;> rfl
  · exact h

theorem taken_primary_group :
    taken (r.primary d (.openParen :: ts)) = r.enter d >>= fun inner =>
      taken (r.sum inner ts) >>= fun (value, rest) =>
      match rest with
      | .closeParen :: after => .ok (value, after)
      | [] => .error .missingParenthesis
      | _ => .error .expectedParenthesis := by
  rw [primary]
  cases r.enter d with
  | error => rfl
  | ok inner =>
    change taken (r.sum inner ts >>= _) = taken _ >>= _
    cases r.sum inner ts with
    | error => rfl
    | ok p =>
      obtain ⟨value, rest, shorter⟩ := p
      rcases rest with _ | ⟨token, rest⟩
      · rfl
      · cases token <;> rfl

theorem taken_arguments_closeParen :
    taken (r.arguments d (.closeParen :: ts)) = .ok ([], ts) := by
  rw [arguments]
  rfl

theorem arguments_eq_argumentList (h : ∀ rest, ts ≠ .closeParen :: rest) :
    r.arguments d ts = r.argumentList d ts := by
  rw [arguments]
  exact h

theorem taken_argumentList :
    taken (r.argumentList d ts) = taken (r.sum d ts) >>= fun (first, rest) =>
      match rest with
      | .comma :: rest => taken (r.argumentList d rest) >>= fun (others, rest) =>
        .ok (first :: others, rest)
      | .closeParen :: rest => .ok ([first], rest)
      | [] => .error .missingParenthesis
      | _ => .error .expectedSeparator := by
  rw [argumentList]
  cases r.sum d ts with
  | error => rfl
  | ok first =>
    obtain ⟨value, rest, shorter⟩ := first
    rcases rest with _ | ⟨token, rest⟩
    · rfl
    · cases token with
      | comma =>
        change taken (r.argumentList d rest >>= _) =
          (taken (r.argumentList d rest) >>= fun (others, rest) => .ok (value :: others, rest))
        cases r.argumentList d rest <;> rfl
      | _ => rfl

theorem name_of_ofName? {text : String} {f : Function} (h : Function.ofName? text = some f) :
    f.name = text := by
  simpa using List.find?_some h

theorem enter_eq_ok_iff {inner : Nat} :
    r.enter d = .ok inner ↔ d + 1 ≤ r.maxDepth ∧ inner = d + 1 := by
  unfold enter
  split_ifs with h
  · simp only [Except.ok.injEq]
    exact ⟨fun he => ⟨h, he.symm⟩, fun he => he.2.symm⟩
  · simp only [false_iff]
    exact fun he => h he.1

theorem sumOperator?_token (sign : Sign) : sumOperator? sign.token = some sign.operator := by
  cases sign <;> rfl

theorem productOperator?_token (scale : Scale) :
    productOperator? scale.token = some scale.operator := by
  cases scale <;> rfl

theorem exists_sign {op : Operator} (h : sumOperator? token = some op) :
    ∃ sign : Sign, sign.token = token ∧ sign.operator = op := by
  cases token <;> cases h
  · exact ⟨.plus, rfl, rfl⟩
  · exact ⟨.minus, rfl, rfl⟩

theorem exists_scale {op : Operator} (h : productOperator? token = some op) :
    ∃ scale : Scale, scale.token = token ∧ scale.operator = op := by
  cases token <;> cases h
  · exact ⟨.star, rfl, rfl⟩
  · exact ⟨.slash, rfl, rfl⟩

open ParseTree (tokens meaning)

-- What a reader takes is derived by the grammar. Every call reads fewer tokens than its caller or
-- stands lower in the order of the readers.
mutual

theorem sum_sound {r : Reading} {d : Nat} {ts rest : List Token} {e : Expression}
    (h : taken (r.sum d ts) = .ok (e, rest)) :
    ∃ t : ParseTree .sum, t.tokens ++ rest = ts ∧ t.Within r.maxDepth d ∧ t.meaning = e := by
  rw [taken_sum] at h
  obtain ⟨⟨left, mid⟩, hproduct, hterms⟩ := bind_eq_ok_iff.1 h
  have hshorter := length_lt_of_taken hproduct
  obtain ⟨first, htokens, hfirst, hmeaning⟩ := product_sound hproduct
  obtain ⟨more, htokens', hmore, hmeaning'⟩ := sumTail_sound hterms
  refine ⟨.sum first more, ?_, ⟨hfirst, hmore⟩, ?_⟩
  · rw [tokens, List.append_assoc, htokens', htokens]
  · rw [meaning, hmeaning, hmeaning']
termination_by (ts.length, 5)

theorem sumTail_sound {r : Reading} {d : Nat} {ts rest : List Token} {left e : Expression}
    (h : continued (r.sumTail d left ts) = .ok (e, rest)) :
    ∃ t : ParseTree .terms,
      t.tokens ++ rest = ts ∧ t.Within r.maxDepth d ∧ t.meaning left = e := by
  rcases hts : ts with _ | ⟨token, after⟩
  · rw [hts, continued_sumTail_nil] at h
    cases h
    exact ⟨.noTerms, rfl, trivial, rfl⟩
  have hafter : after.length < ts.length := by simp [hts]
  rw [hts, continued_sumTail_cons] at h
  cases hop : sumOperator? token with
  | none =>
    rw [hop] at h
    cases h
    exact ⟨.noTerms, rfl, trivial, rfl⟩
  | some op =>
    rw [hop] at h
    obtain ⟨sign, rfl, rfl⟩ := exists_sign hop
    obtain ⟨⟨term, mid⟩, hproduct, hterms⟩ := bind_eq_ok_iff.1 h
    have hshorter : mid.length < ts.length := (length_lt_of_taken hproduct).trans hafter
    obtain ⟨next, htokens, hnext, hmeaning⟩ := product_sound hproduct
    obtain ⟨more, htokens', hmore, hmeaning'⟩ := sumTail_sound hterms
    refine ⟨.term sign next more, ?_, ⟨hnext, hmore⟩, ?_⟩
    · rw [tokens, List.cons_append, List.append_assoc, htokens', htokens]
    · rw [meaning, hmeaning]
      exact hmeaning'
termination_by (ts.length, 0)

theorem product_sound {r : Reading} {d : Nat} {ts rest : List Token} {e : Expression}
    (h : taken (r.product d ts) = .ok (e, rest)) :
    ∃ t : ParseTree .product, t.tokens ++ rest = ts ∧ t.Within r.maxDepth d ∧ t.meaning = e := by
  rw [taken_product] at h
  obtain ⟨⟨left, mid⟩, hoperand, hfactors⟩ := bind_eq_ok_iff.1 h
  have hshorter := length_lt_of_taken hoperand
  obtain ⟨first, htokens, hfirst, hmeaning⟩ := operand_sound hoperand
  obtain ⟨more, htokens', hmore, hmeaning'⟩ := productTail_sound hfactors
  refine ⟨.product first more, ?_, ⟨hfirst, hmore⟩, ?_⟩
  · rw [tokens, List.append_assoc, htokens', htokens]
  · rw [meaning, hmeaning, hmeaning']
termination_by (ts.length, 4)

theorem productTail_sound {r : Reading} {d : Nat} {ts rest : List Token} {left e : Expression}
    (h : continued (r.productTail d left ts) = .ok (e, rest)) :
    ∃ t : ParseTree .factors,
      t.tokens ++ rest = ts ∧ t.Within r.maxDepth d ∧ t.meaning left = e := by
  rcases hts : ts with _ | ⟨token, after⟩
  · rw [hts, continued_productTail_nil] at h
    cases h
    exact ⟨.noFactors, rfl, trivial, rfl⟩
  have hafter : after.length < ts.length := by simp [hts]
  by_cases hpercent : token = .percent
  · rw [hts, hpercent, continued_productTail_percent] at h
    cases h
  rw [hts, continued_productTail_cons hpercent] at h
  cases hop : productOperator? token with
  | none =>
    rw [hop] at h
    cases h
    exact ⟨.noFactors, rfl, trivial, rfl⟩
  | some op =>
    rw [hop] at h
    obtain ⟨scale, rfl, rfl⟩ := exists_scale hop
    obtain ⟨⟨factor, mid⟩, hoperand, hfactors⟩ := bind_eq_ok_iff.1 h
    have hshorter : mid.length < ts.length := (length_lt_of_taken hoperand).trans hafter
    obtain ⟨next, htokens, hnext, hmeaning⟩ := operand_sound hoperand
    obtain ⟨more, htokens', hmore, hmeaning'⟩ := productTail_sound hfactors
    refine ⟨.factor scale next more, ?_, ⟨hnext, hmore⟩, ?_⟩
    · rw [tokens, List.cons_append, List.append_assoc, htokens', htokens]
    · rw [meaning, hmeaning]
      exact hmeaning'
termination_by (ts.length, 0)

theorem operand_sound {r : Reading} {d : Nat} {ts rest : List Token} {e : Expression}
    (h : taken (r.operand d ts) = .ok (e, rest)) :
    ∃ t : ParseTree .operand, t.tokens ++ rest = ts ∧ t.Within r.maxDepth d ∧ t.meaning = e := by
  by_cases hsign : ∃ (sign : Sign) (after : List Token), ts = sign.token :: after
  · obtain ⟨sign, after, hts⟩ := hsign
    have hafter : after.length < ts.length := by simp [hts]
    cases sign with
    | plus =>
      rw [hts, Sign.token, taken_operand_plus] at h
      obtain ⟨_, henter, hinner⟩ := bind_eq_ok_iff.1 h
      obtain ⟨hdepth, rfl⟩ := enter_eq_ok_iff.1 henter
      obtain ⟨inner, htokens, hwithin, hmeaning⟩ := operand_sound hinner
      refine ⟨.plus inner, ?_, ⟨hdepth, hwithin⟩, hmeaning⟩
      rw [hts, tokens, List.cons_append, htokens, Sign.token]
    | minus =>
      rw [hts, Sign.token, taken_operand_minus] at h
      obtain ⟨_, henter, hinner⟩ := bind_eq_ok_iff.1 h
      obtain ⟨hdepth, rfl⟩ := enter_eq_ok_iff.1 henter
      obtain ⟨⟨value, mid⟩, hinner, hresult⟩ := bind_eq_ok_iff.1 hinner
      cases hresult
      obtain ⟨inner, htokens, hwithin, rfl⟩ := operand_sound hinner
      refine ⟨.minus inner, ?_, ⟨hdepth, hwithin⟩, rfl⟩
      rw [hts, tokens, List.cons_append, htokens, Sign.token]
  · simp only [not_exists] at hsign
    rw [operand_eq_primary hsign] at h
    obtain ⟨inner, htokens, hwithin, hmeaning⟩ := primary_sound h
    exact ⟨.unsigned inner, htokens, hwithin, hmeaning⟩
termination_by (ts.length, 3)

theorem primary_sound {r : Reading} {d : Nat} {ts rest : List Token} {e : Expression}
    (h : taken (r.primary d ts) = .ok (e, rest)) :
    ∃ t : ParseTree .primary, t.tokens ++ rest = ts ∧ t.Within r.maxDepth d ∧ t.meaning = e := by
  rcases hts : ts with _ | ⟨token, after⟩
  · rw [hts, primary_nil] at h
    cases h
  have hafter : after.length < ts.length := by simp [hts]
  rw [hts] at h
  cases token with
  | number value =>
    rw [taken_primary_number] at h
    cases h
    exact ⟨.number value, rfl, trivial, rfl⟩
  | name text =>
    by_cases hopen : ∃ body, after = .openParen :: body
    · obtain ⟨body, hbody⟩ := hopen
      have hbody' : body.length < ts.length := by simp [hts, hbody]
      rw [hbody, taken_primary_call] at h
      cases hf : Function.ofName? text with
      | none =>
        rw [hf] at h
        cases h
      | some f =>
        obtain rfl := name_of_ofName? hf
        rw [hf] at h
        obtain ⟨_, henter, h⟩ := bind_eq_ok_iff.1 h
        obtain ⟨hdepth, rfl⟩ := enter_eq_ok_iff.1 henter
        obtain ⟨⟨es, mid⟩, harguments, h⟩ := bind_eq_ok_iff.1 h
        obtain ⟨inner, htokens, hwithin, rfl⟩ := arguments_sound harguments
        simp only at h
        split_ifs at h with harity
        cases h
        refine ⟨.call f inner, ?_, ⟨hdepth, hwithin, harity⟩, rfl⟩
        simp [tokens, htokens, hbody]
    · simp only [not_exists] at hopen
      rw [taken_primary_name hopen] at h
      cases hf : Function.ofName? text with
      | none =>
        rw [hf] at h
        cases h
        exact ⟨.var text, rfl, hf, rfl⟩
      | some f =>
        rw [hf] at h
        cases h
  | openParen =>
    rw [taken_primary_group] at h
    obtain ⟨_, henter, h⟩ := bind_eq_ok_iff.1 h
    obtain ⟨hdepth, rfl⟩ := enter_eq_ok_iff.1 henter
    obtain ⟨⟨value, mid⟩, hsum, h⟩ := bind_eq_ok_iff.1 h
    obtain ⟨inner, htokens, hwithin, rfl⟩ := sum_sound hsum
    rcases mid with _ | ⟨token, mid⟩
    · cases h
    cases token with
    | closeParen =>
      cases h
      refine ⟨.group inner, ?_, ⟨hdepth, hwithin⟩, rfl⟩
      simp [tokens, htokens]
    | _ => cases h
  | _ =>
    rw [primary_eq_unexpected rfl] at h
    cases h
termination_by (ts.length, 2)

theorem arguments_sound {r : Reading} {d : Nat} {ts rest : List Token} {es : List Expression}
    (h : taken (r.arguments d ts) = .ok (es, rest)) :
    ∃ t : ParseTree .arguments,
      t.tokens ++ .closeParen :: rest = ts ∧ t.Within r.maxDepth d ∧ t.meaning = es := by
  by_cases hclose : ∃ after, ts = .closeParen :: after
  · obtain ⟨after, rfl⟩ := hclose
    rw [taken_arguments_closeParen] at h
    cases h
    exact ⟨.noArguments, rfl, trivial, rfl⟩
  · simp only [not_exists] at hclose
    rw [arguments_eq_argumentList hclose] at h
    obtain ⟨list, htokens, hwithin, hmeaning⟩ := argumentList_sound h
    exact ⟨.someArguments list, htokens, hwithin, hmeaning⟩
termination_by (ts.length, 7)

theorem argumentList_sound {r : Reading} {d : Nat} {ts rest : List Token} {es : List Expression}
    (h : taken (r.argumentList d ts) = .ok (es, rest)) :
    ∃ t : ParseTree .argumentList,
      t.tokens ++ .closeParen :: rest = ts ∧ t.Within r.maxDepth d ∧ t.meaning = es := by
  rw [taken_argumentList] at h
  obtain ⟨⟨first, mid⟩, hsum, h⟩ := bind_eq_ok_iff.1 h
  have hshorter := length_lt_of_taken hsum
  obtain ⟨argument, htokens, hwithin, rfl⟩ := sum_sound hsum
  rcases mid with _ | ⟨token, mid⟩
  · cases h
  have hmid : mid.length < ts.length := mid.length.lt_succ_self.trans hshorter
  cases token with
  | comma =>
    obtain ⟨⟨others, after⟩, hlist, hresult⟩ := bind_eq_ok_iff.1 h
    cases hresult
    obtain ⟨more, htokens', hmore, rfl⟩ := argumentList_sound hlist
    refine ⟨.nextArgument argument more, ?_, ⟨hwithin, hmore⟩, rfl⟩
    rw [tokens, List.append_assoc, List.cons_append, htokens', htokens]
  | closeParen =>
    cases h
    exact ⟨.lastArgument argument, htokens, hwithin, rfl⟩
  | _ => cases h
termination_by (ts.length, 6)

end

/-- The reader of a level takes what a derivation means and leaves `rest`. -/
def Reads (r : Reading) (d : Nat) (ts rest : List Token) : (l : Level) → l.Meaning → Prop
  | .sum, e => taken (r.sum d ts) = .ok (e, rest)
  | .terms, f => ∀ left, continued (r.sumTail d left ts) = .ok (f left, rest)
  | .product, e => taken (r.product d ts) = .ok (e, rest)
  | .factors, f => ∀ left, continued (r.productTail d left ts) = .ok (f left, rest)
  | .operand, e => taken (r.operand d ts) = .ok (e, rest)
  | .primary, e => taken (r.primary d ts) = .ok (e, rest)
  | .arguments, es => ∀ after, rest = .closeParen :: after →
      taken (r.arguments d ts) = .ok (es, after)
  | .argumentList, es => ∀ after, rest = .closeParen :: after →
      taken (r.argumentList d ts) = .ok (es, after)

variable {rest : List Token} {l : Level}

theorem enter_of_lt (h : d + 1 ≤ r.maxDepth) : r.enter d = .ok (d + 1) :=
  enter_eq_ok_iff.2 ⟨h, rfl⟩

theorem continued_sumTail_of_ends (h : Ends 1 ts) :
    continued (r.sumTail d left ts) = .ok (left, ts) := by
  cases ts with
  | nil => exact continued_sumTail_nil
  | cons token ts =>
    rw [continued_sumTail_cons]
    cases hop : sumOperator? token with
    | none => rfl
    | some op =>
      obtain ⟨sign, rfl, -⟩ := exists_sign hop
      exact absurd rfl (h.ne_sign sign)

theorem continued_productTail_of_ends (h : Ends 2 ts) :
    continued (r.productTail d left ts) = .ok (left, ts) := by
  cases ts with
  | nil => exact continued_productTail_nil
  | cons token ts =>
    have hpercent : token ≠ .percent := by
      rintro rfl
      simp [Token.rank?] at h
    rw [continued_productTail_cons hpercent]
    cases hop : productOperator? token with
    | none => rfl
    | some op =>
      obtain ⟨scale, rfl, -⟩ := exists_scale hop
      exact absurd rfl (h.ne_scale scale)

/-- A derivation is read as what it means. -/
theorem reads_tokens (t : ParseTree l) (ht : t.Within r.maxDepth d) (hrest : Ends l.rank rest) :
    r.Reads d (t.tokens ++ rest) rest l t.meaning := by
  induction t generalizing d rest with
  | sum first more ihfirst ihmore =>
    have hfirst := ihfirst ht.1 (more.ends_terms hrest)
    have hmore := ihmore ht.2 hrest first.meaning
    simp only [Reads] at hfirst ⊢
    rw [tokens, List.append_assoc, taken_sum, hfirst]
    exact hmore
  | noTerms => exact fun left => continued_sumTail_of_ends hrest
  | term sign next more ihnext ihmore =>
    intro left
    have hnext := ihnext ht.1 (more.ends_terms hrest)
    have hmore := ihmore ht.2 hrest (.binary sign.operator left next.meaning)
    simp only [Reads] at hnext
    rw [tokens, List.cons_append, List.append_assoc, continued_sumTail_cons,
      sumOperator?_token]
    simp only [hnext]
    exact hmore
  | product first more ihfirst ihmore =>
    have hfirst := ihfirst ht.1 (more.ends_factors hrest)
    have hmore := ihmore ht.2 hrest first.meaning
    simp only [Reads] at hfirst ⊢
    rw [tokens, List.append_assoc, taken_product, hfirst]
    exact hmore
  | noFactors => exact fun left => continued_productTail_of_ends hrest
  | factor scale next more ihnext ihmore =>
    intro left
    have hnext := ihnext ht.1 (more.ends_factors hrest)
    have hmore := ihmore ht.2 hrest (.binary scale.operator left next.meaning)
    simp only [Reads] at hnext
    rw [tokens, List.cons_append, List.append_assoc,
      continued_productTail_cons scale.token_ne_percent, productOperator?_token]
    simp only [hnext]
    exact hmore
  | plus inner ih =>
    have hinner := ih ht.2 hrest
    simp only [Reads] at hinner ⊢
    rw [tokens, List.cons_append, taken_operand_plus, enter_of_lt ht.1]
    exact hinner
  | minus inner ih =>
    have hinner := ih ht.2 hrest
    simp only [Reads] at hinner ⊢
    rw [tokens, List.cons_append, taken_operand_minus, enter_of_lt ht.1, ok_bind, hinner]
    rfl
  | unsigned inner ih =>
    have hinner := ih ht hrest
    simp only [Reads] at hinner ⊢
    rw [tokens, operand_eq_primary fun sign _ => inner.append_ne_sign sign]
    exact hinner
  | number value => exact taken_primary_number
  | var name =>
    simp only [Reads]
    rw [tokens, List.singleton_append, taken_primary_name fun _ => hrest.ne_openParen, ht]
    rfl
  | group inner ih =>
    have hinner := ih ht.2 (show Ends 1 (.closeParen :: rest) from ends_closeParen)
    simp only [Reads] at hinner ⊢
    rw [tokens, List.cons_append, List.append_assoc, taken_primary_group, enter_of_lt ht.1, ok_bind]
    simp only [List.singleton_append, hinner]
    rfl
  | call f inner ih =>
    have hinner := ih ht.2.1 (show Ends 0 (.closeParen :: rest) from ends_closeParen) rest rfl
    simp only [Reads] at hinner ⊢
    rw [tokens, List.cons_append, List.cons_append, List.append_assoc, taken_primary_call,
      Function.ofName?_name]
    simp only [enter_of_lt ht.1, ok_bind, List.singleton_append, hinner, ht.2.2, if_true]
    rfl
  | noArguments =>
    rintro after rfl
    exact taken_arguments_closeParen
  | someArguments list ih =>
    rintro after rfl
    have hlist := ih ht hrest after rfl
    rw [tokens, arguments_eq_argumentList fun _ => list.append_ne_of_ends ends_closeParen]
    exact hlist
  | lastArgument argument ih =>
    rintro after rfl
    have hargument := ih ht (hrest.mono (Nat.zero_le 1))
    simp only [Reads] at hargument
    rw [taken_argumentList, tokens, hargument]
    rfl
  | nextArgument argument more ih ihmore =>
    rintro after rfl
    have hargument :=
      ih ht.1 (show Ends 1 (.comma :: (more.tokens ++ .closeParen :: after)) from ends_comma)
    have hmore := ihmore ht.2 hrest after rfl
    simp only [Reads] at hargument
    rw [taken_argumentList, tokens, List.append_assoc, List.cons_append, hargument]
    simp only [ok_bind, hmore]
    rfl

end Reading

/-- A derivation of a whole token list. -/
def ParseTree.Derives (maxDepth : Nat) (ts : List Token) (t : ParseTree .sum) : Prop :=
  t.tokens = ts ∧ t.Within maxDepth 0

open Reading in
theorem ofTokens_eq_ok_iff {maxDepth : Nat} {ts : List Token} {e : Expression} :
    ofTokens maxDepth ts = .ok e ↔
      ts ≠ [] ∧ taken ((⟨ts.length, maxDepth⟩ : Reading).sum 0 ts) = .ok (e, []) := by
  rcases ts with _ | ⟨token, ts⟩
  · simp [ofTokens]
  · simp only [ofTokens, List.isEmpty_cons, ne_eq, reduceCtorEq, not_false_eq_true, true_and]
    rcases (⟨(token :: ts).length, maxDepth⟩ : Reading).sum 0 (token :: ts) with
      _ | ⟨value, rest, _⟩
    · simp [taken, Except.map]
    · cases rest <;> simp [taken, Except.map, pure, Except.pure]

open Reading in
theorem ofTokens_eq_ok_iff_derives {maxDepth : Nat} {ts : List Token} {e : Expression} :
    ofTokens maxDepth ts = .ok e ↔
      ts ≠ [] ∧ ∃ t : ParseTree .sum, t.Derives maxDepth ts ∧ t.meaning = e := by
  rw [ofTokens_eq_ok_iff]
  refine and_congr_right fun _ => ⟨fun h => ?_, ?_⟩
  · obtain ⟨t, htokens, hwithin, hmeaning⟩ := sum_sound h
    rw [List.append_nil] at htokens
    exact ⟨t, ⟨htokens, hwithin⟩, hmeaning⟩
  · rintro ⟨t, ⟨rfl, hwithin⟩, rfl⟩
    have hend : Ends Level.sum.rank [] := ends_nil
    have hreads := reads_tokens (r := ⟨t.tokens.length, maxDepth⟩) t hwithin hend
    rwa [List.append_nil] at hreads

/-- A text is read as an expression exactly if it has tokens, at least one, that a derivation of the
expression stands for. There is no other derivation of these tokens, none of any tokens with a
percent sign, and none with a variable in front of an opening parenthesis. -/
theorem parse_eq_ok_iff_derives (maxDepth : Nat) :
    (∀ text e, parse maxDepth text = .ok e ↔
      ∃ ts, tokenize text = .ok ts ∧ ts ≠ [] ∧
        ∃ t : ParseTree .sum, t.Derives maxDepth ts ∧ t.meaning = e) ∧
    Function.Injective (ParseTree.tokens : ParseTree .sum → List Token) ∧
    (∀ t : ParseTree .sum, .percent ∉ t.tokens) ∧
    ∀ (t : ParseTree .sum) (name : String), [.name name, .openParen] <:+: t.tokens →
      (Function.ofName? name).isSome := by
  refine ⟨fun text e => ?_, ParseTree.tokens_injective, ParseTree.percent_notMem_tokens,
    fun t _ => t.isSome_ofName?_of_infix⟩
  simp only [parse, bind_eq_ok_iff, ofTokens_eq_ok_iff_derives]

end Expression

end Appraisal
