import Appraisal.Proofs.Expression.Parsing

/-!
# Parsing under a limit on the depth

What the parser gives for a text depends on its limit in one way only: there is one depth that the
text needs and one result without a limit. Every limit from that depth on gives that result, and
every smaller one the nesting error.
-/

namespace Appraisal

namespace Expression

open Reading

variable {α β : Type} {ts : List Token}

/-- Readings under all limits are one result that has nothing to do with the limit, cut off below
some depth. -/
def CutsOff (run : Nat → Except SyntaxError α) : Prop :=
  ∃ depth result, (∀ limit, result ≠ .error (.tooDeep limit)) ∧
    ∀ limit, run limit = if depth ≤ limit then result else .error (.tooDeep limit)

theorem CutsOff.of_eq {run run' : Nat → Except SyntaxError α} (h : ∀ limit, run limit = run' limit)
    (h' : CutsOff run') : CutsOff run := by
  rwa [funext h]

theorem cutsOff_const {result : Except SyntaxError α}
    (h : ∀ limit, result ≠ .error (.tooDeep limit)) : CutsOff fun _ => result :=
  ⟨0, result, h, fun limit => (if_pos (Nat.zero_le limit)).symm⟩

theorem cutsOff_ok (a : α) : CutsOff fun _ => .ok a :=
  cutsOff_const nofun

theorem cutsOff_error {error : SyntaxError} (h : ∀ limit, error ≠ .tooDeep limit) :
    CutsOff fun _ => (.error error : Except SyntaxError α) :=
  cutsOff_const fun limit heq => h limit (Except.error.inj heq)

theorem cutsOff_enter (size depth : Nat) : CutsOff fun limit => enter ⟨size, limit⟩ depth :=
  ⟨depth + 1, .ok (depth + 1), nofun, fun _ => rfl⟩

/-- Of two readings one after the other, the deeper one counts. -/
theorem CutsOff.bind {run : Nat → Except SyntaxError α} {next : Nat → α → Except SyntaxError β}
    (h : CutsOff run)
    (hnext : ∀ a limit, run limit = .ok a → CutsOff fun limit => next limit a) :
    CutsOff fun limit => run limit >>= next limit := by
  obtain ⟨depth, result, hresult, hrun⟩ := h
  cases result with
  | error error =>
    refine ⟨depth, .error error, fun limit heq => hresult limit ?_, fun limit => ?_⟩
    · rw [Except.error.inj heq]
    · simp only [hrun limit]
      split_ifs <;> rfl
  | ok a =>
    obtain ⟨depth', result', hresult', hrun'⟩ :=
      hnext a depth ((hrun depth).trans (if_pos le_rfl))
    refine ⟨max depth depth', result', hresult', fun limit => ?_⟩
    simp only [hrun limit, max_le_iff]
    by_cases hle : depth ≤ limit
    · simp only [hle, if_true, true_and]
      exact hrun' limit
    · simp only [hle, if_false, false_and]
      rfl

namespace Reading

/-- Positions are told from the length of the token list alone. -/
theorem cutsOff_at (cause : Nat → SyntaxError) (h : ∀ n limit, cause n ≠ .tooDeep limit)
    (size : Nat) (ts : List Token) :
    CutsOff fun limit => (.error (cause (position ⟨size, limit⟩ ts)) : Except SyntaxError α) :=
  show CutsOff fun _ => .error (cause (size - ts.length)) from cutsOff_error (h _)

mutual

theorem cutsOff_sum (size d : Nat) (ts : List Token) :
    CutsOff fun limit => taken (sum ⟨size, limit⟩ d ts) := by
  refine .of_eq (fun _ => taken_sum) ?_
  refine (cutsOff_product size d ts).bind fun (first, mid) limit hfirst => ?_
  have hshorter := length_lt_of_taken hfirst
  exact cutsOff_sumTail size d first mid
termination_by (ts.length, 5)

theorem cutsOff_sumTail (size d : Nat) (left : Expression) (ts : List Token) :
    CutsOff fun limit => continued (sumTail ⟨size, limit⟩ d left ts) := by
  rcases hts : ts with _ | ⟨token, after⟩
  · exact .of_eq (fun _ => continued_sumTail_nil) (cutsOff_ok _)
  have hafter : after.length < ts.length := by simp [hts]
  refine .of_eq (fun _ => continued_sumTail_cons) ?_
  cases sumOperator? token with
  | none => exact cutsOff_ok _
  | some op =>
    refine (cutsOff_product size d after).bind fun (term, mid) limit hterm => ?_
    have hshorter := length_lt_of_taken hterm
    exact cutsOff_sumTail size d (.binary op left term) mid
termination_by (ts.length, 0)

theorem cutsOff_product (size d : Nat) (ts : List Token) :
    CutsOff fun limit => taken (product ⟨size, limit⟩ d ts) := by
  refine .of_eq (fun _ => taken_product) ?_
  refine (cutsOff_operand size d ts).bind fun (first, mid) limit hfirst => ?_
  have hshorter := length_lt_of_taken hfirst
  exact cutsOff_productTail size d first mid
termination_by (ts.length, 4)

theorem cutsOff_productTail (size d : Nat) (left : Expression) (ts : List Token) :
    CutsOff fun limit => continued (productTail ⟨size, limit⟩ d left ts) := by
  rcases hts : ts with _ | ⟨token, after⟩
  · exact .of_eq (fun _ => continued_productTail_nil) (cutsOff_ok _)
  have hafter : after.length < ts.length := by simp [hts]
  by_cases hpercent : token = .percent
  · rw [hpercent]
    exact .of_eq (fun _ => continued_productTail_percent)
      (cutsOff_at .unsupportedPercent nofun size _)
  refine .of_eq (fun _ => continued_productTail_cons hpercent) ?_
  cases productOperator? token with
  | none => exact cutsOff_ok _
  | some op =>
    refine (cutsOff_operand size d after).bind fun (factor, mid) limit hfactor => ?_
    have hshorter := length_lt_of_taken hfactor
    exact cutsOff_productTail size d (.binary op left factor) mid
termination_by (ts.length, 0)

theorem cutsOff_operand (size d : Nat) (ts : List Token) :
    CutsOff fun limit => taken (operand ⟨size, limit⟩ d ts) := by
  by_cases hsign : ∃ (sign : Sign) (after : List Token), ts = sign.token :: after
  · obtain ⟨sign, after, hts⟩ := hsign
    have hafter : after.length < ts.length := by simp [hts]
    rw [hts]
    cases sign with
    | plus =>
      refine .of_eq (fun _ => taken_operand_plus) ?_
      exact (cutsOff_enter size d).bind fun inner _ _ => cutsOff_operand size inner after
    | minus =>
      refine .of_eq (fun _ => taken_operand_minus) ?_
      refine (cutsOff_enter size d).bind fun inner _ _ => ?_
      exact (cutsOff_operand size inner after).bind fun _ _ _ => cutsOff_ok _
  · simp only [not_exists] at hsign
    refine .of_eq (fun _ => congrArg taken (operand_eq_primary hsign)) ?_
    exact cutsOff_primary size d ts
termination_by (ts.length, 3)

theorem cutsOff_primary (size d : Nat) (ts : List Token) :
    CutsOff fun limit => taken (primary ⟨size, limit⟩ d ts) := by
  rcases hts : ts with _ | ⟨token, after⟩
  · exact .of_eq (fun _ => congrArg taken primary_nil) (cutsOff_error nofun)
  have hafter : after.length < ts.length := by simp [hts]
  cases token with
  | number value => exact .of_eq (fun _ => taken_primary_number) (cutsOff_ok _)
  | name text =>
    by_cases hopen : ∃ body, after = .openParen :: body
    · obtain ⟨body, hbody⟩ := hopen
      have hbody' : body.length < ts.length := by simp [hts, hbody]
      rw [hbody]
      refine .of_eq (fun _ => taken_primary_call) ?_
      cases Function.ofName? text with
      | none => exact cutsOff_error nofun
      | some f =>
        refine (cutsOff_enter size d).bind fun inner _ _ => ?_
        refine (cutsOff_arguments size inner body).bind fun (es, rest) _ _ => ?_
        by_cases harity : f.admits es.length = true
        · simp only [harity, if_true]
          exact cutsOff_ok _
        · simp only [harity]
          exact cutsOff_error nofun
    · simp only [not_exists] at hopen
      refine .of_eq (fun _ => taken_primary_name hopen) ?_
      cases Function.ofName? text with
      | none => exact cutsOff_ok _
      | some f => exact cutsOff_error nofun
  | openParen =>
    refine .of_eq (fun _ => taken_primary_group) ?_
    refine (cutsOff_enter size d).bind fun inner _ _ => ?_
    refine (cutsOff_sum size inner after).bind fun (value, rest) _ _ => ?_
    rcases rest with _ | ⟨token, rest⟩
    · exact cutsOff_error nofun
    · cases token with
      | closeParen => exact cutsOff_ok _
      | _ => exact cutsOff_error nofun
  | _ =>
    exact .of_eq (fun _ => primary_eq_unexpected rfl) (cutsOff_at .unexpectedToken nofun size _)
termination_by (ts.length, 2)

theorem cutsOff_arguments (size d : Nat) (ts : List Token) :
    CutsOff fun limit => taken (arguments ⟨size, limit⟩ d ts) := by
  by_cases hclose : ∃ after, ts = .closeParen :: after
  · obtain ⟨after, rfl⟩ := hclose
    exact .of_eq (fun _ => taken_arguments_closeParen) (cutsOff_ok _)
  · simp only [not_exists] at hclose
    refine .of_eq (fun _ => congrArg taken (arguments_eq_argumentList hclose)) ?_
    exact cutsOff_argumentList size d ts
termination_by (ts.length, 7)

theorem cutsOff_argumentList (size d : Nat) (ts : List Token) :
    CutsOff fun limit => taken (argumentList ⟨size, limit⟩ d ts) := by
  refine .of_eq (fun _ => taken_argumentList) ?_
  refine (cutsOff_sum size d ts).bind fun (first, mid) limit hfirst => ?_
  have hshorter := length_lt_of_taken hfirst
  rcases mid with _ | ⟨token, mid⟩
  · exact cutsOff_error nofun
  have hmid : mid.length < ts.length := mid.length.lt_succ_self.trans hshorter
  cases token with
  | comma => exact (cutsOff_argumentList size d mid).bind fun _ _ _ => cutsOff_ok _
  | closeParen => exact cutsOff_ok _
  | _ => exact cutsOff_error nofun
termination_by (ts.length, 6)

end

end Reading

theorem cutsOff_ofTokens (ts : List Token) : CutsOff fun limit => ofTokens limit ts := by
  rcases ts with _ | ⟨token, ts⟩
  · exact cutsOff_error nofun
  have hread (limit : Nat) : ofTokens limit (token :: ts) =
      taken (sum ⟨(token :: ts).length, limit⟩ 0 (token :: ts)) >>= fun read =>
        if read.2.isEmpty then .ok read.1
        else .error (.unexpectedToken (position ⟨(token :: ts).length, limit⟩ read.2)) := by
    simp only [ofTokens, List.isEmpty_cons, Bool.false_eq_true, if_false]
    cases sum ⟨(token :: ts).length, limit⟩ 0 (token :: ts) <;> rfl
  refine .of_eq hread ?_
  refine (cutsOff_sum _ 0 _).bind fun read _ _ => ?_
  rcases read with ⟨value, _ | ⟨next, rest⟩⟩
  · exact cutsOff_ok value
  · exact cutsOff_at .unexpectedToken nofun _ _

/-- Tokens are read without regard to their nesting. -/
theorem tokenizeFrom_ne_tooDeep {offset limit : Nat} {cs : List Char} :
    tokenizeFrom offset cs ≠ .error (.tooDeep limit) := by
  fun_induction tokenizeFrom offset cs with
  | case2 _ _ _ _ ih => exact ih
  | case3 | case5 | case7 =>
    rename_i ih
    exact mt map_eq_error_iff.1 ih
  | case1 | case4 | case6 | case8 => exact nofun

theorem cutsOff_parse (text : String) : CutsOff fun limit => parse limit text :=
  (cutsOff_const fun _ => tokenizeFrom_ne_tooDeep).bind fun ts _ _ => cutsOff_ofTokens ts

theorem CutsOff.eq_of_le {run : Nat → Except SyntaxError α} (h : CutsOff run) {limit limit' : Nat}
    (hle : limit ≤ limit') (hdeep : run limit ≠ .error (.tooDeep limit)) :
    run limit' = run limit := by
  obtain ⟨depth, result, -, hrun⟩ := h
  by_cases hdepth : depth ≤ limit
  · rw [hrun limit, hrun limit', if_pos hdepth, if_pos (hdepth.trans hle)]
  · exact absurd ((hrun limit).trans (if_neg hdepth)) hdeep

/-- There is a depth from which on the limit has no influence on what is read, and below which there
is the nesting error of the limit and nothing else. So a greater limit reads an accepted text as the
same expression, and refuses a text for the same reason if that reason was not the nesting. -/
theorem depth_limit_only_cuts_off (text : String) :
    (∃ depth result, (∀ limit, result ≠ .error (.tooDeep limit)) ∧
      ∀ limit, parse limit text =
        if depth ≤ limit then result else .error (.tooDeep limit)) ∧
    ∀ limit limit', limit ≤ limit' →
      (∀ e, parse limit text = .ok e → parse limit' text = .ok e) ∧
      ∀ error, parse limit text = .error error →
        error.message ≠ (SyntaxError.tooDeep limit).message →
        parse limit' text = .error error := by
  refine ⟨cutsOff_parse text, fun limit limit' hle => ⟨fun e he => ?_, fun error herror hne => ?_⟩⟩
  · have hdeep : parse limit text ≠ .error (.tooDeep limit) := by simp [he]
    exact ((cutsOff_parse text).eq_of_le hle hdeep).trans he
  · have hdeep : parse limit text ≠ .error (.tooDeep limit) := by
      rw [herror]
      rintro ⟨rfl⟩
      exact hne rfl
    exact ((cutsOff_parse text).eq_of_le hle hdeep).trans herror

/-- Two signs and a parenthesis need three levels; that the parenthesis is not closed is seen from
there on. -/
theorem depth_limit_only_cuts_off_of_open_parenthesis :
    parse 2 "+-(a" = .error (.tooDeep 2) ∧ parse 3 "+-(a" = .error .missingParenthesis ∧
      parse 32 "+-(a" = .error .missingParenthesis := by
  have hthree : parse 3 "+-(a" = .error .missingParenthesis := by cbv
  refine ⟨by cbv, hthree, ?_⟩
  exact ((depth_limit_only_cuts_off "+-(a").2 3 32 (by decide)).2 _ hthree (by decide)

end Expression

end Appraisal
