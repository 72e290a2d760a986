import Appraisal.Expression.Parser
import Appraisal.Proofs.Expression.Parsing
import Mathlib

/-!
# Progress of the readers

Each reader is told once more without recursion, as a body that calls other readers and goes on
with what they have read. Every call that a body makes has fewer tokens left than its caller, or as
many and stands lower in the order of the readers. So the bodies alone say what the readers give, to
whatever depth the calls go, and no reader goes beyond the last token.
-/

namespace Appraisal

namespace Expression

open Reading (sumOperator? productOperator? taken continued)

/-- A call of a reader at a depth. The two loops have what they have read so far on their left. -/
inductive Call where
  | sum (depth : Nat) (tokens : List Token)
  | terms (depth : Nat) (left : Expression) (tokens : List Token)
  | product (depth : Nat) (tokens : List Token)
  | factors (depth : Nat) (left : Expression) (tokens : List Token)
  | operand (depth : Nat) (tokens : List Token)
  | primary (depth : Nat) (tokens : List Token)
  | arguments (depth : Nat) (tokens : List Token)
  | argumentList (depth : Nat) (tokens : List Token)

namespace Call

/-- The tokens that are left. -/
def tokens : Call → List Token
  | sum _ ts | terms _ _ ts | product _ ts | factors _ _ ts | operand _ ts | primary _ ts
  | arguments _ ts | argumentList _ ts => ts

abbrev Value : Call → Type
  | sum .. | terms .. | product .. | factors .. | operand .. | primary .. => Expression
  | arguments .. | argumentList .. => List Expression

/-- The loops may find nothing more to read. -/
def IsLoop : Call → Prop
  | terms .. | factors .. => True
  | _ => False

/-- The order of the readers. Without taking a token, each calls only lower ones. -/
def height : Call → Nat
  | arguments .. => 7
  | argumentList .. => 6
  | sum .. => 5
  | product .. => 4
  | operand .. => 3
  | primary .. => 2
  | terms .. | factors .. => 0

end Call

/-- What a reader does: it stops, or it calls a reader and goes on with what that one reads. -/
inductive Body (α : Type) where
  | stop (result : Except SyntaxError α)
  | call (c : Call) (next : c.Value × List Token → Body α)

namespace Body

variable {α : Type}

/-- The result if these are the results of the calls. -/
def run (answer : (c : Call) → Except SyntaxError (c.Value × List Token)) :
    Body α → Except SyntaxError α
  | stop result => result
  | call c next => answer c >>= fun read => (next read).run answer

/-- The calls that are made if these are their results. -/
inductive Makes (answer : (c : Call) → Except SyntaxError (c.Value × List Token)) :
    Body α → Call → Prop
  | here {c : Call} {next : c.Value × List Token → Body α} : Makes answer (call c next) c
  | later {c c' : Call} {next : c.Value × List Token → Body α} {read : c.Value × List Token}
      (hread : answer c = .ok read) (h : Makes answer (next read) c') :
      Makes answer (call c next) c'

/-- The result is told from the calls that are made. -/
theorem run_congr {answer answer' : (c : Call) → Except SyntaxError (c.Value × List Token)}
    {body : Body α} (h : ∀ c, body.Makes answer c → answer' c = answer c) :
    body.run answer' = body.run answer := by
  induction body with
  | stop result => rfl
  | call c next ih =>
    rw [run, run, h c .here]
    cases hread : answer c with
    | error => rfl
    | ok read => exact ih read fun c' hc' => h c' (.later hread hc')

@[simp] theorem makes_stop {answer : (c : Call) → Except SyntaxError (c.Value × List Token)}
    {result : Except SyntaxError α} {c : Call} : (stop result).Makes answer c ↔ False :=
  ⟨nofun, nofun⟩

@[simp] theorem makes_call {answer : (c : Call) → Except SyntaxError (c.Value × List Token)}
    {c c' : Call} {next : c.Value × List Token → Body α} :
    (call c next).Makes answer c' ↔
      c' = c ∨ ∃ read, answer c = .ok read ∧ (next read).Makes answer c' := by
  constructor
  · rintro (_ | ⟨hread, h⟩)
    · exact .inl rfl
    · exact .inr ⟨_, hread, h⟩
  · rintro (rfl | ⟨read, hread, h⟩)
    · exact .here
    · exact .later hread h

@[simp] theorem makes_call_stop {answer : (c : Call) → Except SyntaxError (c.Value × List Token)}
    {c c' : Call} {f : c.Value × List Token → Except SyntaxError α} :
    (call c (stop ∘ f)).Makes answer c' ↔ c' = c := by
  simp

/-- A body that is entered if the depth admits it. -/
def entering (entered : Except SyntaxError Nat) (next : Nat → Body α) : Body α :=
  match entered with
  | .error error => stop (.error error)
  | .ok inner => next inner

@[simp] theorem makes_entering {answer : (c : Call) → Except SyntaxError (c.Value × List Token)}
    {entered : Except SyntaxError Nat} {next : Nat → Body α} {c : Call} :
    (entering entered next).Makes answer c ↔
      ∃ inner, entered = .ok inner ∧ (next inner).Makes answer c := by
  cases entered <;> simp [entering]

end Body

namespace Reading

/-- What a call gives. -/
def result (r : Reading) : (c : Call) → Except SyntaxError (c.Value × List Token)
  | .sum d ts => taken (r.sum d ts)
  | .terms d left ts => continued (r.sumTail d left ts)
  | .product d ts => taken (r.product d ts)
  | .factors d left ts => continued (r.productTail d left ts)
  | .operand d ts => taken (r.operand d ts)
  | .primary d ts => taken (r.primary d ts)
  | .arguments d ts => taken (r.arguments d ts)
  | .argumentList d ts => taken (r.argumentList d ts)

/-- What a call does. -/
def body (r : Reading) : (c : Call) → Body (c.Value × List Token)
  | .sum d ts => .call (.product d ts) fun first => .call (.terms d first.1 first.2) (.stop ∘ .ok)
  | .terms _ left [] => .stop (.ok (left, []))
  | .terms d left (token :: ts) =>
    match sumOperator? token with
    | none => .stop (.ok (left, token :: ts))
    | some op => .call (.product d ts) fun term =>
      .call (.terms d (.binary op left term.1) term.2) (.stop ∘ .ok)
  | .product d ts =>
    .call (.operand d ts) fun first => .call (.factors d first.1 first.2) (.stop ∘ .ok)
  | .factors _ left [] => .stop (.ok (left, []))
  | .factors _ _ (.percent :: ts) =>
    .stop (.error (.unsupportedPercent (r.position (.percent :: ts))))
  | .factors d left (token :: ts) =>
    match productOperator? token with
    | none => .stop (.ok (left, token :: ts))
    | some op => .call (.operand d ts) fun factor =>
      .call (.factors d (.binary op left factor.1) factor.2) (.stop ∘ .ok)
  | .operand d (.plus :: ts) =>
    .entering (r.enter d) fun inner => .call (.operand inner ts) (.stop ∘ .ok)
  | .operand d (.minus :: ts) =>
    .entering (r.enter d) fun inner => .call (.operand inner ts) fun read =>
      .stop (.ok (.binary .sub (.number 0) read.1, read.2))
  | .operand d ts => .call (.primary d ts) (.stop ∘ .ok)
  | .primary _ [] => .stop (.error .unexpectedEnd)
  | .primary _ (.number value :: ts) => .stop (.ok (.number value, ts))
  | .primary d (.name text :: .openParen :: ts) =>
    match Function.ofName? text with
    | none => .stop (.error (.unknownFunction text))
    | some f => .entering (r.enter d) fun inner => .call (.arguments inner ts) fun read =>
      .stop (if f.admits read.1.length then .ok (.call f read.1, read.2)
        else .error (.wrongArity f))
  | .primary _ (.name text :: ts) =>
    match Function.ofName? text with
    | none => .stop (.ok (.var text, ts))
    | some f => .stop (.error (.notCalled f))
  | .primary d (.openParen :: ts) =>
    .entering (r.enter d) fun inner => .call (.sum inner ts) fun read =>
      match read.2 with
      | .closeParen :: after => .stop (.ok (read.1, after))
      | [] => .stop (.error .missingParenthesis)
      | _ => .stop (.error .expectedParenthesis)
  | .primary _ ts => .stop (.error (.unexpectedToken (r.position ts)))
  | .arguments _ (.closeParen :: ts) => .stop (.ok ([], ts))
  | .arguments d ts => .call (.argumentList d ts) (.stop ∘ .ok)
  | .argumentList d ts => .call (.sum d ts) fun first =>
    match first.2 with
    | .comma :: more => .call (.argumentList d more) fun others =>
      .stop (.ok (first.1 :: others.1, others.2))
    | .closeParen :: after => .stop (.ok ([first.1], after))
    | [] => .stop (.error .missingParenthesis)
    | _ => .stop (.error .expectedSeparator)

/-- One call makes the other. -/
def Calls (r : Reading) (c c' : Call) : Prop :=
  (r.body c).Makes r.result c'

theorem run_entering {α : Type} {answer : (c : Call) → Except SyntaxError (c.Value × List Token)}
    (entered : Except SyntaxError Nat) (next : Nat → Body α) :
    (Body.entering entered next).run answer = entered >>= fun inner => (next inner).run answer := by
  cases entered <;> rfl

/-- The readers do what the bodies say. -/
theorem run_body (r : Reading) (c : Call) : (r.body c).run r.result = r.result c := by
  have hstop {α : Type} (x : Except SyntaxError α) :
      (x >>= fun a => (Body.stop (.ok a)).run r.result) = x := by
    cases x <;> rfl
  cases c with
  | sum d ts =>
    rw [result, taken_sum]
    exact congrArg _ (funext fun first => hstop _)
  | terms d left ts =>
    rcases ts with _ | ⟨token, ts⟩
    · exact continued_sumTail_nil.symm
    · rw [result, continued_sumTail_cons, body]
      cases sumOperator? token with
      | none => rfl
      | some op => exact congrArg _ (funext fun term => hstop _)
  | product d ts =>
    rw [result, taken_product]
    exact congrArg _ (funext fun first => hstop _)
  | factors d left ts =>
    rcases ts with _ | ⟨token, ts⟩
    · exact continued_productTail_nil.symm
    · by_cases hpercent : token = .percent
      · rw [hpercent]
        exact continued_productTail_percent.symm
      · rw [result, continued_productTail_cons hpercent, body]
        · cases productOperator? token with
          | none => rfl
          | some op => exact congrArg _ (funext fun term => hstop _)
        · exact hpercent
  | operand d ts =>
    by_cases hsign : ∃ (sign : Sign) (after : List Token), ts = sign.token :: after
    · obtain ⟨sign, after, rfl⟩ := hsign
      cases sign with
      | plus =>
        rw [Sign.token, result, taken_operand_plus, body, run_entering]
        exact congrArg _ (funext fun inner => hstop _)
      | minus =>
        rw [Sign.token, result, taken_operand_minus, body, run_entering]
        rfl
    · simp only [not_exists] at hsign
      rw [result, operand_eq_primary hsign, body]
      · exact hstop _
      · exact hsign .plus
      · exact hsign .minus
  | primary d ts =>
    rcases ts with _ | ⟨token, ts⟩
    · rw [result, primary_nil]
      rfl
    cases token with
    | number value => exact taken_primary_number.symm
    | name text =>
      by_cases hopen : ∃ after, ts = .openParen :: after
      · obtain ⟨after, rfl⟩ := hopen
        rw [result, taken_primary_call, body]
        cases Function.ofName? text with
        | none => rfl
        | some f => exact run_entering _ _
      · simp only [not_exists] at hopen
        rw [result, taken_primary_name hopen, body]
        · cases Function.ofName? text <;> rfl
        · exact hopen
    | openParen =>
      rw [result, taken_primary_group, body, run_entering]
      refine congrArg _ (funext fun inner => congrArg _ (funext fun read => ?_))
      obtain ⟨value, rest⟩ := read
      rcases rest with _ | ⟨token, rest⟩
      · rfl
      · cases token <;> rfl
    | _ => exact (primary_eq_unexpected rfl).symm
  | arguments d ts =>
    by_cases hclose : ∃ after, ts = .closeParen :: after
    · obtain ⟨after, rfl⟩ := hclose
      exact taken_arguments_closeParen.symm
    · simp only [not_exists] at hclose
      rw [result, arguments_eq_argumentList hclose, body]
      · exact hstop _
      · exact hclose
  | argumentList d ts =>
    rw [result, taken_argumentList]
    refine congrArg _ (funext fun first => ?_)
    obtain ⟨value, rest⟩ := first
    rcases rest with _ | ⟨token, rest⟩
    · rfl
    · cases token <;> rfl

variable {r : Reading} {c c' : Call} {rest : List Token}

/-- What a reader leaves is the end of what it was given. -/
theorem suffix_of_result {value : c.Value} (h : r.result c = .ok (value, rest)) :
    rest <:+ c.tokens := by
  cases c with
  | sum d ts =>
    obtain ⟨t, htokens, -⟩ := sum_sound h
    exact ⟨_, htokens⟩
  | terms d left ts =>
    obtain ⟨t, htokens, -⟩ := sumTail_sound h
    exact ⟨_, htokens⟩
  | product d ts =>
    obtain ⟨t, htokens, -⟩ := product_sound h
    exact ⟨_, htokens⟩
  | factors d left ts =>
    obtain ⟨t, htokens, -⟩ := productTail_sound h
    exact ⟨_, htokens⟩
  | operand d ts =>
    obtain ⟨t, htokens, -⟩ := operand_sound h
    exact ⟨_, htokens⟩
  | primary d ts =>
    obtain ⟨t, htokens, -⟩ := primary_sound h
    exact ⟨_, htokens⟩
  | arguments d ts =>
    obtain ⟨t, htokens, -⟩ := arguments_sound h
    exact (List.suffix_cons _ _).trans ⟨_, htokens⟩
  | argumentList d ts =>
    obtain ⟨t, htokens, -⟩ := argumentList_sound h
    exact (List.suffix_cons _ _).trans ⟨_, htokens⟩

theorem length_lt_of_result (hloop : ¬ c.IsLoop) {value : c.Value}
    (h : r.result c = .ok (value, rest)) : rest.length < c.tokens.length := by
  cases c with
  | terms | factors => exact absurd trivial hloop
  | _ => exact length_lt_of_taken h

/-- A call has less to do than another one: it stands at the end of its tokens and has fewer left,
or as many but is of a lower reader. -/
structure Below (c' c : Call) : Prop where
  suffix : c'.tokens <:+ c.tokens
  lex : Prod.Lex (· < ·) (· < ·) (c'.tokens.length, c'.height) (c.tokens.length, c.height)

theorem below_of_height (h : c'.tokens = c.tokens) (hlt : c'.height < c.height) : Below c' c where
  suffix := h ▸ List.suffix_refl _
  lex := h ▸ .right _ hlt

theorem below_of_length (h : c'.tokens <:+ c.tokens)
    (hlt : c'.tokens.length < c.tokens.length) : Below c' c where
  suffix := h
  lex := .left _ _ hlt

/-- A reader that goes on behind what another one has read: there are fewer tokens than in front of
that one. -/
theorem below_of_continued {α : Type} {c₀ : Call} {next : c₀.Value × List Token → Call}
    {f : ∀ read, (next read).Value × List Token → Except SyntaxError α}
    (h : (Body.call c₀ fun read => .call (next read) (.stop ∘ f read)).Makes r.result c')
    (hnext : ∀ read, (next read).tokens = read.2) (hloop : ¬ c₀.IsLoop) (hbelow : Below c₀ c) :
    Below c' c := by
  obtain rfl | ⟨read, hread, h⟩ := Body.makes_call.1 h
  · exact hbelow
  · rw [Body.makes_call_stop.1 h]
    have hrest : r.result c₀ = .ok (read.1, (next read).tokens) := by rw [hnext, hread]
    exact below_of_length ((suffix_of_result hrest).trans hbelow.suffix)
      ((length_lt_of_result hloop hrest).trans_le hbelow.suffix.length_le)

theorem below_of_calls (h : r.Calls c c') : Below c' c := by
  unfold Calls at h
  cases c with
  | sum d ts =>
    exact below_of_continued h (fun _ => rfl) id (below_of_height rfl (Nat.lt_succ_self 4))
  | terms d left ts =>
    rcases ts with _ | ⟨token, ts⟩
    · exact (Body.makes_stop.1 h).elim
    rw [body] at h
    cases hop : sumOperator? token with
    | none =>
      rw [hop] at h
      exact (Body.makes_stop.1 h).elim
    | some op =>
      rw [hop] at h
      have hbelow : Below (.product d ts) (.terms d left (token :: ts)) :=
        below_of_length (List.suffix_cons token ts) (Nat.lt_succ_self _)
      exact below_of_continued h (fun _ => rfl) id hbelow
  | product d ts =>
    exact below_of_continued h (fun _ => rfl) id (below_of_height rfl (Nat.lt_succ_self 3))
  | factors d left ts =>
    rcases ts with _ | ⟨token, ts⟩
    · exact (Body.makes_stop.1 h).elim
    by_cases hpercent : token = .percent
    · rw [hpercent] at h
      exact (Body.makes_stop.1 h).elim
    rw [body] at h
    · cases hop : productOperator? token with
      | none =>
        rw [hop] at h
        exact (Body.makes_stop.1 h).elim
      | some op =>
        rw [hop] at h
        have hbelow : Below (.operand d ts) (.factors d left (token :: ts)) :=
          below_of_length (List.suffix_cons token ts) (Nat.lt_succ_self _)
        exact below_of_continued h (fun _ => rfl) id hbelow
    · exact hpercent
  | operand d ts =>
    by_cases hsign : ∃ (sign : Sign) (after : List Token), ts = sign.token :: after
    · obtain ⟨sign, after, rfl⟩ := hsign
      have hcall (inner : Nat) : Below (.operand inner after) (.operand d (sign.token :: after)) :=
        below_of_length (List.suffix_cons sign.token after) (Nat.lt_succ_self _)
      cases sign with
      | plus =>
        obtain ⟨inner, -, h⟩ := Body.makes_entering.1 h
        rw [Body.makes_call_stop.1 h]
        exact hcall inner
      | minus =>
        obtain ⟨inner, -, h⟩ := Body.makes_entering.1 h
        obtain rfl | ⟨_, _, h⟩ := Body.makes_call.1 h
        · exact hcall inner
        · exact (Body.makes_stop.1 h).elim
    · simp only [not_exists] at hsign
      rw [body, Body.makes_call_stop] at h
      · rw [h]
        exact below_of_height rfl (Nat.lt_succ_self 2)
      · exact hsign .plus
      · exact hsign .minus
  | primary d ts =>
    rcases ts with _ | ⟨token, ts⟩
    · exact (Body.makes_stop.1 h).elim
    cases token with
    | name text =>
      by_cases hopen : ∃ after, ts = .openParen :: after
      · obtain ⟨after, rfl⟩ := hopen
        rw [body] at h
        cases hf : Function.ofName? text with
        | none =>
          rw [hf] at h
          exact (Body.makes_stop.1 h).elim
        | some f =>
          rw [hf] at h
          obtain ⟨inner, -, h⟩ := Body.makes_entering.1 h
          obtain rfl | ⟨_, _, h⟩ := Body.makes_call.1 h
          · exact below_of_length ((List.suffix_cons _ after).trans (List.suffix_cons _ _))
              (Nat.lt_succ_of_lt (Nat.lt_succ_self _))
          · exact (Body.makes_stop.1 h).elim
      · simp only [not_exists] at hopen
        rw [body] at h
        · cases hf : Function.ofName? text <;> rw [hf] at h <;> exact (Body.makes_stop.1 h).elim
        · exact hopen
    | openParen =>
      obtain ⟨inner, -, h⟩ := Body.makes_entering.1 h
      obtain rfl | ⟨⟨value, rest⟩, _, h⟩ := Body.makes_call.1 h
      · exact below_of_length (List.suffix_cons _ ts) (Nat.lt_succ_self _)
      · rcases rest with _ | ⟨token, rest⟩
        · exact (Body.makes_stop.1 h).elim
        · cases token <;> exact (Body.makes_stop.1 h).elim
    | _ => exact (Body.makes_stop.1 h).elim
  | arguments d ts =>
    by_cases hclose : ∃ after, ts = .closeParen :: after
    · obtain ⟨after, rfl⟩ := hclose
      exact (Body.makes_stop.1 h).elim
    · simp only [not_exists] at hclose
      rw [body, Body.makes_call_stop] at h
      · rw [h]
        exact below_of_height rfl (Nat.lt_succ_self 6)
      · exact hclose
  | argumentList d ts =>
    rw [body, Body.makes_call] at h
    obtain rfl | ⟨⟨value, rest⟩, hfirst, h⟩ := h
    · exact below_of_height rfl (Nat.lt_succ_self 5)
    rcases rest with _ | ⟨token, rest⟩
    · exact (Body.makes_stop.1 h).elim
    cases token with
    | comma =>
      obtain rfl | ⟨_, _, h⟩ := Body.makes_call.1 h
      · have hsuffix := (List.suffix_cons .comma rest).trans (suffix_of_result hfirst)
        exact below_of_length hsuffix ((Nat.lt_succ_self _).trans (length_lt_of_result id hfirst))
      · exact (Body.makes_stop.1 h).elim
    | _ => exact (Body.makes_stop.1 h).elim

/-- There is no endless chain of calls. -/
theorem wellFounded_calls (r : Reading) : WellFounded fun c' c => r.Calls c c' := by
  have hlex : WellFounded (Prod.Lex (· < ·) (· < ·) : Nat × Nat → Nat × Nat → Prop) :=
    (Prod.lex Nat.lt_wfRel Nat.lt_wfRel).wf
  exact Subrelation.wf (fun h => (below_of_calls h).lex)
    (InvImage.wf (fun c : Call => (c.tokens.length, c.height)) hlex)

/-- The bodies have no other results than those of the readers. -/
theorem eq_result {answer : (c : Call) → Except SyntaxError (c.Value × List Token)}
    (h : ∀ c, (r.body c).run answer = answer c) : ∀ c, answer c = r.result c := by
  intro c
  induction c using (wellFounded_calls r).induction with
  | _ c ih =>
    rw [← h c, ← run_body r c]
    exact Body.run_congr ih

theorem position_of_suffix {tokens ts : List Token} {pos : Nat} (maxDepth : Nat)
    (h : ts <:+ tokens.drop pos) :
    let next := position ⟨tokens.length, maxDepth⟩ ts
    ts = tokens.drop next ∧ next ≤ tokens.length ∧ (pos ≤ tokens.length → pos ≤ next) ∧
      (ts.length < (tokens.drop pos).length → pos < next) := by
  have hle := h.length_le
  rw [List.length_drop] at hle ⊢
  refine ⟨List.suffix_iff_eq_drop.1 (h.trans (List.drop_suffix pos tokens)), ?_, ?_, ?_⟩ <;>
    simp only [position] <;> omega

end Reading

/-- Every reader that succeeds takes at least one token and stops at a later position, at the latest
behind the last token; only the two loops may take none. Every call that it makes on its way starts
no earlier and at the latest behind the last token, and has fewer tokens left, or as many but is of
a lower reader. So no chain of calls is endless, and what the readers do, one by one, tells what
they give. -/
theorem readers_advance (tokens : List Token) (maxDepth : Nat) :
    let r : Reading := ⟨tokens.length, maxDepth⟩
    (∀ pos c value rest, c.tokens = tokens.drop pos → r.result c = .ok (value, rest) →
      rest = tokens.drop (r.position rest) ∧ r.position rest ≤ tokens.length ∧
        (¬ c.IsLoop → pos < r.position rest) ∧
        (c.IsLoop → pos ≤ tokens.length → pos ≤ r.position rest)) ∧
    (∀ pos c c', c.tokens = tokens.drop pos → pos ≤ tokens.length → r.Calls c c' →
      c'.tokens = tokens.drop (r.position c'.tokens) ∧ r.position c'.tokens ≤ tokens.length ∧
        pos ≤ r.position c'.tokens ∧
        Prod.Lex (· < ·) (· < ·) (c'.tokens.length, c'.height) (c.tokens.length, c.height)) ∧
    (WellFounded fun c' c => r.Calls c c') ∧
    (∀ c, (r.body c).run r.result = r.result c) ∧
    ∀ answer : (c : Call) → Except SyntaxError (c.Value × List Token),
      (∀ c, (r.body c).run answer = answer c) → ∀ c, answer c = r.result c := by
  intro r
  refine ⟨?_, ?_, r.wellFounded_calls, r.run_body, fun answer => r.eq_result⟩
  · intro pos c value rest hc h
    have hsuffix : rest <:+ tokens.drop pos := hc ▸ Reading.suffix_of_result h
    obtain ⟨hrest, hend, hle, hlt⟩ := Reading.position_of_suffix maxDepth hsuffix
    exact ⟨hrest, hend, fun hloop => hlt (hc ▸ Reading.length_lt_of_result hloop h), fun _ => hle⟩
  · intro pos c c' hc hpos h
    have hbelow := Reading.below_of_calls h
    have hsuffix : c'.tokens <:+ tokens.drop pos := hc ▸ hbelow.suffix
    obtain ⟨hrest, hend, hle, -⟩ := Reading.position_of_suffix maxDepth hsuffix
    exact ⟨hrest, hend, hle hpos, hbelow.lex⟩

/-- The arguments of a call with two of them, from the third token on. -/
theorem readers_advance_of_arguments :
    let tokens : List Token :=
      [.name "max", .openParen, .name "a", .comma, .minus, .name "b", .closeParen, .star]
    let r : Reading := ⟨tokens.length, 2⟩
    let value := [.var "a", .binary .sub (.number 0) (.var "b")]
    r.result (.arguments 1 (tokens.drop 2)) = .ok (value, [.star]) ∧ r.position [.star] = 7 ∧
      2 < r.position [.star] ∧ r.position [.star] ≤ tokens.length := by
  intro tokens r value
  have hread : r.result (.arguments 1 (tokens.drop 2)) = .ok (value, [.star]) := by cbv
  obtain ⟨-, hend, hlt, -⟩ :=
    (readers_advance tokens 2).1 2 (.arguments 1 (tokens.drop 2)) value _ rfl hread
  exact ⟨hread, rfl, hlt id, hend⟩

end Expression

end Appraisal
