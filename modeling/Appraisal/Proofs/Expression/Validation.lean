import Appraisal.Proofs.Expression.Parsing
import Appraisal.Proofs.Expression.Scanning

/-!
# Validation and parsing

A text is valid exactly if it is short enough, can be read as an expression, and all variables of
the expression are available and not reserved. So the checks of single characters, words and
parentheses refuse nothing that the parser would read.
-/

namespace Appraisal.Expression

/-- The names among tokens that no function has. -/
def variablesOf (ts : List Token) : List String :=
  (ts.filterMap Token.name?).filter fun name => (Function.ofName? name).isNone

theorem variablesOf_append (ts ts' : List Token) :
    variablesOf (ts ++ ts') = variablesOf ts ++ variablesOf ts' := by
  simp [variablesOf]

theorem variablesOf_cons_of_none {token : Token} (h : token.name? = none) (ts : List Token) :
    variablesOf (token :: ts) = variablesOf ts := by
  rw [variablesOf, List.filterMap_cons_none h, variablesOf]

theorem variablesOf_cons_function (f : Function) (ts : List Token) :
    variablesOf (.name f.name :: ts) = variablesOf ts := by
  simp [variablesOf, Function.ofName?_name]

/-- What a derivation means has these variables. Further terms and factors add them to the ones on
their left. -/
def Mentions (names : List String) : (l : Level) → l.Meaning → Prop
  | .sum, e | .product, e | .operand, e | .primary, e => e.variableNames = names
  | .terms, f | .factors, f => ∀ left, (f left).variableNames = left.variableNames ++ names
  | .arguments, es | .argumentList, es => variableNamesOfAll es = names

theorem mentions_variablesOf {l : Level} {maxDepth depth : Nat} (t : ParseTree l)
    (ht : t.Within maxDepth depth) : Mentions (variablesOf t.tokens) l t.meaning := by
  induction t generalizing depth with
  | sum first more ihfirst ihmore | product first more ihfirst ihmore =>
    have hfirst := ihfirst ht.1
    have hmore := ihmore ht.2 first.meaning
    simp only [Mentions] at hfirst ⊢
    rw [ParseTree.tokens, variablesOf_append, ← hfirst]
    exact hmore
  | noTerms | noFactors =>
    intro left
    exact (List.append_nil _).symm
  | term sign next more ihnext ihmore | factor sign next more ihnext ihmore =>
    intro left
    have hnext := ihnext ht.1
    have hmore := ihmore ht.2 (.binary sign.operator left next.meaning)
    simp only [Mentions] at hnext
    rw [ParseTree.tokens, variablesOf_cons_of_none (by cases sign <;> rfl), variablesOf_append,
      ← hnext, ← List.append_assoc]
    exact hmore
  | plus inner ih => exact ih ht.2
  | minus inner ih => exact ih ht.2
  | unsigned inner ih | someArguments inner ih => exact ih ht
  | number value => rfl
  | var name =>
    have hname : (Function.ofName? name).isNone = true := Option.isNone_iff_eq_none.2 ht
    simp [Mentions, variablesOf, variableNames, hname]
  | group inner ih =>
    have hinner := ih ht.2
    simp only [Mentions] at hinner ⊢
    rw [ParseTree.tokens, variablesOf_cons_of_none rfl, variablesOf_append, ← hinner]
    exact (List.append_nil _).symm
  | call function inner ih =>
    have hinner := ih ht.2.1
    simp only [Mentions] at hinner ⊢
    rw [ParseTree.tokens, variablesOf_cons_function, variablesOf_cons_of_none rfl,
      variablesOf_append, ← hinner]
    exact (List.append_nil _).symm
  | noArguments => rfl
  | lastArgument argument ih =>
    have hargument := ih ht
    simp only [Mentions] at hargument ⊢
    rw [ParseTree.tokens, ← hargument]
    exact List.append_nil _
  | nextArgument argument more ih ihmore =>
    have hargument := ih ht.1
    have hmore := ihmore ht.2
    simp only [Mentions] at hargument hmore ⊢
    rw [ParseTree.tokens, variablesOf_append, variablesOf_cons_of_none rfl, ← hargument, ← hmore]
    rfl

/-- The parentheses of the tokens match and lead no deeper than `maxDepth`, if they stand within
`depth` others. -/
def Nests (maxDepth depth : Nat) (ts : List Token) : Prop :=
  ∀ deepest ≤ maxDepth, ∀ rest, ∃ deepest' ≤ maxDepth,
    nesting? depth deepest ((ts ++ rest).filterMap Token.parenthesis?) =
      nesting? depth deepest' (rest.filterMap Token.parenthesis?)

variable {maxDepth depth : Nat} {ts ts' : List Token} {token : Token}

theorem nests_nil : Nests maxDepth depth [] :=
  fun deepest h _ => ⟨deepest, h, rfl⟩

theorem Nests.append (h : Nests maxDepth depth ts) (h' : Nests maxDepth depth ts') :
    Nests maxDepth depth (ts ++ ts') := by
  intro deepest hdeepest rest
  obtain ⟨mid, hmid, hts⟩ := h deepest hdeepest (ts' ++ rest)
  obtain ⟨last, hlast, hts'⟩ := h' mid hmid rest
  exact ⟨last, hlast, by rw [List.append_assoc, hts, hts']⟩

theorem Nests.cons (htoken : token.parenthesis? = none) (h : Nests maxDepth depth ts) :
    Nests maxDepth depth (token :: ts) := by
  intro deepest hdeepest rest
  obtain ⟨last, hlast, hts⟩ := h deepest hdeepest rest
  exact ⟨last, hlast, by rw [List.cons_append, List.filterMap_cons_none htoken, hts]⟩

theorem Nests.group (hdepth : depth + 1 ≤ maxDepth) (h : Nests maxDepth (depth + 1) ts) :
    Nests maxDepth depth (.openParen :: (ts ++ [.closeParen])) := by
  intro deepest hdeepest rest
  obtain ⟨last, hlast, hts⟩ := h (max deepest (depth + 1)) (by omega) (.closeParen :: rest)
  refine ⟨last, hlast, ?_⟩
  rw [List.cons_append, List.append_assoc]
  exact hts

/-- Signs lead further in as well, so fewer parentheses than levels may be open. -/
theorem nests_tokens {l : Level} {level : Nat} (t : ParseTree l) (ht : t.Within maxDepth level)
    (hdepth : depth ≤ level) : Nests maxDepth depth t.tokens := by
  induction t generalizing depth level with
  | sum first more ihfirst ihmore | product first more ihfirst ihmore =>
    exact (ihfirst ht.1 hdepth).append (ihmore ht.2 hdepth)
  | term sign next more ihnext ihmore | factor sign next more ihnext ihmore =>
    exact .cons (by cases sign <;> rfl) ((ihnext ht.1 hdepth).append (ihmore ht.2 hdepth))
  | plus inner ih | minus inner ih => exact .cons rfl (ih ht.2 (by omega))
  | unsigned inner ih | someArguments inner ih | lastArgument inner ih => exact ih ht hdepth
  | number | var => exact .cons rfl nests_nil
  | group inner ih => exact .group (by have := ht.1; omega) (ih ht.2 (by omega))
  | call function inner ih =>
    exact .cons rfl (.group (by have := ht.1; omega) (ih ht.2.1 (by omega)))
  | nextArgument argument more ih ihmore =>
    exact (ih ht.1 hdepth).append (.cons rfl (ihmore ht.2 hdepth))
  | noTerms | noFactors | noArguments => exact nests_nil

theorem firstOccurrences_eq (names : List String) : firstOccurrences names = names.eraseDups := by
  have hfold (seen : List String) :
      names.foldl (fun seen name => if seen.contains name then seen else seen ++ [name]) seen =
        seen ++ (names.filter (!seen.contains ·)).eraseDups := by
    induction names generalizing seen with
    | nil => simp
    | cons name names ih =>
      rw [List.foldl_cons]
      by_cases hname : seen.contains name = true
      · rw [if_pos hname, ih, List.filter_cons_of_neg (by simpa using hname)]
      · rw [if_neg hname, ih, List.filter_cons_of_pos (by simpa using hname), List.eraseDups_cons,
          List.filter_filter, List.append_assoc, List.singleton_append]
        congr 3
        refine List.filter_congr fun other _ => ?_
        by_cases hother : other = name <;> simp [hother]
  exact (hfold []).trans (by simp)

theorem isReserved_eq_false_iff {name : String} :
    isReserved name = false ↔ ∀ reserved ∈ reservedNames, name.toLower ≠ reserved.toLower := by
  have hlower : ∀ reserved ∈ reservedNames, reserved.toList.map Char.toLower = reserved.toList := by
    decide
  simp only [isReserved, List.any_eq_false, decide_eq_true_eq]
  refine forall₂_congr fun reserved hreserved => not_congr ?_
  simp only [String.ext_iff, String.toLower, String.toList_map, String.toList_ofList,
    hlower reserved hreserved]
  exact eq_comm

theorem isNameStart_of_toLower {c : Char} (h : isNameStart c.toLower = true) :
    isNameStart c = true := by
  by_cases hupper : c.val ≥ 'A'.val ∧ c.val ≤ 'Z'.val
  · have hletter : c.isUpper = true := decide_eq_true hupper
    simp [isNameStart, Char.isAlpha, hletter]
  · rwa [Char.toLower, dif_neg hupper] at h

theorem isReserved_of_not_startsName {word : List Char} (h : startsName word = false) :
    isReserved (String.ofList word) = false := by
  have hstarts : ∀ reserved ∈ reservedNames, startsName reserved.toList = true := by decide
  simp only [isReserved, List.any_eq_false, decide_eq_true_eq, String.toList_ofList]
  rintro _ hreserved rfl
  have hword := hstarts _ hreserved
  cases word with
  | nil => simp [startsName] at hword
  | cons c word =>
    simp only [startsName, String.toList_ofList, List.map_cons, List.head?_cons, Option.any_some]
      at h hword
    simp [isNameStart_of_toLower hword] at h

theorem isReserved_of_isSome_ofName? {name : String} (h : (Function.ofName? name).isSome = true) :
    isReserved name = false := by
  obtain ⟨f, hf⟩ := Option.isSome_iff_exists.1 h
  rw [← Reading.name_of_ofName? hf]
  cases f <;> decide

theorem unsafePattern?_eq_none_iff {text : String} :
    unsafePattern? text = none ↔ (∀ c ∈ text.toList, isAllowedChar c = true) ∧
      ∀ word ∈ wordRuns text.toList, isReserved (String.ofList word) = false := by
  rw [unsafePattern?]
  cases hfind : text.toList.find? (!isAllowedChar ·) with
  | some c =>
    have hc := List.find?_some hfind
    have hmem := List.mem_of_find?_eq_some hfind
    simp only [reduceCtorEq, false_iff, not_and]
    intro hall
    simp [hall c hmem] at hc
  | none =>
    rw [List.find?_eq_none] at hfind
    simp_all

theorem structureIssue?_eq_none_iff {text : String} :
    structureIssue? maxDepth text = none ↔
      (∃ deepest ≤ maxDepth, nesting? 0 0 text.toList = some deepest) ∧
        ∃ e, parse maxDepth text = .ok e := by
  rw [structureIssue?]
  cases nesting? 0 0 text.toList with
  | none => simp
  | some deepest =>
    by_cases h : maxDepth < deepest
    · simp [h]
    · cases parse maxDepth text <;> simp [h, Nat.le_of_not_lt h]

variable {limits : Limits} {text : String} {available : List String} {e : Expression}

theorem isValid_validate :
    (validate limits text available).isValid = true ↔
      Text.isBlankText text = false ∧ text.length ≤ limits.maxLength ∧
        unsafePattern? text = none ∧ (∀ name ∈ usedVariables text, name ∈ available) ∧
        structureIssue? limits.maxDepth text = none := by
  rw [validate]
  by_cases hblank : Text.isBlankText text = true
  · simp [hblank, Validation.isValid]
  by_cases hlength : limits.maxLength < text.length
  · simp [hblank, hlength, Validation.isValid]
  have hle := Nat.le_of_not_lt hlength
  cases hpattern : unsafePattern? text with
  | some pattern => simp [hblank, hlength, Validation.isValid]
  | none =>
    cases hissue : structureIssue? limits.maxDepth text <;>
      simp [hblank, hlength, hle, Validation.isValid]

/-- Tokens of a text that is read as `e`. -/
structure Read (maxDepth : Nat) (text : String) (e : Expression) (ts : List Token) : Prop where
  spells : Spells text.toList ts
  ne_nil : ts ≠ []
  variablesOf_eq : variablesOf ts = e.variableNames
  nests : Nests maxDepth 0 ts

theorem exists_read_of_parse (h : parse maxDepth text = .ok e) : ∃ ts, Read maxDepth text e ts := by
  obtain ⟨ts, htokens, hts⟩ := bind_eq_ok_iff.1 h
  obtain ⟨hne, t, ⟨rfl, hwithin⟩, rfl⟩ := ofTokens_eq_ok_iff_derives.1 hts
  exact ⟨t.tokens, spells_of_tokenize htokens, hne, (mentions_variablesOf t hwithin).symm,
    nests_tokens t hwithin le_rfl⟩

namespace Read

theorem isBlankText_eq_false (h : Read maxDepth text e ts) : Text.isBlankText text = false := by
  by_contra hblank
  exact h.ne_nil (h.spells.eq_nil_of_isBlank (by simpa [Text.isBlankText] using hblank))

theorem usedVariables_eq (h : Read maxDepth text e ts) :
    usedVariables text = e.variableNames.eraseDups := by
  have hwords : (wordRuns text.toList).filter isVariableName =
      ((wordRuns text.toList).filter startsName).filter fun word =>
        (Function.ofName? (String.ofList word)).isNone := by
    rw [List.filter_filter]
    exact List.filter_congr fun word _ => Bool.and_comm ..
  rw [usedVariables, firstOccurrences_eq, ← h.variablesOf_eq, variablesOf,
    ← h.spells.filter_startsName_wordRuns, hwords, List.filter_map]
  rfl

theorem unsafePattern?_eq_none_iff (h : Read maxDepth text e ts) :
    unsafePattern? text = none ↔ ∀ name ∈ e.variableNames, isReserved name = false := by
  have hnames := h.spells.filter_startsName_wordRuns
  rw [Expression.unsafePattern?_eq_none_iff, and_iff_right h.spells.isAllowedChar_of_mem,
    ← h.variablesOf_eq]
  constructor
  · intro hwords name hname
    obtain ⟨hname, -⟩ := List.mem_filter.1 hname
    rw [← hnames] at hname
    obtain ⟨word, hword, rfl⟩ := List.mem_map.1 hname
    exact hwords word (List.mem_filter.1 hword).1
  · intro hvariables word hword
    by_cases hstarts : startsName word = true
    · have hname : String.ofList word ∈ ts.filterMap Token.name? :=
        hnames ▸ List.mem_map_of_mem (List.mem_filter.2 ⟨hword, hstarts⟩)
      cases hfunction : Function.ofName? (String.ofList word) with
      | some f => exact isReserved_of_isSome_ofName? (by simp [hfunction])
      | none => exact hvariables _ (List.mem_filter.2 ⟨hname, by simp [hfunction]⟩)
    · exact isReserved_of_not_startsName (by simpa using hstarts)

theorem structureIssue?_eq_none (h : Read maxDepth text e ts)
    (hparse : parse maxDepth text = .ok e) : structureIssue? maxDepth text = none := by
  obtain ⟨deepest, hdeepest, hnesting⟩ := h.nests 0 (Nat.zero_le _) []
  rw [List.append_nil, ← h.spells.nesting?_eq] at hnesting
  exact structureIssue?_eq_none_iff.2 ⟨⟨deepest, hdeepest, hnesting⟩, e, hparse⟩

end Read

/-- The checks of a validation besides the parser itself are about its variables. -/
theorem isValid_validate_iff_parse :
    (validate limits text available).isValid = true ↔ text.length ≤ limits.maxLength ∧
      ∃ e, parse limits.maxDepth text = .ok e ∧
        ∀ name ∈ e.variableNames, name ∈ available ∧ isReserved name = false := by
  rw [isValid_validate]
  constructor
  · rintro ⟨-, hlength, hpattern, havailable, hstructure⟩
    obtain ⟨-, e, he⟩ := structureIssue?_eq_none_iff.1 hstructure
    obtain ⟨ts, h⟩ := exists_read_of_parse he
    refine ⟨hlength, e, he, fun name hname => ⟨havailable name ?_, ?_⟩⟩
    · rw [h.usedVariables_eq]
      exact List.mem_eraseDups.2 hname
    · exact h.unsafePattern?_eq_none_iff.1 hpattern name hname
  · rintro ⟨hlength, e, he, hnames⟩
    obtain ⟨ts, h⟩ := exists_read_of_parse he
    refine ⟨h.isBlankText_eq_false, hlength, ?_, fun name hname => ?_, h.structureIssue?_eq_none he⟩
    · exact h.unsafePattern?_eq_none_iff.2 fun name hname => (hnames name hname).2
    · rw [h.usedVariables_eq] at hname
      exact (hnames name (List.mem_eraseDups.1 hname)).1

/-- A text is valid exactly if it is not too long and is read as an expression whose variables are
available and, whatever their case, not reserved. The variables of a text that is read are those
of the expression, each at its first place. -/
theorem isValid_validate_iff (limits : Limits) (text : String) (available : List String) :
    ((validate limits text available).isValid = true ↔ text.length ≤ limits.maxLength ∧
      ∃ e, parse limits.maxDepth text = .ok e ∧ ∀ name ∈ e.variableNames, name ∈ available ∧
        ∀ reserved ∈ reservedNames, name.toLower ≠ reserved.toLower) ∧
    ∀ maxDepth e, parse maxDepth text = .ok e →
      usedVariables text = e.variableNames.eraseDups := by
  refine ⟨?_, fun maxDepth e he => ?_⟩
  · simp only [isValid_validate_iff_parse, isReserved_eq_false_iff]
  · obtain ⟨ts, h⟩ := exists_read_of_parse he
    exact h.usedVariables_eq

end Appraisal.Expression
