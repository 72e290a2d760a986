import Appraisal.Expression.Validation
import Appraisal.Proofs.Except
import Mathlib

/-!
# Texts and their tokens

A validation looks at the characters of a text, the parser at its tokens. How a text spells tokens
is said once, as a relation. What a validation sees is then told from the tokens: the runs of words
from the names among them, and the nesting from the parentheses.
-/

namespace Appraisal.Expression

variable {c : Char} {cs rest : List Char} {token : Token} {ts : List Token}

@[simp] def Token.name? : Token → Option String
  | .name text => some text
  | _ => none

/-- The parenthesis that a token is. -/
@[simp] def Token.parenthesis? : Token → Option Char
  | .openParen => some '('
  | .closeParen => some ')'
  | _ => none

theorem isWordChar_of_isNameStart (h : isNameStart c = true) : isWordChar c = true := by
  simp only [isNameStart, isWordChar, Char.isAlphanum, Bool.or_eq_true] at h ⊢
  exact h.imp_left .inl

/-- The characters of words, by code point. -/
theorem toNat_of_isWordChar (h : isWordChar c = true) :
    48 ≤ c.toNat ∧ c.toNat ≤ 57 ∨ 65 ≤ c.toNat ∧ c.toNat ≤ 90 ∨ c.toNat = 95 ∨
      97 ≤ c.toNat ∧ c.toNat ≤ 122 := by
  simp only [isWordChar, Char.isAlphanum, Char.isAlpha, Char.isUpper, Char.isLower, Char.isDigit,
    Bool.or_eq_true, Bool.and_eq_true, decide_eq_true_eq] at h
  rcases h with ((h | h) | h) | rfl
  · exact .inr (.inl h)
  · exact .inr (.inr (.inr h))
  · exact .inl h
  · exact .inr (.inr (.inl rfl))

theorem isWordChar_of_isBlank (h : Text.isBlank c = true) : isWordChar c = false := by
  by_contra hword
  have hrange := toNat_of_isWordChar (by simpa using hword)
  simp only [Text.isBlank, Text.inRanges_iff, Text.blankRanges, List.mem_cons, List.not_mem_nil,
    or_false, exists_eq_or_imp, exists_eq_left] at h
  omega

/-- A symbol is no part of a word, no blank and no name, and may stand in an expression. -/
theorem classes_of_symbol? (h : symbol? c = some token) :
    isWordChar c = false ∧ Text.isBlank c = false ∧ isAllowedChar c = true ∧
      token.name? = none := by
  unfold symbol? at h
  split at h <;> cases h <;> decide

theorem isWordChar_or_eq_of_isNumeralChar (h : isNumeralChar c = true) :
    isWordChar c = true ∧ isNameStart c = false ∨ c = '.' := by
  simp only [isNumeralChar, Bool.or_eq_true, decide_eq_true_eq] at h
  refine h.imp_left fun hdigit => ⟨by simp [isWordChar, Char.isAlphanum, hdigit], ?_⟩
  by_contra hname
  simp only [isNameStart, Char.isAlpha, Char.isUpper, Char.isLower, Char.isDigit, Bool.or_eq_true,
    Bool.and_eq_true, decide_eq_true_eq, Bool.not_eq_false] at hname hdigit
  have hlow : c.toNat ≤ 57 := hdigit.2
  rcases hname with (hname | hname) | rfl
  · have hhigh : 65 ≤ c.toNat := hname.1
    omega
  · have hhigh : 97 ≤ c.toNat := hname.1
    omega
  · exact absurd hlow (by decide)

/-- The text spells the tokens. A number or a name ends where none of its characters follows, and
no name follows a number. -/
inductive Spells : List Char → List Token → Prop
  | nil : Spells [] []
  | blank {c : Char} {cs : List Char} {ts : List Token} (hc : Text.isBlank c = true)
      (h : Spells cs ts) : Spells (c :: cs) ts
  | symbol {c : Char} {cs : List Char} {token : Token} {ts : List Token}
      (hc : symbol? c = some token) (h : Spells cs ts) : Spells (c :: cs) (token :: ts)
  | number {c : Char} {numeral rest : List Char} {value : Float} {ts : List Token}
      (hnumeral : ∀ d ∈ c :: numeral, isNumeralChar d = true)
      (hvalue : readNumeral? (c :: numeral) = some value)
      (hrest : ∀ d ∈ rest.head?, isWordChar d = false) (h : Spells rest ts) :
      Spells (c :: numeral ++ rest) (.number value :: ts)
  | name {c : Char} {word rest : List Char} {ts : List Token} (hc : isNameStart c = true)
      (hword : ∀ d ∈ c :: word, isWordChar d = true)
      (hrest : ∀ d ∈ rest.head?, isWordChar d = false) (h : Spells rest ts) :
      Spells (c :: word ++ rest) (.name (String.ofList (c :: word)) :: ts)

theorem mem_head?_dropWhile {p : Char → Bool} (h : c ∈ (cs.dropWhile p).head?) : p c = false := by
  have hhead := List.head?_dropWhile_not p cs
  rw [Option.mem_def.1 h] at hhead
  exact hhead

theorem spells_of_tokenizeFrom {offset : Nat} (h : tokenizeFrom offset cs = .ok ts) :
    Spells cs ts := by
  fun_induction tokenizeFrom offset cs generalizing ts with
  | case1 =>
    cases h
    exact .nil
  | case2 offset c rest hblank ih => exact .blank hblank (ih h)
  | case3 offset c rest _ token hsymbol ih =>
    obtain ⟨ts, hts, rfl⟩ := map_eq_ok_iff.1 h
    exact .symbol hsymbol (ih hts)
  | case5 offset c rest _ _ hc numeral _ hnext value hvalue =>
    rename_i ih
    obtain ⟨ts, hts, rfl⟩ := map_eq_ok_iff.1 h
    rw [← List.takeWhile_append_dropWhile (p := isNumeralChar) (l := rest), ← List.cons_append]
    refine .number ?_ hvalue ?_ (ih hts)
    · intro d hd
      rcases List.mem_cons.1 hd with rfl | hd
      · exact hc
      · exact List.mem_takeWhile_imp hd
    · intro d hd
      rw [Option.mem_def.1 hd] at hnext
      simpa using hnext
  | case7 offset c rest _ _ _ hc word _ =>
    rename_i ih
    obtain ⟨ts, hts, rfl⟩ := map_eq_ok_iff.1 h
    rw [← List.takeWhile_append_dropWhile (p := isWordChar) (l := rest), ← List.cons_append]
    refine .name hc ?_ (fun _ => mem_head?_dropWhile) (ih hts)
    intro d hd
    rcases List.mem_cons.1 hd with rfl | hd
    · exact isWordChar_of_isNameStart hc
    · exact List.mem_takeWhile_imp hd
  | case4 | case6 | case8 => cases h

theorem spells_of_tokenize {text : String} (h : tokenize text = .ok ts) : Spells text.toList ts :=
  spells_of_tokenizeFrom h

theorem takeWhile_append_of_head {p : Char → Bool} (h : ∀ d ∈ rest.head?, p d = false)
    (cs : List Char) : (cs ++ rest).takeWhile p = cs.takeWhile p := by
  induction cs with
  | nil => cases rest <;> simp_all
  | cons c cs ih => cases hc : p c <;> simp [hc, ih]

theorem dropWhile_append_of_head {p : Char → Bool} (h : ∀ d ∈ rest.head?, p d = false)
    (cs : List Char) : (cs ++ rest).dropWhile p = cs.dropWhile p ++ rest := by
  induction cs with
  | nil => cases rest <;> simp_all
  | cons c cs ih => cases hc : p c <;> simp [hc, ih]

theorem wordRuns_cons_of_not (h : isWordChar c = false) (cs : List Char) :
    wordRuns (c :: cs) = wordRuns cs := by
  simp [wordRuns, h]

theorem wordRuns_append (h : ∀ d ∈ rest.head?, isWordChar d = false) (cs : List Char) :
    wordRuns (cs ++ rest) = wordRuns cs ++ wordRuns rest := by
  fun_induction wordRuns cs with
  | case1 => rfl
  | case2 c cs hc _ =>
    rename_i ih
    rw [List.cons_append, wordRuns, if_pos hc, takeWhile_append_of_head h,
      dropWhile_append_of_head h, ih, List.cons_append]
  | case3 c cs hc ih => rw [List.cons_append, wordRuns_cons_of_not (by simpa using hc), ih]

theorem wordRuns_of_forall {word : List Char} (h : ∀ d ∈ c :: word, isWordChar d = true) :
    wordRuns (c :: word) = [c :: word] := by
  have hword : ∀ d ∈ word, isWordChar d = true := fun d hd => h d (List.mem_cons_of_mem c hd)
  rw [wordRuns, if_pos (h c List.mem_cons_self), List.takeWhile_eq_self_iff.2 hword,
    List.dropWhile_eq_nil_iff.2 hword, wordRuns]

theorem exists_head_of_mem_wordRuns {word : List Char} (h : word ∈ wordRuns cs) :
    ∃ c ∈ cs, isWordChar c = true ∧ word.head? = some c := by
  fun_induction wordRuns cs with
  | case1 => cases h
  | case2 c cs hc _ =>
    rename_i ih
    rcases List.mem_cons.1 h with rfl | h
    · exact ⟨c, List.mem_cons_self, hc, rfl⟩
    · obtain ⟨d, hd, hword⟩ := ih h
      exact ⟨d, List.mem_cons_of_mem c ((List.dropWhile_sublist _).subset hd), hword⟩
  | case3 c cs _ ih =>
    obtain ⟨d, hd, hword⟩ := ih h
    exact ⟨d, List.mem_cons_of_mem c hd, hword⟩

/-- A run of word characters that could be a name. -/
def startsName (word : List Char) : Bool :=
  word.head?.any isNameStart

/-- A numeral is no name, nor are its parts. -/
theorem filter_startsName_wordRuns_numeral {numeral : List Char}
    (h : ∀ d ∈ numeral, isNumeralChar d = true) : (wordRuns numeral).filter startsName = [] := by
  refine List.filter_eq_nil_iff.2 fun word hword => ?_
  obtain ⟨c, hc, hchar, hhead⟩ := exists_head_of_mem_wordRuns hword
  rcases isWordChar_or_eq_of_isNumeralChar (h c hc) with ⟨-, hname⟩ | rfl
  · simp [startsName, hhead, hname]
  · exact absurd hchar (by decide)

theorem nesting?_cons_of_ne {depth deepest : Nat} (hopen : c ≠ '(') (hclose : c ≠ ')') :
    nesting? depth deepest (c :: cs) = nesting? depth deepest cs := by
  rw [nesting?]
  · exact hopen
  · exact hclose

theorem nesting?_append_of_forall {depth deepest : Nat} (h : ∀ d ∈ cs, d ≠ '(' ∧ d ≠ ')') :
    nesting? depth deepest (cs ++ rest) = nesting? depth deepest rest := by
  induction cs with
  | nil => rfl
  | cons c cs ih =>
    obtain ⟨hopen, hclose⟩ := h c List.mem_cons_self
    rw [List.cons_append, nesting?_cons_of_ne hopen hclose]
    exact ih fun d hd => h d (List.mem_cons_of_mem c hd)

namespace Spells

/-- The runs of words that could be names are the names. -/
theorem filter_startsName_wordRuns (h : Spells cs ts) :
    ((wordRuns cs).filter startsName).map String.ofList = ts.filterMap Token.name? := by
  induction h with
  | nil => simp [wordRuns]
  | blank hc _ ih => rw [wordRuns_cons_of_not (isWordChar_of_isBlank hc), ih]
  | symbol hc _ ih =>
    obtain ⟨hword, -, -, hname⟩ := classes_of_symbol? hc
    rw [wordRuns_cons_of_not hword, ih, List.filterMap_cons_none hname]
  | number hnumeral _ hrest _ ih =>
    rw [wordRuns_append hrest, List.filter_append, filter_startsName_wordRuns_numeral hnumeral,
      List.nil_append, ih]
    rfl
  | name hc hword hrest _ ih =>
    rw [wordRuns_append hrest, wordRuns_of_forall hword, List.singleton_append,
      List.filter_cons_of_pos (by exact hc), List.map_cons, ih]
    rfl

theorem nesting?_eq (h : Spells cs ts) (depth deepest : Nat) :
    nesting? depth deepest cs = nesting? depth deepest (ts.filterMap Token.parenthesis?) := by
  induction h generalizing depth deepest with
  | nil => rfl
  | blank hc _ ih =>
    rw [nesting?_cons_of_ne, ih]
    · rintro rfl
      exact absurd hc (by decide)
    · rintro rfl
      exact absurd hc (by decide)
  | symbol hc _ ih =>
    unfold symbol? at hc
    split at hc <;> cases hc <;> simp [nesting?, ih, List.filterMap_cons]
  | number hnumeral _ _ _ ih =>
    rw [nesting?_append_of_forall, ih]
    · rfl
    · intro d hd
      constructor <;> rintro rfl <;> exact absurd (hnumeral _ hd) (by decide)
  | name _ hword _ _ ih =>
    rw [nesting?_append_of_forall, ih]
    · rfl
    · intro d hd
      constructor <;> rintro rfl <;> exact absurd (hword _ hd) (by decide)

theorem isAllowedChar_of_mem (h : Spells cs ts) : ∀ c ∈ cs, isAllowedChar c = true := by
  induction h with
  | nil => simp
  | blank hc _ ih => exact List.forall_mem_cons.2 ⟨by simp [isAllowedChar, hc], ih⟩
  | symbol hc _ ih => exact List.forall_mem_cons.2 ⟨(classes_of_symbol? hc).2.2.1, ih⟩
  | number hnumeral _ _ _ ih =>
    refine List.forall_mem_append.2 ⟨fun d hd => ?_, ih⟩
    rcases isWordChar_or_eq_of_isNumeralChar (hnumeral d hd) with ⟨hchar, -⟩ | rfl
    · simp [isAllowedChar, hchar]
    · decide
  | name _ hword _ _ ih =>
    exact List.forall_mem_append.2 ⟨fun d hd => by simp [isAllowedChar, hword d hd], ih⟩

theorem eq_nil_of_isBlank (h : Spells cs ts) (hblank : cs.all Text.isBlank = true) : ts = [] := by
  induction h with
  | nil => rfl
  | blank _ _ ih => exact ih (by simp_all)
  | @symbol c _ _ _ hc =>
    simp [(classes_of_symbol? hc).2.1] at hblank
  | @number c _ _ _ _ hnumeral =>
    have hc' : Text.isBlank c = true := by simp_all
    rcases isWordChar_or_eq_of_isNumeralChar (hnumeral c List.mem_cons_self) with ⟨hchar, -⟩ | rfl
    · simp [isWordChar_of_isBlank hc'] at hchar
    · exact absurd hc' (by decide)
  | @name c _ _ _ _ hword =>
    have hc' : Text.isBlank c = true := by simp_all
    have hchar := hword c List.mem_cons_self
    simp [isWordChar_of_isBlank hc'] at hchar

end Spells

end Appraisal.Expression
