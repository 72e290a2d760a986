import Appraisal.Expression.Parser
import Appraisal.Proofs.Expression.Scanning
import Mathlib

/-!
# Blanks in expressions

A text with blanks in it is read piece by piece: the tokens on their left, then the tokens on their
right. If a piece is refused, so is the text, for the same reason and at the place where the piece
stands. How many blanks there are, and which ones, has no influence on what is read.
-/

namespace Appraisal.Expression

variable {c : Char} {cs rest : List Char} {token : Token} {ts : List Token} {offset : Nat}

/-- The number of bytes of a text. -/
def bytes (cs : List Char) : Nat :=
  (cs.map Char.utf8Size).sum

theorem bytes_cons (c : Char) (cs : List Char) : bytes (c :: cs) = c.utf8Size + bytes cs :=
  List.sum_cons

theorem utf8Size_of_symbol? (h : symbol? c = some token) : c.utf8Size = 1 := by
  unfold symbol? at h
  split at h <;> cases h <;> rfl

theorem utf8Size_of_isWordChar (h : isWordChar c = true) : c.utf8Size = 1 := by
  have hrange := toNat_of_isWordChar h
  exact Char.utf8Size_eq_one_iff.2 (UInt32.le_iff_toNat_le.2 (show c.toNat ≤ 127 by omega))

theorem utf8Size_of_isNumeralChar (h : isNumeralChar c = true) : c.utf8Size = 1 := by
  obtain ⟨hword, -⟩ | rfl := isWordChar_or_eq_of_isNumeralChar h
  · exact utf8Size_of_isWordChar hword
  · rfl

theorem length_takeWhile_add_bytes {p : Char → Bool} (hp : ∀ d, p d = true → d.utf8Size = 1)
    (cs : List Char) : (cs.takeWhile p).length + bytes (cs.dropWhile p) = bytes cs := by
  induction cs with
  | nil => rfl
  | cons c cs ih =>
    by_cases hc : p c = true
    · rw [List.takeWhile_cons_of_pos hc, List.dropWhile_cons_of_pos hc, bytes_cons, hp c hc,
        List.length_cons]
      omega
    · rw [List.takeWhile_cons_of_neg hc, List.dropWhile_cons_of_neg hc, List.length_nil,
        Nat.zero_add]

/-- A run of characters of one byte ends where it is said to end. -/
theorem offset_behind_run {p : Char → Bool} (hp : ∀ d, p d = true → d.utf8Size = 1)
    (hc : p c = true) (cs : List Char) :
    offset + (c :: cs.takeWhile p).length + bytes (cs.dropWhile p) = offset + bytes (c :: cs) := by
  have hrun := length_takeWhile_add_bytes hp cs
  rw [bytes_cons, hp c hc, List.length_cons]
  omega

theorem tokenizeFrom_blank (h : Text.isBlank c = true) :
    tokenizeFrom offset (c :: cs) = tokenizeFrom (offset + c.utf8Size) cs := by
  rw [tokenizeFrom, if_pos h]

section

variable (hblank : ¬ Text.isBlank c = true)

include hblank

theorem tokenizeFrom_symbol (h : symbol? c = some token) :
    tokenizeFrom offset (c :: cs) = (tokenizeFrom (offset + 1) cs).map (token :: ·) := by
  rw [tokenizeFrom, if_neg hblank, h]

variable (hsymbol : symbol? c = none)

include hsymbol

theorem tokenizeFrom_numeral (h : isNumeralChar c = true) :
    tokenizeFrom offset (c :: cs) =
      if (cs.dropWhile isNumeralChar).head?.any isWordChar then .error (.numberRunsOn offset)
      else match readNumeral? (c :: cs.takeWhile isNumeralChar) with
      | some value =>
        (tokenizeFrom (offset + (c :: cs.takeWhile isNumeralChar).length)
          (cs.dropWhile isNumeralChar)).map (.number value :: ·)
      | none =>
        .error (.malformedNumber (String.ofList (c :: cs.takeWhile isNumeralChar)) offset) := by
  rw [tokenizeFrom, if_neg hblank, hsymbol]
  exact if_pos h

variable (hnumeral : ¬ isNumeralChar c = true)

include hnumeral

theorem tokenizeFrom_name (h : isNameStart c = true) :
    tokenizeFrom offset (c :: cs) =
      (tokenizeFrom (offset + (c :: cs.takeWhile isWordChar).length) (cs.dropWhile isWordChar)).map
        (.name (String.ofList (c :: cs.takeWhile isWordChar)) :: ·) := by
  rw [tokenizeFrom, if_neg hblank, hsymbol]
  exact (if_neg hnumeral).trans (if_pos h)

theorem tokenizeFrom_unexpected (h : ¬ isNameStart c = true) :
    tokenizeFrom offset (c :: cs) = .error (.unexpectedCharacter c offset) := by
  rw [tokenizeFrom, if_neg hblank, hsymbol]
  exact (if_neg hnumeral).trans (if_neg h)

end

theorem isNumeralChar_of_isBlank (h : Text.isBlank c = true) : isNumeralChar c = false := by
  by_contra hnumeral
  obtain ⟨hword, -⟩ | rfl := isWordChar_or_eq_of_isNumeralChar (by simpa using hnumeral)
  · simp [isWordChar_of_isBlank h] at hword
  · exact absurd h (by decide)

theorem any_head?_append {p : Char → Bool} (h : ∀ d ∈ rest.head?, p d = false) (cs : List Char) :
    (cs ++ rest).head?.any p = cs.head?.any p := by
  cases cs with
  | nil => cases rest <;> simp_all
  | cons c cs => rfl

theorem map_cons_bind (x y : Except SyntaxError (List Token)) (token : Token) :
    (x >>= fun ts => y.map (ts ++ ·)).map (token :: ·) =
      x.map (token :: ·) >>= fun ts => y.map (ts ++ ·) := by
  cases x <;> cases y <;> rfl

/-- A number or a name ends at a blank, so what starts with one is read by itself. -/
theorem tokenizeFrom_append (h : ∀ d ∈ rest.head?, Text.isBlank d = true) (offset : Nat)
    (cs : List Char) :
    tokenizeFrom offset (cs ++ rest) =
      tokenizeFrom offset cs >>= fun ts =>
        (tokenizeFrom (offset + bytes cs) rest).map (ts ++ ·) := by
  have hnumeral : ∀ d ∈ rest.head?, isNumeralChar d = false :=
    fun d hd => isNumeralChar_of_isBlank (h d hd)
  have hword : ∀ d ∈ rest.head?, isWordChar d = false :=
    fun d hd => isWordChar_of_isBlank (h d hd)
  fun_induction tokenizeFrom offset cs with
  | case1 offset =>
    change tokenizeFrom offset rest = (tokenizeFrom offset rest).map id
    rw [Except.map_id, id]
  | case2 offset c cs hblank ih =>
    rw [List.cons_append, tokenizeFrom_blank hblank, ih, bytes_cons, Nat.add_assoc]
  | case3 offset c cs hblank token hsymbol ih =>
    rw [List.cons_append, tokenizeFrom_symbol hblank hsymbol, ih, map_cons_bind, bytes_cons,
      utf8Size_of_symbol? hsymbol, Nat.add_assoc]
  | case4 offset c cs hblank hsymbol hc _ hnext =>
    rw [List.cons_append, tokenizeFrom_numeral hblank hsymbol hc, dropWhile_append_of_head hnumeral,
      any_head?_append hword, if_pos hnext, error_bind]
  | case5 offset c cs hblank hsymbol hc numeral _ hnext value hvalue ih =>
    rw [List.cons_append, tokenizeFrom_numeral hblank hsymbol hc, dropWhile_append_of_head hnumeral,
      any_head?_append hword, if_neg hnext, takeWhile_append_of_head hnumeral,
      show readNumeral? (c :: cs.takeWhile isNumeralChar) = some value from hvalue]
    simp only
    rw [ih, map_cons_bind, offset_behind_run (fun _ => utf8Size_of_isNumeralChar) hc]
  | case6 offset c cs hblank hsymbol hc numeral _ hnext hvalue =>
    rw [List.cons_append, tokenizeFrom_numeral hblank hsymbol hc, dropWhile_append_of_head hnumeral,
      any_head?_append hword, if_neg hnext, takeWhile_append_of_head hnumeral,
      show readNumeral? (c :: cs.takeWhile isNumeralChar) = none from hvalue, error_bind]
  | case7 offset c cs hblank hsymbol hc hname name _ ih =>
    rw [List.cons_append, tokenizeFrom_name hblank hsymbol hc hname, takeWhile_append_of_head hword,
      dropWhile_append_of_head hword, ih, map_cons_bind,
      offset_behind_run (fun _ => utf8Size_of_isWordChar) (isWordChar_of_isNameStart hname)]
  | case8 offset c cs hblank hsymbol hc hname =>
    rw [List.cons_append, tokenizeFrom_unexpected hblank hsymbol hc hname, error_bind]

theorem tokenizeFrom_blanks {blanks : List Char} (h : ∀ d ∈ blanks, Text.isBlank d = true)
    (offset : Nat) (cs : List Char) :
    tokenizeFrom offset (blanks ++ cs) = tokenizeFrom (offset + bytes blanks) cs := by
  induction blanks generalizing offset with
  | nil => rfl
  | cons d blanks ih =>
    obtain ⟨hd, hblanks⟩ := List.forall_mem_cons.1 h
    rw [List.cons_append, tokenizeFrom_blank hd, ih hblanks, bytes_cons, Nat.add_assoc]

/-- The same error in a text with so many bytes more in front. -/
def SyntaxError.moved (offset : Nat) : SyntaxError → SyntaxError
  | unexpectedCharacter char place => unexpectedCharacter char (offset + place)
  | numberRunsOn place => numberRunsOn (offset + place)
  | malformedNumber text place => malformedNumber text (offset + place)
  | error => error

theorem mapError_map {ε ε' α β : Type} (x : Except ε α) (f : α → β) (g : ε → ε') :
    (x.map f).mapError g = (x.mapError g).map f := by
  cases x <;> rfl

theorem tokenizeFrom_add (offset place : Nat) (cs : List Char) :
    tokenizeFrom (offset + place) cs = (tokenizeFrom place cs).mapError (·.moved offset) := by
  fun_induction tokenizeFrom place cs with
  | case1 => rw [tokenizeFrom]; rfl
  | case2 place c cs hblank ih => rw [tokenizeFrom_blank hblank, Nat.add_assoc, ih]
  | case3 place c cs hblank token hsymbol ih =>
    rw [tokenizeFrom_symbol hblank hsymbol, Nat.add_assoc, ih, mapError_map]
  | case4 place c cs hblank hsymbol hc _ hnext =>
    rw [tokenizeFrom_numeral hblank hsymbol hc, if_pos hnext]
    rfl
  | case5 place c cs hblank hsymbol hc numeral _ hnext value hvalue ih =>
    rw [tokenizeFrom_numeral hblank hsymbol hc, if_neg hnext, mapError_map, ← ih,
      show readNumeral? (c :: cs.takeWhile isNumeralChar) = some value from hvalue, ← Nat.add_assoc]
  | case6 place c cs hblank hsymbol hc numeral _ hnext hvalue =>
    rw [tokenizeFrom_numeral hblank hsymbol hc, if_neg hnext,
      show readNumeral? (c :: cs.takeWhile isNumeralChar) = none from hvalue]
    rfl
  | case7 place c cs hblank hsymbol hc hname name _ ih =>
    rw [tokenizeFrom_name hblank hsymbol hc hname, mapError_map, ← ih, ← Nat.add_assoc]
  | case8 place c cs hblank hsymbol hc hname =>
    rw [tokenizeFrom_unexpected hblank hsymbol hc hname]
    rfl

theorem tokenizeFrom_eq (offset : Nat) (text : String) :
    tokenizeFrom offset text.toList = (tokenize text).mapError (·.moved offset) :=
  tokenizeFrom_add offset 0 text.toList

section

variable {a b blanks : String} (hblanks : Text.isBlankText blanks = true)

include hblanks

theorem forall_isBlank : ∀ d ∈ blanks.toList, Text.isBlank d = true :=
  List.all_eq_true.1 hblanks

theorem tokenize_blanks_append :
    tokenize (blanks ++ b) = (tokenize b).mapError (·.moved (bytes blanks.toList)) := by
  rw [tokenize, String.toList_append, tokenizeFrom_blanks (forall_isBlank hblanks), Nat.zero_add,
    tokenizeFrom_eq]

theorem tokenize_append_blanks : tokenize (a ++ blanks) = tokenize a := by
  have hhead : ∀ d ∈ blanks.toList.head?, Text.isBlank d = true :=
    fun d hd => forall_isBlank hblanks d (List.mem_of_mem_head? hd)
  have hnone (offset) : tokenizeFrom offset blanks.toList = .ok [] := by
    have h := tokenizeFrom_blanks (forall_isBlank hblanks) offset []
    rwa [List.append_nil, tokenizeFrom] at h
  rw [tokenize, String.toList_append, tokenizeFrom_append hhead, hnone, tokenize]
  cases tokenizeFrom 0 a.toList with
  | error => rfl
  | ok ts => exact congrArg Except.ok (List.append_nil ts)

/-- The text on the left is read first, and then the one on the right, at its place. -/
theorem tokenize_append_blanks_append (hne : blanks ≠ "") :
    tokenize (a ++ blanks ++ b) =
      tokenize a >>= fun ts =>
        ((tokenize b).mapError (·.moved (bytes a.toList + bytes blanks.toList))).map (ts ++ ·) := by
  have hhead : ∀ d ∈ (blanks.toList ++ b.toList).head?, Text.isBlank d = true := by
    have hnil : blanks.toList ≠ [] := mt String.toList_eq_nil_iff.1 hne
    intro d hd
    rw [List.head?_append_of_ne_nil _ hnil] at hd
    exact forall_isBlank hblanks d (List.mem_of_mem_head? hd)
  rw [tokenize, String.toList_append, String.toList_append, List.append_assoc,
    tokenizeFrom_append hhead, Nat.zero_add, tokenizeFrom_blanks (forall_isBlank hblanks),
    tokenizeFrom_eq _ b]
  rfl

theorem tokenize_eq_ok_iff_of_blanks (hne : blanks ≠ "") (ts : List Token) :
    tokenize (a ++ blanks ++ b) = .ok ts ↔
      ∃ left right, tokenize a = .ok left ∧ tokenize b = .ok right ∧ left ++ right = ts := by
  simp only [tokenize_append_blanks_append hblanks hne, bind_eq_ok_iff, map_eq_ok_iff,
    mapError_eq_ok_iff, exists_and_left]

end

/-- An expression is read from the tokens alone. -/
theorem parse_eq_ok_iff_of_tokens {text text' : String}
    (h : ∀ ts, tokenize text = .ok ts ↔ tokenize text' = .ok ts) (maxDepth : Nat) (e : Expression) :
    parse maxDepth text = .ok e ↔ parse maxDepth text' = .ok e := by
  simp only [parse, bind_eq_ok_iff, h]

/-- Two texts with blanks between them have the tokens of the one and then those of the other, and
none if one of them has none. So an expression is read as the same one, or as none, with other
blanks in their place and with blanks around it. -/
theorem blanks_only_separate {blanks : String} (hblanks : Text.isBlankText blanks = true)
    (hne : blanks ≠ "") (a b : String) :
    (∀ ts, tokenize (a ++ blanks ++ b) = .ok ts ↔
      ∃ left right, tokenize a = .ok left ∧ tokenize b = .ok right ∧ left ++ right = ts) ∧
    (∀ other, Text.isBlankText other = true → other ≠ "" → ∀ maxDepth e,
      parse maxDepth (a ++ blanks ++ b) = .ok e ↔ parse maxDepth (a ++ other ++ b) = .ok e) ∧
    ∀ before after, Text.isBlankText before = true → Text.isBlankText after = true →
      ∀ maxDepth e, parse maxDepth (before ++ a ++ after) = .ok e ↔ parse maxDepth a = .ok e := by
  have hpieces := tokenize_eq_ok_iff_of_blanks (a := a) (b := b) hblanks hne
  refine ⟨hpieces, fun other hother hne' => ?_, fun before after hbefore hafter => ?_⟩
  · exact parse_eq_ok_iff_of_tokens fun ts =>
      (hpieces ts).trans (tokenize_eq_ok_iff_of_blanks hother hne' ts).symm
  · refine parse_eq_ok_iff_of_tokens fun ts => ?_
    rw [tokenize_append_blanks hafter, tokenize_blanks_append hbefore, mapError_eq_ok_iff]

/-- A blank of three bytes makes two names of one, and may stand for other blanks. -/
theorem blanks_only_separate_of_ideographic_space :
    let e : Expression := .binary .mul (.var "a") (.binary .sub (.var "b") (.var "c"))
    tokenize "ab" = .ok [.name "ab"] ∧
      tokenize ("a" ++ "\u3000" ++ "b") = .ok [.name "a", .name "b"] ∧
      parse 1 ("a*(b" ++ " \t" ++ "-c)") = .ok e ∧
      parse 1 ("\n" ++ ("a*(b" ++ "\u3000" ++ "-c)") ++ "") = .ok e := by
  intro e
  have hblank : Text.isBlankText "\u3000" = true := by decide
  have hseparate := blanks_only_separate hblank (by decide)
  have hparse : parse 1 ("a*(b" ++ " \t" ++ "-c)") = .ok e := by cbv
  refine ⟨by cbv, ?_, hparse, ?_⟩
  · exact ((hseparate "a" "b").1 _).2 ⟨[.name "a"], [.name "b"], by cbv, by cbv, rfl⟩
  · have hspaced := ((hseparate "a*(b" "-c)").2.1 " \t" (by decide) (by decide) 1 e).2 hparse
    exact ((hseparate _ "").2.2 "\n" "" (by decide) (by decide) 1 e).2 hspaced

end Appraisal.Expression
