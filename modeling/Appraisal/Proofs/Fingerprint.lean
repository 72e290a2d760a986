import Appraisal.Fingerprint
import Appraisal.Proofs.Json.Printer

/-!
# What a fingerprint tells apart

The text of a fingerprint can be read in one way only: a line starts with its kind, its strings end
at their closing quotes, and its amount ends at the brace. So sessions with different values or
versions have different fingerprints, unless the hash function maps two texts to one hash. The two
zeros count as different values.
-/

namespace Appraisal

/-- Two different messages with one hash. -/
def Digest.Sha256.Collide (message message' : List UInt8) : Prop :=
  message ≠ message' ∧ hash message = hash message'

namespace Fingerprint

/-- No text in front of another one can be taken for the text of a second value. -/
def SelfDelimiting {α τ : Type} (valid : α → Prop) (code : α → List τ) : Prop :=
  ∀ ⦃a b : α⦄ ⦃s t : List τ⦄, valid a → code a ++ s = code b ++ t → a = b ∧ s = t

/-- A list of values in front of a text that does not start with one. -/
theorem SelfDelimiting.flatMap_append_inj {α τ : Type} {valid : α → Prop} {code : α → List τ}
    (hcode : SelfDelimiting valid code) {s t : List τ} (hs : ∀ a u, s ≠ code a ++ u)
    (ht : ∀ a u, t ≠ code a ++ u) {as bs : List α} (has : ∀ a ∈ as, valid a)
    (h : as.flatMap code ++ s = bs.flatMap code ++ t) : as = bs ∧ s = t := by
  induction as generalizing bs with
  | nil =>
    cases bs with
    | nil => exact ⟨rfl, h⟩
    | cons b bs =>
      rw [List.flatMap_cons, List.append_assoc] at h
      exact absurd h (hs b _)
  | cons a as ih =>
    cases bs with
    | nil =>
      rw [List.flatMap_cons, List.append_assoc] at h
      exact absurd h.symm (ht a _)
    | cons b bs =>
      rw [List.flatMap_cons, List.flatMap_cons, List.append_assoc, List.append_assoc] at h
      obtain ⟨ha, has⟩ := List.forall_mem_cons.1 has
      obtain ⟨rfl, hrest⟩ := hcode ha h
      obtain ⟨rfl, hst⟩ := ih has hrest
      exact ⟨rfl, hst⟩

theorem SelfDelimiting.flatMap_inj {α τ : Type} {valid : α → Prop} {code : α → List τ}
    (hcode : SelfDelimiting valid code) (hne : ∀ a, code a ≠ []) {as bs : List α}
    (has : ∀ a ∈ as, valid a) (h : as.flatMap code = bs.flatMap code) : as = bs := by
  have hnil : ∀ a u, [] ≠ code a ++ u := fun a u hu => hne a (List.append_eq_nil_iff.1 hu.symm).1
  rw [← List.append_nil (as.flatMap code), ← List.append_nil (bs.flatMap code)] at h
  exact (hcode.flatMap_append_inj hnil hnil has h).1

def assumptionCode (a : String × Float) : List Char :=
  (assumptionLine a.1 a.2).toList

def formulaCode (f : String × String) : List Char :=
  (formulaLine f.1 f.2).toList

theorem text_toList (as : List (String × Float)) (fs : List (String × String)) :
    (text as fs).toList = as.flatMap assumptionCode ++ fs.flatMap formulaCode := by
  simp only [text, String.toList_join, List.flatMap_append, List.flatMap_map]
  rfl

theorem assumptionCode_eq (a : String × Float) :
    assumptionCode a = ['\x7b', '"', 'a', '"', ':'] ++ ((Json.quoted a.1).toList ++
      ([',', '"', 'v', '"', ':'] ++ ((Json.amountText a.2).toList ++ ['\x7d', '\n']))) := by
  simp [assumptionCode, assumptionLine]

theorem formulaCode_eq (f : String × String) :
    formulaCode f = ['\x7b', '"', 'f', '"', ':'] ++ ((Json.quoted f.1).toList ++
      ([',', '"', 'v', '"', ':'] ++ ((Json.quoted f.2).toList ++ ['\x7d', '\n']))) := by
  simp [formulaCode, formulaLine]

theorem selfDelimiting_assumptionCode :
    SelfDelimiting (fun a => a.2.isFinite = true) assumptionCode := by
  rintro ⟨id, x⟩ ⟨id', x'⟩ s t hx h
  simp only [assumptionCode_eq, List.append_assoc] at h
  obtain ⟨hid, hvalue⟩ := Json.quoted_append_inj (List.append_cancel_left h)
  obtain ⟨hx, hrest⟩ := Json.amountText_append_inj hx (List.append_cancel_left hvalue)
  exact ⟨Prod.ext hid hx, List.tail_eq_of_cons_eq hrest⟩

theorem selfDelimiting_formulaCode : SelfDelimiting (fun _ => True) formulaCode := by
  rintro ⟨id, version⟩ ⟨id', version'⟩ s t - h
  simp only [formulaCode_eq, List.append_assoc] at h
  obtain ⟨hid, hvalue⟩ := Json.quoted_append_inj (List.append_cancel_left h)
  obtain ⟨hversion, hrest⟩ := Json.quoted_append_inj (List.append_cancel_left hvalue)
  exact ⟨Prod.ext hid hversion, List.append_cancel_left hrest⟩

theorem formulaCodes_ne_assumptionCode (fs : List (String × String)) (a : String × Float)
    (u : List Char) : fs.flatMap formulaCode ≠ assumptionCode a ++ u := by
  rw [assumptionCode_eq]
  cases fs with
  | nil => simp
  | cons f fs =>
    rw [List.flatMap_cons, formulaCode_eq]
    simp

theorem formulaCode_ne_nil (f : String × String) : formulaCode f ≠ [] := by
  rw [formulaCode_eq]
  simp

theorem text_inj {as as' : List (String × Float)} {fs fs' : List (String × String)}
    (has : ∀ a ∈ as, a.2.isFinite = true) (h : text as fs = text as' fs') :
    as = as' ∧ fs = fs' := by
  have hlines := congrArg String.toList h
  rw [text_toList, text_toList] at hlines
  obtain ⟨has, hformulas⟩ := selfDelimiting_assumptionCode.flatMap_append_inj
    (formulaCodes_ne_assumptionCode fs) (formulaCodes_ne_assumptionCode fs') has hlines
  exact ⟨has, selfDelimiting_formulaCode.flatMap_inj formulaCode_ne_nil (fun _ _ => trivial)
    hformulas⟩

theorem toList_loop (bytes : ByteArray) (i : Nat) (read : List UInt8) :
    ByteArray.toList.loop bytes i read = read.reverse ++ bytes.data.toList.drop i := by
  fun_induction ByteArray.toList.loop bytes i read with
  | case1 i read hi ih =>
    have hnext : bytes.data.toList.drop i = bytes.get! i :: bytes.data.toList.drop (i + 1) := by
      rw [List.drop_eq_getElem_cons hi]
      congr 1
      exact (getElem!_pos bytes.data i hi).symm
    rw [ih, hnext, List.reverse_cons, List.append_assoc, List.singleton_append]
  | case2 i read hi =>
    have hend : bytes.data.toList.drop i = [] := List.drop_eq_nil_of_le (not_lt.1 hi)
    rw [hend, List.append_nil]

theorem toList_injective : Function.Injective ByteArray.toList := by
  intro bytes bytes' h
  rw [ByteArray.toList, ByteArray.toList, toList_loop, toList_loop] at h
  exact ByteArray.ext (Array.toList_inj.1 (by simpa using h))

theorem digitChar_inj : ∀ m < 16, ∀ n < 16, Nat.digitChar m = Nat.digitChar n → m = n := by
  decide

theorem selfDelimiting_hexDigits : SelfDelimiting (fun _ => True)
    (fun b : UInt8 => [Nat.digitChar (b.toNat / 16), Nat.digitChar (b.toNat % 16)]) := by
  intro b b' s t _ h
  have hb := b.toNat_lt
  have hb' := b'.toNat_lt
  simp only [List.cons_append, List.nil_append, List.cons.injEq] at h
  obtain ⟨hhigh, hlow, hrest⟩ := h
  have hquotient := digitChar_inj _ (by omega) _ (by omega) hhigh
  have hremainder := digitChar_inj _ (by omega) _ (by omega) hlow
  exact ⟨UInt8.toNat_inj.1 (by omega), hrest⟩

theorem hex_injective : Function.Injective Text.hex := by
  intro bytes bytes' h
  exact selfDelimiting_hexDigits.flatMap_inj (fun _ => List.cons_ne_nil _ _) (fun _ _ => trivial)
    (String.ofList_injective h)

/-- What a fingerprint covers. -/
structure Contents where
  values : List (String × Float)
  versions : List (String × String)
  deriving DecidableEq

namespace Contents

/-- The bytes that are hashed. -/
def message (c : Contents) : List UInt8 :=
  (text c.values c.versions).toUTF8.toList

def Finite (c : Contents) : Prop :=
  ∀ v ∈ c.values, v.2.isFinite = true

def fingerprint (c : Contents) : String :=
  compute c.values c.versions

theorem fingerprint_eq_hex (c : Contents) :
    c.fingerprint = "sha256:" ++ Text.hex (Digest.Sha256.hash c.message) := rfl

theorem message_inj {c c' : Contents} (hc : c.Finite) : c.message = c'.message ↔ c = c' := by
  constructor
  · intro h
    obtain ⟨hvalues, hversions⟩ :=
      text_inj hc (String.toByteArray_inj.1 (toList_injective h))
    cases c
    cases c'
    exact congrArg₂ mk hvalues hversions
  · rintro rfl
    rfl

theorem fingerprint_eq_iff_hash {c c' : Contents} :
    c.fingerprint = c'.fingerprint ↔
      Digest.Sha256.hash c.message = Digest.Sha256.hash c'.message := by
  rw [fingerprint_eq_hex, fingerprint_eq_hex]
  constructor
  · intro h
    have hdigits := congrArg String.toList h
    rw [String.toList_append, String.toList_append] at hdigits
    exact hex_injective (String.toList_inj.1 (List.append_cancel_left hdigits))
  · intro h
    rw [h]

/-- Contents with one fingerprint are the same, or they show a collision. -/
theorem fingerprint_eq_fingerprint_iff {c c' : Contents} (hc' : c'.Finite) :
    c.fingerprint = c'.fingerprint ↔
      c = c' ∨ Digest.Sha256.Collide c.message c'.message := by
  have hmessages : c.message = c'.message ↔ c = c' := by
    rw [eq_comm, message_inj hc', eq_comm]
  rw [fingerprint_eq_iff_hash, Digest.Sha256.Collide, Ne, hmessages]
  by_cases h : c = c'
  · simp [h]
  · simp [h]

end Contents

end Fingerprint

end Appraisal
