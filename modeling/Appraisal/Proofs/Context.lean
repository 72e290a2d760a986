import Appraisal.Context
import Mathlib

/-!
# Look-up in contexts

Of several bindings of a name the last one counts, and a context laid over another one hides the
bindings beneath.
-/

namespace Appraisal

section Lookup

variable {α : Type} {pairs : List (String × α)} {name : String}

theorem lookup_cons_eq (p : String × α) (pairs : List (String × α)) (name : String) :
    (p :: pairs).lookup name = if name = p.1 then some p.2 else pairs.lookup name := by
  obtain ⟨key, x⟩ := p
  by_cases h : name = key
  · simp [h]
  · rw [List.lookup_cons, beq_false_of_ne h, if_neg h]

theorem lookup_eq_none_of_notMem (h : name ∉ pairs.map (·.1)) : pairs.lookup name = none := by
  rw [List.lookup_eq_none_iff]
  intro p hp
  have hne : name ≠ p.1 := by
    rintro rfl
    exact h (List.mem_map_of_mem hp)
  simpa using hne

/-- In a list without repeated keys a look-up finds whatever is there. -/
theorem lookup_eq_some_iff_mem {x : α} (h : (pairs.map (·.1)).Nodup) :
    pairs.lookup name = some x ↔ (name, x) ∈ pairs := by
  induction pairs with
  | nil => simp
  | cons p pairs ih =>
    obtain ⟨hp, hpairs⟩ := List.nodup_cons.1 h
    rw [lookup_cons_eq, List.mem_cons]
    by_cases hkey : name = p.1
    · subst hkey
      have hnot : (p.1, x) ∉ pairs := fun hx => hp (List.mem_map.2 ⟨_, hx, rfl⟩)
      rw [if_pos rfl, or_iff_left hnot, Option.some.injEq, Prod.ext_iff]
      exact ⟨fun hx => ⟨rfl, hx.symm⟩, fun hx => hx.2.symm⟩
    · have hne : (name, x) ≠ p := fun heq => hkey (congrArg Prod.fst heq)
      rw [if_neg hkey, ih hpairs, or_iff_right hne]

theorem lookup_reverse (name : String) (h : (pairs.map (·.1)).Nodup) :
    pairs.reverse.lookup name = pairs.lookup name := by
  have hreverse : (pairs.reverse.map (·.1)).Nodup := by
    rwa [List.map_reverse, List.nodup_reverse]
  ext x
  rw [lookup_eq_some_iff_mem h, lookup_eq_some_iff_mem hreverse, List.mem_reverse]

/-- The names at which a function is defined, with its values. -/
theorem lookup_reverse_filterMap (read : String → Option α) (names : List String)
    (name : String) :
    (names.filterMap fun key => (read key).map fun x => (key, x)).reverse.lookup name =
      if name ∈ names then read name else none := by
  induction names with
  | nil => rfl
  | cons key names ih =>
    by_cases hkey : name = key
    · subst hkey
      cases h : read name with
      | none => simpa [h] using ih
      | some x => by_cases hmem : name ∈ names <;> simp [h, ih, hmem, List.lookup_append]
    · cases h : read key with
      | none => simpa [h, hkey] using ih
      | some x => simp [h, hkey, ih, List.lookup_append, lookup_cons_eq]

end Lookup

namespace Context

/-- Contexts with the same bindings are the same. -/
theorem ext_get? {context context' : Context}
    (h : ∀ name, context.get? name = context'.get? name) : context = context' := by
  apply Std.ExtTreeMap.ext_getElem?
  intro name
  rw [← Std.ExtTreeMap.get?_eq_getElem?, h name, Std.ExtTreeMap.get?_eq_getElem?]

theorem get?_insert (context : Context) (key name : String) (x : Float) :
    (context.insert key x).get? name = if name = key then some x else context.get? name := by
  rw [Std.ExtTreeMap.get?_eq_getElem?, Std.ExtTreeMap.getElem?_insert]
  simp only [Std.LawfulEqCmp.compare_eq_iff_eq, Std.ExtTreeMap.get?_eq_getElem?,
    eq_comm (a := name)]

theorem get?_foldl_insert (pairs : List (String × Float)) (base : Context) (name : String) :
    (pairs.foldl (fun context p => context.insert p.1 p.2) base).get? name =
      (pairs.reverse.lookup name).or (base.get? name) := by
  induction pairs generalizing base with
  | nil => rfl
  | cons p pairs ih =>
    rw [List.foldl_cons, ih, get?_insert, List.reverse_cons, List.lookup_append, Option.or_assoc,
      lookup_cons_eq]
    congr 1
    split_ifs <;> rfl

theorem get?_ofPairs (pairs : List (String × Float)) (name : String) :
    (ofPairs pairs).get? name = pairs.reverse.lookup name := by
  rw [ofPairs, get?_foldl_insert]
  exact Option.or_none

theorem get?_overlay (base top : Context) (name : String) :
    (base.overlay top).get? name = (top.get? name).or (base.get? name) := by
  have hnodup : (top.toList.map (·.1)).Nodup := by
    rw [Std.ExtTreeMap.map_fst_toList_eq_keys]
    exact Std.ExtTreeMap.nodup_keys
  have htop : top.toList.lookup name = top.get? name := by
    ext x
    rw [lookup_eq_some_iff_mem hnodup, Std.ExtTreeMap.mem_toList_iff_getElem?_eq_some,
      Std.ExtTreeMap.get?_eq_getElem?]
  rw [overlay, Std.ExtTreeMap.foldl_eq_foldl_toList, get?_foldl_insert, lookup_reverse name hnodup,
    htop]

theorem get?_ofPairs_of_mem {pairs : List (String × Float)} {p : String × Float}
    (h : (pairs.map (·.1)).Nodup) (hp : p ∈ pairs) : (ofPairs pairs).get? p.1 = some p.2 := by
  rw [get?_ofPairs, lookup_reverse p.1 h]
  exact (lookup_eq_some_iff_mem h).2 hp

theorem get?_overlay_ofPairs (base top : List (String × Float)) (name : String) :
    ((ofPairs base).overlay (ofPairs top)).get? name = (ofPairs (base ++ top)).get? name := by
  rw [get?_overlay, get?_ofPairs, get?_ofPairs, get?_ofPairs, List.reverse_append,
    List.lookup_append]

theorem mem_iff_isSome_get? {context : Context} {name : String} :
    name ∈ context ↔ (context.get? name).isSome = true := by
  rw [Std.ExtTreeMap.mem_iff_isSome_getElem?, Std.ExtTreeMap.get?_eq_getElem?]

end Context

end Appraisal
