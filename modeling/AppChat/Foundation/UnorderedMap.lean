/-
  `Foundation.UnorderedMap`: finite maps with the operations of
  `std::unordered_map` that the program uses, over Mathlib's association lists.

  The order of the entries is that of the list; nothing the program does with a
  map depends on it beyond visiting every entry once.
-/
import Mathlib

set_option autoImplicit false

namespace AppChat.Foundation

/-- A finite map.  The entry list has no key twice. -/
abbrev UnorderedMap (κ ν : Type*) := AList fun _ : κ => ν

namespace UnorderedMap

variable {κ ν : Type*} [DecidableEq κ]

/-- `emplace`: the map, and whether the entry was inserted.  A key that is there
keeps its value. -/
def emplace (m : UnorderedMap κ ν) (k : κ) (v : ν) : UnorderedMap κ ν × Bool :=
  if k ∈ m then (m, false) else (m.insert k v, true)

/-- `try_emplace`, for callers that ignore whether the entry was inserted. -/
def tryEmplace (m : UnorderedMap κ ν) (k : κ) (v : ν) : UnorderedMap κ ν :=
  if k ∈ m then m else m.insert k v

/-- The values, in the order in which a loop over the map meets them. -/
def values (m : UnorderedMap κ ν) : List ν := m.entries.map Sigma.snd

theorem lookup_insert_eq (m : UnorderedMap κ ν) (k k' : κ) (v : ν) :
    (m.insert k v).lookup k' = if k' = k then some v else m.lookup k' := by
  by_cases h : k' = k
  · subst h
    simp
  · rw [AList.lookup_insert_ne h, if_neg h]

theorem lookup_erase_eq (m : UnorderedMap κ ν) (k k' : κ) :
    (m.erase k).lookup k' = if k' = k then none else m.lookup k' := by
  by_cases h : k' = k
  · subst h
    simp
  · rw [AList.lookup_erase_ne h, if_neg h]

/-- `try_emplace` keeps the value of a key that is there. -/
theorem lookup_tryEmplace (m : UnorderedMap κ ν) (k k' : κ) (v : ν) :
    (m.tryEmplace k v).lookup k' =
      if k' = k then some ((m.lookup k).getD v) else m.lookup k' := by
  unfold tryEmplace
  split
  · rename_i hk
    obtain ⟨w, hw⟩ := Option.isSome_iff_exists.mp (AList.lookup_isSome.mpr hk)
    by_cases h : k' = k
    · subst h
      simp [hw]
    · rw [if_neg h]
  · rename_i hk
    rw [lookup_insert_eq, AList.lookup_eq_none.mpr hk]
    rfl

theorem mem_tryEmplace {m : UnorderedMap κ ν} {k k' : κ} {v : ν} :
    k' ∈ m.tryEmplace k v ↔ k' = k ∨ k' ∈ m := by
  rw [← AList.lookup_isSome, ← AList.lookup_isSome, lookup_tryEmplace]
  by_cases h : k' = k <;> simp [h]

theorem emplace_of_lookup_none {m : UnorderedMap κ ν} {k : κ} (h : m.lookup k = none) (v : ν) :
    m.emplace k v = (m.insert k v, true) :=
  if_neg (AList.lookup_eq_none.mp h)

theorem mem_iff_lookup {m : UnorderedMap κ ν} {k : κ} : k ∈ m ↔ ∃ v, m.lookup k = some v := by
  rw [← AList.lookup_isSome, Option.isSome_iff_exists]

theorem erase_of_notMem {m : UnorderedMap κ ν} {k : κ} (h : k ∉ m) : m.erase k = m := by
  refine AList.ext ?_
  exact List.kerase_of_notMem_keys h

theorem mem_values {m : UnorderedMap κ ν} {v : ν} :
    v ∈ m.values ↔ ∃ k, m.lookup k = some v := by
  simp only [values, List.mem_map]
  constructor
  · rintro ⟨⟨k, w⟩, hmem, rfl⟩
    exact ⟨k, AList.mem_lookup_iff.mpr hmem⟩
  · rintro ⟨k, hk⟩
    exact ⟨⟨k, v⟩, AList.mem_lookup_iff.mp hk, rfl⟩

/-! ## How often a value is met -/

section Count

variable [DecidableEq ν]

/-- A value held under exactly one key is met once. -/
theorem count_values_eq_one {m : UnorderedMap κ ν} {k : κ} {v : ν}
    (hk : m.lookup k = some v) (honly : ∀ k', m.lookup k' = some v → k' = k) :
    m.values.count v = 1 := by
  have hmem : (⟨k, v⟩ : Sigma fun _ : κ => ν) ∈ m.entries := AList.mem_lookup_iff.mp hk
  have hnodup : m.entries.Nodup := m.nodupKeys.nodup
  rw [values, List.count, List.countP_map, ← List.count_eq_one_of_mem hnodup hmem, List.count]
  refine List.countP_congr ?_
  rintro ⟨k', w⟩ hentry
  simp only [Function.comp_apply, beq_iff_eq]
  constructor
  · rintro rfl
    rw [honly k' (AList.mem_lookup_iff.mpr hentry)]
  · intro h
    cases h
    rfl

theorem count_values_eq_one_iff {m : UnorderedMap κ ν} {v : ν} :
    m.values.count v = 1 ↔ ∃ k, m.lookup k = some v ∧ ∀ k', m.lookup k' = some v → k' = k := by
  constructor
  · intro h
    have hfilter : ∃ e, m.entries.filter (fun e => e.2 == v) = [e] := by
      rw [← List.length_eq_one_iff, ← List.countP_eq_length_filter, ← h, values, List.count,
        List.countP_map]
      rfl
    obtain ⟨e, he⟩ := hfilter
    have hentry : ∀ k, m.lookup k = some v → e = ⟨k, v⟩ := by
      intro k hk
      have hmem : (⟨k, v⟩ : Sigma fun _ : κ => ν) ∈ m.entries.filter fun e => e.2 == v :=
        List.mem_filter.mpr ⟨AList.mem_lookup_iff.mp hk, beq_self_eq_true v⟩
      rw [he, List.mem_singleton] at hmem
      exact hmem.symm
    have hvalue : v ∈ m.values := List.count_pos_iff.mp (by omega)
    obtain ⟨k, hk⟩ := mem_values.mp hvalue
    refine ⟨k, hk, ?_⟩
    intro k' hk'
    exact congrArg Sigma.fst ((hentry k' hk').symm.trans (hentry k hk))
  · rintro ⟨k, hk, honly⟩
    exact count_values_eq_one hk honly

end Count

end UnorderedMap

end AppChat.Foundation
