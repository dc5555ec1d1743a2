import Mathlib.Data.List.AList

/-!
# Maps from keys to lists, filled by appending

A map whose values are lists, to which batches are appended key by key. What such a map holds is read
off by `get`, and a sequence of batches off by `collect`; `get_appendAll` relates the two. The order
in which keys were first seen is not part of the meaning, so two maps are compared by `lookup`.

An empty batch counts: its key is in the map afterwards, with nothing under it. So what a map holds is two
things, the lists (`get_appendAll`) and the keys (`mem_appendAll`), and together they are all there is to
it (`lookup_eq_of_get_eq`). A map can be written out as batches again (`batches`), and collecting these
gives back what it holds (`collect_batches`).
-/

universe u v

/-- A map from keys to lists. -/
abbrev Multimap (κ : Type u) (β : Type v) := AList fun _ : κ ↦ List β

namespace Multimap

variable {κ : Type u} {β : Type v} [DecidableEq κ]

/-- The list under a key, empty when there is none. -/
def get (m : Multimap κ β) (k : κ) : List β := (m.lookup k).getD []

/-- Append a batch under a key. -/
def append (m : Multimap κ β) (k : κ) (batch : List β) : Multimap κ β :=
  m.insert k (m.get k ++ batch)

/-- Append batches one after the other. -/
def appendAll (m : Multimap κ β) (batches : List (κ × List β)) : Multimap κ β :=
  batches.foldl (fun m b ↦ m.append b.1 b.2) m

/-- Everything a sequence of batches has under a key, in order. -/
def collect (batches : List (κ × List β)) (k : κ) : List β :=
  batches.flatMap fun b ↦ if b.1 = k then b.2 else []

/-- The contents as a sequence of batches, one for each key. -/
def batches (m : Multimap κ β) : List (κ × List β) := m.entries.map fun e ↦ (e.1, e.2)

@[simp] theorem get_empty (k : κ) : (∅ : Multimap κ β).get k = [] := rfl

/-- A batch ends up behind what its key has, and nothing else changes. -/
theorem get_append (m : Multimap κ β) (k k' : κ) (batch : List β) :
    (m.append k batch).get k' = m.get k' ++ if k = k' then batch else [] := by
  by_cases h : k = k'
  · subst h
    rw [if_pos rfl, append, get, AList.lookup_insert, Option.getD_some]
  · rw [if_neg h, List.append_nil, append, get, AList.lookup_insert_ne (Ne.symm h), get]

/-- A key is there from its first batch on, empty or not. -/
theorem mem_append (m : Multimap κ β) (k k' : κ) (batch : List β) :
    k' ∈ m.append k batch ↔ k' = k ∨ k' ∈ m := AList.mem_insert m

@[simp] theorem appendAll_cons (m : Multimap κ β) (b : κ × List β) (l : List (κ × List β)) :
    m.appendAll (b :: l) = (m.append b.1 b.2).appendAll l := rfl

theorem appendAll_append (m : Multimap κ β) (l l' : List (κ × List β)) :
    m.appendAll (l ++ l') = (m.appendAll l).appendAll l' := List.foldl_append

/-- **Nothing is lost or duplicated**: under each key, the batches in order behind what was there. -/
theorem get_appendAll (m : Multimap κ β) (l : List (κ × List β)) (k : κ) :
    (m.appendAll l).get k = m.get k ++ collect l k := by
  induction l generalizing m with
  | nil => exact (List.append_nil _).symm
  | cons b l ih => rw [appendAll_cons, ih, get_append, List.append_assoc, collect, collect,
      List.flatMap_cons]

/-- Exactly the keys that occur. -/
theorem mem_appendAll (m : Multimap κ β) (l : List (κ × List β)) (k : κ) :
    k ∈ m.appendAll l ↔ k ∈ m ∨ k ∈ l.map Prod.fst := by
  induction l generalizing m with
  | nil => simp [appendAll]
  | cons b l ih =>
    rw [appendAll_cons, ih, mem_append, List.map_cons, List.mem_cons]
    tauto

theorem collect_append (l l' : List (κ × List β)) (k : κ) :
    collect (l ++ l') k = collect l k ++ collect l' k := List.flatMap_append

/-- Nothing is collected for a key that is not among the batches. -/
theorem collect_eq_nil {l : List (κ × List β)} {k : κ} (h : k ∉ l.map Prod.fst) :
    collect l k = [] := by
  rw [collect, List.flatMap_eq_nil_iff]
  intro b hb
  exact if_neg fun (hk : b.1 = k) ↦ h (hk ▸ List.mem_map_of_mem hb)

/-- The batches of a map hold what the map holds. -/
theorem collect_batches (m : Multimap κ β) (k : κ) : collect m.batches k = m.get k := by
  obtain ⟨entries, hnodup⟩ := m
  rw [batches, get, AList.lookup]
  induction entries with
  | nil => rfl
  | cons e entries ih =>
    obtain ⟨hnot, hrest⟩ := List.nodupKeys_cons.1 hnodup
    rw [List.map_cons, collect, List.flatMap_cons, ← collect]
    by_cases h : e.1 = k
    · have hnil : collect (entries.map fun e ↦ (e.1, e.2)) k = [] := by
        refine collect_eq_nil fun hmem ↦ hnot ?_
        rw [List.map_map] at hmem
        exact h ▸ hmem
      obtain ⟨k', l⟩ := e
      obtain rfl : k' = k := h
      rw [if_pos rfl, hnil, List.append_nil, List.dlookup_cons_eq, Option.getD_some]
    · obtain ⟨k', l⟩ := e
      rw [if_neg h, List.nil_append, List.dlookup_cons_ne _ _ (Ne.symm h)]
      exact ih hrest

omit [DecidableEq κ] in
/-- The batches of a map are its keys, each once. -/
theorem mem_batches (m : Multimap κ β) (k : κ) : k ∈ m.batches.map Prod.fst ↔ k ∈ m := by
  rw [batches, List.map_map]
  exact AList.mem_keys.symm

/-- A lookup is determined by the key being there and the list under it. -/
theorem lookup_eq_of_get_eq {m m' : Multimap κ β} {k : κ} (hmem : k ∈ m ↔ k ∈ m')
    (hget : m.get k = m'.get k) : m.lookup k = m'.lookup k := by
  by_cases h : k ∈ m
  · obtain ⟨l, hl⟩ := Option.isSome_iff_exists.1 (AList.lookup_isSome.2 h)
    obtain ⟨l', hl'⟩ := Option.isSome_iff_exists.1 (AList.lookup_isSome.2 (hmem.1 h))
    rw [get, get, hl, hl', Option.getD_some, Option.getD_some] at hget
    rw [hl, hl', hget]
  · rw [AList.lookup_eq_none.2 h, AList.lookup_eq_none.2 (mt hmem.2 h)]

end Multimap
