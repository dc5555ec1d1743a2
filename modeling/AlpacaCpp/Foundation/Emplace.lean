import Mathlib.Data.List.AList

/-!
# Maps from keys to values, filled by emplacing

A value is emplaced under a key that is new, and what is under a key stays. So of a sequence of entries a map
keeps the first of each key: under it `List.lookup` of the entries finds what the map holds
(`lookup_emplaceAll`), however they are cut into parts (`lookup_emplaceAll_pairs`).

`List.lookup` is therefore the whole specification of such a map, and nothing is said about the order in which
it lists its keys. Both lemmas are stated for a map that already holds something, since that is what an
induction over the parts needs.
-/

universe u v

/-- Keys renamed apart, and values mapped, an entry is found under its new name. -/
theorem List.lookup_map_of_injective {κ κ' β γ : Type*} [BEq κ] [LawfulBEq κ] [BEq κ'] [LawfulBEq κ'] {g : κ → κ'}
    (hg : Function.Injective g) (f : β → γ) (l : List (κ × β)) (k : κ) :
    (l.map fun e ↦ (g e.1, f e.2)).lookup (g k) = (l.lookup k).map f := by
  induction l with
  | nil => rfl
  | cons e l ih =>
    rw [List.map_cons, List.lookup_cons, List.lookup_cons]
    by_cases h : k = e.1
    · rw [beq_iff_eq.2 h, beq_iff_eq.2 (congrArg g h)]
      rfl
    · rw [beq_eq_false_iff_ne.2 h, beq_eq_false_iff_ne.2 (hg.ne h)]
      exact ih

namespace AList

variable {κ : Type u} {β : Type v} [DecidableEq κ]

/-- Put a value under a key that is new. -/
def emplace (m : AList fun _ : κ ↦ β) (k : κ) (b : β) : AList fun _ : κ ↦ β :=
  if k ∈ m then m else m.insert k b

/-- Emplace entries one after the other. -/
def emplaceAll (m : AList fun _ : κ ↦ β) (l : List (κ × β)) : AList fun _ : κ ↦ β :=
  l.foldl (fun m e ↦ m.emplace e.1 e.2) m

/-- The contents as a sequence of entries. -/
def pairs (m : AList fun _ : κ ↦ β) : List (κ × β) := m.entries.map fun e ↦ (e.1, e.2)

omit [DecidableEq κ] in
/-- Every key is there once. -/
theorem nodup_pairs (m : AList fun _ : κ ↦ β) : (m.pairs.map Prod.fst).Nodup := by
  rw [pairs, List.map_map]
  exact m.nodupKeys

variable [BEq κ] [LawfulBEq κ]

omit [BEq κ] [LawfulBEq κ] in
/-- What is there wins over what comes. -/
theorem lookup_emplace (m : AList fun _ : κ ↦ β) (k k' : κ) (b : β) :
    (m.emplace k b).lookup k' = (m.lookup k').or (if k' = k then some b else none) := by
  rw [emplace]
  split
  case isTrue hmem =>
    split
    case isTrue h =>
      obtain ⟨b', hb'⟩ := Option.isSome_iff_exists.1 (lookup_isSome.2 (h ▸ hmem))
      rw [hb', Option.some_or]
    case isFalse h => rw [Option.or_none]
  case isFalse hmem =>
    split
    case isTrue h => rw [h, lookup_insert, lookup_eq_none.2 hmem, Option.none_or]
    case isFalse h => rw [lookup_insert_ne h, Option.or_none]

/-- **The first entry of each key stays.** -/
theorem lookup_emplaceAll (m : AList fun _ : κ ↦ β) (l : List (κ × β)) (k : κ) :
    (m.emplaceAll l).lookup k = (m.lookup k).or (l.lookup k) := by
  induction l generalizing m with
  | nil => exact Option.or_none.symm
  | cons e l ih =>
    obtain ⟨k', b⟩ := e
    rw [emplaceAll, List.foldl_cons, ← emplaceAll, ih, lookup_emplace, Option.or_assoc, List.lookup_cons]
    by_cases h : k = k'
    · rw [if_pos h, Option.some_or, beq_iff_eq.2 h]
    · rw [if_neg h, Option.none_or, beq_eq_false_iff_ne.2 h]

omit [BEq κ] [LawfulBEq κ] in
/-- Parts one after the other. -/
theorem foldl_emplaceAll (m : AList fun _ : κ ↦ β) (parts : List (List (κ × β))) :
    parts.foldl emplaceAll m = m.emplaceAll parts.flatten := List.foldl_flatten.symm

/-- What a map holds, as a sequence. -/
theorem lookup_pairs (m : AList fun _ : κ ↦ β) (k : κ) : m.pairs.lookup k = m.lookup k := by
  rw [pairs, lookup]
  induction m.entries with
  | nil => rfl
  | cons e entries ih =>
    obtain ⟨k', b⟩ := e
    rw [List.map_cons, List.lookup_cons]
    by_cases h : k = k'
    · subst h
      rw [List.dlookup_cons_eq, beq_self_eq_true]
    · rw [List.dlookup_cons_ne _ _ h, beq_eq_false_iff_ne.2 h]
      exact ih

/-- **Entries that are first emplaced on their own** end up in the same places. -/
theorem lookup_emplaceAll_pairs (m : AList fun _ : κ ↦ β) (l : List (κ × β)) (k : κ) :
    (m.emplaceAll ((∅ : AList fun _ : κ ↦ β).emplaceAll l).pairs).lookup k = (m.emplaceAll l).lookup k := by
  rw [lookup_emplaceAll, lookup_pairs, lookup_emplaceAll, lookup_empty, Option.none_or, lookup_emplaceAll]

end AList
