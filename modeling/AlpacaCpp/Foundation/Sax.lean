import Mathlib.Data.Nat.Notation
import Mathlib.Data.List.Basic

/-!
# Trees and their event streams

Self-describing data as a tree of scalars, arrays and maps with arbitrary keys, and the events a SAX
parser reports for it in document order. A visitor is a step function on events, and the question
about one is always what it makes of `events t`. Keys are trees themselves, marked off by events of their
own, since in a binary format anything can be a key.

Three rules carry such proofs.

* `Tree.Cases` is the induction over a tree together with its lists of elements and of entries. It is a
  structure with one field for each constructor, so that a proof about trees is written as an instance of
  it.
* `Skips.foldl_elemEvents` and `Skips.foldl_entryEvents` are for the parts of a tree a visitor walks over:
  when its state only follows the nesting there, it is unchanged behind them.
* `Nested.of_prefix` is for input that breaks off: nothing closes in it that has not been opened.
-/

universe u v

namespace Sax

/-- A tree over scalars of type `S`. -/
inductive Tree (S : Type u) where
  | scalar (s : S)
  | array (elems : List (Tree S))
  | map (entries : List (Tree S × Tree S))

/-- What a parser reports. -/
inductive Event (S : Type u) where
  | visit (s : S)
  | startArray
  | endArray
  | startMap
  | endMap
  | startMapKey
  | endMapKey

namespace Tree

variable {S : Type u}

mutual

/-- The events of a tree, in document order. -/
def events : Tree S → List (Event S)
  | scalar s => [.visit s]
  | array elems => .startArray :: elemEvents elems ++ [.endArray]
  | map entries => .startMap :: entryEvents entries ++ [.endMap]

/-- The events of the elements of an array. -/
def elemEvents : List (Tree S) → List (Event S)
  | [] => []
  | t :: ts => t.events ++ elemEvents ts

/-- The events of the entries of a map. -/
def entryEvents : List (Tree S × Tree S) → List (Event S)
  | [] => []
  | (k, v) :: es => .startMapKey :: k.events ++ .endMapKey :: v.events ++ entryEvents es

end

mutual

/-- The maps that are not inside another map, each as its entries, in document order. -/
def outerMaps : Tree S → List (List (Tree S × Tree S))
  | scalar _ => []
  | array elems => elemOuterMaps elems
  | map entries => [entries]

/-- The outer maps of the elements of an array. -/
def elemOuterMaps : List (Tree S) → List (List (Tree S × Tree S))
  | [] => []
  | t :: ts => t.outerMaps ++ elemOuterMaps ts

end

/-- Induction over a tree, its elements and its entries. -/
structure Cases (P : Tree S → Prop) (Q : List (Tree S) → Prop)
    (R : List (Tree S × Tree S) → Prop) : Prop where
  scalar : ∀ s, P (.scalar s)
  array : ∀ elems, Q elems → P (.array elems)
  map : ∀ entries, R entries → P (.map entries)
  nil : Q []
  cons : ∀ t ts, P t → Q ts → Q (t :: ts)
  entryNil : R []
  entryCons : ∀ k v es, P k → P v → R es → R ((k, v) :: es)

variable {P : Tree S → Prop} {Q : List (Tree S) → Prop} {R : List (Tree S × Tree S) → Prop}

mutual

/-- The induction over the shapes that the reader tells apart, for trees. -/
theorem Cases.tree (h : Cases P Q R) : ∀ t, P t
  | .scalar s => h.scalar s
  | .array elems => h.array elems (h.elems elems)
  | .map entries => h.map entries (h.entries entries)

theorem Cases.elems (h : Cases P Q R) : ∀ ts, Q ts
  | [] => h.nil
  | t :: ts => h.cons t ts (h.tree t) (h.elems ts)

theorem Cases.entries (h : Cases P Q R) : ∀ es, R es
  | [] => h.entryNil
  | (k, v) :: es => h.entryCons k v es (h.tree k) (h.tree v) (h.entries es)

end

end Tree

/-! ### Walking over a tree -/

variable {S : Type u} {σ : Type v}

section Folds

variable (step : σ → Event S → σ) (s : σ)

/-- An array is walked from its start over its elements to its end. -/
theorem foldl_events_array (elems : List (Tree S)) :
    (Tree.array elems).events.foldl step s =
      step ((Tree.elemEvents elems).foldl step (step s .startArray)) .endArray := by
  rw [Tree.events, List.cons_append, List.foldl_cons, List.foldl_append]
  rfl

/-- A map is walked over its entries. -/
theorem foldl_events_map (entries : List (Tree S × Tree S)) :
    (Tree.map entries).events.foldl step s =
      step ((Tree.entryEvents entries).foldl step (step s .startMap)) .endMap := by
  rw [Tree.events, List.cons_append, List.foldl_cons, List.foldl_append]
  rfl

theorem foldl_elemEvents_cons (t : Tree S) (ts : List (Tree S)) :
    (Tree.elemEvents (t :: ts)).foldl step s =
      (Tree.elemEvents ts).foldl step (t.events.foldl step s) := by
  rw [Tree.elemEvents, List.foldl_append]

/-- An entry is walked with its key between the two events that mark it. -/
theorem foldl_entryEvents_cons (k v : Tree S) (es : List (Tree S × Tree S)) :
    (Tree.entryEvents ((k, v) :: es)).foldl step s =
      (Tree.entryEvents es).foldl step
        (v.events.foldl step (step (k.events.foldl step (step s .startMapKey)) .endMapKey)) := by
  rw [Tree.entryEvents, List.cons_append, List.cons_append, List.foldl_cons, List.foldl_append,
    List.foldl_append, List.foldl_cons]

end Folds

/-- A visitor whose states `I n`, at nesting `n` below some point, do nothing but count the
nesting. -/
structure Skips (step : σ → Event S → σ) (I : ℕ → σ) : Prop where
  visit : ∀ n s, step (I n) (.visit s) = I n
  startArray : ∀ n, step (I n) .startArray = I (n + 1)
  endArray : ∀ n, step (I (n + 1)) .endArray = I n
  startMap : ∀ n, step (I n) .startMap = I (n + 1)
  endMap : ∀ n, step (I (n + 1)) .endMap = I n
  startMapKey : ∀ n, step (I n) .startMapKey = I n
  endMapKey : ∀ n, step (I n) .endMapKey = I n

section Skipping

variable {step : σ → Event S → σ} {I : ℕ → σ} (h : Skips step I)

include h

private theorem Skips.cases :
    Tree.Cases (fun t : Tree S ↦ ∀ n, t.events.foldl step (I n) = I n)
      (fun ts ↦ ∀ n, (Tree.elemEvents ts).foldl step (I n) = I n)
      (fun es ↦ ∀ n, (Tree.entryEvents es).foldl step (I n) = I n) where
  scalar s n := h.visit n s
  array elems ih n := by
    rw [foldl_events_array, h.startArray, ih]
    exact h.endArray n
  map entries ih n := by
    rw [foldl_events_map, h.startMap, ih]
    exact h.endMap n
  nil n := rfl
  cons t ts ht hts n := by rw [foldl_elemEvents_cons, ht, hts]
  entryNil n := rfl
  entryCons k v es hk hv hes n := by
    rw [foldl_entryEvents_cons, h.startMapKey, hk, h.endMapKey, hv, hes]

theorem Skips.foldl_elemEvents (ts : List (Tree S)) (n : ℕ) :
    (Tree.elemEvents ts).foldl step (I n) = I n :=
  h.cases.elems ts n

theorem Skips.foldl_entryEvents (es : List (Tree S × Tree S)) (n : ℕ) :
    (Tree.entryEvents es).foldl step (I n) = I n :=
  h.cases.entries es n

end Skipping

/-! ### Nesting -/

/-- The nesting behind an event, if it does not close what was never opened. -/
def nesting : ℕ → Event S → Option ℕ
  | n, .startArray => some (n + 1)
  | n, .startMap => some (n + 1)
  | 0, .endArray => none
  | 0, .endMap => none
  | n + 1, .endArray => some n
  | n + 1, .endMap => some n
  | n, _ => some n

/-- Events that close only what was opened, from nesting `n` on. -/
def Nested (n : ℕ) (events : List (Event S)) : Prop := (events.foldlM nesting n).isSome

/-- Nesting is followed event by event. -/
theorem nested_cons {n : ℕ} {e : Event S} {events : List (Event S)} :
    Nested n (e :: events) ↔ ∃ m, nesting n e = some m ∧ Nested m events := by
  rw [Nested, List.foldlM_cons, Option.bind_eq_bind]
  cases nesting n e with
  | none => exact ⟨fun h ↦ absurd h Bool.false_ne_true, fun ⟨_, h, _⟩ ↦ absurd h.symm (by simp)⟩
  | some m => exact ⟨fun h ↦ ⟨m, rfl, h⟩, fun ⟨_, h, hm⟩ ↦ Option.some_inj.1 h ▸ hm⟩

private theorem foldlM_nesting_cases :
    Tree.Cases (fun t : Tree S ↦ ∀ n, t.events.foldlM nesting n = some n)
      (fun ts ↦ ∀ n, (Tree.elemEvents ts).foldlM nesting n = some n)
      (fun es ↦ ∀ n, (Tree.entryEvents es).foldlM nesting n = some n) where
  scalar s n := by cases n <;> rfl
  array elems ih n := by
    rw [Tree.events, List.cons_append, List.foldlM_cons, nesting, Option.bind_eq_bind,
      Option.bind_some, List.foldlM_append, ih]
    rfl
  map entries ih n := by
    rw [Tree.events, List.cons_append, List.foldlM_cons, nesting, Option.bind_eq_bind,
      Option.bind_some, List.foldlM_append, ih]
    rfl
  nil n := rfl
  cons t ts ht hts n := by
    rw [Tree.elemEvents, List.foldlM_append, ht]
    exact hts n
  entryNil n := rfl
  entryCons k v es hk hv hes n := by
    -- The marks of a key do not nest.
    have hkey : ∀ e : Event S, e = .startMapKey ∨ e = .endMapKey → nesting n e = some n := by
      rintro e (rfl | rfl) <;> cases n <;> rfl
    simp only [Tree.entryEvents, List.cons_append, List.foldlM_cons, List.foldlM_append, hkey, hk, hv,
      hes, Option.bind_eq_bind, Option.bind_some, true_or, or_true]

/-- The events of a tree leave the nesting as it was. -/
theorem foldlM_nesting_events (t : Tree S) (n : ℕ) : t.events.foldlM nesting n = some n :=
  foldlM_nesting_cases.tree t n

/-- **Input that breaks off** anywhere is still nested. -/
theorem Nested.of_prefix {t : Tree S} {events : List (Event S)} (h : events <+: t.events) :
    Nested 0 events := by
  obtain ⟨rest, hrest⟩ := h
  have hwhole := foldlM_nesting_events t 0
  rw [← hrest, List.foldlM_append, Option.bind_eq_bind] at hwhole
  obtain ⟨m, hm, -⟩ := Option.bind_eq_some_iff.1 hwhole
  exact Option.isSome_iff_exists.2 ⟨m, hm⟩

end Sax
