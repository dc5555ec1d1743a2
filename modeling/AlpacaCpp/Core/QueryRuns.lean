import AlpacaCpp.Core.Numbers
import AlpacaCpp.Core.Query
import AlpacaCpp.Foundation.Machine
import AlpacaCpp.Time.Timestamp

/-!
# Empty values in a query

A server rejects a filter with an empty value, so `query_builder` skips an empty string. Its other
operations do not all look: a number that is not finite is printed as nothing, a vector may flatten to
nothing, and `set` replaces a value by whatever it is given. `forall_noEmpty_iff` says which operations
keep every value nonempty, over whole sequences of them.

The operations are the steps of a machine whose state is the query, and `Filling` is the condition on one
of them, read off its arguments: it puts something in, or it adds nothing at all. `noEmpty_of_step` says
that a step from a query without empty values stays without them exactly when it is filling; the run lemma
of the machine does the rest. Both directions hold, since an operation that is not filling leaves an empty
value right behind it.

A list is flattened by `csv`, which separates by a comma only what stands in front. So a list of empty
elements flattens to nothing (`csv_eq_nil_iff`), and one empty element beside another that is not empty is
no harm.
-/

namespace Alpaca

namespace QueryBuilder

open Machine

/-! ### The operations -/

/-- `std::to_string` of a signed integer. -/
def intToString (n : ℤ) : Bytes :=
  if n < 0 then byte '-' :: natToString n.natAbs else natToString n.toNat

/-- What `add` is overloaded on. -/
inductive Argument
  /-- `std::string_view`, `const std::string &` -/
  | string (value : Bytes)
  /-- `const char *`, which may be null. -/
  | cString (value : Option Bytes)
  | boolean (value : Bool)
  | double (value : Double)
  | integer (value : ℤ)
  /-- An enumerator, by what its `to_string` returns. -/
  | enumerator (text : Bytes)
  | strings (values : List Bytes)
  /-- `std::optional`, unset. -/
  | unset
  /-- `std::optional`, set. -/
  | engaged (value : Argument)

/-- `add`, where it has a meaning: printing a double may read past its buffer. -/
def addArgument (q : QueryBuilder) (key : Bytes) : Argument → Option QueryBuilder
  | .string value => some (q.add key value)
  | .cString (some value) => some (q.add key value)
  | .cString none => some q
  | .boolean value => some ⟨q.params ++ [(key, bytes (if value then "true" else "false"))]⟩
  | .double value => (doubleToString value).map fun text ↦ ⟨q.params ++ [(key, text)]⟩
  | .integer value => some ⟨q.params ++ [(key, intToString value)]⟩
  | .enumerator text => some (q.add key text)
  | .strings values => some (q.addList key values)
  | .unset => some q
  | .engaged value => q.addArgument key value

/-- `add_timestamp`: 0 is treated as unset. -/
def addTimestamp (q : QueryBuilder) (key : Bytes) (nanoseconds : UInt64) : QueryBuilder :=
  if nanoseconds ≠ 0 then ⟨q.params ++ [(key, toRfc3339 nanoseconds.toNat)]⟩ else q

/-- `remove` -/
def remove (q : QueryBuilder) (key : Bytes) : QueryBuilder := ⟨q.params.filter (·.1 ≠ key)⟩

/-- One call on a `query_builder`. -/
inductive Operation
  | add (key : Bytes) (value : Argument)
  | addTimestamp (key : Bytes) (nanoseconds : UInt64)
  | set (key value : Bytes)
  | remove (key : Bytes)

def step (q : QueryBuilder) : Operation → Option QueryBuilder
  | .add key value => q.addArgument key value
  | .addTimestamp key nanoseconds => some (q.addTimestamp key nanoseconds)
  | .set key value => some (q.set key value)
  | .remove key => some (q.remove key)

/-- A `query_builder` and the calls on it. -/
def machine : Machine QueryBuilder Operation := ⟨step⟩

/-! ### Empty values -/

/-- No parameter has an empty value. -/
def NoEmpty (q : QueryBuilder) : Prop := ∀ p ∈ q.params, p.2 ≠ []

/-- Something is printed for the argument, unless it is skipped. -/
def Argument.Printed : Argument → Prop
  | .double (.finite _) => True
  | .double .nan | .double (.infinity _) => False
  | .strings values => values = [] ∨ ∃ v ∈ values, v ≠ []
  | .engaged value => value.Printed
  | .string _ | .cString _ | .boolean _ | .integer _ | .enumerator _ | .unset => True

/-- The call cannot leave an empty value behind: what it adds is printed, and what it replaces a value
by is not empty. -/
def Filling (q : QueryBuilder) : Operation → Prop
  | .add _ value => value.Printed
  | .set key value => value ≠ [] ∨ ∀ p ∈ q.params, p.1 ≠ key
  | .addTimestamp _ _ | .remove _ => True

variable {q q' : QueryBuilder} {key value : Bytes}

theorem noEmpty_empty : NoEmpty {} := fun _ hp ↦ absurd hp List.not_mem_nil

/-- A parameter that is appended decides. -/
theorem noEmpty_append (h : q.NoEmpty) :
    NoEmpty ⟨q.params ++ [(key, value)]⟩ ↔ value ≠ [] := by
  refine ⟨fun hall ↦ hall (key, value) (List.mem_append_right _ (List.mem_singleton_self _)), ?_⟩
  rintro hvalue p hp
  rcases List.mem_append.1 hp with hold | hnew
  · exact h p hold
  · exact List.mem_singleton.1 hnew ▸ hvalue

/-- Adding a string is safe. -/
theorem noEmpty_add (h : q.NoEmpty) : (q.add key value).NoEmpty := by
  rw [add]
  split
  case isTrue hvalue => exact (noEmpty_append h).2 hvalue
  case isFalse => exact h

/-- A vector flattens to nothing only if there is nothing in it. -/
theorem csv_eq_nil_iff (values : List Bytes) : csv values = [] ↔ ∀ v ∈ values, v = [] := by
  rw [csv]
  induction values with
  | nil => simp
  | cons v values ih =>
    rw [List.foldl_cons, List.forall_mem_cons]
    rcases v with - | ⟨c, v⟩
    · simpa using ih
    · rw [show (if ([] : Bytes) ≠ [] then [] ++ [byte ','] else []) ++ c :: v = c :: v from rfl,
        foldl_csv (List.cons_ne_nil c v)]
      simp

/-- A list puts a value in unless it has elements and all of them are empty. -/
theorem noEmpty_addList {values : List Bytes} (h : q.NoEmpty) :
    (q.addList key values).NoEmpty ↔ values = [] ∨ ∃ v ∈ values, v ≠ [] := by
  rw [addList]
  split
  case isTrue hnil => exact iff_of_true h (.inl hnil)
  case isFalse hne =>
    rw [noEmpty_append h, Ne, csv_eq_nil_iff]
    push Not
    exact (or_iff_right hne).symm

/-- Only a number that is not finite is printed as nothing. -/
theorem ne_nil_of_doubleToString {v : FiniteDouble} {text : Bytes}
    (h : doubleToString (.finite v) = some text) : text ≠ [] := by
  have hkept : ∀ kept : Bytes, (if kept = [] then bytes "0" else kept) ≠ [] := by
    intro kept
    split
    case isTrue => decide
    case isFalse hne => exact hne
  rw [doubleToString] at h
  split at h
  case isTrue hlength =>
    rw [length_fixedNotation] at hlength
    omega
  case isFalse =>
    obtain ⟨s, -, rfl⟩ := Option.map_eq_some_iff.1 h
    exact hkept _

/-- An integer is printed with a digit. -/
theorem intToString_ne_nil (n : ℤ) : intToString n ≠ [] := by
  rw [intToString]
  split
  · exact List.cons_ne_nil _ _
  · simp [natToString, bytes]

theorem toRfc3339_ne_nil (nanoseconds : ℕ) : toRfc3339 nanoseconds ≠ [] := by
  rw [toRfc3339]
  exact List.append_ne_nil_of_right_ne_nil _ (List.cons_ne_nil _ _)

/-- **Adding.** -/
theorem noEmpty_addArgument {a : Argument} (h : q.NoEmpty) (hadd : q.addArgument key a = some q') :
    q'.NoEmpty ↔ a.Printed := by
  induction a with
  | string value | enumerator value =>
    obtain rfl := Option.some.inj hadd
    exact iff_of_true (noEmpty_add h) trivial
  | cString value =>
    rcases value with - | value
    · obtain rfl := Option.some.inj hadd
      exact iff_of_true h trivial
    · obtain rfl := Option.some.inj hadd
      exact iff_of_true (noEmpty_add h) trivial
  | boolean value =>
    obtain rfl := Option.some.inj hadd
    exact iff_of_true ((noEmpty_append h).2 (by cases value <;> decide)) trivial
  | double value =>
    obtain ⟨text, htext, rfl⟩ := Option.map_eq_some_iff.1 hadd
    rw [noEmpty_append h]
    rcases value with - | negative | v
    · exact iff_of_false (fun hne ↦ hne (Option.some.inj htext).symm) id
    · exact iff_of_false (fun hne ↦ hne (Option.some.inj htext).symm) id
    · exact iff_of_true (ne_nil_of_doubleToString htext) trivial
  | integer value =>
    obtain rfl := Option.some.inj hadd
    exact iff_of_true ((noEmpty_append h).2 (intToString_ne_nil value)) trivial
  | strings values =>
    obtain rfl := Option.some.inj hadd
    exact noEmpty_addList h
  | unset =>
    obtain rfl := Option.some.inj hadd
    exact iff_of_true h trivial
  | engaged a ih => exact ih hadd

/-- **Replacing.** -/
theorem noEmpty_set (h : q.NoEmpty) :
    (q.set key value).NoEmpty ↔ value ≠ [] ∨ ∀ p ∈ q.params, p.1 ≠ key := by
  have hheld : (∀ p ∈ q.params, p.1 ≠ key) ↔ q.params.filter (·.1 = key) = [] := by
    rw [List.filter_eq_nil_iff]
    simp only [decide_eq_true_eq]
  rw [hheld, set]
  split
  case h_1 params hparams =>
    obtain ⟨hothers, v, rest, hbefore, hafter⟩ := replaceFirst_eq_some hparams
    rw [hbefore, or_iff_left (List.cons_ne_nil _ _)]
    have hmem : ∀ p, p ∈ params ↔ p ∈ (key, value) :: rest ∨ p ∈ q.params.filter (·.1 ≠ key) := by
      intro p
      rw [← hafter, ← hothers, List.mem_filter, List.mem_filter]
      by_cases hp : p.1 = key <;> simp [hp]
    have hrest : ∀ p ∈ rest, p ∈ q.params := fun p hp ↦
      (List.mem_filter.1 (hbefore ▸ List.mem_cons_of_mem _ hp)).1
    refine ⟨fun hall ↦ hall (key, value) ((hmem _).2 (.inl List.mem_cons_self)), ?_⟩
    intro hvalue p hp
    rcases (hmem p).1 hp with hp | hp
    · rcases List.mem_cons.1 hp with rfl | hp
      · exact hvalue
      · exact h p (hrest p hp)
    · exact h p (List.mem_filter.1 hp).1
  case h_2 hnone => exact iff_of_true (noEmpty_add h) (.inr (replaceFirst_eq_none.1 hnone))

/-- **Step lemma.** From a query without empty values, a call leads to another one if and only if it is
filling. -/
theorem noEmpty_of_step (q : QueryBuilder) (op : Operation) (q' : QueryBuilder) (h : q.NoEmpty)
    (hstep : machine.step q op = some q') : q'.NoEmpty ↔ q.Filling op := by
  cases op with
  | add key value => exact noEmpty_addArgument h hstep
  | addTimestamp key nanoseconds =>
    obtain rfl := Option.some.inj hstep
    rw [addTimestamp]
    split
    · exact iff_of_true ((noEmpty_append h).2 (toRfc3339_ne_nil _)) trivial
    · exact iff_of_true h trivial
  | set key value =>
    obtain rfl := Option.some.inj hstep
    exact noEmpty_set h
  | remove key =>
    obtain rfl := Option.some.inj hstep
    exact iff_of_true (fun p hp ↦ h p (List.mem_filter.1 hp).1) trivial

/-- **When no value is ever empty.** Take any sequence of calls that has a meaning. The builder holds no
empty value at any time of it, and what it prints has none at any time, if and only if each call finds
the builder so that it is filling: doubles are finite, vectors that are not empty have a string that is
not empty, and no value that is held is replaced by an empty one. -/
theorem forall_noEmpty_iff {ops : List Operation} (hrun : machine.run {} ops = some q) :
    (∀ pre s, pre <+: ops → machine.run {} pre = some s →
        s.NoEmpty ∧ ∀ p ∈ parse s.str, p.2 ≠ []) ↔
      machine.RunsUnder Filling {} ops q := by
  rw [runsUnder_iff_forall_state noEmpty_of_step noEmpty_empty hrun]
  simp only [parse_str_eq_params]
  exact forall₂_congr fun pre s ↦ imp_congr_right fun _ ↦ imp_congr_right fun _ ↦ and_self_iff

/-- A filter that is added, replaced and removed. -/
def replacedFilter : List Operation :=
  [.add (bytes "symbols") (.strings [[], bytes "AAPL"]), .set (bytes "symbols") (bytes "MSFT"),
    .remove (bytes "symbols")]

/-- A filter that is added and then replaced, in both senses. -/
theorem forall_noEmpty_replacedFilter :
    ∃ q, machine.run {} replacedFilter = some q ∧
      ((∀ pre s, pre <+: replacedFilter → machine.run {} pre = some s →
          s.NoEmpty ∧ ∀ p ∈ parse s.str, p.2 ≠ []) ↔ machine.RunsUnder Filling {} replacedFilter q) :=
  ⟨_, rfl, forall_noEmpty_iff rfl⟩

/-- A filter with nothing behind it. -/
def emptyFilter : QueryBuilder := ⟨[(bytes "symbols", [])]⟩

/-- **Three ways to an empty filter.** A vector of one empty string, a number that is not finite, and an
empty string set over a value that is held: the server is asked for `symbols=`. -/
theorem prints_emptyFilter :
    machine.run {} [.add (bytes "symbols") (.strings [[]])] = some emptyFilter ∧
      machine.run {} [.add (bytes "symbols") (.double .nan)] = some emptyFilter ∧
      machine.run {} [.add (bytes "symbols") (.string (bytes "AAPL")), .set (bytes "symbols") []] =
        some emptyFilter ∧
      ¬ emptyFilter.NoEmpty ∧ emptyFilter.str = bytes "?symbols=" := by
  have hempty : ¬ emptyFilter.NoEmpty := fun h ↦ h _ (List.mem_singleton_self _) rfl
  exact ⟨rfl, rfl, by decide +kernel, hempty, by decide +kernel⟩

end QueryBuilder

end Alpaca
