import AlpacaCpp.Foundation.Bytes
import AlpacaCpp.Core.Enums
import AlpacaCpp.Foundation.Url
import Mathlib.Data.List.Basic

/-!
# `query_builder`

Parameters are kept as pairs, in the order they were added, until `str` prints them; `set` is how
pagination replaces `page_token` in place.

`parse` is what a server does with the text: it cuts at `&` and at the first `=` and decodes both sides.
`parse_str` says that **the server reads the parameters that were added**, names and values and order, with
no condition on the bytes. This rests on `url_encode`, which leaves no delimiter in its result
(`not_mem_urlEncode`) and is undone by decoding (`percentDecode_urlEncode`). The commas that `csv` puts
between the elements of a list are encoded too, so a list comes back as one value, and as its elements when
none of them is empty or has a comma of its own (`splitOn_csv`).

`added` is the difference an `add` makes, so that a query built by many calls is a concatenation, and the
keys that occur in it can be read off the calls.

`set` replaces the value of the first parameter that has its key, where that stands, and adds one if there
is none. So it leaves the other keys alone (`others_set`), and a key that stood there at most once has the
new value and no other (`values_set`): this is what pagination relies on when it sets the token of one page
after that of the last.
-/

namespace Alpaca

/-- `url_encode` -/
def urlEncode (value : Bytes) : Bytes :=
  value.flatMap fun c ↦
    if (c ≥ byte 'A' ∧ c ≤ byte 'Z') ∨ (c ≥ byte 'a' ∧ c ≤ byte 'z') ∨
        (c ≥ byte '0' ∧ c ≤ byte '9') ∨ c = byte '-' ∨ c = byte '_' ∨ c = byte '.' ∨ c = byte '~' then
      [c]
    else [byte '%', hex (c >>> 4), hex (c &&& 0x0F)]
where
  hex (n : UInt8) : UInt8 := (bytes "0123456789ABCDEF").getD n.toNat 0

/-- `query_builder` -/
structure QueryBuilder where
  /-- `params_` -/
  params : List (Bytes × Bytes) := []
  deriving DecidableEq

/-- An encoded byte: itself, or its two digits behind a `%`. -/
theorem urlEncode_singleton (c : UInt8) : (urlEncode [c] = [c] ∧ c ≠ byte '%') ∨
    (urlEncode [c] = [byte '%', urlEncode.hex (c >>> 4), urlEncode.hex (c &&& 0x0F)] ∧
      Url.hexValue (urlEncode.hex (c >>> 4)) = some (c >>> 4) ∧
      Url.hexValue (urlEncode.hex (c &&& 0x0F)) = some (c &&& 0x0F) ∧
      (c >>> 4) <<< 4 ||| (c &&& 0x0F) = c) := by
  obtain ⟨n, rfl⟩ : ∃ n : Fin 256, c = UInt8.ofFin n := ⟨c.toFin, rfl⟩
  revert n
  decide +kernel

theorem urlEncode_cons (c : UInt8) (value : Bytes) :
    urlEncode (c :: value) = urlEncode [c] ++ urlEncode value :=
  @List.flatMap_append _ _ [c] value _

/-- **Encoding is undone by decoding.** -/
theorem percentDecode_urlEncode (value : Bytes) : Url.percentDecode (urlEncode value) = value := by
  induction value with
  | nil => rfl
  | cons c value ih =>
    rw [urlEncode_cons]
    rcases urlEncode_singleton c with ⟨hself, hne⟩ | ⟨hescape, hhigh, hlow, hjoin⟩
    · rw [hself, List.singleton_append, Url.percentDecode_cons_of_ne hne, ih]
    · rw [hescape]
      show Url.percentDecode (_ :: _ :: _ :: urlEncode value) = _
      rw [Url.percentDecode_cons_of_digits hhigh hlow, hjoin, ih]

/-- No delimiter of a query is left. -/
theorem not_mem_urlEncode {d : UInt8} (hd : d ∈ bytes "#&=") (value : Bytes) : d ∉ urlEncode value := by
  induction value with
  | nil => exact List.not_mem_nil
  | cons c value ih =>
    rw [urlEncode_cons, List.mem_append, not_or]
    have hbytes : ∀ n : Fin 256, ∀ d ∈ bytes "#&=", d ∉ urlEncode [UInt8.ofFin n] := by
      decide +kernel
    exact ⟨hbytes c.toFin d hd, ih⟩

namespace QueryBuilder

/-- `add(key, std::string_view)`: an empty value is skipped. -/
def add (q : QueryBuilder) (key value : Bytes) : QueryBuilder :=
  if value ≠ [] then ⟨q.params ++ [(key, value)]⟩ else q

/-- `add` of an optional: skipped when unset. -/
def addOption {α : Type} (q : QueryBuilder) (key : Bytes) (render : α → Bytes) (value : Option α) :
    QueryBuilder :=
  match value with
  | some a => q.add key (render a)
  | none => q

/-- `add` of an integer, which is printed whatever it is. -/
def addNat (q : QueryBuilder) (key : Bytes) (value : ℕ) : QueryBuilder :=
  ⟨q.params ++ [(key, natToString value)]⟩

/-- `add` of an optional integer. -/
def addOptionNat (q : QueryBuilder) (key : Bytes) (value : Option UInt32) : QueryBuilder :=
  match value with
  | some n => q.addNat key n.toNat
  | none => q

/-- `add` of an optional double, which is printed whatever it is. -/
def addOptionDouble {D : Type} (fmt : D → Bytes) (q : QueryBuilder) (key : Bytes) (value : Option D) :
    QueryBuilder :=
  match value with
  | some x => ⟨q.params ++ [(key, fmt x)]⟩
  | none => q

/-- The comma separated list of `add(key, std::vector)`. The separator is put in front of a value
whenever something has been written. -/
def csv (values : List Bytes) : Bytes :=
  values.foldl (fun csv v ↦ (if csv ≠ [] then csv ++ [byte ','] else csv) ++ v) []

/-- `add(key, std::vector)`: an empty vector is skipped. -/
def addList (q : QueryBuilder) (key : Bytes) (values : List Bytes) : QueryBuilder :=
  if values = [] then q else ⟨q.params ++ [(key, csv values)]⟩

/-- The loop of `set`: the first pair with the key gets the value; `none` when there is no such
pair. -/
def replaceFirst (key value : Bytes) : List (Bytes × Bytes) → Option (List (Bytes × Bytes))
  | [] => none
  | (k, v) :: rest =>
    if k = key then some ((k, value) :: rest)
    else (replaceFirst key value rest).map ((k, v) :: ·)

/-- `set`: replaces a key in place, or adds it. -/
def set (q : QueryBuilder) (key value : Bytes) : QueryBuilder :=
  match replaceFirst key value q.params with
  | some params => ⟨params⟩
  | none => q.add key value

/-- `str` -/
def str (q : QueryBuilder) : Bytes :=
  q.params.foldl (fun out p ↦
    out ++ (if out = [] then byte '?' else byte '&') :: urlEncode p.1 ++ byte '=' :: urlEncode p.2) []

/-! ### What a server reads

`str` ends the path it is put behind, and its parameters come back. -/

/-- A parameter, as it is printed. -/
def part (p : Bytes × Bytes) : Bytes := urlEncode p.1 ++ byte '=' :: urlEncode p.2

/-- The loop of `str`, behind its first parameter. -/
theorem foldl_str {out : Bytes} (hout : out ≠ []) (ps : List (Bytes × Bytes)) :
    ps.foldl (fun out p ↦
      out ++ (if out = [] then byte '?' else byte '&') :: urlEncode p.1 ++ byte '=' :: urlEncode p.2)
        out = out ++ (ps.map part).flatMap (byte '&' :: ·) := by
  induction ps generalizing out with
  | nil => exact (List.append_nil out).symm
  | cons p ps ih =>
    -- something stands in front already, so the next parameter comes behind `&`
    rw [List.foldl_cons, ih (by simp), if_neg hout, List.map_cons, List.flatMap_cons, part]
    simp

/-- `?`, and the parameters with `&` between them. -/
theorem str_eq (q : QueryBuilder) :
    q.str = if q.params = [] then [] else byte '?' :: [byte '&'].intercalate (q.params.map part) := by
  rw [str]
  rcases q.params with - | ⟨p, ps⟩
  · rfl
  · rw [if_neg (List.cons_ne_nil _ _), List.foldl_cons, foldl_str (by simp), List.map_cons,
      Url.intercalate_cons, part]
    simp

/-- A query is no part of a path. -/
theorem path_str (q : QueryBuilder) : Url.path q.str = [] := by
  rw [str_eq]
  split <;> rfl

/-- Neither delimiter of a query stands in a parameter. -/
theorem not_mem_part {d : UInt8} (hd : d ∈ bytes "#&") (p : Bytes × Bytes) : d ∉ part p := by
  have hne : d ≠ byte '=' := by
    rintro rfl
    exact absurd hd (by decide)
  have hall : ∀ d ∈ bytes "#&", d ∈ bytes "#&=" := by decide +kernel
  rw [part, List.mem_append, List.mem_cons, not_or, not_or]
  exact ⟨not_mem_urlEncode (hall d hd) _, hne, not_mem_urlEncode (hall d hd) _⟩

/-- Each parameter is read back from its own part. -/
theorem map_parameter_part (ps : List (Bytes × Bytes)) : (ps.map part).map Url.parameter = ps := by
  rw [List.map_map]
  refine (List.map_congr_left fun p _ ↦ ?_).trans (List.map_id _)
  rw [Function.comp_apply, part, Url.parameter_append (not_mem_urlEncode (by decide) _),
    percentDecode_urlEncode, percentDecode_urlEncode]
  rfl

/-- **Parameters come back**, behind any path. -/
theorem parameters_append_str {a : Bytes} (ha : ∀ c ∈ a, Url.endsPath c = false) (q : QueryBuilder) :
    Url.parameters (a ++ q.str) = q.params := by
  rw [str_eq]
  split
  case isTrue h => rw [List.append_nil, Url.parameters_of_inPath ha, h]
  case isFalse h =>
    rw [Url.parameters_append ha (mt List.map_eq_nil_iff.1 h), map_parameter_part]
    intro text htext
    obtain ⟨p, -, rfl⟩ := List.mem_map.1 htext
    exact ⟨not_mem_part (by decide) p, not_mem_part (by decide) p⟩

/-- The loop of `csv`, behind its first value. -/
theorem foldl_csv {out : Bytes} (hout : out ≠ []) (values : List Bytes) :
    values.foldl (fun csv v ↦ (if csv ≠ [] then csv ++ [byte ','] else csv) ++ v) out =
      out ++ values.flatMap (byte ',' :: ·) := by
  induction values generalizing out with
  | nil => exact (List.append_nil out).symm
  | cons v values ih =>
    rw [List.foldl_cons, if_pos hout, ih (by simp [hout]), List.flatMap_cons, List.append_assoc,
      List.append_assoc]
    rfl

/-- **Values come back** from their list, when they can. -/
theorem splitOn_csv {values : List Bytes} (hne : values ≠ [])
    (h : ∀ v ∈ values, v ≠ [] ∧ byte ',' ∉ v) : (csv values).splitOn (byte ',') = values := by
  have hcsv : csv values = [byte ','].intercalate values := by
    rcases values with - | ⟨v, values⟩
    · exact absurd rfl hne
    · have hv : v ≠ [] := (h v List.mem_cons_self).1
      rw [Url.intercalate_cons, ← foldl_csv hv]
      rfl
  rw [hcsv, List.splitOn_intercalate _ (fun v hv ↦ (h v hv).2) hne]

/-- `str` read back: the `?` dropped, a part between two `&` split at its first `=`, both sides
decoded. -/
def parse : Bytes → List (Bytes × Bytes)
  | [] => []
  | _ :: query => (query.splitOn (byte '&')).map Url.parameter

/-- The parameters come back in order. -/
theorem parse_str_eq_params (q : QueryBuilder) : parse q.str = q.params := by
  rw [str_eq]
  split
  case isTrue h => exact h.symm
  case isFalse h =>
    rw [parse, List.splitOn_intercalate _ _ (mt List.map_eq_nil_iff.1 h), map_parameter_part]
    intro text htext
    obtain ⟨p, -, rfl⟩ := List.mem_map.1 htext
    exact not_mem_part (by decide) p

/-- **`str` loses nothing**: its parameters come back in order, it is empty only for the empty query,
and the values of a list come back as well. -/
theorem parse_str (q : QueryBuilder) :
    parse q.str = q.params ∧ (q.str = [] ↔ q.params = []) ∧
      ∀ key values, values ≠ [] → (∀ v ∈ values, v ≠ [] ∧ byte ',' ∉ v) →
        ∃ value, parse (q.addList key values).str = q.params ++ [(key, value)] ∧
          value.splitOn (byte ',') = values := by
  refine ⟨parse_str_eq_params q, ?_,
    fun key values hne hvalues ↦ ⟨csv values, ?_, splitOn_csv hne hvalues⟩⟩
  · rw [str_eq]
    split
    case isTrue h => exact iff_of_true rfl h
    case isFalse h => exact iff_of_false (List.cons_ne_nil _ _) h
  · rw [parse_str_eq_params, addList, if_neg hne]

/-! ### What is added

Every `add` appends; `added` is what it appends, to an empty query or to any other. -/

/-- The parameters a call adds to an empty query. -/
def added (call : QueryBuilder → QueryBuilder) : List (Bytes × Bytes) := (call {}).params

/-- `add` appends, and what it appends does not depend on the query. -/
theorem params_add (q : QueryBuilder) (key value : Bytes) :
    (q.add key value).params = q.params ++ added fun q ↦ q.add key value := by
  rw [added, add, add]
  split
  · rfl
  · exact (List.append_nil _).symm

theorem params_addOption {α : Type} (q : QueryBuilder) (key : Bytes) (render : α → Bytes)
    (value : Option α) :
    (q.addOption key render value).params =
      q.params ++ added fun q ↦ q.addOption key render value := by
  cases value with
  | none => exact (List.append_nil _).symm
  | some a => exact params_add q key _

theorem params_addOptionNat (q : QueryBuilder) (key : Bytes) (value : Option UInt32) :
    (q.addOptionNat key value).params = q.params ++ added fun q ↦ q.addOptionNat key value := by
  cases value with
  | none => exact (List.append_nil _).symm
  | some n => rfl

theorem params_addList (q : QueryBuilder) (key : Bytes) (values : List Bytes) :
    (q.addList key values).params = q.params ++ added fun q ↦ q.addList key values := by
  rw [added, addList, addList]
  split
  · exact (List.append_nil _).symm
  · rfl

/-- Whatever is appended stands under the key of the call. -/
theorem key_of_mem_add {key value : Bytes} {p : Bytes × Bytes}
    (h : p ∈ added fun q ↦ q.add key value) : p.1 = key := by
  rw [added, add] at h
  split at h
  · obtain rfl := List.mem_singleton.1 h
    rfl
  · exact absurd h List.not_mem_nil

theorem key_of_mem_addOption {α : Type} {key : Bytes} {render : α → Bytes} {value : Option α}
    {p : Bytes × Bytes} (h : p ∈ added fun q ↦ q.addOption key render value) : p.1 = key := by
  cases value with
  | none => exact absurd h List.not_mem_nil
  | some a => exact key_of_mem_add h

theorem key_of_mem_addOptionNat {key : Bytes} {value : Option UInt32} {p : Bytes × Bytes}
    (h : p ∈ added fun q ↦ q.addOptionNat key value) : p.1 = key := by
  cases value with
  | none => exact absurd h List.not_mem_nil
  | some n =>
    obtain rfl := List.mem_singleton.1 h
    rfl

theorem key_of_mem_addList {key : Bytes} {values : List Bytes} {p : Bytes × Bytes}
    (h : p ∈ added fun q ↦ q.addList key values) : p.1 = key := by
  rw [added, addList] at h
  split at h
  · exact absurd h List.not_mem_nil
  · obtain rfl := List.mem_singleton.1 h
    rfl

/-! ### Replacing a parameter -/

/-- The values a query holds under a key, in order. -/
def values (q : QueryBuilder) (key : Bytes) : List Bytes :=
  (q.params.filter (·.1 = key)).map Prod.snd

/-- The parameters of a query other than those under a key, in order. -/
def others (q : QueryBuilder) (key : Bytes) : List (Bytes × Bytes) :=
  q.params.filter (·.1 ≠ key)

/-- `replaceFirst` finds nothing when no parameter has the key. -/
theorem replaceFirst_eq_none {key value : Bytes} {l : List (Bytes × Bytes)} :
    replaceFirst key value l = none ↔ l.filter (·.1 = key) = [] := by
  induction l with
  | nil => simp [replaceFirst]
  | cons p rest ih =>
    obtain ⟨k, v⟩ := p
    rw [replaceFirst]
    split
    case isTrue h => simp [h]
    case isFalse h => simp [h, ih]

/-- `replaceFirst` changes the value of the first parameter that has the key. -/
theorem replaceFirst_eq_some {key value : Bytes} {l l' : List (Bytes × Bytes)}
    (h : replaceFirst key value l = some l') :
    l'.filter (·.1 ≠ key) = l.filter (·.1 ≠ key) ∧
      ∃ v rest, l.filter (·.1 = key) = (key, v) :: rest ∧
        l'.filter (·.1 = key) = (key, value) :: rest := by
  induction l generalizing l' with
  | nil => exact absurd h (by simp [replaceFirst])
  | cons p rest ih =>
    obtain ⟨k, v⟩ := p
    rw [replaceFirst] at h
    split at h
    -- the first parameter with the key: replaced, and the rest is not looked at
    case isTrue hk =>
      subst hk
      obtain rfl := Option.some_inj.1 h
      exact ⟨by simp, v, rest.filter (·.1 = k), by simp, by simp⟩
    case isFalse hk =>
      obtain ⟨l'', hl, rfl⟩ := Option.map_eq_some_iff.1 h
      obtain ⟨hothers, w, tail, hfilter, hfilter'⟩ := ih hl
      refine ⟨?_, w, tail, ?_, ?_⟩
      · simpa [hk] using hothers
      · simpa [hk] using hfilter
      · simpa [hk] using hfilter'

/-- A query is its parameters under a key and its others, up to order. -/
theorem perm_others_append (q : QueryBuilder) (key : Bytes) :
    q.params.Perm (q.others key ++ (q.values key).map (key, ·)) := by
  have hkey : (q.values key).map (key, ·) = q.params.filter (·.1 = key) := by
    rw [values, List.map_map]
    refine (List.map_congr_left ?_).trans (List.map_id _)
    rintro ⟨k, v⟩ hp
    obtain rfl : k = key := by simpa using (List.mem_filter.1 hp).2
    rfl
  have hperm := List.filter_append_perm (fun p : Bytes × Bytes ↦ decide (p.1 ≠ key)) q.params
  rw [hkey, others]
  simpa using hperm.symm

/-- **`set` leaves every other parameter as it was**, in value and in order. -/
theorem others_set (q : QueryBuilder) (key value : Bytes) :
    (q.set key value).others key = q.others key := by
  rw [set]
  split
  case h_1 params h => exact (replaceFirst_eq_some h).1
  case h_2 h =>
    rw [add]
    split <;> simp [others]

/-- **After `set`, a key held at most once is held exactly once**, with the new value. -/
theorem values_set {q : QueryBuilder} {key value : Bytes} (hvalue : value ≠ [])
    (h : (q.values key).length ≤ 1) : (q.set key value).values key = [value] := by
  rw [values, List.length_map] at h
  rw [set, values]
  split
  case h_1 params hparams =>
    obtain ⟨-, v, rest, hfilter, hfilter'⟩ := replaceFirst_eq_some hparams
    obtain rfl : rest = [] := by
      rw [hfilter, List.length_cons] at h
      exact List.eq_nil_of_length_eq_zero (by omega)
    rw [hfilter']
    rfl
  case h_2 hnone =>
    have hempty := replaceFirst_eq_none.1 hnone
    rw [add, if_pos hvalue, List.filter_append, hempty]
    simp

end QueryBuilder

end Alpaca
