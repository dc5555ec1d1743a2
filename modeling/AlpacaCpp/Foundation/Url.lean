import AlpacaCpp.Foundation.Bytes
import Mathlib.Data.List.Basic
import Mathlib.Data.List.TakeWhile
import Mathlib.Data.Option.Basic

/-!
# URLs, as a server reads them

A URL ends its path at the first `?` or `#`, its query at `#`. The path is split at `/` and each segment
is percent-decoded; the query is split at `&`, and each parameter at its first `=`. This is the reader that a
client's URLs are measured against: it does not know how they were made.

Text put into a path survives this or does not, and `Literal` is when it does: it holds none of the
three delimiters and nothing that decodes. `segments_append_eq_iff` is that **nothing less is enough**.
The argument is one of length: decoding never lengthens, and a path cut short never grows back. So text that
comes back as one segment with its own length cannot have lost a byte on the way, to a delimiter or to
decoding.

Parameters are simpler, because they are encoded: a query without bare delimiters in its parts is read back
part by part (`parameters_append`).
-/

namespace Url

/-! ### Percent-encoding

A `%` with two hexadecimal digits behind it stands for one byte, and any other byte for itself. A `%` that
is cut short or followed by something else is left as it is. -/

/-- The value of a hexadecimal digit. -/
def hexValue (c : UInt8) : Option UInt8 :=
  if byte '0' ≤ c ∧ c ≤ byte '9' then some (c - byte '0')
  else if byte 'A' ≤ c ∧ c ≤ byte 'F' then some (c - byte 'A' + 10)
  else if byte 'a' ≤ c ∧ c ≤ byte 'f' then some (c - byte 'a' + 10)
  else none

/-- Percent-decoding. A `%` that no two hexadecimal digits follow stands for itself. -/
def percentDecode : Bytes → Bytes
  | [] => []
  | [a] => [a]
  | [a, b] => [a, b]
  | a :: b :: c :: rest =>
    match (if a = byte '%' then hexValue b else none), hexValue c with
    | some high, some low => (high <<< 4 ||| low) :: percentDecode rest
    | _, _ => a :: percentDecode (b :: c :: rest)

/-- Decoding never lengthens. -/
theorem length_percentDecode_le (s : Bytes) : (percentDecode s).length ≤ s.length := by
  induction s using percentDecode.induct with
  | case1 => exact Nat.le_refl _
  | case2 a => exact Nat.le_refl _
  | case3 a b => exact Nat.le_refl _
  | case4 a b c rest high low hhigh hlow ih =>
    rw [percentDecode, hhigh, hlow]
    exact Nat.succ_le_succ (Nat.le_trans ih (Nat.le_add_right _ 2))
  | case5 a b c rest hnone ih =>
    rw [percentDecode]
    split
    · exact absurd (hnone _ _ ‹_› ‹_›) id
    · exact Nat.succ_le_succ ih

/-- What keeps its length is what does not change. -/
theorem percentDecode_eq_self {s : Bytes} (h : s.length ≤ (percentDecode s).length) :
    percentDecode s = s := by
  induction s using percentDecode.induct with
  | case1 => rfl
  | case2 a => rfl
  | case3 a b => rfl
  | case4 a b c rest high low hhigh hlow ih =>
    have hrest := length_percentDecode_le rest
    rw [percentDecode, hhigh, hlow] at h
    simp only [List.length_cons] at h
    omega
  | case5 a b c rest hnone ih =>
    rw [percentDecode] at h ⊢
    split at h
    · exact absurd (hnone _ _ ‹_› ‹_›) id
    · exact congrArg (a :: ·) (ih (Nat.le_of_succ_le_succ h))

/-- Only a percent sign is special. -/
theorem percentDecode_cons_of_ne {a : UInt8} (h : a ≠ byte '%') (s : Bytes) :
    percentDecode (a :: s) = a :: percentDecode s := by
  rcases s with - | ⟨b, - | ⟨c, rest⟩⟩
  · rfl
  · rfl
  · rw [percentDecode, if_neg h]

theorem percentDecode_cons_of_digits {b c high low : UInt8} (hhigh : hexValue b = some high)
    (hlow : hexValue c = some low) (s : Bytes) :
    percentDecode (byte '%' :: b :: c :: s) = (high <<< 4 ||| low) :: percentDecode s := by
  rw [percentDecode, if_pos rfl, hhigh, hlow]

/-! ### Taking a URL apart

In this order: the path and the query are cut out first, then split at their delimiters, and only the
pieces are decoded. An encoded delimiter is therefore part of a piece. -/

/-- Ending the path. -/
def endsPath (c : UInt8) : Bool := c = byte '?' ∨ c = byte '#'

/-- The path, with everything in front of it. -/
def path (url : Bytes) : Bytes := url.takeWhile fun c ↦ !endsPath c

/-- The segments of the path, decoded. -/
def segments (url : Bytes) : List Bytes := ((path url).splitOn (byte '/')).map percentDecode

/-- The query, if there is one. -/
def query (url : Bytes) : Option Bytes :=
  match (url.takeWhile (· ≠ byte '#')).dropWhile (· ≠ byte '?') with
  | [] => none
  | _ :: query => some query

/-- A parameter, decoded. -/
def parameter (part : Bytes) : Bytes × Bytes :=
  (percentDecode (part.takeWhile (· ≠ byte '=')),
    percentDecode ((part.dropWhile (· ≠ byte '=')).drop 1))

/-- The parameters of the query, decoded. -/
def parameters (url : Bytes) : List (Bytes × Bytes) :=
  match query url with
  | some query => (query.splitOn (byte '&')).map parameter
  | none => []

/-! ### Paths -/

/-- Segments as a path. -/
def joined (segs : List Bytes) : Bytes := segs.flatMap (byte '/' :: ·)

theorem joined_cons (seg : Bytes) (segs : List Bytes) :
    joined (seg :: segs) = byte '/' :: seg ++ joined segs := List.flatMap_cons

/-- Text between separators, as its head and its tail. -/
theorem intercalate_cons (sep : UInt8) (a : Bytes) (l : List Bytes) :
    [sep].intercalate (a :: l) = a ++ l.flatMap (sep :: ·) := by
  induction l generalizing a with
  | nil => exact List.intercalate_singleton.trans (List.append_nil a).symm
  | cons b l ih =>
    rw [List.intercalate_cons_cons, ih b, List.flatMap_cons, List.append_assoc]
    rfl

/-- Splitting undone. -/
theorem joined_splitOn (s : Bytes) : joined (s.splitOn (byte '/')) = byte '/' :: s := by
  have hsplit : [byte '/'].intercalate (s.splitOn (byte '/')) = s := List.intercalate_splitOn _
  rcases hparts : s.splitOn (byte '/') with - | ⟨seg, segs⟩
  · exact absurd hparts (List.splitOn_ne_nil _ _)
  · rw [hparts, intercalate_cons] at hsplit
    rw [joined_cons, List.cons_append, joined, hsplit]

/-- A segment has no slash in it. -/
theorem not_mem_of_mem_splitOn {c : UInt8} {s seg : Bytes} (h : seg ∈ s.splitOn c) : c ∉ seg := by
  induction s generalizing seg with
  | nil =>
    obtain rfl := List.mem_singleton.1 h
    exact List.not_mem_nil
  | cons d s ih =>
    rw [List.splitOn_cons_eq_if_modifyHead] at h
    split at h
    case isTrue hd =>
      rcases List.mem_cons.1 h with rfl | hmem
      · exact List.not_mem_nil
      · exact ih hmem
    -- The byte goes to the front of the first segment.
    case isFalse hd =>
      rcases hsplit : s.splitOn c with - | ⟨first, rest⟩
      · exact absurd hsplit (List.splitOn_ne_nil _ _)
      · rw [hsplit, List.modifyHead_cons] at h
        rw [hsplit] at ih
        rcases List.mem_cons.1 h with rfl | hmem
        · refine List.not_mem_cons_of_ne_of_not_mem ?_ (ih List.mem_cons_self)
          rintro rfl
          exact hd (beq_self_eq_true _)
        · exact ih (List.mem_cons_of_mem _ hmem)

/-- Segments without `/` come back. -/
theorem splitOn_append_joined {segs : List Bytes} (h : ∀ seg ∈ segs, byte '/' ∉ seg) (base : Bytes) :
    (base ++ joined segs).splitOn (byte '/') = base.splitOn (byte '/') ++ segs := by
  induction segs generalizing base with
  | nil => exact (congrArg _ (List.append_nil base)).trans (List.append_nil _).symm
  | cons seg segs ih =>
    rw [List.forall_mem_cons] at h
    rw [joined_cons, List.cons_append, List.splitOn_append_cons_self, ih h.2,
      List.splitOn_eq_singleton h.1, List.singleton_append]

/-- Decoding the segments does not make a path longer. -/
theorem length_joined_map_le (segs : List Bytes) :
    (joined (segs.map percentDecode)).length ≤ (joined segs).length := by
  induction segs with
  | nil => exact Nat.le_refl _
  | cons seg segs ih =>
    have hseg := length_percentDecode_le seg
    rw [List.map_cons, joined_cons, joined_cons, List.length_append, List.length_append,
      List.length_cons, List.length_cons]
    omega

/-- Segments that keep their length together do not change. -/
theorem percentDecode_eq_self_of_joined {segs : List Bytes}
    (h : (joined segs).length ≤ (joined (segs.map percentDecode)).length) :
    ∀ seg ∈ segs, percentDecode seg = seg := by
  induction segs with
  | nil => exact fun seg hmem ↦ absurd hmem List.not_mem_nil
  | cons seg segs ih =>
    have hseg := length_percentDecode_le seg
    have hsegs := length_joined_map_le segs
    rw [List.map_cons, joined_cons, joined_cons, List.length_append, List.length_append,
      List.length_cons, List.length_cons] at h
    rw [List.forall_mem_cons]
    exact ⟨percentDecode_eq_self (by omega), ih (by omega)⟩

theorem path_append_of_inPath {a : Bytes} (ha : ∀ c ∈ a, endsPath c = false) (b : Bytes) :
    path (a ++ b) = a ++ path b :=
  List.takeWhile_append_of_pos fun c hc ↦ by rw [ha c hc, Bool.not_false]

/-- A path that has ended stays as it is. -/
theorem path_append_of_not_inPath {a : Bytes} (ha : ¬∀ c ∈ a, endsPath c = false) (b : Bytes) :
    path (a ++ b) = path a := by
  induction a with
  | nil => exact absurd (fun c hc ↦ absurd hc List.not_mem_nil) ha
  | cons c a ih =>
    rw [List.forall_mem_cons, not_and] at ha
    show List.takeWhile _ (c :: (a ++ b)) = List.takeWhile _ (c :: a)
    rw [List.takeWhile_cons, List.takeWhile_cons]
    split
    case isTrue hc => exact congrArg (c :: ·) (ih (ha (by simpa using hc)))
    case isFalse _ => rfl

theorem inPath_path (s : Bytes) : ∀ c ∈ path s, endsPath c = false := by
  intro c hc
  have hkept := List.all_eq_true.1 List.all_takeWhile c hc
  simpa using hkept

theorem path_eq_self {s : Bytes} (h : ∀ c ∈ s, endsPath c = false) : path s = s := by
  have happend := path_append_of_inPath h []
  rwa [List.append_nil, show path [] = [] from rfl, List.append_nil] at happend

/-- Text that stays one segment, and the same one. -/
structure Literal (seg : Bytes) : Prop where
  noSlash : byte '/' ∉ seg
  inPath : ∀ c ∈ seg, endsPath c = false
  decode_eq : percentDecode seg = seg

instance (seg : Bytes) : Decidable (Literal seg) :=
  have hall : seg.all (!endsPath ·) = true ↔ ∀ c ∈ seg, endsPath c = false := by
    simp only [List.all_eq_true, Bool.not_eq_true']
  decidable_of_iff (byte '/' ∉ seg ∧ seg.all (!endsPath ·) = true ∧ percentDecode seg = seg)
    ⟨fun h ↦ ⟨h.1, hall.1 h.2.1, h.2.2⟩, fun h ↦ ⟨h.noSlash, hall.2 h.inPath, h.decode_eq⟩⟩

/-- A path of literals, up to the query, is in no part cut off. -/
theorem inPath_joined_iff {segs : List Bytes} :
    (∀ c ∈ joined segs, endsPath c = false) ↔ ∀ seg ∈ segs, ∀ c ∈ seg, endsPath c = false := by
  induction segs with
  | nil => simp [joined]
  | cons seg segs ih =>
    rw [joined_cons, List.cons_append, List.forall_mem_cons, List.forall_mem_append, ih,
      List.forall_mem_cons]
    exact and_iff_right (by decide)

/-- A path that reads back as the segments it was made of is made of literals: it is as long as they are,
so none was cut off and none decoded. -/
theorem literal_of_decoded {segs : List Bytes} {x : Bytes} (hx : path (joined segs) = byte '/' :: x)
    (h : (x.splitOn (byte '/')).map percentDecode = segs) : ∀ seg ∈ segs, Literal seg := by
  have hlen : (joined (x.splitOn (byte '/'))).length ≤
      (joined ((x.splitOn (byte '/')).map percentDecode)).length := by
    rw [h, joined_splitOn, ← hx]
    exact (List.takeWhile_prefix _).length_le
  have hdecode := percentDecode_eq_self_of_joined hlen
  have hsplit : x.splitOn (byte '/') = segs :=
    ((List.map_congr_left hdecode).trans (List.map_id _)).symm.trans h
  have hjoined : path (joined segs) = joined segs := by rw [hx, ← joined_splitOn, hsplit]
  have hin := inPath_joined_iff.1 (hjoined ▸ inPath_path (joined segs))
  exact fun seg hseg ↦ ⟨not_mem_of_mem_splitOn (hsplit ▸ hseg), hin seg hseg,
    hdecode seg (hsplit ▸ hseg)⟩

/-- **Exactly when segments behind a base URL are read as they were meant**: when the base has no query
and no fragment, and every segment is literal. -/
theorem segments_append_eq_iff {base suffix : Bytes} {segs : List Bytes} (hsegs : segs ≠ [])
    (hsuffix : path suffix = []) :
    segments (base ++ joined segs ++ suffix) = segments base ++ segs ↔
      (∀ c ∈ base, endsPath c = false) ∧ ∀ seg ∈ segs, Literal seg := by
  have hcut : path (joined segs ++ suffix) = path (joined segs) := by
    by_cases hin : ∀ c ∈ joined segs, endsPath c = false
    · rw [path_append_of_inPath hin, hsuffix, List.append_nil, path_eq_self hin]
    · exact path_append_of_not_inPath hin suffix
  by_cases hbase : ∀ c ∈ base, endsPath c = false
  · rw [List.append_assoc, segments, path_append_of_inPath hbase, hcut, segments, path_eq_self hbase]
    constructor
    · intro h
      obtain ⟨x, hx⟩ : ∃ x, path (joined segs) = byte '/' :: x := by
        rcases segs with - | ⟨seg, rest⟩
        · exact absurd rfl hsegs
        · exact ⟨path (seg ++ joined rest), rfl⟩
      rw [hx, List.splitOn_append_cons_self, List.map_append, List.append_cancel_left_eq] at h
      exact ⟨hbase, literal_of_decoded hx h⟩
    · rintro ⟨-, hall⟩
      have hin := inPath_joined_iff.2 fun seg hseg ↦ (hall seg hseg).inPath
      have hdecode : segs.map percentDecode = segs :=
        (List.map_congr_left fun seg hseg ↦ (hall seg hseg).decode_eq).trans (List.map_id _)
      rw [path_eq_self hin, splitOn_append_joined fun seg hseg ↦ (hall seg hseg).noSlash,
        List.map_append, hdecode]
  · rw [List.append_assoc, segments, path_append_of_not_inPath hbase, segments]
    refine iff_of_false (fun h ↦ hsegs ?_) fun h ↦ hbase h.1
    exact List.self_eq_append_right.1 h

/-! ### Queries

The query of a URL begins behind its first `?`. Where the path in front has none, and no `#`, the
parameters are read as they were written. -/

/-- What follows the first `?` is the query, if nothing ends it. -/
theorem query_append {a q : Bytes} (ha : ∀ c ∈ a, endsPath c = false) (hq : byte '#' ∉ q) :
    query (a ++ byte '?' :: q) = some q := by
  have hmark : ∀ c ∈ a, c ≠ byte '?' ∧ c ≠ byte '#' := fun c hc ↦ by
    have hc := ha c hc
    rwa [endsPath, decide_eq_false_iff_not, not_or] at hc
  have hwhole : (a ++ byte '?' :: q).takeWhile (· ≠ byte '#') = a ++ byte '?' :: q := by
    rw [List.takeWhile_append_of_pos fun c hc ↦ decide_eq_true (hmark c hc).2,
      List.takeWhile_cons_of_pos (by decide)]
    have hnone : q.takeWhile (· ≠ byte '#') = q ++ [].takeWhile (· ≠ byte '#') := by
      rw [← List.takeWhile_append_of_pos, List.append_nil]
      exact fun c hc ↦ decide_eq_true fun (heq : c = byte '#') ↦ hq (heq ▸ hc)
    rw [hnone, List.takeWhile_nil, List.append_nil]
  rw [query, hwhole, List.dropWhile_append_of_pos fun c hc ↦ decide_eq_true (hmark c hc).1,
    List.dropWhile_cons_of_neg (by decide)]

/-- A path alone has no query. -/
theorem query_of_inPath {a : Bytes} (ha : ∀ c ∈ a, endsPath c = false) : query a = none := by
  have hdrop : (a.takeWhile (· ≠ byte '#')).dropWhile (· ≠ byte '?') = [] := by
    rw [List.dropWhile_eq_nil_iff]
    intro c hc
    have hc := ha c ((List.takeWhile_sublist _).subset hc)
    rw [endsPath, decide_eq_false_iff_not, not_or] at hc
    exact decide_eq_true hc.1
  rw [query, hdrop]

/-- A parameter is cut at its first `=`. -/
theorem parameter_append {key value : Bytes} (h : byte '=' ∉ key) :
    parameter (key ++ byte '=' :: value) = (percentDecode key, percentDecode value) := by
  have hkey : ∀ c ∈ key, decide (c ≠ byte '=') = true := fun c hc ↦
    decide_eq_true fun heq ↦ h (heq ▸ hc)
  rw [parameter, List.takeWhile_append_of_pos hkey, List.dropWhile_append_of_pos hkey,
    List.takeWhile_cons_of_neg (by decide), List.dropWhile_cons_of_neg (by decide), List.append_nil]
  rfl

/-- Parameters come back. -/
theorem parameters_append {a : Bytes} {parts : List Bytes} (ha : ∀ c ∈ a, endsPath c = false)
    (hparts : parts ≠ []) (h : ∀ part ∈ parts, byte '#' ∉ part ∧ byte '&' ∉ part) :
    parameters (a ++ byte '?' :: [byte '&'].intercalate parts) = parts.map parameter := by
  have hhash : byte '#' ∉ [byte '&'].intercalate parts := by
    rcases parts with - | ⟨part, parts⟩
    · exact absurd rfl hparts
    · rw [List.forall_mem_cons] at h
      rw [intercalate_cons, List.mem_append, List.mem_flatMap, not_or]
      refine ⟨h.1.1, ?_⟩
      rintro ⟨next, hnext, hmem⟩
      exact (List.mem_cons.1 hmem).elim (by decide) (h.2 next hnext).1
  rw [parameters, query_append ha hhash]
  exact congrArg (List.map parameter) (List.splitOn_intercalate _ (fun part hpart ↦ (h part hpart).2)
    hparts)

theorem parameters_of_inPath {a : Bytes} (ha : ∀ c ∈ a, endsPath c = false) : parameters a = [] := by
  rw [parameters, query_of_inPath ha]

end Url
