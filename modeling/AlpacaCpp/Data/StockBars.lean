import AlpacaCpp.Foundation.Multimap
import AlpacaCpp.Http.Retry

/-!
# Historical bars, page by page

`request_context::paginate`, `merge_symbol_page`, `bar_query::build`, `get_stock_bars` and
`get_stock_bars_page`. The element type of the result is left open, as in the source's templates:
`decode` is its `from_json`, which may throw.

The pagination loop is driven by the server and has no bound of its own, so it takes fuel, and `none`
is running out of it. `BarQuery` builds its parameters in the order of the source. The token stands in the
middle of them, and `BarQuery.build_withPageToken` says that it is the only place where a `page_token` comes
from.
-/

namespace Alpaca

variable {D T : Type}

/-! ### Merging a page -/

/-- `entries.get<std::vector<T>>()` -/
def getVector (decode : Json D → Except Bytes T) : List (Json D) → Except Bytes (List T)
  | [] => .ok []
  | j :: rest =>
    match decode j, getVector decode rest with
    | .error what, _ => .error what
    | _, .error what => .error what
    | .ok a, .ok as => .ok (a :: as)

/-- The loop of `merge_symbol_page` over `page[key].items()`. -/
def mergeItems (decode : Json D → Except Bytes T) :
    List (Bytes × Json D) → Multimap Bytes T → Except Error (Multimap Bytes T)
  | [], out => .ok out
  | (symbol, .arr elems) :: rest, out =>
    match getVector decode elems with
    | .ok batch => mergeItems decode rest (out.append symbol batch)
    | .error what => .error (.json what)
  | (_, _) :: rest, out => mergeItems decode rest out

/-- `merge_symbol_page` -/
def mergeSymbolPage (decode : Json D → Except Bytes T) (page : Json D) (key : Bytes)
    (out : Multimap Bytes T) : Except Error (Multimap Bytes T) :=
  match page.member? key with
  | some (.obj members) => mergeItems decode members out
  | _ => .ok out

/-! ### Following the pages -/

def pageTokenKey : Bytes := bytes "page_token"

def nextPageTokenKey : Bytes := bytes "next_page_token"

/-- `paginate`. What `on_page` captures by reference is the accumulator. -/
def paginate {β : Type} (serve : ℕ → Request → Response) (ctx : RequestContext D) (path : Bytes)
    (onPage : β → Json D → Except Error β) :
    ℕ → QueryBuilder → β → Log → Option (Except Error β × Log)
  | 0, _, _, _ => none
  | fuel + 1, query, acc, log =>
    match ctx.get serve path query log with
    | (.error e, log) => some (.error e, log)
    | (.ok page, log) =>
      match onPage acc page with
      | .error e => some (.error e, log)
      | .ok acc =>
        match page.member? nextPageTokenKey with
        | none => some (.ok acc, log)
        | some .null => some (.ok acc, log)
        | some j =>
          match j.getString with
          | .error what => some (.error (.json what), log)
          | .ok token =>
            if token = [] then some (.ok acc, log)
            else paginate serve ctx path onPage fuel (query.set pageTokenKey token) acc log

/-- `page_token_of` -/
def pageTokenOf (j : Json D) : Except Error Bytes :=
  match j.member? nextPageTokenKey with
  | none => .ok []
  | some .null => .ok []
  | some v => liftJson v.getString

/-! ### Queries -/

/-- `history_query` -/
structure HistoryQuery where
  symbols : List Bytes := []
  start : Option Bytes := none
  /-- `end` -/
  finish : Option Bytes := none
  limit : Option UInt32 := none
  pageToken : Option Bytes := none
  sort : Option SortDirection := none
  feed : Option DataFeed := none
  currency : Option Bytes := none
  asof : Option Bytes := none

/-- `history_query::add_to` -/
def HistoryQuery.addTo (h : HistoryQuery) (q : QueryBuilder) : QueryBuilder :=
  let q := q.addList (bytes "symbols") h.symbols
  let q := q.addOption (bytes "start") id h.start
  let q := q.addOption (bytes "end") id h.finish
  let q := q.addOptionNat (bytes "limit") h.limit
  let q := q.addOption pageTokenKey id h.pageToken
  let q := q.addOption (bytes "sort") SortDirection.toString h.sort
  let q := q.addOption (bytes "feed") DataFeed.toString h.feed
  let q := q.addOption (bytes "currency") id h.currency
  q.addOption (bytes "asof") id h.asof

/-- `bar_query` -/
structure BarQuery extends HistoryQuery where
  timeframe : Timeframe := {}
  adjustment : Option Adjustment := none

/-- `bar_query::build` -/
def BarQuery.build (b : BarQuery) : QueryBuilder :=
  let q := b.toHistoryQuery.addTo {}
  let q := q.add (bytes "timeframe") b.timeframe.toString
  q.addOption (bytes "adjustment") Adjustment.toString b.adjustment

/-- The same query for another page. -/
def BarQuery.withPageToken (b : BarQuery) (token : Option Bytes) : BarQuery :=
  { b with pageToken := token }

/-- Only the caller's token contributes a `page_token`, and every other parameter is independent of
it. -/
theorem BarQuery.build_withPageToken (b : BarQuery) :
    ∃ front back : List (Bytes × Bytes), (∀ p ∈ front ++ back, p.1 ≠ pageTokenKey) ∧
      ∀ token, (b.withPageToken token).build.params =
        front ++ QueryBuilder.added (fun q ↦ q.addOption pageTokenKey id token) ++ back := by
  refine ⟨QueryBuilder.added (fun q ↦ q.addList (bytes "symbols") b.symbols) ++
      QueryBuilder.added (fun q ↦ q.addOption (bytes "start") id b.start) ++
      QueryBuilder.added (fun q ↦ q.addOption (bytes "end") id b.finish) ++
      QueryBuilder.added (fun q ↦ q.addOptionNat (bytes "limit") b.limit),
    QueryBuilder.added (fun q ↦ q.addOption (bytes "sort") SortDirection.toString b.sort) ++
      QueryBuilder.added (fun q ↦ q.addOption (bytes "feed") DataFeed.toString b.feed) ++
      QueryBuilder.added (fun q ↦ q.addOption (bytes "currency") id b.currency) ++
      QueryBuilder.added (fun q ↦ q.addOption (bytes "asof") id b.asof) ++
      QueryBuilder.added (fun q ↦ q.add (bytes "timeframe") b.timeframe.toString) ++
      QueryBuilder.added (fun q ↦ q.addOption (bytes "adjustment") Adjustment.toString b.adjustment),
    ?_, ?_⟩
  · intro p hp
    simp only [List.mem_append] at hp
    rcases hp with (((h | h) | h) | h) | ((((h | h) | h) | h) | h) | h
    · exact QueryBuilder.key_of_mem_addList h ▸ by decide
    · exact QueryBuilder.key_of_mem_addOption h ▸ by decide
    · exact QueryBuilder.key_of_mem_addOption h ▸ by decide
    · exact QueryBuilder.key_of_mem_addOptionNat h ▸ by decide
    · exact QueryBuilder.key_of_mem_addOption h ▸ by decide
    · exact QueryBuilder.key_of_mem_addOption h ▸ by decide
    · exact QueryBuilder.key_of_mem_addOption h ▸ by decide
    · exact QueryBuilder.key_of_mem_addOption h ▸ by decide
    · exact QueryBuilder.key_of_mem_add h ▸ by decide
    · exact QueryBuilder.key_of_mem_addOption h ▸ by decide
  · intro token
    simp only [build, HistoryQuery.addTo, withPageToken, QueryBuilder.params_addOption,
      QueryBuilder.params_add, QueryBuilder.params_addOptionNat, QueryBuilder.params_addList,
      List.append_assoc, List.nil_append]

/-- The front and the back hold no token, whatever is added in between. -/
private theorem filter_between {front mid back : List (Bytes × Bytes)} {key : Bytes}
    (hends : ∀ p ∈ front ++ back, p.1 ≠ key) (hmid : ∀ p ∈ mid, p.1 = key) :
    (front ++ mid ++ back).filter (·.1 = key) = mid ∧
      (front ++ mid ++ back).filter (·.1 ≠ key) = front ++ back := by
  have hfront : ∀ p ∈ front, p.1 ≠ key := fun p hp ↦ hends p (List.mem_append_left _ hp)
  have hback : ∀ p ∈ back, p.1 ≠ key := fun p hp ↦ hends p (List.mem_append_right _ hp)
  simp only [List.filter_append]
  constructor
  · rw [List.filter_eq_nil_iff.2 fun p hp ↦ by simpa using hfront p hp,
      List.filter_eq_self.2 fun p hp ↦ by simpa using hmid p hp,
      List.filter_eq_nil_iff.2 fun p hp ↦ by simpa using hback p hp, List.nil_append,
      List.append_nil]
  · rw [List.filter_eq_self.2 fun p hp ↦ by simpa using hfront p hp,
      List.filter_eq_nil_iff.2 fun p hp ↦ by simpa using hmid p hp,
      List.filter_eq_self.2 fun p hp ↦ by simpa using hback p hp, List.append_nil]

/-- A query holds the token it was given, if that is not empty. -/
theorem BarQuery.values_build_withPageToken (b : BarQuery) (token : Option Bytes) :
    (b.withPageToken token).build.values pageTokenKey =
      (QueryBuilder.added fun q ↦ q.addOption pageTokenKey id token).map Prod.snd := by
  obtain ⟨front, back, hends, hbuild⟩ := b.build_withPageToken
  rw [QueryBuilder.values, hbuild,
    (filter_between hends fun p hp ↦ QueryBuilder.key_of_mem_addOption hp).1]

/-- The other parameters do not depend on the token. -/
theorem BarQuery.others_build_withPageToken (b : BarQuery) (token token' : Option Bytes) :
    (b.withPageToken token).build.others pageTokenKey =
      (b.withPageToken token').build.others pageTokenKey := by
  obtain ⟨front, back, hends, hbuild⟩ := b.build_withPageToken
  rw [QueryBuilder.others, QueryBuilder.others, hbuild, hbuild,
    (filter_between hends fun p hp ↦ QueryBuilder.key_of_mem_addOption hp).2,
    (filter_between hends fun p hp ↦ QueryBuilder.key_of_mem_addOption hp).2]

/-- A caller's query holds at most one token. -/
theorem BarQuery.length_values_build_le (b : BarQuery) :
    (b.build.values pageTokenKey).length ≤ 1 := by
  have hvalues := b.values_build_withPageToken b.pageToken
  rw [show b.withPageToken b.pageToken = b from rfl] at hvalues
  rw [hvalues, List.length_map]
  rcases b.pageToken with - | token
  · exact Nat.zero_le _
  · rw [QueryBuilder.added, QueryBuilder.addOption, QueryBuilder.add]
    split
    · exact le_rfl
    · exact Nat.zero_le _

/-! ### Bars -/

section Bars

variable (serve : ℕ → Request → Response) (ctx : RequestContext D)
  (decode : Json D → Except Bytes T)

def stockBarsPath : Bytes := bytes "/v2/stocks/bars"

def barsKey : Bytes := bytes "bars"

/-- `data_client::get_stock_bars` -/
def getStockBars (fuel : ℕ) (query : BarQuery) (log : Log) :
    Option (Except Error (Multimap Bytes T) × Log) :=
  paginate serve ctx stockBarsPath (fun bars page ↦ mergeSymbolPage decode page barsKey bars) fuel
    query.build ∅ log

/-- `data_client::bars_page` -/
structure BarsPage (T : Type) where
  bars : Multimap Bytes T
  nextPageToken : Bytes

/-- `data_client::get_stock_bars_page` -/
def getStockBarsPage (query : BarQuery) (log : Log) : Except Error (BarsPage T) × Log :=
  match ctx.get serve stockBarsPath query.build log with
  | (.error e, log) => (.error e, log)
  | (.ok j, log) =>
    match mergeSymbolPage decode j barsKey ∅, pageTokenOf j with
    | .error e, _ => (.error e, log)
    | _, .error e => (.error e, log)
    | .ok bars, .ok token => (.ok ⟨bars, token⟩, log)

/-- A caller's loop over `get_stock_bars_page`: merge the pages symbol by symbol and put the token of
each into the next query, until it is empty. -/
def loopStockBarsPages :
    ℕ → BarQuery → Multimap Bytes T → Log → Option (Except Error (Multimap Bytes T) × Log)
  | 0, _, _, _ => none
  | fuel + 1, query, acc, log =>
    match getStockBarsPage serve ctx decode query log with
    | (.error e, log) => some (.error e, log)
    | (.ok page, log) =>
      let acc := acc.appendAll page.bars.batches
      if page.nextPageToken = [] then some (.ok acc, log)
      else loopStockBarsPages fuel (query.withPageToken (some page.nextPageToken)) acc log

end Bars

end Alpaca
