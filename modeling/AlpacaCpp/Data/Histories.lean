import AlpacaCpp.Data.MarketData
import AlpacaCpp.Data.Pages

/-!
# Histories by symbol

The historical endpoints of `data_client`. They answer `{"trades": {"AAPL": [...], "MSFT": [...]}}` and page
across symbols; `merge_symbol_page` puts the entries of each symbol behind those it has. Of the stock
endpoints each also has a method for one page.

The token of a stock query stands between other parameters, so a caller who follows the tokens sends them in
another order than `paginate`. Against a server that does not look at the order the two **collect the same
entries under every symbol, or throw the same exception** (`histories_agree`). All ten endpoints return
exactly what the successes among the answers hold (`histories_of_answers`).

They are one function with parameters (`symbolHistory`): a path, the key of the answer, and the
`from_json` of an entry. Both results are proved for it, and the endpoints are its instances. Two facts
make a page a piece of the whole:

* a page is a list of batches, one per symbol, whatever has been collected before it (`mergeItems_eq`);
* two maps collect the same when they have the same entries under every symbol and hold the same symbols,
  which is not the same map, for the batches may have come in another order (`sameEntries_iff`).

What is asked of an entry is what its `from_json` asks (`Bar`, `Trade`, `Quote`, `DailyAuctions`,
`ForexRate`), and a page can be read when every entry can, under every symbol.

**An exception returns nothing.** The entries of the pages in front of the one that cannot be read are
lost with it, on both ways of following the tokens. This is why the comparison needs no third case: two
maps agree, or two exceptions are the same.
-/

namespace Alpaca

variable {D T : Type}

/-! ### Batches of a page

A page is read symbol by symbol, and what is read of a symbol is a batch. The members under the key are
merged in the order of the document; a symbol that comes twice has two batches, one behind the other. -/

/-- The arrays of a page, symbol by symbol; what is not an array is passed over. -/
def batchesOf (decode : Json D → Except Bytes T) : List (Bytes × Json D) → Except Bytes (List (Bytes × List T))
  | [] => .ok []
  | (symbol, .arr elems) :: rest => do
    let batch ← getVector decode elems
    let rest ← batchesOf decode rest
    return (symbol, batch) :: rest
  | _ :: rest => batchesOf decode rest

/-- The batches under the key of a page. -/
def pageBatches (decode : Json D → Except Bytes T) (key : Bytes) (page : Json D) :
    Except Error (List (Bytes × List T)) :=
  match page.member? key with
  | some (.obj members) => liftJson (batchesOf decode members)
  | _ => .ok []

section Batches

variable (decode : Json D → Except Bytes T)

/-- `merge_symbol_page` merges batches, one for each member that holds an array. -/
theorem mergeItems_eq (members : List (Bytes × Json D)) (out : Multimap Bytes T) :
    mergeItems decode members out = (liftJson (batchesOf decode members)).map out.appendAll := by
  induction members generalizing out with
  | nil => rfl
  | cons m rest ih =>
    obtain ⟨symbol, v⟩ := m
    cases v with
    | arr elems =>
      rw [mergeItems, batchesOf]
      rcases getVector decode elems with what | batch
      · rfl
      · dsimp only
        rw [ih]
        rcases batchesOf decode rest with what | batches <;> rfl
    | _ => exact ih out

/-- **Merging a page appends its batches.** -/
theorem mergeSymbolPage_eq (key : Bytes) (out : Multimap Bytes T) (page : Json D) :
    mergeSymbolPage decode page key out = (pageBatches decode key page).map out.appendAll := by
  rw [mergeSymbolPage, pageBatches]
  rcases page.member? key with - | v
  · rfl
  · cases v with
    | obj members => exact mergeItems_eq decode members out
    | _ => rfl

/-- A batch is read when each of its entries is. -/
theorem exists_getVector_iff (elems : List (Json D)) :
    (∃ batch, getVector decode elems = .ok batch) ↔ ∀ e ∈ elems, ∃ x, decode e = .ok x := by
  induction elems with
  | nil => exact iff_of_true ⟨[], rfl⟩ (by simp)
  | cons e elems ih =>
    rw [List.forall_mem_cons, ← ih, getVector]
    rcases decode e with what | x
    · simp
    · rcases getVector decode elems with what | batch <;> simp

/-- The batches can be read when the elements of every array can. -/
theorem exists_batchesOf_iff (members : List (Bytes × Json D)) :
    (∃ batches, batchesOf decode members = .ok batches) ↔
      ∀ m ∈ members, m.2.EachElem fun e ↦ ∃ x, decode e = .ok x := by
  induction members with
  | nil => exact iff_of_true ⟨[], rfl⟩ (by simp)
  | cons m rest ih =>
    obtain ⟨symbol, v⟩ := m
    rw [List.forall_mem_cons, ← ih]
    cases v with
    | arr elems =>
      have helems : (Json.arr elems).EachElem (fun e ↦ ∃ x, decode e = .ok x) ↔
          ∃ batch, getVector decode elems = .ok batch :=
        Iff.trans ⟨fun h ↦ h elems rfl, fun h _ heq ↦ Json.arr.inj heq ▸ h⟩ (exists_getVector_iff decode elems).symm
      rw [helems, batchesOf, exists_bind_eq_ok]
      refine ⟨fun ⟨batch, hbatch, h⟩ ↦ ⟨⟨batch, hbatch⟩, ?_⟩, fun ⟨⟨batch, hbatch⟩, h⟩ ↦ ⟨batch, hbatch, ?_⟩⟩
      · exact (exists_bind_eq_ok_of_total fun _ ↦ ⟨_, rfl⟩).1 h
      · exact (exists_bind_eq_ok_of_total fun _ ↦ ⟨_, rfl⟩).2 h
    | _ => exact (and_iff_right fun elems h ↦ absurd h (by simp)).symm

end Batches

/-! ### Endpoints

`SameEntries` is what two maps have to share for a caller to see no difference: the symbols, and the
entries under each of them in order. It is kept by every further page, read or refused alike, and this
carries the comparison through a loop of any length. -/

section Endpoints

variable (serve : ℕ → Request → Response) (ctx : RequestContext D) (path key : Bytes)
  (decode : Json D → Except Bytes T)

/-- A method that collects the entries under a key, symbol by symbol. -/
def symbolHistory (fuel : ℕ) (query : QueryBuilder) (log : Log) :
    Option (Except Error (Multimap Bytes T) × Log) :=
  paginate serve ctx path (fun out page ↦ mergeSymbolPage decode page key out) fuel query ∅ log

/-- A method that returns one page of them. -/
def symbolHistoryPage (query : QueryBuilder) (log : Log) : Except Error (Page (Multimap Bytes T)) × Log :=
  fetchPage serve ctx path (fun j ↦ mergeSymbolPage decode j key ∅) query log

end Endpoints

/-- Merging the maps of pages, symbol by symbol. -/
def mergePages (acc page : Multimap Bytes T) : Multimap Bytes T := acc.appendAll page.batches

/-- Maps that hold the same under every symbol. -/
def SameEntries (m m' : Multimap Bytes T) : Prop := ∀ symbol, m.lookup symbol = m'.lookup symbol

/-- The same entries under every symbol, and the same symbols. -/
theorem sameEntries_iff {m m' : Multimap Bytes T} : SameEntries m m' ↔
    ∀ symbol, m.get symbol = m'.get symbol ∧ (symbol ∈ m ↔ symbol ∈ m') := by
  refine forall_congr' fun symbol ↦ ⟨fun h ↦ ?_, fun h ↦ Multimap.lookup_eq_of_get_eq h.2 h.1⟩
  rw [Multimap.get, Multimap.get, h, ← AList.lookup_isSome, ← AList.lookup_isSome, h]
  exact ⟨rfl, Iff.rfl⟩

/-- Batches that are first collected on their own end up in the same places. -/
theorem SameEntries.mergePages {m m' : Multimap Bytes T} (h : SameEntries m m')
    (batches : List (Bytes × List T)) :
    SameEntries (m.appendAll batches) (mergePages m' ((∅ : Multimap Bytes T).appendAll batches)) := by
  rw [sameEntries_iff] at h ⊢
  intro symbol
  obtain ⟨hget, hmem⟩ := h symbol
  rw [Alpaca.mergePages, Multimap.get_appendAll, Multimap.get_appendAll, Multimap.collect_batches,
    Multimap.get_appendAll, Multimap.get_empty, List.nil_append, Multimap.mem_appendAll,
    Multimap.mem_appendAll, Multimap.mem_batches, Multimap.mem_appendAll, hget, hmem]
  exact ⟨rfl, by simp⟩

section Agreement

variable {serve : ℕ → Request → Response} {ctx : RequestContext D} {path : Bytes}

/-- **A history and a loop over its pages**, against a server that does not look at the order of
parameters. -/
theorem symbolHistory_agree (hserve : Indifferent serve ctx path) (key : Bytes)
    (decode : Json D → Except Bytes T) {Q : Type} (B : PagedQuery Q) (fuel : ℕ) (query : Q) (log : Log) :
    Option.Rel (Pager.Agree SameEntries (Log.Alike ctx path))
      (symbolHistory serve ctx path key decode fuel (B.build query) log)
      (loopPages B (fun query ↦ symbolHistoryPage serve ctx path key decode (B.build query)) mergePages fuel query
        ∅ log) :=
  paginate_agree_loopPages hserve (∅ : Multimap Bytes T).appendAll
    (fun out page ↦ mergeSymbolPage_eq decode key out page)
    (fun query log ↦ by simp only [symbolHistoryPage, mergeSymbolPage_eq])
    (fun batches h ↦ h.mergePages batches) fuel query (fun _ ↦ rfl) log

/-- A history that has ended: the successes among the answers hold its entries, in order, and the JSON
library throws exactly when one of them has a token that is no string, or an entry that cannot be read. -/
structure CollectedFrom (ctx : RequestContext D) (key : Bytes) (decode : Json D → Except Bytes T)
    (readable : Json D → Prop) (log log' : Log) (out : Except Error (Multimap Bytes T)) (texts : List Bytes) :
    Prop where
  bodies : log'.bodies = log.bodies ++ texts
  entries (m : Multimap Bytes T) (h : out = .ok m) : ∃ pages,
    List.Forall₂ (fun text page ↦ ∃ token, pageOf ctx (pageBatches decode key) text = .ok ⟨page, token⟩)
      texts pages ∧
    ∀ symbol, m.get symbol = Multimap.collect pages.flatten symbol ∧
      (symbol ∈ m ↔ symbol ∈ pages.flatten.map Prod.fst)
  mapped : Mapped out ↔ ∀ text ∈ texts, ∀ j, parseBody ctx.json text = .ok j →
    j.Dated nextPageTokenKey ∧ j.Under key (Json.EachValue (Json.EachElem readable))

/-- **Every history comes from its answers.** -/
theorem symbolHistory_of_answers {key : Bytes} {decode : Json D → Except Bytes T} {readable : Json D → Prop}
    (hlib : ctx.json.ParsedPrints) (hdecode : ∀ e, ctx.json.PrintsAll e → ((∃ x, decode e = .ok x) ↔ readable e))
    {fuel : ℕ} {query : QueryBuilder} {log log' : Log} {out : Except Error (Multimap Bytes T)}
    (h : symbolHistory serve ctx path key decode fuel query log = some (out, log')) :
    ∃ texts, CollectedFrom ctx key decode readable log log' out texts := by
  -- what one page asks for: that every entry under every symbol can be read
  have hreadable : ∀ text j, parseBody ctx.json text = .ok j → ∃ r, pageBatches decode key j = liftJson r ∧
      ((∃ x, r = .ok x) ↔ j.Under key (Json.EachValue (Json.EachElem readable))) := by
    intro text j hparse
    rw [pageBatches]
    rcases hv : j.member? key with - | v
    · exact ⟨.ok [], rfl, iff_of_true ⟨[], rfl⟩ (Json.under_of_none hv)⟩
    · rw [Json.under_of_some hv]
      cases v with
      | obj members =>
        have hprints := printsAll_of_parseBody hlib hparse hv
        refine ⟨_, rfl, (exists_batchesOf_iff decode members).trans ?_⟩
        refine Iff.trans (forall₂_congr fun m hm ↦ forall₂_congr fun elems helems ↦ forall₂_congr fun e he ↦ ?_)
          ⟨fun h _ heq ↦ Json.obj.inj heq ▸ h, fun h ↦ h members rfl⟩
        exact hdecode e ((helems ▸ hprints.of_value hm : ctx.json.PrintsAll (.arr elems)).of_elem he)
      | _ => exact ⟨.ok [], rfl, iff_of_true ⟨[], rfl⟩ fun members heq ↦ absurd heq (by simp)⟩
  obtain ⟨texts, pages, htexts, hok, hmapped⟩ :=
    paginate_of_answers (fun out page ↦ mergeSymbolPage_eq decode key out page) hreadable h
  -- merging page by page is merging all batches
  have hfold : ∀ (pages : List (List (Bytes × List T))) (acc : Multimap Bytes T),
      pages.foldl Multimap.appendAll acc = acc.appendAll pages.flatten := by
    intro pages
    induction pages with
    | nil => exact fun _ ↦ rfl
    | cons page pages ih =>
      intro acc
      rw [List.foldl_cons, ih, List.flatten_cons, Multimap.appendAll_append]
  refine ⟨texts, htexts, fun m hm ↦ ?_, hmapped⟩
  obtain ⟨rfl, hpages⟩ := hok m hm
  refine ⟨pages, hpages, fun symbol ↦ ?_⟩
  rw [hfold, Multimap.get_appendAll, Multimap.mem_appendAll]
  simp

end Agreement

/-! ### Auctions and rates

An auction has opening and closing entries, two arrays below one day. Each entry has a timestamp of its
own, so that a day can be read when all of them can. -/

/-- `auction_entry` -/
structure AuctionEntry (D : Type) where
  timestamp : ℕ := 0
  price : D
  size : D
  exchange : Bytes := []
  condition : Bytes := []
  deriving DecidableEq

/-- `daily_auctions` -/
structure DailyAuctions (D : Type) where
  date : Bytes := []
  dateNs : ℕ := 0
  opening : List (AuctionEntry D) := []
  closing : List (AuctionEntry D) := []
  deriving DecidableEq

/-- `forex_rate` -/
structure ForexRate (D : Type) where
  timestamp : ℕ := 0
  bidPrice : D
  midPrice : D
  askPrice : D
  deriving DecidableEq

section Models

/-- A default-constructed `auction_entry`. -/
def AuctionEntry.empty [DoubleCasts D] : AuctionEntry D where
  price := DoubleCasts.zero
  size := DoubleCasts.zero

/-- A default-constructed `forex_rate`. -/
def ForexRate.empty [DoubleCasts D] : ForexRate D where
  bidPrice := DoubleCasts.zero
  midPrice := DoubleCasts.zero
  askPrice := DoubleCasts.zero

variable [Doubles D] (lib : JsonLibrary D)

/-- `from_json` of an `auction_entry`. -/
def AuctionEntry.fromJson : Reader D (AuctionEntry D) :=
  fromLines [
    readTimestamp (bytes "t") fun e x ↦ { e with timestamp := x },
    readDouble lib (bytes "p") fun e x ↦ { e with price := x },
    readDouble lib (bytes "s") fun e x ↦ { e with size := x },
    readVariable lib (bytes "x") Json.getString fun e x ↦ { e with exchange := x },
    readVariable lib (bytes "c") Json.getString fun e x ↦ { e with condition := x }]

/-- `from_json` of `daily_auctions`. -/
def DailyAuctions.fromJson : Reader D (DailyAuctions D) :=
  fromLines [
    readVariable lib (bytes "d") Json.getString fun a x ↦ { a with date := x },
    compute fun a ↦ { a with dateNs := dateToNanoseconds a.date },
    readVector (bytes "o") (AuctionEntry.fromJson lib) .empty fun a x ↦ { a with opening := x },
    readVector (bytes "c") (AuctionEntry.fromJson lib) .empty fun a x ↦ { a with closing := x }]

/-- `from_json` of a `forex_rate`. -/
def ForexRate.fromJson : Reader D (ForexRate D) :=
  fromLines [
    readTimestamp (bytes "t") fun r x ↦ { r with timestamp := x },
    readDouble lib (bytes "bp") fun r x ↦ { r with bidPrice := x },
    readDouble lib (bytes "mp") fun r x ↦ { r with midPrice := x },
    readDouble lib (bytes "ap") fun r x ↦ { r with askPrice := x }]

variable {lib} {j : Json D}

theorem AuctionEntry.returnsIff_fromJson (hj : lib.Prints j) :
    (AuctionEntry.fromJson lib).ReturnsIff j (j.Dated (bytes "t")) :=
  returnsIff_timestamp_cons (by simp [total_readDouble hj, total_readVariable hj]) _ _

theorem ForexRate.returnsIff_fromJson (hj : lib.Prints j) :
    (ForexRate.fromJson lib).ReturnsIff j (j.Dated (bytes "t")) :=
  returnsIff_timestamp_cons (by simp [total_readDouble hj]) _ _

omit [Doubles D] in
/-- A day of auctions that can be read: every print in it has a timestamp that can. -/
def DailyAuctions.Readable (j : Json D) : Prop :=
  j.Under (bytes "o") (Json.EachElem fun e ↦ e.Dated (bytes "t")) ∧
    j.Under (bytes "c") (Json.EachElem fun e ↦ e.Dated (bytes "t"))

/-- A day of auctions throws at the timestamps of its prints. -/
theorem DailyAuctions.returnsIff_fromJson (hj : lib.PrintsAll j) :
    (DailyAuctions.fromJson lib).ReturnsIff j (Readable j) := by
  have hentries : ∀ key elems, j.member? key = some (.arr elems) → ∀ e ∈ elems,
      (AuctionEntry.fromJson lib).ReturnsIff e (e.Dated (bytes "t")) := fun key elems helems e he ↦
    AuctionEntry.returnsIff_fromJson ((hj.of_member? helems).of_elem he).self
  intro o
  rw [fromJson, returnsIff_total_cons (total_readVariable hj.self _ _ _) (returnsIff_total_cons (total_compute _ j)
    (returnsIff_cons (returnsIff_readVector (hentries (bytes "o")) _)
      (returnsIff_cons (returnsIff_readVector (hentries (bytes "c")) _) returnsIff_nil))) o, and_true]
  rfl

end Models

/-! ### Queries

The query of a stock history is built in three parts, because its `page_token` is followed by parameters
of the endpoint. `front` and `back` are those parts; neither has the key of the token (`lacks_front`,
`lacks_back`), and that is all the comparison asks of them. -/

namespace HistoryQuery

/-- `history_query::build` -/
def build (query : HistoryQuery) : QueryBuilder := query.addTo {}

/-- The parameters in front of the token. -/
def front (query : HistoryQuery) : QueryBuilder :=
  let q : QueryBuilder := {}
  let q := q.addList (bytes "symbols") query.symbols
  let q := q.addOption (bytes "start") id query.start
  let q := q.addOption (bytes "end") id query.finish
  q.addOptionNat (bytes "limit") query.limit

/-- The parameters behind it. -/
def back (query : HistoryQuery) : QueryBuilder :=
  let q : QueryBuilder := {}
  let q := q.addOption (bytes "sort") SortDirection.toString query.sort
  let q := q.addOption (bytes "feed") DataFeed.toString query.feed
  let q := q.addOption (bytes "currency") id query.currency
  q.addOption (bytes "asof") id query.asof

theorem lacks_front (query : HistoryQuery) : query.front.Lacks pageTokenKey := by
  refine .addOptionNat (.addOption (.addOption (.addList (QueryBuilder.lacks_empty _) ?_ _) ?_ _ _) ?_ _ _) ?_ _
    <;> decide

theorem lacks_back (query : HistoryQuery) : query.back.Lacks pageTokenKey := by
  refine .addOption (.addOption (.addOption (.addOption (QueryBuilder.lacks_empty _) ?_ _ _) ?_ _ _) ?_ _ _) ?_ _ _
    <;> decide

theorem params_addTo (query : HistoryQuery) : (query.addTo {}).params =
    (query.front.addOption pageTokenKey id query.pageToken).params ++ query.back.params := by
  simp only [addTo, front, back, QueryBuilder.params_addOption, QueryBuilder.params_addOptionNat,
    QueryBuilder.params_addList, List.append_assoc, List.nil_append]

/-- The token of a `history_query`. -/
def paged : PagedQuery HistoryQuery where
  build := build
  pageToken := pageToken
  withPageToken query t := { query with pageToken := some t }
  front := front
  back := back
  params_build := params_addTo
  lacks_front := lacks_front
  lacks_back := lacks_back
  front_withPageToken _ _ := rfl
  back_withPageToken _ _ := rfl
  pageToken_withPageToken _ _ := rfl

end HistoryQuery

namespace BarQuery

/-- The parameters behind the token. -/
def back (query : BarQuery) : QueryBuilder :=
  (query.toHistoryQuery.back.add (bytes "timeframe") query.timeframe.toString).addOption (bytes "adjustment")
    Adjustment.toString query.adjustment

/-- The token of a `bar_query`. -/
def paged : PagedQuery BarQuery where
  build := build
  pageToken query := query.pageToken
  withPageToken query t := query.withPageToken (some t)
  front query := query.toHistoryQuery.front
  back := back
  params_build query := by
    simp only [build, back, QueryBuilder.params_addOption, QueryBuilder.params_add,
      HistoryQuery.params_addTo, List.append_assoc]
  lacks_front query := query.toHistoryQuery.lacks_front
  lacks_back query := by
    refine .addOption (.add query.toHistoryQuery.lacks_back ?_ _) ?_ _ _ <;> decide
  front_withPageToken _ _ := rfl
  back_withPageToken _ _ := rfl
  pageToken_withPageToken _ _ := rfl

end BarQuery

/-- `option_history_query` -/
structure OptionHistoryQuery where
  symbols : List Bytes := []
  start : Option Bytes := none
  /-- `end` -/
  finish : Option Bytes := none
  limit : Option UInt32 := none
  pageToken : Option Bytes := none
  sort : Option SortDirection := none

/-- `option_history_query::add_to` -/
def OptionHistoryQuery.addTo (query : OptionHistoryQuery) (q : QueryBuilder) : QueryBuilder :=
  let q := q.addList (bytes "symbols") query.symbols
  let q := q.addOption (bytes "start") id query.start
  let q := q.addOption (bytes "end") id query.finish
  let q := q.addOptionNat (bytes "limit") query.limit
  let q := q.addOption pageTokenKey id query.pageToken
  q.addOption (bytes "sort") SortDirection.toString query.sort

/-- `option_history_query::build` -/
def OptionHistoryQuery.build (query : OptionHistoryQuery) : QueryBuilder := query.addTo {}

/-- `option_bar_query` -/
structure OptionBarQuery extends OptionHistoryQuery where
  timeframe : Timeframe := {}

/-- `option_bar_query::build` -/
def OptionBarQuery.build (query : OptionBarQuery) : QueryBuilder :=
  (query.toOptionHistoryQuery.addTo {}).add (bytes "timeframe") query.timeframe.toString

/-- `crypto_history_query` has the fields of an `option_history_query`, and adds them alike. -/
abbrev CryptoHistoryQuery := OptionHistoryQuery

/-- `crypto_bar_query`, likewise. -/
abbrev CryptoBarQuery := OptionBarQuery

/-- `forex_query` -/
structure ForexQuery where
  currencyPairs : List Bytes := []
  timeframe : Option Bytes := none
  start : Option Bytes := none
  /-- `end` -/
  finish : Option Bytes := none
  limit : Option UInt32 := none
  sort : Option SortDirection := none
  pageToken : Option Bytes := none

/-- `forex_query::build` -/
def ForexQuery.build (query : ForexQuery) : QueryBuilder :=
  let q : QueryBuilder := {}
  let q := q.addList (bytes "currency_pairs") query.currencyPairs
  let q := q.addOption (bytes "timeframe") id query.timeframe
  let q := q.addOption (bytes "start") id query.start
  let q := q.addOption (bytes "end") id query.finish
  let q := q.addOptionNat (bytes "limit") query.limit
  let q := q.addOption (bytes "sort") SortDirection.toString query.sort
  q.addOption pageTokenKey id query.pageToken

/-! ### The methods

The endpoints, as instances, and the page methods that the stock endpoints have beside them. The theorems
list them all, so that an endpoint whose path, key or reader changes is checked again by itself. -/

section Methods

variable [Doubles D] (serve : ℕ → Request → Response) (ctx : RequestContext D)

/-- `entries.get<std::vector<bar>>()`, for one bar. -/
def decodeBar (lib : JsonLibrary D) (j : Json D) : Except Bytes (Bar D) := Bar.fromJson lib j .empty

/-- The same for one trade. -/
def decodeTrade (lib : JsonLibrary D) (j : Json D) : Except Bytes (Trade D) := Trade.fromJson lib j .empty

/-- The same for one quote. -/
def decodeQuote (lib : JsonLibrary D) (j : Json D) : Except Bytes (Quote D) := Quote.fromJson lib j .empty

/-- The same for one day of auctions. -/
def decodeAuctions (lib : JsonLibrary D) (j : Json D) : Except Bytes (DailyAuctions D) :=
  DailyAuctions.fromJson lib j {}

/-- The same for one rate. -/
def decodeRate (lib : JsonLibrary D) (j : Json D) : Except Bytes (ForexRate D) := ForexRate.fromJson lib j .empty

/-- `get_stock_trades` -/
def getStockTrades (fuel : ℕ) (query : HistoryQuery) (log : Log) :=
  symbolHistory serve ctx (bytes "/v2/stocks/trades") (bytes "trades") (decodeTrade ctx.json) fuel query.build log

/-- `get_stock_quotes` -/
def getStockQuotes (fuel : ℕ) (query : HistoryQuery) (log : Log) :=
  symbolHistory serve ctx (bytes "/v2/stocks/quotes") (bytes "quotes") (decodeQuote ctx.json) fuel query.build log

/-- `get_stock_auctions` -/
def getStockAuctions (fuel : ℕ) (query : HistoryQuery) (log : Log) :=
  symbolHistory serve ctx (bytes "/v2/stocks/auctions") (bytes "auctions") (decodeAuctions ctx.json) fuel
    query.build log

/-- `get_stock_trades_page` -/
def getStockTradesPage (query : HistoryQuery) (log : Log) :=
  symbolHistoryPage serve ctx (bytes "/v2/stocks/trades") (bytes "trades") (decodeTrade ctx.json) query.build log

/-- `get_stock_quotes_page` -/
def getStockQuotesPage (query : HistoryQuery) (log : Log) :=
  symbolHistoryPage serve ctx (bytes "/v2/stocks/quotes") (bytes "quotes") (decodeQuote ctx.json) query.build log

/-- `get_stock_auctions_page` -/
def getStockAuctionsPage (query : HistoryQuery) (log : Log) :=
  symbolHistoryPage serve ctx (bytes "/v2/stocks/auctions") (bytes "auctions") (decodeAuctions ctx.json)
    query.build log

/-- `crypto_prefix` -/
def cryptoPrefix (loc : CryptoLocation) : Bytes := bytes "/v1beta3/crypto/" ++ loc.toString

/-- `get_crypto_bars` -/
def getCryptoBars (fuel : ℕ) (query : CryptoBarQuery) (loc : CryptoLocation) (log : Log) :=
  symbolHistory serve ctx (cryptoPrefix loc ++ bytes "/bars") (bytes "bars") (decodeBar ctx.json) fuel query.build
    log

/-- `get_crypto_trades` -/
def getCryptoTrades (fuel : ℕ) (query : CryptoHistoryQuery) (loc : CryptoLocation) (log : Log) :=
  symbolHistory serve ctx (cryptoPrefix loc ++ bytes "/trades") (bytes "trades") (decodeTrade ctx.json) fuel
    query.build log

/-- `get_crypto_quotes` -/
def getCryptoQuotes (fuel : ℕ) (query : CryptoHistoryQuery) (loc : CryptoLocation) (log : Log) :=
  symbolHistory serve ctx (cryptoPrefix loc ++ bytes "/quotes") (bytes "quotes") (decodeQuote ctx.json) fuel
    query.build log

/-- `get_option_bars` -/
def getOptionBars (fuel : ℕ) (query : OptionBarQuery) (log : Log) :=
  symbolHistory serve ctx (bytes "/v1beta1/options/bars") (bytes "bars") (decodeBar ctx.json) fuel query.build log

/-- `get_option_trades` -/
def getOptionTrades (fuel : ℕ) (query : OptionHistoryQuery) (log : Log) :=
  symbolHistory serve ctx (bytes "/v1beta1/options/trades") (bytes "trades") (decodeTrade ctx.json) fuel query.build
    log

/-- `get_forex_rates` -/
def getForexRates (fuel : ℕ) (query : ForexQuery) (log : Log) :=
  symbolHistory serve ctx (bytes "/v1beta1/forex/rates") (bytes "rates") (decodeRate ctx.json) fuel query.build log

/-- A page of bars, as the other page methods return theirs. -/
def barsPage (query : BarQuery) (log : Log) : Except Error (Page (Multimap Bytes (Bar D))) × Log :=
  let (out, log) := getStockBarsPage serve ctx (decodeBar ctx.json) query log
  (out.map fun page ↦ ⟨page.bars, page.nextPageToken⟩, log)

/-- Bars by page are one of these histories. -/
theorem barsPage_eq (query : BarQuery) (log : Log) : barsPage serve ctx query log =
    symbolHistoryPage serve ctx stockBarsPath barsKey (decodeBar ctx.json) query.build log := by
  rw [barsPage, getStockBarsPage, symbolHistoryPage, fetchPage]
  rcases ctx.get serve stockBarsPath query.build log with ⟨e | j, log'⟩
  · rfl
  · dsimp only
    rcases mergeSymbolPage (decodeBar ctx.json) j barsKey ∅ with e | bars
    · rfl
    · rcases pageTokenOf j with e | token <;> rfl

/-- **The stock histories are their page methods in a loop**, for a server that does not look at the order of
the parameters: as many requests with the same parameters, the same notices and waits, and the same entries
under every symbol or the same exception. -/
theorem histories_agree (hserve : ∀ path, Indifferent serve ctx path) (fuel : ℕ) (log : Log) :
    (∀ query, Option.Rel (Pager.Agree SameEntries (Log.Alike ctx stockBarsPath))
      (getStockBars serve ctx (decodeBar ctx.json) fuel query log)
      (loopPages BarQuery.paged (barsPage serve ctx) mergePages fuel query ∅ log)) ∧
    (∀ query, Option.Rel (Pager.Agree SameEntries (Log.Alike ctx (bytes "/v2/stocks/trades")))
      (getStockTrades serve ctx fuel query log)
      (loopPages HistoryQuery.paged (getStockTradesPage serve ctx) mergePages fuel query ∅ log)) ∧
    (∀ query, Option.Rel (Pager.Agree SameEntries (Log.Alike ctx (bytes "/v2/stocks/quotes")))
      (getStockQuotes serve ctx fuel query log)
      (loopPages HistoryQuery.paged (getStockQuotesPage serve ctx) mergePages fuel query ∅ log)) ∧
    ∀ query, Option.Rel (Pager.Agree SameEntries (Log.Alike ctx (bytes "/v2/stocks/auctions")))
      (getStockAuctions serve ctx fuel query log)
      (loopPages HistoryQuery.paged (getStockAuctionsPage serve ctx) mergePages fuel query ∅ log) := by
  refine ⟨fun query ↦ ?_,
    fun query ↦ symbolHistory_agree (hserve _) _ _ HistoryQuery.paged fuel query log,
    fun query ↦ symbolHistory_agree (hserve _) _ _ HistoryQuery.paged fuel query log,
    fun query ↦ symbolHistory_agree (hserve _) _ _ HistoryQuery.paged fuel query log⟩
  rw [show barsPage serve ctx = fun query ↦ symbolHistoryPage serve ctx stockBarsPath barsKey (decodeBar ctx.json)
    (BarQuery.paged.build query) from funext₂ (barsPage_eq serve ctx)]
  exact symbolHistory_agree (hserve stockBarsPath) barsKey (decodeBar ctx.json) BarQuery.paged fuel query log

variable {serve ctx} {fuel : ℕ} {log log' : Log}

/-- **Every history returns exactly what its answers hold**: the entries of the successes, symbol by symbol
and in order, whatever else the server has answered in between. An entry throws at a timestamp that is
neither null nor a string, a trade or a quote also at a condition code that is no string, and a day of
auctions at the timestamp of a print. -/
theorem histories_of_answers (hlib : ctx.json.ParsedPrints) :
    (∀ query out, getStockBars serve ctx (decodeBar ctx.json) fuel query log = some (out, log') → ∃ texts,
      CollectedFrom ctx barsKey (decodeBar ctx.json) (Json.Dated · (bytes "t")) log log' out texts) ∧
    (∀ query out, getStockTrades serve ctx fuel query log = some (out, log') → ∃ texts,
      CollectedFrom ctx (bytes "trades") (decodeTrade ctx.json)
        (fun e ↦ e.Dated (bytes "t") ∧ e.TextConditions) log log' out texts) ∧
    (∀ query out, getStockQuotes serve ctx fuel query log = some (out, log') → ∃ texts,
      CollectedFrom ctx (bytes "quotes") (decodeQuote ctx.json)
        (fun e ↦ e.Dated (bytes "t") ∧ e.TextConditions) log log' out texts) ∧
    (∀ query out, getStockAuctions serve ctx fuel query log = some (out, log') → ∃ texts,
      CollectedFrom ctx (bytes "auctions") (decodeAuctions ctx.json) DailyAuctions.Readable log log' out texts) ∧
    (∀ query loc out, getCryptoBars serve ctx fuel query loc log = some (out, log') → ∃ texts,
      CollectedFrom ctx (bytes "bars") (decodeBar ctx.json) (Json.Dated · (bytes "t")) log log' out texts) ∧
    (∀ query loc out, getCryptoTrades serve ctx fuel query loc log = some (out, log') → ∃ texts,
      CollectedFrom ctx (bytes "trades") (decodeTrade ctx.json)
        (fun e ↦ e.Dated (bytes "t") ∧ e.TextConditions) log log' out texts) ∧
    (∀ query loc out, getCryptoQuotes serve ctx fuel query loc log = some (out, log') → ∃ texts,
      CollectedFrom ctx (bytes "quotes") (decodeQuote ctx.json)
        (fun e ↦ e.Dated (bytes "t") ∧ e.TextConditions) log log' out texts) ∧
    (∀ query out, getOptionBars serve ctx fuel query log = some (out, log') → ∃ texts,
      CollectedFrom ctx (bytes "bars") (decodeBar ctx.json) (Json.Dated · (bytes "t")) log log' out texts) ∧
    (∀ query out, getOptionTrades serve ctx fuel query log = some (out, log') → ∃ texts,
      CollectedFrom ctx (bytes "trades") (decodeTrade ctx.json)
        (fun e ↦ e.Dated (bytes "t") ∧ e.TextConditions) log log' out texts) ∧
    ∀ query out, getForexRates serve ctx fuel query log = some (out, log') → ∃ texts,
      CollectedFrom ctx (bytes "rates") (decodeRate ctx.json) (Json.Dated · (bytes "t")) log log' out texts := by
  have hbar : ∀ e, ctx.json.PrintsAll e → ((∃ b, decodeBar ctx.json e = .ok b) ↔ e.Dated (bytes "t")) :=
    fun _ he ↦ Bar.returnsIff_fromJson he.self _
  have htrade : ∀ e, ctx.json.PrintsAll e → ((∃ t, decodeTrade ctx.json e = .ok t) ↔
      e.Dated (bytes "t") ∧ e.TextConditions) := fun _ he ↦ Trade.returnsIff_fromJson he.self _
  have hquote : ∀ e, ctx.json.PrintsAll e → ((∃ q, decodeQuote ctx.json e = .ok q) ↔
      e.Dated (bytes "t") ∧ e.TextConditions) := fun _ he ↦ Quote.returnsIff_fromJson he.self _
  refine ⟨fun _ _ ↦ symbolHistory_of_answers hlib hbar, fun _ _ ↦ symbolHistory_of_answers hlib htrade,
    fun _ _ ↦ symbolHistory_of_answers hlib hquote,
    fun _ _ ↦ symbolHistory_of_answers hlib fun _ he ↦ DailyAuctions.returnsIff_fromJson he _,
    fun _ _ _ ↦ symbolHistory_of_answers hlib hbar, fun _ _ _ ↦ symbolHistory_of_answers hlib htrade,
    fun _ _ _ ↦ symbolHistory_of_answers hlib hquote, fun _ _ ↦ symbolHistory_of_answers hlib hbar,
    fun _ _ ↦ symbolHistory_of_answers hlib htrade,
    fun _ _ ↦ symbolHistory_of_answers hlib fun _ he ↦ ForexRate.returnsIff_fromJson he.self _⟩

end Methods

/-! ### Three trades on two pages -/

/-- A page of trades that hold nothing but a price. -/
def tradesPage (token : Json ℚ) (prices : List (Bytes × List ℤ)) : Json ℚ :=
  .obj [(nextPageTokenKey, token), (bytes "trades", .obj (prices.map fun symbol ↦
    (symbol.1, .arr (symbol.2.map fun price ↦ .obj [(bytes "p", .int price)]))))]

/-- A client whose JSON library reads `x` as a page with two trades of `A` and one of `B`, and every other
text as one with a trade of `A`. -/
def tradesClient : RequestContext ℚ where
  baseUrl := bytes "https://data.alpaca.markets"
  json := {
    parse := fun text ↦ .ok (if text = bytes "x" then
        tradesPage (.str (bytes "t")) [(bytes "A", [2, 3]), (bytes "B", [4])]
      else tradesPage .null [(bytes "A", [5])])
    dump := fun _ ↦ .ok [] }
  base64Encode := id
  floatToInt32 := id ∘ Rat.floor

/-- A client that gets two pages of trades behind a failure. -/
theorem twoPages_tradesClient : TwoPages tradesClient
    (tradesPage (.str (bytes "t")) [(bytes "A", [2, 3]), (bytes "B", [4])]) (tradesPage .null [(bytes "A", [5])])
    (bytes "t") where
  retries := by decide
  first_eq := rfl
  last_eq := rfl
  first_token := rfl
  last_token := rfl
  token_ne_nil := by decide

/-- The trades of a price each. -/
def trades (prices : List ℚ) : List (Trade ℚ) := prices.map fun price ↦ { price := price, size := 0 }

/-- The method asks for the second page with `sort` in front of the token, the loop with `sort` behind it. -/
theorem histories_agree_trade : ∃ m m' log log',
    getStockTrades twoPageServer tradesClient 2 { sort := some .asc } [] = some (.ok m, log) ∧
      loopPages HistoryQuery.paged (getStockTradesPage twoPageServer tradesClient) mergePages 2
        { sort := some .asc } ∅ [] = some (.ok m', log') ∧
      m.get (bytes "A") = trades [2, 3, 5] ∧ log.requests ≠ log'.requests ∧ SameEntries m m' ∧
      Log.Alike tradesClient (bytes "/v2/stocks/trades") log log' := by
  have h := (histories_agree twoPageServer tradesClient (fun _ _ _ _ _ ↦ rfl) 2 []).2.1 { sort := some .asc }
  obtain ⟨log, hrun, hrequests⟩ := twoPages_tradesClient.paginate_eq
    (fun out page ↦ mergeSymbolPage (decodeTrade tradesClient.json) page (bytes "trades") out) (a := ∅) rfl rfl
    (bytes "/v2/stocks/trades") (HistoryQuery.build { sort := some .asc })
  obtain ⟨log', hloop, hrequests'⟩ := twoPages_tradesClient.loopPages_eq (B := HistoryQuery.paged)
    (fun j ↦ mergeSymbolPage (decodeTrade tradesClient.json) j (bytes "trades") ∅)
    (fun _ _ ↦ rfl) rfl rfl mergePages { sort := some .asc } ∅
  rw [show getStockTrades twoPageServer tradesClient 2 { sort := some .asc } [] = _ from hrun,
    show loopPages HistoryQuery.paged (getStockTradesPage twoPageServer tradesClient) mergePages 2
      { sort := some .asc } ∅ [] = _ from hloop] at h
  rcases h with ⟨⟨hsame, halike⟩⟩
  refine ⟨_, _, log, log', hrun, hloop, by decide +kernel, ?_, hsame, halike⟩
  rw [hrequests, hrequests']
  decide +kernel

/-- Three trades of one symbol, from two pages. -/
theorem histories_of_answers_trade : ∃ m log' texts,
    getStockTrades twoPageServer tradesClient 2 {} [] = some (.ok m, log') ∧ log'.exchanges.length = 3 ∧
      m.get (bytes "A") = trades [2, 3, 5] ∧ m.get (bytes "B") = trades [4] ∧
      CollectedFrom tradesClient (bytes "trades") (decodeTrade tradesClient.json)
        (fun e ↦ e.Dated (bytes "t") ∧ e.TextConditions) [] log' (.ok m) texts := by
  obtain ⟨log, hrun, hrequests⟩ := twoPages_tradesClient.paginate_eq
    (fun out page ↦ mergeSymbolPage (decodeTrade tradesClient.json) page (bytes "trades") out) (a := ∅) rfl rfl
    (bytes "/v2/stocks/trades") (HistoryQuery.build {})
  replace hrun : getStockTrades twoPageServer tradesClient 2 {} [] = _ := hrun
  obtain ⟨texts, h⟩ := (histories_of_answers (fun _ _ _ _ _ ↦ ⟨[], rfl⟩)).2.1 {} _ hrun
  refine ⟨_, _, texts, hrun, ?_, by decide +kernel, by decide +kernel, h⟩
  rw [← Log.length_requests, hrequests]
  rfl

end Alpaca
