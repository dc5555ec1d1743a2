import AlpacaCpp.Data.Snapshots

/-!
# Latest values

The methods of `data_client` that ask once and answer with a map: latest bars, trades, quotes, order books and
rates, snapshots, bond prices and quotes, and the tables of condition and exchange codes. Most endpoints wrap
the map under a key (`to_symbol_map`); stock snapshots and the tables are the answer itself.

`MapMethod` lists them, and `maps_of_answers` says of all of them that **one success decides**: the map
holds under every key what the first entry of that key is read as, and the call throws exactly when an
entry cannot be read, of whichever key. The methods for one symbol ask for a map (`latest_of_answers`), so
they throw at entries nobody asked for, and return a default where there is no entry.

Beside its call, which is the source's, a method has three things: the place in the answer where its
members stand, the `from_json` of a value, and what a value has to satisfy for that not to throw
(`MapMethod.Readable`). The result is then proved once:

* the call is a `get` and a reading of its answer (`exists_call_eq`), and a `get` has one success or none
  (`get_bodies`), so there is one body to speak of;
* the map is made by reading every member in order and storing the first of each key, so it returns when every
  value can be read (`getSymbolMap_spec`), and looks up what the list of members does (`lookup_of_getValues`);
* whatever is then made of the map, such as one of its values, is decided with it (`decided_map`).

The answer has been parsed, so its parts can be printed, and the lines that log do not throw.

None of these methods has a loop of its own, and so none takes fuel: what may be repeated is the attempt,
inside `get`. That a call is decided by one body also says that it never mixes two answers.
-/

namespace Alpaca

variable {D T : Type}

/-! ### Order books and bonds

The models that no other module reads. They throw where the models of the histories do, at their
timestamp; the levels of a book hold two numbers each and cannot throw. -/

/-- `orderbook_level` -/
structure OrderbookLevel (D : Type) where
  price : D
  size : D
  deriving DecidableEq

/-- `orderbook` -/
structure Orderbook (D : Type) where
  timestamp : ℕ := 0
  bids : List (OrderbookLevel D) := []
  asks : List (OrderbookLevel D) := []
  reset : Bool := false
  deriving DecidableEq

/-- `fixed_income_price` -/
structure FixedIncomePrice (D : Type) where
  timestamp : ℕ := 0
  price : D
  yieldToMaturity : D
  yieldToWorst : D
  deriving DecidableEq

/-- `fixed_income_quote` -/
structure FixedIncomeQuote (D : Type) where
  timestamp : ℕ := 0
  bidPrice : D
  bidSize : D
  bidMinSize : D
  bidYieldToMaturity : D
  bidYieldToWorst : D
  askPrice : D
  askSize : D
  askMinSize : D
  askYieldToMaturity : D
  askYieldToWorst : D
  deriving DecidableEq

section Models

/-- A default-constructed `orderbook_level`. -/
def OrderbookLevel.empty [DoubleCasts D] : OrderbookLevel D where
  price := DoubleCasts.zero
  size := DoubleCasts.zero

/-- A default-constructed `fixed_income_price`. -/
def FixedIncomePrice.empty [DoubleCasts D] : FixedIncomePrice D where
  price := DoubleCasts.zero
  yieldToMaturity := DoubleCasts.zero
  yieldToWorst := DoubleCasts.zero

/-- A default-constructed `fixed_income_quote`. -/
def FixedIncomeQuote.empty [DoubleCasts D] : FixedIncomeQuote D where
  bidPrice := DoubleCasts.zero
  bidSize := DoubleCasts.zero
  bidMinSize := DoubleCasts.zero
  bidYieldToMaturity := DoubleCasts.zero
  bidYieldToWorst := DoubleCasts.zero
  askPrice := DoubleCasts.zero
  askSize := DoubleCasts.zero
  askMinSize := DoubleCasts.zero
  askYieldToMaturity := DoubleCasts.zero
  askYieldToWorst := DoubleCasts.zero

variable [Doubles D] (lib : JsonLibrary D)

/-- `from_json` of an `orderbook_level`. -/
def OrderbookLevel.fromJson : Reader D (OrderbookLevel D) :=
  fromLines [
    readDouble lib (bytes "p") fun l x ↦ { l with price := x },
    readDouble lib (bytes "s") fun l x ↦ { l with size := x }]

/-- `from_json` of an `orderbook`. -/
def Orderbook.fromJson : Reader D (Orderbook D) :=
  fromLines [
    readTimestamp (bytes "t") fun o x ↦ { o with timestamp := x },
    readVector (bytes "b") (OrderbookLevel.fromJson lib) .empty fun o x ↦ { o with bids := x },
    readVector (bytes "a") (OrderbookLevel.fromJson lib) .empty fun o x ↦ { o with asks := x },
    readBool (bytes "r") fun o x ↦ { o with reset := x }]

/-- `from_json` of a `fixed_income_price`. -/
def FixedIncomePrice.fromJson : Reader D (FixedIncomePrice D) :=
  fromLines [
    readTimestamp (bytes "t") fun p x ↦ { p with timestamp := x },
    readDouble lib (bytes "p") fun p x ↦ { p with price := x },
    readDouble lib (bytes "ytm") fun p x ↦ { p with yieldToMaturity := x },
    readDouble lib (bytes "ytw") fun p x ↦ { p with yieldToWorst := x }]

/-- `from_json` of a `fixed_income_quote`. -/
def FixedIncomeQuote.fromJson : Reader D (FixedIncomeQuote D) :=
  fromLines [
    readTimestamp (bytes "t") fun q x ↦ { q with timestamp := x },
    readDouble lib (bytes "bp") fun q x ↦ { q with bidPrice := x },
    readDouble lib (bytes "bs") fun q x ↦ { q with bidSize := x },
    readDouble lib (bytes "bms") fun q x ↦ { q with bidMinSize := x },
    readDouble lib (bytes "bytm") fun q x ↦ { q with bidYieldToMaturity := x },
    readDouble lib (bytes "bytw") fun q x ↦ { q with bidYieldToWorst := x },
    readDouble lib (bytes "ap") fun q x ↦ { q with askPrice := x },
    readDouble lib (bytes "as") fun q x ↦ { q with askSize := x },
    readDouble lib (bytes "ams") fun q x ↦ { q with askMinSize := x },
    readDouble lib (bytes "aytm") fun q x ↦ { q with askYieldToMaturity := x },
    readDouble lib (bytes "aytw") fun q x ↦ { q with askYieldToWorst := x }]

/-- `get<std::string>()` of a code. -/
def readCode : Reader D Bytes := fun v _ ↦ v.getString

variable {lib} {j : Json D}

/-- A book asks for its timestamp; its levels ask for nothing. -/
theorem Orderbook.returnsIff_fromJson (hj : lib.PrintsAll j) :
    (Orderbook.fromJson lib).ReturnsIff j (j.Dated (bytes "t")) := by
  have hlevels : ∀ key elems, j.member? key = some (.arr elems) → ∀ e ∈ elems,
      (OrderbookLevel.fromJson lib).Total e := fun key elems helems e he ↦
    total_fromLines (by simp [total_readDouble ((hj.of_member? helems).of_elem he).self])
  refine returnsIff_timestamp_cons (fun line hline ↦ ?_) _ _
  simp only [List.mem_cons, List.not_mem_nil, or_false] at hline
  obtain rfl | rfl | rfl := hline
  · exact total_readVector (hlevels _) _
  · exact total_readVector (hlevels _) _
  · exact total_readBool _ _ j

theorem FixedIncomePrice.returnsIff_fromJson (hj : lib.Prints j) :
    (FixedIncomePrice.fromJson lib).ReturnsIff j (j.Dated (bytes "t")) :=
  returnsIff_timestamp_cons (by simp [total_readDouble hj]) _ _

theorem FixedIncomeQuote.returnsIff_fromJson (hj : lib.Prints j) :
    (FixedIncomeQuote.fromJson lib).ReturnsIff j (j.Dated (bytes "t")) :=
  returnsIff_timestamp_cons (by simp [total_readDouble hj]) _ _

omit [Doubles D] in
/-- A table of codes is a map of strings, read with no macro around it. -/
theorem returnsIff_readCode (j : Json D) : (readCode : Reader D Bytes).ReturnsIff j (j.isString = true) := by
  intro o
  rw [readCode]
  cases j with
  | str s => exact iff_of_true ⟨s, rfl⟩ rfl
  | _ => exact iff_of_false (by simp [Json.getString]) (by simp [Json.isString])

end Models

/-! ### Queries

The three kinds of parameters these endpoints take. None of them has a token, so nothing is set after they
have been built. -/

/-- `latest_query` -/
structure LatestQuery where
  symbols : List Bytes := []
  feed : Option DataFeed := none
  currency : Option Bytes := none

/-- `latest_query::build` -/
def LatestQuery.build (query : LatestQuery) : QueryBuilder :=
  let q : QueryBuilder := {}
  let q := q.addList (bytes "symbols") query.symbols
  let q := q.addOption (bytes "feed") DataFeed.toString query.feed
  q.addOption (bytes "currency") id query.currency

/-- `option_latest_query` -/
structure OptionLatestQuery where
  symbols : List Bytes := []
  feed : Option OptionFeed := none

/-- `option_latest_query::build` -/
def OptionLatestQuery.build (query : OptionLatestQuery) : QueryBuilder :=
  let q : QueryBuilder := {}
  let q := q.addList (bytes "symbols") query.symbols
  q.addOption (bytes "feed") OptionFeed.toString query.feed

/-- The query of the endpoints that take nothing but a list. -/
def listQuery (key : Bytes) (values : List Bytes) : QueryBuilder := ({} : QueryBuilder).addList key values

/-! ### Maps

`to_symbol_map` and `to_bare_map` read the members of an object in document order and store each with
`emplace`, so the first member of a symbol stays; a repeated one is read nevertheless, and may throw. What
is no object has no members, and gives the empty map. -/

/-- The members under a key; nothing when what is there is not an object. -/
def membersUnder (key : Bytes) (j : Json D) : List (Bytes × Json D) :=
  match j.member? key with
  | some (.obj members) => members
  | _ => []

/-- The members of an answer. -/
def ownMembers : Json D → List (Bytes × Json D)
  | .obj members => members
  | _ => []

/-- `to_symbol_map` -/
def toSymbolMap (fromJson : Reader D T) (default : T) (key : Bytes) (j : Json D) : Except Bytes (SymbolMap T) :=
  match j.member? key with
  | some (.obj members) => getSymbolMap fromJson default members
  | _ => .ok ∅

/-- `j.is_object() ? j.get<symbol_map<T>>() : symbol_map<T>{}` -/
def toBareMap (fromJson : Reader D T) (default : T) : Json D → Except Bytes (SymbolMap T)
  | .obj members => getSymbolMap fromJson default members
  | _ => .ok ∅

/-- `first_or_default` -/
def firstOrDefault (default : T) (map : SymbolMap T) (symbol : Bytes) : T := (map.lookup symbol).getD default

theorem toSymbolMap_eq (fromJson : Reader D T) (default : T) (key : Bytes) (j : Json D) :
    toSymbolMap fromJson default key j = getSymbolMap fromJson default (membersUnder key j) := by
  rw [toSymbolMap, membersUnder]
  rcases j.member? key with - | (- | - | - | - | - | - | -) <;> rfl

theorem toBareMap_eq (fromJson : Reader D T) (default : T) (j : Json D) :
    toBareMap fromJson default j = getSymbolMap fromJson default (ownMembers j) := by
  rcases j with - | - | - | - | - | - | - <;> rfl

section Entries

variable {fromJson : Reader D T} {default : T} {members : List (Bytes × Json D)}

/-- Under every key, the first entry. -/
theorem lookup_of_getValues {values : List (Bytes × T)} (h : getValues fromJson default members = .ok values)
    (key : Bytes) :
    Option.Rel (fun v x ↦ fromJson v default = .ok x) (members.lookup key) (values.lookup key) := by
  have hvalues := forall₂_of_mapM_eq_ok h
  clear h
  induction hvalues with
  | nil => exact .none
  | @cons m value members values hm _ ih =>
    obtain ⟨k, v⟩ := m
    obtain ⟨x, hx, rfl⟩ : ∃ x, fromJson v default = .ok x ∧ value = (k, x) := by
      rcases hv : fromJson v default with what | x
      · rw [hv] at hm
        exact absurd hm (by simp [Except.map])
      · rw [hv] at hm
        exact ⟨x, rfl, (Except.ok.inj hm).symm⟩
    rw [List.lookup_cons, List.lookup_cons]
    rcases key == k with - | -
    · exact ih
    · exact .some hx

variable (default members) in
/-- **A map is read from its members**: the first of each key gives the value, and all of them must be
readable. -/
theorem getSymbolMap_spec {p : Json D → Prop} (h : ∀ m ∈ members, fromJson.ReturnsIff m.2 (p m.2)) :
    ((∃ map, getSymbolMap fromJson default members = .ok map) ↔ ∀ m ∈ members, p m.2) ∧
    ∀ map, getSymbolMap fromJson default members = .ok map → ∀ key,
      Option.Rel (fun v x ↦ fromJson v default = .ok x) (members.lookup key) (map.lookup key) := by
  refine ⟨exists_map_eq_ok.trans (exists_getValues_iff h), fun map hmap key ↦ ?_⟩
  rw [getSymbolMap] at hmap
  rcases hvalues : getValues fromJson default members with what | values
  · rw [hvalues] at hmap
    exact absurd hmap (by simp [Except.map])
  · rw [hvalues] at hmap
    obtain rfl := Except.ok.inj hmap
    rw [AList.lookup_emplaceAll, AList.lookup_empty, Option.none_or]
    exact lookup_of_getValues hvalues key

end Entries

/-! ### The methods

Each is written as in the source: its path, its query, and the reader of a value. The methods for a single
symbol build the query of the map method with that symbol, and pick it from the map. -/

section Methods

variable (serve : ℕ → Request → Response) (ctx : RequestContext D)

/-- A method that answers with a map under a key. -/
def symbolMapAt (path : Bytes) (query : QueryBuilder) (key : Bytes) (fromJson : Reader D T) (default : T)
    (log : Log) : Except Error (SymbolMap T) × Log :=
  readAnswer (toSymbolMap fromJson default key) (ctx.get serve path query log)

/-- A method that answers with a map of its own. -/
def bareMapAt (path : Bytes) (query : QueryBuilder) (fromJson : Reader D T) (default : T) (log : Log) :
    Except Error (SymbolMap T) × Log :=
  readAnswer (toBareMap fromJson default) (ctx.get serve path query log)

/-- `get_stock_condition_codes` -/
def getStockConditionCodes (tickType tape : Bytes) (log : Log) : Except Error (SymbolMap Bytes) × Log :=
  bareMapAt serve ctx (Call.getStockConditionCodes tickType tape).path
    (Call.getStockConditionCodes tickType tape).query readCode [] log

/-- `get_stock_exchange_codes` -/
def getStockExchangeCodes (log : Log) : Except Error (SymbolMap Bytes) × Log :=
  bareMapAt serve ctx (bytes "/v2/stocks/meta/exchanges") {} readCode [] log

/-- `get_option_condition_codes` -/
def getOptionConditionCodes (tickType : Bytes) (log : Log) : Except Error (SymbolMap Bytes) × Log :=
  bareMapAt serve ctx (Call.getOptionConditionCodes tickType).path {} readCode [] log

/-- `get_option_exchange_codes` -/
def getOptionExchangeCodes (log : Log) : Except Error (SymbolMap Bytes) × Log :=
  bareMapAt serve ctx (bytes "/v1beta1/options/meta/exchanges") {} readCode [] log

variable [Doubles D]

/-- `get_latest_stock_bars` -/
def getLatestStockBars (query : LatestQuery) (log : Log) : Except Error (SymbolMap (Bar D)) × Log :=
  symbolMapAt serve ctx (bytes "/v2/stocks/bars/latest") query.build (bytes "bars") (Bar.fromJson ctx.json) .empty
    log

/-- `get_latest_stock_trades` -/
def getLatestStockTrades (query : LatestQuery) (log : Log) : Except Error (SymbolMap (Trade D)) × Log :=
  symbolMapAt serve ctx (bytes "/v2/stocks/trades/latest") query.build (bytes "trades") (Trade.fromJson ctx.json)
    .empty log

/-- `get_latest_stock_quotes` -/
def getLatestStockQuotes (query : LatestQuery) (log : Log) : Except Error (SymbolMap (Quote D)) × Log :=
  symbolMapAt serve ctx (bytes "/v2/stocks/quotes/latest") query.build (bytes "quotes") (Quote.fromJson ctx.json)
    .empty log

/-- `get_stock_snapshots` -/
def getStockSnapshots (query : LatestQuery) (log : Log) : Except Error (SymbolMap (Snapshot D)) × Log :=
  bareMapAt serve ctx (bytes "/v2/stocks/snapshots") query.build (Snapshot.fromJson ctx.json) .empty log

/-- `get_latest_crypto_bars` -/
def getLatestCryptoBars (symbols : List Bytes) (loc : CryptoLocation) (log : Log) :
    Except Error (SymbolMap (Bar D)) × Log :=
  symbolMapAt serve ctx (cryptoPrefix loc ++ bytes "/latest/bars") (listQuery (bytes "symbols") symbols)
    (bytes "bars") (Bar.fromJson ctx.json) .empty log

/-- `get_latest_crypto_trades` -/
def getLatestCryptoTrades (symbols : List Bytes) (loc : CryptoLocation) (log : Log) :
    Except Error (SymbolMap (Trade D)) × Log :=
  symbolMapAt serve ctx (cryptoPrefix loc ++ bytes "/latest/trades") (listQuery (bytes "symbols") symbols)
    (bytes "trades") (Trade.fromJson ctx.json) .empty log

/-- `get_latest_crypto_quotes` -/
def getLatestCryptoQuotes (symbols : List Bytes) (loc : CryptoLocation) (log : Log) :
    Except Error (SymbolMap (Quote D)) × Log :=
  symbolMapAt serve ctx (cryptoPrefix loc ++ bytes "/latest/quotes") (listQuery (bytes "symbols") symbols)
    (bytes "quotes") (Quote.fromJson ctx.json) .empty log

/-- `get_latest_crypto_orderbooks` -/
def getLatestCryptoOrderbooks (symbols : List Bytes) (loc : CryptoLocation) (log : Log) :
    Except Error (SymbolMap (Orderbook D)) × Log :=
  symbolMapAt serve ctx (cryptoPrefix loc ++ bytes "/latest/orderbooks") (listQuery (bytes "symbols") symbols)
    (bytes "orderbooks") (Orderbook.fromJson ctx.json) {} log

/-- `get_crypto_snapshots` -/
def getCryptoSnapshots (symbols : List Bytes) (loc : CryptoLocation) (log : Log) :
    Except Error (SymbolMap (Snapshot D)) × Log :=
  symbolMapAt serve ctx (cryptoPrefix loc ++ bytes "/snapshots") (listQuery (bytes "symbols") symbols)
    (bytes "snapshots") (Snapshot.fromJson ctx.json) .empty log

/-- `get_latest_option_trades` -/
def getLatestOptionTrades (query : OptionLatestQuery) (log : Log) : Except Error (SymbolMap (Trade D)) × Log :=
  symbolMapAt serve ctx (bytes "/v1beta1/options/trades/latest") query.build (bytes "trades")
    (Trade.fromJson ctx.json) .empty log

/-- `get_latest_option_quotes` -/
def getLatestOptionQuotes (query : OptionLatestQuery) (log : Log) : Except Error (SymbolMap (Quote D)) × Log :=
  symbolMapAt serve ctx (bytes "/v1beta1/options/quotes/latest") query.build (bytes "quotes")
    (Quote.fromJson ctx.json) .empty log

/-- `get_option_snapshots` -/
def getOptionSnapshots (query : OptionLatestQuery) (log : Log) :
    Except Error (SymbolMap (OptionSnapshot D)) × Log :=
  symbolMapAt serve ctx (bytes "/v1beta1/options/snapshots") query.build (bytes "snapshots")
    (OptionSnapshot.fromJson ctx.json) .empty log

/-- `get_latest_forex_rates` -/
def getLatestForexRates (currencyPairs : List Bytes) (log : Log) : Except Error (SymbolMap (ForexRate D)) × Log :=
  symbolMapAt serve ctx (bytes "/v1beta1/forex/latest/rates") (listQuery (bytes "currency_pairs") currencyPairs)
    (bytes "rates") (ForexRate.fromJson ctx.json) .empty log

/-- `get_latest_fixed_income_prices` -/
def getLatestFixedIncomePrices (isins : List Bytes) (log : Log) :
    Except Error (SymbolMap (FixedIncomePrice D)) × Log :=
  symbolMapAt serve ctx (bytes "/v1beta1/fixed_income/latest/prices") (listQuery (bytes "isins") isins)
    (bytes "prices") (FixedIncomePrice.fromJson ctx.json) .empty log

/-- `get_latest_fixed_income_quotes` -/
def getLatestFixedIncomeQuotes (fmt : D → Bytes) (isins : List Bytes) (tradeSize : Option D) (log : Log) :
    Except Error (SymbolMap (FixedIncomeQuote D)) × Log :=
  symbolMapAt serve ctx (bytes "/v1beta1/fixed_income/latest/quotes")
    ((listQuery (bytes "isins") isins).addOptionDouble fmt (bytes "trade_size") tradeSize) (bytes "quotes")
    (FixedIncomeQuote.fromJson ctx.json) .empty log

/-- The query of the methods for one symbol. -/
def latestQueryOf (symbol : Bytes) (feed : Option DataFeed) : LatestQuery := { symbols := [symbol], feed := feed }

/-- What a method for one symbol picks from its map. -/
def pick (default : T) (symbol : Bytes) (out : Except Error (SymbolMap T) × Log) : Except Error T × Log :=
  (out.1.map fun map ↦ firstOrDefault default map symbol, out.2)

/-- `get_latest_stock_bar` -/
def getLatestStockBar (symbol : Bytes) (feed : Option DataFeed) (log : Log) : Except Error (Bar D) × Log :=
  pick .empty symbol (getLatestStockBars serve ctx (latestQueryOf symbol feed) log)

/-- `get_latest_stock_trade` -/
def getLatestStockTrade (symbol : Bytes) (feed : Option DataFeed) (log : Log) : Except Error (Trade D) × Log :=
  pick .empty symbol (getLatestStockTrades serve ctx (latestQueryOf symbol feed) log)

/-- `get_latest_stock_quote` -/
def getLatestStockQuote (symbol : Bytes) (feed : Option DataFeed) (log : Log) : Except Error (Quote D) × Log :=
  pick .empty symbol (getLatestStockQuotes serve ctx (latestQueryOf symbol feed) log)

/-- `get_stock_snapshot` -/
def getStockSnapshot (symbol : Bytes) (feed : Option DataFeed) (log : Log) : Except Error (Snapshot D) × Log :=
  pick .empty symbol (getStockSnapshots serve ctx (latestQueryOf symbol feed) log)

end Methods

/-! ### All of them

The type of an index says what the values of its map are, so that the reader, the default and the call can
be functions of it. Nothing is assumed of a method that is not in the list. -/

/-- The methods that answer with a map, by the type of its values. -/
inductive MapMethod (D : Type) : Type → Type where
  | latestStockBars (query : LatestQuery) : MapMethod D (Bar D)
  | latestStockTrades (query : LatestQuery) : MapMethod D (Trade D)
  | latestStockQuotes (query : LatestQuery) : MapMethod D (Quote D)
  | stockSnapshots (query : LatestQuery) : MapMethod D (Snapshot D)
  | stockConditionCodes (tickType tape : Bytes) : MapMethod D Bytes
  | stockExchangeCodes : MapMethod D Bytes
  | latestCryptoBars (symbols : List Bytes) (loc : CryptoLocation) : MapMethod D (Bar D)
  | latestCryptoTrades (symbols : List Bytes) (loc : CryptoLocation) : MapMethod D (Trade D)
  | latestCryptoQuotes (symbols : List Bytes) (loc : CryptoLocation) : MapMethod D (Quote D)
  | latestCryptoOrderbooks (symbols : List Bytes) (loc : CryptoLocation) : MapMethod D (Orderbook D)
  | cryptoSnapshots (symbols : List Bytes) (loc : CryptoLocation) : MapMethod D (Snapshot D)
  | latestOptionTrades (query : OptionLatestQuery) : MapMethod D (Trade D)
  | latestOptionQuotes (query : OptionLatestQuery) : MapMethod D (Quote D)
  | optionSnapshots (query : OptionLatestQuery) : MapMethod D (OptionSnapshot D)
  | optionConditionCodes (tickType : Bytes) : MapMethod D Bytes
  | optionExchangeCodes : MapMethod D Bytes
  | latestForexRates (currencyPairs : List Bytes) : MapMethod D (ForexRate D)
  | latestFixedIncomePrices (isins : List Bytes) : MapMethod D (FixedIncomePrice D)
  | latestFixedIncomeQuotes (isins : List Bytes) (tradeSize : Option D) : MapMethod D (FixedIncomeQuote D)

/-- The methods for one symbol. -/
inductive LatestMethod (D : Type) : Type → Type where
  | stockBar : LatestMethod D (Bar D)
  | stockTrade : LatestMethod D (Trade D)
  | stockQuote : LatestMethod D (Quote D)
  | stockSnapshot : LatestMethod D (Snapshot D)

namespace MapMethod

/-- The members of an answer that are read. -/
def members : MapMethod D T → Json D → List (Bytes × Json D)
  | latestStockBars _ | latestCryptoBars _ _ => membersUnder (bytes "bars")
  | latestStockTrades _ | latestCryptoTrades _ _ | latestOptionTrades _ => membersUnder (bytes "trades")
  | latestStockQuotes _ | latestCryptoQuotes _ _ | latestOptionQuotes _ | latestFixedIncomeQuotes _ _ =>
    membersUnder (bytes "quotes")
  | latestCryptoOrderbooks _ _ => membersUnder (bytes "orderbooks")
  | cryptoSnapshots _ _ | optionSnapshots _ => membersUnder (bytes "snapshots")
  | latestForexRates _ => membersUnder (bytes "rates")
  | latestFixedIncomePrices _ => membersUnder (bytes "prices")
  | stockSnapshots _ | stockConditionCodes _ _ | stockExchangeCodes | optionConditionCodes _
  | optionExchangeCodes => ownMembers

/-- Every method reads its map from one of these two places. -/
theorem members_eq (m : MapMethod D T) : m.members = ownMembers ∨ ∃ key, m.members = membersUnder key := by
  cases m with
  | stockSnapshots _ | stockConditionCodes _ _ | stockExchangeCodes | optionConditionCodes _
  | optionExchangeCodes => exact Or.inl rfl
  | _ => exact Or.inr ⟨_, rfl⟩

/-- What an entry must be for it to be read. -/
def Readable : MapMethod D T → Json D → Prop
  | latestStockBars _ | latestCryptoBars _ _ | latestCryptoOrderbooks _ _ | latestForexRates _
  | latestFixedIncomePrices _ | latestFixedIncomeQuotes _ _ => (Json.Dated · (bytes "t"))
  | latestStockTrades _ | latestCryptoTrades _ _ | latestOptionTrades _ | latestStockQuotes _
  | latestCryptoQuotes _ _ | latestOptionQuotes _ => fun v ↦ v.Dated (bytes "t") ∧ v.TextConditions
  | stockSnapshots _ | cryptoSnapshots _ _ | optionSnapshots _ => SnapshotReadable
  | stockConditionCodes _ _ | stockExchangeCodes | optionConditionCodes _ | optionExchangeCodes =>
    fun v ↦ v.isString = true

variable [Doubles D]

/-- `from_json` of an entry. -/
def fromJson (lib : JsonLibrary D) : MapMethod D T → Reader D T
  | latestStockBars _ | latestCryptoBars _ _ => Bar.fromJson lib
  | latestStockTrades _ | latestCryptoTrades _ _ | latestOptionTrades _ => Trade.fromJson lib
  | latestStockQuotes _ | latestCryptoQuotes _ _ | latestOptionQuotes _ => Quote.fromJson lib
  | latestCryptoOrderbooks _ _ => Orderbook.fromJson lib
  | stockSnapshots _ | cryptoSnapshots _ _ => Snapshot.fromJson lib
  | optionSnapshots _ => OptionSnapshot.fromJson lib
  | latestForexRates _ => ForexRate.fromJson lib
  | latestFixedIncomePrices _ => FixedIncomePrice.fromJson lib
  | latestFixedIncomeQuotes _ _ => FixedIncomeQuote.fromJson lib
  | stockConditionCodes _ _ | stockExchangeCodes | optionConditionCodes _ | optionExchangeCodes => readCode

/-- A default-constructed entry. -/
def default : MapMethod D T → T
  | latestStockBars _ | latestCryptoBars _ _ => .empty
  | latestStockTrades _ | latestCryptoTrades _ _ | latestOptionTrades _ => .empty
  | latestStockQuotes _ | latestCryptoQuotes _ _ | latestOptionQuotes _ => .empty
  | latestCryptoOrderbooks _ _ => {}
  | stockSnapshots _ | cryptoSnapshots _ _ => .empty
  | optionSnapshots _ => .empty
  | latestForexRates _ => .empty
  | latestFixedIncomePrices _ => .empty
  | latestFixedIncomeQuotes _ _ => .empty
  | stockConditionCodes _ _ | stockExchangeCodes | optionConditionCodes _ | optionExchangeCodes => []

/-- The call itself. -/
def call (serve : ℕ → Request → Response) (ctx : RequestContext D) (fmt : D → Bytes) :
    MapMethod D T → Log → Except Error (SymbolMap T) × Log
  | latestStockBars query => getLatestStockBars serve ctx query
  | latestStockTrades query => getLatestStockTrades serve ctx query
  | latestStockQuotes query => getLatestStockQuotes serve ctx query
  | stockSnapshots query => getStockSnapshots serve ctx query
  | stockConditionCodes tickType tape => getStockConditionCodes serve ctx tickType tape
  | stockExchangeCodes => getStockExchangeCodes serve ctx
  | latestCryptoBars symbols loc => getLatestCryptoBars serve ctx symbols loc
  | latestCryptoTrades symbols loc => getLatestCryptoTrades serve ctx symbols loc
  | latestCryptoQuotes symbols loc => getLatestCryptoQuotes serve ctx symbols loc
  | latestCryptoOrderbooks symbols loc => getLatestCryptoOrderbooks serve ctx symbols loc
  | cryptoSnapshots symbols loc => getCryptoSnapshots serve ctx symbols loc
  | latestOptionTrades query => getLatestOptionTrades serve ctx query
  | latestOptionQuotes query => getLatestOptionQuotes serve ctx query
  | optionSnapshots query => getOptionSnapshots serve ctx query
  | optionConditionCodes tickType => getOptionConditionCodes serve ctx tickType
  | optionExchangeCodes => getOptionExchangeCodes serve ctx
  | latestForexRates currencyPairs => getLatestForexRates serve ctx currencyPairs
  | latestFixedIncomePrices isins => getLatestFixedIncomePrices serve ctx isins
  | latestFixedIncomeQuotes isins tradeSize => getLatestFixedIncomeQuotes serve ctx fmt isins tradeSize

/-- **What each method asks of a value**, method by method. -/
theorem returnsIff_fromJson {lib : JsonLibrary D} {v : Json D} (hv : lib.PrintsAll v) (m : MapMethod D T) :
    (m.fromJson lib).ReturnsIff v (m.Readable v) := by
  cases m with
  | latestStockBars _ | latestCryptoBars _ _ => exact Bar.returnsIff_fromJson hv.self
  | latestStockTrades _ | latestCryptoTrades _ _ | latestOptionTrades _ =>
    exact Trade.returnsIff_fromJson hv.self
  | latestStockQuotes _ | latestCryptoQuotes _ _ | latestOptionQuotes _ =>
    exact Quote.returnsIff_fromJson hv.self
  | latestCryptoOrderbooks _ _ => exact Orderbook.returnsIff_fromJson hv
  | stockSnapshots _ | cryptoSnapshots _ _ => exact Snapshot.returnsIff_fromJson hv
  | optionSnapshots _ => exact OptionSnapshot.returnsIff_fromJson hv
  | latestForexRates _ => exact ForexRate.returnsIff_fromJson hv.self
  | latestFixedIncomePrices _ => exact FixedIncomePrice.returnsIff_fromJson hv.self
  | latestFixedIncomeQuotes _ _ => exact FixedIncomeQuote.returnsIff_fromJson hv.self
  | stockConditionCodes _ _ | stockExchangeCodes | optionConditionCodes _ | optionExchangeCodes =>
    exact returnsIff_readCode v

/-- **Every one of them** is one `get`, whose answer is read as the map of its members. -/
theorem exists_call_eq (serve : ℕ → Request → Response) (ctx : RequestContext D) (fmt : D → Bytes)
    (m : MapMethod D T) (log : Log) : ∃ path query, m.call serve ctx fmt log =
      readAnswer (fun j ↦ getSymbolMap (m.fromJson ctx.json) m.default (m.members j))
        (ctx.get serve path query log) := by
  have hwrapped : ∀ {T : Type} (path : Bytes) (query : QueryBuilder) (key : Bytes) (fromJson : Reader D T)
      (default : T), ∃ path' query', symbolMapAt serve ctx path query key fromJson default log =
        readAnswer (fun j ↦ getSymbolMap fromJson default (membersUnder key j)) (ctx.get serve path' query' log) :=
    fun path query key fromJson default ↦ ⟨path, query, by
      rw [symbolMapAt, funext (toSymbolMap_eq fromJson default key)]⟩
  have hbare : ∀ {T : Type} (path : Bytes) (query : QueryBuilder) (fromJson : Reader D T) (default : T),
      ∃ path' query', bareMapAt serve ctx path query fromJson default log =
        readAnswer (fun j ↦ getSymbolMap fromJson default (ownMembers j)) (ctx.get serve path' query' log) :=
    fun path query fromJson default ↦ ⟨path, query, by
      rw [bareMapAt, funext (toBareMap_eq fromJson default)]⟩
  cases m with
  | stockSnapshots _ | stockConditionCodes _ _ | stockExchangeCodes | optionConditionCodes _
  | optionExchangeCodes => exact hbare _ _ _ _
  | _ => exact hwrapped _ _ _ _ _

end MapMethod

/-- The map a method for one symbol asks for. -/
def LatestMethod.mapMethod (symbol : Bytes) (feed : Option DataFeed) : LatestMethod D T → MapMethod D T
  | stockBar => .latestStockBars (latestQueryOf symbol feed)
  | stockTrade => .latestStockTrades (latestQueryOf symbol feed)
  | stockQuote => .latestStockQuotes (latestQueryOf symbol feed)
  | stockSnapshot => .stockSnapshots (latestQueryOf symbol feed)

/-- The call itself. -/
def LatestMethod.call [Doubles D] (serve : ℕ → Request → Response) (ctx : RequestContext D) (symbol : Bytes)
    (feed : Option DataFeed) : LatestMethod D T → Log → Except Error T × Log
  | stockBar => getLatestStockBar serve ctx symbol feed
  | stockTrade => getLatestStockTrade serve ctx symbol feed
  | stockQuote => getLatestStockQuote serve ctx symbol feed
  | stockSnapshot => getStockSnapshot serve ctx symbol feed

/-! ### What they return

`DecidedBy` is the result for a call that had its success, `Failed` for one that had none. In the first
case the body decides everything: whether it parses, whether every value of the map can be read, and what
the map then holds under a symbol. -/

section Printing

variable {lib : JsonLibrary D} (hlib : lib.ParsedPrints) {text : Bytes} {j : Json D}
  (hparse : parseBody lib text = .ok j) {e : Bytes × Json D}

include hlib hparse

/-- The members under a key are parts of the answer. -/
theorem printsAll_of_mem_membersUnder {key : Bytes} (he : e ∈ membersUnder key j) : lib.PrintsAll e.2 := by
  rw [membersUnder] at he
  split at he
  case h_1 members hmembers => exact (printsAll_of_parseBody hlib hparse hmembers).of_value he
  case h_2 => exact absurd he List.not_mem_nil

/-- The members of the answer itself are parts of it. -/
theorem printsAll_of_mem_ownMembers (he : e ∈ ownMembers j) : lib.PrintsAll e.2 := by
  rw [parseBody] at hparse
  split at hparse
  · exact absurd (Except.ok.inj hparse ▸ he) List.not_mem_nil
  · split at hparse
    case h_1 j' hj' =>
      obtain rfl := Except.ok.inj hparse
      have hprints := JsonLibrary.PrintsAll.of_parse hlib hj'
      cases j' with
      | obj members => exact hprints.of_value he
      | _ => exact absurd he List.not_mem_nil
    case h_2 => exact absurd hparse (by simp)

theorem MapMethod.printsAll_of_mem_members {m : MapMethod D T} (he : e ∈ m.members j) : lib.PrintsAll e.2 := by
  rcases m.members_eq with h | ⟨key, h⟩
  · exact printsAll_of_mem_ownMembers hlib hparse (h ▸ he)
  · exact printsAll_of_mem_membersUnder hlib hparse (h ▸ he)

end Printing

/-- A call whose one success has the body `text`: what `Reads` says of the value, when every entry of the
answer can be read, and otherwise an exception of the JSON library. -/
structure DecidedBy (ctx : RequestContext D) (m : MapMethod D T) {α : Type} (Reads : Json D → α → Prop)
    (log log' : Log) (out : Except Error α) (text : Bytes) : Prop where
  bodies : log'.bodies = log.bodies ++ [text]
  unparsed (e : Error) (h : parseBody ctx.json text = .error e) : out = .error e
  mapped (j : Json D) (h : parseBody ctx.json text = .ok j) :
    Mapped out ↔ ∀ e ∈ m.members j, m.Readable e.2
  value (j : Json D) (h : parseBody ctx.json text = .ok j) (hmapped : Mapped out) : ∃ x, out = .ok x ∧ Reads j x

/-- A call without a success: it ends with an `api_error`. -/
def Failed {α : Type} (log log' : Log) (out : Except Error α) : Prop :=
  log'.bodies = log.bodies ∧ ∃ status code message body, out = .error (.api status code message body)

section Answers

variable [Doubles D] {serve : ℕ → Request → Response} {ctx : RequestContext D} {fmt : D → Bytes}

variable (serve fmt) in
/-- Whatever is made of the map. -/
theorem decided_map (hlib : ctx.json.ParsedPrints) (m : MapMethod D T) {α : Type} (f : SymbolMap T → α) (log : Log) :
    Failed log (m.call serve ctx fmt log).2 ((m.call serve ctx fmt log).1.map f) ∨
    ∃ text, DecidedBy ctx m (fun j x ↦ ∃ map, x = f map ∧ ∀ key, Option.Rel
        (fun v y ↦ m.fromJson ctx.json v m.default = .ok y) ((m.members j).lookup key) (map.lookup key))
      log (m.call serve ctx fmt log).2 ((m.call serve ctx fmt log).1.map f) text := by
  obtain ⟨path, query, hcall⟩ := m.exists_call_eq serve ctx fmt log
  have hget := get_bodies serve ctx path query log
  rw [hcall]
  generalize ctx.get serve path query log = r at hget ⊢
  obtain ⟨out, log'⟩ := r
  dsimp only at hget
  obtain ⟨hbodies, status, code, message, body, rfl⟩ | ⟨text, hbodies, rfl⟩ := hget
  · exact Or.inl ⟨hbodies, _, _, _, _, rfl⟩
  refine Or.inr ⟨text, ?_⟩
  rcases hparse : parseBody ctx.json text with e | j
  · exact ⟨hbodies, fun e' he' ↦ congrArg Except.error (Except.error.inj (hparse.symm.trans he')),
      fun j hj ↦ absurd (hparse.symm.trans hj) (by simp), fun j hj ↦ absurd (hparse.symm.trans hj) (by simp)⟩
  · obtain ⟨hiff, hlookup⟩ := getSymbolMap_spec m.default (m.members j) fun e he ↦
      m.returnsIff_fromJson (MapMethod.printsAll_of_mem_members hlib hparse he)
    have hlift : ∀ r : Except Bytes (SymbolMap T), (liftJson r).map f = liftJson (r.map f) := by
      rintro (what | map) <;> rfl
    refine ⟨hbodies, fun e he ↦ absurd (hparse.symm.trans he) (by simp), fun j' hj' ↦ ?_, fun j' hj' hmapped ↦ ?_⟩
    · obtain rfl := Except.ok.inj (hj'.symm.trans hparse)
      dsimp only [readAnswer]
      rw [hlift, mapped_liftJson, exists_map_eq_ok, hiff]
    · obtain rfl := Except.ok.inj (hj'.symm.trans hparse)
      dsimp only [readAnswer] at hmapped ⊢
      rw [hlift] at hmapped ⊢
      obtain ⟨map, hmap⟩ := exists_map_eq_ok.1 (mapped_liftJson.1 hmapped)
      exact ⟨f map, by rw [hmap]; rfl, map, rfl, hlookup map hmap⟩

omit [Doubles D] in
/-- What follows from the value may be said instead of it. -/
theorem DecidedBy.imp {m : MapMethod D T} {α : Type} {R R' : Json D → α → Prop} {log log' : Log}
    {out : Except Error α} {text : Bytes} (h : DecidedBy ctx m R log log' out text) (hR : ∀ j x, R j x → R' j x) :
    DecidedBy ctx m R' log log' out text where
  bodies := h.bodies
  unparsed := h.unparsed
  mapped := h.mapped
  value j hparse hmapped := by
    obtain ⟨x, hx, hreads⟩ := h.value j hparse hmapped
    exact ⟨x, hx, hR j x hreads⟩

variable (serve fmt) in
/-- **One success decides about a map**: unless there is none, the map has under every key what the first
entry of that key is read as, and the JSON library throws exactly when an entry cannot be read. -/
theorem maps_of_answers (hlib : ctx.json.ParsedPrints) (m : MapMethod D T) (log : Log) :
    Failed log (m.call serve ctx fmt log).2 (m.call serve ctx fmt log).1 ∨
    ∃ text, DecidedBy ctx m (fun j map ↦ ∀ key, Option.Rel (fun v x ↦ m.fromJson ctx.json v m.default = .ok x)
        ((m.members j).lookup key) (map.lookup key))
      log (m.call serve ctx fmt log).2 (m.call serve ctx fmt log).1 text := by
  have h := decided_map serve fmt hlib m id log
  rw [show (m.call serve ctx fmt log).1.map id = (m.call serve ctx fmt log).1 from congrFun Except.map_id _] at h
  obtain hfailed | ⟨text, hdecided⟩ := h
  · exact Or.inl hfailed
  · refine Or.inr ⟨text, hdecided.imp fun j x h ↦ ?_⟩
    obtain ⟨map, rfl, hmap⟩ := h
    exact hmap

variable (serve) in
/-- **A method for one symbol reads the whole map**: it returns what the first entry of the symbol is read
as, or a default when there is none, and throws when any entry cannot be read, of this symbol or another. -/
theorem latest_of_answers (hlib : ctx.json.ParsedPrints) (m : LatestMethod D T) (symbol : Bytes)
    (feed : Option DataFeed) (log : Log) :
    Failed log (m.call serve ctx symbol feed log).2 (m.call serve ctx symbol feed log).1 ∨
    ∃ text, DecidedBy ctx (m.mapMethod symbol feed)
      (fun j x ↦ (((m.mapMethod symbol feed).members j).lookup symbol).elim (x = (m.mapMethod symbol feed).default)
        fun v ↦ (m.mapMethod symbol feed).fromJson ctx.json v (m.mapMethod symbol feed).default = .ok x)
      log (m.call serve ctx symbol feed log).2 (m.call serve ctx symbol feed log).1 text := by
  -- every method for one symbol picks it out of the map it has asked for
  have hpick : m.call serve ctx symbol feed log = pick (m.mapMethod symbol feed).default symbol
      ((m.mapMethod symbol feed).call serve ctx (fun _ ↦ []) log) := by
    cases m <;> rfl
  rw [hpick]
  obtain hfailed | ⟨text, hdecided⟩ :=
    decided_map serve (fun _ ↦ []) hlib (m.mapMethod symbol feed) (firstOrDefault _ · symbol) log
  · exact Or.inl hfailed
  · refine Or.inr ⟨text, hdecided.imp fun j x h ↦ ?_⟩
    obtain ⟨map, rfl, hmap⟩ := h
    have hsymbol := hmap symbol
    rw [firstOrDefault]
    generalize ((m.mapMethod symbol feed).members j).lookup symbol = found at hsymbol ⊢
    generalize map.lookup symbol = value at hsymbol ⊢
    rcases hsymbol with hread | -
    · exact hread
    · rfl

end Answers

/-! ### A book, and an entry nobody asked for -/

/-- A client whose JSON library reads every text as an answer with a book of `A`, a bar of `A` whose
timestamp is a number, and a bar of `B`. -/
def latestClient : RequestContext ℚ where
  baseUrl := bytes "https://data.alpaca.markets"
  json := {
    parse := fun _ ↦ .ok (.obj [
      (bytes "orderbooks", .obj [(bytes "A", .obj [(bytes "b", .arr [.obj [(bytes "p", .int 2)]])])]),
      (bytes "bars", .obj [(bytes "A", .obj [(bytes "t", .int 5)]), (bytes "B", .obj [(bytes "c", .int 3)])])])
    dump := fun _ ↦ .ok [] }
  base64Encode := id
  floatToInt32 := id ∘ Rat.floor

/-- A server that answers every request with success. -/
def latestServer (_ : ℕ) (_ : Request) : Response := { isOk := true, resultCode := 200, resultText := bytes "x" }

theorem latestClient_parsedPrints : latestClient.json.ParsedPrints := fun _ _ _ _ _ ↦ ⟨[], rfl⟩

/-- A book with a bid that has no size. -/
theorem maps_of_answers_book : ∃ map log' text,
    getLatestCryptoOrderbooks latestServer latestClient [bytes "A"] .us [] = (.ok map, log') ∧
    map.lookup (bytes "A") = some { bids := [{ price := 2, size := 0 }] } ∧
    DecidedBy latestClient (.latestCryptoOrderbooks [bytes "A"] .us) (fun j map ↦ ∀ key, Option.Rel
        (fun v x ↦ Orderbook.fromJson latestClient.json v {} = .ok x)
        ((membersUnder (bytes "orderbooks") j).lookup key) (map.lookup key)) [] log' (.ok map) text := by
  have hget : latestClient.get latestServer (cryptoPrefix .us ++ bytes "/latest/orderbooks")
      (listQuery (bytes "symbols") [bytes "A"]) [] = _ := RequestContext.get_of_answer latestServer rfl rfl
  obtain ⟨log', hrun⟩ : ∃ log', getLatestCryptoOrderbooks latestServer latestClient [bytes "A"] .us [] =
      (.ok ((∅ : SymbolMap (Orderbook ℚ)).emplace (bytes "A") { bids := [{ price := 2, size := 0 }] }), log') := by
    rw [getLatestCryptoOrderbooks, symbolMapAt, hget]
    exact ⟨_, rfl⟩
  have h := maps_of_answers latestServer (fun _ ↦ []) latestClient_parsedPrints
    (.latestCryptoOrderbooks [bytes "A"] .us) []
  rw [MapMethod.call, hrun] at h
  obtain ⟨-, _, _, _, _, he⟩ | ⟨text, htext⟩ := h
  · exact absurd he (by simp)
  · exact ⟨_, log', text, hrun, by decide +kernel, htext⟩

/-- The bar of `B` cannot be had, for the bar of `A`. -/
theorem latest_of_answers_misdated : ∃ log' text,
    getLatestStockBar latestServer latestClient (bytes "B") none [] =
      (.error (.json (bytes "type must be string")), log') ∧
    DecidedBy latestClient (.latestStockBars (latestQueryOf (bytes "B") none))
      (fun j x ↦ ((membersUnder (bytes "bars") j).lookup (bytes "B")).elim (x = .empty)
        fun v ↦ Bar.fromJson latestClient.json v .empty = .ok x)
      [] log' (.error (.json (bytes "type must be string"))) text := by
  have hget : latestClient.get latestServer (bytes "/v2/stocks/bars/latest")
      (latestQueryOf (bytes "B") none).build [] = _ := RequestContext.get_of_answer latestServer rfl rfl
  obtain ⟨log', hrun⟩ : ∃ log', getLatestStockBar latestServer latestClient (bytes "B") none [] =
      (.error (.json (bytes "type must be string")), log') := by
    rw [getLatestStockBar, getLatestStockBars, symbolMapAt, hget]
    exact ⟨_, rfl⟩
  have h := latest_of_answers latestServer latestClient_parsedPrints .stockBar (bytes "B") none []
  rw [LatestMethod.call, hrun] at h
  obtain ⟨-, _, _, _, _, he⟩ | ⟨text, htext⟩ := h
  · exact absurd he (by simp)
  · exact ⟨log', text, hrun, htext⟩

end Alpaca
