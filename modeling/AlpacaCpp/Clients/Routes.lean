import AlpacaCpp.Data.StockBars
import AlpacaCpp.Trading.OrderModel

/-!
# Identifiers in paths

The methods of `trading_client` and `data_client` that format an identifier of the caller into the path
of a request; their awaitable forms format the same paths. `Call` is what such a method asks
`request_context` for, `Method.route` where the request is meant to go.

`query_builder` encodes what it prints; paths are formatted as they are, although `url_encode` is
documented for path segments too. So `routed_iff` says **exactly which identifiers reach their route**,
the same for all methods: the literal ones. A crypto symbol such as `BTC/USD` is not one of them.

A server takes a URL apart before it decodes anything: the path ends where the query begins, and it is cut
at its slashes. What each method formats is a path of fixed segments with the identifier between them
(`path_call`), and behind it the query, which is encoded and so never changes the path (`query_call`,
`url_call`). A fixed segment reads as itself (`mem_names`), so everything comes down to the segment of the
identifier (`literal_route_iff`).

The condition has two halves. The base URL must not hold a `?` or a `#`, which would cut off everything
behind it; and each identifier must be literal. Neither depends on the method, so there is one theorem for
all of them and no exception to it.
-/

namespace Alpaca

variable {D : Type}

/-- The arguments of a request, without its body. -/
structure Call where
  verb : Verb
  path : Bytes
  query : QueryBuilder := {}
  deriving DecidableEq

/-- The URL of a call. -/
def Call.url (ctx : RequestContext D) (call : Call) : Bytes := ctx.buildUrl call.path call.query

/-- A call with one identifier, behind a fixed path. -/
def Call.identified (verb : Verb) (pre : String) (id : Bytes) : Call where
  verb := verb
  path := bytes pre ++ id

/-! ### Trading

The methods of `trading_client` that have an identifier in their path, with the path as the source formats
it and the query behind it. -/

/-- `close_position_request` -/
structure ClosePositionRequest (D : Type) where
  qty : Option D := none
  percentage : Option D := none

/-- `close_position_request::build` -/
def ClosePositionRequest.build (fmt : D → Bytes) (r : ClosePositionRequest D) : QueryBuilder :=
  let q : QueryBuilder := {}
  let q := q.addOptionDouble fmt (bytes "qty") r.qty
  q.addOptionDouble fmt (bytes "percentage") r.percentage

namespace Call

/-- `get_order` -/
def getOrder (orderId : Bytes) (nested : Bool) : Call where
  verb := .get
  path := TradingClient.orderPath orderId
  query := TradingClient.nestedQuery nested

/-- `replace_order` -/
def replaceOrder (orderId : Bytes) : Call := identified .patch "/v2/orders/" orderId

/-- `cancel_order` -/
def cancelOrder (orderId : Bytes) : Call := identified .del "/v2/orders/" orderId

/-- `get_position` -/
def getPosition (symbolOrAssetId : Bytes) : Call := identified .get "/v2/positions/" symbolOrAssetId

/-- `close_position`. The query is part of the path that is handed over. -/
def closePosition (fmt : D → Bytes) (symbolOrAssetId : Bytes) (request : ClosePositionRequest D) :
    Call where
  verb := .del
  path := bytes "/v2/positions/" ++ symbolOrAssetId ++ (request.build fmt).str

/-- `exercise_option_position` -/
def exerciseOptionPosition (symbolOrContractId : Bytes) : Call where
  verb := .post
  path := bytes "/v2/positions/" ++ symbolOrContractId ++ bytes "/exercise"

/-- `do_not_exercise_option_position` -/
def doNotExerciseOptionPosition (symbolOrContractId : Bytes) : Call where
  verb := .post
  path := bytes "/v2/positions/" ++ symbolOrContractId ++ bytes "/do-not-exercise"

/-- `get_asset` -/
def getAsset (symbolOrAssetId : Bytes) : Call := identified .get "/v2/assets/" symbolOrAssetId

/-- `get_option_contract` -/
def getOptionContract (symbolOrId : Bytes) : Call :=
  identified .get "/v2/options/contracts/" symbolOrId

/-- `get_watchlist` -/
def getWatchlist (watchlistId : Bytes) : Call := identified .get "/v2/watchlists/" watchlistId

/-- `update_watchlist` -/
def updateWatchlist (watchlistId : Bytes) : Call := identified .put "/v2/watchlists/" watchlistId

/-- `add_asset_to_watchlist`; the symbol is in the body. -/
def addAssetToWatchlist (watchlistId : Bytes) : Call := identified .post "/v2/watchlists/" watchlistId

/-- `remove_asset_from_watchlist` -/
def removeAssetFromWatchlist (watchlistId symbol : Bytes) : Call where
  verb := .del
  path := bytes "/v2/watchlists/" ++ watchlistId ++ byte '/' :: symbol

/-- `delete_watchlist` -/
def deleteWatchlist (watchlistId : Bytes) : Call := identified .del "/v2/watchlists/" watchlistId

/-- `get_crypto_transfer` -/
def getCryptoTransfer (transferId : Bytes) : Call :=
  identified .get "/v2/wallets/transfers/" transferId

/-- `delete_whitelisted_address` -/
def deleteWhitelistedAddress (whitelistedAddressId : Bytes) : Call :=
  identified .del "/v2/wallets/whitelists/" whitelistedAddressId

/-- `get_locate` -/
def getLocate (locateId : Bytes) : Call := identified .get "/v1/locates/" locateId

end Call

/-! ### Market data

Those of `data_client`. A tick type and a market have few values in the documentation, but they are
strings in the code, so they are identifiers like the symbols. -/

/-- `option_chain_query` -/
structure OptionChainQuery (D : Type) where
  feed : Option OptionFeed := none
  limit : Option UInt32 := none
  updatedSince : Option Bytes := none
  pageToken : Option Bytes := none
  type : Option ContractType := none
  strikePriceGte : Option D := none
  strikePriceLte : Option D := none
  expirationDate : Option Bytes := none
  expirationDateGte : Option Bytes := none
  expirationDateLte : Option Bytes := none
  rootSymbol : Option Bytes := none

/-- `option_chain_query::build` -/
def OptionChainQuery.build (fmt : D → Bytes) (query : OptionChainQuery D) : QueryBuilder :=
  let q : QueryBuilder := {}
  let q := q.addOption (bytes "feed") OptionFeed.toString query.feed
  let q := q.addOptionNat (bytes "limit") query.limit
  let q := q.addOption (bytes "updated_since") id query.updatedSince
  let q := q.addOption pageTokenKey id query.pageToken
  let q := q.addOption (bytes "type") ContractType.toString query.type
  let q := q.addOptionDouble fmt (bytes "strike_price_gte") query.strikePriceGte
  let q := q.addOptionDouble fmt (bytes "strike_price_lte") query.strikePriceLte
  let q := q.addOption (bytes "expiration_date") id query.expirationDate
  let q := q.addOption (bytes "expiration_date_gte") id query.expirationDateGte
  let q := q.addOption (bytes "expiration_date_lte") id query.expirationDateLte
  q.addOption (bytes "root_symbol") id query.rootSymbol

namespace Call

/-- `get_stock_condition_codes` -/
def getStockConditionCodes (tickType tape : Bytes) : Call where
  verb := .get
  path := bytes "/v2/stocks/meta/conditions/" ++ tickType
  query := ({} : QueryBuilder).add (bytes "tape") tape

/-- `get_option_chain`, for the page behind some page tokens: `paginate` sets one after the other. -/
def getOptionChain (fmt : D → Bytes) (underlyingSymbol : Bytes) (query : OptionChainQuery D)
    (tokens : List Bytes) : Call where
  verb := .get
  path := bytes "/v1beta1/options/snapshots/" ++ underlyingSymbol
  query := tokens.foldl (fun q token ↦ q.set pageTokenKey token) (query.build fmt)

/-- `get_option_chain_page` -/
def getOptionChainPage (fmt : D → Bytes) (underlyingSymbol : Bytes) (query : OptionChainQuery D) :
    Call where
  verb := .get
  path := bytes "/v1beta1/options/snapshots/" ++ underlyingSymbol
  query := query.build fmt

/-- `get_option_condition_codes` -/
def getOptionConditionCodes (tickType : Bytes) : Call :=
  identified .get "/v1beta1/options/meta/conditions/" tickType

/-- `get_movers` -/
def getMovers (marketType : Bytes) (top : Option UInt32) : Call where
  verb := .get
  path := bytes "/v1beta1/screener/" ++ marketType ++ bytes "/movers"
  query := ({} : QueryBuilder).addOptionNat (bytes "top") top

/-- `get_logo` -/
def getLogo (symbol : Bytes) (placeholder : Option Bool) : Call where
  verb := .get
  path := bytes "/v1beta1/logos/" ++ symbol
  query := ({} : QueryBuilder).addOption (bytes "placeholder") boolToString placeholder

end Call

/-! ### Methods and their routes

A method is named once with its identifiers. `call` is what the code asks for, `route` is the list of
names that the documentation gives, with the identifiers as they are. -/

/-- A method that has an identifier in its path, with its arguments. -/
inductive Method (D : Type) where
  | getOrder (orderId : Bytes) (nested : Bool)
  | replaceOrder (orderId : Bytes)
  | cancelOrder (orderId : Bytes)
  | getPosition (symbolOrAssetId : Bytes)
  | closePosition (symbolOrAssetId : Bytes) (request : ClosePositionRequest D)
  | exerciseOptionPosition (symbolOrContractId : Bytes)
  | doNotExerciseOptionPosition (symbolOrContractId : Bytes)
  | getAsset (symbolOrAssetId : Bytes)
  | getOptionContract (symbolOrId : Bytes)
  | getWatchlist (watchlistId : Bytes)
  | updateWatchlist (watchlistId : Bytes)
  | addAssetToWatchlist (watchlistId : Bytes)
  | removeAssetFromWatchlist (watchlistId symbol : Bytes)
  | deleteWatchlist (watchlistId : Bytes)
  | getCryptoTransfer (transferId : Bytes)
  | deleteWhitelistedAddress (whitelistedAddressId : Bytes)
  | getLocate (locateId : Bytes)
  | getStockConditionCodes (tickType tape : Bytes)
  | getOptionChain (underlyingSymbol : Bytes) (query : OptionChainQuery D) (tokens : List Bytes)
  | getOptionChainPage (underlyingSymbol : Bytes) (query : OptionChainQuery D)
  | getOptionConditionCodes (tickType : Bytes)
  | getMovers (marketType : Bytes) (top : Option UInt32)
  | getLogo (symbol : Bytes) (placeholder : Option Bool)

/-- A segment of a route. -/
inductive Segment where
  | fixed (name : String)
  | identifier (id : Bytes)

/-- What a segment decodes to. -/
def Segment.text : Segment → Bytes
  | fixed name => bytes name
  | identifier id => id

namespace Method

/-- What a method asks for. -/
def call (fmt : D → Bytes) : Method D → Call
  | getOrder orderId nested => .getOrder orderId nested
  | replaceOrder orderId => .replaceOrder orderId
  | cancelOrder orderId => .cancelOrder orderId
  | getPosition id => .getPosition id
  | closePosition id request => .closePosition fmt id request
  | exerciseOptionPosition id => .exerciseOptionPosition id
  | doNotExerciseOptionPosition id => .doNotExerciseOptionPosition id
  | getAsset id => .getAsset id
  | getOptionContract id => .getOptionContract id
  | getWatchlist id => .getWatchlist id
  | updateWatchlist id => .updateWatchlist id
  | addAssetToWatchlist id => .addAssetToWatchlist id
  | removeAssetFromWatchlist id symbol => .removeAssetFromWatchlist id symbol
  | deleteWatchlist id => .deleteWatchlist id
  | getCryptoTransfer id => .getCryptoTransfer id
  | deleteWhitelistedAddress id => .deleteWhitelistedAddress id
  | getLocate id => .getLocate id
  | getStockConditionCodes tickType tape => .getStockConditionCodes tickType tape
  | getOptionChain symbol query tokens => .getOptionChain fmt symbol query tokens
  | getOptionChainPage symbol query => .getOptionChainPage fmt symbol query
  | getOptionConditionCodes tickType => .getOptionConditionCodes tickType
  | getMovers marketType top => .getMovers marketType top
  | getLogo symbol placeholder => .getLogo symbol placeholder

/-- The route a method is documented to take. -/
def route : Method D → List Segment
  | getOrder id _ | replaceOrder id | cancelOrder id => [.fixed "v2", .fixed "orders", .identifier id]
  | getPosition id | closePosition id _ => [.fixed "v2", .fixed "positions", .identifier id]
  | exerciseOptionPosition id =>
    [.fixed "v2", .fixed "positions", .identifier id, .fixed "exercise"]
  | doNotExerciseOptionPosition id =>
    [.fixed "v2", .fixed "positions", .identifier id, .fixed "do-not-exercise"]
  | getAsset id => [.fixed "v2", .fixed "assets", .identifier id]
  | getOptionContract id => [.fixed "v2", .fixed "options", .fixed "contracts", .identifier id]
  | getWatchlist id | updateWatchlist id | addAssetToWatchlist id | deleteWatchlist id =>
    [.fixed "v2", .fixed "watchlists", .identifier id]
  | removeAssetFromWatchlist id symbol =>
    [.fixed "v2", .fixed "watchlists", .identifier id, .identifier symbol]
  | getCryptoTransfer id => [.fixed "v2", .fixed "wallets", .fixed "transfers", .identifier id]
  | deleteWhitelistedAddress id =>
    [.fixed "v2", .fixed "wallets", .fixed "whitelists", .identifier id]
  | getLocate id => [.fixed "v1", .fixed "locates", .identifier id]
  | getStockConditionCodes tickType _ =>
    [.fixed "v2", .fixed "stocks", .fixed "meta", .fixed "conditions", .identifier tickType]
  | getOptionChain symbol _ _ | getOptionChainPage symbol _ =>
    [.fixed "v1beta1", .fixed "options", .fixed "snapshots", .identifier symbol]
  | getOptionConditionCodes tickType =>
    [.fixed "v1beta1", .fixed "options", .fixed "meta", .fixed "conditions", .identifier tickType]
  | getMovers marketType _ =>
    [.fixed "v1beta1", .fixed "screener", .identifier marketType, .fixed "movers"]
  | getLogo symbol _ => [.fixed "v1beta1", .fixed "logos", .identifier symbol]

/-- The parameters of a method. -/
def parameters (fmt : D → Bytes) : Method D → List (Bytes × Bytes)
  | getOrder _ nested => if nested then [(bytes "nested", bytes "true")] else []
  | closePosition _ request => (request.build fmt).params
  | getStockConditionCodes _ tape => if tape = [] then [] else [(bytes "tape", tape)]
  | getOptionChain _ query tokens =>
    (tokens.foldl (fun q token ↦ q.set pageTokenKey token) (query.build fmt)).params
  | getOptionChainPage _ query => (query.build fmt).params
  | getMovers _ top => top.toList.map fun n ↦ (bytes "top", natToString n.toNat)
  | getLogo _ placeholder => placeholder.toList.map fun b ↦ (bytes "placeholder", boolToString b)
  | _ => []

/-- The identifiers of the caller. -/
def identifiers (m : Method D) : List Bytes :=
  m.route.filterMap fun
    | .identifier id => some id
    | .fixed _ => none

theorem route_ne_nil (m : Method D) : m.route ≠ [] := by
  cases m <;> exact List.cons_ne_nil _ _

/-- A path that starts with `/` is put behind the base URL as it is. -/
theorem buildUrl_of_joined (ctx : RequestContext D) {segs : List Bytes} (hsegs : segs ≠ [])
    {path target : Bytes} {query : QueryBuilder} (h : path ++ query.str = Url.joined segs ++ target) :
    ctx.buildUrl path query = ctx.baseUrl ++ Url.joined segs ++ target := by
  have hslash : ¬(path ≠ [] ∧ path.head? ≠ some (byte '/')) := by
    rintro ⟨hne, hhead⟩
    rcases segs with - | ⟨seg, rest⟩
    · exact hsegs rfl
    · rcases path with - | ⟨c, path⟩
      · exact hne rfl
      · rw [Url.joined_cons, List.cons_append, List.cons_append, List.cons_append] at h
        exact hhead (congrArg some (List.cons.inj h).1)
  rw [RequestContext.buildUrl, if_neg hslash, List.append_nil, List.append_assoc, h, List.append_assoc]

/-- The parameters a method adds, however it hands them over. -/
theorem query_call (fmt : D → Bytes) (m : Method D) :
    (m.call fmt).query.params = match m with
      | closePosition _ _ => []
      | m => m.parameters fmt := by
  cases m with
  | getOrder id nested => cases nested <;> rfl
  | getStockConditionCodes tickType tape =>
    show (({} : QueryBuilder).add (bytes "tape") tape).params =
      if tape = [] then [] else [(bytes "tape", tape)]
    rw [QueryBuilder.add, ite_not]
    split <;> rfl
  | getMovers marketType top => cases top <;> rfl
  | getLogo symbol placeholder => rcases placeholder with - | - | - <;> rfl
  | _ => rfl

/-- The path of a method: its route, and the query of `close_position`. -/
theorem path_call (fmt : D → Bytes) (m : Method D) :
    (m.call fmt).path = Url.joined (m.route.map Segment.text) ++ match m with
      | closePosition _ request => (request.build fmt).str
      | _ => [] := by
  cases m <;> simp [call, Call.getOrder, TradingClient.orderPath, Call.replaceOrder, Call.cancelOrder,
    Call.getPosition, Call.closePosition, Call.exerciseOptionPosition, Call.doNotExerciseOptionPosition,
    Call.getAsset, Call.getOptionContract, Call.getWatchlist, Call.updateWatchlist,
    Call.addAssetToWatchlist, Call.removeAssetFromWatchlist, Call.deleteWatchlist,
    Call.getCryptoTransfer, Call.deleteWhitelistedAddress, Call.getLocate, Call.getStockConditionCodes,
    Call.getOptionChain, Call.getOptionChainPage, Call.getOptionConditionCodes, Call.getMovers,
    Call.getLogo, Call.identified, route, Segment.text, Url.joined, bytes, byte]

/-- **The URL of a method**: its route and its parameters, behind the base URL. -/
theorem url_call (ctx : RequestContext D) (fmt : D → Bytes) (m : Method D) :
    (m.call fmt).url ctx = ctx.baseUrl ++ Url.joined (m.route.map Segment.text) ++
      (⟨m.parameters fmt⟩ : QueryBuilder).str := by
  refine buildUrl_of_joined ctx (mt List.map_eq_nil_iff.1 m.route_ne_nil) ?_
  have hpath := path_call fmt m
  have hquery := congrArg (fun ps ↦ (⟨ps⟩ : QueryBuilder).str) (query_call fmt m)
  cases m with
  | closePosition id request => exact (congrArg₂ _ hpath hquery).trans (List.append_nil _)
  | _ => exact congrArg₂ _ (hpath.trans (List.append_nil _)) hquery

/-- The fixed segments of all routes. -/
def names : List String := ["v1", "v2", "v1beta1", "orders", "positions", "exercise", "do-not-exercise",
  "assets", "options", "contracts", "watchlists", "wallets", "transfers", "whitelists", "locates",
  "stocks", "meta", "conditions", "snapshots", "screener", "movers", "logos"]

theorem mem_names (m : Method D) : ∀ name, .fixed name ∈ m.route → name ∈ names := by
  cases m <;> simp [route, names]

/-- The fixed segments are literal, so only the identifiers matter. -/
theorem literal_route_iff (m : Method D) :
    (∀ seg ∈ m.route.map Segment.text, Url.Literal seg) ↔ ∀ id ∈ m.identifiers, Url.Literal id := by
  have hnames : ∀ name ∈ names, Url.Literal (bytes name) := by decide +kernel
  constructor
  · intro h id hid
    obtain ⟨seg, hseg, htext⟩ := List.mem_filterMap.1 hid
    cases seg with
    | fixed name => exact absurd htext (by simp)
    | identifier id' => exact Option.some_inj.1 htext ▸ h _ (List.mem_map_of_mem hseg)
  · intro h text htext
    obtain ⟨seg, hseg, rfl⟩ := List.mem_map.1 htext
    cases seg with
    | fixed name => exact hnames name (m.mem_names name hseg)
    | identifier id => exact h id (List.mem_filterMap.2 ⟨.identifier id, hseg, rfl⟩)

end Method

/-- **A call that reaches its route**: the path of its URL, split at `/` and decoded, is that of the base
URL and then the route, with each identifier as one segment; and the query holds the parameters of the
method and no others. -/
structure Routed (ctx : RequestContext D) (fmt : D → Bytes) (m : Method D) : Prop where
  segments : Url.segments ((m.call fmt).url ctx) =
    Url.segments ctx.baseUrl ++ m.route.map Segment.text
  parameters : Url.parameters ((m.call fmt).url ctx) = m.parameters fmt

/-- **Exactly when a call reaches its route**: when the base URL ends in a path and the identifiers are
literal. -/
theorem routed_iff (ctx : RequestContext D) (fmt : D → Bytes) (m : Method D) :
    Routed ctx fmt m ↔
      (∀ c ∈ ctx.baseUrl, Url.endsPath c = false) ∧ ∀ id ∈ m.identifiers, Url.Literal id := by
  have hsegs : m.route.map Segment.text ≠ [] := mt List.map_eq_nil_iff.1 m.route_ne_nil
  have hsegments : Url.segments ((m.call fmt).url ctx) =
      Url.segments ctx.baseUrl ++ m.route.map Segment.text ↔
        (∀ c ∈ ctx.baseUrl, Url.endsPath c = false) ∧ ∀ id ∈ m.identifiers, Url.Literal id := by
    rw [Method.url_call, ← Method.literal_route_iff]
    exact Url.segments_append_eq_iff hsegs (QueryBuilder.path_str _)
  refine ⟨fun h ↦ hsegments.1 h.segments, fun h ↦ ⟨hsegments.2 h, ?_⟩⟩
  have hin : ∀ c ∈ ctx.baseUrl ++ Url.joined (m.route.map Segment.text), Url.endsPath c = false := by
    rw [List.forall_mem_append, Url.inPath_joined_iff]
    exact ⟨h.1, fun seg hseg ↦ ((Method.literal_route_iff m).2 h.2 seg hseg).inPath⟩
  rw [Method.url_call, QueryBuilder.parameters_append_str hin]

/-- **A crypto position is not reached by its symbol**, and a watchlist id with a `/` deletes from
another watchlist. -/
theorem not_routed_closePosition :
    Url.segments ((Call.closePosition (fun _ : ℚ ↦ []) (bytes "BTC/USD") {}).url datedClient) =
      ["https:", "", "paper-api.alpaca.markets", "v2", "positions", "BTC", "USD"].map bytes ∧
    Call.deleteWatchlist (bytes "w/AAPL") = .removeAssetFromWatchlist (bytes "w") (bytes "AAPL") ∧
    ¬∀ (ctx : RequestContext ℚ) (fmt : ℚ → Bytes) (m : Method ℚ),
      (∀ c ∈ ctx.baseUrl, Url.endsPath c = false) → (∀ id ∈ m.identifiers, id ≠ []) →
        Routed ctx fmt m := by
  have hsegs :
      Url.segments ((Call.closePosition (fun _ : ℚ ↦ []) (bytes "BTC/USD") {}).url datedClient) =
        ["https:", "", "paper-api.alpaca.markets", "v2", "positions", "BTC", "USD"].map bytes := by
    decide +kernel
  refine ⟨hsegs, by decide +kernel, fun h ↦ ?_⟩
  have hrouted := h datedClient (fun _ ↦ []) (.closePosition (bytes "BTC/USD") {}) (by decide +kernel)
    (by decide +kernel)
  exact absurd (hsegs.symm.trans hrouted.segments) (by decide +kernel)

end Alpaca
