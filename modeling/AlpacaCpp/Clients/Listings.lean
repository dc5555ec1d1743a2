import AlpacaCpp.Data.Pages

/-!
# Listings

`get_news`, `list_locates` and `list_option_contracts`, their page methods, and the models they read. Each
page holds an array under a key of its own; `append_page` puts its elements behind those of the pages
before, and the `from_json` of the page reads them into the page that a page method returns.

The three queries end in their token. So **a listing is its page method in a loop**, request by request and
exception by exception, against any server (`listings_eq_loops`). What it returns, and whether the JSON
library throws, is decided by the successes among the answers alone (`listings_of_answers`).

Both are proved once, for a listing with a key and a `from_json` (`listItems_eq_loopPages`,
`listItems_of_answers`), and a page that is no object, or has no array under the key, holds nothing. The
models differ in what they throw at: an article at its timestamps, a locate at its own, and a contract at
nothing, since its dates are read as text. The parts of a document are printed for the log one by one, so
what is asked of the library is that it prints whatever it has parsed.

The models have many fields and few kinds of them. A field is one line, so a model is its list of lines,
and what it throws at is decided by going through the list once.
-/

namespace Alpaca

variable {D T : Type}

/-! ### Pages of items

`append_page` returns at once if there is no array under the key. Otherwise it reads the elements in
order, and one that cannot be read ends the whole call. -/

/-- `append_page` -/
def appendPage (fromJson : Reader D T) (default : T) (page : Json D) (key : Bytes) (out : List T) :
    Except Error (List T) :=
  match page.member? key with
  | some (.arr elems) => (liftJson (getElems fromJson default elems)).map (out ++ ·)
  | _ => .ok out

/-- The line of a page that holds items. -/
def readItems (key : Bytes) (fromJson : Reader D T) (default : T) : Reader D (Page (List T)) :=
  readVector key fromJson default fun p x ↦ { p with content := x }

section Generic

variable (serve : ℕ → Request → Response) (ctx : RequestContext D) (path key : Bytes)
  (fromJson : Reader D T) (default : T)

/-- A method that lists the items under a key. -/
def listItems (fuel : ℕ) (query : QueryBuilder) (log : Log) : Option (Except Error (List T) × Log) :=
  paginate serve ctx path (fun items page ↦ appendPage fromJson default page key items) fuel query [] log

/-- A method that returns one page of them. -/
def itemsPage (query : QueryBuilder) (log : Log) : Except Error (Page (List T)) × Log :=
  readAnswer (Json.toModel (Page.ofLines (readItems key fromJson default)) ⟨[], []⟩)
    (ctx.get serve path query log)

/-- The items of one page. -/
def itemsOf (page : Json D) : Except Error (List T) := appendPage fromJson default page key []

/-- What a page adds does not depend on what is there. -/
theorem appendPage_eq_map (items : List T) (page : Json D) :
    appendPage fromJson default page key items = (itemsOf key fromJson default page).map (items ++ ·) := by
  rw [itemsOf, appendPage, appendPage]
  split
  · rcases liftJson (getElems fromJson default _) with e | batch
    · rfl
    · rfl
  · exact congrArg Except.ok (List.append_nil items).symm

/-- **The page of a page method holds the items and the token of the answer.** -/
theorem itemsPage_eq_fetchPage (query : QueryBuilder) (log : Log) :
    itemsPage serve ctx path key fromJson default query log =
      fetchPage serve ctx path (itemsOf key fromJson default) query log := by
  refine readAnswer_eq_fetchPage serve ctx path (fun members ↦ ?_) (fun j hj ↦ ?_) query log
  · rw [readItems, readVector, itemsOf, appendPage]
    rcases Json.member? (.obj members) key with - | v
    · rfl
    · cases v with
      | arr elems =>
        dsimp only
        rcases getElems fromJson default elems with what | batch <;> rfl
      | _ => rfl
  · cases j with
    | obj members => exact absurd hj (by simp [Json.isObject])
    | _ => rfl

variable {Q : Type} {B : PagedQuery Q}

/-- A listing whose query ends in its token, and a loop over its pages. -/
theorem listItems_eq_loopPages (hback : ∀ query, B.back query = {}) (fuel : ℕ) (query : Q) (log : Log) :
    listItems serve ctx path key fromJson default fuel (B.build query) log =
      loopPages B (fun query ↦ itemsPage serve ctx path key fromJson default (B.build query)) (· ++ ·) fuel
        query [] log :=
  paginate_eq_loopPages (appendPage_eq_map key fromJson default)
    (fun query log ↦ itemsPage_eq_fetchPage serve ctx path key fromJson default (B.build query) log) hback
    fuel query [] log

end Generic

/-! ### News -/

/-- `news_image` -/
structure NewsImage where
  size : Bytes := []
  url : Bytes := []
  deriving DecidableEq

/-- `news_article` -/
structure NewsArticle where
  id : ℤ := 0
  headline : Bytes := []
  author : Bytes := []
  summary : Bytes := []
  content : Bytes := []
  url : Bytes := []
  source : Bytes := []
  symbols : List Bytes := []
  images : List NewsImage := []
  createdAt : ℕ := 0
  updatedAt : ℕ := 0
  deriving DecidableEq

/-- `news_query` -/
structure NewsQuery where
  symbols : List Bytes := []
  start : Option Bytes := none
  /-- `end` -/
  finish : Option Bytes := none
  limit : Option UInt32 := none
  sort : Option SortDirection := none
  includeContent : Option Bool := none
  excludeContentless : Option Bool := none
  pageToken : Option Bytes := none

section News

variable [DoubleCasts D] (lib : JsonLibrary D)

omit [DoubleCasts D] in
/-- `from_json` of a `news_image`. -/
def NewsImage.fromJson : Reader D NewsImage :=
  fromLines [
    readVariable lib (bytes "size") Json.getString fun i x ↦ { i with size := x },
    readVariable lib (bytes "url") Json.getString fun i x ↦ { i with url := x }]

/-- The lines of `from_json` of a `news_article` up to the timestamps. -/
def NewsArticle.lines : List (Reader D NewsArticle) := [
  readInt lib (bytes "id") fun n x ↦ { n with id := x },
  readVariable lib (bytes "headline") Json.getString fun n x ↦ { n with headline := x },
  readVariable lib (bytes "author") Json.getString fun n x ↦ { n with author := x },
  readVariable lib (bytes "summary") Json.getString fun n x ↦ { n with summary := x },
  readVariable lib (bytes "content") Json.getString fun n x ↦ { n with content := x },
  readVariable lib (bytes "url") Json.getString fun n x ↦ { n with url := x },
  readVariable lib (bytes "source") Json.getString fun n x ↦ { n with source := x },
  readVariable lib (bytes "symbols") Json.getStrings fun n x ↦ { n with symbols := x }]

/-- `from_json` of a `news_article`. -/
def NewsArticle.fromJson : Reader D NewsArticle :=
  fromLines (lines lib ++ [
    readTimestamp (bytes "created_at") fun n x ↦ { n with createdAt := x },
    readTimestamp (bytes "updated_at") fun n x ↦ { n with updatedAt := x },
    readVector (bytes "images") (NewsImage.fromJson lib) {} fun n x ↦ { n with images := x }])

end News

namespace NewsQuery

/-- `news_query::build`, up to the token. -/
def front (query : NewsQuery) : QueryBuilder :=
  let q : QueryBuilder := {}
  let q := q.addList (bytes "symbols") query.symbols
  let q := q.addOption (bytes "start") id query.start
  let q := q.addOption (bytes "end") id query.finish
  let q := q.addOptionNat (bytes "limit") query.limit
  let q := q.addOption (bytes "sort") SortDirection.toString query.sort
  let q := q.addOption (bytes "include_content") boolToString query.includeContent
  q.addOption (bytes "exclude_contentless") boolToString query.excludeContentless

/-- `news_query::build` -/
def build (query : NewsQuery) : QueryBuilder := query.front.addOption pageTokenKey id query.pageToken

/-- The token of a `news_query`. -/
def paged : PagedQuery NewsQuery where
  build := build
  pageToken := pageToken
  withPageToken query t := { query with pageToken := some t }
  front := front
  back _ := {}
  params_build _ := (List.append_nil _).symm
  lacks_front query := by
    refine .addOption (.addOption (.addOption (.addOptionNat (.addOption (.addOption (.addList
      (QueryBuilder.lacks_empty _) ?_ _) ?_ _ _) ?_ _ _) ?_ _) ?_ _ _) ?_ _ _) ?_ _ _ <;> decide
  lacks_back _ := QueryBuilder.lacks_empty _
  front_withPageToken _ _ := rfl
  back_withPageToken _ _ := rfl
  pageToken_withPageToken _ _ := rfl

end NewsQuery

/-! ### Short locates -/

/-- `locate` -/
structure Locate (D : Type) where
  id : Bytes := []
  symbol : Bytes := []
  status : Bytes := []
  rejectionReason : Bytes := []
  requestedQty : ℤ := 0
  locatedQty : Option ℤ := none
  allOrNone : Bool := false
  limitPrice : Option D := none
  locatedPrice : Option D := none
  totalFee : Option D := none
  createdAt : ℕ := 0
  expiresAt : ℕ := 0
  deriving DecidableEq

/-- `locate_query` -/
structure LocateQuery where
  symbol : Option Bytes := none
  status : Option Bytes := none
  start : Option Bytes := none
  /-- `end` -/
  finish : Option Bytes := none
  limit : Option UInt32 := none
  pageToken : Option Bytes := none

section Locates

variable [Doubles D] (lib : JsonLibrary D)

/-- The lines of `from_json` of a `locate` up to the timestamps. -/
def Locate.lines : List (Reader D (Locate D)) := [
  readVariable lib (bytes "id") Json.getString fun l x ↦ { l with id := x },
  readVariable lib (bytes "symbol") Json.getString fun l x ↦ { l with symbol := x },
  readVariable lib (bytes "status") Json.getString fun l x ↦ { l with status := x },
  readVariable lib (bytes "rejection_reason") Json.getString fun l x ↦ { l with rejectionReason := x },
  readInt lib (bytes "requested_qty") fun l x ↦ { l with requestedQty := x },
  readOptionalInt lib (bytes "located_qty") fun l x ↦ { l with locatedQty := some x },
  readBool (bytes "all_or_none") fun l x ↦ { l with allOrNone := x },
  readOptionalDouble lib (bytes "limit_price") fun l x ↦ { l with limitPrice := x },
  readOptionalDouble lib (bytes "located_price") fun l x ↦ { l with locatedPrice := x },
  readOptionalDouble lib (bytes "total_fee") fun l x ↦ { l with totalFee := x }]

/-- `from_json` of a `locate`. -/
def Locate.fromJson : Reader D (Locate D) :=
  fromLines (lines lib ++ [
    readTimestamp (bytes "created_at") fun l x ↦ { l with createdAt := x },
    readTimestamp (bytes "expires_at") fun l x ↦ { l with expiresAt := x }])

end Locates

namespace LocateQuery

/-- `locate_query::build`, up to the token. -/
def front (query : LocateQuery) : QueryBuilder :=
  let q : QueryBuilder := {}
  let q := q.addOption (bytes "symbol") id query.symbol
  let q := q.addOption (bytes "status") id query.status
  let q := q.addOption (bytes "start") id query.start
  let q := q.addOption (bytes "end") id query.finish
  q.addOptionNat (bytes "limit") query.limit

/-- `locate_query::build` -/
def build (query : LocateQuery) : QueryBuilder := query.front.addOption pageTokenKey id query.pageToken

/-- The token of a `locate_query`. -/
def paged : PagedQuery LocateQuery where
  build := build
  pageToken := pageToken
  withPageToken query t := { query with pageToken := some t }
  front := front
  back _ := {}
  params_build _ := (List.append_nil _).symm
  lacks_front query := by
    refine .addOptionNat (.addOption (.addOption (.addOption (.addOption
      (QueryBuilder.lacks_empty _) ?_ _ _) ?_ _ _) ?_ _ _) ?_ _ _) ?_ _ <;> decide
  lacks_back _ := QueryBuilder.lacks_empty _
  front_withPageToken _ _ := rfl
  back_withPageToken _ _ := rfl
  pageToken_withPageToken _ _ := rfl

end LocateQuery

/-! ### Option contracts -/

/-- `option_deliverable` -/
structure OptionDeliverable (D : Type) where
  type : Bytes := []
  symbol : Bytes := []
  assetId : Bytes := []
  settlementType : Bytes := []
  settlementMethod : Bytes := []
  amount : D
  allocationPercentage : D
  delayedSettlement : Bool := false
  deriving DecidableEq

/-- `option_contract` -/
structure OptionContract (D : Type) where
  id : Bytes := []
  symbol : Bytes := []
  name : Bytes := []
  status : AssetStatus := .unknown
  tradable : Bool := false
  expirationDate : Bytes := []
  expirationDateNs : ℕ := 0
  rootSymbol : Bytes := []
  underlyingSymbol : Bytes := []
  underlyingAssetId : Bytes := []
  type : ContractType := .unknown
  style : ContractStyle := .unknown
  strikePrice : D
  multiplier : D
  size : D
  openInterest : Option D := none
  openInterestDate : Bytes := []
  closePrice : Option D := none
  closePriceDate : Bytes := []
  ppind : Bytes := []
  deliverables : List (OptionDeliverable D) := []
  deriving DecidableEq

/-- `option_contract_query` -/
structure OptionContractQuery (D : Type) where
  underlyingSymbols : List Bytes := []
  showDeliverables : Option Bytes := none
  status : Option AssetStatus := none
  expirationDate : Option Bytes := none
  expirationDateGte : Option Bytes := none
  expirationDateLte : Option Bytes := none
  rootSymbol : Option Bytes := none
  type : Option ContractType := none
  style : Option ContractStyle := none
  strikePriceGte : Option D := none
  strikePriceLte : Option D := none
  limit : Option UInt32 := none
  ppind : Option UInt32 := none
  pageToken : Option Bytes := none

section Contracts

/-- A default-constructed `option_deliverable`. -/
def OptionDeliverable.empty [DoubleCasts D] : OptionDeliverable D where
  amount := DoubleCasts.zero
  allocationPercentage := DoubleCasts.zero

/-- A default-constructed `option_contract`. -/
def OptionContract.empty [DoubleCasts D] : OptionContract D where
  strikePrice := DoubleCasts.zero
  multiplier := DoubleCasts.zero
  size := DoubleCasts.zero

variable [Doubles D] (lib : JsonLibrary D)

/-- `from_json` of an `option_deliverable`. -/
def OptionDeliverable.fromJson : Reader D (OptionDeliverable D) :=
  fromLines [
    readVariable lib (bytes "type") Json.getString fun d x ↦ { d with type := x },
    readVariable lib (bytes "symbol") Json.getString fun d x ↦ { d with symbol := x },
    readVariable lib (bytes "asset_id") Json.getString fun d x ↦ { d with assetId := x },
    readVariable lib (bytes "settlement_type") Json.getString fun d x ↦ { d with settlementType := x },
    readVariable lib (bytes "settlement_method") Json.getString fun d x ↦ { d with settlementMethod := x },
    readDouble lib (bytes "amount") fun d x ↦ { d with amount := x },
    readDouble lib (bytes "allocation_percentage") fun d x ↦ { d with allocationPercentage := x },
    readBool (bytes "delayed_settlement") fun d x ↦ { d with delayedSettlement := x }]

/-- The lines of `from_json` of an `option_contract` up to `ppind`. -/
def OptionContract.lines : List (Reader D (OptionContract D)) := [
  readVariable lib (bytes "id") Json.getString fun c x ↦ { c with id := x },
  readVariable lib (bytes "symbol") Json.getString fun c x ↦ { c with symbol := x },
  readVariable lib (bytes "name") Json.getString fun c x ↦ { c with name := x },
  readEnum lib (bytes "status") toAssetStatus fun c x ↦ { c with status := x },
  readBool (bytes "tradable") fun c x ↦ { c with tradable := x },
  readVariable lib (bytes "expiration_date") Json.getString fun c x ↦ { c with expirationDate := x },
  compute fun c ↦ { c with expirationDateNs := dateToNanoseconds c.expirationDate },
  readVariable lib (bytes "root_symbol") Json.getString fun c x ↦ { c with rootSymbol := x },
  readVariable lib (bytes "underlying_symbol") Json.getString fun c x ↦ { c with underlyingSymbol := x },
  readVariable lib (bytes "underlying_asset_id") Json.getString fun c x ↦ { c with underlyingAssetId := x },
  readEnum lib (bytes "type") toContractType fun c x ↦ { c with type := x },
  readEnum lib (bytes "style") toContractStyle fun c x ↦ { c with style := x },
  readDouble lib (bytes "strike_price") fun c x ↦ { c with strikePrice := x },
  readDouble lib (bytes "multiplier") fun c x ↦ { c with multiplier := x },
  readDouble lib (bytes "size") fun c x ↦ { c with size := x },
  readOptionalDouble lib (bytes "open_interest") fun c x ↦ { c with openInterest := x },
  readVariable lib (bytes "open_interest_date") Json.getString fun c x ↦ { c with openInterestDate := x },
  readOptionalDouble lib (bytes "close_price") fun c x ↦ { c with closePrice := x },
  readVariable lib (bytes "close_price_date") Json.getString fun c x ↦ { c with closePriceDate := x }]

/-- `from_json` of an `option_contract`. -/
def OptionContract.fromJson : Reader D (OptionContract D) :=
  fromLines (lines lib ++ [
    readString lib (bytes "ppind") fun c x ↦ { c with ppind := x },
    readVector (bytes "deliverables") (OptionDeliverable.fromJson lib) .empty fun c x ↦
      { c with deliverables := x }])

end Contracts

namespace OptionContractQuery

variable (fmt : D → Bytes)

/-- `option_contract_query::build`, up to the token. -/
def front (query : OptionContractQuery D) : QueryBuilder :=
  let q : QueryBuilder := {}
  let q := q.addList (bytes "underlying_symbols") query.underlyingSymbols
  let q := q.addOption (bytes "show_deliverables") id query.showDeliverables
  let q := q.addOption (bytes "status") AssetStatus.toString query.status
  let q := q.addOption (bytes "expiration_date") id query.expirationDate
  let q := q.addOption (bytes "expiration_date_gte") id query.expirationDateGte
  let q := q.addOption (bytes "expiration_date_lte") id query.expirationDateLte
  let q := q.addOption (bytes "root_symbol") id query.rootSymbol
  let q := q.addOption (bytes "type") ContractType.toString query.type
  let q := q.addOption (bytes "style") ContractStyle.toString query.style
  let q := q.addOptionDouble fmt (bytes "strike_price_gte") query.strikePriceGte
  let q := q.addOptionDouble fmt (bytes "strike_price_lte") query.strikePriceLte
  let q := q.addOptionNat (bytes "limit") query.limit
  q.addOptionNat (bytes "ppind") query.ppind

/-- `option_contract_query::build` -/
def build (query : OptionContractQuery D) : QueryBuilder :=
  (query.front fmt).addOption pageTokenKey id query.pageToken

/-- The token of an `option_contract_query`. -/
def paged : PagedQuery (OptionContractQuery D) where
  build := build fmt
  pageToken := pageToken
  withPageToken query t := { query with pageToken := some t }
  front := front fmt
  back _ := {}
  params_build _ := (List.append_nil _).symm
  lacks_front query := by
    refine .addOptionNat (.addOptionNat (.addOptionDouble (.addOptionDouble (.addOption (.addOption (.addOption
      (.addOption (.addOption (.addOption (.addOption (.addOption (.addList
      (QueryBuilder.lacks_empty _) ?_ _) ?_ _ _) ?_ _ _) ?_ _ _) ?_ _ _) ?_ _ _) ?_ _ _) ?_ _ _) ?_ _ _)
      ?_ _ _) ?_ _ _) ?_ _) ?_ _ <;> decide
  lacks_back _ := QueryBuilder.lacks_empty _
  front_withPageToken _ _ := rfl
  back_withPageToken _ _ := rfl
  pageToken_withPageToken _ _ := rfl

end OptionContractQuery

/-! ### What throws

The condition on an item is the one its `from_json` has, and a listing throws at the first page that holds
an item without it. Images and deliverables below an item ask for nothing. -/

section Returns

variable [Doubles D] {lib : JsonLibrary D} {j : Json D} (hj : lib.PrintsAll j)

include hj

omit [Doubles D] in
theorem NewsImage.total_fromJson : (NewsImage.fromJson lib).Total j :=
  total_fromLines (by simp [total_readVariable hj.self])

/-- An article asks for its two timestamps. -/
theorem NewsArticle.returnsIff_fromJson :
    (NewsArticle.fromJson lib).ReturnsIff j (j.Dated (bytes "created_at") ∧ j.Dated (bytes "updated_at")) := by
  have hlines : (fromLines (lines lib)).Total j := total_fromLines
    (by simp [lines, total_readInt hj.self, total_readVariable hj.self])
  have himages : (readVector (bytes "images") (NewsImage.fromJson lib) {} fun (n : NewsArticle) x ↦
      { n with images := x }).Total j := total_readVector (fun elems helems e he ↦
    NewsImage.total_fromJson ((hj.of_member? helems).of_elem he)) _
  intro o
  rw [fromJson, returnsIff_append hlines.returnsIff (returnsIff_cons (returnsIff_readTimestamp _ _ j)
    (returnsIff_cons (returnsIff_readTimestamp _ _ j) (returnsIff_total_cons himages returnsIff_nil))) o]
  simp only [true_and, and_true]

/-- A locate asks for its two timestamps. -/
theorem Locate.returnsIff_fromJson :
    (Locate.fromJson lib).ReturnsIff j (j.Dated (bytes "created_at") ∧ j.Dated (bytes "expires_at")) := by
  have hlines : (fromLines (lines lib)).Total j := total_fromLines
    (by simp [lines, total_readInt hj.self, total_readVariable hj.self, total_readOptionalInt hj.self,
      total_readOptionalDouble hj.self, total_readBool])
  intro o
  rw [fromJson, returnsIff_append hlines.returnsIff (returnsIff_cons (returnsIff_readTimestamp _ _ j)
    (returnsIff_cons (returnsIff_readTimestamp _ _ j) returnsIff_nil)) o]
  simp only [true_and, and_true]

theorem OptionDeliverable.total_fromJson : (OptionDeliverable.fromJson lib).Total j :=
  total_fromLines (by simp [total_readVariable hj.self, total_readDouble hj.self, total_readBool])

/-- A contract can always be read. -/
theorem OptionContract.total_fromJson : (OptionContract.fromJson lib).Total j := by
  have hlines : (fromLines (lines lib)).Total j := total_fromLines
    (by simp [lines, total_readVariable hj.self, total_readEnum hj.self, total_readDouble hj.self,
      total_readOptionalDouble hj.self, total_readBool, total_compute])
  have hdeliverables : (readVector (bytes "deliverables") (OptionDeliverable.fromJson lib) .empty
      fun (c : OptionContract D) x ↦ { c with deliverables := x }).Total j :=
    total_readVector (fun elems helems e he ↦
      OptionDeliverable.total_fromJson ((hj.of_member? helems).of_elem he)) _
  intro o
  rw [fromJson]
  refine (returnsIff_append hlines.returnsIff (returnsIff_total_cons
    (total_readString (fun v hv ↦ (hj.of_member? hv).self) _)
    (returnsIff_total_cons hdeliverables returnsIff_nil)) o).2 ⟨trivial, trivial⟩

end Returns

/-- A page can be read when its items can. -/
theorem exists_itemsOf_eq {lib : JsonLibrary D} {fromJson : Reader D T} {readable : Json D → Prop}
    (h : ∀ e, lib.PrintsAll e → fromJson.ReturnsIff e (readable e)) (key : Bytes) (default : T) {j : Json D}
    (hj : ∀ v, j.member? key = some v → lib.PrintsAll v) : ∃ r, itemsOf key fromJson default j = liftJson r ∧
      ((∃ items, r = .ok items) ↔ j.Under key (Json.EachElem readable)) := by
  have hline : (∃ items, readVector key fromJson default (fun (_ : List T) x ↦ x) j [] = .ok items) ↔
      j.Under key (Json.EachElem readable) :=
    returnsIff_readVector (fun _ helems e he ↦ h e ((hj _ helems).of_elem he)) _ []
  refine ⟨_, ?_, hline⟩
  rw [itemsOf, appendPage, readVector]
  rcases j.member? key with - | v
  · rfl
  · cases v with
    | arr elems =>
      dsimp only
      rcases getElems fromJson default elems with what | batch <;> rfl
    | _ => rfl

/-- What the answers hold is what a listing returns, and what makes it throw. -/
theorem listItems_of_answers {serve : ℕ → Request → Response} {ctx : RequestContext D} {path key : Bytes}
    {fromJson : Reader D T} {default : T} {readable : Json D → Prop}
    (hlib : ctx.json.ParsedPrints) (h : ∀ e, ctx.json.PrintsAll e → fromJson.ReturnsIff e (readable e))
    {fuel : ℕ} {query : QueryBuilder} {log log' : Log} {out : Except Error (List T)}
    (hrun : listItems serve ctx path key fromJson default fuel query log = some (out, log')) :
    ∃ texts, ListedFrom ctx (itemsOf key fromJson default) (fun j ↦ j.Under key (Json.EachElem readable)) log
      log' out texts :=
  exists_listedFrom (appendPage_eq_map key fromJson default) (fun _ _ hparse ↦
    exists_itemsOf_eq h key default fun _ hv ↦ printsAll_of_parseBody hlib hparse hv) hrun

/-! ### The methods

Three pairs of a listing and its page method. The path and the query are those of the source; the rest is
instantiation. -/

section Methods

variable [Doubles D] (serve : ℕ → Request → Response) (ctx : RequestContext D)

/-- `data_client::get_news` -/
def getNews (fuel : ℕ) (query : NewsQuery) (log : Log) : Option (Except Error (List NewsArticle) × Log) :=
  listItems serve ctx (bytes "/v1beta1/news") (bytes "news") (NewsArticle.fromJson ctx.json) {} fuel query.build
    log

/-- `data_client::get_news_page` -/
def getNewsPage (query : NewsQuery) (log : Log) : Except Error (Page (List NewsArticle)) × Log :=
  itemsPage serve ctx (bytes "/v1beta1/news") (bytes "news") (NewsArticle.fromJson ctx.json) {} query.build log

/-- `trading_client::list_locates` -/
def listLocates (fuel : ℕ) (query : LocateQuery) (log : Log) : Option (Except Error (List (Locate D)) × Log) :=
  listItems serve ctx (bytes "/v1/locates") (bytes "locates") (Locate.fromJson ctx.json) {} fuel query.build log

/-- `trading_client::list_locates_page` -/
def listLocatesPage (query : LocateQuery) (log : Log) : Except Error (Page (List (Locate D))) × Log :=
  itemsPage serve ctx (bytes "/v1/locates") (bytes "locates") (Locate.fromJson ctx.json) {} query.build log

/-- `trading_client::list_option_contracts` -/
def listOptionContracts (fmt : D → Bytes) (fuel : ℕ) (query : OptionContractQuery D) (log : Log) :
    Option (Except Error (List (OptionContract D)) × Log) :=
  listItems serve ctx (bytes "/v2/options/contracts") (bytes "option_contracts")
    (OptionContract.fromJson ctx.json) .empty fuel (query.build fmt) log

/-- `trading_client::list_option_contracts_page` -/
def listOptionContractsPage (fmt : D → Bytes) (query : OptionContractQuery D) (log : Log) :
    Except Error (Page (List (OptionContract D))) × Log :=
  itemsPage serve ctx (bytes "/v2/options/contracts") (bytes "option_contracts")
    (OptionContract.fromJson ctx.json) .empty (query.build fmt) log

/-- **A listing is its page method in a loop.** Whatever the server answers, `get_news`, `list_locates` and
`list_option_contracts` make the requests, notices and waits of a caller who follows the tokens of their page
methods, in the same order, and end with the same items or the same exception, or do not end either. -/
theorem listings_eq_loops (fmt : D → Bytes) (fuel : ℕ) (log : Log) :
    (∀ query, getNews serve ctx fuel query log =
      loopPages NewsQuery.paged (getNewsPage serve ctx) (· ++ ·) fuel query [] log) ∧
    (∀ query, listLocates serve ctx fuel query log =
      loopPages LocateQuery.paged (listLocatesPage serve ctx) (· ++ ·) fuel query [] log) ∧
    ∀ query, listOptionContracts serve ctx fmt fuel query log =
      loopPages (OptionContractQuery.paged fmt) (listOptionContractsPage serve ctx fmt) (· ++ ·) fuel query []
        log :=
  ⟨fun query ↦ listItems_eq_loopPages serve ctx _ _ _ _ (B := NewsQuery.paged) (fun _ ↦ rfl) fuel query log,
    fun query ↦ listItems_eq_loopPages serve ctx _ _ _ _ (B := LocateQuery.paged) (fun _ ↦ rfl) fuel query log,
    fun query ↦ listItems_eq_loopPages serve ctx _ _ _ _ (B := OptionContractQuery.paged fmt) (fun _ ↦ rfl) fuel
      query log⟩

/-- **What a listing returns, and whether the JSON library throws, is decided by the successes among its
answers.** An article or a locate throws at a timestamp that is neither null nor a string, a contract never,
and a token where it is no string. -/
theorem listings_of_answers (hlib : ctx.json.ParsedPrints) (fmt : D → Bytes) (fuel : ℕ) (log log' : Log) :
    (∀ query out, getNews serve ctx fuel query log = some (out, log') →
      ∃ texts, ListedFrom ctx (itemsOf (bytes "news") (NewsArticle.fromJson ctx.json) {})
        (fun j ↦ j.Under (bytes "news") (Json.EachElem fun e ↦
          e.Dated (bytes "created_at") ∧ e.Dated (bytes "updated_at"))) log log' out texts) ∧
    (∀ query out, listLocates serve ctx fuel query log = some (out, log') →
      ∃ texts, ListedFrom ctx (itemsOf (bytes "locates") (Locate.fromJson ctx.json) {})
        (fun j ↦ j.Under (bytes "locates") (Json.EachElem fun e ↦
          e.Dated (bytes "created_at") ∧ e.Dated (bytes "expires_at"))) log log' out texts) ∧
    ∀ query out, listOptionContracts serve ctx fmt fuel query log = some (out, log') →
      ∃ texts, ListedFrom ctx (itemsOf (bytes "option_contracts") (OptionContract.fromJson ctx.json) .empty)
        (fun _ ↦ True) log log' out texts := by
  refine ⟨fun query out hrun ↦ listItems_of_answers hlib (fun _ ↦ NewsArticle.returnsIff_fromJson) hrun,
    fun query out hrun ↦ listItems_of_answers hlib (fun _ ↦ Locate.returnsIff_fromJson) hrun,
    fun query out hrun ↦ ?_⟩
  obtain ⟨texts, h⟩ := listItems_of_answers hlib
    (fun _ he ↦ (OptionContract.total_fromJson he).returnsIff) hrun
  exact ⟨texts, h.bodies, h.items, by simpa [Json.Under, Json.EachElem] using h.mapped⟩

end Methods

/-! ### Three articles on two pages -/

/-- A page of articles with a headline each. -/
def headlinePage (token : Json ℚ) (headlines : List String) : Json ℚ :=
  .obj [(bytes "news", .arr (headlines.map fun h ↦ .obj [(bytes "headline", .str (bytes h))])),
    (nextPageTokenKey, token)]

/-- A client whose JSON library reads `x` as a page with two articles, and every other text as one with one.
-/
def newsClient : RequestContext ℚ where
  baseUrl := bytes "https://data.alpaca.markets"
  json := {
    parse := fun text ↦ .ok (if text = bytes "x" then headlinePage (.str (bytes "t")) ["G", "H"]
      else headlinePage .null ["I"])
    dump := fun _ ↦ .ok [] }
  base64Encode := id
  floatToInt32 := id ∘ Rat.floor

/-- A client that gets two pages of news behind a failure. -/
theorem twoPages_newsClient : TwoPages newsClient (headlinePage (.str (bytes "t")) ["G", "H"])
    (headlinePage .null ["I"]) (bytes "t") where
  retries := by decide
  first_eq := rfl
  last_eq := rfl
  first_token := rfl
  last_token := rfl
  token_ne_nil := by decide

/-- The articles of a headline each. -/
def headlines (hs : List String) : List NewsArticle := hs.map fun h ↦ { headline := bytes h }

/-- Three articles from two pages, in three requests. -/
theorem listings_of_answers_headline : ∃ log' texts,
    getNews twoPageServer newsClient 2 {} [] = some (.ok (headlines ["G", "H", "I"]), log') ∧
      log'.exchanges.length = 3 ∧
      ListedFrom newsClient (itemsOf (bytes "news") (NewsArticle.fromJson newsClient.json) {})
        (fun j ↦ j.Under (bytes "news") (Json.EachElem fun e ↦
          e.Dated (bytes "created_at") ∧ e.Dated (bytes "updated_at"))) [] log'
        (.ok (headlines ["G", "H", "I"])) texts := by
  obtain ⟨log, hrun, hrequests⟩ := twoPages_newsClient.paginate_eq
    (fun out page ↦ appendPage (NewsArticle.fromJson newsClient.json) {} page (bytes "news") out)
    (a := []) (b := headlines ["G", "H"]) (c := headlines ["G", "H", "I"]) rfl rfl (bytes "/v1beta1/news") (NewsQuery.build {})
  obtain ⟨texts, h⟩ := (listings_of_answers twoPageServer newsClient (fun _ _ _ _ _ ↦ ⟨[], rfl⟩) (fun _ ↦ []) 2 []
    log).1 {} _ hrun
  refine ⟨log, texts, hrun, ?_, h⟩
  rw [← Log.length_requests, hrequests]
  rfl

end Alpaca
