import AlpacaCpp.Clients.Routes
import AlpacaCpp.Data.Histories
import AlpacaCpp.Foundation.Emplace

/-!
# Snapshots and the option chain

`snapshot` and `option_snapshot` are put together from a trade, a quote and bars, each read by its own
`from_json`. `get_option_chain` collects the snapshots of a chain page by page; it emplaces them, so of a
symbol that several pages hold **the first page's snapshot is returned**
(`optionChain_of_answers`), as a caller would see it who follows `get_option_chain_page` and keeps what is
there (`optionChain_agree`).

An exception leaves the outermost `from_json`. So a call also throws at a snapshot of a symbol the caller
would not have looked at. `SnapshotReadable` says what a snapshot asks for, put together from what its parts
ask for: the timestamp of each, and the condition codes of a trade or a quote. Greeks are doubles, which are
logged and not thrown, so they ask for nothing.

Emplacing one page and then another is emplacing both, one behind the other. So the map of a chain looks a
symbol up in the concatenation of its pages, where the first entry counts.

The query of a chain has its token in the middle, like that of a stock history. So the page method and the
loop send their parameters in different orders, and the comparison is with a server that does not look at
the order.
-/

namespace Alpaca

/-- A map from symbols to values. -/
abbrev SymbolMap (T : Type) := AList fun _ : Bytes ↦ T

variable {D T : Type}

/-! ### Snapshots

A snapshot is read under five keys, an option snapshot under a few more. A part that is missing or null
keeps its default, and a part that is there is read by the `from_json` that the endpoint of that part
uses. -/

/-- `snapshot` -/
structure Snapshot (D : Type) where
  latestTrade : Trade D
  latestQuote : Quote D
  minuteBar : Bar D
  dailyBar : Bar D
  prevDailyBar : Bar D
  deriving DecidableEq

/-- `option_greeks` -/
structure OptionGreeks (D : Type) where
  delta : D
  gamma : D
  theta : D
  vega : D
  rho : D
  deriving DecidableEq

/-- `option_snapshot` -/
structure OptionSnapshot (D : Type) where
  latestTrade : Trade D
  latestQuote : Quote D
  minuteBar : Bar D
  dailyBar : Bar D
  prevDailyBar : Bar D
  greeks : Option (OptionGreeks D) := none
  impliedVolatility : Option D := none
  deriving DecidableEq

section Models

/-- A default-constructed `snapshot`. -/
def Snapshot.empty [DoubleCasts D] : Snapshot D where
  latestTrade := .empty
  latestQuote := .empty
  minuteBar := .empty
  dailyBar := .empty
  prevDailyBar := .empty

/-- Default-constructed `option_greeks`. -/
def OptionGreeks.empty [DoubleCasts D] : OptionGreeks D where
  delta := DoubleCasts.zero
  gamma := DoubleCasts.zero
  theta := DoubleCasts.zero
  vega := DoubleCasts.zero
  rho := DoubleCasts.zero

/-- A default-constructed `option_snapshot`. -/
def OptionSnapshot.empty [DoubleCasts D] : OptionSnapshot D where
  latestTrade := .empty
  latestQuote := .empty
  minuteBar := .empty
  dailyBar := .empty
  prevDailyBar := .empty

variable [Doubles D] (lib : JsonLibrary D)

/-- `from_json` of a `snapshot`. -/
def Snapshot.fromJson : Reader D (Snapshot D) :=
  fromLines [
    readStruct (bytes "latestTrade") (Trade.fromJson lib) latestTrade fun s x ↦ { s with latestTrade := x },
    readStruct (bytes "latestQuote") (Quote.fromJson lib) latestQuote fun s x ↦ { s with latestQuote := x },
    readStruct (bytes "minuteBar") (Bar.fromJson lib) minuteBar fun s x ↦ { s with minuteBar := x },
    readStruct (bytes "dailyBar") (Bar.fromJson lib) dailyBar fun s x ↦ { s with dailyBar := x },
    readStruct (bytes "prevDailyBar") (Bar.fromJson lib) prevDailyBar fun s x ↦ { s with prevDailyBar := x }]

/-- `from_json` of `option_greeks`. -/
def OptionGreeks.fromJson : Reader D (OptionGreeks D) :=
  fromLines [
    readDouble lib (bytes "delta") fun g x ↦ { g with delta := x },
    readDouble lib (bytes "gamma") fun g x ↦ { g with gamma := x },
    readDouble lib (bytes "theta") fun g x ↦ { g with theta := x },
    readDouble lib (bytes "vega") fun g x ↦ { g with vega := x },
    readDouble lib (bytes "rho") fun g x ↦ { g with rho := x }]

/-- `from_json` of an `option_snapshot`. The greeks are read into fresh ones. -/
def OptionSnapshot.fromJson : Reader D (OptionSnapshot D) :=
  fromLines [
    readStruct (bytes "latestTrade") (Trade.fromJson lib) latestTrade fun s x ↦ { s with latestTrade := x },
    readStruct (bytes "latestQuote") (Quote.fromJson lib) latestQuote fun s x ↦ { s with latestQuote := x },
    readStruct (bytes "minuteBar") (Bar.fromJson lib) minuteBar fun s x ↦ { s with minuteBar := x },
    readStruct (bytes "dailyBar") (Bar.fromJson lib) dailyBar fun s x ↦ { s with dailyBar := x },
    readStruct (bytes "prevDailyBar") (Bar.fromJson lib) prevDailyBar fun s x ↦ { s with prevDailyBar := x },
    readStruct (bytes "greeks") (OptionGreeks.fromJson lib) (fun _ ↦ .empty) fun s x ↦ { s with greeks := some x },
    readOptionalDouble lib (bytes "impliedVolatility") fun s x ↦ { s with impliedVolatility := x }]

end Models

/-! ### What throws

A part throws what its own `from_json` throws, from below a key. `Json.Nested` is that situation for any
reader, and the conditions of the parts are conjoined. -/

/-- A nested record that can be read, if it is there. -/
def Json.Nested (j : Json D) (key : Bytes) (p : Json D → Prop) : Prop :=
  j.Under key fun v ↦ v.isNull = true ∨ p v

/-- A snapshot that can be read: each of its records can. -/
structure SnapshotReadable (j : Json D) : Prop where
  trade : j.Nested (bytes "latestTrade") fun v ↦ v.Dated (bytes "t") ∧ v.TextConditions
  quote : j.Nested (bytes "latestQuote") fun v ↦ v.Dated (bytes "t") ∧ v.TextConditions
  minute : j.Nested (bytes "minuteBar") (Json.Dated · (bytes "t"))
  daily : j.Nested (bytes "dailyBar") (Json.Dated · (bytes "t"))
  prevDaily : j.Nested (bytes "prevDailyBar") (Json.Dated · (bytes "t"))

section Returns

variable [Doubles D] {lib : JsonLibrary D} {j : Json D} (hj : lib.PrintsAll j)

include hj

theorem returnsIff_readTrade {M : Type} {field : M → Trade D} {assign : M → Trade D → M} (key : Bytes) :
    (readStruct key (Trade.fromJson lib) field assign).ReturnsIff j
      (j.Nested key fun v ↦ v.Dated (bytes "t") ∧ v.TextConditions) :=
  returnsIff_readStruct (fun _ hv ↦ Trade.returnsIff_fromJson (hj.of_member? hv).self) _ _

theorem returnsIff_readQuote {M : Type} {field : M → Quote D} {assign : M → Quote D → M} (key : Bytes) :
    (readStruct key (Quote.fromJson lib) field assign).ReturnsIff j
      (j.Nested key fun v ↦ v.Dated (bytes "t") ∧ v.TextConditions) :=
  returnsIff_readStruct (fun _ hv ↦ Quote.returnsIff_fromJson (hj.of_member? hv).self) _ _

theorem returnsIff_readBar {M : Type} {field : M → Bar D} {assign : M → Bar D → M} (key : Bytes) :
    (readStruct key (Bar.fromJson lib) field assign).ReturnsIff j (j.Nested key (Json.Dated · (bytes "t"))) :=
  returnsIff_readStruct (fun _ hv ↦ Bar.returnsIff_fromJson (hj.of_member? hv).self) _ _

/-- A snapshot can be read when each of its parts can, or is null or missing. -/
theorem Snapshot.returnsIff_fromJson : (Snapshot.fromJson lib).ReturnsIff j (SnapshotReadable j) := by
  intro o
  refine (returnsIff_cons (returnsIff_readTrade hj _) (returnsIff_cons (returnsIff_readQuote hj _)
    (returnsIff_cons (returnsIff_readBar hj _) (returnsIff_cons (returnsIff_readBar hj _)
      (returnsIff_cons (returnsIff_readBar hj _) returnsIff_nil)))) o).trans ?_
  exact ⟨fun ⟨h₁, h₂, h₃, h₄, h₅, _⟩ ↦ ⟨h₁, h₂, h₃, h₄, h₅⟩,
    fun h ↦ ⟨h.trade, h.quote, h.minute, h.daily, h.prevDaily, trivial⟩⟩

/-- Greeks and the implied volatility ask for nothing. -/
theorem OptionSnapshot.returnsIff_fromJson : (OptionSnapshot.fromJson lib).ReturnsIff j (SnapshotReadable j) := by
  have hgreeks : (readStruct (bytes "greeks") (OptionGreeks.fromJson lib) (fun _ ↦ .empty)
      fun (s : OptionSnapshot D) x ↦ { s with greeks := some x }).Total j := fun o ↦
    (returnsIff_readStruct (p := fun _ ↦ True) (fun v hv ↦ (total_fromLines (by
      simp [total_readDouble (hj.of_member? hv).self])).returnsIff) _ _ o).2 fun _ _ ↦ .inr trivial
  intro o
  refine (returnsIff_cons (returnsIff_readTrade hj _) (returnsIff_cons (returnsIff_readQuote hj _)
    (returnsIff_cons (returnsIff_readBar hj _) (returnsIff_cons (returnsIff_readBar hj _)
      (returnsIff_cons (returnsIff_readBar hj _) (returnsIff_total_cons hgreeks
        (returnsIff_total_cons (total_readOptionalDouble hj.self _ _) returnsIff_nil)))))) o).trans ?_
  exact ⟨fun ⟨h₁, h₂, h₃, h₄, h₅, _⟩ ↦ ⟨h₁, h₂, h₃, h₄, h₅⟩,
    fun h ↦ ⟨h.trade, h.quote, h.minute, h.daily, h.prevDaily, trivial⟩⟩

end Returns

/-! ### The option chain

A page is put into the map with `emplace`, which keeps what is there. So, unlike in the histories, a page
that is read again changes nothing, and a later page cannot correct an earlier one. -/

section Chain

variable [Doubles D] (serve : ℕ → Request → Response) (ctx : RequestContext D) (fmt : D → Bytes)

/-- The loop of `on_page` over the snapshots of a page. -/
def emplaceSnapshots (lib : JsonLibrary D) :
    List (Bytes × Json D) → SymbolMap (OptionSnapshot D) → Except Bytes (SymbolMap (OptionSnapshot D))
  | [], out => .ok out
  | (symbol, entry) :: rest, out => do
    let s ← OptionSnapshot.fromJson lib entry .empty
    emplaceSnapshots lib rest (out.emplace symbol s)

/-- `on_page` of `get_option_chain`. -/
def appendChain (lib : JsonLibrary D) (page : Json D) (out : SymbolMap (OptionSnapshot D)) :
    Except Bytes (SymbolMap (OptionSnapshot D)) :=
  match page.member? (bytes "snapshots") with
  | some (.obj members) => emplaceSnapshots lib members out
  | _ => .ok out

/-- The path of a chain. -/
def chainPath (underlyingSymbol : Bytes) : Bytes := bytes "/v1beta1/options/snapshots/" ++ underlyingSymbol

/-- `get_option_chain` -/
def getOptionChain (fuel : ℕ) (underlyingSymbol : Bytes) (query : OptionChainQuery D) (log : Log) :
    Option (Except Error (SymbolMap (OptionSnapshot D)) × Log) :=
  paginate serve ctx (chainPath underlyingSymbol) (fun out page ↦ liftJson (appendChain ctx.json page out)) fuel
    (query.build fmt) ∅ log

/-- `get<symbol_map<T>>()` of an object: an entry does not replace another. -/
def getSymbolMap (fromJson : Reader D T) (default : T) (members : List (Bytes × Json D)) :
    Except Bytes (SymbolMap T) :=
  (getValues fromJson default members).map (∅ : SymbolMap T).emplaceAll

/-- The line of an `option_chain_page` that holds its snapshots. -/
def readSnapshots (lib : JsonLibrary D) : Reader D (Page (SymbolMap (OptionSnapshot D))) := fun j p ↦
  match j.member? (bytes "snapshots") with
  | some (.obj members) =>
    (getSymbolMap (OptionSnapshot.fromJson lib) .empty members).map fun m ↦ { p with content := m }
  | _ => .ok p

/-- `get_option_chain_page` -/
def getOptionChainPage (underlyingSymbol : Bytes) (query : OptionChainQuery D) (log : Log) :
    Except Error (Page (SymbolMap (OptionSnapshot D))) × Log :=
  readAnswer (Json.toModel (Page.ofLines (readSnapshots ctx.json)) ⟨∅, []⟩)
    (ctx.get serve (chainPath underlyingSymbol) (query.build fmt) log)

/-- The snapshots of a page, in order. -/
def chainEntries (lib : JsonLibrary D) (page : Json D) : Except Error (List (Bytes × OptionSnapshot D)) :=
  match page.member? (bytes "snapshots") with
  | some (.obj members) => liftJson (getValues (OptionSnapshot.fromJson lib) .empty members)
  | _ => .ok []

/-- The snapshots of a page are read in order, and emplaced. -/
theorem emplaceSnapshots_eq (lib : JsonLibrary D) (members : List (Bytes × Json D))
    (out : SymbolMap (OptionSnapshot D)) : emplaceSnapshots lib members out =
      (getValues (OptionSnapshot.fromJson lib) .empty members).map out.emplaceAll := by
  induction members generalizing out with
  | nil => rfl
  | cons m members ih =>
    obtain ⟨symbol, entry⟩ := m
    rw [emplaceSnapshots, getValues, List.mapM_cons, ← getValues]
    rcases OptionSnapshot.fromJson lib entry .empty with what | s
    · rfl
    · refine (ih _).trans ?_
      dsimp only [Except.map, bind, Except.bind]
      rcases getValues (OptionSnapshot.fromJson lib) .empty members with what | values <;> rfl

/-- What a page holds does not depend on what is there. -/
theorem appendChain_eq (lib : JsonLibrary D) (out : SymbolMap (OptionSnapshot D)) (page : Json D) :
    liftJson (appendChain lib page out) = (chainEntries lib page).map out.emplaceAll := by
  rw [appendChain, chainEntries]
  rcases page.member? (bytes "snapshots") with - | v
  · rfl
  · cases v with
    | obj members =>
      dsimp only
      rw [emplaceSnapshots_eq]
      rcases getValues (OptionSnapshot.fromJson lib) .empty members with what | values <;> rfl
    | _ => rfl

/-- An answer that is no object has no snapshots. -/
theorem chainEntries_of_isObject_eq_false {lib : JsonLibrary D} {j : Json D} (hj : j.isObject = false) :
    chainEntries lib j = .ok [] := by
  cases j with
  | obj members => exact absurd hj (by simp [Json.isObject])
  | _ => rfl

end Chain

namespace OptionChainQuery

/-- The parameters in front of the token. -/
def front (query : OptionChainQuery D) : QueryBuilder :=
  let q : QueryBuilder := {}
  let q := q.addOption (bytes "feed") OptionFeed.toString query.feed
  let q := q.addOptionNat (bytes "limit") query.limit
  q.addOption (bytes "updated_since") id query.updatedSince

/-- The parameters behind it. -/
def back (fmt : D → Bytes) (query : OptionChainQuery D) : QueryBuilder :=
  let q : QueryBuilder := {}
  let q := q.addOption (bytes "type") ContractType.toString query.type
  let q := q.addOptionDouble fmt (bytes "strike_price_gte") query.strikePriceGte
  let q := q.addOptionDouble fmt (bytes "strike_price_lte") query.strikePriceLte
  let q := q.addOption (bytes "expiration_date") id query.expirationDate
  let q := q.addOption (bytes "expiration_date_gte") id query.expirationDateGte
  let q := q.addOption (bytes "expiration_date_lte") id query.expirationDateLte
  q.addOption (bytes "root_symbol") id query.rootSymbol

/-- The token of an `option_chain_query`. -/
def paged (fmt : D → Bytes) : PagedQuery (OptionChainQuery D) where
  build := build fmt
  pageToken := pageToken
  withPageToken query t := { query with pageToken := some t }
  front := front
  back := back fmt
  params_build query := by
    simp only [build, front, back, QueryBuilder.params_addOption, QueryBuilder.params_addOptionNat,
      QueryBuilder.params_addOptionDouble, List.append_assoc, List.nil_append]
  lacks_front query := by
    refine .addOption (.addOptionNat (.addOption (QueryBuilder.lacks_empty _) ?_ _ _) ?_ _) ?_ _ _ <;> decide
  lacks_back query := by
    refine .addOption (.addOption (.addOption (.addOption (.addOptionDouble (.addOptionDouble (.addOption
      (QueryBuilder.lacks_empty _) ?_ _ _) ?_ _ _) ?_ _ _) ?_ _ _) ?_ _ _) ?_ _ _) ?_ _ _ <;> decide
  front_withPageToken _ _ := rfl
  back_withPageToken _ _ := rfl
  pageToken_withPageToken _ _ := rfl

end OptionChainQuery

/-- Maps that hold the same under every symbol. -/
def SameValues (m m' : SymbolMap T) : Prop := ∀ symbol, m.lookup symbol = m'.lookup symbol

/-- A caller's `insert` of a page into what it has: what is there stays. -/
def insertPage (m page : SymbolMap T) : SymbolMap T := m.emplaceAll page.pairs

section Methods

variable [Doubles D] {serve : ℕ → Request → Response} {ctx : RequestContext D} {fmt : D → Bytes}
  {underlyingSymbol : Bytes} {fuel : ℕ} {query : OptionChainQuery D} {log log' : Log}

/-- The method for one page emplaces it into an empty map. -/
theorem getOptionChainPage_eq (query : OptionChainQuery D) (log : Log) :
    getOptionChainPage serve ctx fmt underlyingSymbol query log =
      fetchPage serve ctx (chainPath underlyingSymbol)
        (fun j ↦ (chainEntries ctx.json j).map (∅ : SymbolMap (OptionSnapshot D)).emplaceAll) (query.build fmt)
        log := by
  refine readAnswer_eq_fetchPage serve ctx _ (fun members ↦ ?_) (fun j hj ↦ ?_) (query.build fmt) log
  · rw [readSnapshots, chainEntries]
    rcases (Json.obj members).member? (bytes "snapshots") with - | v
    · rfl
    · cases v with
      | obj entries =>
        dsimp only [getSymbolMap]
        rcases getValues (OptionSnapshot.fromJson ctx.json) .empty entries with what | values <;> rfl
      | _ => rfl
  · rw [chainEntries_of_isObject_eq_false hj]
    rfl

/-- **A chain is its page method in a loop that inserts**, for a server that does not look at the order of the
parameters: as many requests with the same parameters, the same notices and waits, and the same snapshot under
every symbol or the same exception. -/
theorem optionChain_agree (hserve : Indifferent serve ctx (chainPath underlyingSymbol)) (fuel : ℕ)
    (query : OptionChainQuery D) (log : Log) :
    Option.Rel (Pager.Agree SameValues (Log.Alike ctx (chainPath underlyingSymbol)))
      (getOptionChain serve ctx fmt fuel underlyingSymbol query log)
      (loopPages (OptionChainQuery.paged fmt) (getOptionChainPage serve ctx fmt underlyingSymbol) insertPage fuel
        query ∅ log) := by
  refine paginate_agree_loopPages (B := OptionChainQuery.paged fmt) hserve
    (∅ : SymbolMap (OptionSnapshot D)).emplaceAll (fun out page ↦ appendChain_eq ctx.json out page)
    getOptionChainPage_eq (fun {acc acc'} entries h ↦ ?_) fuel query (fun _ ↦ rfl) log
  intro symbol
  rw [insertPage, AList.lookup_emplaceAll_pairs, AList.lookup_emplaceAll, AList.lookup_emplaceAll, h symbol]

/-- A page of a chain can be read when its snapshots can. -/
theorem exists_chainEntries_eq {lib : JsonLibrary D} {j : Json D}
    (hj : ∀ v, j.member? (bytes "snapshots") = some v → lib.PrintsAll v) : ∃ r, chainEntries lib j = liftJson r ∧
      ((∃ entries, r = .ok entries) ↔ j.Under (bytes "snapshots") (Json.EachValue SnapshotReadable)) := by
  rw [chainEntries]
  rcases hv : j.member? (bytes "snapshots") with - | v
  · exact ⟨.ok [], rfl, iff_of_true ⟨[], rfl⟩ (Json.under_of_none hv)⟩
  · rw [Json.under_of_some hv]
    cases v with
    | obj members =>
      refine ⟨_, rfl, (exists_getValues_iff fun m hm ↦
        OptionSnapshot.returnsIff_fromJson ((hj _ hv).of_value hm)).trans ?_⟩
      exact ⟨fun h members' heq ↦ Json.obj.inj heq ▸ h, fun h ↦ h members rfl⟩
    | _ => exact ⟨.ok [], rfl, iff_of_true ⟨[], rfl⟩ fun members heq ↦ absurd heq (by simp)⟩

/-- **Of each symbol the first page that holds it gives the snapshot**, whatever the server has answered in
between. The JSON library throws exactly when a success has a token that is no string, or a snapshot that
cannot be read, of whichever symbol. -/
theorem optionChain_of_answers (hlib : ctx.json.ParsedPrints)
    {out : Except Error (SymbolMap (OptionSnapshot D))}
    (h : getOptionChain serve ctx fmt fuel underlyingSymbol query log = some (out, log')) :
    ∃ texts, log'.bodies = log.bodies ++ texts ∧
      (Mapped out ↔ ∀ text ∈ texts, ∀ j, parseBody ctx.json text = .ok j →
        j.Dated nextPageTokenKey ∧ j.Under (bytes "snapshots") (Json.EachValue SnapshotReadable)) ∧
      ∀ m, out = .ok m → ∃ pages,
        List.Forall₂ (fun text page ↦ ∃ j, parseBody ctx.json text = .ok j ∧ chainEntries ctx.json j = .ok page)
          texts pages ∧
        ∀ symbol, m.lookup symbol = pages.flatten.lookup symbol := by
  obtain ⟨texts, pages, htexts, hok, hmapped⟩ := paginate_of_answers
    (fun out page ↦ appendChain_eq ctx.json out page) (fun text j hparse ↦ exists_chainEntries_eq fun v hv ↦
      printsAll_of_parseBody hlib hparse hv) h
  refine ⟨texts, htexts, hmapped, fun m hm ↦ ?_⟩
  obtain ⟨rfl, hpages⟩ := hok m hm
  refine ⟨pages, hpages.imp fun text page h ↦ ?_, fun symbol ↦ ?_⟩
  · obtain ⟨token, hpage⟩ := h
    exact exists_of_pageOf_eq_ok hpage
  rw [AList.foldl_emplaceAll, AList.lookup_emplaceAll, AList.lookup_empty, Option.none_or]

end Methods

/-! ### A snapshot on two pages -/

/-- A page whose snapshots hold nothing but a volatility. -/
def volatilityPage (token : Json ℚ) (volatilities : List (Bytes × ℤ)) : Json ℚ :=
  .obj [(nextPageTokenKey, token), (bytes "snapshots", .obj (volatilities.map fun v ↦
    (v.1, .obj [(bytes "impliedVolatility", .int v.2)])))]

/-- A client whose JSON library reads `x` as a page with `A`, and every other text as one with `A` and `B`. -/
def chainClient : RequestContext ℚ where
  baseUrl := bytes "https://data.alpaca.markets"
  json := {
    parse := fun text ↦ .ok (if text = bytes "x" then volatilityPage (.str (bytes "t")) [(bytes "A", 1)]
      else volatilityPage .null [(bytes "A", 2), (bytes "B", 3)])
    dump := fun _ ↦ .ok [] }
  base64Encode := id
  floatToInt32 := id ∘ Rat.floor

/-- A server that answers its first request with `x`, and all others with `y`. -/
def chainServer (k : ℕ) (_ : Request) : Response where
  isOk := true
  resultCode := 200
  resultText := if k = 0 then bytes "x" else bytes "y"

/-- The snapshot of a volatility. -/
def volatile (volatility : ℚ) : OptionSnapshot ℚ :=
  { OptionSnapshot.empty with impliedVolatility := some volatility }

/-- A symbol on two pages: the method and the loop keep the same snapshot. -/
theorem optionChain_agree_volatility :
    Option.Rel (Pager.Agree SameValues (Log.Alike chainClient (chainPath (bytes "X"))))
      (getOptionChain chainServer chainClient (fun _ ↦ []) 2 (bytes "X") {} [])
      (loopPages (OptionChainQuery.paged fun _ ↦ []) (getOptionChainPage chainServer chainClient (fun _ ↦ [])
        (bytes "X")) insertPage 2 {} ∅ []) :=
  optionChain_agree (fun _ _ _ _ ↦ rfl) 2 {} []

/-- A symbol on two pages keeps the snapshot of the first. -/
theorem optionChain_of_answers_volatility : ∃ m log' texts pages,
    getOptionChain chainServer chainClient (fun _ ↦ []) 2 (bytes "X") {} [] = some (.ok m, log') ∧
    m.lookup (bytes "A") = some (volatile 1) ∧ m.lookup (bytes "B") = some (volatile 3) ∧
    log'.bodies = texts ∧
    List.Forall₂ (fun text page ↦ ∃ j, parseBody chainClient.json text = .ok j ∧
      chainEntries chainClient.json j = .ok page) texts pages ∧
    ∀ symbol, m.lookup symbol = (List.flatten pages).lookup symbol := by
  obtain ⟨log₁, hlog₁, hfirst⟩ : ∃ log, log.requests.length = 1 ∧
      chainClient.get chainServer (chainPath (bytes "X")) (OptionChainQuery.build (fun _ : ℚ ↦ []) {}) [] =
        (.ok (volatilityPage (.str (bytes "t")) [(bytes "A", 1)]), log) :=
    ⟨_, rfl, RequestContext.get_of_answer chainServer rfl rfl⟩
  obtain ⟨log₂, hlast⟩ : ∃ log, chainClient.get chainServer (chainPath (bytes "X"))
      ((OptionChainQuery.build (fun _ : ℚ ↦ []) {}).set pageTokenKey (bytes "t")) log₁ =
        (.ok (volatilityPage .null [(bytes "A", 2), (bytes "B", 3)]), log) :=
    ⟨_, RequestContext.get_of_answer chainServer (by rw [hlog₁]; rfl) (by rw [hlog₁]; rfl)⟩
  have hrun : getOptionChain chainServer chainClient (fun _ ↦ []) 2 (bytes "X") {} [] =
      some (.ok ((∅ : SymbolMap (OptionSnapshot ℚ)).emplaceAll
        [(bytes "A", volatile 1), (bytes "A", volatile 2), (bytes "B", volatile 3)]), log₂) := by
    rw [getOptionChain, paginate, hfirst]
    change paginate chainServer chainClient _ (fun out page ↦ liftJson (appendChain chainClient.json page out)) 1
      ((OptionChainQuery.build (fun _ : ℚ ↦ []) {}).set pageTokenKey (bytes "t"))
      ((∅ : SymbolMap (OptionSnapshot ℚ)).emplaceAll [(bytes "A", volatile 1)]) log₁ = _
    rw [paginate, hlast]
    rfl
  obtain ⟨texts, hbodies, -, hchain⟩ := optionChain_of_answers (fun _ _ _ _ _ ↦ ⟨[], rfl⟩) hrun
  obtain ⟨pages, hpages, hlookup⟩ := hchain _ rfl
  exact ⟨_, _, texts, pages, hrun, by decide +kernel, by decide +kernel, hbodies, hpages, hlookup⟩

end Alpaca
