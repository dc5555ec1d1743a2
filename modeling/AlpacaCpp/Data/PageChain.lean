import AlpacaCpp.Data.StockBars

/-!
# A history cut into pages

`Chain` is a history as a server sends it: any number of pages, each a sequence of symbols with some
of their entries, every page but the last naming the next by a non-empty token. `Serves` says that a
server answers the requests of one call by the pages of a chain, in order; a page is asked for by the
caller's parameters with the token of the page before, in whatever order they come.

Both ways of collecting a chain are then followed by induction on it: `paginate_chain` replaces one
parameter of a query in place, and `loopStockBarsPages_chain` rebuilds the query from its fields. What
they share is that either query is, up to order, the one the server expects (`Asks`).

A chain is built from the last page towards the first, as the tokens point, so that the induction follows the
requests: one page is answered, and the rest of the chain is served to the request with its token. Nothing is
asked of how the history is cut. A symbol may span several pages, share a page with others or come back
later, and the last page may name an empty token or none; the entries of a symbol are its batches in order
(`Chain.Cuts`).
-/

namespace Alpaca

variable {D T : Type}

/-- `next_page_token` as a response may have it. -/
inductive PageToken where
  | absent
  | null
  | str (token : Bytes)

/-- The token a client makes of it. -/
def PageToken.value : PageToken → Bytes
  | absent => []
  | null => []
  | str token => token

/-- A finite chain of pages. -/
inductive Chain (T : Type) where
  /-- The last page: its token is null, absent or empty. -/
  | last (page : List (Bytes × List T)) (token : PageToken) (ended : token.value = [])
  /-- A page that names a next one. -/
  | next (page : List (Bytes × List T)) (token : Bytes) (nonempty : token ≠ []) (rest : Chain T)

namespace Chain

/-- The pages, in order. -/
def pages : Chain T → List (List (Bytes × List T))
  | last page _ _ => [page]
  | next page _ _ rest => page :: rest.pages

/-- The tokens that ask for the second page and on, in order. -/
def tokens : Chain T → List Bytes
  | last _ _ _ => []
  | next _ token _ rest => token :: rest.tokens

/-- All batches, in order. -/
def batches (c : Chain T) : List (Bytes × List T) := c.pages.flatten

theorem batches_next (page : List (Bytes × List T)) (token : Bytes) (h : token ≠ [])
    (rest : Chain T) : (next page token h rest).batches = page ++ rest.batches := rfl

/-- There is a page to fetch, so fuel for all of them is fuel for one. -/
theorem exists_fuel_eq (c : Chain T) {fuel : ℕ} (h : c.pages.length ≤ fuel) :
    ∃ n, fuel = n + 1 := by
  refine Nat.exists_eq_succ_of_ne_zero ?_
  rintro rfl
  cases c with
  | last page token ended => exact absurd h (Nat.not_succ_le_zero 0)
  | next page token htoken rest => exact absurd h (Nat.not_succ_le_zero _)

theorem length_pages (c : Chain T) : c.pages.length = c.tokens.length + 1 := by
  induction c with
  | last page token ended => rfl
  | next page token htoken rest ih => exact congrArg Nat.succ ih

/-- The chain is a way of cutting the history. -/
def Cuts (c : Chain T) (history : Bytes → List T) : Prop :=
  ∀ symbol, Multimap.collect c.batches symbol = history symbol

end Chain

/-! ### Serving a chain

The texts of the pages are up to the server and the JSON library; what is asked of them is that the body
parses to an object with the page's symbols and its token. -/

section Serving

variable (serve : ℕ → Request → Response) (ctx : RequestContext D)
  (decode : Json D → Except Bytes T)

/-- A JSON value that is a page: under `bars` it maps the symbols to arrays of entries, where a page
without any may also have null there, or nothing. -/
structure IsPage (j : Json D) (page : List (Bytes × List T)) (token : PageToken) : Prop where
  bars : (∃ members, j.member? barsKey = some (.obj members) ∧
      List.Forall₂ (fun m p ↦ m.1 = p.1 ∧ ∃ elems, m.2 = .arr elems ∧
        getVector decode elems = .ok p.2) members page) ∨
    page = [] ∧ (j.member? barsKey = some .null ∨ j.member? barsKey = none)
  token : j.member? nextPageTokenKey = match token with
    | .absent => none
    | .null => some .null
    | .str t => some (.str t)

/-- The server answers the request number `k` with a page, if its parameters are these in any
order. -/
def Answers (k : ℕ) (params : List (Bytes × Bytes)) (page : List (Bytes × List T))
    (token : PageToken) : Prop :=
  ∀ q : QueryBuilder, q.params.Perm params →
    (serve k (ctx.request .get stockBarsPath q none)).isOk = true ∧
      ∃ j, parseBody ctx.json (serve k (ctx.request .get stockBarsPath q none)).resultText = .ok j ∧
        IsPage decode j page token

/-- The caller's other parameters, and the token of the page before. -/
def withToken (params : List (Bytes × Bytes)) (token : Bytes) : List (Bytes × Bytes) :=
  params.filter (·.1 ≠ pageTokenKey) ++ [(pageTokenKey, token)]

/-- The requests from number `k` on are answered by the pages of the chain, the first of them being
asked for by `params`. -/
def Serves : ℕ → List (Bytes × Bytes) → Chain T → Prop
  | k, params, .last page token _ => Answers serve ctx decode k params page token
  | k, params, .next page token _ rest =>
    Answers serve ctx decode k params page (.str token) ∧
      Serves (k + 1) (withToken params token) rest

end Serving

/-! ### Reading a page -/

/-- Members that decode to the batches of a page are merged as these. -/
theorem mergeItems_of_forall₂ {decode : Json D → Except Bytes T} {members : List (Bytes × Json D)}
    {page : List (Bytes × List T)}
    (h : List.Forall₂ (fun m p ↦ m.1 = p.1 ∧ ∃ elems, m.2 = .arr elems ∧
      getVector decode elems = .ok p.2) members page) (out : Multimap Bytes T) :
    mergeItems decode members out = .ok (out.appendAll page) := by
  induction h generalizing out with
  | nil => rfl
  | @cons m p members page hmp _ ih =>
    obtain ⟨symbol, entries⟩ := m
    obtain ⟨rfl, elems, rfl, hread⟩ := hmp
    rw [mergeItems, hread]
    exact ih _

/-- **A page of the chain is merged whole.** -/
theorem IsPage.mergeSymbolPage_eq {decode : Json D → Except Bytes T} {j : Json D}
    {page : List (Bytes × List T)} {token : PageToken} (h : IsPage decode j page token)
    (out : Multimap Bytes T) : mergeSymbolPage decode j barsKey out = .ok (out.appendAll page) := by
  rcases h.bars with ⟨members, hmember, hitems⟩ | ⟨rfl, hnull | hnone⟩
  · rw [mergeSymbolPage, hmember]
    exact mergeItems_of_forall₂ hitems out
  · rw [mergeSymbolPage, hnull]
    rfl
  · rw [mergeSymbolPage, hnone]
    rfl

/-- The token of a page is the one the chain has. -/
theorem IsPage.pageTokenOf_eq {decode : Json D → Except Bytes T} {j : Json D}
    {page : List (Bytes × List T)} {token : PageToken} (h : IsPage decode j page token) :
    pageTokenOf j = .ok token.value := by
  rw [pageTokenOf, h.token]
  cases token <;> rfl

/-! ### Asking for a page

Both walks keep one parameter for the token, wherever it stands. `Asks` is kept when it is replaced and
when the query is built anew. -/

/-- A query that asks for the page with these parameters: they are its own up to order, and it holds
at most one `page_token`. -/
structure Asks (q : QueryBuilder) (params : List (Bytes × Bytes)) : Prop where
  perm : q.params.Perm params
  single : (q.values pageTokenKey).length ≤ 1

/-- A query that holds just this token, and otherwise what another one held, asks for the next
page. -/
theorem Asks.next {q q' : QueryBuilder} {params : List (Bytes × Bytes)} {token : Bytes}
    (h : Asks q params) (hothers : q'.others pageTokenKey = q.others pageTokenKey)
    (hvalues : q'.values pageTokenKey = [token]) : Asks q' (withToken params token) where
  perm := by
    have hsplit := q'.perm_others_append pageTokenKey
    rw [hothers, hvalues] at hsplit
    exact hsplit.trans ((h.perm.filter _).append_right _)
  single := by rw [hvalues, List.length_singleton]

/-- Replacing the token in place asks for the next page. -/
theorem Asks.set {q : QueryBuilder} {params : List (Bytes × Bytes)} {token : Bytes}
    (h : Asks q params) (htoken : token ≠ []) :
    Asks (q.set pageTokenKey token) (withToken params token) :=
  h.next (q.others_set _ _) (QueryBuilder.values_set htoken h.single)

/-- So does rebuilding the query with the token. -/
theorem Asks.withPageToken {b : BarQuery} {params : List (Bytes × Bytes)} {token : Bytes}
    (h : Asks b.build params) (htoken : token ≠ []) :
    Asks (b.withPageToken (some token)).build (withToken params token) := by
  refine h.next (b.others_build_withPageToken (some token) b.pageToken) ?_
  rw [b.values_build_withPageToken, QueryBuilder.added, QueryBuilder.addOption, QueryBuilder.add,
    id_eq, if_pos htoken]
  rfl

/-! ### Collecting a chain

One page first, then the chain by induction. What has been collected before a page is arbitrary, and the
page adds its batches behind it. -/

section Collecting

variable {serve : ℕ → Request → Response} {ctx : RequestContext D}
  {decode : Json D → Except Bytes T}

/-- One page on the wire. -/
theorem Answers.get_eq {log : Log} {q : QueryBuilder} {params : List (Bytes × Bytes)}
    {page : List (Bytes × List T)} {token : PageToken}
    (h : Answers serve ctx decode log.requests.length params page token) (hq : Asks q params) :
    ∃ j log', ctx.get serve stockBarsPath q log = (.ok j, log') ∧ IsPage decode j page token ∧
      log'.requests = log.requests ++ [ctx.request .get stockBarsPath q none] := by
  obtain ⟨hok, j, hparse, hpage⟩ := h q hq.perm
  exact ⟨j, _, RequestContext.get_of_answer serve hok hparse, hpage, log.requests_attempt _ _⟩

/-- One turn of the pagination loop. -/
theorem paginate_page {fuel : ℕ} {q : QueryBuilder} {out : Multimap Bytes T} {log log' : Log}
    {j : Json D} {page : List (Bytes × List T)} {token : PageToken}
    (hget : ctx.get serve stockBarsPath q log = (.ok j, log')) (hpage : IsPage decode j page token) :
    paginate serve ctx stockBarsPath (fun bars page ↦ mergeSymbolPage decode page barsKey bars)
        (fuel + 1) q out log =
      if token.value = [] then some (.ok (out.appendAll page), log')
      else paginate serve ctx stockBarsPath
        (fun bars page ↦ mergeSymbolPage decode page barsKey bars) fuel
        (q.set pageTokenKey token.value) (out.appendAll page) log' := by
  rw [paginate, hget]
  simp only [hpage.mergeSymbolPage_eq, hpage.token]
  cases token with
  | absent => rfl
  | null => rfl
  | str t => rfl

/-- **`paginate` over a chain**: one request for each page, each of them asking for it, and all
batches in order. -/
theorem paginate_chain (c : Chain T) {q : QueryBuilder} {params : List (Bytes × Bytes)}
    (out : Multimap Bytes T) (log : Log) {fuel : ℕ}
    (hserve : Serves serve ctx decode log.requests.length params c) (hq : Asks q params)
    (hfuel : c.pages.length ≤ fuel) :
    ∃ queries log', paginate serve ctx stockBarsPath
        (fun bars page ↦ mergeSymbolPage decode page barsKey bars) fuel q out log =
          some (.ok (out.appendAll c.batches), log') ∧
      log'.requests = log.requests ++
        (q :: queries).map (fun q ↦ ctx.request .get stockBarsPath q none) ∧
      List.Forall₂ (fun token (q' : QueryBuilder) ↦ q'.values pageTokenKey = [token] ∧
        q'.others pageTokenKey = q.others pageTokenKey) c.tokens queries := by
  induction c generalizing q params out log fuel with
  | last page token ended =>
    obtain ⟨fuel, rfl⟩ := (Chain.last page token ended).exists_fuel_eq hfuel
    obtain ⟨j, log', hget, hpage, hlog⟩ := Answers.get_eq hserve hq
    have hbatches : (Chain.last page token ended).batches = page := List.append_nil page
    refine ⟨[], log', ?_, hlog, List.Forall₂.nil⟩
    rw [paginate_page hget hpage, if_pos ended, hbatches]
  | next page token htoken rest ih =>
    obtain ⟨fuel, rfl⟩ := (Chain.next page token htoken rest).exists_fuel_eq hfuel
    obtain ⟨hserve, hrest⟩ := hserve
    obtain ⟨j, log', hget, hpage, hlog⟩ := Answers.get_eq hserve hq
    have hlen : log.requests.length + 1 = log'.requests.length := by
      rw [hlog, List.length_append, List.length_singleton]
    rw [hlen] at hrest
    obtain ⟨queries, log'', hpag, hlog'', hqueries⟩ := ih _ _ hrest (hq.set htoken)
      (Nat.le_of_succ_le_succ hfuel)
    refine ⟨q.set pageTokenKey token :: queries, log'', ?_, ?_, ?_⟩
    · rw [paginate_page hget hpage, PageToken.value, if_neg htoken, Chain.batches_next,
        Multimap.appendAll_append]
      exact hpag
    · rw [hlog'', hlog, List.append_assoc]
      rfl
    · refine List.Forall₂.cons ⟨QueryBuilder.values_set htoken hq.single, q.others_set _ _⟩ ?_
      refine hqueries.imp fun token' q' hq' ↦ ⟨hq'.1, hq'.2.trans (q.others_set _ _)⟩

/-- One turn of a caller's loop. -/
theorem loopStockBarsPages_page {fuel : ℕ} {b : BarQuery} {acc : Multimap Bytes T} {log log' : Log}
    {j : Json D} {page : List (Bytes × List T)} {token : PageToken}
    (hget : ctx.get serve stockBarsPath b.build log = (.ok j, log'))
    (hpage : IsPage decode j page token) :
    loopStockBarsPages serve ctx decode (fuel + 1) b acc log =
      if token.value = [] then
        some (.ok (acc.appendAll ((∅ : Multimap Bytes T).appendAll page).batches), log')
      else loopStockBarsPages serve ctx decode fuel (b.withPageToken (some token.value))
        (acc.appendAll ((∅ : Multimap Bytes T).appendAll page).batches) log' := by
  rw [loopStockBarsPages, getStockBarsPage, hget]
  simp only [hpage.mergeSymbolPage_eq, hpage.pageTokenOf_eq]

/-- Merging a page that was first collected on its own is merging its batches. -/
theorem get_appendAll_page (acc : Multimap Bytes T) (page : List (Bytes × List T))
    (symbol : Bytes) :
    (acc.appendAll ((∅ : Multimap Bytes T).appendAll page).batches).get symbol =
      acc.get symbol ++ Multimap.collect page symbol := by
  rw [Multimap.get_appendAll, Multimap.collect_batches, Multimap.get_appendAll, Multimap.get_empty,
    List.nil_append]

/-- The symbols of a page join those collected before. -/
theorem mem_appendAll_page (acc : Multimap Bytes T) (page : List (Bytes × List T))
    (symbol : Bytes) :
    symbol ∈ acc.appendAll ((∅ : Multimap Bytes T).appendAll page).batches ↔
      symbol ∈ acc ∨ symbol ∈ page.map Prod.fst := by
  rw [Multimap.mem_appendAll, Multimap.mem_batches, Multimap.mem_appendAll]
  simp

/-- **A caller's loop over a chain** collects the same batches. -/
theorem loopStockBarsPages_chain (c : Chain T) {b : BarQuery} {params : List (Bytes × Bytes)}
    (acc : Multimap Bytes T) (log : Log) {fuel : ℕ}
    (hserve : Serves serve ctx decode log.requests.length params c) (hb : Asks b.build params)
    (hfuel : c.pages.length ≤ fuel) :
    ∃ bars log', loopStockBarsPages serve ctx decode fuel b acc log = some (.ok bars, log') ∧
      (∀ symbol, bars.get symbol = acc.get symbol ++ Multimap.collect c.batches symbol) ∧
      ∀ symbol, symbol ∈ bars ↔ symbol ∈ acc ∨ symbol ∈ c.batches.map Prod.fst := by
  induction c generalizing b params acc log fuel with
  | last page token ended =>
    obtain ⟨fuel, rfl⟩ := (Chain.last page token ended).exists_fuel_eq hfuel
    obtain ⟨j, log', hget, hpage, -⟩ := Answers.get_eq hserve hb
    have hbatches : (Chain.last page token ended).batches = page := List.append_nil page
    refine ⟨_, log', (loopStockBarsPages_page hget hpage).trans (if_pos ended), ?_, ?_⟩
    · intro symbol
      rw [get_appendAll_page, hbatches]
    · intro symbol
      rw [mem_appendAll_page, hbatches]
  | next page token htoken rest ih =>
    obtain ⟨fuel, rfl⟩ := (Chain.next page token htoken rest).exists_fuel_eq hfuel
    obtain ⟨hserve, hrest⟩ := hserve
    obtain ⟨j, log', hget, hpage, hlog⟩ := Answers.get_eq hserve hb
    have hlen : log.requests.length + 1 = log'.requests.length := by
      rw [hlog, List.length_append, List.length_singleton]
    rw [hlen] at hrest
    obtain ⟨bars, log'', hloop, hbars, hmem⟩ := ih _ _ hrest
      (hb.withPageToken htoken)
      (Nat.le_of_succ_le_succ hfuel)
    refine ⟨bars, log'', ((loopStockBarsPages_page hget hpage).trans (if_neg htoken)).trans hloop,
      ?_, ?_⟩
    · intro symbol
      rw [hbars, get_appendAll_page, Chain.batches_next, Multimap.collect_append, List.append_assoc]
    · intro symbol
      rw [hmem, mem_appendAll_page, Chain.batches_next, List.map_append, List.mem_append, or_assoc]

/-- **A history arrives whole.** However a server cuts a history into pages, `get_stock_bars` asks once
for each page, with exactly one `page_token` after the first and its other parameters unchanged; it
returns every symbol's entries in order, and so does a caller's loop over `get_stock_bars_page`. -/
theorem getStockBars_eq_history {query : BarQuery} {c : Chain T} {history : Bytes → List T}
    {fuel : ℕ} (hcut : c.Cuts history) (hserve : Serves serve ctx decode 0 query.build.params c)
    (hfuel : c.pages.length ≤ fuel) :
    ∃ bars log queries, getStockBars serve ctx decode fuel query [] = some (.ok bars, log) ∧
      log.requests.length = c.pages.length ∧
      log.requests = (query.build :: queries).map (fun q ↦ ctx.request .get stockBarsPath q none) ∧
      List.Forall₂ (fun token (q : QueryBuilder) ↦ q.values pageTokenKey = [token] ∧
        q.others pageTokenKey = query.build.others pageTokenKey) c.tokens queries ∧
      (∀ symbol, bars.get symbol = history symbol) ∧
      (∀ symbol, symbol ∈ bars ↔ ∃ page ∈ c.pages, symbol ∈ page.map Prod.fst) ∧
      ∃ bars' log', loopStockBarsPages serve ctx decode fuel query ∅ [] = some (.ok bars', log') ∧
        ∀ symbol, bars'.lookup symbol = bars.lookup symbol := by
  -- the first request has the caller's own parameters, and at most one token among them
  have hq : Asks query.build query.build.params := ⟨List.Perm.refl _, query.length_values_build_le⟩
  obtain ⟨queries, log, hpag, hlog, hqueries⟩ := paginate_chain c ∅ [] hserve hq hfuel
  obtain ⟨bars', log', hloop, hget, hmem⟩ := loopStockBarsPages_chain c ∅ [] hserve hq hfuel
  have hcollect : ∀ symbol, ((∅ : Multimap Bytes T).appendAll c.batches).get symbol =
      Multimap.collect c.batches symbol := by
    intro symbol
    rw [Multimap.get_appendAll, Multimap.get_empty, List.nil_append]
  have hkeys : ∀ symbol, symbol ∈ (∅ : Multimap Bytes T).appendAll c.batches ↔
      symbol ∈ c.batches.map Prod.fst := by
    intro symbol
    rw [Multimap.mem_appendAll]
    simp
  refine ⟨_, log, queries, hpag, ?_, hlog, hqueries, ?_, ?_, bars', log', hloop, ?_⟩
  · rw [hlog, c.length_pages, hqueries.length_eq]
    simp [Log.requests, Log.exchanges]
  · intro symbol
    rw [hcollect, hcut]
  · intro symbol
    rw [hkeys, Chain.batches, List.map_flatten, List.mem_flatten]
    simp only [List.mem_map, exists_exists_and_eq_and]
  · intro symbol
    refine Multimap.lookup_eq_of_get_eq ?_ ?_
    · rw [hmem, hkeys]
      simp
    · rw [hget, hcollect, Multimap.get_empty, List.nil_append]

end Collecting

/-! ### A symbol that spans two pages -/

/-- A bar with only its trade count. -/
def countedBar (n : ℤ) : Json ℤ := .obj [(bytes "n", .int n)]

/-- The trade count of a bar. -/
def tradeCount (j : Json ℤ) : Except Bytes ℤ :=
  match j.member? (bytes "n") with
  | some (.int n) => .ok n
  | _ => .ok 0

/-- `AAPL` on both pages, `MSFT` on the second. -/
def splitChain : Chain ℤ :=
  .next [(bytes "AAPL", [1])] (bytes "QQ") (by decide)
    (.last [(bytes "AAPL", [2]), (bytes "MSFT", [3])] .null rfl)

def firstText : Bytes :=
  bytes "\x7b\"bars\":\x7b\"AAPL\":[\x7b\"n\":1\x7d]\x7d,\"next_page_token\":\"QQ\"\x7d"

def secondText : Bytes :=
  bytes "\x7b\"bars\":\x7b\"AAPL\":[\x7b\"n\":2\x7d],\"MSFT\":[\x7b\"n\":3\x7d]\x7d,\"next_page_token\":null\x7d"

/-- A client whose JSON library knows the two texts. -/
def splitClient : RequestContext ℤ where
  baseUrl := bytes "https://data.alpaca.markets"
  json := {
    parse := fun body ↦
      if body = firstText then .ok (.obj [
        (barsKey, .obj [(bytes "AAPL", .arr [countedBar 1])]),
        (nextPageTokenKey, .str (bytes "QQ"))])
      else .ok (.obj [
        (barsKey, .obj [(bytes "AAPL", .arr [countedBar 2]), (bytes "MSFT", .arr [countedBar 3])]),
        (nextPageTokenKey, .null)])
    dump := fun _ ↦ .ok [] }
  base64Encode := id
  floatToInt32 := id

/-- A server that answers in turn. -/
def splitServer (k : ℕ) (_ : Request) : Response :=
  { isOk := true, resultCode := 200, resultText := if k = 0 then firstText else secondText }

/-- Bars of one symbol on two pages, and of another on the second. -/
theorem getStockBars_splitChain :
    ∃ bars log, getStockBars splitServer splitClient tradeCount 2
        { symbols := [bytes "AAPL", bytes "MSFT"] } [] = some (.ok bars, log) ∧
      log.requests.length = 2 ∧ bars.get (bytes "AAPL") = [1, 2] ∧ bars.get (bytes "MSFT") = [3] := by
  have hserve : Serves splitServer splitClient tradeCount 0
      (BarQuery.build { symbols := [bytes "AAPL", bytes "MSFT"] }).params splitChain := by
    refine ⟨fun q _ ↦ ⟨rfl, _, rfl, ?_, rfl⟩, fun q _ ↦ ⟨rfl, _, rfl, ?_, rfl⟩⟩
    · exact Or.inl ⟨_, rfl, .cons ⟨rfl, _, rfl, rfl⟩ .nil⟩
    · exact Or.inl ⟨_, rfl, .cons ⟨rfl, _, rfl, rfl⟩ (.cons ⟨rfl, _, rfl, rfl⟩ .nil)⟩
  have hcut : splitChain.Cuts fun symbol ↦ Multimap.collect splitChain.batches symbol :=
    fun _ ↦ rfl
  obtain ⟨bars, log, -, hbars, hlog, -, -, hget, -⟩ :=
    getStockBars_eq_history hcut hserve (show splitChain.pages.length ≤ 2 from le_rfl)
  exact ⟨bars, log, hbars, hlog, hget _, hget _⟩

end Alpaca
