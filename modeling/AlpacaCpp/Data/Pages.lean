import AlpacaCpp.Foundation.Paging
import AlpacaCpp.Core.Structs
import AlpacaCpp.Data.StockBars
import AlpacaCpp.Http.Attempts
import AlpacaCpp.Trading.OrderModel

/-!
# Page by page

Every paginated method of the clients comes twice: as one call that follows the tokens with
`request_context::paginate`, and as a method that returns one page and its token, with which a caller
follows them (`loopPages`). The first replaces `page_token` in the parameters it has, the second builds
them anew from a query whose `page_token` is set.

Both are a `Pager`, of parameters and of queries. Where the token is the last parameter of a query the two
ask for the same URLs, and so they **do the same, whatever the server answers**
(`paginate_eq_loopPages`). Where it is not, the parameters come in another order, and the two do the same
against a server that does not look at their order (`paginate_agree_loopPages`).

`PagedQuery` is what the two need to know of a query: that its parameters are those in front of the token,
the token, and those behind it, where the key of the token does not occur. `AsksFor` relates parameters to
a query that asks for the same up to order, and setting the token on both sides keeps them related
(`AsksFor.next`). So the pagers are `Similar`, and the library does the rest.

What a method returns is read off its answers. The bodies of the successes among them (`Log.bodies`) are all
that counts: a retried failure has been asked again, and a failure that is not retried ends the call with an
`api_error`. One `get` has one success or none (`get_bodies`), one page of a walk one body (`Reads`), and so

* the pages a call has merged are those its bodies hold, in order (`paginate_of_answers`);
* **it throws an exception of the JSON library exactly when one of the bodies cannot be read**: its token, or
  what the method wants of it.

`exists_listedFrom` is the case of the methods that put the items of their pages one behind the other.

A walk need not end, because the server may name a token on every page. So the two loops take fuel, and
where they are compared they run out of it together (`Option.Rel`). What is read off the answers is stated
for a run that has ended, and that it has ended may be taken from either side.
-/

namespace Alpaca

variable {D P Q α : Type}

/-! ### Parameters under other keys

Whether `set` replaces a parameter or appends one depends on the keys in front. `Lacks` says that a key
does not occur, and each `add` of the builder keeps it if its own key is another one. -/

/-- No parameter with this key. -/
def QueryBuilder.Lacks (q : QueryBuilder) (key : Bytes) : Prop := ∀ p ∈ q.params, p.1 ≠ key

namespace QueryBuilder

variable {q : QueryBuilder} {key k : Bytes}

theorem eq_of_params_eq {q' : QueryBuilder} (h : q.params = q'.params) : q = q' := by
  cases q
  exact congrArg mk h

/-- A key is missing from more parameters if it is from the ones there are. -/
theorem Lacks.of_params_eq {q' : QueryBuilder} {more : List (Bytes × Bytes)} (h : q.Lacks key)
    (hparams : q'.params = q.params ++ more) (hmore : ∀ p ∈ more, p.1 ≠ key) : q'.Lacks key := by
  intro p hp
  rw [hparams, List.mem_append] at hp
  exact hp.elim (h p) (hmore p)

@[simp] theorem lacks_empty (key : Bytes) : Lacks {} key := fun _ hp ↦ absurd hp List.not_mem_nil

theorem Lacks.add (h : q.Lacks key) (hne : k ≠ key) (value : Bytes) : (q.add k value).Lacks key :=
  h.of_params_eq (params_add q k value) fun _ hp ↦ key_of_mem_add hp ▸ hne

theorem Lacks.addOption (h : q.Lacks key) (hne : k ≠ key) (render : α → Bytes) (value : Option α) :
    (q.addOption k render value).Lacks key :=
  h.of_params_eq (params_addOption q k render value) fun _ hp ↦ key_of_mem_addOption hp ▸ hne

theorem Lacks.addOptionNat (h : q.Lacks key) (hne : k ≠ key) (value : Option UInt32) :
    (q.addOptionNat k value).Lacks key :=
  h.of_params_eq (params_addOptionNat q k value) fun _ hp ↦ key_of_mem_addOptionNat hp ▸ hne

theorem Lacks.addList (h : q.Lacks key) (hne : k ≠ key) (values : List Bytes) :
    (q.addList k values).Lacks key :=
  h.of_params_eq (params_addList q k values) fun _ hp ↦ key_of_mem_addList hp ▸ hne

/-- A double that is set is appended like the rest. -/
theorem params_addOptionDouble (fmt : D → Bytes) (q : QueryBuilder) (key : Bytes) (value : Option D) :
    (q.addOptionDouble fmt key value).params = q.params ++ added fun q ↦ q.addOptionDouble fmt key value := by
  cases value with
  | none => exact (List.append_nil _).symm
  | some x => rfl

theorem Lacks.addOptionDouble (h : q.Lacks key) (hne : k ≠ key) (fmt : D → Bytes) (value : Option D) :
    (addOptionDouble fmt q k value).Lacks key := by
  cases value with
  | none => exact h
  | some x => exact h.of_params_eq rfl fun p hp ↦ List.mem_singleton.1 hp ▸ hne

/-- Of parameters with another key, none is found. -/
theorem replaceFirst_append_of_lacks {value : Bytes} {front rest : List (Bytes × Bytes)}
    (h : ∀ p ∈ front, p.1 ≠ key) :
    replaceFirst key value (front ++ rest) = (replaceFirst key value rest).map (front ++ ·) := by
  induction front with
  | nil => exact Option.map_id'.symm
  | cons p front ih =>
    obtain ⟨k, v⟩ := p
    rw [List.forall_mem_cons] at h
    rw [List.cons_append, replaceFirst, if_neg h.1, ih h.2, Option.map_map]
    rfl

/-- **`set` behind parameters with other keys** puts its pair where it was, or where it would be added. -/
theorem params_set_of_lacks (h : q.Lacks key) (token : Option Bytes) {t : Bytes} (ht : t ≠ []) :
    ((q.addOption key id token).set key t).params = q.params ++ [(key, t)] := by
  have hnone : replaceFirst key t q.params = none := by
    rw [← List.append_nil q.params, replaceFirst_append_of_lacks h]
    rfl
  have hadded : (q.add key t).params = q.params ++ [(key, t)] := by rw [QueryBuilder.add, if_pos ht]
  have hfresh : (q.set key t).params = q.params ++ [(key, t)] := by
    rw [QueryBuilder.set, hnone]
    exact hadded
  rcases token with - | old
  · exact hfresh
  · rw [QueryBuilder.addOption, id_eq, QueryBuilder.add]
    split
    case isFalse => exact hfresh
    case isTrue =>
      rw [QueryBuilder.set, replaceFirst_append_of_lacks h, replaceFirst, if_pos rfl]
      rfl

end QueryBuilder

/-! ### Queries with a token

A query is given by its parts around the token. Built without one it has no such parameter, and `set`
appends; built with one it has the parameter in its place, and `set` replaces the value there. -/

/-- Queries that hold a `page_token`, which `build` puts between other parameters. -/
structure PagedQuery (Q : Type) where
  build : Q → QueryBuilder
  /-- The caller's token. -/
  pageToken : Q → Option Bytes
  /-- The same query for another page. -/
  withPageToken : Q → Bytes → Q
  /-- The parameters in front of the token. -/
  front : Q → QueryBuilder
  /-- The parameters behind it. -/
  back : Q → QueryBuilder
  params_build (q : Q) : (build q).params =
    ((front q).addOption pageTokenKey id (pageToken q)).params ++ (back q).params
  lacks_front (q : Q) : (front q).Lacks pageTokenKey
  lacks_back (q : Q) : (back q).Lacks pageTokenKey
  front_withPageToken (q : Q) (t : Bytes) : front (withPageToken q t) = front q
  back_withPageToken (q : Q) (t : Bytes) : back (withPageToken q t) = back q
  pageToken_withPageToken (q : Q) (t : Bytes) : pageToken (withPageToken q t) = some t

namespace PagedQuery

variable (B : PagedQuery Q) (q : Q) {t : Bytes}

/-- The parameters of the next page. -/
theorem params_build_withPageToken (ht : t ≠ []) :
    (B.build (B.withPageToken q t)).params = (B.front q).params ++ [(pageTokenKey, t)] ++ (B.back q).params := by
  rw [B.params_build, B.front_withPageToken, B.back_withPageToken, B.pageToken_withPageToken,
    QueryBuilder.addOption, id_eq, QueryBuilder.add, if_pos ht]

/-- Without parameters behind the token, the query of the next page is the one `paginate` makes. -/
theorem build_withPageToken_eq_set (hback : B.back q = {}) (ht : t ≠ []) :
    B.build (B.withPageToken q t) = (B.build q).set pageTokenKey t := by
  have hbuild : B.build q = (B.front q).addOption pageTokenKey id (B.pageToken q) :=
    QueryBuilder.eq_of_params_eq (by rw [B.params_build, hback]; exact List.append_nil _)
  refine QueryBuilder.eq_of_params_eq ?_
  rw [B.params_build_withPageToken q ht, hback, hbuild, QueryBuilder.params_set_of_lacks (B.lacks_front q) _ ht]
  exact List.append_nil _

/-- Parameters that ask for the page a query asks for: its own, up to order, with at most one token. -/
structure AsksFor (params : QueryBuilder) (q : Q) : Prop where
  perm : params.params.Perm (B.build q).params
  single : (params.values pageTokenKey).length ≤ 1

/-- A query asks for its own parameters. -/
theorem asksFor_build : B.AsksFor (B.build q) q where
  perm := .refl _
  single := by
    have hfilter : ∀ {q : QueryBuilder}, q.Lacks pageTokenKey → q.params.filter (·.1 = pageTokenKey) = [] :=
      fun h ↦ List.filter_eq_nil_iff.2 fun p hp ↦ by simpa using h p hp
    have hadded : (QueryBuilder.added fun b ↦ b.addOption pageTokenKey id (B.pageToken q)).length ≤ 1 := by
      rcases B.pageToken q with - | token
      · exact Nat.zero_le _
      · rw [QueryBuilder.added, QueryBuilder.addOption, QueryBuilder.add]
        split
        · exact le_rfl
        · exact Nat.zero_le _
    rw [QueryBuilder.values, List.length_map, B.params_build, QueryBuilder.params_addOption,
      List.filter_append, List.filter_append, hfilter (B.lacks_front q), hfilter (B.lacks_back q),
      List.append_nil, List.nil_append]
    exact (List.length_filter_le _ _).trans hadded

variable {B} in
/-- Replacing the token in place, and setting it in the query. -/
theorem AsksFor.next {params : QueryBuilder} {q : Q} (h : B.AsksFor params q) (ht : t ≠ []) :
    B.AsksFor (params.set pageTokenKey t) (B.withPageToken q t) where
  perm := by
    have hself : ∀ {q : QueryBuilder}, q.Lacks pageTokenKey → q.params.filter (·.1 ≠ pageTokenKey) = q.params :=
      fun h ↦ List.filter_eq_self.2 fun p hp ↦ by simpa using h p hp
    -- what is not the token stands in front of it or behind it
    have hothers : (B.build q).params.filter (·.1 ≠ pageTokenKey) = (B.front q).params ++ (B.back q).params := by
      rw [B.params_build, QueryBuilder.params_addOption, List.filter_append, List.filter_append,
        hself (B.lacks_front q), hself (B.lacks_back q), List.filter_eq_nil_iff.2 fun p hp ↦ by
          simpa using QueryBuilder.key_of_mem_addOption hp, List.append_nil]
    have hsplit := (params.set pageTokenKey t).perm_others_append pageTokenKey
    rw [QueryBuilder.others_set, QueryBuilder.values_set ht h.single] at hsplit
    have hperm : (params.others pageTokenKey).Perm ((B.front q).params ++ (B.back q).params) :=
      hothers ▸ h.perm.filter _
    rw [B.params_build_withPageToken q ht]
    refine hsplit.trans ((hperm.append_right _).trans ?_)
    rw [List.append_assoc, List.append_assoc]
    exact List.perm_append_comm.append_left _
  single := by rw [QueryBuilder.values_set ht h.single, List.length_singleton]

end PagedQuery

/-! ### Pages

A page is what the body of an answer is read as, with the token behind it. An empty token and a null one
both end the walk, and so does a page that has none. -/

/-- The page of a page method: what it holds, and the token of the next one, empty on the last. -/
structure Page (P : Type) where
  content : P
  nextPageToken : Bytes := []

/-- A page out of its parts; what it holds is read first. -/
def Page.of (content : Except Error P) (token : Except Error Bytes) : Except Error (Page P) :=
  match content, token with
  | .error e, _ => .error e
  | _, .error e => .error e
  | .ok content, .ok token => .ok ⟨content, token⟩

/-- A token that names a page. -/
abbrev Token := {t : Bytes // t ≠ []}

/-- An empty token names none. -/
def tokenOf (t : Bytes) : Option Token := if h : t ≠ [] then some ⟨t, h⟩ else none

section Fetching

variable (serve : ℕ → Request → Response) (ctx : RequestContext D) (path : Bytes)
  (read : Json D → Except Error P)

/-- One page of `path`, with what `read` makes of it and then its token. -/
def fetchPage (query : QueryBuilder) (log : Log) : Except Error (Page P) × Log :=
  match ctx.get serve path query log with
  | (.error e, log) => (.error e, log)
  | (.ok j, log) => (Page.of (read j) (pageTokenOf j), log)

/-- A page as a pager returns it. -/
def Page.named (page : Page P) : P × Option Token := (page.content, tokenOf page.nextPageToken)

/-- The pages of `path`, by their parameters. -/
def pager : Pager QueryBuilder Log Error P Token where
  fetch query log := ((fetchPage serve ctx path read query log).1.map Page.named,
    (fetchPage serve ctx path read query log).2)
  next query t := query.set pageTokenKey t

/-- **`paginate` follows the pager**, when `on_page` merges what it reads into what it has. -/
theorem paginate_eq_collect {onPage : α → Json D → Except Error α} {merge : α → P → α}
    (h : ∀ acc j, onPage acc j = (read j).map (merge acc)) (fuel : ℕ) (query : QueryBuilder) (acc : α)
    (log : Log) :
    paginate serve ctx path onPage fuel query acc log =
      (pager serve ctx path read).collect merge fuel query acc log := by
  induction fuel generalizing query acc log with
  | zero => rfl
  | succ fuel ih =>
    have hfetch : (pager serve ctx path read).fetch query log =
      ((fetchPage serve ctx path read query log).1.map Page.named,
        (fetchPage serve ctx path read query log).2) := rfl
    rw [paginate, Pager.collect, hfetch, fetchPage]
    rcases ctx.get serve path query log with ⟨e | j, log'⟩
    · rfl
    · dsimp only
      rw [h, pageTokenOf]
      rcases read j with e | content
      · rfl
      · generalize j.member? nextPageTokenKey = next
        rcases next with - | v
        · rfl
        · cases v with
          | str token =>
            dsimp only [Json.getString, Except.map, liftJson, Page.of, Page.named]
            split
            case isTrue hempty =>
              rw [hempty]
              rfl
            case isFalse hne =>
              rw [tokenOf, dif_pos hne]
              exact ih _ _ _
          | _ => rfl

/-- A caller's loop over a page method: merge what the pages hold, and put the token of each into the next
query, until it is empty. -/
def loopPages (B : PagedQuery Q) (getPage : Q → Log → Except Error (Page P) × Log) (merge : α → P → α) :
    ℕ → Q → α → Log → Option (Except Error α × Log)
  | 0, _, _, _ => none
  | fuel + 1, query, acc, log =>
    match getPage query log with
    | (.error e, log) => some (.error e, log)
    | (.ok page, log) =>
      if page.nextPageToken = [] then some (.ok (merge acc page.content), log)
      else loopPages B getPage merge fuel (B.withPageToken query page.nextPageToken)
        (merge acc page.content) log

/-- The pages of `path`, by queries. -/
def queryPager (B : PagedQuery Q) : Pager Q Log Error P Token where
  fetch query := (pager serve ctx path read).fetch (B.build query)
  next query t := B.withPageToken query t

/-- **A caller's loop follows the pager of queries.** -/
theorem loopPages_eq_collect {B : PagedQuery Q} {getPage : Q → Log → Except Error (Page P) × Log}
    (h : ∀ query log, getPage query log = fetchPage serve ctx path read (B.build query) log)
    (merge : α → P → α) (fuel : ℕ) (query : Q) (acc : α) (log : Log) :
    loopPages B getPage merge fuel query acc log =
      (queryPager serve ctx path read B).collect merge fuel query acc log := by
  induction fuel generalizing query acc log with
  | zero => rfl
  | succ fuel ih =>
    have hfetch : (queryPager serve ctx path read B).fetch query log =
      ((fetchPage serve ctx path read (B.build query) log).1.map Page.named,
        (fetchPage serve ctx path read (B.build query) log).2) := rfl
    rw [loopPages, Pager.collect, hfetch, h]
    rcases fetchPage serve ctx path read (B.build query) log with ⟨e | ⟨content, token⟩, log'⟩
    · rfl
    · dsimp only [Except.map, Page.named]
      split
      case isTrue hempty =>
        rw [hempty]
        rfl
      case isFalse hne =>
        rw [tokenOf, dif_pos hne]
        exact ih _ _ _

end Fetching

/-! ### Reading a page

The page methods read their page with the macros of a model, `paginate` parses the body and looks for the
token itself. For the comparison both are brought into one form, a body and what is wanted of it. -/

section Reading

/-- `from_json` of a page: a line for what it holds, and one for its token. -/
def Page.ofLines (content : Reader D (Page P)) : Reader D (Page P) :=
  fromLines [content, readToken nextPageTokenKey fun p x ↦ { p with nextPageToken := x }]

/-- The token of a page, as its `from_json` reads it: null and no token at all are both empty. -/
theorem liftJson_readToken (j : Json D) (content : P) :
    liftJson (readToken nextPageTokenKey (fun (p : Page P) x ↦ { p with nextPageToken := x }) j ⟨content, []⟩) =
      (pageTokenOf j).map (Page.mk content) := by
  rw [readToken, pageTokenOf]
  rcases j.member? nextPageTokenKey with - | v
  · rfl
  · cases v <;> rfl

/-- Both lines throw what the parts throw, in order. -/
theorem liftJson_ofLines {j : Json D} {line : Reader D (Page P)} {default : P} {content : Except Error P}
    (h : liftJson (line j ⟨default, []⟩) = content.map fun c ↦ ⟨c, []⟩) :
    liftJson (Page.ofLines line j ⟨default, []⟩) = Page.of content (pageTokenOf j) := by
  rw [Page.ofLines, fromLines, List.foldlM_cons]
  rcases hline : line j ⟨default, []⟩ with what | page
  · rw [hline] at h
    rcases content with e | c
    · obtain rfl := Except.error.inj h
      rfl
    · exact absurd h (by simp [liftJson, Except.map])
  · rw [hline] at h
    rcases content with e | c
    · exact absurd h (by simp [liftJson, Except.map])
    · obtain rfl : page = ⟨c, []⟩ := Except.ok.inj h
      refine (congrArg liftJson (fromLines_singleton _ j _)).trans ((liftJson_readToken j c).trans ?_)
      rcases pageTokenOf j with e | token <;> rfl

/-- **A page method returns what the pager fetches**: what `content` reads in an object is what `read` makes
of it, and of anything else both make the default. -/
theorem readAnswer_eq_fetchPage (serve : ℕ → Request → Response) (ctx : RequestContext D) (path : Bytes)
    {line : Reader D (Page P)} {default : P} {read : Json D → Except Error P}
    (hobj : ∀ members, liftJson (line (.obj members) ⟨default, []⟩) =
      (read (.obj members)).map fun c ↦ ⟨c, []⟩)
    (hother : ∀ j, j.isObject = false → read j = .ok default) (query : QueryBuilder) (log : Log) :
    readAnswer (Json.toModel (Page.ofLines line) ⟨default, []⟩) (ctx.get serve path query log) =
      fetchPage serve ctx path read query log := by
  rw [fetchPage]
  rcases ctx.get serve path query log with ⟨e | j, log'⟩
  · rfl
  · refine congrArg (·, log') ?_
    cases j with
    | obj members => exact liftJson_ofLines (hobj members)
    | _ =>
      rw [hother _ rfl]
      rfl

end Reading

/-! ### What the answers hold

The log of a call has everything that went over the wire. Only the successes in it carry data, and they
are the pages in order, because `paginate` asks for the next page when the one before has been merged. -/

/-- The body of a success. -/
def Response.body? (r : Response) : Option Bytes := if r.isOk then some r.resultText else none

/-- The bodies of the successes of a log, oldest first. -/
def Log.bodies (log : Log) : List Bytes := log.exchanges.filterMap fun x ↦ x.2.body?

/-- The page a body is read as. -/
def pageOf (ctx : RequestContext D) (read : Json D → Except Error P) (text : Bytes) : Except Error (Page P) :=
  match parseBody ctx.json text with
  | .error e => .error e
  | .ok j => Page.of (read j) (pageTokenOf j)

section Answers

variable {serve : ℕ → Request → Response} {ctx : RequestContext D} {path : Bytes}
  {read : Json D → Except Error P}

variable (serve ctx path) in
/-- **One call of `get` is one success**, whose body it parses, or none and an `api_error`. -/
theorem get_bodies (query : QueryBuilder) (log : Log) :
    ((ctx.get serve path query log).2.bodies = log.bodies ∧
      ∃ status code message body, (ctx.get serve path query log).1 = .error (.api status code message body)) ∨
    ∃ text, (ctx.get serve path query log).2.bodies = log.bodies ++ [text] ∧
      (ctx.get serve path query log).1 = parseBody ctx.json text := by
  obtain ⟨failed, last, h⟩ := ctx.attemptLoop_spec serve (ctx.request .get path query none) 0 log
  have hbodies : (ctx.attemptLoop serve (ctx.request .get path query none) 0 log).2.bodies =
      log.bodies ++ if last.isOk then [last.resultText] else [] := by
    -- the answers in front of the last one are failures, and have no body that counts
    have hfailed : failed.filterMap Response.body? = [] :=
      List.filterMap_eq_nil_iff.2 fun r hr ↦ by rw [Response.body?, (h.retried r hr).1]; rfl
    have hlast : [last].filterMap Response.body? = if last.isOk then [last.resultText] else [] := by
      rw [List.filterMap_cons, Response.body?, List.filterMap_nil]
      split <;> simp_all
    rw [Log.bodies, h.exchanges_eq, List.filterMap_append, List.filterMap_map]
    refine congrArg (log.bodies ++ ·) ?_
    exact (List.filterMap_append (f := Response.body?)).trans (by rw [hfailed, hlast, List.nil_append])
  have hresult := h.result_eq
  rw [RequestContext.get, RequestContext.execute, RequestContext.executeRaw]
  generalize ctx.attemptLoop serve (ctx.request .get path query none) 0 log = out at hbodies hresult
  obtain ⟨result, log'⟩ := out
  dsimp only at hresult
  split at hresult
  case isTrue hok =>
    subst hresult
    rw [if_pos hok] at hbodies
    exact Or.inr ⟨last.resultText, hbodies, rfl⟩
  case isFalse hok =>
    subst hresult
    rw [if_neg hok, List.append_nil] at hbodies
    exact Or.inl ⟨hbodies, _, _, _, _, rfl⟩

variable (serve path) in
/-- **One page is one success**, which decides about it, or none and an `api_error`. -/
theorem fetchPage_bodies (query : QueryBuilder) (log : Log) :
    ((fetchPage serve ctx path read query log).2.bodies = log.bodies ∧
      ∃ status code message body,
        (fetchPage serve ctx path read query log).1 = .error (.api status code message body)) ∨
    ∃ text, (fetchPage serve ctx path read query log).2.bodies = log.bodies ++ [text] ∧
      (fetchPage serve ctx path read query log).1 = pageOf ctx read text := by
  have hget := get_bodies serve ctx path query log
  rw [fetchPage]
  generalize ctx.get serve path query log = r at hget ⊢
  obtain ⟨out, log'⟩ := r
  dsimp only at hget
  obtain ⟨hbodies, status, code, message, body, rfl⟩ | ⟨text, hbodies, rfl⟩ := hget
  · exact Or.inl ⟨hbodies, _, _, _, _, rfl⟩
  · refine Or.inr ⟨text, ?_⟩
    rw [pageOf]
    rcases parseBody ctx.json text with e | j <;> exact ⟨hbodies, rfl⟩

/-- What is read from the successes of a walk. -/
structure Reads (ctx : RequestContext D) (read : Json D → Except Error P) (texts : List Bytes) (pages : List P)
    (ended : Option Error) : Prop where
  /-- Without an exception, every success holds the page in its place. -/
  pages (h : ended = none) :
    List.Forall₂ (fun text page ↦ ∃ token, pageOf ctx read text = .ok ⟨page, token⟩) texts pages
  /-- An exception of the JSON library comes from a success, and out of every success that throws one. -/
  thrown : (∀ what, ended ≠ some (.json what)) ↔ ∀ text ∈ texts, Mapped (pageOf ctx read text)

/-- One more body, and the page it holds. -/
theorem Reads.cons {text : Bytes} {texts : List Bytes} {page : Page P} {pages : List P} {ended : Option Error}
    (h : Reads ctx read texts pages ended) (hpage : pageOf ctx read text = .ok page) :
    Reads ctx read (text :: texts) (page.content :: pages) ended where
  pages hended := .cons ⟨page.nextPageToken, hpage⟩ (h.pages hended)
  thrown := by
    rw [h.thrown, List.forall_mem_cons, hpage]
    exact (and_iff_right fun what h ↦ absurd h (by simp)).symm

/-- **The successes of a walk decide about it.** -/
theorem exists_reads_of_walk {query : QueryBuilder} {log log' : Log} {pages : List P} {ended : Option Error}
    (h : (pager serve ctx path read).Walk query log pages ended log') :
    ∃ texts, log'.bodies = log.bodies ++ texts ∧ Reads ctx read texts pages ended := by
  have hone : ∀ {query : QueryBuilder} {log log' : Log} {r : Except Error (P × Option Token)},
      (pager serve ctx path read).fetch query log = (r, log') →
        (fetchPage serve ctx path read query log).1.map Page.named = r ∧
          (fetchPage serve ctx path read query log).2 = log' := fun h ↦ Prod.mk.inj h
  have hempty : Reads ctx read [] [] (none : Option Error) := ⟨fun _ ↦ .nil, by simp⟩
  have hpage : ∀ {query : QueryBuilder} {log log' : Log} {x : P × Option Token},
      (pager serve ctx path read).fetch query log = (.ok x, log') →
        ∃ text page, log'.bodies = log.bodies ++ [text] ∧ pageOf ctx read text = .ok page ∧ x.1 = page.content := by
    intro query log log' x hfetch
    obtain ⟨hr, rfl⟩ := hone hfetch
    rcases fetchPage_bodies serve path query log with ⟨-, _, _, _, _, he⟩ | ⟨text, ht, hp⟩
    · rw [he] at hr
      exact absurd hr (by simp [Except.map])
    · rw [hp] at hr
      rcases hof : pageOf ctx read text with e | page
      · rw [hof] at hr
        exact absurd hr (by simp [Except.map])
      · rw [hof] at hr
        exact ⟨text, page, ht, hof, (congrArg Prod.fst (Except.ok.inj hr)).symm⟩
  induction h with
  | last hfetch =>
    obtain ⟨text, page, ht, hof, rfl⟩ := hpage hfetch
    exact ⟨[text], ht, hempty.cons hof⟩
  | next hfetch _ ih =>
    obtain ⟨text, page, ht, hof, rfl⟩ := hpage hfetch
    obtain ⟨texts, hts, hreads⟩ := ih
    exact ⟨text :: texts, by rw [hts, ht, List.append_assoc]; rfl, hreads.cons hof⟩
  -- the walk ends with an exception: of a request with no success, or of the page it got
  | @thrown query log log' e hfetch =>
    obtain ⟨hr, rfl⟩ := hone hfetch
    rcases fetchPage_bodies serve path query log with ⟨hb, _, _, _, _, he⟩ | ⟨text, ht, hp⟩
    · rw [he] at hr
      obtain rfl := Except.error.inj hr
      exact ⟨[], by rw [hb, List.append_nil], fun h ↦ absurd h (by simp), by simp⟩
    · rw [hp] at hr
      refine ⟨[text], ht, fun h ↦ absurd h (by simp), ?_⟩
      rcases hof : pageOf ctx read text with e' | page
      · rw [hof] at hr
        obtain rfl := Except.error.inj hr
        simp [hof, Mapped]
      · rw [hof] at hr
        exact absurd hr (by simp [Except.map])

/-- A listing that has ended. Of the answers that have come in between, the successes are all that matters:
they hold the items, page by page and in order, and the JSON library throws exactly when one of them has a
token that is no string, or cannot be read. -/
structure ListedFrom (ctx : RequestContext D) (read : Json D → Except Error (List P)) (readable : Json D → Prop)
    (log log' : Log) (out : Except Error (List P)) (texts : List Bytes) : Prop where
  bodies : log'.bodies = log.bodies ++ texts
  items (items : List P) (h : out = .ok items) : ∃ pages, items = List.flatten pages ∧
    List.Forall₂ (fun text page ↦ ∃ token, pageOf ctx read text = .ok ⟨page, token⟩) texts pages
  mapped : Mapped out ↔ ∀ text ∈ texts, ∀ j, parseBody ctx.json text = .ok j →
    j.Dated nextPageTokenKey ∧ readable j

/-- The token can be read unless it is neither null nor a string. -/
theorem exists_pageTokenOf_eq (j : Json D) :
    ∃ r, pageTokenOf j = liftJson r ∧ ((∃ token, r = .ok token) ↔ j.Dated nextPageTokenKey) := by
  rw [pageTokenOf]
  rcases hv : j.member? nextPageTokenKey with - | v
  · exact ⟨.ok [], rfl, iff_of_true ⟨[], rfl⟩ fun v hv' ↦ absurd (hv.symm.trans hv') (by simp)⟩
  · rw [show j.Dated nextPageTokenKey ↔ v.isNull = true ∨ v.isString = true from Json.under_of_some hv]
    cases v with
    | null => exact ⟨.ok [], rfl, by simp [Json.isNull]⟩
    | _ => exact ⟨_, rfl, by simp [Json.getString, Json.isNull, Json.isString]⟩

/-- A page can be read when its parts can. -/
theorem mapped_pageOf_iff {text : Bytes} {j : Json D} {p : Prop} {r : Except Bytes P}
    (hparse : parseBody ctx.json text = .ok j) (hr : read j = liftJson r) (hp : (∃ x, r = .ok x) ↔ p) :
    Mapped (pageOf ctx read text) ↔ j.Dated nextPageTokenKey ∧ p := by
  obtain ⟨token, htoken, hdated⟩ := exists_pageTokenOf_eq j
  rw [pageOf, hparse, ← hp, ← hdated]
  dsimp only
  rw [hr, htoken]
  rcases r with what | x
  · exact iff_of_false (fun h ↦ h what rfl) (by simp)
  · rcases token with what | t
    · exact iff_of_false (fun h ↦ h what rfl) (by simp)
    · exact iff_of_true (fun what h ↦ absurd h (by simp [liftJson, Page.of])) ⟨⟨t, rfl⟩, x, rfl⟩

/-- What a body holds under a key can be printed. -/
theorem printsAll_of_parseBody {lib : JsonLibrary D} (hlib : lib.ParsedPrints) {text key : Bytes} {j v : Json D}
    (h : parseBody lib text = .ok j) (hv : j.member? key = some v) : lib.PrintsAll v := by
  rw [parseBody] at h
  split at h
  · obtain rfl := Except.ok.inj h
    exact absurd hv (by simp [Json.member?])
  · split at h
    case h_1 j' hparse =>
      obtain rfl := Except.ok.inj h
      exact (JsonLibrary.PrintsAll.of_parse hlib hparse).of_member? hv
    case h_2 => exact absurd h (by simp)

/-- A body that is read as a page is JSON that holds its content. -/
theorem exists_of_pageOf_eq_ok {text : Bytes} {page : Page P} (h : pageOf ctx read text = .ok page) :
    ∃ j, parseBody ctx.json text = .ok j ∧ read j = .ok page.content := by
  rw [pageOf] at h
  rcases hparse : parseBody ctx.json text with e | j
  · rw [hparse] at h
    exact absurd h (by simp)
  · rw [hparse] at h
    dsimp only at h
    refine ⟨j, rfl, ?_⟩
    rcases hcontent : read j with e | content
    · rw [hcontent] at h
      exact absurd h (by simp [Page.of])
    · rw [hcontent] at h
      rcases htoken : pageTokenOf j with e | token
      · rw [htoken] at h
        exact absurd h (by simp [Page.of])
      · rw [htoken] at h
        rw [← Except.ok.inj h]

/-- What a body that is no JSON throws is a `parse_error`. -/
theorem mapped_pageOf_of_error {text : Bytes} {e : Error} (h : parseBody ctx.json text = .error e) :
    Mapped (pageOf ctx read text) := by
  rw [pageOf, h]
  rw [parseBody] at h
  split at h
  · exact absurd h (by simp)
  · split at h
    · exact absurd h (by simp)
    · obtain rfl := Except.error.inj h
      exact fun what h ↦ absurd h (by simp)

/-- **What `paginate` returns is what the successes hold**, merged in order, and it lets an exception of the
JSON library through exactly when one of them cannot be read. -/
theorem paginate_of_answers {onPage : α → Json D → Except Error α} {merge : α → P → α} {readable : Json D → Prop}
    (hread : ∀ acc j, onPage acc j = (read j).map (merge acc))
    (hreadable : ∀ text j, parseBody ctx.json text = .ok j →
      ∃ r, read j = liftJson r ∧ ((∃ x, r = .ok x) ↔ readable j))
    {fuel : ℕ} {query : QueryBuilder} {acc : α} {log log' : Log} {out : Except Error α}
    (h : paginate serve ctx path onPage fuel query acc log = some (out, log')) :
    ∃ texts pages, log'.bodies = log.bodies ++ texts ∧
      (∀ a, out = .ok a → a = pages.foldl merge acc ∧
        List.Forall₂ (fun text page ↦ ∃ token, pageOf ctx read text = .ok ⟨page, token⟩) texts pages) ∧
      (Mapped out ↔ ∀ text ∈ texts, ∀ j, parseBody ctx.json text = .ok j →
        j.Dated nextPageTokenKey ∧ readable j) := by
  rw [paginate_eq_collect serve ctx path read hread] at h
  obtain ⟨pages, ended, hwalk, rfl⟩ := Pager.exists_walk_of_collect h
  obtain ⟨texts, htexts, hreads⟩ := exists_reads_of_walk hwalk
  refine ⟨texts, pages, htexts, fun a ha ↦ ?_, ?_⟩
  · rcases ended with - | e
    · exact ⟨(Except.ok.inj ha).symm, hreads.pages rfl⟩
    · exact absurd ha (by simp [Pager.outcome])
  · have hout : Mapped (Pager.outcome merge acc pages ended) ↔ ∀ what, ended ≠ some (.json what) := by
      rcases ended with - | e <;> simp [Mapped, Pager.outcome]
    rw [hout, hreads.thrown]
    refine forall₂_congr fun text _ ↦ ?_
    rcases hparse : parseBody ctx.json text with e | j
    · exact iff_of_true (mapped_pageOf_of_error hparse) (by simp)
    · obtain ⟨r, hr, hp⟩ := hreadable text j hparse
      rw [mapped_pageOf_iff hparse hr hp]
      simp

/-- **Every method that puts the items of its pages one behind the other.** -/
theorem exists_listedFrom {read : Json D → Except Error (List P)} {readable : Json D → Prop}
    {onPage : List P → Json D → Except Error (List P)}
    (hread : ∀ items j, onPage items j = (read j).map (items ++ ·))
    (hreadable : ∀ text j, parseBody ctx.json text = .ok j →
      ∃ r, read j = liftJson r ∧ ((∃ x, r = .ok x) ↔ readable j))
    {fuel : ℕ} {query : QueryBuilder} {log log' : Log} {out : Except Error (List P)}
    (h : paginate serve ctx path onPage fuel query [] log = some (out, log')) :
    ∃ texts, ListedFrom ctx read readable log log' out texts := by
  obtain ⟨texts, pages, htexts, hok, hmapped⟩ := paginate_of_answers hread hreadable h
  have hfold : ∀ (pages : List (List P)) acc, pages.foldl (· ++ ·) acc = acc ++ pages.flatten := by
    intro pages
    induction pages with
    | nil => exact fun acc ↦ (List.append_nil acc).symm
    | cons page pages ih =>
      intro acc
      rw [List.foldl_cons, ih, List.flatten_cons, List.append_assoc]
  refine ⟨texts, htexts, fun items hitems ↦ ?_, hmapped⟩
  obtain ⟨rfl, hpages⟩ := hok items hitems
  exact ⟨pages, hfold pages [], hpages⟩

end Answers

/-! ### The token at the end

The parameters of the two walks are equal as lists at every page, and with them the requests. So the whole
logs agree, retries and notices of the limiter included. -/

section Loops

variable {serve : ℕ → Request → Response} {ctx : RequestContext D} {path : Bytes}
  {read : Json D → Except Error P} {B : PagedQuery Q} {getPage : Q → Log → Except Error (Page P) × Log}
  {onPage : α → Json D → Except Error α} {merge : α → P → α}

/-- **The two methods do the same against any server** when nothing stands behind the token: the same
requests and waits, and the same result or exception. -/
theorem paginate_eq_loopPages (hread : ∀ acc j, onPage acc j = (read j).map (merge acc))
    (hpage : ∀ query log, getPage query log = fetchPage serve ctx path read (B.build query) log)
    (hback : ∀ query, B.back query = {}) (fuel : ℕ) (query : Q) (acc : α) (log : Log) :
    paginate serve ctx path onPage fuel (B.build query) acc log =
      loopPages B getPage merge fuel query acc log := by
  rw [paginate_eq_collect serve ctx path read hread, loopPages_eq_collect serve ctx path read hpage]
  exact Pager.collect_eq_of_comp B.build (fun _ _ ↦ rfl)
    (fun query t ↦ (B.build_withPageToken_eq_set query (hback query) t.2).symm) merge fuel query acc
    log

end Loops

/-! ### The token in between

Two requests are alike when they differ in the order of their parameters. A server is `Indifferent` if it
gives alike requests the same answer at the same place in the exchange; its clients cannot tell the two
walks apart, except by the order of what they sent. -/

/-- Events that differ at most in the order of a request's parameters. -/
inductive Event.Alike (ctx : RequestContext D) (path : Bytes) : Event → Event → Prop where
  | same (e : Event) : Alike ctx path e e
  | exchange {q q' : QueryBuilder} (r : Response) : q.params.Perm q'.params →
      Alike ctx path (.exchange (ctx.request .get path q none) r)
        (.exchange (ctx.request .get path q' none) r)

/-- Logs that do, event by event. -/
abbrev Log.Alike (ctx : RequestContext D) (path : Bytes) (log log' : Log) : Prop :=
  List.Forall₂ (Event.Alike ctx path) log log'

/-- A server that does not look at the order of the parameters. -/
def Indifferent (serve : ℕ → Request → Response) (ctx : RequestContext D) (path : Bytes) : Prop :=
  ∀ k (q q' : QueryBuilder), q.params.Perm q'.params →
    serve k (ctx.request .get path q none) = serve k (ctx.request .get path q' none)

section Alike

variable {serve : ℕ → Request → Response} {ctx : RequestContext D} {path : Bytes}

theorem Log.Alike.refl (log : Log) : Log.Alike ctx path log log := List.forall₂_same.2 fun e _ ↦ .same e

/-- As many requests have gone out. -/
theorem Log.Alike.length_requests {log log' : Log} (h : Log.Alike ctx path log log') :
    log.requests.length = log'.requests.length := by
  rw [Log.length_requests, Log.length_requests]
  induction h with
  | nil => rfl
  | @cons e e' log log' he _ ih =>
    have hsplit : ∀ (e : Event) (log : Log), Log.exchanges (e :: log) = Log.exchanges [e] ++ log.exchanges :=
      fun e log ↦ Log.exchanges_append [e] log
    have hone : (Log.exchanges [e]).length = (Log.exchanges [e']).length := by
      cases he with
      | same => rfl
      | exchange => rfl
    rw [hsplit e log, hsplit e' log', List.length_append, List.length_append, hone, ih]

/-- The attempts of two orders of parameters are alike, when their answers are the same. -/
theorem alike_attemptsLog {q q' : QueryBuilder} (hq : q.params.Perm q'.params) (policy : RetryPolicy)
    (answers : ℕ → Response) (attempt N : ℕ) :
    Log.Alike ctx path (RequestContext.attemptsLog policy (ctx.request .get path q none) answers attempt N)
      (RequestContext.attemptsLog policy (ctx.request .get path q' none) answers attempt N) := by
  refine List.rel_flatMap (List.forall₂_same.2 fun _ _ ↦ rfl) ?_
  rintro i - rfl
  refine List.rel_append (Log.Alike.refl _) (.cons (.same _) (.cons (.exchange _ hq) ?_))
  split
  · exact Log.Alike.refl _
  · exact .nil

/-- **A `get` whose parameters come in another order** ends alike. -/
theorem agree_get (hserve : Indifferent serve ctx path) {q q' : QueryBuilder} (hq : q.params.Perm q'.params)
    {log log' : Log} (hlog : Log.Alike ctx path log log') :
    Pager.Agree Eq (Log.Alike ctx path) (ctx.get serve path q log) (ctx.get serve path q' log') := by
  -- the server has had as many requests, and sees the same parameters in them
  have hanswers : RequestContext.answersAfter serve log (ctx.request .get path q none) =
      RequestContext.answersAfter serve log' (ctx.request .get path q' none) := by
    funext i
    rw [RequestContext.answersAfter, RequestContext.answersAfter, hlog.length_requests]
    exact hserve _ q q' hq
  obtain ⟨N, hleast, hrun⟩ := ctx.attemptLoop_log serve (ctx.request .get path q none) 0 log
  obtain ⟨N', hleast', hrun'⟩ := ctx.attemptLoop_log serve (ctx.request .get path q' none) 0 log'
  rw [hanswers] at hleast hrun
  obtain rfl : N = N' := hleast.unique hleast'
  have hlogs := List.rel_append hlog (alike_attemptsLog hq ctx.retry
    (RequestContext.answersAfter serve log' (ctx.request .get path q' none)) 0 N)
  rw [RequestContext.get, RequestContext.execute, RequestContext.executeRaw, RequestContext.get,
    RequestContext.execute, RequestContext.executeRaw]
  rw [hrun, hrun']
  generalize ctx.resultOf _ = result
  rcases result with e | text
  · exact .error hlogs
  · dsimp only
    rcases parseBody ctx.json text with e | j
    · exact .error hlogs
    · exact .ok rfl hlogs

variable {B : PagedQuery Q} {P' α' : Type} {read : Json D → Except Error P}

/-- The pagers of parameters and of queries are similar. -/
theorem similar_pager (hserve : Indifferent serve ctx path) (g : P → P') :
    Pager.Similar (pager serve ctx path read) (queryPager serve ctx path (fun j ↦ (read j).map g) B)
      B.AsksFor (Log.Alike ctx path) (fun x x' ↦ x' = g x) where
  fetch {params query log log'} hasks hlog := by
    have hget := agree_get hserve hasks.perm hlog
    have hfetch : (pager serve ctx path read).fetch params log =
      ((fetchPage serve ctx path read params log).1.map Page.named,
        (fetchPage serve ctx path read params log).2) := rfl
    have hfetch' : (queryPager serve ctx path (fun j ↦ (read j).map g) B).fetch query log' =
      ((fetchPage serve ctx path (fun j ↦ (read j).map g) (B.build query) log').1.map Page.named,
        (fetchPage serve ctx path (fun j ↦ (read j).map g) (B.build query) log').2) := rfl
    rw [hfetch, hfetch', fetchPage, fetchPage]
    generalize ctx.get serve path params log = r at hget
    generalize ctx.get serve path (B.build query) log' = r' at hget
    -- the answer is the same or the exception is; both sides then read the same page
    rcases hget with ⟨rfl, hlogs⟩ | hlogs
    case error => exact .error hlogs
    case ok j _ _ =>
      dsimp only
      rcases read j with e | content
      · exact .error hlogs
      · rcases pageTokenOf j with e | token
        · exact .error hlogs
        · exact .ok ⟨rfl, rfl⟩ hlogs
  next t hasks := hasks.next t.2

/-- **Against an indifferent server the two methods agree**: as many requests with the same parameters up
to order, the same waits, and related results or the same exception. -/
theorem paginate_agree_loopPages (hserve : Indifferent serve ctx path) (g : P → P')
    {onPage : α → Json D → Except Error α} {merge : α → P → α} {merge' : α' → P' → α'}
    (hread : ∀ acc j, onPage acc j = (read j).map (merge acc))
    {getPage : Q → Log → Except Error (Page P') × Log}
    (hpage : ∀ query log, getPage query log =
      fetchPage serve ctx path (fun j ↦ (read j).map g) (B.build query) log)
    {A : α → α' → Prop} (hmerge : ∀ {acc acc'} x, A acc acc' → A (merge acc x) (merge' acc' (g x)))
    (fuel : ℕ) (query : Q) {acc : α} {acc' : α'} (ha : A acc acc') (log : Log) :
    Option.Rel (Pager.Agree A (Log.Alike ctx path))
      (paginate serve ctx path onPage fuel (B.build query) acc log)
      (loopPages B getPage merge' fuel query acc' log) := by
  rw [paginate_eq_collect serve ctx path read hread, loopPages_eq_collect serve ctx path _ hpage]
  exact (similar_pager hserve g).collect (fun ha hx ↦ hx ▸ hmerge _ ha) fuel (B.asksFor_build query)
    ha (.refl log)

end Alike

/-! ### Two pages behind a failure

A server for the witnesses of several modules: it fails once with a 503, then serves one page with a token
and one without. -/

/-- A server that is unavailable at first, and then has the pages `x` and `y`. -/
def twoPageServer (k : ℕ) (_ : Request) : Response :=
  if k = 0 then { isOk := false, resultCode := 503 }
  else { isOk := true, resultCode := 200, resultText := if k = 1 then bytes "x" else bytes "y" }

/-- How `twoPageServer` is read: `x` has a token, `y` has none. -/
structure TwoPages (ctx : RequestContext D) (first last : Json D) (token : Bytes) : Prop where
  retries : 1 < ctx.retry.maxAttempts.toNat
  first_eq : parseBody ctx.json (bytes "x") = .ok first
  last_eq : parseBody ctx.json (bytes "y") = .ok last
  first_token : first.member? nextPageTokenKey = some (.str token)
  last_token : last.member? nextPageTokenKey = some .null
  token_ne_nil : token ≠ []

namespace TwoPages

variable {ctx : RequestContext D} {first last : Json D} {token path : Bytes}

/-- The first page comes at the second attempt. -/
theorem get_first (h : TwoPages ctx first last token) (path : Bytes) (query : QueryBuilder) :
    ∃ log, log.requests = [ctx.request .get path query none, ctx.request .get path query none] ∧
      ctx.get twoPageServer path query [] = (.ok first, log) :=
  @RequestContext.get_of_second_answer D twoPageServer ctx path query [] first rfl
    (by simp [twoPageServer, isRetryableStatus, Log.requests, Log.exchanges]) h.retries rfl h.first_eq

/-- The last page comes at once. -/
theorem get_last (h : TwoPages ctx first last token) (path : Bytes) (query : QueryBuilder) {log : Log}
    (hlog : log.requests.length = 2) :
    ∃ log', log'.requests = log.requests ++ [ctx.request .get path query none] ∧
      ctx.get twoPageServer path query log = (.ok last, log') := by
  have hanswer : twoPageServer log.requests.length (ctx.request .get path query none) =
      { isOk := true, resultCode := 200, resultText := bytes "y" } := by rw [hlog]; rfl
  refine ⟨_, ?_, RequestContext.get_of_answer twoPageServer (by rw [hanswer]) (by rw [hanswer]; exact h.last_eq)⟩
  rw [Log.requests, Log.exchanges_append, List.map_append, ← Log.requests]
  rfl

/-- `paginate` sets the token in the parameters it has. -/
theorem paginate_eq (h : TwoPages ctx first last token) (onPage : α → Json D → Except Error α) {a b c : α}
    (hfirst : onPage a first = .ok b) (hlast : onPage b last = .ok c) (path : Bytes) (query : QueryBuilder) :
    ∃ log, paginate twoPageServer ctx path onPage 2 query a [] = some (.ok c, log) ∧
      log.requests = [ctx.request .get path query none, ctx.request .get path query none,
        ctx.request .get path (query.set pageTokenKey token) none] := by
  obtain ⟨log, hlog, hget⟩ := h.get_first path query
  obtain ⟨log', hlog', hget'⟩ := h.get_last path (query.set pageTokenKey token) (congrArg List.length hlog)
  refine ⟨log', ?_, hlog'.trans (by rw [hlog]; rfl)⟩
  rw [paginate, hget]
  simp only [hfirst, h.first_token, Json.getString, h.token_ne_nil, if_false]
  rw [paginate, hget']
  simp only [hlast, h.last_token]

/-- A loop over the page method builds them anew. -/
theorem loopPages_eq (h : TwoPages ctx first last token) {B : PagedQuery Q}
    {getPage : Q → Log → Except Error (Page P) × Log} (read : Json D → Except Error P)
    (hpage : ∀ query log, getPage query log = fetchPage twoPageServer ctx path read (B.build query) log)
    {p q : P} (hfirst : read first = .ok p) (hlast : read last = .ok q) (merge : α → P → α) (query : Q) (a : α) :
    ∃ log, loopPages B getPage merge 2 query a [] = some (.ok (merge (merge a p) q), log) ∧
      log.requests = [ctx.request .get path (B.build query) none, ctx.request .get path (B.build query) none,
        ctx.request .get path (B.build (B.withPageToken query token)) none] := by
  obtain ⟨log, hlog, hget⟩ := h.get_first path (B.build query)
  obtain ⟨log', hlog', hget'⟩ := h.get_last path (B.build (B.withPageToken query token))
    (congrArg List.length hlog)
  refine ⟨log', ?_, hlog'.trans (by rw [hlog]; rfl)⟩
  have htoken : pageTokenOf first = .ok token := by rw [pageTokenOf, h.first_token]; rfl
  have hnone : pageTokenOf last = .ok [] := by rw [pageTokenOf, h.last_token]
  rw [loopPages, hpage, fetchPage, hget]
  simp only [hfirst, htoken, Page.of, h.token_ne_nil, if_false]
  rw [loopPages, hpage, fetchPage, hget']
  simp only [hlast, hnone, Page.of, if_true]

end TwoPages

end Alpaca
