import AlpacaCpp.Core.Extraction
import AlpacaCpp.Http.Retry
import AlpacaCpp.Trading.Orders

/-!
# Reading orders

`order` and its `from_json`, and the three calls of `trading_client` that read it. Nothing between
`from_json` and the caller catches: what a line throws leaves the call.

`Misdated` says where a line throws: at a timestamp that is neither null nor a string, in an order or
in a leg of an order at any depth. **A call lets an exception of the JSON library through exactly when**
the answer it ends with is a success whose body holds such an order, or, for `submit_order`, when the
request cannot be printed (`TradingClient.mapped_iff`).

The legs of an order are orders, and the code reads them in its own `from_json`. Here this is a mutual
recursion on the document, over its members, its values and its elements, because that is what gets
smaller; one lemma each says when it returns, and `fromJson_iff` is the one about an order. Of the other
lines only those of the timestamps can throw; they stand in the middle (`linesBefore`, `timestampFields`,
`linesBehind`), in the order of the source.

The lines that log print the object they look at, which a library can refuse. What a library has parsed it
prints (`JsonLibrary.ParsedPrints`), in every part (`AllPrint`), so that for an answer only the timestamps
are left. `Answered` says that a call ends with a success, and with which body. A call that ends with a
failure throws an `api_error`, which callers are told of.

Null is a date that is not set, and a missing member is none either. A string is always read, as 0 if need
be; anything else throws, a number of seconds included.
-/

namespace Alpaca

/-- `order` -/
structure Order (D : Type) where
  id : Bytes := []
  clientOrderId : Bytes := []
  symbol : Bytes := []
  assetId : Bytes := []
  assetClass : AssetClass := .unknown
  side : OrderSide := .unknown
  type : OrderType := .unknown
  orderClass : OrderClass := .unknown
  timeInForce : TimeInForce := .unknown
  status : OrderStatus := .unknown
  positionIntent : PositionIntent := .unknown
  qty : Option D := none
  notional : Option D := none
  filledQty : D
  filledAvgPrice : Option D := none
  limitPrice : Option D := none
  stopPrice : Option D := none
  trailPrice : Option D := none
  trailPercent : Option D := none
  hwm : Option D := none
  ratioQty : Option D := none
  extendedHours : Bool := false
  createdAt : ℕ := 0
  updatedAt : ℕ := 0
  submittedAt : ℕ := 0
  filledAt : ℕ := 0
  expiredAt : ℕ := 0
  canceledAt : ℕ := 0
  failedAt : ℕ := 0
  replacedAt : ℕ := 0
  expiresAt : ℕ := 0
  replacedBy : Bytes := []
  replaces : Bytes := []
  subtag : Bytes := []
  source : Bytes := []
  /-- Child orders, or the legs of a multi-leg order. -/
  legs : List (Order D) := []

namespace Order

variable {D : Type}

/-- A default-constructed `order`. -/
def empty [DoubleCasts D] : Order D where
  filledQty := DoubleCasts.zero

/-- The fields `TIMESTAMP_FROM_JSON` reads, with their keys. -/
def timestampFields : List (Bytes × (Order D → ℕ → Order D)) := [
  (bytes "created_at", fun o t ↦ { o with createdAt := t }),
  (bytes "updated_at", fun o t ↦ { o with updatedAt := t }),
  (bytes "submitted_at", fun o t ↦ { o with submittedAt := t }),
  (bytes "filled_at", fun o t ↦ { o with filledAt := t }),
  (bytes "expired_at", fun o t ↦ { o with expiredAt := t }),
  (bytes "canceled_at", fun o t ↦ { o with canceledAt := t }),
  (bytes "failed_at", fun o t ↦ { o with failedAt := t }),
  (bytes "replaced_at", fun o t ↦ { o with replacedAt := t }),
  (bytes "expires_at", fun o t ↦ { o with expiresAt := t })]

/-- The keys of these fields. -/
def timestampKeys : List Bytes := (timestampFields (D := D)).map Prod.fst

section FromJson

variable [Doubles D] (lib : JsonLibrary D)

/-- The lines of `from_json` in front of the timestamps. -/
def linesBefore : List (Reader D (Order D)) := [
  readVariable lib (bytes "id") Json.getString fun o x ↦ { o with id := x },
  readVariable lib (bytes "client_order_id") Json.getString fun o x ↦ { o with clientOrderId := x },
  readVariable lib (bytes "symbol") Json.getString fun o x ↦ { o with symbol := x },
  readVariable lib (bytes "asset_id") Json.getString fun o x ↦ { o with assetId := x },
  readEnum lib (bytes "asset_class") toAssetClass fun o x ↦ { o with assetClass := x },
  readEnum lib (bytes "side") toOrderSide fun o x ↦ { o with side := x },
  readEnum lib (bytes "type") toOrderType fun o x ↦ { o with type := x },
  readEnum lib (bytes "order_class") toOrderClass fun o x ↦ { o with orderClass := x },
  readEnum lib (bytes "time_in_force") toTimeInForce fun o x ↦ { o with timeInForce := x },
  readEnum lib (bytes "status") toOrderStatus fun o x ↦ { o with status := x },
  readEnum lib (bytes "position_intent") toPositionIntent fun o x ↦ { o with positionIntent := x },
  readOptionalDouble lib (bytes "qty") fun o x ↦ { o with qty := x },
  readOptionalDouble lib (bytes "notional") fun o x ↦ { o with notional := x },
  readDouble lib (bytes "filled_qty") fun o x ↦ { o with filledQty := x },
  readOptionalDouble lib (bytes "filled_avg_price") fun o x ↦ { o with filledAvgPrice := x },
  readOptionalDouble lib (bytes "limit_price") fun o x ↦ { o with limitPrice := x },
  readOptionalDouble lib (bytes "stop_price") fun o x ↦ { o with stopPrice := x },
  readOptionalDouble lib (bytes "trail_price") fun o x ↦ { o with trailPrice := x },
  readOptionalDouble lib (bytes "trail_percent") fun o x ↦ { o with trailPercent := x },
  readOptionalDouble lib (bytes "hwm") fun o x ↦ { o with hwm := x },
  readOptionalDouble lib (bytes "ratio_qty") fun o x ↦ { o with ratioQty := x },
  readBool (bytes "extended_hours") fun o x ↦ { o with extendedHours := x }]

/-- The lines behind the timestamps. -/
def linesBehind : List (Reader D (Order D)) := [
  readVariable lib (bytes "replaced_by") Json.getString fun o x ↦ { o with replacedBy := x },
  readVariable lib (bytes "replaces") Json.getString fun o x ↦ { o with replaces := x },
  readVariable lib (bytes "subtag") Json.getString fun o x ↦ { o with subtag := x },
  readVariable lib (bytes "source") Json.getString fun o x ↦ { o with source := x }]

/-- All lines of `from_json`. -/
def lines : List (Reader D (Order D)) :=
  linesBefore lib ++ timestampFields.map (fun f ↦ readTimestamp f.1 f.2) ++ linesBehind lib

mutual

/-- `from_json` -/
def fromJson : Json D → Order D → Except Bytes (Order D)
  | .obj members, o => do
    let o ← fromLines (lines lib) (.obj members) o
    match ← legsIn members with
    | some legs => return { o with legs := legs }
    | none => return o
  | j, o => fromLines (lines lib) j o

/-- The legs among the members of an object. -/
def legsIn : List (Bytes × Json D) → Except Bytes (Option (List (Order D)))
  | [] => .ok none
  | (key, v) :: members => if key = bytes "legs" then legsOf v else legsIn members

/-- The legs of the value under `legs`, when that is an array. -/
def legsOf : Json D → Except Bytes (Option (List (Order D)))
  | .arr elems => do return some (← readLegs elems)
  | _ => .ok none

/-- The loop over the legs. -/
def readLegs : List (Json D) → Except Bytes (List (Order D))
  | [] => .ok []
  | legJson :: rest => do
    let leg ← fromJson legJson empty
    return leg :: (← readLegs rest)

end

/-! ### What throws

`Misdated` is inductive because the legs are: an order is misdated at a timestamp of its own, or in a leg.
Being on the document, it does not mention the model, and so it can be asked of an answer before anything
is read. -/

omit [Doubles D] in
/-- An order, or a leg of one at any depth, holds a timestamp that is neither null nor a string. -/
inductive Misdated : Json D → Prop where
  | timestamp {j : Json D} {key : Bytes} :
      key ∈ timestampKeys (D := D) → ¬j.Dated key → Misdated j
  | leg {j legJson : Json D} {elems : List (Json D)} :
      j.member? (bytes "legs") = some (.arr elems) → legJson ∈ elems → Misdated legJson → Misdated j

variable {lib}

/-- **The lines of an order** throw at a timestamp. -/
theorem returnsIff_lines {j : Json D} (hj : lib.Prints j) :
    (fromLines (lines lib)).ReturnsIff j (∀ key ∈ timestampKeys (D := D), j.Dated key) := by
  have hbefore : (fromLines (linesBefore lib)).Total j := by
    apply total_fromLines
    simp [linesBefore, total_readVariable hj, total_readEnum hj, total_readDouble hj,
      total_readOptionalDouble hj, total_readBool]
  have hbehind : (fromLines (linesBehind lib)).Total j := by
    apply total_fromLines
    simp [linesBehind, total_readVariable hj]
  intro o
  rw [lines, returnsIff_append (returnsIff_append hbefore.returnsIff
    (returnsIff_timestamps timestampFields j)) hbehind.returnsIff o, timestampKeys]
  simp

omit [Doubles D] in
/-- An order is misdated in its own fields, or in one of its legs. -/
theorem misdated_iff {j : Json D} : Misdated j ↔
    (∃ key ∈ timestampKeys (D := D), ¬j.Dated key) ∨
      ∃ elems, j.member? (bytes "legs") = some (.arr elems) ∧ ∃ legJson ∈ elems, Misdated legJson := by
  constructor
  · rintro (⟨hkey, hbad⟩ | ⟨helems, hmem, hleg⟩)
    · exact Or.inl ⟨_, hkey, hbad⟩
    · exact Or.inr ⟨_, helems, _, hmem, hleg⟩
  · rintro (⟨key, hkey, hbad⟩ | ⟨elems, helems, legJson, hmem, hleg⟩)
    · exact .timestamp hkey hbad
    · exact .leg helems hmem hleg

/-- Every part of these values can be printed. -/
def AllPrint (lib : JsonLibrary D) (js : List (Json D)) : Prop :=
  ∀ j ∈ js, ∀ k, Json.Part k j → lib.Prints k

/-- Without legs the lines are all there is. -/
theorem returnsIff_of_noLegs {j : Json D} (h : AllPrint lib [j])
    (hlegs : j.member? (bytes "legs") = none) :
    (fromLines (lines lib)).ReturnsIff j (¬Misdated j) := by
  intro o
  rw [returnsIff_lines (h _ List.mem_cons_self _ (.self j)) o, misdated_iff, hlegs]
  simp

omit [Doubles D] in
theorem AllPrint.of_arr {elems : List (Json D)} (h : AllPrint lib [.arr elems]) :
    AllPrint lib elems := fun _ he k hk ↦ h _ List.mem_cons_self k (.elem he hk)

mutual

/-- **An order is read unless it is misdated.** -/
theorem fromJson_iff : ∀ (j : Json D), AllPrint lib [j] → ∀ o,
    (∃ o', fromJson lib j o = .ok o') ↔ ¬Misdated j
  | .obj members, h, o => by
    have hmembers : AllPrint lib (members.map Prod.snd) := by
      intro v hv k hk
      obtain ⟨⟨key, v⟩, hmem, rfl⟩ := List.mem_map.1 hv
      exact h _ List.mem_cons_self k (.member hmem hk)
    have hlines := returnsIff_lines (h _ List.mem_cons_self _ (.self (.obj members))) o
    have hlegs := legsIn_iff members hmembers
    have hclean : ¬Misdated (.obj members) ↔ (∀ key ∈ timestampKeys (D := D),
        (Json.obj members).Dated key) ∧ ∀ elems, members.lookup (bytes "legs") = some (.arr elems) →
          ∀ legJson ∈ elems, ¬Misdated legJson := by
      rw [misdated_iff, Json.member?]
      push Not
      rfl
    rw [hclean, ← hlines, ← hlegs, fromJson, exists_bind_eq_ok]
    constructor
    · rintro ⟨o', ho', htail⟩
      exact ⟨⟨o', ho'⟩, (exists_bind_eq_ok_of_total fun legs ↦ by cases legs <;> exact ⟨_, rfl⟩).1 htail⟩
    · rintro ⟨⟨o', ho'⟩, htail⟩
      exact ⟨o', ho', (exists_bind_eq_ok_of_total fun legs ↦ by cases legs <;> exact ⟨_, rfl⟩).2 htail⟩
  | .null, h, o => returnsIff_of_noLegs h rfl o
  | .bool _, h, o => returnsIff_of_noLegs h rfl o
  | .int _, h, o => returnsIff_of_noLegs h rfl o
  | .float _, h, o => returnsIff_of_noLegs h rfl o
  | .str _, h, o => returnsIff_of_noLegs h rfl o
  | .arr _, h, o => returnsIff_of_noLegs h rfl o

/-- The legs among the members of an order. -/
theorem legsIn_iff : ∀ (members : List (Bytes × Json D)), AllPrint lib (members.map Prod.snd) →
    ((∃ legs, legsIn lib members = .ok legs) ↔
      ∀ elems, members.lookup (bytes "legs") = some (.arr elems) → ∀ legJson ∈ elems,
        ¬Misdated legJson)
  | [], _ => iff_of_true ⟨none, rfl⟩ fun elems h ↦ absurd h (by simp)
  | (key, v) :: members, h => by
    rw [legsIn, Json.lookup_cons_eq_ite]
    by_cases hkey : key = bytes "legs"
    · rw [if_pos hkey, if_pos hkey.symm,
        legsOf_iff v fun j hj ↦ h j (by rw [List.mem_singleton.1 hj]; exact List.mem_cons_self)]
      simp only [Option.some_inj]
    · rw [if_neg hkey, if_neg fun h ↦ hkey h.symm]
      exact legsIn_iff members fun j hj ↦ h j (List.mem_cons_of_mem _ hj)

/-- The legs as the value under their key, where only an array has any. -/
theorem legsOf_iff : ∀ (v : Json D), AllPrint lib [v] →
    ((∃ legs, legsOf lib v = .ok legs) ↔ ∀ elems, v = .arr elems → ∀ legJson ∈ elems,
      ¬Misdated legJson)
  | .arr elems, h => by
    rw [legsOf]
    refine (exists_bind_eq_ok_of_total fun legs ↦ ⟨some legs, rfl⟩).trans ?_
    rw [readLegs_iff elems h.of_arr]
    exact ⟨fun hclean elems' heq ↦ Json.arr.inj heq ▸ hclean, fun hclean ↦ hclean elems rfl⟩
  | .null, _ => iff_of_true ⟨none, rfl⟩ fun elems h ↦ absurd h (by simp)
  | .bool b, _ => iff_of_true ⟨none, rfl⟩ fun elems h ↦ absurd h (by simp)
  | .int n, _ => iff_of_true ⟨none, rfl⟩ fun elems h ↦ absurd h (by simp)
  | .float x, _ => iff_of_true ⟨none, rfl⟩ fun elems h ↦ absurd h (by simp)
  | .str s, _ => iff_of_true ⟨none, rfl⟩ fun elems h ↦ absurd h (by simp)
  | .obj members, _ => iff_of_true ⟨none, rfl⟩ fun elems h ↦ absurd h (by simp)

/-- The legs one after the other. -/
theorem readLegs_iff : ∀ (elems : List (Json D)), AllPrint lib elems →
    ((∃ legs, readLegs lib elems = .ok legs) ↔ ∀ legJson ∈ elems, ¬Misdated legJson)
  | [], _ => iff_of_true ⟨[], rfl⟩ (by simp)
  | legJson :: rest, h => by
    have hleg := fromJson_iff legJson (fun j hj k hk ↦ h j (by simp_all) k hk) empty
    have hrest := readLegs_iff rest fun j hj ↦ h j (List.mem_cons_of_mem _ hj)
    rw [List.forall_mem_cons, ← hleg, ← hrest, readLegs, exists_bind_eq_ok]
    constructor
    · rintro ⟨leg, hleg, htail⟩
      exact ⟨⟨leg, hleg⟩, (exists_bind_eq_ok_of_total fun legs ↦ ⟨leg :: legs, rfl⟩).1 htail⟩
    · rintro ⟨⟨leg, hleg⟩, htail⟩
      exact ⟨leg, hleg, (exists_bind_eq_ok_of_total fun legs ↦ ⟨leg :: legs, rfl⟩).2 htail⟩

end

end FromJson

end Order

/-! ### Calls

The calls go through the retry loop of `request_context`, and what they add is the reading of the body. An
exception of the library is told apart from an `api_error` by its constructor (`Mapped`). -/

variable {D α : Type}

/-- What a call makes of a response body. -/
def readAnswer (read : Json D → Except Bytes α) : Except Error (Json D) × Log → Except Error α × Log
  | (.ok j, log) => (liftJson (read j), log)
  | (.error e, log) => (.error e, log)

/-- `order_query` -/
structure OrderQuery where
  status : Option OrderStatusFilter := none
  limit : Option UInt32 := none
  after : Option Bytes := none
  «until» : Option Bytes := none
  direction : Option SortDirection := none
  nested : Option Bool := none
  symbols : List Bytes := []
  side : Option Bytes := none

/-- `order_query::build` -/
def OrderQuery.build (query : OrderQuery) : QueryBuilder :=
  let q : QueryBuilder := {}
  let q := q.addOption (bytes "status") OrderStatusFilter.toString query.status
  let q := q.addOptionNat (bytes "limit") query.limit
  let q := q.addOption (bytes "after") id query.after
  let q := q.addOption (bytes "until") id query.until
  let q := q.addOption (bytes "direction") SortDirection.toString query.direction
  let q := q.addOption (bytes "nested") boolToString query.nested
  let q := q.addList (bytes "symbols") query.symbols
  q.addOption (bytes "side") id query.side

namespace TradingClient

variable [Doubles D] (serve : ℕ → Request → Response) (ctx : RequestContext D)

/-- `submit_order` -/
def submitOrder (fmt : D → Bytes) (request : OrderRequest D) (log : Log) :
    Except Error (Order D) × Log :=
  readAnswer (Json.toModel (Order.fromJson ctx.json) .empty)
    (ctx.post serve (bytes "/v2/orders") (request.toJson fmt) log)

/-- The request of `get_order`. -/
def orderPath (orderId : Bytes) : Bytes := bytes "/v2/orders/" ++ orderId

/-- The parameters of `get_order`. -/
def nestedQuery (nested : Bool) : QueryBuilder :=
  if nested then ({} : QueryBuilder).add (bytes "nested") (boolToString true) else {}

/-- `get_order` -/
def getOrder (orderId : Bytes) (nested : Bool) (log : Log) : Except Error (Order D) × Log :=
  readAnswer (Json.toModel (Order.fromJson ctx.json) .empty)
    (ctx.get serve (orderPath orderId) (nestedQuery nested) log)

/-- `list_orders` -/
def listOrders (query : OrderQuery) (log : Log) : Except Error (List (Order D)) × Log :=
  readAnswer (Json.toVector (Order.fromJson ctx.json) .empty)
    (ctx.get serve (bytes "/v2/orders") query.build log)

end TradingClient

/-- A call that returns, or throws `api_error` or `parse_error`. -/
def Mapped (result : Except Error α) : Prop := ∀ what, result ≠ .error (.json what)

/-- The answer the retry loop ends with is a success with body `j`. -/
def Answered (serve : ℕ → Request → Response) (ctx : RequestContext D) (req : Request) (log : Log)
    (j : Json D) : Prop :=
  (RequestContext.finalAnswer serve ctx.retry req log.requests.length 0).isOk = true ∧
    parseBody ctx.json
      (RequestContext.finalAnswer serve ctx.retry req log.requests.length 0).resultText = .ok j

section Calls

variable (serve : ℕ → Request → Response) (ctx : RequestContext D) (read : Json D → Except Bytes α)

theorem mapped_liftJson {r : Except Bytes α} : Mapped (liftJson r) ↔ ∃ a, r = .ok a := by
  cases r with
  | ok a => exact iff_of_true (fun what h ↦ absurd h (by simp [liftJson])) ⟨a, rfl⟩
  | error what => exact iff_of_false (fun h ↦ h what rfl) (by simp)

/-- Behind the retry loop only reading can throw what is not mapped. -/
theorem mapped_of_attemptLoop (req : Request) (log : Log) :
    Mapped (readAnswer read (match ctx.attemptLoop serve req 0 log with
      | (.ok text, log) => (parseBody ctx.json text, log)
      | (.error e, log) => (.error e, log))).1 ↔
      ∀ j, Answered serve ctx req log j → ∃ a, read j = .ok a := by
  have hresult := RequestContext.attemptLoop_result serve ctx req 0 log
  generalize ctx.attemptLoop serve req 0 log = out at hresult ⊢
  obtain ⟨result, log'⟩ := out
  obtain rfl : result = _ := hresult
  rw [RequestContext.resultOf]
  unfold Answered
  generalize RequestContext.finalAnswer serve ctx.retry req log.requests.length 0 = last
  cases last.isOk with
  | false =>
    refine iff_of_true (fun what h ↦ ?_) fun j hj ↦ absurd hj.1 Bool.false_ne_true
    simp [readAnswer, throwApiError] at h
  | true =>
    simp only [if_true, true_and]
    cases hparse : parseBody ctx.json last.resultText with
    | error e =>
      refine iff_of_true (fun what h ↦ ?_) fun j hj ↦ absurd hj (by simp)
      rw [parseBody] at hparse
      split at hparse
      · exact absurd hparse (by simp)
      · split at hparse
        · exact absurd hparse (by simp)
        · obtain rfl := Except.error.inj hparse
          simp [readAnswer] at h
    | ok j =>
      show Mapped (liftJson (read j)) ↔ _
      rw [mapped_liftJson]
      exact ⟨fun h j' hj' ↦ Except.ok.inj hj' ▸ h, fun h ↦ h j rfl⟩

end Calls

section Answers

variable [Doubles D] {lib : JsonLibrary D}

omit [Doubles D] in
/-- Only an object can hold a timestamp. -/
theorem Order.not_misdated {j : Json D} (h : ∀ key, j.member? key = none) : ¬Misdated j := by
  rw [misdated_iff, h]
  rintro (⟨key, -, hbad⟩ | ⟨elems, helems, -⟩)
  · exact hbad fun v hv ↦ absurd ((h key).symm.trans hv) (by simp)
  · exact absurd helems (by simp)

/-- One order, or null for none. -/
theorem exists_toModel_iff {j : Json D} (h : j = .null ∨ Order.AllPrint lib [j]) :
    (∃ o, Json.toModel (Order.fromJson lib) .empty j = .ok o) ↔ ¬Order.Misdated j := by
  cases j with
  | obj members => exact Order.fromJson_iff _ (h.resolve_left (by simp)) _
  | _ => exact iff_of_true ⟨_, rfl⟩ (Order.not_misdated fun _ ↦ rfl)

/-- A list of them. -/
theorem exists_toVector_iff {elems : List (Json D)} (h : Order.AllPrint lib elems) :
    (∃ os, Json.toVector (Order.fromJson lib) .empty (.arr elems) = .ok os) ↔
      ∀ e ∈ elems, ¬Order.Misdated e := by
  refine (exists_mapM_eq_ok elems).trans (forall₂_congr fun e he ↦ ?_)
  exact Order.fromJson_iff e (fun j hj ↦ List.mem_singleton.1 hj ▸ h e he) .empty

omit [Doubles D] in
/-- A body is blank, or what `parse` returns. -/
theorem parse_of_parseBody {body : Bytes} {j : Json D} (h : parseBody lib body = .ok j) :
    j = .null ∨ lib.parse body = .ok j := by
  rw [parseBody] at h
  split at h
  · exact Or.inl (Except.ok.inj h).symm
  · cases hparse : lib.parse body with
    | ok j' =>
      rw [hparse] at h
      exact Or.inr (congrArg _ (Except.ok.inj h))
    | error what =>
      rw [hparse] at h
      exact absurd h (by simp)

/-- **What reaches the caller** of the three calls that read orders, for any answers to them. Apart
from an order that cannot be printed, an exception of the JSON library escapes exactly when the call is
answered with a success whose body holds a timestamp that is neither null nor a string. -/
theorem TradingClient.mapped_iff (serve : ℕ → Request → Response) (ctx : RequestContext D)
    (hlib : ctx.json.ParsedPrints) (log : Log) :
    (∀ fmt request, Mapped (submitOrder serve ctx fmt request log).1 ↔
      ∃ payload, ctx.json.dump (request.toJson fmt) = .ok payload ∧
        ∀ j, Answered serve ctx (ctx.request .post (bytes "/v2/orders") {} (some payload)) log j →
          ¬Order.Misdated j) ∧
    (∀ orderId nested, Mapped (getOrder serve ctx orderId nested log).1 ↔
      ∀ j, Answered serve ctx (ctx.request .get (orderPath orderId) (nestedQuery nested) none) log j →
        ¬Order.Misdated j) ∧
    (∀ query, Mapped (listOrders serve ctx query log).1 ↔
      ∀ elems, Answered serve ctx (ctx.request .get (bytes "/v2/orders") query.build none) log
        (.arr elems) → ∀ e ∈ elems, ¬Order.Misdated e) := by
  have hprints : ∀ {req j}, Answered serve ctx req log j → j = .null ∨ Order.AllPrint ctx.json [j] := by
    intro req j hj
    refine (parse_of_parseBody hj.2).imp_right fun hparse k hk p hp ↦ ?_
    rw [List.mem_singleton.1 hk] at hp
    exact hlib _ _ p hparse hp
  refine ⟨fun fmt request ↦ ?_, fun orderId nested ↦ ?_, fun query ↦ ?_⟩
  · rw [submitOrder, RequestContext.post, RequestContext.execute, RequestContext.executeRaw]
    cases hdump : ctx.json.dump (request.toJson fmt) with
    -- the request does not print: the exception is there before anything is sent
    | error what =>
      refine iff_of_false (fun h ↦ h what rfl) ?_
      rintro ⟨_, h, -⟩
      exact absurd h (by simp)
    | ok payload =>
      refine (mapped_of_attemptLoop serve ctx _ _ log).trans ?_
      have hread : ∀ j, (Answered serve ctx (ctx.request .post (bytes "/v2/orders") {} (some payload))
          log j → ∃ o, Json.toModel (Order.fromJson ctx.json) .empty j = .ok o) ↔
          (Answered serve ctx (ctx.request .post (bytes "/v2/orders") {} (some payload)) log j →
            ¬Order.Misdated j) :=
        fun j ↦ imp_congr_right fun hj ↦ exists_toModel_iff (hprints hj)
      simp only [hread]
      refine ⟨fun h ↦ ⟨payload, rfl, h⟩, ?_⟩
      rintro ⟨_, heq, h⟩
      exact Except.ok.inj heq ▸ h
  · rw [getOrder, RequestContext.get, RequestContext.execute, RequestContext.executeRaw]
    exact (mapped_of_attemptLoop serve ctx _ _ log).trans
      (forall_congr' fun j ↦ imp_congr_right fun hj ↦ exists_toModel_iff (hprints hj))
  · rw [listOrders, RequestContext.get, RequestContext.execute, RequestContext.executeRaw]
    refine (mapped_of_attemptLoop serve ctx _ _ log).trans ⟨fun h elems hj ↦ ?_, fun h j hj ↦ ?_⟩
    · exact (exists_toVector_iff ((hprints hj).resolve_left (by simp)).of_arr).1 (h _ hj)
    · cases j with
      | arr elems =>
        exact (exists_toVector_iff ((hprints hj).resolve_left (by simp)).of_arr).2 (h elems hj)
      -- `to_vector` makes an empty list of anything but an array
      | _ => exact ⟨[], rfl⟩

end Answers

/-! ### An order accepted and not returned

The server has accepted the order when the client throws. With a date of null instead of a number the same
answer is returned as an order. -/

/-- The JSON library on the texts of the calls below. -/
def datedJson : JsonLibrary ℚ where
  parse text :=
    if text = bytes "\x7b\"created_at\":null\x7d" then .ok (.obj [(bytes "created_at", .null)])
    else if text = bytes "\x7b\"created_at\":1\x7d" then .ok (.obj [(bytes "created_at", .int 1)])
    else .error (bytes "syntax error")
  dump
    | .null => .ok (bytes "null")
    | .int _ => .ok (bytes "1")
    | .obj [(_, .null)] => .ok (bytes "\x7b\"created_at\":null\x7d")
    | .obj [(_, .int _)] => .ok (bytes "\x7b\"created_at\":1\x7d")
    | _ => .ok (bytes "\x7b\"symbol\":\"\",\"time_in_force\":\"day\"\x7d")

/-- A client with the default retry policy. -/
def datedClient : RequestContext ℚ where
  baseUrl := bytes "https://paper-api.alpaca.markets"
  json := datedJson
  base64Encode := id
  floatToInt32 := fun x ↦ x.num.tdiv x.den

/-- A server that answers every request with success and the same body. -/
def answering (body : String) (_ : ℕ) (_ : Request) : Response where
  isOk := true
  resultCode := 200
  resultText := bytes body

/-- A library that prints what it parses. -/
theorem datedJson_parsedPrints : datedJson.ParsedPrints := by
  intro text j k _ _
  unfold JsonLibrary.Prints datedJson
  dsimp only
  split <;> exact ⟨_, rfl⟩

theorem answered_answering {body : String} {req : Request} {j : Json ℚ}
    (h : Answered (answering body) datedClient req [] j) : parseBody datedJson (bytes body) = .ok j := by
  have hparse := h.2
  rwa [RequestContext.finalAnswer] at hparse

/-- A timestamp that is null. -/
theorem mapped_submitOrder_nullDate :
    Mapped (TradingClient.submitOrder (answering "\x7b\"created_at\":null\x7d") datedClient
      (fun _ ↦ []) {} []).1 := by
  refine ((TradingClient.mapped_iff (answering "\x7b\"created_at\":null\x7d") datedClient
    datedJson_parsedPrints []).1 (fun _ ↦ []) {}).2 ⟨_, rfl, fun j hj ↦ ?_⟩
  obtain rfl : .obj [(bytes "created_at", .null)] = j := Except.ok.inj (answered_answering hj)
  rw [Order.misdated_iff]
  rintro (⟨key, -, hbad⟩ | ⟨elems, helems, -⟩)
  · refine hbad fun v hv ↦ Or.inl ?_
    rw [Json.member?, Json.lookup_cons_eq_ite] at hv
    split at hv
    · exact Option.some_inj.1 hv ▸ rfl
    · exact absurd hv (by simp)
  · have hnone : (Json.obj [(bytes "created_at", (.null : Json ℚ))]).member? (bytes "legs") = none := rfl
    exact absurd (hnone.symm.trans helems) (by simp)

/-- **An order the server accepted comes back as a type error**: its timestamp is a number. -/
theorem not_mapped_submitOrder_numericDate :
    ¬Mapped (TradingClient.submitOrder (answering "\x7b\"created_at\":1\x7d") datedClient
      (fun _ ↦ []) {} []).1 ∧
    ¬∀ (ctx : RequestContext ℚ) (serve : ℕ → Request → Response), ctx.json.ParsedPrints →
      Mapped (TradingClient.submitOrder serve ctx (fun _ ↦ []) {} []).1 := by
  have hthrow : (TradingClient.submitOrder (answering "\x7b\"created_at\":1\x7d") datedClient
      (fun _ ↦ []) {} []).1 = .error (.json (bytes "type must be string")) := by
    rw [TradingClient.submitOrder, RequestContext.post, RequestContext.execute,
      RequestContext.executeRaw]
    show (readAnswer _ (match RequestContext.attemptLoop _ _ _ _ _ with
      | (.ok text, log) => _
      | (.error e, log) => _)).1 = _
    rw [RequestContext.attemptLoop]
    rfl
  have hnot := fun h : Mapped _ ↦ h _ hthrow
  exact ⟨hnot, fun h ↦ hnot (h datedClient _ datedJson_parsedPrints)⟩

end Alpaca
