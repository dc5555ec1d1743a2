import AlpacaCpp.Core.Extraction

/-!
# Market data records

`trade`, `quote` and `bar` (`core/include/alpaca/data`), and their `from_json`. One struct of each
covers stocks, crypto and options; the fields that do not apply stay empty. Conditions come as an array
of codes or as a single one.

Their `from_json` throw at a timestamp that is neither null nor a string, and those of trades and quotes
also at a condition code that is not a string: the array is read outside of any macro.

For each record there are two statements: when its `from_json` returns (`returnsIff_fromJson`), and which
record it then returns, field by field, over the one it was given (`fromJson_eq`). The streams read the
same records from frames by another route, so the second is what the two are compared by.
-/

namespace Alpaca

/-- `trade` -/
structure Trade (D : Type) where
  timestamp : ℕ := 0
  price : D
  size : D
  id : ℕ := 0
  exchange : Bytes := []
  tape : Bytes := []
  update : Bytes := []
  takerSide : Bytes := []
  conditions : List Bytes := []
  deriving DecidableEq

/-- `quote` -/
structure Quote (D : Type) where
  timestamp : ℕ := 0
  bidPrice : D
  bidSize : D
  askPrice : D
  askSize : D
  bidExchange : Bytes := []
  askExchange : Bytes := []
  tape : Bytes := []
  conditions : List Bytes := []
  deriving DecidableEq

/-- `bar` -/
structure Bar (D : Type) where
  timestamp : ℕ := 0
  «open» : D
  high : D
  low : D
  close : D
  volume : D
  vwap : D
  tradeCount : ℕ := 0
  deriving DecidableEq

section Defaults

variable {D : Type} [DoubleCasts D]

/-- A default-constructed `trade`. -/
def Trade.empty : Trade D where
  price := DoubleCasts.zero
  size := DoubleCasts.zero

/-- A default-constructed `quote`. -/
def Quote.empty : Quote D where
  bidPrice := DoubleCasts.zero
  bidSize := DoubleCasts.zero
  askPrice := DoubleCasts.zero
  askSize := DoubleCasts.zero

/-- A default-constructed `bar`. -/
def Bar.empty : Bar D where
  «open» := DoubleCasts.zero
  high := DoubleCasts.zero
  low := DoubleCasts.zero
  close := DoubleCasts.zero
  volume := DoubleCasts.zero
  vwap := DoubleCasts.zero

end Defaults

/-! ### Reading -/

variable {D M : Type}

/-- The condition codes at the end of `from_json` of trades and quotes. -/
def readConditions (assign : M → List Bytes → M) : Reader D M := fun j o ↦
  match j.member? (bytes "c") with
  | some (.arr elems) => (Json.getStrings (.arr elems)).map (assign o)
  | some (.str s) => .ok (assign o [s])
  | _ => .ok o

section FromJson

variable [Doubles D] (lib : JsonLibrary D)

/-- The lines of `from_json` of a `trade`, up to the conditions. -/
def Trade.lines : List (Reader D (Trade D)) := [
  readDouble lib (bytes "p") fun t x ↦ { t with price := x },
  readDouble lib (bytes "s") fun t x ↦ { t with size := x },
  readInt lib (bytes "i") fun t x ↦ { t with id := castU64 x },
  readVariable lib (bytes "x") Json.getString fun t x ↦ { t with exchange := x },
  readVariable lib (bytes "z") Json.getString fun t x ↦ { t with tape := x },
  readVariable lib (bytes "u") Json.getString fun t x ↦ { t with update := x },
  readVariable lib (bytes "tks") Json.getString fun t x ↦ { t with takerSide := x }]

/-- `from_json` of a `trade`. -/
def Trade.fromJson : Reader D (Trade D) :=
  fromLines (readTimestamp (bytes "t") (fun t x ↦ { t with timestamp := x }) ::
    (lines lib ++ [readConditions fun t x ↦ { t with conditions := x }]))

/-- The lines of `from_json` of a `quote`, up to the conditions. -/
def Quote.lines : List (Reader D (Quote D)) := [
  readDouble lib (bytes "bp") fun q x ↦ { q with bidPrice := x },
  readDouble lib (bytes "bs") fun q x ↦ { q with bidSize := x },
  readDouble lib (bytes "ap") fun q x ↦ { q with askPrice := x },
  readDouble lib (bytes "as") fun q x ↦ { q with askSize := x },
  readVariable lib (bytes "bx") Json.getString fun q x ↦ { q with bidExchange := x },
  readVariable lib (bytes "ax") Json.getString fun q x ↦ { q with askExchange := x },
  readVariable lib (bytes "z") Json.getString fun q x ↦ { q with tape := x }]

/-- `from_json` of a `quote`. -/
def Quote.fromJson : Reader D (Quote D) :=
  fromLines (readTimestamp (bytes "t") (fun q x ↦ { q with timestamp := x }) ::
    (lines lib ++ [readConditions fun q x ↦ { q with conditions := x }]))

/-- The lines of `from_json` of a `bar` behind the timestamp. -/
def Bar.lines : List (Reader D (Bar D)) := [
  readDouble lib (bytes "o") fun b x ↦ { b with «open» := x },
  readDouble lib (bytes "h") fun b x ↦ { b with high := x },
  readDouble lib (bytes "l") fun b x ↦ { b with low := x },
  readDouble lib (bytes "c") fun b x ↦ { b with close := x },
  readDouble lib (bytes "v") fun b x ↦ { b with volume := x },
  readDouble lib (bytes "vw") fun b x ↦ { b with vwap := x },
  readInt lib (bytes "n") fun b x ↦ { b with tradeCount := castU64 x }]

/-- `from_json` of a `bar`. -/
def Bar.fromJson : Reader D (Bar D) :=
  fromLines (readTimestamp (bytes "t") (fun b x ↦ { b with timestamp := x }) :: lines lib)

end FromJson

/-! ### What throws -/

/-- The condition codes are strings, when they come as an array. -/
def Json.TextConditions (j : Json D) : Prop :=
  ∀ elems, j.member? (bytes "c") = some (.arr elems) → ∀ e ∈ elems, e.isString = true

theorem exists_getString_eq_ok (v : Json D) : (∃ s, v.getString = .ok s) ↔ v.isString = true := by
  cases v with
  | str s => exact iff_of_true ⟨s, rfl⟩ rfl
  | _ => exact iff_of_false (by simp [Json.getString]) (by simp [Json.isString])

/-- Conditions throw unless every code is a string. -/
theorem returnsIff_readConditions (assign : M → List Bytes → M) (j : Json D) :
    (readConditions assign).ReturnsIff j j.TextConditions := by
  intro o
  rw [readConditions, Json.TextConditions]
  rcases j.member? (bytes "c") with - | (- | - | - | - | s | elems | -)
  case some.arr =>
    dsimp only
    rw [exists_map_eq_ok, Json.getStrings, exists_mapM_eq_ok]
    simp only [exists_getString_eq_ok, Option.some_inj, Json.arr.injEq, forall_eq']
  case some.str => exact iff_of_true ⟨_, rfl⟩ (by simp)
  all_goals exact iff_of_true ⟨o, rfl⟩ (by simp)

/-- A timestamp in front of lines that log what they cannot read. -/
theorem returnsIff_timestamp_cons {lines : List (Reader D M)} {j : Json D}
    (h : ∀ line ∈ lines, line.Total j) (key : Bytes) (assign : M → ℕ → M) :
    (fromLines (readTimestamp key assign :: lines)).ReturnsIff j (j.Dated key) := by
  intro o
  rw [← List.singleton_append, returnsIff_append (returnsIff_singleton
    (returnsIff_readTimestamp key assign j)) (total_fromLines h).returnsIff o, and_true]

/-- The same, with condition codes behind them. -/
theorem returnsIff_timestamp_conditions {lines : List (Reader D M)} {j : Json D}
    (h : ∀ line ∈ lines, line.Total j) (key : Bytes) (assign : M → ℕ → M)
    (assign' : M → List Bytes → M) :
    (fromLines (readTimestamp key assign :: (lines ++ [readConditions assign']))).ReturnsIff j
      (j.Dated key ∧ j.TextConditions) :=
  returnsIff_append (returnsIff_timestamp_cons h key assign)
    (returnsIff_singleton (returnsIff_readConditions assign' j))

section Records

variable [Doubles D] {lib : JsonLibrary D} {j : Json D} (hj : lib.Prints j)

include hj

/-- A trade throws at its timestamp or at a condition code, and nowhere else. -/
theorem Trade.returnsIff_fromJson :
    (Trade.fromJson lib).ReturnsIff j (j.Dated (bytes "t") ∧ j.TextConditions) :=
  returnsIff_timestamp_conditions
    (by simp [lines, total_readDouble hj, total_readInt hj, total_readVariable hj]) _ _ _

/-- A quote throws at its timestamp or at a condition code, and nowhere else. -/
theorem Quote.returnsIff_fromJson :
    (Quote.fromJson lib).ReturnsIff j (j.Dated (bytes "t") ∧ j.TextConditions) :=
  returnsIff_timestamp_conditions
    (by simp [lines, total_readDouble hj, total_readVariable hj]) _ _ _

/-- A bar throws at its timestamp only: it has no conditions. -/
theorem Bar.returnsIff_fromJson : (Bar.fromJson lib).ReturnsIff j (j.Dated (bytes "t")) :=
  returnsIff_timestamp_cons (by simp [lines, total_readDouble hj, total_readInt hj]) _ _

/-! ### What is read -/

omit [Doubles D] hj in
/-- The condition codes that are assigned, if any. -/
def Json.conditionsAt (j : Json D) : Option (List Bytes) :=
  (j.member? (bytes "c")).bind fun
    | .arr elems => (Json.getStrings (.arr elems)).toOption
    | .str s => some [s]
    | _ => none

omit [Doubles D] hj in
/-- The codes that are read, where they can be read at all. -/
theorem readConditions_eq (h : j.TextConditions) {assign : M → List Bytes → M}
    (field : M → List Bytes) (hself : ∀ o, assign o (field o) = o) (o : M) :
    readConditions assign j o = .ok (assign o (j.conditionsAt.getD (field o))) := by
  rw [← elim_eq_assign field hself, readConditions, Json.conditionsAt]
  rcases hfound : j.member? (bytes "c") with - | (- | - | - | - | s | elems | -)
  case some.arr =>
    obtain ⟨codes, hcodes⟩ : ∃ codes, Json.getStrings (.arr elems) = .ok codes :=
      (exists_mapM_eq_ok elems).2 fun e he ↦ (exists_getString_eq_ok e).2 (h elems hfound e he)
    dsimp only [Option.bind_some]
    rw [hcodes]
    rfl
  all_goals rfl

/-- A trade, field by field. -/
theorem Trade.fromJson_eq (ht : j.Dated (bytes "t")) (hc : j.TextConditions) (o : Trade D) :
    Trade.fromJson lib j o = .ok {
      timestamp := (j.timestampAt (bytes "t")).getD o.timestamp
      price := (doubleAt lib j (bytes "p")).getD o.price
      size := (doubleAt lib j (bytes "s")).getD o.size
      id := ((intAt lib j (bytes "i")).map castU64).getD o.id
      exchange := (j.variableAt (bytes "x") Json.getString).getD o.exchange
      tape := (j.variableAt (bytes "z") Json.getString).getD o.tape
      update := (j.variableAt (bytes "u") Json.getString).getD o.update
      takerSide := (j.variableAt (bytes "tks") Json.getString).getD o.takerSide
      conditions := j.conditionsAt.getD o.conditions } := by
  rw [fromJson, lines, fromLines_cons (readTimestamp_eq ht timestamp (fun _ ↦ rfl) o)]
  simp only [List.cons_append, List.nil_append]
  rw [fromLines_cons (readDouble_eq hj price (fun _ ↦ rfl) _),
    fromLines_cons (readDouble_eq hj size (fun _ ↦ rfl) _),
    fromLines_cons (readInt_eq hj castU64 (fun t x ↦ { t with id := x }) id (fun _ ↦ rfl) _),
    fromLines_cons (readVariable_eq hj exchange (fun _ ↦ rfl) _),
    fromLines_cons (readVariable_eq hj tape (fun _ ↦ rfl) _),
    fromLines_cons (readVariable_eq hj update (fun _ ↦ rfl) _),
    fromLines_cons (readVariable_eq hj takerSide (fun _ ↦ rfl) _),
    fromLines_cons (readConditions_eq hc conditions (fun _ ↦ rfl) _)]
  rfl

/-- A quote, field by field. -/
theorem Quote.fromJson_eq (ht : j.Dated (bytes "t")) (hc : j.TextConditions) (o : Quote D) :
    Quote.fromJson lib j o = .ok {
      timestamp := (j.timestampAt (bytes "t")).getD o.timestamp
      bidPrice := (doubleAt lib j (bytes "bp")).getD o.bidPrice
      bidSize := (doubleAt lib j (bytes "bs")).getD o.bidSize
      askPrice := (doubleAt lib j (bytes "ap")).getD o.askPrice
      askSize := (doubleAt lib j (bytes "as")).getD o.askSize
      bidExchange := (j.variableAt (bytes "bx") Json.getString).getD o.bidExchange
      askExchange := (j.variableAt (bytes "ax") Json.getString).getD o.askExchange
      tape := (j.variableAt (bytes "z") Json.getString).getD o.tape
      conditions := j.conditionsAt.getD o.conditions } := by
  rw [fromJson, lines, fromLines_cons (readTimestamp_eq ht timestamp (fun _ ↦ rfl) o)]
  simp only [List.cons_append, List.nil_append]
  rw [fromLines_cons (readDouble_eq hj bidPrice (fun _ ↦ rfl) _),
    fromLines_cons (readDouble_eq hj bidSize (fun _ ↦ rfl) _),
    fromLines_cons (readDouble_eq hj askPrice (fun _ ↦ rfl) _),
    fromLines_cons (readDouble_eq hj askSize (fun _ ↦ rfl) _),
    fromLines_cons (readVariable_eq hj bidExchange (fun _ ↦ rfl) _),
    fromLines_cons (readVariable_eq hj askExchange (fun _ ↦ rfl) _),
    fromLines_cons (readVariable_eq hj tape (fun _ ↦ rfl) _),
    fromLines_cons (readConditions_eq hc conditions (fun _ ↦ rfl) _)]
  rfl

end Records

end Alpaca
