import AlpacaCpp.Data.Pages

/-!
# Corporate actions

Alpaca groups a page into arrays by type, under the plural of the type's name.
`append_corporate_actions` flattens them into one list, in which every action has the type of its group;
`from_json` itself leaves the type alone. Nothing in it throws, dates included: they are read as text and
converted afterwards.

So **a call returns one action for each entry of its answers, in order, of the type its group names**, and the
JSON library throws at nothing but a token (`corporateActions_of_answers`).

A group stands for a type under its name or under the plural of it, and a name of its own ends in no `s`,
so that nothing is lost when the last letter is taken off (`corporateActionTypeFromGroup_eq_iff`). A group
of another name is not skipped: its entries come back with the type `unknown`. A member that holds no
array has no entries at all (`groupEntries`).

Since every entry is read whatever it holds, a page is the list of its entries mapped to actions
(`appendCorporateActions_eq`), and the results of the page loop over lists apply as they are.

What an action says is stated without the loops: `Describes` relates an entry, with the name of its group,
to the action, and the result pairs the entries of all pages with the list that is returned, one to one
and in order.
-/

namespace Alpaca

/-! ### Types

The name of a group is looked up once, without its last letter if that is an `s`. A type is found under
its singular and under its plural, which is one more name than the endpoint uses; the table has no
repetition, so no group names two types. -/

inductive CorporateActionType where
  | unknown | reverseSplit | forwardSplit | unitSplit | cashDividend | stockDividend | spinOff | cashMerger
  | stockMerger | stockAndCashMerger | redemption | nameChange | worthlessRemoval | rightsDistribution
  | partialCall | reorganization
  deriving DecidableEq

/-- The enumerators with their wire forms. -/
def CorporateActionType.spellings : List (CorporateActionType × Bytes) := [(.reverseSplit, bytes "reverse_split"),
  (.forwardSplit, bytes "forward_split"), (.unitSplit, bytes "unit_split"),
  (.cashDividend, bytes "cash_dividend"), (.stockDividend, bytes "stock_dividend"), (.spinOff, bytes "spin_off"),
  (.cashMerger, bytes "cash_merger"), (.stockMerger, bytes "stock_merger"),
  (.stockAndCashMerger, bytes "stock_and_cash_merger"), (.redemption, bytes "redemption"),
  (.nameChange, bytes "name_change"), (.worthlessRemoval, bytes "worthless_removal"),
  (.rightsDistribution, bytes "rights_distribution"), (.partialCall, bytes "partial_call"),
  (.reorganization, bytes "reorganization")]

/-- `to_corporate_action_type` -/
def toCorporateActionType : Bytes → CorporateActionType :=
  enumFromString .unknown CorporateActionType.spellings

/-- `corporate_action_type_from_group` -/
def corporateActionTypeFromGroup (group : Bytes) : CorporateActionType :=
  if group.getLast? = some (byte 's') then toCorporateActionType group.dropLast
  else toCorporateActionType group

/-- What is found in a table without repetitions is in it. -/
theorem enumFromString_eq_iff {α : Type} {unknown a : α} (ha : a ≠ unknown) {table : List (α × Bytes)}
    (hnodup : (table.map Prod.snd).Nodup) (s : Bytes) :
    enumFromString unknown table s = a ↔ (a, s) ∈ table := by
  induction table with
  | nil => exact iff_of_false (fun h ↦ ha h.symm) List.not_mem_nil
  | cons entry table ih =>
    obtain ⟨id, str⟩ := entry
    rw [List.map_cons, List.nodup_cons] at hnodup
    rw [enumFromString, List.mem_cons, Prod.mk.injEq]
    split
    case isTrue hs =>
      subst hs
      have hnot : (a, s) ∉ table := fun h ↦ hnodup.1 (List.mem_map.2 ⟨_, h, rfl⟩)
      simp [hnot, eq_comm]
    case isFalse hs => simp [ih hnodup.2, hs]

/-- No name ends in the plural's letter. -/
theorem CorporateActionType.getLast?_ne_of_mem {t : CorporateActionType} {s : Bytes} (h : (t, s) ∈ spellings) :
    s.getLast? ≠ some (byte 's') := by
  have hall : ∀ e ∈ spellings, e.2.getLast? ≠ some (byte 's') := by decide +kernel
  exact hall _ h

/-- **A group names a type by its name or by the plural of it**, and in no other way. -/
theorem corporateActionTypeFromGroup_eq_iff {t : CorporateActionType} (ht : t ≠ .unknown) (group : Bytes) :
    corporateActionTypeFromGroup group = t ↔
      ∃ name, (t, name) ∈ CorporateActionType.spellings ∧ (group = name ∨ group = name ++ [byte 's']) := by
  have hnodup : (CorporateActionType.spellings.map Prod.snd).Nodup := by decide +kernel
  rw [corporateActionTypeFromGroup]
  split
  case isTrue hs =>
    rw [toCorporateActionType, enumFromString_eq_iff ht hnodup]
    obtain ⟨front, rfl⟩ : ∃ front, group = front ++ [byte 's'] := List.getLast?_eq_some_iff.1 hs
    rw [List.dropLast_concat]
    constructor
    · exact fun h ↦ ⟨front, h, Or.inr rfl⟩
    · rintro ⟨name, hname, rfl | hplural⟩
      · -- the singular, which would have to end in `s`
        exact absurd hs (CorporateActionType.getLast?_ne_of_mem hname)
      · rwa [List.append_cancel_right hplural]
  case isFalse hs =>
    rw [toCorporateActionType, enumFromString_eq_iff ht hnodup]
    constructor
    · exact fun h ↦ ⟨group, h, Or.inl rfl⟩
    · rintro ⟨name, hname, rfl | rfl⟩
      · exact hname
      · exact absurd List.getLast?_concat hs

/-! ### Actions

The dates are strings on the wire and strings in the model, each with its nanoseconds beside it. Those are
computed from the string that has been read, by the parser of timestamps that gives 0 for what it cannot
read, and so a malformed date is kept as it is written. `from_json` never touches the type. -/

/-- `corporate_action` -/
structure CorporateAction (D : Type) where
  type : CorporateActionType := .unknown
  id : Bytes := []
  symbol : Bytes := []
  cusip : Bytes := []
  processDate : Bytes := []
  exDate : Bytes := []
  recordDate : Bytes := []
  payableDate : Bytes := []
  effectiveDate : Bytes := []
  processDateNs : ℕ := 0
  exDateNs : ℕ := 0
  recordDateNs : ℕ := 0
  payableDateNs : ℕ := 0
  effectiveDateNs : ℕ := 0
  rate : Option D := none
  oldRate : Option D := none
  newRate : Option D := none
  cashRate : Option D := none
  special : Bool := false
  foreign : Bool := false
  oldSymbol : Bytes := []
  newSymbol : Bytes := []
  sourceSymbol : Bytes := []
  newCusip : Bytes := []
  oldCusip : Bytes := []
  sourceCusip : Bytes := []
  targetSymbol : Bytes := []
  targetCusip : Bytes := []
  initiatingSymbol : Bytes := []
  initiatingCusip : Bytes := []
  deriving DecidableEq

variable {D : Type}

section FromJson

variable [Doubles D] (lib : JsonLibrary D)

/-- The lines of `from_json` of a `corporate_action`. -/
def CorporateAction.lines : List (Reader D (CorporateAction D)) := [
  readVariable lib (bytes "id") Json.getString fun c x ↦ { c with id := x },
  readVariable lib (bytes "symbol") Json.getString fun c x ↦ { c with symbol := x },
  readVariable lib (bytes "cusip") Json.getString fun c x ↦ { c with cusip := x },
  readVariable lib (bytes "process_date") Json.getString fun c x ↦ { c with processDate := x },
  readVariable lib (bytes "ex_date") Json.getString fun c x ↦ { c with exDate := x },
  readVariable lib (bytes "record_date") Json.getString fun c x ↦ { c with recordDate := x },
  readVariable lib (bytes "payable_date") Json.getString fun c x ↦ { c with payableDate := x },
  readVariable lib (bytes "effective_date") Json.getString fun c x ↦ { c with effectiveDate := x },
  compute fun c ↦ { c with
    processDateNs := dateToNanoseconds c.processDate
    exDateNs := dateToNanoseconds c.exDate
    recordDateNs := dateToNanoseconds c.recordDate
    payableDateNs := dateToNanoseconds c.payableDate
    effectiveDateNs := dateToNanoseconds c.effectiveDate },
  readOptionalDouble lib (bytes "rate") fun c x ↦ { c with rate := x },
  readOptionalDouble lib (bytes "old_rate") fun c x ↦ { c with oldRate := x },
  readOptionalDouble lib (bytes "new_rate") fun c x ↦ { c with newRate := x },
  readOptionalDouble lib (bytes "cash_rate") fun c x ↦ { c with cashRate := x },
  readBool (bytes "special") fun c x ↦ { c with special := x },
  readBool (bytes "foreign") fun c x ↦ { c with foreign := x },
  readVariable lib (bytes "old_symbol") Json.getString fun c x ↦ { c with oldSymbol := x },
  readVariable lib (bytes "new_symbol") Json.getString fun c x ↦ { c with newSymbol := x },
  readVariable lib (bytes "source_symbol") Json.getString fun c x ↦ { c with sourceSymbol := x },
  readVariable lib (bytes "new_cusip") Json.getString fun c x ↦ { c with newCusip := x },
  readVariable lib (bytes "old_cusip") Json.getString fun c x ↦ { c with oldCusip := x },
  readVariable lib (bytes "source_cusip") Json.getString fun c x ↦ { c with sourceCusip := x },
  readVariable lib (bytes "target_symbol") Json.getString fun c x ↦ { c with targetSymbol := x },
  readVariable lib (bytes "target_cusip") Json.getString fun c x ↦ { c with targetCusip := x },
  readVariable lib (bytes "initiating_symbol") Json.getString fun c x ↦ { c with initiatingSymbol := x },
  readVariable lib (bytes "initiating_cusip") Json.getString fun c x ↦ { c with initiatingCusip := x }]

/-- `from_json` of a `corporate_action`. -/
def CorporateAction.fromJson : Reader D (CorporateAction D) := fromLines (lines lib)

variable {lib} {j : Json D}

theorem CorporateAction.total_fromJson (hj : lib.Prints j) : (CorporateAction.fromJson lib).Total j :=
  total_fromLines (by simp [lines, total_readVariable hj, total_readOptionalDouble hj, total_readBool,
    total_compute])

/-- No line sets the type. -/
theorem CorporateAction.type_of_fromJson {c c' : CorporateAction D} (h : fromJson lib j c = .ok c') :
    c'.type = c.type := by
  have hlines : ∀ line ∈ lines lib, line.Reads j (fun c : CorporateAction D ↦ some c.type) none := by
    simp [lines]
  exact Option.some.inj (reads_fromLines_of_eq (fun line hline ↦ .inl (hlines line hline)) rfl h)

end FromJson

/-! ### Pages

The loops of `append_corporate_actions` are a member of the answer, a group of it, and an entry of the
group. What they append does not depend on what they append to, so they are a map over the entries of the
page. -/

section Pages

variable [Doubles D] (lib : JsonLibrary D)

/-- The loop of `append_corporate_actions` over the entries of a group. -/
def appendEntries (type : CorporateActionType) :
    List (Json D) → List (CorporateAction D) → Except Bytes (List (CorporateAction D))
  | [], out => .ok out
  | entry :: entries, out => do
    let action ← CorporateAction.fromJson lib entry {}
    appendEntries type entries (out ++ [{ action with type := type }])

/-- The loop over the groups. -/
def appendGroups :
    List (Bytes × Json D) → List (CorporateAction D) → Except Bytes (List (CorporateAction D))
  | [], out => .ok out
  | (group, .arr entries) :: groups, out => do
    let out ← appendEntries lib (corporateActionTypeFromGroup group) entries out
    appendGroups groups out
  | _ :: groups, out => appendGroups groups out

/-- `append_corporate_actions` -/
def appendCorporateActions (page : Json D) (out : List (CorporateAction D)) :
    Except Bytes (List (CorporateAction D)) :=
  match page.member? (bytes "corporate_actions") with
  | some (.obj groups) => appendGroups lib groups out
  | _ => .ok out

/-- The line of a `corporate_action_page` that holds its actions. -/
def readActions : Reader D (Page (List (CorporateAction D))) := fun j p ↦
  (appendCorporateActions lib j p.content).map fun actions ↦ { p with content := actions }

omit [Doubles D] in
/-- The entries of the groups, in order, each with the name of its group; what is not an array is passed
over. -/
def groupEntries (groups : List (Bytes × Json D)) : List (Bytes × Json D) :=
  groups.flatMap fun (group, v) ↦
    match v with
    | .arr entries => entries.map (group, ·)
    | _ => []

omit [Doubles D] in
/-- The entries of a page. -/
def actionEntries (page : Json D) : List (Bytes × Json D) :=
  match page.member? (bytes "corporate_actions") with
  | some (.obj groups) => groupEntries groups
  | _ => []

/-- The action of an entry. -/
def readAction (entry : Bytes × Json D) : Except Bytes (CorporateAction D) :=
  (CorporateAction.fromJson lib entry.2 {}).map fun action ↦
    { action with type := corporateActionTypeFromGroup entry.1 }

/-- The inner loop of `append_corporate_actions`: the entries of one group, behind what is there. -/
theorem appendEntries_eq (group : Bytes) (entries : List (Json D)) (out : List (CorporateAction D)) :
    appendEntries lib (corporateActionTypeFromGroup group) entries out =
      ((entries.map (group, ·)).mapM (readAction lib)).map (out ++ ·) := by
  induction entries generalizing out with
  | nil => exact congrArg Except.ok (List.append_nil out).symm
  | cons entry entries ih =>
    rw [appendEntries, List.map_cons, List.mapM_cons, readAction]
    rcases CorporateAction.fromJson lib entry {} with what | action
    · rfl
    · refine (ih _).trans ?_
      dsimp only [Except.map, bind, Except.bind]
      rcases (entries.map (group, ·)).mapM (readAction lib) with what | actions
      · rfl
      · exact congrArg Except.ok (List.append_assoc out _ actions)

/-- The outer loop: the entries of all groups. -/
theorem appendGroups_eq (groups : List (Bytes × Json D)) (out : List (CorporateAction D)) :
    appendGroups lib groups out = ((groupEntries groups).mapM (readAction lib)).map (out ++ ·) := by
  induction groups generalizing out with
  | nil => exact congrArg Except.ok (List.append_nil out).symm
  | cons m groups ih =>
    obtain ⟨group, v⟩ := m
    cases v with
    | arr entries =>
      rw [appendGroups, appendEntries_eq, groupEntries, List.flatMap_cons, List.mapM_append, ← groupEntries]
      rcases (entries.map (group, ·)).mapM (readAction lib) with what | actions
      · rfl
      · refine (ih _).trans ?_
        dsimp only [Except.map, bind, Except.bind]
        rcases (groupEntries groups).mapM (readAction lib) with what | more
        · rfl
        · exact congrArg Except.ok (List.append_assoc out actions more)
    | _ => exact ih out

/-- **A page is read entry by entry.** -/
theorem appendCorporateActions_eq (page : Json D) (out : List (CorporateAction D)) :
    appendCorporateActions lib page out = ((actionEntries page).mapM (readAction lib)).map (out ++ ·) := by
  rw [appendCorporateActions, actionEntries]
  rcases page.member? (bytes "corporate_actions") with - | v
  · exact congrArg Except.ok (List.append_nil out).symm
  · cases v with
    | obj groups => exact appendGroups_eq lib groups out
    | _ => exact congrArg Except.ok (List.append_nil out).symm

end Pages

/-! ### The methods

`actionsOf` is what one page adds. From it the two ways to follow the tokens are compared as for the other
endpoints (`corporateActions_agree`), and the result of a call is stated over the bodies of its successes. -/

/-- `corporate_action_query` -/
structure CorporateActionQuery where
  symbols : List Bytes := []
  cusips : List Bytes := []
  types : List Bytes := []
  ids : List Bytes := []
  region : Option Bytes := none
  start : Option Bytes := none
  /-- `end` -/
  finish : Option Bytes := none
  limit : Option UInt32 := none
  dataQuality : Option Bytes := none
  pageToken : Option Bytes := none
  sort : Option SortDirection := none

namespace CorporateActionQuery

/-- The parameters in front of the token. -/
def front (query : CorporateActionQuery) : QueryBuilder :=
  let q : QueryBuilder := {}
  let q := q.addList (bytes "symbols") query.symbols
  let q := q.addList (bytes "cusips") query.cusips
  let q := q.addList (bytes "types") query.types
  let q := q.addList (bytes "ids") query.ids
  let q := q.addOption (bytes "region") id query.region
  let q := q.addOption (bytes "start") id query.start
  let q := q.addOption (bytes "end") id query.finish
  let q := q.addOptionNat (bytes "limit") query.limit
  q.addOption (bytes "data_quality") id query.dataQuality

/-- `corporate_action_query::build` -/
def build (query : CorporateActionQuery) : QueryBuilder :=
  (query.front.addOption pageTokenKey id query.pageToken).addOption (bytes "sort") SortDirection.toString
    query.sort

/-- The token of a `corporate_action_query`. -/
def paged : PagedQuery CorporateActionQuery where
  build := build
  pageToken := pageToken
  withPageToken query t := { query with pageToken := some t }
  front := front
  back query := ({} : QueryBuilder).addOption (bytes "sort") SortDirection.toString query.sort
  params_build query := by
    rw [build, QueryBuilder.params_addOption, QueryBuilder.params_addOption ({} : QueryBuilder), List.nil_append]
  lacks_front query := by
    refine .addOption (.addOptionNat (.addOption (.addOption (.addOption (.addList (.addList (.addList (.addList
      (QueryBuilder.lacks_empty _) ?_ _) ?_ _) ?_ _) ?_ _) ?_ _ _) ?_ _ _) ?_ _ _) ?_ _) ?_ _ _ <;> decide
  lacks_back query := .addOption (QueryBuilder.lacks_empty _) (by decide) _ _
  front_withPageToken _ _ := rfl
  back_withPageToken _ _ := rfl
  pageToken_withPageToken _ _ := rfl

end CorporateActionQuery

section Methods

variable [Doubles D] (serve : ℕ → Request → Response) (ctx : RequestContext D)

def corporateActionsPath : Bytes := bytes "/v1/corporate-actions"

/-- `get_corporate_actions` -/
def getCorporateActions (fuel : ℕ) (query : CorporateActionQuery) (log : Log) :
    Option (Except Error (List (CorporateAction D)) × Log) :=
  paginate serve ctx corporateActionsPath
    (fun actions page ↦ liftJson (appendCorporateActions ctx.json page actions)) fuel query.build [] log

/-- `get_corporate_actions_page` -/
def getCorporateActionsPage (query : CorporateActionQuery) (log : Log) :
    Except Error (Page (List (CorporateAction D))) × Log :=
  readAnswer (Json.toModel (Page.ofLines (readActions ctx.json)) ⟨[], []⟩)
    (ctx.get serve corporateActionsPath query.build log)

variable {serve ctx}

/-- The actions of one page. -/
def actionsOf (lib : JsonLibrary D) (page : Json D) : Except Error (List (CorporateAction D)) :=
  liftJson (appendCorporateActions lib page [])

theorem appendCorporateActions_eq_map (lib : JsonLibrary D) (actions : List (CorporateAction D)) (page : Json D) :
    liftJson (appendCorporateActions lib page actions) = (actionsOf lib page).map (actions ++ ·) := by
  rw [actionsOf, appendCorporateActions_eq, appendCorporateActions_eq]
  rcases (actionEntries page).mapM (readAction lib) with what | read <;> rfl

/-- The method for one page reads it into an empty list. -/
theorem getCorporateActionsPage_eq (query : CorporateActionQuery) (log : Log) :
    getCorporateActionsPage serve ctx query log =
      fetchPage serve ctx corporateActionsPath (actionsOf ctx.json) query.build log := by
  refine readAnswer_eq_fetchPage serve ctx corporateActionsPath (fun members ↦ ?_) (fun j hj ↦ ?_) query.build log
  · rw [readActions, actionsOf]
    rcases appendCorporateActions ctx.json (.obj members) [] with what | actions <;> rfl
  · cases j with
    | obj members => exact absurd hj (by simp [Json.isObject])
    | _ => rfl

/-- **Corporate actions are their page method in a loop**, for a server that does not look at the order of the
parameters: as many requests with the same parameters, the same notices and waits, and the same actions in the
same order or the same exception. -/
theorem corporateActions_agree (hserve : Indifferent serve ctx corporateActionsPath) (fuel : ℕ)
    (query : CorporateActionQuery) (log : Log) :
    Option.Rel (Pager.Agree Eq (Log.Alike ctx corporateActionsPath)) (getCorporateActions serve ctx fuel query log)
      (loopPages CorporateActionQuery.paged (getCorporateActionsPage serve ctx) (· ++ ·) fuel query [] log) := by
  refine paginate_agree_loopPages (B := CorporateActionQuery.paged) hserve id
    (appendCorporateActions_eq_map ctx.json) (fun query log ↦ ?_) (fun page h ↦ congrArg (· ++ page) h) fuel query
    rfl log
  rw [getCorporateActionsPage_eq]
  refine congrArg (fetchPage serve ctx corporateActionsPath · query.build log) (funext fun j ↦ ?_)
  rcases actionsOf ctx.json j with e | actions <;> rfl

/-- An entry and its action: what `from_json` reads, and the type its group names. -/
def Describes (lib : JsonLibrary D) (entry : Bytes × Json D) (action : CorporateAction D) : Prop :=
  CorporateAction.fromJson lib entry.2 {} = .ok { action with type := .unknown } ∧
    ∀ t ≠ .unknown, action.type = t ↔
      ∃ name, (t, name) ∈ CorporateActionType.spellings ∧ (entry.1 = name ∨ entry.1 = name ++ [byte 's'])

/-- An action describes the entry it was read from. -/
theorem describes_of_readAction {lib : JsonLibrary D} {entry : Bytes × Json D} {action : CorporateAction D}
    (h : readAction lib entry = .ok action) : Describes lib entry action := by
  rw [readAction] at h
  obtain ⟨read, hread, rfl⟩ := exists_of_map_eq_ok h
  refine ⟨?_, fun t ht ↦ corporateActionTypeFromGroup_eq_iff ht entry.1⟩
  have htype : read.type = .unknown := CorporateAction.type_of_fromJson hread
  rw [hread]
  exact congrArg Except.ok (by rw [← htype])

omit [Doubles D] in
/-- What is parsed prints, in its entries too. -/
theorem prints_of_mem_actionEntries {lib : JsonLibrary D} {j : Json D} {entry : Bytes × Json D}
    (hj : ∀ v, j.member? (bytes "corporate_actions") = some v → lib.PrintsAll v) (h : entry ∈ actionEntries j) :
    lib.Prints entry.2 := by
  rw [actionEntries] at h
  split at h
  case h_2 => exact absurd h List.not_mem_nil
  case h_1 groups hgroups =>
    obtain ⟨⟨group, v⟩, hmem, hentry⟩ := List.mem_flatMap.1 h
    have hv := (hj _ hgroups).of_value hmem
    cases v with
    | arr entries =>
      obtain ⟨e, he, rfl⟩ := List.mem_map.1 hentry
      exact (hv.of_elem he).self
    | _ => exact absurd hentry List.not_mem_nil

/-- The actions of a page describe its entries. -/
theorem exists_entries_of_pageOf {text token : Bytes} {actions : List (CorporateAction D)}
    (h : pageOf ctx (actionsOf ctx.json) text = .ok ⟨actions, token⟩) :
    ∃ j, parseBody ctx.json text = .ok j ∧ List.Forall₂ (Describes ctx.json) (actionEntries j) actions := by
  obtain ⟨j, hparse, hread⟩ := exists_of_pageOf_eq_ok h
  refine ⟨j, hparse, ?_⟩
  rw [actionsOf, appendCorporateActions_eq] at hread
  rcases hmap : (actionEntries j).mapM (readAction ctx.json) with what | read
  · rw [hmap] at hread
    exact absurd hread (by simp [Except.map, liftJson])
  · rw [hmap] at hread
    obtain rfl : read = actions := Except.ok.inj hread
    exact (forall₂_of_mapM_eq_ok hmap).imp fun _ _ ↦ describes_of_readAction

/-- **One action for each entry of the answers**, in order, of the type its group names by its singular or its
plural; the JSON library throws at no action, only at a token that is no string. -/
theorem corporateActions_of_answers (hlib : ctx.json.ParsedPrints) {fuel : ℕ} {query : CorporateActionQuery}
    {log log' : Log} {out : Except Error (List (CorporateAction D))}
    (h : getCorporateActions serve ctx fuel query log = some (out, log')) :
    ∃ texts, log'.bodies = log.bodies ++ texts ∧
      (Mapped out ↔ ∀ text ∈ texts, ∀ j, parseBody ctx.json text = .ok j → j.Dated nextPageTokenKey) ∧
      ∀ actions, out = .ok actions → ∃ pages,
        List.Forall₂ (fun text entries ↦ ∃ j, parseBody ctx.json text = .ok j ∧ entries = actionEntries j)
          texts pages ∧
        List.Forall₂ (Describes ctx.json) pages.flatten actions := by
  -- every page can be read, so only the token is left to throw
  have hreadable : ∀ text j, parseBody ctx.json text = .ok j →
      ∃ r, actionsOf ctx.json j = liftJson r ∧ ((∃ x, r = .ok x) ↔ True) := by
    intro text j hparse
    refine ⟨_, rfl, iff_true_intro ?_⟩
    rw [appendCorporateActions_eq, exists_map_eq_ok, exists_mapM_eq_ok]
    exact fun entry hentry ↦ exists_map_eq_ok.2 (CorporateAction.total_fromJson
      (prints_of_mem_actionEntries (fun _ hv ↦ printsAll_of_parseBody hlib hparse hv) hentry) {})
  obtain ⟨texts, hlisted⟩ := exists_listedFrom (appendCorporateActions_eq_map ctx.json) hreadable h
  refine ⟨texts, hlisted.bodies, by simpa using hlisted.mapped, fun actions hactions ↦ ?_⟩
  obtain ⟨read, rfl, hread⟩ := hlisted.items actions hactions
  clear hlisted hactions
  -- page by page: what a page adds is one action for each of its entries
  induction hread with
  | nil => exact ⟨[], .nil, .nil⟩
  | @cons text page texts read hpage _ ih =>
    obtain ⟨token, hpage⟩ := hpage
    obtain ⟨j, hparse, hentries⟩ := exists_entries_of_pageOf hpage
    obtain ⟨pages, hpages, hactions⟩ := ih
    exact ⟨actionEntries j :: pages, .cons ⟨j, hparse, rfl⟩ hpages, List.rel_append hentries hactions⟩

end Methods

/-! ### Two dividends and a split -/

/-- A page of corporate actions. -/
def actionsPage (token : Json ℚ) (groups : List (Bytes × Json ℚ)) : Json ℚ :=
  .obj [(bytes "corporate_actions", .obj groups), (nextPageTokenKey, token)]

/-- A page with a dividend, a split and a group that is no array. -/
def dividendAndSplit : Json ℚ := actionsPage (.str (bytes "t")) [
  (bytes "cash_dividends", .arr [.obj [(bytes "rate", .str (bytes "2")), (bytes "special", .bool true)]]),
  (bytes "extra", .null),
  (bytes "forward_splits", .arr [.obj [(bytes "symbol", .str (bytes "A"))]])]

/-- A page with a dividend. -/
def lateDividend : Json ℚ := actionsPage .null [
  (bytes "cash_dividends", .arr [.obj [(bytes "symbol", .str (bytes "B"))]])]

/-- A client whose JSON library reads `x` as the first of these pages, and every other text as the second. -/
def actionsClient : RequestContext ℚ where
  baseUrl := bytes "https://data.alpaca.markets"
  json := {
    parse := fun text ↦ .ok (if text = bytes "x" then dividendAndSplit else lateDividend)
    dump := fun _ ↦ .ok [] }
  base64Encode := id
  floatToInt32 := id ∘ Rat.floor

/-- A client that gets two pages behind a failure. -/
theorem twoPages_actionsClient : TwoPages actionsClient dividendAndSplit lateDividend (bytes "t") where
  retries := by decide
  first_eq := rfl
  last_eq := rfl
  first_token := rfl
  last_token := rfl
  token_ne_nil := by decide

/-- The actions of the first page. -/
def firstActions : List (CorporateAction ℚ) := [
  { type := .cashDividend, rate := some 2, special := true }, { type := .forwardSplit, symbol := bytes "A" }]

/-- The action of the second. -/
def lastActions : List (CorporateAction ℚ) := [{ type := .cashDividend, symbol := bytes "B" }]

/-- The method asks for the second page with `sort` in front of the token, the loop with `sort` behind it. -/
theorem corporateActions_agree_dividend : ∃ log log',
    getCorporateActions twoPageServer actionsClient 2 { sort := some .asc } [] =
      some (.ok (firstActions ++ lastActions), log) ∧
    loopPages CorporateActionQuery.paged (getCorporateActionsPage twoPageServer actionsClient) (· ++ ·) 2
      { sort := some .asc } [] [] = some (.ok (firstActions ++ lastActions), log') ∧
    log.requests ≠ log'.requests ∧ Log.Alike actionsClient corporateActionsPath log log' := by
  have hserve : Indifferent twoPageServer actionsClient corporateActionsPath := fun _ _ _ _ ↦ rfl
  have h := corporateActions_agree hserve 2 { sort := some .asc } []
  obtain ⟨log, hrun, hrequests⟩ := twoPages_actionsClient.paginate_eq
    (fun actions page ↦ liftJson (appendCorporateActions actionsClient.json page actions)) (a := [])
    (b := firstActions) (c := firstActions ++ lastActions) rfl rfl corporateActionsPath
    (CorporateActionQuery.build { sort := some .asc })
  obtain ⟨log', hloop, hrequests'⟩ := twoPages_actionsClient.loopPages_eq (B := CorporateActionQuery.paged)
    (actionsOf actionsClient.json) getCorporateActionsPage_eq (p := firstActions) (q := lastActions) rfl rfl
    (· ++ ·) { sort := some .asc } []
  rw [show getCorporateActions twoPageServer actionsClient 2 { sort := some .asc } [] = _ from hrun, hloop] at h
  rcases h with ⟨⟨-, halike⟩⟩
  refine ⟨log, log', hrun, hloop, ?_, halike⟩
  rw [hrequests, hrequests']
  decide +kernel

/-- Both pages in one call, for the failure is retried. -/
theorem corporateActions_of_answers_dividend : ∃ log' texts pages,
    getCorporateActions twoPageServer actionsClient 2 {} [] = some (.ok (firstActions ++ lastActions), log') ∧
    log'.bodies = texts ∧
    List.Forall₂ (Describes actionsClient.json) (List.flatten pages) (firstActions ++ lastActions) := by
  obtain ⟨log, hrun, -⟩ := twoPages_actionsClient.paginate_eq
    (fun actions page ↦ liftJson (appendCorporateActions actionsClient.json page actions)) (a := [])
    (b := firstActions) (c := firstActions ++ lastActions) rfl rfl corporateActionsPath
    (CorporateActionQuery.build {})
  replace hrun : getCorporateActions twoPageServer actionsClient 2 {} [] = _ := hrun
  obtain ⟨texts, hbodies, -, hactions⟩ := corporateActions_of_answers (fun _ _ _ _ _ ↦ ⟨[], rfl⟩) hrun
  obtain ⟨pages, -, hdescribes⟩ := hactions _ rfl
  exact ⟨log, texts, pages, hrun, hbodies, hdescribes⟩

end Alpaca
