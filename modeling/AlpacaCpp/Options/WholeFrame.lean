import AlpacaCpp.Foundation.Msgpack
import AlpacaCpp.Options.Decoder

/-!
# Which frames `frame_decoder::decode` accepts

`execute` reports success as soon as the first object of a frame is complete, and leaves its end in `offset`.
`decode` does not look at `offset`: it accepts every frame that *begins* with an object. So it accepts the
frames that are one object, and with them the frames that go on behind one (`decodes_iff`). What they go on
with is dropped.

That the two are different frames is a fact about the format: no object is the beginning of another one
(`Foundation/Msgpack`), so a frame that begins with an object and goes on is not one object itself.
-/

namespace Alpaca

variable {D : Type}

/-- `execute` reports success when an object is complete, however many bytes are left. -/
def MsgpackParser.Stops (parser : MsgpackParser D) : Prop :=
  ∀ data, parser.finish data = .success ↔
    ∃ object rest, data = object ++ rest ∧ Msgpack.IsObject object

namespace Decoder

variable [DoubleCasts D]

/-- What is asked of `decode`: whenever no handler throws, it returns `true` exactly for one complete
object. -/
def DecodesWhole (parser : MsgpackParser D) (data : Bytes) : Prop :=
  ∀ (d : Decoder D) (env : Surroundings D), (d.run parser env data).abandoned = false →
    ((d.decode parser env data).1.2 = .decoded ↔ Msgpack.IsObject data)

/-- What `decode` returns, when it returns. -/
theorem decoded_iff {parser : MsgpackParser D} {d : Decoder D} {env : Surroundings D} {data : Bytes}
    (hcalm : (d.run parser env data).abandoned = false) :
    (d.decode parser env data).1.2 = .decoded ↔ parser.finish data = .success := by
  rw [decode]
  simp only [hcalm, Bool.false_eq_true, if_false]
  rcases parser.finish data with - | - | what <;> simp

/-- Handlers that never throw abandon no frame. -/
theorem abandoned_run_of_calm {env : Surroundings D} (henv : ∀ taken, env.throws taken = false)
    (parser : MsgpackParser D) (data : Bytes) : (fresh.run parser env data).abandoned = false := by
  have hfold : ∀ (ms : List (RawMessage D)) (taken : List (Delivery D)),
      (ms.foldl (take env) (taken, false)).2 = false := by
    intro ms
    induction ms with
    | nil => exact fun _ ↦ rfl
    | cons m ms ih =>
      intro taken
      rw [List.foldl_cons, take, if_neg Bool.false_ne_true]
      split
      · rw [henv]
        exact ih _
      · exact ih taken
  exact (congrArg Prod.snd (deliveries_run parser env data clean_fresh)).trans (hfold _ _)

/-- **Exactly when `decode` tells one object from anything else**: unless the frame goes on behind a complete
object. -/
theorem decodes_iff (parser : MsgpackParser D) (hstops : parser.Stops) (data : Bytes) :
    DecodesWhole parser data ↔
      ∀ object rest, data = object ++ rest → Msgpack.IsObject object → rest = [] := by
  constructor
  · rintro hwhole object rest rfl hobject
    -- a run that is not abandoned, so that `decode` returns
    obtain ⟨env, henv⟩ : ∃ env : Surroundings D, ∀ taken, env.throws taken = false :=
      ⟨⟨fun _ ↦ true, fun _ ↦ true, fun _ ↦ false⟩, fun _ ↦ rfl⟩
    have hcalm := abandoned_run_of_calm henv parser (object ++ rest)
    have hsuccess := (hstops _).2 ⟨object, rest, rfl, hobject⟩
    have hall : Msgpack.IsObject (object ++ rest) := (hwhole _ _ hcalm).1 ((decoded_iff hcalm).2 hsuccess)
    exact (hobject.eq_of_append_eq hall (List.append_nil _).symm).2
  · intro hends d env hcalm
    rw [decoded_iff hcalm, hstops]
    constructor
    · rintro ⟨object, rest, rfl, hobject⟩
      rw [hends object rest rfl hobject, List.append_nil]
      exact hobject
    · exact fun hobject ↦ ⟨data, [], (List.append_nil data).symm, hobject⟩

/-! ### A frame that goes on -/

/-- An empty array, and behind it the frame of a trade. -/
def continuedFrame : Bytes := 0x90 :: bareTradeFrame

/-- A parser that stops behind the first object. -/
def stoppingParser : MsgpackParser ℚ where
  events data := if data = continuedFrame then (Sax.Tree.array []).events else tableParser.events data
  finish data := if (Msgpack.skip 1 data).isSome then .success else .failure

/-- A parser that stops behind the first object. -/
theorem stoppingParser_stops : stoppingParser.Stops := by
  intro data
  have hfinish : stoppingParser.finish data = .success ↔ (Msgpack.skip 1 data).isSome := by
    show (if _ then _ else _) = _ ↔ _
    split <;> simp_all
  rw [hfinish, Option.isSome_iff_exists]
  constructor
  · rintro ⟨rest, hrest⟩
    obtain ⟨object, hobject, rfl⟩ := Msgpack.skip_eq_some_iff.1 hrest
    exact ⟨object, rest, rfl, hobject⟩
  · rintro ⟨object, rest, rfl, hobject⟩
    exact ⟨rest, Msgpack.skip_append hobject rest⟩

theorem isObject_emptyArray : Msgpack.IsObject [0x90] :=
  .cons (.container rfl) .nil

/-- A frame with one trade is an object. -/
theorem isObject_bareTradeFrame : Msgpack.IsObject bareTradeFrame := by
  have harray : Msgpack.Head [0x91] 1 := .container rfl
  have hmap : Msgpack.Head [0x81] 2 := .container rfl
  have hkey : Msgpack.Head [0xA1, 0x54] 0 := .payload rfl rfl
  have hvalue : Msgpack.Head [0xA1, 0x74] 0 := .payload rfl rfl
  exact .cons harray (.cons hmap (.cons hkey (.cons hvalue .nil)))

/-- The frame of one trade is told from anything else. -/
theorem decodes_bareTradeFrame : DecodesWhole stoppingParser bareTradeFrame :=
  (decodes_iff stoppingParser stoppingParser_stops bareTradeFrame).2 fun _ _ hsplit hobject ↦
    (hobject.eq_of_append_eq isObject_bareTradeFrame (hsplit.symm.trans (List.append_nil _).symm)).2

/-- **A trade that is dropped**: behind an empty array its frame is accepted, and not delivered. -/
theorem not_decodesWhole_continuedFrame :
    stoppingParser.Stops ∧
    (fresh.decode stoppingParser calm bareTradeFrame).1 = ([.trade [] .empty], .decoded) ∧
    (fresh.decode stoppingParser calm continuedFrame).1 = ([], .decoded) ∧
    ¬DecodesWhole stoppingParser continuedFrame := by
  have hbare : stoppingParser.finish bareTradeFrame = .success :=
    (stoppingParser_stops _).2 ⟨bareTradeFrame, [], rfl, isObject_bareTradeFrame⟩
  have hcontinued : stoppingParser.finish continuedFrame = .success :=
    (stoppingParser_stops _).2 ⟨[0x90], bareTradeFrame, rfl, isObject_emptyArray⟩
  refine ⟨stoppingParser_stops, Prod.ext rfl ((decoded_iff rfl).2 hbare),
    Prod.ext rfl ((decoded_iff rfl).2 hcontinued), fun hwhole ↦ ?_⟩
  have hall := (hwhole fresh calm rfl).1 ((decoded_iff rfl).2 hcontinued)
  have hrest := (isObject_emptyArray.eq_of_append_eq hall
    (show [0x90] ++ bareTradeFrame = continuedFrame ++ [] from rfl)).2
  exact absurd hrest (by decide)

end Decoder

end Alpaca
