import Mathlib.Data.Nat.Notation
import Mathlib.Data.Option.Basic

/-!
# Listings that come page by page

A `Pager` answers a key with a page and the token of the next one, if there is one, and `next` makes the
key of that page. `collect` follows the tokens and folds the pages into an accumulator; whoever serves the
pages decides whether it ends, so it takes fuel, and `none` is running out of it. `Walk` is the same
without fuel and without an accumulator: the pages that are fetched, and the exception they end with, if
any. Fetching threads a state, in which whatever the pages cost is kept.

The same pages may be asked for with different keys, and folded differently. `Similar` says of two pagers
that related keys fetch related pages, and `Similar.collect` that **what they collect is related, throws
alike and is as long in coming**. Equality of the two is the case of equal keys (`collect_eq_of_comp`).
-/

universe u v

/-- A listing that comes page by page. -/
structure Pager (κ σ : Type u) (ε π τ : Type v) where
  /-- One page, and the token of the next one. -/
  fetch : κ → σ → Except ε (π × Option τ) × σ
  /-- The key of the page that a token names. -/
  next : κ → τ → κ

namespace Pager

variable {κ κ' σ σ' : Type u} {ε π π' τ α α' : Type v}

/-- Follow the tokens and fold the pages into an accumulator. -/
def collect (p : Pager κ σ ε π τ) (merge : α → π → α) : ℕ → κ → α → σ → Option (Except ε α × σ)
  | 0, _, _, _ => none
  | fuel + 1, k, acc, s =>
    match p.fetch k s with
    | (.error e, s) => some (.error e, s)
    | (.ok (page, none), s) => some (.ok (merge acc page), s)
    | (.ok (page, some t), s) => p.collect merge fuel (p.next k t) (merge acc page) s

/-! ### The pages -/

/-- The pages that are fetched from a key on, in order, and the exception they end with. -/
inductive Walk (p : Pager κ σ ε π τ) : κ → σ → List π → Option ε → σ → Prop where
  | last {k : κ} {s s' : σ} {page : π} : p.fetch k s = (.ok (page, none), s') → Walk p k s [page] none s'
  | thrown {k : κ} {s s' : σ} {e : ε} : p.fetch k s = (.error e, s') → Walk p k s [] (some e) s'
  | next {k : κ} {s s' s'' : σ} {page : π} {t : τ} {pages : List π} {ended : Option ε} :
      p.fetch k s = (.ok (page, some t), s') → Walk p (p.next k t) s' pages ended s'' →
        Walk p k s (page :: pages) ended s''

/-- What is made of pages and the exception they end with. -/
def outcome (merge : α → π → α) (acc : α) (pages : List π) (ended : Option ε) : Except ε α :=
  ended.elim (.ok (pages.foldl merge acc)) .error

variable {p : Pager κ σ ε π τ} {merge : α → π → α}

/-- **What is collected is the fold of a walk**, whatever fuel it took. -/
theorem exists_walk_of_collect {fuel : ℕ} {k : κ} {acc : α} {s s' : σ} {out : Except ε α}
    (h : p.collect merge fuel k acc s = some (out, s')) :
    ∃ pages ended, p.Walk k s pages ended s' ∧ out = outcome merge acc pages ended := by
  induction fuel generalizing k acc s with
  | zero => exact absurd h (by simp [collect])
  | succ fuel ih =>
    rw [collect] at h
    rcases hfetch : p.fetch k s with ⟨e | ⟨page, - | t⟩, s₁⟩
    · rw [hfetch] at h
      obtain ⟨rfl, rfl⟩ := Prod.mk.inj (Option.some.inj h)
      exact ⟨[], some e, .thrown hfetch, rfl⟩
    · rw [hfetch] at h
      obtain ⟨rfl, rfl⟩ := Prod.mk.inj (Option.some.inj h)
      exact ⟨[page], none, .last hfetch, rfl⟩
    · rw [hfetch] at h
      obtain ⟨pages, ended, hwalk, rfl⟩ := ih h
      exact ⟨page :: pages, ended, .next hfetch hwalk, by cases ended <;> rfl⟩

/-! ### Two pagers -/

/-- Results that are related, or the same exception. -/
inductive Agree (A : α → α' → Prop) (S : σ → σ' → Prop) : Except ε α × σ → Except ε α' × σ' → Prop where
  | ok {a : α} {a' : α'} {s : σ} {s' : σ'} : A a a' → S s s' → Agree A S (.ok a, s) (.ok a', s')
  | error {e : ε} {s : σ} {s' : σ'} : S s s' → Agree A S (.error e, s) (.error e, s')

/-- Related keys fetch related pages, with the same tokens. -/
structure Similar (p : Pager κ σ ε π τ) (p' : Pager κ' σ' ε π' τ) (K : κ → κ' → Prop) (S : σ → σ' → Prop)
    (P : π → π' → Prop) : Prop where
  fetch {k : κ} {k' : κ'} {s : σ} {s' : σ'} : K k k' → S s s' →
    Agree (fun x x' ↦ P x.1 x'.1 ∧ x.2 = x'.2) S (p.fetch k s) (p'.fetch k' s')
  next {k : κ} {k' : κ'} (t : τ) : K k k' → K (p.next k t) (p'.next k' t)

/-- **Similar pagers collect alike.** -/
theorem Similar.collect {p' : Pager κ' σ' ε π' τ} {K : κ → κ' → Prop} {S : σ → σ' → Prop}
    {P : π → π' → Prop} (h : Similar p p' K S P) {merge' : α' → π' → α'} {A : α → α' → Prop}
    (hmerge : ∀ {acc acc' page page'}, A acc acc' → P page page' → A (merge acc page) (merge' acc' page'))
    (fuel : ℕ) {k : κ} {k' : κ'} {acc : α} {acc' : α'} {s : σ} {s' : σ'} (hk : K k k') (ha : A acc acc')
    (hs : S s s') :
    Option.Rel (Agree A S) (p.collect merge fuel k acc s) (p'.collect merge' fuel k' acc' s') := by
  induction fuel generalizing k k' acc acc' s s' with
  | zero => exact .none
  | succ fuel ih =>
    have hfetch := h.fetch hk hs
    rw [Pager.collect, Pager.collect]
    generalize p.fetch k s = r at hfetch
    generalize p'.fetch k' s' = r' at hfetch
    rcases hfetch with ⟨hx, hs₁⟩ | hs₁
    case error => exact .some (.error hs₁)
    case ok x x' s₁ s₁' =>
      obtain ⟨page, named⟩ := x
      obtain ⟨page', named'⟩ := x'
      obtain ⟨hpage, rfl⟩ : P page page' ∧ named = named' := hx
      rcases named with - | t
      · exact .some (.ok (hmerge ha hpage) hs₁)
      · exact ih (h.next t hk) (hmerge ha hpage) hs₁

/-- Pagers with functionally related keys, which fetch the same, collect the same. -/
theorem collect_eq_of_comp {p : Pager κ σ ε π τ} {p' : Pager κ' σ ε π τ} (f : κ' → κ)
    (hfetch : ∀ k s, p.fetch (f k) s = p'.fetch k s) (hnext : ∀ k t, p.next (f k) t = f (p'.next k t))
    (merge : α → π → α) (fuel : ℕ) (k : κ') (acc : α) (s : σ) :
    p.collect merge fuel (f k) acc s = p'.collect merge fuel k acc s := by
  induction fuel generalizing k acc s with
  | zero => rfl
  | succ fuel ih =>
    rw [collect, collect, hfetch]
    rcases p'.fetch k s with ⟨e | ⟨page, - | t⟩, s'⟩
    · rfl
    · rfl
    · dsimp only
      rw [hnext, ih]

end Pager
