import AlpacaCpp.Http.RequestContext
import Mathlib.Data.List.DropRight

/-!
# Where a client takes its credentials from

`credentials::resolve` (`core/src/auth.cpp`) takes what the caller passes, or else one of two families
of environment variables. Which family that is depends on the environment and on what the paper family
holds (`selected`), and its three values are always taken together, trimmed (`fromEnvOf_eq`).

The two tests are one test, `credentials::empty`, which calls a key without a secret empty. For a paper
family that is the documented fallback. For what the caller passes it is not: half a pair is replaced by
the environment. `resolve_keeps_promise_iff` says when `resolve` does what its comment promises.
-/

namespace Alpaca

/-- `environment` -/
inductive Environment
  | paper
  | live
  | sandbox
  deriving DecidableEq

/-! ### The environment -/

/-- `trim` -/
def trim (value : Bytes) : Bytes := (value.dropWhile isSpace).rdropWhile isSpace

/-- `get_env`, over `std::getenv`. -/
def getEnv (getenv : Bytes → Option Bytes) (name : Bytes) : Bytes :=
  match getenv name with
  | some value => trim value
  | none => []

/-- Only whitespace is taken away, and none is left at either end. -/
theorem trim_spec (value : Bytes) :
    (∃ front back, value = front ++ trim value ++ back ∧ front.all isSpace ∧ back.all isSpace) ∧
      (∀ h : trim value ≠ [], ¬ isSpace ((trim value).head h) ∧ ¬ isSpace ((trim value).getLast h)) := by
  have hfront : trim value <+: value.dropWhile isSpace := List.rdropWhile_prefix isSpace _
  refine ⟨⟨value.takeWhile isSpace, (value.dropWhile isSpace).rtakeWhile isSpace, ?_, ?_, ?_⟩, ?_⟩
  · rw [List.append_assoc, trim, List.rdropWhile_append_rtakeWhile, List.takeWhile_append_dropWhile]
  · exact List.all_takeWhile
  · exact List.all_eq_true.2 fun _ ↦ List.mem_rtakeWhile_imp
  · intro h
    refine ⟨?_, List.rdropWhile_last_not _ _ h⟩
    have hne : value.dropWhile isSpace ≠ [] := fun heq ↦ h (List.prefix_nil.1 (heq ▸ hfront))
    rw [hfront.head h]
    exact Bool.eq_false_iff.1 (List.head_dropWhile_not isSpace hne)

namespace Credentials

/-- `empty` -/
def empty (c : Credentials) : Bool :=
  c.oauthToken.isEmpty && (c.apiKeyId.isEmpty || c.apiSecretKey.isEmpty)

/-- `from_env()` -/
def fromEnv (getenv : Bytes → Option Bytes) : Credentials where
  apiKeyId := getEnv getenv (bytes "APCA_API_KEY_ID")
  apiSecretKey := getEnv getenv (bytes "APCA_API_SECRET_KEY")
  oauthToken := getEnv getenv (bytes "APCA_API_OAUTH_TOKEN")

/-- `from_env(environment)` -/
def fromEnvOf (getenv : Bytes → Option Bytes) (env : Environment) : Credentials :=
  if env = .paper then
    let paper : Credentials :=
      { apiKeyId := getEnv getenv (bytes "APCA_PAPER_API_KEY_ID")
        apiSecretKey := getEnv getenv (bytes "APCA_PAPER_API_SECRET_KEY")
        oauthToken := getEnv getenv (bytes "APCA_PAPER_API_OAUTH_TOKEN") }
    if ¬ paper.empty then paper else fromEnv getenv
  else fromEnv getenv

/-- `resolve` -/
def resolve (getenv : Bytes → Option Bytes) (creds : Credentials) (env : Environment) : Credentials :=
  if creds.empty then fromEnvOf getenv env else creds

/-! ### What the comments promise -/

/-- A family of variables: the names of its key, its secret and its token. -/
structure Family where
  key : Bytes
  secret : Bytes
  token : Bytes
  deriving DecidableEq

/-- The unprefixed variables. -/
def Family.unprefixed : Family :=
  ⟨bytes "APCA_API_KEY_ID", bytes "APCA_API_SECRET_KEY", bytes "APCA_API_OAUTH_TOKEN"⟩

/-- The paper variables. -/
def Family.paper : Family :=
  ⟨bytes "APCA_PAPER_API_KEY_ID", bytes "APCA_PAPER_API_SECRET_KEY",
    bytes "APCA_PAPER_API_OAUTH_TOKEN"⟩

/-- What a family holds, each value trimmed and an unset one empty. -/
def Family.read (getenv : Bytes → Option Bytes) (f : Family) : Credentials where
  apiKeyId := trim ((getenv f.key).getD [])
  apiSecretKey := trim ((getenv f.secret).getD [])
  oauthToken := trim ((getenv f.token).getD [])

/-- Enough for a request: a token, or both a key and a secret. -/
def Usable (c : Credentials) : Prop := c.oauthToken ≠ [] ∨ c.apiKeyId ≠ [] ∧ c.apiSecretKey ≠ []

instance (c : Credentials) : Decidable c.Usable := inferInstanceAs (Decidable (_ ∨ _))

/-- Anything at all. -/
def Carries (c : Credentials) : Prop := c.oauthToken ≠ [] ∨ c.apiKeyId ≠ [] ∨ c.apiSecretKey ≠ []

instance (c : Credentials) : Decidable c.Carries := inferInstanceAs (Decidable (_ ∨ _))

/-- The family an environment reads. -/
def selected (getenv : Bytes → Option Bytes) (env : Environment) : Family :=
  if env = .paper ∧ (Family.paper.read getenv).Usable then .paper else .unprefixed

/-- The promise of `resolve`: what carries anything is returned unchanged, and for anything else the
selected family is read. -/
def KeepsPromise (getenv : Bytes → Option Bytes) (creds : Credentials) (env : Environment)
    (result : Credentials) : Prop :=
  (creds.Carries → result = creds) ∧ (¬ creds.Carries → result = (selected getenv env).read getenv)

variable {getenv : Bytes → Option Bytes} {creds : Credentials} {env : Environment}

/-- `empty` is the test for use. -/
theorem empty_iff (c : Credentials) : c.empty = false ↔ c.Usable := by
  simp only [empty, Usable, Bool.and_eq_false_iff, Bool.or_eq_false_iff, List.isEmpty_eq_false_iff]

/-- A blank variable is read like one that is not set. -/
theorem getEnv_eq (name : Bytes) : getEnv getenv name = trim ((getenv name).getD []) := by
  unfold getEnv
  split
  case h_1 value h => rw [h, Option.getD_some]
  case h_2 h => rw [h, Option.getD_none]; rfl

/-- **One family at a time.** The three values come from the selected family, all of them. -/
theorem fromEnvOf_eq (getenv : Bytes → Option Bytes) (env : Environment) :
    fromEnvOf getenv env = (selected getenv env).read getenv := by
  have hpaper : Family.paper.read getenv = ⟨getEnv getenv (bytes "APCA_PAPER_API_KEY_ID"),
      getEnv getenv (bytes "APCA_PAPER_API_SECRET_KEY"),
      getEnv getenv (bytes "APCA_PAPER_API_OAUTH_TOKEN")⟩ := by
    rw [getEnv_eq, getEnv_eq, getEnv_eq]
    rfl
  have hunprefixed : Family.unprefixed.read getenv = fromEnv getenv := by
    rw [fromEnv, getEnv_eq, getEnv_eq, getEnv_eq]
    rfl
  rw [fromEnvOf, selected, ← hpaper]
  simp only [Bool.not_eq_true, empty_iff]
  split
  case isTrue henv =>
    rw [apply_ite (Family.read getenv), hunprefixed]
    simp only [henv, true_and]
  case isFalse henv => rw [if_neg fun h ↦ henv h.1, hunprefixed]

/-- **`resolve` keeps its promise if and only if** what the caller passes is usable or carries nothing,
or the selected family happens to hold the same half of a pair. Any other half of a pair is replaced by
what the environment holds. -/
theorem resolve_keeps_promise_iff (getenv : Bytes → Option Bytes) (creds : Credentials)
    (env : Environment) :
    KeepsPromise getenv creds env (resolve getenv creds env) ↔
      creds.Usable ∨ ¬ creds.Carries ∨ (selected getenv env).read getenv = creds := by
  have hcarries : creds.Usable → creds.Carries := Or.imp_right fun h ↦ .inl h.1
  by_cases husable : creds.Usable
  · have hresolve : resolve getenv creds env = creds := by
      rw [resolve, (empty_iff creds).2 husable, if_neg Bool.false_ne_true]
    rw [hresolve]
    exact ⟨fun _ ↦ .inl husable, fun _ ↦ ⟨fun _ ↦ rfl, fun h ↦ absurd (hcarries husable) h⟩⟩
  · have hempty : creds.empty = true := by
      rwa [← empty_iff, Bool.not_eq_false] at husable
    have hresolve : resolve getenv creds env = (selected getenv env).read getenv := by
      rw [resolve, if_pos hempty, fromEnvOf_eq]
    rw [hresolve]
    constructor
    · intro h
      by_cases hany : creds.Carries
      · exact .inr (.inr (h.1 hany))
      · exact .inr (.inl hany)
    · rintro (h | h | h)
      · exact absurd h husable
      · exact ⟨fun hany ↦ absurd hany h, fun _ ↦ rfl⟩
      · exact ⟨fun _ ↦ h, fun _ ↦ rfl⟩

/-- A key without its secret, in an environment whose live pair is set: the caller's key is gone. -/
theorem not_keepsPromise_halfPair :
    ¬ ∀ getenv creds env, KeepsPromise getenv creds env (resolve getenv creds env) := by
  intro h
  have hhalf := (h (fun name ↦ if name = bytes "APCA_API_KEY_ID" then some (bytes "AKLIVE")
      else if name = bytes "APCA_API_SECRET_KEY" then some (bytes "live-secret") else none)
    { apiKeyId := bytes "PKMINE" } .live).1 (by decide)
  exact absurd (congrArg apiKeyId hhalf) (by decide)

end Credentials

end Alpaca
