import AnimaOS.EgressDispatch
import Mathlib.Data.List.Forall2

/-!
# What redacted URLs tell apart

Two URLs that differ in nothing but the parts that may carry secrets: the values
of sensitive query parameters, the fragment and the userinfo. Their redacted forms
are compared.
-/

namespace EgressDispatch

open EgressGuard TextSplit

structure QueryParam where
  name : Text
  value : Option Text
  plainName : '&' ∉ name ∧ '#' ∉ name ∧ '=' ∉ name
  plainValue : ∀ v, value = some v → '&' ∉ v ∧ '#' ∉ v

def QueryParam.text (p : QueryParam) : Text := p.name ++ p.value.elim [] ('=' :: ·)

/-- A URL in its parts; nothing is asked of the fragment. -/
structure Url where
  scheme : Text
  userinfo : Option Text
  location : Text
  query : Option (List QueryParam)
  fragment : Option Text
  plainScheme : '?' ∉ scheme ∧ '#' ∉ scheme
  plainUserinfo : ∀ info, userinfo = some info → '?' ∉ info ∧ '#' ∉ info
  plainLocation : '?' ∉ location ∧ '#' ∉ location
  someQuery : query ≠ some []

namespace Url

def userinfoText (u : Url) : Text := u.userinfo.elim [] (· ++ ['@'])

def base (u : Url) : Text := u.scheme ++ (u.userinfoText ++ u.location)

def fragmentText (fragment : Option Text) : Text := fragment.elim [] ('#' :: ·)

def queryText (ps : List QueryParam) : Text := ['&'].intercalate (ps.map QueryParam.text)

def text (u : Url) : Text :=
  u.base ++ (u.query.elim [] ('?' :: queryText ·) ++ fragmentText u.fragment)

end Url

section Alike

variable (toLowercase : Text → Text)

def AlikeParam (p q : QueryParam) : Prop :=
  p = q ∨ p.name = q.name ∧ isSensitive toLowercase p.name = true ∧
    p.value.isSome = true ∧ q.value.isSome = true

/-- Only sensitive values, the fragment and the userinfo may differ. -/
structure Alike (u v : Url) : Prop where
  scheme : u.scheme = v.scheme
  location : u.location = v.location
  query : Option.Rel (List.Forall₂ (AlikeParam toLowercase)) u.query v.query

end Alike

/-- A fragment is dropped when a question mark makes the URL look as if it had a query. -/
def visibleFragment (fragment : Option Text) : Option Text := fragment.filter fun f => '?' ∉ f

/-! ## Redacted parts -/

section Parts

variable {toLowercase : Text → Text}

theorem QueryParam.text_plain (p : QueryParam) : '&' ∉ p.text ∧ '#' ∉ p.text := by
  cases given : p.value with
  | none =>
    simp only [text, given, Option.elim_none, List.append_nil]
    exact ⟨p.plainName.1, p.plainName.2.1⟩
  | some v =>
    have plain := p.plainValue v given
    simp [text, given, p.plainName, plain]

theorem redactPair_sensitive {p : QueryParam} (sensitive : isSensitive toLowercase p.name = true)
    (given : p.value.isSome = true) :
    redactPair toLowercase p.text = p.name ++ "=[REDACTED]".toList := by
  obtain ⟨v, value⟩ := Option.isSome_iff_exists.mp given
  simp only [redactPair, QueryParam.text, value, Option.elim_some,
    splitOnce_char p.plainName.2.2, sensitive, Bool.true_or, if_true]

theorem redactPair_alike {p q : QueryParam} (alike : AlikeParam toLowercase p q) :
    redactPair toLowercase p.text = redactPair toLowercase q.text := by
  rcases alike with rfl | ⟨name, sensitive, first, second⟩
  · rfl
  · rw [redactPair_sensitive sensitive first, name]
    exact (redactPair_sensitive (name ▸ sensitive) second).symm

theorem queryText_plain (ps : List QueryParam) : '#' ∉ Url.queryText ps := by
  induction ps with
  | nil => exact List.not_mem_nil
  | cons p rest ih =>
    cases rest with
    | nil => simpa [Url.queryText] using p.text_plain.2
    | cons q rest =>
      have next : Url.queryText (p :: q :: rest) = p.text ++ '&' :: Url.queryText (q :: rest) := by
        simp [Url.queryText, List.intercalate_cons_cons]
      rw [next]
      simp [p.text_plain.2, ih]

theorem splitOn_queryText {ps : List QueryParam} (some : ps ≠ []) :
    (Url.queryText ps).splitOn '&' = ps.map QueryParam.text := by
  refine List.splitOn_intercalate '&' ?_ (by simpa using some)
  intro piece listed
  obtain ⟨p, -, rfl⟩ := List.mem_map.mp listed
  exact p.text_plain.1

namespace Url

variable (u : Url)

theorem base_plain : '?' ∉ u.base ∧ '#' ∉ u.base := by
  have info := u.plainUserinfo
  cases given : u.userinfo with
  | none => simp [base, userinfoText, given, u.plainScheme, u.plainLocation]
  | some text => simp [base, userinfoText, given, u.plainScheme, u.plainLocation, info text given]

/-- What stands before the fragment. -/
theorem beforeFragment {body : Text} (plain : '#' ∉ body) (fragment : Option Text) :
    ((splitOnce ['#'] (body ++ fragmentText fragment)).map Prod.fst).getD
      (body ++ fragmentText fragment) = body := by
  cases fragment with
  | none => simp [fragmentText, splitOnce_none plain]
  | some f => simp [fragmentText, splitOnce_char plain]

/-- With a query everything from the fragment on is cut off. -/
theorem redact_query {ps : List QueryParam} (query : u.query = some ps) :
    redactUrl toLowercase u.text =
      u.base ++ '?' :: ['&'].intercalate (ps.map fun p => redactPair toLowercase p.text) := by
  have nonempty : ps ≠ [] := fun empty => u.someQuery (empty ▸ query)
  have text : u.text = (u.base ++ '?' :: queryText ps) ++ fragmentText u.fragment := by
    simp [Url.text, query]
  have plain : '#' ∉ u.base ++ '?' :: queryText ps := by
    simp [u.base_plain.2, queryText_plain ps]
  have asks : '?' ∈ u.text := by
    simp [text]
  rw [redactUrl, if_neg (not_not.mpr asks), text, beforeFragment plain]
  simp only [splitOnce_char u.base_plain.1, splitOn_queryText nonempty, List.map_map]
  rfl

theorem redact_no_query (none : u.query = none) :
    redactUrl toLowercase u.text = u.base ++ fragmentText (visibleFragment u.fragment) := by
  have text : u.text = u.base ++ fragmentText u.fragment := by
    simp [Url.text, none]
  by_cases asks : '?' ∈ u.text
  · have hidden : visibleFragment u.fragment = .none := by
      cases given : u.fragment with
      | none => rfl
      | some f =>
        rw [text, given] at asks
        simpa [visibleFragment, fragmentText, u.base_plain.1] using asks
    rw [redactUrl, if_neg (not_not.mpr asks), text, beforeFragment u.base_plain.2]
    simp only [splitOnce_none u.base_plain.1, hidden]
    exact (List.append_nil _).symm
  · have whole : visibleFragment u.fragment = u.fragment := by
      cases given : u.fragment with
      | none => rfl
      | some f =>
        rw [text, given] at asks
        simpa [visibleFragment, fragmentText, u.base_plain.1] using asks
    rw [redactUrl, if_pos asks, text, whole]

end Url

/-! ## Two URLs -/

variable {u v : Url}

theorem userinfoText_injective (same : u.userinfoText = v.userinfoText) :
    u.userinfo = v.userinfo := by
  unfold Url.userinfoText at same
  cases first : u.userinfo with
  | none =>
    cases second : v.userinfo with
    | none => rfl
    | some info => simp [first, second] at same
  | some info =>
    cases second : v.userinfo with
    | none => simp [first, second] at same
    | some info' =>
      simp only [first, second, Option.elim_some] at same
      exact congrArg some (List.append_cancel_right same)

theorem base_eq_iff (alike : Alike toLowercase u v) :
    u.base = v.base ↔ u.userinfo = v.userinfo := by
  constructor
  · intro same
    unfold Url.base at same
    rw [alike.scheme, alike.location] at same
    exact userinfoText_injective (List.append_cancel_right (List.append_cancel_left same))
  · intro same
    simp only [Url.base, Url.userinfoText, alike.scheme, alike.location, same]

theorem redactPairs_alike {ps qs : List QueryParam}
    (alike : List.Forall₂ (AlikeParam toLowercase) ps qs) :
    (ps.map fun p => redactPair toLowercase p.text) =
      qs.map fun q => redactPair toLowercase q.text := by
  induction alike with
  | nil => rfl
  | cons first _ ih => rw [List.map_cons, List.map_cons, redactPair_alike first, ih]

/-- Before the first number sign stands the base, and after it the fragment. -/
theorem visible_eq_iff (fragment fragment' : Option Text) :
    u.base ++ Url.fragmentText fragment = v.base ++ Url.fragmentText fragment' ↔
      u.base = v.base ∧ fragment = fragment' := by
  constructor
  · intro same
    have cut := congrArg (splitOnce ['#']) same
    cases fragment with
    | none =>
      cases fragment' with
      | none => exact ⟨by simpa [Url.fragmentText] using same, rfl⟩
      | some f =>
        simp [Url.fragmentText, splitOnce_none u.base_plain.2, splitOnce_char v.base_plain.2] at cut
    | some f =>
      cases fragment' with
      | none =>
        simp [Url.fragmentText, splitOnce_char u.base_plain.2, splitOnce_none v.base_plain.2] at cut
      | some f' =>
        simpa [Url.fragmentText, splitOnce_char u.base_plain.2, splitOnce_char v.base_plain.2]
          using cut
  · rintro ⟨same, rfl⟩
    rw [same]

end Parts

/-- The userinfo is never redacted, and without a query a fragment is cut off only for a question
mark inside it. -/
theorem redactUrl_alike_iff (toLowercase : Text → Text) (u v : Url)
    (alike : Alike toLowercase u v) :
    redactUrl toLowercase u.text = redactUrl toLowercase v.text ↔
      u.userinfo = v.userinfo ∧
        (u.query ≠ none ∨ visibleFragment u.fragment = visibleFragment v.fragment) := by
  rw [← base_eq_iff alike]
  have query := alike.query
  cases given : u.query with
  | none =>
    cases given' : v.query with
    | none =>
      rw [u.redact_no_query given, v.redact_no_query given', visible_eq_iff]
      simp
    | some qs =>
      rw [given, given'] at query
      cases query
  | some ps =>
    cases given' : v.query with
    | none =>
      rw [given, given'] at query
      cases query
    | some qs =>
      rw [given, given'] at query
      cases query with
      | some pairs =>
        rw [u.redact_query given, v.redact_query given', redactPairs_alike pairs,
          List.append_cancel_right_eq]
        simp

/-! ## Tokens and passwords -/

/-- A key in the query and a token in the fragment. -/
def queried (key token : Text) (plain : '&' ∉ key ∧ '#' ∉ key) : Url where
  scheme := "https://".toList
  userinfo := none
  location := "example.org/search".toList
  query := some [⟨"q".toList, some "cat".toList, by decide, by simp⟩,
    ⟨"API_key".toList, some key, by decide, by simpa using plain⟩]
  fragment := some token
  plainScheme := by decide
  plainUserinfo := by simp
  plainLocation := by decide
  someQuery := by simp

theorem queried_redacted_alike :
    redactUrl toAsciiLowercase (queried ['a', '=', '?'] ['x', '?'] (by decide)).text =
      redactUrl toAsciiLowercase (queried ['b'] ['#'] (by decide)).text :=
  (redactUrl_alike_iff toAsciiLowercase _ _
    ⟨rfl, rfl, .some (.cons (.inl rfl) (.cons (.inr ⟨rfl, by decide, rfl, rfl⟩) .nil))⟩).mpr
    ⟨rfl, .inl (Option.some_ne_none _)⟩

def returned (info token : Text) (plain : '?' ∉ info ∧ '#' ∉ info) : Url where
  scheme := "https://".toList
  userinfo := some info
  location := "example.org/done".toList
  query := none
  fragment := some token
  plainScheme := by decide
  plainUserinfo := by
    rintro _ ⟨⟩
    exact plain
  plainLocation := by decide
  someQuery := by simp

/-- Neither a token in the fragment nor a password is redacted. -/
theorem token_and_password_kept :
    (Alike toAsciiLowercase (returned ['m', 'e'] ['1'] (by decide))
        (returned ['m', 'e'] ['2'] (by decide)) ∧
      redactUrl toAsciiLowercase (returned ['m', 'e'] ['1'] (by decide)).text ≠
        redactUrl toAsciiLowercase (returned ['m', 'e'] ['2'] (by decide)).text) ∧
    Alike toAsciiLowercase (returned ['m', 'e', ':', '1'] [] (by decide))
        (returned ['m', 'e', ':', '2'] [] (by decide)) ∧
      redactUrl toAsciiLowercase (returned ['m', 'e', ':', '1'] [] (by decide)).text ≠
        redactUrl toAsciiLowercase (returned ['m', 'e', ':', '2'] [] (by decide)).text := by
  have tokens : Alike toAsciiLowercase (returned ['m', 'e'] ['1'] (by decide))
    (returned ['m', 'e'] ['2'] (by decide)) := ⟨rfl, rfl, .none⟩
  have passwords : Alike toAsciiLowercase (returned ['m', 'e', ':', '1'] [] (by decide))
    (returned ['m', 'e', ':', '2'] [] (by decide)) := ⟨rfl, rfl, .none⟩
  refine ⟨⟨tokens, ?_⟩, passwords, ?_⟩
  · rw [Url.redact_no_query _ rfl, Url.redact_no_query _ rfl, Ne, visible_eq_iff]
    rintro ⟨-, same⟩
    exact absurd same (by decide)
  · rw [Url.redact_no_query _ rfl, Url.redact_no_query _ rfl, Ne, visible_eq_iff,
      base_eq_iff passwords]
    rintro ⟨same, -⟩
    exact absurd same (by decide)

end EgressDispatch
