import Mathlib
import AnimaOS.EgressDispatch
import AnimaOS.FormEncoding
import AnimaOS.ToolRegistry

/-!
# The web search tool

A search reaches the network only when the provider's guard allows the base URL,
and the URL it hands to the client is of the same scheme and host. The query is one
parameter of it and can be read back; what the service answers is cut to the number
asked for. The client follows redirects, and where they lead is screened by nobody.
-/

namespace WebSearch

open EgressDispatch EgressGuard FormEncoding TextSplit ToolRegistry

/-! ## Requests and results -/

structure SearchRequest where
  query : String
  maxResults : Nat
  categories : List Text

structure SearchResult where
  title : Text
  url : Text
  snippet : Text
  deriving DecidableEq, Repr

structure SearxngProvider where
  baseUrl : Text
  egressGuard : Guard

/-- The bytes that need no escape. -/
def isUnreserved (b : UInt8) : Bool :=
  (48 ≤ b && b ≤ 57) || (65 ≤ b && b ≤ 90) || (97 ≤ b && b ≤ 122) ||
    b = 45 || b = 95 || b = 46 || b = 126

def bytes (text : String) : List UInt8 := text.toByteArray.data.toList

def encodedQuery (query : String) : Text := encode isUnreserved (bytes query)

def catParam (categories : List Text) : Text :=
  if categories.isEmpty then [] else "&categories=".toList ++ [','].intercalate categories

def searchUrl (p : SearxngProvider) (query : String) (categories : List Text) : Text :=
  trimEnd '/' p.baseUrl ++ "/search?q=".toList ++ encodedQuery query ++
    "&format=json&pageno=1".toList ++ catParam categories

def asArray : Value → Option (List Value)
  | .array items => some items
  | _ => none

def parseResult (item : Value) : Option SearchResult := do
  let title ← (← item.get "title".toList).asStr
  let url ← (← item.get "url".toList).asStr
  let snippet := (((item.get "content".toList).or (item.get "snippet".toList)).bind
    Value.asStr).getD []
  return ⟨title, url, snippet⟩

def parseSearxngResponse (body : Value) (maxResults : Nat) : Except Text (List SearchResult) :=
  match (body.get "results".toList).bind asArray with
  | none => .error "searxng response missing 'results' array".toList
  | some results => .ok ((results.take maxResults).filterMap parseResult)

/-! ## Providers and the tool -/

/-- What becomes of a URL that the HTTP client is given: the URLs it is redirected to, and the JSON
it reads in the end. -/
structure Fetched where
  followed : List Text
  answer : Except Text Value

/-- The URLs that a search requests from the network, and how it ends. -/
abbrev Searched := List Text × Except Text (List SearchResult)

def fixtureSearch (fixture : List SearchResult) (maxResults : Nat) : Searched :=
  ([], .ok (fixture.take maxResults))

section

variable (toLowercase debug : Text → Text)

/-- `get` is the HTTP client, which is built without a redirect policy of its own. -/
def SearxngProvider.search (get : Text → Fetched) (p : SearxngProvider)
    (query : String) (maxResults : Nat) (categories : List Text) : Searched :=
  match checkUrl toLowercase p.egressGuard p.baseUrl with
  | .deny reason => ([], .error ("egress-blocked: ".toList ++ description debug reason))
  | .allow =>
    let url := searchUrl p query categories
    let got := get url
    match got.answer with
    | .error e => (url :: got.followed, .error e)
    | .ok body => (url :: got.followed, parseSearxngResponse body maxResults)

end

/-- `request` is what the payload was read as; the guard of the tool is not asked. -/
def invoke (search : String → Nat → List Text → Searched) (request : Option SearchRequest) :
    List Text × Except ToolInvocationError (List SearchResult) :=
  match request with
  | none => ([], .error .invalidPayload)
  | some req =>
    if (trimWhitespace req.query.toList).isEmpty then ([], .error .invalidPayload)
    else
      let maxResults := max 1 (min req.maxResults 20)
      match search req.query maxResults req.categories with
      | (requested, .error e) => (requested, .error (.executionFailed (String.ofList e)))
      | (requested, .ok results) => (requested, .ok results)

/-! ## The host of the requested URL -/

theorem trimEnd_append {c a : Char} {text rest : Text} (other : a ≠ c) (inside : a ∈ rest) :
    trimEnd c (text ++ rest) = text ++ trimEnd c rest := by
  have kept : trimStart c (rest.reverse ++ text.reverse) = trimStart c rest.reverse ++
      text.reverse := by
    rw [trimStart, List.dropWhile_append, if_neg]
    · rfl
    · intro empty
      have gone := List.dropWhile_eq_nil_iff.mp (List.isEmpty_iff.mp empty) a
        (List.mem_reverse.mpr inside)
      exact other (by simpa using gone)
  rw [trimEnd, List.reverse_append, kept, List.reverse_append, List.reverse_reverse, trimEnd]

/-- What `trimEnd` cuts off are occurrences of the character. -/
theorem trimEnd_split (c : Char) (text : Text) :
    text = trimEnd c text ∨ ∃ rest, text = trimEnd c text ++ c :: rest := by
  induction text using List.reverseRecOn with
  | nil => exact .inl rfl
  | append_singleton text a ih =>
    rw [trimEnd_snoc]
    split
    · next same =>
      subst same
      rcases ih with whole | ⟨rest, whole⟩
      · exact .inr ⟨[], congrArg (· ++ [a]) whole⟩
      · exact .inr ⟨rest ++ [a], by
          rw [← List.cons_append, ← List.append_assoc, ← whole]⟩
    · exact .inl rfl

theorem firstPiece_cut (c : Char) (text rest : Text) :
    firstPiece c (text ++ c :: rest) = firstPiece c text := by
  by_cases found : c ∈ text
  · exact firstPiece_inside found _
  · rw [firstPiece_stop found, firstPiece_whole found]

theorem firstPiece_trimEnd (c : Char) (text rest : Text) :
    firstPiece c (trimEnd c text ++ c :: rest) = firstPiece c text := by
  rw [firstPiece_cut]
  rcases trimEnd_split c text with whole | ⟨cut, whole⟩
  · rw [← whole]
  · have same := firstPiece_cut c (trimEnd c text) cut
    rw [← whole] at same
    exact same.symm

theorem firstPiece_nil_of_all {c : Char} {text : Text} (all : ∀ a ∈ text, a = c) :
    firstPiece c text = [] := by
  cases text with
  | nil => rfl
  | cons a rest => simp [firstPiece, all a List.mem_cons_self]

/-- Where a first match stands does not depend on what follows it. -/
theorem splitOnce_rest {pattern before rest : Text}
    (cut : splitOnce pattern (before ++ (pattern ++ rest)) = some (before, rest)) (other : Text) :
    splitOnce pattern (before ++ (pattern ++ other)) = some (before, other) := by
  induction before with
  | nil =>
    cases pattern with
    | nil => cases other <;> simp [splitOnce]
    | cons c pattern => simpa using @splitOnce_first _ _ c pattern [] List.not_mem_nil other
  | cons b before ih =>
    rw [List.cons_append, splitOnce] at cut ⊢
    split at cut
    · cases congrArg (Option.map Prod.fst) cut
    next misses =>
    obtain ⟨⟨before', rest'⟩, later, same⟩ := Option.map_eq_some_iff.mp cut
    obtain ⟨joined, rfl⟩ := Prod.mk.inj same
    obtain rfl := (List.cons.inj joined).2
    rw [if_neg, ih later]
    · rfl
    · intro starts
      have short : pattern <+: b :: (before' ++ pattern) := by
        refine List.prefix_of_prefix_length_le (List.isPrefixOf_iff_prefix.mp starts)
          ⟨other, by simp⟩ ?_
        simp only [List.length_cons, List.length_append]
        omega
      have found : pattern <+: b :: (before' ++ (pattern ++ rest')) :=
        short.trans ⟨rest', by simp⟩
      exact misses (List.isPrefixOf_iff_prefix.mpr found)

/-- Slashes at the end of a base URL and a path after it leave scheme and host. -/
theorem parseSchemeHost_path (toLowercase : Text → Text) {base scheme host : Text}
    (parsed : parseSchemeHost toLowercase base = some (scheme, host)) (path : Text) :
    parseSchemeHost toLowercase (trimEnd '/' base ++ '/' :: path) = some (scheme, host) := by
  simp only [parseSchemeHost, Option.bind_eq_bind, Option.bind_eq_some_iff] at parsed ⊢
  obtain ⟨⟨before, rest⟩, cut, found⟩ := parsed
  obtain ⟨whole, first⟩ := splitOnce_eq_some cut
  have solid : ∃ a ∈ rest, a ≠ '/' := by
    by_contra all
    push Not at all
    have empty : authorityOf rest = [] := by
      rw [authorityOf, firstPiece_nil_of_all all]
      rfl
    simp [empty, stripUserinfo, stripPort, splitOnce, rsplitOnce] at found
  obtain ⟨a, inside, other⟩ := solid
  have trimmed : trimEnd '/' base ++ '/' :: path =
      before ++ ("://".toList ++ (trimEnd '/' rest ++ '/' :: path)) := by
    rw [whole, ← List.append_assoc, trimEnd_append other inside]
    simp
  refine ⟨(before, trimEnd '/' rest ++ '/' :: path), ?_, ?_⟩
  · rw [trimmed]
    rw [whole] at cut
    exact splitOnce_rest cut _
  · have authority : authorityOf (trimEnd '/' rest ++ '/' :: path) = authorityOf rest := by
      rw [authorityOf, firstPiece_trimEnd, authorityOf]
    simp only [authority]
    exact found

/-- The guard says of such a URL what it said of the base. -/
theorem checkUrl_path {toLowercase : Text → Text} {guard : Guard} {base : Text}
    (allowed : checkUrl toLowercase guard base = .allow) (path : Text) :
    checkUrl toLowercase guard (trimEnd '/' base ++ '/' :: path) = .allow := by
  unfold checkUrl at allowed ⊢
  cases parsed : parseSchemeHost toLowercase base with
  | none =>
    rw [parsed] at allowed
    cases allowed
  | some schemeHost =>
    rw [parseSchemeHost_path toLowercase parsed path]
    rw [parsed] at allowed
    exact allowed

/-! ## The parameters of the requested URL -/

theorem isUnreserved_literal : Literal isUnreserved := by
  intro b kept
  refine ⟨?_, ?_, ?_⟩
  · simp only [isUnreserved, Bool.or_eq_true, Bool.and_eq_true, decide_eq_true_eq,
      UInt8.le_iff_toNat_le, ← UInt8.toNat_inj] at kept
    have small : (57 : UInt8).toNat = 57 ∧ (90 : UInt8).toNat = 90 ∧ (122 : UInt8).toNat = 122 ∧
      (45 : UInt8).toNat = 45 ∧ (95 : UInt8).toNat = 95 ∧ (46 : UInt8).toNat = 46 ∧
      (126 : UInt8).toNat = 126 := by decide
    omega
  · rintro rfl
    exact absurd kept (by decide)
  · rintro rfl
    exact absurd kept (by decide)

theorem charOf_unreserved_ne {b sep : UInt8} (kept : isUnreserved b = true)
    (reserved : isUnreserved sep = false) (small : sep.toNat < 128) : charOf b ≠ charOf sep := by
  refine charOf_ne (isUnreserved_literal b kept).1 ?_ small
  rintro rfl
  rw [kept] at reserved
  cases reserved

theorem encodedQuery_fresh (query : String) : '&' ∉ encodedQuery query :=
  not_mem_encode (fun _ kept => @charOf_unreserved_ne _ 38 kept (by decide) (by decide))
    (by decide) (by decide) (by decide) _

theorem decode_encodedQuery (query : String) : decode (encodedQuery query) = some (bytes query) :=
  decode_encode isUnreserved_literal _

theorem bytes_injective {q r : String} (same : bytes q = bytes r) : q = r := by
  have data := Array.toList_inj.mp same
  exact String.toByteArray_inj.mp (ByteArray.ext data)

/-- The parameters after the question mark, as they are written. -/
def params (query : String) (categories : List Text) : Text :=
  "q=".toList ++ encodedQuery query ++ "&format=json&pageno=1".toList ++ catParam categories

theorem searchUrl_eq (p : SearxngProvider) (query : String) (categories : List Text) :
    searchUrl p query categories =
      trimEnd '/' p.baseUrl ++ '/' :: ("search?".toList ++ params query categories) := by
  simp [searchUrl, params]

/-- What a reader of the parameters is given for the categories: they are not escaped. -/
def categoryParams (categories : List Text) : List Text :=
  if categories.isEmpty then []
  else ("categories=".toList ++ [','].intercalate categories).splitOn '&'

theorem params_splitOn (query : String) (categories : List Text) :
    (params query categories).splitOn '&' =
      ["q=".toList ++ encodedQuery query, "format=json".toList, "pageno=1".toList] ++
        categoryParams categories := by
  have first : '&' ∉ "q=".toList ++ encodedQuery query := by
    rw [List.mem_append]
    rintro (name | value)
    · exact absurd name (by decide)
    · exact encodedQuery_fresh query value
  have second : '&' ∉ "format=json".toList := by decide
  have third : '&' ∉ "pageno=1".toList := by decide
  by_cases none : categories.isEmpty = true
  · have whole : params query categories =
        ("q=".toList ++ encodedQuery query) ++ '&' :: ("format=json".toList ++
          '&' :: "pageno=1".toList) := by
      simp [params, catParam, none]
    rw [whole, List.splitOn_append_cons_self_of_not_mem first,
      List.splitOn_append_cons_self_of_not_mem second, List.splitOn_eq_singleton third,
      categoryParams, if_pos none]
    rfl
  · have whole : params query categories =
        ("q=".toList ++ encodedQuery query) ++ '&' :: ("format=json".toList ++
          '&' :: ("pageno=1".toList ++ '&' ::
            ("categories=".toList ++ [','].intercalate categories))) := by
      simp [params, catParam, none]
    rw [whole, List.splitOn_append_cons_self_of_not_mem first,
      List.splitOn_append_cons_self_of_not_mem second,
      List.splitOn_append_cons_self_of_not_mem third, categoryParams, if_neg none]
    rfl

theorem searchUrl_injective {p : SearxngProvider} {q r : String} {cs ds : List Text}
    (same : searchUrl p q cs = searchUrl p r ds) : q = r := by
  rw [searchUrl_eq, searchUrl_eq] at same
  have tails := List.append_cancel_left (List.cons.inj (List.append_cancel_left same)).2
  have pieces := congrArg (fun text => (text.splitOn '&').head?) tails
  simp only [params_splitOn] at pieces
  have queries : encodedQuery q = encodedQuery r := by simpa using pieces
  exact bytes_injective (encode_injective isUnreserved_literal queries)

/-! ## The tool over the live provider -/

section

variable (toLowercase debug : Text → Text) (get : Text → Fetched)

/-- A search ends before the network, or it has handed the client one URL on the guard's word for
the base. -/
theorem search_cases (p : SearxngProvider) (query : String) (maxResults : Nat)
    (categories : List Text) :
    (∃ e, p.search toLowercase debug get query maxResults categories = ([], .error e)) ∨
      checkUrl toLowercase p.egressGuard p.baseUrl = .allow ∧
        (p.search toLowercase debug get query maxResults categories).1 =
          searchUrl p query categories :: (get (searchUrl p query categories)).followed ∧
        ∀ results, (p.search toLowercase debug get query maxResults categories).2 =
            .ok results →
          ∃ body, (get (searchUrl p query categories)).answer = .ok body ∧
            parseSearxngResponse body maxResults = .ok results := by
  unfold SearxngProvider.search
  cases allowed : checkUrl toLowercase p.egressGuard p.baseUrl with
  | deny reason => exact .inl ⟨_, rfl⟩
  | allow =>
    refine .inr ⟨rfl, ?_⟩
    cases answered : (get (searchUrl p query categories)).answer with
    | error e => simp [answered]
    | ok body => simp [answered]

/-- The tool refuses its payload, or it hands on what a search of a request came to. -/
theorem invoke_cases (search : String → Nat → List Text → Searched)
    (request : Option SearchRequest) :
    invoke search request = ([], .error .invalidPayload) ∨
      ∃ r ∈ request,
        (invoke search request).1 =
          (search r.query (max 1 (min r.maxResults 20)) r.categories).1 ∧
        ∀ results, (invoke search request).2 = .ok results →
          (search r.query (max 1 (min r.maxResults 20)) r.categories).2 = .ok results := by
  cases request with
  | none => exact .inl rfl
  | some r =>
    unfold invoke
    by_cases blank : (trimWhitespace r.query.toList).isEmpty = true
    · simp [blank]
    · refine .inr ⟨r, rfl, ?_⟩
      simp only [if_neg blank]
      rcases search r.query (max 1 (min r.maxResults 20)) r.categories with
        ⟨requested, e | results⟩
      · exact ⟨rfl, nofun⟩
      · refine ⟨rfl, fun given same => ?_⟩
        cases same
        rfl

/-- Over the fixture nothing is requested, and its first results are handed on. -/
theorem invoke_fixture (fixture : List SearchResult) (request : Option SearchRequest) :
    let called := invoke (fun _ maxResults _ => fixtureSearch fixture maxResults) request
    called.1 = [] ∧
      ∀ results, called.2 = .ok results → results <+: fixture ∧ results.length ≤ 20 := by
  rcases invoke_cases (fun _ maxResults _ => fixtureSearch fixture maxResults) request with
    refused | ⟨r, -, called, handed⟩
  · rw [refused]
    exact ⟨rfl, nofun⟩
  · refine ⟨called, fun results ended => ?_⟩
    obtain rfl := Except.ok.inj (handed results ended)
    refine ⟨List.take_prefix _ _, (List.length_take_le _ _).trans ?_⟩
    omega

theorem parseSearxngResponse_ok {body : Value} {maxResults : Nat} {results : List SearchResult}
    (read : parseSearxngResponse body maxResults = .ok results) :
    results.length ≤ maxResults ∧
      ∃ items, (body.get "results".toList).bind asArray = some items ∧
        results <+: items.filterMap parseResult := by
  unfold parseSearxngResponse at read
  split at read
  · cases read
  next items listed =>
  obtain rfl := Except.ok.inj read
  refine ⟨?_, items, listed, (List.take_prefix maxResults items).filterMap parseResult⟩
  exact (List.length_filterMap_le _ _).trans (List.length_take_le maxResults items)

/-- A requested URL that carries what was asked for and goes where the guard allows. -/
structure Faithful (p : SearxngProvider) (r : SearchRequest) (url : Text) : Prop where
  allowed : checkUrl toLowercase p.egressGuard url = .allow
  sameHost : parseSchemeHost toLowercase url = parseSchemeHost toLowercase p.baseUrl
  parameters : ∃ text, url = trimEnd '/' p.baseUrl ++ '/' :: ("search?".toList ++ text) ∧
    text.splitOn '&' =
      ["q=".toList ++ encodedQuery r.query, "format=json".toList, "pageno=1".toList] ++
        categoryParams r.categories
  readable : decode (encodedQuery r.query) = some (bytes r.query)

theorem searchUrl_faithful {p : SearxngProvider} {r : SearchRequest}
    (allowed : checkUrl toLowercase p.egressGuard p.baseUrl = .allow) :
    Faithful toLowercase p r (searchUrl p r.query r.categories) where
  allowed := by
    rw [searchUrl_eq]
    exact checkUrl_path allowed _
  sameHost := by
    cases parsed : parseSchemeHost toLowercase p.baseUrl with
    | none => simp [checkUrl, parsed] at allowed
    | some schemeHost =>
      rw [searchUrl_eq]
      exact parseSchemeHost_path toLowercase parsed _
  parameters := ⟨_, searchUrl_eq p r.query r.categories, params_splitOn r.query r.categories⟩
  readable := decode_encodedQuery r.query

/-- The results of a page count wherever the client was led to for it. -/
theorem invoke_followed {p : SearxngProvider} {r : SearchRequest} {body : Value}
    {results : List SearchResult} (solid : (trimWhitespace r.query.toList).isEmpty = false)
    (allowed : checkUrl toLowercase p.egressGuard p.baseUrl = .allow)
    (answered : (get (searchUrl p r.query r.categories)).answer = .ok body)
    (read : parseSearxngResponse body (max 1 (min r.maxResults 20)) = .ok results) :
    invoke (p.search toLowercase debug get) (some r) =
      (searchUrl p r.query r.categories :: (get (searchUrl p r.query r.categories)).followed,
        .ok results) := by
  simp [invoke, solid, SearxngProvider.search, allowed, answered, read]

/-- Whatever is asked, the client is given at most one URL, one of the base's scheme and host that
the guard allows and from which the query reads back, and from there it goes wherever it is
redirected: the guard need not allow it, and the results found there are handed on all the same.
They are at most twenty and no more than asked for, in the order of the answer. -/
theorem search_requests_faithful (p : SearxngProvider) (request : Option SearchRequest) :
    let called := invoke (p.search toLowercase debug get) request
    (called.1 = [] ∨ ∃ r ∈ request, ∃ url, Faithful toLowercase p r url ∧
      url = searchUrl p r.query r.categories ∧ called.1 = url :: (get url).followed) ∧
    (∀ results, called.2 = .ok results → ∃ r ∈ request, ∃ body items,
      called.1.head? = some (searchUrl p r.query r.categories) ∧
      results.length ≤ max 1 (min r.maxResults 20) ∧
      (get (searchUrl p r.query r.categories)).answer = .ok body ∧
      (body.get "results".toList).bind asArray = some items ∧
      results <+: items.filterMap parseResult) ∧
    (∀ q r cs ds, searchUrl p q cs = searchUrl p r ds → q = r) ∧
    ∀ r body results, request = some r → (trimWhitespace r.query.toList).isEmpty = false →
      checkUrl toLowercase p.egressGuard p.baseUrl = .allow →
      (get (searchUrl p r.query r.categories)).answer = .ok body →
      parseSearxngResponse body (max 1 (min r.maxResults 20)) = .ok results →
      called.2 = .ok results ∧
        ∀ url ∈ (get (searchUrl p r.query r.categories)).followed,
          checkUrl toLowercase p.egressGuard url ≠ .allow → url ∈ called.1 := by
  refine ⟨?_, ?_, fun q r cs ds => searchUrl_injective, ?_⟩
  · rcases invoke_cases (p.search toLowercase debug get) request with
      refused | ⟨r, given, called, -⟩
    · exact .inl (congrArg Prod.fst refused)
    rw [called]
    rcases search_cases toLowercase debug get p r.query _ r.categories with
      ⟨e, blocked⟩ | ⟨allowed, asked, -⟩
    · exact .inl (congrArg Prod.fst blocked)
    · exact .inr ⟨r, given, _, searchUrl_faithful toLowercase allowed, rfl, asked⟩
  · intro results ended
    rcases invoke_cases (p.search toLowercase debug get) request with
      refused | ⟨r, given, called, handed⟩
    · rw [refused] at ended
      cases ended
    have found := handed results ended
    rcases search_cases toLowercase debug get p r.query _ r.categories with
      ⟨e, blocked⟩ | ⟨-, asked, answered⟩
    · rw [blocked] at found
      cases found
    · obtain ⟨body, got, read⟩ := answered results found
      obtain ⟨short, items, listed, order⟩ := parseSearxngResponse_ok read
      refine ⟨r, given, body, items, ?_, short, got, listed, order⟩
      rw [called, asked, List.head?_cons]
  · rintro r body results rfl solid allowed answered read
    have ended := invoke_followed toLowercase debug get solid allowed answered read
    rw [ended]
    exact ⟨rfl, fun url followed _ => List.mem_cons_of_mem _ followed⟩

end

/-- A service that redirects every request to the metadata address, which answers with one
result. -/
def redirectingGet (_ : Text) : Fetched where
  followed := ["http://169.254.169.254/".toList]
  answer := .ok (.object [("results".toList, .array [.object
    [("title".toList, .string ['t']), ("url".toList, .string ['u'])]])])

def publicProvider : SearxngProvider := ⟨"https://searx.example.org/".toList, .default⟩

theorem metadata_redirect_followed :
    let called := invoke (publicProvider.search toAsciiLowercase id redirectingGet)
      (some ⟨"rust", 5, []⟩)
    called.2 = .ok [⟨['t'], ['u'], []⟩] ∧ "http://169.254.169.254/".toList ∈ called.1 := by
  obtain ⟨ended, requested⟩ := (search_requests_faithful toAsciiLowercase id redirectingGet
    publicProvider (some ⟨"rust", 5, []⟩)).2.2.2 _ _ [⟨['t'], ['u'], []⟩] rfl (by decide)
      (by decide) rfl (by decide)
  exact ⟨ended, requested _ (List.mem_singleton_self _) (by decide)⟩

end WebSearch
