import StarlingMonkey.Lib.PercentEncoding
import StarlingMonkey.Lib.Run
import StarlingMonkey.WebUrl.SortNames
import Mathlib.Data.List.DropRight
import Mathlib.Data.List.Induction

/-!
# A URL and its query object

A `URL` object and the `URLSearchParams` object that its `searchParams` returns hold the same query:
one as part of a record of the `url` crate, one as a list of names and values. The setters of the
URL write the list; the methods of the list write the record, in `URLSearchParams::update`.

The `url` and `form_urlencoded` crates are a parameter. A record is known by its components, which
are what the getters of `Url` return.

* `Crates.Documented`: what the program relies on of the two crates.
* `InStep`: the list is what the parser makes of the record's query. Each operation keeps it.
* `searchParams_in_step`: the same for every run, and what each operation leaves as it is.
-/

namespace WebUrl

open PercentEncoding

/-! ### The crates -/

/-- The components of a `Url`. -/
structure Components where
  /-- `scheme`. -/
  scheme : Text
  /-- `username`. -/
  username : Text
  /-- `password`. -/
  password : Option Text
  /-- `host_str`. -/
  hostStr : Option Text
  /-- `port`. -/
  port : Option ℕ
  /-- `path`. -/
  path : Text
  /-- `query`. -/
  query : Option Text
  /-- `fragment`. -/
  fragment : Option Text
  /-- `cannot_be_a_base`: the path is opaque. -/
  cannotBeABase : Bool
deriving DecidableEq

/-- The setters of a URL other than those of `href` and `search`. -/
inductive Setter where
  | protocol
  | username
  | password
  | host
  | hostname
  | port
  | pathname
  | hash
deriving DecidableEq

/-- What the program uses of the two crates. -/
structure Crates (R : Type) where
  /-- `Url::parse`. -/
  parse : Text → Option R
  /-- `Url::join`. -/
  join : R → Text → Option R
  /-- The getters of `Url`. -/
  components : R → Components
  /-- `Url::set_query`. -/
  setQuery : R → Option Text → R
  /-- `Url::set_path`. -/
  setPath : R → Text → R
  /-- `url::quirks::set_search`. -/
  quirksSetSearch : R → Text → R
  /-- The other setters of `url::quirks`. -/
  quirks : Setter → R → Text → R
  /-- `form_urlencoded::parse`. -/
  formParse : Bytes → List (Text × Text)
  /-- `append_pair` for every pair, and `finish`. -/
  formSerialize : List (Text × Text) → Text

/-- `as_bytes`. -/
def asBytes (s : Text) : Bytes := s.flatMap String.utf8EncodeChar

/-- An ASCII tab or newline. The URL parser drops them. -/
def isTabOrNewline (c : Char) : Bool := c = '\t' || c = '\n' || c = '\r'

/-- What is documented about the crates. -/
structure Crates.Documented {R : Type} (C : Crates R) : Prop where
  /-- There is nothing in an empty query. -/
  formParse_nil : C.formParse [] = []
  /-- What was serialized is parsed again. -/
  formParse_formSerialize (list : List (Text × Text)) :
    C.formParse (asBytes (C.formSerialize list)) = list
  /-- Names and values are percent-decoded. -/
  formParse_escaped {l l' : Bytes} (h : Escaped l l') : C.formParse l' = C.formParse l
  /-- The serializer percent-encodes tabs and newlines. -/
  formSerialize_clean (list : List (Text × Text)) :
    ∀ c ∈ C.formSerialize list, isTabOrNewline c = false
  /-- `set_query` replaces the query; it percent-encodes some of it. -/
  setQuery_some (r : R) {q : Text} (hq : ∀ c ∈ q, isTabOrNewline c = false) :
    ∃ q', C.components (C.setQuery r (some q)) = { C.components r with query := some q' } ∧
      Escaped (asBytes q) (asBytes q')
  /-- Without a query the spaces at the end of an opaque path may go. Nothing else does. -/
  setQuery_none (r : R)
    (h : (C.components r).cannotBeABase = true → ¬ [' '] <:+ (C.components r).path) :
    C.components (C.setQuery r none) = { C.components r with query := none }
  /-- There is no query after it was removed. -/
  query_setQuery_none (r : R) : (C.components (C.setQuery r none)).query = none
  /-- What an opaque path holds is stored as it is, and so is `%20`. -/
  setPath_cannotBeABase (r : R) {p : Text} (hr : (C.components r).cannotBeABase = true)
    (hp : (C.components r).path = p ++ [' ']) :
    C.components (C.setPath r (p ++ ['%', '2', '0'])) =
      { C.components r with path := p ++ ['%', '2', '0'] }
  /-- `quirks::set_search` sets the query to the value without its leading `?`. -/
  quirksSetSearch_eq (r : R) (value : Text) :
    C.quirksSetSearch r value =
      C.setQuery r (if value = [] then none else some (value.dropPrefix? ['?'] |>.getD value))
  /-- The other setters have nothing to do with the query. -/
  quirks_query (c : Setter) (r : R) (value : Text) :
    (C.components (C.quirks c r value)).query = (C.components r).query

/-! ### The code -/

variable {R : Type} (C : Crates R)

/-- `basic_url_parser`. -/
def basicUrlParser (input : Text) (base : Option R) : Option R :=
  match base with
  | some baseUrl => C.join baseUrl input
  | none => C.parse input

/-- `api_url_parser`. -/
def apiUrlParser (url : Text) (base : Option Text) : Option R :=
  match base with
  | some base => do
    let parsedBase ← basicUrlParser C base none
    basicUrlParser C url (some parsedBase)
  | none => basicUrlParser C url none

/-- `urlencoded_parse`. -/
def urlencodedParse (input : Text) : List (Text × Text) := C.formParse (asBytes input)

/-- `urlencoded_serialize`. -/
def urlencodedSerialize (tuples : List (Text × Text)) : Text := C.formSerialize tuples

/-- The data of a `URLSearchParams`. -/
structure SearchParams where
  /-- `list`. -/
  list : List (Text × Text)
  /-- Whether `url_object` is set, to the URL whose `query_object` this is. -/
  urlObject : Bool

/-- The data of a `URL`, with that of its query object. -/
structure UrlObject (R : Type) where
  /-- `url`. -/
  url : Option R
  /-- `query_object`. -/
  queryObject : Option SearchParams

/-- Where the program panics. -/
inductive Site where
  /-- URL query object must be initialized. -/
  | queryObject
deriving DecidableEq

/-- How an operation ends. -/
abbrev Result (R : Type) := Outcome Site String (UrlObject R) (UrlObject R)

/-- `initialize_with_url_record`. -/
def initializeWithUrlRecord (urlRecord : R) : UrlObject R :=
  let query := (C.components urlRecord).query.getD []
  { url := some urlRecord, queryObject := some ⟨urlencodedParse C query, true⟩ }

/-- The constructor `URL`. -/
def newUrl (url : Text) (base : Option Text) : Except String (UrlObject R) :=
  match apiUrlParser C url base with
  | none => .error "Invalid URL"
  | some parsedUrl => .ok (initializeWithUrlRecord C parsedUrl)

/-- `set_href`. -/
def setHref (s : UrlObject R) (value : Text) : Result R :=
  match basicUrlParser C value none with
  | none => .threw "Invalid URL" s
  | some parsedUrl =>
    let s := { s with url := some parsedUrl }
    match s.queryObject with
    | none => .ok s
    | some queryObject =>
      let queryObject := { queryObject with list := [] }
      match (C.components parsedUrl).query with
      | none => .ok { s with queryObject := some queryObject }
      | some query =>
        .ok { s with queryObject := some { queryObject with list := urlencodedParse C query } }

/-- `set_search`. -/
def setSearch (s : UrlObject R) (value : Text) : Result R :=
  let input := (value.dropPrefix? ['?']).getD value
  match s.url with
  | none => .ok s
  | some url =>
    let s := { s with url := some (C.quirksSetSearch url value) }
    match s.queryObject with
    | none => .ok s
    | some queryObject =>
      if value.isEmpty then .ok { s with queryObject := some { queryObject with list := [] } }
      else .ok { s with queryObject := some { queryObject with list := urlencodedParse C input } }

/-- A setter that writes one component of the record, where nothing forbids it. -/
def setComponent (c : Setter) (forbidden : Components → Bool) (s : UrlObject R) (value : Text) :
    UrlObject R :=
  match s.url with
  | none => s
  | some url =>
    if forbidden (C.components url) then s else { s with url := some (C.quirks c url value) }

/-- The check of `set_username` and `set_password`. -/
def cannotHaveUsername (c : Components) : Bool := c.cannotBeABase || c.hostStr.isNone

/-- `set_protocol`. -/
def setProtocol := setComponent C .protocol fun _ => false

/-- `set_username`. -/
def setUsername := setComponent C .username cannotHaveUsername

/-- `set_password`. -/
def setPassword := setComponent C .password cannotHaveUsername

/-- `set_host`. -/
def setHost := setComponent C .host fun _ => false

/-- `set_hostname`. -/
def setHostname := setComponent C .hostname fun _ => false

/-- `set_port`. -/
def setPort := setComponent C .port fun _ => false

/-- `set_pathname`. -/
def setPathname := setComponent C .pathname fun _ => false

/-- `set_hash`. -/
def setHash := setComponent C .hash fun _ => false

/-- The setter of a component. -/
def assign (c : Setter) : UrlObject R → Text → UrlObject R :=
  match c with
  | .protocol => setProtocol C
  | .username => setUsername C
  | .password => setPassword C
  | .host => setHost C
  | .hostname => setHostname C
  | .port => setPort C
  | .pathname => setPathname C
  | .hash => setHash C

/-- A path with its last trailing space percent-encoded. -/
def encodeTrailingSpace (path : Text) : Text :=
  let trimmed := path.rdropWhile (· = ' ')
  let trailingSpaces := path.length - trimmed.length
  trimmed ++ List.replicate (trailingSpaces - 1) ' ' ++ ['%', '2', '0']

/-- What `update` makes of the record. -/
def updateUrl (url : R) (serializedQuery : Option Text) : R :=
  let path := (C.components url).path
  let url :=
    if serializedQuery.isNone && (C.components url).cannotBeABase then
      if [' '] <:+ path then C.setPath url (encodeTrailingSpace path) else url
    else url
  C.setQuery url serializedQuery

/-- `URLSearchParams::update`, of a query object that was just written. -/
def update (s : UrlObject R) (queryObject : SearchParams) : UrlObject R :=
  let s := { s with queryObject := some queryObject }
  if queryObject.urlObject then
    let serialized := urlencodedSerialize C queryObject.list
    let serializedQuery := if serialized.isEmpty then none else some serialized
    match s.url with
    | none => s
    | some url => { s with url := some (updateUrl C url serializedQuery) }
  else s

/-- The methods of `URLSearchParams` that write the list. -/
inductive Mutation where
  | append (name value : Text)
  | delete (name : Text) (value : Option Text)
  | set (name value : Text)
  | sort
deriving DecidableEq

/-- The closure of `set` that keeps the first pair of a name. -/
def retainFirst (name : Text) : Bool → List (Text × Text) → List (Text × Text)
  | _, [] => []
  | seenFirst, tuple :: list =>
    if tuple.1 ≠ name then tuple :: retainFirst name seenFirst list
    else if !seenFirst then tuple :: retainFirst name true list
    else retainFirst name seenFirst list

/-- What a method makes of the list. -/
def Mutation.apply (m : Mutation) (list : List (Text × Text)) : List (Text × Text) :=
  match m with
  | append name value => list ++ [(name, value)]
  | delete name (some value) => list.filter fun tuple => tuple.1 ≠ name || tuple.2 ≠ value
  | delete name none => list.filter fun tuple => tuple.1 ≠ name
  | set name value =>
    match list.findIdx? fun tuple => tuple.1 = name with
    | some firstIndex =>
      retainFirst name false (list.modify firstIndex fun tuple => (tuple.1, value))
    | none => list ++ [(name, value)]
  | sort => WebUrl.sort list

/-- A method of the URL's `searchParams`. -/
def mutate (s : UrlObject R) (m : Mutation) : Result R :=
  match s.queryObject with
  | none => .panic .queryObject
  | some queryObject => .ok (update C s { queryObject with list := m.apply queryObject.list })

/-- An operation on the URL or on its `searchParams`. -/
inductive Operation where
  | setHref (value : Text)
  | setSearch (value : Text)
  | assign (c : Setter) (value : Text)
  | mutate (m : Mutation)
deriving DecidableEq

/-- What an operation does. -/
def perform (s : UrlObject R) (op : Operation) : Result R :=
  match op with
  | .setHref value => setHref C s value
  | .setSearch value => setSearch C s value
  | .assign c value => .ok (assign C c s value)
  | .mutate m => mutate C s m

/-- A URL object, through the operations on it. -/
def urlMachine : Machine Site String (UrlObject R) Operation := ⟨perform C⟩

/-! ### One operation -/

/-- The search value of an operation holds no tab and no newline. -/
def Clean (_ : UrlObject R) : Operation → Prop
  | .setSearch value => ∀ c ∈ value, isTabOrNewline c = false
  | _ => True

/-- A URL object with record `url` whose query object holds `list`. -/
def objectOf (url : R) (list : List (Text × Text)) : UrlObject R := ⟨some url, some ⟨list, true⟩⟩

/-- What the parser makes of a query, if there is one. -/
def listOf (query : Option Text) : List (Text × Text) := query.elim [] (urlencodedParse C)

/-- **The URL and the list are in step.** -/
def InStep (s : UrlObject R) : Prop := ∃ url, s = objectOf url (listOf C (C.components url).query)

/-- Only the query differs, but for the space at the end of an opaque path when there is no query
any more. -/
structure OnlyQuery (old new : Components) : Prop where
  /-- The other components. -/
  rest : new = { old with query := new.query, path := new.path }
  /-- The path. -/
  path : new.path = old.path ∨
    new.query = none ∧ old.cannotBeABase = true ∧
      ∃ p, old.path = p ++ [' '] ∧ new.path = p ++ ['%', '2', '0']

variable {C}

theorem encodeTrailingSpace_concat (p : Text) :
    encodeTrailingSpace (p ++ [' ']) = p ++ ['%', '2', '0'] := by
  have htrimmed : (p ++ [' ']).rdropWhile (· = ' ') = p.rdropWhile (· = ' ') :=
    List.rdropWhile_concat_pos _ _ _ (by decide)
  have hspaces : p.rdropWhile (· = ' ') ++
      List.replicate (p.length - (p.rdropWhile (· = ' ')).length) ' ' = p := by
    induction p using List.reverseRecOn with
    | nil => rfl
    | append_singleton p c ih =>
      by_cases hc : c = ' '
      · subst hc
        have hle : (p.rdropWhile (· = ' ')).length ≤ p.length := by
          have h := congrArg List.length (ih (List.rdropWhile_concat_pos _ _ _ (by decide)))
          simp only [List.length_append, List.length_replicate] at h
          omega
        rw [List.rdropWhile_concat_pos _ _ _ (by decide), List.length_append, List.length_singleton,
          Nat.sub_add_comm hle, List.replicate_succ', ← List.append_assoc,
          ih (List.rdropWhile_concat_pos _ _ _ (by decide))]
      · rw [List.rdropWhile_concat_neg _ _ _ (by simpa using hc)]
        simp
  have hlength : (p ++ [' ']).length - ((p ++ [' ']).rdropWhile (· = ' ')).length - 1 =
      p.length - (p.rdropWhile (· = ' ')).length := by
    rw [htrimmed, List.length_append, List.length_singleton]
    omega
  rw [encodeTrailingSpace, hlength, htrimmed, hspaces]

/-- The query that `update` stores is parsed to the list. -/
theorem parse_setQuery (hC : C.Documented) (url : R) {q : Text}
    (hq : ∀ c ∈ q, isTabOrNewline c = false) :
    listOf C (C.components (C.setQuery url (some q))).query = urlencodedParse C q := by
  obtain ⟨q', hurl, hescaped⟩ := hC.setQuery_some url hq
  rw [hurl]
  exact hC.formParse_escaped hescaped

/-- **What `update` leaves of the record.** -/
theorem updateUrl_onlyQuery (hC : C.Documented) (url : R) {serializedQuery : Option Text}
    (hq : ∀ q ∈ serializedQuery, ∀ c ∈ q, isTabOrNewline c = false) :
    OnlyQuery (C.components url) (C.components (updateUrl C url serializedQuery)) := by
  cases serializedQuery with
  | some q =>
    obtain ⟨q', hurl, -⟩ := hC.setQuery_some url (hq q rfl)
    rw [updateUrl]
    simp only [Option.isNone_some, Bool.false_and, Bool.false_eq_true, if_false]
    rw [hurl]
    exact ⟨rfl, .inl rfl⟩
  | none =>
    by_cases hspace : (C.components url).cannotBeABase = true ∧ [' '] <:+ (C.components url).path
    · obtain ⟨hbase, hsuffix⟩ := hspace
      obtain ⟨p, hp⟩ := id hsuffix
      have hpath := hC.setPath_cannotBeABase url hbase hp.symm
      have hend : ¬ [' '] <:+ (C.components (C.setPath url (p ++ ['%', '2', '0']))).path := by
        rw [hpath]
        rintro ⟨t, ht⟩
        have hlast := congrArg List.getLast? ht
        simp at hlast
      have hquery := hC.setQuery_none (C.setPath url (p ++ ['%', '2', '0'])) fun _ => hend
      have hurl : updateUrl C url none =
          C.setQuery (C.setPath url (p ++ ['%', '2', '0'])) none := by
        simp only [updateUrl, Option.isNone_none, Bool.true_and, hbase, if_true, ← hp,
          encodeTrailingSpace_concat, if_pos (List.suffix_append p [' '])]
      rw [hurl, hquery, hpath]
      exact ⟨rfl, .inr ⟨rfl, hbase, p, hp.symm, rfl⟩⟩
    · have hurl : updateUrl C url none = C.setQuery url none := by
        simp only [updateUrl, Option.isNone_none, Bool.true_and]
        split_ifs with hbase hsuffix
        · exact absurd ⟨hbase, hsuffix⟩ hspace
        · rfl
        · rfl
      rw [hurl, hC.setQuery_none url fun hbase hsuffix => hspace ⟨hbase, hsuffix⟩]
      exact ⟨rfl, .inl rfl⟩

/-- **The query that `update` stores is parsed to the list.** -/
theorem listOf_updateUrl (hC : C.Documented) (url : R) (list : List (Text × Text)) :
    let serialized := urlencodedSerialize C list
    let serializedQuery := if serialized.isEmpty then none else some serialized
    listOf C (C.components (updateUrl C url serializedQuery)).query = list := by
  intro serialized serializedQuery
  by_cases hempty : serialized = []
  · have hnone : serializedQuery = none := by simp [serializedQuery, hempty]
    have hlist : list = [] := by
      rw [← hC.formParse_formSerialize list]
      change C.formParse (asBytes serialized) = []
      rw [hempty]
      exact hC.formParse_nil
    rw [hnone, updateUrl, hC.query_setQuery_none, hlist]
    rfl
  · have hsome : serializedQuery = some serialized := by simp [serializedQuery, hempty]
    rw [hsome, updateUrl]
    simp only [Option.isNone_some, Bool.false_and, Bool.false_eq_true, if_false]
    exact (parse_setQuery hC url (q := serialized) (hC.formSerialize_clean list)).trans
      (hC.formParse_formSerialize list)

/-! ### The operations -/

/-- A new URL and its query object are in step. -/
theorem newUrl_inStep (hC : C.Documented) {url : Text} {base : Option Text} {s : UrlObject R}
    (h : newUrl C url base = .ok s) : InStep C s := by
  cases hparsed : apiUrlParser C url base with
  | none =>
    simp only [newUrl, hparsed] at h
    cases h
  | some parsedUrl =>
    simp only [newUrl, hparsed, Except.ok.injEq] at h
    subst h
    refine ⟨parsedUrl, ?_⟩
    cases hquery : (C.components parsedUrl).query with
    | none => simp [initializeWithUrlRecord, objectOf, listOf, hquery, urlencodedParse, asBytes,
        hC.formParse_nil]
    | some query => simp [initializeWithUrlRecord, objectOf, listOf, hquery]

/-- **`set_href`** throws and leaves everything as it is, or keeps the two in step. -/
theorem setHref_inStep {s : UrlObject R} (h : InStep C s) (value : Text) :
    setHref C s value = .threw "Invalid URL" s ∨ ∃ t, setHref C s value = .ok t ∧ InStep C t := by
  obtain ⟨url, rfl⟩ := h
  cases hparsed : basicUrlParser C value none with
  | none => exact .inl (by simp only [setHref, hparsed])
  | some parsedUrl =>
    refine .inr ⟨objectOf parsedUrl (listOf C (C.components parsedUrl).query), ?_, _, rfl⟩
    cases hquery : (C.components parsedUrl).query with
    | none => simp [setHref, hparsed, objectOf, listOf, hquery]
    | some query => simp [setHref, hparsed, objectOf, listOf, hquery]

/-- **`set_search`** keeps the two in step. -/
theorem setSearch_inStep (hC : C.Documented) {s : UrlObject R} (h : InStep C s) {value : Text}
    (hvalue : ∀ c ∈ value, isTabOrNewline c = false) :
    ∃ t, setSearch C s value = .ok t ∧ InStep C t := by
  obtain ⟨url, rfl⟩ := h
  refine ⟨_, ?_, C.quirksSetSearch url value, rfl⟩
  rw [hC.quirksSetSearch_eq]
  by_cases hempty : value = []
  · simp [setSearch, objectOf, hempty, hC.quirksSetSearch_eq, hC.query_setQuery_none, listOf]
  · have hinput : ∀ c ∈ (value.dropPrefix? ['?']).getD value, isTabOrNewline c = false := by
      cases hprefix : value.dropPrefix? ['?'] with
      | none => exact hvalue
      | some rest =>
        obtain ⟨l, rfl, -⟩ := List.dropPrefix?_eq_some_iff.mp hprefix
        exact fun c hc => hvalue c (List.mem_append_right l hc)
    rw [if_neg hempty, parse_setQuery hC url hinput]
    simp [setSearch, objectOf, hempty, hC.quirksSetSearch_eq]

/-- **The other setters** write neither the query nor the list. -/
theorem assign_eq (hC : C.Documented) (url : R) (list : List (Text × Text)) (c : Setter)
    (value : Text) :
    ∃ url', assign C c (objectOf url list) value = objectOf url' list ∧
      (C.components url').query = (C.components url).query := by
  obtain ⟨forbidden, heq⟩ : ∃ forbidden, assign C c = setComponent C c forbidden := by
    cases c with
    | username | password => exact ⟨cannotHaveUsername, rfl⟩
    | protocol | host | hostname | port | pathname | hash => exact ⟨fun _ => false, rfl⟩
  cases hforbidden : forbidden (C.components url) with
  | true => exact ⟨url, by simp [heq, setComponent, objectOf, hforbidden], rfl⟩
  | false =>
    exact ⟨C.quirks c url value, by simp [heq, setComponent, objectOf, hforbidden],
      hC.quirks_query c url value⟩

/-- **A method of the query object** writes the query, and keeps the two in step. -/
theorem mutate_eq (hC : C.Documented) (url : R) (list : List (Text × Text)) (m : Mutation) :
    ∃ url', mutate C (objectOf url list) m = .ok (objectOf url' (m.apply list)) ∧
      listOf C (C.components url').query = m.apply list ∧
      OnlyQuery (C.components url) (C.components url') := by
  refine ⟨_, rfl, listOf_updateUrl hC url (m.apply list), ?_⟩
  apply updateUrl_onlyQuery hC
  intro q hq
  split_ifs at hq
  · cases hq
  · cases hq
    exact hC.formSerialize_clean _

/-! ### Runs -/

/-- Every operation keeps the two in step. -/
theorem InStep.step (hC : C.Documented) {s t : UrlObject R} {op : Operation} (h : InStep C s)
    (hop : Clean s op) (hstep : (perform C s op).state? = some t) : InStep C t := by
  cases op with
  | setHref value =>
    rcases setHref_inStep h value with hthrew | ⟨u, hok, hu⟩
    · rw [perform, hthrew] at hstep
      cases hstep
      exact h
    · rw [perform, hok] at hstep
      cases hstep
      exact hu
  | setSearch value =>
    obtain ⟨u, hok, hu⟩ := setSearch_inStep hC h hop
    rw [perform, hok] at hstep
    cases hstep
    exact hu
  | assign c value =>
    obtain ⟨url, rfl⟩ := h
    obtain ⟨url', heq, hquery⟩ := assign_eq hC url (listOf C (C.components url).query) c value
    rw [perform, heq, ← hquery] at hstep
    cases hstep
    exact ⟨url', rfl⟩
  | mutate m =>
    obtain ⟨url, rfl⟩ := h
    obtain ⟨url', heq, hlist, -⟩ := mutate_eq hC url (listOf C (C.components url).query) m
    rw [perform, heq, ← hlist] at hstep
    cases hstep
    exact ⟨url', rfl⟩

/-- What an operation on a URL object with record `url` and list `list` makes of the two. -/
structure Effect (C : Crates R) (url : R) (list : List (Text × Text)) (op : Operation) : Prop where
  /-- No operation panics. -/
  returns : ∃ t, (perform C (objectOf url list) op).state? = some t
  /-- A `href` that throws leaves the URL and the list as they are. -/
  threw : ∀ {value msg t}, op = .setHref value →
    perform C (objectOf url list) op = .threw msg t → t = objectOf url list
  /-- The setters other than `href` and `search` leave the list and the query as they are. -/
  assign : ∀ {c value}, op = .assign c value →
    ∃ url', perform C (objectOf url list) op = .ok (objectOf url' list) ∧
      (C.components url').query = (C.components url).query
  /-- The methods of the list write the query only. -/
  mutate : ∀ {m}, op = .mutate m →
    ∃ url', perform C (objectOf url list) op = .ok (objectOf url' (m.apply list)) ∧
      OnlyQuery (C.components url) (C.components url')

/-- **URL and searchParams stay in step.** In every state that a URL object reaches, the list is
what the parser makes of the query, if there is one; and this is what each operation on it does. -/
theorem searchParams_in_step (hC : C.Documented) {url : Text} {base : Option Text}
    {s t : UrlObject R} (hnew : newUrl C url base = .ok s)
    (hrun : (urlMachine C).RunWhere Clean s t) :
    ∃ record list, t = objectOf record list ∧
      list = ((C.components record).query.elim [] (urlencodedParse C)) ∧
      ∀ op, Clean t op → Effect C record list op := by
  obtain ⟨record, rfl⟩ : InStep C t :=
    hrun.inv (newUrl_inStep hC hnew) fun _ _ _ h hop hstep => h.step hC hop hstep
  have hinStep : InStep C (objectOf record (listOf C (C.components record).query)) := ⟨record, rfl⟩
  refine ⟨record, _, rfl, rfl, fun op hop => ⟨?_, ?_, ?_, ?_⟩⟩
  · cases op with
    | setHref value =>
      rcases setHref_inStep hinStep value with h | ⟨t, h, -⟩
      · exact ⟨_, congrArg Outcome.state? h⟩
      · exact ⟨t, congrArg Outcome.state? h⟩
    | setSearch value =>
      obtain ⟨t, h, -⟩ := setSearch_inStep hC hinStep hop
      exact ⟨t, congrArg Outcome.state? h⟩
    | assign c value => exact ⟨_, rfl⟩
    | mutate m => exact ⟨_, rfl⟩
  · rintro value msg t rfl hthrew
    rcases setHref_inStep hinStep value with h | ⟨u, h, -⟩
    · rw [perform, h] at hthrew
      cases hthrew
      rfl
    · rw [perform, h] at hthrew
      cases hthrew
  · rintro c value rfl
    obtain ⟨url', heq, hquery⟩ := assign_eq hC record _ c value
    exact ⟨url', congrArg Outcome.ok heq, hquery⟩
  · rintro m rfl
    obtain ⟨url', heq, -, honly⟩ := mutate_eq hC record _ m
    exact ⟨url', heq, honly⟩

/-! ### The crates, for URLs of the scheme `data` -/

/-- A string of ASCII bytes. -/
def asciiText (l : Bytes) : Text := l.map fun b => Char.ofNat b.toNat

private theorem utf8EncodeChar_ascii_fin :
    ∀ b : Fin 0x7F, String.utf8EncodeChar (Char.ofNat b) = [UInt8.ofNat b] := by
  decide

private theorem asBytes_asciiText {l : Bytes} (h : ∀ b ∈ l, b.toNat < 0x7F) :
    asBytes (asciiText l) = l := by
  induction l with
  | nil => rfl
  | cons b l ih =>
    have hb := utf8EncodeChar_ascii_fin ⟨b.toNat, h b List.mem_cons_self⟩
    rw [UInt8.ofNat_toNat] at hb
    have htail := ih fun b hb => h b (List.mem_cons_of_mem _ hb)
    rw [asciiText, List.map_cons, asBytes, List.flatMap_cons, hb]
    exact congrArg (b :: ·) htail

private theorem isTabOrNewline_asciiText {l : Bytes} (h : ∀ b ∈ l, IsVisible b) :
    ∀ c ∈ asciiText l, isTabOrNewline c = false := by
  have hfin : ∀ n : Fin 0x7F, 0x20 < n.val → isTabOrNewline (Char.ofNat n) = false := by decide
  intro c hc
  obtain ⟨b, hb, rfl⟩ := List.mem_map.mp hc
  exact hfin ⟨b.toNat, (h b hb).2⟩ (h b hb).1

/-- UTF-8 decode. -/
def decodeUtf8 (l : Bytes) : Text :=
  match l.toByteArray.utf8Decode? with
  | some chars => chars.toList
  | none => [Char.ofNat 0xFFFD]

private theorem decodeUtf8_asBytes (s : Text) : decodeUtf8 (asBytes s) = s := by
  have h : (asBytes s).toByteArray.utf8Decode? = some s.toArray := List.utf8Decode?_utf8Encode
  rw [decodeUtf8, h]

/-- The query percent-encode set. -/
def inQuerySet (b : UInt8) : Bool :=
  b ≤ 0x20 || b = 0x22 || b = 0x23 || b = 0x3C || b = 0x3E || 0x7E < b

private theorem escapable_of_inQuerySet_fin :
    ∀ n : Fin 0x100, inQuerySet (UInt8.ofNat n) = true →
      UInt8.ofNat n ≠ 0x25 ∧ UInt8.ofNat n ≠ 0x26 ∧ UInt8.ofNat n ≠ 0x2B ∧
        UInt8.ofNat n ≠ 0x3D ∧ hexValue (UInt8.ofNat n) = none := by
  decide +kernel

private theorem escapable_of_inQuerySet {b : UInt8} (h : inQuerySet b = true) : Escapable b := by
  have hb := escapable_of_inQuerySet_fin ⟨b.toNat, b.toNat_lt⟩
  rw [UInt8.ofNat_toNat] at hb
  obtain ⟨hpercent, hampersand, hplus, hequals, hdigit⟩ := hb h
  exact ⟨hpercent, hampersand, hplus, hequals, hdigit⟩

private theorem lt_of_not_inQuerySet {b : UInt8} (h : inQuerySet b = false) : b.toNat < 0x7F := by
  simp only [inQuerySet, Bool.or_eq_false_iff, decide_eq_false_iff_not, UInt8.lt_iff_toNat_lt] at h
  have hb := h.2
  change ¬ 0x7E < b.toNat at hb
  omega

/-- The query state, on bytes. -/
def queryEncode (l : Bytes) : Bytes :=
  l.flatMap fun b => if inQuerySet b then percentEncodeByte b else [b]

private theorem queryEncode_ascii (l : Bytes) : ∀ b ∈ queryEncode l, b.toNat < 0x7F := by
  simp only [queryEncode, List.mem_flatMap]
  rintro x ⟨b, -, hx⟩
  split at hx
  next => exact (isVisible_percentEncodeByte b x hx).2
  next hb =>
    rw [List.mem_singleton] at hx
    subst hx
    exact lt_of_not_inQuerySet (by simpa using hb)

private theorem escaped_queryEncode (l : Bytes) : Escaped l (queryEncode l) := by
  induction l with
  | nil => exact .nil
  | cons b l ih =>
    rw [queryEncode, List.flatMap_cons, ← queryEncode]
    split
    next hb => exact .escape (escapable_of_inQuerySet hb) ih
    next => exact .keep b ih

/-- The parser, for URLs of the scheme `data` with an opaque path of visible characters and
spaces. -/
def parseData (input : Text) : Option Components :=
  let beforeFragment := input.takeWhile (· ≠ '#')
  let beforeQuery := beforeFragment.takeWhile (· ≠ '?')
  match beforeQuery with
  | 'd' :: 'a' :: 't' :: 'a' :: ':' :: path =>
    if path.head? = some '/' then none
    else
      some
        { scheme := ['d', 'a', 't', 'a'], username := [], password := none, hostStr := none
          port := none
          path := path
          query := (beforeFragment.dropWhile (· ≠ '?')).tail?.map fun q =>
            asciiText (queryEncode (asBytes q))
          fragment := (input.dropWhile (· ≠ '#')).tail?
          cannotBeABase := true }
  | _ => none

/-- `set_query`. -/
def dataSetQuery (r : Components) (query : Option Text) : Components :=
  match query with
  | none =>
    { r with
      query := none
      path := if r.cannotBeABase && r.fragment.isNone then r.path.rdropWhile (· = ' ') else r.path }
  | some q =>
    let q := q.filter fun c => !isTabOrNewline c
    { r with query := some (asciiText (queryEncode (asBytes q))) }

/-- The two crates as far as they concern such URLs: their components but for the query and the
fragment do not change. -/
def dataCrates : Crates Components where
  parse := parseData
  join _ := parseData
  components r := r
  setQuery := dataSetQuery
  setPath r path := { r with path := path }
  quirksSetSearch r value :=
    dataSetQuery r (if value = [] then none else some (value.dropPrefix? ['?'] |>.getD value))
  quirks c r value :=
    if c = .hash then
      { r with
        fragment := if value = [] then none else some (value.dropPrefix? ['#'] |>.getD value) }
    else r
  formParse := formParse decodeUtf8
  formSerialize list := asciiText (formSerialize asBytes list)

/-- They behave as documented. -/
theorem dataCrates_documented : dataCrates.Documented where
  formParse_nil := rfl
  formParse_formSerialize list := by
    have hascii : ∀ b ∈ formSerialize asBytes list, b.toNat < 0x7F :=
      fun b hb => (isVisible_formSerialize asBytes list b hb).2
    change formParse decodeUtf8 (asBytes (asciiText (formSerialize asBytes list))) = list
    rw [asBytes_asciiText hascii, formParse_formSerialize decodeUtf8_asBytes]
  formParse_escaped h := formParse_escaped decodeUtf8 h
  formSerialize_clean list := isTabOrNewline_asciiText (isVisible_formSerialize asBytes list)
  setQuery_some r q hq := by
    have hfilter : (q.filter fun c => !isTabOrNewline c) = q := by
      rw [List.filter_eq_self]
      exact fun c hc => by simp [hq c hc]
    refine ⟨asciiText (queryEncode (asBytes q)), ?_, ?_⟩
    · simp [dataCrates, dataSetQuery, hfilter]
    · rw [asBytes_asciiText (queryEncode_ascii (asBytes q))]
      exact escaped_queryEncode (asBytes q)
  setQuery_none r (h : r.cannotBeABase = true → ¬ [' '] <:+ r.path) := by
    have hpath : r.cannotBeABase = true → r.path.rdropWhile (· = ' ') = r.path := by
      intro hbase
      obtain hnil | ⟨p, c, hc⟩ := List.eq_nil_or_concat r.path
      · rw [hnil]
        rfl
      · have hne : c ≠ ' ' := by
          rintro rfl
          exact h hbase ⟨p, by simpa using hc.symm⟩
        rw [hc, List.concat_eq_append, List.rdropWhile_concat_neg _ _ _ (by simpa using hne)]
    simp only [dataCrates, dataSetQuery]
    split_ifs with hbase
    · rw [hpath (Bool.and_eq_true_iff.mp hbase).1]
    · rfl
  query_setQuery_none _ := rfl
  setPath_cannotBeABase _ _ _ _ := rfl
  quirksSetSearch_eq _ _ := rfl
  quirks_query c r value := by
    simp only [dataCrates]
    split_ifs <;> rfl

/-- `data:x ?q=1`. -/
def dataUrl : Components where
  scheme := ['d', 'a', 't', 'a']
  username := []
  password := none
  hostStr := none
  port := none
  path := ['x', ' ']
  query := some ['q', '=', '1']
  fragment := none
  cannotBeABase := true

/-- A query that is removed after a path with a space at its end. -/
theorem searchParams_in_step_data :
    ∃ s t, newUrl dataCrates ['d', 'a', 't', 'a', ':', 'x', ' ', '?', 'q', '=', '1'] none = .ok s ∧
      (urlMachine dataCrates).RunWhere Clean s t ∧
      ∃ record list, t = objectOf record list ∧
        list = (dataCrates.components record).query.elim [] (urlencodedParse dataCrates) ∧
        ∀ op, Clean t op → Effect dataCrates record list op := by
  have hparse :
      parseData ['d', 'a', 't', 'a', ':', 'x', ' ', '?', 'q', '=', '1'] = some dataUrl := by
    decide
  have hnew : newUrl dataCrates ['d', 'a', 't', 'a', ':', 'x', ' ', '?', 'q', '=', '1'] none =
      .ok (initializeWithUrlRecord dataCrates dataUrl) := by
    rw [newUrl, apiUrlParser, basicUrlParser, show dataCrates.parse = parseData from rfl, hparse]
  obtain ⟨t, hstep⟩ : ∃ t, (perform dataCrates (initializeWithUrlRecord dataCrates dataUrl)
      (.mutate (.delete ['q'] none))).state? = some t := ⟨_, rfl⟩
  have hrun : (urlMachine dataCrates).RunWhere Clean
      (initializeWithUrlRecord dataCrates dataUrl) t :=
    .tail (.refl _) (e := .mutate (.delete ['q'] none)) trivial hstep
  exact ⟨_, t, hnew, hrun, searchParams_in_step dataCrates_documented hnew hrun⟩

end WebUrl
