import StarlingMonkey.WebFetch.Headers

/-!
# Following redirects

`send_following_redirects` sends a request, and sends it again for each redirect that it follows.
URLs and their origins are those of a library, `UrlLibrary`. What the transport answers is a list:
the n-th answer is the one to the n-th send.

* `Following`: the loop while it waits for an answer, with what was sent so far.
* `Kept`: what one turn of the loop preserves.
* `send_contained_iff`: what is sent is contained, except where a streamed body meets a method that
  keeps its body through a 303.
-/

namespace WebFetch

/-! ### Requests and responses -/

/-- What URLs of type `U` with origins of type `O` offer. -/
structure UrlLibrary (U O : Type) where
  /-- `to_string`. -/
  serialize : U → String
  scheme : U → String
  origin : U → O
  fragment : U → Option String
  setFragment : U → Option String → U
  username : U → String
  password : U → Option String
  join : U → String → Except String U

/-- `OutgoingBody`. What streams and host bodies are is a parameter. -/
inductive OutgoingBody (ρ : Type) where
  | bytes (bytes : List UInt8)
  | stream (receiver : ρ)
  | host (body : ρ)
  | consumed
deriving DecidableEq, Repr

/-- A body that is consumed by a send. -/
def OutgoingBody.isStream {ρ : Type} : OutgoingBody ρ → Bool
  | stream _ | host _ => true
  | bytes _ | consumed => false

/-- `Request` of the platform. -/
structure PlatformRequest (ρ : Type) where
  method : ByteString
  url : String
  headers : HeaderList
  body : OutgoingBody ρ

/-- `Response` of the platform. -/
structure PlatformResponse (ι : Type) where
  status : ℕ
  headers : HeaderList
  body : ι

/-- `RequestMode`. -/
inductive RequestMode where
  | navigate | sameOrigin | noCors | cors
deriving DecidableEq, Repr

/-- `RequestRedirect`. -/
inductive RequestRedirect where
  | follow | error | manual
deriving DecidableEq, Repr

/-- `as_str`. -/
def RequestRedirect.asStr : RequestRedirect → String
  | follow => "follow"
  | error => "error"
  | manual => "manual"

/-- `ResponseTainting`. -/
inductive ResponseTainting where
  | basic | cors | opaqueResponse
deriving DecidableEq, Repr

/-- `MAX_REDIRECTS`. -/
def maxRedirects : ℕ := 20

/-- `is_redirect_status`. -/
def isRedirectStatus (status : ℕ) : Bool :=
  status = 301 || status = 302 || status = 303 || status = 307 || status = 308

/-- `is_request_body_header`. -/
def isRequestBodyHeader (name : ByteString) : Bool :=
  eqIgnoreAsciiCase name "content-encoding".toList ||
    eqIgnoreAsciiCase name "content-language".toList ||
    eqIgnoreAsciiCase name "content-location".toList ||
    eqIgnoreAsciiCase name "content-type".toList ||
    eqIgnoreAsciiCase name "content-length".toList

/-- The headers that another origin does not get. -/
def isCredentialHeader (name : ByteString) : Bool :=
  eqIgnoreAsciiCase name "authorization".toList || eqIgnoreAsciiCase name "cookie".toList ||
    eqIgnoreAsciiCase name "proxy-authorization".toList

/-- `is_post`. -/
def isPost (method : ByteString) : Bool := eqIgnoreAsciiCase method "POST".toList

/-- `is_get_or_head`. -/
def isGetOrHead (method : ByteString) : Bool :=
  eqIgnoreAsciiCase method "GET".toList || eqIgnoreAsciiCase method "HEAD".toList

/-- An upper-case hex digit. -/
def upperHexDigit (n : ℕ) : Char := n.digitChar.toUpper

/-- `percent_encode_location_bytes`. -/
def percentEncodeLocationBytes (location : ByteString) : ByteString :=
  if location.all fun c => c.toNat < 0x80 then location
  else location.flatMap fun c =>
    if c.toNat ≤ 0xFF && !decide (c.toNat < 0x80) then
      ['%', upperHexDigit (c.toNat / 0x10), upperHexDigit (c.toNat % 0x10)]
    else [c]

/-! ### The loop -/

/-- What does not change while redirects are followed: the parameters, and
`enforce_fetch_restrictions`. -/
structure Fetching (U O : Type) where
  urls : UrlLibrary U O
  enforce : Bool
  redirectMode : RequestRedirect
  mode : RequestMode
  requestOrigin : Option O

/-- A request that was sent, with the last entry of the URL list and the tainting then. -/
structure Sent (U ρ : Type) where
  request : PlatformRequest ρ
  url : U
  tainting : ResponseTainting

/-- The loop, while the transport has an attempt. -/
structure Following (U ρ : Type) where
  request : PlatformRequest ρ
  /-- `url_list`. -/
  urlList : List U
  /-- `url_list is never empty`. -/
  nonempty : urlList ≠ []
  tainting : ResponseTainting
  /-- `body_is_stream`. -/
  bodyIsStream : Bool
  /-- The attempts. -/
  sent : List (Sent U ρ)

/-- How `send_following_redirects` ends. -/
abbrev Fetched (U ι : Type) := Except String (PlatformResponse ι × List U × ResponseTainting)

/-- What was sent, and the result, if there is one. -/
structure Transfer (U ρ ι : Type) where
  sent : List (Sent U ρ)
  result : Option (Fetched U ι)

variable {U O ρ ι : Type}

/-- `current_url`. -/
def Following.currentUrl (s : Following U ρ) : U := s.urlList.getLast s.nonempty

/-- `attempt`: a stream is moved out of the request, bytes are kept. -/
def attempt (request : PlatformRequest ρ) (urlList : List U) (nonempty : urlList ≠ [])
    (tainting : ResponseTainting) (sent : List (Sent U ρ)) : Following U ρ where
  request := { request with
    body := if request.body.isStream then .consumed else request.body }
  urlList := urlList
  nonempty := nonempty
  tainting := tainting
  bodyIsStream := request.body.isStream
  sent := sent ++ [⟨request, urlList.getLast nonempty, tainting⟩]

/-- Step 12: the method becomes `GET`, and the body and its headers are dropped. -/
def PlatformRequest.redirected (r : PlatformRequest ρ) (status : ℕ) : PlatformRequest ρ :=
  if ((status = 301 || status = 302) && isPost r.method) ||
      (status = 303 && !isGetOrHead r.method) then
    { r with
      method := "GET".toList
      body := .bytes []
      headers := r.headers.filter fun x => !isRequestBodyHeader x.1 }
  else r

/-- Step 13. -/
def PlatformRequest.withoutCredentials (r : PlatformRequest ρ) : PlatformRequest ρ :=
  { r with headers := r.headers.filter fun x => !isCredentialHeader x.1 }

namespace Fetching

variable [DecidableEq O] (p : Fetching U O)

/-- `apply_main_fetch_switch`. -/
def applyMainFetchSwitch (url : U) (tainting : ResponseTainting) :
    Except String ResponseTainting :=
  if !p.enforce then .ok tainting
  else
    match p.requestOrigin with
    | none => .ok tainting
    | some requestOrigin =>
      if tainting = .basic && p.urls.origin url = requestOrigin then .ok tainting
      else
        match p.mode with
        | .sameOrigin | .navigate => .error ("cannot fetch " ++ p.urls.serialize url ++
            " in \"same-origin\" mode: not same origin with the requester")
        | .noCors =>
          if p.redirectMode ≠ .follow then .error ("cannot fetch " ++ p.urls.serialize url ++
            " in \"no-cors\" mode with a \"" ++ p.redirectMode.asStr ++ "\" redirect mode")
          else .ok .opaqueResponse
        | .cors => .ok .cors

/-- The scheme is `http` or `https`. -/
def isHttp (url : U) : Bool := p.urls.scheme url = "http" || p.urls.scheme url = "https"

/-- `includes_credentials`. -/
def includesCredentials (url : U) : Bool :=
  p.urls.username url ≠ "" || (p.urls.password url).isSome

/-- `location_url`, Steps 3 to 5. -/
def locationUrl (current : U) (response : PlatformResponse ι) : Except String (Option U) :=
  let locations :=
    (response.headers.filter fun x => eqIgnoreAsciiCase x.1 "location".toList).map Prod.snd
  match locations with
  | [] => .ok none
  | _ :: _ :: _ => .error "multiple Location headers in redirect response"
  | [location] =>
    match p.urls.join current (String.ofList (percentEncodeLocationBytes location)) with
    | .error e => .error ("invalid redirect Location: " ++ e)
    | .ok url =>
      if (p.urls.fragment url).isNone then
        .ok (some (p.urls.setFragment url (p.urls.fragment current)))
      else .ok (some url)

/-- Steps 3 to 10: where a redirect leads, as the `length`-th hop. -/
def redirectTarget (current : U) (length : ℕ) (response : PlatformResponse ι) :
    Except String (Option U) := do
  match ← p.locationUrl current response with
  | none => .ok none
  | some url =>
    if !p.isHttp url then
      .error ("redirect to non-HTTP(S) scheme \"" ++ p.urls.scheme url ++ ":\"")
    else if length > maxRedirects then .error "too many redirects"
    else if p.mode = .cors && p.includesCredentials url then
      .error "redirect Location must not include credentials"
    else .ok (some url)

/-- The request for the next hop, Steps 12 to 18. -/
def nextRequest (r : PlatformRequest ρ) (current url : U) (status : ℕ) : PlatformRequest ρ :=
  let r := r.redirected status
  let r := if p.urls.origin current ≠ p.urls.origin url then r.withoutCredentials else r
  { r with url := p.urls.serialize url }

/-- A redirect is followed, unless there is no `Location`. -/
def redirect (s : Following U ρ) (response : PlatformResponse ι) :
    Except String (Option (Following U ρ)) := do
  match ← p.redirectTarget s.currentUrl s.urlList.length response with
  | none => .ok none
  | some url =>
    if response.status ≠ 303 && s.bodyIsStream then
      .error "cannot follow redirect: the request body is a stream and cannot be replayed"
    else
      let tainting ← p.applyMainFetchSwitch url s.tainting
      .ok (some (attempt (p.nextRequest s.request s.currentUrl url response.status)
        (s.urlList ++ [url]) (List.append_ne_nil_of_right_ne_nil _ (List.cons_ne_nil _ _)) tainting
        s.sent))

/-- The transport answers the attempt. -/
def answered (s : Following U ρ) (answer : Except String (PlatformResponse ι)) :
    Fetched U ι ⊕ Following U ρ :=
  match answer with
  | .error e => .inl (.error e)
  | .ok response =>
    if !isRedirectStatus response.status then .inl (.ok (response, s.urlList, s.tainting))
    else
      match p.redirectMode with
      | .manual => .inl (.ok (response, s.urlList, s.tainting))
      | .error => .inl (.error "redirect encountered with redirect mode \"error\"")
      | .follow =>
        match p.redirect s response with
        | .error e => .inl (.error e)
        | .ok none => .inl (.ok (response, s.urlList, s.tainting))
        | .ok (some s') => .inr s'

/-- The loop, over what the transport answers. -/
def loop (s : Following U ρ) : List (Except String (PlatformResponse ι)) → Transfer U ρ ι
  | [] => ⟨s.sent, none⟩
  | answer :: answers =>
    match p.answered s answer with
    | .inl result => ⟨s.sent, some result⟩
    | .inr s' => loop s' answers

/-- `send_following_redirects`. -/
def sendFollowingRedirects (request : PlatformRequest ρ) (initialUrl : U)
    (answers : List (Except String (PlatformResponse ι))) : Transfer U ρ ι :=
  match p.applyMainFetchSwitch initialUrl .basic with
  | .error e => ⟨[], some (.error e)⟩
  | .ok tainting =>
    p.loop (attempt request [initialUrl] (List.cons_ne_nil _ _) tainting []) answers

end Fetching

/-! ### What is to hold -/

/-- The headers that describe a body. -/
def bodyHeaders (headers : HeaderList) : HeaderList :=
  headers.filter fun x => isRequestBodyHeader x.1

/-- There is no credential among the headers. -/
def NoCredentials (headers : HeaderList) : Prop := ∀ x ∈ headers, isCredentialHeader x.1 = false

/-- What a later request does with the body of the first one: it carries the same bytes, with their
headers, or it is a `GET` or `HEAD` without a body. -/
def Carries (request later : PlatformRequest ρ) : Prop :=
  (∃ bytes, request.body = .bytes bytes ∧ later.body = .bytes bytes ∧
    later.method = request.method ∧ bodyHeaders later.headers = bodyHeaders request.headers) ∨
  (isGetOrHead later.method = true ∧ later.body = .bytes [] ∧ bodyHeaders later.headers = [])

/-! ### A request that is sent again -/

theorem isCredentialHeader_of_isRequestBodyHeader {name : ByteString}
    (h : isRequestBodyHeader name = true) : isCredentialHeader name = false := by
  simp only [isRequestBodyHeader, eqIgnoreAsciiCase, Bool.or_eq_true, decide_eq_true_eq] at h
  simp only [isCredentialHeader, eqIgnoreAsciiCase]
  rcases h with (((h | h) | h) | h) | h <;> rw [h] <;> decide

theorem bodyHeaders_withoutCredentials (r : PlatformRequest ρ) :
    bodyHeaders r.withoutCredentials.headers = bodyHeaders r.headers := by
  rw [bodyHeaders, bodyHeaders, PlatformRequest.withoutCredentials, List.filter_filter]
  refine List.filter_congr fun x _ => ?_
  cases hbody : isRequestBodyHeader x.1 with
  | false => rfl
  | true => simp [isCredentialHeader_of_isRequestBodyHeader hbody]

theorem noCredentials_withoutCredentials (r : PlatformRequest ρ) :
    NoCredentials r.withoutCredentials.headers := by
  intro x hx
  simpa using (List.mem_filter.mp hx).2

theorem headers_redirected_sublist (r : PlatformRequest ρ) (status : ℕ) :
    (r.redirected status).headers.Sublist r.headers := by
  rw [PlatformRequest.redirected]
  split_ifs
  · exact List.filter_sublist
  · exact List.Sublist.refl _

/-- The body is dropped with its headers. -/
theorem carries_of_dropped (request r : PlatformRequest ρ) : Carries request
    { r with
      method := "GET".toList
      body := .bytes []
      headers := r.headers.filter fun x => !isRequestBodyHeader x.1 } := by
  refine .inr ⟨by simp [isGetOrHead, eqIgnoreAsciiCase], rfl, ?_⟩
  rw [bodyHeaders, List.filter_filter, List.filter_eq_nil_iff]
  intro x _
  simp

theorem Carries.isStream {request r : PlatformRequest ρ} (h : Carries request r) :
    r.body.isStream = false := by
  rcases h with ⟨bytes, -, hbytes, -⟩ | ⟨-, hbytes, -⟩ <;> rw [hbytes] <;> rfl

theorem Carries.redirected {request r : PlatformRequest ρ} (h : Carries request r) (status : ℕ) :
    Carries request (r.redirected status) := by
  rw [PlatformRequest.redirected]
  split_ifs
  · exact carries_of_dropped request r
  · exact h

namespace Fetching

variable (p : Fetching U O)

/-- What `main_fetch` and `platform_request` hand over. -/
structure Sendable (request : PlatformRequest ρ) (initialUrl : U) : Prop where
  /-- `main_fetch` answers `Network` for these schemes only. -/
  http : p.isHttp initialUrl = true
  url : request.url = p.urls.serialize initialUrl
  /-- `consume_outgoing_body` is told to start reading. -/
  body : request.body ≠ .consumed

/-- After a hop to another origin, no request carries credentials. -/
def Stripped (sent : List (Sent U ρ)) : Prop :=
  ∀ l x y l', sent = l ++ x :: y :: l' → p.urls.origin x.url ≠ p.urls.origin y.url →
    ∀ z ∈ y :: l', NoCredentials z.request.headers

/-- **Redirect following is bounded, and leaks nothing.** -/
structure Contained (request : PlatformRequest ρ)
    (answers : List (Except String (PlatformResponse ι))) (t : Transfer U ρ ι) : Prop where
  bounded : t.sent.length ≤ 21
  http : ∀ x ∈ t.sent, p.isHttp x.url = true
  /-- Each request is sent to the last entry of the URL list. -/
  sentTo : ∀ x ∈ t.sent, x.request.url = p.urls.serialize x.url
  stripped : p.Stripped t.sent
  sameOrigin : p.enforce = true → p.mode = .sameOrigin → ∀ o, p.requestOrigin = some o →
    ∀ x ∈ t.sent, p.urls.origin x.url = o
  tainting : t.sent.Pairwise fun x y => x.tainting ≠ .basic → y.tainting ≠ .basic
  /-- The result is the answer to the last request, with the URLs that were sent to. -/
  returned : ∀ response urlList tainting, t.result = some (.ok (response, urlList, tainting)) →
    urlList = t.sent.map Sent.url ∧ answers[t.sent.length - 1]? = some (.ok response) ∧
      ∃ x, t.sent.getLast? = some x ∧ x.tainting = tainting
  /-- A stream or a host body is sent at most once. -/
  once : (t.sent.filter fun x => x.request.body.isStream).length ≤ 1
  later : ∀ x ∈ t.sent.tail, Carries request x.request

variable [DecidableEq O]

/-- A streamed body meets a method that keeps its body through a 303 that is followed. -/
def Drops (request : PlatformRequest ρ) (initialUrl : U)
    (answers : List (Except String (PlatformResponse ι))) : Prop :=
  request.body.isStream = true ∧ isGetOrHead request.method = true ∧ p.redirectMode = .follow ∧
    ∃ response tainting url, answers.head? = some (.ok response) ∧ response.status = 303 ∧
      p.redirectTarget initialUrl 1 response = .ok (some url) ∧
      p.applyMainFetchSwitch initialUrl .basic = .ok tainting ∧
      ∃ tainting', p.applyMainFetchSwitch url tainting = .ok tainting'

/-! ### A hop -/

variable {p}

theorem carries_nextRequest {request r : PlatformRequest ρ} {status : ℕ}
    (h : Carries request (r.redirected status)) (current url : U) :
    Carries request (p.nextRequest r current url status) := by
  rw [Fetching.nextRequest]
  split_ifs
  · rw [Carries, bodyHeaders_withoutCredentials]
    exact h
  · exact h

theorem headers_nextRequest (r : PlatformRequest ρ) (current url : U) (status : ℕ) :
    (p.nextRequest r current url status).headers.Sublist r.headers := by
  rw [Fetching.nextRequest]
  split_ifs
  · exact List.filter_sublist.trans (headers_redirected_sublist r status)
  · exact headers_redirected_sublist r status

theorem noCredentials_nextRequest (r : PlatformRequest ρ) {current url : U} (status : ℕ)
    (h : p.urls.origin current ≠ p.urls.origin url) :
    NoCredentials (p.nextRequest r current url status).headers := by
  rw [Fetching.nextRequest, if_pos h]
  exact noCredentials_withoutCredentials _

omit [DecidableEq O] in
theorem redirectTarget_eq_some {current url : U} {length : ℕ} {response : PlatformResponse ι}
    (h : p.redirectTarget current length response = .ok (some url)) :
    p.isHttp url = true ∧ length ≤ maxRedirects := by
  rw [redirectTarget] at h
  cases hlocation : p.locationUrl current response with
  | error e =>
    rw [hlocation] at h
    cases h
  | ok location =>
    rw [hlocation] at h
    cases location with
    | none => cases h
    | some location =>
      simp only [Except.bind, bind] at h
      split_ifs at h with hhttp hlength hcredentials
      cases h
      exact ⟨by simpa using hhttp, by omega⟩

/-- **The inversion lemma**: what a redirect that is followed leads to. -/
theorem redirect_eq_some {s s' : Following U ρ} {response : PlatformResponse ι}
    (h : p.redirect s response = .ok (some s')) : ∃ url tainting,
    p.redirectTarget s.currentUrl s.urlList.length response = .ok (some url) ∧
    (response.status = 303 ∨ s.bodyIsStream = false) ∧
    p.applyMainFetchSwitch url s.tainting = .ok tainting ∧
    s' = attempt (p.nextRequest s.request s.currentUrl url response.status) (s.urlList ++ [url])
      (List.append_ne_nil_of_right_ne_nil _ (List.cons_ne_nil _ _)) tainting s.sent := by
  rw [redirect] at h
  cases htarget : p.redirectTarget s.currentUrl s.urlList.length response with
  | error e =>
    rw [htarget] at h
    cases h
  | ok target =>
    rw [htarget] at h
    cases target with
    | none => cases h
    | some url =>
      simp only [Except.bind, bind] at h
      split_ifs at h with hstream
      cases htainting : p.applyMainFetchSwitch url s.tainting with
      | error e =>
        rw [htainting] at h
        cases h
      | ok tainting =>
        rw [htainting] at h
        cases h
        refine ⟨url, tainting, rfl, ?_, htainting, rfl⟩
        by_cases hstatus : response.status = 303
        · exact .inl hstatus
        · exact .inr (by simpa [hstatus] using hstream)

theorem ne_basic_of_switch {url : U} {t t' : ResponseTainting}
    (h : p.applyMainFetchSwitch url t = .ok t') (ht : t ≠ .basic) : t' ≠ .basic := by
  rw [applyMainFetchSwitch] at h
  by_cases henforce : (!p.enforce) = true
  · rw [if_pos henforce] at h
    cases h
    exact ht
  · rw [if_neg henforce] at h
    cases horigin : p.requestOrigin with
    | none =>
      rw [horigin] at h
      cases h
      exact ht
    | some o =>
      simp only [horigin] at h
      rw [if_neg (by simp [ht])] at h
      cases hmode : p.mode with
      | sameOrigin | navigate => rw [hmode] at h; cases h
      | cors =>
        rw [hmode] at h
        cases h
        exact fun h => ResponseTainting.noConfusion h
      | noCors =>
        simp only [hmode] at h
        split_ifs at h
        cases h
        exact fun h => ResponseTainting.noConfusion h

theorem sameOrigin_of_switch {url : U} {t t' : ResponseTainting}
    (h : p.applyMainFetchSwitch url t = .ok t') (henforce : p.enforce = true)
    (hmode : p.mode = .sameOrigin) {o : O} (horigin : p.requestOrigin = some o) :
    p.urls.origin url = o := by
  rw [applyMainFetchSwitch, if_neg (by simp [henforce])] at h
  simp only [horigin, hmode] at h
  split_ifs at h with hsame
  simp only [Bool.and_eq_true, decide_eq_true_eq] at hsame
  exact hsame.2

/-! ### What a hop preserves -/

variable (p) in
/-- A hop went to another origin. -/
def Crossed (sent : List (Sent U ρ)) : Prop :=
  ∃ l x y l', sent = l ++ x :: y :: l' ∧ p.urls.origin x.url ≠ p.urls.origin y.url

omit [DecidableEq O] in
theorem Stripped.append {sent : List (Sent U ρ)} (h : p.Stripped sent) {w : Sent U ρ}
    (hlast : ∀ x ∈ sent.getLast?, p.urls.origin x.url ≠ p.urls.origin w.url →
      NoCredentials w.request.headers)
    (hcrossed : p.Crossed sent → NoCredentials w.request.headers) :
    p.Stripped (sent ++ [w]) := by
  intro l x y l' heq hne z hz
  rcases List.eq_nil_or_concat l' with rfl | ⟨l'', v, rfl⟩
  · have heq' : sent ++ [w] = (l ++ [x]) ++ [y] := by simpa using heq
    obtain ⟨rfl, hw⟩ := List.append_inj' heq' rfl
    cases hw
    rw [List.mem_singleton] at hz
    subst hz
    exact hlast x (by simp) hne
  · have heq' : sent ++ [w] = (l ++ x :: y :: l'') ++ [v] := by simpa using heq
    obtain ⟨hsent, hw⟩ := List.append_inj' heq' rfl
    cases hw
    rw [List.concat_eq_append, ← List.cons_append, List.mem_append, List.mem_singleton] at hz
    rcases hz with hz | rfl
    · exact h l x y l'' hsent hne z hz
    · exact hcrossed ⟨l, x, y, l'', hsent, hne⟩

omit [DecidableEq O] in
theorem Crossed.of_append {sent : List (Sent U ρ)} {w : Sent U ρ} (h : p.Crossed (sent ++ [w])) :
    p.Crossed sent ∨ ∃ x, sent.getLast? = some x ∧ p.urls.origin x.url ≠ p.urls.origin w.url := by
  obtain ⟨l, x, y, l', heq, hne⟩ := h
  rcases List.eq_nil_or_concat l' with rfl | ⟨l'', v, rfl⟩
  · have heq' : sent ++ [w] = (l ++ [x]) ++ [y] := by simpa using heq
    obtain ⟨rfl, hw⟩ := List.append_inj' heq' rfl
    cases hw
    exact .inr ⟨x, by simp, hne⟩
  · have heq' : sent ++ [w] = (l ++ x :: y :: l'') ++ [v] := by simpa using heq
    obtain ⟨hsent, -⟩ := List.append_inj' heq' rfl
    exact .inl ⟨l, x, y, l'', hsent, hne⟩

variable (p) in
/-- **The invariant** of the loop. -/
structure Kept (request : PlatformRequest ρ) (s : Following U ρ) : Prop where
  urls : s.sent.map Sent.url = s.urlList
  bounded : s.urlList.length ≤ 21
  http : ∀ x ∈ s.sent, p.isHttp x.url = true
  sentTo : ∀ x ∈ s.sent, x.request.url = p.urls.serialize x.url
  stripped : p.Stripped s.sent
  clean : p.Crossed s.sent → NoCredentials s.request.headers
  sameOrigin : p.enforce = true → p.mode = .sameOrigin → ∀ o, p.requestOrigin = some o →
    ∀ x ∈ s.sent, p.urls.origin x.url = o
  pairwise : s.sent.Pairwise fun x y => x.tainting ≠ .basic → y.tainting ≠ .basic
  /-- The tainting is that of the last attempt, and the latest of all. -/
  tainting : ∀ x ∈ s.sent, x.tainting ≠ .basic → s.tainting ≠ .basic
  last : ∃ x, s.sent.getLast? = some x ∧ x.tainting = s.tainting
  later : ∀ x ∈ s.sent.tail, Carries request x.request

/-- The request as it was sent first, whose body was moved into the attempt. -/
def Moved (request : PlatformRequest ρ) (s : Following U ρ) : Prop :=
  s.bodyIsStream = true ∧ s.request.method = request.method

omit [DecidableEq O] in
/-- The last URL that was sent to. -/
theorem Kept.currentUrl {request : PlatformRequest ρ} {s : Following U ρ} (h : p.Kept request s)
    {x : Sent U ρ} (hx : s.sent.getLast? = some x) : s.currentUrl = x.url := by
  have hlast := congrArg (Option.map Sent.url) hx
  rw [← List.getLast?_map, h.urls, List.getLast?_eq_some_getLast s.nonempty] at hlast
  exact Option.some.inj hlast

theorem kept_attempt {request : PlatformRequest ρ} {initialUrl : U} {t : ResponseTainting}
    (h : p.Sendable request initialUrl)
    (hswitch : p.applyMainFetchSwitch initialUrl .basic = .ok t) :
    p.Kept request (attempt request [initialUrl] (List.cons_ne_nil _ _) t []) := by
  have hcrossed : ¬ p.Crossed [(⟨request, initialUrl, t⟩ : Sent U ρ)] := by
    rintro ⟨l, x, y, l', heq, -⟩
    have hlength := congrArg List.length heq
    simp only [List.length_cons, List.length_nil, List.length_append] at hlength
    omega
  refine ⟨rfl, by simp [attempt], ?_, ?_, ?_, fun hc => absurd hc hcrossed, ?_,
    List.pairwise_singleton _ _, ?_, ⟨_, rfl, rfl⟩, fun x hx => absurd hx List.not_mem_nil⟩
  · intro x hx
    obtain rfl := List.mem_singleton.mp hx
    exact h.http
  · intro x hx
    obtain rfl := List.mem_singleton.mp hx
    exact h.url
  · exact fun l x y l' heq hne => absurd ⟨l, x, y, l', heq, hne⟩ hcrossed
  · intro henforce hmode o horigin x hx
    obtain rfl := List.mem_singleton.mp hx
    exact sameOrigin_of_switch hswitch henforce hmode horigin
  · intro x hx
    obtain rfl := List.mem_singleton.mp hx
    exact id

/-- **The hop lemma.** -/
theorem Kept.redirect {request : PlatformRequest ρ} {s s' : Following U ρ}
    {response : PlatformResponse ι} (h : p.Kept request s)
    (hbody : Moved request s ∨ Carries request s.request)
    (hmoved : s.bodyIsStream = true → response.status = 303 → isGetOrHead s.request.method = false)
    (hs' : p.redirect s response = .ok (some s')) :
    p.Kept request s' ∧ s'.bodyIsStream = false ∧ Carries request s'.request := by
  obtain ⟨url, t, htarget, hstatus, hswitch, rfl⟩ := redirect_eq_some hs'
  obtain ⟨hhttp, hlength⟩ := redirectTarget_eq_some htarget
  obtain ⟨last, hlast, htainting⟩ := h.last
  have hcurrent := h.currentUrl hlast
  have hcarries : Carries request (p.nextRequest s.request s.currentUrl url response.status) := by
    refine carries_nextRequest ?_ _ _
    -- a streamed body reaches a redirect only as a 303, which drops it
    rcases hbody with ⟨hstream, -⟩ | hcarries
    · have h303 : response.status = 303 := hstatus.resolve_right (by simp [hstream])
      have hmethod := hmoved hstream h303
      rw [PlatformRequest.redirected, if_pos (by simp [h303, hmethod])]
      exact carries_of_dropped request s.request
    · exact hcarries.redirected _
  have hnot := hcarries.isStream
  -- a change of origin takes the credentials off, and none comes back
  have hclean (hne : p.urls.origin last.url ≠ p.urls.origin url) :
      NoCredentials (p.nextRequest s.request s.currentUrl url response.status).headers := by
    rw [← hcurrent] at hne
    exact noCredentials_nextRequest _ _ hne
  have hstays (hcrossed : p.Crossed s.sent) :
      NoCredentials (p.nextRequest s.request s.currentUrl url response.status).headers :=
    fun x hx => h.clean hcrossed x ((headers_nextRequest _ _ _ _).mem hx)
  generalize hr : p.nextRequest s.request s.currentUrl url response.status = r at *
  have hurl : r.url = p.urls.serialize url := by
    rw [← hr]
    rfl
  -- the hop adds one request to those sent
  have hsent (hne) : (attempt r (s.urlList ++ [url]) hne t s.sent).sent =
      s.sent ++ [⟨r, url, t⟩] := by
    simp [attempt]
  have hrequest (hne) : (attempt r (s.urlList ++ [url]) hne t s.sent).request = r := by
    obtain ⟨method, url, headers, body⟩ := r
    simp only [attempt, hnot, Bool.false_eq_true, if_false]
  have hmem {q : Sent U ρ → Prop} (hq : ∀ x ∈ s.sent, q x) (hw : q ⟨r, url, t⟩) :
      ∀ x ∈ s.sent ++ [⟨r, url, t⟩], q x := by
    intro x hx
    rcases List.mem_append.mp hx with hx | hx
    · exact hq x hx
    · rw [List.mem_singleton.mp hx]
      exact hw
  refine ⟨⟨?_, ?_, ?_, ?_, ?_, ?_, ?_, ?_, ?_, ?_, ?_⟩, hnot, by rw [hrequest]; exact hcarries⟩
  · rw [hsent, List.map_append, h.urls]
    rfl
  · change (s.urlList ++ [url]).length ≤ 21
    rw [List.length_append, List.length_singleton]
    rw [maxRedirects] at hlength
    omega
  · rw [hsent]
    exact hmem h.http hhttp
  · rw [hsent]
    exact hmem h.sentTo hurl
  · rw [hsent]
    refine h.stripped.append (fun x hx hne => ?_) hstays
    rw [hlast] at hx
    cases hx
    exact hclean hne
  · rw [hsent, hrequest]
    intro hcrossed
    rcases hcrossed.of_append with hcrossed | ⟨x, hx, hne⟩
    · exact hstays hcrossed
    · rw [hlast] at hx
      cases hx
      exact hclean hne
  · rw [hsent]
    exact fun henforce hmode o horigin => hmem (h.sameOrigin henforce hmode o horigin)
      (sameOrigin_of_switch hswitch henforce hmode horigin)
  · rw [hsent, List.pairwise_append]
    refine ⟨h.pairwise, List.pairwise_singleton _ _, fun x hx y hy hne => ?_⟩
    rw [List.mem_singleton.mp hy]
    exact ne_basic_of_switch hswitch (h.tainting x hx hne)
  · rw [hsent]
    exact hmem (fun x hx hne => ne_basic_of_switch hswitch (h.tainting x hx hne)) id
  · rw [hsent]
    exact ⟨⟨r, url, t⟩, by simp, rfl⟩
  · rw [hsent, List.tail_append_of_ne_nil (by rintro hnil; rw [hnil] at hlast; cases hlast)]
    intro x hx
    rcases List.mem_append.mp hx with hx | hx
    · exact h.later x hx
    · rw [List.mem_singleton.mp hx]
      exact hcarries

/-- An attempt that is answered ends the loop, or a redirect is followed. -/
theorem answered_eq_inr {s s' : Following U ρ} {answer : Except String (PlatformResponse ι)}
    (h : p.answered s answer = .inr s') : ∃ response, answer = .ok response ∧
      p.redirectMode = .follow ∧ p.redirect s response = .ok (some s') := by
  cases answer with
  | error e => cases h
  | ok response =>
    rw [answered] at h
    split_ifs at h with hstatus
    cases hmode : p.redirectMode with
    | manual | error => rw [hmode] at h; cases h
    | follow =>
      rw [hmode] at h
      simp only at h
      cases hredirect : p.redirect s response with
      | error e => rw [hredirect] at h; cases h
      | ok next =>
        rw [hredirect] at h
        cases next with
        | none => cases h
        | some next =>
          cases h
          exact ⟨response, rfl, rfl, hredirect⟩

/-- A response that is returned is the answer. -/
theorem answered_eq_inl {s : Following U ρ} {answer : Except String (PlatformResponse ι)}
    {response : PlatformResponse ι} {urlList : List U} {tainting : ResponseTainting}
    (h : p.answered s answer = .inl (.ok (response, urlList, tainting))) :
    answer = .ok response ∧ urlList = s.urlList ∧ tainting = s.tainting := by
  cases answer with
  | error e => cases h
  | ok response' =>
    rw [answered] at h
    split_ifs at h with hstatus
    · cases h
      exact ⟨rfl, rfl, rfl⟩
    · cases hmode : p.redirectMode with
      | manual =>
        rw [hmode] at h
        cases h
        exact ⟨rfl, rfl, rfl⟩
      | error => rw [hmode] at h; cases h
      | follow =>
        rw [hmode] at h
        simp only at h
        cases hredirect : p.redirect s response' with
        | error e => rw [hredirect] at h; cases h
        | ok next =>
          rw [hredirect] at h
          cases next with
          | none =>
            cases h
            exact ⟨rfl, rfl, rfl⟩
          | some next => cases h

/-! ### The whole run -/

omit [DecidableEq O] in
/-- What the invariant says of the attempts, and of a response that is returned then. -/
theorem Kept.contained {request : PlatformRequest ρ} {s : Following U ρ} (h : p.Kept request s)
    {answers : List (Except String (PlatformResponse ι))} {result : Option (Fetched U ι)}
    (hresult : ∀ response urlList tainting, result = some (.ok (response, urlList, tainting)) →
      urlList = s.urlList ∧ tainting = s.tainting ∧
        answers[s.sent.length - 1]? = some (.ok response)) :
    p.Contained request answers ⟨s.sent, result⟩ where
  bounded := by
    have hlength := congrArg List.length h.urls
    rw [List.length_map] at hlength
    exact hlength ▸ h.bounded
  http := h.http
  sentTo := h.sentTo
  stripped := h.stripped
  sameOrigin := h.sameOrigin
  tainting := h.pairwise
  returned response urlList tainting hr := by
    obtain ⟨rfl, rfl, hanswer⟩ := hresult response urlList tainting hr
    exact ⟨h.urls.symm, hanswer, h.last⟩
  once := by
    cases hsent : s.sent with
    | nil => exact Nat.zero_le 1
    | cons x l =>
      have hl : l.filter (fun x => x.request.body.isStream) = [] := by
        rw [List.filter_eq_nil_iff]
        intro y hy
        have hcarries := h.later y (by rw [hsent]; exact hy)
        simp [hcarries.isStream]
      rw [List.filter_cons, hl]
      split_ifs
      · exact Nat.le_refl 1
      · exact Nat.zero_le 1
  later := h.later

/-- The run lemma, from a state in which no stream is on its way. -/
theorem Kept.loop {request : PlatformRequest ρ} {s : Following U ρ} (h : p.Kept request s)
    (hstream : s.bodyIsStream = false) (hcarries : Carries request s.request)
    {answers : List (Except String (PlatformResponse ι))}
    {l : List (Except String (PlatformResponse ι))} (hl : l.length + 1 = s.sent.length) :
    p.Contained request (l ++ answers) (p.loop s answers) := by
  induction answers generalizing s l with
  | nil => exact h.contained fun response urlList tainting hr => by cases hr
  | cons answer answers ih =>
    rw [Fetching.loop]
    cases hanswered : p.answered s answer with
    | inl result =>
      refine h.contained fun response urlList tainting hr => ?_
      cases hr
      obtain ⟨rfl, rfl, rfl⟩ := answered_eq_inl hanswered
      refine ⟨rfl, rfl, ?_⟩
      rw [← hl, Nat.add_sub_cancel, List.getElem?_append_right (Nat.le_refl _), Nat.sub_self]
      rfl
    | inr s' =>
      obtain ⟨response, rfl, -, hredirect⟩ := answered_eq_inr hanswered
      obtain ⟨hkept, hstream', hcarries'⟩ := h.redirect (.inr hcarries)
        (fun htrue => by rw [hstream] at htrue; cases htrue) hredirect
      have hsent : s'.sent.length = s.sent.length + 1 := by
        obtain ⟨url, t, -, -, -, rfl⟩ := redirect_eq_some hredirect
        simp [attempt]
      have hih := ih hkept hstream' hcarries' (l := l ++ [.ok response])
        (by rw [List.length_append, List.length_singleton, hsent, hl])
      rwa [List.append_assoc] at hih

/-- What was sent stays sent. -/
theorem prefix_loop (s : Following U ρ) (answers : List (Except String (PlatformResponse ι))) :
    s.sent <+: (p.loop s answers).sent := by
  induction answers generalizing s with
  | nil => exact List.prefix_refl _
  | cons answer answers ih =>
    rw [Fetching.loop]
    cases hanswered : p.answered s answer with
    | inl result => exact List.prefix_refl _
    | inr s' =>
      obtain ⟨response, -, -, hredirect⟩ := answered_eq_inr hanswered
      refine List.IsPrefix.trans ?_ (ih s')
      obtain ⟨url, t, -, -, -, rfl⟩ := redirect_eq_some hredirect
      exact List.prefix_append _ _

/-- The first redirect of a request that was streamed, without a change of its method. -/
private theorem loop_of_drops {request : PlatformRequest ρ} {initialUrl url : U}
    {t t' : ResponseTainting} {response : PlatformResponse ι}
    {answers : List (Except String (PlatformResponse ι))} (hstream : request.body.isStream = true)
    (hmethod : isGetOrHead request.method = true) (hmode : p.redirectMode = .follow)
    (hanswers : answers.head? = some (.ok response)) (hstatus : response.status = 303)
    (htarget : p.redirectTarget initialUrl 1 response = .ok (some url))
    (hswitch : p.applyMainFetchSwitch url t = .ok t') :
    ∃ x, x.request.body = .consumed ∧ [⟨request, initialUrl, t⟩, x] <+:
      (p.loop (attempt request [initialUrl] (List.cons_ne_nil _ _) t []) answers).sent := by
  obtain ⟨s, hs⟩ : ∃ s, s = attempt request [initialUrl] (List.cons_ne_nil _ _) t [] := ⟨_, rfl⟩
  have hconsumed : s.request.body = .consumed := by
    rw [hs]
    simp [attempt, hstream]
  have hkeeps : s.request.redirected 303 = s.request := by
    have hmethod' : isGetOrHead s.request.method = true := by
      rw [hs]
      exact hmethod
    rw [PlatformRequest.redirected, if_neg (by simp [hmethod'])]
  have hbody : (p.nextRequest s.request initialUrl url 303).body = .consumed := by
    rw [Fetching.nextRequest, hkeeps]
    split_ifs <;> exact hconsumed
  have hredirect : p.redirect s response =
      .ok (some (attempt (p.nextRequest s.request initialUrl url 303) (s.urlList ++ [url])
        (List.append_ne_nil_of_right_ne_nil _ (List.cons_ne_nil _ _)) t' s.sent)) := by
    have htarget' : p.redirectTarget s.currentUrl s.urlList.length response = .ok (some url) := by
      rw [hs]
      exact htarget
    have hswitch' : p.applyMainFetchSwitch url s.tainting = .ok t' := by
      rw [hs]
      exact hswitch
    have hcurrent : s.currentUrl = initialUrl := by
      rw [hs]
      rfl
    rw [redirect, htarget']
    simp only [bind, Except.bind]
    rw [if_neg (by simp [hstatus]), hswitch', hcurrent, hstatus]
  obtain ⟨answers, rfl⟩ : ∃ as, answers = .ok response :: as := by
    cases answers with
    | nil => cases hanswers
    | cons answer as =>
      cases hanswers
      exact ⟨as, rfl⟩
  refine ⟨⟨p.nextRequest s.request initialUrl url 303, url, t'⟩, hbody, ?_⟩
  have hanswered : p.answered s (.ok response) = .inr (attempt
      (p.nextRequest s.request initialUrl url 303) (s.urlList ++ [url])
      (List.append_ne_nil_of_right_ne_nil _ (List.cons_ne_nil _ _)) t' s.sent) := by
    rw [answered, if_neg (by simp [isRedirectStatus, hstatus]), hmode]
    simp only [hredirect]
  rw [← hs, Fetching.loop, hanswered]
  refine List.IsPrefix.trans ?_ (prefix_loop _ _)
  simp [attempt, hs]

/-- **Redirect following is bounded, and leaks nothing**, exactly where no streamed body meets a
method that keeps its body through a 303. -/
theorem send_contained_iff {request : PlatformRequest ρ} {initialUrl : U}
    (h : p.Sendable request initialUrl) (answers : List (Except String (PlatformResponse ι))) :
    p.Contained request answers (p.sendFollowingRedirects request initialUrl answers) ↔
      ¬ p.Drops request initialUrl answers := by
  rw [sendFollowingRedirects]
  -- the first switch refuses the request: nothing is sent
  cases hswitch : p.applyMainFetchSwitch initialUrl .basic with
  | error e =>
    simp only
    refine iff_of_true ⟨Nat.zero_le 21, ?_, ?_, ?_, ?_, List.Pairwise.nil, ?_, Nat.zero_le 1, ?_⟩ ?_
    · exact fun x hx => absurd hx List.not_mem_nil
    · exact fun x hx => absurd hx List.not_mem_nil
    · exact fun l x y l' heq => absurd heq (by simp)
    · exact fun _ _ _ _ x hx => absurd hx List.not_mem_nil
    · exact fun response urlList tainting hr => by cases hr
    · exact fun x hx => absurd hx List.not_mem_nil
    · rintro ⟨-, -, -, response, t, url, -, -, -, ht, -⟩
      rw [hswitch] at ht
      cases ht
  | ok t =>
    simp only
    have hkept := kept_attempt h hswitch
    constructor
    · rintro hcontained ⟨hstream, hmethod, hmode, response, t₀, url, hanswers, hstatus, htarget,
        ht₀, t', hswitch'⟩
      rw [hswitch] at ht₀
      cases ht₀
      -- a 303 drops the streamed body of a GET or HEAD too, and the next request has none
      obtain ⟨x, hx, l, hl⟩ := loop_of_drops hstream hmethod hmode hanswers hstatus htarget hswitch'
      have hcarries := hcontained.later x (by rw [← hl]; simp)
      rcases hcarries with ⟨bytes, hbytes, -⟩ | ⟨-, hbytes, -⟩
      · rw [hbytes] at hstream
        cases hstream
      · rw [hx] at hbytes
        cases hbytes
    -- otherwise each hop carries what the caller gave
    · intro hdrops
      cases hstream : request.body.isStream with
      | false =>
        refine hkept.loop hstream ?_ (l := []) rfl
        cases hbody : request.body with
        | bytes bytes =>
          exact .inl ⟨bytes, hbody, by simp [attempt, hbody, OutgoingBody.isStream], rfl, rfl⟩
        | consumed => exact absurd hbody h.body
        | stream | host => rw [hbody] at hstream; cases hstream
      | true =>
        cases answers with
        | nil => exact hkept.contained fun response urlList tainting hr => by cases hr
        | cons answer answers =>
          rw [Fetching.loop]
          cases hanswered : p.answered
            (attempt request [initialUrl] (List.cons_ne_nil _ _) t []) answer with
          | inl result =>
            refine hkept.contained fun response urlList tainting hr => ?_
            cases hr
            obtain ⟨rfl, rfl, rfl⟩ := answered_eq_inl hanswered
            exact ⟨rfl, rfl, rfl⟩
          | inr s' =>
            obtain ⟨response, rfl, hmode, hredirect⟩ := answered_eq_inr hanswered
            obtain ⟨url, t', htarget, -, hswitch', hs'⟩ := redirect_eq_some hredirect
            -- by hypothesis the redirect is not one that drops the body
            have hmethod (hstatus : response.status = 303) :
                isGetOrHead request.method = false := by
              by_contra hmethod
              rw [Bool.not_eq_false] at hmethod
              exact hdrops ⟨hstream, hmethod, hmode, response, t, url, rfl, hstatus, htarget,
                hswitch, t', hswitch'⟩
            obtain ⟨hkept', hstream', hcarries'⟩ := hkept.redirect (.inl ⟨hstream, rfl⟩)
              (fun _ => hmethod) hredirect
            refine hkept'.loop hstream' hcarries' (l := [.ok response]) ?_
            rw [hs']
            rfl

end Fetching

/-- Three URLs of two origins. -/
inductive Place where
  | home | upload | elsewhere
deriving DecidableEq, Repr

/-- The URLs, without credentials and fragments. -/
def places : UrlLibrary Place Bool where
  serialize
    | .home => "https://a.test/"
    | .upload => "https://a.test/upload"
    | .elsewhere => "https://b.test/"
  scheme _ := "https"
  origin place := place = .elsewhere
  fragment _ := none
  setFragment place _ := place
  username _ := ""
  password _ := none
  join place location :=
    if location = "https://a.test/" then .ok .home
    else if location = "https://b.test/" then .ok .elsewhere
    else if location = "/" then .ok (if place = .elsewhere then .elsewhere else .home)
    else .error "relative URL without a base"

/-- A fetch from the first origin, in the default modes. -/
def placesFetching : Fetching Place Bool := ⟨places, true, .follow, .cors, some false⟩

/-- A redirect. -/
def redirectTo (status : ℕ) (location : String) : PlatformResponse Unit :=
  ⟨status, [("Location".toList, location.toList)], ()⟩

/-- A `POST` of two bytes is redirected to another origin, and from there back again. -/
theorem send_contained_moved :
    let request : PlatformRequest Unit := ⟨"POST".toList, "https://a.test/upload",
      [("Authorization".toList, "x".toList), ("Content-Type".toList, "y".toList)], .bytes [1, 2]⟩
    let answers := [.ok (redirectTo 307 "https://b.test/"), .ok (redirectTo 303 "https://a.test/"),
      .ok ⟨200, [], ()⟩]
    let t := placesFetching.sendFollowingRedirects request .upload answers
    placesFetching.Contained request answers t ∧
      t.sent.map Sent.url = [.upload, .elsewhere, .home] := by
  have hdrops {answers : List (Except String (PlatformResponse Unit))} {url : String}
      {method : ByteString} {headers : HeaderList} {bytes : List UInt8} :
      ¬ placesFetching.Drops (⟨method, url, headers, .bytes bytes⟩ : PlatformRequest Unit) .upload
        answers := fun h => Bool.noConfusion h.1
  refine ⟨(Fetching.send_contained_iff ⟨rfl, rfl, ?_⟩ _).mpr hdrops, by decide⟩
  intro hbody
  cases hbody

/-- A request that came in with the method `get` and a body is sent on. The 303 keeps the method,
and the body is gone. -/
theorem redirect_without_body :
    let request : PlatformRequest Unit := ⟨"get".toList, "https://a.test/upload",
      [("Content-Type".toList, "y".toList)], .host ()⟩
    let answers := [.ok (redirectTo 303 "/")]
    let t := placesFetching.sendFollowingRedirects request .upload answers
    ¬ placesFetching.Contained request answers t := by
  intro request answers t h
  obtain ⟨x, htail, hbody⟩ : ∃ x, t.sent.tail = [x] ∧ x.request.body = .consumed := ⟨_, rfl, rfl⟩
  rcases h.later x (by rw [htail]; exact List.mem_singleton_self x) with ⟨bytes, hbytes, -⟩ |
    ⟨-, hbytes, -⟩
  · cases hbytes
  · rw [hbody] at hbytes
    cases hbytes

end WebFetch
