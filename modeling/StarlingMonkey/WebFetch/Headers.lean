import StarlingMonkey.Lib.Run

/-!
# Headers

Header lists and `Headers` objects, as `algorithms.rs` and `headers.rs` have them. A `ByteString` is
a list of code points up to U+00FF, one for each byte. Each of the byte predicates is false of the
bytes that encode a code point from U+0080 on, so that it is stated of code points.

`enforce` is `enforce_fetch_restrictions`. The debug assertions on the names and values of single
headers, which repeat what was just validated, are left out.
-/

namespace WebFetch

/-- `ByteString`, or a literal that it is compared with. -/
abbrev ByteString := List Char

/-- `HeaderList`. -/
abbrev HeaderList := List (ByteString × ByteString)

/-! ### Names and values -/

/-- `to_ascii_lowercase`. -/
def lowercase (s : ByteString) : ByteString := s.map Char.toLower

/-- `eq_ignore_ascii_case`. -/
def eqIgnoreAsciiCase (a b : ByteString) : Bool := lowercase a = lowercase b

/-- `trim_matches`. -/
def trimMatches (p : Char → Bool) (s : ByteString) : ByteString :=
  ((s.dropWhile p).reverse.dropWhile p).reverse

/-- `char::is_whitespace`. -/
def isWhitespace (c : Char) : Bool :=
  let n := c.toNat
  (9 ≤ n && n ≤ 13) || n = 0x20 || n = 0x85 || n = 0xA0 || n = 0x1680 ||
    (0x2000 ≤ n && n ≤ 0x200A) || n = 0x2028 || n = 0x2029 || n = 0x202F || n = 0x205F || n = 0x3000

/-- `is_http_token_byte`. -/
def isHttpTokenByte (c : Char) : Bool := c.isAlphanum || "!#$%&'*+-.^_`|~".toList.contains c

/-- `is_header_name`. -/
def isHeaderName (name : ByteString) : Bool := !name.isEmpty && name.all isHttpTokenByte

/-- A tab or a space. -/
def isTabOrSpace (c : Char) : Bool := c = '\t' || c = ' '

/-- `is_header_value`. -/
def isHeaderValue (value : ByteString) : Bool :=
  !(value.head?.any isTabOrSpace || value.getLast?.any isTabOrSpace) &&
    !value.any fun c => c.toNat = 0 || c = '\n' || c = '\r'

/-- `normalize_byte_sequence`. -/
def normalizeByteSequence (potentialValue : ByteString) : ByteString :=
  trimMatches (fun c => c = '\t' || c = '\n' || c = '\r' || c = ' ') potentialValue

/-- `is_forbidden_method`. -/
def isForbiddenMethod (method : ByteString) : Bool :=
  eqIgnoreAsciiCase method "connect".toList || eqIgnoreAsciiCase method "trace".toList ||
    eqIgnoreAsciiCase method "track".toList

/-- `FORBIDDEN_NAMES`. -/
def forbiddenNames : List ByteString :=
  ["accept-charset", "accept-encoding", "access-control-request-headers",
    "access-control-request-method", "connection", "content-length", "cookie", "cookie2", "date",
    "dnt", "expect", "host", "keep-alive", "origin", "referer", "set-cookie", "te", "trailer",
    "transfer-encoding", "upgrade", "via"].map String.toList

/-- `forbidden_request_header`. -/
def forbiddenRequestHeader (name value : ByteString) : Bool :=
  forbiddenNames.any (eqIgnoreAsciiCase name) ||
    eqIgnoreAsciiCase (name.take 6) "proxy-".toList ||
    eqIgnoreAsciiCase (name.take 4) "sec-".toList ||
    ((eqIgnoreAsciiCase name "x-http-method".toList ||
        eqIgnoreAsciiCase name "x-http-method-override".toList ||
        eqIgnoreAsciiCase name "x-method-override".toList) &&
      (value.splitOn ',').any fun method =>
        isForbiddenMethod (trimMatches (fun c => c = ' ' || c = '\t') method))

/-- `is_forbidden_response_header_name`. -/
def isForbiddenResponseHeaderName (name : ByteString) : Bool :=
  eqIgnoreAsciiCase name "set-cookie".toList || eqIgnoreAsciiCase name "set-cookie2".toList

/-- `is_no_cors_safelisted_request_header_name`. -/
def isNoCorsSafelistedRequestHeaderName (name : ByteString) : Bool :=
  eqIgnoreAsciiCase name "accept".toList || eqIgnoreAsciiCase name "accept-language".toList ||
    eqIgnoreAsciiCase name "content-language".toList ||
    eqIgnoreAsciiCase name "content-type".toList

/-- `is_privileged_no_cors_request_header_name`. -/
def isPrivilegedNoCorsRequestHeaderName (name : ByteString) : Bool :=
  eqIgnoreAsciiCase name "range".toList

/-- `is_cors_unsafe_request_header_byte`. -/
def isCorsUnsafeRequestHeaderByte (c : Char) : Bool :=
  (c.toNat < 0x20 && c.toNat ≠ 0x09) ||
    [0x22, 0x28, 0x29, 0x3A, 0x3C, 0x3E, 0x3F, 0x40, 0x5B, 0x5C, 0x5D, 0x7B, 0x7D, 0x7F].contains
      c.toNat

/-- `is_safelisted_language_byte`. -/
def isSafelistedLanguageByte (c : Char) : Bool := c.isAlphanum || " *,-.;=".toList.contains c

/-- `is_safelisted_content_type_essence`. -/
def isSafelistedContentTypeEssence (essence : ByteString) : Bool :=
  eqIgnoreAsciiCase essence "application/x-www-form-urlencoded".toList ||
    eqIgnoreAsciiCase essence "multipart/form-data".toList ||
    eqIgnoreAsciiCase essence "text/plain".toList

/-- `is_cors_safelisted_request_header`. -/
def isCorsSafelistedRequestHeader (name value : ByteString) : Bool :=
  if 128 < value.length then false
  else if eqIgnoreAsciiCase name "accept".toList then !value.any isCorsUnsafeRequestHeaderByte
  else if eqIgnoreAsciiCase name "accept-language".toList ||
      eqIgnoreAsciiCase name "content-language".toList then
    value.all isSafelistedLanguageByte
  else if eqIgnoreAsciiCase name "content-type".toList then
    !value.any isCorsUnsafeRequestHeaderByte &&
      isSafelistedContentTypeEssence (trimMatches isWhitespace (value.takeWhile (· ≠ ';')))
  else if eqIgnoreAsciiCase name "range".toList then false
  else true

/-- `is_no_cors_safelisted_request_header`. -/
def isNoCorsSafelistedRequestHeader (name value : ByteString) : Bool :=
  isNoCorsSafelistedRequestHeaderName name && isCorsSafelistedRequestHeader name value

/-- `is_no_cors_safelisted_request_header_after_append`. -/
def isNoCorsSafelistedRequestHeaderAfterAppend (name : ByteString) (existing : Option ByteString)
    (value : ByteString) : Bool :=
  match existing with
  | none => isNoCorsSafelistedRequestHeader name value
  | some existing =>
    if !isNoCorsSafelistedRequestHeaderName name then false
    else if 128 < existing.length + 2 + value.length then false
    else if eqIgnoreAsciiCase name "accept".toList then
      !existing.any isCorsUnsafeRequestHeaderByte && !value.any isCorsUnsafeRequestHeaderByte
    else if eqIgnoreAsciiCase name "accept-language".toList ||
        eqIgnoreAsciiCase name "content-language".toList then
      existing.all isSafelistedLanguageByte && value.all isSafelistedLanguageByte
    else if existing.any isCorsUnsafeRequestHeaderByte ||
        value.any isCorsUnsafeRequestHeaderByte then
      false
    else if existing.contains ';' then
      isSafelistedContentTypeEssence (trimMatches isWhitespace (existing.takeWhile (· ≠ ';')))
    else false

/-! ### Header lists -/

/-- `contains`. -/
def HeaderList.has (list : HeaderList) (name : ByteString) : Bool :=
  list.any fun x => eqIgnoreAsciiCase x.1 name

/-- The values of the headers with a name. -/
def HeaderList.values (list : HeaderList) (name : ByteString) : List ByteString :=
  (list.filter fun x => eqIgnoreAsciiCase x.1 name).map Prod.snd

/-- `get_header_for_name`. -/
def getHeaderForName (list : HeaderList) (name : ByteString) : Option ByteString :=
  match HeaderList.values list name with
  | [] => none
  | first :: values => some (first ++ values.flatMap fun value => ", ".toList ++ value)

/-- `append_a_header`. -/
def appendAHeader (list : HeaderList) (name value : ByteString) : HeaderList :=
  let name := ((list.find? fun x => eqIgnoreAsciiCase x.1 name).map Prod.fst).getD name
  list ++ [(name, value)]

/-- `delete_header`. -/
def deleteHeader (list : HeaderList) (name : ByteString) : HeaderList :=
  list.filter fun x => !eqIgnoreAsciiCase x.1 name

/-- The headers with another name, and the first with that name unless `seenFirst`. -/
def retainFirst (name : ByteString) (seenFirst : Bool) : HeaderList → HeaderList
  | [] => []
  | x :: list =>
    if !eqIgnoreAsciiCase x.1 name then x :: retainFirst name seenFirst list
    else if seenFirst then retainFirst name seenFirst list
    else x :: retainFirst name true list

/-- `set_a_header`. -/
def setAHeader (list : HeaderList) (name value : ByteString) : HeaderList :=
  match list.findIdx? fun x => eqIgnoreAsciiCase x.1 name with
  | some first => retainFirst name false (list.modify first fun x => (x.1, value))
  | none => list ++ [(name, value)]

/-! ### Headers objects -/

/-- `Guard`. -/
inductive Guard where
  | none
  | immutable
  | request
  | requestNoCors
  | response
deriving DecidableEq, Repr

/-- `Headers`. -/
structure Headers where
  guard : Guard
  headerList : HeaderList
deriving DecidableEq, Repr

/-- `HeadersInit`. -/
inductive HeadersInit where
  | sequence (headers : List (List ByteString))
  | record (headers : List (ByteString × ByteString))
deriving DecidableEq, Repr

/-- The exceptions thrown at author code. -/
inductive HeadersError where
  | typeError (message : String)
deriving DecidableEq, Repr

/-- A debug assertion that fails. -/
inductive HeadersAbort where
  /-- `refill_headers_from_own_list`: the guard is one of a request. -/
  | refillGuard
deriving DecidableEq, Repr

namespace Headers

/-- `validate_header_name`. -/
def validateHeaderName (enforce : Bool) (h : Headers) (name value : ByteString) :
    Outcome HeadersAbort HeadersError Headers Bool :=
  if !isHeaderName name then .threw (.typeError "Invalid header name") h
  else if !isHeaderValue value then .threw (.typeError "Invalid header value") h
  else if h.guard = .immutable then .threw (.typeError "Headers object is immutable") h
  else if enforce && h.guard = .request && forbiddenRequestHeader name value then pure false
  else if enforce && h.guard = .response && isForbiddenResponseHeaderName name then pure false
  else pure true

/-- `remove_privileged_no_cors_request_headers`. -/
def removePrivilegedNoCorsRequestHeaders (h : Headers) : Headers :=
  { h with headerList := deleteHeader h.headerList "range".toList }

/-- What a change of the list ends with. -/
def changed (h : Headers) (list : HeaderList) : Headers :=
  let h := { h with headerList := list }
  if h.guard = .requestNoCors then h.removePrivilegedNoCorsRequestHeaders else h

/-- `append_to_headers`. -/
def appendToHeaders (enforce : Bool) (h : Headers) (name value : ByteString) :
    Outcome HeadersAbort HeadersError Headers Headers :=
  let value := normalizeByteSequence value
  h.validateHeaderName enforce name value >>= fun valid =>
  if !valid then pure h
  else if enforce && h.guard = .requestNoCors && !isNoCorsSafelistedRequestHeaderAfterAppend name
      (getHeaderForName h.headerList name) value then
    pure h
  else pure (h.changed (appendAHeader h.headerList name value))

/-- `Headers.delete`. -/
def delete (enforce : Bool) (h : Headers) (name : ByteString) :
    Outcome HeadersAbort HeadersError Headers Headers :=
  h.validateHeaderName enforce name [] >>= fun valid =>
  if !valid then pure h
  else if h.guard = .requestNoCors && !isNoCorsSafelistedRequestHeaderName name &&
      !isPrivilegedNoCorsRequestHeaderName name then
    pure h
  else if !HeaderList.has h.headerList name then pure h
  else pure (h.changed (deleteHeader h.headerList name))

/-- `Headers.set`. -/
def set (enforce : Bool) (h : Headers) (name value : ByteString) :
    Outcome HeadersAbort HeadersError Headers Headers :=
  let value := normalizeByteSequence value
  h.validateHeaderName enforce name value >>= fun valid =>
  if !valid then pure h
  else if h.guard = .requestNoCors && !isNoCorsSafelistedRequestHeader name value then pure h
  else pure (h.changed (setAHeader h.headerList name value))

/-- `fill_headers`, of a sequence. -/
def fillSequence (enforce : Bool) (h : Headers) :
    List (List ByteString) → Outcome HeadersAbort HeadersError Headers Headers
  | [] => pure h
  | [name, value] :: sequence =>
    h.appendToHeaders enforce name value >>= fun h => fillSequence enforce h sequence
  | _ :: _ => .threw (.typeError "Header sequence entry must contain exactly two items") h

/-- `fill_headers`. -/
def fillHeaders (enforce : Bool) (h : Headers) :
    HeadersInit → Outcome HeadersAbort HeadersError Headers Headers
  | .sequence sequence => h.fillSequence enforce sequence
  | .record record => h.fillSequence enforce (record.map fun x => [x.1, x.2])

/-- One header in `refill_headers_from_own_list`. -/
def refillWith (h : Headers) (x : ByteString × ByteString) : Headers :=
  if h.guard = .request && forbiddenRequestHeader x.1 x.2 then h
  else if h.guard = .requestNoCors && !isNoCorsSafelistedRequestHeaderAfterAppend x.1
      (getHeaderForName h.headerList x.1) x.2 then h
  else { h with headerList := appendAHeader h.headerList x.1 x.2 }

/-- `refill_headers_from_own_list`. -/
def refillHeadersFromOwnList (enforce debug : Bool) (h : Headers) :
    Outcome HeadersAbort HeadersError Headers Headers :=
  if !enforce then pure h
  else
    Outcome.guard (!debug || h.guard = .request || h.guard = .requestNoCors)
      .refillGuard >>= fun _ =>
    pure (h.headerList.foldl refillWith { h with headerList := [] })

end Headers

/-- What is done to a `Headers` object. -/
inductive HeadersAction where
  | append (name value : ByteString)
  | set (name value : ByteString)
  | delete (name : ByteString)
  | fill (init : HeadersInit)
  | refill
deriving DecidableEq, Repr

/-- One step. -/
def Headers.step (enforce debug : Bool) (h : Headers) :
    HeadersAction → Outcome HeadersAbort HeadersError Headers Headers
  | .append name value => h.appendToHeaders enforce name value
  | .set name value => h.set enforce name value
  | .delete name => h.delete enforce name
  | .fill init => h.fillHeaders enforce init
  | .refill => h.refillHeadersFromOwnList enforce debug

/-- A `Headers` object as a machine. -/
def headersMachine (enforce debug : Bool) :
    Machine HeadersAbort HeadersError Headers HeadersAction :=
  ⟨Headers.step enforce debug⟩

end WebFetch
