import StarlingMonkey.Lib.Outcome
import StarlingMonkey.WebFetch.HeaderReads

/-!
# The response on the wire

`prepare_wire_response`: which header fields of a handler's response are sent, which content, and
which length is declared for it. A byte is a number. `HttpCrate` is what the code uses of the `http`
crate: what names and values its constructors accept, and for how many fields a map can be made.

* `WireFramed` is what a response has to be like.
* `wire_framed_iff`: a response is made, and is as it has to be, exactly when the list of header
  fields is no longer than the largest map.
-/

namespace Serve

open WebFetch (ByteString HeaderList asBytes eqIgnoreAsciiCase)

/-- What is used of the `http` crate. -/
structure HttpCrate where
  /-- `HeaderName::from_bytes`. -/
  headerName : List ℕ → Option (List ℕ)
  /-- `HeaderValue::from_bytes`. -/
  headerValue : List ℕ → Option (List ℕ)
  /-- The largest number of fields for which `HeaderMap::with_capacity` makes a map. -/
  maxCapacity : ℕ

/-- `to_ascii_lowercase` of a byte. -/
def lowerByte (b : ℕ) : ℕ := if 65 ≤ b ∧ b ≤ 90 then b + 32 else b

/-- What the `http` crate documents: names are lowercased, and values are kept. -/
structure HttpCrate.Lawful (http : HttpCrate) : Prop where
  name : ∀ bytes name, http.headerName bytes = some name → name = bytes.map lowerByte
  value : ∀ bytes value, http.headerValue bytes = some value → value = bytes

/-- `HeaderMap`: the values of each name. -/
abbrev HeaderMap := List (List ℕ × List (List ℕ))

/-- The abort of a map that would be too large. -/
inductive WireAbort where
  | maxCapacity
deriving DecidableEq, Repr

/-- What is done with a map. -/
abbrev Wiring (α : Type) := Outcome WireAbort Empty Unit α

namespace HeaderMap

/-- `with_capacity`. -/
def withCapacity (http : HttpCrate) (capacity : ℕ) : Wiring HeaderMap := do
  .guard (capacity ≤ http.maxCapacity) .maxCapacity
  pure []

/-- Add a value to those of its name, or a name to the map. -/
def insert (name value : List ℕ) : HeaderMap → HeaderMap
  | [] => [(name, [value])]
  | (other, values) :: fields =>
    if other = name then (other, values ++ [value]) :: fields
    else (other, values) :: insert name value fields

/-- `append`, which makes room for another name first. -/
def append (http : HttpCrate) (fields : HeaderMap) (name value : List ℕ) : Wiring HeaderMap := do
  .guard (fields.length < http.maxCapacity) .maxCapacity
  pure (fields.insert name value)

/-- `get_all`. -/
def getAll (name : List ℕ) : HeaderMap → List (List ℕ)
  | [] => []
  | (other, values) :: fields => if other = name then values else getAll name fields

end HeaderMap

/-- `platform::http::OutgoingBody`. -/
inductive OutgoingBody (ρ ι : Type) where
  | bytes (content : List ℕ)
  | stream (receiver : ρ)
  | host (body : ι)
  | consumed
deriving DecidableEq, Repr

/-- `WireResponse`. -/
structure WireResponse (ρ ι : Type) where
  status : ℕ
  headers : HeaderMap
  body : OutgoingBody ρ ι
  declaredLength : Option ℕ
deriving DecidableEq, Repr

/-- `status_forbids_content`. -/
def statusForbidsContent (status : ℕ) : Bool :=
  (100 ≤ status && status ≤ 199) || status = 204 || status = 304

/-- The bytes of a literal. -/
def literal (s : String) : List ℕ := asBytes s.toList

/-- `is_transport_owned_header`. -/
def isTransportOwnedHeader (name : List ℕ) : Bool :=
  name = literal "content-length" || name = literal "transfer-encoding" ||
    name = literal "connection"

/-- `isomorphic_encode`. -/
def isomorphicEncode (value : ByteString) : List ℕ :=
  value.map fun c => if c.toNat ≤ 0xFF then c.toNat else '?'.toNat

/-- The loop of `wire_headers`. -/
def wireFields (http : HttpCrate) (fields : HeaderMap) : HeaderList → Wiring HeaderMap
  | [] => pure fields
  | (name, value) :: headers =>
    match http.headerName (asBytes name), http.headerValue (isomorphicEncode value) with
    | some name, some value =>
      if isTransportOwnedHeader name then wireFields http fields headers
      else do
        let fields ← fields.append http name value
        wireFields http fields headers
    | _, _ => wireFields http fields headers

/-- `wire_headers`. -/
def wireHeaders (http : HttpCrate) (headers : HeaderList) : Wiring HeaderMap := do
  let fields ← HeaderMap.withCapacity http headers.length
  wireFields http fields headers

/-- The number that digits denote. -/
def decimal (digits : ByteString) : ℕ :=
  digits.foldl (fun n c => 10 * n + (c.toNat - '0'.toNat)) 0

/-- `u64::from_str`, of digits. -/
def parseU64 (digits : ByteString) : Option ℕ :=
  if decimal digits < 2 ^ 64 then some (decimal digits) else none

/-- `declared_content_length`. -/
def declaredContentLength (headers : HeaderList) : Option ℕ :=
  match headers.filter fun field => eqIgnoreAsciiCase field.1 "content-length".toList with
  | [(_, value)] =>
    if value.isEmpty || !value.all Char.isDigit then none else parseU64 value
  | _ => none

section Prepare

variable {ρ ι : Type}

/-- The length of content in memory. -/
def OutgoingBody.inMemory : OutgoingBody ρ ι → Option ℕ
  | .bytes content => some content.length
  | _ => none

/-- `prepare_wire_response`. -/
def prepareWireResponse (http : HttpCrate) (headRequest : Bool) (status : ℕ) (headers : HeaderList)
    (body : OutgoingBody ρ ι) : Wiring (WireResponse ρ ι) := do
  let declared := declaredContentLength headers
  let headers ← wireHeaders http headers
  if statusForbidsContent status then
    pure { status, headers, body := .bytes [], declaredLength := none }
  else
    let declaredLength := if headRequest then declared.or body.inMemory else
      match body with
      | .bytes _ => body.inMemory
      | .stream _ | .host _ => declared
      | .consumed => none
    pure { status, headers, body := if headRequest then .bytes [] else body, declaredLength }

end Prepare

/-! ### What a response has to be like -/

/-- The fields that are sent: those whose name and value the `http` crate accepts, apart from those
that the transport owns, with the name in lower case and the bytes of the value. -/
def sentFields (http : HttpCrate) (headers : HeaderList) : List (List ℕ × List ℕ) :=
  (headers.filter fun field => (http.headerName (asBytes field.1)).isSome &&
    (http.headerValue (field.2.map Char.toNat)).isSome &&
    !isTransportOwnedHeader ((asBytes field.1).map lowerByte)).map fun field =>
      ((asBytes field.1).map lowerByte, field.2.map Char.toNat)

/-- What a response has to be like, for what the handler has made. -/
structure WireFramed {ρ ι : Type} (http : HttpCrate) (headRequest : Bool) (status : ℕ)
    (headers : HeaderList) (body : OutgoingBody ρ ι) (r : WireResponse ρ ι) : Prop where
  sameStatus : r.status = status
  /-- A name has the values of its fields, in order. -/
  fields : ∀ name, r.headers.getAll name =
    ((sentFields http headers).filter fun field => field.1 = name).map Prod.snd
  /-- Only the names of fields that are sent occur, each once. -/
  names : ∀ field ∈ r.headers, field.1 ∈ (sentFields http headers).map Prod.fst
  nodup : (r.headers.map Prod.fst).Nodup
  forbidden : statusForbidsContent status = true → r.body = .bytes [] ∧ r.declaredLength = none
  head : headRequest = true → r.body = .bytes []
  inMemory : ∀ content, headRequest = false → statusForbidsContent status = false →
    body = .bytes content → r.body = body ∧ r.declaredLength = some content.length
  /-- A length that is not that of the content in memory is the one number that the handler has
  declared. -/
  declared : ∀ n, r.declaredLength = some n → body.inMemory = some n ∨ ∃ name value,
    (headers.filter fun field => eqIgnoreAsciiCase field.1 "content-length".toList) =
        [(name, value)] ∧
      value ≠ [] ∧ value.all Char.isDigit = true ∧ decimal value = n ∧ n < 2 ^ 64

/-! ### The map -/

namespace HeaderMap

variable {fields : HeaderMap} {name other value : List ℕ}

theorem getAll_insert (fields : HeaderMap) (name value other : List ℕ) :
    (fields.insert name value).getAll other =
      fields.getAll other ++ if name = other then [value] else [] := by
  induction fields with
  | nil => simp [insert, getAll]
  | cons field fields ih =>
    obtain ⟨n, values⟩ := field
    rw [insert]
    split
    case isTrue heq =>
      obtain rfl := heq
      rw [getAll, getAll]
      split
      · rfl
      · simp
    case isFalse hne =>
      rw [getAll, getAll, ih]
      split
      case isTrue heq =>
        obtain rfl := heq
        rw [if_neg (Ne.symm hne), List.append_nil]
      case isFalse => rfl

theorem mem_insert {field : List ℕ × List (List ℕ)} (h : field ∈ fields.insert name value) :
    field.1 = name ∨ field.1 ∈ fields.map Prod.fst := by
  induction fields with
  | nil =>
    rw [insert, List.mem_singleton] at h
    exact .inl (congrArg Prod.fst h)
  | cons first fields ih =>
    obtain ⟨n, values⟩ := first
    rw [insert] at h
    split at h
    case isTrue heq =>
      rcases List.mem_cons.mp h with rfl | h
      · exact .inl heq
      · exact .inr (List.mem_map_of_mem (List.mem_cons_of_mem _ h))
    case isFalse =>
      rcases List.mem_cons.mp h with rfl | h
      · exact .inr (List.mem_cons_self ..)
      · exact (ih h).imp_right fun h => List.mem_cons_of_mem _ h

theorem nodup_insert (h : (fields.map Prod.fst).Nodup) :
    ((fields.insert name value).map Prod.fst).Nodup := by
  induction fields with
  | nil => simp [insert]
  | cons first fields ih =>
    obtain ⟨n, values⟩ := first
    rw [List.map_cons, List.nodup_cons] at h
    rw [insert]
    split
    case isTrue => exact List.nodup_cons.mpr h
    case isFalse hne =>
      refine List.nodup_cons.mpr ⟨fun hmem => ?_, ih h.2⟩
      obtain ⟨field, hfield, heq⟩ := List.mem_map.mp hmem
      rcases mem_insert hfield with hname | hmem
      · exact hne (heq.symm.trans hname)
      · exact h.1 (heq ▸ hmem)

theorem length_insert (fields : HeaderMap) (name value : List ℕ) :
    (fields.insert name value).length ≤ fields.length + 1 := by
  induction fields with
  | nil => simp [insert]
  | cons first fields ih =>
    rw [insert]
    split
    · exact Nat.le_succ _
    · simpa using ih

/-- Fields are appended one after another. -/
def insertAll (fields : HeaderMap) (sent : List (List ℕ × List ℕ)) : HeaderMap :=
  sent.foldl (fun fields field => fields.insert field.1 field.2) fields

theorem getAll_insertAll (fields : HeaderMap) (sent : List (List ℕ × List ℕ)) (name : List ℕ) :
    (fields.insertAll sent).getAll name =
      fields.getAll name ++ (sent.filter fun field => field.1 = name).map Prod.snd := by
  induction sent generalizing fields with
  | nil => simp [insertAll]
  | cons field sent ih =>
    rw [insertAll, List.foldl_cons]
    refine (ih _).trans ?_
    rw [getAll_insert, List.append_assoc, List.filter_cons]
    by_cases heq : field.1 = name <;> simp [heq]

theorem mem_insertAll {sent : List (List ℕ × List ℕ)} {field : List ℕ × List (List ℕ)}
    (h : field ∈ fields.insertAll sent) :
    field.1 ∈ sent.map Prod.fst ∨ field.1 ∈ fields.map Prod.fst := by
  induction sent generalizing fields with
  | nil => exact .inr (List.mem_map_of_mem h)
  | cons first sent ih =>
    rcases ih h with hmem | hmem
    · exact .inl (List.mem_cons_of_mem _ hmem)
    · obtain ⟨other, hother, heq⟩ := List.mem_map.mp hmem
      rw [← heq]
      refine (mem_insert hother).imp_left fun hname => ?_
      rw [hname]
      exact List.mem_cons_self ..

theorem nodup_insertAll {sent : List (List ℕ × List ℕ)} (h : (fields.map Prod.fst).Nodup) :
    ((fields.insertAll sent).map Prod.fst).Nodup := by
  induction sent generalizing fields with
  | nil => exact h
  | cons first sent ih => exact ih (nodup_insert h)

end HeaderMap

/-! ### The fields -/

section Fields

variable {http : HttpCrate} {headers : HeaderList} {fields : HeaderMap}

theorem isomorphicEncode_eq {value : ByteString} (h : ∀ c ∈ value, c.toNat ≤ 0xFF) :
    isomorphicEncode value = value.map Char.toNat :=
  List.map_congr_left fun c hc => if_pos (h c hc)

/-- The loop appends the fields that are sent. -/
theorem wireFields_eq (hhttp : http.Lawful)
    (hbytes : ∀ field ∈ headers, ∀ c ∈ field.2, c.toNat ≤ 0xFF)
    (hlength : fields.length + headers.length ≤ http.maxCapacity) :
    wireFields http fields headers = .ok (fields.insertAll (sentFields http headers)) := by
  induction headers generalizing fields with
  | nil => rfl
  | cons field headers ih =>
    obtain ⟨name, value⟩ := field
    have hvalue := isomorphicEncode_eq (hbytes _ (List.mem_cons_self ..))
    have hbytes' : ∀ field ∈ headers, ∀ c ∈ field.2, c.toNat ≤ 0xFF :=
      fun field hfield => hbytes field (List.mem_cons_of_mem _ hfield)
    rw [List.length_cons] at hlength
    have hskip : wireFields http fields headers =
        .ok (fields.insertAll (sentFields http headers)) := ih hbytes' (by omega)
    rw [wireFields, hvalue]
    cases hname : http.headerName (asBytes name) with
    | none => simpa [sentFields, hname] using hskip
    | some name' =>
      obtain rfl := hhttp.name _ _ hname
      cases hvalue' : http.headerValue (value.map Char.toNat) with
      | none => simpa [sentFields, hname, hvalue'] using hskip
      | some value' =>
        obtain rfl := hhttp.value _ _ hvalue'
        cases howned : isTransportOwnedHeader ((asBytes name).map lowerByte) with
        | true => simpa [sentFields, hname, hvalue', howned] using hskip
        | false =>
          have hroom : fields.length < http.maxCapacity := by omega
          have hgrown := HeaderMap.length_insert fields ((asBytes name).map lowerByte)
            (value.map Char.toNat)
          have hsent : wireFields http (fields.insert ((asBytes name).map lowerByte)
              (value.map Char.toNat)) headers = _ := ih hbytes' (by omega)
          simpa [sentFields, hname, hvalue', howned, HeaderMap.append, hroom,
            HeaderMap.insertAll] using hsent

/-- A list of header fields that is too long aborts. -/
theorem wireHeaders_too_long (h : http.maxCapacity < headers.length) :
    wireHeaders http headers = .panic .maxCapacity := by
  rw [wireHeaders, HeaderMap.withCapacity, decide_eq_false (by omega)]
  rfl

theorem wireHeaders_eq (hhttp : http.Lawful)
    (hbytes : ∀ field ∈ headers, ∀ c ∈ field.2, c.toNat ≤ 0xFF)
    (hlength : headers.length ≤ http.maxCapacity) :
    wireHeaders http headers = .ok (HeaderMap.insertAll [] (sentFields http headers)) := by
  rw [wireHeaders, HeaderMap.withCapacity, decide_eq_true hlength]
  exact wireFields_eq hhttp hbytes (by simpa using hlength)

theorem declaredContentLength_eq_some {n : ℕ} (h : declaredContentLength headers = some n) :
    ∃ name value,
      (headers.filter fun field => eqIgnoreAsciiCase field.1 "content-length".toList) =
          [(name, value)] ∧
        value ≠ [] ∧ value.all Char.isDigit = true ∧ decimal value = n ∧ n < 2 ^ 64 := by
  rw [declaredContentLength] at h
  split at h
  case h_1 name value heq =>
    split at h
    case isTrue => cases h
    case isFalse hdigits =>
      rw [Bool.or_eq_true, not_or, List.isEmpty_iff, Bool.not_eq_true', Bool.not_eq_false]
        at hdigits
      rw [parseU64] at h
      split at h
      case isTrue hlt =>
        obtain rfl := Option.some.inj h
        exact ⟨name, value, heq, hdigits.1, hdigits.2, rfl, hlt⟩
      case isFalse => cases h
  case h_2 => cases h

end Fields

/-! ### The response -/

section Response

variable {ρ ι : Type} {http : HttpCrate} {headers : HeaderList}

/-- **The framing of a response.** A response is made, and is as it has to be, when the list of
header fields is no longer than the largest map, and only then. -/
theorem wire_framed_iff (hhttp : http.Lawful) (headRequest : Bool) (status : ℕ)
    (hbytes : ∀ field ∈ headers, ∀ c ∈ field.2, c.toNat ≤ 0xFF) (body : OutgoingBody ρ ι) :
    (∃ r, prepareWireResponse http headRequest status headers body = .ok r ∧
      WireFramed http headRequest status headers body r) ↔ headers.length ≤ http.maxCapacity := by
  constructor
  · rintro ⟨r, hr, -⟩
    by_contra hlong
    simp only [prepareWireResponse, wireHeaders_too_long (Nat.lt_of_not_le hlong)] at hr
    cases hr
  · intro hlength
    have hfields (name : List ℕ) :
        (HeaderMap.insertAll [] (sentFields http headers)).getAll name =
          ((sentFields http headers).filter fun field => field.1 = name).map Prod.snd :=
      HeaderMap.getAll_insertAll [] _ name
    have hnames : ∀ field ∈ HeaderMap.insertAll [] (sentFields http headers),
        field.1 ∈ (sentFields http headers).map Prod.fst :=
      fun field hfield => (HeaderMap.mem_insertAll hfield).resolve_right List.not_mem_nil
    have hnodup : ((HeaderMap.insertAll [] (sentFields http headers)).map Prod.fst).Nodup :=
      HeaderMap.nodup_insertAll List.nodup_nil
    simp only [prepareWireResponse, wireHeaders_eq hhttp hbytes hlength, Outcome.ok_bind]
    cases hforbids : statusForbidsContent status with
    | true =>
      exact ⟨_, rfl,
        { sameStatus := rfl
          fields := hfields
          names := hnames
          nodup := hnodup
          forbidden := fun _ => ⟨rfl, rfl⟩
          head := fun _ => rfl
          inMemory := fun _ _ hallows => Bool.noConfusion (hforbids.symm.trans hallows)
          declared := fun n hn => by cases hn }⟩
    | false =>
      refine ⟨_, rfl,
        { sameStatus := rfl
          fields := hfields
          names := hnames
          nodup := hnodup
          forbidden := fun h => Bool.noConfusion (hforbids.symm.trans h)
          head := fun hhead => if_pos hhead
          inMemory := fun content hhead _ hcontent => ?_
          declared := fun n hn => ?_ }⟩
      · subst hhead hcontent
        exact ⟨rfl, rfl⟩
      · -- the length is that of the content in memory, or the one that was declared
        cases headRequest with
        | true =>
          rcases Option.or_eq_some_iff.mp hn with hn | ⟨-, hn⟩
          · exact .inr (declaredContentLength_eq_some hn)
          · exact .inl hn
        | false =>
          cases body with
          | bytes content => exact .inl hn
          | stream receiver | host body => exact .inr (declaredContentLength_eq_some hn)
          | consumed => cases hn

end Response

/-! ### The `http` crate -/

/-- The bytes of a token. -/
def isTokenByte (b : ℕ) : Bool :=
  (48 ≤ b && b ≤ 57) || (65 ≤ b && b ≤ 90) || (97 ≤ b && b ≤ 122) ||
    (literal "!#$%&'*+-.^_`|~").contains b

/-- The crate, with its limits. -/
def httpCrate : HttpCrate where
  headerName bytes :=
    if bytes ≠ [] ∧ bytes.length < 2 ^ 16 ∧ bytes.all isTokenByte = true then
      some (bytes.map lowerByte)
    else none
  headerValue bytes :=
    if bytes.all (fun b => b = 9 || (32 ≤ b && b ≠ 127)) = true then some bytes else none
  maxCapacity := 24576

theorem httpCrate_lawful : httpCrate.Lawful where
  name bytes name h := by
    rw [httpCrate] at h
    exact (Option.some.inj (Option.ite_none_right_eq_some.mp h).2).symm
  value bytes value h := by
    rw [httpCrate] at h
    exact (Option.some.inj (Option.ite_none_right_eq_some.mp h).2).symm

/-- A stream with two cookies and a length; a name that is not a token is dropped. -/
theorem wire_framed_short :
    let headers := [("Set-Cookie".toList, "a".toList), ("Content-Length".toList, "3".toList),
      ("a b".toList, "x".toList), ("set-cookie".toList, "b".toList)]
    ∃ r : WireResponse Unit Unit,
      prepareWireResponse httpCrate false 200 headers (.stream ()) = .ok r ∧
        r.headers = [(literal "set-cookie", [literal "a", literal "b"])] ∧
        r.declaredLength = some 3 ∧ WireFramed httpCrate false 200 headers (.stream ()) r := by
  intro headers
  have hbytes : ∀ field ∈ headers, ∀ c ∈ field.2, c.toNat ≤ 0xFF := by simp [headers]
  obtain ⟨r, hr, hframed⟩ : ∃ r : WireResponse Unit Unit, _ ∧ _ :=
    (wire_framed_iff httpCrate_lawful false 200 hbytes (.stream ())).mpr (by decide)
  have hsent : prepareWireResponse httpCrate false 200 headers (.stream ()) = .ok
      (⟨200, [(literal "set-cookie", [literal "a", literal "b"])], .stream (), some 3⟩ :
        WireResponse Unit Unit) := by decide
  cases hr.symm.trans hsent
  exact ⟨_, hsent, rfl, rfl, hframed⟩

/-- A handler that sets one cookie more than a map has room for gets no response. -/
theorem long_list_aborts : ¬ ∀ headers : HeaderList,
    (∀ field ∈ headers, ∀ c ∈ field.2, c.toNat ≤ 0xFF) → ∃ r : WireResponse Unit Unit,
      prepareWireResponse httpCrate false 200 headers (.bytes []) = .ok r := by
  intro h
  obtain ⟨n, hn⟩ : ∃ n, httpCrate.maxCapacity < n := ⟨24577, Nat.lt_succ_self 24576⟩
  have hbytes : ∀ field ∈ List.replicate n ("set-cookie".toList, ['a']),
      ∀ c ∈ field.2, c.toNat ≤ 0xFF := by
    intro field hfield
    rw [List.eq_of_mem_replicate hfield]
    simp
  obtain ⟨r, hr⟩ := h _ hbytes
  have hlong : httpCrate.maxCapacity <
      (List.replicate n ("set-cookie".toList, ['a'])).length := by
    rwa [List.length_replicate]
  simp only [prepareWireResponse, wireHeaders_too_long hlong] at hr
  cases hr

end Serve
