import Mathlib.Data.List.TakeWhile
import StarlingMonkey.WebFetch.Headers

/-!
# Header guards

What holds of the list of a `Headers` object over its whole history, with the restrictions of fetch
enforced.

* `Valid` is about single headers and how their names are spelled, `Guarded` about what the guard
  keeps out. Under `request-no-cors` that is a matter of the combined value of each name.
* `Changes` is what one operation does to a `Sound` list, `run_changes` what a history does.
* `refillHeadersFromOwnList_eq` is about the copy of `append_to_headers` that refills a list: what
  it skips does nothing to valid headers.
-/

namespace WebFetch

/-! ### Names and values -/

section Names

variable {a b c name value existing : ByteString}

theorem eqIgnoreAsciiCase_iff : eqIgnoreAsciiCase a b = true ↔ lowercase a = lowercase b :=
  decide_eq_true_iff

@[simp] theorem eqIgnoreAsciiCase_self (a : ByteString) : eqIgnoreAsciiCase a a = true :=
  eqIgnoreAsciiCase_iff.mpr rfl

theorem eqIgnoreAsciiCase_comm : eqIgnoreAsciiCase a b = eqIgnoreAsciiCase b a := by
  rw [Bool.eq_iff_iff, eqIgnoreAsciiCase_iff, eqIgnoreAsciiCase_iff, eq_comm]

/-- Names that match are matched by the same names. -/
theorem eqIgnoreAsciiCase_congr (h : eqIgnoreAsciiCase a b = true) (c : ByteString) :
    eqIgnoreAsciiCase a c = eqIgnoreAsciiCase b c := by
  rw [Bool.eq_iff_iff, eqIgnoreAsciiCase_iff, eqIgnoreAsciiCase_iff, eqIgnoreAsciiCase_iff.mp h]

theorem isNoCorsSafelistedRequestHeaderName_congr (h : eqIgnoreAsciiCase a b = true) :
    isNoCorsSafelistedRequestHeaderName a = isNoCorsSafelistedRequestHeaderName b := by
  simp only [isNoCorsSafelistedRequestHeaderName, eqIgnoreAsciiCase_congr h]

theorem isCorsSafelistedRequestHeader_congr (h : eqIgnoreAsciiCase a b = true) (v : ByteString) :
    isCorsSafelistedRequestHeader a v = isCorsSafelistedRequestHeader b v := by
  simp only [isCorsSafelistedRequestHeader, eqIgnoreAsciiCase_congr h]

theorem isForbiddenResponseHeaderName_congr (h : eqIgnoreAsciiCase a b = true) :
    isForbiddenResponseHeaderName a = isForbiddenResponseHeaderName b := by
  simp only [isForbiddenResponseHeaderName, eqIgnoreAsciiCase_congr h]

theorem forbiddenRequestHeader_congr (h : eqIgnoreAsciiCase a b = true) (v : ByteString) :
    forbiddenRequestHeader a v = forbiddenRequestHeader b v := by
  have htake (n : ℕ) : eqIgnoreAsciiCase (a.take n) (b.take n) = true := by
    rw [eqIgnoreAsciiCase_iff, lowercase, lowercase, List.map_take, List.map_take]
    exact congrArg (List.take n) (eqIgnoreAsciiCase_iff.mp h)
  have hnames :
      forbiddenNames.any (eqIgnoreAsciiCase a) = forbiddenNames.any (eqIgnoreAsciiCase b) :=
    congrArg forbiddenNames.any (funext (eqIgnoreAsciiCase_congr h))
  simp only [forbiddenRequestHeader, hnames, eqIgnoreAsciiCase_congr h,
    eqIgnoreAsciiCase_congr (htake 6), eqIgnoreAsciiCase_congr (htake 4)]

/-- A name that is safelisted is not privileged. -/
theorem not_range (h : isNoCorsSafelistedRequestHeaderName name = true) :
    eqIgnoreAsciiCase name "range".toList = false := by
  rw [Bool.eq_false_iff]
  intro hrange
  rw [isNoCorsSafelistedRequestHeaderName_congr hrange] at h
  revert h
  decide

/-- Trimming stops at a code point that is not trimmed. -/
theorem mem_trimMatches {p : Char → Bool} {s : ByteString} {x : Char} (hx : x ∈ s)
    (hp : p x = false) : x ∈ trimMatches p s := by
  have hdrop (l : List Char) (hl : x ∈ l) : x ∈ l.dropWhile p := by
    rw [← List.takeWhile_append_dropWhile (p := p) (l := l)] at hl
    refine (List.mem_append.mp hl).resolve_left fun ht => ?_
    rw [List.mem_takeWhile_imp ht] at hp
    cases hp
  rw [trimMatches, List.mem_reverse]
  exact hdrop _ (List.mem_reverse.mpr (hdrop s hx))

/-- A header value is normalized. -/
theorem normalizeByteSequence_eq (h : isHeaderValue value = true) :
    normalizeByteSequence value = value := by
  rw [isHeaderValue, Bool.and_eq_true, Bool.not_eq_true', Bool.not_eq_true',
    Bool.or_eq_false_iff] at h
  obtain ⟨⟨hhead, hlast⟩, hany⟩ := h
  set p : Char → Bool := fun c => c = '\t' || c = '\n' || c = '\r' || c = ' ' with hp
  have hkeep (x : Char) (hx : x ∈ value) (hspace : isTabOrSpace x = false) : p x = false := by
    have hnl := List.any_eq_false.mp hany x hx
    simp only [Bool.or_eq_true, decide_eq_true_eq, not_or] at hnl
    simp only [isTabOrSpace, Bool.or_eq_false_iff, decide_eq_false_iff_not] at hspace
    simp [hp, hnl.1.2, hnl.2, hspace.1, hspace.2]
  have hdrop : value.dropWhile p = value := by
    cases value with
    | nil => rfl
    | cons x xs => exact List.dropWhile_cons_of_neg (by simp [hkeep x (by simp) hhead])
  have hdropReverse : value.reverse.dropWhile p = value.reverse := by
    rcases List.eq_nil_or_concat value with rfl | ⟨xs, x, rfl⟩
    · rfl
    · rw [List.concat_eq_append] at hlast hkeep ⊢
      rw [List.reverse_append, List.reverse_singleton, List.singleton_append]
      refine List.dropWhile_cons_of_neg ?_
      simp [hkeep x (by simp) (by simpa using hlast)]
  rw [normalizeByteSequence, trimMatches, hdrop, hdropReverse, List.reverse_reverse]

/-- An essence with a comma is not safelisted. -/
theorem not_safelisted_of_comma {essence : ByteString} (h : ',' ∈ essence) :
    isSafelistedContentTypeEssence (trimMatches isWhitespace essence) = false := by
  have hmem := mem_trimMatches (p := isWhitespace) h (by decide)
  have hlower : ',' ∈ lowercase (trimMatches isWhitespace essence) :=
    List.mem_map.mpr ⟨',', hmem, by decide⟩
  have hne (s : ByteString) (hs : ',' ∉ lowercase s) :
      eqIgnoreAsciiCase (trimMatches isWhitespace essence) s = false := by
    rw [Bool.eq_false_iff, Ne, eqIgnoreAsciiCase_iff]
    intro heq
    exact hs (heq ▸ hlower)
  rw [isSafelistedContentTypeEssence, hne _ (by decide), hne _ (by decide), hne _ (by decide)]
  rfl

theorem takeWhile_append_of_mem {l r : ByteString} (h : ';' ∈ l) :
    (l ++ r).takeWhile (· ≠ ';') = l.takeWhile (· ≠ ';') := by
  induction l with
  | nil => cases h
  | cons x l ih =>
    by_cases hx : x = ';'
    · simp [hx]
    · have hmem := (List.mem_cons.mp h).resolve_left (Ne.symm hx)
      simp only [ne_eq, hx, not_false_eq_true, decide_true, List.cons_append,
        List.takeWhile_cons_of_pos]
      rw [ih hmem]

/-- The essence of a combined value is that of the first part, if that has a semicolon. -/
theorem safelisted_append (existing value : ByteString) :
    isSafelistedContentTypeEssence (trimMatches isWhitespace
      ((existing ++ ", ".toList ++ value).takeWhile (· ≠ ';'))) =
    (existing.contains ';' &&
      isSafelistedContentTypeEssence
        (trimMatches isWhitespace (existing.takeWhile (· ≠ ';')))) := by
  cases hsemi : existing.contains ';' with
  | true =>
    rw [List.append_assoc, takeWhile_append_of_mem (by simpa using hsemi), Bool.true_and]
  | false =>
    have hall : ∀ x ∈ existing ++ [','], decide (x ≠ ';') = true := by
      intro x hx
      refine decide_eq_true fun heq => ?_
      subst heq
      rcases List.mem_append.mp hx with hx | hx
      · rw [← List.contains_iff_mem, hsemi] at hx
        cases hx
      · simp at hx
    rw [show existing ++ ", ".toList ++ value = (existing ++ [',']) ++ (' ' :: value) by simp,
      List.takeWhile_append_of_pos hall, Bool.false_and]
    exact not_safelisted_of_comma (by simp)

/-- **The check of the combined value**, which is not put together. -/
theorem isNoCorsSafelistedRequestHeaderAfterAppend_eq (name : ByteString)
    (existing : Option ByteString) (value : ByteString) :
    isNoCorsSafelistedRequestHeaderAfterAppend name existing value =
      isNoCorsSafelistedRequestHeader name
        (existing.elim value fun existing => existing ++ ", ".toList ++ value) := by
  cases existing with
  | none => rfl
  | some existing =>
    show _ = isNoCorsSafelistedRequestHeader name (existing ++ ", ".toList ++ value)
    have hjoin : ", ".toList = [',', ' '] := rfl
    have hlength :
        (existing ++ ", ".toList ++ value).length = existing.length + 2 + value.length := by
      rw [List.length_append, List.length_append]
      rfl
    have hunsafe : (existing ++ ", ".toList ++ value).any isCorsUnsafeRequestHeaderByte =
        (existing.any isCorsUnsafeRequestHeaderByte ||
          value.any isCorsUnsafeRequestHeaderByte) := by
      rw [List.any_append, List.any_append, hjoin]
      simp [show isCorsUnsafeRequestHeaderByte ',' = false by decide,
        show isCorsUnsafeRequestHeaderByte ' ' = false by decide]
    have hlanguage : (existing ++ ", ".toList ++ value).all isSafelistedLanguageByte =
        (existing.all isSafelistedLanguageByte && value.all isSafelistedLanguageByte) := by
      rw [List.all_append, List.all_append, hjoin]
      simp [show isSafelistedLanguageByte ',' = true by decide,
        show isSafelistedLanguageByte ' ' = true by decide]
    have hessence : isSafelistedContentTypeEssence (trimMatches isWhitespace
        ((existing ++ ", ".toList ++ value).takeWhile (· ≠ ';'))) =
        (existing.contains ';' &&
          isSafelistedContentTypeEssence
            (trimMatches isWhitespace (existing.takeWhile (· ≠ ';')))) :=
      safelisted_append existing value
    -- the value is combined only to be measured and scanned: each scan splits at the separator
    generalize existing ++ ", ".toList ++ value = combined at *
    rw [isNoCorsSafelistedRequestHeader, isCorsSafelistedRequestHeader, hlength, hunsafe, hlanguage,
      hessence]
    simp only [isNoCorsSafelistedRequestHeaderAfterAppend]
    cases hname : isNoCorsSafelistedRequestHeaderName name with
    | false => rfl
    | true =>
      rw [not_range hname, Bool.not_true, Bool.true_and, if_neg Bool.false_ne_true]
      have hfour := hname
      simp only [isNoCorsSafelistedRequestHeaderName, Bool.or_eq_true] at hfour
      -- the checks in the order the source makes them
      by_cases hlen : 128 < existing.length + 2 + value.length
      · rw [if_pos hlen, if_pos hlen]
      rw [if_neg hlen, if_neg hlen]
      by_cases haccept : eqIgnoreAsciiCase name "accept".toList = true
      · rw [if_pos haccept, if_pos haccept, Bool.not_or]
      rw [if_neg haccept, if_neg haccept]
      by_cases hlang : (eqIgnoreAsciiCase name "accept-language".toList ||
          eqIgnoreAsciiCase name "content-language".toList) = true
      · rw [if_pos hlang, if_pos hlang]
      rw [if_neg hlang, if_neg hlang]
      rw [Bool.or_eq_true, not_or] at hlang
      have htype : eqIgnoreAsciiCase name "content-type".toList = true :=
        hfour.resolve_left fun h => h.elim (fun h => h.elim haccept hlang.1) hlang.2
      rw [if_pos htype]
      cases existing.any isCorsUnsafeRequestHeaderByte ||
        value.any isCorsUnsafeRequestHeaderByte <;>
        cases existing.contains ';' <;> simp

/-- **The check before an append agrees with the check of the combined value**, for all strings. -/
theorem safelisted_append_agrees (name value : ByteString) :
    isNoCorsSafelistedRequestHeaderAfterAppend name none value =
        isNoCorsSafelistedRequestHeader name value ∧
      ∀ existing : ByteString,
        isNoCorsSafelistedRequestHeaderAfterAppend name (some existing) value =
          isNoCorsSafelistedRequestHeader name (existing ++ ", ".toList ++ value) :=
  ⟨isNoCorsSafelistedRequestHeaderAfterAppend_eq name none value,
    fun existing => isNoCorsSafelistedRequestHeaderAfterAppend_eq name (some existing) value⟩

end Names

/-! ### Header lists -/

section Lists

variable {list : HeaderList} {name value : ByteString} {x : ByteString × ByteString}

/-- The names and values of a list are such, and names that match are spelled the same. -/
structure Valid (list : HeaderList) : Prop where
  name : ∀ x ∈ list, isHeaderName x.1 = true
  value : ∀ x ∈ list, isHeaderValue x.2 = true
  spelled : ∀ x ∈ list, ∀ y ∈ list, eqIgnoreAsciiCase x.1 y.1 = true → x.1 = y.1

theorem valid_nil : Valid [] := by
  constructor <;> simp

theorem Valid.subset {list' : HeaderList} (h : Valid list) (hsub : list' ⊆ list) : Valid list' where
  name x hx := h.name x (hsub hx)
  value x hx := h.value x (hsub hx)
  spelled x hx y hy := h.spelled x (hsub hx) y (hsub hy)

/-- `name'` is how a list spells a header that is stored under `name`. -/
structure Spelling (list : HeaderList) (name name' : ByteString) : Prop where
  same : eqIgnoreAsciiCase name' name = true
  old : (∃ x ∈ list, x.1 = name') ∨
    (name' = name ∧ ∀ x ∈ list, eqIgnoreAsciiCase x.1 name = false)

namespace Spelling

variable {name' name'' : ByteString}

theorem isHeaderName (h : Spelling list name name') (hlist : Valid list)
    (hname : isHeaderName name = true) : WebFetch.isHeaderName name' = true := by
  rcases h.old with ⟨x, hx, rfl⟩ | ⟨rfl, -⟩
  · exact hlist.name x hx
  · exact hname

theorem eq_of_mem (h : Spelling list name name') (hlist : Valid list) (hx : x ∈ list)
    (hsame : eqIgnoreAsciiCase x.1 name' = true) : x.1 = name' := by
  rcases h.old with ⟨y, hy, rfl⟩ | ⟨rfl, hnone⟩
  · exact hlist.spelled x hx y hy hsame
  · rw [hnone x hx] at hsame
    cases hsame

theorem unique (h : Spelling list name name') (h' : Spelling list name name'')
    (hlist : Valid list) : name' = name'' := by
  have hsame : eqIgnoreAsciiCase name' name'' = true := by
    rw [eqIgnoreAsciiCase_congr h.same, eqIgnoreAsciiCase_comm]
    exact h'.same
  rcases h.old with ⟨x, hx, rfl⟩ | ⟨rfl, hnone⟩
  · exact h'.eq_of_mem hlist hx hsame
  rcases h'.old with ⟨y, hy, rfl⟩ | ⟨rfl, -⟩
  · rw [eqIgnoreAsciiCase_comm, hnone y hy] at hsame
    cases hsame
  · rfl

end Spelling

/-- The header that is appended. -/
theorem appendAHeader_eq (list : HeaderList) (name value : ByteString) :
    ∃ name', appendAHeader list name value = list ++ [(name', value)] ∧
      Spelling list name name' := by
  rw [appendAHeader]
  cases hfind : list.find? fun x => eqIgnoreAsciiCase x.1 name with
  | none =>
    refine ⟨name, rfl, eqIgnoreAsciiCase_self name, .inr ⟨rfl, fun x hx => ?_⟩⟩
    simpa using List.find?_eq_none.mp hfind x hx
  | some x =>
    have hsame := List.find?_some hfind
    exact ⟨x.1, rfl, by simpa using hsame, .inl ⟨x, List.mem_of_find?_eq_some hfind, rfl⟩⟩

theorem Valid.append (h : Valid list) (hname : isHeaderName name = true)
    (hvalue : isHeaderValue value = true) : Valid (appendAHeader list name value) := by
  obtain ⟨name', heq, hspells⟩ := appendAHeader_eq list name value
  rw [heq]
  constructor
  case name =>
    intro x hx
    rcases List.mem_append.mp hx with hx | hx
    · exact h.name x hx
    · rw [List.mem_singleton.mp hx]
      exact hspells.isHeaderName h hname
  case value =>
    intro x hx
    rcases List.mem_append.mp hx with hx | hx
    · exact h.value x hx
    · rw [List.mem_singleton.mp hx]
      exact hvalue
  case spelled =>
    intro x hx y hy hxy
    rcases List.mem_append.mp hx with hx | hx
    · rcases List.mem_append.mp hy with hy | hy
      · exact h.spelled x hx y hy hxy
      · rw [List.mem_singleton.mp hy] at hxy ⊢
        exact hspells.eq_of_mem h hx hxy
    · rw [List.mem_singleton.mp hx] at hxy ⊢
      rcases List.mem_append.mp hy with hy | hy
      · exact (hspells.eq_of_mem h hy (eqIgnoreAsciiCase_comm ▸ hxy)).symm
      · rw [List.mem_singleton.mp hy]

theorem retainFirst_true (list : HeaderList) (name : ByteString) :
    retainFirst name true list = deleteHeader list name := by
  induction list with
  | nil => rfl
  | cons x list ih =>
    rw [retainFirst, ih, deleteHeader, deleteHeader, List.filter_cons, if_pos rfl]

/-- `set_a_header`, header by header. -/
theorem setAHeader_cons (x : ByteString × ByteString) (list : HeaderList)
    (name value : ByteString) :
    setAHeader (x :: list) name value =
      if eqIgnoreAsciiCase x.1 name then (x.1, value) :: deleteHeader list name
      else x :: setAHeader list name value := by
  rw [setAHeader, List.findIdx?_cons]
  cases hx : eqIgnoreAsciiCase x.1 name with
  | true => simp [retainFirst, hx, retainFirst_true]
  | false =>
    rw [setAHeader]
    cases list.findIdx? fun x => eqIgnoreAsciiCase x.1 name with
    | none => simp
    | some i => simp [retainFirst, hx]

/-- The headers after a `set`. -/
theorem mem_setAHeader {y : ByteString × ByteString} (hy : y ∈ setAHeader list name value) :
    (y ∈ list ∧ eqIgnoreAsciiCase y.1 name = false) ∨ (y.2 = value ∧ Spelling list name y.1) := by
  induction list with
  | nil =>
    obtain rfl : y = (name, value) := List.mem_singleton.mp hy
    exact .inr ⟨rfl, eqIgnoreAsciiCase_self name, .inr ⟨rfl, fun x hx => by cases hx⟩⟩
  | cons x list ih =>
    rw [setAHeader_cons] at hy
    split_ifs at hy with hx
    · rcases List.mem_cons.mp hy with rfl | hy
      · exact .inr ⟨rfl, hx, .inl ⟨x, List.mem_cons_self, rfl⟩⟩
      · rw [deleteHeader, List.mem_filter] at hy
        exact .inl ⟨List.mem_cons_of_mem x hy.1, by simpa using hy.2⟩
    · rw [Bool.not_eq_true] at hx
      rcases List.mem_cons.mp hy with rfl | hy
      · exact .inl ⟨List.mem_cons_self, hx⟩
      rcases ih hy with ⟨hmem, hother⟩ | ⟨hvalue, hsame, hold⟩
      · exact .inl ⟨List.mem_cons_of_mem x hmem, hother⟩
      · refine .inr ⟨hvalue, hsame, hold.imp ?_ ?_⟩
        · rintro ⟨z, hz, hzy⟩
          exact ⟨z, List.mem_cons_of_mem x hz, hzy⟩
        · rintro ⟨hyn, hnone⟩
          exact ⟨hyn, List.forall_mem_cons.mpr ⟨hx, hnone⟩⟩

theorem Valid.set (h : Valid list) (hname : isHeaderName name = true)
    (hvalue : isHeaderValue value = true) : Valid (setAHeader list name value) := by
  constructor
  case name =>
    intro y hy
    rcases mem_setAHeader hy with ⟨hmem, -⟩ | ⟨-, hspells⟩
    · exact h.name y hmem
    · exact hspells.isHeaderName h hname
  case value =>
    intro y hy
    rcases mem_setAHeader hy with ⟨hmem, -⟩ | ⟨heq, -⟩
    · exact h.value y hmem
    · rw [heq]
      exact hvalue
  case spelled =>
    intro y hy z hz hyz
    rcases mem_setAHeader hy with ⟨hymem, -⟩ | ⟨-, hyspells⟩
    · rcases mem_setAHeader hz with ⟨hzmem, -⟩ | ⟨-, hzspells⟩
      · exact h.spelled y hymem z hzmem hyz
      · exact hzspells.eq_of_mem h hymem hyz
    · rcases mem_setAHeader hz with ⟨hzmem, -⟩ | ⟨-, hzspells⟩
      · exact (hyspells.eq_of_mem h hzmem (eqIgnoreAsciiCase_comm ▸ hyz)).symm
      · exact hyspells.unique hzspells h

theorem values_cons (x : ByteString × ByteString) (list : HeaderList) (name : ByteString) :
    HeaderList.values (x :: list) name =
      if eqIgnoreAsciiCase x.1 name then x.2 :: HeaderList.values list name
      else HeaderList.values list name := by
  simp only [HeaderList.values, List.filter_cons]
  split_ifs <;> rfl

theorem values_eq_nil : HeaderList.values list name = [] ↔
    ∀ x ∈ list, eqIgnoreAsciiCase x.1 name = false := by
  rw [HeaderList.values, List.map_eq_nil_iff, List.filter_eq_nil_iff]
  simp

/-- Lists with the same values for a name. -/
theorem getHeaderForName_of_values {list' : HeaderList} {name' : ByteString}
    (h : HeaderList.values list name = HeaderList.values list' name') :
    getHeaderForName list name = getHeaderForName list' name' := by
  rw [getHeaderForName, getHeaderForName, h]

theorem values_congr {name' : ByteString} (h : eqIgnoreAsciiCase name name' = true) :
    HeaderList.values list name = HeaderList.values list name' := by
  rw [HeaderList.values, HeaderList.values]
  congr 1
  refine List.filter_congr fun x _ => ?_
  rw [eqIgnoreAsciiCase_comm, eqIgnoreAsciiCase_congr h, eqIgnoreAsciiCase_comm]

/-- The value of a name after one more header. -/
theorem getHeaderForName_append (list : HeaderList) (name value other : ByteString) :
    getHeaderForName (appendAHeader list name value) other =
      if eqIgnoreAsciiCase name other then
        some ((getHeaderForName list other).elim value fun existing =>
          existing ++ ", ".toList ++ value)
      else getHeaderForName list other := by
  obtain ⟨name', heq, hspells⟩ := appendAHeader_eq list name value
  rw [heq, ← eqIgnoreAsciiCase_congr hspells.same]
  split_ifs with ho
  · have hvalues : HeaderList.values (list ++ [(name', value)]) other =
        HeaderList.values list other ++ [value] := by
      simp [HeaderList.values, ho]
    rw [getHeaderForName, getHeaderForName, hvalues]
    cases HeaderList.values list other with
    | nil => simp
    | cons first values => simp
  · refine getHeaderForName_of_values ?_
    simp [HeaderList.values, ho]

/-- The value of a name that is set. -/
theorem getHeaderForName_set (list : HeaderList) (name value : ByteString) :
    getHeaderForName (setAHeader list name value) name = some value := by
  suffices h : HeaderList.values (setAHeader list name value) name = [value] by
    rw [getHeaderForName, h]
    simp
  induction list with
  | nil => simp [setAHeader, HeaderList.values]
  | cons x list ih =>
    rw [setAHeader_cons]
    split_ifs with hx
    · have hrest : HeaderList.values (deleteHeader list name) name = [] := by
        refine values_eq_nil.mpr fun y hy => ?_
        simpa using (List.mem_filter.mp hy).2
      rw [values_cons, if_pos hx, hrest]
    · rw [values_cons, if_neg hx, ih]

/-- The other names keep their values when one is deleted. -/
theorem values_delete {other : ByteString} (h : eqIgnoreAsciiCase other name = false) :
    HeaderList.values (deleteHeader list name) other = HeaderList.values list other := by
  rw [HeaderList.values, HeaderList.values, deleteHeader, List.filter_filter]
  congr 1
  refine List.filter_congr fun x _ => ?_
  cases hx : eqIgnoreAsciiCase x.1 other with
  | false => rfl
  | true => rw [eqIgnoreAsciiCase_congr hx, h, Bool.not_false, Bool.and_true]

/-- The other names keep their values when one is set. -/
theorem values_set {other : ByteString} (h : eqIgnoreAsciiCase other name = false) :
    HeaderList.values (setAHeader list name value) other = HeaderList.values list other := by
  induction list with
  | nil =>
    rw [eqIgnoreAsciiCase_comm] at h
    simp [setAHeader, HeaderList.values, h]
  | cons x list ih =>
    rw [setAHeader_cons]
    split_ifs with hx
    · have hother : eqIgnoreAsciiCase x.1 other = false := by
        rw [eqIgnoreAsciiCase_congr hx, eqIgnoreAsciiCase_comm]
        exact h
      simp only [values_cons, hother, values_delete h, Bool.false_eq_true, if_false]
    · rw [values_cons, values_cons, ih]

theorem deleteHeader_subset : deleteHeader list name ⊆ list :=
  List.filter_sublist.subset

end Lists

/-! ### Guards -/

section Guards

variable {h : Headers} {list : HeaderList} {name value : ByteString} {debug : Bool}

/-- What the guard of a `Headers` object keeps out of its list. -/
structure Guarded (h : Headers) : Prop where
  request : h.guard = .request → ∀ x ∈ h.headerList, forbiddenRequestHeader x.1 x.2 = false
  noCors : h.guard = .requestNoCors → ∀ x ∈ h.headerList, ∃ combined,
    getHeaderForName h.headerList x.1 = some combined ∧
      isNoCorsSafelistedRequestHeader x.1 combined = true
  response : h.guard = .response → ∀ x ∈ h.headerList, isForbiddenResponseHeaderName x.1 = false

theorem guarded_nil (guard : Guard) : Guarded ⟨guard, []⟩ := by
  constructor <;> simp

/-- What `validate_header_name` lets through. -/
structure Admitted (h : Headers) (name value : ByteString) : Prop where
  validName : isHeaderName name = true
  validValue : isHeaderValue value = true
  mutable : h.guard ≠ .immutable
  request : h.guard = .request → forbiddenRequestHeader name value = false
  response : h.guard = .response → isForbiddenResponseHeaderName name = false

theorem validateHeaderName_cases (h : Headers) (name value : ByteString) :
    (∃ e, h.validateHeaderName true name value = .threw e h) ∨
      h.validateHeaderName true name value = .ok false ∨
      (h.validateHeaderName true name value = .ok true ∧ Admitted h name value) := by
  rw [Headers.validateHeaderName]
  split_ifs with hname hvalue himmutable hrequest hresponse
  · exact .inl ⟨_, rfl⟩
  · exact .inl ⟨_, rfl⟩
  · exact .inl ⟨_, rfl⟩
  · exact .inr (.inl rfl)
  · exact .inr (.inl rfl)
  · refine .inr (.inr ⟨rfl, by simpa using hname, by simpa using hvalue, himmutable, ?_, ?_⟩)
    · intro hguard
      simpa [hguard] using hrequest
    · intro hguard
      simpa [hguard] using hresponse

/-- A list without `Range` is not changed by removing the privileged headers. -/
theorem changed_eq (hg : Guarded { h with headerList := list }) :
    h.changed list = { h with headerList := list } := by
  rw [Headers.changed]
  split_ifs with hguard
  · rw [Headers.removePrivilegedNoCorsRequestHeaders, deleteHeader, List.filter_eq_self.mpr]
    intro x hx
    obtain ⟨combined, -, hsafe⟩ := hg.noCors hguard x hx
    rw [isNoCorsSafelistedRequestHeader, Bool.and_eq_true] at hsafe
    rw [not_range hsafe.1]
    rfl
  · rfl

/-- A header that is admitted may be appended. -/
theorem Guarded.append (hg : Guarded h) (hadmitted : Admitted h name value)
    (hsafe : h.guard = .requestNoCors → isNoCorsSafelistedRequestHeaderAfterAppend name
      (getHeaderForName h.headerList name) value = true) :
    Guarded { h with headerList := appendAHeader h.headerList name value } := by
  obtain ⟨name', heq, hspells⟩ := appendAHeader_eq h.headerList name value
  constructor
  case request =>
    intro hguard x hx
    rw [show _ = _ from heq] at hx
    rcases List.mem_append.mp hx with hx | hx
    · exact hg.request hguard x hx
    · rw [List.mem_singleton.mp hx, forbiddenRequestHeader_congr hspells.same]
      exact hadmitted.request hguard
  case noCors =>
    intro hguard x hx
    rw [show _ = _ from heq] at hx
    rw [getHeaderForName_append]
    have hnew := hsafe hguard
    rw [isNoCorsSafelistedRequestHeaderAfterAppend_eq] at hnew
    have hsame (hx : eqIgnoreAsciiCase name x.1 = true) :
        getHeaderForName h.headerList x.1 = getHeaderForName h.headerList name :=
      (getHeaderForName_of_values (values_congr hx)).symm
    split_ifs with hname
    · refine ⟨_, rfl, ?_⟩
      rw [hsame hname, isNoCorsSafelistedRequestHeader,
        ← isNoCorsSafelistedRequestHeaderName_congr hname,
        ← isCorsSafelistedRequestHeader_congr hname]
      exact hnew
    · rcases List.mem_append.mp hx with hx | hx
      · exact hg.noCors hguard x hx
      · rw [List.mem_singleton.mp hx, eqIgnoreAsciiCase_comm, hspells.same] at hname
        exact absurd rfl hname
  case response =>
    intro hguard x hx
    rw [show _ = _ from heq] at hx
    rcases List.mem_append.mp hx with hx | hx
    · exact hg.response hguard x hx
    · rw [List.mem_singleton.mp hx, isForbiddenResponseHeaderName_congr hspells.same]
      exact hadmitted.response hguard

theorem Guarded.delete (hg : Guarded h) (name : ByteString) :
    Guarded { h with headerList := deleteHeader h.headerList name } := by
  constructor
  case request => exact fun hguard x hx => hg.request hguard x (deleteHeader_subset hx)
  case noCors =>
    intro hguard x hx
    have hother : eqIgnoreAsciiCase x.1 name = false := by
      simpa using (List.mem_filter.mp hx).2
    rw [getHeaderForName_of_values (values_delete hother)]
    exact hg.noCors hguard x (deleteHeader_subset hx)
  case response => exact fun hguard x hx => hg.response hguard x (deleteHeader_subset hx)

theorem Guarded.set (hg : Guarded h) (hadmitted : Admitted h name value)
    (hsafe : h.guard = .requestNoCors → isNoCorsSafelistedRequestHeader name value = true) :
    Guarded { h with headerList := setAHeader h.headerList name value } := by
  constructor
  case request =>
    intro hguard x hx
    rcases mem_setAHeader hx with ⟨hmem, -⟩ | ⟨heq, hspells⟩
    · exact hg.request hguard x hmem
    · rw [heq, forbiddenRequestHeader_congr hspells.same]
      exact hadmitted.request hguard
  case noCors =>
    intro hguard x hx
    rcases mem_setAHeader hx with ⟨hmem, hother⟩ | ⟨-, hspells⟩
    · rw [getHeaderForName_of_values (values_set hother)]
      exact hg.noCors hguard x hmem
    · refine ⟨value, ?_, ?_⟩
      · rw [getHeaderForName_of_values (values_congr hspells.same)]
        exact getHeaderForName_set h.headerList name value
      · rw [isNoCorsSafelistedRequestHeader, isNoCorsSafelistedRequestHeaderName_congr hspells.same,
          isCorsSafelistedRequestHeader_congr hspells.same]
        exact hsafe hguard
  case response =>
    intro hguard x hx
    rcases mem_setAHeader hx with ⟨hmem, -⟩ | ⟨-, hspells⟩
    · exact hg.response hguard x hmem
    · rw [isForbiddenResponseHeaderName_congr hspells.same]
      exact hadmitted.response hguard

/-- A list with valid headers, none of which the guard keeps out. -/
structure Sound (h : Headers) : Prop where
  valid : Valid h.headerList
  guarded : Guarded h

theorem appendToHeaders_cases (h : Headers) (name value : ByteString) :
    (∃ e, h.appendToHeaders true name value = .threw e h) ∨
      h.appendToHeaders true name value = .ok h ∨
      (Admitted h name (normalizeByteSequence value) ∧
        (h.guard = .requestNoCors → isNoCorsSafelistedRequestHeaderAfterAppend name
          (getHeaderForName h.headerList name) (normalizeByteSequence value) = true) ∧
        h.appendToHeaders true name value =
          .ok (h.changed (appendAHeader h.headerList name (normalizeByteSequence value)))) := by
  rw [Headers.appendToHeaders]
  rcases validateHeaderName_cases h name (normalizeByteSequence value) with
    ⟨e, hv⟩ | hv | ⟨hv, hadmitted⟩
  · exact .inl ⟨e, by simp only [hv, Outcome.threw_bind]⟩
  · exact .inr (.inl (by simp [hv]))
  · simp only [hv, Outcome.ok_bind, Bool.not_true, Bool.false_eq_true, if_false, Bool.true_and]
    split_ifs with hsafe
    · exact .inr (.inl rfl)
    · refine .inr (.inr ⟨hadmitted, fun hguard => ?_, rfl⟩)
      simpa [hguard] using hsafe

/-- What a sound `Headers` object becomes when it is changed. -/
structure Changes (h h' : Headers) : Prop where
  sound : Sound h'
  guard : h'.guard = h.guard
  immutable : h.guard = .immutable → h'.headerList = h.headerList

theorem Sound.changes (hs : Sound h) : Changes h h := ⟨hs, rfl, fun _ => rfl⟩

theorem Changes.trans {h h' h'' : Headers} (a : Changes h h') (b : Changes h' h'') :
    Changes h h'' where
  sound := b.sound
  guard := b.guard.trans a.guard
  immutable hguard := (b.immutable (a.guard.trans hguard)).trans (a.immutable hguard)

/-- A changed list is stored as it is. -/
theorem changes_changed (hvalid : Valid list) (hg : Guarded { h with headerList := list })
    (hmutable : h.guard ≠ .immutable) : Changes h (h.changed list) := by
  rw [changed_eq hg]
  exact ⟨⟨hvalid, hg⟩, rfl, fun hguard => absurd hguard hmutable⟩

theorem appendToHeaders_sat (hs : Sound h) (name value : ByteString) :
    (h.appendToHeaders true name value).Sat (Changes h) (· = h) fun _ => False := by
  rcases appendToHeaders_cases h name value with ⟨e, heq⟩ | heq | ⟨hadmitted, hsafe, heq⟩
  · rw [heq]
    rfl
  · rw [heq]
    exact hs.changes
  · rw [heq]
    exact changes_changed (hs.valid.append hadmitted.validName hadmitted.validValue)
      (hs.guarded.append hadmitted hsafe) hadmitted.mutable

theorem delete_sat (hs : Sound h) (name : ByteString) :
    (h.delete true name).Sat (Changes h) (· = h) fun _ => False := by
  rw [Headers.delete]
  rcases validateHeaderName_cases h name [] with ⟨e, hv⟩ | hv | ⟨hv, hadmitted⟩
  · rw [hv]
    rfl
  · rw [hv]
    exact hs.changes
  · rw [hv, Outcome.ok_bind]
    split_ifs
    · exact hs.changes
    · exact hs.changes
    · exact hs.changes
    · exact changes_changed (hs.valid.subset deleteHeader_subset) (hs.guarded.delete name)
        hadmitted.mutable

theorem set_sat (hs : Sound h) (name value : ByteString) :
    (h.set true name value).Sat (Changes h) (· = h) fun _ => False := by
  rw [Headers.set]
  rcases validateHeaderName_cases h name (normalizeByteSequence value) with
    ⟨e, hv⟩ | hv | ⟨hv, hadmitted⟩
  · simp only [hv, Outcome.threw_bind]
    rfl
  · simp only [hv, Outcome.ok_bind]
    exact hs.changes
  · simp only [hv, Outcome.ok_bind, Bool.not_true, Bool.false_eq_true, if_false]
    split_ifs with hsafe
    · exact hs.changes
    · refine changes_changed (hs.valid.set hadmitted.validName hadmitted.validValue)
        (hs.guarded.set hadmitted fun hguard => ?_) hadmitted.mutable
      simpa [hguard] using hsafe

/-- A fill keeps what it appended, also when it throws. -/
theorem fillSequence_sat (hs : Sound h) (sequence : List (List ByteString)) :
    (h.fillSequence true sequence).Sat (Changes h) (Changes h) fun _ => False := by
  induction sequence generalizing h with
  | nil => exact hs.changes
  | cons header sequence ih =>
    match header with
    | [name, value] =>
      rw [Headers.fillSequence, Outcome.sat_bind]
      refine (appendToHeaders_sat hs name value).mono (fun h' hc => ?_) (fun h' heq => ?_)
        fun _ => id
      · exact (ih hc.sound).mono (fun _ => hc.trans) (fun _ => hc.trans) fun _ => id
      · rw [heq]
        exact hs.changes
    | [] => exact hs.changes
    | [_] => exact hs.changes
    | _ :: _ :: _ :: _ => exact hs.changes

/-! ### Refilling -/

/-- Under the guard of a request, a valid header is appended as `refill_headers_from_own_list`
does. -/
theorem appendToHeaders_refillWith (hs : Sound h) (hname : isHeaderName name = true)
    (hvalue : isHeaderValue value = true) (hguard : h.guard = .request ∨ h.guard = .requestNoCors) :
    h.appendToHeaders true name value = .ok (h.refillWith (name, value)) := by
  have hnormal := normalizeByteSequence_eq hvalue
  rcases hguard with hguard | hguard
  · cases hforbidden : forbiddenRequestHeader name value <;>
      simp [Headers.appendToHeaders, Headers.validateHeaderName, Headers.refillWith,
        Headers.changed, hnormal, hname, hvalue, hguard, hforbidden]
  · cases hsafe : isNoCorsSafelistedRequestHeaderAfterAppend name
        (getHeaderForName h.headerList name) value with
    | false =>
      simp [Headers.appendToHeaders, Headers.validateHeaderName, Headers.refillWith, hnormal, hname,
        hvalue, hguard, hsafe]
    | true =>
      have hadmitted : Admitted h name value :=
        ⟨hname, hvalue, by simp [hguard], by simp [hguard], by simp [hguard]⟩
      have hchanged := changed_eq (hs.guarded.append hadmitted fun _ => hsafe)
      simp [Headers.appendToHeaders, Headers.validateHeaderName, Headers.refillWith, hnormal, hname,
        hvalue, hguard, hsafe, hchanged]

/-- The entries that a fill appends. -/
def HeadersInit.entries : HeadersInit → List (List ByteString)
  | .sequence headers => headers
  | .record headers => headers.map fun x => [x.1, x.2]

theorem fillHeaders_eq (h : Headers) (init : HeadersInit) :
    h.fillHeaders true init = h.fillSequence true init.entries := by
  cases init <;> rfl

/-- Filling with valid headers is refilling with them. -/
theorem fillSequence_eq_foldl (hs : Sound h)
    (hguard : h.guard = .request ∨ h.guard = .requestNoCors) (hvalid : Valid list) :
    h.fillSequence true (list.map fun x => [x.1, x.2]) = .ok (list.foldl Headers.refillWith h) := by
  induction list generalizing h with
  | nil => rfl
  | cons x list ih =>
    have happend := appendToHeaders_refillWith hs (hvalid.name x List.mem_cons_self)
      (hvalid.value x List.mem_cons_self) hguard
    have hchanges := appendToHeaders_sat hs x.1 x.2
    rw [happend] at hchanges
    rw [List.map_cons, Headers.fillSequence, happend, Outcome.ok_bind, List.foldl_cons]
    exact ih hchanges.sound (by rw [hchanges.guard]; exact hguard)
      (hvalid.subset (List.subset_cons_self x list))

/-- **Refilling is emptying the list and appending its headers again.** -/
theorem refillHeadersFromOwnList_eq (hvalid : Valid h.headerList)
    (hguard : h.guard = .request ∨ h.guard = .requestNoCors) :
    h.refillHeadersFromOwnList true debug =
      Headers.fillHeaders true { h with headerList := [] } (.record h.headerList) := by
  have hs : Sound { h with headerList := [] } := ⟨valid_nil, guarded_nil h.guard⟩
  have hassert :
      (!debug || decide (h.guard = .request) || decide (h.guard = .requestNoCors)) = true := by
    rcases hguard with hguard | hguard <;> simp [hguard]
  rw [fillHeaders_eq, HeadersInit.entries, fillSequence_eq_foldl hs hguard hvalid,
    Headers.refillHeadersFromOwnList, hassert]
  rfl

/-- Without a guard of a request, valid headers are put back as they were. -/
theorem foldl_refillWith (hrequest : h.guard ≠ .request) (hnoCors : h.guard ≠ .requestNoCors)
    (hvalid : Valid (h.headerList ++ list)) :
    list.foldl Headers.refillWith h = { h with headerList := h.headerList ++ list } := by
  induction list generalizing h with
  | nil => rw [List.append_nil]; rfl
  | cons x list ih =>
    obtain ⟨name', heq, hspells⟩ := appendAHeader_eq h.headerList x.1 x.2
    have hname : name' = x.1 := by
      rcases hspells.old with ⟨y, hy, rfl⟩ | ⟨rfl, -⟩
      · exact hvalid.spelled y (by simp [hy]) x (by simp) hspells.same
      · rfl
    have hrefill : h.refillWith x = { h with headerList := h.headerList ++ [x] } := by
      simp [Headers.refillWith, hrequest, hnoCors, heq, hname]
    rw [List.foldl_cons, hrefill, ih]
    · simp
    · exact hrequest
    · exact hnoCors
    · simpa using hvalid

theorem refillHeadersFromOwnList_sat (hs : Sound h) :
    (h.refillHeadersFromOwnList true debug).Sat (Changes h) (· = h) fun _ => True := by
  by_cases hguard : h.guard = .request ∨ h.guard = .requestNoCors
  · have hempty : Sound { h with headerList := [] } := ⟨valid_nil, guarded_nil h.guard⟩
    have hfill := fillSequence_sat hempty (h.headerList.map fun x => [x.1, x.2])
    rw [refillHeadersFromOwnList_eq hs.valid hguard, fillHeaders_eq, HeadersInit.entries]
    rw [fillSequence_eq_foldl hempty hguard hs.valid] at hfill ⊢
    refine ⟨hfill.sound, hfill.guard, fun himmutable => ?_⟩
    simp [himmutable] at hguard
  · rw [not_or] at hguard
    have hsame : h.headerList.foldl Headers.refillWith { h with headerList := [] } = h :=
      foldl_refillWith hguard.1 hguard.2 hs.valid
    rw [Headers.refillHeadersFromOwnList, if_neg (by decide), Outcome.sat_bind, Outcome.sat_guard,
      hsame]
    exact ⟨fun _ => hs.changes, fun _ => trivial⟩

/-! ### Runs -/

/-- What one operation does to a sound `Headers` object. -/
theorem step_sat (hs : Sound h) (action : HeadersAction) :
    (h.step true debug action).Sat (Changes h) (Changes h) fun _ => True := by
  have hkept {x : Outcome HeadersAbort HeadersError Headers Headers} {E : HeadersAbort → Prop}
      (hx : x.Sat (Changes h) (· = h) E) : x.Sat (Changes h) (Changes h) fun _ => True :=
    hx.mono (fun _ => id) (fun h' heq => heq ▸ hs.changes) fun _ _ => trivial
  cases action with
  | append name value => exact hkept (appendToHeaders_sat hs name value)
  | set name value => exact hkept (set_sat hs name value)
  | delete name => exact hkept (delete_sat hs name)
  | fill init =>
    rw [Headers.step, fillHeaders_eq]
    exact (fillSequence_sat hs init.entries).mono (fun _ => id) (fun _ => id) fun _ => False.elim
  | refill => exact hkept (refillHeadersFromOwnList_sat hs)

/-- **Every operation of a run.** -/
theorem run_changes {s t : Headers} (hrun : (headersMachine true debug).Run s t) (hs : Sound s) :
    Changes s t :=
  hrun.inv_of_sat (I := Changes s) (E := fun _ => True) hs.changes fun _ action hc _ =>
    (step_sat hc.sound action).mono (fun _ => hc.trans) (fun _ => hc.trans) fun _ => id

/-- **A fill that throws** has appended the headers before the one that is not appended. -/
theorem fillSequence_threw {e : HeadersError} {u : Headers} {sequence : List (List ByteString)}
    (hs : Sound h) (hthrew : h.fillSequence true sequence = .threw e u) :
    ∃ before header after, sequence = before ++ header :: after ∧
      h.fillSequence true before = .ok u ∧ u.fillSequence true [header] = .threw e u := by
  induction sequence generalizing h with
  | nil => cases hthrew
  | cons header sequence ih =>
    have hshort (hthrew : h.fillSequence true [header] = .threw e u) (hu : u = h) :
        ∃ before header' after, header :: sequence = before ++ header' :: after ∧
          h.fillSequence true before = .ok u ∧ u.fillSequence true [header'] = .threw e u := by
      subst hu
      exact ⟨[], header, sequence, rfl, rfl, hthrew⟩
    match header with
    | [name, value] =>
      rw [Headers.fillSequence] at hthrew
      have hsat := appendToHeaders_sat hs name value
      cases happend : h.appendToHeaders true name value with
      | panic p => rw [happend] at hsat; exact hsat.elim
      | threw e' u' =>
        rw [happend, Outcome.threw_bind] at hthrew
        cases hthrew
        rw [happend] at hsat
        exact hshort (by rw [Headers.fillSequence, happend]; rfl) hsat
      | ok h' =>
        rw [happend] at hthrew hsat
        obtain ⟨before, header', after, heq, hbefore, hheader⟩ := ih hsat.sound hthrew
        refine ⟨[name, value] :: before, header', after, by rw [heq]; rfl, ?_, hheader⟩
        rw [Headers.fillSequence, happend]
        exact hbefore
    | [] => cases hthrew; exact hshort rfl rfl
    | [_] => cases hthrew; exact hshort rfl rfl
    | _ :: _ :: _ :: _ => cases hthrew; exact hshort rfl rfl

/-- The combined values of a sound list under `request-no-cors`. -/
theorem Sound.combined (hs : Sound h) (hguard : h.guard = .requestNoCors) :
    ∀ x ∈ h.headerList, ∃ combined, getHeaderForName h.headerList x.1 = some combined ∧
      isNoCorsSafelistedRequestHeaderName x.1 = true ∧
      isCorsSafelistedRequestHeader x.1 combined = true ∧ combined.length ≤ 128 := by
  intro x hx
  obtain ⟨combined, hget, hsafe⟩ := hs.guarded.noCors hguard x hx
  rw [isNoCorsSafelistedRequestHeader, Bool.and_eq_true] at hsafe
  refine ⟨combined, hget, hsafe.1, hsafe.2, ?_⟩
  by_contra hlong
  rw [isCorsSafelistedRequestHeader, if_pos (by omega)] at hsafe
  cases hsafe.2

/-- A throw leaves the list alone, unless it is that of a fill. -/
theorem step_threw {e : HeadersError} {u : Headers} (hs : Sound h) {action : HeadersAction}
    (hthrew : h.step true debug action = .threw e u) :
    u = h ∨ ∃ init before header after, action = .fill init ∧
      init.entries = before ++ header :: after ∧ h.fillSequence true before = .ok u ∧
      u.fillSequence true [header] = .threw e u := by
  have hsame {x : Outcome HeadersAbort HeadersError Headers Headers} {E : HeadersAbort → Prop}
      (hx : x.Sat (Changes h) (· = h) E) (hthrew : x = .threw e u) : u = h := by
    rw [hthrew] at hx
    exact hx
  cases action with
  | append name value => exact .inl (hsame (appendToHeaders_sat hs name value) hthrew)
  | set name value => exact .inl (hsame (set_sat hs name value) hthrew)
  | delete name => exact .inl (hsame (delete_sat hs name) hthrew)
  | fill init =>
    rw [Headers.step, fillHeaders_eq] at hthrew
    obtain ⟨before, header, after, hentries, hbefore, hheader⟩ := fillSequence_threw hs hthrew
    exact .inr ⟨init, before, header, after, rfl, hentries, hbefore, hheader⟩
  | refill => exact .inl (hsame (refillHeadersFromOwnList_sat hs) hthrew)

/-- **Header guards hold over whole histories**, and refilling is appending again. A `Request` is
refilled from any list of valid headers, after which its list is sound. -/
theorem guards_kept {s t : Headers} (hs : Sound s) (hrun : (headersMachine true debug).Run s t) :
    t.guard = s.guard ∧
      (s.guard = .immutable → t.headerList = s.headerList) ∧
      (s.guard = .request → ∀ x ∈ t.headerList, forbiddenRequestHeader x.1 x.2 = false) ∧
      (s.guard = .requestNoCors → ∀ x ∈ t.headerList, ∃ combined,
        getHeaderForName t.headerList x.1 = some combined ∧
          isNoCorsSafelistedRequestHeaderName x.1 = true ∧
          isCorsSafelistedRequestHeader x.1 combined = true ∧ combined.length ≤ 128) ∧
      (s.guard = .response → ∀ x ∈ t.headerList, isForbiddenResponseHeaderName x.1 = false) ∧
      (∀ x ∈ t.headerList, isHeaderName x.1 = true ∧ isHeaderValue x.2 = true ∧
        normalizeByteSequence x.2 = x.2) ∧
      (∀ x ∈ t.headerList, ∀ y ∈ t.headerList, eqIgnoreAsciiCase x.1 y.1 = true → x.1 = y.1) ∧
      (∀ action e u, t.step true debug action = .threw e u →
        u = t ∨ ∃ init before header after, action = .fill init ∧
          init.entries = before ++ header :: after ∧ t.fillSequence true before = .ok u ∧
          u.fillSequence true [header] = .threw e u) ∧
      ∀ h : Headers, Valid h.headerList → h.guard = .request ∨ h.guard = .requestNoCors →
        ∃ h', h.refillHeadersFromOwnList true debug = .ok h' ∧ Sound h' ∧
          Headers.fillHeaders true { h with headerList := [] } (.record h.headerList) = .ok h' := by
  have hchanges := run_changes hrun hs
  have hguard := hchanges.guard
  have ht := hchanges.sound
  refine ⟨hguard, hchanges.immutable, fun h => ht.guarded.request (hguard.trans h),
    fun h => ht.combined (hguard.trans h), fun h => ht.guarded.response (hguard.trans h),
    fun x hx => ⟨ht.valid.name x hx, ht.valid.value x hx,
      normalizeByteSequence_eq (ht.valid.value x hx)⟩,
    ht.valid.spelled, fun action e u hthrew => step_threw ht hthrew, fun h hvalid hrequest => ?_⟩
  have hempty : Sound { h with headerList := [] } := ⟨valid_nil, guarded_nil h.guard⟩
  have hfill := fillSequence_eq_foldl hempty hrequest hvalid
  have hsound := fillSequence_sat hempty (h.headerList.map fun x => [x.1, x.2])
  rw [hfill] at hsound
  exact ⟨_, (refillHeadersFromOwnList_eq hvalid hrequest).trans hfill, hsound.sound, hfill⟩

/-- A history under `request-no-cors`: the second value is combined with the first, the rest is kept
out. -/
theorem guards_kept_history :
    ∃ t, (headersMachine true true).Run ⟨.requestNoCors, []⟩ t ∧
      t.headerList = [("Accept".toList, "a".toList), ("Accept".toList, "b".toList)] ∧
      isHeaderName "Accept".toList = true := by
  obtain ⟨t, hrun, ht⟩ := Machine.exists_run_of_exec (M := headersMachine true true)
    (s := ⟨.requestNoCors, []⟩)
    [.fill (.sequence [["Accept".toList, " a".toList]]), .append "ACCEPT".toList "b".toList,
      .set "X-Custom".toList "1".toList, .append "Range".toList "bytes=0-".toList, .refill]
    (P := fun t =>
      t.headerList = [("Accept".toList, "a".toList), ("Accept".toList, "b".toList)])
    (by decide +kernel)
  have ht := of_decide_eq_true ht
  have hkept := guards_kept ⟨valid_nil, guarded_nil .requestNoCors⟩ hrun
  exact ⟨t, hrun, ht, (hkept.2.2.2.2.2.1 ("Accept".toList, "a".toList) (by rw [ht]; simp)).1⟩

end Guards

end WebFetch
