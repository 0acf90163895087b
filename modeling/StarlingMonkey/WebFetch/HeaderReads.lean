import Mathlib
import StarlingMonkey.WebFetch.HeaderGuards

/-!
# Reading header lists

A header list is a multimap from names, without regard to case, to values. `sort_and_combine` is the
view of it that iterators and `forEach` step through by index, computed at the first use and kept
until the next mutable access.

* `getHeaderForName_eq` reads the multimap, `setAHeader_filter` and `deleteHeader_filter` say what a
  change leaves alone.
* `Combines` is what the sorted and combined list says of the multimap. The list is a `flatMap` over
  the names in ascending order (`sortAndCombineAHeaderList_eq`).
* `Coherent` is the invariant of a cached list with the iterators over it.
-/

namespace WebFetch

/-! ### Sorting and combining -/

/-- `as_bytes`. -/
def asBytes (s : ByteString) : List ℕ :=
  s.flatMap fun c => (String.utf8EncodeChar c).map UInt8.toNat

/-- The ordered set of `convert_header_names_to_sorted_lowercase_set`, before it is sorted. -/
def headerNamesSet (set : List ByteString) : List ByteString → List ByteString
  | [] => set
  | name :: headerNames =>
    let lower := lowercase name
    headerNamesSet (if set.contains lower then set else set ++ [lower]) headerNames

/-- `convert_header_names_to_sorted_lowercase_set`. -/
def convertHeaderNamesToSortedLowercaseSet (headerNames : List ByteString) : List ByteString :=
  (headerNamesSet [] headerNames).insertionSort fun a b => asBytes a ≤ asBytes b

/-- `CachedHeaderList`. -/
structure CachedHeaderList where
  list : HeaderList
  /-- Filled at the first use. -/
  sortedAndCombined : Option HeaderList
deriving DecidableEq, Repr

/-- `IterationKind`. -/
inductive IterationKind where
  | key
  | value
  | keyValue
deriving DecidableEq, Repr

/-- `HeadersIterator`. -/
structure HeadersIterator where
  index : ℕ
  kind : IterationKind
deriving DecidableEq, Repr

/-- A header list with everything that is stepping through it. -/
structure HeaderReads where
  headerList : CachedHeaderList
  /-- The iterators made so far. -/
  iterators : List HeadersIterator
  /-- The `i` of each call of `forEach`, until its loop is left. -/
  loops : List (Option ℕ)
deriving DecidableEq, Repr

/-- Where a read or a change can abort. -/
inductive HeaderListAbort where
  /-- A debug assertion on a name. -/
  | headerName
  /-- A debug assertion on a value. -/
  | headerValue
  /-- `sort_and_combine_a_header_list`: "name is in list". -/
  | nameInList
deriving DecidableEq, Repr

/-- A call that does not throw. -/
abbrev Reading := Outcome HeaderListAbort Empty HeaderReads

/-- One name of `sort_and_combine_a_header_list`. -/
def combineName (debug : Bool) (list : HeaderList) (name : ByteString) : Reading HeaderList :=
  if name = "set-cookie".toList then
    pure ((list.filter fun x => eqIgnoreAsciiCase x.1 name).map fun x => (name, x.2))
  else
    Outcome.guard (!debug || isHeaderName name) .headerName >>= fun _ =>
    Outcome.expect (getHeaderForName list name) .nameInList >>= fun value =>
    pure [(name, value)]

/-- The loop of `sort_and_combine_a_header_list`. -/
def combineNames (debug : Bool) (list headers : HeaderList) : List ByteString → Reading HeaderList
  | [] => pure headers
  | name :: names =>
    combineName debug list name >>= fun new => combineNames debug list (headers ++ new) names

/-- `sort_and_combine_a_header_list`. -/
def sortAndCombineAHeaderList (debug : Bool) (list : HeaderList) : Reading HeaderList :=
  combineNames debug list [] (convertHeaderNamesToSortedLowercaseSet (list.map Prod.fst))

/-! ### Cached lists and what steps through them -/

/-- `sorted_and_combined`. -/
def CachedHeaderList.combined (debug : Bool) (c : CachedHeaderList) :
    Reading (HeaderList × CachedHeaderList) :=
  match c.sortedAndCombined with
  | some headers => pure (headers, c)
  | none =>
    sortAndCombineAHeaderList debug c.list >>= fun headers =>
    pure (headers, { c with sortedAndCombined := some headers })

/-- A change through `deref_mut`. -/
def CachedHeaderList.derefMut (c : CachedHeaderList) (change : HeaderList → HeaderList) :
    CachedHeaderList :=
  ⟨change c.list, none⟩

/-- `pair_iterator_result`: the values in the result. -/
def pairIteratorResult (kind : IterationKind) (x : ByteString × ByteString) : List ByteString :=
  match kind with
  | .key => [x.1]
  | .value => [x.2]
  | .keyValue => [x.1, x.2]

namespace HeaderReads

/-- The list that is read from here on. -/
def combined (debug : Bool) (s : HeaderReads) : Reading (HeaderList × HeaderReads) :=
  s.headerList.combined debug >>= fun x => pure (x.1, { s with headerList := x.2 })

/-- `HeadersIterator::next`, `none` standing for a result that is done. -/
def next (debug : Bool) (s : HeaderReads) (k : ℕ) (it : HeadersIterator) :
    Reading (Option (List ByteString) × HeaderReads) :=
  s.combined debug >>= fun x =>
  match x.1[it.index]? with
  | none => pure (none, x.2)
  | some pair =>
    pure (some (pairIteratorResult it.kind pair),
      { x.2 with iterators := x.2.iterators.set k { it with index := it.index + 1 } })

/-- The next round of a `for_each_pair` loop, with the pair that its callback is called with. -/
def forEachPair (debug : Bool) (s : HeaderReads) (k i : ℕ) :
    Reading (Option (ByteString × ByteString) × HeaderReads) :=
  s.combined debug >>= fun x =>
  match x.1[i]? with
  | none => pure (none, { x.2 with loops := x.2.loops.set k none })
  | some pair => pure (some pair, { x.2 with loops := x.2.loops.set k (some (i + 1)) })

end HeaderReads

/-- What is done to a header list, or read of it. -/
inductive HeaderListAction where
  | append (name value : ByteString)
  | set (name value : ByteString)
  | delete (name : ByteString)
  | iterate (kind : IterationKind)
  | next (k : ℕ)
  | forEach
  | callback (k : ℕ)
deriving DecidableEq, Repr

/-- One step. -/
def HeaderReads.step (debug : Bool) (s : HeaderReads) : HeaderListAction → Reading HeaderReads
  | .append name value =>
    Outcome.guard (!debug || isHeaderName name) .headerName >>= fun _ =>
    Outcome.guard (!debug || isHeaderValue value) .headerValue >>= fun _ =>
    pure { s with headerList := s.headerList.derefMut fun list => appendAHeader list name value }
  | .set name value =>
    Outcome.guard (!debug || isHeaderName name) .headerName >>= fun _ =>
    Outcome.guard (!debug || isHeaderValue value) .headerValue >>= fun _ =>
    pure { s with headerList := s.headerList.derefMut fun list => setAHeader list name value }
  | .delete name =>
    Outcome.guard (!debug || isHeaderName name) .headerName >>= fun _ =>
    pure { s with headerList := s.headerList.derefMut fun list => deleteHeader list name }
  | .iterate kind => pure { s with iterators := s.iterators ++ [⟨0, kind⟩] }
  | .next k =>
    match s.iterators[k]? with
    | none => pure s
    | some it => s.next debug k it >>= fun x => pure x.2
  | .forEach => pure { s with loops := s.loops ++ [some 0] }
  | .callback k =>
    match s.loops[k]? with
    | some (some i) => s.forEachPair debug k i >>= fun x => pure x.2
    | _ => pure s

/-- A header list and its readers as a machine. -/
def headerReadsMachine (debug : Bool) :
    Machine HeaderListAbort Empty HeaderReads HeaderListAction :=
  ⟨HeaderReads.step debug⟩

/-- An empty list that nothing is reading. -/
def HeaderReads.empty : HeaderReads := ⟨⟨[], none⟩, [], []⟩

/-! ### The multimap -/

section Multimap

variable {list list' : HeaderList} {name other value : ByteString}

theorem intercalate_cons (sep first : ByteString) (values : List ByteString) :
    sep.intercalate (first :: values) = first ++ values.flatMap fun value => sep ++ value := by
  induction values generalizing first with
  | nil => simp
  | cons second values ih =>
    rw [List.intercalate_cons_cons, ih, List.flatMap_cons, List.append_assoc, List.append_assoc]

/-- **The value of a name** is its values in order, joined. -/
theorem getHeaderForName_eq (list : HeaderList) (name : ByteString) :
    getHeaderForName list name =
      if HeaderList.values list name = [] then none
      else some (", ".toList.intercalate (HeaderList.values list name)) := by
  rw [getHeaderForName]
  cases HeaderList.values list name with
  | nil => rfl
  | cons first values => rw [if_neg (List.cons_ne_nil first values), intercalate_cons]

theorem getHeaderForName_eq_none : getHeaderForName list name = none ↔
    ∀ x ∈ list, eqIgnoreAsciiCase x.1 name = false := by
  rw [getHeaderForName_eq, ← values_eq_nil]
  split_ifs with h <;> simp [h]

/-- A name that is set is looked up among the headers of other names unchanged. -/
theorem setAHeader_filter (list : HeaderList) (name value : ByteString) :
    (setAHeader list name value).filter (fun x => !eqIgnoreAsciiCase x.1 name) =
      list.filter fun x => !eqIgnoreAsciiCase x.1 name := by
  induction list with
  | nil => simp [setAHeader]
  | cons x list ih =>
    rw [setAHeader_cons]
    split_ifs with hx
    · simp [hx, deleteHeader]
    · simp [hx, ih]

theorem deleteHeader_filter (list : HeaderList) (name : ByteString) :
    (deleteHeader list name).filter (fun x => !eqIgnoreAsciiCase x.1 name) =
      list.filter fun x => !eqIgnoreAsciiCase x.1 name := by
  simp [deleteHeader]

theorem has_deleteHeader (list : HeaderList) (name : ByteString) :
    HeaderList.has (deleteHeader list name) name = false := by
  simp [HeaderList.has, deleteHeader]

theorem has_eq (list : HeaderList) (name : ByteString) :
    HeaderList.has list name = decide (HeaderList.values list name ≠ []) := by
  rw [Bool.eq_iff_iff, decide_eq_true_iff, Ne, values_eq_nil, HeaderList.has, List.any_eq_true]
  push Not
  simp

end Multimap

/-! ### The names in order -/

section Names

variable {name lower : ByteString} {set names : List ByteString}

/-- Strings are told apart by their bytes. -/
theorem asBytes_injective : Function.Injective asBytes := by
  intro a b h
  have hbytes : a.flatMap String.utf8EncodeChar = b.flatMap String.utf8EncodeChar := by
    refine List.map_injective_iff.mpr (fun x y hxy => UInt8.toNat_inj.mp hxy) ?_
    rw [List.map_flatMap, List.map_flatMap]
    exact h
  refine String.ofList_injective (String.toByteArray_inj.mp ?_)
  rw [String.toByteArray_ofList, String.toByteArray_ofList, List.utf8Encode, List.utf8Encode,
    hbytes]

theorem lowercase_lowercase (s : ByteString) : lowercase (lowercase s) = lowercase s := by
  rw [lowercase, lowercase, List.map_map]
  refine List.map_congr_left fun c _ => ?_
  exact Char.toLower_toLower_eq_toLower c

/-- A name has the same bytes for a token when it is lowercase. -/
theorem isHeaderName_lowercase (h : isHeaderName name = true) :
    isHeaderName (lowercase name) = true := by
  rw [isHeaderName, Bool.and_eq_true, List.all_eq_true] at h ⊢
  refine ⟨by simpa [lowercase] using h.1, fun c hc => ?_⟩
  obtain ⟨d, hd, rfl⟩ := List.mem_map.mp hc
  have htoken := h.2 d hd
  rw [isHttpTokenByte, Bool.or_eq_true] at htoken ⊢
  rcases htoken with halpha | hother
  · left
    rw [Char.isAlphanum, Bool.or_eq_true] at halpha ⊢
    rcases halpha with halpha | hdigit
    · exact .inl (by rwa [Char.isAlpha_toLower_eq_isAlpha])
    · refine .inr ?_
      rwa [Char.toLower_eq_of_not_isUpper]
      grind [Char.isUpper, Char.isDigit]
  · -- none of the other bytes is an upper case letter
    have hall : ("!#$%&'*+-.^_`|~".toList.all fun x => x.toLower == x) = true := by decide
    have hlower : d.toLower = d := by
      simpa using List.all_eq_true.mp hall d (by simpa using hother)
    rw [hlower]
    exact .inr hother

theorem mem_headerNamesSet : lower ∈ headerNamesSet set names ↔
    lower ∈ set ∨ ∃ name ∈ names, lowercase name = lower := by
  induction names generalizing set with
  | nil => simp [headerNamesSet]
  | cons name names ih =>
    have hset : lower ∈ (if set.contains (lowercase name) then set else set ++ [lowercase name]) ↔
        lower ∈ set ∨ lower = lowercase name := by
      split_ifs with h
      · rw [List.contains_iff_mem] at h
        exact ⟨Or.inl, fun h' => h'.elim id fun heq => heq ▸ h⟩
      · rw [List.mem_append, List.mem_singleton]
    rw [headerNamesSet, ih, hset, List.exists_mem_cons_iff, or_assoc, eq_comm (a := lower)]

theorem nodup_headerNamesSet (h : set.Nodup) : (headerNamesSet set names).Nodup := by
  induction names generalizing set with
  | nil => exact h
  | cons name names ih =>
    refine ih ?_
    split_ifs with hmem
    · exact h
    · rw [List.contains_iff_mem] at hmem
      refine List.nodup_append.mpr ⟨h, List.nodup_singleton _, fun a ha b hb hab => hmem ?_⟩
      rw [← List.mem_singleton.mp hb, ← hab]
      exact ha

/-- The sorted set has the lowercase names. -/
theorem mem_convert : lower ∈ convertHeaderNamesToSortedLowercaseSet names ↔
    ∃ name ∈ names, lowercase name = lower := by
  rw [convertHeaderNamesToSortedLowercaseSet, List.mem_insertionSort, mem_headerNamesSet]
  simp

/-- The sorted set is ascending, each name once. -/
theorem pairwise_convert (names : List ByteString) :
    (convertHeaderNamesToSortedLowercaseSet names).Pairwise fun a b => asBytes a < asBytes b := by
  have htotal : Std.Total fun a b : ByteString => asBytes a ≤ asBytes b :=
    ⟨fun a b => le_total (asBytes a) (asBytes b)⟩
  have htrans : IsTrans ByteString fun a b => asBytes a ≤ asBytes b :=
    ⟨fun a b c => le_trans⟩
  have hsorted := List.pairwise_insertionSort (fun a b : ByteString => asBytes a ≤ asBytes b)
    (headerNamesSet [] names)
  have hnodup : (convertHeaderNamesToSortedLowercaseSet names).Nodup :=
    (List.perm_insertionSort _ _).nodup_iff.mpr (nodup_headerNamesSet List.nodup_nil)
  refine (List.pairwise_and_iff.mpr ⟨hsorted, hnodup⟩).imp fun {a b} hab => ?_
  exact lt_of_le_of_ne hab.1 fun heq => hab.2 (asBytes_injective heq)

end Names

/-! ### The combined list -/

section Combined

variable {debug : Bool} {list list' : HeaderList} {name lower : ByteString}

/-- The entries of a name in the combined list. -/
def entriesOf (list : HeaderList) (lower : ByteString) : HeaderList :=
  if lower = "set-cookie".toList then (HeaderList.values list lower).map fun value => (lower, value)
  else (getHeaderForName list lower).toList.map fun value => (lower, value)

theorem eq_of_mem_entriesOf {x : ByteString × ByteString} (hx : x ∈ entriesOf list lower) :
    x.1 = lower := by
  rw [entriesOf] at hx
  split_ifs at hx
  · obtain ⟨value, -, rfl⟩ := List.mem_map.mp hx
    rfl
  · obtain ⟨value, -, rfl⟩ := List.mem_map.mp hx
    rfl

theorem entriesOf_of_values (h : HeaderList.values list lower = HeaderList.values list' lower) :
    entriesOf list lower = entriesOf list' lower := by
  rw [entriesOf, entriesOf, h, getHeaderForName_of_values h]

/-- The combined list: the entries of each name, in the order of the names. -/
def combinedList (list : HeaderList) : HeaderList :=
  (convertHeaderNamesToSortedLowercaseSet (list.map Prod.fst)).flatMap (entriesOf list)

/-- The names of a list. -/
theorem mem_names : lower ∈ convertHeaderNamesToSortedLowercaseSet (list.map Prod.fst) ↔
    lowercase lower = lower ∧ HeaderList.values list lower ≠ [] := by
  rw [mem_convert, Ne, values_eq_nil]
  push Not
  constructor
  · rintro ⟨name, hname, rfl⟩
    obtain ⟨x, hx, rfl⟩ := List.mem_map.mp hname
    refine ⟨lowercase_lowercase x.1, x, hx, ?_⟩
    rw [Ne, Bool.not_eq_false, eqIgnoreAsciiCase_iff, lowercase_lowercase]
  · rintro ⟨hlower, x, hx, hsame⟩
    rw [Ne, Bool.not_eq_false, eqIgnoreAsciiCase_iff, hlower] at hsame
    exact ⟨x.1, List.mem_map_of_mem hx, hsame⟩

theorem combineName_eq (hname : debug = true → isHeaderName lower = true)
    (hvalues : HeaderList.values list lower ≠ []) :
    combineName debug list lower = .ok (entriesOf list lower) := by
  rw [combineName, entriesOf]
  split_ifs with hcookie
  · rw [HeaderList.values, List.map_map]
    rfl
  · have hguard : (!debug || isHeaderName lower) = true := by
      cases debug with
      | false => rfl
      | true => exact hname rfl
    rw [hguard, Outcome.guard_true, Outcome.ok_bind, getHeaderForName_eq, if_neg hvalues]
    rfl

theorem combineNames_eq {names : List ByteString} (headers : HeaderList)
    (hnames : ∀ lower ∈ names, (debug = true → isHeaderName lower = true) ∧
      HeaderList.values list lower ≠ []) :
    combineNames debug list headers names = .ok (headers ++ names.flatMap (entriesOf list)) := by
  induction names generalizing headers with
  | nil => simp [combineNames]
  | cons lower names ih =>
    obtain ⟨hname, hvalues⟩ := hnames lower List.mem_cons_self
    rw [combineNames, combineName_eq hname hvalues, Outcome.ok_bind,
      ih _ fun lower hlower => hnames lower (List.mem_cons_of_mem _ hlower), List.flatMap_cons,
      List.append_assoc]

/-- **Sorting and combining does not abort.** Debug builds check the names once more. -/
theorem sortAndCombineAHeaderList_eq
    (hnames : debug = true → ∀ x ∈ list, isHeaderName x.1 = true) :
    sortAndCombineAHeaderList debug list = .ok (combinedList list) := by
  refine combineNames_eq [] fun lower hlower => ⟨fun hdebug => ?_, (mem_names.mp hlower).2⟩
  obtain ⟨name, hname, rfl⟩ := mem_convert.mp hlower
  obtain ⟨x, hx, rfl⟩ := List.mem_map.mp hname
  exact isHeaderName_lowercase (hnames hdebug x hx)

/-- What a sorted and combined list says of the list it is computed from. -/
structure Combines (list headers : HeaderList) : Prop where
  lower : ∀ x ∈ headers, lowercase x.1 = x.1
  ascending : headers.Pairwise fun x y =>
    asBytes x.1 < asBytes y.1 ∨ (x.1 = "set-cookie".toList ∧ y.1 = "set-cookie".toList)
  entry : ∀ name, lowercase name ≠ "set-cookie".toList →
    (headers.filter fun x => x.1 = lowercase name).map Prod.snd =
      (getHeaderForName list name).toList
  cookies : (headers.filter fun x => x.1 = "set-cookie".toList).map Prod.snd =
    HeaderList.values list "set-cookie".toList

/-- Parts that only one element contributes to. -/
theorem flatMap_eq_of_forall {α β : Type} [DecidableEq α] {l : List α} {f : α → List β} {a : α}
    (hnodup : l.Nodup) (h : ∀ b ∈ l, b ≠ a → f b = []) :
    l.flatMap f = if a ∈ l then f a else [] := by
  induction l with
  | nil => rfl
  | cons b l ih =>
    obtain ⟨hb, hl⟩ := List.nodup_cons.mp hnodup
    rw [List.flatMap_cons, ih hl fun c hc => h c (List.mem_cons_of_mem b hc)]
    by_cases hab : a = b
    · subst hab
      rw [if_neg hb, if_pos List.mem_cons_self, List.append_nil]
    · rw [h b List.mem_cons_self (Ne.symm hab), List.nil_append]
      simp only [List.mem_cons, hab, false_or]

theorem filter_entriesOf (p : ByteString → Bool) (list : HeaderList) (lower : ByteString) :
    (entriesOf list lower).filter (fun x => p x.1) =
      if p lower then entriesOf list lower else [] := by
  split_ifs with hp
  · exact List.filter_eq_self.mpr fun x hx => by rw [eq_of_mem_entriesOf hx, hp]
  · exact List.filter_eq_nil_iff.mpr fun x hx => by rw [eq_of_mem_entriesOf hx]; exact hp

/-- The entries of one name in the combined list. -/
theorem filter_combinedList (hlower : lowercase lower = lower) :
    (combinedList list).filter (fun x => x.1 = lower) = entriesOf list lower := by
  have hnodup : (convertHeaderNamesToSortedLowercaseSet (list.map Prod.fst)).Nodup :=
    (pairwise_convert (list.map Prod.fst)).imp fun hab heq => hab.ne (congrArg asBytes heq)
  rw [combinedList, List.filter_flatMap, flatMap_eq_of_forall (a := lower) hnodup ?other,
    filter_entriesOf fun name => name = lower, if_pos (decide_eq_true rfl)]
  case other =>
    intro name _ hne
    rw [filter_entriesOf fun name => name = lower, if_neg (by simpa using hne)]
  split_ifs with hmem
  · rfl
  · have hnil : HeaderList.values list lower = [] := by
      by_contra hvalues
      exact hmem (mem_names.mpr ⟨hlower, hvalues⟩)
    rw [entriesOf, getHeaderForName_eq, hnil, if_pos rfl]
    split_ifs <;> rfl

/-- The entries of the other names depend on their values alone. -/
theorem filter_combinedList_congr (h : ∀ other, lowercase other = other → other ≠ lower →
      HeaderList.values list other = HeaderList.values list' other) :
    (combinedList list).filter (fun x => x.1 ≠ lower) =
      (combinedList list').filter fun x => x.1 ≠ lower := by
  have hfilter (list : HeaderList) : (combinedList list).filter (fun x => x.1 ≠ lower) =
      ((convertHeaderNamesToSortedLowercaseSet (list.map Prod.fst)).filter (· ≠ lower)).flatMap
        (entriesOf list) := by
    rw [combinedList, List.filter_flatMap]
    induction convertHeaderNamesToSortedLowercaseSet (list.map Prod.fst) with
    | nil => rfl
    | cons name names ih =>
      rw [List.flatMap_cons, ih, List.filter_cons, filter_entriesOf fun name => name ≠ lower]
      split_ifs <;> rfl
  have hnames : (convertHeaderNamesToSortedLowercaseSet (list.map Prod.fst)).filter (· ≠ lower) =
      (convertHeaderNamesToSortedLowercaseSet (list'.map Prod.fst)).filter (· ≠ lower) := by
    have hirrefl : Std.Irrefl fun a b : ByteString => asBytes a < asBytes b :=
      ⟨fun a => lt_irrefl (asBytes a)⟩
    refine List.Pairwise.eq_of_mem_iff ((pairwise_convert _).filter _)
      ((pairwise_convert _).filter _) fun other => ?_
    rw [List.mem_filter, List.mem_filter, mem_names, mem_names, decide_eq_true_iff]
    constructor
    · rintro ⟨⟨hlower, hvalues⟩, hne⟩
      exact ⟨⟨hlower, h other hlower hne ▸ hvalues⟩, hne⟩
    · rintro ⟨⟨hlower, hvalues⟩, hne⟩
      exact ⟨⟨hlower, h other hlower hne ▸ hvalues⟩, hne⟩
  rw [hfilter, hfilter, hnames]
  refine List.flatMap_congr fun other hother => ?_
  rw [List.mem_filter, mem_names, decide_eq_true_iff] at hother
  exact entriesOf_of_values (h other hother.1.1 hother.2)

theorem combines_combinedList (list : HeaderList) : Combines list (combinedList list) := by
  constructor
  case lower =>
    intro x hx
    obtain ⟨lower, hlower, hx⟩ := List.mem_flatMap.mp hx
    rw [eq_of_mem_entriesOf hx]
    exact (mem_names.mp hlower).1
  case ascending =>
    rw [combinedList, List.pairwise_flatMap]
    constructor
    · intro lower _
      rw [entriesOf]
      split_ifs with hcookie
      · exact List.pairwise_map.mpr (List.pairwise_of_forall fun _ _ => .inr ⟨hcookie, hcookie⟩)
      · cases getHeaderForName list lower with
        | none => exact .nil
        | some value => exact List.pairwise_singleton _ _
    · refine (pairwise_convert _).imp fun {a b} hab x hx y hy => ?_
      rw [eq_of_mem_entriesOf hx, eq_of_mem_entriesOf hy]
      exact .inl hab
  case entry =>
    intro name hname
    have hvalues : HeaderList.values list (lowercase name) = HeaderList.values list name :=
      values_congr (eqIgnoreAsciiCase_iff.mpr (lowercase_lowercase name))
    rw [filter_combinedList (lowercase_lowercase name), entriesOf, if_neg hname, List.map_map,
      getHeaderForName_of_values hvalues]
    exact List.map_id _
  case cookies =>
    rw [filter_combinedList (by decide), entriesOf, if_pos rfl, List.map_map]
    exact List.map_id _

end Combined

/-! ### Cached lists and their readers -/

section Readers

variable {debug : Bool} {s t : HeaderReads} {list : HeaderList} {name value : ByteString}

/-- The cache is empty or up to date. Debug builds only store names that are such. -/
structure Coherent (debug : Bool) (s : HeaderReads) : Prop where
  names : debug = true → ∀ x ∈ s.headerList.list, isHeaderName x.1 = true
  cached : ∀ headers, s.headerList.sortedAndCombined = some headers →
    headers = combinedList s.headerList.list

/-- A read fills the cache. -/
theorem Coherent.combined (h : Coherent debug s) :
    s.combined debug = .ok (combinedList s.headerList.list, { s with
      headerList := ⟨s.headerList.list, some (combinedList s.headerList.list)⟩ }) := by
  rw [HeaderReads.combined, CachedHeaderList.combined]
  cases hcache : s.headerList.sortedAndCombined with
  | none => rw [sortAndCombineAHeaderList_eq h.names]; rfl
  | some headers =>
    have hlist : s.headerList = ⟨s.headerList.list, some headers⟩ := by rw [← hcache]
    rw [← h.cached headers hcache, ← hlist]
    rfl

/-- **A step of an iterator** is a step in the list as it is now. -/
theorem Coherent.next (h : Coherent debug s) (k : ℕ) (it : HeadersIterator) :
    ∃ t, s.next debug k it =
        .ok ((combinedList s.headerList.list)[it.index]?.map (pairIteratorResult it.kind), t) ∧
      t.headerList = ⟨s.headerList.list, some (combinedList s.headerList.list)⟩ ∧
      t.loops = s.loops ∧
      t.iterators = if it.index < (combinedList s.headerList.list).length then
        s.iterators.set k { it with index := it.index + 1 } else s.iterators := by
  rw [HeaderReads.next, h.combined, Outcome.ok_bind]
  cases hpair : (combinedList s.headerList.list)[it.index]? with
  | none =>
    refine ⟨_, rfl, rfl, rfl, ?_⟩
    rw [if_neg (not_lt.mpr (List.getElem?_eq_none_iff.mp hpair))]
  | some pair =>
    refine ⟨_, rfl, rfl, rfl, ?_⟩
    rw [if_pos (List.getElem?_eq_some_iff.mp hpair).1]

/-- **A round of `forEach`** is a step in the list as it is now. -/
theorem Coherent.forEachPair (h : Coherent debug s) (k i : ℕ) :
    ∃ t, s.forEachPair debug k i = .ok ((combinedList s.headerList.list)[i]?, t) ∧
      t.headerList = ⟨s.headerList.list, some (combinedList s.headerList.list)⟩ ∧
      t.iterators = s.iterators ∧
      t.loops = s.loops.set k
        (if i < (combinedList s.headerList.list).length then some (i + 1) else none) := by
  rw [HeaderReads.forEachPair, h.combined, Outcome.ok_bind]
  cases hpair : (combinedList s.headerList.list)[i]? with
  | none =>
    refine ⟨_, rfl, rfl, rfl, ?_⟩
    rw [if_neg (not_lt.mpr (List.getElem?_eq_none_iff.mp hpair))]
  | some pair =>
    refine ⟨_, rfl, rfl, rfl, ?_⟩
    rw [if_pos (List.getElem?_eq_some_iff.mp hpair).1]

theorem Coherent.of_headerList (h : Coherent debug s)
    (heq : t.headerList = ⟨s.headerList.list, some (combinedList s.headerList.list)⟩) :
    Coherent debug t where
  names := by rw [heq]; exact h.names
  cached headers hcache := by
    rw [heq] at hcache ⊢
    exact (Option.some.inj hcache).symm

/-- A mutable access drops the cache. -/
theorem Coherent.derefMut (change : HeaderList → HeaderList)
    (hnames : debug = true → ∀ x ∈ change s.headerList.list, isHeaderName x.1 = true) :
    Coherent debug { s with headerList := s.headerList.derefMut change } where
  names := hnames
  cached headers hcache := by cases hcache

theorem isHeaderName_append (hlist : ∀ x ∈ list, isHeaderName x.1 = true)
    (hname : isHeaderName name = true) :
    ∀ x ∈ appendAHeader list name value, isHeaderName x.1 = true := by
  obtain ⟨name', heq, hspells⟩ := appendAHeader_eq list name value
  intro x hx
  rw [heq, List.mem_append, List.mem_singleton] at hx
  rcases hx with hx | rfl
  · exact hlist x hx
  · rcases hspells.old with ⟨y, hy, hspelled⟩ | ⟨hspelled, -⟩
    · exact hspelled ▸ hlist y hy
    · exact hspelled ▸ hname

theorem isHeaderName_set (hlist : ∀ x ∈ list, isHeaderName x.1 = true)
    (hname : isHeaderName name = true) :
    ∀ x ∈ setAHeader list name value, isHeaderName x.1 = true := by
  intro x hx
  rcases mem_setAHeader hx with ⟨hmem, -⟩ | ⟨-, hspells⟩
  · exact hlist x hmem
  · rcases hspells.old with ⟨y, hy, hspelled⟩ | ⟨hspelled, -⟩
    · exact hspelled ▸ hlist y hy
    · exact hspelled ▸ hname

/-- A step keeps the cache coherent. -/
theorem Coherent.step (h : Coherent debug s) (action : HeaderListAction) :
    (s.step debug action).Sat (Coherent debug) (Coherent debug) fun _ => True := by
  cases action with
  | append name value =>
    simp only [HeaderReads.step, Outcome.sat_bind, Outcome.sat_guard]
    refine ⟨fun hname => ⟨fun _ => .derefMut _ fun hdebug => ?_, fun _ => trivial⟩,
      fun _ => trivial⟩
    subst hdebug
    exact isHeaderName_append (h.names rfl) (by simpa using hname)
  | set name value =>
    simp only [HeaderReads.step, Outcome.sat_bind, Outcome.sat_guard]
    refine ⟨fun hname => ⟨fun _ => .derefMut _ fun hdebug => ?_, fun _ => trivial⟩,
      fun _ => trivial⟩
    subst hdebug
    exact isHeaderName_set (h.names rfl) (by simpa using hname)
  | delete name =>
    simp only [HeaderReads.step, Outcome.sat_bind, Outcome.sat_guard]
    refine ⟨fun _ => .derefMut _ fun hdebug x hx => ?_, fun _ => trivial⟩
    exact h.names hdebug x (deleteHeader_subset hx)
  | iterate kind => exact ⟨h.names, h.cached⟩
  | next k =>
    rw [HeaderReads.step]
    cases s.iterators[k]? with
    | none => exact h
    | some it =>
      obtain ⟨t, heq, hlist, -⟩ := h.next k it
      show (s.next debug k it >>= fun x => pure x.2 : Reading HeaderReads).Sat _ _ _
      rw [heq]
      exact h.of_headerList hlist
  | forEach => exact ⟨h.names, h.cached⟩
  | callback k =>
    rw [HeaderReads.step]
    cases hloop : s.loops[k]? with
    | none => exact h
    | some loop =>
      cases loop with
      | none => exact h
      | some i =>
        obtain ⟨t, heq, hlist, -⟩ := h.forEachPair k i
        show (s.forEachPair debug k i >>= fun x => pure x.2 : Reading HeaderReads).Sat _ _ _
        rw [heq]
        exact h.of_headerList hlist

theorem run_coherent (hrun : (headerReadsMachine debug).Run .empty s) : Coherent debug s := by
  refine hrun.inv_of_sat (E := fun _ => True) ⟨?_, ?_⟩ fun s action h _ => ?_
  · simp [HeaderReads.empty]
  · rintro headers ⟨⟩
  · exact h.step action

/-- What reads say of one name, before and after it is changed. -/
structure NameAgrees (debug : Bool) (list : HeaderList) (name : ByteString) : Prop where
  get_eq_none : getHeaderForName list name = none ↔ ∀ x ∈ list, eqIgnoreAsciiCase x.1 name = false
  get : getHeaderForName list name =
    if HeaderList.values list name = [] then none
    else some (", ".toList.intercalate (HeaderList.values list name))
  get_set : ∀ value, getHeaderForName (setAHeader list name value) name = some value
  has_delete : HeaderList.has (deleteHeader list name) name = false
  /-- The headers of the other names stay, in their order. -/
  others : ∀ value list', list' = setAHeader list name value ∨ list' = deleteHeader list name →
    list'.filter (fun x => !eqIgnoreAsciiCase x.1 name) =
      list.filter fun x => !eqIgnoreAsciiCase x.1 name
  /-- So do their results. -/
  other : ∀ value list', list' = setAHeader list name value ∨ list' = deleteHeader list name →
    ∀ other, eqIgnoreAsciiCase other name = false →
      getHeaderForName list' other = getHeaderForName list other ∧
      HeaderList.has list' other = HeaderList.has list other ∧
      HeaderList.values list' other = HeaderList.values list other
  /-- And their entries in the combined list. -/
  combined : (debug = true → isHeaderName name = true) →
    ∀ value list', list' = setAHeader list name value ∨ list' = deleteHeader list name →
    ∃ headers headers', sortAndCombineAHeaderList debug list = .ok headers ∧
      sortAndCombineAHeaderList debug list' = .ok headers' ∧
      headers'.filter (fun x => x.1 ≠ lowercase name) = headers.filter fun x => x.1 ≠ lowercase name

theorem nameAgrees (hnames : debug = true → ∀ x ∈ list, isHeaderName x.1 = true)
    (name : ByteString) : NameAgrees debug list name := by
  have hvalues (value : ByteString) (list' : HeaderList)
      (hlist' : list' = setAHeader list name value ∨ list' = deleteHeader list name)
      (other : ByteString) (hother : eqIgnoreAsciiCase other name = false) :
      HeaderList.values list' other = HeaderList.values list other := by
    rcases hlist' with rfl | rfl
    · exact values_set hother
    · exact values_delete hother
  constructor
  case get_eq_none => exact getHeaderForName_eq_none
  case get => exact getHeaderForName_eq list name
  case get_set => exact getHeaderForName_set list name
  case has_delete => exact has_deleteHeader list name
  case others =>
    rintro value list' (rfl | rfl)
    · exact setAHeader_filter list name value
    · exact deleteHeader_filter list name
  case other =>
    intro value list' hlist' other hother
    have heq := hvalues value list' hlist' other hother
    exact ⟨getHeaderForName_of_values heq, by rw [has_eq, has_eq, heq], heq⟩
  case combined =>
    intro hname value list' hlist'
    have hnames' : debug = true → ∀ x ∈ list', isHeaderName x.1 = true := by
      intro hdebug
      rcases hlist' with rfl | rfl
      · exact isHeaderName_set (hnames hdebug) (hname hdebug)
      · exact fun x hx => hnames hdebug x (deleteHeader_subset hx)
    refine ⟨_, _, sortAndCombineAHeaderList_eq hnames, sortAndCombineAHeaderList_eq hnames', ?_⟩
    refine filter_combinedList_congr fun other hlower hne => hvalues value list' hlist' other ?_
    rw [Bool.eq_false_iff, Ne, eqIgnoreAsciiCase_iff, hlower]
    exact hne

/-- What the readers of a list see, `headers` being the list sorted and combined afresh. -/
structure ReadersAgree (debug : Bool) (s : HeaderReads) (headers : HeaderList) : Prop where
  computed : sortAndCombineAHeaderList debug s.headerList.list = .ok headers
  combines : Combines s.headerList.list headers
  cached : ∀ headers', s.headerList.sortedAndCombined = some headers' → headers' = headers
  next : ∀ (k : ℕ) (it : HeadersIterator), ∃ t,
    s.next debug k it = .ok (headers[it.index]?.map (pairIteratorResult it.kind), t) ∧
    t.headerList = ⟨s.headerList.list, some headers⟩ ∧ t.loops = s.loops ∧
    t.iterators = if it.index < headers.length then
      s.iterators.set k { it with index := it.index + 1 } else s.iterators
  forEach : ∀ k i : ℕ, ∃ t, s.forEachPair debug k i = .ok (headers[i]?, t) ∧
    t.headerList = ⟨s.headerList.list, some headers⟩ ∧ t.iterators = s.iterators ∧
    t.loops = s.loops.set k (if i < headers.length then some (i + 1) else none)

/-- **Reads agree with the multimap** in every state that changes and reads of an empty list lead
to. -/
theorem reads_agree (hrun : (headerReadsMachine debug).Run .empty s) :
    (∀ name, NameAgrees debug s.headerList.list name) ∧ ∃ headers, ReadersAgree debug s headers :=
  have h := run_coherent hrun
  ⟨nameAgrees h.names, combinedList s.headerList.list, sortAndCombineAHeaderList_eq h.names,
    combines_combinedList _, h.cached, h.next, h.forEachPair⟩

/-- A list that is changed between two steps of an iterator. -/
theorem reads_agree_mutated : ∃ s, (headerReadsMachine true).Run .empty s ∧
    (s.headerList = ⟨[("B".toList, "2, 3".toList)], some [("b".toList, "2, 3".toList)]⟩ ∧
      s.iterators = [⟨1, .keyValue⟩]) ∧
    (∀ name, NameAgrees true s.headerList.list name) ∧ ∃ headers, ReadersAgree true s headers := by
  obtain ⟨s, hrun, hs⟩ := Machine.exists_run_of_exec (M := headerReadsMachine true) (s := .empty)
    [.append "B".toList "2".toList, .append "a".toList "1".toList, .append "b".toList "3".toList,
      .iterate .keyValue, .next 0, .delete "A".toList, .set "b".toList "2, 3".toList, .next 0]
    (P := fun s => s = ⟨⟨[("B".toList, "2, 3".toList)], some [("b".toList, "2, 3".toList)]⟩,
      [⟨1, .keyValue⟩], []⟩) (by decide +kernel)
  have heq := of_decide_eq_true hs
  exact ⟨s, hrun, by rw [heq]; exact ⟨rfl, rfl⟩, reads_agree hrun⟩

end Readers

end WebFetch
