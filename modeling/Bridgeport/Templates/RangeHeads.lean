import Bridgeport.Templates.TemplateEngine
import Mathlib

/-!
# Range blocks

A head as a template writes it: `range servers` and filters, each a key and a quoted value in which
characters may be escaped, with blank characters in between. `parseRangeHead` reads the filters
back (`RangeHead.parse_inner`).

A body is texts and references to fields in turn, and every text is the text of one (`exists_body`).
`renderBody` replaces the references and keeps the texts (`renderBody_text`).
-/

namespace Bridgeport.Templates

open Foundation Secrets ConfigSync List

/-! ### What is written -/

inductive FilterKey where
  | tag
  | name
  | environment

def FilterKey.text : FilterKey → Text
  | .tag => "tag".toList
  | .name => "name".toList
  | .environment => "environment".toList

/-- A character of a value, with a backslash in front of it or without. A quote and a backslash
are written with one. -/
structure ValueCharacter where
  character : Char
  escaped : Bool
  escaped_of_special : character = '"' ∨ character = '\\' → escaped = true

def ValueCharacter.text (value : ValueCharacter) : Text :=
  if value.escaped then ['\\', value.character] else [value.character]

/-- A filter with the blank characters in front of it and around its `=`. -/
structure Filter where
  gap : Text
  key : FilterKey
  (beforeEquals afterEquals : Text)
  written : List ValueCharacter
  blank_gap : ∀ character ∈ gap, isTrimmed character = true
  blank_before : ∀ character ∈ beforeEquals, isTrimmed character = true
  blank_after : ∀ character ∈ afterEquals, isTrimmed character = true

variable (filter : Filter)

def Filter.value : Text :=
  filter.written.map ValueCharacter.character

def Filter.rawValue : Text :=
  filter.written.flatMap ValueCharacter.text

/-- A filter without the gap in front of it. -/
def Filter.assignment : Text :=
  filter.key.text ++ (filter.beforeEquals ++ '=' :: (filter.afterEquals ++ '"' ::
    (filter.rawValue ++ ['"'])))

def Filter.text : Text :=
  filter.gap ++ filter.assignment

def filtersOf (filters : List Filter) : TemplateServerFilters :=
  filters.foldl (fun set filter ↦ set.set filter.key.text filter.value) {}

structure RangeHead where
  (before gap : Text)
  filters : List Filter
  after : Text
  blank_before : ∀ character ∈ before, isTrimmed character = true
  blank_gap : ∀ character ∈ gap, isTrimmed character = true
  blank_after : ∀ character ∈ after, isTrimmed character = true
  gap_ne_nil : gap ≠ []
  separated : ∀ first ∈ filters.head?, first.gap ≠ []

variable (head : RangeHead)

def RangeHead.arguments : Text :=
  head.filters.flatMap Filter.text

/-- The head without the blank characters at its ends. -/
def RangeHead.core : Text :=
  "range".toList ++ (head.gap ++ ("servers".toList ++ head.arguments))

/-- What stands between the braces of a range directive. -/
def RangeHead.text : Text :=
  head.before ++ head.core ++ head.after

/-- The filters stand on one line. -/
def RangeHead.OneLine : Prop :=
  ∀ character ∈ head.arguments.dropWhile isTrimmed, isLineTerminator character = false

/-- No value contains the brace that ends the search for the end of a directive. -/
def RangeHead.BraceFree : Prop :=
  ∀ filter ∈ head.filters, '}' ∉ filter.value

variable {character : Char}

theorem not_isWordCharacter_of_isTrimmed (h : isTrimmed character = true) :
    isWordCharacter character = false := by
  rw [Bool.eq_false_iff]
  intro hword
  have hbounds : (48 ≤ character.toNat ∧ character.toNat ≤ 57) ∨
      (65 ≤ character.toNat ∧ character.toNat ≤ 90) ∨
        (97 ≤ character.toNat ∧ character.toNat ≤ 122) ∨ character.toNat = 95 := by
    simp only [isWordCharacter, Char.isAlphanum, Char.isAlpha, Char.isUpper, Char.isLower,
      Char.isDigit, Bool.or_eq_true, Bool.and_eq_true, decide_eq_true_eq, ge_iff_le,
      UInt32.le_iff_toNat_le] at hword
    rcases hword with ((hupper | hlower) | hdigit) | rfl
    · exact .inr (.inl hupper)
    · exact .inr (.inr (.inl hlower))
    · exact .inl hdigit
    · exact .inr (.inr (.inr rfl))
  simp only [isTrimmed, mem_cons, not_mem_nil, or_false, decide_eq_true_eq] at h
  omega

theorem FilterKey.isWordCharacter_of_mem {key : FilterKey} (h : character ∈ key.text) :
    isWordCharacter character = true := by
  have hall : key.text.all isWordCharacter = true := by cases key <;> decide
  exact all_eq_true.mp hall character h

theorem FilterKey.text_ne_nil (key : FilterKey) : key.text ≠ [] := by
  cases key <;> decide

theorem FilterKey.text_mem (key : FilterKey) : key.text ∈ validFilterKeys := by
  cases key <;> decide

section

variable {written : List ValueCharacter}

theorem ValueCharacter.not_special {value : ValueCharacter} (h : value.escaped = false) :
    value.character ≠ '"' ∧ value.character ≠ '\\' :=
  not_or.mp fun hspecial ↦ by
    rw [value.escaped_of_special hspecial] at h
    exact absurd h (by decide)

section

variable (h : ∀ value ∈ written, isLineTerminator value.character = false)

include h

theorem readQuoted_written (rest : Text) :
    readQuoted (written.flatMap ValueCharacter.text ++ '"' :: rest) =
      some (written.flatMap ValueCharacter.text, rest) := by
  induction written with
  | nil =>
    rw [flatMap_nil, nil_append, readQuoted.eq_def]
    rfl
  | cons value written ih =>
    have htail := ih fun other hmem ↦ h other (mem_cons_of_mem _ hmem)
    rw [flatMap_cons, append_assoc]
    by_cases hescaped : value.escaped = true
    · rw [ValueCharacter.text, if_pos hescaped]
      simp [readQuoted, h value mem_cons_self, htail]
    · obtain ⟨hquote, hbackslash⟩ := ValueCharacter.not_special (Bool.eq_false_iff.mpr hescaped)
      rw [ValueCharacter.text, if_neg hescaped, singleton_append, readQuoted.eq_def]
      simp [hquote, hbackslash, htail]

theorem unescape_written :
    unescape (written.flatMap ValueCharacter.text) = written.map ValueCharacter.character := by
  induction written with
  | nil => rfl
  | cons value written ih =>
    have htail := ih fun other hmem ↦ h other (mem_cons_of_mem _ hmem)
    rw [unescape] at htail ⊢
    rw [flatMap_cons, map_cons, ← htail]
    by_cases hescaped : value.escaped = true
    · rw [ValueCharacter.text, if_pos hescaped]
      refine scan_append_of_some _ _ (cons_ne_nil _ _) ?_
      simp [h value mem_cons_self]
    · obtain ⟨-, hbackslash⟩ := ValueCharacter.not_special (Bool.eq_false_iff.mpr hescaped)
      rw [ValueCharacter.text, if_neg hescaped]
      refine scan_cons_of_none _ ?_
      simp [hbackslash]

end

end

section

variable {filter : Filter} {filters : List Filter}

theorem Filter.dropWhile_text (rest : Text) :
    (filter.text ++ rest).dropWhile isTrimmed = filter.assignment ++ rest := by
  obtain ⟨first, tail, hkey⟩ := exists_cons_of_ne_nil filter.key.text_ne_nil
  have hfirst : isWordCharacter first = true :=
    FilterKey.isWordCharacter_of_mem (hkey ▸ mem_cons_self)
  rw [Filter.text, append_assoc]
  refine dropWhile_append_boundary filter.blank_gap fun character hmem ↦ ?_
  rw [Filter.assignment, hkey, append_assoc, cons_append, List.head?_cons, Option.mem_def,
    Option.some.injEq] at hmem
  subst hmem
  intro hblank
  rw [not_isWordCharacter_of_isTrimmed hblank] at hfirst
  exact absurd hfirst (by decide)

theorem Filter.filterAt_assignment
    (h : ∀ value ∈ filter.written, isLineTerminator value.character = false) (rest : Text) :
    filterAt (filter.assignment ++ rest) =
      some (filter.key.text, filter.rawValue, rest.dropWhile isTrimmed) := by
  set behind := filter.beforeEquals ++ '=' :: (filter.afterEquals ++ '"' ::
    (filter.rawValue ++ '"' :: rest)) with hbehind
  have htext : filter.assignment ++ rest = filter.key.text ++ behind := by
    simp [Filter.assignment, hbehind]
  have hboundary : ∀ first ∈ behind.head?, ¬ isWordCharacter first :=
    not_of_head?_append_cons (fun _ hmem ↦ Bool.eq_false_iff.mp
      (not_isWordCharacter_of_isTrimmed (filter.blank_before _ hmem))) (by decide)
  have htake : (filter.assignment ++ rest).takeWhile isWordCharacter = filter.key.text := by
    rw [htext]
    exact takeWhile_append_boundary (fun _ ↦ FilterKey.isWordCharacter_of_mem) hboundary
  have hdrop : (filter.assignment ++ rest).dropWhile isWordCharacter = behind := by
    rw [htext]
    exact dropWhile_append_boundary (fun _ ↦ FilterKey.isWordCharacter_of_mem) hboundary
  have hequals : behind.dropWhile isTrimmed =
      '=' :: (filter.afterEquals ++ '"' :: (filter.rawValue ++ '"' :: rest)) :=
    dropWhile_append_boundary filter.blank_before (by simp [isTrimmed])
  have hquote : (filter.afterEquals ++ '"' :: (filter.rawValue ++ '"' :: rest)).dropWhile
      isTrimmed = '"' :: (filter.rawValue ++ '"' :: rest) :=
    dropWhile_append_boundary filter.blank_after (by simp [isTrimmed])
  have hread : readQuoted (filter.rawValue ++ '"' :: rest) = some (filter.rawValue, rest) :=
    readQuoted_written h rest
  simp only [filterAt, htake, hdrop, hequals, hquote, hread, if_neg filter.key.text_ne_nil]
  rfl

theorem Filter.character_mem_assignment {value : ValueCharacter} (h : value ∈ filter.written) :
    value.character ∈ filter.assignment := by
  have htext : value.character ∈ value.text := by
    unfold ValueCharacter.text
    split_ifs <;> simp
  have hraw : value.character ∈ filter.rawValue := mem_flatMap.mpr ⟨value, h, htext⟩
  simp [Filter.assignment, hraw]

theorem readFilters_filters
    (h : ∀ character ∈ (filters.flatMap Filter.text).dropWhile isTrimmed,
      isLineTerminator character = false) (set : TemplateServerFilters) :
    readFilters ((filters.flatMap Filter.text).dropWhile isTrimmed) set =
      .ok (filters.foldl (fun set filter ↦ set.set filter.key.text filter.value) set, []) := by
  induction filters generalizing set with
  | nil =>
    rw [readFilters]
    rfl
  | cons filter filters ih =>
    rw [flatMap_cons, Filter.dropWhile_text] at h ⊢
    have hvalue : ∀ value ∈ filter.written, isLineTerminator value.character = false :=
      fun value hmem ↦ h _ (mem_append_left _ (Filter.character_mem_assignment hmem))
    have hrest := ih fun character hmem ↦
      h _ (mem_append_right _ ((dropWhile_sublist isTrimmed).subset hmem))
    have hfilter := Filter.filterAt_assignment hvalue (filters.flatMap Filter.text)
    have hunescape : unescape filter.rawValue = filter.value := unescape_written hvalue
    rw [readFilters]
    split
    · simp_all
    · rename_i key rawValue behind hfound
      obtain ⟨rfl, rfl, rfl⟩ : filter.key.text = key ∧ filter.rawValue = rawValue ∧
          (filters.flatMap Filter.text).dropWhile isTrimmed = behind := by
        simpa using hfilter.symm.trans hfound
      rw [if_pos filter.key.text_mem, hunescape, hrest, foldl_cons]

end

/-! ### Heads are read back -/

section

variable {head : RangeHead}

theorem getLast?_filters {filters : List Filter} {last : Char}
    (h : last ∈ (filters.flatMap Filter.text).getLast?) : last = '"' := by
  induction filters using List.reverseRecOn with
  | nil => exact absurd h (by simp)
  | append_singleton filters filter =>
    have hend : (filters ++ [filter]).flatMap Filter.text =
        filters.flatMap Filter.text ++ filter.gap ++ filter.key.text ++ filter.beforeEquals ++
          ['='] ++ filter.afterEquals ++ ['"'] ++ filter.rawValue ++ ['"'] := by
      simp [Filter.text, Filter.assignment]
    rw [hend, List.getLast?_concat, Option.mem_def, Option.some.injEq] at h
    exact h.symm

theorem RangeHead.head?_arguments : ∀ first ∈ head.arguments.head?, isTrimmed first = true := by
  intro first hfirst
  rcases hfilters : head.filters with _ | ⟨filter, filters⟩
  · simp [RangeHead.arguments, hfilters] at hfirst
  · have hgap := head.separated filter (by rw [hfilters]; rfl)
    obtain ⟨character, gap, hcons⟩ := exists_cons_of_ne_nil hgap
    obtain rfl : character = first := by
      simpa [RangeHead.arguments, hfilters, Filter.text, hcons] using hfirst
    exact filter.blank_gap character (hcons ▸ mem_cons_self)

theorem RangeHead.inner_core : inner head.core = head.core := by
  refine trimBoth_eq_self (fun first hfirst ↦ ?_) fun last hlast ↦ ?_
  · obtain rfl : 'r' = first := by simpa [RangeHead.core] using hfirst
    decide
  · rw [RangeHead.core, ← append_assoc, ← append_assoc, List.getLast?_append, Option.mem_def,
      Option.or_eq_some_iff] at hlast
    rcases hlast with harguments | ⟨-, hservers⟩
    · rw [getLast?_filters harguments]
      decide
    · rw [List.getLast?_append] at hservers
      obtain rfl : 's' = last := Option.some.inj hservers
      decide

theorem RangeHead.inner_text : inner head.text = head.core := by
  rw [← RangeHead.inner_core]
  exact trimBoth_append_append head.blank_before head.blank_after head.core

theorem beginsWithWord_append {word rest : Text}
    (h : ∀ first ∈ rest.head?, isTrimmed first = true) :
    beginsWithWord word (word ++ rest) = true := by
  rw [beginsWithWord, drop_left]
  cases rest with
  | nil => simp
  | cons first rest => simp [not_isWordCharacter_of_isTrimmed (h first rfl)]

theorem RangeHead.isRange_text : isRange head.text = true := by
  rw [isRange, RangeHead.inner_text]
  refine beginsWithWord_append fun first hfirst ↦ ?_
  obtain ⟨character, gap, hcons⟩ := exists_cons_of_ne_nil head.gap_ne_nil
  obtain rfl : character = first := by simpa [hcons] using hfirst
  exact head.blank_gap character (hcons ▸ mem_cons_self)

theorem RangeHead.rangeArguments_core (h : head.OneLine) :
    rangeArguments head.core = some (head.arguments.dropWhile isTrimmed) := by
  have hdrop : head.core.drop 5 = head.gap ++ ("servers".toList ++ head.arguments) := rfl
  have hgap : (head.core.drop 5).head?.any isTrimmed = true := by
    obtain ⟨character, gap, hcons⟩ := exists_cons_of_ne_nil head.gap_ne_nil
    rw [hdrop, hcons]
    exact head.blank_gap character (hcons ▸ mem_cons_self)
  have hsource : (head.core.drop 5).dropWhile isTrimmed = "servers".toList ++ head.arguments := by
    rw [hdrop]
    exact dropWhile_append_boundary head.blank_gap (by simp [isTrimmed])
  have harguments : ("servers".toList ++ head.arguments).drop 7 = head.arguments := rfl
  have hline : ¬ (head.arguments.dropWhile isTrimmed).any isLineTerminator := by
    simpa [RangeHead.OneLine] using h
  rw [rangeArguments, if_pos ⟨prefix_append _ _, hgap⟩]
  simp only [hsource, harguments]
  exact if_pos ⟨beginsWithWord_append RangeHead.head?_arguments, hline⟩

theorem inner_dropWhile_arguments :
    inner (head.arguments.dropWhile isTrimmed) = head.arguments.dropWhile isTrimmed := by
  refine trimBoth_eq_self (not_of_head?_dropWhile head.arguments) fun last hlast ↦ ?_
  obtain ⟨before, hbefore⟩ : head.arguments.dropWhile isTrimmed <:+ head.arguments :=
    dropWhile_suffix isTrimmed
  have hmem : last ∈ head.arguments.getLast? := by
    rw [← hbefore, List.getLast?_append, Option.mem_def.mp hlast]
    rfl
  rw [getLast?_filters hmem]
  decide

theorem RangeHead.parse_inner (h : head.OneLine) :
    parseRangeHead (inner head.text) = .ok (filtersOf head.filters) := by
  rw [RangeHead.inner_text, parseRangeHead, RangeHead.inner_core, RangeHead.rangeArguments_core h]
  simp only [inner_dropWhile_arguments]
  have hread := readFilters_filters h {}
  rw [RangeHead.arguments, hread]
  rfl

theorem brace_notMem_of_isTrimmed {text : Text}
    (h : ∀ character ∈ text, isTrimmed character = true) : '}' ∉ text :=
  fun hmem ↦ absurd (h '}' hmem) (by decide)

theorem Filter.brace_notMem_text {filter : Filter} (h : '}' ∉ filter.value) :
    '}' ∉ filter.text := by
  have hkey : '}' ∉ filter.key.text := fun hmem ↦
    absurd (FilterKey.isWordCharacter_of_mem hmem) (by decide)
  have hraw : '}' ∉ filter.rawValue := by
    intro hmem
    obtain ⟨value, hvalue, hwritten⟩ := mem_flatMap.mp hmem
    have hcharacter : value.character = '}' := by
      unfold ValueCharacter.text at hwritten
      split_ifs at hwritten <;> simpa [eq_comm] using hwritten
    exact h (mem_map.mpr ⟨value, hvalue, hcharacter⟩)
  simp [Filter.text, Filter.assignment, hkey, hraw, brace_notMem_of_isTrimmed filter.blank_gap,
    brace_notMem_of_isTrimmed filter.blank_before, brace_notMem_of_isTrimmed filter.blank_after]

theorem RangeHead.brace_notMem_text (h : head.BraceFree) : '}' ∉ head.text := by
  have harguments : '}' ∉ head.arguments := by
    intro hmem
    obtain ⟨filter, hfilter, htext⟩ := mem_flatMap.mp hmem
    exact Filter.brace_notMem_text (h filter hfilter) htext
  simp [RangeHead.text, RangeHead.core, harguments, brace_notMem_of_isTrimmed head.blank_before,
    brace_notMem_of_isTrimmed head.blank_gap, brace_notMem_of_isTrimmed head.blank_after]

end

/-! ### The bodies of range blocks -/

/-- A reference to a field, with the blank characters around it. -/
structure FieldRef where
  (before name after : Text)
  blank_before : ∀ character ∈ before, isTrimmed character = true
  blank_after : ∀ character ∈ after, isTrimmed character = true
  start : name.head?.any isFieldStart = true
  word : ∀ character ∈ name, isWordCharacter character = true

variable (ref : FieldRef)

/-- What stands behind the opening braces of a reference. -/
def FieldRef.tail : Text :=
  ref.before ++ '.' :: (ref.name ++ (ref.after ++ closeBraces))

def FieldRef.text : Text :=
  openBraces ++ ref.tail

/-- What a reference stands for: the attribute of the server, or nothing for an unknown field. -/
def FieldRef.rendering (server : TemplateServer) (ref : FieldRef) : Text :=
  if ref.name ∈ validFields then renderField server ref.name else []

/-- The error that a reference to an unknown field gives. -/
def FieldRef.reports : List String :=
  if ref.name ∈ validFields then []
  else ["Unknown field \"." ++ String.ofList ref.name ++ "\" in range body"]

/-- A text without a reference to a field. -/
def FieldFree (text : Text) : Prop :=
  ∀ ref : FieldRef, ¬ ref.text <:+: text

/-- A body: texts and references in turn, and the text behind the last reference. -/
structure Body where
  pieces : List (Text × FieldRef)
  last : Text
  fieldFree : ∀ piece ∈ pieces, FieldFree piece.1
  fieldFree_last : FieldFree last

def Body.text (body : Body) : Text :=
  body.pieces.flatMap (fun piece ↦ piece.1 ++ piece.2.text) ++ body.last

/-- A body with its references replaced by the attributes of a server. -/
def Body.rendering (body : Body) (server : TemplateServer) : Text :=
  body.pieces.flatMap (fun piece ↦ piece.1 ++ piece.2.rendering server) ++ body.last

def Body.reports (body : Body) : List String :=
  body.pieces.flatMap fun piece ↦ piece.2.reports

/-! ### References -/

section

variable {ref : FieldRef} {text rest : Text}

theorem FieldFree.mono (h : FieldFree text) (hpart : rest <:+: text) : FieldFree rest :=
  fun ref href ↦ h ref (href.trans hpart)

theorem fieldFree_nil : FieldFree [] :=
  fun _ hpart ↦ absurd (infix_nil.mp hpart) (cons_ne_nil _ _)

def FieldRef.body (ref : FieldRef) : Body where
  pieces := [([], ref)]
  last := []
  fieldFree := fun piece hpiece ↦ by
    obtain rfl := mem_singleton.mp hpiece
    exact fieldFree_nil
  fieldFree_last := fieldFree_nil

theorem FieldRef.text_body (ref : FieldRef) : ref.body.text = ref.text := by
  simp [Body.text, FieldRef.body]

theorem fieldAt_ref (ref : FieldRef) (rest : Text) :
    fieldAt (ref.text ++ rest) = some (.field ref.name, ref.text.length) := by
  have hbefore : (ref.tail ++ rest).dropWhile isTrimmed =
      '.' :: (ref.name ++ (ref.after ++ closeBraces ++ rest)) := by
    rw [FieldRef.tail, append_assoc, cons_append, append_assoc]
    exact dropWhile_append_boundary ref.blank_before (by simp [isTrimmed])
  have hboundary : ∀ first ∈ (ref.after ++ closeBraces ++ rest).head?, ¬ isWordCharacter first := by
    rw [append_assoc]
    exact not_of_head?_append_cons (fun _ hmem ↦ Bool.eq_false_iff.mp
      (not_isWordCharacter_of_isTrimmed (ref.blank_after _ hmem))) (by decide)
  have hname := takeWhile_append_boundary ref.word hboundary
  have hdrop := dropWhile_append_boundary ref.word hboundary
  have hafter : (ref.after ++ closeBraces ++ rest).dropWhile isTrimmed = closeBraces ++ rest := by
    rw [append_assoc]
    exact dropWhile_append_boundary ref.blank_after (by simp [closeBraces, isTrimmed])
  have hlength : (ref.tail ++ rest).length + 4 - (closeBraces ++ rest).length =
      ref.text.length := by
    simp only [FieldRef.text, openBraces, closeBraces, length_append, length_cons, length_nil]
    omega
  show fieldAt ('{' :: '{' :: (ref.tail ++ rest)) = _
  simp only [fieldAt, hbefore, hname, hdrop, hafter, hlength]
  exact if_pos ⟨ref.start, prefix_append _ _⟩

theorem exists_ref_of_fieldAt {token : BodyToken} {length : ℕ}
    (h : fieldAt text = some (token, length)) : ∃ ref : FieldRef, ref.text <+: text := by
  unfold fieldAt at h
  split at h
  · rename_i rest
    split at h
    · rename_i named hnamed
      simp only [Option.ite_none_right_eq_some] at h
      obtain ⟨⟨hstart, behind, hbehind⟩, -⟩ := h
      let ref : FieldRef :=
        { before := rest.takeWhile isTrimmed
          name := named.takeWhile isWordCharacter
          after := (named.dropWhile isWordCharacter).takeWhile isTrimmed
          blank_before := fun _ ↦ mem_takeWhile_imp
          blank_after := fun _ ↦ mem_takeWhile_imp
          start := hstart
          word := fun _ ↦ mem_takeWhile_imp }
      refine ⟨ref, behind, ?_⟩
      have hrest : ref.before ++ '.' :: named = rest := by
        rw [← hnamed]
        exact takeWhile_append_dropWhile
      have hafter : ref.after ++ (closeBraces ++ behind) = named.dropWhile isWordCharacter := by
        rw [hbehind]
        exact takeWhile_append_dropWhile
      have hname : ref.name ++ named.dropWhile isWordCharacter = named :=
        takeWhile_append_dropWhile
      show '{' :: '{' :: (ref.tail ++ behind) = '{' :: '{' :: rest
      rw [← hrest, ← hname, ← hafter]
      simp [FieldRef.tail]
    · exact absurd h (by simp)
  · exact absurd h (by simp)

theorem fieldAt_eq_none (h : ∀ ref : FieldRef, ¬ ref.text <+: text) : fieldAt text = none := by
  by_contra hsome
  obtain ⟨⟨token, length⟩, hread⟩ := Option.ne_none_iff_exists'.mp hsome
  obtain ⟨ref, href⟩ := exists_ref_of_fieldAt hread
  exact h ref href

theorem FieldRef.open_notMem_tail : '{' ∉ ref.tail := by
  have hbefore : '{' ∉ ref.before := fun hmem ↦ absurd (ref.blank_before _ hmem) (by decide)
  have hname : '{' ∉ ref.name := fun hmem ↦ absurd (ref.word _ hmem) (by decide)
  have hafter : '{' ∉ ref.after := fun hmem ↦ absurd (ref.blank_after _ hmem) (by decide)
  simp [FieldRef.tail, hbefore, hname, hafter, closeBraces]

/-- A reference that begins in a text ends in it, when opening braces follow. -/
theorem prefix_of_prefix_append (hne : text ≠ [])
    (h : ref.text <+: text ++ (openBraces ++ rest)) : ref.text <+: text := by
  have hbraces : text ++ openBraces <+: text ++ (openBraces ++ rest) := by
    rw [← append_assoc]
    exact prefix_append _ _
  rcases prefix_or_prefix_of_prefix h hbraces with hshort | hlong
  · have hlast : ref.text.getLast? = some '}' := by
      have hend : ref.text = openBraces ++ ref.before ++ '.' :: (ref.name ++ ref.after ++ ['}']) ++
          ['}'] := by simp [FieldRef.text, FieldRef.tail, closeBraces]
      rw [hend, List.getLast?_concat]
    have hsplit : text ++ openBraces = text ++ ['{'] ++ ['{'] := by simp [openBraces]
    rw [hsplit] at hshort
    rcases prefix_concat_iff.mp hshort with hall | hshort
    · exact absurd (hall ▸ hlast) (by simp)
    · rcases prefix_concat_iff.mp hshort with hall | hshort
      · exact absurd (hall ▸ hlast) (by simp)
      · exact hshort
  · obtain ⟨first, tail, rfl⟩ := exists_cons_of_ne_nil hne
    obtain ⟨-, hlong⟩ := cons_prefix_cons.mp hlong
    refine absurd ?_ ref.open_notMem_tail
    cases tail with
    | nil => exact (cons_prefix_cons.mp hlong).2.subset mem_cons_self
    | cons second tail =>
      exact (cons_prefix_cons.mp hlong).2.subset (mem_append_right _ mem_cons_self)

/-- The tokens of a text without references, in front of a reference or at the end. -/
theorem scan_append_of_fieldFree (h : FieldFree text)
    (hlocal : ∀ suffix, suffix <:+ text → suffix ≠ [] → ∀ ref : FieldRef,
      ref.text <+: suffix ++ rest → ref.text <+: suffix) :
    scan fieldAt .character (text ++ rest) =
      text.map .character ++ scan fieldAt .character rest := by
  induction text with
  | nil => rfl
  | cons first text ih =>
    have hnone : fieldAt (first :: text ++ rest) = none := fieldAt_eq_none fun ref href ↦
      h ref (hlocal _ suffix_rfl (cons_ne_nil _ _) ref href).isInfix
    rw [cons_append] at hnone ⊢
    rw [scan_cons_of_none _ hnone, ih (h.mono (infix_cons infix_rfl))
      fun suffix hsuffix ↦ hlocal suffix (hsuffix.trans (suffix_cons _ _)), map_cons,
      cons_append]

theorem flatMap_renderToken_map (server : TemplateServer) (text : Text) :
    (text.map BodyToken.character).flatMap (renderToken server) = text := by
  induction text with
  | nil => rfl
  | cons first text ih => rw [map_cons, flatMap_cons, ih]; rfl

theorem flatMap_tokenErrors_map (text : Text) :
    (text.map BodyToken.character).flatMap tokenErrors = [] := by
  induction text with
  | nil => rfl
  | cons first text ih => rw [map_cons, flatMap_cons, ih]; rfl

theorem scan_text_ref (h : FieldFree text) (ref : FieldRef) (rest : Text) :
    scan fieldAt .character (text ++ ref.text ++ rest) =
      text.map .character ++ [.field ref.name] ++ scan fieldAt .character rest := by
  have hne : ref.text ≠ [] := cons_ne_nil _ _
  rw [append_assoc, scan_append_of_fieldFree h,
    scan_append_of_some _ rest hne (fieldAt_ref ref rest), append_assoc, singleton_append]
  intro suffix _ hsuffix ref' href
  have hopen : ref'.text <+: suffix ++ (openBraces ++ (ref.tail ++ rest)) := href
  exact prefix_of_prefix_append hsuffix hopen

theorem scan_body (body : Body) : scan fieldAt .character body.text =
    body.pieces.flatMap (fun piece ↦ piece.1.map .character ++ [.field piece.2.name]) ++
      body.last.map .character := by
  obtain ⟨pieces, last, hpieces, hlast⟩ := body
  simp only [Body.text]
  induction pieces with
  | nil =>
    have hscan : scan fieldAt .character (last ++ []) = last.map .character ++ [] :=
      scan_append_of_fieldFree hlast fun suffix _ _ ref href ↦ by rwa [append_nil] at href
    simpa using hscan
  | cons piece pieces ih =>
    rw [forall_mem_cons] at hpieces
    rw [flatMap_cons, flatMap_cons, append_assoc, scan_text_ref hpieces.1, ih hpieces.2]
    simp only [append_assoc]

/-- A body is rendered with its references replaced and its texts kept. -/
theorem renderBody_text (body : Body) (server : TemplateServer) :
    renderBody body.text server = (body.rendering server, body.reports) := by
  have hpieces : ∀ pieces : List (Text × FieldRef),
      (pieces.flatMap fun piece ↦ piece.1.map .character ++ [BodyToken.field piece.2.name]).flatMap
          (renderToken server) =
        pieces.flatMap (fun piece ↦ piece.1 ++ piece.2.rendering server) ∧
      (pieces.flatMap fun piece ↦ piece.1.map .character ++ [BodyToken.field piece.2.name]).flatMap
          tokenErrors = pieces.flatMap fun piece ↦ piece.2.reports := by
    intro pieces
    induction pieces with
    | nil => exact ⟨rfl, rfl⟩
    | cons piece pieces ih =>
      simp only [flatMap_cons, flatMap_append, flatMap_renderToken_map, flatMap_tokenErrors_map,
        ih.1, ih.2]
      exact ⟨by simp [renderToken, FieldRef.rendering], by simp [tokenErrors, FieldRef.reports]⟩
  simp only [renderBody, scan_body, flatMap_append, (hpieces body.pieces).1,
    (hpieces body.pieces).2, flatMap_renderToken_map, flatMap_tokenErrors_map, append_nil]
  rfl

theorem FieldFree.cons {first : Char} {tail : Text} (h : FieldFree text)
    (hnone : fieldAt (first :: tail) = none) (hbegins : text <+: tail) :
    FieldFree (first :: text) := by
  intro ref href
  rcases infix_cons_iff.mp href with hfront | hpart
  · obtain ⟨behind, hbehind⟩ := hfront.trans (cons_prefix_cons.mpr ⟨rfl, hbegins⟩)
    have hread := fieldAt_ref ref behind
    rw [hbehind, hnone] at hread
    exact absurd hread (by simp)
  · exact h ref hpart

theorem exists_body (text : Text) : ∃ body : Body, body.text = text := by
  induction hlength : text.length using Nat.strong_induction_on generalizing text with
  | _ bound ih =>
    subst hlength
    cases text with
    | nil => exact ⟨⟨[], [], by simp, fieldFree_nil⟩, rfl⟩
    | cons first tail =>
      rcases hread : fieldAt (first :: tail) with _ | ⟨token, length⟩
      · obtain ⟨⟨pieces, last, hpieces, hlast⟩, hbody⟩ :=
          ih tail.length (Nat.lt_succ_self _) tail rfl
        cases pieces with
        | nil =>
          have hlast' : last = tail := by simpa [Body.text] using hbody
          subst hlast'
          refine ⟨⟨[], first :: last, by simp, hlast.cons hread prefix_rfl⟩, ?_⟩
          simp [Body.text]
        | cons piece pieces =>
          have hfront : piece.1 <+: tail := by
            rw [← hbody]
            simp only [Body.text, flatMap_cons, append_assoc]
            exact prefix_append _ _
          refine ⟨⟨(first :: piece.1, piece.2) :: pieces, last, ?_, hlast⟩, ?_⟩
          · rw [forall_mem_cons] at hpieces ⊢
            exact ⟨hpieces.1.cons hread hfront, hpieces.2⟩
          · simp [Body.text, ← hbody]
      · obtain ⟨ref, rest, hrest⟩ := exists_ref_of_fieldAt hread
        have hshorter : rest.length < (first :: tail).length := by
          rw [← hrest, length_append]
          exact Nat.lt_add_of_pos_left (by simp [FieldRef.text, openBraces])
        obtain ⟨⟨pieces, last, hpieces, hlast⟩, hbody⟩ := ih rest.length hshorter rest rfl
        refine ⟨⟨([], ref) :: pieces, last, ?_, hlast⟩, ?_⟩
        · rw [forall_mem_cons]
          exact ⟨fieldFree_nil, hpieces⟩
        · rw [← hrest, ← hbody]
          simp [Body.text]

/-- A body, be it what it may, is rendered by replacing the references that it consists of. -/
theorem renderBody_eq (text : Text) : ∃ body : Body, body.text = text ∧ ∀ server,
    renderBody text server = (body.rendering server, body.reports) := by
  obtain ⟨body, rfl⟩ := exists_body text
  exact ⟨body, rfl, renderBody_text body⟩

end

end Bridgeport.Templates
