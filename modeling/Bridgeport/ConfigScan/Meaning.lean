import Bridgeport.ConfigScan.Parsing
import Bridgeport.Secrets.Substitution

/-!
# The meaning of a substitution

A substitution preserves the meaning of a config file (`MeaningPreserved`) if and only if the
scanner and the rewriter read its lines alike (`meaningPreserved_iff`). They do not where a value is
followed by a carriage return, as on every line of a file with CRLF endings, and where a right-hand
side is a lone quotation mark.
-/

namespace Bridgeport.ConfigScan

open Foundation Secrets ConfigSync List

/-- As many replacements as the scanner has reported pairs; with the value back in place of the
placeholder, in the pairs or in the text, the pairs are the same; and the other lines are
unchanged. -/
structure MeaningPreserved (content value key : Text) : Prop where
  replacements : (substituteFullValue content value (placeholder key)).replacements =
    (extractKeyValues content).countP (·.value = value)
  pairs : (extractKeyValues (substituteFullValue content value (placeholder key)).newContent).map
    (fun pair ↦ { pair with value := replaceAll (placeholder key) value pair.value }) =
      extractKeyValues content
  text : extractKeyValues (replaceAll (placeholder key) value
    (substituteFullValue content value (placeholder key)).newContent) = extractKeyValues content
  unchanged : ∀ (index : ℕ) (rawLine : Text), (linesOf content)[index]? = some rawLine →
    (∀ pair ∈ extractLine rawLine, pair.value ≠ value) →
    (linesOf (substituteFullValue content value (placeholder key)).newContent)[index]? = some rawLine

variable (text : Text)

/-- The text is a single quotation mark. -/
def IsLoneQuote : Prop :=
  text = ['"'] ∨ text = ['\'']

/-- The line is no trap for the substitution of a value: if the value is its right-hand side,
without the white space and the quotation marks around it, then no line terminator is in the white
space at its end; and if the value is a lone quotation mark, then it is not the right-hand side as
it stands. -/
structure ReadAlike (value : Text) (line : KeyLine) : Prop where
  terminators : unquote (trim line.rhs) = value → reachesEnd (line.rhs.rdropWhile isTrimmed) →
    reachesEnd line.rhs
  quotes : IsLoneQuote value → reachesEnd line.rhs → trim line.rhs ≠ value

section

variable {text value key : Text}

/-- The marks that the rewriter takes off belong to a quoted text. -/
theorem quoteOf_cases (text : Text) : quoteOf text = [] ∨
    ∃ quote, (quote = '"' ∨ quote = '\'') ∧ quoteOf text = [quote] ∧
      text = quote :: inside text ++ [quote] := by
  unfold quoteOf
  split_ifs with h
  · obtain ⟨hlength, hquoted⟩ := h
    obtain ⟨first, rest, rfl⟩ := exists_cons_of_ne_nil
      (ne_nil_of_length_pos (lt_of_lt_of_le Nat.zero_lt_two hlength))
    have hrest : rest ≠ [] := ne_nil_of_length_pos (Nat.lt_of_succ_lt_succ hlength)
    have hsplit : first :: rest = first :: inside (first :: rest) ++ [rest.getLast hrest] := by
      rw [cons_append]
      exact congrArg _ (dropLast_append_getLast hrest).symm
    have hlast : (first :: rest).getLast? = some (rest.getLast hrest) := by
      rw [List.getLast?_eq_getLast_of_ne_nil (cons_ne_nil _ _), getLast_cons hrest]
    simp only [isQuoted, List.head?_cons, hlast, Option.some.injEq, Bool.decide_or, Bool.or_eq_true,
      decide_eq_true_eq] at hquoted
    right
    rcases hquoted with ⟨rfl, hsame⟩ | ⟨rfl, hsame⟩
    · exact ⟨'"', .inl rfl, rfl, by rw [hsame] at hsplit; exact hsplit⟩
    · exact ⟨'\'', .inr rfl, rfl, by rw [hsame] at hsplit; exact hsplit⟩
  · exact .inl rfl

/-- The marks and the value between them make up the text. -/
theorem quoteOf_append_innerOf (text : Text) :
    quoteOf text ++ innerOf text ++ quoteOf text = text := by
  unfold innerOf
  rcases quoteOf_cases text with hnone | ⟨quote, -, hquote, hsplit⟩
  · simp [hnone]
  · rw [hquote, if_pos (cons_ne_nil _ _)]
    exact hsplit.symm

/-- The scanner and the rewriter take the same marks off, unless the text is a lone one. -/
theorem innerOf_eq_unquote (h : ¬ IsLoneQuote text) : innerOf text = unquote text := by
  have hlength : isQuoted text → text.length ≥ 2 := by
    intro hquoted
    by_contra hshort
    match text with
    | [] => exact absurd hquoted (by decide)
    | [only] =>
      simp only [isQuoted, List.head?_cons, List.getLast?_singleton, Option.some.injEq, and_self,
        Bool.decide_or, Bool.or_eq_true, decide_eq_true_eq] at hquoted
      exact h (hquoted.imp (congrArg ([·])) (congrArg ([·])))
    | _ :: _ :: _ => exact hshort (by simp)
  unfold innerOf quoteOf unquote
  by_cases hquoted : isQuoted text
  · have hne : text ≠ [] := ne_nil_of_length_pos (by have := hlength hquoted; omega)
    simp [hquoted, hlength hquoted, hne]
  · simp [hquoted]

/-- A lone mark is an empty value for the scanner, and a value for the rewriter. -/
theorem IsLoneQuote.unquote_eq (h : IsLoneQuote text) : unquote text = [] ∧
    innerOf text = text := by
  rcases h with rfl | rfl <;> decide

end

/-! ### One line -/

section

variable {rawLine new value key : Text} {line : KeyLine}

theorem reachesEnd_of_subset {text other : Text} (h : reachesEnd text) (hsubset : other ⊆ text) :
    reachesEnd other := by
  rw [reachesEnd, all_eq_true] at h ⊢
  exact fun character hcharacter ↦ h character (hsubset hcharacter)

theorem trim_subset : trim text ⊆ text :=
  List.Subset.trans ( rdropWhile_prefix isTrimmed _).subset (dropWhile_suffix isTrimmed).subset

theorem rewriteLine_eq_some_iff {placeholder : Text} :
    rewriteLine rawLine value placeholder = some new ↔
      ∃ line, keyLine rawLine = some line ∧ reachesEnd line.rhs ∧ innerOf (trim line.rhs) = value ∧
        line.before ++ (quoteOf (trim line.rhs) ++ placeholder ++ quoteOf (trim line.rhs)) =
          new := by
  rw [rewriteLine_eq, Option.bind_eq_some_iff]
  refine exists_congr fun line ↦ and_congr_right fun _ ↦ ?_
  unfold rewriteRhs
  by_cases hend : reachesEnd line.rhs
  · by_cases hinner : innerOf (trim line.rhs) = value
    · simp [hend, hinner]
    · simp [hend, hinner]
  · simp [hend]

variable {pair : KeyValue}

/-- What the scanner reports about a line. -/
theorem extractLine_eq_some_iff : extractLine rawLine = some pair ↔
    ∃ line, keyLine rawLine = some line ∧ reachesEnd (line.rhs.rdropWhile isTrimmed) ∧
      unquote (trim line.rhs) ≠ [] ∧ ⟨line.key, unquote (trim line.rhs)⟩ = pair := by
  rw [extractLine_eq, Option.bind_eq_some_iff]
  refine exists_congr fun line ↦ and_congr_right fun _ ↦ ?_
  unfold pairOf
  by_cases hend : reachesEnd (line.rhs.rdropWhile isTrimmed)
  · by_cases hnil : unquote (trim line.rhs) = []
    · simp [hend, hnil]
    · simp [hend, hnil]
  · simp [hend]

/-- The scanner on a trimmed right-hand side behind the key of a line. -/
theorem extractLine_append (h : keyLine rawLine = some line) {rhs : Text}
    (hhead : ∀ first ∈ rhs.head?, ¬ isTrimmed first)
    (hlast : ∀ last ∈ rhs.getLast?, ¬ isTrimmed last)
    (hend : reachesEnd rhs) (hvalue : unquote rhs ≠ []) :
    extractLine (line.before ++ rhs) = some ⟨line.key, unquote rhs⟩ := by
  have htrim : trim rhs = rhs := trimBoth_eq_self hhead hlast
  refine extractLine_eq_some_iff.mpr ⟨_, keyLine_append h hhead, ?_, ?_, ?_⟩
  · exact reachesEnd_of_subset hend ( rdropWhile_prefix isTrimmed rhs).subset
  · rw [htrim]
    exact hvalue
  · rw [htrim]

theorem ends_trim : (∀ first ∈ (trim text).head?, ¬ isTrimmed first) ∧
    ∀ last ∈ (trim text).getLast?, ¬ isTrimmed last := by
  constructor
  · intro first hfirst
    have hnot := List.head?_dropWhile_not isTrimmed (text.rdropWhile isTrimmed)
    rw [dropWhile_rdropWhile] at hnot
    rw [trim, trimBoth] at hfirst
    rw [hfirst] at hnot
    simpa using hnot
  · intro last hlast
    have hne : trim text ≠ [] := by
      rintro hnil
      rw [hnil] at hlast
      cases hlast
    have hnot := rdropWhile_last_not isTrimmed (text.dropWhile isTrimmed) hne
    rw [List.getLast?_eq_getLast_of_ne_nil hne] at hlast
    exact Option.some.inj hlast ▸ hnot

/-- What stands before a right-hand side has no dollar sign. -/
theorem dollar_notMem_before (h : keyLine rawLine = some line) : '$' ∉ line.before := by
  have hblank : ∀ text : Text, (∀ character ∈ text, isTrimmed character) → '$' ∉ text :=
    fun text hall hdollar ↦ absurd (hall _ hdollar) (by decide)
  have hindent := hblank (rawLine.takeWhile isTrimmed) fun _ ↦ mem_takeWhile_imp
  have hname : ∀ text : Text, (∀ character ∈ text, isNameChar character) → '$' ∉ text :=
    fun text hall hdollar ↦ absurd (hall _ hdollar) (by decide)
  rcases keyLine_eq_some_iff.mp h with ⟨henv, hbefore⟩ | ⟨sep, hyaml, hbefore⟩
  · obtain ⟨-, hkey, -⟩ := readEnv_eq_some_iff.mp henv
    rw [hbefore]
    simp [hindent, hname _ hkey]
  · obtain ⟨⟨-, hkey, -⟩, -, hsep, -⟩ := readYaml_eq_some_iff.mp hyaml
    have hkeyName := hname line.key fun character hcharacter ↦
      isNameChar_of_isKeyChar (hkey character hcharacter)
    rw [hbefore]
    simp [hindent, hkeyName, hblank _ hsep]

/-! ### A rewritten line -/

theorem reachesEnd_placeholder (hkey : validKey key) : reachesEnd (placeholder key) := by
  have hall := ((validKey_iff key).mp hkey).2
  have hchars : ∀ character ∈ key, isTerminator character = false := by
    intro character hcharacter
    have hrange := toNat_of_isNameChar
      (isNameChar_of_isKeyChar (all_eq_true.mp hall character hcharacter))
    simp only [isTerminator, mem_cons, not_mem_nil, or_false, decide_eq_false_iff_not]
    omega
  have hkeyEnd : key.all (!isTerminator ·) := by
    rw [all_eq_true]
    intro character hcharacter
    rw [hchars character hcharacter]
    rfl
  simp only [reachesEnd, placeholder, all_cons, all_append, hkeyEnd]
  decide

/-- The placeholder between marks is a trimmed right-hand side with the placeholder as its value. -/
theorem placeholder_between (hkey : validKey key) (text : Text) :
    let rhs := quoteOf text ++ placeholder key ++ quoteOf text
    (∀ first ∈ rhs.head?, ¬ isTrimmed first) ∧ (∀ last ∈ rhs.getLast?, ¬ isTrimmed last) ∧
      reachesEnd rhs ∧ unquote rhs = placeholder key := by
  have hend := reachesEnd_placeholder hkey
  have hlast : (placeholder key).getLast? = some '}' := List.getLast?_concat
  rcases quoteOf_cases text with hnone | ⟨quote, hmark, hquote, -⟩
  · simp only [hnone, nil_append, append_nil]
    refine ⟨?_, ?_, hend, ?_⟩
    · rintro first hfirst
      obtain rfl : '$' = first := Option.some.inj hfirst
      decide
    · rintro last hlastMem
      obtain rfl : '}' = last := Option.some.inj (hlast.symm.trans hlastMem)
      decide
    · simp [unquote, isQuoted, placeholder]
  · have hquoted : isQuoted ([quote] ++ placeholder key ++ [quote]) := by
      rw [isQuoted, List.getLast?_concat]
      rcases hmark with rfl | rfl <;> simp
    have hplain : ¬ isTrimmed quote ∧ ¬ isTerminator quote := by
      rcases hmark with rfl | rfl <;> decide
    simp only [hquote]
    refine ⟨?_, ?_, ?_, ?_⟩
    · rintro first hfirst
      obtain rfl : quote = first := Option.some.inj hfirst
      exact hplain.1
    · rintro last hlastMem
      rw [List.getLast?_concat] at hlastMem
      exact Option.some.inj hlastMem ▸ hplain.1
    · simp only [reachesEnd, all_append, all_cons, all_nil, hplain.2]
      simpa [reachesEnd] using hend
    · rw [unquote, if_pos hquoted, inside]
      simp

theorem dollar_notMem_quoteOf : '$' ∉ quoteOf text := by
  rcases quoteOf_cases text with hnone | ⟨quote, rfl | rfl, hquote, -⟩
  · simp [hnone]
  · simp [hquote]
  · simp [hquote]

/-- What the scanner reports about a rewritten line, and what it holds with the value put back. -/
theorem rewritten_line (hkey : validKey key)
    (hnew : rewriteLine rawLine value (placeholder key) = some new) :
    ∃ line, keyLine rawLine = some line ∧ reachesEnd line.rhs ∧ innerOf (trim line.rhs) = value ∧
      extractLine new = some ⟨line.key, placeholder key⟩ ∧
      replaceAll (placeholder key) value new = line.before ++ trim line.rhs := by
  obtain ⟨line, hline, hend, hinner, rfl⟩ := rewriteLine_eq_some_iff.mp hnew
  obtain ⟨hhead, hlast, hreaches, hunquote⟩ := placeholder_between hkey (trim line.rhs)
  refine ⟨line, hline, hend, hinner, ?_, ?_⟩
  · rw [extractLine_append hline hhead hlast hreaches, hunquote]
    rw [hunquote]
    exact placeholder_ne_nil key
  · have hbefore : '$' ∉ line.before ++ quoteOf (trim line.rhs) := by
      rw [mem_append, not_or]
      exact ⟨dollar_notMem_before hline, dollar_notMem_quoteOf _⟩
    have hmark : ¬ placeholder key <:+: quoteOf (trim line.rhs) := fun hcontains ↦
      dollar_notMem_quoteOf _ (hcontains.subset mem_cons_self)
    have hsplit : line.before ++ (quoteOf (trim line.rhs) ++ placeholder key ++
        quoteOf (trim line.rhs)) = (line.before ++ quoteOf (trim line.rhs)) ++
          (placeholder key ++ quoteOf (trim line.rhs)) := by
      simp
    rw [hsplit, replaceAll_append_of_within_eq_zero _
      (occurrencesWithin_eq_zero_of_dollar_not_mem key _ hbefore),
      replaceAll_pattern_append (placeholder_ne_nil key), replaceAll_of_not_contains _ hmark,
        ← hinner,
      append_assoc, ← append_assoc (quoteOf _), quoteOf_append_innerOf]

theorem value_contained (h : extractLine rawLine = some pair) : pair.value <:+: rawLine := by
  obtain ⟨line, hline, -, -, rfl⟩ := extractLine_eq_some_iff.mp h
  have hunquote : unquote (trim line.rhs) <:+: trim line.rhs := by
    unfold unquote
    split_ifs
    · exact ( dropLast_prefix _).isInfix.trans (tail_suffix _).isInfix
    · exact infix_rfl
  have htrim : trim line.rhs <:+: line.rhs :=
    ( rdropWhile_prefix isTrimmed _).isInfix.trans (dropWhile_suffix isTrimmed).isInfix
  rw [← append_of_keyLine hline]
  exact (hunquote.trans htrim).trans (suffix_append _ _).isInfix

/-- The two readers on a line that is no trap. -/
structure LineRead (value key rawLine : Text) : Prop where
  rewritten : (rewriteLine rawLine value (placeholder key)).isSome ↔
    ∃ pair, extractLine rawLine = some pair ∧ pair.value = value
  pair : (extractLine ((rewriteLine rawLine value (placeholder key)).getD rawLine)).map
    (fun pair ↦ { pair with value := replaceAll (placeholder key) value pair.value }) =
      extractLine rawLine
  text : extractLine (replaceAll (placeholder key) value
    ((rewriteLine rawLine value (placeholder key)).getD rawLine)) = extractLine rawLine
  subset : replaceAll (placeholder key) value
    ((rewriteLine rawLine value (placeholder key)).getD rawLine) ⊆ rawLine

theorem lineRead (hvalue : value ≠ []) (hkey : validKey key)
    (hfresh : ¬ placeholder key <:+: rawLine)
    (halike : ∀ line, keyLine rawLine = some line → ReadAlike value line) :
    LineRead value key rawLine := by
  cases hnew : rewriteLine rawLine value (placeholder key) with
  | some new =>
    obtain ⟨line, hline, hend, hinner, hextract, hback⟩ := rewritten_line hkey hnew
    have hlone : ¬ IsLoneQuote (trim line.rhs) := by
      intro hlone
      have hsame : trim line.rhs = value := hlone.unquote_eq.2.symm.trans hinner
      exact (halike line hline).quotes (hsame ▸ hlone) hend hsame
    have hunquote : unquote (trim line.rhs) = value := (innerOf_eq_unquote hlone).symm.trans hinner
    have hends := ends_trim line.rhs
    have hpair : extractLine rawLine = some ⟨line.key, value⟩ := by
      refine extractLine_eq_some_iff.mpr ⟨line, hline, ?_, ?_, ?_⟩
      · exact reachesEnd_of_subset hend ( rdropWhile_prefix isTrimmed _).subset
      · rw [hunquote]
        exact hvalue
      · rw [hunquote]
    refine ⟨iff_of_true (by rw [hnew]; rfl) ⟨_, hpair, rfl⟩, ?_, ?_, ?_⟩
    · have hself : replaceAll (placeholder key) value (placeholder key) = value := by
        have happend := replaceAll_pattern_append (placeholder_ne_nil key) value []
        simpa using happend
      rw [hnew, Option.getD_some, hextract, hpair]
      simp [hself]
    · rw [hnew, Option.getD_some, hback, hpair,
        extractLine_append hline hends.1 hends.2 (reachesEnd_of_subset hend (trim_subset _)),
          hunquote]
      rw [hunquote]
      exact hvalue
    · rw [hnew, Option.getD_some, hback]
      intro character hcharacter
      rw [← append_of_keyLine hline, mem_append]
      exact (mem_append.mp hcharacter).imp id fun hmem ↦ trim_subset _ hmem
  | none =>
    refine ⟨iff_of_false (by simp [hnew]) ?_, ?_, ?_, ?_⟩
    · rintro ⟨pair, hpair, hsame⟩
      obtain ⟨line, hline, hend, hne, rfl⟩ := extractLine_eq_some_iff.mp hpair
      have hreaches := (halike line hline).terminators hsame hend
      have hlone : ¬ IsLoneQuote (trim line.rhs) := fun hlone ↦ hne hlone.unquote_eq.1
      have hsome : rewriteLine rawLine value (placeholder key) = some _ :=
        rewriteLine_eq_some_iff.mpr
          ⟨line, hline, hreaches, (innerOf_eq_unquote hlone).trans hsame, rfl⟩
      nomatch hnew.symm.trans hsome
    · rw [hnew, Option.getD_none]
      cases hpair : extractLine rawLine with
      | none => rfl
      | some pair =>
        have hnot : ¬ placeholder key <:+: pair.value := fun hcontains ↦
          hfresh (hcontains.trans (value_contained hpair))
        simp [replaceAll_of_not_contains value hnot]
    · rw [hnew, Option.getD_none, replaceAll_of_not_contains value hfresh]
    · rw [hnew, Option.getD_none, replaceAll_of_not_contains value hfresh]
      exact List.Subset.refl _

theorem newline_notMem_rewritten (hkey : validKey key) (hline : '\n' ∉ rawLine)
    (hnew : rewriteLine rawLine value (placeholder key) = some new) : '\n' ∉ new := by
  obtain ⟨line, hkeyLine, -, -, rfl⟩ := rewriteLine_eq_some_iff.mp hnew
  obtain ⟨-, -, hend, -⟩ := placeholder_between hkey (trim line.rhs)
  have hbefore : '\n' ∉ line.before := by
    rw [← append_of_keyLine hkeyLine, mem_append, not_or] at hline
    exact hline.1
  rw [mem_append, not_or]
  refine ⟨hbefore, fun hmem ↦ ?_⟩
  have hnot := all_eq_true.mp hend _ hmem
  exact absurd hnot (by decide)

end

/-! ### A whole text -/

section

variable {content value key : Text}

def newLine (value key rawLine : Text) : Text :=
  (rewriteLine rawLine value (placeholder key)).getD rawLine

theorem linesOf_newContent (hkey : validKey key) :
    linesOf (substituteFullValue content value (placeholder key)).newContent =
      (linesOf content).map (newLine value key) := by
  refine splitOn_intercalate_map content fun rawLine hrawLine ↦ ?_
  have hplain : '\n' ∉ rawLine := notMem_of_mem_splitOn rawLine hrawLine
  cases hnew : rewriteLine rawLine value (placeholder key) with
  | some new => exact newline_notMem_rewritten hkey hplain hnew
  | none => exact hplain

theorem linesOf_replaceAll (hkey : validKey key)
    (hread : ∀ rawLine ∈ linesOf content, LineRead value key rawLine) :
    linesOf (replaceAll (placeholder key) value
      (substituteFullValue content value (placeholder key)).newContent) =
        (linesOf content).map fun rawLine ↦
          replaceAll (placeholder key) value (newLine value key rawLine) := by
  have hnewline : '\n' ∉ placeholder key := fun hmem ↦
    absurd (all_eq_true.mp (reachesEnd_placeholder hkey) _ hmem) (by decide)
  have hjoined : replaceAll (placeholder key) value
      (substituteFullValue content value (placeholder key)).newContent =
        ['\n'].intercalate ((linesOf content).map fun rawLine ↦
          replaceAll (placeholder key) value (newLine value key rawLine)) := by
    rw [substituteFullValue, replaceAll_intercalate (placeholder_ne_nil key) value hnewline,
      map_map]
    rfl
  rw [hjoined]
  refine splitOn_intercalate_map content fun rawLine hrawLine hmem ↦ ?_
  exact notMem_of_mem_splitOn rawLine hrawLine ((hread rawLine hrawLine).subset hmem)

theorem replacements_eq (content value placeholder : Text) :
    (substituteFullValue content value placeholder).replacements =
      (linesOf content).countP fun rawLine ↦ (rewriteLine rawLine value placeholder).isSome := by
  rw [substituteFullValue, countP_map]
  rfl

theorem countP_extractKeyValues (content value : Text) :
    (extractKeyValues content).countP (·.value = value) =
      (linesOf content).countP fun rawLine ↦ (extractLine rawLine).any (·.value = value) := by
  rw [extractKeyValues, countP_filterMap]
  refine countP_congr fun rawLine _ ↦ ?_
  cases extractLine rawLine <;> rfl

theorem any_extractLine_iff {rawLine : Text} : (extractLine rawLine).any (·.value = value) ↔
    ∃ pair, extractLine rawLine = some pair ∧ pair.value = value := by
  cases extractLine rawLine <;> simp

/-- Of two predicates that hold as often, the one that implies the other is implied by it. -/
theorem imp_of_countP_eq {α : Type*} {p q : α → Bool} {l : List α} (himp : ∀ x ∈ l, p x → q x)
    (hcount : l.countP p = l.countP q) : ∀ x ∈ l, q x → p x := by
  have hfilter : l.filter p = (l.filter q).filter p := by
    rw [filter_filter]
    exact filter_congr fun x hx ↦ by
      cases hp : p x with
      | true => simp [himp x hx hp]
      | false => rfl
  have hsame : l.filter p = l.filter q := by
    rw [countP_eq_length_filter, countP_eq_length_filter] at hcount
    rw [hfilter] at hcount ⊢
    exact filter_sublist.eq_of_length hcount
  intro x hx hq
  have hmem : x ∈ l.filter p := hsame ▸ mem_filter.mpr ⟨hx, hq⟩
  exact (mem_filter.mp hmem).2

theorem meaningPreserved_of_readAlike (hvalue : value ≠ []) (hkey : validKey key)
    (hfresh : ¬ placeholder key <:+: content)
    (halike : ∀ rawLine ∈ linesOf content, ∀ line, keyLine rawLine = some line →
      ReadAlike value line) : MeaningPreserved content value key := by
  have hread : ∀ rawLine ∈ linesOf content, LineRead value key rawLine := fun rawLine hrawLine ↦
    lineRead hvalue hkey (fun hcontains ↦ hfresh (hcontains.trans (infix_of_mem_splitOn hrawLine)))
      (halike rawLine hrawLine)
  refine ⟨?_, ?_, ?_, ?_⟩
  · rw [replacements_eq, countP_extractKeyValues]
    refine countP_congr fun rawLine hrawLine ↦ ?_
    rw [any_extractLine_iff]
    exact (hread rawLine hrawLine).rewritten
  · rw [extractKeyValues, extractKeyValues, linesOf_newContent hkey, map_filterMap, filterMap_map]
    exact filterMap_congr fun rawLine hrawLine ↦ (hread rawLine hrawLine).pair
  · rw [extractKeyValues, extractKeyValues, linesOf_replaceAll hkey hread, filterMap_map]
    exact filterMap_congr fun rawLine hrawLine ↦ (hread rawLine hrawLine).text
  · intro index rawLine hrawLine hother
    rw [linesOf_newContent hkey, List.getElem?_map, hrawLine, Option.map_some, newLine]
    have hnone : ¬ (rewriteLine rawLine value (placeholder key)).isSome := by
      rw [(hread rawLine (mem_of_getElem? hrawLine)).rewritten]
      rintro ⟨pair, hpair, hsame⟩
      exact hother pair hpair hsame
    rw [Option.not_isSome_iff_eq_none.mp hnone, Option.getD_none]

/-- A line on which a lone quotation mark is the value is rewritten, and the scanner does not report
it. -/
theorem trim_ne_of_unchanged (hkey : validKey key) (hfresh : ¬ placeholder key <:+: content)
    (hmeaning : MeaningPreserved content value key) {rawLine : Text}
    (hrawLine : rawLine ∈ linesOf content) {line : KeyLine} (hline : keyLine rawLine = some line)
    (hlone : IsLoneQuote value) (hend : reachesEnd line.rhs) : trim line.rhs ≠ value := by
  rintro rfl
  have hnone : extractLine rawLine = none := by
    cases hpair : extractLine rawLine with
    | none => rfl
    | some pair =>
      obtain ⟨other, hother, -, hne, -⟩ := extractLine_eq_some_iff.mp hpair
      obtain rfl : line = other := Option.some.inj (hline.symm.trans hother)
      exact absurd hlone.unquote_eq.1 hne
  have hnew : rewriteLine rawLine (trim line.rhs) (placeholder key) = some _ :=
    rewriteLine_eq_some_iff.mpr ⟨line, hline, hend, hlone.unquote_eq.2, rfl⟩
  obtain ⟨index, hindex⟩ := mem_iff_getElem?.mp hrawLine
  have hsame := hmeaning.unchanged index rawLine hindex (by simp [hnone])
  rw [linesOf_newContent hkey, List.getElem?_map, hindex, Option.map_some, newLine, hnew,
    Option.getD_some, Option.some.injEq] at hsame
  have hplaceholder : placeholder key <:+: rawLine := by
    rw [← hsame]
    exact ((suffix_append _ _).isInfix.trans (prefix_append _ _).isInfix).trans
      (suffix_append _ _).isInfix
  exact hfresh (hplaceholder.trans (infix_of_mem_splitOn hrawLine))

/-- The substitution of a reported value by a fresh placeholder preserves the meaning of the content
exactly if no line with a key is a trap for it. -/
theorem meaningPreserved_iff (hvalue : ∃ pair ∈ extractKeyValues content, pair.value = value)
    (hkey : validKey key) (hfresh : ¬ placeholder key <:+: content) :
    MeaningPreserved content value key ↔
      ∀ rawLine ∈ linesOf content, ∀ line, keyLine rawLine = some line → ReadAlike value line := by
  have hne : value ≠ [] := by
    obtain ⟨pair, hpair, rfl⟩ := hvalue
    obtain ⟨rawLine, -, hextract⟩ := mem_filterMap.mp hpair
    obtain ⟨line, -, -, hne, rfl⟩ := extractLine_eq_some_iff.mp hextract
    exact hne
  refine ⟨fun hmeaning ↦ ?_, meaningPreserved_of_readAlike hne hkey hfresh⟩
  have hquotes : ∀ rawLine ∈ linesOf content, ∀ line, keyLine rawLine = some line →
      IsLoneQuote value → reachesEnd line.rhs → trim line.rhs ≠ value :=
    fun rawLine hrawLine line hline ↦ trim_ne_of_unchanged hkey hfresh hmeaning hrawLine hline
  -- a line that is rewritten is reported: as the counts agree, the reported lines are rewritten
  have hreported : ∀ rawLine ∈ linesOf content,
      (rewriteLine rawLine value (placeholder key)).isSome →
        (extractLine rawLine).any (·.value = value) := by
    intro rawLine hrawLine hsome
    obtain ⟨new, hnew⟩ := Option.isSome_iff_exists.mp hsome
    obtain ⟨line, hline, hend, hinner, -⟩ := rewriteLine_eq_some_iff.mp hnew
    have hlone : ¬ IsLoneQuote (trim line.rhs) := by
      intro hlone
      have hsame : trim line.rhs = value := hlone.unquote_eq.2.symm.trans hinner
      exact hquotes rawLine hrawLine line hline (hsame ▸ hlone) hend hsame
    have hunquote : unquote (trim line.rhs) = value := (innerOf_eq_unquote hlone).symm.trans hinner
    refine any_extractLine_iff.mpr ⟨_, extractLine_eq_some_iff.mpr ⟨line, hline, ?_, ?_, rfl⟩, hunquote⟩
    · exact reachesEnd_of_subset hend ( rdropWhile_prefix isTrimmed _).subset
    · rw [hunquote]
      exact hne
  have hcount := hmeaning.replacements
  rw [replacements_eq, countP_extractKeyValues] at hcount
  intro rawLine hrawLine line hline
  refine ⟨fun hunquote hend ↦ ?_, hquotes rawLine hrawLine line hline⟩
  have hany : (extractLine rawLine).any (·.value = value) := by
    refine any_extractLine_iff.mpr
      ⟨_, extractLine_eq_some_iff.mpr ⟨line, hline, hend, ?_, rfl⟩, hunquote⟩
    rw [hunquote]
    exact hne
  have hsome := imp_of_countP_eq hreported hcount rawLine hrawLine hany
  obtain ⟨new, hnew⟩ := Option.isSome_iff_exists.mp hsome
  obtain ⟨other, hother, hreaches, -⟩ := rewriteLine_eq_some_iff.mp hnew
  obtain rfl : line = other := Option.some.inj (hline.symm.trans hother)
  exact hreaches

/-- A file with two lines of one value, once plain and once quoted. -/
theorem meaningPreserved_iff_two_forms :
    MeaningPreserved "HOST=db1\nPORT: 'db1'".toList "db1".toList "DB_HOST".toList ↔
      ∀ rawLine ∈ linesOf "HOST=db1\nPORT: 'db1'".toList, ∀ line, keyLine rawLine = some line →
        ReadAlike "db1".toList line :=
  meaningPreserved_iff ⟨⟨"HOST".toList, "db1".toList⟩, by decide, rfl⟩ (by decide) (by decide)

/-- In a file with CRLF endings the value is reported, and no line is rewritten. -/
theorem not_meaningPreserved : ¬ ∀ content value key : Text,
    (∃ pair ∈ extractKeyValues content, pair.value = value) → validKey key →
      ¬ placeholder key <:+: content → MeaningPreserved content value key := by
  intro h
  have hmeaning := h "HOST=db1\r\nPORT=5432".toList "db1".toList "DB_HOST".toList
    ⟨⟨"HOST".toList, "db1".toList⟩, by decide, rfl⟩ (by decide) (by decide)
  exact absurd hmeaning.replacements (by decide)

end

end Bridgeport.ConfigScan
