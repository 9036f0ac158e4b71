import Bridgeport.ConfigSync.SyncConfigFile
import Bridgeport.Secrets.Substitution

/-!
# Syncing again when a value changes

After a var or a secret got another value, `triggerAutoResyncForKey` syncs the config files that
mention its key: the query selects them with a `LIKE` that may select too many, and a second filter
looks for the literal placeholder in the own content and in the contents of the fragments.
-/

namespace Bridgeport.ConfigSync

open Foundation Secrets List

/-! ### The selection -/

/-- A config file with its `autoResync` flag. -/
structure ResyncFile extends ConfigFile where
  autoResync : Bool

/-- The operator `LIKE`: `%` stands for any characters, `_` for one, and letters match in both
cases. -/
def like : Text → Text → Bool
  | [], text => text.isEmpty
  | first :: pattern, text =>
    if first = '%' then text.tails.any (like pattern)
    else
      match text with
      | [] => false
      | character :: rest =>
        (first = '_' ∨ first.toLower = character.toLower) && like pattern rest

/-- The filter `contains`, which does not escape its argument. -/
def contains (pattern text : Text) : Bool :=
  like ('%' :: pattern ++ ['%']) text

/-- The filter `includes`. -/
def includes (pattern text : Text) : Bool :=
  pattern <:+: text

/-- What the query of `triggerAutoResyncForKey` selects. -/
def rawCandidates (files : List ResyncFile) (environmentId : String) (key : Text) :
    List ResyncFile :=
  files.filter fun file ↦ file.environmentId = environmentId ∧ file.autoResync ∧ ¬ file.isBinary ∧
    (contains (placeholder key) file.content ∨
      file.includedFragments.any fun fragment ↦ contains (placeholder key) fragment.content)

/-- The files that `triggerAutoResyncForKey` syncs. -/
def candidates (files : List ResyncFile) (environmentId : String) (key : Text) : List ResyncFile :=
  (rawCandidates files environmentId key).filter fun file ↦
    includes (placeholder key) file.content ||
      file.includedFragments.any fun fragment ↦ includes (placeholder key) fragment.content

variable (file : ConfigFile)

/-- A stored content of the file mentions the key. -/
def Mentions (key : Text) : Prop :=
  placeholder key <:+: file.content ∨
    ∃ fragment ∈ file.includedFragments, placeholder key <:+: fragment.content

theorem like_percent (pattern text : Text) :
    like ('%' :: pattern) text = text.tails.any (like pattern) := by
  cases text <;> rfl

variable {character : Char}

theorem like_cons_self (hcharacter : character ≠ '%') (pattern rest : Text) :
    like (character :: pattern) (character :: rest) = like pattern rest := by
  show (if character = '%' then _ else _) = _
  rw [if_neg hcharacter]
  simp

variable {pattern : Text}

theorem like_append_self (hpattern : '%' ∉ pattern) (other rest : Text) :
    like (pattern ++ other) (pattern ++ rest) = like other rest := by
  induction pattern with
  | nil => rfl
  | cons first pattern ih =>
    rw [mem_cons, not_or] at hpattern
    rw [cons_append, cons_append, like_cons_self (Ne.symm hpattern.1), ih hpattern.2]

variable {text : Text}

theorem contains_of_infix (hpattern : '%' ∉ pattern) (h : pattern <:+: text) :
    contains pattern text = true := by
  obtain ⟨before, after, htext⟩ := h
  unfold contains
  rw [cons_append, like_percent, any_eq_true]
  refine ⟨pattern ++ after, ?_, ?_⟩
  · rw [mem_tails]
    exact ⟨before, by rw [← htext, append_assoc]⟩
  · rw [like_append_self hpattern, like_percent, any_eq_true]
    exact ⟨[], (mem_tails _ _).mpr nil_suffix, rfl⟩

variable {key : Text}

theorem not_mem_placeholder (hkey : validKey key = true) (hcharacter : isKeyChar character = false)
    (hsign : character ∉ ['$', '{', '}']) : character ∉ placeholder key := by
  intro hmem
  have hall := all_eq_true.mp ((validKey_iff key).mp hkey).2
  have hcases : character ∈ ['$', '{', '}'] ∨ character ∈ key := by
    simp only [placeholder, mem_cons, mem_append, not_mem_nil, or_false] at hmem ⊢
    tauto
  rcases hcases with hchosen | hchosen
  · exact hsign hchosen
  · rw [hall character hchosen] at hcharacter
    cases hcharacter

/-- The selection, without the `LIKE`. Assumes: a valid key. -/
theorem mem_candidates_iff {files : List ResyncFile} {environmentId : String}
    (hkey : validKey key = true) {file : ResyncFile} :
    file ∈ candidates files environmentId key ↔ file ∈ files ∧ file.environmentId = environmentId ∧
      file.autoResync = true ∧ file.isBinary = false ∧ Mentions file.toConfigFile key := by
  have hcontains : ∀ text, placeholder key <:+: text → contains (placeholder key) text = true :=
    fun text ↦ contains_of_infix (not_mem_placeholder hkey (by decide) (by decide))
  unfold candidates rawCandidates includes Mentions
  simp only [mem_filter, decide_eq_true_eq, Bool.or_eq_true, any_eq_true, Bool.not_eq_true]
  constructor
  · rintro ⟨⟨hfile, henvironment, hauto, htext, -⟩, hmentions⟩
    exact ⟨hfile, henvironment, hauto, htext, hmentions⟩
  · rintro ⟨hfile, henvironment, hauto, htext, hmentions⟩
    refine ⟨⟨hfile, henvironment, hauto, htext, ?_⟩, hmentions⟩
    exact hmentions.imp (hcontains _) fun ⟨fragment, hfragment, hinfix⟩ ↦
      ⟨fragment, hfragment, hcontains _ hinfix⟩

/-! ### The placeholders of a composed content -/

def HeaderMentions (key : Text) : Prop :=
  languageSupportsHashHeaders file.language = true ∧
    ∃ fragment ∈ file.includedFragments, placeholder key <:+: fragment.name

def composedSource : Text :=
  composeFragmentedContent file.includedFragments file.content file.language

theorem infix_intercalate (hne : pattern ≠ []) (hpattern : '\n' ∉ pattern) (sections : List Text)
    (h : pattern <:+: "\n\n".toList.intercalate sections) :
    ∃ text ∈ sections, pattern <:+: text := by
  induction sections with
  | nil => exact absurd (infix_nil.mp h) hne
  | cons first sections ih =>
    cases sections with
    | nil =>
      rw [intercalate_singleton] at h
      exact ⟨first, mem_cons_self, h⟩
    | cons second sections =>
      rw [intercalate_cons_cons, append_assoc] at h
      rcases infix_append_cons hpattern h with hfirst | hrest
      · exact ⟨first, mem_cons_self, hfirst⟩
      · have hdouble : pattern <:+: ['\n'] ++ "\n\n".toList.intercalate (second :: sections) :=
          hrest
        obtain ⟨text, htext, hinfix⟩ := ih (infix_append_of_disjoint hne
          (fun character hcharacter ↦ (mem_singleton.mp hcharacter) ▸ hpattern) hdouble)
        exact ⟨text, mem_cons_of_mem _ htext, hinfix⟩

theorem infix_of_infix_header {header : Text} (hkey : validKey key = true)
    (hheader : header.all fun character ↦ decide (isKeyChar character = false) &&
      decide (character ∉ ['$', '{', '}'])) (h : placeholder key <:+: header ++ text) :
    placeholder key <:+: text := by
  refine infix_append_of_disjoint (placeholder_ne_nil key) (fun character hcharacter ↦ ?_) h
  have hcheck := all_eq_true.mp hheader character hcharacter
  rw [Bool.and_eq_true, decide_eq_true_eq, decide_eq_true_eq] at hcheck
  exact not_mem_placeholder hkey hcheck.1 hcheck.2

/-- Composing puts no placeholder together; a header can only carry one in its name. -/
theorem mentions_of_infix_composedSource (hkey : validKey key = true) (file : ConfigFile)
    (h : placeholder key <:+: composedSource file) :
    Mentions file key ∨ HeaderMentions file key := by
  unfold composedSource composeFragmentedContent at h
  split_ifs at h with hempty
  · exact .inl (.inl h)
  · obtain ⟨text, htext, hinfix⟩ := infix_intercalate (placeholder_ne_nil key)
      (not_mem_placeholder hkey (by decide) (by decide)) _ h
    rcases mem_append.mp htext with hsection | hown
    · obtain ⟨fragment, hfragment, rfl⟩ := mem_map.mp hsection
      cases hheaders : languageSupportsHashHeaders file.language with
      | false =>
        rw [hheaders, if_neg Bool.false_ne_true, nil_append] at hinfix
        exact .inl (.inr ⟨fragment, hfragment, hinfix⟩)
      | true =>
        rw [hheaders, if_pos rfl, append_assoc, append_assoc] at hinfix
        have hname := infix_of_infix_header hkey (by decide) hinfix
        have hbreak : placeholder key <:+:
            fragment.name ++ ' ' :: ("===\n".toList ++ fragment.content) := hname
        rcases infix_append_cons (not_mem_placeholder hkey (by decide) (by decide)) hbreak with
          hinname | hrest
        · exact .inr ⟨hheaders, fragment, hfragment, hinname⟩
        · exact .inl (.inr ⟨fragment, hfragment, infix_of_infix_header hkey (by decide) hrest⟩)
    · rw [mem_singleton.mp hown] at hinfix
      refine .inl (.inl ?_)
      split_ifs at hinfix with hheaders
      · exact infix_of_infix_header hkey (by decide) hinfix
      · exact hinfix

/-! ### The substitution of one key -/

/-- Where a value is stored. -/
inductive EntryKind
  | var
  | secret

def setValue (key value : Text) (entries : List Entry) : List Entry :=
  entries.map fun entry ↦ if entry.key = key then ⟨key, value⟩ else entry

theorem map_key_setValue (key value : Text) (entries : List Entry) :
    (setValue key value entries).map (·.key) = entries.map (·.key) := by
  unfold setValue
  rw [map_map]
  refine map_congr_left fun entry _ ↦ ?_
  by_cases hkey : entry.key = key
  · simp [hkey]
  · simp [hkey]

variable {entries : List Entry}

theorem forall_key_setValue {p : Text → Prop} {value : Text} (h : ∀ entry ∈ entries, p entry.key) :
    ∀ entry ∈ setValue key value entries, p entry.key := by
  intro entry hentry
  have hmem : entry.key ∈ (setValue key value entries).map (·.key) :=
    mem_map_of_mem hentry
  rw [map_key_setValue] at hmem
  obtain ⟨other, hother, hkey⟩ := mem_map.mp hmem
  exact hkey ▸ h other hother

variable (environment : Environment) (kind : EntryKind)

def patch (key value : Text) : Environment :=
  match kind with
  | .var =>
    { environment with
      vars := setValue key value environment.vars
      nodup_vars := by
        rw [map_key_setValue]
        exact environment.nodup_vars
      valid_vars := forall_key_setValue (p := fun key ↦ validKey key = true)
        environment.valid_vars }
  | .secret =>
    { environment with
      secrets := setValue key value environment.secrets
      nodup_secrets := by
        rw [map_key_setValue]
        exact environment.nodup_secrets
      valid_secrets := forall_key_setValue (p := fun key ↦ validKey key = true)
        environment.valid_secrets }

def entriesBefore (key : Text) : List Entry :=
  match kind with
  | .var => environment.vars.takeWhile (·.key ≠ key)
  | .secret => environment.vars ++ environment.secrets.takeWhile (·.key ≠ key)

/-- Patching a key that is not stored changes nothing. -/
theorem setValue_of_not_mem (value : Text) (h : key ∉ entries.map (·.key)) :
    setValue key value entries = entries := by
  unfold setValue
  refine (map_congr_left fun entry hentry ↦ ?_).trans (map_id _)
  exact if_neg fun hkey ↦ h (mem_map.mpr ⟨entry, hentry, hkey⟩)

/-- A value that meets no placeholder changes nothing. -/
theorem foldl_setValue {value : Text} (hnodup : (entries.map (·.key)).Nodup)
    (h : ¬ placeholder key <:+: (entries.takeWhile (·.key ≠ key)).foldl replaceEntry text) :
    (setValue key value entries).foldl replaceEntry text = entries.foldl replaceEntry text := by
  induction entries generalizing text with
  | nil => rfl
  | cons entry entries ih =>
    rw [map_cons, nodup_cons] at hnodup
    by_cases hkey : entry.key = key
    · rw [takeWhile_cons_of_neg (by simpa using hkey), foldl_nil] at h
      have hpatched : setValue key value (entry :: entries) = ⟨key, value⟩ :: entries := by
        show (if entry.key = key then _ else entry) :: setValue key value entries = _
        rw [if_pos hkey, setValue_of_not_mem value (hkey ▸ hnodup.1)]
      rw [hpatched, foldl_cons, foldl_cons]
      unfold replaceEntry
      rw [hkey, replaceAll_of_not_contains _ h, replaceAll_of_not_contains _ h]
    · rw [takeWhile_cons_of_pos (by simpa using hkey), foldl_cons] at h
      have hpatched : setValue key value (entry :: entries) =
          entry :: setValue key value entries := by
        unfold setValue
        rw [map_cons, if_neg hkey]
      rw [hpatched, foldl_cons, foldl_cons]
      exact ih hnodup.2 h

/-- A change of a value that meets no placeholder changes no text. -/
theorem replaceEntries_patch {environment : Environment} {kind : EntryKind} (value : Text)
    (h : ¬ placeholder key <:+: (entriesBefore environment kind key).foldl replaceEntry text) :
    replaceEntries (patch environment kind key value) text = replaceEntries environment text := by
  unfold replaceEntries
  cases kind with
  | var =>
    show environment.secrets.foldl replaceEntry
      ((setValue key value environment.vars).foldl replaceEntry text) = _
    rw [foldl_setValue environment.nodup_vars h]
  | secret =>
    rw [entriesBefore, foldl_append] at h
    exact foldl_setValue environment.nodup_secrets h

/-! ### Completeness of the selection -/

section

variable (renderTemplate : Text → Text × List String) (environment : Environment)

def renderedContent (file : ConfigFile) : Text :=
  (resolveSecretPlaceholders renderTemplate environment (composedSource file)).content

/-- The template stage puts the placeholder together. -/
def TemplateMentions (file : ConfigFile) (key : Text) : Prop :=
  ¬ placeholder key <:+: composedSource file ∧
    placeholder key <:+: (renderTemplate (composedSource file)).1

/-- The value of an entry that is substituted before the key puts the placeholder together. -/
def ValueMentions (kind : EntryKind) (file : ConfigFile) (key : Text) : Prop :=
  ∃ earlier entry later, entriesBefore environment kind key = earlier ++ entry :: later ∧
    ¬ placeholder key <:+: earlier.foldl replaceEntry (renderTemplate (composedSource file)).1 ∧
    placeholder key <:+:
      (earlier ++ [entry]).foldl replaceEntry (renderTemplate (composedSource file)).1

/-- A pattern that replacements bring into a text is brought in by one of them. -/
theorem exists_of_infix_foldl (entries : List Entry) (hbefore : ¬ placeholder key <:+: text)
    (h : placeholder key <:+: entries.foldl replaceEntry text) :
    ∃ earlier entry later, entries = earlier ++ entry :: later ∧
      ¬ placeholder key <:+: earlier.foldl replaceEntry text ∧
      placeholder key <:+: (earlier ++ [entry]).foldl replaceEntry text := by
  induction entries using List.reverseRecOn with
  | nil => exact absurd h hbefore
  | append_singleton entries entry ih =>
    by_cases hentries : placeholder key <:+: entries.foldl replaceEntry text
    · obtain ⟨earlier, first, later, hsplit, hfirst⟩ := ih hentries
      refine ⟨earlier, first, later ++ [entry], ?_, hfirst⟩
      rw [hsplit, append_assoc, cons_append]
    · exact ⟨entries, entry, [], rfl, hentries, h⟩

def stored : EntryKind → List Entry
  | .var => environment.vars
  | .secret => environment.secrets

theorem validKey_of_stored {kind : EntryKind} (h : key ∈ (stored environment kind).map (·.key)) :
    validKey key = true := by
  obtain ⟨entry, hentry, rfl⟩ := mem_map.mp h
  cases kind with
  | var => exact environment.valid_vars entry hentry
  | secret => exact environment.valid_secrets entry hentry

/-- A text file that is rendered differently after the value of a stored key has been changed is
selected for syncing, or none of its stored contents mentions the key and rendering puts the
placeholder together: in the header of a fragment, in the template stage or with the value of an
entry that is substituted before. -/
theorem mem_candidates_or_assembled (files : List ResyncFile) (environmentId : String)
    (kind : EntryKind) (key value : Text) (hstored : key ∈ (stored environment kind).map (·.key))
    {file : ResyncFile} (hfile : file ∈ files) (henvironment : file.environmentId = environmentId)
    (hauto : file.autoResync = true) (htext : file.isBinary = false)
    (hdiffers : renderedContent renderTemplate environment file.toConfigFile ≠
      renderedContent renderTemplate (patch environment kind key value) file.toConfigFile) :
    file ∈ candidates files environmentId key ∨
      ¬ Mentions file.toConfigFile key ∧ (HeaderMentions file.toConfigFile key ∨
        TemplateMentions renderTemplate file.toConfigFile key ∨
        ValueMentions renderTemplate environment kind file.toConfigFile key) := by
  have hkey := validKey_of_stored environment hstored
  by_cases hmentions : Mentions file.toConfigFile key
  · exact .inl ((mem_candidates_iff hkey).mpr ⟨hfile, henvironment, hauto, htext, hmentions⟩)
  · refine .inr ⟨hmentions, ?_⟩
    have hmet : placeholder key <:+: (entriesBefore environment kind key).foldl replaceEntry
        (renderTemplate (composedSource file.toConfigFile)).1 := by
      by_contra hnot
      exact hdiffers (replaceEntries_patch value hnot).symm
    by_cases htemplate : placeholder key <:+: (renderTemplate (composedSource file.toConfigFile)).1
    · by_cases hcomposed : placeholder key <:+: composedSource file.toConfigFile
      · exact .inl ((mentions_of_infix_composedSource hkey _ hcomposed).resolve_left hmentions)
      · exact .inr (.inl ⟨hcomposed, htemplate⟩)
    · exact .inr (.inr (exists_of_infix_foldl _ htemplate hmet))

end

/-- A text file with the content `${A}`. -/
def indirectFile : ResyncFile where
  id := "c1"
  name := "app.env"
  environmentId := "production"
  content := "${A}".toList
  isBinary := false
  language := none
  includedFragments := []
  services := []
  autoResync := true

/-- The var `A` has the value `${B}`. -/
def indirectVars : Environment where
  vars := [⟨['A'], "${B}".toList⟩, ⟨['B'], ['1']⟩]
  secrets := []
  nodup_vars := by decide
  nodup_secrets := nodup_nil
  valid_vars := by decide
  valid_secrets := valid_nil

/-- A file that depends on a var through the value of another one is not selected. -/
theorem not_mem_candidates_indirect :
    renderedContent (fun content ↦ (content, [])) indirectVars indirectFile.toConfigFile ≠
      renderedContent (fun content ↦ (content, [])) (patch indirectVars .var ['B'] ['2'])
        indirectFile.toConfigFile ∧
    indirectFile.environmentId = "production" ∧ indirectFile.autoResync = true ∧
    indirectFile.isBinary = false ∧
    candidates [indirectFile] "production" ['B'] = [] := by
  refine ⟨by decide, rfl, rfl, rfl, ?_⟩
  have hkey : validKey ['B'] = true := by decide
  refine eq_nil_iff_forall_not_mem.mpr fun file hfile ↦ ?_
  obtain ⟨hmem, -, -, -, hmentions⟩ := (mem_candidates_iff hkey).mp hfile
  rw [mem_singleton.mp hmem] at hmentions
  have hnone : ¬ Mentions indirectFile.toConfigFile ['B'] := by
    rintro (hcontent | ⟨fragment, hfragment, -⟩)
    · exact absurd hcontent (by decide)
    · exact absurd hfragment not_mem_nil
  exact hnone hmentions

/-- A file that mentions a var is selected. -/
theorem mem_candidates_or_assembled_direct :
    indirectFile ∈ candidates [indirectFile] "production" ['A'] ∨
      ¬ Mentions indirectFile.toConfigFile ['A'] ∧ (HeaderMentions indirectFile.toConfigFile ['A'] ∨
        TemplateMentions (fun content ↦ (content, [])) indirectFile.toConfigFile ['A'] ∨
        ValueMentions (fun content ↦ (content, [])) indirectVars .var indirectFile.toConfigFile
          ['A']) :=
  mem_candidates_or_assembled (fun content ↦ (content, [])) indirectVars [indirectFile]
    "production" .var ['A'] ['3'] (by decide) mem_cons_self rfl rfl rfl (by decide)

end Bridgeport.ConfigSync
