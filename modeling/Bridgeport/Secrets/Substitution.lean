import Bridgeport.Secrets.Placeholders
import Mathlib.Data.List.Count
import Mathlib.Data.List.Nodup
import Mathlib.Data.List.Perm.Basic

/-!
# Sequential against simultaneous substitution

The substitution loops rewrite the whole text once per key. A rewriting for one key agrees with the
simultaneous substitution as long as the placeholder occurs only where the content refers to the
key: `replaceEntry_substitute` is this step, on the pieces of the content, and
`foldl_replaceEntry` carries it through the loops.
-/

namespace Bridgeport.Secrets

open Foundation List Option

/-! ### Reading placeholders -/

theorem validKey_iff (key : Text) :
    validKey key = true ↔ key.head?.any isKeyStart = true ∧ key.all isKeyChar = true := by
  rw [validKey, Bool.and_eq_true]

theorem closing_not_isKeyChar : isKeyChar '}' = false := by decide

variable {key text : Text}

theorem exists_of_readPlaceholder {isStart : Char → Bool}
    (h : readPlaceholder isStart text = some key) :
    key.head?.any isStart = true ∧ key.all isKeyChar = true ∧
      ∃ rest, text = placeholder key ++ rest := by
  unfold readPlaceholder at h
  split at h
  · next rest =>
    dsimp only at h
    split_ifs at h with hread
    rw [← some.inj h]
    obtain ⟨tail, htail⟩ := List.head?_eq_some_iff.mp hread.2
    have hsplit : rest = rest.takeWhile isKeyChar ++ '}' :: tail := by
      rw [← htail]
      exact (prefix_iff_eq_append.mp ( takeWhile_prefix isKeyChar)).symm
    refine ⟨hread.1, all_takeWhile, tail, ?_⟩
    show '$' :: '{' :: rest = '$' :: '{' :: (rest.takeWhile isKeyChar ++ ['}'] ++ tail)
    rw [append_assoc, singleton_append, ← hsplit]
  · nomatch h

theorem readPlaceholder_placeholder_append (hkey : validKey key = true) (rest : Text) :
    readPlaceholder isKeyStart (placeholder key ++ rest) = some key := by
  obtain ⟨hstart, hall⟩ := (validKey_iff key).mp hkey
  have htake : (key ++ '}' :: rest).takeWhile isKeyChar = key := by
    rw [takeWhile_append_of_pos (all_eq_true.mp hall), takeWhile_cons_of_neg, append_nil]
    exact Bool.not_eq_true _ ▸ closing_not_isKeyChar
  have htext : placeholder key ++ rest = '$' :: '{' :: (key ++ '}' :: rest) := by
    simp [placeholder]
  rw [htext, readPlaceholder]
  simp only [htake, drop_left, List.head?_cons, and_true, if_pos hstart]

theorem placeholder_prefix_iff {other : Text} (hkey : validKey key = true)
    (hother : validKey other = true) (rest : Text) :
    placeholder key <+: placeholder other ++ rest ↔ key = other := by
  constructor
  · rintro ⟨tail, htail⟩
    have hread := readPlaceholder_placeholder_append hkey tail
    rw [htail, readPlaceholder_placeholder_append hother rest] at hread
    exact (some.inj hread).symm
  · rintro rfl
    exact prefix_append _ _

theorem placeholder_ne_nil (key : Text) : placeholder key ≠ [] :=
  cons_ne_nil _ _

/-- No placeholder begins at a character that is not a dollar sign. -/
theorem occurrencesWithin_eq_zero_of_dollar_not_mem (key rest : Text) (h : '$' ∉ text) :
    occurrencesWithin (placeholder key) rest text = 0 := by
  induction text with
  | nil => rfl
  | cons first text ih =>
    rw [mem_cons, not_or] at h
    rw [occurrencesWithin, ih h.2, if_neg]
    intro hmatch
    exact h.1 (cons_prefix_cons.mp hmatch).1

/-- In a placeholder begins exactly its own occurrence. -/
theorem occurrencesWithin_placeholder {other : Text} (hkey : validKey key = true)
    (hother : validKey other = true) (rest : Text) :
    occurrencesWithin (placeholder key) rest (placeholder other) =
      if key = other then 1 else 0 := by
  have htail : '$' ∉ '{' :: other ++ ['}'] := by
    have hnot : '$' ∉ other := by
      intro hmem
      exact absurd (all_eq_true.mp ((validKey_iff other).mp hother).2 _ hmem) (by decide)
    simp [hnot]
  have hfirst : occurrencesWithin (placeholder key) rest (placeholder other) =
      (if placeholder key <+: placeholder other ++ rest then 1 else 0) +
        occurrencesWithin (placeholder key) rest ('{' :: other ++ ['}']) := rfl
  rw [hfirst, occurrencesWithin_eq_zero_of_dollar_not_mem key rest htail, Nat.add_zero]
  simp only [placeholder_prefix_iff hkey hother rest]

variable (content : Text)

/-- A content is empty, begins with a literal character, or begins with a reference. -/
theorem parse_cases :
    content = [] ∨
      (∃ character rest, content = character :: rest ∧
        readPlaceholder isKeyStart content = none ∧
        parse content = .literal character :: parse rest) ∨
      ∃ key rest, validKey key = true ∧ content = placeholder key ++ rest ∧
        parse content = .reference key :: parse rest := by
  cases content with
  | nil => exact .inl rfl
  | cons first rest =>
    rcases hread : readPlaceholder isKeyStart (first :: rest) with _ | key
    · refine .inr (.inl ⟨first, rest, rfl, rfl, ?_⟩)
      exact scan_cons_of_none _ (by rw [hread]; rfl)
    · obtain ⟨hstart, hall, tail, htext⟩ := exists_of_readPlaceholder hread
      refine .inr (.inr ⟨key, tail, (validKey_iff key).mpr ⟨hstart, hall⟩, htext, ?_⟩)
      rw [htext] at hread ⊢
      refine scan_append_of_some _ tail (placeholder_ne_nil key) ?_
      rw [hread, map_some]
      simp [placeholder]

theorem flatMap_write_parse : (parse content).flatMap Piece.write = content := by
  refine flatMap_scan _ Piece.write (fun _ ↦ rfl) (fun text token length h ↦ ?_) content
  rw [map_eq_some_iff] at h
  obtain ⟨key, hread, hanswer⟩ := h
  obtain ⟨rfl, rfl⟩ := Prod.mk.inj hanswer
  obtain ⟨-, -, rest, htext⟩ := exists_of_readPlaceholder hread
  exact ⟨rest, htext, by simp [Piece.write, placeholder], Nat.succ_pos _⟩

theorem occurrences_placeholder (hkey : validKey key = true) (content : Text) :
    occurrences (placeholder key) content = (parse content).count (.reference key) := by
  induction hlength : content.length using Nat.strong_induction_on generalizing content with
  | _ bound ih =>
    rcases parse_cases content with rfl | ⟨character, rest, rfl, hread, hparse⟩ |
      ⟨other, rest, hother, rfl, hparse⟩
    · rfl
    · have hne : Piece.literal character ≠ Piece.reference key := by rintro ⟨⟩
      rw [hparse, count_cons_of_ne hne, occurrences, if_neg, Nat.zero_add]
      · exact ih rest.length (hlength ▸ Nat.lt_succ_self _) rest rfl
      · rintro ⟨tail, htail⟩
        rw [← htail, readPlaceholder_placeholder_append hkey tail] at hread
        cases hread
    · have hshorter : rest.length < bound := by
        rw [← hlength, length_append, placeholder, length_append, length_cons]
        omega
      rw [hparse, occurrences_append, occurrencesWithin_placeholder hkey hother,
        ih rest.length hshorter rest rfl, count_cons, Nat.add_comm]
      by_cases hsame : key = other
      · simp [hsame]
      · simp [hsame, Ne.symm hsame]

theorem reference_mem_parse_iff (hkey : validKey key = true) (content : Text) :
    .reference key ∈ parse content ↔ placeholder key <:+: content := by
  rw [← count_pos_iff, ← occurrences_placeholder hkey, Nat.pos_iff_ne_zero, Ne,
    occurrences_eq_zero_iff (placeholder_ne_nil key), not_not]

/-! ### One rewriting -/

theorem valueOf_append (first second : List Entry) (key : Text) :
    valueOf (first ++ second) key = (valueOf first key).or (valueOf second key) := by
  rw [valueOf, List.find?_append, valueOf, valueOf]
  cases first.find? (·.key = key) <;> rfl

theorem valueOf_singleton (entry : Entry) (key : Text) :
    valueOf [entry] key = if entry.key = key then some entry.value else none := by
  by_cases hsame : entry.key = key
  · simp [valueOf, hsame]
  · simp [valueOf, hsame]

variable (entries : List Entry)

theorem valueOf_eq_none_iff (key : Text) :
    valueOf entries key = none ↔ key ∉ entries.map (·.key) := by
  simp only [valueOf, map_eq_none_iff, List.find?_eq_none, decide_eq_true_eq, List.mem_map,
    not_exists, not_and]

def substitutePiece : Piece → Text
  | .literal character => [character]
  | .reference key => (valueOf entries key).getD (placeholder key)

theorem substitute_eq_flatMap (content : Text) :
    substitute entries content = (parse content).flatMap (substitutePiece entries) :=
  rfl

theorem substitute_nil : substitute [] content = content := by
  have hwrite : substitutePiece [] = Piece.write := by
    funext piece
    cases piece <;> rfl
  rw [substitute_eq_flatMap, hwrite, flatMap_write_parse]

section

variable (done : List Entry) (entry : Entry)

/-- The references of some pieces that are still to be replaced when the turn of the entry comes. -/
def pendingReferences (pieces : List Piece) : ℕ :=
  if entry.key ∈ done.map (·.key) then 0 else pieces.count (.reference entry.key)

variable {entry} (hvalid : validKey entry.key = true)

include hvalid

/-- A reference that is still to be replaced accounts for its own occurrence, and any other piece
for those of a value that completes a placeholder. -/
theorem pendingReferences_cons (piece : Piece) (pieces : List Piece) (rest : Text) :
    (pendingReferences done entry (piece :: pieces) = pendingReferences done entry pieces + 1 ∧
        substitutePiece done piece = placeholder entry.key ∧
        substitutePiece (done ++ [entry]) piece = entry.value ∧
        occurrencesWithin (placeholder entry.key) rest (substitutePiece done piece) = 1) ∨
      (pendingReferences done entry (piece :: pieces) = pendingReferences done entry pieces ∧
        substitutePiece (done ++ [entry]) piece = substitutePiece done piece) := by
  unfold pendingReferences
  by_cases hreference : piece = .reference entry.key
  · subst hreference
    simp only [substitutePiece, valueOf_append, valueOf_singleton, if_pos]
    split_ifs with hdone
    · refine .inr ⟨rfl, ?_⟩
      have hsome : valueOf done entry.key ≠ none := fun hnone ↦
        (valueOf_eq_none_iff done entry.key).mp hnone hdone
      obtain ⟨value, hvalue⟩ := ne_none_iff_exists'.mp hsome
      rw [hvalue]
      rfl
    · rw [(valueOf_eq_none_iff done entry.key).mpr hdone]
      refine .inl ⟨count_cons_self, rfl, rfl, ?_⟩
      rw [getD_none, occurrencesWithin_placeholder hvalid hvalid, if_pos rfl]
  · refine .inr ⟨by rw [count_cons_of_ne hreference], ?_⟩
    cases piece with
    | literal character => rfl
    | reference key =>
      have hother : entry.key ≠ key := fun hsame ↦ hreference (by rw [hsame])
      rw [substitutePiece, substitutePiece, valueOf_append, valueOf_singleton, if_neg hother,
        or_none]

theorem pendingReferences_le (pieces : List Piece) :
    pendingReferences done entry pieces ≤
      occurrences (placeholder entry.key) (pieces.flatMap (substitutePiece done)) := by
  induction pieces with
  | nil => simp [pendingReferences]
  | cons piece pieces ih =>
    rw [flatMap_cons, occurrences_append]
    rcases pendingReferences_cons done hvalid piece pieces
      (pieces.flatMap (substitutePiece done)) with
      ⟨hcount, -, -, hwithin⟩ | ⟨hcount, -⟩
    · omega
    · omega

/-- The step of the simultaneous substitution: a rewriting that meets no occurrence besides the
pending references substitutes its entry. -/
theorem replaceAll_flatMap (pieces : List Piece)
    (hexact : occurrences (placeholder entry.key) (pieces.flatMap (substitutePiece done)) =
      pendingReferences done entry pieces) :
    replaceAll (placeholder entry.key) entry.value (pieces.flatMap (substitutePiece done)) =
      pieces.flatMap (substitutePiece (done ++ [entry])) := by
  induction pieces with
  | nil => rfl
  | cons piece pieces ih =>
    rw [flatMap_cons, occurrences_append] at hexact
    rw [flatMap_cons, flatMap_cons]
    have hle := pendingReferences_le done hvalid pieces
    rcases pendingReferences_cons done hvalid piece pieces
      (pieces.flatMap (substitutePiece done)) with
      ⟨hcount, htext, hvalue, hwithin⟩ | ⟨hcount, hsame⟩
    · rw [htext, hvalue, replaceAll_pattern_append (placeholder_ne_nil _), ih (by omega)]
    · rw [hsame, replaceAll_append_of_within_eq_zero _ (by omega), ih (by omega)]

end

/-! ### The loops -/

/-- The occurrences of the placeholder of an entry in a text are the references of the content that
are still to be replaced after the entries `done`. -/
def OccursAsPending (content : Text) (done : List Entry) (entry : Entry) (text : Text) : Prop :=
  occurrences (placeholder entry.key) text =
    if entry.key ∈ done.map (·.key) then 0 else occurrences (placeholder entry.key) content

/-- One rewriting against the simultaneous substitution. -/
theorem replaceEntry_substitute {done : List Entry} {entry : Entry}
    (hvalid : validKey entry.key = true) (content : Text)
    (hpending : OccursAsPending content done entry (substitute done content)) :
    replaceEntry (substitute done content) entry = substitute (done ++ [entry]) content := by
  rw [OccursAsPending, occurrences_placeholder hvalid content] at hpending
  exact replaceAll_flatMap done hvalid (parse content) hpending

/-- At the turn of every entry, the text that `textAt` gives for the entries before it has the
placeholder of the entry at pending references only. -/
def TurnsPending (content : Text) (entries : List Entry) (textAt : List Entry → Text) : Prop :=
  ∀ before entry after, entries = before ++ entry :: after →
    OccursAsPending content before entry (textAt before)

theorem turnsPending_nil (textAt : List Entry → Text) :
    TurnsPending content [] textAt := fun _ _ _ hsplit ↦
  absurd hsplit (append_ne_nil_of_right_ne_nil _ (cons_ne_nil _ _)).symm

theorem turnsPending_concat (last : Entry) (textAt : List Entry → Text) :
    TurnsPending content (entries ++ [last]) textAt ↔
      TurnsPending content entries textAt ∧
        OccursAsPending content entries last (textAt entries) := by
  constructor
  · intro h
    refine ⟨fun before entry after hsplit ↦ ?_, h entries last [] rfl⟩
    exact h before entry (after ++ [last]) (by rw [hsplit, append_assoc, cons_append])
  · rintro ⟨hentries, hlast⟩ before entry after hsplit
    rcases eq_nil_or_concat after with rfl | ⟨middle, final, rfl⟩
    · obtain ⟨rfl, hsame⟩ := append_inj' hsplit rfl
      rw [← (List.cons.inj hsame).1]
      exact hlast
    · rw [concat_eq_append, ← cons_append, ← append_assoc] at hsplit
      exact hentries before entry middle (append_inj' hsplit rfl).1

/-- The run of the loops. The texts of the run and those of the simultaneous substitution have
pending placeholders at the same turns, and then the run is the simultaneous substitution. -/
theorem foldl_replaceEntry (hvalid : ∀ entry ∈ entries, validKey entry.key = true) :
    (TurnsPending content entries (fun before ↦ before.foldl replaceEntry content) ↔
      TurnsPending content entries fun before ↦ substitute before content) ∧
    (TurnsPending content entries (fun before ↦ substitute before content) →
      entries.foldl replaceEntry content = substitute entries content) := by
  induction entries using List.reverseRecOn with
  | nil =>
    exact ⟨iff_of_true (turnsPending_nil _ _) (turnsPending_nil _ _),
      fun _ ↦ (substitute_nil content).symm⟩
  | append_singleton entries last ih =>
    obtain ⟨hiff, hrun⟩ := ih fun entry hentry ↦ hvalid entry (mem_append_left _ hentry)
    have hlast := hvalid last (mem_append_right _ (mem_singleton_self last))
    rw [turnsPending_concat, turnsPending_concat, hiff]
    refine ⟨and_congr_right fun hturns ↦ by rw [hrun hturns], fun ⟨hturns, hpending⟩ ↦ ?_⟩
    rw [foldl_append, foldl_cons, foldl_nil, hrun hturns]
    exact replaceEntry_substitute hlast content hpending

variable (environment : Environment)

/-! ### When the resolution is exact -/

/-- Another order in which the database may list the same entries. -/
structure SameEntries (order environment : Environment) : Prop where
  vars : order.vars.Perm environment.vars
  secrets : order.secrets.Perm environment.secrets

/-- What the resolution promises for a content in one order of the entries: the result is the
simultaneous substitution in which secrets win, every rewriting of the run replaces references of
the content and nothing else, and each referenced key is replaced by the value that wins. -/
structure ExactInOrder (renderTemplate : Text → Text × List String) (order : Environment)
    (content : Text) : Prop where
  result : (resolveSecretPlaceholders renderTemplate order content).content =
    substitute (order.secrets ++ order.vars) content
  unscanned : TurnsPending content (order.vars ++ order.secrets)
    fun before ↦ before.foldl replaceEntry content
  winner : ∀ key, .reference key ∈ parse content →
    valueOf (order.vars ++ order.secrets) key = valueOf (order.secrets ++ order.vars) key

/-- What the resolution promises for a content: exactness in every order of the entries, with a
result that does not depend on the order. -/
structure SubstitutionExact (renderTemplate : Text → Text × List String)
    (environment : Environment) (content : Text) : Prop where
  exact : ∀ order, SameEntries order environment → ExactInOrder renderTemplate order content
  independent : ∀ order, SameEntries order environment →
    (resolveSecretPlaceholders renderTemplate order content).content =
      (resolveSecretPlaceholders renderTemplate environment content).content

/-- The entries do not interfere in a content: a var and a secret of one referenced key agree, and
in every order the values of the entries before a key complete no placeholder of the key. -/
structure Separated (environment : Environment) (content : Text) : Prop where
  agree : ∀ var ∈ environment.vars, ∀ secret ∈ environment.secrets, var.key = secret.key →
    placeholder var.key <:+: content → var.value = secret.value
  fresh : ∀ order, SameEntries order environment →
    TurnsPending content (order.vars ++ order.secrets) fun before ↦ substitute before content

theorem SameEntries.refl : SameEntries environment environment :=
  ⟨List.Perm.refl _, List.Perm.refl _⟩

variable {entries : List Entry}

theorem valueOf_eq_some_iff (hnodup : (entries.map (·.key)).Nodup) (key value : Text) :
    valueOf entries key = some value ↔ ⟨key, value⟩ ∈ entries := by
  constructor
  · intro h
    obtain ⟨entry, hfind, rfl⟩ := map_eq_some_iff.mp h
    have hkey : entry.key = key := by simpa using List.find?_some hfind
    rw [← hkey]
    exact mem_of_find?_eq_some hfind
  · intro hmem
    have hsome : valueOf entries key ≠ none := fun hnone ↦
      (valueOf_eq_none_iff entries key).mp hnone (mem_map_of_mem hmem)
    obtain ⟨other, hvalue⟩ := ne_none_iff_exists'.mp hsome
    obtain ⟨entry, hfind, rfl⟩ := map_eq_some_iff.mp hvalue
    have hkey : entry.key = key := by simpa using List.find?_some hfind
    have hsame : entry = ⟨key, value⟩ :=
      inj_on_of_nodup_map hnodup (mem_of_find?_eq_some hfind) hmem hkey
    rw [valueOf, hfind, hsame]
    rfl

theorem valueOf_congr_perm {other : List Entry} (hnodup : (other.map (·.key)).Nodup)
    (hperm : entries.Perm other) (key : Text) : valueOf entries key = valueOf other key := by
  have hnodup' : (entries.map (·.key)).Nodup := (hperm.map _).nodup_iff.mpr hnodup
  refine Option.ext fun value ↦ ?_
  rw [valueOf_eq_some_iff hnodup', valueOf_eq_some_iff hnodup, hperm.mem_iff]

/-- The value that wins does not depend on the order of the entries. -/
theorem SameEntries.valueOf_eq {order environment : Environment}
    (h : SameEntries order environment) (key : Text) :
    valueOf (order.vars ++ order.secrets) key =
        valueOf (environment.vars ++ environment.secrets) key ∧
      valueOf (order.secrets ++ order.vars) key =
        valueOf (environment.secrets ++ environment.vars) key := by
  simp only [valueOf_append, valueOf_congr_perm environment.nodup_vars h.vars,
    valueOf_congr_perm environment.nodup_secrets h.secrets, and_self]

theorem substitute_congr {other : List Entry} {content : Text}
    (h : ∀ key, .reference key ∈ parse content → valueOf entries key = valueOf other key) :
    substitute entries content = substitute other content := by
  rw [substitute_eq_flatMap, substitute_eq_flatMap]
  refine flatMap_congr fun piece hpiece ↦ ?_
  cases piece with
  | literal character => rfl
  | reference key => rw [substitutePiece, substitutePiece, h key hpiece]

/-- The vars win with the values of the secrets exactly when the two agree on the referenced
keys. -/
theorem winner_iff (content : Text) : (∀ key, .reference key ∈ parse content →
      valueOf (environment.vars ++ environment.secrets) key =
        valueOf (environment.secrets ++ environment.vars) key) ↔
      ∀ var ∈ environment.vars, ∀ secret ∈ environment.secrets, var.key = secret.key →
        placeholder var.key <:+: content → var.value = secret.value := by
  simp only [valueOf_append]
  constructor
  · intro hwinner var hvar secret hsecret hsame hoccurs
    have hreference := (reference_mem_parse_iff
      (environment.valid_vars var hvar) content).mpr hoccurs
    have heq := hwinner _ hreference
    rw [(valueOf_eq_some_iff environment.nodup_vars var.key var.value).mpr hvar, hsame,
      (valueOf_eq_some_iff environment.nodup_secrets secret.key secret.value).mpr hsecret] at heq
    exact some.inj heq
  · intro hagree key hreference
    rcases hvar : valueOf environment.vars key with _ | value
    · rw [none_or, or_none]
    · rcases hsecret : valueOf environment.secrets key with _ | other
      · rfl
      · rw [valueOf_eq_some_iff environment.nodup_vars] at hvar
        rw [valueOf_eq_some_iff environment.nodup_secrets] at hsecret
        have hoccurs := (reference_mem_parse_iff
          (environment.valid_vars _ hvar) content).mp hreference
        have hsame : value = other := hagree _ hvar _ hsecret rfl hoccurs
        rw [hsame]

/-- For a content that the template stage leaves as it is, the resolution is exact if and only if
the vars and secrets do not interfere in the content. -/
theorem substitutionExact_iff (renderTemplate : Text → Text × List String)
    (environment : Environment) (content : Text)
    (hrender : (renderTemplate content).1 = content) :
    SubstitutionExact renderTemplate environment content ↔ Separated environment content := by
  have hresult : ∀ order, (resolveSecretPlaceholders renderTemplate order content).content =
      (order.vars ++ order.secrets).foldl replaceEntry content := by
    intro order
    show replaceEntries order (renderTemplate content).1 = _
    rw [hrender, replaceEntries, foldl_append]
  have hvalid : ∀ order : Environment, ∀ entry ∈ order.vars ++ order.secrets,
      validKey entry.key = true := by
    intro order entry hentry
    exact (mem_append.mp hentry).elim (order.valid_vars entry) (order.valid_secrets entry)
  constructor
  · intro hexact
    refine ⟨(winner_iff environment content).mp
      (hexact.exact environment (SameEntries.refl environment)).winner, fun order horder ↦ ?_⟩
    exact (foldl_replaceEntry content _ (hvalid order)).1.mp (hexact.exact order horder).unscanned
  · rintro ⟨hagree, hfresh⟩
    have hwinner := (winner_iff environment content).mpr hagree
    have hsecretsWin : ∀ order, SameEntries order environment →
        (resolveSecretPlaceholders renderTemplate order content).content =
          substitute (environment.secrets ++ environment.vars) content := by
      intro order horder
      rw [hresult, (foldl_replaceEntry content _ (hvalid order)).2 (hfresh order horder)]
      refine substitute_congr fun key hreference ↦ ?_
      rw [(horder.valueOf_eq key).1, hwinner key hreference]
    refine ⟨fun order horder ↦ ⟨?_, ?_, fun key hreference ↦ ?_⟩, fun order horder ↦ ?_⟩
    · rw [hsecretsWin order horder]
      exact substitute_congr fun key _ ↦ (horder.valueOf_eq key).2.symm
    · exact (foldl_replaceEntry content _ (hvalid order)).1.mpr (hfresh order horder)
    · rw [(horder.valueOf_eq key).1, (horder.valueOf_eq key).2, hwinner key hreference]
    · rw [hsecretsWin order horder, hsecretsWin environment (SameEntries.refl environment)]

/-- A template stage on contents without range blocks. -/
def keepTemplate (content : Text) : Text × List String :=
  (content, [])

def shadowedKey : Environment where
  vars := [⟨['A'], ['1']⟩]
  secrets := [⟨['A'], ['2']⟩]
  nodup_vars := by decide
  nodup_secrets := by decide
  valid_vars := by decide
  valid_secrets := by decide

/-- The var replaces the reference before the secret is looked at. -/
theorem not_substitutionExact_shadowedKey :
    (keepTemplate (placeholder ['A'])).1 = placeholder ['A'] ∧
      (resolveSecretPlaceholders keepTemplate shadowedKey (placeholder ['A'])).content = ['1'] ∧
      substitute (shadowedKey.secrets ++ shadowedKey.vars) (placeholder ['A']) = ['2'] ∧
      ¬ SubstitutionExact keepTemplate shadowedKey (placeholder ['A']) := by
  have hcontent : (resolveSecretPlaceholders keepTemplate shadowedKey
      (placeholder ['A'])).content = ['1'] := by decide
  have hpromised : substitute (shadowedKey.secrets ++ shadowedKey.vars) (placeholder ['A']) =
      ['2'] := by decide
  refine ⟨rfl, hcontent, hpromised, fun hexact ↦ ?_⟩
  have hresult := (hexact.exact shadowedKey (SameEntries.refl shadowedKey)).result
  rw [hcontent, hpromised] at hresult
  exact absurd hresult (by decide)

def varAndSecret : Environment where
  vars := [⟨['A'], ['1']⟩]
  secrets := [⟨['B'], ['2']⟩]
  nodup_vars := by decide
  nodup_secrets := by decide
  valid_vars := by decide
  valid_secrets := by decide

theorem substitutionExact_varAndSecret :
    SubstitutionExact keepTemplate varAndSecret (placeholder ['A'] ++ placeholder ['B']) := by
  refine (substitutionExact_iff keepTemplate varAndSecret _ rfl).mpr
    ⟨?_, fun order horder before entry after hsplit ↦ ?_⟩
  · intro var hvar secret hsecret hkey
    cases mem_singleton.mp hvar
    cases mem_singleton.mp hsecret
    exact absurd hkey (by decide)
  · have hvars : order.vars = [⟨['A'], ['1']⟩] := perm_singleton.mp horder.vars
    have hsecrets : order.secrets = [⟨['B'], ['2']⟩] := perm_singleton.mp horder.secrets
    rw [hvars, hsecrets] at hsplit
    rcases before with _ | ⟨first, _ | ⟨second, before⟩⟩
    · obtain ⟨rfl, -⟩ := List.cons.inj hsplit
      exact show occurrences _ _ = _ by decide
    · obtain ⟨rfl, hrest⟩ := List.cons.inj hsplit
      obtain ⟨rfl, -⟩ := List.cons.inj hrest
      exact show occurrences _ _ = _ by decide
    · exact absurd (congrArg List.length hsplit) (by simp)

end Bridgeport.Secrets
