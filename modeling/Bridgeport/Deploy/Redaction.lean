import Bridgeport.Deploy.Drift
import Bridgeport.Foundation.Masking

/-!
# What a redaction leaves

A redacted text contains none of the values, if no value contains the character of the mask
(`leakFree_redactSecretValues`). It does not depend on the order of the values if no two different
values of one length overlap in what the longer ones leave of the text (`redacted_of_uncontested`).
Of two values of one length that overlap the first in the list is replaced
(`not_redacted_overlapping`).

Drift detection compares checksums of redacted texts. A match says that the host has the rendered
text up to its secret values, and the text itself where this contains neither a secret value nor the
mask (`matchSound`).
-/

namespace Bridgeport.Deploy

open Foundation Secrets List

/-- No value is left in the redacted text, which does not depend on the order of the values. -/
structure Redacted (content : Text) (secretValues : List Text) : Prop where
  leakFree : ∀ value ∈ secretValues, value ≠ [] →
    ¬ value <:+: redactSecretValues content secretValues
  orderFree : ∀ others, others.Perm secretValues →
    redactSecretValues content others = redactSecretValues content secretValues

def ofLength (secretValues : List Text) (length : ℕ) : List Text :=
  secretValues.filter fun value ↦ utf16Length value > 0 ∧ utf16Length value = length

def lengths (secretValues : List Text) : List ℕ :=
  (secretValues.map utf16Length).dedup.insertionSort (· ≥ ·)

/-- No two values of one of the lengths overlap in what the values of the lengths before it leave of
the text. -/
def UncontestedFrom (secretValues : List Text) : List ℕ → Text → Prop
  | [], _ => True
  | length :: shorter, text =>
    Apart (ofLength secretValues length) text ∧
      UncontestedFrom secretValues shorter
        (replaceAny (ofLength secretValues length) "***".toList text)

/-- No two different values of one length overlap in what the longer ones leave of the content. -/
def Uncontested (content : Text) (secretValues : List Text) : Prop :=
  UncontestedFrom secretValues (lengths secretValues) content

variable {content : Text} {secretValues : List Text}

theorem utf16Length_pos {value : Text} : 0 < utf16Length value ↔ value ≠ [] := by
  cases value with
  | nil => simp [utf16Length]
  | cons first rest =>
    refine iff_of_true ?_ (cons_ne_nil _ _)
    rw [utf16Length, map_cons, sum_cons]
    split_ifs <;> omega

def replacementOrder (secretValues : List Text) : List Text :=
  (secretValues.filter fun value ↦ utf16Length value > 0).insertionSort fun first second ↦
    utf16Length second ≤ utf16Length first

theorem mem_replacementOrder {value : Text} :
    value ∈ replacementOrder secretValues ↔ value ∈ secretValues ∧ value ≠ [] := by
  rw [replacementOrder, mem_insertionSort, mem_filter, decide_eq_true_iff, gt_iff_lt,
    utf16Length_pos]

variable {order : List Text}

theorem filter_append_filter {bound : ℕ}
    (hsorted : order.Pairwise fun first second ↦ utf16Length second ≤ utf16Length first)
    (hle : ∀ value ∈ order, utf16Length value ≤ bound) :
    order.filter (utf16Length · = bound) ++ order.filter (utf16Length · ≠ bound) = order := by
  induction order with
  | nil => rfl
  | cons first order ih =>
    obtain ⟨hfirst, hsorted⟩ := pairwise_cons.mp hsorted
    have hrest := ih hsorted fun value hvalue ↦ hle value (mem_cons_of_mem _ hvalue)
    by_cases hlength : utf16Length first = bound
    · simpa [hlength] using hrest
    · have hshort : ∀ value ∈ order, utf16Length value ≠ bound := fun value hvalue ↦
        ((hfirst value hvalue).trans_lt ((hle first mem_cons_self).lt_of_ne hlength)).ne
      simp only [filter_cons, hlength, decide_false, ne_eq, not_false_eq_true, decide_true]
      rw [filter_eq_nil_iff.mpr (by simpa using hshort), filter_eq_self.mpr (by simpa using hshort)]
      rfl

section

variable (hstars : ∀ value ∈ secretValues, '*' ∉ value)
include hstars

theorem notMem_of_mem_mask {value : Text} (h : value ∈ secretValues) :
    ∀ character ∈ "***".toList, character ∉ value := by
  intro character hcharacter
  have hstar : character = '*' := by simpa using hcharacter
  exact hstar ▸ hstars value h

theorem leakFree_redactSecretValues {value : Text} (hvalue : value ∈ secretValues)
    (hne : value ≠ []) : ¬ value <:+: redactSecretValues content secretValues := by
  have hleft : ∀ order : List Text, (∀ other ∈ order, other ∈ secretValues ∧ other ≠ []) →
      value ∈ order → ¬ value <:+:
        order.foldl (fun result other ↦ replaceAll other "***".toList result) content := by
    intro order horder hmem
    induction order using List.reverseRecOn with
    | nil => exact absurd hmem not_mem_nil
    | append_singleton order last ih =>
      rw [foldl_append]
      by_cases hlast : value = last
      · exact hlast ▸ not_infix_replaceAll hne (by decide) (notMem_of_mem_mask hstars hvalue) _
      · have hbefore := (mem_append.mp hmem).resolve_right fun h ↦ hlast (mem_singleton.mp h)
        intro hinfix
        refine ih (fun other hother ↦ horder other (mem_append_left _ hother)) hbefore ?_
        rw [foldl_cons, foldl_nil, replaceAll_eq_replaceAny] at hinfix
        exact infix_of_infix_replaceAny
          (forall_mem_singleton.mpr (horder last (mem_append_right _ mem_cons_self)).2) (by decide)
          (notMem_of_mem_mask hstars hvalue) hne hinfix
  exact hleft (replacementOrder secretValues) (fun _ ↦ mem_replacementOrder.mp)
    (mem_replacementOrder.mpr ⟨hvalue, hne⟩)

theorem foldl_eq_of_uncontested {bounds : List ℕ} (hbounds : bounds.Pairwise (· > ·))
    (hsorted : order.Pairwise fun first second ↦ utf16Length second ≤ utf16Length first)
    (hmem : ∀ value ∈ order, utf16Length value ∈ bounds) (hperm : ∀ length ∈ bounds,
      (order.filter (utf16Length · = length)).Perm (ofLength secretValues length))
    (h : UncontestedFrom secretValues bounds content) :
    order.foldl (fun result value ↦ replaceAll value "***".toList result) content =
      bounds.foldl (fun result length ↦
        replaceAny (ofLength secretValues length) "***".toList result) content := by
  induction bounds generalizing order content with
  | nil =>
    obtain rfl := eq_nil_iff_forall_not_mem.mpr fun value hvalue ↦ not_mem_nil (hmem value hvalue)
    rfl
  | cons length shorter ih =>
    obtain ⟨hlongest, hbounds⟩ := pairwise_cons.mp hbounds
    have hle : ∀ value ∈ order, utf16Length value ≤ length := by
      intro value hvalue
      rcases mem_cons.mp (hmem value hvalue) with hsame | hshorter
      · exact hsame.le
      · exact (hlongest _ hshorter).le
    have hpatterns : ∀ value ∈ ofLength secretValues length, value ∈ secretValues ∧ value ≠ [] := by
      intro value hvalue
      obtain ⟨hvalue, hlength⟩ := mem_filter.mp hvalue
      exact ⟨hvalue, utf16Length_pos.mp (of_decide_eq_true hlength).1⟩
    rw [← filter_append_filter hsorted hle, foldl_append,
      foldl_replaceAll (hperm length mem_cons_self) (fun value h ↦ (hpatterns value h).2) (by decide)
        (fun value h ↦ notMem_of_mem_mask hstars (hpatterns value h).1) h.1, foldl_cons]
    refine ih hbounds (hsorted.filter _) (fun value hvalue ↦ ?_) (fun other hother ↦ ?_) h.2
    · obtain ⟨hvalue, hshort⟩ := mem_filter.mp hvalue
      exact (mem_cons.mp (hmem value hvalue)).resolve_left (of_decide_eq_true hshort)
    · have hsame : (order.filter (utf16Length · ≠ length)).filter (utf16Length · = other) =
          order.filter (utf16Length · = other) := by
        rw [filter_filter]
        refine filter_congr fun value _ ↦ ?_
        by_cases hvalue : utf16Length value = other
        · simp [hvalue, (hlongest other hother).ne]
        · simp [hvalue]
      exact hsame ▸ hperm other (mem_cons_of_mem _ hother)

/-- A redaction leaks no value and does not depend on the order of the values. Assumes: no value
contains the character of the mask, and no two different values of one length overlap in what the
longer ones leave. -/
theorem redacted_of_uncontested (h : Uncontested content secretValues) :
    Redacted content secretValues where
  leakFree _ := leakFree_redactSecretValues hstars
  orderFree := by
    have hlengths : (lengths secretValues).Pairwise (· > ·) := by
      have hsorted : (lengths secretValues).Pairwise (· ≥ ·) := pairwise_insertionSort _ _
      have hnodup : (lengths secretValues).Nodup :=
        (perm_insertionSort _ _).nodup_iff.mpr (nodup_dedup _)
      exact (hsorted.and hnodup).imp fun hle ↦ lt_of_le_of_ne hle.1 hle.2.symm
    have hmasked : ∀ others : List Text, others.Perm secretValues →
        redactSecretValues content others = (lengths secretValues).foldl (fun result length ↦
          replaceAny (ofLength secretValues length) "***".toList result) content := by
      intro others hperm
      have hsorted : (replacementOrder others).Pairwise fun first second ↦
          utf16Length second ≤ utf16Length first := pairwise_insertionSort _ _
      refine foldl_eq_of_uncontested hstars hlengths hsorted (fun value hvalue ↦ ?_)
        (fun length _ ↦ ?_) h
      · rw [lengths, mem_insertionSort, mem_dedup]
        exact mem_map_of_mem (hperm.mem_iff.mp (mem_replacementOrder.mp hvalue).1)
      · refine ((perm_insertionSort _ _).filter _).trans ?_
        rw [filter_filter]
        refine (hperm.filter _).trans (Perm.of_eq (filter_congr fun value _ ↦ ?_))
        simp [and_comm]
    exact fun others hperm ↦ (hmasked others hperm).trans (hmasked secretValues (.refl _)).symm

end

theorem redacted_prefix : Redacted "pw=hunter2".toList ["hunter".toList, "hunter2".toList] := by
  have hsingle : ∀ (value : Text) (text : Text), Apart [value] text := by
    rintro value text first hfirst second hsecond hne
    exact absurd ((mem_singleton.mp hfirst).trans (mem_singleton.mp hsecond).symm) hne
  exact redacted_of_uncontested (by simp) ⟨hsingle "hunter2".toList _, hsingle "hunter".toList _,
    trivial⟩

/-- Of two values of one length that overlap, the one that comes first is replaced. -/
theorem not_redacted_overlapping : ¬ Redacted "abc".toList ["ab".toList, "bc".toList] := fun h ↦
  absurd (h.orderFree ["bc".toList, "ab".toList] (.swap _ _ _)) (by decide)

/-! ### Content that is reported as matching -/

section

open ConfigSync

variable {secretValues order : List Text} {content host rendered : Text}

theorem infix_replaceAll {value mask : Text} (hne : value ≠ []) (h : value <:+: content) :
    mask <:+: replaceAll value mask content := by
  induction content with
  | nil => exact absurd (infix_nil.mp h) hne
  | cons first rest ih =>
    by_cases hprefix : value <+: first :: rest
    · obtain ⟨rest, hrest⟩ := hprefix
      rw [← hrest, replaceAll_pattern_append hne]
      exact (prefix_append _ _).isInfix
    · rw [replaceAll_cons_of_no_match mask hprefix]
      exact (ih ((infix_cons_iff.mp h).resolve_left hprefix)).trans (suffix_cons _ _).isInfix

/-- A redaction leaves the mask, or nothing has been redacted. -/
theorem redactSecretValues_eq_self (h : ¬ "***".toList <:+: redactSecretValues content secretValues) :
    redactSecretValues content secretValues = content := by
  have hfold : ∀ order : List Text, (∀ value ∈ order, value ≠ []) → ¬ "***".toList <:+:
      order.foldl (fun result value ↦ replaceAll value "***".toList result) content →
        order.foldl (fun result value ↦ replaceAll value "***".toList result) content = content := by
    intro order hne hmask
    induction order using List.reverseRecOn with
    | nil => rfl
    | append_singleton order last ih =>
      rw [foldl_append, foldl_cons, foldl_nil] at hmask ⊢
      have hlast := replaceAll_of_not_contains "***".toList fun hinfix ↦
        hmask (infix_replaceAll (hne last (by simp)) hinfix)
      rw [hlast] at hmask ⊢
      exact ih (fun value hvalue ↦ hne value (mem_append_left _ hvalue)) hmask
  exact hfold _ (fun value hvalue ↦ (mem_replacementOrder.mp hvalue).2) h

/-- The text has no secret value and no mask. -/
def Plain (secretValues : List Text) (content : Text) : Prop :=
  (∀ value ∈ secretValues, value ≠ [] → ¬ value <:+: content) ∧ ¬ "***".toList <:+: content

theorem redactSecretValues_of_plain (h : Plain secretValues content) :
    redactSecretValues content secretValues = content := by
  have hfold : ∀ order : List Text, (∀ value ∈ order, ¬ value <:+: content) →
      order.foldl (fun result value ↦ replaceAll value "***".toList result) content = content := by
    intro order horder
    induction order with
    | nil => rfl
    | cons value order ih =>
      obtain ⟨hvalue, horder⟩ := forall_mem_cons.mp horder
      rw [foldl_cons, replaceAll_of_not_contains _ hvalue, ih horder]
  exact hfold _ fun value hvalue ↦
    h.1 value (mem_replacementOrder.mp hvalue).1 (mem_replacementOrder.mp hvalue).2

/-- The texts agree up to trailing whitespace and the secret values, and up to trailing whitespace
where nothing is redacted. -/
def Agrees (secretValues : List Text) (host rendered : Text) : Prop :=
  redactedContent secretValues host = redactedContent secretValues rendered ∧
    (Plain secretValues (trimEnd rendered) → trimEnd host = trimEnd rendered)

theorem agrees_of_redactedContent
    (h : redactedContent secretValues host = redactedContent secretValues rendered) :
    Agrees secretValues host rendered := by
  refine ⟨h, fun hplain ↦ ?_⟩
  unfold redactedContent at h
  rw [redactSecretValues_of_plain hplain] at h
  have hhost := redactSecretValues_eq_self (h ▸ hplain.2)
  exact hhost.symm.trans h

section

variable {checksum : Text → String} {reads : DriftReads}

/-- What a match says about the compose file and about the config files with an artifact. -/
structure MatchSound (secretValues : List Text) (reads : DriftReads) (drift : DriftItems) : Prop where
  compose : drift.composeContent.isMatch = some true → ∃ path artifacts result,
    reads.deployment.composePath = some path ∧ reads.artifacts = .ok artifacts ∧
      reads.cat path = .ok result ∧ Agrees secretValues result.stdout artifacts.compose.content
  configFiles : ∀ file ∈ drift.configFiles, file.isMatch = some true → ∃ result,
    reads.cat file.targetPath = .ok result ∧ ∀ artifact,
      (expectedByPath reads.expectedConfigFiles).get file.targetPath = some artifact →
        artifact.isBinary = false → Agrees secretValues result.stdout artifact.content

variable (hchecksum : Function.Injective checksum)
include hchecksum

theorem composeContentDrift_agrees
    (h : (composeContentDrift checksum secretValues reads).isMatch = some true) :
    ∃ path artifacts result, reads.deployment.composePath = some path ∧
      reads.artifacts = .ok artifacts ∧ reads.cat path = .ok result ∧
        Agrees secretValues result.stdout artifacts.compose.content := by
  unfold composeContentDrift at h
  split at h
  · simp at h
  next path hpath =>
  split at h
  · simp at h
  split at h
  · simp at h
  next artifacts hartifacts =>
  split at h
  · simp at h
  split at h
  · simp at h
  next result hresult =>
  split at h
  · simp at h
  refine ⟨path, artifacts, result, (Option.filter_eq_some_iff.mp hpath).1, hartifacts, hresult,
    agrees_of_redactedContent (hchecksum ?_)⟩
  simpa using h

theorem configFileDrift_agrees {file : SourceFile}
    (h : (configFileDrift checksum secretValues reads file).isMatch = some true) :
    ∃ result, reads.cat file.targetPath = .ok result ∧ ∀ artifact,
      (expectedByPath reads.expectedConfigFiles).get file.targetPath = some artifact →
        artifact.isBinary = false → Agrees secretValues result.stdout artifact.content := by
  unfold configFileDrift at h
  split at h
  · simp at h
  split at h
  · simp at h
  split at h
  · simp at h
  next expected hexpected =>
  split at h
  · simp at h
  next result hresult =>
  split at h
  · simp at h
  refine ⟨result, hresult, fun artifact hartifact htext ↦ agrees_of_redactedContent ?_⟩
  have hrendered : expected = redactedContent secretValues artifact.content := by
    simpa [expectedRendered, hartifact, htext] using hexpected.symm
  rw [← hrendered]
  exact hchecksum (by simpa using h)

/-- A match is sound up to what is redacted. Assumes: no two texts have one checksum. -/
theorem matchSound {report : DeploymentDrift} (hsecrets : reads.secretValues = .ok secretValues)
    (h : computeDeploymentDrift checksum reads = .ok report) :
    MatchSound secretValues reads report.drift := by
  obtain ⟨values, hvalues, hdrift⟩ := drift_of_computeDeploymentDrift h
  obtain rfl := Except.ok.inj (hsecrets.symm.trans hvalues)
  rw [hdrift]
  cases reads.connected with
  | error message => exact ⟨by simp [unreachedItems], by simp [unreachedItems]⟩
  | ok =>
    refine ⟨composeContentDrift_agrees hchecksum, fun file hfile hmatch ↦ ?_⟩
    obtain ⟨source, -, rfl⟩ := mem_map.mp hfile
    have htarget : (configFileDrift checksum secretValues reads source).targetPath =
        source.targetPath := by
      unfold configFileDrift
      dsimp only
      repeat' split
      all_goals rfl
    rw [htarget]
    exact configFileDrift_agrees hchecksum hmatch

end

/-- A deployment whose compose file is `rendered`, and is `host` on the host. -/
def twoSecrets (rendered host : Text) : DriftReads where
  deployment := ⟨"api-web", "api", some "/opt/api/docker-compose.yml",
    ⟨"web", "web", "web", .ssh, "remote", "production"⟩, ⟨"api", "api", "1.0", ⟨"api", "api", none⟩⟩⟩
  source := ⟨"api-web", "api", "production", "api", "1.0", "api", none, [], [], [], []⟩
  exposedPorts := []
  manifestDigest := none
  configFileName := id
  secretValues := .ok ["alice".toList, "bob".toList]
  siblingCount := 1
  artifacts := .ok ⟨⟨"docker-compose.yml", rendered⟩, []⟩
  resolve _ := .error ""
  dockerClient := false
  fileClient := true
  clientError := none
  connected := .ok ()
  digests := .error ""
  info := .error ""
  env := .error ""
  cat _ := .ok ⟨0, host, ""⟩

theorem matchSound_twoSecrets : ∃ report,
    computeDeploymentDrift String.ofList (twoSecrets "image: api".toList "image: api\n".toList) =
      .ok report ∧ MatchSound ["alice".toList, "bob".toList]
        (twoSecrets "image: api".toList "image: api\n".toList) report.drift :=
  ⟨_, rfl, matchSound (fun _ _ ↦ String.ofList_injective) rfl rfl⟩

/-- Different contents are reported as equal. -/
theorem matches_different : ∃ report,
    computeDeploymentDrift String.ofList (twoSecrets "user: alice".toList "user: bob".toList) =
        .ok report ∧
      report.drift.composeContent.isMatch = some true ∧
      trimEnd "user: bob".toList ≠ trimEnd "user: alice".toList :=
  ⟨_, rfl, by decide +kernel, by decide +kernel⟩

end

end Bridgeport.Deploy
