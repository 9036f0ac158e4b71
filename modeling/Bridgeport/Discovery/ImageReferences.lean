import Bridgeport.Discovery.DiscoverContainers
import Bridgeport.Registries.RegistryLogin

/-!
# Image references

Five places take an image reference apart, and all of them split it at its first colon:
`parseRegistryFromImage`, `extractImageName`, `stripRegistryPrefix`, `discoverContainers` and the
refresh of a deployment's health. The colon may be that of a port or of a digest, though, and the
registry is told from a path by the number of segments and a dot in the first one. So the places
agree with the grammar exactly for the references that are `Supported` (`splitCorrectly_iff`).

`findOrCreateRegistry` takes the first connection of which the URL contains what is read as the
registry, or is contained in it, or the pattern matches; neither makes the hosts one host.
-/

namespace Bridgeport.Discovery

open Docker List Secrets

/-! ### References -/

/-- `[host[:port]/]path[:tag][@digest]`. Without a host the first of several segments must not look
like one, for it would be read as the host. -/
structure ImageReference where
  host : Option (Text × Option Text)
  path : List Text
  (tag digest : Option Text)
  path_ne_nil : path ≠ []
  host_form : ∀ name port, host = some (name, port) →
    ('.' ∈ name ∨ port ≠ none ∨ name = "localhost".toList) ∧ '/' ∉ name ∧ ':' ∉ name
  path_form : ∀ segment ∈ path, '/' ∉ segment ∧ ':' ∉ segment ∧ '@' ∉ segment
  head_form : host = none → 2 ≤ path.length → ∀ segment ∈ path.head?,
    '.' ∉ segment ∧ segment ≠ "localhost".toList
  tag_form : ∀ text ∈ tag, text ≠ [] ∧ ':' ∉ text ∧ '@' ∉ text ∧ '/' ∉ text

def hostText (host : Text × Option Text) : Text :=
  host.1 ++ (host.2.map (':' :: ·)).getD []

namespace ImageReference

variable (reference : ImageReference)

def parts : List Text :=
  (reference.host.map hostText).toList ++ reference.path

/-- The reference without tag and digest. -/
def name : Text :=
  ['/'].intercalate reference.parts

def text : Text :=
  reference.name ++ (reference.tag.map (':' :: ·)).getD [] ++
    (reference.digest.map ('@' :: ·)).getD []

/-- There is no digest, no port, and the registry shows in the number of the parts or in a dot. -/
def Supported : Prop :=
  reference.digest = none ∧ match reference.host with
    | none => reference.path.length ≤ 2
    | some (name, port) => port = none ∧ ('.' ∈ name ∨ 2 ≤ reference.path.length)

end ImageReference

def extractImageName (fullImagePath : Text) : Text :=
  (((fullImagePath.splitOn ':').getD 0 []).splitOn '/').getLastD []

def stripRegistryPrefix (imageName : Text) : Text :=
  let nameWithoutTag := (imageName.splitOn ':').getD 0 []
  let parts := nameWithoutTag.splitOn '/'
  if parts.length = 1 ∨ (parts.length = 2 ∧ '.' ∉ parts.getD 0 []) then nameWithoutTag
  else ['/'].intercalate (parts.drop 1)

/-- `currentImageTag`, for the image of the container and the tag of the service. -/
def currentImageTag (image previous : Text) : Text :=
  match nonempty image with
  | none => previous
  | some image => (((image.splitOn ':')[1]?).bind nonempty).getD previous

/-- All places take a reference apart as the grammar does. -/
structure SplitCorrectly (reference : ImageReference) : Prop where
  registry : (parseRegistryFromImage reference.text).1 =
    (reference.host.map hostText).getD "docker.io".toList
  repository : stripRegistryPrefix reference.text = ['/'].intercalate reference.path
  lastSegment : extractImageName reference.text = reference.path.getLastD []
  discovered : ∀ listed info, fullImagePath listed info = reference.text →
    (observe listed info).imageName = reference.name ∧
      (observe listed info).imageTag = reference.tag.getD "latest".toList
  refreshed : ∀ previous, currentImageTag reference.text previous = reference.tag.getD previous

theorem getD_zero_splitOn (separator : Char) (text : Text) :
    (text.splitOn separator).getD 0 [] = text.takeWhile (· ≠ separator) := by
  induction text with
  | nil => rfl
  | cons first rest ih =>
    rw [splitOn_cons_eq_if_modifyHead]
    by_cases h : first = separator
    · simp [h]
    · cases hpieces : rest.splitOn separator with
      | nil => exact absurd hpieces (splitOn_ne_nil _ _)
      | cons piece pieces =>
        rw [hpieces] at ih
        simpa [h] using ih

/-- A text that goes on with another character than the separator is no whole piece. -/
theorem getD_zero_splitOn_append_ne {separator mark : Char} (hmark : mark ≠ separator)
    {front : Text} (hfront : separator ∉ front) (rest : Text) :
    ((front ++ mark :: rest).splitOn separator).getD 0 [] ≠ front := by
  have hall : ∀ character ∈ front, decide (character ≠ separator) = true := fun _ hmem ↦
    decide_eq_true fun hsame ↦ hfront (hsame ▸ hmem)
  rw [getD_zero_splitOn, takeWhile_append_of_pos hall, takeWhile_cons,
    if_pos (decide_eq_true hmark)]
  simp

theorem notMem_intercalate {character joint : Char} (hjoint : character ≠ joint)
    {pieces : List Text} (h : ∀ piece ∈ pieces, character ∉ piece) :
    character ∉ [joint].intercalate pieces := by
  induction pieces with
  | nil => exact not_mem_nil
  | cons first pieces ih =>
    obtain ⟨hfirst, hlater⟩ := forall_mem_cons.mp h
    cases pieces with
    | nil => rwa [intercalate_singleton]
    | cons second pieces =>
      rw [intercalate_cons_cons]
      simp only [mem_append, mem_singleton, not_or]
      exact ⟨⟨hfirst, hjoint⟩, ih hlater⟩

namespace ImageReference

variable {reference : ImageReference} {host port : Text}

section

variable (hport : ∀ entry ∈ reference.host, entry.2 = none)
include hport

theorem parts_eq : reference.parts = (reference.host.map Prod.fst).toList ++ reference.path := by
  unfold parts
  cases hhost : reference.host with
  | none => rfl
  | some entry =>
    obtain ⟨host, port⟩ := entry
    obtain rfl : port = none := hport _ hhost
    simp [hostText]

theorem part_form : ∀ part ∈ reference.parts, '/' ∉ part ∧ ':' ∉ part := by
  rw [parts_eq hport]
  intro part hpart
  rcases mem_append.mp hpart with hhost | hsegment
  · obtain ⟨⟨host, port⟩, hentry, rfl⟩ := Option.map_eq_some_iff.mp (Option.mem_toList.mp hhost)
    exact (reference.host_form host port hentry).2
  · exact ⟨(reference.path_form part hsegment).1, (reference.path_form part hsegment).2.1⟩

theorem colon_notMem_name : ':' ∉ reference.name :=
  notMem_intercalate (by decide) fun part hpart ↦ (part_form hport part hpart).2

theorem splitOn_name : reference.name.splitOn '/' = reference.parts :=
  splitOn_intercalate _ (fun part hpart ↦ (part_form hport part hpart).1)
    (append_ne_nil_of_right_ne_nil _ reference.path_ne_nil)

theorem splitOn_text (hdigest : reference.digest = none) :
    reference.text.splitOn ':' = reference.name :: reference.tag.toList := by
  have hname := colon_notMem_name hport
  rw [text, hdigest, Option.map_none, Option.getD_none, append_nil]
  cases htag : reference.tag with
  | none =>
    rw [Option.map_none, Option.getD_none, append_nil, splitOn_eq_singleton hname]
    rfl
  | some tag =>
    rw [Option.map_some, Option.getD_some, splitOn_append_cons_self_of_not_mem hname,
      splitOn_eq_singleton (reference.tag_form tag htag).2.1]
    rfl

end

/-- With a port nothing but the host is in front of the first colon. -/
theorem splitOn_text_port (hhost : reference.host = some (host, some port)) :
    (reference.text.splitOn ':').getD 0 [] = host := by
  have htext : ∃ rest, reference.text = host ++ ':' :: rest := by
    obtain ⟨segment, path, hpath⟩ := exists_cons_of_ne_nil reference.path_ne_nil
    unfold text name parts
    rw [hhost, hpath]
    exact ⟨port ++ '/' :: (['/'].intercalate (segment :: path) ++
      ((reference.tag.map (':' :: ·)).getD [] ++ (reference.digest.map ('@' :: ·)).getD [])),
      by simp [hostText]⟩
  obtain ⟨rest, htext⟩ := htext
  have hcolon := (reference.host_form host (some port) hhost).2.2
  rw [htext, splitOn_append_cons_self_of_not_mem hcolon, getD_cons_zero]

/-- The test for Docker Hub. -/
def LooksLikeHub (parts : List Text) : Prop :=
  parts.length = 1 ∨ (parts.length = 2 ∧ '.' ∉ parts.getD 0 [])

instance (parts : List Text) : Decidable (LooksLikeHub parts) :=
  inferInstanceAs (Decidable (_ ∨ _))

section

variable (hport : ∀ entry ∈ reference.host, entry.2 = none) (hdigest : reference.digest = none)
include hport hdigest

theorem looksLikeHub_iff : (LooksLikeHub reference.parts ↔ reference.host = none) ↔
    reference.Supported := by
  obtain ⟨segment, path, hpath⟩ := exists_cons_of_ne_nil reference.path_ne_nil
  rw [Supported, LooksLikeHub, parts_eq hport]
  cases hhost : reference.host with
  | none =>
    have hdot : 2 ≤ reference.path.length → '.' ∉ segment := fun hlong ↦
      (reference.head_form hhost hlong segment (hpath ▸ rfl)).1
    rw [hpath] at hdot ⊢
    simp only [Option.map_none, Option.toList_none, nil_append, length_cons, getD_cons_zero,
      hdigest] at hdot ⊢
    grind
  | some entry =>
    obtain ⟨host, port⟩ := entry
    obtain rfl : port = none := hport _ hhost
    simp only [Option.map_some, Option.toList_some, singleton_append, length_cons, getD_cons_zero,
      hdigest, hpath]
    grind

theorem registry_iff : (parseRegistryFromImage reference.text).1 =
    (reference.host.map hostText).getD "docker.io".toList ↔
      (LooksLikeHub reference.parts ↔ reference.host = none) := by
  have hparse : (parseRegistryFromImage reference.text).1 =
      if LooksLikeHub reference.parts then "docker.io".toList else reference.parts.getD 0 [] := by
    rw [parseRegistryFromImage, splitOn_text hport hdigest, getD_cons_zero, splitOn_name hport]
    exact apply_ite Prod.fst _ _ _
  obtain ⟨segment, path, hpath⟩ := exists_cons_of_ne_nil reference.path_ne_nil
  have hparts := parts_eq hport
  rw [hparse]
  cases hhost : reference.host with
  | none =>
    rw [hhost, hpath] at hparts
    have hfirst : reference.parts.getD 0 [] = segment := by rw [hparts]; rfl
    split_ifs with hhub
    · exact iff_of_true rfl (iff_of_true hhub rfl)
    · refine iff_of_false (fun hsame ↦ hhub ?_) fun hcase ↦ hhub (hcase.mpr rfl)
      have hdot : '.' ∈ segment := by
        rw [← hfirst, hsame]
        decide
      rw [LooksLikeHub, hparts]
      cases path with
      | nil => exact .inl rfl
      | cons second later =>
        have hlong : 2 ≤ reference.path.length := by simp [hpath]
        exact absurd hdot (reference.head_form hhost hlong segment (hpath ▸ rfl)).1
  | some entry =>
    obtain ⟨host, port⟩ := entry
    obtain rfl : port = none := hport _ hhost
    rw [hhost, hpath] at hparts
    have htext : hostText (host, none) = host := append_nil host
    have hfirst : reference.parts.getD 0 [] = host := by rw [hparts]; rfl
    rw [Option.map_some, Option.getD_some, htext, hfirst]
    split_ifs with hhub
    · refine iff_of_false (fun hsame ↦ ?_) fun hcase ↦ (by simpa using hcase.mp hhub)
      have hdot : '.' ∉ host := by
        rw [LooksLikeHub, hfirst, hparts] at hhub
        exact (hhub.resolve_left (by simp)).2
      exact hdot (hsame ▸ (by decide : '.' ∈ "docker.io".toList))
    · exact iff_of_true rfl (iff_of_false hhub nofun)

end

end ImageReference

variable (reference : ImageReference)

/-- An image reference is split correctly in all places exactly if it has no digest, no port, and
its registry shows. -/
theorem splitCorrectly_iff : SplitCorrectly reference ↔ reference.Supported := by
  constructor
  · intro h
    have hdiscovered := h.discovered ⟨[], reference.text, [], none⟩ ⟨[], false, none, [], []⟩ rfl
    obtain ⟨himage, htag⟩ : (reference.text.splitOn ':').getD 0 [] = reference.name ∧
      (reference.text.splitOn ':').getD 1 "latest".toList = reference.tag.getD "latest".toList :=
      hdiscovered
    have hport : ∀ entry ∈ reference.host, entry.2 = none := by
      rintro ⟨host, port⟩ hhost
      cases port with
      | none => rfl
      | some port =>
        have hslash := (reference.host_form host (some port) hhost).2.1
        have hregistry := h.registry
        rw [parseRegistryFromImage, ImageReference.splitOn_text_port hhost,
          splitOn_eq_singleton hslash, hhost] at hregistry
        have hmem : ':' ∈ "docker.io".toList := by
          rw [show "docker.io".toList = host ++ ':' :: port from hregistry]
          simp
        exact absurd hmem (by decide)
    have hdigest : reference.digest = none := by
      cases hdigest : reference.digest with
      | none => rfl
      | some digest =>
        have hname := reference.colon_notMem_name hport
        cases hreference : reference.tag with
        | none =>
          have htext : reference.text = reference.name ++ '@' :: digest := by
            simp [ImageReference.text, hdigest, hreference]
          rw [htext] at himage
          exact absurd himage (getD_zero_splitOn_append_ne (by decide) hname digest)
        | some tag =>
          have htext : reference.text = reference.name ++ ':' :: (tag ++ '@' :: digest) := by
            simp [ImageReference.text, hdigest, hreference]
          rw [htext, splitOn_append_cons_self_of_not_mem hname, getD_cons_succ, hreference] at htag
          have hmore := getD_zero_splitOn_append_ne (show '@' ≠ ':' by decide)
            (reference.tag_form tag hreference).2.1 digest
          cases hsplit : (tag ++ '@' :: digest).splitOn ':' with
          | nil => exact absurd hsplit (splitOn_ne_nil _ _)
          | cons piece pieces =>
            rw [hsplit] at htag hmore
            exact absurd htag hmore
    exact (reference.looksLikeHub_iff hport hdigest).mp
      ((reference.registry_iff hport hdigest).mp h.registry)
  · intro h
    have hdigest := h.1
    have hport : ∀ entry ∈ reference.host, entry.2 = none := by
      intro entry hentry
      have hhost := h.2
      rw [show reference.host = some entry from hentry] at hhost
      exact hhost.1
    have hpieces := reference.splitOn_text hport hdigest
    have hparts := reference.splitOn_name hport
    have hhub := (reference.looksLikeHub_iff hport hdigest).mpr h
    refine ⟨(reference.registry_iff hport hdigest).mpr hhub, ?_, ?_, ?_, fun previous ↦ ?_⟩
    · rw [stripRegistryPrefix, hpieces, getD_cons_zero, hparts]
      cases hhost : reference.host with
      | none =>
        have hcase : _ ∨ _ := hhub.mpr hhost
        rw [if_pos hcase, ImageReference.name, ImageReference.parts, hhost]
        rfl
      | some entry =>
        have hprivate : ¬ (_ ∨ _) := fun hcase : ImageReference.LooksLikeHub reference.parts ↦
          nomatch hhost.symm.trans (hhub.mp hcase)
        rw [if_neg hprivate, ImageReference.parts, hhost]
        rfl
    · rw [extractImageName, hpieces, getD_cons_zero, hparts, ImageReference.parts]
      rcases eq_nil_or_concat reference.path with hempty | ⟨path, last, hpath⟩
      · exact absurd hempty reference.path_ne_nil
      · simp [hpath]
    · intro listed info hpath
      simp only [observe, hpath, hpieces, getD_cons_zero, getD_cons_succ, true_and]
      cases reference.tag <;> rfl
    · unfold currentImageTag nonempty
      split_ifs with hempty
      · rw [hempty] at hpieces
        have htag : reference.tag.toList = [] := (cons_eq_cons.mp hpieces.symm).2
        rw [Option.toList_eq_nil_iff.mp htag, Option.getD_none]
      · dsimp only
        rw [hpieces]
        cases htag : reference.tag with
        | none => rfl
        | some tag => simp [(reference.tag_form tag htag).1]

def registryWithPort : ImageReference where
  host := some ("registry.example.com".toList, some "5000".toList)
  path := ["team".toList, "app".toList]
  tag := some "1.2".toList
  digest := none
  path_ne_nil := by decide
  host_form := by
    rintro name port ⟨⟩
    decide
  path_form := by decide
  head_form := nofun
  tag_form := by
    rintro text ⟨⟩
    decide

/-- Its registry is taken for Docker Hub. -/
theorem registryWithPort_misread : ¬ SplitCorrectly registryWithPort := fun h ↦
  absurd h.registry (by decide)

/-! ### Registry links -/

section

open Foundation

def dockerHub : Text :=
  "docker.io".toList

/-- Docker Hub goes by several names. -/
def canonicalHost (host : Text) : Text :=
  if host ∈ ["index.docker.io".toList, "registry-1.docker.io".toList, "hub.docker.com".toList] then
    dockerHub
  else host

def registryHost (registryUrl : Text) : Text :=
  canonicalHost ((Registries.withoutScheme registryUrl).takeWhile (· ≠ '/'))

def ImageReference.registryHost : Text :=
  canonicalHost ((reference.host.map hostText).getD dockerHub)

section

variable (runtime : Runtime)

/-- The test of the pattern of a connection: `none` without one, `some none` where it throws. -/
def patternTest (imageName : Text) (registry : Registry) : Option (Option Bool) :=
  (registry.autoLinkPattern.bind nonempty).map (runtime.test · imageName)

variable (registryUrl : Text)

/-- One of the two texts contains the other. -/
def Overlaps (registry : Registry) : Prop :=
  registryUrl <:+: registry.registryUrl ∨ registry.registryUrl <:+: registryUrl

instance : DecidablePred (Overlaps registryUrl) :=
  fun _ ↦ inferInstanceAs (Decidable (_ ∨ _))

/-- The loop of `findOrCreateRegistry` does not go on behind the connection. -/
def Stops (imageName : Text) (registry : Registry) : Prop :=
  Overlaps registryUrl registry ∨ patternTest runtime imageName registry = some (some true) ∨
    patternTest runtime imageName registry = some none

instance (imageName : Text) : DecidablePred (Stops runtime registryUrl imageName) :=
  fun _ ↦ inferInstanceAs (Decidable (_ ∨ _))

variable (reference : ImageReference)

/-- The connection is one for the image. -/
def Fits (registry : Registry) : Prop :=
  registryHost registry.registryUrl = reference.registryHost ∨
    patternTest runtime reference.text registry = some (some true)

variable (environmentId : String) (inventory : Inventory)

/-- A connection that fits is returned; where there is none, Docker Hub gets none and every other
host a new one. -/
def LinksByHost (result : Except Failure (Inventory × Option String)) : Prop :=
  (∃ registry ∈ inventory.registriesOf environmentId, Fits runtime reference registry ∧
      result = .ok (inventory, some registry.id)) ∨
    (∀ registry ∈ inventory.registriesOf environmentId, ¬ Fits runtime reference registry) ∧
      if reference.registryHost = dockerHub then result = .ok (inventory, none)
      else ∃ registry : Registry, inventory.registries.Fresh registry.id ∧
        registry.environmentId = environmentId ∧
        registryHost registry.registryUrl = reference.registryHost ∧ result = .ok
          ({ inventory with registries := inventory.registries.insert registry }, some registry.id)

/-- The connection at which the loop stops has the host or a pattern that matches. Where it stops
at none, none has the host, and the registry that is read is that of the image and can be added. -/
def Linkable : Prop :=
  let read := parseRegistryFromImage reference.text
  match (inventory.registriesOf environmentId).find? (Stops runtime read.1 reference.text) with
  | some registry =>
    patternTest runtime reference.text registry = some (some true) ∨
      Overlaps read.1 registry ∧ registryHost registry.registryUrl = reference.registryHost
  | none =>
    (∀ registry ∈ inventory.registriesOf environmentId,
      registryHost registry.registryUrl ≠ reference.registryHost) ∧
      if reference.registryHost = dockerHub then read.2 = true
      else read.2 = false ∧ canonicalHost read.1 = reference.registryHost ∧
        ∀ other ∈ inventory.registries.rows, other.environmentName ≠
          (newRegistry runtime inventory environmentId read.1).environmentName

end

section

variable {runtime : Runtime} {reference : ImageReference} {environmentId : String}
  {inventory : Inventory}

theorem matchRegistry_eq (registryUrl imageName : Text) (registries : List Registry) :
    matchRegistry runtime registryUrl imageName registries =
      match registries.find? (Stops runtime registryUrl imageName) with
      | none => .ok none
      | some registry =>
        if patternTest runtime imageName registry = some (some true) ∨
          Overlaps registryUrl registry then .ok (some registry.id) else .error .pattern := by
  induction registries with
  | nil => rfl
  | cons registry registries ih =>
    rw [matchRegistry, find?_cons, ih]
    by_cases hurl : Overlaps registryUrl registry
    · have hstops : Stops runtime registryUrl imageName registry := .inl hurl
      simp only [decide_eq_true hstops, if_pos (show _ ∨ _ from hurl), if_pos (Or.inr hurl)]
    · rw [if_neg (show ¬ (_ ∨ _) from hurl)]
      cases hpattern : registry.autoLinkPattern.bind nonempty with
      | none => simp [Stops, hurl, patternTest, hpattern]
      | some pattern =>
        rcases htest : runtime.test pattern imageName with _ | _ | _ <;>
          simp [Stops, hurl, patternTest, hpattern, htest]

theorem registryHost_https (imageName : Text) (h : (parseRegistryFromImage imageName).2 = false) :
    registryHost ("https://".toList ++ (parseRegistryFromImage imageName).1) =
      canonicalHost (parseRegistryFromImage imageName).1 := by
  have hscheme (url : Text) : Registries.withoutScheme ("https://".toList ++ url) = url := by
    rw [Registries.withoutScheme, if_pos (prefix_append _ _)]
    rfl
  rw [registryHost, hscheme]
  unfold parseRegistryFromImage at h ⊢
  dsimp only at h ⊢
  split_ifs at h ⊢
  rw [getD_zero_splitOn, takeWhile_idem]

theorem linksByHost_some {found : Registry} (h : found ∈ inventory.registriesOf environmentId) :
    LinksByHost runtime reference environmentId inventory (.ok (inventory, some found.id)) ↔
      Fits runtime reference found := by
  have hrows {registry : Registry} (hmem : registry ∈ inventory.registriesOf environmentId) :
      registry ∈ inventory.registries.rows := (mem_filter.mp hmem).1
  refine ⟨fun hlinks ↦ ?_, fun hfits ↦ .inl ⟨found, h, hfits, rfl⟩⟩
  rcases hlinks with ⟨registry, hmem, hfits, hresult⟩ | ⟨-, hnew⟩
  · simp only [Except.ok.injEq, Prod.mk.injEq, Option.some.injEq, true_and] at hresult
    rwa [Table.eq_of_id_eq (hrows h) (hrows hmem) hresult]
  · split_ifs at hnew
    · simp at hnew
    · obtain ⟨registry, hfresh, -, -, hresult⟩ := hnew
      simp only [Except.ok.injEq, Prod.mk.injEq, Option.some.injEq] at hresult
      exact absurd (mem_map_of_mem (hrows h)) (hresult.2 ▸ hfresh)

theorem linksByHost_none :
    LinksByHost runtime reference environmentId inventory (.ok (inventory, none)) ↔
      (∀ registry ∈ inventory.registriesOf environmentId, ¬ Fits runtime reference registry) ∧
        reference.registryHost = dockerHub := by
  unfold LinksByHost
  split_ifs with hdocker <;> simp only [hdocker] <;> simp

theorem linksByHost_insert {created : Registry} (hfresh : inventory.registries.Fresh created.id)
    (henvironment : created.environmentId = environmentId) :
    LinksByHost runtime reference environmentId inventory (.ok
        ({ inventory with registries := inventory.registries.insert created }, some created.id)) ↔
      (∀ registry ∈ inventory.registriesOf environmentId, ¬ Fits runtime reference registry) ∧
        reference.registryHost ≠ dockerHub ∧
        registryHost created.registryUrl = reference.registryHost := by
  constructor
  · rintro (⟨registry, hmem, -, hresult⟩ | ⟨hall, hnew⟩)
    · simp only [Except.ok.injEq, Prod.mk.injEq, Option.some.injEq] at hresult
      exact absurd (mem_map_of_mem (mem_filter.mp hmem).1) (hresult.2 ▸ hfresh)
    · split_ifs at hnew with hdocker
      · simp at hnew
      · obtain ⟨registry, hother, -, hhost, hresult⟩ := hnew
        simp only [Except.ok.injEq, Prod.mk.injEq, Inventory.mk.injEq, and_true,
          Option.some.injEq] at hresult
        have hmem : created ∈ (inventory.registries.insert registry).rows := by
          rw [← hresult.1, Table.rows_insert hfresh]
          simp
        rcases Table.mem_insert hmem with hold | rfl
        · exact absurd (mem_map_of_mem hold) hfresh
        · exact ⟨hall, hdocker, hhost⟩
  · rintro ⟨hall, hdocker, hhost⟩
    refine .inr ⟨hall, ?_⟩
    rw [if_neg hdocker]
    exact ⟨created, hfresh, henvironment, hhost, rfl⟩

theorem not_linksByHost_error (failure : Failure) :
    ¬ LinksByHost runtime reference environmentId inventory (.error failure) := by
  unfold LinksByHost
  split_ifs <;> simp

/-- A connection is linked by its host exactly if the texts that are compared agree with it. -/
theorem linksByHost_iff : LinksByHost runtime reference environmentId inventory
      (findOrCreateRegistry runtime environmentId reference.text inventory) ↔
    Linkable runtime reference environmentId inventory := by
  have hhost := registryHost_https reference.text
  unfold Linkable findOrCreateRegistry
  generalize parseRegistryFromImage reference.text = read at hhost ⊢
  obtain ⟨url, hub⟩ := read
  dsimp only at hhost ⊢
  rw [matchRegistry_eq]
  cases hfind : (inventory.registriesOf environmentId).find? (Stops runtime url reference.text) with
  | some registry =>
    dsimp only
    by_cases hreturn : patternTest runtime reference.text registry = some (some true) ∨
      Overlaps url registry
    · rw [if_pos hreturn]
      dsimp only
      rw [linksByHost_some (mem_of_find?_eq_some hfind), Fits]
      exact ⟨fun hfits ↦ hfits.elim (fun hsame ↦ hreturn.imp_right (⟨·, hsame⟩)) .inl,
        fun hlinked ↦ hlinked.elim .inr (.inl ·.2)⟩
    · rw [if_neg hreturn]
      exact iff_of_false (not_linksByHost_error _) fun hlinked ↦
        hreturn (hlinked.imp_right And.left)
  | none =>
    have hfits : (∀ registry ∈ inventory.registriesOf environmentId,
        ¬ Fits runtime reference registry) ↔ ∀ registry ∈ inventory.registriesOf environmentId,
          registryHost registry.registryUrl ≠ reference.registryHost := by
      refine forall₂_congr fun registry hmem ↦ ?_
      have hstops : ¬ Stops runtime url reference.text registry := by
        simpa using find?_eq_none.mp hfind registry hmem
      exact not_congr (or_iff_left fun hmatches ↦ hstops (.inr (.inl hmatches)))
    have hfresh : inventory.registries.Fresh (newRegistry runtime inventory environmentId url).id :=
      Table.fresh_next _ _
    rw [← hfits]
    dsimp only
    cases hub with
    | true =>
      rw [if_pos rfl, linksByHost_none]
      split_ifs with hdocker
      · exact and_congr_right' (iff_of_true hdocker rfl)
      · exact and_congr_right' (iff_of_false hdocker (by simp))
    | false =>
      rw [if_neg (by simp)]
      have htaken : (inventory.registries.findBy? Registry.environmentName (newRegistry runtime
          inventory environmentId url).environmentName).isSome = false ↔ ∀ other ∈
            inventory.registries.rows, other.environmentName ≠
              (newRegistry runtime inventory environmentId url).environmentName := by
        rw [Option.isSome_eq_false_iff, Option.isNone_iff_eq_none, Table.findBy?_eq_none_iff]
      rw [← htaken]
      cases (inventory.registries.findBy? Registry.environmentName (newRegistry runtime inventory
          environmentId url).environmentName).isSome with
      | true =>
        rw [if_pos rfl]
        refine iff_of_false (not_linksByHost_error _) fun hlinked ↦ ?_
        have hcase := hlinked.2
        split_ifs at hcase
        exact hcase.2.2.elim
      | false =>
        have hnew : registryHost (newRegistry runtime inventory environmentId url).registryUrl =
            canonicalHost url := hhost rfl
        rw [if_neg (by simp), linksByHost_insert hfresh (rfl : _ = environmentId), hnew]
        split_ifs with hdocker
        · exact and_congr_right' (iff_of_false (fun hand ↦ hand.1 hdocker) (by simp))
        · exact and_congr_right' ((and_iff_right hdocker).trans (by simp))

end

def applicationImage : ImageReference where
  host := some ("example.com".toList, none)
  path := ["app".toList]
  tag := none
  digest := none
  path_ne_nil := by decide
  host_form := by
    rintro name port ⟨⟩
    decide
  path_form := by decide
  head_form := nofun
  tag_form := nofun

def teamRegistry : Registry :=
  ⟨"team", "team".toList, "generic".toList, "https://team.example.com".toList, none, "production"⟩

def teamInventory : Inventory :=
  ⟨⟨[teamRegistry], by decide⟩, .empty, .empty, .empty, .empty⟩

/-- The image of one host is linked to the registry of its subdomain. -/
theorem not_linksByHost_subdomain : ¬ LinksByHost ⟨.longer, fun _ _ ↦ some false⟩ applicationImage
    "production" teamInventory (findOrCreateRegistry ⟨.longer, fun _ _ ↦ some false⟩ "production"
      applicationImage.text teamInventory) := by
  have hmatch : matchRegistry ⟨.longer, fun _ _ ↦ some false⟩
      (parseRegistryFromImage applicationImage.text).1 applicationImage.text
        (teamInventory.registriesOf "production") = .ok (some teamRegistry.id) := by
    decide +kernel
  have hmem : teamRegistry ∈ teamInventory.registriesOf "production" := by decide +kernel
  rw [findOrCreateRegistry]
  dsimp only
  rw [hmatch, linksByHost_some hmem, Fits]
  decide +kernel

end

end Bridgeport.Discovery
