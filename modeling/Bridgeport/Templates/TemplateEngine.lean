import Bridgeport.Foundation.Trimming
import Bridgeport.ConfigSync.SyncConfigFile

/-!
# The template engine

`renderTemplate` of `services/template-engine.ts` renders the range blocks of a config file. A scan
for directives cuts the content into literals and blocks; each block is then rendered once per
server that its filters list, with the fields of its body replaced.

The function that lists the servers is a parameter. It may answer differently from call to call,
and an exception that it throws may carry a message.
-/

namespace Bridgeport.Templates

open Foundation Secrets ConfigSync List Option

/-- The attributes of a server that a body can refer to. -/
structure TemplateServer where
  (id name hostname : Text)
  publicIp : Option Text
  tags : List Text

structure TemplateServerFilters where
  tag : Option Text := none
  name : Option Text := none
  environment : Option Text := none

/-- The answers of `listServers`, by the number of the call and its filters. An exception carries
the message of an `Error`, or nothing. -/
abbrev ListServers :=
  ℕ → TemplateServerFilters → Except (Option String) (List TemplateServer)

structure TemplateResult where
  content : Text
  errors : List String
  deriving DecidableEq

variable (character : Char)

/-- The class `\w`. -/
def isWordCharacter : Bool :=
  character.isAlphanum || character = '_'

/-- The characters that `.` does not match. -/
def isLineTerminator : Bool :=
  character.toNat ∈ [0xa, 0xd, 0x2028, 0x2029]

/-- A text begins with a word and a boundary: `/^word\b/`. -/
def beginsWithWord (word text : Text) : Bool :=
  word.isPrefixOf text && !(text.drop word.length).head?.any isWordCharacter

/-! ### Directives -/

def openBraces : Text :=
  ['{', '{']

def closeBraces : Text :=
  ['}', '}']

/-- What stands between the braces of a directive at the front of a text, for the expression
`\{\{\s*([^}]+?)\s*\}\}`. The class `[^}]` has the white space too, so that the group and the white
space around it are all characters up to the first `}`. -/
def directiveAt : Text → Option Text
  | '{' :: '{' :: rest =>
    let raw := rest.takeWhile (· ≠ '}')
    if raw ≠ [] ∧ closeBraces <+: rest.dropWhile (· ≠ '}') then some raw else none
  | _ => none

/-- A match of the expression: its position and what stands between the braces. -/
structure Directive where
  index : ℕ
  raw : Text

/-- The position behind a match. -/
def Directive.stop (directive : Directive) : ℕ :=
  directive.index + directive.raw.length + 4

/-- `match[1].trim()`. -/
def inner (raw : Text) : Text :=
  trimBoth isTrimmed raw

def search (position : ℕ) : Text → Option Directive
  | [] => none
  | first :: rest =>
    match directiveAt (first :: rest) with
    | some raw => some ⟨position, raw⟩
    | none => search (position + 1) rest

/-- `exec` of the expression with a given `lastIndex`. -/
def exec (content : Text) (lastIndex : ℕ) : Option Directive :=
  search lastIndex (content.drop lastIndex)

/-- A directive that opens a block. -/
def isRange (raw : Text) : Bool :=
  beginsWithWord "range".toList (inner raw)

/-- A directive that closes a block. -/
def isEnd (raw : Text) : Bool :=
  inner raw = "end".toList

theorem directiveAt_eq_some {text raw : Text} (h : directiveAt text = some raw) :
    raw ≠ [] ∧ '}' ∉ raw ∧ ∃ rest, text = openBraces ++ raw ++ closeBraces ++ rest := by
  unfold directiveAt at h
  split at h
  · rename_i rest
    simp only [ite_none_right_eq_some, some.injEq] at h
    obtain ⟨hraw, rfl⟩ := h
    obtain ⟨after, hafter⟩ := hraw.2
    refine ⟨hraw.1, fun hmem ↦ ?_, after, ?_⟩
    · simpa using mem_takeWhile_imp hmem
    · have hsplit : rest.takeWhile (· ≠ '}') ++ (closeBraces ++ after) = rest := by
        rw [hafter, takeWhile_append_dropWhile]
      rw [openBraces, append_assoc, append_assoc, hsplit]
      rfl
  · exact absurd h (by simp)

variable {directive : Directive}

theorem search_stop {text : Text} {position : ℕ} (h : search position text = some directive) :
    position < directive.stop ∧ directive.stop ≤ position + text.length := by
  induction text generalizing position with
  | nil => exact absurd h (by simp [search])
  | cons first rest ih =>
    unfold search at h
    split at h
    · rename_i raw hraw
      obtain rfl := some.inj h
      obtain ⟨-, -, after, hafter⟩ := directiveAt_eq_some hraw
      rw [hafter]
      simp only [Directive.stop, openBraces, closeBraces, length_append, length_cons, length_nil]
      omega
    · obtain ⟨hbefore, hafter⟩ := ih h
      rw [length_cons]
      omega

variable {content : Text} {lastIndex : ℕ}

theorem exec_stop (h : exec content lastIndex = some directive) :
    content.length - directive.stop < content.length - lastIndex := by
  obtain ⟨hbefore, hafter⟩ := search_stop h
  rw [length_drop] at hafter
  omega

/-! ### Cutting the content into pieces -/

inductive Piece where
  | literal (text : Text)
  | range (head body : Text)

/-- How the scan for the end of a block ends. -/
inductive EndSearch where
  | nested
  | missing
  | found (endMatch : Directive)

/-- Scans forward for the end of a block, rejecting a nested block. -/
def findEnd (content : Text) (lastIndex : ℕ) : EndSearch :=
  match _h : exec content lastIndex with
  | none => .missing
  | some scan =>
    if isRange scan.raw then .nested
    else if isEnd scan.raw then .found scan
    else findEnd content scan.stop
termination_by content.length - lastIndex
decreasing_by exact exec_stop _h

/-- The end of a block at a depth, behind the blocks nested in it. -/
def outerEnd (content : Text) (depth lastIndex : ℕ) : Option Directive :=
  match _h : exec content lastIndex with
  | none => none
  | some skip =>
    if isRange skip.raw then outerEnd content (depth + 1) skip.stop
    else if isEnd skip.raw then
      if depth - 1 = 0 then some skip else outerEnd content (depth - 1) skip.stop
    else outerEnd content depth skip.stop
termination_by content.length - lastIndex
decreasing_by all_goals exact exec_stop _h

/-- The position at which the scan resumes behind a block that has nested blocks: behind its own
end, or at the end of the content. -/
def resumePosition (content : Text) (lastIndex : ℕ) : ℕ :=
  match outerEnd content 1 lastIndex with
  | some outer => outer.stop
  | none => content.length

theorem findEnd_stop {endMatch : Directive} (h : findEnd content lastIndex = .found endMatch) :
    content.length - endMatch.stop < content.length - lastIndex := by
  fun_induction findEnd content lastIndex with
  | case1 | case2 => exact absurd h (by simp)
  | case3 lastIndex scan hscan =>
    obtain rfl := EndSearch.found.inj h
    exact exec_stop hscan
  | case4 lastIndex scan hscan _ _ ih => exact (ih h).trans (exec_stop hscan)

theorem outerEnd_stop {depth : ℕ} {outer : Directive}
    (h : outerEnd content depth lastIndex = some outer) :
    content.length - outer.stop < content.length - lastIndex := by
  fun_induction outerEnd content depth lastIndex with
  | case1 => exact absurd h (by simp)
  | case2 depth lastIndex skip hskip _ ih => exact (ih h).trans (exec_stop hskip)
  | case3 depth lastIndex skip hskip =>
    obtain rfl := some.inj h
    exact exec_stop hskip
  | case4 depth lastIndex skip hskip _ _ _ ih => exact (ih h).trans (exec_stop hskip)
  | case5 depth lastIndex skip hskip _ _ ih => exact (ih h).trans (exec_stop hskip)

theorem resumePosition_le (content : Text) (lastIndex : ℕ) :
    content.length - resumePosition content lastIndex ≤ content.length - lastIndex := by
  unfold resumePosition
  split
  · exact (outerEnd_stop ‹_›).le
  · omega

/-- What the scan has gathered: the pieces in front of `cursor` and the errors. -/
structure Scanned where
  cursor : ℕ
  pieces : List Piece
  errors : List String

/-- `content.slice(start, stop)`. -/
def slice (content : Text) (start stop : ℕ) : Text :=
  (content.take stop).drop start

/-- The loop of `exec` over the directives of a template. -/
def scanPieces (content : Text) (lastIndex : ℕ) (scanned : Scanned) : Scanned :=
  match _h : exec content lastIndex with
  | none => scanned
  | some directive =>
    if isRange directive.raw then
      let literal := Piece.literal (slice content scanned.cursor directive.index)
      match _hend : findEnd content directive.stop with
      | .nested =>
        scanPieces content (resumePosition content directive.stop)
          { cursor := resumePosition content directive.stop
            pieces := scanned.pieces ++ [literal]
            errors := scanned.errors ++ ["Nested \x7b\x7brange\x7d\x7d blocks are not supported"] }
      | .missing =>
        { scanned with errors := scanned.errors ++ ["Unclosed \x7b\x7brange\x7d\x7d block"] }
      | .found endMatch =>
        scanPieces content endMatch.stop
          { cursor := endMatch.stop
            pieces := scanned.pieces ++ [literal, .range (inner directive.raw)
              (slice content directive.stop endMatch.index)]
            errors := scanned.errors }
    else if isEnd directive.raw then
      scanPieces content directive.stop
        { scanned with errors := scanned.errors ++
            ["Unexpected \x7b\x7bend\x7d\x7d with no matching \x7b\x7brange\x7d\x7d"] }
    else scanPieces content directive.stop scanned
termination_by content.length - lastIndex
decreasing_by
  · exact (resumePosition_le content _).trans_lt (exec_stop _h)
  · exact (findEnd_stop _hend).trans (exec_stop _h)
  · exact exec_stop _h
  · exact exec_stop _h

/-- The pieces of a content, the last one behind the last block. -/
def piecesOf (content : Text) : List Piece × List String :=
  let scanned := scanPieces content 0 ⟨0, [], []⟩
  (scanned.pieces ++ [.literal (content.drop scanned.cursor)], scanned.errors)

/-! ### The head of a block -/

def validFilterKeys : List Text :=
  ["tag".toList, "name".toList, "environment".toList]

/-- `filters[key] = value`, for a key of `validFilterKeys`. -/
def TemplateServerFilters.set (filters : TemplateServerFilters) (key value : Text) :
    TemplateServerFilters :=
  if key = "tag".toList then { filters with tag := some value }
  else if key = "name".toList then { filters with name := some value }
  else if key = "environment".toList then { filters with environment := some value }
  else filters

/-- The arguments of a head: `/^range\s+servers\b\s*(.*)$/`. -/
def rangeArguments (head : Text) : Option Text :=
  if "range".toList <+: head ∧ (head.drop 5).head?.any isTrimmed then
    let source := (head.drop 5).dropWhile isTrimmed
    let arguments := (source.drop 7).dropWhile isTrimmed
    if beginsWithWord "servers".toList source ∧ ¬ arguments.any isLineTerminator then
      some arguments
    else none
  else none

/-- A quoted value as it is written, up to its closing quote, and the text behind the quote:
`((?:[^"\\]|\\.)*)"`. -/
def readQuoted : Text → Option (Text × Text)
  | [] => none
  | first :: rest =>
    if first = '"' then some ([], rest)
    else if first = '\\' then
      match rest with
      | [] => none
      | escaped :: rest =>
        if isLineTerminator escaped then none
        else (readQuoted rest).map fun (raw, after) ↦ (first :: escaped :: raw, after)
    else (readQuoted rest).map fun (raw, after) ↦ (first :: raw, after)

/-- `rawValue.replace(/\\(.)/g, '$1')`. -/
def unescape (rawValue : Text) : Text :=
  scan (fun
    | '\\' :: escaped :: _ => if isLineTerminator escaped then none else some (escaped, 2)
    | _ => none) id rawValue

/-- The filter at the front of a text, with its raw value, and the text behind it:
`(\w+)\s*=\s*"((?:[^"\\]|\\.)*)"\s*`. -/
def filterAt (text : Text) : Option (Text × Text × Text) :=
  let key := text.takeWhile isWordCharacter
  match (text.dropWhile isWordCharacter).dropWhile isTrimmed with
  | '=' :: assigned =>
    match assigned.dropWhile isTrimmed with
    | '"' :: quoted =>
      if key = [] then none
      else (readQuoted quoted).map fun (rawValue, rest) ↦ (key, rawValue, rest.dropWhile isTrimmed)
    | _ => none
  | _ => none

theorem readQuoted_length {text rawValue after : Text}
    (h : readQuoted text = some (rawValue, after)) : after.length < text.length := by
  fun_induction readQuoted text generalizing rawValue after with
  | case1 => exact absurd h (by simp)
  | case2 =>
    obtain ⟨-, rfl⟩ := Prod.mk.inj (some.inj h)
    exact Nat.lt_succ_self _
  | case3 | case4 => exact absurd h (by simp)
  | case5 _ _ _ _ ih =>
    obtain ⟨⟨raw, behind⟩, hread, hpair⟩ := map_eq_some_iff.mp h
    obtain ⟨-, rfl⟩ := Prod.mk.inj hpair
    exact (ih hread).trans (by simp only [length_cons]; omega)
  | case6 _ _ _ _ ih =>
    obtain ⟨⟨raw, behind⟩, hread, hpair⟩ := map_eq_some_iff.mp h
    obtain ⟨-, rfl⟩ := Prod.mk.inj hpair
    exact (ih hread).trans (Nat.lt_succ_self _)

theorem filterAt_length {text key rawValue rest : Text}
    (h : filterAt text = some (key, rawValue, rest)) : rest.length < text.length := by
  unfold filterAt at h
  simp only at h
  split at h
  · rename_i assigned hassigned
    split at h
    · rename_i quoted hquoted
      simp only [ite_none_left_eq_some, map_eq_some_iff, Prod.mk.injEq] at h
      obtain ⟨-, ⟨raw, after⟩, hread, -, -, rfl⟩ := h
      have hkey := ((text.dropWhile isWordCharacter).dropWhile_sublist isTrimmed).length_le.trans
        (text.dropWhile_sublist isWordCharacter).length_le
      have hequals := (assigned.dropWhile_sublist isTrimmed).length_le
      have hvalue := readQuoted_length hread
      have hafter : (after.dropWhile isTrimmed).length ≤ after.length :=
        (after.dropWhile_sublist isTrimmed).length_le
      rw [hassigned, length_cons] at hkey
      rw [hquoted, length_cons] at hequals
      show (after.dropWhile isTrimmed).length < text.length
      omega
    · exact absurd h (by simp)
  · exact absurd h (by simp)

/-- The loop over the filters: what they set, and the text that is not consumed. -/
def readFilters (rest : Text) (filters : TemplateServerFilters) :
    Except String (TemplateServerFilters × Text) :=
  match _h : filterAt rest with
  | none => .ok (filters, rest)
  | some (key, rawValue, behind) =>
    if key ∈ validFilterKeys then readFilters behind (filters.set key (unescape rawValue))
    else .error ("Unknown filter \"" ++ String.ofList key ++ "\" in range directive")
termination_by rest.length
decreasing_by exact filterAt_length _h

def parseRangeHead (head : Text) : Except String TemplateServerFilters :=
  match rangeArguments (inner head) with
  | none => .error ("Invalid range directive: \"" ++ String.ofList (inner head) ++ "\"")
  | some arguments =>
    let argsPart := inner arguments
    match readFilters argsPart {} with
    | .error error => .error error
    | .ok (filters, rest) =>
      if inner rest = [] then .ok filters
      else .error ("Malformed filters in range directive: \"" ++ String.ofList argsPart ++ "\"")

/-! ### The body of a block -/

def validFields : List Text :=
  ["name".toList, "hostname".toList, "publicIp".toList, "privateIp".toList, "id".toList,
    "tags".toList]

def renderField (server : TemplateServer) (field : Text) : Text :=
  if field = "name".toList then server.name
  else if field = "hostname".toList then server.hostname
  else if field = "privateIp".toList then server.hostname
  else if field = "publicIp".toList then server.publicIp.getD []
  else if field = "id".toList then server.id
  else if field = "tags".toList then [','].intercalate server.tags
  else []

/-- The class `[A-Za-z_]`. -/
def isFieldStart : Bool :=
  isWordCharacter character && !character.isDigit

inductive BodyToken where
  | character (character : Char)
  | field (name : Text)

/-- The reference at the front of a text and its length:
`\{\{\s*\.([A-Za-z_][A-Za-z0-9_]*)\s*\}\}`. -/
def fieldAt : Text → Option (BodyToken × ℕ)
  | '{' :: '{' :: rest =>
    match rest.dropWhile isTrimmed with
    | '.' :: named =>
      let name := named.takeWhile isWordCharacter
      let behind := (named.dropWhile isWordCharacter).dropWhile isTrimmed
      if name.head?.any isFieldStart ∧ closeBraces <+: behind then
        some (.field name, rest.length + 4 - behind.length)
      else none
    | _ => none
  | _ => none

def renderToken (server : TemplateServer) : BodyToken → Text
  | .character character => [character]
  | .field name => if name ∈ validFields then renderField server name else []

def tokenErrors : BodyToken → List String
  | .character _ => []
  | .field name =>
    if name ∈ validFields then []
    else ["Unknown field \"." ++ String.ofList name ++ "\" in range body"]

/-- `renderBody`: the text and the errors that it adds. -/
def renderBody (body : Text) (server : TemplateServer) : Text × List String :=
  let tokens := scan fieldAt .character body
  (tokens.flatMap (renderToken server), tokens.flatMap tokenErrors)

/-- The state of the loop over the pieces: the calls of `listServers`, the rendered texts and the
errors. -/
structure Rendered where
  calls : ℕ
  texts : List Text
  errors : List String

variable (listServers : ListServers) (rendered : Rendered)

def renderRange (head body : Text) : Rendered :=
  match parseRangeHead head with
  | .error error =>
    { rendered with texts := rendered.texts ++ [[]], errors := rendered.errors ++ [error] }
  | .ok filters =>
    match listServers rendered.calls filters with
    | .error message =>
      { calls := rendered.calls + 1
        texts := rendered.texts ++ [[]]
        errors := rendered.errors ++
          ["Server iteration failed: " ++ message.getD "Failed to list servers"] }
    | .ok servers =>
      let parts := servers.map (renderBody body)
      { calls := rendered.calls + 1
        texts := rendered.texts ++ [(parts.map Prod.fst).flatten]
        errors := rendered.errors ++ (parts.map Prod.snd).flatten }

def renderPiece : Piece → Rendered
  | .literal text => { rendered with texts := rendered.texts ++ [text] }
  | .range head body => renderRange listServers rendered head body

def renderTemplate (content : Text) (listServers : ListServers) : TemplateResult :=
  let (pieces, errors) := piecesOf content
  let rendered := pieces.foldl (renderPiece listServers) ⟨0, [], errors⟩
  ⟨rendered.texts.flatten, rendered.errors⟩

end Bridgeport.Templates
