import Bridgeport.Templates.RangeHeads

/-!
# Template rendering is structural

A template as its author writes it: literals and well-formed range blocks in turn (`Template`). Its
meaning is read off this structure: a literal stands for itself, and a block for its body once per
server of the answer to its filters (`Template.rendering`, `Template.reports`). `renderTemplate` of
the written text gives the meaning (`renderTemplate_text`), so that the scan for directives neither
loses nor repeats a character, and what is inserted from a server is not scanned again.
-/

namespace Bridgeport.Templates

variable {first : Char} {rest : Text}

section

open Foundation Secrets List

/-! ### Texts without directives -/

section

variable (text : Text)

/-- The directives that a search from the left finds in a text. -/
def directives : List Text :=
  (scan (fun text ↦ (directiveAt text).map fun raw ↦ (some raw, raw.length + 4)) (fun _ ↦ none)
    text).reduceOption

/-- A text without a range or an end directive. -/
def DirectiveFree : Prop :=
  ∀ raw ∈ directives text, isRange raw = false ∧ isEnd raw = false

/-- Every pair of opening braces of a text has a pair of closing braces behind it. -/
def Paired : Prop :=
  ∀ rest, openBraces ++ rest <:+ text → closeBraces <:+: rest

/-- The last character is an opening brace, which joins the braces of a directive behind it. -/
def EndsOpen : Prop :=
  ['{'] <:+ text

instance : Decidable (DirectiveFree text) :=
  inferInstanceAs (Decidable (∀ _ ∈ _, _))

theorem paired_iff : Paired text ↔
      ∀ suffix ∈ text.tails, openBraces <+: suffix → closeBraces <:+: suffix.drop 2 := by
  constructor
  · rintro h suffix hsuffix ⟨rest, rfl⟩
    exact h rest ((mem_tails _ _).mp hsuffix)
  · intro h rest hrest
    exact h _ ((mem_tails _ _).mpr hrest) (prefix_append _ _)

instance : Decidable (Paired text) :=
  decidable_of_iff' _ (paired_iff text)

instance : Decidable (EndsOpen text) :=
  inferInstanceAs (Decidable (_ <:+ _))

end

theorem directiveAt_directive {raw : Text} (hne : raw ≠ []) (hbrace : '}' ∉ raw) (rest : Text) :
    directiveAt (openBraces ++ raw ++ closeBraces ++ rest) = some raw := by
  have hraw : ∀ character ∈ raw, decide (character ≠ '}') = true := fun character hmem ↦ by
    simpa using ne_of_mem_of_not_mem hmem hbrace
  have htake : (raw ++ closeBraces ++ rest).takeWhile (· ≠ '}') = raw := by
    rw [append_assoc, takeWhile_append_of_pos hraw]
    simp [closeBraces]
  have hdrop : (raw ++ closeBraces ++ rest).dropWhile (· ≠ '}') = closeBraces ++ rest := by
    rw [append_assoc, dropWhile_append_of_pos hraw]
    simp [closeBraces]
  show directiveAt ('{' :: '{' :: (raw ++ closeBraces ++ rest)) = some raw
  simp only [directiveAt, htake, hdrop]
  exact if_pos ⟨hne, prefix_append _ _⟩

theorem directiveAt_cons_of_ne {second : Char} (h : ¬ (first = '{' ∧ second = '{'))
    (rest : Text) : directiveAt (first :: second :: rest) = none := by
  unfold directiveAt
  split
  · rename_i heq
    obtain ⟨rfl, hrest⟩ := List.cons.inj heq
    exact absurd ⟨rfl, (List.cons.inj hrest).1⟩ h
  · rfl
 
theorem directiveAt_cons_of_ne_open (h : first ≠ '{') (rest : Text) :
    directiveAt (first :: rest) = none := by
  unfold directiveAt
  split
  · rename_i heq
    exact absurd (List.cons.inj heq).1 h
  · rfl
 
/-- What is read behind paired braces does not depend on the text that follows. -/
theorem takeWhile_append_of_closed {text : Text} (h : closeBraces <:+: text) (rest : Text) :
    (text ++ rest).takeWhile (· ≠ '}') = text.takeWhile (· ≠ '}') ∧
      (closeBraces <+: (text ++ rest).dropWhile (· ≠ '}') ↔
        closeBraces <+: text.dropWhile (· ≠ '}')) := by
  obtain ⟨before, after, rfl⟩ := h
  induction before with
  | nil => simp [closeBraces]
  | cons first before ih =>
    by_cases hfirst : first = '}'
    · subst hfirst
      cases before with
      | nil => simp [closeBraces]
      | cons second before => simp [closeBraces, cons_prefix_cons]
    · simpa [hfirst] using ih

/-- Paired braces are read in the text alone. -/
theorem directiveAt_append {text : Text} (hpaired : Paired text) (hopen : ¬ EndsOpen text)
    (hne : text ≠ []) (rest : Text) : directiveAt (text ++ rest) = directiveAt text := by
  obtain ⟨first, tail, rfl⟩ := exists_cons_of_ne_nil hne
  cases tail with
  | nil =>
    have hfirst : first ≠ '{' := fun heq ↦ hopen (heq ▸ suffix_rfl)
    rw [singleton_append, directiveAt_cons_of_ne_open hfirst, directiveAt_cons_of_ne_open hfirst]
  | cons second tail =>
    rw [cons_append, cons_append]
    by_cases hbraces : first = '{' ∧ second = '{'
    · obtain ⟨rfl, rfl⟩ := hbraces
      obtain ⟨htake, hdrop⟩ := takeWhile_append_of_closed (hpaired tail suffix_rfl) rest
      simp only [directiveAt, hdrop, htake]
    · rw [directiveAt_cons_of_ne hbraces, directiveAt_cons_of_ne hbraces]

theorem directives_cons_of_none (h : directiveAt (first :: rest) = none) :
    directives (first :: rest) = directives rest := by
  rw [directives, scan_cons_of_none _ (by rw [h]; rfl)]
  rfl

variable {raw : Text}

theorem directives_of_some (h : directiveAt (openBraces ++ raw ++ closeBraces ++ rest) = some raw) :
    directives (openBraces ++ raw ++ closeBraces ++ rest) = raw :: directives rest := by
  have hlength : (openBraces ++ raw ++ closeBraces).length = raw.length + 4 := by
    simp only [openBraces, closeBraces, length_append, length_cons, length_nil]
    omega
  have hne : openBraces ++ raw ++ closeBraces ≠ [] := cons_ne_nil _ _
  rw [directives, scan_append_of_some _ rest hne (by rw [h, hlength]; rfl)]
  rfl

section

variable {content rest : Text} {position : ℕ}

theorem exec_of_none (hcontent : content.drop position = first :: rest)
    (h : directiveAt (first :: rest) = none) :
    exec content position = exec content (position + 1) := by
  have hnext : content.drop (position + 1) = rest := by
    rw [← drop_drop, hcontent, drop_one, tail_cons]
  rw [exec, exec, hcontent, hnext, search, h]

theorem exec_of_some {text : Text} (hcontent : content.drop position = text)
    (h : directiveAt text = some raw) : exec content position = some ⟨position, raw⟩ := by
  cases text with
  | nil => exact absurd h (by simp [directiveAt])
  | cons first rest => rw [exec, hcontent, search, h]

theorem drop_add_length {text : Text} (hcontent : content.drop position = text ++ rest) :
    content.drop (position + text.length) = rest := by
  rw [← drop_drop, hcontent, drop_left]

theorem slice_of_drop {text : Text} (hcontent : content.drop position = text ++ rest) :
    slice content position (position + text.length) = text := by
  rw [slice, drop_take, hcontent, Nat.add_sub_cancel_left, take_left]

/-- A loop that depends on the next match, and goes on behind a match that is neither a range nor
an end directive, goes on behind a text without these directives that no directive leaves. -/
theorem eq_of_passes {β : Type*} {loop : ℕ → β}
    (hsame : ∀ first second, exec content first = exec content second → loop first = loop second)
    (hother : ∀ position directive, exec content position = some directive →
      isRange directive.raw = false → isEnd directive.raw = false →
        loop position = loop directive.stop)
    {text : Text} (hcontent : content.drop position = text ++ rest) (hfree : DirectiveFree text)
    (hlocal : ∀ suffix, suffix <:+ text → suffix ≠ [] →
      directiveAt (suffix ++ rest) = directiveAt suffix) :
    loop position = loop (position + text.length) := by
  induction hlength : text.length using Nat.strong_induction_on generalizing text position with
  | _ bound ih =>
    subst hlength
    cases text with
    | nil => rfl
    | cons first tail =>
      have hfront := hlocal _ suffix_rfl (cons_ne_nil _ _)
      rcases hread : directiveAt (first :: tail) with _ | raw
      · rw [hread] at hfront
        rw [DirectiveFree, directives_cons_of_none hread] at hfree
        have hrest : content.drop (position + 1) = tail ++ rest := by
          rw [← drop_drop, hcontent, drop_one, cons_append, tail_cons]
        calc loop position = loop (position + 1) := hsame _ _ (exec_of_none hcontent hfront)
          _ = loop (position + 1 + tail.length) :=
            ih tail.length (Nat.lt_succ_self _) hrest hfree (fun suffix hsuffix ↦
              hlocal suffix (hsuffix.trans (suffix_cons _ _))) rfl
          _ = loop (position + (first :: tail).length) := by
            rw [length_cons, Nat.add_assoc, Nat.add_comm 1]
      · have hexec := exec_of_some hcontent (hfront.trans hread)
        obtain ⟨-, -, after, hafter⟩ := directiveAt_eq_some hread
        rw [hafter] at hread hcontent hfree hlocal ⊢
        rw [DirectiveFree, directives_of_some hread, forall_mem_cons] at hfree
        have hstop : Directive.stop ⟨position, raw⟩ =
            position + (openBraces ++ raw ++ closeBraces).length := by
          simp only [Directive.stop, openBraces, closeBraces, length_append, length_cons,
            length_nil]
          omega
        rw [append_assoc] at hcontent
        calc loop position = loop (Directive.stop ⟨position, raw⟩) :=
              hother _ _ hexec hfree.1.1 hfree.1.2
          _ = loop (position + (openBraces ++ raw ++ closeBraces).length + after.length) := by
            rw [hstop]
            refine ih after.length ?_ (drop_add_length hcontent) hfree.2 (fun suffix hsuffix ↦
              hlocal suffix (hsuffix.trans (suffix_append _ _))) rfl
            rw [hafter, length_append]
            exact Nat.lt_add_of_pos_left (by simp [openBraces])
          _ = loop (position + (openBraces ++ raw ++ closeBraces ++ after).length) := by
            rw [Nat.add_assoc, ← length_append]

theorem isRange_of_isEnd (h : isEnd raw = true) : isRange raw = false := by
  rw [isRange, of_decide_eq_true h]
  rfl

theorem findEnd_eq (content : Text) (lastIndex : ℕ) :
    findEnd content lastIndex = match exec content lastIndex with
      | none => .missing
      | some scan =>
        if isRange scan.raw then .nested
        else if isEnd scan.raw then .found scan
        else findEnd content scan.stop := by
  conv_lhs => rw [findEnd]
  split <;> rename_i hexec <;> rw [hexec]

variable (scanned : Scanned)

theorem scanPieces_of_none (h : exec content position = none) :
    scanPieces content position scanned = scanned := by
  rw [scanPieces]
  split <;> simp_all

variable {directive : Directive}

theorem scanPieces_of_other (h : exec content position = some directive)
    (hrange : isRange directive.raw = false) (hend : isEnd directive.raw = false) :
    scanPieces content position scanned = scanPieces content directive.stop scanned := by
  rw [scanPieces]
  split <;> simp_all

theorem scanPieces_of_range {endMatch : Directive} (h : exec content position = some directive)
    (hrange : isRange directive.raw = true)
    (hend : findEnd content directive.stop = .found endMatch) :
    scanPieces content position scanned = scanPieces content endMatch.stop
      { cursor := endMatch.stop
        pieces := scanned.pieces ++ [.literal (slice content scanned.cursor directive.index),
          .range (inner directive.raw) (slice content directive.stop endMatch.index)]
        errors := scanned.errors } := by
  rw [scanPieces]
  split
  · simp_all
  · rename_i found hfound
    obtain rfl := Option.some.inj (h.symm.trans hfound)
    rw [if_pos hrange]
    split
    · simp_all
    · simp_all
    · rename_i endMatch' hfound'
      obtain rfl := EndSearch.found.inj (hend.symm.trans hfound')
      rfl

theorem scanPieces_congr {first second : ℕ} (h : exec content first = exec content second) :
    scanPieces content first scanned = scanPieces content second scanned := by
  conv_rhs => rw [scanPieces]
  split
  · exact scanPieces_of_none scanned (h.trans ‹_›)
  · rename_i directive hsecond
    have hfirst := h.trans hsecond
    rw [scanPieces]
    split
    · simp_all
    · rename_i found hfound
      obtain rfl := Option.some.inj (hfirst.symm.trans hfound)
      rfl

/-! ### Literals and blocks -/

/-- A text that stands in front of a directive: it has no range or end directive, and no directive
reaches over its end. -/
structure Sealed (text : Text) : Prop where
  directiveFree : DirectiveFree text
  paired : Paired text
  notOpen : ¬ EndsOpen text

theorem Sealed.directiveAt_append {text : Text} (h : Sealed text) (rest suffix : Text)
    (hsuffix : suffix <:+ text) (hne : suffix ≠ []) :
    directiveAt (suffix ++ rest) = directiveAt suffix :=
  Templates.directiveAt_append (fun tail htail ↦ h.paired tail (htail.trans hsuffix))
    (fun hopen ↦ h.notOpen (hopen.trans hsuffix)) hne rest

section

variable {text : Text} (h : Sealed text) (hcontent : content.drop position = text ++ rest)

include h hcontent

theorem Sealed.findEnd_eq :
    findEnd content position = findEnd content (position + text.length) := by
  refine eq_of_passes (fun first second hexec ↦ ?_) (fun position directive hexec hrange hend ↦ ?_)
    hcontent h.directiveFree (h.directiveAt_append rest)
  · rw [Templates.findEnd_eq, hexec, ← Templates.findEnd_eq]
  · rw [Templates.findEnd_eq, hexec]
    simp [hrange, hend]

theorem Sealed.scanPieces_eq (scanned : Scanned) :
    scanPieces content position scanned = scanPieces content (position + text.length) scanned :=
  eq_of_passes (fun _ _ ↦ scanPieces_congr scanned) (fun _ _ ↦ scanPieces_of_other scanned)
    hcontent h.directiveFree (h.directiveAt_append rest)

end

/-- The scan ends behind a text without a range or an end directive that ends the content. -/
theorem scanPieces_of_directiveFree {text : Text} (h : DirectiveFree text)
    (hcontent : content.drop position = text) (scanned : Scanned) :
    scanPieces content position scanned = scanned := by
  have hend : content.drop position = text ++ [] := by rw [hcontent, append_nil]
  have hpass : scanPieces content position scanned =
      scanPieces content (position + text.length) scanned :=
    eq_of_passes (fun _ _ ↦ scanPieces_congr scanned) (fun _ _ ↦ scanPieces_of_other scanned)
      hend h fun suffix _ _ ↦ by rw [append_nil]
  rw [hpass, scanPieces_of_none scanned (by rw [exec, drop_add_length hend, search])]

def blockText (head body stop : Text) : Text :=
  openBraces ++ head ++ closeBraces ++ body ++ (openBraces ++ stop ++ closeBraces)

theorem Directive.stop_eq (index : ℕ) (raw : Text) :
    Directive.stop ⟨index, raw⟩ = index + (raw.length + 4) :=
  rfl

theorem length_directive (raw : Text) :
    (openBraces ++ raw ++ closeBraces).length = raw.length + 4 := by
  simp only [openBraces, closeBraces, length_append, length_cons, length_nil]
  omega

theorem exec_directive {raw : Text} (hne : raw ≠ []) (hbrace : '}' ∉ raw)
    (hcontent : content.drop position = openBraces ++ raw ++ closeBraces ++ rest) :
    exec content position = some ⟨position, raw⟩ :=
  exec_of_some hcontent (directiveAt_directive hne hbrace rest)

/-- A well-formed block is cut out exactly, and the scan goes on behind it. -/
theorem scanPieces_block {literal head body stop : Text} (hliteral : Sealed literal)
    (hbody : Sealed body) (hhead : isRange head = true ∧ '}' ∉ head)
    (hstop : isEnd stop = true ∧ '}' ∉ stop)
    (hcontent : content.drop position = literal ++ blockText head body stop ++ rest)
    (pieces : List Piece) (errors : List String) :
    ∃ next, content.drop next = rest ∧
      scanPieces content position ⟨position, pieces, errors⟩ =
        scanPieces content next
          ⟨next, pieces ++ [.literal literal, .range (inner head) body], errors⟩ := by
  have hhead_ne : head ≠ [] := by
    rintro rfl
    exact absurd hhead.1 (by decide)
  have hstop_ne : stop ≠ [] := by
    rintro rfl
    exact absurd hstop.1 (by decide)
  rw [append_assoc, blockText] at hcontent
  have hblock := drop_add_length hcontent
  rw [append_assoc, append_assoc] at hblock
  have hexec := exec_directive hhead_ne hhead.2 hblock
  have hbehind := drop_add_length hblock
  have hfound := exec_directive hstop_ne hstop.2 (drop_add_length hbehind)
  rw [length_directive] at hbehind hfound
  have hend : findEnd content (position + literal.length + (head.length + 4)) =
      .found ⟨position + literal.length + (head.length + 4) + body.length, stop⟩ := by
    rw [hbody.findEnd_eq hbehind, findEnd_eq, hfound]
    simp [hstop.1, isRange_of_isEnd hstop.1]
  refine ⟨position + literal.length + (head.length + 4) + body.length + (stop.length + 4), ?_, ?_⟩
  · rw [← length_directive stop]
    exact drop_add_length (drop_add_length hbehind)
  · rw [hliteral.scanPieces_eq hcontent, scanPieces_of_range _ hexec hhead.1 hend,
      Directive.stop_eq, Directive.stop_eq, slice_of_drop hcontent, slice_of_drop hbehind]

end

end

open Foundation Secrets ConfigSync List

structure RangeBlock where
  head : RangeHead
  body : Body
  (beforeEnd afterEnd : Text)
  blank_before : ∀ character ∈ beforeEnd, isTrimmed character = true
  blank_after : ∀ character ∈ afterEnd, isTrimmed character = true
  directiveFree : DirectiveFree body.text
  paired : Paired body.text

/-- What stands between the braces of the end directive. -/
def RangeBlock.stop (block : RangeBlock) : Text :=
  block.beforeEnd ++ "end".toList ++ block.afterEnd

def RangeBlock.text (block : RangeBlock) : Text :=
  blockText block.head.text block.body.text block.stop

/-- A template: literals and blocks in turn, and the literal behind the last block, which may have
braces that are not paired. -/
structure Template where
  pieces : List (Text × RangeBlock)
  last : Text
  directiveFree : ∀ piece ∈ pieces, DirectiveFree piece.1
  paired : ∀ piece ∈ pieces, Paired piece.1
  directiveFree_last : DirectiveFree last

variable (template : Template)

def Template.text : Text :=
  template.pieces.flatMap (fun piece ↦ piece.1 ++ piece.2.text) ++ template.last

/-- No opening brace stands directly in front of a directive, the filters stand on one line and no
value contains a closing brace. -/
def Template.Recognised : Prop :=
  ∀ piece ∈ template.pieces, ¬ EndsOpen piece.1 ∧ ¬ EndsOpen piece.2.body.text ∧
    piece.2.head.OneLine ∧ piece.2.head.BraceFree

/-! ### What a template means -/

/-- A block for an answer of `listServers`: its body once per server, or nothing. -/
def RangeBlock.rendering (block : RangeBlock) : Except (Option String) (List TemplateServer) → Text
  | .ok servers => servers.flatMap block.body.rendering
  | .error _ => []

/-- The errors of a block for an answer of `listServers`. -/
def RangeBlock.reports (block : RangeBlock) :
    Except (Option String) (List TemplateServer) → List String
  | .ok servers => servers.flatMap fun _ ↦ block.body.reports
  | .error message => ["Server iteration failed: " ++ message.getD "Failed to list servers"]

/-- The answer that a block gets when `calls` blocks stand in front of it. -/
def RangeBlock.answer (block : RangeBlock) (listServers : ListServers) (calls : ℕ) :
    Except (Option String) (List TemplateServer) :=
  listServers calls (filtersOf block.head.filters)

variable (listServers : ListServers)

/-- What literals and blocks mean behind a number of blocks. -/
def renderingFrom (calls : ℕ) (pieces : List (Text × RangeBlock)) : Text :=
  (pieces.zipIdx calls).flatMap fun (piece, calls) ↦
    piece.1 ++ piece.2.rendering (piece.2.answer listServers calls)

/-- The errors of blocks behind a number of blocks. -/
def reportsFrom (calls : ℕ) (pieces : List (Text × RangeBlock)) : List String :=
  (pieces.zipIdx calls).flatMap fun (piece, calls) ↦
    piece.2.reports (piece.2.answer listServers calls)

def Template.rendering : Text :=
  renderingFrom listServers 0 template.pieces ++ template.last

def Template.reports : List String :=
  reportsFrom listServers 0 template.pieces

/-- Every reference of every body is to a field of a server. -/
def Template.FieldsKnown : Prop :=
  ∀ piece ∈ template.pieces, ∀ reference ∈ piece.2.body.pieces, reference.2.name ∈ validFields

section

variable {content : Text} {pieces : List (Text × RangeBlock)}

theorem RangeBlock.isEnd_stop (block : RangeBlock) :
    isEnd block.stop = true ∧ '}' ∉ block.stop := by
  constructor
  · have htrim := trimBoth_append_append block.blank_before block.blank_after "end".toList
    rw [isEnd, inner, RangeBlock.stop, htrim]
    decide
  · simp [RangeBlock.stop, brace_notMem_of_isTrimmed block.blank_before,
      brace_notMem_of_isTrimmed block.blank_after]

def cutPiece (piece : Text × RangeBlock) : List Piece :=
  [.literal piece.1, .range (inner piece.2.head.text) piece.2.body.text]

theorem scanPieces_pieces {position : ℕ} {last : Text}
    (hsealed : ∀ piece ∈ pieces, Sealed piece.1 ∧ Sealed piece.2.body.text ∧ piece.2.head.BraceFree)
    (hcontent : content.drop position =
      pieces.flatMap (fun piece ↦ piece.1 ++ piece.2.text) ++ last)
    (cut : List Piece) (errors : List String) :
    ∃ next, content.drop next = last ∧
      scanPieces content position ⟨position, cut, errors⟩ =
        scanPieces content next ⟨next, cut ++ pieces.flatMap cutPiece, errors⟩ := by
  induction pieces generalizing position cut with
  | nil => exact ⟨position, hcontent, by rw [flatMap_nil, append_nil]⟩
  | cons piece pieces ih =>
    rw [forall_mem_cons] at hsealed
    obtain ⟨⟨hliteral, hbody, hbrace⟩, hrest⟩ := hsealed
    rw [flatMap_cons, append_assoc] at hcontent
    obtain ⟨middle, hmiddle, hblock⟩ := scanPieces_block hliteral hbody
      ⟨RangeHead.isRange_text, RangeHead.brace_notMem_text hbrace⟩ piece.2.isEnd_stop hcontent cut
      errors
    obtain ⟨next, hnext, hpieces⟩ := ih hrest hmiddle
      (cut ++ [.literal piece.1, .range (inner piece.2.head.text) piece.2.body.text])
    refine ⟨next, hnext, ?_⟩
    rw [hblock, hpieces, append_assoc, flatMap_cons]
    rfl

variable {template : Template}

theorem Template.piecesOf_text (h : template.Recognised) :
    piecesOf template.text =
      (template.pieces.flatMap cutPiece ++ [.literal template.last], []) := by
  have hsealed : ∀ piece ∈ template.pieces, Sealed piece.1 ∧ Sealed piece.2.body.text ∧
      piece.2.head.BraceFree := by
    intro piece hpiece
    obtain ⟨hliteral, hbody, -, hbrace⟩ := h piece hpiece
    exact ⟨⟨template.directiveFree piece hpiece, template.paired piece hpiece, hliteral⟩,
      ⟨piece.2.directiveFree, piece.2.paired, hbody⟩, hbrace⟩
  have hstart : template.text.drop 0 = template.text := drop_zero
  obtain ⟨next, hnext, hscan⟩ := scanPieces_pieces hsealed hstart [] []
  rw [piecesOf, hscan, scanPieces_of_directiveFree template.directiveFree_last hnext]
  simp only [hnext, nil_append]

variable (listServers : ListServers)

theorem RangeBlock.renderRange_block {block : RangeBlock} (h : block.head.OneLine)
    (rendered : Rendered) :
    renderRange listServers rendered (inner block.head.text) block.body.text =
      { calls := rendered.calls + 1
        texts := rendered.texts ++ [block.rendering (block.answer listServers rendered.calls)]
        errors := rendered.errors ++ block.reports (block.answer listServers rendered.calls) } := by
  have hbody : renderBody block.body.text =
      fun server ↦ (block.body.rendering server, block.body.reports) :=
    funext (renderBody_text block.body)
  rw [renderRange, RangeHead.parse_inner h]
  simp only [RangeBlock.answer]
  cases listServers rendered.calls (filtersOf block.head.filters) with
  | error message => rfl
  | ok servers =>
    simp only [hbody, RangeBlock.rendering, RangeBlock.reports, flatMap_def, map_map]
    rfl

theorem renderPieces_pieces (h : ∀ piece ∈ pieces, piece.2.head.OneLine) (rendered : Rendered) :
    ∃ texts, (pieces.flatMap cutPiece).foldl (renderPiece listServers) rendered =
        { calls := rendered.calls + pieces.length
          texts := rendered.texts ++ texts
          errors := rendered.errors ++ reportsFrom listServers rendered.calls pieces } ∧
      texts.flatten = renderingFrom listServers rendered.calls pieces := by
  induction pieces generalizing rendered with
  | nil => exact ⟨[], by simp [reportsFrom], rfl⟩
  | cons piece pieces ih =>
    rw [forall_mem_cons] at h
    obtain ⟨texts, hfold, htexts⟩ := ih h.2
      { calls := rendered.calls + 1
        texts := rendered.texts ++ [piece.1] ++
          [piece.2.rendering (piece.2.answer listServers rendered.calls)]
        errors := rendered.errors ++ piece.2.reports (piece.2.answer listServers rendered.calls) }
    refine ⟨piece.1 :: piece.2.rendering (piece.2.answer listServers rendered.calls) :: texts,
      ?_, ?_⟩
    · rw [flatMap_cons, foldl_append, cutPiece, foldl_cons, foldl_cons, foldl_nil, renderPiece,
        renderPiece, RangeBlock.renderRange_block listServers h.1, hfold]
      simp only [reportsFrom, zipIdx_cons, flatMap_cons, append_assoc, cons_append, nil_append,
        length_cons, Nat.add_assoc, Nat.add_comm 1]
    · simp only [flatten_cons, htexts, renderingFrom, zipIdx_cons, flatMap_cons, append_assoc]

theorem Template.renderTemplate_text (h : template.Recognised) :
    renderTemplate template.text listServers =
      ⟨template.rendering listServers, template.reports listServers⟩ := by
  have hline : ∀ piece ∈ template.pieces, piece.2.head.OneLine := fun piece hpiece ↦
    (h piece hpiece).2.2.1
  obtain ⟨texts, hfold, htexts⟩ := renderPieces_pieces listServers hline ⟨0, [], []⟩
  rw [renderTemplate, Template.piecesOf_text h]
  simp only [foldl_append, hfold, foldl_cons, foldl_nil, renderPiece, nil_append, flatten_append,
    htexts, flatten_singleton]
  rfl

/-- A content without a range or an end directive is rendered to itself. -/
theorem renderTemplate_of_directiveFree (h : DirectiveFree content) :
    renderTemplate content listServers = ⟨content, []⟩ := by
  have hscan : scanPieces content 0 ⟨0, [], []⟩ = ⟨0, [], []⟩ :=
    scanPieces_of_directiveFree h drop_zero _
  simp [renderTemplate, piecesOf, hscan, renderPiece]

variable {listServers}

theorem Template.reports_eq_nil (hfields : template.FieldsKnown)
    (hanswers : ∀ calls filters, ∃ servers, listServers calls filters = .ok servers) :
    template.reports listServers = [] := by
  rw [Template.reports, reportsFrom, flatMap_eq_nil_iff]
  rintro ⟨piece, calls⟩ hpiece
  obtain ⟨servers, hservers⟩ := hanswers calls (filtersOf piece.2.head.filters)
  have hmem : piece ∈ template.pieces := fst_mem_of_mem_zipIdx hpiece
  have hbody : piece.2.body.reports = [] := by
    rw [Body.reports, flatMap_eq_nil_iff]
    exact fun reference hreference ↦ if_pos (hfields piece hmem reference hreference)
  simp only [RangeBlock.answer, hservers, RangeBlock.reports, hbody]
  exact flatMap_eq_nil_iff.mpr fun _ _ ↦ rfl

end

/-! ### The structural law -/

/-- Rendering gives the meaning of a template, without errors when the fields are known and the
calls are answered, and leaves a content without range and end directives alone. -/
theorem renderTemplate_structural : (∀ template : Template, template.Recognised →
      renderTemplate template.text listServers =
          ⟨template.rendering listServers, template.reports listServers⟩ ∧
        (template.FieldsKnown →
          (∀ calls filters, ∃ servers, listServers calls filters = .ok servers) →
            (renderTemplate template.text listServers).errors = [])) ∧
      ∀ content, DirectiveFree content → renderTemplate content listServers = ⟨content, []⟩ := by
  refine ⟨fun template h ↦ ?_, fun content ↦ renderTemplate_of_directiveFree listServers⟩
  have hmeaning := Template.renderTemplate_text listServers h
  refine ⟨hmeaning, fun hfields hanswers ↦ ?_⟩
  rw [hmeaning]
  exact Template.reports_eq_nil hfields hanswers

/-- The head `range servers tag="\"w"`. -/
def taggedHead : RangeHead where
  before := []
  gap := [' ']
  filters :=
    [{ gap := [' ']
       key := .tag
       beforeEquals := []
       afterEquals := []
       written := [⟨'"', true, by decide⟩, ⟨'w', false, by decide⟩]
       blank_gap := all_eq_true.mp (by decide)
       blank_before := all_eq_true.mp (by decide)
       blank_after := all_eq_true.mp (by decide) }]
  after := []
  blank_before := all_eq_true.mp (by decide)
  blank_gap := all_eq_true.mp (by decide)
  blank_after := all_eq_true.mp (by decide)
  gap_ne_nil := by decide
  separated := by simp

theorem taggedHead_recognised : taggedHead.OneLine ∧ taggedHead.BraceFree := by
  refine ⟨?_, forall_mem_singleton.mpr (by decide)⟩
  have hall : (taggedHead.arguments.dropWhile isTrimmed).all fun character ↦
      !isLineTerminator character := by decide
  simpa [RangeHead.OneLine] using hall

/-- A literal, a block whose body is one reference, and a literal. -/
def listing (ref : FieldRef) (directiveFree : DirectiveFree ref.text) (paired : Paired ref.text) :
    Template where
  pieces := [("a".toList,
    { head := taggedHead
      body := ref.body
      beforeEnd := []
      afterEnd := [' ']
      blank_before := all_eq_true.mp (by decide)
      blank_after := all_eq_true.mp (by decide)
      directiveFree := ref.text_body.symm ▸ directiveFree
      paired := ref.text_body.symm ▸ paired })]
  last := "b".toList
  directiveFree := forall_mem_singleton.mpr (by decide : DirectiveFree "a".toList)
  paired := forall_mem_singleton.mpr (by decide : Paired "a".toList)
  directiveFree_last := by decide

theorem listing_recognised {ref : FieldRef} {directiveFree : DirectiveFree ref.text}
    {paired : Paired ref.text} (h : ¬ EndsOpen ref.text) :
    (listing ref directiveFree paired).Recognised := by
  have hliteral : ¬ EndsOpen "a".toList := by decide
  refine forall_mem_singleton.mpr ⟨hliteral, ?_, taggedHead_recognised⟩
  rwa [FieldRef.text_body]

/-- The reference `{{.name}}`. -/
def nameRef : FieldRef :=
  ⟨[], "name".toList, [], all_eq_true.mp rfl, all_eq_true.mp rfl, by decide,
    all_eq_true.mp (by decide)⟩

/-- The reference `{{.bogus}}`. -/
def bogusRef : FieldRef :=
  ⟨[], "bogus".toList, [], all_eq_true.mp rfl, all_eq_true.mp rfl, by decide,
    all_eq_true.mp (by decide)⟩

def oneServer : ListServers :=
  fun _ _ ↦ .ok [⟨"s1".toList, "{{end}}".toList, "10.0.0.1".toList, none, []⟩]

theorem renderTemplate_listing :
    renderTemplate (listing nameRef (by decide) (by decide)).text oneServer =
      ⟨"a{{end}}b".toList, []⟩ :=
  ((renderTemplate_structural oneServer).1 (listing nameRef (by decide) (by decide))
    (listing_recognised (by decide))).1.trans (by decide)

/-- A reference to an unknown field is an error. -/
theorem not_errorFree :
    ¬ ∀ (template : Template) (listServers : ListServers),
      (renderTemplate template.text listServers).errors = [] := by
  intro h
  have hbogus := h (listing bogusRef (by decide) (by decide)) oneServer
  rw [Template.renderTemplate_text oneServer (listing_recognised (by decide))] at hbogus
  revert hbogus
  decide

end Bridgeport.Templates
