import Bridgeport.ConfigSync.SyncPreview
import Mathlib.Data.List.GetD

/-!
# The unified diff is minimal

`unifiedDiff` fills a table with the lengths of the longest common subsequences of the rests of the
two texts, from the last lines to the first, and walks over it. The lines that it leaves unmarked or
marks as removed are those of the first text, the lines that it leaves unmarked or marks as added
are those of the second, and no common subsequence of the two has more lines than are left unmarked
(`diffMinimal_unifiedDiff`).
-/

namespace Bridgeport.ConfigSync

open Foundation Secrets List Function

/-! ### The table -/

def lcsRow (a : Text) : List Text → List ℕ → List ℕ
  | [], _ => [0]
  | b :: bLines, below =>
    let row := lcsRow a bLines below.tail
    (if a = b then below.tail.headD 0 + 1 else max (below.headD 0) (row.headD 0)) :: row

/-- `lcs`: the rows for the rests of the first text. -/
def lcsTable (bLines : List Text) : List Text → List (List ℕ)
  | [] => [replicate (bLines.length + 1) 0]
  | a :: aLines => lcsRow a bLines ((lcsTable bLines aLines).headD []) :: lcsTable bLines aLines

def entry (lcs : List (List ℕ)) (i j : ℕ) : ℕ :=
  (lcs.getD i []).getD j 0

/-- `ops`, from two positions on. -/
def walk (aLines bLines : List Text) (lcs : List (List ℕ)) (i j : ℕ) : List (Char × Text) :=
  if h : i < aLines.length ∧ j < bLines.length then
    if aLines[i] = bLines[j] then (' ', aLines[i]) :: walk aLines bLines lcs (i + 1) (j + 1)
    else if entry lcs (i + 1) j ≥ entry lcs i (j + 1) then
      ('-', aLines[i]) :: walk aLines bLines lcs (i + 1) j
    else ('+', bLines[j]) :: walk aLines bLines lcs i (j + 1)
  else (aLines.drop i).map (('-', ·)) ++ (bLines.drop j).map (('+', ·))
termination_by (aLines.length - i) + (bLines.length - j)

variable {aLines bLines : List Text}

@[simp]
theorem lcsLength_nil_left (bLines : List Text) : lcsLength [] bLines = 0 := by
  simp [lcsLength]

@[simp]
theorem lcsLength_nil_right (aLines : List Text) : lcsLength aLines [] = 0 := by
  simp [lcsLength]

theorem lcsRow_tails (a : Text) (aLines bLines : List Text) :
    lcsRow a bLines (bLines.tails.map (lcsLength aLines)) =
      bLines.tails.map (lcsLength (a :: aLines)) := by
  induction bLines with
  | nil => simp [lcsRow]
  | cons b bLines ih =>
    have hhead : ∀ lines, (bLines.tails.map (lcsLength lines)).headD 0 = lcsLength lines bLines := by
      intro lines
      cases bLines <;> rfl
    rw [tails_cons, map_cons, map_cons, lcsRow, tail_cons, ih, hhead, hhead, headD_cons, lcsLength]

theorem lcsTable_eq (aLines bLines : List Text) :
    lcsTable bLines aLines = aLines.tails.map fun rest ↦ bLines.tails.map (lcsLength rest) := by
  induction aLines with
  | nil =>
    simp [lcsTable, funext lcsLength_nil_left, map_const']
  | cons a aLines ih =>
    have hhead : (lcsTable bLines aLines).headD [] = bLines.tails.map (lcsLength aLines) := by
      rw [ih]
      cases aLines <;> rfl
    rw [lcsTable, hhead, lcsRow_tails, ih, tails_cons, map_cons]

/-- An entry of the table is the length for the rests behind its positions. -/
theorem entry_lcsTable {i j : ℕ} (hi : i ≤ aLines.length) (hj : j ≤ bLines.length) :
    entry (lcsTable bLines aLines) i j = lcsLength (aLines.drop i) (bLines.drop j) := by
  have hrow : i < aLines.tails.length := by simpa using Nat.lt_succ_of_le hi
  have hcolumn : j < bLines.tails.length := by simpa using Nat.lt_succ_of_le hj
  simp [entry, lcsTable_eq, getElem?_eq_getElem hrow, getElem?_eq_getElem hcolumn]

theorem walk_lcsTable (i j : ℕ) :
    walk aLines bLines (lcsTable bLines aLines) i j = diffOps (aLines.drop i) (bLines.drop j) := by
  by_cases h : i < aLines.length ∧ j < bLines.length
  · rw [walk, dif_pos h, drop_eq_getElem_cons h.1, drop_eq_getElem_cons h.2, diffOps,
      ← drop_eq_getElem_cons h.1, ← drop_eq_getElem_cons h.2, walk_lcsTable, walk_lcsTable,
      walk_lcsTable, entry_lcsTable h.1 h.2.le, entry_lcsTable h.1.le h.2]
  · rw [walk, dif_neg h]
    rcases not_and_or.mp h with hi | hj
    · rw [drop_eq_nil_of_le (not_lt.mp hi)]
      cases bLines.drop j <;> simp [diffOps]
    · rw [drop_eq_nil_of_le (not_lt.mp hj)]
      cases aLines.drop i <;> simp [diffOps]
termination_by (aLines.length - i) + (bLines.length - j)

/-! ### The lines of the two texts -/

/-- The lines that are not marked as added are those of the first text, and the lines that are not
marked as removed those of the second. -/
theorem map_filter_diffOps (aLines bLines : List Text) :
    ((diffOps aLines bLines).filter (·.1 ≠ '+')).map Prod.snd = aLines ∧
      ((diffOps aLines bLines).filter (·.1 ≠ '-')).map Prod.snd = bLines := by
  fun_induction diffOps aLines bLines with
  | case1 a aLines bLines ih => simpa using ih
  | case2 a aLines b bLines hne hle ih => simpa using ih
  | case3 a aLines b bLines hne hle ih => simpa using ih
  | case4 _ | case5 _ => simp [filter_map, comp_def]

/-- As many lines are left unmarked as the table says. -/
theorem countP_diffOps (aLines bLines : List Text) :
    (diffOps aLines bLines).countP (·.1 = ' ') = lcsLength aLines bLines := by
  fun_induction diffOps aLines bLines with
  | case1 a aLines bLines ih => simp [ih, lcsLength]
  | case2 a aLines b bLines hne hle ih =>
    rw [lcsLength, if_neg hne, max_eq_left hle]
    simpa using ih
  | case3 a aLines b bLines hne hle ih =>
    rw [lcsLength, if_neg hne, max_eq_right (not_le.mp hle).le]
    simpa using ih
  | case4 _ | case5 _ => simp [countP_map, comp_def]

theorem length_le_lcsLength {common : List Text} (hbefore : common <+ aLines)
    (hafter : common <+ bLines) : common.length ≤ lcsLength aLines bLines := by
  fun_induction lcsLength aLines bLines generalizing common with
  | case1 a aLines bLines ih =>
    have htail := ih hbefore.tail hafter.tail
    rw [length_tail] at htail
    omega
  | case2 a aLines b bLines hne ihBefore ihAfter =>
    rcases sublist_cons_iff.mp hbefore with hshort | ⟨rest, rfl, -⟩
    · exact (ihBefore hshort hafter).trans (Nat.le_max_left _ _)
    · rcases sublist_cons_iff.mp hafter with hshort | ⟨_, hsame, -⟩
      · exact (ihAfter hbefore hshort).trans (Nat.le_max_right _ _)
      · exact absurd (cons.inj hsame).1 hne
  | case3 aLines bLines h =>
    match aLines, bLines, h with
    | [], _, _ => exact hbefore.length_le
    | _ :: _, [], _ => exact hafter.length_le
    | a :: aLines, b :: bLines, h => exact (h a aLines b bLines rfl rfl).elim

def commonLengths (aLines bLines : List Text) : Set ℕ :=
  {length | ∃ common, common <+ aLines ∧ common <+ bLines ∧ common.length = length}

/-- The output is a hunk for the whole of both texts, in which as many lines as can be are left
unmarked. -/
structure DiffMinimal (before after fromLabel toLabel output : Text) (ops : List (Char × Text)) :
    Prop where
  text : output = ['\n'].intercalate (["--- ".toList ++ fromLabel, "+++ ".toList ++ toLabel,
    "@@ -1,".toList ++ (toString (ops.countP (·.1 ≠ '+'))).toList ++ " +1,".toList ++
      (toString (ops.countP (·.1 ≠ '-'))).toList ++ " @@".toList] ++ ops.map fun op ↦ op.1 :: op.2)
  marks : ∀ op ∈ ops, op.1 ∈ [' ', '-', '+']
  beforeLines : (ops.filter (·.1 ≠ '+')).map Prod.snd = before.splitOn '\n'
  afterLines : (ops.filter (·.1 ≠ '-')).map Prod.snd = after.splitOn '\n'
  minimal : IsGreatest (commonLengths (before.splitOn '\n') (after.splitOn '\n'))
    (ops.countP (·.1 = ' '))

theorem isGreatest_countP (aLines bLines : List Text) :
    IsGreatest (commonLengths aLines bLines) ((diffOps aLines bLines).countP (·.1 = ' ')) := by
  constructor
  · have hsublist (mark : Char) (hmark : mark ≠ ' ') :
        ((diffOps aLines bLines).filter (·.1 = ' ')).map Prod.snd <+
          ((diffOps aLines bLines).filter (·.1 ≠ mark)).map Prod.snd := by
      refine (monotone_filter_right _ fun op hop ↦ ?_).map _
      rw [of_decide_eq_true hop]
      exact decide_eq_true hmark.symm
    refine ⟨((diffOps aLines bLines).filter (·.1 = ' ')).map Prod.snd, ?_, ?_, ?_⟩
    · simpa only [(map_filter_diffOps aLines bLines).1] using hsublist '+' (by decide)
    · simpa only [(map_filter_diffOps aLines bLines).2] using hsublist '-' (by decide)
    · rw [length_map, countP_eq_length_filter]
  · rintro length ⟨common, hbefore, hafter, rfl⟩
    rw [countP_diffOps]
    exact length_le_lcsLength hbefore hafter

theorem mark_of_mem {op : Char × Text} (h : op ∈ diffOps aLines bLines) :
    op.1 ∈ [' ', '-', '+'] := by
  fun_induction diffOps aLines bLines with
  | case1 a aLines bLines ih => exact (mem_cons.mp h).elim (by rintro rfl; simp) ih
  | case2 a aLines b bLines hne hle ih => exact (mem_cons.mp h).elim (by rintro rfl; simp) ih
  | case3 a aLines b bLines hne hle ih => exact (mem_cons.mp h).elim (by rintro rfl; simp) ih
  | case4 _ | case5 _ =>
    obtain ⟨line, -, rfl⟩ := mem_map.mp h
    simp

/-- The output for different texts is the walk over the table, which is minimal. -/
theorem diffMinimal_unifiedDiff {before after : Text} (fromLabel toLabel : Text)
    (h : before ≠ after) :
    DiffMinimal before after fromLabel toLabel (unifiedDiff before after fromLabel toLabel)
      (walk (before.splitOn '\n') (after.splitOn '\n')
        (lcsTable (after.splitOn '\n') (before.splitOn '\n')) 0 0) := by
  rw [walk_lcsTable, drop_zero, drop_zero]
  obtain ⟨hbefore, hafter⟩ := map_filter_diffOps (before.splitOn '\n') (after.splitOn '\n')
  refine ⟨?_, fun op ↦ mark_of_mem, hbefore, hafter, isGreatest_countP _ _⟩
  rw [unifiedDiff, if_neg h]
  dsimp only
  rw [countP_eq_length_filter, countP_eq_length_filter, ← congrArg length hbefore,
    ← congrArg length hafter, length_map, length_map]

theorem diffMinimal_replaced :
    DiffMinimal "a\nb".toList "a\nc".toList ['x'] ['y']
      (unifiedDiff "a\nb".toList "a\nc".toList ['x'] ['y'])
      (walk ("a\nb".toList.splitOn '\n') ("a\nc".toList.splitOn '\n')
        (lcsTable ("a\nc".toList.splitOn '\n') ("a\nb".toList.splitOn '\n')) 0 0) :=
  diffMinimal_unifiedDiff ['x'] ['y'] (by decide)

end Bridgeport.ConfigSync
