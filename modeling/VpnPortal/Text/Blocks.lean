/-
Files made of blocks, and a filter over their lines that drops blocks.

The filter reads line by line. A title opens a block; so does a mark, unless the
open block has only its title yet; a line before the first block goes out at
once. The open block is held back until the next one starts and is dropped if
one of its lines was a hit. On a file that is a header and well-formed blocks
this is what it looks like: the blocks without a hit stay, in order
(`dropBlocks_flatten`).

* `Marks`, `Scan`, `dropBlocks`: the filter;
* `Block`, `flatten`, `dropBlocks_flatten`: of a header and well-formed blocks the blocks
  without a hit stay, in order;
* `count_mark`: the marked lines count the blocks;
* `dropBlocks_eq`: in a file of any form, the lines before the first block and the
  blocks without a hit stay, in order; `flagged`: the same, line by line;
* `mem_of_mem_intercalate`, `mem_intercalate_of_mem`: what stands in a joined text;
* `splitOn_intercalate_eq_flatMap`: how it is split.
-/
import Mathlib.Data.List.TakeWhile
import Mathlib.Tactic

namespace Blocks

variable {α : Type}

/-- The lines that open a block. -/
structure Marks (α : Type) where
  title : α → Bool
  mark : α → Bool

/-- The filter between two lines: what went out, the open block, whether it has
its mark and whether it was hit. -/
structure Scan (α : Type) where
  out : List α := []
  buf : List α := []
  seen : Bool := false
  drop : Bool := false

/-- The open block goes out or is dropped. -/
def Scan.flush (s : Scan α) : Scan α where
  out := if s.drop then s.out else s.out ++ s.buf

/-- One line. -/
def Scan.line (m : Marks α) (hit : α → Bool) (s : Scan α) (a : α) : Scan α :=
  if m.title a then { s.flush with buf := [a] }
  else if m.mark a then
    let s := if s.seen then s.flush else s
    { s with buf := s.buf ++ [a], seen := true }
  else if s.buf.isEmpty then { s with out := s.out ++ [a] }
  else { s with buf := s.buf ++ [a], drop := s.drop || hit a }

/-- The filter over a whole file. -/
def dropBlocks (m : Marks α) (hit : α → Bool) (lines : List α) : List α :=
  (lines.foldl (Scan.line m hit) {}).flush.out

/-! ### Well-formed files -/

/-- A block: its mark behind an optional title, and plain lines. -/
structure Block (m : Marks α) where
  title : Option α
  mark : α
  body : List α
  isTitle : ∀ a ∈ title, m.title a = true
  isMark : m.title mark = false ∧ m.mark mark = true
  plain : ∀ a ∈ body, m.title a = false ∧ m.mark a = false

variable {m : Marks α} {hit : α → Bool}

namespace Block

/-- The lines of a block. -/
def lines (b : Block m) : List α := b.title.toList ++ b.mark :: b.body

/-- A line of the body is a hit. -/
def isHit (hit : α → Bool) (b : Block m) : Bool := b.body.any hit

end Block

/-- The text of a header and blocks. -/
def flatten (header : List α) (blocks : List (Block m)) : List α :=
  header ++ blocks.flatMap Block.lines

/-- The lines of a header open no block. -/
def Header (m : Marks α) (header : List α) : Prop :=
  ∀ a ∈ header, m.title a = false ∧ m.mark a = false

lemma scan_header {header : List α} (h : Header m header) (s : Scan α) (hbuf : s.buf = []) :
    header.foldl (Scan.line m hit) s = { s with out := s.out ++ header } := by
  induction header generalizing s with
  | nil => simp
  | cons a rest ih =>
      have ha := h a (by simp)
      have hline : s.line m hit a = { s with out := s.out ++ [a] } := by
        simp [Scan.line, ha.1, ha.2, hbuf]
      rw [List.foldl_cons, hline, ih (fun x hx => h x (by simp [hx])) { s with out := s.out ++ [a] } hbuf]
      simp

lemma scan_body {body : List α} (h : ∀ a ∈ body, m.title a = false ∧ m.mark a = false)
    (s : Scan α) (hbuf : s.buf ≠ []) :
    body.foldl (Scan.line m hit) s
      = { s with buf := s.buf ++ body, drop := s.drop || body.any hit } := by
  induction body generalizing s with
  | nil => simp
  | cons a rest ih =>
      have ha := h a (by simp)
      have hline : s.line m hit a = { s with buf := s.buf ++ [a], drop := s.drop || hit a } := by
        simp [Scan.line, ha.1, ha.2, hbuf]
      rw [List.foldl_cons, hline, ih (fun x hx => h x (by simp [hx])) _ (by simp)]
      simp [Bool.or_assoc]

/-- The filter stands between two blocks: nothing is held back, or a block with
its mark. -/
def Scan.Between (s : Scan α) : Prop :=
  (s.buf = [] ∧ s.seen = false ∧ s.drop = false) ∨ s.seen = true

/-- One block: what was held back goes out, and the block is held back. -/
lemma scan_block (b : Block m) (s : Scan α) (hs : s.Between) :
    b.lines.foldl (Scan.line m hit) s
      = { out := s.flush.out, buf := b.lines, seen := true, drop := b.isHit hit } := by
  have hopen : (b.title.toList ++ [b.mark]).foldl (Scan.line m hit) s
      = { out := s.flush.out, buf := b.title.toList ++ [b.mark], seen := true, drop := false } := by
    cases htitle : b.title with
    | none =>
        rcases hs with ⟨hbuf, hseen, hdrop⟩ | hseen
        · simp [Scan.line, b.isMark.1, b.isMark.2, hbuf, hseen, hdrop, Scan.flush]
        · simp [Scan.line, b.isMark.1, b.isMark.2, hseen, Scan.flush]
    | some a =>
        have ha := b.isTitle a (by rw [htitle]; rfl)
        simp [Scan.line, ha, b.isMark.1, b.isMark.2, Scan.flush]
  have hlines : b.lines = b.title.toList ++ [b.mark] ++ b.body := by simp [Block.lines]
  rw [hlines, List.foldl_append, hopen, scan_body b.plain _ (by simp)]
  simp [Block.isHit]

/-- The blocks that stay. -/
def survivors (hit : α → Bool) (blocks : List (Block m)) : List (Block m) :=
  blocks.filter fun b => !b.isHit hit

lemma scan_blocks (blocks : List (Block m)) (s : Scan α) (hs : s.Between) :
    ((blocks.flatMap Block.lines).foldl (Scan.line m hit) s).flush.out
      = s.flush.out ++ (survivors hit blocks).flatMap Block.lines := by
  induction blocks generalizing s with
  | nil => simp [survivors]
  | cons b rest ih =>
      rw [List.flatMap_cons, List.foldl_append, scan_block b s hs, ih _ (Or.inr rfl)]
      cases hhit : b.isHit hit with
      | true => simp [survivors, hhit, Scan.flush]
      | false => simp [survivors, hhit, Scan.flush]

/-- **The blocks without a hit stay.** -/
theorem dropBlocks_flatten {header : List α} (h : Header m header) (blocks : List (Block m)) :
    dropBlocks m hit (flatten header blocks) = flatten header (survivors hit blocks) := by
  unfold dropBlocks flatten
  rw [List.foldl_append, scan_header h _ rfl, scan_blocks _ _ (Or.inl ⟨rfl, rfl, rfl⟩)]
  simp [Scan.flush]

/-- The marked lines of a block: its mark. -/
lemma Block.count_mark (hdisj : ∀ a, m.title a = true → m.mark a = false) (b : Block m) :
    (b.lines.filter m.mark).length = 1 := by
  have htitle : b.title.toList.filter m.mark = [] := by
    refine List.filter_eq_nil_iff.mpr fun a ha => ?_
    rw [hdisj a (b.isTitle a (Option.mem_toList.mp ha))]
    simp
  have hbody : b.body.filter m.mark = [] := by
    refine List.filter_eq_nil_iff.mpr fun a ha => ?_
    rw [(b.plain a ha).2]
    simp
  rw [Block.lines, List.filter_append, htitle, List.filter_cons_of_pos b.isMark.2, hbody]
  rfl

/-- The marked lines count the blocks. -/
lemma count_mark (hdisj : ∀ a, m.title a = true → m.mark a = false) {header : List α}
    (h : Header m header) (blocks : List (Block m)) :
    ((flatten header blocks).filter m.mark).length = blocks.length := by
  have hheader : header.filter m.mark = [] := by
    refine List.filter_eq_nil_iff.mpr fun a ha => ?_
    rw [(h a ha).2]
    simp
  unfold flatten
  rw [List.filter_append, hheader, List.nil_append]
  induction blocks with
  | nil => rfl
  | cons b rest ih =>
      rw [List.flatMap_cons, List.filter_append, List.length_append, ih, b.count_mark hdisj]
      simp [Nat.add_comm]

/-- Nothing new goes out, whatever the file looks like. -/
lemma mem_dropBlocks {lines : List α} {a : α} (h : a ∈ dropBlocks m hit lines) : a ∈ lines := by
  have hflush : ∀ (s : Scan α) x, x ∈ s.flush.out → x ∈ s.out ++ s.buf := by
    intro s x hx
    unfold Scan.flush at hx
    split at hx
    · exact List.mem_append_left _ hx
    · exact hx
  have hline : ∀ (s : Scan α) b x, x ∈ (s.line m hit b).out ++ (s.line m hit b).buf →
      x ∈ s.out ++ s.buf ++ [b] := by
    intro s b x hx
    have hout := hflush s x
    unfold Scan.line at hx
    simp only [List.mem_append] at hx hout ⊢
    split_ifs at hx <;> simp only [Scan.flush, List.mem_append, List.not_mem_nil] at hx hout ⊢ <;>
      tauto
  have hfold : ∀ (ls : List α) (s : Scan α) x,
      x ∈ (ls.foldl (Scan.line m hit) s).out ++ (ls.foldl (Scan.line m hit) s).buf →
      x ∈ s.out ++ s.buf ++ ls := by
    intro ls
    induction ls with
    | nil => intro s x hx; simpa using hx
    | cons b rest ih =>
        intro s x hx
        have hx' := ih (s.line m hit b) x hx
        rcases List.mem_append.mp hx' with hx' | hx'
        · have hb := hline s b x hx'
          simp only [List.mem_append, List.mem_cons] at hb ⊢
          tauto
        · simp [hx']
  have hmem := hfold lines {} a (hflush _ a h)
  simpa using hmem

/-! ### Files of any form -/

/-- A line that opens no block. -/
def Marks.plain (m : Marks α) (a : α) : Bool := !m.title a && !m.mark a

/-- The blocks from the open one on; `seen` says whether it has its mark. -/
def cut (m : Marks α) : List α → Bool → List α → List (List α)
  | buf, _, [] => [buf]
  | buf, seen, a :: rest =>
      if m.title a then buf :: cut m [a] false rest
      else if m.mark a && seen then buf :: cut m [a] true rest
      else cut m (buf ++ [a]) (seen || m.mark a) rest

/-- The lines before the first block. -/
def front (m : Marks α) (lines : List α) : List α := lines.takeWhile m.plain

/-- The blocks of a file. -/
def blocksOf (m : Marks α) (lines : List α) : List (List α) :=
  match lines.dropWhile m.plain with
  | [] => []
  | a :: rest => cut m [a] (!m.title a) rest

/-- A plain line of the block is a hit. -/
def blockHit (m : Marks α) (hit : α → Bool) (block : List α) : Bool :=
  block.any fun a => m.plain a && hit a

lemma flatten_cut (buf : List α) (seen : Bool) (lines : List α) :
    (cut m buf seen lines).flatten = buf ++ lines := by
  induction lines generalizing buf seen with
  | nil => simp [cut]
  | cons a rest ih =>
      rw [cut]
      split_ifs
      · rw [List.flatten_cons, ih, List.singleton_append]
      · rw [List.flatten_cons, ih, List.singleton_append]
      · rw [ih, List.append_assoc, List.singleton_append]

/-- The file is its blocks behind the lines before them. -/
lemma front_append_flatten (m : Marks α) (lines : List α) :
    front m lines ++ (blocksOf m lines).flatten = lines := by
  conv_rhs => rw [← List.takeWhile_append_dropWhile (p := m.plain) (l := lines)]
  rw [front, blocksOf]
  cases lines.dropWhile m.plain with
  | nil => rfl
  | cons a rest => rw [flatten_cut, List.singleton_append]

/-- Closing the open block, as the filter does it and as the blocks are kept. -/
lemma flush_out (s : Scan α) (hdrop : s.drop = blockHit m hit s.buf) (rest : List (List α)) :
    s.out ++ ((s.buf :: rest).filter fun b => !blockHit m hit b).flatten
      = s.flush.out ++ (rest.filter fun b => !blockHit m hit b).flatten := by
  rw [Scan.flush, hdrop]
  cases hhit : blockHit m hit s.buf <;> simp [hhit]

/-- The filter from an open block on. -/
lemma scan_cut (lines : List α) (s : Scan α) (hbuf : s.buf ≠ [])
    (hdrop : s.drop = blockHit m hit s.buf) :
    (lines.foldl (Scan.line m hit) s).flush.out
      = s.out ++ ((cut m s.buf s.seen lines).filter fun b => !blockHit m hit b).flatten := by
  induction lines generalizing s with
  | nil =>
      rw [cut, flush_out s hdrop]
      simp
  | cons a rest ih =>
      rw [List.foldl_cons, Scan.line, cut]
      cases htitle : m.title a with
      | true =>
          simp only [↓reduceIte]
          rw [flush_out s hdrop, ih _ (by simp) (by simp [blockHit, Marks.plain, htitle, Scan.flush])]
          rfl
      | false =>
          cases hmark : m.mark a with
          | true =>
              -- a mark closes the open block if that has its own
              cases hseen : s.seen with
              | true =>
                  simp only [Bool.false_eq_true, ↓reduceIte, Bool.and_self]
                  rw [flush_out s hdrop, ih _ (by simp) (by simp [blockHit, Marks.plain, hmark, Scan.flush])]
                  simp [Scan.flush]
              | false =>
                  simp only [Bool.false_eq_true, ↓reduceIte, Bool.and_false, Bool.or_true]
                  exact ih _ (by simp) (by simp [blockHit, Marks.plain, hmark, hdrop])
          | false =>
              simp only [Bool.false_eq_true, ↓reduceIte, List.isEmpty_iff, hbuf, Bool.false_and,
                Bool.or_false]
              exact ih _ (by simp) (by simp [blockHit, Marks.plain, htitle, hmark, hdrop])

/-- **How the filter cuts a file.** The lines before the first block go out, and
so does every block without a hit, in order. -/
theorem dropBlocks_eq (m : Marks α) (hit : α → Bool) (lines : List α) :
    dropBlocks m hit lines
      = front m lines ++ ((blocksOf m lines).filter fun b => !blockHit m hit b).flatten := by
  have hfront : Header m (front m lines) := by
    intro a ha
    have hplain : m.plain a = true := List.mem_takeWhile_imp ha
    simpa [Marks.plain] using hplain
  have hstart : dropBlocks m hit lines
      = ((lines.dropWhile m.plain).foldl (Scan.line m hit) { out := front m lines }).flush.out := by
    rw [dropBlocks]
    conv_lhs => rw [← List.takeWhile_append_dropWhile (p := m.plain) (l := lines)]
    have hhead : (lines.takeWhile m.plain).foldl (Scan.line m hit) {} = { out := front m lines } :=
      scan_header hfront {} rfl
    rw [List.foldl_append, hhead]
  rw [hstart, blocksOf]
  cases hrest : lines.dropWhile m.plain with
  | nil => simp [Scan.flush]
  | cons a rest =>
      have hopen : m.plain a = false := by
        simpa [hrest] using List.head?_dropWhile_not m.plain lines
      have hline : Scan.line m hit { out := front m lines } a
          = { out := front m lines, buf := [a], seen := !m.title a } := by
        cases htitle : m.title a with
        | true => simp [Scan.line, htitle, Scan.flush]
        | false =>
            have hmark : m.mark a = true := by simpa [Marks.plain, htitle] using hopen
            simp [Scan.line, htitle, hmark]
      rw [List.foldl_cons, hline, scan_cut _ _ (by simp) (by simp [blockHit, hopen])]

/-- The lines of a file, each with whether its block is dropped. -/
def flagged (m : Marks α) (hit : α → Bool) (lines : List α) : List (α × Bool) :=
  (front m lines).map (·, false) ++ (blocksOf m lines).flatMap fun b => b.map (·, blockHit m hit b)

/-- They are all the lines. -/
lemma map_fst_flagged (m : Marks α) (hit : α → Bool) (lines : List α) :
    (flagged m hit lines).map Prod.fst = lines := by
  conv_rhs => rw [← front_append_flatten m lines]
  rw [flagged, List.map_append, List.map_map, List.map_flatMap]
  congr 1
  · exact List.map_id _
  · simp [List.flatMap_def, Function.comp_def]

/-- The lines of one block that stay. -/
lemma stay_of_block (b : List α) (gone : Bool) :
    ((b.map (·, gone)).filter fun x => !x.2).map Prod.fst = if gone then [] else b := by
  cases gone with
  | true =>
      rw [List.filter_eq_nil_iff.mpr (by simp)]
      rfl
  | false =>
      rw [List.filter_eq_self.mpr (by simp), List.map_map]
      exact List.map_id _

/-- Those that are not flagged stay. -/
lemma dropBlocks_eq_flagged (m : Marks α) (hit : α → Bool) (lines : List α) :
    dropBlocks m hit lines = ((flagged m hit lines).filter fun x => !x.2).map Prod.fst := by
  rw [dropBlocks_eq, flagged, List.filter_append, List.map_append]
  congr 1
  · exact (stay_of_block _ false).symm
  · induction blocksOf m lines with
    | nil => rfl
    | cons b rest ih =>
        rw [List.flatMap_cons, List.filter_append, List.map_append, ← ih, stay_of_block]
        cases hb : blockHit m hit b <;> simp [hb]

/-- A flagged line stands in a block with a hit. -/
lemma exists_hit_of_flagged {lines : List α} {x : α × Bool} (h : x ∈ flagged m hit lines)
    (hx : x.2 = true) : ∃ a, (a, true) ∈ flagged m hit lines ∧ hit a = true := by
  rcases List.mem_append.mp h with h | h
  · obtain ⟨a, -, rfl⟩ := List.mem_map.mp h
    cases hx
  · obtain ⟨b, hb, hmem⟩ := List.mem_flatMap.mp h
    obtain ⟨a, -, rfl⟩ := List.mem_map.mp hmem
    obtain ⟨c, hc, hhit⟩ := List.any_eq_true.mp hx
    refine ⟨c, List.mem_append_right _ (List.mem_flatMap.mpr ⟨b, hb, ?_⟩), ?_⟩
    · exact List.mem_map.mpr ⟨c, hc, by rw [show blockHit m hit b = true from hx]⟩
    · exact (Bool.and_eq_true _ _ ▸ hhit).2

/-! ### Joined texts -/

/-- What stands in a joined text is a separator or stands in one of the parts. -/
lemma mem_of_mem_intercalate {sep : List α} {x : α} {ts : List (List α)}
    (h : x ∈ sep.intercalate ts) : x ∈ sep ∨ ∃ t ∈ ts, x ∈ t := by
  induction ts with
  | nil => cases h
  | cons t ts ih =>
    cases ts with
    | nil => exact .inr ⟨t, List.mem_cons_self, by simpa using h⟩
    | cons u ts =>
      rw [List.intercalate_cons_cons, List.mem_append, List.mem_append] at h
      rcases h with (h | h) | h
      · exact .inr ⟨t, List.mem_cons_self, h⟩
      · exact .inl h
      · rcases ih h with h | ⟨v, hv, h⟩
        · exact .inl h
        · exact .inr ⟨v, List.mem_cons_of_mem _ hv, h⟩

/-- What stands in one of the parts stands in the joined text. -/
lemma mem_intercalate_of_mem {sep : List α} {x : α} {t : List α} {ts : List (List α)}
    (ht : t ∈ ts) (hx : x ∈ t) : x ∈ sep.intercalate ts := by
  induction ts with
  | nil => cases ht
  | cons u ts ih =>
    cases ts with
    | nil =>
      obtain rfl := List.mem_singleton.mp ht
      simpa using hx
    | cons v ts =>
      rw [List.intercalate_cons_cons, List.mem_append, List.mem_append]
      rcases List.mem_cons.mp ht with rfl | ht
      · exact .inl (.inl hx)
      · exact .inr (ih ht)

/-- A joined text is split at its separators, wherever they come from. -/
lemma splitOn_intercalate_eq_flatMap [DecidableEq α] (sep : α) {ts : List (List α)} (hts : ts ≠ []) :
    ([sep].intercalate ts).splitOn sep = ts.flatMap (List.splitOn sep) := by
  induction ts with
  | nil => exact absurd rfl hts
  | cons t ts ih =>
    cases ts with
    | nil => simp
    | cons u ts =>
      rw [List.intercalate_cons_cons, List.append_assoc, List.singleton_append,
        List.splitOn_append_cons_self, ih (List.cons_ne_nil u ts)]
      rfl

end Blocks
