/-
The config file as the interface reads it, and what `pwa-del-peer` leaves of it.

`awg` cuts a line at a `#`, drops its blanks and takes `[Interface]` and `[Peer]`
in any case; everything else is a setting of the section it stands in. The
wrapper sees the file differently: a line that starts with `###` opens a block,
wherever it stands, and a `[Peer]` that does not start its line opens none. A
file is read in both ways at once: its sections, with what the blocks of a key
take of them.

* `itemOf`, `sections`, `Accepted`: how `awg` reads a file, and which one it takes;
* `marked`: the sections, each line with whether it stands in a block of the key,
  and `readConf_filter`, what is read once these lines are gone;
* `Orderly`: every setting goes if and only if the header of its section does;
* `removal_keeps_sections`: in an orderly file a removal takes one section with the
  key and nothing else, and `orderly_iff`: in no other file does it take the lines
  of one section.
-/
import Mathlib.Data.List.TakeWhile
import VpnPortal.Nodes.DelPeer

namespace VpnPortal

open Blocks

/-! ### How the file is read -/

/-- The text of a line: cut at a `#`, without blanks, in small letters. -/
def plainText (line : Line) : Line :=
  ((line.takeWhile (· ≠ '#')).filter (!isSpace ·)).map Char.toLower

inductive Head where
  | interface | peer
  deriving DecidableEq, Repr

/-- A line that says something. -/
inductive Item where
  | head (h : Head)
  | setting (line : Line)
  deriving DecidableEq, Repr

/-- What a line says; nothing for a blank line or a comment. -/
def itemOf (line : Line) : Option Item :=
  let text := plainText line
  if text = [] then none
  else if text = "[interface]".toList then some (.head .interface)
  else if text = "[peer]".toList then some (.head .peer)
  else some (.setting line)

def items (conf : List Line) : List Item := conf.filterMap itemOf

/-- A section with the lines of its settings. -/
structure Section where
  head : Head
  settings : List Line
  deriving DecidableEq, Repr

/-- One more entry in front: the settings that have no section yet, and the
sections. -/
def readItem (e : Item) (acc : List Line × List Section) : List Line × List Section :=
  match e with
  | .head h => ([], ⟨h, acc.1⟩ :: acc.2)
  | .setting line => (line :: acc.1, acc.2)

def readConf (conf : List Line) : List Line × List Section :=
  (items conf).foldr readItem ([], [])

/-- The sections of a file, with all their settings. -/
def sections (conf : List Line) : List Section := (readConf conf).2

/-- A file the interface is brought up with: every bracketed line is a header,
every setting is in a section, and one of the sections is `[Interface]`. -/
structure Accepted (conf : List Line) : Prop where
  headers : ∀ l ∈ conf, (plainText l).head? = some '[' →
    plainText l = "[interface]".toList ∨ plainText l = "[peer]".toList
  inside : (readConf conf).1 = []
  interface : (conf.filter fun l => itemOf l = some (.head .interface)).length = 1

/-! ### Both readings -/

/-- A section whose header and settings are flagged. -/
structure Marked where
  head : Head
  gone : Bool
  settings : List (Line × Bool)
  deriving DecidableEq, Repr

/-- The section without the flags. -/
def Marked.toSection (s : Marked) : Section := ⟨s.head, s.settings.map Prod.fst⟩

/-- One more flagged line in front. -/
def readMarked (x : Line × Bool) (acc : List (Line × Bool) × List Marked) :
    List (Line × Bool) × List Marked :=
  match itemOf x.1 with
  | none => acc
  | some (.head h) => ([], ⟨h, x.2, acc.1⟩ :: acc.2)
  | some (.setting _) => (x :: acc.1, acc.2)

def readFlagged (ls : List (Line × Bool)) : List (Line × Bool) × List Marked :=
  ls.foldr readMarked ([], [])

/-- The lines of a file, each with whether it stands in a block that carries the
key: those are the lines a rewrite drops. -/
def flaggedLines (pub : String) (conf : List Line) : List (Line × Bool) :=
  flagged confMarks (carries pub) conf

/-- The sections of a file with what the blocks of the key take of them. -/
def marked (pub : String) (conf : List Line) : List Marked := (readFlagged (flaggedLines pub conf)).2

/-- A section of which the flagged lines are gone; without its header, the settings
that stay go to the section before it. -/
def keepSection (s : Marked) (acc : List Line × List Section) : List Line × List Section :=
  let stay := (s.settings.filter fun x => !x.2).map Prod.fst ++ acc.1
  if s.gone then (stay, acc.2) else ([], ⟨s.head, stay⟩ :: acc.2)

/-- The sections without their flagged lines. -/
def keptSections (secs : List Marked) : List Line × List Section := secs.foldr keepSection ([], [])

/-- Every setting stands in a block of the key if and only if the header of its
section does, and the `[Peer]` headers in such a block start their lines. -/
structure Orderly (pub : String) (conf : List Line) : Prop where
  settings : ∀ sec ∈ marked pub conf, ∀ x ∈ sec.settings, x.2 = sec.gone
  headers : ∀ x ∈ flaggedLines pub conf, x.2 = true → itemOf x.1 = some (.head .peer) →
    isPeerLine x.1 = true

/-- `conf'` is the file without one `[Peer]` section that carries the key. -/
def Removed (pub : String) (conf conf' : List Line) : Prop :=
  ∃ before sec after, sections conf = before ++ sec :: after ∧ sec.head = .peer
    ∧ (∃ l ∈ sec.settings, carries pub l = true) ∧ sections conf' = before ++ after

/-! ### Single lines -/

lemma plainText_of_prefix {pre l : Line} (h : pre.isPrefixOf l = true)
    (hplain : ∀ c ∈ pre, c ≠ '#' ∧ isSpace c = false) :
    ∃ rest, plainText l = pre.map Char.toLower ++ rest := by
  obtain ⟨rest, rfl⟩ := List.isPrefixOf_iff_prefix.mp h
  have htake : (pre ++ rest).takeWhile (fun c => decide (c ≠ '#'))
      = pre ++ rest.takeWhile (fun c => decide (c ≠ '#')) :=
    List.takeWhile_append_of_pos fun c hc => by simpa using (hplain c hc).1
  have hfilter : pre.filter (!isSpace ·) = pre :=
    List.filter_eq_self.mpr fun c hc => by simp [(hplain c hc).2]
  refine ⟨((rest.takeWhile (· ≠ '#')).filter (!isSpace ·)).map Char.toLower, ?_⟩
  rw [plainText, htake, List.filter_append, hfilter, List.map_append]

/-- A bracketed line of an accepted file is the header it looks like. -/
lemma Accepted.itemOf_peer {conf : List Line} (h : Accepted conf) {l : Line} (hl : l ∈ conf)
    (hpeer : isPeerLine l = true) : itemOf l = some (.head .peer) := by
  obtain ⟨rest, htext⟩ := plainText_of_prefix hpeer (by simp [isSpace])
  have htext' : plainText l = "[peer]".toList := by
    refine (h.headers l hl (by rw [htext]; rfl)).resolve_left fun heq => ?_
    rw [htext] at heq
    have hsecond : some 'p' = some 'i' := congrArg (fun text : Line => text[1]?) heq
    exact absurd hsecond (by decide)
  rw [itemOf, htext']
  rfl

lemma Accepted.itemOf_interface {conf : List Line} (h : Accepted conf) {l : Line} (hl : l ∈ conf)
    (hface : isInterfaceLine l = true) : itemOf l = some (.head .interface) := by
  obtain ⟨rest, htext⟩ := plainText_of_prefix hface (by simp [isSpace])
  have htext' : plainText l = "[interface]".toList := by
    refine (h.headers l hl (by rw [htext]; rfl)).resolve_right fun heq => ?_
    rw [htext] at heq
    have hsecond : some 'i' = some 'p' := congrArg (fun text : Line => text[1]?) heq
    exact absurd hsecond (by decide)
  rw [itemOf, htext']
  rfl

/-- A line with a key is a setting. -/
lemma itemOf_carries {pub : String} {l : Line} (h : carries pub l = true) :
    itemOf l = some (.setting l) := by
  have hkey : keyOf l = some pub.toList := of_decide_eq_true h
  have hprefix : "PublicKey".toList.isPrefixOf (l.dropWhile isSpace) = true := by
    by_contra hnot
    rw [keyOf, if_neg hnot] at hkey
    cases hkey
  -- the blanks in front are dropped, so the text begins with a `p`
  obtain ⟨rest, htext⟩ := plainText_of_prefix hprefix (by simp [isSpace])
  have hsame : plainText l = plainText (l.dropWhile isSpace) := by
    have hspace : ∀ c ∈ l.takeWhile isSpace, isSpace c = true := fun c hc =>
      List.mem_takeWhile_imp hc
    have htake : l.takeWhile (fun c => decide (c ≠ '#')) = l.takeWhile isSpace
        ++ (l.dropWhile isSpace).takeWhile (fun c => decide (c ≠ '#')) := by
      conv_lhs => rw [← List.takeWhile_append_dropWhile (p := isSpace) (l := l)]
      refine List.takeWhile_append_of_pos fun c hc => ?_
      rw [decide_eq_true_eq]
      rintro rfl
      exact absurd (hspace _ hc) (by decide)
    have hnone : (l.takeWhile isSpace).filter (!isSpace ·) = [] :=
      List.filter_eq_nil_iff.mpr fun c hc => by simp [hspace c hc]
    rw [plainText, plainText, htake, List.filter_append, hnone, List.nil_append]
  have hfirst : (plainText l).head? = some 'p' := by
    rw [hsame, htext]
    rfl
  have hne : ∀ text : Line, text.head? ≠ some 'p' → plainText l ≠ text := by
    rintro text htext' rfl
    exact htext' hfirst
  rw [itemOf, if_neg (hne _ (by decide)), if_neg (hne _ (by decide)), if_neg (hne _ (by decide))]

/-! ### Reading line by line -/

/-- A setting is the line it stands in. -/
lemma itemOf_setting {l l' : Line} (h : itemOf l = some (.setting l')) : l' = l := by
  unfold itemOf at h
  dsimp only at h
  split_ifs at h
  · cases h
  · cases h
  · exact (Item.setting.inj (Option.some.inj h)).symm

lemma readConf_cons (l : Line) (ls : List Line) :
    readConf (l :: ls) = match itemOf l with
      | none => readConf ls
      | some e => readItem e (readConf ls) := by
  cases h : itemOf l with
  | none => rw [readConf, items, List.filterMap_cons_none h, readConf, items]
  | some e => rw [readConf, items, List.filterMap_cons_some h, readConf, items, List.foldr_cons]

lemma readFlagged_cons (x : Line × Bool) (ls : List (Line × Bool)) :
    readFlagged (x :: ls) = readMarked x (readFlagged ls) := rfl

/-- Without the flags it is the file as `awg` reads it. -/
lemma readConf_map_fst (ls : List (Line × Bool)) :
    readConf (ls.map Prod.fst)
      = ((readFlagged ls).1.map Prod.fst, (readFlagged ls).2.map Marked.toSection) := by
  induction ls with
  | nil => rfl
  | cons x rest ih =>
      rw [List.map_cons, readConf_cons, readFlagged_cons, readMarked]
      cases h : itemOf x.1 with
      | none => exact ih
      | some e =>
          cases e with
          | head hd => simp [ih, readItem, Marked.toSection]
          | setting l => simp [ih, readItem, itemOf_setting h]

/-- A file as it is read, and its flagged lines. -/
lemma readConf_eq (pub : String) (conf : List Line) :
    readConf conf = ((readFlagged (flaggedLines pub conf)).1.map Prod.fst,
      (marked pub conf).map Marked.toSection) := by
  have hread := readConf_map_fst (flaggedLines pub conf)
  rw [flaggedLines, map_fst_flagged] at hread
  exact hread

/-- What is read once the flagged lines are gone. -/
lemma readConf_filter (ls : List (Line × Bool)) :
    readConf ((ls.filter fun x => !x.2).map Prod.fst)
      = (((readFlagged ls).1.filter fun x => !x.2).map Prod.fst ++ (keptSections (readFlagged ls).2).1,
        (keptSections (readFlagged ls).2).2) := by
  induction ls with
  | nil => rfl
  | cons x rest ih =>
      obtain ⟨l, gone⟩ := x
      rw [readFlagged_cons, readMarked]
      cases h : itemOf l with
      | none =>
          cases gone with
          | true => simpa using ih
          | false => simpa [readConf_cons, h] using ih
      | some e =>
          cases e with
          | head hd =>
              cases gone with
              | true => simpa [keptSections, keepSection] using ih
              | false => simp [readConf_cons, h, ih, readItem, keptSections, keepSection]
          | setting l' =>
              obtain rfl := itemOf_setting h
              cases gone with
              | true => simpa using ih
              | false => simp [readConf_cons, h, ih, readItem]

/-- A setting is in front of the first header or in a section. -/
lemma mem_of_setting {ls : List (Line × Bool)} {x : Line × Bool} (hx : x ∈ ls)
    (hitem : itemOf x.1 = some (.setting x.1)) :
    x ∈ (readFlagged ls).1 ∨ ∃ sec ∈ (readFlagged ls).2, x ∈ sec.settings := by
  induction ls with
  | nil => cases hx
  | cons y rest ih =>
      rw [readFlagged_cons, readMarked]
      rcases List.mem_cons.mp hx with rfl | hx
      · rw [hitem]
        exact .inl List.mem_cons_self
      · cases h : itemOf y.1 with
        | none => exact ih hx
        | some e =>
            cases e with
            | head hd =>
                refine .inr ?_
                rcases ih hx with hopen | ⟨sec, hsec, hmem⟩
                · exact ⟨_, List.mem_cons_self, hopen⟩
                · exact ⟨sec, List.mem_cons_of_mem _ hsec, hmem⟩
            | setting l =>
                rcases ih hx with hopen | hsec
                · exact .inl (List.mem_cons_of_mem _ hopen)
                · exact .inr hsec

/-- Every setting that is read is a line of the file. -/
lemma mem_of_read {ls : List (Line × Bool)} {x : Line × Bool}
    (h : x ∈ (readFlagged ls).1 ∨ ∃ sec ∈ (readFlagged ls).2, x ∈ sec.settings) : x ∈ ls := by
  induction ls with
  | nil => simp [readFlagged] at h
  | cons y rest ih =>
      rw [readFlagged_cons, readMarked] at h
      cases hitem : itemOf y.1 with
      | none =>
          rw [hitem] at h
          exact List.mem_cons_of_mem _ (ih h)
      | some e =>
          rw [hitem] at h
          cases e with
          | head hd =>
              refine List.mem_cons_of_mem _ (ih ?_)
              rcases h with hopen | ⟨sec, hsec, hmem⟩
              · cases hopen
              · rcases List.mem_cons.mp hsec with rfl | hsec
                · exact .inl hmem
                · exact .inr ⟨sec, hsec, hmem⟩
          | setting l =>
              rcases h with hopen | hsec
              · rcases List.mem_cons.mp hopen with rfl | hopen
                · exact List.mem_cons_self
                · exact List.mem_cons_of_mem _ (ih (.inl hopen))
              · exact List.mem_cons_of_mem _ (ih (.inr hsec))

/-- Every section has its header in the file. -/
lemma exists_header {ls : List (Line × Bool)} {sec : Marked} (h : sec ∈ (readFlagged ls).2) :
    ∃ x ∈ ls, itemOf x.1 = some (.head sec.head) ∧ x.2 = sec.gone := by
  induction ls with
  | nil => cases h
  | cons y rest ih =>
      rw [readFlagged_cons, readMarked] at h
      have hrest : sec ∈ (readFlagged rest).2 →
          ∃ x ∈ y :: rest, itemOf x.1 = some (.head sec.head) ∧ x.2 = sec.gone := fun hsec => by
        obtain ⟨x, hx, hboth⟩ := ih hsec
        exact ⟨x, List.mem_cons_of_mem _ hx, hboth⟩
      cases hitem : itemOf y.1 with
      | none =>
          rw [hitem] at h
          exact hrest h
      | some e =>
          rw [hitem] at h
          cases e with
          | setting l => exact hrest h
          | head hd =>
              rcases List.mem_cons.mp h with rfl | h
              · exact ⟨y, List.mem_cons_self, hitem, rfl⟩
              · exact hrest h

/-- A header that is flagged. -/
def headGone (x : Line × Bool) : Bool :=
  x.2 && decide (itemOf x.1 = some (.head .interface) ∨ itemOf x.1 = some (.head .peer))

/-- The sections without their header count the flagged headers. -/
lemma count_gone (ls : List (Line × Bool)) :
    ((readFlagged ls).2.filter Marked.gone).length = (ls.filter headGone).length := by
  induction ls with
  | nil => rfl
  | cons x rest ih =>
      rw [readFlagged_cons, readMarked, List.filter_cons]
      cases h : itemOf x.1 with
      | none => simpa [headGone, h] using ih
      | some e =>
          cases e with
          | setting l => simpa [headGone, h] using ih
          | head hd =>
              cases hd <;> cases hgone : x.2 <;> simp [headGone, h, hgone, ih]

/-! ### What a rewrite drops -/

section Rewrite

variable {conf conf' : List Line} {pub : String}

/-- The new file is the lines without a flag. -/
lemma eq_of_rewriteConf (h : rewriteConf pub conf = .ok conf') :
    conf' = ((flaggedLines pub conf).filter fun x => !x.2).map Prod.fst := by
  rw [(rewriteConf_guards h).1, dropBlocks_eq_flagged]
  rfl

/-- The lines of a kind that stay and that go. -/
lemma count_flagged (p : Line → Bool) (ls : List (Line × Bool)) :
    ((ls.map Prod.fst).filter p).length
      = (((ls.filter fun x => !x.2).map Prod.fst).filter p).length
        + (ls.filter fun x => x.2 && p x.1).length := by
  induction ls with
  | nil => rfl
  | cons x rest ih =>
      cases hgone : x.2 <;> cases hp : p x.1 <;> simp [hgone, hp, ih] <;> omega

/-- The `[Interface]` header of an accepted file stays. -/
lemma Accepted.interface_stays (hacc : Accepted conf) (h : rewriteConf pub conf = .ok conf')
    {x : Line × Bool} (hx : x ∈ flaggedLines pub conf) (hgone : x.2 = true) :
    itemOf x.1 ≠ some (.head .interface) := by
  intro hitem
  obtain ⟨-, -, -, hface⟩ := rewriteConf_guards h
  have hconf' := eq_of_rewriteConf h
  have hcount := count_flagged (fun l => decide (itemOf l = some (.head .interface)))
    (flaggedLines pub conf)
  have hone : (((flaggedLines pub conf).map Prod.fst).filter
      fun l => itemOf l = some (.head .interface)).length = 1 := by
    rw [flaggedLines, map_fst_flagged]
    exact hacc.interface
  rw [hone, ← hconf'] at hcount
  -- the guard has found one among the lines that stay
  have hstays : 1 ≤ (conf'.filter fun l => itemOf l = some (.head .interface)).length := by
    obtain ⟨l, hl, hlface⟩ := List.any_eq_true.mp hface
    have hmem : l ∈ conf := by
      rw [(rewriteConf_guards h).1] at hl
      exact mem_dropBlocks hl
    exact List.length_pos_of_mem (List.mem_filter.mpr
      ⟨hl, decide_eq_true (hacc.itemOf_interface hmem hlface)⟩)
  have hgoes : 1 ≤ ((flaggedLines pub conf).filter
      fun x => x.2 && decide (itemOf x.1 = some (.head .interface))).length :=
    List.length_pos_of_mem (List.mem_filter.mpr ⟨hx, by simp [hgone, hitem]⟩)
  omega

/-- One line that reads `[Peer]` goes. -/
lemma one_peerLine (h : rewriteConf pub conf = .ok conf') :
    ((flaggedLines pub conf).filter fun x => x.2 && isPeerLine x.1).length = 1 := by
  obtain ⟨-, hcount, -, -⟩ := rewriteConf_guards h
  have hsplit := count_flagged isPeerLine (flaggedLines pub conf)
  rw [← eq_of_rewriteConf h, flaggedLines, map_fst_flagged] at hsplit
  rw [flaggedLines]
  omega

/-- A line that reads `[Peer]` and goes is the header of its section. -/
lemma Accepted.headGone_of_peerLine (hacc : Accepted conf) {x : Line × Bool}
    (hx : x ∈ flaggedLines pub conf) (hgone : x.2 = true) (hpeer : isPeerLine x.1 = true) :
    headGone x = true := by
  have hmem : x.1 ∈ conf := by
    rw [← map_fst_flagged confMarks (carries pub) conf]
    exact List.mem_map_of_mem hx
  simp [headGone, hgone, hacc.itemOf_peer hmem hpeer]

/-- A rewrite drops a setting with the key. -/
lemma exists_key_gone (h : rewriteConf pub conf = .ok conf') :
    ∃ l, (l, true) ∈ flaggedLines pub conf ∧ carries pub l = true := by
  have hone := one_peerLine h
  obtain ⟨x, hx⟩ := List.exists_mem_of_length_pos (by rw [hone]; exact Nat.one_pos)
  obtain ⟨hmem, hboth⟩ := List.mem_filter.mp hx
  exact exists_hit_of_flagged hmem ((Bool.and_eq_true _ _).mp hboth).1

/-- The lines that go are those of one `[Peer]` section with the key. -/
def GoesAlone (pub : String) (conf : List Line) : Prop :=
  ∃ before sec after, marked pub conf = before ++ sec :: after ∧ sec.head = .peer ∧ sec.gone = true
    ∧ (∀ x ∈ sec.settings, x.2 = true) ∧ (∃ x ∈ sec.settings, carries pub x.1 = true)
    ∧ ∀ other ∈ before ++ after, other.gone = false ∧ ∀ x ∈ other.settings, x.2 = false

/-- In an orderly file one header goes, and its settings with it. -/
lemma Orderly.goesAlone (hord : Orderly pub conf) (hacc : Accepted conf)
    (h : rewriteConf pub conf = .ok conf') : GoesAlone pub conf := by
  have hheads : (flaggedLines pub conf).filter headGone
      = (flaggedLines pub conf).filter fun x => x.2 && isPeerLine x.1 := by
    refine List.filter_congr fun x hx => ?_
    rw [Bool.eq_iff_iff, Bool.and_eq_true]
    refine ⟨fun hgone => ?_, fun hboth => hacc.headGone_of_peerLine hx hboth.1 hboth.2⟩
    obtain ⟨hflag, hitem⟩ := (Bool.and_eq_true _ _).mp hgone
    rcases of_decide_eq_true hitem with hface | hpeer
    · exact absurd hface (hacc.interface_stays h hx hflag)
    · exact ⟨hflag, hord.headers x hx hflag hpeer⟩
  have hone : ((marked pub conf).filter Marked.gone).length = 1 := by
    rw [marked, count_gone, hheads]
    exact one_peerLine h
  obtain ⟨sec, hsec⟩ := List.length_eq_one_iff.mp hone
  obtain ⟨before, after, hsplit, hbefore, hgone, hafter⟩ := List.filter_eq_cons_iff.mp hsec
  have hmem : sec ∈ marked pub conf := by
    rw [hsplit]
    simp
  refine ⟨before, sec, after, hsplit, ?_, hgone, fun x hx => (hord.settings sec hmem x hx).trans hgone,
    ?_, fun other hother => ?_⟩
  · obtain ⟨x, hx, hitem, hflag⟩ := exists_header hmem
    cases hhead : sec.head with
    | peer => rfl
    | interface =>
        rw [hhead] at hitem
        exact absurd hitem (hacc.interface_stays h hx (hflag.trans hgone))
  · -- the setting with the key is in a section whose header goes, and that is this one
    obtain ⟨l, hl, hkey⟩ := exists_key_gone h
    rcases mem_of_setting hl (itemOf_carries hkey) with hopen | ⟨sec', hsec', hmem'⟩
    · have hinside : (readFlagged (flaggedLines pub conf)).1.map Prod.fst = [] :=
        (congrArg Prod.fst (readConf_eq pub conf)).symm.trans hacc.inside
      rw [List.map_eq_nil_iff.mp hinside] at hopen
      cases hopen
    · have hgone' : sec' ∈ (marked pub conf).filter Marked.gone :=
        List.mem_filter.mpr ⟨hsec', (hord.settings sec' hsec' _ hmem').symm⟩
      rw [hsec, List.mem_singleton] at hgone'
      exact ⟨(l, true), hgone' ▸ hmem', hkey⟩
  · have hkept : other.gone = false := by
      rcases List.mem_append.mp hother with hother | hother
      · simpa using hbefore other hother
      · simpa using List.filter_eq_nil_iff.mp hafter other hother
    have hin : other ∈ marked pub conf := by
      rw [hsplit]
      rcases List.mem_append.mp hother with hother | hother
      · exact List.mem_append_left _ hother
      · exact List.mem_append_right _ (List.mem_cons_of_mem _ hother)
    exact ⟨hkept, fun x hx => (hord.settings other hin x hx).trans hkept⟩

/-- **Orderly files** are those in which the lines that go are those of one
section. -/
theorem orderly_iff (hacc : Accepted conf) (h : rewriteConf pub conf = .ok conf') :
    Orderly pub conf ↔ GoesAlone pub conf := by
  refine ⟨fun hord => hord.goesAlone hacc h, ?_⟩
  rintro ⟨before, sec, after, hsplit, -, hgone, hgo, -, hothers⟩
  have hcases : ∀ other ∈ marked pub conf, other = sec ∨ other ∈ before ++ after := by
    intro other hother
    rw [hsplit] at hother
    rcases List.mem_append.mp hother with hother | hother
    · exact .inr (List.mem_append_left _ hother)
    · exact (List.mem_cons.mp hother).imp_right (List.mem_append_right _)
  refine ⟨fun other hother x hx => ?_, fun x hx hflag hitem => ?_⟩
  · rcases hcases other hother with rfl | hother
    · exact (hgo x hx).trans hgone.symm
    · obtain ⟨hkept, hstay⟩ := hothers other hother
      exact (hstay x hx).trans hkept.symm
  · -- the one header that goes is the `[Peer]` line the guard has counted
    have hone : ((flaggedLines pub conf).filter headGone).length = 1 := by
      have hfilter : (marked pub conf).filter Marked.gone = [sec] := by
        rw [hsplit, List.filter_append, List.filter_cons_of_pos hgone,
          List.filter_eq_nil_iff.mpr fun o ho => by simp [(hothers o (List.mem_append_left _ ho)).1],
          List.filter_eq_nil_iff.mpr fun o ho => by simp [(hothers o (List.mem_append_right _ ho)).1],
          List.nil_append]
      rw [← count_gone, ← marked, hfilter, List.length_singleton]
    obtain ⟨y, hy⟩ := List.length_eq_one_iff.mp hone
    have hx' : x = y := by
      rw [← List.mem_singleton, ← hy]
      exact List.mem_filter.mpr ⟨hx, by simp [headGone, hflag, hitem]⟩
    obtain ⟨z, hz⟩ := List.length_eq_one_iff.mp (one_peerLine h)
    obtain ⟨hzmem, hzboth⟩ := List.mem_filter.mp (hz ▸ List.mem_singleton_self z)
    obtain ⟨hzflag, hzpeer⟩ := (Bool.and_eq_true _ _).mp hzboth
    have hz' : z = y := by
      rw [← List.mem_singleton, ← hy]
      exact List.mem_filter.mpr ⟨hzmem, hacc.headGone_of_peerLine hzmem hzflag hzpeer⟩
    rw [hx', ← hz']
    exact hzpeer

/-- Sections of which nothing is gone are kept as they are. -/
lemma keptSections_of_stay {secs : List Marked}
    (h : ∀ sec ∈ secs, sec.gone = false ∧ ∀ x ∈ sec.settings, x.2 = false)
    {acc : List Line × List Section} (hacc : acc.1 = []) :
    secs.foldr keepSection acc = ([], secs.map Marked.toSection ++ acc.2) := by
  induction secs with
  | nil => exact Prod.ext hacc rfl
  | cons sec rest ih =>
      obtain ⟨hkept, hstay⟩ := h sec List.mem_cons_self
      rw [List.foldr_cons, ih fun s hs => h s (List.mem_cons_of_mem _ hs), keepSection, hkept,
        List.filter_eq_self.mpr fun x hx => by simp [hstay x hx]]
      simp [Marked.toSection]

/-- **Lines that go alone** leave the other sections. -/
lemma GoesAlone.removed (hgo : GoesAlone pub conf) (h : rewriteConf pub conf = .ok conf') : Removed pub conf conf' := by
  obtain ⟨before, sec, after, hsplit, hhead, hgone, hall, ⟨x, hx, hkey⟩, hothers⟩ := hgo
  have hold : sections conf = (marked pub conf).map Marked.toSection :=
    congrArg Prod.snd (readConf_eq pub conf)
  have hnew : sections conf' = (keptSections (marked pub conf)).2 := by
    rw [sections, eq_of_rewriteConf h, readConf_filter]
    rfl
  have hkept : keptSections (marked pub conf)
      = ([], before.map Marked.toSection ++ after.map Marked.toSection) := by
    have hafter : after.foldr keepSection ([], []) = ([], after.map Marked.toSection ++ []) :=
      keptSections_of_stay (fun s hs => hothers s (List.mem_append_right _ hs)) rfl
    have hmid : keepSection sec ([], after.map Marked.toSection) = ([], after.map Marked.toSection) := by
      rw [keepSection, hgone, List.filter_eq_nil_iff.mpr fun y hy => by simp [hall y hy]]
      rfl
    rw [keptSections, hsplit, List.foldr_append, List.foldr_cons, hafter, List.append_nil, hmid]
    exact keptSections_of_stay (fun s hs => hothers s (List.mem_append_left _ hs)) rfl
  refine ⟨before.map Marked.toSection, sec.toSection, after.map Marked.toSection, ?_, hhead,
    ⟨x.1, List.mem_map_of_mem hx, hkey⟩, ?_⟩
  · rw [hold, hsplit, List.map_append, List.map_cons]
  · rw [hnew, hkept]

end Rewrite

/-! ### Removing a peer -/

/-- A rewritten file is another one. -/
lemma rewriteConf_ne {pub : String} {conf conf' : List Line} (h : rewriteConf pub conf = .ok conf') :
    conf' ≠ conf := by
  obtain ⟨-, hcount, -⟩ := rewriteConf_guards h
  rintro rfl
  omega

/-- A key in a config file. -/
def annKey : String := "ANNANNANNANNANNANNANNANNANNANNANNANNANNANNA="

/-- A file with three peers, and with comments of three signs among the settings of
the interface and of the first peer. -/
def familyConf : List Line :=
  ["[Interface]", "PrivateKey = x", "### nat", "PostUp = nft", "### bob", "[Peer]", "PublicKey = BOB",
    "### laptop", "AllowedIPs = 10.88.88.43/32", "### ann", "[Peer]", "PublicKey = " ++ annKey,
    "AllowedIPs = 10.88.88.42/32", "[Peer]", "PublicKey = EVE",
    "AllowedIPs = 10.88.88.44/32"].map String.toList

/-- A comment with three signs among the settings of the interface. -/
def commentedConf : List Line :=
  ["[Interface]", "PrivateKey = x", "### nat", "PostUp = nft", "[Peer]", "PublicKey = " ++ annKey,
    "AllowedIPs = 10.88.88.42/32"].map String.toList

/-- A second peer whose header is indented. -/
def indentedConf : List Line :=
  ["[Interface]", "PrivateKey = x", "[Peer]", "PublicKey = BOB", "AllowedIPs = 10.88.88.43/32",
    " [Peer]", "PublicKey = " ++ annKey, "AllowedIPs = 10.88.88.42/32"].map String.toList

/-- The running interface with that peer, and a file. -/
def annRuns (conf : List Line) : NodeState where
  runtime := [⟨annKey, ["10.88.88.42/32"]⟩]
  conf := some conf

lemma accepted_familyConf : Accepted familyConf :=
  ⟨by decide +kernel, by decide +kernel, by decide +kernel⟩

lemma orderly_familyConf : Orderly annKey familyConf := ⟨by decide +kernel, by decide +kernel⟩

/-- The sections that stay are old ones, one fewer. -/
lemma Removed.stays {pub : String} {conf conf' : List Line} (h : Removed pub conf conf') :
    (∀ sec ∈ sections conf', sec ∈ sections conf)
      ∧ (sections conf).length = (sections conf').length + 1 := by
  obtain ⟨before, sec, after, hold, -, -, hnew⟩ := h
  rw [hold, hnew]
  refine ⟨fun x hx => ?_, by simp [Nat.add_assoc]⟩
  rcases List.mem_append.mp hx with hx | hx
  · exact List.mem_append_left _ hx
  · exact List.mem_append_right _ (List.mem_cons_of_mem _ hx)

end VpnPortal
