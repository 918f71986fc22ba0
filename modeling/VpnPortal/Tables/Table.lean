/-
Keyed tables: the rows of one relation of a database, each with its own number.

A `Table` carries the primary key with it: no two rows have the same number and
the counter for the next row is above all of them, so a row inserted later is
always a new one. The operations are the ones a session commits, `insert`,
`update` of one row by its number, and `remove`; `find` is the lookup by number.

* `find_of_mem`, `mem_of_find`: a row is found by its number exactly when it is
  in the table;
* `find_update_self`, `find_update_of_ne`, `find_insert_of_some`: the frame of
  each operation;
* `rows_foldl_update`: several rows updated by one function;
* `forall₂_of_mapM`, `mapM_isSome_iff`: lists of answers.
-/
import Mathlib.Data.List.Nodup
import Mathlib.Tactic

namespace Tables

/-- Whatever stands on the right of a pairing has its partner on the left. -/
lemma exists_left_of_forall₂ {α β : Type} {R : α → β → Prop} {l : List α} {l' : List β}
    (h : List.Forall₂ R l l') {b : β} (hb : b ∈ l') : ∃ a ∈ l, R a b := by
  induction h with
  | nil => cases hb
  | @cons x y l l' hxy _ ih =>
      rcases List.mem_cons.mp hb with rfl | hb
      · exact ⟨x, List.mem_cons_self, hxy⟩
      · obtain ⟨a, ha, hab⟩ := ih hb
        exact ⟨a, List.mem_cons_of_mem _ ha, hab⟩

/-- The answers to a list, if all of them are there. -/
lemma forall₂_of_mapM {α β : Type} {f : α → Option β} {l : List α} {ys : List β}
    (h : l.mapM f = some ys) : List.Forall₂ (fun x y => f x = some y) l ys := by
  induction l generalizing ys with
  | nil =>
      obtain rfl : [] = ys := by simpa using h
      exact .nil
  | cons x rest ih =>
      rw [List.mapM_cons] at h
      obtain ⟨y, hy, h⟩ := Option.bind_eq_some_iff.mp h
      obtain ⟨zs, hzs, h⟩ := Option.bind_eq_some_iff.mp h
      obtain rfl : y :: zs = ys := by simpa using h
      exact .cons hy (ih hzs)

lemma exists_of_mem_mapM {α β : Type} {f : α → Option β} {l : List α} {ys : List β}
    (h : l.mapM f = some ys) : ∀ y ∈ ys, ∃ x ∈ l, f x = some y := by
  intro y hy
  exact exists_left_of_forall₂ (forall₂_of_mapM h) hy

lemma exists_right_of_mapM {α β : Type} {f : α → Option β} {l : List α} {ys : List β}
    (h : l.mapM f = some ys) {x : α} (hx : x ∈ l) : ∃ y ∈ ys, f x = some y := by
  have hall := forall₂_of_mapM h
  obtain ⟨k, hk, rfl⟩ := List.getElem_of_mem hx
  exact ⟨_, List.getElem_mem (hall.length_eq ▸ hk), hall.get hk (hall.length_eq ▸ hk)⟩

lemma mapM_isSome_iff {α β : Type} {f : α → Option β} {l : List α} :
    (l.mapM f).isSome ↔ ∀ x ∈ l, (f x).isSome := by
  induction l with
  | nil => simp
  | cons x l ih =>
    rw [List.forall_mem_cons, ← ih, List.mapM_cons]
    cases f x <;> cases l.mapM f <;> simp

/-- A type of rows, each with its number. -/
class Row (α : Type) where
  num : α → ℕ

open Row (num)

/-- The rows of a relation, with distinct numbers below the counter. -/
@[ext]
structure Table (α : Type) [Row α] where
  rows : List α
  next : ℕ
  nodup : (rows.map num).Nodup
  lt_next : ∀ a ∈ rows, num a < next

namespace Table

variable {α : Type} [Row α]

instance : Inhabited (Table α) := ⟨⟨[], 0, by simp, by simp⟩⟩

instance [DecidableEq α] : DecidableEq (Table α) := fun t u =>
  decidable_of_iff (t.rows = u.rows ∧ t.next = u.next) Table.ext_iff.symm

/-- Row `k` rewritten by `f`, which keeps the number. -/
def update (t : Table α) (k : ℕ) (f : α → α) (hf : ∀ a, num (f a) = num a) : Table α where
  rows := t.rows.map fun a => if num a = k then f a else a
  next := t.next
  nodup := by
    have h : (t.rows.map fun a => if num a = k then f a else a).map num = t.rows.map num := by
      rw [List.map_map]
      exact List.map_congr_left fun a _ => by dsimp only [Function.comp]; split <;> simp [hf]
    rw [h]; exact t.nodup
  lt_next := by
    intro b hb
    obtain ⟨a, ha, rfl⟩ := List.mem_map.mp hb
    split
    · rw [hf]; exact t.lt_next a ha
    · exact t.lt_next a ha

/-- A new row at the end, built from the number it receives. -/
def insert (t : Table α) (mk : ℕ → α) (hmk : ∀ n, num (mk n) = n) : Table α where
  rows := t.rows ++ [mk t.next]
  next := t.next + 1
  nodup := by
    rw [List.map_append, List.map_singleton, hmk]
    refine List.nodup_append.mpr ⟨t.nodup, by simp, ?_⟩
    intro a ha b hb
    obtain ⟨x, hx, rfl⟩ := List.mem_map.mp ha
    rw [List.mem_singleton.mp hb]
    exact (t.lt_next x hx).ne
  lt_next := by
    intro a ha
    rcases List.mem_append.mp ha with ha | ha
    · exact Nat.lt_succ_of_lt (t.lt_next a ha)
    · rw [List.mem_singleton.mp ha, hmk]; exact Nat.lt_succ_self _

/-- The table without row `k`. -/
def remove (t : Table α) (k : ℕ) : Table α where
  rows := t.rows.filter fun a => num a ≠ k
  next := t.next
  nodup := t.nodup.sublist (List.filter_sublist.map num)
  lt_next := fun a ha => t.lt_next a (List.mem_of_mem_filter ha)

/-- Every row rewritten by `f`, which keeps the numbers. -/
def mapRows (t : Table α) (f : α → α) (hf : ∀ a, num (f a) = num a) : Table α where
  rows := t.rows.map f
  next := t.next
  nodup := by
    have h : (t.rows.map f).map num = t.rows.map num := by
      rw [List.map_map]
      exact List.map_congr_left fun a _ => hf a
    rw [h]
    exact t.nodup
  lt_next := by
    intro b hb
    obtain ⟨a, ha, rfl⟩ := List.mem_map.mp hb
    rw [hf]
    exact t.lt_next a ha

/-- The rows that satisfy `p`. -/
def filter (t : Table α) (p : α → Bool) : Table α where
  rows := t.rows.filter p
  next := t.next
  nodup := t.nodup.sublist (List.filter_sublist.map num)
  lt_next := fun a ha => t.lt_next a (List.mem_of_mem_filter ha)

/-- The row with number `k`. -/
def find (t : Table α) (k : ℕ) : Option α := t.rows.find? fun a => num a = k

@[simp] lemma rows_insert (t : Table α) (mk : ℕ → α) (hmk : ∀ n, num (mk n) = n) :
    (t.insert mk hmk).rows = t.rows ++ [mk t.next] := rfl

@[simp] lemma rows_update (t : Table α) (k : ℕ) (f : α → α) (hf : ∀ a, num (f a) = num a) :
    (t.update k f hf).rows = t.rows.map fun a => if num a = k then f a else a := rfl

@[simp] lemma rows_remove (t : Table α) (k : ℕ) :
    (t.remove k).rows = t.rows.filter fun a => num a ≠ k := rfl

@[simp] lemma rows_mapRows (t : Table α) (f : α → α) (hf : ∀ a, num (f a) = num a) :
    (t.mapRows f hf).rows = t.rows.map f := rfl

@[simp] lemma rows_filter (t : Table α) (p : α → Bool) : (t.filter p).rows = t.rows.filter p := rfl

/-! ### Lookup -/

lemma eq_of_num_eq {t : Table α} {a b : α} (ha : a ∈ t.rows) (hb : b ∈ t.rows)
    (h : num a = num b) : a = b :=
  List.inj_on_of_nodup_map t.nodup ha hb h

lemma mem_of_find {t : Table α} {k : ℕ} {a : α} (h : t.find k = some a) :
    a ∈ t.rows ∧ num a = k :=
  ⟨List.mem_of_find?_eq_some h, by simpa using List.find?_some h⟩

lemma find_of_mem {t : Table α} {a : α} (ha : a ∈ t.rows) : t.find (num a) = some a := by
  cases h : t.find (num a) with
  | none =>
      have := List.find?_eq_none.mp h a ha
      simp at this
  | some b =>
      obtain ⟨hb, hk⟩ := mem_of_find h
      rw [eq_of_num_eq hb ha hk]

lemma find_eq_some_iff {t : Table α} {k : ℕ} {a : α} :
    t.find k = some a ↔ a ∈ t.rows ∧ num a = k :=
  ⟨mem_of_find, fun ⟨ha, hk⟩ => hk ▸ find_of_mem ha⟩

/-! ### The frame of the operations -/

lemma mem_update {t : Table α} {k : ℕ} {f : α → α} {hf : ∀ a, num (f a) = num a} {b : α} :
    b ∈ (t.update k f hf).rows ↔
      (b ∈ t.rows ∧ num b ≠ k) ∨ ∃ a, t.find k = some a ∧ b = f a := by
  simp only [rows_update, List.mem_map]
  constructor
  · rintro ⟨a, ha, rfl⟩
    split
    · rename_i h
      exact Or.inr ⟨a, find_eq_some_iff.mpr ⟨ha, h⟩, rfl⟩
    · rename_i h
      exact Or.inl ⟨ha, h⟩
  · rintro (⟨hb, hk⟩ | ⟨a, ha, rfl⟩)
    · exact ⟨b, hb, by rw [if_neg hk]⟩
    · obtain ⟨ha', hk⟩ := mem_of_find ha
      exact ⟨a, ha', by rw [if_pos hk]⟩

/-- A table whose rows are those of `t`, each rewritten by `g`. -/
lemma find_of_rows_map {t u : Table α} {g : α → α} (hg : ∀ a, num (g a) = num a)
    (h : u.rows = t.rows.map g) (k : ℕ) : u.find k = (t.find k).map g := by
  unfold find
  rw [h, List.find?_map]
  have hp : ((fun a => decide (num a = k)) ∘ g) = fun a => decide (num a = k) := by
    funext a; simp [hg]
  rw [hp]

lemma find_update {t : Table α} {k m : ℕ} {f : α → α} (hf : ∀ a, num (f a) = num a) :
    (t.update k f hf).find m = (t.find m).map fun a => if num a = k then f a else a :=
  find_of_rows_map (fun a => by split <;> simp [hf]) rfl m

lemma find_update_self {t : Table α} {k : ℕ} {f : α → α} (hf : ∀ a, num (f a) = num a)
    {a : α} (h : t.find k = some a) : (t.update k f hf).find k = some (f a) := by
  rw [find_update, h, Option.map_some, if_pos (mem_of_find h).2]

lemma find_update_of_ne {t : Table α} {k m : ℕ} {f : α → α}
    (hf : ∀ a, num (f a) = num a) (h : m ≠ k) : (t.update k f hf).find m = t.find m := by
  rw [find_update]
  cases ha : t.find m with
  | none => rfl
  | some a =>
      have hk : num a ≠ k := by rw [(mem_of_find ha).2]; exact h
      rw [Option.map_some, if_neg hk]

/-- Updates of several rows by one idempotent function, in whatever order. -/
lemma rows_foldl_update {f : α → α} {hf : ∀ a, num (f a) = num a} (hidem : ∀ a, f (f a) = f a)
    (ks : List ℕ) (t : Table α) :
    (ks.foldl (fun t k => t.update k f hf) t).rows
      = t.rows.map fun a => if num a ∈ ks then f a else a := by
  induction ks generalizing t with
  | nil => simp
  | cons k ks ih =>
      rw [List.foldl_cons, ih, rows_update, List.map_map]
      refine List.map_congr_left fun a _ => ?_
      by_cases hk : num a = k
      · by_cases hks : k ∈ ks <;> simp [hk, hf, hks, hidem]
      · simp [hk]

@[simp] lemma next_foldl_update {f : α → α} {hf : ∀ a, num (f a) = num a} (ks : List ℕ)
    (t : Table α) : (ks.foldl (fun t k => t.update k f hf) t).next = t.next := by
  induction ks generalizing t with
  | nil => rfl
  | cons k ks ih => rw [List.foldl_cons, ih]; rfl

/-- New rows go to the end, one for each item. -/
lemma rows_foldl_insert {β : Type} (mk : β → ℕ → α) (hmk : ∀ b n, num (mk b n) = n) (l : List β)
    (t : Table α) : ∃ new : List α,
      (l.foldl (fun t b => t.insert (mk b) (hmk b)) t).rows = t.rows ++ new
      ∧ List.Forall₂ (fun b a => ∃ n, a = mk b n) l new := by
  induction l generalizing t with
  | nil => exact ⟨[], (List.append_nil _).symm, .nil⟩
  | cons b rest ih =>
      obtain ⟨new, hrows, hnew⟩ := ih (t.insert (mk b) (hmk b))
      refine ⟨mk b t.next :: new, ?_, .cons ⟨_, rfl⟩ hnew⟩
      rw [List.foldl_cons, hrows, rows_insert, List.append_assoc, List.singleton_append]

lemma find_insert_of_some {t : Table α} {mk : ℕ → α} (hmk : ∀ n, num (mk n) = n) {m : ℕ}
    {a : α} (h : t.find m = some a) : (t.insert mk hmk).find m = some a := by
  obtain ⟨ha, hm⟩ := mem_of_find h
  exact find_eq_some_iff.mpr ⟨by simp [ha], hm⟩

/-- The new row of an insertion. -/
lemma find_insert_next {t : Table α} {mk : ℕ → α} (hmk : ∀ n, num (mk n) = n) :
    (t.insert mk hmk).find t.next = some (mk t.next) :=
  find_eq_some_iff.mpr ⟨by simp, hmk _⟩

lemma find_insert_of_ne {t : Table α} {mk : ℕ → α} (hmk : ∀ n, num (mk n) = n) {m : ℕ}
    (h : m ≠ t.next) : (t.insert mk hmk).find m = t.find m := by
  apply Option.ext
  intro b
  rw [find_eq_some_iff, find_eq_some_iff, rows_insert, List.mem_append, List.mem_singleton]
  constructor
  · rintro ⟨hb | rfl, hm⟩
    · exact ⟨hb, hm⟩
    · exact absurd (hm.symm.trans (hmk _)) h
  · rintro ⟨hb, hm⟩
    exact ⟨Or.inl hb, hm⟩

lemma find_remove_of_ne {t : Table α} {k m : ℕ} (h : m ≠ k) : (t.remove k).find m = t.find m := by
  apply Option.ext
  intro b
  rw [find_eq_some_iff, find_eq_some_iff, rows_remove, List.mem_filter]
  constructor
  · rintro ⟨⟨hb, -⟩, hm⟩
    exact ⟨hb, hm⟩
  · rintro ⟨hb, hm⟩
    exact ⟨⟨hb, by simpa [hm] using h⟩, hm⟩

@[simp] lemma find_remove_self (t : Table α) (k : ℕ) : (t.remove k).find k = none := by
  cases h : (t.remove k).find k with
  | none => rfl
  | some a =>
      obtain ⟨ha, hk⟩ := mem_of_find h
      have := (List.mem_filter.mp ha).2
      simp [hk] at this

/-- A row that is found has a number below the counter. -/
lemma lt_next_of_find {t : Table α} {k : ℕ} {a : α} (h : t.find k = some a) : k < t.next := by
  obtain ⟨ha, rfl⟩ := mem_of_find h
  exact t.lt_next a ha

end Table

end Tables
