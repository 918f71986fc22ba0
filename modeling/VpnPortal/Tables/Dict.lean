/-
Dictionaries that remember the order in which their keys came.

A dictionary is a list of entries with distinct keys, so a traversal meets every
key once, and what a traversal collects about one key is what the entry of that
key gives (`filterMap_collect`).

* `Dict`, `get?`, `insert`, `setdefault`, `mapVal`, `collect`: dictionaries and their
  operations;
* `get?_eq_some_iff`, `get?_mapVal`, `get?_setdefault`: what a look-up finds;
* `filterMap_collect`: what a traversal collects about one key.
-/
import Mathlib.Data.List.Nodup
import Mathlib.Tactic

namespace Tables

/-- A dictionary in the order of insertion. -/
structure Dict (κ α : Type) where
  entries : List (κ × α)
  nodup : (entries.map Prod.fst).Nodup

namespace Dict

variable {κ α β γ : Type}

/-- `{}` -/
def empty : Dict κ α := ⟨[], List.nodup_nil⟩

/-- `d | {k: f(k, v) for k, v in d.items()}` -/
def mapVal (f : κ → α → β) (d : Dict κ α) : Dict κ β where
  entries := d.entries.map fun x => (x.1, f x.1 x.2)
  nodup := by
    have hkeys : (d.entries.map fun x => (x.1, f x.1 x.2)).map Prod.fst = d.entries.map Prod.fst := by
      simp
    rw [hkeys]
    exact d.nodup

/-- What a traversal collects. -/
def collect (f : κ → α → Option β) (d : Dict κ α) : List β := d.entries.filterMap fun x => f x.1 x.2

variable [DecidableEq κ]

/-- `d.get(k)` -/
def get? (d : Dict κ α) (k : κ) : Option α := (d.entries.find? fun x => x.1 = k).map Prod.snd

/-- An entry for a key that has none. -/
def append (d : Dict κ α) (k : κ) (v : α) (h : d.get? k = none) : Dict κ α where
  entries := d.entries ++ [(k, v)]
  nodup := by
    rw [List.map_append, List.map_singleton]
    refine d.nodup.append (List.nodup_singleton k) (List.disjoint_singleton.mpr fun hk => ?_)
    obtain ⟨x, hx, rfl⟩ := List.mem_map.mp hk
    rw [get?, Option.map_eq_none_iff, List.find?_eq_none] at h
    exact h x hx (by simp)

/-- `d.setdefault(k, v)` -/
def setdefault (d : Dict κ α) (k : κ) (v : α) : Dict κ α :=
  if h : d.get? k = none then d.append k v h else d

/-- `d[k] = v` -/
def insert (d : Dict κ α) (k : κ) (v : α) : Dict κ α :=
  if h : d.get? k = none then d.append k v h else d.mapVal fun l w => if l = k then v else w

/-- `del d[k]` -/
def erase (d : Dict κ α) (k : κ) : Dict κ α where
  entries := d.entries.filter fun x => x.1 ≠ k
  nodup := d.nodup.sublist (List.Sublist.map _ List.filter_sublist)

/-- `for k, v in l: d[k] = v` -/
def update (d : Dict κ α) (l : List (κ × α)) : Dict κ α := l.foldl (fun d x => d.insert x.1 x.2) d

lemma get?_eq_some_iff {d : Dict κ α} {k : κ} {v : α} : d.get? k = some v ↔ (k, v) ∈ d.entries := by
  obtain ⟨entries, hnodup⟩ := d
  simp only [get?]
  induction entries with
  | nil => simp
  | cons x rest ih =>
      rw [List.map_cons, List.nodup_cons] at hnodup
      by_cases hx : x.1 = k
      · have hfind : List.find? (fun y => decide (y.1 = k)) (x :: rest) = some x := by simp [hx]
        rw [hfind]
        constructor
        · rintro h
          have hv : x.2 = v := Option.some.inj h
          rw [← hx, ← hv]
          exact List.mem_cons_self
        · intro h
          rcases List.mem_cons.mp h with h | h
          · rw [← h]
            rfl
          · exact absurd (List.mem_map.mpr ⟨_, h, hx.symm⟩) hnodup.1
      · have hfind : List.find? (fun y => decide (y.1 = k)) (x :: rest)
            = List.find? (fun y => decide (y.1 = k)) rest := by simp [hx]
        rw [hfind, ih hnodup.2, List.mem_cons]
        refine (or_iff_right ?_).symm
        rintro rfl
        exact hx rfl

lemma get?_eq_none_iff {d : Dict κ α} {k : κ} : d.get? k = none ↔ ∀ v, (k, v) ∉ d.entries := by
  constructor
  · intro h v hv
    rw [get?_eq_some_iff.mpr hv] at h
    cases h
  · intro h
    by_contra hne
    obtain ⟨v, hv⟩ := Option.ne_none_iff_exists'.mp hne
    exact h v (get?_eq_some_iff.mp hv)

lemma get?_mapVal (f : κ → α → β) (d : Dict κ α) (k : κ) :
    (d.mapVal f).get? k = (d.get? k).map (f k) := by
  cases h : d.get? k with
  | some v =>
      refine get?_eq_some_iff.mpr (List.mem_map.mpr ⟨(k, v), get?_eq_some_iff.mp h, rfl⟩)
  | none =>
      refine get?_eq_none_iff.mpr fun w hw => ?_
      obtain ⟨x, hx, hxw⟩ := List.mem_map.mp hw
      obtain ⟨rfl, -⟩ := Prod.mk.inj hxw
      exact get?_eq_none_iff.mp h x.2 hx

lemma get?_setdefault (d : Dict κ α) (k l : κ) (v : α) :
    (d.setdefault k v).get? l = none ↔ d.get? l = none ∧ l ≠ k := by
  unfold setdefault
  split_ifs with h
  · simp only [get?_eq_none_iff, append, List.mem_append, List.mem_singleton, not_or]
    constructor
    · intro hall
      refine ⟨fun w => (hall w).1, ?_⟩
      rintro rfl
      exact (hall v).2 rfl
    · rintro ⟨hnone, hne⟩ w
      exact ⟨hnone w, fun heq => hne (Prod.mk.inj heq).1⟩
  · refine (and_iff_left_of_imp ?_).symm
    rintro hl rfl
    exact h hl

lemma mem_setdefault {d : Dict κ α} {k : κ} {v : α} {x : κ × α} (h : x ∈ (d.setdefault k v).entries) :
    x ∈ d.entries ∨ x = (k, v) := by
  unfold setdefault at h
  split_ifs at h
  · rcases List.mem_append.mp h with h | h
    · exact Or.inl h
    · exact Or.inr (List.mem_singleton.mp h)
  · exact Or.inl h

lemma mem_insert {d : Dict κ α} {k : κ} {v : α} {x : κ × α} (h : x ∈ (d.insert k v).entries) :
    x ∈ d.entries ∨ x = (k, v) := by
  unfold insert at h
  split_ifs at h
  · rcases List.mem_append.mp h with h | h
    · exact Or.inl h
    · exact Or.inr (List.mem_singleton.mp h)
  · obtain ⟨y, hy, rfl⟩ := List.mem_map.mp h
    by_cases hk : y.1 = k
    · exact Or.inr (by simp [hk])
    · exact Or.inl (by simpa [hk] using hy)

lemma get?_insert (d : Dict κ α) (k l : κ) (v : α) :
    (d.insert k v).get? l = if l = k then some v else d.get? l := by
  by_cases hl : l = k
  · subst hl
    rw [if_pos rfl, get?_eq_some_iff, insert]
    split_ifs with h
    · simp [append]
    · obtain ⟨w, hw⟩ := Option.ne_none_iff_exists'.mp h
      exact List.mem_map.mpr ⟨(l, w), get?_eq_some_iff.mp hw, by simp⟩
  · rw [if_neg hl]
    cases hd : d.get? l with
    | none =>
        refine get?_eq_none_iff.mpr fun w hw => ?_
        rcases mem_insert hw with hw | hw
        · exact get?_eq_none_iff.mp hd w hw
        · exact hl (Prod.mk.inj hw).1
    | some w =>
        rw [get?_eq_some_iff, insert]
        split_ifs
        · exact List.mem_append_left _ (get?_eq_some_iff.mp hd)
        · exact List.mem_map.mpr ⟨(l, w), get?_eq_some_iff.mp hd, by simp [hl]⟩

lemma get?_erase (d : Dict κ α) (k l : κ) :
    (d.erase k).get? l = if l = k then none else d.get? l := by
  by_cases hl : l = k
  · subst hl
    rw [if_pos rfl, get?_eq_none_iff]
    intro v hv
    simpa using (List.mem_filter.mp hv).2
  · rw [if_neg hl]
    refine Option.ext fun v => ?_
    rw [get?_eq_some_iff, get?_eq_some_iff]
    simp [erase, hl]

lemma length_insert_le (d : Dict κ α) (k : κ) (v : α) :
    (d.insert k v).entries.length ≤ d.entries.length + 1 := by
  unfold insert
  split_ifs
  · simp [append]
  · simp [mapVal]

/-- What assignments leave was there before or was assigned. -/
lemma mem_update {d : Dict κ α} {l : List (κ × α)} {x : κ × α} (h : x ∈ (d.update l).entries) :
    x ∈ d.entries ∨ x ∈ l := by
  induction l generalizing d with
  | nil => exact Or.inl h
  | cons y rest ih =>
      rcases ih h with h | h
      · rcases mem_insert h with h | rfl
        · exact Or.inl h
        · exact Or.inr List.mem_cons_self
      · exact Or.inr (List.mem_cons_of_mem _ h)

/-- A key has a value after assignments if it had one or was assigned one. -/
lemma get?_update_eq_none (d : Dict κ α) (l : List (κ × α)) (k : κ) :
    (d.update l).get? k = none ↔ d.get? k = none ∧ ∀ x ∈ l, x.1 ≠ k := by
  induction l generalizing d with
  | nil => simp [update]
  | cons y rest ih =>
      show ((d.insert y.1 y.2).update rest).get? k = none ↔ _
      rw [ih, get?_insert]
      by_cases hk : k = y.1
      · simp [hk]
      · simp [hk, Ne.symm hk]

/-- Distinct keys that were not there come behind the others, in order. -/
lemma entries_update {d : Dict κ α} {l : List (κ × α)} (hnew : ∀ x ∈ l, d.get? x.1 = none)
    (hl : (l.map Prod.fst).Nodup) : (d.update l).entries = d.entries ++ l := by
  induction l generalizing d with
  | nil => exact (List.append_nil _).symm
  | cons x rest ih =>
      obtain ⟨hx, hrest⟩ := List.nodup_cons.mp hl
      have hins : (d.insert x.1 x.2).entries = d.entries ++ [x] := by
        rw [insert, dif_pos (hnew x List.mem_cons_self)]
        rfl
      show ((d.insert x.1 x.2).update rest).entries = _
      rw [ih _ hrest, hins, List.append_assoc, List.singleton_append]
      intro y hy
      rw [get?_insert, if_neg, hnew y (List.mem_cons_of_mem _ hy)]
      rintro heq
      exact hx (List.mem_map.mpr ⟨y, hy, heq⟩)

lemma length_update_le (d : Dict κ α) (l : List (κ × α)) :
    (d.update l).entries.length ≤ d.entries.length + l.length := by
  induction l generalizing d with
  | nil => exact le_rfl
  | cons y rest ih =>
      have hrest := ih (d.insert y.1 y.2)
      have hone := d.length_insert_le y.1 y.2
      rw [List.length_cons]
      show ((d.insert y.1 y.2).update rest).entries.length ≤ _
      omega

/-- What a traversal has to say about one key comes from the entry of that key. -/
lemma filterMap_collect {f : κ → α → Option β} {pick : β → Option γ} {k : κ}
    (hf : ∀ l v b, l ≠ k → f l v = some b → pick b = none) (d : Dict κ α) :
    (d.collect f).filterMap pick = ((d.get? k).bind fun v => (f k v).bind pick).toList := by
  obtain ⟨entries, hnodup⟩ := d
  simp only [collect, get?]
  induction entries with
  | nil => rfl
  | cons x rest ih =>
      rw [List.map_cons, List.nodup_cons] at hnodup
      have htail := ih hnodup.2
      by_cases hx : x.1 = k
      · -- the key does not come again
        have hnone : List.find? (fun y => decide (y.1 = k)) rest = none := by
          refine List.find?_eq_none.mpr fun y hy => ?_
          have hne : y.1 ≠ k := fun h => hnodup.1 (List.mem_map.mpr ⟨y, hy, h.trans hx.symm⟩)
          simpa using hne
        rw [hnone] at htail
        have hfind : List.find? (fun y => decide (y.1 = k)) (x :: rest) = some x := by simp [hx]
        rw [hfind]
        cases hfx : f x.1 x.2 with
        | none =>
            have hk : f k x.2 = none := hx ▸ hfx
            simpa [List.filterMap_cons, hfx, hk] using htail
        | some b =>
            have hk : f k x.2 = some b := hx ▸ hfx
            cases hb : pick b with
            | none => simpa [List.filterMap_cons, hfx, hk, hb] using htail
            | some c => simpa [List.filterMap_cons, hfx, hk, hb] using htail
      · have hfind : List.find? (fun y => decide (y.1 = k)) (x :: rest)
            = List.find? (fun y => decide (y.1 = k)) rest := by simp [hx]
        rw [hfind, ← htail]
        cases hfx : f x.1 x.2 with
        | none => simp [hfx]
        | some b =>
            have hb : pick b = none := hf _ _ _ hx hfx
            simp [hfx, hb]

end Dict

end Tables
