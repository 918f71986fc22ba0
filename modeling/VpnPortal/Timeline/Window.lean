/-
Sliding windows over events that come in order.

The log of all events is compared with a queue that forgets: events up to a
moment may be missing at its front. What the log has in the window before a
later moment is what is left of the queue when its front is dropped
(`Kept.recent`), and if every event found fewer than `n` others in the window
before it, no interval as long as the window holds more than `n`
(`length_filter_le`).

* `recent`, `expire`, `Kept`: the window, the queue and how it follows the log;
* `Kept.recent`: the queue without its old front is what the log has in the window;
* `Admitted`, `length_filter_le`: a log whose events found room has at most `n` of them in
  any interval as long as the window.
-/
import Mathlib.Algebra.Order.Group.Defs
import Mathlib.Data.List.TakeWhile
import Mathlib.Tactic

namespace Timeline

variable {T : Type} [LinearOrder T]

/-- A queue without the events at its front that are not after `cut`. -/
def expire (cut : T) (q : List T) : List T := q.dropWhile (· ≤ cut)

lemma expire_eq_filter {cut : T} {q : List T} (h : q.Pairwise (· ≤ ·)) :
    expire cut q = q.filter (cut < ·) := by
  induction q with
  | nil => rfl
  | cons t q ih =>
      rw [List.pairwise_cons] at h
      by_cases ht : t ≤ cut
      · rw [expire, List.dropWhile_cons_of_pos (by simpa using ht),
          List.filter_cons_of_neg (by simpa using ht)]
        exact ih h.2
      · have hall : ∀ x ∈ t :: q, cut < x := by
          intro x hx
          rcases List.mem_cons.mp hx with rfl | hx
          · exact not_le.mp ht
          · exact lt_of_lt_of_le (not_le.mp ht) (h.1 x hx)
        rw [expire, List.dropWhile_cons_of_neg (by simpa using ht)]
        exact (List.filter_eq_self.mpr fun x hx => by simpa using hall x hx).symm

/-- The queue is the log, except that events up to `cut` may be missing. -/
structure Kept (cut : T) (log q : List T) : Prop where
  tail : ∃ old, log = old ++ q ∧ ∀ t ∈ old, t ≤ cut
  ordered : log.Pairwise (· ≤ ·)

namespace Kept

variable {cut now : T} {log q : List T}

lemma queue_ordered (h : Kept cut log q) : q.Pairwise (· ≤ ·) := by
  obtain ⟨old, rfl, -⟩ := h.tail
  exact (List.pairwise_append.mp h.ordered).2.1

lemma mono {cut' : T} (h : Kept cut log q) (hcut : cut ≤ cut') : Kept cut' log q := by
  obtain ⟨old, hlog, hold⟩ := h.tail
  exact ⟨⟨old, hlog, fun t ht => (hold t ht).trans hcut⟩, h.ordered⟩

/-- Dropping the front loses nothing but events up to the moment. -/
lemma expire (h : Kept cut log q) : Kept cut log (expire cut q) := by
  obtain ⟨old, hlog, hold⟩ := h.tail
  refine ⟨⟨old ++ q.takeWhile (· ≤ cut), ?_, fun t ht => ?_⟩, h.ordered⟩
  · rw [hlog, List.append_assoc, Timeline.expire, List.takeWhile_append_dropWhile]
  · rcases List.mem_append.mp ht with ht | ht
    · exact hold t ht
    · simpa using List.mem_takeWhile_imp ht

/-- A new event goes to the end of both. -/
lemma append (h : Kept cut log q) (hnow : ∀ t ∈ log, t ≤ now) :
    Kept cut (log ++ [now]) (q ++ [now]) := by
  obtain ⟨old, hlog, hold⟩ := h.tail
  refine ⟨⟨old, by rw [hlog, List.append_assoc], hold⟩, ?_⟩
  rw [List.pairwise_append]
  exact ⟨h.ordered, List.pairwise_singleton _ _, fun t ht x hx => by
    rw [List.mem_singleton.mp hx]
    exact hnow t ht⟩

end Kept

variable [AddCommGroup T]

/-- The events of `(now - w, now]`. -/
def recent (w now : T) (log : List T) : List T := log.filter fun t => now - w < t ∧ t ≤ now

/-- **The window of the log** is the queue without its expired front. -/
lemma Kept.recent {w now : T} {log q : List T} (h : Kept (now - w) log q) (hnow : ∀ t ∈ log, t ≤ now) :
    recent w now log = Timeline.expire (now - w) q := by
  rw [expire_eq_filter h.queue_ordered]
  obtain ⟨old, rfl, hold⟩ := h.tail
  have hgone : old.filter (fun t => now - w < t ∧ t ≤ now) = [] := by
    refine List.filter_eq_nil_iff.mpr fun t ht => ?_
    simp [not_lt.mpr (hold t ht)]
  rw [Timeline.recent, List.filter_append, hgone, List.nil_append]
  refine List.filter_congr fun t ht => ?_
  simp [hnow t (List.mem_append_right _ ht)]

/-- While no event comes, a later window holds the events of an earlier one that
have not left it. -/
lemma recent_later [IsOrderedAddMonoid T] {w now later : T} {log : List T}
    (hnow : ∀ t ∈ log, t ≤ now) (hlater : now ≤ later) :
    recent w later log = (recent w now log).filter (later - w < ·) := by
  rw [recent, recent, List.filter_filter]
  refine List.filter_congr fun t ht => ?_
  have hle := hnow t ht
  have himp : later - w < t → now - w < t := (sub_le_sub_right hlater w).trans_lt
  simpa [hle, hle.trans hlater] using himp

/-! ### Logs whose events found room -/

/-- Every event found fewer than `n` events in the window before it. -/
def Admitted (w : T) (n : ℕ) (log : List T) : Prop :=
  ∀ before t after, log = before ++ t :: after → (recent w t before).length < n

lemma admitted_snoc {w t : T} {n : ℕ} {log : List T} :
    Admitted w n (log ++ [t]) ↔ Admitted w n log ∧ (recent w t log).length < n := by
  constructor
  · intro h
    refine ⟨fun before x after hlog => h before x (after ++ [t]) ?_, h log t [] rfl⟩
    rw [hlog, List.append_assoc, List.cons_append]
  · rintro ⟨h, ht⟩ before x after hlog
    rcases List.eq_nil_or_concat after with rfl | ⟨rest, y, rfl⟩
    · obtain ⟨rfl, hx⟩ := List.append_inj' hlog rfl
      obtain rfl := List.singleton_inj.mp hx
      exact ht
    · rw [List.concat_eq_append, ← List.cons_append, ← List.append_assoc] at hlog
      exact h before x rest (List.append_inj' hlog rfl).1

/-- Events that are less than a window apart from each other are at most `n`. -/
lemma length_filter_le {w : T} {n : ℕ} {log : List T} {p : T → Prop} [DecidablePred p]
    (h : Admitted w n log) (hlog : log.Pairwise (· ≤ ·))
    (hp : ∀ t t', p t → p t' → t' ≤ t → t - w < t') :
    (log.filter p).length ≤ n := by
  induction log using List.reverseRecOn with
  | nil => simp
  | append_singleton log t ih =>
      obtain ⟨hbefore, ht⟩ := admitted_snoc.mp h
      obtain ⟨hlog', -, hle⟩ := List.pairwise_append.mp hlog
      rw [List.filter_append]
      by_cases hpt : p t
      · have hsub : (log.filter p).length ≤ (recent w t log).length := by
          rw [recent, ← List.countP_eq_length_filter, ← List.countP_eq_length_filter]
          refine List.countP_mono_left fun x hx hpx => ?_
          have hxt : x ≤ t := hle x hx t List.mem_cons_self
          simpa using ⟨hp t x hpt (by simpa using hpx) hxt, hxt⟩
        rw [List.length_append]
        simp [hpt]
        omega
      · simpa [hpt] using ih hbefore hlog'

end Timeline
