/-
How often one source may try something (`pwa/services/ratelimit.py`).

A limiter keeps a queue of times for every key. The front of a queue is dropped
when its key is looked at, and every thousandth event sweeps all queues. It is
compared with a log that forgets nothing: they agree on every answer
(`limiter_exact`). A call reads the clock itself; `take` reads it twice, once
for the check and once for the event.

* `Limiter`, `Limiter.prune`, `Limiter.retryAfter`, `Limiter.add`: the queues;
* `Call`, `Limiter.run`: any sequence of calls;
* `NaiveLog`, `Follows`: the log that forgets nothing, and how a limiter follows it;
* `limiter_exact`: **the limiter answers as the log**, whatever it forgets or counts
  differently on the way, and no window of a key that is only taken has too many events.
-/
import VpnPortal.Tables.Dict
import VpnPortal.Timeline.Window
import Mathlib.Data.Rat.Floor

namespace VpnPortal.RateLimit

open Tables Timeline

/-! ### The limiter -/

/-- `Limiter` -/
structure Limiter where
  limit : ℕ
  window : ℚ
  events : Dict String (List ℚ) := Dict.empty
  sinceSweep : ℕ := 0

/-- `_SWEEP_EVERY` -/
def sweepEvery : ℕ := 1000

/-- `_prune`: the queue of the key, and the limiter without its expired events. -/
def Limiter.prune (l : Limiter) (key : String) (now : ℚ) : Option (List ℚ) × Limiter :=
  match l.events.get? key with
  | none => (none, l)
  | some q =>
      match expire (now - l.window) q with
      | [] => (none, { l with events := l.events.erase key })
      | t :: rest => (some (t :: rest), { l with events := l.events.insert key (t :: rest) })

/-- `int(x)` -/
def truncate (x : ℚ) : ℤ := x.num.tdiv x.den

/-- `retry_after`: the seconds until the key may act again, if it may not now. -/
def Limiter.retryAfter (l : Limiter) (key : String) (now : ℚ) : Option ℤ × Limiter :=
  match l.prune key now with
  | (none, l') => (none, l')
  | (some q, l') =>
      if q.length < l.limit then (none, l')
      else (some (max 1 (truncate (q.headD 0 + l.window - now) + 1)), l')

/-- `for k in list(self._events): self._prune(k, now)` -/
def Limiter.sweep (l : Limiter) (now : ℚ) : Limiter :=
  (l.events.entries.map Prod.fst).foldl (fun l k => (l.prune k now).2) l

/-- `add` -/
def Limiter.add (l : Limiter) (key : String) (now : ℚ) : Limiter :=
  let l := { l with
    events := l.events.insert key ((l.events.get? key).getD [] ++ [now])
    sinceSweep := l.sinceSweep + 1 }
  if sweepEvery ≤ l.sinceSweep then { l with sinceSweep := 0 }.sweep now else l

/-- A call, with the times its readings of the clock give. -/
inductive Call where
  | check (key : String) (now : ℚ)
  | add (key : String) (now : ℚ)
  | take (key : String) (now later : ℚ)
deriving DecidableEq, Repr

/-- The readings of the clock, in order. -/
def Call.times : Call → List ℚ
  | check _ now => [now]
  | add _ now => [now]
  | take _ now later => [now, later]

/-- The key of a call. -/
def Call.key : Call → String
  | check key _ => key
  | add key _ => key
  | take key _ _ => key

/-- One call: the `Retry-After` of a 429, or `none`. -/
def Limiter.call (l : Limiter) : Call → Option ℤ × Limiter
  | .check key now => l.retryAfter key now
  | .add key now => (none, l.add key now)
  | .take key now later =>
      match l.retryAfter key now with
      | (some wait, l') => (some wait, l')
      | (none, l') => (none, l'.add key later)

/-- The answers to a sequence of calls, and the limiter after it. -/
def Limiter.run (l : Limiter) : List Call → List (Option ℤ) × Limiter
  | [] => ([], l)
  | c :: rest =>
      let (answer, l') := l.call c
      let (answers, last) := l'.run rest
      (answer :: answers, last)

/-! ### The log -/

/-- The events of all keys, in order. -/
abbrev NaiveLog := List (String × ℚ)

/-- The times of one key. -/
def NaiveLog.of (log : NaiveLog) (key : String) : List ℚ :=
  (log.filter fun e => e.1 = key).map Prod.snd

/-- A key is refused if it has `limit` events in `(now - window, now]`; it may come
back when the first of them has left. -/
def NaiveLog.retryAfter (limit : ℕ) (window : ℚ) (log : NaiveLog) (key : String) (now : ℚ) :
    Option ℤ :=
  let events := recent window now (log.of key)
  if events.length < limit then none
  else some (max 1 (truncate (events.headD 0 + window - now) + 1))

/-- One call. -/
def NaiveLog.call (limit : ℕ) (window : ℚ) (log : NaiveLog) : Call → Option ℤ × NaiveLog
  | .check key now => (log.retryAfter limit window key now, log)
  | .add key now => (none, log ++ [(key, now)])
  | .take key now later =>
      match log.retryAfter limit window key now with
      | some wait => (some wait, log)
      | none => (none, log ++ [(key, later)])

/-- The answers to a sequence of calls, and the log after it. -/
def NaiveLog.run (limit : ℕ) (window : ℚ) (log : NaiveLog) :
    List Call → List (Option ℤ) × NaiveLog
  | [] => ([], log)
  | c :: rest =>
      let (answer, log') := log.call limit window c
      let (answers, last) := log'.run limit window rest
      (answer :: answers, last)

/-- The event a call records, by its answer. -/
def Call.event : Call → Option ℤ → Option (String × ℚ)
  | add key now, _ => some (key, now)
  | take key _ later, none => some (key, later)
  | _, _ => none

/-- The events that calls with these answers record. -/
def recorded (calls : List Call) (answers : List (Option ℤ)) : NaiveLog :=
  (calls.zip answers).filterMap fun x => x.1.event x.2

/-! ### The limiter follows the log -/

/-- The queue of a key. -/
def Limiter.queue (l : Limiter) (key : String) : List ℚ := (l.events.get? key).getD []

/-- A limiter whose queues keep what the log has in the window. -/
structure Follows (limit : ℕ) (window : ℚ) (l : Limiter) (log : NaiveLog) (now : ℚ) : Prop where
  limit_eq : l.limit = limit
  window_eq : l.window = window
  past : ∀ e ∈ log, e.2 ≤ now
  kept : ∀ key, Timeline.Kept (now - window) (log.of key) (l.queue key)

lemma NaiveLog.of_append (log log' : NaiveLog) (key : String) :
    NaiveLog.of (log ++ log') key = log.of key ++ log'.of key := by
  simp [NaiveLog.of]

lemma NaiveLog.mem_of {log : NaiveLog} {key : String} {t : ℚ} :
    t ∈ log.of key ↔ (key, t) ∈ log := by
  constructor
  · intro h
    obtain ⟨e, he, rfl⟩ := List.mem_map.mp h
    obtain ⟨hmem, hkey⟩ := List.mem_filter.mp he
    rw [← of_decide_eq_true hkey]
    exact hmem
  · intro h
    exact List.mem_map.mpr ⟨(key, t), List.mem_filter.mpr ⟨h, by simp⟩, rfl⟩

/-- What `_prune` does to the queues. -/
lemma Limiter.prune_spec (l : Limiter) (key : String) (now : ℚ) :
    (l.prune key now).1.getD [] = expire (now - l.window) (l.queue key) ∧
      ((l.prune key now).1 = none ↔ expire (now - l.window) (l.queue key) = []) ∧
      (l.prune key now).2.limit = l.limit ∧ (l.prune key now).2.window = l.window ∧
      ∀ k, (l.prune key now).2.queue k =
        if k = key then expire (now - l.window) (l.queue k) else l.queue k := by
  unfold Limiter.prune Limiter.queue
  cases hq : l.events.get? key with
  | none =>
    refine ⟨by simp [expire], by simp [expire], rfl, rfl, fun k => ?_⟩
    split_ifs with hk
    · simp [hk, hq, expire]
    · rfl
  | some q =>
    dsimp only [Option.getD_some]
    cases hexp : expire (now - l.window) q with
    | nil =>
      refine ⟨rfl, by simp, rfl, rfl, fun k => ?_⟩
      dsimp only
      rw [Dict.get?_erase]
      split_ifs with hk
      · simp [hk, hq, hexp]
      · rfl
    | cons t rest =>
      refine ⟨rfl, by simp, rfl, rfl, fun k => ?_⟩
      dsimp only
      rw [Dict.get?_insert]
      split_ifs with hk
      · simp [hk, hq, hexp]
      · rfl

section Following

variable {limit : ℕ} {window now : ℚ} {l : Limiter} {log : NaiveLog}

lemma Follows.past_of (h : Follows limit window l log now) (key : String) :
    ∀ t ∈ log.of key, t ≤ now :=
  fun _ ht => h.past _ (NaiveLog.mem_of.mp ht)

lemma Follows.later (h : Follows limit window l log now) {now' : ℚ} (hnow : now ≤ now') :
    Follows limit window l log now' where
  limit_eq := h.limit_eq
  window_eq := h.window_eq
  past := fun e he => (h.past e he).trans hnow
  kept := fun key => (h.kept key).mono (by linarith)

/-- **Pruning** keeps what is in the window. -/
lemma Follows.prune (h : Follows limit window l log now) (key : String) :
    Follows limit window (l.prune key now).2 log now := by
  obtain ⟨-, -, hlimit, hwindow, hqueue⟩ := l.prune_spec key now
  refine ⟨hlimit.trans h.limit_eq, hwindow.trans h.window_eq, h.past, fun k => ?_⟩
  rw [hqueue, h.window_eq]
  split_ifs
  · exact (h.kept k).expire
  · exact h.kept k

lemma Follows.pruneAll (keys : List String) (h : Follows limit window l log now) :
    Follows limit window (keys.foldl (fun l k => (l.prune k now).2) l) log now := by
  induction keys generalizing l with
  | nil => exact h
  | cons key keys ih => exact ih (h.prune key)

/-- A limiter answers as the log does. -/
lemma Follows.retryAfter (h : Follows limit window l log now) (hlimit : 1 ≤ limit) (key : String) :
    l.retryAfter key now = (log.retryAfter limit window key now, (l.prune key now).2) := by
  have hrecent := (h.kept key).recent (h.past_of key)
  obtain ⟨hget, hnone, -⟩ := l.prune_spec key now
  rw [h.window_eq, ← hrecent] at hget hnone
  unfold Limiter.retryAfter NaiveLog.retryAfter
  cases hq : l.prune key now with
  | mk q l' =>
    rw [hq] at hget hnone
    cases q with
    | none =>
      have hempty : recent window now (log.of key) = [] := hnone.mp rfl
      simp only [hempty, List.length_nil]
      rw [if_pos (by omega)]
    | some q =>
      obtain rfl : q = recent window now (log.of key) := hget
      simp only [h.limit_eq, h.window_eq]
      split_ifs <;> rfl

/-- **Recording** an event, and the sweep that may follow. -/
lemma Follows.add (h : Follows limit window l log now) (key : String) :
    Follows limit window (l.add key now) (log ++ [(key, now)]) now := by
  have hadded : ∀ n, Follows limit window
      { l with events := l.events.insert key (l.queue key ++ [now]), sinceSweep := n }
      (log ++ [(key, now)]) now := by
    intro n
    refine ⟨h.limit_eq, h.window_eq, fun e he => ?_, fun k => ?_⟩
    · rcases List.mem_append.mp he with he | he
      · exact h.past e he
      · rw [List.mem_singleton.mp he]
    · rw [NaiveLog.of_append, Limiter.queue, Dict.get?_insert]
      by_cases hk : k = key
      · subst hk
        simpa [NaiveLog.of] using (h.kept k).append (h.past_of k)
      · simpa [NaiveLog.of, hk, Ne.symm hk, Limiter.queue] using h.kept k
  unfold Limiter.add
  dsimp only
  split_ifs
  · exact (hadded 0).pruneAll _
  · exact hadded _

/-- The first reading of the clock. -/
def Call.first : Call → ℚ
  | check _ now => now
  | add _ now => now
  | take _ now _ => now

/-- The last reading of the clock. -/
def Call.last : Call → ℚ
  | check _ now => now
  | add _ now => now
  | take _ _ later => later

/-- The clock does not go back, from `now` on. -/
def Paced : ℚ → List Call → Prop
  | _, [] => True
  | now, c :: rest => now ≤ c.first ∧ c.first ≤ c.last ∧ Paced c.last rest

lemma paced_of_pairwise {calls : List Call} (hnow : ∀ t ∈ calls.flatMap Call.times, now ≤ t)
    (h : (calls.flatMap Call.times).Pairwise (· ≤ ·)) : Paced now calls := by
  induction calls generalizing now with
  | nil => trivial
  | cons c rest ih =>
    rw [List.flatMap_cons, List.pairwise_append] at h
    obtain ⟨hown, hrest, hle⟩ := h
    have hfirst : c.first ∈ c.times := by cases c <;> simp [Call.first, Call.times]
    have hlast : c.last ∈ c.times := by cases c <;> simp [Call.last, Call.times]
    refine ⟨hnow _ (List.mem_append_left _ hfirst), ?_, ih (fun t ht => hle _ hlast t ht) hrest⟩
    cases c with
    | check => exact le_rfl
    | add => exact le_rfl
    | take => exact (List.pairwise_cons.mp hown).1 _ List.mem_cons_self

/-- **One call**: the same answer, and the limiter follows the log. -/
lemma Follows.call (h : Follows limit window l log now) (hlimit : 1 ≤ limit) {c : Call}
    (hfirst : now ≤ c.first) (hlast : c.first ≤ c.last) :
    (l.call c).1 = (log.call limit window c).1 ∧
      Follows limit window (l.call c).2 (log.call limit window c).2 c.last := by
  cases c with
  | check key t =>
    have ht : Follows limit window l log t := h.later hfirst
    simp only [Limiter.call, NaiveLog.call, ht.retryAfter hlimit]
    exact ⟨trivial, ht.prune key⟩
  | add key t =>
    have ht : Follows limit window l log t := h.later hfirst
    exact ⟨rfl, ht.add key⟩
  | take key t later =>
    have ht : Follows limit window l log t := h.later hfirst
    simp only [Limiter.call, NaiveLog.call, ht.retryAfter hlimit]
    cases log.retryAfter limit window key t with
    | some wait => exact ⟨rfl, (ht.prune key).later hlast⟩
    | none => exact ⟨rfl, ((ht.prune key).later hlast).add key⟩

/-- The time after calls that begin at `now`. -/
def endOf (now : ℚ) : List Call → ℚ
  | [] => now
  | c :: rest => endOf c.last rest

/-- **A run**: the same answers, and the limiter follows the log. -/
lemma Follows.run (h : Follows limit window l log now) (hlimit : 1 ≤ limit) {calls : List Call}
    (hpace : Paced now calls) :
    (l.run calls).1 = (log.run limit window calls).1 ∧
      Follows limit window (l.run calls).2 (log.run limit window calls).2 (endOf now calls) := by
  induction calls generalizing l log now with
  | nil => exact ⟨rfl, h⟩
  | cons c rest ih =>
    obtain ⟨hfirst, hlast, hrest⟩ := hpace
    obtain ⟨hanswer, hafter⟩ := h.call hlimit hfirst hlast
    obtain ⟨hanswers, hend⟩ := ih hafter hrest
    exact ⟨congrArg₂ List.cons hanswer hanswers, hend⟩

/-- The log is what the answers say was recorded. -/
lemma NaiveLog.run_snd (limit : ℕ) (window : ℚ) (log : NaiveLog) (calls : List Call) :
    (log.run limit window calls).2 = log ++ recorded calls (log.run limit window calls).1 := by
  induction calls generalizing log with
  | nil => simp [NaiveLog.run, recorded]
  | cons c rest ih =>
    have hstep : (log.call limit window c).2
        = log ++ (c.event (log.call limit window c).1).toList := by
      cases c with
      | check key t => simp [NaiveLog.call, Call.event]
      | add key t => simp [NaiveLog.call, Call.event]
      | take key t later =>
        simp only [NaiveLog.call]
        cases log.retryAfter limit window key t <;> simp [Call.event]
    simp only [NaiveLog.run]
    rw [ih, hstep, List.append_assoc]
    congr 1
    simp only [recorded, List.zip_cons_cons, List.filterMap_cons]
    cases c.event (log.call limit window c).1 <;> simp

lemma paced_append {pre post : List Call} :
    Paced now (pre ++ post) ↔ Paced now pre ∧ Paced (endOf now pre) post := by
  induction pre generalizing now with
  | nil => simp [Paced, endOf]
  | cons c pre ih => simp only [List.cons_append, Paced, endOf, ih, and_assoc]

end Following

/-! ### Keys that are only taken -/

/-- A call of `take`. -/
def Call.isTake : Call → Bool
  | take _ _ _ => true
  | _ => false

/-- The calls use the key through `take` alone. -/
def TakesOnly (key : String) (calls : List Call) : Prop :=
  ∀ c ∈ calls, c.key = key → c.isTake = true

section Taking

variable {limit : ℕ} {window now : ℚ} {l : Limiter} {log : NaiveLog} {key : String}

lemma NaiveLog.retryAfter_eq_none :
    log.retryAfter limit window key now = none ↔
      (recent window now (log.of key)).length < limit := by
  unfold NaiveLog.retryAfter
  dsimp only
  split_ifs with h <;> simp [h]

/-- An event that was let in found room in the window before it. -/
lemma Follows.admitted_call (h : Follows limit window l log now) {c : Call}
    (hfirst : now ≤ c.first) (hlast : c.first ≤ c.last) (htake : c.key = key → c.isTake = true)
    (hadm : Admitted window limit (log.of key)) :
    Admitted window limit ((log.call limit window c).2.of key) := by
  cases c with
  | check k t => exact hadm
  | add k t =>
    have hk : k ≠ key := fun hk => Bool.false_ne_true (htake hk)
    simpa [NaiveLog.call, NaiveLog.of, hk] using hadm
  | take k t later =>
    simp only [NaiveLog.call]
    cases hretry : log.retryAfter limit window k t with
    | some wait => exact hadm
    | none =>
      dsimp only
      rw [NaiveLog.of_append]
      by_cases hk : k = key
      · subst hk
        have hnew : NaiveLog.of [(k, later)] k = [later] := by simp [NaiveLog.of]
        have hlater : t ≤ later := hlast
        rw [hnew, admitted_snoc, recent_later ((h.later hfirst).past_of k) hlater]
        exact ⟨hadm, (List.length_filter_le _ _).trans_lt (NaiveLog.retryAfter_eq_none.mp hretry)⟩
      · simpa [NaiveLog.of, hk] using hadm

lemma Follows.admitted_run (h : Follows limit window l log now) (hlimit : 1 ≤ limit)
    {calls : List Call} (hpace : Paced now calls) (htakes : TakesOnly key calls)
    (hadm : Admitted window limit (log.of key)) :
    Admitted window limit ((log.run limit window calls).2.of key) := by
  induction calls generalizing l log now with
  | nil => exact hadm
  | cons c rest ih =>
    obtain ⟨hfirst, hlast, hrest⟩ := hpace
    have hnext := h.admitted_call hfirst hlast (htakes c List.mem_cons_self) hadm
    exact ih (h.call hlimit hfirst hlast).2 hrest
      (fun x hx => htakes x (List.mem_cons_of_mem _ hx)) hnext

/-- The wait that is announced is longer than the first event stays. -/
lemma lt_of_wait {x : ℚ} (hx : 0 < x) : x < (max 1 (truncate x + 1) : ℤ) := by
  have htrunc : truncate x = ⌊x⌋ := by
    rw [truncate, Int.tdiv_eq_ediv_of_nonneg (Rat.num_nonneg.mpr hx.le), Rat.floor_def']
  rw [htrunc]
  calc x < (⌊x⌋ + 1 : ℤ) := by exact_mod_cast Int.lt_floor_add_one x
    _ ≤ (max 1 (⌊x⌋ + 1) : ℤ) := by exact_mod_cast le_max_right 1 _

/-- **After the wait** there is room again, if nothing came in between. -/
lemma Follows.room_after_wait (h : Follows limit window l log now) (hlimit : 1 ≤ limit)
    (hadm : Admitted window limit (log.of key)) {wait : ℤ}
    (hwait : log.retryAfter limit window key now = some wait) {later : ℚ}
    (hlater : now + wait ≤ later) : log.retryAfter limit window key later = none := by
  rw [NaiveLog.retryAfter_eq_none]
  unfold NaiveLog.retryAfter at hwait
  dsimp only at hwait
  split_ifs at hwait with hfull
  obtain rfl := Option.some.inj hwait
  have hcount : (recent window now (log.of key)).length ≤ limit := by
    refine length_filter_le hadm (h.kept key).ordered fun t t' ht ht' _ => ?_
    have := ht.2
    have := ht'.1
    linarith
  cases hevents : recent window now (log.of key) with
  | nil =>
    rw [hevents] at hfull
    exact absurd hlimit (by simpa using hfull)
  | cons first rest =>
    rw [hevents] at hcount hlater
    have hmem : first ∈ recent window now (log.of key) := by rw [hevents]; exact List.mem_cons_self
    have hfirst : now - window < first := by
      have := (List.mem_filter.mp hmem).2
      simp at this
      exact this.1
    have hlong := lt_of_wait (x := first + window - now) (by linarith)
    rw [List.headD_cons] at hlater
    have hnow : now ≤ later := by linarith
    rw [recent_later (h.past_of key) hnow, hevents, List.filter_cons_of_neg (by simp; linarith)]
    exact (List.length_filter_le _ _).trans_lt (by simpa using hcount)

end Taking

/-! ### The window is exact -/

/-- The key and the time a call asks for. -/
def Call.asks : Call → Option (String × ℚ)
  | check key now => some (key, now)
  | take key now _ => some (key, now)
  | add _ _ => none

/-- A limiter that has seen nothing. -/
def fresh (limit : ℕ) (window : ℚ) : Limiter := { limit := limit, window := window }

lemma follows_fresh (limit : ℕ) (window now : ℚ) :
    Follows limit window (fresh limit window) [] now where
  limit_eq := rfl
  window_eq := rfl
  past := by simp
  kept := fun key => ⟨⟨[], rfl, by simp⟩, List.Pairwise.nil⟩

/-- A call is refused exactly if the log is full. -/
lemma Follows.refused_iff {limit : ℕ} {window now : ℚ} {l : Limiter} {log : NaiveLog}
    (h : Follows limit window l log now) (hlimit : 1 ≤ limit) {c : Call} (hfirst : now ≤ c.first)
    (hlast : c.first ≤ c.last) {key : String} {t : ℚ} (hasks : c.asks = some (key, t)) :
    (l.call c).1.isSome = true ↔ limit ≤ (recent window t (log.of key)).length := by
  have hnone : log.retryAfter limit window key t = none ↔
      (recent window t (log.of key)).length < limit := NaiveLog.retryAfter_eq_none
  rw [(h.call hlimit hfirst hlast).1, ← not_lt, ← hnone, ← Option.ne_none_iff_isSome, not_iff_not]
  cases c with
  | add k s => cases hasks
  | check k s =>
    obtain ⟨rfl, rfl⟩ := Prod.mk.inj (Option.some.inj hasks)
    rfl
  | take k s later =>
    obtain ⟨rfl, rfl⟩ := Prod.mk.inj (Option.some.inj hasks)
    simp only [NaiveLog.call]
    cases log.retryAfter limit window k s <;> simp

/-- Expired events of some keys are forgotten between two calls, and the count to
the next sweep is another. -/
def Limiter.forget (l : Limiter) (keys : List String) (now : ℚ) (n : ℕ) : Limiter :=
  { keys.foldl (fun l k => (l.prune k now).2) l with sinceSweep := n }

lemma Follows.forget {limit : ℕ} {window now : ℚ} {l : Limiter} {log : NaiveLog}
    (h : Follows limit window l log now) (keys : List String) (n : ℕ) :
    Follows limit window (l.forget keys now n) log now := by
  have hall := h.pruneAll keys
  exact ⟨hall.limit_eq, hall.window_eq, hall.past, hall.kept⟩

section Exact

variable {limit : ℕ} {window now : ℚ}

lemma endOf_mem (now : ℚ) (calls : List Call) :
    endOf now calls = now ∨ endOf now calls ∈ calls.flatMap Call.times := by
  induction calls generalizing now with
  | nil => exact .inl rfl
  | cons c rest ih =>
    right
    have hlast : c.last ∈ c.times := by cases c <;> simp [Call.last, Call.times]
    rcases ih c.last with h | h
    · rw [endOf, h]
      exact List.mem_append_left _ hlast
    · exact List.mem_append_right _ h

lemma first_le {c : Call} {rest : List Call}
    (hclock : ((c :: rest).flatMap Call.times).Pairwise (· ≤ ·)) :
    ∀ t ∈ (c :: rest).flatMap Call.times, c.first ≤ t := by
  intro t ht
  obtain ⟨tail, htail⟩ : ∃ tail, (c :: rest).flatMap Call.times = c.first :: tail := by
    cases c <;> exact ⟨_, rfl⟩
  rw [htail] at ht hclock
  rcases List.mem_cons.mp ht with rfl | ht
  · exact le_rfl
  · exact (List.pairwise_cons.mp hclock).1 t ht

/-- After any calls the limiter follows the log of what they recorded. -/
lemma follows_run (hlimit : 1 ≤ limit) (window : ℚ) {calls : List Call}
    (hclock : (calls.flatMap Call.times).Pairwise (· ≤ ·))
    (hnow : ∀ t ∈ calls.flatMap Call.times, t ≤ now) :
    ((fresh limit window).run calls).1 = (NaiveLog.run limit window [] calls).1 ∧
      Follows limit window ((fresh limit window).run calls).2
        (recorded calls ((fresh limit window).run calls).1) now := by
  cases calls with
  | nil => exact ⟨rfl, follows_fresh limit window now⟩
  | cons c rest =>
    have hpace : Paced (min c.first now) (c :: rest) :=
      paced_of_pairwise (fun t ht => min_le_of_left_le (first_le hclock t ht)) hclock
    obtain ⟨hanswers, hend⟩ := (follows_fresh limit window _).run hlimit hpace
    refine ⟨hanswers, ?_⟩
    rw [hanswers, ← List.nil_append (recorded _ _), ← NaiveLog.run_snd]
    refine hend.later ?_
    rcases endOf_mem (min c.first now) (c :: rest) with h | h
    · rw [h]
      exact min_le_right _ _
    · exact hnow _ h

/-- The clock of calls that are cut in two. -/
lemma clock_append {pre post : List Call} :
    ((pre ++ post).flatMap Call.times).Pairwise (· ≤ ·) ↔
      (pre.flatMap Call.times).Pairwise (· ≤ ·) ∧ (post.flatMap Call.times).Pairwise (· ≤ ·) ∧
        ∀ t ∈ pre.flatMap Call.times, ∀ t' ∈ post.flatMap Call.times, t ≤ t' := by
  rw [List.flatMap_append, List.pairwise_append]

/-- The limiter and its log when the calls `post` come up. -/
lemma follows_before (hlimit : 1 ≤ limit) (window : ℚ) {pre post : List Call}
    (hclock : ((pre ++ post).flatMap Call.times).Pairwise (· ≤ ·))
    (hpre : ∀ t ∈ pre.flatMap Call.times, t ≤ now)
    (hpost : ∀ t ∈ post.flatMap Call.times, now ≤ t) :
    Follows limit window ((fresh limit window).run pre).2
        (recorded pre ((fresh limit window).run pre).1) now ∧ Paced now post := by
  obtain ⟨hclock₁, hclock₂, -⟩ := clock_append.mp hclock
  exact ⟨(follows_run hlimit window hclock₁ hpre).2, paced_of_pairwise hpost hclock₂⟩

/-- The limiter and its log when the call `c` comes up. -/
lemma follows_call (hlimit : 1 ≤ limit) (window : ℚ) {pre post : List Call} {c : Call}
    (hclock : ((pre ++ c :: post).flatMap Call.times).Pairwise (· ≤ ·)) :
    Follows limit window ((fresh limit window).run pre).2
        (recorded pre ((fresh limit window).run pre).1) c.first ∧ Paced c.first (c :: post) := by
  obtain ⟨-, hclock₂, hle⟩ := clock_append.mp hclock
  have hfirst : c.first ∈ (c :: post).flatMap Call.times := by
    cases c <;> simp [Call.first, Call.times]
  exact follows_before hlimit window hclock (fun t ht => hle t ht _ hfirst) (first_le hclock₂)

/-- Two limiters that follow one log give the same answers from then on. -/
lemma Follows.run_eq {l l' : Limiter} {log : NaiveLog} (h : Follows limit window l log now)
    (h' : Follows limit window l' log now) (hlimit : 1 ≤ limit) {calls : List Call}
    (hpace : Paced now calls) : (l.run calls).1 = (l'.run calls).1 :=
  (h.run hlimit hpace).1.trans (h'.run hlimit hpace).1.symm

/-- The events of a key that is only taken. -/
lemma admitted_recorded (hlimit : 1 ≤ limit) (window : ℚ) {calls : List Call} {key : String}
    (hclock : (calls.flatMap Call.times).Pairwise (· ≤ ·)) (htakes : TakesOnly key calls) :
    Admitted window limit ((recorded calls ((fresh limit window).run calls).1).of key) ∧
      ((recorded calls ((fresh limit window).run calls).1).of key).Pairwise (· ≤ ·) := by
  have hnil : Admitted window limit (NaiveLog.of [] key) := fun before t after h => by
    simp [NaiveLog.of] at h
  obtain ⟨now, hnow⟩ : ∃ now, ∀ t ∈ calls.flatMap Call.times, t ≤ now := by
    obtain ⟨now, hnow⟩ := (calls.flatMap Call.times).toFinset.bddAbove
    exact ⟨now, fun t ht => hnow (by simpa using ht)⟩
  obtain ⟨start, hstart⟩ : ∃ start, ∀ t ∈ calls.flatMap Call.times, start ≤ t := by
    obtain ⟨start, hstart⟩ := (calls.flatMap Call.times).toFinset.bddBelow
    exact ⟨start, fun t ht => hstart (by simpa using ht)⟩
  obtain ⟨hanswers, hfollows⟩ := follows_run hlimit window hclock hnow
  refine ⟨?_, (hfollows.kept key).ordered⟩
  have hadm := (follows_fresh limit window start).admitted_run hlimit
    (paced_of_pairwise hstart hclock) htakes hnil
  rwa [NaiveLog.run_snd, List.nil_append, ← hanswers] at hadm

/-- A refused take that waits as long as it was told. -/
lemma take_after_wait (hlimit : 1 ≤ limit) (window : ℚ) {pre mid post : List Call} {key : String}
    {now later now' later' : ℚ} {wait : ℤ}
    (hclock : ((pre ++ .take key now later :: (mid ++ .take key now' later' :: post)).flatMap
      Call.times).Pairwise (· ≤ ·))
    (htakes : TakesOnly key pre) {l l' : Limiter} (hl : l = ((fresh limit window).run pre).2)
    (hl' : l' = (l.call (.take key now later)).2)
    (hwait : (l.call (.take key now later)).1 = some wait)
    (hmid : (recorded mid (l'.run mid).1).of key = []) (hnow : now + wait ≤ now') :
    ((l'.run mid).2.call (.take key now' later')).1 = none := by
  obtain ⟨hfollows, hfirst, hlast, hpace⟩ := follows_call hlimit window hclock
  obtain ⟨hclock₁, -, -⟩ := clock_append.mp hclock
  have hadm := (admitted_recorded hlimit window hclock₁ htakes).1
  rw [← hl] at hfollows
  generalize recorded pre ((fresh limit window).run pre).1 = log at hfollows hadm
  obtain ⟨hanswer, hafter⟩ := hfollows.call hlimit hfirst hlast
  rw [← hl'] at hafter
  rw [hwait] at hanswer
  -- the refusal leaves the log as it was, and so do the calls in between
  have hretry : log.retryAfter limit window key now = some wait := by
    simp only [NaiveLog.call] at hanswer
    cases hr : log.retryAfter limit window key now with
    | none => simp [hr] at hanswer
    | some n => simpa [hr] using hanswer.symm
  have hlog : (log.call limit window (.take key now later)).2 = log := by
    simp [NaiveLog.call, hretry]
  rw [hlog] at hafter
  obtain ⟨hpace₁, hfirst', hlast', -⟩ := paced_append.mp hpace
  obtain ⟨hanswers, hend⟩ := hafter.run hlimit hpace₁
  have hkey : ((log.run limit window mid).2).of key = log.of key := by
    rw [NaiveLog.run_snd, NaiveLog.of_append, ← hanswers, hmid, List.append_nil]
  have hroom := hfollows.room_after_wait hlimit hadm hretry hnow
  rw [(hend.call hlimit hfirst' hlast').1]
  simp only [NaiveLog.call, NaiveLog.retryAfter, hkey] at hroom ⊢
  rw [hroom]

end Exact

/-- **The rate limiter is an exact sliding window**, for every limit, window and
sequence of calls. It answers as the log that never forgets: a check or a take is
refused exactly if the key has `limit` recorded events in `(now - window, now]`.
Forgetting expired events of any keys, at any moment between two calls, or
counting differently to the next sweep changes no answer. On a key that is only
taken, no half-open interval as long as the window has more than `limit`
events, and after the announced wait a take succeeds if none came in between. -/
theorem limiter_exact {limit : ℕ} (hlimit : 1 ≤ limit) (window : ℚ) (calls : List Call)
    (hclock : (calls.flatMap Call.times).Pairwise (· ≤ ·)) :
    ((fresh limit window).run calls).1 = (NaiveLog.run limit window [] calls).1 ∧
    (∀ pre c post key now, calls = pre ++ c :: post → c.asks = some (key, now) →
      ((((fresh limit window).run pre).2.call c).1.isSome = true ↔
        limit ≤ (recent window now
          ((recorded pre ((fresh limit window).run pre).1).of key)).length)) ∧
    (∀ pre post keys now n, calls = pre ++ post → (∀ t ∈ pre.flatMap Call.times, t ≤ now) →
      (∀ t ∈ post.flatMap Call.times, now ≤ t) →
      ((((fresh limit window).run pre).2.forget keys now n).run post).1 =
        (((fresh limit window).run pre).2.run post).1) ∧
    (∀ key, TakesOnly key calls → ∀ a,
      let events := (recorded calls ((fresh limit window).run calls).1).of key
      (events.filter fun t => a < t ∧ t ≤ a + window).length ≤ limit ∧
        (events.filter fun t => a ≤ t ∧ t < a + window).length ≤ limit) ∧
    (∀ pre mid post key now later now' later' wait, TakesOnly key calls →
      calls = pre ++ .take key now later :: (mid ++ .take key now' later' :: post) →
      let l := ((fresh limit window).run pre).2
      let l' := (l.call (.take key now later)).2
      (l.call (.take key now later)).1 = some wait → (recorded mid (l'.run mid).1).of key = [] →
      now + wait ≤ now' → ((l'.run mid).2.call (.take key now' later')).1 = none) := by
  refine ⟨?_, ?_, ?_, ?_, ?_⟩
  · obtain ⟨start, hstart⟩ := (calls.flatMap Call.times).toFinset.bddBelow
    have hpace : Paced start calls :=
      paced_of_pairwise (fun t ht => hstart (by simpa using ht)) hclock
    exact ((follows_fresh limit window start).run hlimit hpace).1
  · rintro pre c post key now rfl hasks
    obtain ⟨hfollows, hfirst, hlast, -⟩ := follows_call hlimit window hclock
    exact hfollows.refused_iff hlimit hfirst hlast hasks
  · rintro pre post keys now n rfl hpre hpost
    obtain ⟨hfollows, hpace⟩ := follows_before hlimit window hclock hpre hpost
    exact (hfollows.forget keys n).run_eq hfollows hlimit hpace
  · intro key htakes a
    obtain ⟨hadm, hordered⟩ := admitted_recorded hlimit window hclock htakes
    constructor
    · refine length_filter_le hadm hordered fun t t' ht ht' _ => ?_
      have := ht.2
      have := ht'.1
      linarith
    · refine length_filter_le hadm hordered fun t t' ht ht' _ => ?_
      have := ht.2
      have := ht'.1
      linarith
  · rintro pre mid post key now later now' later' wait htakes rfl l l' hwait hmid hnow
    have hpre : TakesOnly key pre := fun c hc => htakes c (List.mem_append_left _ hc)
    exact take_after_wait hlimit window hclock hpre rfl rfl hwait hmid hnow

/-- Two places a minute: the third take is told to wait for 41 seconds. -/
def fourTakes : List Call :=
  [.take "10.0.0.1" 0 0, .take "10.0.0.1" 10 10, .take "10.0.0.1" 20 20, .take "10.0.0.1" 61 61]

theorem limiter_exact_fourTakes :
    (fourTakes.flatMap Call.times).Pairwise (· ≤ ·) ∧
      ((fresh 2 60).run fourTakes).1 = [none, none, some 41, none] := by
  have hclock : (fourTakes.flatMap Call.times).Pairwise (· ≤ ·) := by decide
  have hlog : (NaiveLog.run 2 60 [] fourTakes).1 = [none, none, some 41, none] := by
    decide +kernel
  exact ⟨hclock, (limiter_exact (by decide) 60 fourTakes hclock).1.trans hlog⟩

end VpnPortal.RateLimit
