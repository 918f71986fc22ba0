/-
A reviewed list of peers taken off an entry node (`tools/peer-remove.sh`).

The lines of the list are checked by address against the running interface, all
of them before anything changes; then `pwa-del-peer` is called for the key of
each, in the order of the list, up to the first refusal. What the script prints,
the snapshot and the copies it shreds are left out, and so is `--restore`.

* `parseEntry`, `reviewLine`, `review`: the checks;
* `removeAll`, `peerRemove`: the removals;
* `Accepted`, `review_accepted`: the lists that get past the checks have a line, name a
  running client by address and key on every line, and no address twice.
-/
import VpnPortal.Nodes.DelPeer

namespace VpnPortal.PeerRemove

open Blocks

/-! ### The list -/

/-- A character between two words of a line. -/
def isBlank (c : Char) : Bool := c = ' ' || c = '\t'

/-- `read -r word rest` -/
def readWord (line : Line) : Line × Line :=
  let rest := line.dropWhile isBlank
  (rest.takeWhile fun c => !isBlank c, rest.dropWhile fun c => !isBlank c)

/-- A line of the list: the address and the beginning of the key. -/
structure Entry where
  ip : String
  pfx : String
  deriving DecidableEq, Repr

/-- Blank lines and lines starting with `#` are skipped. -/
def parseEntry (raw : Line) : Option Entry :=
  let (ip, rest) := readWord raw
  if ip = [] ∨ ip.head? = some '#' then none
  else some ⟨String.ofList ip, String.ofList (readWord rest).1⟩

/-- A number in an arithmetic expression: a leading `0` makes it octal. -/
def bashNumber : List Char → Option ℕ
  | '0' :: d :: digits =>
      if (d :: digits).all fun c => c.toNat < 56 then
        some ((d :: digits).foldl (fun n c => 8 * n + (c.toNat - 48)) 0)
      else none
  | digits => some (digits.foldl (fun n c => 10 * n + (c.toNat - 48)) 0)

/-- `client_ip`: `^10\.88\.(88|89)\.([0-9]{1,3})$`, and at most 255. -/
def clientIp (ip : String) : Bool :=
  clientSubnetPrefixes.any (fun net => net.toList.isPrefixOf ip.toList) &&
    (let digits := ip.toList.drop 9
     decide (1 ≤ digits.length ∧ digits.length ≤ 3) && digits.all Char.isDigit &&
       (bashNumber digits).any fun n => decide (n ≤ 255))

/-- `^[A-Za-z0-9+/=]+$`, eight characters or more. -/
def isKeyStart (pfx : String) : Bool :=
  decide (8 ≤ pfx.toList.length) && pfx.toList.all fun c => isBase64 c || c = '='

/-- `peers_with`: a line for each time `<ip>/32` stands in a peer's `allowed-ips`. -/
def peersWith (runtime : List PeerEntry) (ip : String) : List PeerEntry :=
  runtime.flatMap fun e => (e.allowedIps.filter fun a => a = ip ++ "/32").map fun _ => e

/-- What one call of the script is given. -/
structure RemoveArgs where
  list : List Line
  apply : Bool
  allowLive : Bool
  now : ℤ
  /-- The last handshake of a peer, 0 if there was none. -/
  handshake : String → ℤ
  /-- What the calls of `pwa-del-peer` meet. -/
  runs : ℕ → DelRun

/-- A handshake in the last 3 minutes, without `--allow-live`. -/
def RemoveArgs.tooLive (args : RemoveArgs) (pub : String) : Bool :=
  decide (0 < args.handshake pub ∧ args.now - args.handshake pub < 180) && !args.allowLive

/-- One peer of `plan`. -/
structure Planned where
  ip : String
  pub : String
  deriving DecidableEq, Repr

/-- What the checks have found so far. -/
structure Review where
  nr : ℕ := 0
  seen : List String := []
  problems : List String := []
  plan : List Planned := []
  deriving Repr

/-- `problem` -/
def Review.problem (r : Review) (ip text : String) : Review :=
  { r with
    problems := r.problems ++ ["строка " ++ toString r.nr ++ " (" ++ ip ++ "): " ++ text] }

/-- The checks on one line. -/
def reviewLine (args : RemoveArgs) (runtime : List PeerEntry) (r : Review) (raw : Line) :
    Review :=
  let r := { r with nr := r.nr + 1 }
  match parseEntry raw with
  | none => r
  | some entry =>
      if !clientIp entry.ip then r.problem entry.ip "не клиентский адрес"
      else if !isKeyStart entry.pfx then
        r.problem entry.ip "нужно начало ключа, 8 символов или больше"
      else if entry.ip ∈ r.seen then r.problem entry.ip "адрес в списке дважды"
      else
        let r := { r with seen := entry.ip :: r.seen }
        match peersWith runtime entry.ip with
        | [] => r.problem entry.ip "на awg0 нет пира с этим адресом"
        | [e] =>
            if !entry.pfx.toList.isPrefixOf e.key.toList then
              r.problem entry.ip ("ключ здесь начинается с " ++ String.ofList (e.key.toList.take 8)
                ++ ", а не с " ++ entry.pfx)
            else if args.tooLive e.key then
              r.problem entry.ip ("на связи прямо сейчас (handshake "
                ++ toString (args.now - args.handshake e.key)
                ++ " с назад) — удалить только с --allow-live")
            else { r with plan := r.plan ++ [⟨entry.ip, e.key⟩] }
        | found =>
            r.problem entry.ip ("этот адрес у " ++ toString found.length
              ++ " пиров — разобрать руками")

/-- All lines are checked before anything changes. -/
def review (args : RemoveArgs) (runtime : List PeerEntry) : Review :=
  args.list.foldl (reviewLine args runtime) {}

/-! ### The removals -/

/-- `pwa-del-peer` for each peer, up to the first refusal: the answers, and the node. -/
def removeAll (runs : ℕ → DelRun) : ℕ → List Planned → NodeState → List Reply × NodeState
  | _, [], node => ([], node)
  | k, p :: rest, node =>
      match pwaDelPeer (runs k) node p.pub with
      | (.ok, node') =>
          let (replies, last) := removeAll runs (k + 1) rest node'
          (.ok :: replies, last)
      | (reply, node') => ([reply], node')

/-- `grep -qF` in the config, or the key in the dump. -/
def stillThere (node : NodeState) (pub : String) : Bool :=
  (node.conf.any fun conf => conf.any (mentions pub)) || node.runtime.any fun e => e.key = pub

/-- How the script ends. -/
inductive Verdict where
  /-- Before anything was touched. -/
  | stopped
  | dryRun
  /-- A call of `pwa-del-peer` was refused after some were done. -/
  | refused (done : ℕ)
  | notAllGone
  | done
  deriving DecidableEq, Repr

structure Removal where
  verdict : Verdict
  replies : List Reply
  node : NodeState

/-- `peer-remove.sh <list> [--apply] [--allow-live]` -/
def peerRemove (args : RemoveArgs) (node : NodeState) : Removal :=
  let r := review args node.runtime
  if node.conf = none ∨ r.problems ≠ [] ∨ r.plan = [] then ⟨.stopped, [], node⟩
  else if !args.apply then ⟨.dryRun, [], node⟩
  else
    let (replies, last) := removeAll args.runs 0 r.plan node
    if replies.any fun reply => reply ≠ .ok then ⟨.refused (replies.length - 1), replies, last⟩
    else if r.plan.any fun p => stillThere last p.pub then ⟨.notAllGone, replies, last⟩
    else ⟨.done, replies, last⟩

/-! ### The lists that get past the checks -/

/-- The peers' lines of the list. -/
def RemoveArgs.entries (args : RemoveArgs) : List Entry := args.list.filterMap parseEntry

/-- The line names one running peer, by a client address and the beginning of its
key, and the peer may be taken off. -/
def Entry.Good (args : RemoveArgs) (runtime : List PeerEntry) (entry : Entry) : Prop :=
  clientIp entry.ip = true ∧ isKeyStart entry.pfx = true ∧
    ∃ e, peersWith runtime entry.ip = [e] ∧ entry.pfx.toList <+: e.key.toList ∧
      args.tooLive e.key = false

/-- No line of the list is bad, and there is one. -/
structure Accepted (args : RemoveArgs) (runtime : List PeerEntry) : Prop where
  some_line : args.entries ≠ []
  good : ∀ entry ∈ args.entries, entry.Good args runtime
  distinct : (args.entries.map Entry.ip).Nodup

/-- The keys of the peers that the lines match, in the order of the list. -/
def matchedKeys (args : RemoveArgs) (runtime : List PeerEntry) : List String :=
  args.entries.flatMap fun entry => (peersWith runtime entry.ip).map PeerEntry.key

section Reviewing

variable (args : RemoveArgs) (runtime : List PeerEntry)

lemma Review.problem_ne_nil (r : Review) (ip text : String) : (r.problem ip text).problems ≠ [] := by
  simp [Review.problem]

/-- A line that is skipped changes nothing but the count. -/
lemma reviewLine_none {raw : Line} (h : parseEntry raw = none) (r : Review) :
    reviewLine args runtime r raw = { r with nr := r.nr + 1 } := by
  simp only [reviewLine, h]

/-- **The checks on a line** that is not skipped: a problem, or the peer goes on
the plan. -/
lemma reviewLine_some {raw : Line} {entry : Entry} (h : parseEntry raw = some entry) (r : Review) :
    ((reviewLine args runtime r raw).problems ≠ [] ∧
        ¬ (entry.Good args runtime ∧ entry.ip ∉ r.seen)) ∨
      (entry.Good args runtime ∧ entry.ip ∉ r.seen ∧ ∃ e, peersWith runtime entry.ip = [e] ∧
        reviewLine args runtime r raw =
          { nr := r.nr + 1, seen := entry.ip :: r.seen, problems := r.problems,
            plan := r.plan ++ [⟨entry.ip, e.key⟩] }) := by
  simp only [reviewLine, h]
  by_cases hclient : clientIp entry.ip = true
  swap
  · rw [if_pos (by simpa using hclient)]
    exact .inl ⟨Review.problem_ne_nil _ _ _, fun hg => hclient hg.1.1⟩
  rw [if_neg (by simpa using hclient)]
  by_cases hkey : isKeyStart entry.pfx = true
  swap
  · rw [if_pos (by simpa using hkey)]
    exact .inl ⟨Review.problem_ne_nil _ _ _, fun hg => hkey hg.1.2.1⟩
  rw [if_neg (by simpa using hkey)]
  by_cases hseen : entry.ip ∈ r.seen
  · rw [if_pos hseen]
    exact .inl ⟨Review.problem_ne_nil _ _ _, fun hg => hg.2 hseen⟩
  rw [if_neg hseen]
  rcases hfound : peersWith runtime entry.ip with _ | ⟨e, _ | ⟨e', found⟩⟩
  · refine .inl ⟨Review.problem_ne_nil _ _ _, fun hg => ?_⟩
    obtain ⟨-, -, e, he, -⟩ := hg.1
    simp [hfound] at he
  · by_cases hpfx : entry.pfx.toList <+: e.key.toList
    swap
    · simp only [List.isPrefixOf_iff_prefix.not.mpr hpfx |> eq_false_of_ne_true, Bool.not_false,
        if_true]
      refine .inl ⟨Review.problem_ne_nil _ _ _, fun hg => ?_⟩
      obtain ⟨-, -, e₁, he₁, hpfx₁, -⟩ := hg.1
      rw [hfound] at he₁
      obtain rfl := (List.cons.inj he₁).1
      exact hpfx hpfx₁
    simp only [List.isPrefixOf_iff_prefix.mpr hpfx, Bool.not_true, Bool.false_eq_true, if_false]
    by_cases hlive : args.tooLive e.key = true
    · rw [if_pos hlive]
      refine .inl ⟨Review.problem_ne_nil _ _ _, fun hg => ?_⟩
      obtain ⟨-, -, e₁, he₁, -, hlive₁⟩ := hg.1
      rw [hfound] at he₁
      obtain rfl := (List.cons.inj he₁).1
      simp [hlive] at hlive₁
    · rw [if_neg hlive]
      exact .inr ⟨⟨hclient, hkey, e, hfound, hpfx, by simpa using hlive⟩, hseen, e, rfl, rfl⟩
  · refine .inl ⟨Review.problem_ne_nil _ _ _, fun hg => ?_⟩
    obtain ⟨-, -, e₁, he₁, -⟩ := hg.1
    simp [hfound] at he₁

/-- A problem is not forgotten. -/
lemma problems_reviewLine (raw : Line) {r : Review} (h : r.problems ≠ []) :
    (reviewLine args runtime r raw).problems ≠ [] := by
  cases hparse : parseEntry raw with
  | none =>
    rw [reviewLine_none args runtime hparse]
    exact h
  | some entry =>
    rcases reviewLine_some args runtime hparse r with
      ⟨hp, -⟩ | ⟨-, -, e, -, heq⟩
    · exact hp
    · rw [heq]
      exact h

lemma problems_foldl (lines : List Line) {r : Review} (h : r.problems ≠ []) :
    (lines.foldl (reviewLine args runtime) r).problems ≠ [] := by
  induction lines generalizing r with
  | nil => exact h
  | cons raw lines ih => exact ih (problems_reviewLine args runtime raw h)

/-- The checks on all lines, from what was found before. -/
lemma review_foldl (lines : List Line) {r : Review} (hr : r.problems = []) :
    ((lines.foldl (reviewLine args runtime) r).problems = [] ↔
        (∀ entry ∈ lines.filterMap parseEntry, entry.Good args runtime ∧ entry.ip ∉ r.seen) ∧
          ((lines.filterMap parseEntry).map Entry.ip).Nodup) ∧
      ((lines.foldl (reviewLine args runtime) r).problems = [] →
        (lines.foldl (reviewLine args runtime) r).plan.map Planned.pub =
          r.plan.map Planned.pub ++ (lines.filterMap parseEntry).flatMap fun entry =>
            (peersWith runtime entry.ip).map PeerEntry.key) := by
  induction lines generalizing r with
  | nil => simp [hr]
  | cons raw lines ih =>
    rw [List.foldl_cons]
    cases hparse : parseEntry raw with
    | none =>
      rw [reviewLine_none args runtime hparse, List.filterMap_cons_none hparse]
      exact ih hr
    | some entry =>
      rw [List.filterMap_cons_some hparse]
      rcases reviewLine_some args runtime hparse r with
        ⟨hp, hbad⟩ | ⟨hgood, hseen, e, hfound, heq⟩
      · have hproblems := problems_foldl args runtime lines hp
        refine ⟨⟨fun h => absurd h hproblems, fun h => ?_⟩, fun h => absurd h hproblems⟩
        exact absurd (h.1 entry List.mem_cons_self) hbad
      · rw [heq]
        obtain ⟨hiff, hplan⟩ := ih (r := ⟨r.nr + 1, entry.ip :: r.seen, r.problems,
          r.plan ++ [⟨entry.ip, e.key⟩]⟩) hr
        refine ⟨hiff.trans ?_, fun h => ?_⟩
        · simp only [List.mem_cons, List.map_cons, List.nodup_cons, List.mem_map, not_or,
            forall_eq_or_imp]
          constructor
          · rintro ⟨hall, hnodup⟩
            refine ⟨⟨⟨hgood, hseen⟩, fun x hx => ⟨(hall x hx).1, (hall x hx).2.2⟩⟩, ?_, hnodup⟩
            rintro ⟨x, hx, hip⟩
            exact (hall x hx).2.1 hip
          · rintro ⟨⟨-, hall⟩, hnew, hnodup⟩
            exact ⟨fun x hx => ⟨(hall x hx).1, fun hip => hnew ⟨x, hx, hip⟩, (hall x hx).2⟩, hnodup⟩
        · rw [hplan h]
          simp [hfound]

/-- **The lists that get past the checks**, and the keys on their plan. -/
lemma review_accepted :
    ((review args runtime).problems = [] ∧ (review args runtime).plan ≠ [] ↔
        Accepted args runtime) ∧
      ((review args runtime).problems = [] →
        (review args runtime).plan.map Planned.pub = matchedKeys args runtime) := by
  obtain ⟨hiff, hplan⟩ := review_foldl args runtime args.list (r := {}) rfl
  have hplan' : (review args runtime).problems = [] →
      (review args runtime).plan.map Planned.pub = matchedKeys args runtime := by
    intro h
    have := hplan h
    simpa [matchedKeys, RemoveArgs.entries, review] using this
  refine ⟨⟨?_, ?_⟩, hplan'⟩
  · rintro ⟨hproblems, hne⟩
    obtain ⟨hall, hnodup⟩ := hiff.mp hproblems
    refine ⟨?_, fun entry he => (hall entry he).1, hnodup⟩
    intro hnil
    have hkeys := hplan' hproblems
    simp only [matchedKeys, hnil, List.flatMap_nil, List.map_eq_nil_iff] at hkeys
    exact hne hkeys
  · intro h
    have hproblems : (review args runtime).problems = [] :=
      hiff.mpr ⟨fun entry he => ⟨h.good entry he, by simp⟩, h.distinct⟩
    refine ⟨hproblems, fun hnil => ?_⟩
    have hkeys := hplan' hproblems
    obtain ⟨entry, rest, hentries⟩ := List.exists_cons_of_ne_nil h.some_line
    obtain ⟨-, -, e, he, -⟩ := h.good entry (by rw [hentries]; exact List.mem_cons_self)
    rw [hnil] at hkeys
    simp [matchedKeys, hentries, he] at hkeys

end Reviewing

end VpnPortal.PeerRemove
