/-
One text per inbox: what `normalise_email` makes of the addresses that lead to
the same mailbox.

* `Respelled`, `SameInbox`: addresses that differ in letter case, a tag, the
  dots of a Google mailbox or the name of the provider, one change after another;
* `splitAddress_append`: the address at its last `@`;
* `normaliseEmail_of_sameInbox`: such addresses have one normal form.
-/
import Mathlib.Logic.Relation
import VpnPortal.Services.Trial

namespace VpnPortal

/-- One change to an address in lower case that leaves the inbox the same: a
`+tag` is dropped, a dot is dropped at Google, or the provider goes by its other
name. -/
inductive Respelled : String → String → Prop where
  | tag (name tag domain : String) (h : '@' ∉ domain.toList) :
      Respelled (name ++ "+" ++ tag ++ "@" ++ domain) (name ++ "@" ++ domain)
  | dot (first rest : String) {domain : String}
      (h : domain = "gmail.com" ∨ domain = "googlemail.com") :
      Respelled (first ++ "." ++ rest ++ "@" ++ domain) (first ++ rest ++ "@" ++ domain)
  | google (name : String) : Respelled (name ++ "@" ++ "googlemail.com") (name ++ "@" ++ "gmail.com")
  | yandex (name : String) : Respelled (name ++ "@" ++ "ya.ru") (name ++ "@" ++ "yandex.ru")

/-- The addresses differ only in letter case and in changes of `Respelled`. -/
def SameInbox (cfg : Settings) (a b : String) : Prop :=
  Relation.EqvGen Respelled (cfg.lower (strip a)) (cfg.lower (strip b))

/-! ### The parts of an address -/

/-- The name before the tag, and at Google without its dots. -/
def mailboxName (domain : String) (name : List Char) : List Char :=
  if domain ∈ dotless then (name.takeWhile (· ≠ '+')).filter (· ≠ '.')
  else name.takeWhile (· ≠ '+')

/-- The provider under its own name. -/
def mailboxDomain (domain : String) : String := (domainAliases.lookup domain).getD domain

/-- The normal form of an address in lower case. -/
def canonicalAddress (s : String) : String :=
  String.ofList (mailboxName (mailboxDomain (splitAddress s).2) (splitAddress s).1.toList) ++ "@"
    ++ mailboxDomain (splitAddress s).2

lemma normaliseEmail_eq (cfg : Settings) (email : String) :
    normaliseEmail cfg email = canonicalAddress (cfg.lower (strip email)) := rfl

lemma splitAddress_append (name : String) {domain : String} (h : '@' ∉ domain.toList) :
    splitAddress (name ++ "@" ++ domain) = (name, domain) := by
  have hlist : (name ++ "@" ++ domain).toList = name.toList ++ '@' :: domain.toList := by simp
  have hdomain : ((name ++ "@" ++ domain).toList.reverse.takeWhile (· ≠ '@')).reverse
      = domain.toList := by
    rw [hlist, List.reverse_append, List.reverse_cons, List.append_assoc,
      List.takeWhile_append_of_pos]
    · simp
    · intro c hc
      have hne : c ≠ '@' := by
        rintro rfl
        exact h (List.mem_reverse.mp hc)
      simpa using hne
  have hlength : (name ++ "@" ++ domain).length - domain.toList.length - 1 = name.toList.length := by
    simp only [← String.length_toList, hlist, List.length_append, List.length_cons]
    omega
  unfold splitAddress
  simp only [hdomain, hlength]
  rw [hlist, List.take_left, String.ofList_toList, String.ofList_toList]

lemma canonicalAddress_append (name : String) {domain : String} (h : '@' ∉ domain.toList) :
    canonicalAddress (name ++ "@" ++ domain)
      = String.ofList (mailboxName (mailboxDomain domain) name.toList) ++ "@"
        ++ mailboxDomain domain := by
  rw [canonicalAddress, splitAddress_append name h]

/-! ### The changes -/

/-- What follows the first `+` does not count. -/
lemma takeWhile_tag (name tag : List Char) :
    (name ++ '+' :: tag).takeWhile (· ≠ '+') = name.takeWhile (· ≠ '+') := by
  induction name with
  | nil => simp
  | cons c name ih =>
      rw [List.cons_append, List.takeWhile_cons, List.takeWhile_cons, ih]

/-- A dot before the tag is dropped, and one in the tag does not count. -/
lemma filter_takeWhile_dot (first rest : List Char) :
    ((first ++ '.' :: rest).takeWhile (· ≠ '+')).filter (· ≠ '.')
      = ((first ++ rest).takeWhile (· ≠ '+')).filter (· ≠ '.') := by
  induction first with
  | nil => simp
  | cons c first ih =>
      rw [List.cons_append, List.cons_append, List.takeWhile_cons, List.takeWhile_cons]
      split
      · rw [List.filter_cons, List.filter_cons, ih]
      · rfl

lemma mailboxName_tag (domain : String) (name tag : List Char) :
    mailboxName domain (name ++ '+' :: tag) = mailboxName domain name := by
  unfold mailboxName
  rw [takeWhile_tag]

lemma mailboxName_dot {domain : String} (h : domain ∈ dotless) (first rest : List Char) :
    mailboxName domain (first ++ '.' :: rest) = mailboxName domain (first ++ rest) := by
  unfold mailboxName
  rw [if_pos h, if_pos h, filter_takeWhile_dot]

/-- **One change** keeps the normal form. -/
lemma Respelled.canonicalAddress_eq {a b : String} (h : Respelled a b) :
    canonicalAddress a = canonicalAddress b := by
  cases h with
  | tag name tag domain h =>
      rw [canonicalAddress_append _ h, canonicalAddress_append _ h]
      have hlist : (name ++ "+" ++ tag).toList = name.toList ++ '+' :: tag.toList := by simp
      rw [hlist, mailboxName_tag]
  | @dot first rest domain h =>
      have hdomain : '@' ∉ domain.toList ∧ mailboxDomain domain ∈ dotless := by
        rcases h with rfl | rfl <;> decide
      rw [canonicalAddress_append _ hdomain.1, canonicalAddress_append _ hdomain.1]
      have hlist : (first ++ "." ++ rest).toList = first.toList ++ '.' :: rest.toList := by simp
      have hlist' : (first ++ rest).toList = first.toList ++ rest.toList := by simp
      rw [hlist, hlist', mailboxName_dot hdomain.2]
  | google name =>
      have hname : mailboxDomain "googlemail.com" = mailboxDomain "gmail.com" := by decide
      rw [canonicalAddress_append name (by decide), canonicalAddress_append name (by decide), hname]
  | yandex name =>
      have hname : mailboxDomain "ya.ru" = mailboxDomain "yandex.ru" := by decide
      rw [canonicalAddress_append name (by decide), canonicalAddress_append name (by decide), hname]

/-- Any number of changes keeps it. -/
lemma canonicalAddress_of_eqvGen {x y : String} (h : Relation.EqvGen Respelled x y) :
    canonicalAddress x = canonicalAddress y := by
  induction h with
  | rel x y h => exact h.canonicalAddress_eq
  | refl x => rfl
  | symm x y _ ih => exact ih.symm
  | trans x y z _ _ ih ih' => exact ih.trans ih'

/-- **One text per inbox.** -/
lemma normaliseEmail_of_sameInbox {cfg : Settings} {a b : String} (h : SameInbox cfg a b) :
    normaliseEmail cfg a = normaliseEmail cfg b := by
  rw [normaliseEmail_eq, normaliseEmail_eq]
  exact canonicalAddress_of_eqvGen h

example : canonicalAddress "ivan.petrov+x@googlemail.com" = "ivanpetrov@gmail.com" := by
  decide +kernel

end VpnPortal
